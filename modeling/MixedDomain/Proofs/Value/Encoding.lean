import MixedDomain.Proofs.Sequence
import MixedDomain.Proofs.Text.Base64
import MixedDomain.Value.Encoding

/-!
# Values that are read back from JSON

## Canonical values

Several values have the same document: a small LONG is written as an INT, a number
that is not finite as its text, and an object with one entry of the right name as a
wrapper.  A value is canonical when it is, all the way down, the one of them that
reading chooses.

## Reading and writing

Reading gives only canonical values, and every canonical value is read back from its
document.
-/

namespace MixedDomain

/-!
# Documents
-/

/-- Whether no object gives a name twice, all the way down.  Numbers are finite in every document. -/
inductive Json.IsWellFormed : Json -> Prop where
  | null : IsWellFormed .null
  | bool (b : Bool) : IsWellFormed (.bool b)
  | int (i : Int) : IsWellFormed (.int i)
  | double {d : Binary64} (hfinite : d.isFinite = true) : IsWellFormed (.double d)
  | string (s : String) : IsWellFormed (.string s)
  | array {items : List Json} (hitems : ∀ item ∈ items, IsWellFormed item) :
      IsWellFormed (.array items)
  | object {members : List (String × Json)} (hdistinct : Entries.Distinct members)
      (hmembers : ∀ member ∈ members, IsWellFormed member.2) : IsWellFormed (.object members)

namespace Value

/-!
# Canonical values
-/

/-- Whether a value is, all the way down, the one that reading gives of those with its document. -/
inductive IsCanonical : Value -> Prop where
  | undefined : IsCanonical .undefined
  | boolean (b : Bool) : IsCanonical (.boolean b)
  | int (i : Int32) : IsCanonical (.int i)
  | long {i : Int64} (hlarge : fitsInt i.toInt = false) : IsCanonical (.long i)
  | double {d : Binary64} (hfinite : d.isFinite = true) : IsCanonical (.double d)
  | bigInteger {literal : String} (haccepted : ofBigInteger literal = .ok (.bigInteger literal)) :
      IsCanonical (.bigInteger literal)
  | bigDecimal {literal : String} (haccepted : ofBigDecimal literal = .ok (.bigDecimal literal)) :
      IsCanonical (.bigDecimal literal)
  | string (s : String) : IsCanonical (.string s)
  | bytes (octets : List UInt8) : IsCanonical (.bytes octets)
  | list {items : List Value} (hitems : ∀ item ∈ items, IsCanonical item) :
      IsCanonical (.list items)
  | object {entries : List (String × Value)} (hdistinct : Entries.Distinct entries)
      (hnoWrapper : forall key value, entries = [(key, value)] -> key ∉ wrapperKeys)
      (hentries : ∀ entry ∈ entries, IsCanonical entry.2) : IsCanonical (.object entries)
  | property (name : String) {value : Value} (hvalue : IsCanonical value) :
      IsCanonical (.property name value)
  | expression (s : String) : IsCanonical (.expression s)
  | type (kind : Kind) : IsCanonical (.type kind)

/-!
# Numbers
-/

theorem fitsInt_toInt (i : Int32) : fitsInt i.toInt = true := by
  rw [fitsInt, Bool.and_eq_true, decide_eq_true_eq, decide_eq_true_eq]
  exact ⟨Int32.minValue_le_toInt i, Int32.toInt_le i⟩

theorem fitsLong_toInt (i : Int64) : fitsLong i.toInt = true := by
  rw [fitsLong, Bool.and_eq_true, decide_eq_true_eq, decide_eq_true_eq]
  exact ⟨Int64.minValue_le_toInt i, Int64.toInt_le i⟩

theorem fitsLong_iff {i : Int} :
    fitsLong i = true ↔ -9223372036854775808 ≤ i ∧ i ≤ 9223372036854775807 := by
  rw [fitsLong, Bool.and_eq_true, decide_eq_true_eq, decide_eq_true_eq, Int64.toInt_minValue,
    Int64.toInt_maxValue]
  omega

theorem fitsLong_of_fitsInt {i : Int} (h : fitsInt i = true) : fitsLong i = true := by
  rw [fitsInt, Bool.and_eq_true, decide_eq_true_eq, decide_eq_true_eq, Int32.toInt_minValue,
    Int32.toInt_maxValue] at h
  rw [fitsLong_iff]
  omega

theorem ofInteger_of_fitsInt (i : Int32) : ofInteger i.toInt = .int i := by
  have hfits := fitsInt_toInt i
  rw [ofInteger, if_pos (fitsLong_of_fitsInt hfits), ofBoundedInt, if_pos hfits, Int32.ofInt_toInt]

theorem ofInteger_of_fitsLong {i : Int64} (hlarge : fitsInt i.toInt = false) :
    ofInteger i.toInt = .long i := by
  rw [ofInteger, if_pos (fitsLong_toInt i), ofBoundedInt, if_neg (by simp [hlarge]),
    Int64.ofInt_toInt]

theorem someDigits_toDigits (n : Nat) : Literal.someDigits (Nat.toDigits 10 n) = true := by
  rw [Literal.someDigits, Bool.and_eq_true, Bool.not_eq_true', List.isEmpty_eq_false_iff]
  refine ⟨Nat.toDigits_ne_nil, List.all_eq_true.mpr ?_⟩
  intro c hc
  exact Nat.isDigit_of_mem_toDigits (by decide) (by decide) hc

theorem withoutMinus_of_someDigits {cs : List Char} (h : Literal.someDigits cs = true) :
    Literal.withoutMinus cs = cs := by
  unfold Literal.withoutMinus
  split
  · cases h
  · rfl

theorem toList_toString_ofNat (n : Nat) : (toString (Int.ofNat n)).toList = Nat.toDigits 10 n :=
  Nat.toList_repr

theorem toList_toString_negSucc (n : Nat) :
    (toString (Int.negSucc n)).toList = '-' :: Nat.toDigits 10 (n + 1) := by
  show ("-" ++ (n + 1).repr).toList = _
  rw [String.toList_append, Nat.toList_repr]
  rfl

theorem isInteger_toString (i : Int) : Literal.isInteger (toString i).toList = true := by
  rw [Literal.isInteger]
  cases i with
  | ofNat n =>
      rw [toList_toString_ofNat, withoutMinus_of_someDigits (someDigits_toDigits n)]
      exact someDigits_toDigits n
  | negSucc n =>
      rw [toList_toString_negSucc]
      exact someDigits_toDigits (n + 1)

theorem isCanonical_ofInteger (i : Int) : (ofInteger i).IsCanonical := by
  unfold ofInteger ofBoundedInt
  split
  · rename_i hlong
    split
    · exact .int _
    · rename_i hint
      refine .long ?_
      rw [fitsLong_iff] at hlong
      rw [Int64.toInt_ofInt_of_le (by omega) (by omega)]
      simpa using hint
  · refine .bigInteger ?_
    rw [ofBigInteger, if_pos (isInteger_toString i)]

/-!
# Wrappers
-/

theorem kindOfText_name (kind : Kind) : kindOfText kind.name = .ok kind := by
  cases kind <;> rfl

theorem octetsOfText_octetText (octets : List UInt8) :
    octetsOfText (octetText octets) = .ok octets := by
  rw [octetsOfText, octetText, String.toList_ofList, Text.Base64.decode_encode]

theorem unwrapText_eq_none_iff {key : String} {inner : Json} :
    unwrapText key inner = none ∧ key ≠ propertyKey ↔ key ∉ wrapperKeys := by
  simp only [unwrapText, wrapperKeys, List.mem_cons, List.not_mem_nil, or_false, not_or]
  split_ifs <;> simp_all

theorem ofBigInteger_eq_ok {literal : String} {v : Value} (h : ofBigInteger literal = .ok v) :
    v = .bigInteger literal := by
  unfold ofBigInteger at h
  split at h
  · cases h
    rfl
  · cases h

theorem ofBigDecimal_eq_ok {literal : String} {v : Value} (h : ofBigDecimal literal = .ok v) :
    v = .bigDecimal literal := by
  unfold ofBigDecimal at h
  split at h
  · cases h
    rfl
  · cases h

theorem isCanonical_of_unwrapText {key : String} {inner : Json} {v : Value}
    (h : unwrapText key inner = some (.ok v)) : v.IsCanonical := by
  unfold unwrapText at h
  split_ifs at h
  · rcases Except.map_eq_ok (Option.some.inj h) with ⟨s, _, rfl⟩
    exact .expression s
  · rcases Except.bind_eq_ok (Option.some.inj h) with ⟨literal, _, haccepted⟩
    cases ofBigInteger_eq_ok haccepted
    exact .bigInteger haccepted
  · rcases Except.bind_eq_ok (Option.some.inj h) with ⟨literal, _, haccepted⟩
    cases ofBigDecimal_eq_ok haccepted
    exact .bigDecimal haccepted
  · rcases Except.bind_eq_ok (Option.some.inj h) with ⟨s, _, hkind⟩
    rcases Except.map_eq_ok hkind with ⟨kind, _, rfl⟩
    exact .type kind
  · rcases Except.bind_eq_ok (Option.some.inj h) with ⟨s, _, hoctets⟩
    rcases Except.map_eq_ok hoctets with ⟨octets, _, rfl⟩
    exact .bytes octets

theorem ofJson_object {members : List (String × Json)}
    (h : forall key inner, members = [(key, inner)] -> key ∉ wrapperKeys) :
    ofJson (.object members) = (membersOfJson members).map .object := by
  rcases members with _ | ⟨⟨key, inner⟩, _ | ⟨next, others⟩⟩
  · rfl
  · have hunwrap := h key inner rfl
    rw [← unwrapText_eq_none_iff] at hunwrap
    rcases hunwrap with ⟨hnone, hne⟩
    rw [ofJson, hnone, membersOfJson, membersOfJson]
    simp only [if_neg hne]
    cases ofJson inner <;> rfl
  · rfl

/-!
# Writing and reading
-/

theorem exists_of_entriesToJson_eq_singleton {entries : List (String × Value)} {key : String}
    {inner : Json} (h : entriesToJson entries = [(key, inner)]) :
    ∃ value, entries = [(key, value)] := by
  rcases entries with _ | ⟨⟨name, value⟩, _ | ⟨next, others⟩⟩ <;> cases h
  exact ⟨value, rfl⟩

mutual

theorem ofJson_toJson : (v : Value) -> v.IsCanonical -> ofJson v.toJson = .ok v
  | .undefined, _ => rfl
  | .boolean _, _ => rfl
  | .int i, _ => by
      rw [toJson, ofJson, ofInteger_of_fitsInt]
  | .long i, .long hlarge => by
      rw [toJson, ofJson, ofInteger_of_fitsLong hlarge]
  | .double d, .double hfinite => by
      rw [toJson, if_pos hfinite, ofJson]
  | .bigInteger literal, .bigInteger haccepted => haccepted
  | .bigDecimal literal, .bigDecimal haccepted => haccepted
  | .string _, _ => rfl
  | .bytes octets, _ => by
      show (octetsOfText (octetText octets)).map Value.bytes = _
      rw [octetsOfText_octetText]
      rfl
  | .list items, .list hitems => by
      rw [toJson, ofJson, itemsOfJson_itemsToJson items hitems]
      rfl
  | .object entries, .object _ hnoWrapper hentries => by
      rw [toJson, ofJson_object, membersOfJson_entriesToJson entries hentries]
      · rfl
      · intro key inner hmembers
        rcases exists_of_entriesToJson_eq_singleton hmembers with ⟨value, rfl⟩
        exact hnoWrapper key value rfl
  | .property name value, .property _ hvalue => by
      show (do
        let read ← ofJson value.toJson
        return Value.property name read) = _
      rw [ofJson_toJson value hvalue]
      rfl
  | .expression _, _ => rfl
  | .type kind, _ => by
      show (kindOfText kind.name).map Value.type = _
      rw [kindOfText_name]
      rfl

theorem itemsOfJson_itemsToJson : (items : List Value) -> (∀ item ∈ items, item.IsCanonical) ->
    itemsOfJson (itemsToJson items) = .ok items
  | [], _ => rfl
  | item :: rest, h => by
      rw [itemsToJson, itemsOfJson, ofJson_toJson item (h item List.mem_cons_self),
        itemsOfJson_itemsToJson rest fun other hmem => h other (List.mem_cons_of_mem item hmem)]
      rfl

theorem membersOfJson_entriesToJson : (entries : List (String × Value)) ->
    (∀ entry ∈ entries, entry.2.IsCanonical) ->
    membersOfJson (entriesToJson entries) = .ok entries
  | [], _ => rfl
  | (key, value) :: rest, h => by
      rw [entriesToJson, membersOfJson, ofJson_toJson value (h (key, value) List.mem_cons_self),
        membersOfJson_entriesToJson rest fun other hmem => h other (List.mem_cons_of_mem _ hmem)]
      rfl

end

theorem keys_of_membersOfJson {members : List (String × Json)} {entries : List (String × Value)}
    (h : membersOfJson members = .ok entries) : Entries.keys entries = Entries.keys members := by
  induction members generalizing entries with
  | nil =>
      cases h
      rfl
  | cons member rest ih =>
      rcases Except.bind_eq_ok h with ⟨value, _, hafter⟩
      rcases Except.bind_eq_ok hafter with ⟨values, hvalues, hend⟩
      cases hend
      exact congrArg (member.1 :: ·) (ih hvalues)

mutual

theorem isCanonical_of_ofJson : (json : Json) -> json.IsWellFormed ->
    forall {v : Value}, ofJson json = .ok v -> v.IsCanonical
  | .null, _, _, h => by
      cases h
      exact .undefined
  | .bool b, _, _, h => by
      cases h
      exact .boolean b
  | .int i, _, _, h => by
      cases h
      exact isCanonical_ofInteger i
  | .double d, .double hfinite, _, h => by
      cases h
      exact .double hfinite
  | .string s, _, _, h => by
      cases h
      exact .string s
  | .array items, .array hitems, _, h => by
      rcases Except.map_eq_ok h with ⟨values, hread, rfl⟩
      exact .list (isCanonical_of_itemsOfJson items hitems hread)
  | .object [], .object _ _, _, h => by
      cases h
      exact .object List.nodup_nil nofun (List.forall_mem_nil _)
  | .object [(key, inner)], .object _ hmembers, v, h => by
      have hinner : inner.IsWellFormed := hmembers (key, inner) List.mem_cons_self
      rw [ofJson] at h
      cases hwrapped : unwrapText key inner with
      | some result =>
          rw [hwrapped] at h
          exact isCanonical_of_unwrapText (hwrapped.trans (congrArg some h))
      | none =>
          simp only [hwrapped] at h
          split at h
          · exact isCanonical_of_propertyOfJson inner hinner h
          · rename_i hne
            rcases Except.map_eq_ok h with ⟨value, hvalue, rfl⟩
            refine .object (List.nodup_singleton key) ?_ ?_
            · intro name other heq
              cases heq
              exact unwrapText_eq_none_iff.mp ⟨hwrapped, hne⟩
            · exact List.forall_mem_singleton.mpr (isCanonical_of_ofJson inner hinner hvalue)
  | .object (first :: second :: rest), .object hdistinct hmembers, v, h => by
      rcases Except.map_eq_ok h with ⟨entries, hread, rfl⟩
      have hkeys := keys_of_membersOfJson hread
      refine .object ?_ ?_ (isCanonical_of_membersOfJson (first :: second :: rest) hmembers hread)
      · rw [Entries.Distinct, hkeys]
        exact hdistinct
      · rintro key value rfl
        cases hkeys

theorem isCanonical_of_itemsOfJson : (items : List Json) -> (∀ item ∈ items, item.IsWellFormed) ->
    forall {values : List Value}, itemsOfJson items = .ok values ->
      ∀ value ∈ values, value.IsCanonical
  | [], _, _, h => by
      cases h
      exact List.forall_mem_nil _
  | item :: rest, hitems, _, h => by
      rcases Except.bind_eq_ok h with ⟨value, hvalue, hafter⟩
      rcases Except.bind_eq_ok hafter with ⟨values, hvalues, hend⟩
      cases hend
      rcases List.forall_mem_cons.mp hitems with ⟨hitem, hrest⟩
      exact List.forall_mem_cons.mpr ⟨isCanonical_of_ofJson item hitem hvalue,
        isCanonical_of_itemsOfJson rest hrest hvalues⟩

theorem isCanonical_of_membersOfJson : (members : List (String × Json)) ->
    (∀ member ∈ members, member.2.IsWellFormed) ->
    forall {entries : List (String × Value)}, membersOfJson members = .ok entries ->
      ∀ entry ∈ entries, entry.2.IsCanonical
  | [], _, _, h => by
      cases h
      exact List.forall_mem_nil _
  | (key, json) :: rest, hmembers, _, h => by
      rcases Except.bind_eq_ok h with ⟨value, hvalue, hafter⟩
      rcases Except.bind_eq_ok hafter with ⟨values, hvalues, hend⟩
      cases hend
      rcases List.forall_mem_cons.mp hmembers with ⟨hmember, hrest⟩
      exact List.forall_mem_cons.mpr ⟨isCanonical_of_ofJson json hmember hvalue,
        isCanonical_of_membersOfJson rest hrest hvalues⟩

theorem isCanonical_of_propertyOfJson : (inner : Json) -> inner.IsWellFormed ->
    forall {v : Value}, propertyOfJson inner = .ok v -> v.IsCanonical
  | .object members, .object _ hmembers, _, h => by
      rcases Except.bind_eq_ok h with ⟨name, _, hafter⟩
      rcases Except.bind_eq_ok hafter with ⟨value, hvalue, hend⟩
      cases hend
      exact .property name (isCanonical_of_memberOfJson "value" members hmembers hvalue)

theorem isCanonical_of_memberOfJson (name : String) : (members : List (String × Json)) ->
    (∀ member ∈ members, member.2.IsWellFormed) ->
    forall {v : Value}, memberOfJson name members = .ok v -> v.IsCanonical
  | [], _, _, h => by
      cases h
      exact .undefined
  | (key, json) :: rest, hmembers, _, h => by
      rcases List.forall_mem_cons.mp hmembers with ⟨hmember, hrest⟩
      rw [memberOfJson] at h
      split at h
      · exact isCanonical_of_ofJson json hmember h
      · exact isCanonical_of_memberOfJson name rest hrest h

end

/-!
# Documents of canonical values
-/

theorem itemsToJson_eq_map (items : List Value) : itemsToJson items = items.map toJson := by
  induction items with
  | nil => rfl
  | cons item rest ih => rw [itemsToJson, ih, List.map_cons]

theorem entriesToJson_eq_map (entries : List (String × Value)) :
    entriesToJson entries = entries.map fun entry => (entry.1, entry.2.toJson) := by
  induction entries with
  | nil => rfl
  | cons entry rest ih => rw [entriesToJson, ih, List.map_cons]

theorem isWellFormed_wrap (key : String) {inner : Json} (h : inner.IsWellFormed) :
    (wrap key inner).IsWellFormed :=
  .object (List.nodup_singleton key) (List.forall_mem_singleton.mpr h)

theorem isWellFormed_toJson {v : Value} (h : v.IsCanonical) : v.toJson.IsWellFormed := by
  induction h with
  | undefined => exact .null
  | boolean b => exact .bool b
  | int i => exact .int _
  | long _ => exact .int _
  | double hfinite =>
      rw [toJson, if_pos hfinite]
      exact .double hfinite
  | bigInteger _ => exact isWellFormed_wrap bigIntegerKey (.string _)
  | bigDecimal _ => exact isWellFormed_wrap bigDecimalKey (.string _)
  | string s => exact .string s
  | bytes octets => exact isWellFormed_wrap bytesKey (.string _)
  | list _ ih =>
      rw [toJson, itemsToJson_eq_map]
      exact .array (List.forall_mem_map.mpr ih)
  | object hdistinct _ _ ih =>
      rw [toJson, entriesToJson_eq_map]
      refine .object ?_ (List.forall_mem_map.mpr ih)
      rw [Entries.Distinct, Entries.keys, List.map_map]
      exact hdistinct
  | property name _ ih =>
      refine isWellFormed_wrap propertyKey (.object ?_ ?_)
      · simp [Entries.Distinct, Entries.keys]
      · exact List.forall_mem_cons.mpr ⟨.string name, List.forall_mem_singleton.mpr ih⟩
  | expression s => exact isWellFormed_wrap expressionKey (.string s)
  | type kind => exact isWellFormed_wrap typeKey (.string _)

/-!
# Which values are read back
-/

/-- The canonical values are those that are written as a well-formed document and read back from it.
Reading a well-formed document gives a canonical value, and hence the same value again when it is
written and read. -/
theorem isCanonical_iff_ofJson_toJson :
    (forall v : Value, v.IsCanonical ↔ v.toJson.IsWellFormed ∧ ofJson v.toJson = .ok v) ∧
    forall (json : Json) (v : Value), json.IsWellFormed -> ofJson json = .ok v ->
      v.IsCanonical ∧ ofJson v.toJson = .ok v := by
  constructor
  · intro v
    constructor
    · exact fun h => ⟨isWellFormed_toJson h, ofJson_toJson v h⟩
    · rintro ⟨hformed, hread⟩
      exact isCanonical_of_ofJson v.toJson hformed hread
  · intro json v hformed hread
    have hcanonical := isCanonical_of_ofJson json hformed hread
    exact ⟨hcanonical, ofJson_toJson v hcanonical⟩

namespace MailDocument

/-- A document with a number that no LONG holds, a wrapper, and an object that only looks like one. -/
def json : Json :=
  .object [("limits", .array [.int 7, .int 2147483648, .int 9223372036854775808]),
    ("secret", .object [("BYTES_VALUE", .string "AQI=")]),
    ("plain", .object [("BYTES_VALUE", .string "AQI="), ("other", .null)])]

def value : Value :=
  .object [("limits", .list [.int 7, .long 2147483648, .bigInteger "9223372036854775808"]),
    ("secret", .bytes [1, 2]),
    ("plain", .object [("BYTES_VALUE", .string "AQI="), ("other", .undefined)])]

end MailDocument

open MailDocument in
theorem isCanonical_mailDocument :
    json.IsWellFormed ∧ ofJson json = .ok value ∧ value.IsCanonical ∧
      ofJson value.toJson = .ok value := by
  have hread : ofJson json = .ok value := by
    rfl
  have hformed : json.IsWellFormed := by
    refine .object (by simp [Entries.Distinct, Entries.keys]) ?_
    simp only [List.forall_mem_cons]
    refine ⟨.array ?_, isWellFormed_wrap bytesKey (.string _), .object ?_ ?_,
      List.forall_mem_nil _⟩
    · simp only [List.forall_mem_cons]
      exact ⟨.int 7, .int _, .int _, List.forall_mem_nil _⟩
    · simp [Entries.Distinct, Entries.keys]
    · simp only [List.forall_mem_cons]
      exact ⟨.string _, .null, List.forall_mem_nil _⟩
  exact ⟨hformed, hread, isCanonical_iff_ofJson_toJson.2 json value hformed hread⟩

end Value
end MixedDomain
