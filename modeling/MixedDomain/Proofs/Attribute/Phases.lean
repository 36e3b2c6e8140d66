import MixedDomain.Proofs.Attribute.Grouping
import MixedDomain.Proofs.Attribute.Writing
import MixedDomain.Proofs.Rejection

/-!
# The phases together

## One attribute

With distinct names, and with new names that are apart from all others, no attribute
meets another one on its way through the phases.  What becomes of it is decided by
its own description and by the value that came.

## The rest

Everything that no description is about keeps its value and its place among all that
no description is about.

## Rejections

An operation is rejected for what the checks of the attributes that are not
discarded say about the values that came.
-/

namespace MixedDomain

open TransformM

namespace AttributeDescription

variable {d : AttributeDescription} {ds : List AttributeDescription} {a : Address} {c c' : Context}
  {operation v : Value} {entries before : List (String × Value)} {o : Outcome}

def IsDiscarded (d : AttributeDescription) (a : Address) (operation : Value) (c : Context) : Prop :=
  d.discardsParameter a (operation.getOrUndefined d.name) operation c = true

instance (d : AttributeDescription) (a : Address) (operation : Value) (c : Context) :
    Decidable (d.IsDiscarded a operation c) :=
  inferInstanceAs (Decidable (_ = true))

def keptParameters (ds : List AttributeDescription) (a : Address) (operation : Value)
    (c : Context) : List AttributeDescription :=
  ds.filter fun d => ¬ d.IsDiscarded a operation c

theorem mem_keptParameters_iff :
    d ∈ keptParameters ds a operation c ↔ d ∈ ds ∧ ¬ d.IsDiscarded a operation c := by
  simp [keptParameters]

theorem remaining_discardedParameters (hnames : (ds.map name).Nodup) (a : Address)
    (operation : Value) (c : Context) :
    remaining ds (discardedParameters ds a operation c) = keptParameters ds a operation c := by
  apply List.filter_congr
  intro d hd
  have hiff : d.name ∈ discardedParameters ds a operation c ↔ d.IsDiscarded a operation c :=
    mem_discardedParameters_iff hnames hd
  simp [hiff]

/-!
# Rejections by the values that came
-/

theorem findings_congr {w : Value}
    (h : ∀ d ∈ ds, v.getOrUndefined d.name = w.getOrUndefined d.name) :
    findings ds a v c = findings ds a w c := by
  induction ds with
  | nil =>
      rfl
  | cons d rest ih =>
      rcases List.forall_mem_cons.mp h with ⟨hhere, hrest⟩
      rw [findings, findings, List.flatMap_cons, List.flatMap_cons, hhere]
      exact congrArg _ (ih hrest)

/-- What is left of a parameter that is not discarded is the value that came. -/
theorem getOrUndefined_eraseAll (hnames : (ds.map name).Nodup)
    (hd : d ∈ keptParameters ds a operation c) :
    (eraseAll (discardedParameters ds a operation c) operation).getOrUndefined d.name =
      operation.getOrUndefined d.name := by
  rcases mem_keptParameters_iff.mp hd with ⟨hmem, hkept⟩
  have hname := fun h => hkept ((mem_discardedParameters_iff hnames hmem).mp h)
  rw [Value.getOrUndefined, get?_eraseAll hname, ← Value.getOrUndefined]

theorem groups_parameterRejections (hnames : (ds.map name).Nodup) :
    Rejections.Groups (findings (keptParameters ds a operation c) a operation c)
      (parameterRejections ds a operation c) := by
  rw [parameterRejections, remaining_discardedParameters hnames,
    ← findings_congr fun d hd => getOrUndefined_eraseAll hnames hd]
  exact groups_rejections _ a _ c

theorem parameterRejections_ne_nil_iff (hnames : (ds.map name).Nodup) :
    parameterRejections ds a operation c ≠ [] ↔
      ∃ d ∈ ds, ¬ d.IsDiscarded a operation c ∧
        ∃ check ∈ d.rejects, check.rejects a d.name (operation.getOrUndefined d.name) c = true := by
  rw [parameterRejections, remaining_discardedParameters hnames, Ne, rejections_eq_nil_iff]
  push Not
  constructor
  · rintro ⟨d, hd, hrejecting⟩
    rw [getOrUndefined_eraseAll hnames hd] at hrejecting
    rcases List.exists_mem_of_ne_nil _ hrejecting with ⟨check, hcheck⟩
    rcases mem_keptParameters_iff.mp hd with ⟨hmem, hkept⟩
    exact ⟨d, hmem, hkept, check, List.mem_filter.mp hcheck⟩
  · rintro ⟨d, hmem, hkept, check, hcheck⟩
    have hd := mem_keptParameters_iff.mpr ⟨hmem, hkept⟩
    refine ⟨d, hd, List.ne_nil_of_mem (a := check) ?_⟩
    rw [getOrUndefined_eraseAll hnames hd]
    exact List.mem_filter.mpr hcheck

/-!
# Discarded attributes
-/

section

variable (rejects : AttributeDescription -> List RejectCheck)
  (conversion? : AttributeDescription -> Option Conversion)

def replacing (a : Address) (operation : Value) (c : Context) (d : AttributeDescription) :
    AttributeDescription :=
  if d.IsDiscarded a operation c then
    { d with rejects := rejects d, conversion? := conversion? d }
  else d

theorem name_replacing : (replacing rejects conversion? a operation c d).name = d.name := by
  unfold replacing
  split <;> rfl

theorem newName?_replacing :
    (replacing rejects conversion? a operation c d).newName? = d.newName? := by
  unfold replacing
  split <;> rfl

theorem discardsParameter_replacing :
    (replacing rejects conversion? a operation c d).discardsParameter a v operation c =
      d.discardsParameter a v operation c := by
  unfold replacing
  split <;> rfl

theorem renameAll_replacing (ds : List AttributeDescription) (v : Value) :
    renameAll (ds.map (replacing rejects conversion? a operation c)) v = renameAll ds v := by
  induction ds generalizing v with
  | nil =>
      rfl
  | cons d rest ih =>
      simp only [List.map_cons, renameAll, newName?_replacing, name_replacing]
      cases d.newName? with
      | none => exact ih v
      | some newName => exact congrArg _ (funext ih)

theorem discardedParameters_replacing (ds : List AttributeDescription) :
    discardedParameters (ds.map (replacing rejects conversion? a operation c)) a operation c =
      discardedParameters ds a operation c := by
  rw [discardedParameters, discardedParameters, List.filter_map, List.map_map]
  simp only [Function.comp_def, name_replacing, discardsParameter_replacing]

theorem remaining_replacing (ds : List AttributeDescription) :
    remaining (ds.map (replacing rejects conversion? a operation c))
        (discardedParameters ds a operation c) =
      remaining ds (discardedParameters ds a operation c) := by
  rw [remaining, remaining, List.filter_map]
  simp only [Function.comp_def, name_replacing]
  apply (List.map_congr_left _).trans (List.map_id _)
  intro d hd
  rcases mem_remaining_iff.mp hd with ⟨hmem, hkept⟩
  refine if_neg fun hdiscarded => hkept ?_
  exact List.mem_map_of_mem (List.mem_filter.mpr ⟨hmem, hdiscarded⟩)

theorem run_transformParameters_replacing (ds : List AttributeDescription) (a : Address)
    (operation : Value) (c : Context) :
    run (transformParameters (ds.map (replacing rejects conversion? a operation c)) a operation) c =
      run (transformParameters ds a operation) c := by
  rw [transformParameters, transformParameters, run_get_bind, run_get_bind]
  simp only [discardedParameters_replacing, remaining_replacing, renameAll_replacing]

end

/-!
# What is sent
-/

/-- An operation whose parameters are transformed is sent as the phases leave it; if there are
rejections it has a name, and every result is rejected with their messages. -/
theorem run_transformParameters_eq_ok (hb : ∀ d ∈ ds, d.IsBuiltIn)
    (hoperation : IsDistinctObject operation)
    (hrun : run (transformParameters ds a operation) c = (.ok o, c')) :
    c' = c ∧ ∃ before, Entries.Distinct before ∧
      run (convertedParameters ds a operation) c = (.ok (.object before), c) ∧
      o.operation? = some (.object (renameEntries ds before)) ∧
      ((parameterRejections ds a operation c = [] ∧ forall result, o.verdict? result = none) ∨
        (parameterRejections ds a operation c ≠ [] ∧ ∃ operationName,
          Operation.name operation = .ok operationName ∧
          forall result, o.verdict? result =
            some (some (rejectedAttributesMessage c.target a operationName
              (parameterRejections ds a operation c).messages)))) := by
  rcases run_transformParameters_eq hb a c hoperation with ⟨before, hbefore, hconverted, hphases⟩
  rw [hphases] at hrun
  split at hrun
  case isTrue hnone =>
      cases hrun
      refine ⟨rfl, before, hbefore, hconverted, rfl, Or.inl ⟨List.isEmpty_iff.mp hnone, ?_⟩⟩
      exact Outcome.verdict?_of_isFixed (Outcome.isFixed_send _)
  case isFalse hsome =>
      rcases run_bind_eq_ok hrun with ⟨operationName, mid, hread, hreject⟩
      rcases run_ofValue_eq_ok hread with ⟨hname, hmid⟩
      subst hmid
      cases hreject
      refine ⟨rfl, before, hbefore, hconverted, rfl, Or.inr ⟨?_, operationName, hname, ?_⟩⟩
      · exact fun hnone => hsome (List.isEmpty_iff.mpr hnone)
      · exact Outcome.verdict?_of_isFixed (Outcome.isFixed_rejected _ _)

/-!
# Entries without a description
-/

def isOther (ds : List AttributeDescription) (key : String) : Bool :=
  !(ds.map name).contains key && !(ds.filterMap newName?).contains key

theorem isOther_name (hd : d ∈ ds) : isOther ds d.name = false := by
  have hmem : d.name ∈ ds.map name := List.mem_map_of_mem hd
  simp only [isOther, List.contains_iff_mem.mpr hmem, Bool.not_true, Bool.false_and]

theorem isOther_newName (hd : d ∈ ds) {newName : String} (hnew : newName ∈ d.newName?) :
    isOther ds newName = false := by
  have hmem : newName ∈ ds.filterMap newName? := List.mem_filterMap.mpr ⟨d, hd, hnew⟩
  simp only [isOther, List.contains_iff_mem.mpr hmem, Bool.not_true, Bool.and_false]

theorem filter_renameEntries {other : String -> Bool}
    (h : ∀ d ∈ ds, other d.name = false ∧ ∀ newName ∈ d.newName?, other newName = false)
    (entries : List (String × Value)) :
    (renameEntries ds entries).filter (fun entry => other entry.1) =
      entries.filter fun entry => other entry.1 := by
  induction ds generalizing entries with
  | nil =>
      rfl
  | cons d rest ih =>
      rcases List.forall_mem_cons.mp h with ⟨⟨hname, hnewName⟩, hrest⟩
      unfold renameEntries
      cases hnew : d.newName? with
      | none => exact ih hrest entries
      | some newName =>
          exact (ih hrest _).trans (Entries.filter_move hname (hnewName newName hnew))

theorem filter_of_convertedParameters {other : String -> Bool} (h : ∀ d ∈ ds, other d.name = false)
    (hrun : run (convertedParameters ds a (.object entries)) c = (.ok (.object before), c')) :
    before.filter (fun entry => other entry.1) = entries.filter fun entry => other entry.1 := by
  let kept : Value -> Prop := fun v => ∃ left, v = .object left ∧
    left.filter (fun entry => other entry.1) = entries.filter fun entry => other entry.1
  have hreduced : kept (eraseAll (discardedParameters ds a (.object entries) c)
      (.object entries)) := by
    apply List.foldlRecOn (motive := kept)
    · exact ⟨entries, rfl, rfl⟩
    · rintro _ ⟨left, rfl, hleft⟩ key hkey
      rcases List.mem_map.mp hkey with ⟨d, hd, rfl⟩
      exact ⟨_, rfl, (Entries.filter_erase (h d (List.mem_filter.mp hd).1)).trans hleft⟩
  rw [convertedParameters, run_get_bind] at hrun
  have hconverted : kept (.object before) := by
    refine convertAll_keeps ?_ hreduced hrun
    rintro d hd _ value _ ⟨left, rfl, hleft⟩ hset
    cases hset
    exact ⟨_, rfl, (Entries.filter_insert value (h d (mem_remaining_iff.mp hd).1)).trans hleft⟩
  rcases hconverted with ⟨_, heq, hbefore⟩
  cases heq
  exact hbefore

/-!
# Whole operations
-/

/-- A converted value is there if there was one before, or if it is defined. -/
theorem convertedEntry?_eq (d : AttributeDescription) (a : Address) (v : Value) (c : Context) :
    d.convertedEntry? a (v.get? d.name) c =
      if v.has d.name || (d.converted a (v.getOrUndefined d.name) c).isDefined then
        some (d.converted a (v.getOrUndefined d.name) c)
      else none := by
  unfold convertedEntry?
  cases hconversion : d.conversion? with
  | some conversion => rfl
  | none =>
      have hsame : d.converted a (v.getOrUndefined d.name) c = v.getOrUndefined d.name := by
        simp only [converted, hconversion]
      rw [hsame, Value.has, Value.getOrUndefined]
      cases v.get? d.name <;> simp [Value.isDefined]

/-- What the phases make of the entries of an operation. -/
structure MadeInPhases (ds : List AttributeDescription) (a : Address) (c : Context)
    (entries sent : List (String × Value)) (o : Outcome) : Prop where
  /-- Nothing is left of attributes that are discarded. -/
  discarded : ∀ d ∈ ds, d.IsDiscarded a (.object entries) c ->
    d.name ∉ Entries.keys sent ∧ ∀ newName ∈ d.newName?, newName ∉ Entries.keys sent
  kept : ∀ d ∈ ds, ¬ d.IsDiscarded a (.object entries) c -> ∃ value,
    run (d.convert a ((Value.object entries).getOrUndefined d.name)) c = (.ok value, c) ∧
    (Entries.get? (d.newName?.getD d.name) sent =
      if (Value.object entries).has d.name || value.isDefined then some value else none) ∧
    ∀ newName ∈ d.newName?, d.name ∉ Entries.keys sent
  /-- All else stays as it is, and in its order. -/
  others : sent.filter (fun entry => isOther ds entry.1) =
    entries.filter fun entry => entry.1 ∉ ds.map name
  rejected_iff : forall result, (o.verdict? result).isSome ↔
    ∃ d ∈ ds, ¬ d.IsDiscarded a (.object entries) c ∧ ∃ check ∈ d.rejects,
      check.rejects a d.name ((Value.object entries).getOrUndefined d.name) c = true
  /-- The description of the failure has the message of each group of rejections, in order. -/
  message : forall result description?, o.verdict? result = some description? ->
    ∃ operationName groups, Operation.name (.object entries) = .ok operationName ∧
      Rejections.Groups
        (findings (keptParameters ds a (.object entries) c) a (.object entries) c) groups ∧
      description? = some (rejectedAttributesMessage c.target a operationName
        ("; ".intercalate (groups.map fun group => group.1.message group.2)))

/-- Nothing is left under a name that is renamed. -/
theorem name_not_mem_keys_renameEntries {reserved : List String} (hnames : (ds.map name).Nodup)
    (hrenames : RenamesApart reserved ds) (hbefore : Entries.Distinct before) (hd : d ∈ ds)
    {newName : String} (hnew : newName ∈ d.newName?) :
    d.name ∉ Entries.keys (renameEntries ds before) := by
  intro hkey
  rcases (mem_keys_renameEntries hbefore).mp hkey with ⟨key, _, heq⟩
  rw [nameInOrder_eq_nameOnTarget hnames hrenames.unchained] at heq
  have hgiven : ∃ other ∈ ds, other.newName? = some d.name := by
    rcases RenamesApart.nameOnTarget_cases ds key with ⟨other, hother, _, hgives⟩ | hsame
    · exact ⟨other, hother, hgives.trans (congrArg some heq)⟩
    · have hself : nameOnTarget ds d.name = d.name := by
        rwa [← hsame.symm.trans heq]
      rw [nameOnTarget_of_mem hnames hd, hnew, Option.getD_some] at hself
      exact ⟨d, hd, hnew.trans (congrArg some hself)⟩
  exact hrenames.fresh d.name (List.mem_filterMap.mpr hgiven) (List.mem_map_of_mem hd)

theorem filter_isOther (hrenames : RenamesApart (Entries.keys entries) ds)
    (hrun : run (convertedParameters ds a (.object entries)) c = (.ok (.object before), c')) :
    (renameEntries ds before).filter (fun entry => isOther ds entry.1) =
      entries.filter fun entry => entry.1 ∉ ds.map name := by
  rw [filter_renameEntries fun d hd => ⟨isOther_name hd, fun _ hnew => isOther_newName hd hnew⟩,
    filter_of_convertedParameters (fun d hd => isOther_name hd) hrun]
  apply List.filter_congr
  intro entry hentry
  have hspared : entry.1 ∉ ds.filterMap newName? := fun hnew =>
    hrenames.spares entry.1 hnew (List.mem_map_of_mem hentry)
  by_cases hname : entry.1 ∈ ds.map name <;>
    simp only [isOther, List.contains_eq_mem, hname, hspared, decide_true, decide_false,
      not_true, not_false_eq_true, Bool.not_true, Bool.not_false, Bool.and_self, Bool.false_and]

/-- For attributes with distinct names and new names apart from all names: what the phases make of
an operation is decided attribute by attribute, and the context stays as it is.  The checks and
conversions of discarded attributes play no part. -/
theorem madeInPhases_of_run (hb : ∀ d ∈ ds, d.IsBuiltIn) (hnames : (ds.map name).Nodup)
    (hentries : Entries.Distinct entries) (hrenames : RenamesApart (Entries.keys entries) ds)
    (hrun : run (transformParameters ds a (.object entries)) c = (.ok o, c')) :
    c' = c ∧ (∃ sent, o.operation? = some (.object sent) ∧ MadeInPhases ds a c entries sent o) ∧
      forall rejects conversion?,
        run (transformParameters
          (ds.map (replacing rejects conversion? a (.object entries) c)) a (.object entries)) c =
          (.ok o, c') := by
  rcases run_transformParameters_eq_ok hb ⟨entries, rfl, hentries⟩ hrun with
    ⟨hcontext, before, hbefore, hconverted, hsent, hrejection⟩
  have hkeys := mem_keys_of_convertedParameters hconverted
  have hown : ∀ d ∈ ds, Entries.get? d.name before =
      if d.IsDiscarded a (.object entries) c then none
      else d.convertedEntry? a (Entries.get? d.name entries) c := fun d hd =>
    get?_of_convertedParameters hb hnames hd (.object hentries) hconverted
  have hfinal := fun d (hd : d ∈ ds) => get?_renameEntries hnames hrenames hbefore hkeys hd
  have hmoved := fun d (hd : d ∈ ds) newName (hnew : newName ∈ d.newName?) =>
    name_not_mem_keys_renameEntries hnames hrenames hbefore hd hnew
  refine ⟨hcontext, ⟨_, hsent, ?_⟩, ?_⟩
  · constructor
    case discarded =>
      intro d hd hdiscarded
      have hnone := (hfinal d hd).trans ((hown d hd).trans (if_pos hdiscarded))
      rw [Entries.get?_eq_none_iff] at hnone
      cases hnew : d.newName? with
      | none =>
          rw [hnew, Option.getD_none] at hnone
          exact ⟨hnone, nofun⟩
      | some newName =>
          rw [hnew, Option.getD_some] at hnone
          refine ⟨hmoved d hd newName hnew, ?_⟩
          rintro _ ⟨⟩
          exact hnone
    case kept =>
      intro d hd hkept
      refine ⟨_, run_convert (hb d hd) a _ c, ?_, hmoved d hd⟩
      rw [hfinal d hd, hown d hd, if_neg hkept]
      exact convertedEntry?_eq d a (.object entries) c
    case others => exact filter_isOther hrenames hconverted
    case rejected_iff =>
      intro result
      rw [← parameterRejections_ne_nil_iff hnames]
      rcases hrejection with ⟨hnone, hverdict⟩ | ⟨hsome, _, _, hverdict⟩
      · simp [hverdict, hnone]
      · simp [hverdict, hsome]
    case message =>
      intro result description? hrejected
      rcases hrejection with ⟨_, hverdict⟩ | ⟨_, operationName, hname, hverdict⟩
      · rw [hverdict] at hrejected
        cases hrejected
      · rw [hverdict] at hrejected
        cases hrejected
        exact ⟨operationName, _, hname, groups_parameterRejections hnames, rfl⟩
  · intro rejects conversion?
    rw [run_transformParameters_replacing]
    exact hrun

namespace MailPolicies

def mail : Address :=
  [Address.subsystemElement "mail"]

/-- The usual port is not sent; encryption is rejected, and always switched off; expressions are
rejected. -/
def descriptions : List AttributeDescription :=
  [⟨"port", some (.values [.int 25] true), [.expressions], none, some "listen-port"⟩,
    ⟨"tls", none, [.defined, .expressions], some (.fixed (.boolean false)), some "secure"⟩,
    ⟨"from", none, [.expressions], none, none⟩]

def parameters : List (String × Value) :=
  [("operation", .string "add"), ("port", .int 25), ("from", .expression "$\x7bmail.from\x7d"),
    ("tls", .expression "$\x7bmail.tls\x7d"), ("debug", .boolean true)]

def sentParameters : List (String × Value) :=
  [("operation", .string "add"), ("from", .expression "$\x7bmail.from\x7d"),
    ("debug", .boolean true), ("secure", .boolean false)]

/-- The attributes that are rejected, for each of the two messages. -/
def groups : Rejections :=
  [(.defined, [("tls", .expression "$\x7bmail.tls\x7d")]),
    (.expressions, [("from", .expression "$\x7bmail.from\x7d"),
      ("tls", .expression "$\x7bmail.tls\x7d")])]

/-- The message has a part about encryption, and one about both expressions. -/
def rejection : String :=
  "Operation 'add' at '/subsystem=mail' was rejected by host 'legacy-host' (model version 1.0.0): "
    ++ "Attributes [tls] are not understood in the target model version and must be undefined; "
    ++ "Attributes [from, tls] use expressions, which are not supported by the target model version"

/-- The context at the beginning, in which no resource type is registered. -/
def context : Context :=
  Context.start ⟨"legacy-host", ⟨1, 4, 0⟩, [("mail", ⟨1, 0, 0⟩)], .host⟩
    (ManagementModel.ofRoot .empty)

end MailPolicies

open MailPolicies in
theorem madeInPhases_mail :
    (∀ d ∈ descriptions, d.IsBuiltIn) ∧ (descriptions.map name).Nodup ∧
    Entries.Distinct parameters ∧ RenamesApart (Entries.keys parameters) descriptions ∧
    run (transformParameters descriptions mail (.object parameters)) context =
      (.ok (.rejected (.object sentParameters) rejection), context) ∧
    MadeInPhases descriptions mail context parameters sentParameters
      (.rejected (.object sentParameters) rejection) := by
  have hb : ∀ d ∈ descriptions, d.IsBuiltIn := by
    intro d hd
    simp only [descriptions, List.mem_cons, List.not_mem_nil, or_false] at hd
    rcases hd with rfl | rfl | rfl
    · constructor
      · rintro _ ⟨⟩
        trivial
      · exact List.forall_mem_singleton.mpr .expressions
      · exact nofun
    · constructor
      · exact nofun
      · exact List.forall_mem_cons.mpr ⟨.defined, List.forall_mem_singleton.mpr .expressions⟩
      · rintro _ ⟨⟩
        trivial
    · exact ⟨nofun, List.forall_mem_singleton.mpr .expressions, nofun⟩
  have hnames : (descriptions.map name).Nodup := by
    decide
  have hentries : Entries.Distinct parameters := by
    unfold Entries.Distinct
    decide
  have hrenames : RenamesApart (Entries.keys parameters) descriptions := by
    constructor <;> decide
  have hrun : run (transformParameters descriptions mail (.object parameters)) context =
      (.ok (.rejected (.object sentParameters) rejection), context) := by
    have hmessage :
        rejectedAttributesMessage context.target mail "add" groups.messages = rejection := by
      decide +kernel
    rw [← hmessage]
    rfl
  rcases madeInPhases_of_run hb hnames hentries hrenames hrun with ⟨_, ⟨_, hsent, hmade⟩, _⟩
  cases hsent
  exact ⟨hb, hnames, hentries, hrenames, hrun, hmade⟩

end AttributeDescription
end MixedDomain
