import MixedDomain.Address.Encoding
import MixedDomain.Proofs.Sequence
import MixedDomain.Proofs.Text.Split

/-!
# Addresses that are read back

## Legible addresses

The text of an address does not protect the separators in its elements, and reading
drops blanks at its end.  An address is legible when its elements are free of the
separators that reading looks for, none of their parts is empty, and the last value
does not end with a blank.

## Reading and writing

Reading a text gives only the root and legible addresses, and these are exactly the
addresses that are read back from their text.  As a value, every address is read back.
-/

namespace MixedDomain

/-!
# Addresses as values
-/

theorem Address.ofValue_toValue (a : Address) : Address.ofValue a.toValue = .ok a := by
  have hproperties : (a.map PathElement.toValue).mapM Value.asProperty =
      Except.ok (a.map fun e => (e.key, Value.string e.value)) := by
    induction a with
    | nil => rfl
    | cons e rest ih =>
        rw [List.map_cons, List.mapM_cons, ih]
        rfl
  have helements : (a.map fun e => (e.key, Value.string e.value)).mapM elementOfProperty =
      Except.ok a := by
    clear hproperties
    induction a with
    | nil => rfl
    | cons e rest ih =>
        rw [List.map_cons, List.mapM_cons, ih]
        rfl
  show (do
    let properties ← (a.map PathElement.toValue).mapM Value.asProperty
    properties.mapM elementOfProperty) = _
  rw [hproperties]
  exact helements

/-!
# Elements as text
-/

namespace PathElement

variable {e : PathElement} {s : String}

/-- Whether an element stands between slashes as its text does: neither part is empty or has a
slash, and the key has no equals sign. -/
structure IsLegible (e : PathElement) : Prop where
  key_ne_nil : e.key.toList ≠ []
  slash_not_mem_key : '/' ∉ e.key.toList
  equals_not_mem_key : '=' ∉ e.key.toList
  value_ne_nil : e.value.toList ≠ []
  slash_not_mem_value : '/' ∉ e.value.toList

theorem toList_text (e : PathElement) : e.text.toList = e.key.toList ++ '=' :: e.value.toList := by
  simp [text]

theorem suffix_text (e : PathElement) : e.value.toList <:+ e.text.toList := by
  rw [toList_text]
  exact (List.suffix_cons '=' _).trans (List.suffix_append _ _)

theorem ofText_text (h : e.IsLegible) : ofText e.text = .ok e := by
  rw [ofText, toList_text, Text.cut_append_cons h.equals_not_mem_key]
  simp [h.key_ne_nil, h.value_ne_nil]

/-- Reading cuts a text at an equals sign, and neither part is empty. -/
theorem ofText_eq_ok (h : ofText s = .ok e) :
    s.toList = e.text.toList ∧ e.key.toList ≠ [] ∧ '=' ∉ e.key.toList ∧ e.value.toList ≠ [] := by
  rw [toList_text]
  unfold ofText at h
  split at h
  · cases h
  · rename_i key value hcut
    rcases Text.cut_eq_some hcut with ⟨hs, hnot⟩
    split at h
    · cases h
    · rename_i hfull
      cases h
      simp only [Bool.or_eq_true, List.isEmpty_iff, not_or] at hfull
      simp only [String.toList_ofList]
      exact ⟨hs, hfull.1, hnot, hfull.2⟩

theorem IsLegible.slash_not_mem_text (h : e.IsLegible) : '/' ∉ e.text.toList := by
  rw [toList_text, List.mem_append, List.mem_cons]
  simp [h.slash_not_mem_key, h.slash_not_mem_value]

end PathElement

/-!
# Addresses as text
-/

namespace Address

variable {a : Address} {s : String}

/-- Whether an address can be read off its text: its elements are legible, and its last value does
not end with a blank. -/
structure IsLegible (a : Address) : Prop where
  elements : ∀ e ∈ a, e.IsLegible
  ending : ∀ e ∈ a.getLast?, ∀ c ∈ e.value.toList.getLast?, Text.isBlank c = false

def segments (a : Address) : List (List Char) :=
  a.map fun e => e.text.toList

theorem toList_text_eq_flatMap (hne : a ≠ []) :
    a.text.toList = a.flatMap fun e => '/' :: e.text.toList := by
  rw [text, if_neg (by simpa using hne), String.toList_join, List.flatMap_map]
  simp

theorem toList_text_eq_join (hne : a ≠ []) :
    a.text.toList = '/' :: Text.join ['/'] a.segments := by
  have hsegments : a.segments ≠ [] := by
    simpa [segments] using hne
  rw [toList_text_eq_flatMap hne, ← Text.flatMap_cons_eq_join hsegments, segments,
    List.flatMap_map]

theorem getLast?_text (h : a.IsLegible) : ∀ c ∈ a.text.toList.getLast?, Text.isBlank c = false := by
  rcases List.eq_nil_or_concat a with rfl | ⟨front, e, rfl⟩
  · rintro _ ⟨⟩
    rfl
  · rw [List.concat_eq_append] at h ⊢
    have hlast : (front ++ [e]).getLast? = some e := List.getLast?_concat
    have hvalue := (h.elements e (List.mem_of_getLast? hlast)).value_ne_nil
    have hsuffix : e.text.toList <:+ (text (front ++ [e])).toList := by
      rw [toList_text_eq_flatMap (by simp), List.flatMap_append, List.flatMap_singleton]
      exact (List.suffix_cons '/' _).trans (List.suffix_append _ _)
    rw [← List.getLast?_of_suffix (e.suffix_text.trans hsuffix) hvalue]
    exact h.ending e hlast

/-- The text of legible elements begins with the first key, and so with a single slash. -/
theorem exists_join_segments (h : a.IsLegible) (hne : a ≠ []) :
    ∃ c back, Text.join ['/'] a.segments = c :: back ∧ c ≠ '/' := by
  rcases List.exists_cons_of_ne_nil hne with ⟨e, rest, rfl⟩
  have he := h.elements e List.mem_cons_self
  rcases List.exists_cons_of_ne_nil he.key_ne_nil with ⟨c, key, hkey⟩
  rcases Text.exists_join_cons ['/'] e.text.toList (segments rest) with ⟨back, hback⟩
  refine ⟨c, key ++ '=' :: e.value.toList ++ back, ?_, ?_⟩
  · rw [segments, List.map_cons]
    refine hback.trans ?_
    rw [PathElement.toList_text, hkey]
    rfl
  · rintro rfl
    exact he.slash_not_mem_key (hkey ▸ List.mem_cons_self)

theorem mapM_elementOfSegment (h : ∀ e ∈ a, e.IsLegible) (whole : String) :
    a.segments.mapM (elementOfSegment whole) = .ok a := by
  rw [Except.mapM_eq_ok_iff, segments, List.forall₂_map_left_iff, List.forall₂_same]
  intro e he
  rw [elementOfSegment, String.ofList_toList, PathElement.ofText_text (h e he)]

theorem ofText_text (h : a.IsLegible) : ofText a.text = .ok a := by
  by_cases hne : a = []
  · subst hne
    rfl
  · rcases exists_join_segments h hne with ⟨c, back, hjoin, hc⟩
    have htext := toList_text_eq_join hne
    have htrim : Text.trim a.text.toList = a.text.toList := by
      refine Text.trim_of_not_blank ?_ (getLast?_text h)
      rw [htext]
      exact fun c hc => by cases hc; decide
    have hslashes : (a.text.toList.dropWhile (· == '/')) = Text.join ['/'] a.segments := by
      rw [htext, hjoin]
      simp [hc]
    have hsegments : ∀ segment ∈ a.segments, '/' ∉ segment := by
      intro segment hsegment
      rcases List.mem_map.mp hsegment with ⟨e, he, rfl⟩
      exact (h.elements e he).slash_not_mem_text
    rw [ofText, htrim, hslashes, Text.split_join (by simpa [segments] using hne) hsegments,
      mapM_elementOfSegment h.elements]
    simp [htext, hjoin]

/-!
# Reading any text
-/

theorem ofText_of_elementOfSegment {whole : String} {segment : List Char} {e : PathElement}
    (h : elementOfSegment whole segment = .ok e) :
    PathElement.ofText (String.ofList segment) = .ok e := by
  unfold elementOfSegment at h
  split at h
  · rename_i found hfound
    cases h
    exact hfound
  · cases h

/-- What is read is the root, or comes from the segments of a text that ends like the trimmed one. -/
theorem ofText_eq_ok (h : ofText s = .ok a) :
    a = root ∨ ∃ body, body <:+ Text.trim s.toList ∧
      List.Forall₂ (fun segment e => PathElement.ofText (String.ofList segment) = .ok e)
        (Text.split '/' body) a := by
  unfold ofText at h
  extract_lets trimmed at h
  split at h
  · cases h
    exact Or.inl rfl
  · refine Or.inr ⟨_, List.dropWhile_suffix (· == '/'), ?_⟩
    exact (Except.mapM_eq_ok_iff.mp h).imp fun _ _ => ofText_of_elementOfSegment

theorem isLegible_of_ofText (h : ofText s = .ok a) : a.IsLegible := by
  rcases ofText_eq_ok h with rfl | ⟨body, hbody, hall⟩
  · exact ⟨nofun, nofun⟩
  constructor
  · intro e he
    rcases List.exists_of_mem_of_forall₂ hall.flip he with ⟨segment, hsegment, hread⟩
    rcases PathElement.ofText_eq_ok hread with ⟨hsame, hkey, hequals, hvalue⟩
    have hslash := Text.not_mem_of_mem_split hsegment
    rw [String.toList_ofList] at hsame
    rw [hsame, PathElement.toList_text, List.mem_append, List.mem_cons, not_or, not_or] at hslash
    exact ⟨hkey, hslash.1, hequals, hvalue, hslash.2.2⟩
  · intro e he c hc
    -- the last value ends the last segment, and so the whole text
    rcases List.exists_getLast?_of_forall₂ hall he with ⟨segment, hsegment, hread⟩
    rcases PathElement.ofText_eq_ok hread with ⟨hsame, _, _, hvalue⟩
    rw [String.toList_ofList] at hsame
    have hsuffix : e.value.toList <:+ Text.trim s.toList :=
      (hsame ▸ e.suffix_text).trans ((Text.suffix_of_getLast?_split hsegment).trans hbody)
    rw [List.getLast?_of_suffix hsuffix hvalue] at hc
    exact Text.not_blank_of_mem_getLast?_trim c hc

/-!
# Which addresses are read back
-/

/-- The value of every address is read back.  The text of an address is read back exactly when it is
the root or legible.  Every address that is read from a text is so, and hence is read back from its
own text. -/
theorem ofText_text_eq_ok_iff :
    (forall a : Address, ofValue a.toValue = .ok a) ∧
    (forall a : Address, ofText a.text = .ok a ↔ a = root ∨ a.IsLegible) ∧
    forall s a, ofText s = .ok a -> (a = root ∨ a.IsLegible) ∧ ofText a.text = .ok a := by
  have hback : forall a : Address, a = root ∨ a.IsLegible -> ofText a.text = .ok a := by
    rintro a (rfl | h)
    · rfl
    · exact ofText_text h
  refine ⟨ofValue_toValue, ?_, ?_⟩
  · intro a
    exact ⟨fun h => Or.inr (isLegible_of_ofText h), hback a⟩
  · intro s a h
    have hlegible : a = root ∨ a.IsLegible := Or.inr (isLegible_of_ofText h)
    exact ⟨hlegible, hback a hlegible⟩

/-- Blanks around a text and slashes before it are dropped, and equals signs in values stay. -/
theorem ofText_text_spaced :
    ofText " //subsystem=mail/server= a==b\t" =
      .ok [⟨"subsystem", "mail"⟩, ⟨"server", " a==b"⟩] ∧
    ofText "/subsystem=mail/server= a==b" = .ok [⟨"subsystem", "mail"⟩, ⟨"server", " a==b"⟩] := by
  have hread : ofText " //subsystem=mail/server= a==b\t" =
      .ok [⟨"subsystem", "mail"⟩, ⟨"server", " a==b"⟩] := by
    rfl
  exact ⟨hread, (ofText_text_eq_ok_iff.2.2 _ _ hread).2⟩

end Address
end MixedDomain
