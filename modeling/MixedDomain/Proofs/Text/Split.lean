import Mathlib.Data.List.DropRight
import MixedDomain.Text.Blank
import MixedDomain.Text.Split

/-!
# Taking texts apart

## Parts

Splitting at a separator undoes putting together parts that are free of it, and
yields only such parts, the last of which ends the text.  Cutting at the first
separator undoes putting it between a front that is free of it and any back.

## Trimming

A text that neither begins nor ends with a blank stays as it is, and a trimmed text
does not end with one.
-/

namespace MixedDomain
namespace Text

variable {sep : Char} {cs part front : List Char}

/-!
# Splitting
-/

theorem split_of_not_mem (h : sep ∉ cs) : split sep cs = [cs] := by
  induction cs with
  | nil => rfl
  | cons c rest ih =>
      rcases not_or.mp (List.mem_cons.not.mp h) with ⟨hc, hrest⟩
      rw [split, if_neg (Ne.symm hc), ih hrest]

theorem split_append_cons (h : sep ∉ front) (back : List Char) :
    split sep (front ++ sep :: back) = front :: split sep back := by
  induction front with
  | nil => simp [split]
  | cons c rest ih =>
      rcases not_or.mp (List.mem_cons.not.mp h) with ⟨hc, hrest⟩
      rw [List.cons_append, split, if_neg (Ne.symm hc), ih hrest]

/-- Parts without separators are found again in the text that they make. -/
theorem split_join {parts : List (List Char)} (hne : parts ≠ []) (h : ∀ part ∈ parts, sep ∉ part) :
    split sep (join [sep] parts) = parts := by
  induction parts with
  | nil => exact absurd rfl hne
  | cons first rest ih =>
      rcases List.forall_mem_cons.mp h with ⟨hfirst, hrest⟩
      cases rest with
      | nil => exact split_of_not_mem hfirst
      | cons next others =>
          rw [join, List.append_assoc, List.singleton_append, split_append_cons hfirst,
            ih (List.cons_ne_nil next others) hrest]
          exact List.cons_ne_nil next others

/-- A text begins with a part that ends at the first separator, if there is one. -/
theorem split_cons_of_ne {c : Char} (hc : c ≠ sep) (rest : List Char) :
    ∃ part parts, split sep rest = part :: parts ∧
      split sep (c :: rest) = (c :: part) :: parts := by
  cases hsplit : split sep rest with
  | nil => exact absurd hsplit (split_ne_nil sep rest)
  | cons part parts => exact ⟨part, parts, rfl, by rw [split, if_neg hc, hsplit]⟩

theorem not_mem_of_mem_split (h : part ∈ split sep cs) : sep ∉ part := by
  induction cs generalizing part with
  | nil =>
      rw [List.mem_singleton.mp h]
      exact List.not_mem_nil
  | cons c rest ih =>
      by_cases hc : c = sep
      · rw [split, if_pos hc] at h
        rcases List.mem_cons.mp h with rfl | hrest
        · exact List.not_mem_nil
        · exact ih hrest
      · rcases split_cons_of_ne hc rest with ⟨first, parts, hparts, heq⟩
        rw [heq] at h
        rw [hparts] at ih
        rcases List.mem_cons.mp h with rfl | hmem
        · exact List.mem_cons.not.mpr (not_or.mpr ⟨Ne.symm hc, ih List.mem_cons_self⟩)
        · exact ih (List.mem_cons_of_mem first hmem)

theorem suffix_of_getLast?_split (h : (split sep cs).getLast? = some part) : part <:+ cs := by
  induction cs generalizing part with
  | nil =>
      cases h
      exact List.suffix_refl []
  | cons c rest ih =>
      by_cases hc : c = sep
      · rw [split, if_pos hc, List.getLast?_cons_of_ne_nil (split_ne_nil sep rest)] at h
        exact (ih h).trans (List.suffix_cons c rest)
      · rcases split_cons_of_ne hc rest with ⟨first, parts, hparts, heq⟩
        rw [heq] at h
        rw [hparts] at ih
        cases parts with
        | nil =>
            cases h
            have hall : first = rest := by
              have hjoin := join_split sep rest
              rwa [hparts] at hjoin
            rw [hall]
            exact List.suffix_refl (c :: rest)
        | cons next others => exact (ih h).trans (List.suffix_cons c rest)

/-!
# Joining
-/

theorem exists_join_cons (sep part : List Char) (parts : List (List Char)) :
    ∃ back, join sep (part :: parts) = part ++ back := by
  cases parts with
  | nil => exact ⟨[], (List.append_nil part).symm⟩
  | cons next others => exact ⟨sep ++ join sep (next :: others), List.append_assoc part sep _⟩

theorem flatMap_cons_eq_join {parts : List (List Char)} (hne : parts ≠ []) :
    (parts.flatMap fun part => sep :: part) = sep :: join [sep] parts := by
  induction parts with
  | nil => exact absurd rfl hne
  | cons first rest ih =>
      cases rest with
      | nil => simp [join]
      | cons next others =>
          rw [List.flatMap_cons, ih (List.cons_ne_nil next others)]
          simp [join]

/-!
# Cutting
-/

theorem cut_append_cons (h : sep ∉ front) (back : List Char) :
    cut sep (front ++ sep :: back) = some (front, back) := by
  induction front with
  | nil => simp [cut]
  | cons c rest ih =>
      rcases not_or.mp (List.mem_cons.not.mp h) with ⟨hc, hrest⟩
      rw [List.cons_append, cut, if_neg (Ne.symm hc), ih hrest]
      rfl

/-!
# Trimming
-/

theorem trimEnd_eq_rdropWhile (cs : List Char) : trimEnd cs = cs.rdropWhile isBlank := by
  rfl

theorem trim_of_not_blank (hfirst : ∀ c ∈ cs.head?, isBlank c = false)
    (hlast : ∀ c ∈ cs.getLast?, isBlank c = false) : trim cs = cs := by
  have hstart : trimStart cs = cs := by
    cases cs with
    | nil => rfl
    | cons c rest => exact List.dropWhile_cons_of_neg (by simpa using hfirst c rfl)
  rw [trim, hstart, trimEnd_eq_rdropWhile, List.rdropWhile_eq_self_iff]
  intro hne
  rw [hlast _ (List.getLast_mem_getLast? hne)]
  exact Bool.false_ne_true

theorem not_blank_of_mem_getLast?_trim : ∀ c ∈ (trim cs).getLast?, isBlank c = false := by
  intro c hc
  rw [trim, trimEnd_eq_rdropWhile] at hc
  rcases List.mem_getLast?_eq_getLast hc with ⟨hne, rfl⟩
  simpa using List.rdropWhile_last_not _ _ hne

end Text
end MixedDomain
