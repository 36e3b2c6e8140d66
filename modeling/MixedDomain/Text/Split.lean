/-!
# Splitting text

## At every separator, at the first one

`split` cuts a text at every occurrence of a separator and always yields at
least one part; `join` puts the parts together again.  `cut` stops at the first
occurrence.
-/

namespace MixedDomain
namespace Text

/-- Cuts at every `sep`; a text without `sep` is its own only part. -/
def split (sep : Char) : List Char -> List (List Char)
  | [] => [[]]
  | c :: rest =>
      if c = sep then
        [] :: split sep rest
      else
        match split sep rest with
        | [] => [[c]]
        | part :: parts => (c :: part) :: parts

def join (sep : List Char) : List (List Char) -> List Char
  | [] => []
  | [part] => part
  | part :: parts => part ++ sep ++ join sep parts

/-- Cuts at the first `sep`, which belongs to neither half. -/
def cut (sep : Char) : List Char -> Option (List Char × List Char)
  | [] => none
  | c :: rest =>
      if c = sep then
        some ([], rest)
      else
        (cut sep rest).map fun halves => (c :: halves.1, halves.2)

theorem split_ne_nil (sep : Char) (cs : List Char) : split sep cs ≠ [] := by
  induction cs with
  | nil =>
      simp [split]
  | cons c rest ih =>
      simp only [split]
      split
      · simp
      · cases h : split sep rest with
        | nil => exact absurd h ih
        | cons part parts => simp

theorem join_split (sep : Char) (cs : List Char) : join [sep] (split sep cs) = cs := by
  induction cs with
  | nil =>
      rfl
  | cons c rest ih =>
      simp only [split]
      cases h : split sep rest with
      | nil => exact absurd h (split_ne_nil sep rest)
      | cons part parts =>
          rw [h] at ih
          split
          · next hc =>
              subst hc
              simp [join, ih]
          · cases parts with
            | nil => simpa [join] using ih
            | cons next parts => simpa [join] using ih

theorem cut_eq_some {sep : Char} {cs front back : List Char}
    (h : cut sep cs = some (front, back)) : cs = front ++ sep :: back ∧ sep ∉ front := by
  induction cs generalizing front with
  | nil =>
      simp [cut] at h
  | cons c rest ih =>
      simp only [cut] at h
      split at h
      · next hc =>
          simp only [Option.some.injEq, Prod.mk.injEq] at h
          obtain ⟨hf, hb⟩ := h
          subst hf hb hc
          simp
      · next hc =>
          obtain ⟨halves, hcut, heq⟩ := Option.map_eq_some_iff.1 h
          simp only [Prod.mk.injEq] at heq
          obtain ⟨hf, hb⟩ := heq
          subst hf
          obtain ⟨hrest, hnot⟩ := @ih halves.1 (by rw [hcut, ← hb])
          refine ⟨by simp [hrest], ?_⟩
          simp only [List.mem_cons, not_or]
          exact ⟨fun e => hc e.symm, hnot⟩

end Text
end MixedDomain
