import MixedDomain.Config.Declarations
import MixedDomain.Proofs.Entries
import MixedDomain.Proofs.Sequence

/-!
# Rules with new names

## New names in declarations

What is declared about attributes shows which of them have a new name.  Discarding,
rejecting and converting leave that as it is.

## Checking rules

Rules about attributes are refused only for their new names: each must be about a
single attribute, which no rule before has given a new name.
-/

namespace MixedDomain

/-!
# New names in declarations
-/

namespace AttributeDeclarations

theorem newName?_modify (ds : AttributeDeclarations) (name other : String)
    (f : AttributeDeclaration -> AttributeDeclaration) :
    (ds.modify name f).newName? other =
      if other = name then
        (f ((Entries.get? name ds.declared).getD
          (AttributeDeclaration.ofName name))).description.newName?
      else ds.newName? other := by
  unfold newName? modify
  by_cases h : other = name
  · subst h
    rw [if_pos rfl, Entries.get?_insert_self]
    rfl
  · rw [if_neg h, Entries.get?_insert_of_ne h]

theorem newName?_getD (ds : AttributeDeclarations) (name : String) :
    ((Entries.get? name ds.declared).getD
      (AttributeDeclaration.ofName name)).description.newName? = ds.newName? name := by
  unfold newName?
  cases Entries.get? name ds.declared <;> rfl

theorem newName?_foldl_describeAll {choice : Type} (choices : List choice)
    (f : choice -> AttributeDescription -> AttributeDescription) (names : List String)
    (ds : AttributeDeclarations) (other : String)
    (hnewName : forall x d, (f x d).newName? = d.newName?) :
    (choices.foldl (fun ds x => ds.describeAll names (f x)) ds).newName? other =
      ds.newName? other := by
  apply List.foldlRecOn (motive := fun ds' => newName? other ds' = newName? other ds)
  · rfl
  · intro mid hmid x _
    apply List.foldlRecOn (motive := fun ds' => newName? other ds' = newName? other ds)
    · exact hmid
    · intro mid hmid name _
      rw [newName?_modify]
      split
      case isTrue hother =>
          subst hother
          exact ((hnewName x _).trans (newName?_getD mid other)).trans hmid
      case isFalse => exact hmid

theorem newName?_rename {ds ds' : AttributeDeclarations} {name newName : String}
    (h : ds.rename name newName = .ok ds') (other : String) :
    ds'.newName? other = if other = name then some newName else ds.newName? other := by
  unfold rename at h
  split at h
  · cases h
  · cases h
    exact newName?_modify ds name other fun d =>
      { d with description := { d.description with newName? := some newName } }

theorem rename_eq_ok_iff {ds : AttributeDeclarations} {name newName : String} :
    (∃ ds', ds.rename name newName = .ok ds') ↔ ds.newName? name = none := by
  unfold rename
  cases ds.newName? name <;> simp

end AttributeDeclarations

/-!
# Checking rules
-/

namespace Config.AttributeRule

def renamed (rule : AttributeRule) : List String :=
  if rule.newName?.isSome then rule.names else []

/-- Whether every rule with a new name is about a single attribute, and no attribute is given
two. -/
structure RenameOnce (rules : List AttributeRule) : Prop where
  single : ∀ rule ∈ rules, rule.newName?.isSome -> exists name, rule.names = [name]
  distinct : (rules.flatMap renamed).Nodup

/-- Whether declarations show the new names that rules give, which is no attribute two. -/
structure Shown (rules : List AttributeRule) (ds : AttributeDeclarations) : Prop where
  once : RenameOnce rules
  newName : forall name, (ds.newName? name).isSome ↔ name ∈ rules.flatMap renamed

theorem RenameOnce.of_append {before rest : List AttributeRule} (h : RenameOnce (before ++ rest)) :
    RenameOnce before where
  single rule hrule := h.single rule (List.mem_append_left rest hrule)
  distinct := by
    have hdistinct := h.distinct
    rw [List.flatMap_append] at hdistinct
    exact hdistinct.of_append_left

theorem shown_empty (path : String) : Shown [] (AttributeDeclarations.empty path) where
  once := ⟨nofun, List.nodup_nil⟩
  newName := by simp [AttributeDeclarations.newName?, AttributeDeclarations.empty, Entries.get?]

variable {rule : AttributeRule} {rules before : List AttributeRule} {ds ds' : AttributeDeclarations}

theorem exists_declare_eq_declareName (rule : AttributeRule) (ds : AttributeDeclarations) :
    exists mid, (forall name, AttributeDeclarations.newName? name mid = ds.newName? name) ∧
      rule.declare ds = rule.declareName mid := by
  -- only the last step of a rule is about names
  unfold declare
  extract_lets discarding rejecting converting
  refine ⟨converting, fun name => ?_, rfl⟩
  have hdiscarding : discarding.newName? name = ds.newName? name :=
    AttributeDeclarations.newName?_foldl_describeAll rule.discardChecks
      (fun check d => { d with discard? := some check }) rule.names ds name fun _ _ => rfl
  have hrejecting : rejecting.newName? name = discarding.newName? name :=
    AttributeDeclarations.newName?_foldl_describeAll rule.rejectChecks
      (fun check d => { d with rejects := d.rejects ++ [check] }) rule.names discarding name
      fun _ _ => rfl
  have hconverting : converting.newName? name = rejecting.newName? name :=
    AttributeDeclarations.newName?_foldl_describeAll rule.conversions
      (fun conversion d => { d with conversion? := some conversion }) rule.names rejecting name
      fun _ _ => rfl
  exact hconverting.trans (hrejecting.trans hdiscarding)

theorem Shown.declare_accepts (hds : Shown before ds) (h : RenameOnce (before ++ [rule])) :
    exists ds', rule.declare ds = .ok ds' := by
  rcases exists_declare_eq_declareName rule ds with ⟨mid, hmid, heq⟩
  rw [heq, declareName]
  cases hnew : rule.newName? with
  | none => exact ⟨mid, rfl⟩
  | some newName =>
      have hsome : rule.newName?.isSome := by rw [hnew]; rfl
      rcases h.single rule (by simp) hsome with ⟨name, hname⟩
      rw [hname]
      apply AttributeDeclarations.rename_eq_ok_iff.mpr
      have hdistinct := h.distinct
      rw [List.flatMap_append, List.flatMap_singleton, renamed, if_pos hsome, hname,
        ← List.concat_eq_append, List.nodup_concat, ← hds.newName, Option.not_isSome_iff_eq_none]
        at hdistinct
      rw [hmid]
      exact hdistinct.1

theorem Shown.declare_keeps (hds : Shown before ds) (h : rule.declare ds = .ok ds') :
    Shown (before ++ [rule]) ds' := by
  rcases exists_declare_eq_declareName rule ds with ⟨mid, hmid, heq⟩
  rw [heq, declareName] at h
  split at h
  case h_1 hnew =>
      cases h
      have hnone : [rule].flatMap renamed = [] := by simp [renamed, hnew]
      constructor
      · constructor
        · intro other hother hsome
          rcases List.mem_append.mp hother with hbefore | hrule
          · exact hds.once.single other hbefore hsome
          · rw [List.mem_singleton.mp hrule, hnew] at hsome
            cases hsome
        · rw [List.flatMap_append, hnone, List.append_nil]
          exact hds.once.distinct
      · intro name
        rw [List.flatMap_append, hnone, List.append_nil, hmid]
        exact hds.newName name
  case h_2 newName name hnew hnames =>
      have hone : [rule].flatMap renamed = [name] := by simp [renamed, hnew, hnames]
      have hfree := AttributeDeclarations.rename_eq_ok_iff.mp ⟨ds', h⟩
      rw [hmid] at hfree
      constructor
      · constructor
        · intro other hother hsome
          rcases List.mem_append.mp hother with hbefore | hrule
          · exact hds.once.single other hbefore hsome
          · rw [List.mem_singleton.mp hrule]
            exact ⟨name, hnames⟩
        · rw [List.flatMap_append, hone, ← List.concat_eq_append, List.nodup_concat,
            ← hds.newName, hfree]
          exact ⟨nofun, hds.once.distinct⟩
      · intro other
        rw [List.flatMap_append, hone, List.mem_append, List.mem_singleton, ← hds.newName,
          AttributeDeclarations.newName?_rename h, hmid]
        split
        case isTrue hother => simp [hother]
        case isFalse hother => simp [hother]
  case h_3 => cases h

theorem checks_declare (rules : List AttributeRule) :
    Except.Checks (fun ds rule => declare rule ds) RenameOnce Shown rules where
  of_append _ _ h := h.of_append
  accepts _ _ _ _ hds h := hds.declare_accepts h
  keeps _ _ _ _ _ hds h := hds.declare_keeps h

end Config.AttributeRule
end MixedDomain
