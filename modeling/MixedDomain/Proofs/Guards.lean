import MixedDomain.Context

/-!
# Guards in any order

## Calls

Guards are made one after the other, and each of those alive can be released at any
time.  Views that are read should be read-only just while a guard is alive.

## The oldest guard

A guard restores what it saw when it was made.  The oldest of the guards alive saw
resources that were not protected, all others saw protected ones.  So it matters when
the oldest guard is released, and the order of all others does not matter.
-/

namespace MixedDomain
namespace Context

/-- A context and its guards that are alive, the oldest one in front. -/
structure WithGuards where
  context : Context
  alive : List Guard

/-- A call that makes a guard, or that releases the one at a place among those alive. -/
inductive GuardCall where
  | protect
  | release (place : Nat)

/-- Whether the call releases the oldest guard only if it is the last one alive. -/
def GuardCall.SparesOldest (alive : List Guard) : GuardCall -> Prop
  | .protect => True
  | .release place => place = 0 -> alive.length ≤ 1

/-- Whether the call releases no guard but the newest one. -/
def GuardCall.IsNested (alive : List Guard) : GuardCall -> Prop
  | .protect => True
  | .release place => place + 1 = alive.length

theorem GuardCall.IsNested.sparesOldest {alive : List Guard} {call : GuardCall}
    (h : call.IsNested alive) : call.SparesOldest alive := by
  cases call with
  | protect => trivial
  | release place =>
      rintro rfl
      exact Nat.le_of_eq h.symm

namespace WithGuards

variable {s : WithGuards}

/-- What a call leaves; releasing a guard that is not there leaves all as it is. -/
def call (s : WithGuards) : GuardCall -> WithGuards
  | .protect => ⟨s.context.protect.2, s.alive ++ [s.context.protect.1]⟩
  | .release place =>
      match s.alive[place]? with
      | some g => ⟨s.context.release g, s.alive.eraseIdx place⟩
      | none => s

/-- Whether every view that is read now is read-only just if a guard is alive. -/
def Shields (s : WithGuards) : Prop :=
  forall (a : Address) (v : ResourceView),
    s.context.readFromRoot? a = some v ∨ s.context.read? a = some v ->
      (v.readOnly = true ↔ s.alive ≠ [])

def ShieldsAlong : WithGuards -> List GuardCall -> Prop
  | s, [] => s.Shields
  | s, call :: rest => s.Shields ∧ ShieldsAlong (s.call call) rest

theorem ShieldsAlong.shields {calls : List GuardCall} (h : s.ShieldsAlong calls) : s.Shields := by
  cases calls with
  | nil => exact h
  | cons call rest => exact h.1

def Along (p : List Guard -> GuardCall -> Prop) : WithGuards -> List GuardCall -> Prop
  | _, [] => True
  | s, call :: rest => p s.alive call ∧ Along p (s.call call) rest

theorem Along.imp {p q : List Guard -> GuardCall -> Prop}
    (hpq : forall alive call, p alive call -> q alive call) {calls : List GuardCall}
    (h : s.Along p calls) : s.Along q calls := by
  induction calls generalizing s with
  | nil => trivial
  | cons call rest ih => exact ⟨hpq s.alive call h.1, ih h.2⟩

/-!
# Views and the flag
-/

theorem readOnly_of_read {c : Context} {a : Address} {v : ResourceView}
    (h : c.readFromRoot? a = some v ∨ c.read? a = some v) : v.readOnly = c.isProtected := by
  simp only [read?, readFromRoot?, Option.map_eq_some_iff] at h
  rcases h with ⟨_, _, rfl⟩ | ⟨_, _, rfl⟩ <;> rfl

/-- The root can always be read, so that the flag is seen. -/
theorem shields_iff : s.Shields ↔ (s.context.isProtected = true ↔ s.alive ≠ []) := by
  constructor
  · intro h
    exact h Address.root ⟨Address.root, s.context.model.root, s.context.isProtected⟩ (Or.inl rfl)
  · intro h a v hread
    rw [readOnly_of_read hread]
    exact h

/-!
# What guards remember
-/

/-- Whether nothing is protected and no guard is alive, or only the oldest of the guards alive
restores that nothing is protected. -/
inductive IsOpened : WithGuards -> Prop where
  | free {c : Context} (hc : c.isProtected = false) : IsOpened ⟨c, []⟩
  | held {c : Context} (hc : c.isProtected = true) {others : List Guard}
      (hothers : ∀ g ∈ others, g.wasProtected = true) : IsOpened ⟨c, ⟨false⟩ :: others⟩

theorem IsOpened.shields (h : s.IsOpened) : s.Shields := by
  rw [shields_iff]
  cases h with
  | free hc => simp [hc]
  | held hc _ => simp [hc]

theorem IsOpened.call_protect (h : s.IsOpened) : (s.call .protect).IsOpened := by
  cases h with
  | @free c hc =>
      have hcall : call ⟨c, []⟩ .protect = ⟨c.protect.2, ⟨false⟩ :: []⟩ := by
        simp [call, protect, hc]
      rw [hcall]
      exact .held rfl (List.forall_mem_nil _)
  | @held c hc others hothers =>
      refine .held rfl ?_
      refine List.forall_mem_append.mpr ⟨hothers, ?_⟩
      exact List.forall_mem_singleton.mpr hc

/-- A call keeps the guards as they should be just if it spares the oldest one. -/
theorem IsOpened.call (h : s.IsOpened) {call : GuardCall} (hcall : call.SparesOldest s.alive) :
    (s.call call).IsOpened := by
  cases call with
  | protect => exact h.call_protect
  | release place =>
      cases h with
      | free hc => exact .free hc
      | @held c hc others hothers =>
          cases place with
          | zero =>
              have hlast : others = [] := by
                simpa using hcall rfl
              subst hlast
              exact .free rfl
          | succ place =>
              cases hplace : others[place]? with
              | none =>
                  simp only [WithGuards.call, List.getElem?_cons_succ, hplace]
                  exact .held hc hothers
              | some g =>
                  simp only [WithGuards.call, List.getElem?_cons_succ, hplace,
                    List.eraseIdx_cons_succ]
                  refine .held (hothers g (List.mem_of_getElem? hplace)) ?_
                  exact fun other hmem => hothers other (List.mem_of_mem_eraseIdx hmem)

theorem IsOpened.not_shields_call (h : s.IsOpened) {call : GuardCall}
    (hcall : ¬ call.SparesOldest s.alive) : ¬ (s.call call).Shields := by
  cases call with
  | protect => exact absurd trivial hcall
  | release place =>
      simp only [GuardCall.SparesOldest, Classical.not_imp] at hcall
      rcases hcall with ⟨rfl, hmany⟩
      cases h with
      | free _ => simp at hmany
      | @held c hc others hothers =>
          have hothers : others ≠ [] := by
            rintro rfl
            simp at hmany
          rw [shields_iff]
          intro hshields
          exact Bool.false_ne_true (hshields.mpr hothers)

/-- Guards that are as they should be shield the views along some calls just if each call spares
the oldest guard. -/
theorem IsOpened.shieldsAlong_iff (h : s.IsOpened) (calls : List GuardCall) :
    s.ShieldsAlong calls ↔ s.Along GuardCall.SparesOldest calls := by
  induction calls generalizing s with
  | nil => exact iff_of_true h.shields trivial
  | cons call rest ih =>
      constructor
      · rintro ⟨_, hrest⟩
        have hshields : (s.call call).Shields := hrest.shields
        have hspares : call.SparesOldest s.alive :=
          Classical.byContradiction fun hnot => h.not_shields_call hnot hshields
        exact ⟨hspares, (ih (h.call hspares)).mp hrest⟩
      · rintro ⟨hspares, hrest⟩
        exact ⟨h.shields, (ih (h.call hspares)).mpr hrest⟩

/-!
# Sequences of calls
-/

/-- From a context without protection on, views are read-only just while a guard is alive if and
only if the oldest of the guards alive is never released before the others.  Guards that are
released in the reverse of the order in which they were made meet this. -/
theorem shieldsAlong_iff_along_sparesOldest {c : Context} (hc : c.isProtected = false)
    (calls : List GuardCall) :
    (ShieldsAlong ⟨c, []⟩ calls ↔ Along GuardCall.SparesOldest ⟨c, []⟩ calls) ∧
      (Along GuardCall.IsNested ⟨c, []⟩ calls -> ShieldsAlong ⟨c, []⟩ calls) := by
  have hiff := (IsOpened.free hc).shieldsAlong_iff calls
  refine ⟨hiff, ?_⟩
  intro hnested
  exact hiff.mpr (hnested.imp fun alive call => GuardCall.IsNested.sparesOldest)

namespace SlaveHost

/-- A context that has only just begun. -/
def atStart : Context :=
  Context.start ⟨"slave", ⟨1, 3, 0⟩, [], .host⟩ (ManagementModel.ofRoot Resource.empty)

end SlaveHost

open SlaveHost in
/-- The younger ones of three guards are released in the order in which they were made, and the
oldest one last. -/
theorem shieldsAlong_youngerFirst :
    atStart.isProtected = false ∧
      ShieldsAlong ⟨atStart, []⟩
        [.protect, .protect, .protect, .release 1, .release 1, .release 0, .protect] := by
  refine ⟨rfl, (shieldsAlong_iff_along_sparesOldest rfl _).1.mpr ?_⟩
  simp [Along, GuardCall.SparesOldest, call]

open SlaveHost in
/-- When the older one of two guards is released first, views can be changed although the other
guard is alive, and cannot be changed any more when that is released too. -/
theorem not_shieldsAlong_olderFirst :
    atStart.isProtected = false ∧
      ¬ ShieldsAlong ⟨atStart, []⟩ [.protect, .protect, .release 0] ∧
      ¬ ShieldsAlong ⟨atStart, []⟩ [.protect, .protect, .release 0, .release 0] ∧
      let first := (((⟨atStart, []⟩ : WithGuards).call .protect).call .protect).call (.release 0)
      let second := first.call (.release 0)
      first.alive.length = 1 ∧
        (first.context.readFromRoot? Address.root).map ResourceView.readOnly = some false ∧
        second.alive = [] ∧
        (second.context.readFromRoot? Address.root).map ResourceView.readOnly = some true := by
  have hearly : ¬ Along GuardCall.SparesOldest ⟨atStart, []⟩ [.protect, .protect, .release 0] := by
    simp [Along, GuardCall.SparesOldest, call]
  have hlater : ¬ Along GuardCall.SparesOldest ⟨atStart, []⟩
      [.protect, .protect, .release 0, .release 0] := by
    simp [Along, GuardCall.SparesOldest, call]
  have hopened : IsOpened ⟨atStart, []⟩ := .free rfl
  refine ⟨rfl, ?_, ?_, rfl, rfl, rfl, rfl⟩
  · exact fun h => hearly ((hopened.shieldsAlong_iff _).mp h)
  · exact fun h => hlater ((hopened.shieldsAlong_iff _).mp h)

end WithGuards
end Context
end MixedDomain
