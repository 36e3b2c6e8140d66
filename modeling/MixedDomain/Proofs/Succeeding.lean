import MixedDomain.Proofs.Reporting

/-!
# Computations that succeed

## Success

A computation succeeds when it ends with a result in every context.  A sequence of
computations succeeds when the later ones do with what the earlier ones give;
therefore success speaks of the results too.
-/

namespace MixedDomain
namespace TransformM

variable {result next : Type} {p : result -> Prop} {q : next -> Prop}

def Succeeds (p : result -> Prop) (m : TransformM result) : Prop :=
  forall c, exists x c', run m c = (.ok x, c') ∧ p x

theorem succeeds_pure {x : result} (h : p x) : Succeeds p (pure x) :=
  fun c => ⟨x, c, rfl, h⟩

theorem succeeds_ofValue {r : Except ValueError result} (h : exists x, r = .ok x ∧ p x) :
    Succeeds p (ofValue r) := by
  rcases h with ⟨x, rfl, hx⟩
  exact succeeds_pure hx

theorem succeeds_ofValue_of_eq {r : Except ValueError result} {x : result} (h : r = .ok x) :
    Succeeds (fun y => y = x) (ofValue r) :=
  succeeds_ofValue ⟨x, h, rfl⟩

theorem succeeds_warn (message : String) : Succeeds (fun _ => True) (warn message) :=
  fun c => ⟨(), c.warn message, rfl, trivial⟩

theorem succeeds_bind {m : TransformM result} {k : result -> TransformM next}
    (hm : Succeeds p m) (hk : forall x, p x -> Succeeds q (k x)) : Succeeds q (m >>= k) := by
  intro c
  rcases hm c with ⟨x, mid, hfirst, hx⟩
  rw [run_bind_of_ok hfirst]
  exact hk x hx mid

theorem succeeds_get_bind {k : Context -> TransformM result} (hk : forall c, Succeeds p (k c)) :
    Succeeds p (get >>= k) := by
  intro c
  rw [run_get_bind]
  exact hk c c

theorem succeeds_movedTo (a : Address) {m : TransformM result} (hm : Succeeds p m) :
    Succeeds p (movedTo a m) := by
  intro c
  rcases hm (c.moveTo a) with ⟨x, c', hrun, hx⟩
  refine ⟨x, c'.moveTo c.current, ?_, hx⟩
  show ((run m (c.moveTo a)).1, (run m (c.moveTo a)).2.moveTo c.current) = _
  rw [hrun]

theorem succeeds_guarded {m : TransformM result} (hm : Succeeds p m) : Succeeds p (guarded m) := by
  intro c
  rcases hm c.protect.2 with ⟨x, c', hrun, hx⟩
  exact ⟨x, c'.release c.protect.1, run_guarded_of_run hrun, hx⟩

/-- Of a computation that succeeds, all is known that holds of its results. -/
theorem Succeeds.of_run {m : TransformM result} (hm : Succeeds p m) {p' : result -> Prop}
    (h : forall c x c', run m c = (.ok x, c') -> p' x) : Succeeds (fun x => p x ∧ p' x) m := by
  intro c
  rcases hm c with ⟨x, c', hrun, hx⟩
  exact ⟨x, c', hrun, hx, h c x c' hrun⟩

end TransformM
end MixedDomain
