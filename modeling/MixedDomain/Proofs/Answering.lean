import MixedDomain.Proofs.Rejection

/-!
# Answers of outcomes

## Calls

An outcome can be asked whether it rejects a result, and how it describes the failure,
as often as one likes and in any order.  It can also be cloned.  Clones share their
memory, so that what one of them decides all of them remember.

## Answers

The answers of a settled outcome depend on neither the results nor the calls before.
All clones reject exactly if there is a description, and give this description.
-/

namespace MixedDomain

/-- A call on an outcome or on one of its clones, which have the numbers in which they were made. -/
inductive Call where
  | clone (number : Nat)
  | reject (number : Nat) (result : Value)
  | describe (number : Nat)

/-- What a call gives back. -/
inductive Answer where
  | cloned
  | verdict (rejects : Bool)
  | description (description? : Option String)
  deriving DecidableEq, Repr

namespace Call

def number : Call -> Nat
  | .clone number => number
  | .reject number _ => number
  | .describe number => number

def countAfter (count : Nat) : Call -> Nat
  | .clone _ => count + 1
  | _ => count

/-- Makes a call on an outcome among clones of it: the answer, and the clones afterwards. -/
def ask (clones : List Outcome) (o : Outcome) : Call -> Answer × List Outcome
  | .clone _ => (.cloned, clones ++ [o])
  | .reject _ result =>
      let (rejects, asked) := o.reject result
      (.verdict rejects, clones.map fun other => { other with rejection := asked.rejection })
  | .describe _ => (.description o.description?, clones)

/-- The answers to calls in order; there are none if a call is on a clone that there is not. -/
def answers? (clones : List Outcome) : List Call -> Option (List Answer)
  | [] => some []
  | call :: rest =>
      match clones[call.number]? with
      | none => none
      | some o =>
          let (answer, clones) := call.ask clones o
          (answers? clones rest).map fun others => answer :: others

def InRange (count : Nat) : List Call -> Prop
  | [] => True
  | call :: rest => call.number < count ∧ InRange (call.countAfter count) rest

/-- The answer of what rejects exactly if there is a description. -/
def answerBy (description? : Option String) : Call -> Answer
  | .clone _ => .cloned
  | .reject _ _ => .verdict description?.isSome
  | .describe _ => .description description?

end Call

namespace Outcome

/-- Whether an outcome and all of its clones reject whatever they are asked about exactly if there
is a description, and always give this description. -/
def AnswersBy (description? : Option String) (o : Outcome) : Prop :=
  forall calls, Call.InRange 1 calls ->
    Call.answers? [o] calls = some (calls.map (Call.answerBy description?))

/-- Whether the rejection of an outcome is settled, with a description or without one. -/
structure SettledBy (description? : Option String) (o : Outcome) : Prop where
  settled : o.rejection.IsSettled
  description : o.description? = description?

end Outcome

variable {description? : Option String} {clones : List Outcome}

/-- A call gets its answer, and leaves all clones settled as they are. -/
theorem Call.ask_eq (hclones : ∀ o ∈ clones, o.SettledBy description?) {o : Outcome}
    (ho : o.SettledBy description?) (call : Call) :
    exists clones', call.ask clones o = (call.answerBy description?, clones') ∧
      (∀ o ∈ clones', o.SettledBy description?) ∧
      clones'.length = call.countAfter clones.length := by
  cases call with
  | clone number =>
      refine ⟨clones ++ [o], rfl, ?_, List.length_append⟩
      exact List.forall_mem_append.mpr ⟨hclones, List.forall_mem_singleton.mpr ho⟩
  | describe number =>
      refine ⟨clones, ?_, hclones, rfl⟩
      rw [ask, answerBy, ho.description]
  | reject number result =>
      rcases ho.settled.followsDescription result with ⟨r', hreject, hkept, hr'⟩
      have hdescription : o.rejection.description? = description? := ho.description
      refine ⟨clones.map fun other => { other with rejection := r' }, ?_, ?_, List.length_map _⟩
      · simp [ask, answerBy, Outcome.reject, hreject, hdescription]
      · intro other hother
        rcases List.mem_map.mp hother with ⟨before, _, rfl⟩
        exact ⟨hr', hkept.trans hdescription⟩

theorem Call.answers?_eq_some (hclones : ∀ o ∈ clones, o.SettledBy description?)
    {calls : List Call} (hcalls : InRange clones.length calls) :
    answers? clones calls = some (calls.map (answerBy description?)) := by
  induction calls generalizing clones with
  | nil =>
      rfl
  | cons call rest ih =>
      have ho := hclones _ (List.getElem_mem hcalls.1)
      rcases ask_eq hclones ho call with ⟨clones', hasked, hclones', hlength⟩
      have hrest : InRange clones'.length rest := hlength ▸ hcalls.2
      rw [answers?, List.getElem?_eq_getElem hcalls.1]
      simp only [hasked, ih hclones' hrest, Option.map_some, List.map_cons]

theorem Outcome.answersBy_of_isFixed {o : Outcome} (h : o.IsFixed) :
    o.AnswersBy o.description? := by
  intro calls hcalls
  refine Call.answers?_eq_some ?_ hcalls
  exact List.forall_mem_singleton.mpr ⟨Rejection.IsFixed.isSettled h, rfl⟩

end MixedDomain
