import MixedDomain.Operation

/-!
# Outcomes of transformed operations

## What an outcome holds

The operation to send, if there is one; a rejection, which decides by the result
that the target prepared whether the caller is told of a failure; and the way in
which the result of the target becomes the result for the caller.

## Rejections

A rejection made of others is decided by the first of them that rejects.  It
remembers that decision: later results do not change it, and its description is
the one of the rejection that decided.  Therefore `reject` returns the rejection
as it is afterwards.
-/

namespace MixedDomain

/-- Decides whether a prepared result is rejected, and describes why. -/
inductive Rejection where
  | never
  | always (description : String)
  | test (rejects : Value -> Bool) (description? : Option String)
  /-- Asks others about the same result; `decided` holds the description of the first that
  rejected. -/
  | chained (others : List Rejection) (decided : Option (Option String))
  | steps (others : List Rejection) (decided : Option (Option String))

def stepKey (index : Nat) : String :=
  "step-" ++ toString (index + 1)

def stepResult (result : Value) (index : Nat) : Value :=
  ((result.get? Response.resultKey).bind (Value.get? (stepKey index))).getD .undefined

namespace Rejection

mutual

/-- The description of a failure: the one of the decision, or the first that there is. -/
def description? : Rejection -> Option String
  | .never => none
  | .always description => some description
  | .test _ description? => description?
  | .chained _ (some decided) => decided
  | .chained others none => firstDescription? others
  | .steps _ (some decided) => decided
  | .steps others none => firstDescription? others

def firstDescription? : List Rejection -> Option String
  | [] => none
  | r :: rest =>
      match description? r with
      | some description => some description
      | none => firstDescription? rest

end

mutual

/-- Decides about a result, and remembers the decision. -/
def reject : Rejection -> Value -> Bool × Rejection
  | .never, _ => (false, .never)
  | .always description, _ => (true, .always description)
  | .test rejects description?, result => (rejects result, .test rejects description?)
  | .chained others (some decided), _ => (true, .chained others (some decided))
  | .chained others none, result =>
      let (decided, others) := rejectFirst others result
      (decided.isSome, .chained others decided)
  | .steps others (some decided), _ => (true, .steps others (some decided))
  | .steps others none, result =>
      let (decided, others) := rejectStep 0 others result
      (decided.isSome, .steps others decided)

/-- Asks rejections in order until one rejects: its description, and the rejections afterwards. -/
def rejectFirst : List Rejection -> Value -> Option (Option String) × List Rejection
  | [], _ => (none, [])
  | r :: rest, result =>
      match reject r result with
      | (true, r') => (some r'.description?, r' :: rest)
      | (false, r') =>
          let (decided, rest') := rejectFirst rest result
          (decided, r' :: rest')

def rejectStep (index : Nat) :
    List Rejection -> Value -> Option (Option String) × List Rejection
  | [], _ => (none, [])
  | r :: rest, result =>
      match reject r (stepResult result index) with
      | (true, r') => (some r'.description?, r' :: rest)
      | (false, r') =>
          let (decided, rest') := rejectStep (index + 1) rest result
          (decided, r' :: rest')

end

end Rejection

/-- What becomes of an operation. -/
structure Outcome where
  /-- The operation to send; there is none if it is discarded. -/
  operation? : Option Value
  rejection : Rejection
  onResult : Value -> Value

namespace Outcome

def send (operation : Value) : Outcome :=
  ⟨some operation, .never, id⟩

/-- Nothing is sent, and the caller is told of success. -/
def discarded : Outcome :=
  ⟨none, .never, fun _ => Response.ofResult .undefined⟩

def rejected (operation : Value) (description : String) : Outcome :=
  ⟨some operation, .always description, id⟩

def isDiscarded (o : Outcome) : Bool :=
  o.operation?.isNone

/-- Applies the functions of outcomes to a result, the last outcome first. -/
def onResultBackwards : List Outcome -> Value -> Value
  | [], result => result
  | o :: rest, result => o.onResult (onResultBackwards rest result)

/-- The outcome of several transformations in a row: the last one says what is sent, the first
one that rejects decides, and results go through all of them backwards. -/
def chained (outcomes : List Outcome) : Outcome :=
  { operation? := outcomes.getLast?.bind Outcome.operation?
    rejection := .chained (outcomes.map Outcome.rejection) none
    onResult := onResultBackwards outcomes }

/-- Changes the operation, if there is one. -/
def mapOperation {error : Type} (f : Value -> Except error Value) (o : Outcome) :
    Except error Outcome :=
  match o.operation? with
  | none => .ok o
  | some operation => (f operation).map fun operation => { o with operation? := some operation }

def defaultDescription : String :=
  "Operation rejected by the target"

/-- Decides about a result, and remembers the decision. -/
def reject (o : Outcome) (result : Value) : Bool × Outcome :=
  let (verdict, rejection) := o.rejection.reject result
  (verdict, { o with rejection := rejection })

def description? (o : Outcome) : Option String :=
  o.rejection.description?

/-- The response for the caller, and the outcome with its decision. -/
def resolve (o : Outcome) (result : Value) : Value × Outcome :=
  match o.reject result with
  | (true, o') => (Response.ofFailure (o'.description?.getD defaultDescription), o')
  | (false, o') => (o'.onResult result, o')

/-!
# Composite operations

Steps that are discarded are not sent, and stand in the response as steps that
succeeded.
-/

/-- The results of steps for the caller; `sent` of the steps before have been sent. -/
def stepResults (result : Value) : List Outcome -> Nat -> List Value
  | [], _ => []
  | o :: rest, sent =>
      match o.operation? with
      | none => Response.ofResult .undefined :: stepResults result rest sent
      | some _ => o.onResult (stepResult result sent) :: stepResults result rest (sent + 1)

def nameSteps (index : Nat) : List Value -> List (String × Value)
  | [] => []
  | v :: rest => (stepKey index, v) :: nameSteps (index + 1) rest

/-- The response to a composite operation for the caller; a response that is no object stays as it
is. -/
def composeResult (steps : List Outcome) (result : Value) : Value :=
  let named := Value.object (nameSteps 0 (stepResults result steps 0))
  match result with
  | .undefined => (Response.ofResult .undefined).put Response.resultKey named
  | .object entries => .object (Entries.insert Response.resultKey named entries)
  | v => v

def sentSteps (steps : List Outcome) : List Outcome :=
  steps.filter fun o => !o.isDiscarded

/-- The outcome of a composite operation, which is discarded if no step is left. -/
def composite (operation : Value) (steps : List Outcome) : Except ValueError Outcome :=
  let sent := sentSteps steps
  let outcome (operation? : Option Value) : Outcome :=
    { operation?
      rejection := .steps (sent.map Outcome.rejection) none
      onResult := composeResult steps }
  if sent.isEmpty then
    .ok (outcome none)
  else
    (operation.set Operation.stepsKey (.list (sent.filterMap Outcome.operation?))).map
      fun operation => outcome (some operation)

theorem chained_onResult (outcomes : List Outcome) (result : Value) :
    (chained outcomes).onResult result = onResultBackwards outcomes result := by
  rfl

theorem onResultBackwards_append (a b : List Outcome) (result : Value) :
    onResultBackwards (a ++ b) result = onResultBackwards a (onResultBackwards b result) := by
  induction a with
  | nil =>
      rfl
  | cons o rest ih =>
      simp [onResultBackwards, ih]

end Outcome
end MixedDomain
