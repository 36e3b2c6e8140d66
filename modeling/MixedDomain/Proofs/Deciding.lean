import MixedDomain.Proofs.Rejection

/-!
# Rejections that are decided once

## Delegates

A chained outcome is made of others, its delegates.  Here each delegate decides about a
result by the result alone, so that asking it leaves it as it is.

## Questions

A chained outcome can be asked whether it rejects a result, how it describes the
failure, and what the caller gets for a result, as often as one likes and in any order.

## The decision

The first result asked about that some delegate rejects decides once and for all.  Of
the delegates that reject it the first one describes the failure from then on, also if
it has no description.
-/

namespace MixedDomain
namespace Rejection

variable {r : Rejection}

/-- Whether a rejection decides by the result alone: asking it leaves it as it is. -/
def IsPure (r : Rejection) : Prop :=
  forall result, (r.reject result).2 = r

/-- Whether a rejection, as it stands, rejects a result. -/
def rejects (r : Rejection) (result : Value) : Bool :=
  (r.reject result).1

theorem isPure_never : IsPure .never :=
  fun _ => rfl

theorem isPure_test (test : Value -> Bool) (description? : Option String) :
    IsPure (.test test description?) :=
  fun _ => rfl

theorem IsPure.reject_eq (h : r.IsPure) (result : Value) :
    r.reject result = (r.rejects result, r) :=
  Prod.ext rfl (h result)

/-- Pure rejections are decided by the first one that rejects, and stay as they are. -/
theorem rejectFirst_of_isPure {others : List Rejection} (h : ∀ r ∈ others, r.IsPure)
    (result : Value) :
    rejectFirst others result =
      ((others.find? fun r => r.rejects result).map description?, others) := by
  induction others with
  | nil =>
      rfl
  | cons r rest ih =>
      rw [List.forall_mem_cons] at h
      rw [rejectFirst, h.1.reject_eq]
      cases hr : r.rejects result with
      | true => simp [hr]
      | false => simp [hr, ih h.2]

end Rejection

namespace Outcome

def rejects (o : Outcome) (result : Value) : Bool :=
  o.rejection.rejects result

/-- What an outcome can be asked. -/
inductive Question where
  | reject (result : Value)
  | describe
  | transform (result : Value)

inductive Reply where
  | verdict (rejects : Bool)
  | description (description? : Option String)
  | result (result : Value)

def Question.result? : Question -> Option Value
  | .reject result => some result
  | _ => none

/-- Asks a question: the reply, and the outcome afterwards. -/
def ask (o : Outcome) : Question -> Reply × Outcome
  | .reject result =>
      let (rejects, asked) := o.reject result
      (.verdict rejects, asked)
  | .describe => (.description o.description?, o)
  | .transform result => (.result (o.onResult result), o)

def replies (o : Outcome) : List Question -> List Reply
  | [] => []
  | question :: rest =>
      let (reply, asked) := o.ask question
      reply :: replies asked rest

/-!
# Replies by the delegates
-/

/-- The delegate that decides: the first one that rejects the first result asked about that any of
them rejects. -/
def decider? (delegates : List Outcome) (questions : List Question) : Option Outcome :=
  (questions.filterMap Question.result?).findSome? fun result =>
    delegates.find? fun d => d.rejects result

def replyAfter (delegates : List Outcome) (before : List Question) : Question -> Reply
  | .reject result => .verdict (decider? delegates (before ++ [.reject result])).isSome
  | .describe =>
      .description
        (match decider? delegates before with
          | some d => d.description?
          | none => delegates.findSome? Outcome.description?)
  | .transform result => .result (delegates.foldr Outcome.onResult result)

variable {delegates : List Outcome}

theorem decider?_append (before after : List Question) :
    decider? delegates (before ++ after) =
      (decider? delegates before).or (decider? delegates after) := by
  rw [decider?, List.filterMap_append, List.findSome?_append]
  rfl

theorem decider?_reject (result : Value) :
    decider? delegates [.reject result] = delegates.find? fun d => d.rejects result := by
  simp [decider?, Question.result?]

theorem onResultBackwards_eq_foldr (outcomes : List Outcome) (result : Value) :
    onResultBackwards outcomes result = outcomes.foldr Outcome.onResult result := by
  induction outcomes with
  | nil =>
      rfl
  | cons o rest ih =>
      rw [onResultBackwards, ih, List.foldr_cons]

/-!
# Questions in a row
-/

/-- A chained outcome that has been asked some questions: it remembers the description of the
delegate that decided. -/
def chainedAfter (delegates : List Outcome) (before : List Question) : Outcome :=
  { chained delegates with
    rejection := .chained (delegates.map Outcome.rejection)
      ((decider? delegates before).map Outcome.description?) }

theorem reject_chainedAfter (h : ∀ d ∈ delegates, d.rejection.IsPure) (before : List Question)
    (result : Value) :
    (chainedAfter delegates before).reject result =
      ((decider? delegates (before ++ [.reject result])).isSome,
        chainedAfter delegates (before ++ [.reject result])) := by
  rw [chainedAfter, chainedAfter, decider?_append, decider?_reject, reject]
  cases hbefore : decider? delegates before with
  | some d =>
      simp [Rejection.reject]
  | none =>
      have hpure : ∀ r ∈ delegates.map Outcome.rejection, r.IsPure := List.forall_mem_map.mpr h
      simp only [Option.map_none, Rejection.reject, Rejection.rejectFirst_of_isPure hpure result,
        List.find?_map, Option.none_or, Option.map_map, Option.isSome_map]
      rfl

theorem description?_chainedAfter (before : List Question) :
    (chainedAfter delegates before).description? =
      match decider? delegates before with
      | some d => d.description?
      | none => delegates.findSome? Outcome.description? := by
  rw [description?, chainedAfter]
  cases decider? delegates before with
  | some d =>
      rfl
  | none =>
      rw [Option.map_none, Rejection.description?, Rejection.firstDescription?_eq_findSome?,
        List.findSome?_map]
      rfl

theorem chainedAfter_append_of_other {question : Question} (h : question.result? = none)
    (before : List Question) :
    chainedAfter delegates (before ++ [question]) = chainedAfter delegates before := by
  have hnone : decider? delegates [question] = none := by
    simp [decider?, h]
  rw [chainedAfter, chainedAfter, decider?_append, hnone, Option.or_none]

/-- A question gets the reply that follows from the delegates, and is among those asked
afterwards. -/
theorem ask_chainedAfter (h : ∀ d ∈ delegates, d.rejection.IsPure) (before : List Question)
    (question : Question) :
    (chainedAfter delegates before).ask question =
      (replyAfter delegates before question, chainedAfter delegates (before ++ [question])) := by
  cases question with
  | reject result =>
      rw [ask, reject_chainedAfter h before result]
      rfl
  | describe =>
      rw [ask, description?_chainedAfter, chainedAfter_append_of_other rfl]
      rfl
  | transform result =>
      have hresult : (chainedAfter delegates before).onResult result =
          delegates.foldr Outcome.onResult result := onResultBackwards_eq_foldr delegates result
      rw [ask, hresult, chainedAfter_append_of_other rfl]
      rfl

theorem replies_chainedAfter (h : ∀ d ∈ delegates, d.rejection.IsPure) (before : List Question)
    (questions : List Question) :
    (chainedAfter delegates before).replies questions =
      questions.mapIdx fun index question =>
        replyAfter delegates (before ++ questions.take index) question := by
  induction questions generalizing before with
  | nil =>
      rfl
  | cons question rest ih =>
      rw [replies, ask_chainedAfter h, List.mapIdx_cons]
      simp [ih]

/-- Each question is replied to by what follows from the delegates: a result is rejected from the
first one on that some delegate rejects, the failure is described by the first delegate that rejects
this one, before that by the first one that has a description, and results go through the delegates
backwards. -/
theorem replies_chained (h : ∀ d ∈ delegates, d.rejection.IsPure) (questions : List Question) :
    (chained delegates).replies questions =
      questions.mapIdx fun index question =>
        replyAfter delegates (questions.take index) question :=
  replies_chainedAfter h [] questions

namespace WarningHost

/-- The first rule rejects responses of failure without a description, the second one those with
a warning, and the third one none. -/
def rules : List Outcome :=
  [⟨none, .test (fun response => !Response.isSuccess response) none, .property "first"⟩,
    ⟨none, .test (Value.has "warning") (some "The target has warned"), .property "second"⟩,
    send (.string "reload")]

def response : Value :=
  .object [(Response.outcomeKey, .string Response.failed), ("warning", .string "disk")]

def questions : List Question :=
  [.describe, .reject (Response.ofResult .undefined), .transform (.int 1), .reject response,
    .describe, .reject (Response.ofResult .undefined), .describe]

end WarningHost

open WarningHost in
/-- Two delegates reject the response; the first of them has no description, and so there is none
afterwards. -/
theorem replies_chained_warning :
    (∀ d ∈ rules, d.rejection.IsPure) ∧
      (chained rules).replies questions =
        [.description (some "The target has warned"), .verdict false,
          .result (.property "first" (.property "second" (.int 1))), .verdict true,
          .description none, .verdict true, .description none] := by
  have hpure : ∀ d ∈ rules, d.rejection.IsPure := by
    simp only [rules, List.forall_mem_cons, List.not_mem_nil, false_implies, implies_true,
      and_true]
    exact ⟨Rejection.isPure_test _ _, Rejection.isPure_test _ _, Rejection.isPure_never⟩
  exact ⟨hpure, (replies_chained hpure questions).trans rfl⟩

end Outcome
end MixedDomain
