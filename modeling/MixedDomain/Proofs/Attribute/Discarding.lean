import MixedDomain.Proofs.Attribute.BuiltIn
import MixedDomain.Proofs.Value.Expressions

/-!
# Expressions that are discarded

## What is noticed

A check that is to keep expressions looks for them in the texts of a value.  Checks
with a list of values also refuse a value that is an EXPRESSION itself.  An EXPRESSION
whose text shows no expression is noticed by neither when it stands inside of a value,
and not by the check for defaults at all.

## What is compared

What is not noticed is compared like any other value: with the values of the list, or
with the default.
-/

namespace MixedDomain

/-- Whether some part of a value is an EXPRESSION, or is a string in which an expression stands. -/
def Value.HoldsAnyExpression (v : Value) : Prop :=
  exists part : Value, part.IsPart v ∧ (part.isExpression = true ∨ part.HoldsExpressionText)

theorem Value.HoldsAnyExpression.isDefined {v : Value} (h : v.HoldsAnyExpression) :
    v.isDefined = true := by
  rcases h with ⟨part, hpart, hexpression⟩
  cases v with
  | undefined =>
      cases hpart
      simp [isExpression, HoldsExpressionText] at hexpression
  | _ => rfl

namespace DiscardCheck

variable {check : DiscardCheck} {v : Value}

def refusesKind : DiscardCheck -> Bool
  | .values _ _ => true
  | _ => false

def Notices (check : DiscardCheck) (v : Value) : Prop :=
  (exists part : Value, part.IsPart v ∧ part.HoldsExpressionText) ∨
    (check.refusesKind = true ∧ v.isExpression = true)

def comparedWith (default? : Option Value) : DiscardCheck -> List Value
  | .default => default?.toList
  | .values listed _ => listed
  | _ => []

theorem isDefault_eq_isAmong (v : Value) (default? : Option Value) :
    isDefault v default? = v.isAmong default?.toList := by
  cases default? <;> simp [isDefault, Value.isAmong]

theorem decideBy_eq (hkeeps : check.discardsExpressions = false) (hv : v.isDefined = true)
    (otherwise : Bool) : check.decideBy v otherwise = (!v.hasExpression && otherwise) := by
  cases hexpression : v.hasExpression <;> simp [decideBy, hkeeps, hv, hexpression]

theorem testValue_eq (hb : check.IsBuiltIn) (hkeeps : check.discardsExpressions = false)
    (a : Address) (name : String) (v : Value) (c : Context) :
    check.testValue a name v c =
      (!(check.refusesKind && v.isExpression)
        && v.isAmong (check.comparedWith (attributeDefault? a name c))) := by
  cases check with
  | always => cases hkeeps
  | test => exact hb.elim
  | default => exact isDefault_eq_isAmong v _
  | _ => rfl

theorem discardsAttribute_eq (hb : check.IsBuiltIn) (hkeeps : check.discardsExpressions = false)
    (hv : v.isDefined = true) (a : Address) (name : String) (c : Context) :
    check.discardsAttribute a name v c =
      (!v.hasExpression && (!(check.refusesKind && v.isExpression)
        && v.isAmong (check.comparedWith (attributeDefault? a name c)))) := by
  rw [discardsAttribute, decideBy_eq hkeeps hv, testValue_eq hb hkeeps]

theorem discardsParameter_eq (hb : check.IsBuiltIn) (hkeeps : check.discardsExpressions = false)
    (hv : v.isDefined = true) (a : Address) (name : String) (operation : Value) (c : Context) :
    check.discardsParameter a name v operation c =
      (!v.hasExpression && (!(check.refusesKind && v.isExpression)
        && v.isAmong (check.comparedWith (operationDefault? a name operation c)))) := by
  cases check with
  | default =>
      rw [discardsParameter, decideBy_eq hkeeps hv, isDefault_eq_isAmong]
      rfl
  | _ => exact discardsAttribute_eq hb hkeeps hv a name c

theorem notices_iff : check.Notices v ↔
    v.hasExpression = true ∨ (check.refusesKind && v.isExpression) = true := by
  rw [Notices, Value.hasExpression_iff_exists_isPart, Bool.and_eq_true]

/-- A check that does not discard expressions keeps a value that holds one just if it notices it or
compares it with no value that is equal. -/
theorem keeps_expression_iff (hb : check.IsBuiltIn) (hkeeps : check.discardsExpressions = false)
    (hv : v.HoldsAnyExpression) (a : Address) (name : String) (operation : Value) (c : Context) :
    (check.discardsParameter a name v operation c = false ↔
      check.Notices v ∨
        v.isAmong (check.comparedWith (operationDefault? a name operation c)) = false) ∧
    (check.discardsAttribute a name v c = false ↔
      check.Notices v ∨ v.isAmong (check.comparedWith (attributeDefault? a name c)) = false) := by
  rw [discardsParameter_eq hb hkeeps hv.isDefined, discardsAttribute_eq hb hkeeps hv.isDefined,
    notices_iff]
  simp only [Bool.and_eq_false_iff, Bool.not_eq_false', or_assoc, and_self]

namespace MailDefaults

def mail : Address :=
  [Address.subsystemElement "mail"]

/-- The default of the sender, in which an expression stands. -/
def sender : Value :=
  .list [.string "root", .string "$\x7buser\x7d@localhost"]

/-- The default of the host, an EXPRESSION without braces. -/
def host : Value :=
  .expression "mail.host"

/-- The context at the beginning, in which both defaults are documented. -/
def context : Context :=
  Context.start ⟨"legacy-host", ⟨1, 4, 0⟩, [("mail", ⟨1, 0, 0⟩)], .host⟩
    ((ManagementModel.ofRoot .empty).register mail
      ⟨[⟨"from", some sender⟩, ⟨"host", some host⟩], []⟩)

end MailDefaults

open MailDefaults in
theorem keeps_expression_sender :
    IsBuiltIn .default ∧ discardsExpressions .default = false ∧ sender.HoldsAnyExpression ∧
      discardsParameter .default mail "from" sender (Operation.create Operation.add mail) context =
        false ∧
      discardsAttribute .default mail "from" sender context = false := by
  have hb : IsBuiltIn .default := trivial
  have htext : (Value.string "$\x7buser\x7d@localhost").HoldsExpressionText :=
    ⟨[], "user".toList, "@localhost".toList, rfl⟩
  have hpart : (Value.string "$\x7buser\x7d@localhost").IsPart sender :=
    .item (List.mem_cons_of_mem _ List.mem_cons_self) .whole
  have hv : sender.HoldsAnyExpression := ⟨_, hpart, Or.inr htext⟩
  have hnotices : Notices .default sender := Or.inl ⟨_, hpart, htext⟩
  have hkept := keeps_expression_iff hb rfl hv mail "from" (Operation.create Operation.add mail)
    context
  exact ⟨hb, rfl, hv, hkept.1.mpr (Or.inl hnotices), hkept.2.mpr (Or.inl hnotices)⟩

open MailDefaults in
/-- An EXPRESSION without braces is discarded if it is the default, and if it stands in a list that
is among the values of a check. -/
theorem discards_expression_host :
    (IsBuiltIn .default ∧ discardsExpressions .default = false) ∧
      (IsBuiltIn (.values [.list [host]] true) ∧
        discardsExpressions (.values [.list [host]] true) = false) ∧
      host.HoldsAnyExpression ∧ (Value.list [host]).HoldsAnyExpression ∧
      discardsParameter .default mail "host" host (Operation.create Operation.add mail) context =
        true ∧
      discardsAttribute .default mail "host" host context = true ∧
      discardsParameter (.values [.list [host]] true) mail "hosts" (.list [host])
        (Operation.create Operation.add mail) context = true ∧
      discardsAttribute (.values [.list [host]] true) mail "hosts" (.list [host]) context = true :=
  ⟨⟨trivial, rfl⟩, ⟨trivial, rfl⟩, ⟨host, .whole, Or.inl rfl⟩,
    ⟨host, .item List.mem_cons_self .whole, Or.inl rfl⟩, by decide, by decide, by decide,
    by decide⟩

end DiscardCheck
end MixedDomain
