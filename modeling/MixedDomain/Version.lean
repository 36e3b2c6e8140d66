import MixedDomain.Text.Blank
import MixedDomain.Text.Split
import MixedDomain.Text.Integer
import MixedDomain.Value.Error

/-!
# Model versions

## Three numbers

A version has a major, a minor and a micro number of 32 bits each.  Versions are
compared number by number.  In text the last numbers may be missing, which makes
them zero; a version is always written in full.
-/

namespace MixedDomain

/-- The version of a model. -/
structure ModelVersion where
  major : Nat
  minor : Nat
  micro : Nat
  deriving DecidableEq, Inhabited, Repr

namespace ModelVersion

def text (v : ModelVersion) : String :=
  toString v.major ++ "." ++ toString v.minor ++ "." ++ toString v.micro

def compare (a b : ModelVersion) : Ordering :=
  (Ord.compare a.major b.major).then
    ((Ord.compare a.minor b.minor).then (Ord.compare a.micro b.micro))

def older (a b : ModelVersion) : Bool :=
  a.compare b == .lt

def readPart? (cs : List Char) : Option Nat := do
  let n ← Text.readNat? cs
  if n < UInt32.size then
    return n
  else
    none

def read? (s : String) : Option ModelVersion := do
  let parts ← (Text.split '.' (Text.trim s.toList)).mapM readPart?
  match parts with
  | [major] => return ⟨major, 0, 0⟩
  | [major, minor] => return ⟨major, minor, 0⟩
  | [major, minor, micro] => return ⟨major, minor, micro⟩
  | _ => none

def ofText (s : String) : Except ValueError ModelVersion :=
  match read? s with
  | some v => .ok v
  | none => .error (.invalidNumber .modelVersion s)

def insertAscending (v : ModelVersion) : List ModelVersion -> List ModelVersion
  | [] => [v]
  | w :: rest => if w.older v then w :: insertAscending v rest else v :: w :: rest

def ascending (versions : List ModelVersion) : List ModelVersion :=
  versions.foldl (fun sorted v => insertAscending v sorted) []

theorem compare_eq_eq_iff (a b : ModelVersion) : a.compare b = .eq ↔ a = b := by
  cases a
  cases b
  simp [compare, Ordering.then_eq_eq]

theorem not_older_self (a : ModelVersion) : a.older a = false := by
  simp [older, (compare_eq_eq_iff a a).2 rfl]

end ModelVersion
end MixedDomain
