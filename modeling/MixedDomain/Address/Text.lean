import MixedDomain.Text.Blank
import MixedDomain.Text.Split
import MixedDomain.Address.Basic
import MixedDomain.Value.Error

/-!
# Addresses as text

## Writing

An element is written `key=value`, an address as its elements with a slash
before each; the root is a slash alone.

## Reading

An element is cut at its first equals sign, so that values may contain others.
The blanks around an address and all slashes at its front are dropped.
-/

namespace MixedDomain

def PathElement.text (e : PathElement) : String :=
  e.key ++ "=" ++ e.value

/-- Reads an element; neither its key nor its value may be empty. -/
def PathElement.ofText (s : String) : Except ValueError PathElement :=
  match Text.cut '=' s.toList with
  | none => .error (.invalidAddress s "expected key=value")
  | some (key, value) =>
      if key.isEmpty || value.isEmpty then
        .error (.invalidAddress s "empty key or value")
      else
        .ok ⟨String.ofList key, String.ofList value⟩

namespace Address

def text (a : Address) : String :=
  if a.isEmpty then "/" else String.join (a.map fun e => "/" ++ e.text)

def elementOfSegment (whole : String) (segment : List Char) : Except ValueError PathElement :=
  match PathElement.ofText (String.ofList segment) with
  | .ok e => .ok e
  | .error _ =>
      .error (.invalidAddress whole ("bad segment '" ++ String.ofList segment ++ "'"))

def ofText (s : String) : Except ValueError Address :=
  let trimmed := Text.trim s.toList
  if trimmed = [] || trimmed = ['/'] then
    .ok root
  else
    (Text.split '/' (trimmed.dropWhile (· == '/'))).mapM (elementOfSegment s)

end Address
end MixedDomain
