import MixedDomain.Error
import MixedDomain.Registration
import MixedDomain.Resource.View
import MixedDomain.Target

/-!
# Contexts of transformations

## State

A transformation reads the source through its context, which knows the target
and the address of the operation or resource at hand.  Transformers leave
attachments for one another and warnings for the caller.

## Protection

While resources are protected, every view read through the context is read-only.
A guard remembers whether they were protected when it was made, and releasing it
restores just that.

## Failure

`TransformM` keeps the state when a transformation fails: warnings and
attachments outlive an error.
-/

namespace MixedDomain

/-- The kind of process that transforms. -/
inductive ProcessKind where
  | hostController
  | domainServer
  | standaloneServer
  | embeddedServer
  deriving DecidableEq, Inhabited, Repr

def ProcessKind.name : ProcessKind -> String
  | .hostController => "host-controller"
  | .domainServer => "domain-server"
  | .standaloneServer => "standalone-server"
  | .embeddedServer => "embedded-server"

/-- How the process that transforms is running. -/
inductive RunningMode where
  | normal
  | adminOnly
  deriving DecidableEq, Inhabited, Repr

def RunningMode.name : RunningMode -> String
  | .normal => "normal"
  | .adminOnly => "admin-only"

/-- What a transformation knows, and what it leaves behind. -/
structure Context where
  target : Target
  model : ManagementModel
  processKind : ProcessKind
  runningMode : RunningMode
  current : Address
  isProtected : Bool
  attachments : List (String × Value)
  warnings : List String

/-- What a guard restores when it is released. -/
structure Guard where
  wasProtected : Bool
  deriving DecidableEq, Repr

namespace Context

def start (target : Target) (model : ManagementModel) : Context :=
  { target, model
    processKind := .hostController
    runningMode := .normal
    current := Address.root
    isProtected := false
    attachments := []
    warnings := [] }

def readFromRoot? (a : Address) (c : Context) : Option ResourceView :=
  (c.model.resource? a).map fun resource => ⟨a, resource, c.isProtected⟩

def read? (relative : Address) (c : Context) : Option ResourceView :=
  c.readFromRoot? (c.current ++ relative)

def registrationFromRoot? (a : Address) (c : Context) : Option ResourceRegistration :=
  c.model.registration? a

def registration? (relative : Address) (c : Context) : Option ResourceRegistration :=
  c.registrationFromRoot? (c.current ++ relative)

def protect (c : Context) : Guard × Context :=
  (⟨c.isProtected⟩, { c with isProtected := true })

def release (g : Guard) (c : Context) : Context :=
  { c with isProtected := g.wasProtected }

def attachment? (key : String) (c : Context) : Option Value :=
  Entries.get? key c.attachments

/-- Attaches a value: the value that was attached before, and the context afterwards. -/
def attach (key : String) (value : Value) (c : Context) : Option Value × Context :=
  (c.attachment? key, { c with attachments := Entries.insert key value c.attachments })

/-- Takes an attachment away: the value that was attached, and the context afterwards. -/
def detach (key : String) (c : Context) : Option Value × Context :=
  (c.attachment? key, { c with attachments := Entries.erase key c.attachments })

def warn (message : String) (c : Context) : Context :=
  { c with warnings := c.warnings ++ [message] }

def moveTo (a : Address) (c : Context) : Context :=
  { c with current := a }

end Context

/-- A computation on a context that may fail; the context outlives the failure. -/
abbrev TransformM :=
  ExceptT TransformError (StateM Context)

namespace TransformM

def run {result : Type} (m : TransformM result) (c : Context) :
    Except TransformError result × Context :=
  (ExceptT.run m).run c

def ofValue {result : Type} (r : Except ValueError result) : TransformM result :=
  match r with
  | .ok x => pure x
  | .error e => throw (.value e)

def ofExcept {result : Type} (r : Except TransformError result) : TransformM result :=
  match r with
  | .ok x => pure x
  | .error e => throw e

def warn (message : String) : TransformM Unit :=
  modify (Context.warn message)

/-- Runs a computation at another address and comes back afterwards, also after a failure. -/
def movedTo {result : Type} (a : Address) (m : TransformM result) : TransformM result :=
  fun c =>
    let (r, c') := run m (c.moveTo a)
    (r, c'.moveTo c.current)

/-- Runs a computation while resources are protected, also if it fails. -/
def guarded {result : Type} (m : TransformM result) : TransformM result :=
  fun c =>
    let (g, c') := c.protect
    let (r, c'') := run m c'
    (r, c''.release g)

end TransformM
end MixedDomain
