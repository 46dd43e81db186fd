import DistributedRdf.DataInfoProvider
import DistributedRdf.LinearProbing
import DistributedRdf.TransitionSystem
import Mathlib.Algebra.Group.Nat.Defs

namespace DistributedRdf.Loader

open Java Engine Execution Probing

/-!
# The codes of the objects of an application

`ObjectRegistry` gives every object that is passed to a task a code, starting
from the object's own hash code and counting on past the codes of other
objects.  The runtime identifies the object by its code alone.  Objects are
compared by identity, and the hash code of an object may be another one at
every call.
-/

/-- The registry; a null reference is `none`. -/
structure ObjectRegistry (Object : Type u) where
  appTaskObjects : JavaMap Int32 Object
  internalObjects : JavaMap Int32 Object

namespace ObjectRegistry

variable {Object : Type u}

def new : ObjectRegistry Object where
  appTaskObjects := ∅
  internalObjects := ∅

variable
  (registry : ObjectRegistry Object)
  (code : Int32)
  (o : Object)

/-- Stores an object under a code, as an internal object too. -/
def register : ObjectRegistry Object where
  appTaskObjects := registry.appTaskObjects.insert code o
  internalObjects := registry.internalObjects.insert code o

variable
  [DecidableEq Object]
  (hashCode : Int32)

/--
The loop `while (oStored != o)`, which every method runs.  It stops at the
object or at a free code; after all codes it starts again at the first one, so
that it has no result if it does not stop before.
-/
def search : Option Int32 :=
  probe (· + 1) registry.appTaskObjects.lookup o (2 ^ 32) hashCode

def newObjectParameter :
    Option Object → Int32 → Option (ObjectRegistry Object × Int32)
  | none, _ => some (registry, Int32.maxValue)
  | some o, hashCode =>
      (registry.search o hashCode).map fun code =>
        match registry.appTaskObjects.lookup code with
        | none => (registry.register code o, code)
        | some _ => (registry, code)

/--
The code under which the other methods find an object, if it is a task
parameter object.
-/
def taskObjectCode : Option (Option Int32) :=
  (registry.search o hashCode).map fun code =>
    if registry.appTaskObjects.lookup code = none then none else some code

/-- `newObjectAccess`, after the API has answered with `oUpdated`. -/
def newObjectAccess
    (oUpdated : Option Object) : ObjectRegistry Object :=
  match oUpdated with
  | none => registry
  | some value =>
      { registry with
        internalObjects := registry.internalObjects.insert code value }

/-- What `serializeLocally` hands to the API and `getInternalObject` returns. -/
def internalObject : Option Object :=
  registry.internalObjects.lookup code

end ObjectRegistry

/-- What the application and the runtime agreed on in one call. -/
inductive Event (Object : Type u) where
  /-- An object or null was passed to a task, as the given datum. -/
  | parameter (o : Option Object) (code : Int32) (dataId : Option Nat)
  /--
  An object was looked up.  Then it may have been requested from the runtime,
  or its internal object may have been used.
  -/
  | access
      (o : Object)
      (code : Option Int32)
      (dataId : Option Nat)
      (internal : Option Object)
  /-- The loop never stops. -/
  | endless (o : Object)
  deriving DecidableEq

structure Application (Object : Type u) where
  registry : ObjectRegistry Object
  DIP : DataInfoProvider
  history : List (Event Object)

/--
The calls of `ObjectRegistry`, with the hash code that the object has at the
call.  An access to an object whose value is valid makes no request; otherwise
the request answers with `oUpdated`.
-/
inductive ObjectCall (Object : Type u) where
  | newObjectParameter
      (o : Option Object)
      (hashCode : Int32)
      (mode : AccessMode)
  | newObjectAccess
      (o : Option Object)
      (hashCode : Int32)
      (validValue : Bool)
      (oUpdated : Option Object)
  | serializeLocally (o : Option Object) (hashCode : Int32)
  | getInternalObject (o : Option Object) (hashCode : Int32)
  deriving DecidableEq

namespace Application

variable {Object : Type u}

def new : Application Object where
  registry := .new
  DIP := .new
  history := []

def log
    (application : Application Object)
    (event : Event Object) : Application Object :=
  { application with history := application.history ++ [event] }

/-- `registerObjectAccess`, with the datum that the access belongs to. -/
def registerAccess
    (application : Application Object)
    (mode : AccessMode)
    (code : Int32) : Application Object × Option Nat :=
  let registered := application.DIP.registerObjectAccess mode code.toInt
  ({ application with DIP := registered.state },
    registered.value?.map DataAccessId.dataId)

variable [DecidableEq Object]

def passParameter
    (application : Application Object)
    (o : Option Object)
    (hashCode : Int32)
    (mode : AccessMode) : Application Object :=
  match application.registry.newObjectParameter o hashCode, o with
  | some (registry, code), _ =>
      let registered :=
        { application with registry := registry }.registerAccess mode code
      registered.1.log (.parameter o code registered.2)
  | none, some object => application.log (.endless object)
  | none, none => application

/-- A method that looks an object up and goes on if it is a task object. -/
def lookUp
    (application : Application Object)
    (o : Option Object)
    (hashCode : Int32)
    (proceed : Object → Int32 → Application Object) : Application Object :=
  match o with
  | none => application
  | some object =>
      match application.registry.taskObjectCode object hashCode with
      | none => application.log (.endless object)
      | some none => application.log (.access object none none none)
      | some (some code) => proceed object code

/-- The part of `newObjectAccess` after the object was found. -/
def requestObject
    (application : Application Object)
    (validValue : Bool)
    (oUpdated : Option Object)
    (object : Object)
    (code : Int32) : Application Object :=
  if validValue then
    application.log (.access object (some code) none none)
  else
    let registered := application.registerAccess .RW code
    { registered.1 with
      registry := registered.1.registry.newObjectAccess code oUpdated
    }.log (.access object (some code) registered.2 none)

/-- The part of the other two methods, which use the internal object. -/
def useInternalObject
    (application : Application Object)
    (object : Object)
    (code : Int32) : Application Object :=
  application.log (.access object (some code) none
    (application.registry.internalObject code))

def call (application : Application Object) :
    ObjectCall Object → Application Object
  | .newObjectParameter o hashCode mode =>
      application.passParameter o hashCode mode
  | .newObjectAccess o hashCode validValue oUpdated =>
      application.lookUp o hashCode
        (application.requestObject validValue oUpdated)
  | .serializeLocally o hashCode =>
      application.lookUp o hashCode application.useInternalObject
  | .getInternalObject o hashCode =>
      application.lookUp o hashCode application.useInternalObject

variable (Object) in
/-- The calls of an application can come in any order. -/
def system : TransitionSystem (Application Object) (ObjectCall Object) where
  start := .new
  Enabled := fun _ _ => True
  next := call

end Application

end DistributedRdf.Loader
