import DistributedRdf.Words

namespace DistributedRdf.PyCompss

open Function

open Words (Text)

/-!
# The decorator of a Python task

The decorator keeps a parameter for each name.  A call looks its parameters up,
infers the types that are missing, turns objects into files and submits what the
parameters then say.  The dictionary is the same for all calls.
-/

inductive Direction where
  | inDir | outDir | inoutDir
  deriving DecidableEq

/-- `Type` of the parameters -/
inductive CompssType where
  | boolean | char | int | long | double | string | file | object | psco
  | externalPsco
  deriving DecidableEq

/-- The Python types that are told apart -/
inductive ValueType where
  | int | long | float | bool | str | tuple | list | dict | future | other
  deriving DecidableEq

def pythonToCompss : ValueType → Option CompssType
  | .int => some .int
  | .long => some .long
  | .float => some .double
  | .bool => some .boolean
  | .str => some .string
  | .tuple => some .object
  | .list => some .object
  | .dict => some .object
  | .future => none
  | .other => none

/-- What Python and the runtime answer about values at the time of a call -/
structure Interpreter (Value : Type) where
  typeOf : Value → ValueType
  id : Value → Nat
  /-- What `getID` returns, for objects that have such a method -/
  getID : Value → Option Value
  isNone : Value → Bool
  /-- The comparison with the bounds of a Java `int`; `none` if it fails -/
  exceedsInt : Value → Option Bool
  /-- The comparison with the bounds of a Java `long` -/
  exceedsLong : Value → Option Bool
  elements : Value → List Value
  isFuture : Value → Bool
  serializable : Value → Bool
  /-- The string of a text -/
  str : Text → Value
  newList : List Value → Value
  /-- `temp_dir + temp_obj_prefix + str(obj_id)` -/
  fileOfId : Nat → Text
  /-- The object of a file of the runtime -/
  getFile : Text → Direction → Option Value

/-- The dictionaries of the module; the contents of files are left out. -/
structure Globals where
  objidToFilename : Nat → Option Text
  taskObjects : Nat → Bool
  objsWrittenByMp : Nat → Bool

structure Parameter (Value : Type) where
  type : Option CompssType
  direction : Direction
  value : Option Value
  deriving DecidableEq

/-- `Parameter()` -/
def Parameter.default {Value : Type} : Parameter Value where
  type := none
  direction := .inDir
  value := none

/-- What the dictionary has for a name; flags and tuples are no parameters. -/
inductive Entry (Value : Type) where
  | parameter (p : Parameter Value)
  | other
  deriving DecidableEq

abbrev Decorator (Value : Type) := Text → Option (Entry Value)

/-- A parameter that has its value and a type -/
structure Argument (Value : Type) where
  type : CompssType
  direction : Direction
  value : Value
  deriving DecidableEq

def Argument.toEntry {Value : Type} (p : Argument Value) : Entry Value :=
  .parameter ⟨some p.type, p.direction, some p.value⟩

section Serialization

variable
  {Value : Type}
  (python : Interpreter Value)
  (globals : Globals)

/-- The future object or the value of a future object -/
def synchronize
    (obj : Value)
    (mode : Direction) : Option (Value × Globals) :=
  let objId := python.id obj
  if globals.taskObjects objId then do
    let fileName ← globals.objidToFilename objId
    let newObj ← python.getFile fileName mode
    let newObjId := python.id newObj
    return (newObj,
      { objidToFilename :=
          update globals.objidToFilename newObjId (some fileName)
        taskObjects := update globals.taskObjects newObjId true
        objsWrittenByMp :=
          if mode = .inDir then
            globals.objsWrittenByMp
          else
            update globals.objsWrittenByMp newObjId true })
  else
    some (obj, globals)

def synchronizeAll (mode : Direction) :
    List Value → Globals → Option (List Value × Globals)
  | [], globals => some ([], globals)
  | obj :: rest, globals => do
      let (newObj, globals) ← synchronize python globals obj mode
      let (others, globals) ← synchronizeAll mode rest globals
      return (newObj :: others, globals)

variable (p : Argument Value)

/-- `none` if the object cannot be serialized -/
def turnIntoFile : Argument Value × Option Globals :=
  let objId := python.id p.value
  match globals.objidToFilename objId with
  | none =>
      -- the first time a task accesses this object
      let fileName := python.fileOfId objId
      if python.serializable p.value then
        ({ p with value := python.str fileName },
          some
            { globals with
              objidToFilename :=
                update globals.objidToFilename objId (some fileName)
              taskObjects := update globals.taskObjects objId true })
      else
        (p, none)
  | some fileName =>
      if globals.objsWrittenByMp objId then
        -- the main program has written the last version
        if python.serializable p.value then
          ({ p with value := python.str fileName },
            some
              { globals with
                objsWrittenByMp :=
                  update globals.objsWrittenByMp objId false })
        else
          (p, none)
      else
        ({ p with value := python.str fileName }, some globals)

def managePersistentObject : Argument Value × Option Globals :=
  let objId := python.id p.value
  if p.direction = .inDir ∧ globals.objidToFilename objId = none ∧
      globals.objsWrittenByMp objId = false then
    match python.getID p.value with
    | none => ({ p with type := .externalPsco }, none)
    | some persistentId =>
        ({ p with type := .externalPsco, value := persistentId }, some globals)
  else
    turnIntoFile python globals { p with type := .object }

/-- A list with future objects -/
def holdsFutures (value : Value) : Bool :=
  python.typeOf value = .list && (python.elements value).any python.isFuture

/-- Turns objects into files and widens numbers that do not fit. -/
def serializeObjectIntoFile : Argument Value × Option Globals :=
  if p.type = .object ∨ python.typeOf p.value = .future then
    if holdsFutures python p.value then
      match synchronizeAll python .inDir (python.elements p.value) globals with
      | none => (p, none)
      | some (values, globals) =>
          turnIntoFile python globals { p with value := python.newList values }
    else
      turnIntoFile python globals p
  else
    match p.type with
    | .externalPsco => managePersistentObject python globals p
    | .int =>
        match python.exceedsInt p.value with
        | none => (p, none)
        | some true => ({ p with type := .long }, some globals)
        | some false => (p, some globals)
    | .long =>
        match python.exceedsLong p.value with
        | none => (p, none)
        | some true => turnIntoFile python globals { p with type := .object }
        | some false => (p, some globals)
    | _ => (p, some globals)

end Serialization

/-!
## Calls
-/

inductive FunctionType where
  | function | instanceMethod | classMethod
  deriving DecidableEq

/-- The keyword `returns`; a sequence has at least one element. -/
inductive Returns where
  | nothing
  | one (type : ValueType)
  | sequence (others : Nat)
  /-- Has a length and is neither a list nor a tuple -/
  | sized
  deriving DecidableEq

/-- What is given to the decorator -/
structure Task (Value : Type) where
  kwargs : Decorator Value
  isModifier : Bool
  returns : Returns

/-- A call, with Python and the dictionaries as they are when it is made -/
structure Call (Value : Type) where
  python : Interpreter Value
  globals : Globals
  objectConversion : Bool
  functionType : FunctionType
  /-- The names of the parameters, without the ones of return values -/
  names : List Text
  args : List Value
  /-- The future objects that are created for return values -/
  futureId : Nat → Nat

/-- What is submitted for a parameter -/
structure Submitted (Value : Type) where
  value : Option Value
  type : Option CompssType
  direction : Direction
  deriving DecidableEq

def retvalue : Text := "compss_retvalue".toList

def retvalueAt (pos : Nat) : Text :=
  retvalue ++ Nat.toDigits 10 pos

def reserved : List Text :=
  ["isModifier".toList, "returns".toList, "priority".toList,
    "isReplicated".toList, "isDistributed".toList]

/-- The type of a value that has no length, or of a type -/
def getCOMPSsType : ValueType → CompssType
  | .bool => .boolean
  | .int => .int
  | .long => .long
  | .float => .double
  | .str => .string
  | _ => .file

section Decoration

variable {Value : Type}

/-- `task.__init__` of the master -/
def Task.init (task : Task Value) : Decorator Value := fun name =>
  if reserved.contains name then
    some .other
  else if name = "self".toList then
    some (.parameter
      { type := some .object
        direction := if task.isModifier then .inoutDir else .inDir
        value := none })
  else if name = retvalue then
    match task.returns with
    | .nothing => task.kwargs name
    | .one type => some (.parameter ⟨some (getCOMPSsType type), .outDir, none⟩)
    | .sequence _ => some .other
    | .sized => some .other
  else
    task.kwargs name

/-- The names of all parameters, and the files of return values -/
structure SpecArgs where
  names : List Text
  fileNames : Text → Option Text

/-- What the return values add to the dictionaries and to the names -/
structure Prepared (Value : Type) where
  decorator : Decorator Value
  globals : Globals
  specArgs : SpecArgs

/-- A future object with its file -/
def Globals.addFuture
    (globals : Globals)
    (objId : Nat)
    (retFilename : Text) : Globals :=
  { globals with
    objidToFilename :=
      update globals.objidToFilename objId (some retFilename)
    taskObjects := update globals.taskObjects objId true }

/-- One element of a sequence of return values -/
def addReturn
    (call : Call Value)
    (prepared : Prepared Value)
    (pos : Nat) : Prepared Value :=
  let objId := call.futureId pos
  let retFilename := call.python.fileOfId objId
  { decorator :=
      update prepared.decorator (retvalueAt pos)
        (some (.parameter ⟨some .file, .outDir, none⟩))
    globals := prepared.globals.addFuture objId retFilename
    specArgs :=
      { names := prepared.specArgs.names ++ [retvalueAt pos]
        fileNames :=
          update prepared.specArgs.fileNames (retvalueAt pos)
            (some retFilename) } }

/-- `none` if an assertion fails; without return values nothing is added. -/
def buildReturnObjects
    (returns : Returns)
    (call : Call Value)
    (decorator : Decorator Value) : Option (Prepared Value) :=
  let single : Prepared Value :=
    { decorator
      globals :=
        call.globals.addFuture (call.futureId 0)
          (call.python.fileOfId (call.futureId 0))
      specArgs :=
        { names := call.names ++ [retvalue]
          fileNames :=
            update (fun _ => none) retvalue
              (some (call.python.fileOfId (call.futureId 0))) } }
  match returns with
  | .nothing => some ⟨decorator, call.globals, call.names, fun _ => none⟩
  | .one _ => some single
  | .sized => some single
  | .sequence others =>
      -- the single return value makes room for the elements
      if (decorator retvalue).isSome ∨
          (decorator (retvalueAt 0)).isSome then
        let prepared :=
          (List.range (others + 1)).foldl (addReturn call)
            { decorator := update decorator retvalue none
              globals := call.globals
              specArgs :=
                { names := (call.names ++ [retvalue]).erase retvalue
                  fileNames := fun _ => none } }
        some
          { prepared with
            decorator :=
              update prepared.decorator "num_returns".toList
                (some .other) }
      else
        none

variable (specArgs : SpecArgs)

/-- The value of parameter `i`; `none` if an index or a key is missing. -/
def SpecArgs.valueOf
    (call : Call Value)
    (i : Nat)
    (specArg : Text) : Option Value :=
  let fromFile := (specArgs.fileNames specArg).map call.python.str
  if specArgs.names.head? ≠ some "self".toList then
    if i < call.args.length then call.args[i]? else fromFile
  else if specArg = "self".toList then
    call.args[0]?
  else if retvalue <+: specArg then
    fromFile
  else
    call.args[i]?

def inferType (python : Interpreter Value) (value : Value) : CompssType :=
  match pythonToCompss (python.typeOf value) with
  | some type => type
  | none =>
      match python.getID value with
      | none => .object
      | some persistentId =>
          -- criteria for persistent object
          if python.isNone persistentId then .object else .externalPsco

variable (decorator : Decorator Value)

/-- The parameter of a name, with the default decoration if it has none -/
def lookUp (specArg : Text) :
    Option (Parameter Value) :=
  match decorator specArg with
  | none => some .default
  | some (.parameter p) => some p
  | some .other => none

/-- One parameter: its value is set, its type is inferred if it has none, and an
object is turned into a file.  The conversion of small objects always fails. -/
def inferAndSerialize
    (call : Call Value)
    (specArgs : SpecArgs)
    (i : Nat)
    (specArg : Text)
    (decorator : Decorator Value)
    (globals : Globals) : Decorator Value × Option (Globals × Bool) :=
  match lookUp decorator specArg with
  | none => (decorator, none)
  | some p =>
      match specArgs.valueOf call i specArg with
      | none => (update decorator specArg (some (.parameter p)), none)
      | some value =>
          let isFuture : Bool := call.python.typeOf value = .future
          let argument : Argument Value :=
            ⟨p.type.getD (inferType call.python value), p.direction, value⟩
          if call.objectConversion then
            (update decorator specArg (some argument.toEntry), none)
          else
            let final := serializeObjectIntoFile call.python globals argument
            (update decorator specArg (some final.1.toEntry),
              final.2.map fun globals => (globals, isFuture))

/-- The parameters from the first one on; `none` if one of them fails. -/
def inferTypesAndSerializeObjects
    (call : Call Value)
    (specArgs : SpecArgs) :
    List (Nat × Text) → Decorator Value → Globals → (Nat → Bool) →
      Decorator Value × Option (Nat → Bool)
  | [], decorator, _, isFuture => (decorator, some isFuture)
  | (i, specArg) :: rest, decorator, globals, isFuture =>
      match
        inferAndSerialize call specArgs i specArg decorator globals
      with
      | (decorator, none) => (decorator, none)
      | (decorator, some (globals, future)) =>
          inferTypesAndSerializeObjects call specArgs rest decorator globals
            (update isFuture i future)

/-- What is submitted for a name -/
def submittedFor
    (isFuture : Nat → Bool)
    (parameter : Nat × Text) : Option (Submitted Value) :=
  match decorator parameter.2 with
  | some (.parameter p) =>
      some
        { value := p.value
          type :=
            if p.type = some .object ∨ isFuture parameter.1 then
              some .file
            else
              p.type
          direction := p.direction }
  | _ => none

variable (functionType : FunctionType)

/-- The callee is the last. -/
def buildValuesTypesDirections
    (parameters : List (Nat × Text))
    (decorator : Decorator Value)
    (isFuture : Nat → Bool) : Option (List (Submitted Value)) :=
  let ordered :=
    match functionType with
    | .instanceMethod => parameters.drop 1 ++ parameters.take 1
    | .function => parameters
    | .classMethod => parameters
  ordered.mapM (submittedFor decorator isFuture)

/-- The names with their positions; the class of a class method is skipped. -/
def SpecArgs.parameters : List (Nat × Text) :=
  let numbered := specArgs.names.zipIdx.map Prod.swap
  match functionType with
  | .classMethod => numbered.drop 1
  | .function => numbered
  | .instanceMethod => numbered

/-- The decorator that is left behind, and what is submitted -/
def processTask
    (returns : Returns)
    (decorator : Decorator Value)
    (call : Call Value) :
    Decorator Value × Option (List (Submitted Value)) :=
  match buildReturnObjects returns call decorator with
  | none => (decorator, none)
  | some prepared =>
      let parameters := prepared.specArgs.parameters call.functionType
      match
        inferTypesAndSerializeObjects call prepared.specArgs parameters
          prepared.decorator prepared.globals fun _ => false
      with
      | (decorator, none) => (decorator, none)
      | (decorator, some isFuture) =>
          (decorator,
            buildValuesTypesDirections call.functionType parameters decorator
              isFuture)

/-- The decorator after some calls -/
def decoratorAfter
    (task : Task Value)
    (calls : List (Call Value)) : Decorator Value :=
  calls.foldl
    (fun decorator call => (processTask task.returns decorator call).1)
    task.init

end Decoration

end DistributedRdf.PyCompss
