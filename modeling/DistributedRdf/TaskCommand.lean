import DistributedRdf.FallibleSteps
import DistributedRdf.Words

namespace DistributedRdf.Piper

open Words

/-!
# Task commands

The executor of the worker writes a task to a pipe as one line of text.  The
Python process reads the line, splits it and takes the fields from its words.
-/

inductive DataType where
  | boolean | char | byte | short | int | long | float | double | string | file
  | object | psco | externalPsco
  deriving DecidableEq

def DataType.ordinal : DataType → Nat
  | .boolean => 0
  | .char => 1
  | .byte => 2
  | .short => 3
  | .int => 4
  | .long => 5
  | .float => 6
  | .double => 7
  | .string => 8
  | .file => 9
  | .object => 10
  | .psco => 11
  | .externalPsco => 12

inductive Stream where
  | stdin | stdout | stderr | unspecified
  deriving DecidableEq

def Stream.ordinal : Stream → Nat
  | .stdin => 0
  | .stdout => 1
  | .stderr => 2
  | .unspecified => 3

/-- Doubles as Java writes them and as Python reads them -/
structure Doubles where
  Double : Type
  toText : Double → Text
  float : Text → Option Double

/-- The text of a double is one word, from which the double can be read. -/
structure Doubles.Agree (doubles : Doubles) : Prop where
  isWord : ∀ d, IsWord (doubles.toText d)
  float_toText : ∀ d, doubles.float (doubles.toText d) = some d

/-! ## The writer -/

section Writer

variable (doubles : Doubles)

/-- A value with what is written for its type -/
inductive ParamValue where
  | boolean (value : Bool)
  | int (value : Int)
  | long (value : Int)
  | double (value : doubles.Double)
  | string (value : Text)
  | file (originalName : Text)
  | externalPsco (id : Text) (writeFinalValue : Bool)

structure NIOParam where
  stream : Stream
  pPrefix : Text
  value : ParamValue doubles

structure NIOTask where
  jobId : Int
  taskId : Int
  workerDebug : Bool
  declaringClass : Text
  alternativeMethodName : Text
  slaveWorkersNodeNames : List Text
  totalCPUComputingUnits : Int
  hasTarget : Bool
  /-- The parameters without the one for the return value -/
  params : List (NIOParam doubles)
  /-- The last parameter of a task that has a return value -/
  returned : Option (NIOParam doubles)

/-- A storage configuration with which the storage is enabled -/
abbrev StorageConf :=
  { conf : Text // conf ≠ [] ∧ conf ≠ "null".toList }

structure ExternalExecutor where
  tracingActivated : Bool
  storage : Option StorageConf
  outputsBasename : Text
  assignedCoreUnits : List Int

variable {doubles}

def ParamValue.type : ParamValue doubles → DataType
  | .boolean _ => .boolean
  | .int _ => .int
  | .long _ => .long
  | .double _ => .double
  | .string _ => .string
  | .file _ => .file
  | .externalPsco .. => .externalPsco

/-- `Boolean.toString` -/
def booleanText (b : Bool) : Text :=
  if b then "true".toList else "false".toList

/-- The arguments for the value of a parameter -/
def ParamValue.arguments : ParamValue doubles → List Text
  | .boolean value => [booleanText value]
  | .int value => [decimal value]
  | .long value => [decimal value]
  | .double value => [doubles.toText value]
  | .string value =>
      let vals := splitAtBlanks value
      decimal vals.length :: vals
  | .file originalName => [originalName]
  | .externalPsco id writeFinalValue =>
      [id, if writeFinalValue then "W".toList else "R".toList]

def NIOParam.arguments (np : NIOParam doubles) : List Text :=
  decimal np.value.type.ordinal :: decimal np.stream.ordinal :: np.pPrefix ::
    np.value.arguments

variable (executor : ExternalExecutor)

/-- `STORAGE_CONF` -/
def ExternalExecutor.storageConf : Text :=
  match executor.storage with
  | some conf => conf.val
  | none => "null".toList

variable (nt : NIOTask doubles)

def returnType : Text :=
  match nt.returned with
  | some np => decimal np.value.type.ordinal
  | none => "null".toList

/-- The arguments up to the method type -/
def taskArguments :
    List Text :=
  [booleanText executor.tracingActivated, decimal nt.taskId,
    booleanText nt.workerDebug, executor.storageConf, "METHOD".toList]

/-- The arguments from the declaring class to the number of parameters -/
def methodArguments : List Text :=
  nt.declaringClass :: nt.alternativeMethodName ::
    decimal nt.slaveWorkersNodeNames.length :: (nt.slaveWorkersNodeNames ++
      [decimal nt.totalCPUComputingUnits, booleanText nt.hasTarget,
        returnType nt, decimal nt.params.length])

def addArguments :
    List Text :=
  taskArguments executor nt ++ methodArguments nt ++
    (nt.params ++ nt.returned.toList).flatMap NIOParam.arguments

/-- The argument of `addThreadAffinity` -/
def threadAffinity (assignedCoreUnits : List Int) : Text :=
  if assignedCoreUnits = [] then
    "-".toList
  else
    [','].intercalate (assignedCoreUnits.map decimal)

/-- The Python executor has no pre-command. -/
def externalArguments :
    List Text :=
  addArguments executor nt ++ [threadAffinity executor.assignedCoreUnits]

def getArgumentsAsString (args : List Text) : Text :=
  joined args

/-- The command that `executeExternal` writes to the pipe -/
def taskCMD :
    Text :=
  "task".toList ++ ' ' :: (decimal nt.jobId ++
    ' ' :: (executor.outputsBasename ++ ".out".toList ++
      ' ' :: (executor.outputsBasename ++ ".err".toList ++
        ' ' :: (getArgumentsAsString (externalArguments executor nt) ++
          ['\n']))))

end Writer

/-! ## The reader -/

/-- The exceptions that the process tells apart -/
inductive PythonException where
  | attributeError
  | importError
  /-- `SystemExit` and the others that are no `Exception` -/
  | systemExit
  | otherException
  deriving DecidableEq

variable (items : List Text)

/-- `items[i]`; negative indices count from the end. -/
def item (i : Int) : Except PythonException Text :=
  let found :=
    if 0 ≤ i then items[i.toNat]?
    else if 0 ≤ i + items.length then items[(i + items.length).toNat]?
    else none
  match found with
  | some text => .ok text
  | none => .error .otherException

/-- `items[i:]` -/
def itemsFrom (i : Int) : List Text :=
  if 0 ≤ i then items.drop i.toNat else items.drop (i + items.length).toNat

variable (text : Text)

def pythonInt : Except PythonException Int :=
  match toInt text with
  | some i => .ok i
  | none => .error .otherException

/-- `long` allows an L at the end. -/
def pythonLong : Except PythonException Int :=
  if text.getLast? = some 'L' ∨ text.getLast? = some 'l' then
    pythonInt text.dropLast
  else
    pythonInt text

section Reader

variable (doubles : Doubles) (Object : Type)

inductive Value where
  | boolean (value : Bool)
  | integer (value : Int)
  | float (value : doubles.Double)
  | text (value : Text)
  /-- The object with an identifier of the storage -/
  | persistent (id : Text)
  /-- An object that was serialized to a string -/
  | object (value : Object)

structure Parameter where
  pType : Int
  pStream : Int
  pPrefix : Text
  value : Value doubles Object

/-- What `execute_task` takes from its arguments -/
structure TaskParameters where
  path : Text
  methodName : Text
  slaves : List Text
  cus : Text
  hasTarget : Text
  returnType : Text
  parameters : List (Parameter doubles Object)

/-- The storage and the serializer -/
structure PythonLibraries where
  /-- What `getByID` raises for an identifier -/
  getByID : Text → Option PythonException
  deserializeFromString : Text → Option Object

/-- A process is started with the configuration of the storage. -/
structure PythonProcess extends PythonLibraries Object where
  storageConf : Text

variable
  {doubles} {Object}
  (process : PythonProcess Object)

def PythonProcess.persistentStorage : Bool :=
  decide (process.storageConf ≠ "null".toList)

/-- The loop over the substrings -/
def substrings
    (args : List Text)
    (pos : Int) :
    Nat → Except PythonException (List Text)
  | 0 => .ok []
  | n + 1 => do
      let first ← item args pos
      let rest ← substrings args (pos + 1) n
      return first :: rest

variable
  (args : List Text)
  (pos : Int)

/-- The value of a parameter, and how far it is to the next parameter -/
def parameterValue
    (pType : Int)
    (pValue : Text) :
    Except PythonException (Value doubles Object × Int) :=
  if pType = DataType.file.ordinal then
    .ok (.text pValue, 4)
  else if pType = DataType.externalPsco.ordinal ∧ process.persistentStorage then
    match process.getByID pValue with
    | some exception => .error exception
    | none => .ok (.persistent pValue, 5)
  else if pType = DataType.string.ordinal then do
    let numSubstrings ← pythonInt pValue
    let parts ← substrings args (pos + 4) numSubstrings.toNat
    let aux := joined parts
    match process.deserializeFromString aux with
    | some object => return (.object object, 4 + numSubstrings)
    | none => return (.text aux, 4 + numSubstrings)
  else if pType = DataType.int.ordinal then do
    return (.integer (← pythonInt pValue), 4)
  else if pType = DataType.long.ordinal then do
    return (.integer (← pythonLong pValue), 4)
  else if pType = DataType.double.ordinal then
    match doubles.float pValue with
    | some d => .ok (.float d, 4)
    | none => .error .otherException
  else if pType = DataType.boolean.ordinal then
    .ok (.boolean (decide (pValue = "true".toList)), 4)
  else
    -- The invalid type is logged, then comes `exit(1)`.
    .error .systemExit

def parameter :
    Except PythonException (Parameter doubles Object × Int) := do
  let pType ← pythonInt (← item args pos)
  let pStream ← pythonInt (← item args (pos + 1))
  let pPrefix ← item args (pos + 2)
  let pValue ← item args (pos + 3)
  let (value, distance) ← parameterValue process args pos pType pValue
  return (⟨pType, pStream, pPrefix, value⟩, pos + distance)

def parameters
    (process : PythonProcess Object)
    (args : List Text) :
    Nat → Int → Except PythonException (List (Parameter doubles Object))
  | 0, _ => .ok []
  | n + 1, pos => do
      let (first, next) ← parameter process args pos
      let rest ← parameters process args n next
      return first :: rest

/-- The first part of `execute_task` -/
def taskParameters
    (params : List Text) :
    Except PythonException (TaskParameters doubles Object) := do
  let path ← item params 0
  let methodName ← item params 1
  let numSlaves ← pythonInt (← item params 2)
  let slaves ← substrings params 2 numSlaves.toNat
  let args := itemsFrom params (3 + numSlaves)
  let cus ← item args 0
  let args := args.drop 1
  let hasTarget ← item args 0
  let returnType ← item args 1
  let numParams ← pythonInt (← item args 2)
  let args := args.drop 3
  let parameters ← parameters process args numParams.toNat 0
  return ⟨path, methodName, slaves, cus, hasTarget, returnType, parameters⟩

/-- The processors of the last word, to which the process is bound -/
def bindCpus (bindedCpus : Text) : Except PythonException (List Int) :=
  if bindedCpus = "-".toList then
    .ok []
  else
    (bindedCpus.splitOn ',').mapM pythonInt

/-- The fields of a task command -/
structure TaskLine where
  jobId : Text
  jobOut : Text
  jobErr : Text
  /-- The words from the ninth on -/
  params : List Text

/-- What `process_task` takes from the words of a task command.  The last word
is cut off after the process is bound. -/
def taskLine (line : List Text) : Except PythonException TaskLine := do
  let _ ← bindCpus (← item line (-1))
  let line := line.dropLast
  return ⟨← item line 1, ← item line 2, ← item line 3, line.drop 9⟩

/-- The parameters of the task whose command is the first line of a text -/
def readCommand
    (text : Text) :
    Except PythonException (TaskParameters doubles Object) := do
  let line ← taskLine (words (text.takeWhile (· ≠ '\n')))
  taskParameters process line.params

end Reader

variable
  {items}
  {text}

theorem item_eq_ok_iff
    {k : Nat} :
    item items k = .ok text ↔ items[k]? = some text := by
  rw [item]
  simp only [Int.natCast_nonneg, if_true, Int.toNat_natCast]
  cases items[k]? with
  | none => simp
  | some found => simp

end DistributedRdf.Piper
