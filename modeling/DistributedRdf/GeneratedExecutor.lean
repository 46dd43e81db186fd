import DistributedRdf.TaskCommand

namespace DistributedRdf.CBinding

open Words
open Piper (DataType Stream booleanText threadAffinity)

/-!
# Generated executors

For each function of an interface the generator of the C binding writes a stub,
which hands the parameters of a call to the runtime, and a case of the executor,
which takes them from its arguments, calls the function and writes the results
to files.  The arguments come from the executor thread of the worker.
-/

/-! ## Interfaces -/

/-- The types of the runtime, and behind them those of the binding alone -/
inductive Datatype where
  | boolean | char | byte | short | int | long | float | double | string | file
  | object | psco | externalPsco
  | wchar | wstring | longlong | void | any | null
  deriving DecidableEq

/-- The types of arguments for which the generator writes code -/
def Datatype.isSupported (type : Datatype) : Bool :=
  type ∈ [.char, .wchar, .boolean, .short, .long, .longlong, .int, .float,
    .double, .object, .string, .wstring, .file]

inductive Direction where
  | inDir | outDir | inoutDir
  deriving DecidableEq

structure Argument where
  name : Text
  type : Datatype
  dir : Direction
  deriving DecidableEq

structure Function where
  name : Text
  methodname : Text
  classname : Option Text
  accessStatic : Bool
  returnType : Datatype
  arguments : List Argument
  deriving DecidableEq

/-- A function for which stub and case can be generated -/
structure SupportedFunction extends Function where
  /-- `add_argument` refuses names that exist. -/
  distinct : (arguments.map Argument.name).Nodup
  supported : ∀ arg, arg ∈ arguments → arg.type.isSupported = true

variable (func : Function)

/-- The function is called on an object. -/
def Function.isMethod : Bool :=
  func.classname.isSome && !func.accessStatic

/-- A parameter of the task: two of them are implicit. -/
inductive Parameter where
  | target
  | result
  | argument (arg : Argument)
  deriving DecidableEq

/-- The parameters in the order in which both generated texts treat them -/
def Function.parameters : List Parameter :=
  (if func.isMethod then [.target] else []) ++
    (if func.returnType ≠ .void then [.result] else []) ++
      func.arguments.map .argument

/-- A variable of the generated texts -/
inductive Variable where
  | this
  | returnObject
  | named (name : Text)
  deriving DecidableEq

/-! ## Values -/

/-- Numbers with fractions as Java writes them and as C reads them -/
structure Fractions where
  Float : Type
  Double : Type
  floatText : Float → Text
  doubleText : Double → Text
  strtof : Text → Float
  strtod : Text → Double
  /-- The number in the first bytes of a `long long` -/
  firstBytes : Int64 → Float

/-- What was written is read as it was. -/
structure Fractions.Agree (fractions : Fractions) : Prop where
  strtof_floatText : ∀ f, fractions.strtof (fractions.floatText f) = f
  strtod_doubleText : ∀ d, fractions.strtod (fractions.doubleText d) = d

section Values

variable (fractions : Fractions) (Object : Type)

/-- The values of variables; a `boolean` is an `int`. -/
inductive Value where
  | char (value : UInt8)
  | short (value : Int16)
  | int (value : Int32)
  | long (value : Int64)
  | longlong (value : Int64)
  | float (value : fractions.Float)
  | double (value : fractions.Double)
  | text (value : Text)
  | object (value : Object)

/-- A parameter of the runtime with what its value is written as -/
inductive ParamValue where
  | boolean (value : Bool)
  | char (value : Char)
  | short (value : Int16)
  | int (value : Int32)
  | long (value : Int64)
  | float (value : fractions.Float)
  | double (value : fractions.Double)
  | string (value : Text)
  | file (name : Text)

/-- Archives of values; loading fails where an archive holds something else. -/
structure Archives where
  Content : Type
  saveValue : Value fractions Object → Content
  savePointer : Value fractions Object → Content
  load : Datatype → Content → Option (Value fractions Object)

variable {fractions Object}

inductive Value.HasType : Value fractions Object → Datatype → Prop where
  | boolean (value : Int32) : HasType (.int value) .boolean
  | char (value : UInt8) : HasType (.char value) .char
  | wchar (value : UInt8) : HasType (.char value) .wchar
  | short (value : Int16) : HasType (.short value) .short
  | int (value : Int32) : HasType (.int value) .int
  | long (value : Int64) : HasType (.long value) .long
  | longlong (value : Int64) : HasType (.longlong value) .longlong
  | float (value : fractions.Float) : HasType (.float value) .float
  | double (value : fractions.Double) : HasType (.double value) .double
  | string (value : Text) : HasType (.text value) .string
  | wstring (value : Text) : HasType (.text value) .wstring
  | file (value : Text) : HasType (.text value) .file
  | object (value : Object) : HasType (.object value) .object

/-! ## The stub -/

/-- What an entry of `arrayObjs` points to -/
inductive Passed where
  | value
  | filename
  deriving DecidableEq

/-- How the stub fills the file of a parameter that it registers anew -/
inductive Saving where
  | byValue
  | byPointer
  deriving DecidableEq

/-- Three entries of `arrayObjs` -/
structure Marshalled where
  var : Variable
  passed : Passed
  type : Datatype
  dir : Direction
  saving : Option Saving
  deriving DecidableEq

variable (arg : Argument)

def marshalArgument : Marshalled :=
  let var := Variable.named arg.name
  if arg.dir = .outDir ∨ arg.dir = .inoutDir then
    if arg.type = .file then
      ⟨var, .value, arg.type, arg.dir, none⟩
    else
      ⟨var, .filename, .file, .inoutDir, some .byValue⟩
  else if arg.type = .object then
    -- the prototype declares a pointer, which is saved as it is
    ⟨var, .filename, .file, arg.dir, some .byPointer⟩
  else
    ⟨var, .value, arg.type, arg.dir, none⟩

def Parameter.marshalled : Parameter → Marshalled
  | .target => ⟨.this, .filename, .file, .inoutDir, some .byValue⟩
  | .result => ⟨.returnObject, .filename, .file, .inoutDir, some .byValue⟩
  | .argument arg => marshalArgument arg

variable (func : Function)

def generateParameterMarshalling : List Marshalled :=
  func.parameters.map Parameter.marshalled

/-! ## The runtime -/

/-- `(jchar)` of a `char`, which has a sign -/
def jchar (value : UInt8) : Char :=
  Char.ofNat value.toInt8.toInt16.toUInt16.toNat

/-- `(jboolean)` of an `int` keeps the last byte. -/
def jboolean (value : Int32) : Bool :=
  value.toInt % 256 ≠ 0

/-- The value and the type of a parameter of the runtime; there is none for wide
strings. -/
def processParam :
    Datatype → Value fractions Object → Option (ParamValue fractions)
  | .char, .char value => some (.char (jchar value))
  | .wchar, .char value => some (.char (jchar value))
  | .boolean, .int value => some (.boolean (jboolean value))
  | .short, .short value => some (.short value)
  | .int, .int value => some (.int value)
  | .long, .long value => some (.long value)
  | .longlong, .longlong value => some (.float (fractions.firstBytes value))
  | .float, .float value => some (.float value)
  | .double, .double value => some (.double value)
  | .file, .text name => some (.file name)
  | .string, .text value => some (.string value)
  | _, _ => none

/-- The actual parameters of a call -/
structure Invocation (fractions : Fractions) (Object : Type)
    (func : SupportedFunction) where
  value : Variable → Value fractions Object
  typed : ∀ arg, arg ∈ func.arguments →
    (value (.named arg.name)).HasType arg.type
  /-- The names that `GS_register` gives -/
  filename : Variable → Text
  /-- The names of the files on the worker -/
  originalName : Variable → Text

structure NIOParam (fractions : Fractions) where
  stream : Stream
  pPrefix : Text
  value : ParamValue fractions

def ParamValue.type : ParamValue fractions → DataType
  | .boolean _ => .boolean
  | .char _ => .char
  | .short _ => .short
  | .int _ => .int
  | .long _ => .long
  | .float _ => .float
  | .double _ => .double
  | .string _ => .string
  | .file _ => .file

/-- The job has the original names of files. -/
def ParamValue.withName
    (originalName : Text) :
    ParamValue fractions → ParamValue fractions
  | .file _ => .file originalName
  | value => value

/-- Without a type the runtime does not take the parameter. -/
def Invocation.addParam
    {func : SupportedFunction}
    (invocation : Invocation fractions Object func)
    (marshalled : Marshalled) :
    Option (NIOParam fractions) := do
  let pointed :=
    match marshalled.passed with
    | .value => invocation.value marshalled.var
    | .filename => .text (invocation.filename marshalled.var)
  let value ← processParam marshalled.type pointed
  return ⟨.unspecified, "null".toList,
    value.withName (invocation.originalName marshalled.var)⟩

def Invocation.params
    {func : SupportedFunction}
    (invocation : Invocation fractions Object func) :
    Option (List (NIOParam fractions)) :=
  (generateParameterMarshalling func.toFunction).mapM invocation.addParam

/-! ## The worker -/

/-- What the arguments say about a task besides its parameters -/
structure TaskHeader where
  executable : Text
  tracingActivated : Bool
  taskId : Int
  workerDebug : Bool
  storageConf : Text
  declaringClass : Text
  alternativeMethodName : Text
  slaveWorkersNodeNames : List Text
  totalCPUComputingUnits : Int
  assignedCoreUnits : List Int

def ParamValue.arguments : ParamValue fractions → List Text
  | .boolean value => [booleanText value]
  | .char value => [[value]]
  | .short value => [decimal value.toInt]
  | .int value => [decimal value.toInt]
  | .long value => [decimal value.toInt]
  | .float value => [fractions.floatText value]
  | .double value => [fractions.doubleText value]
  | .string value =>
      let vals := splitAtBlanks value
      decimal vals.length :: vals
  | .file originalName => [originalName]

def NIOParam.arguments (np : NIOParam fractions) : List Text :=
  decimal np.value.type.ordinal :: decimal np.stream.ordinal :: np.pPrefix ::
    np.value.arguments

variable (header : TaskHeader)

/-- The arguments before those of the parameters.  The stub passes no target,
and no parameter of it has the type of a return value. -/
def TaskHeader.arguments (numParams : Nat) : List Text :=
  [booleanText header.tracingActivated, decimal header.taskId,
    booleanText header.workerDebug, header.storageConf, "METHOD".toList,
    header.declaringClass, header.alternativeMethodName,
    decimal header.slaveWorkersNodeNames.length] ++
  (header.slaveWorkersNodeNames ++
    [decimal header.totalCPUComputingUnits, booleanText false, "null".toList,
      decimal numParams])

variable (params : List (NIOParam fractions))

def addArguments :
    List Text :=
  header.arguments params.length ++ params.flatMap NIOParam.arguments

/-- The arguments of the process -/
def argumentVector :
    List Text :=
  header.executable ::
    (addArguments header params ++ [threadAffinity header.assignedCoreUnits])

/-! ## The executor -/

/-- How the value of a variable is taken from an argument -/
inductive Conversion where
  | firstChar
  /-- `argv[arg_offset]? 1 : 0` -/
  | isGiven
  | atoiShort | atoi | atol | atoll | strtof | strtod | strdup
  deriving DecidableEq

/-- The forms of the call -/
inductive CallForm where
  /-- `this_C.m(...)` -/
  | method
  /-- `return_object = f(...)` -/
  | assigned
  | plain
  deriving DecidableEq

/-- The statements of a case; declarations and `free` are left out. -/
inductive Statement where
  /-- `arg_offset += n` -/
  | advance (n : Nat)
  | assign (var : Variable) (conversion : Conversion)
  /-- The loops that join the words of a string -/
  | joinWords (var : Variable)
  | takeFilename (var : Variable)
  /-- Reads a variable from its file. -/
  | load (var : Variable) (type : Datatype)
  | call (form : CallForm) (arguments : List Argument)
  /-- Writes a variable to its file. -/
  | save (var : Variable)
  deriving DecidableEq

variable
  (var : Variable)
  (conversion : Conversion)

def readConversion :
    List Statement :=
  [.advance 3, .assign var conversion, .advance 1]

def readFile (type : Datatype) : List Statement :=
  [.advance 3, .takeFilename var, .load var type, .advance 1]

/-- The statements that read an argument -/
def readArgument : List Statement :=
  let var := Variable.named arg.name
  match arg.dir with
  | .inDir =>
      match arg.type with
      | .char => readConversion var .firstChar
      | .wchar => readConversion var .firstChar
      | .boolean => readConversion var .isGiven
      | .short => readConversion var .atoiShort
      | .long => readConversion var .atol
      | .longlong => readConversion var .atoll
      | .int => readConversion var .atoi
      | .float => readConversion var .strtof
      | .double => readConversion var .strtod
      | .file => readConversion var .strdup
      -- the offset stays at the last word
      | .string => [.advance 3, .joinWords var]
      | .wstring => [.advance 3, .joinWords var]
      | .object => readFile var .object
      | _ => []
  | _ =>
      match arg.type with
      | .file => readConversion var .strdup
      | type => if type.isSupported then readFile var type else []

/-- The target and the result are taken from the second of their fields. -/
def readImplicit : List Statement :=
  [.advance 1, .takeFilename var, .advance 1, .load var .object]

def Parameter.reads : Parameter → List Statement
  | .target => readImplicit .this
  | .result => readImplicit .returnObject
  | .argument arg => readArgument arg

def Argument.isWritten : Bool :=
  arg.dir ≠ .inDir && arg.type ≠ .file

def Parameter.saves : Parameter → List Statement
  | .target => [.save .this]
  | .result => [.save .returnObject]
  | .argument arg => if arg.isWritten then [.save (.named arg.name)] else []

def Function.callForm : CallForm :=
  if func.isMethod then .method
  else if func.returnType ≠ .void then .assigned
  else .plain

def generateWorkerCase : List Statement :=
  func.parameters.flatMap Parameter.reads ++
    .call func.callForm func.arguments ::
      func.parameters.flatMap Parameter.saves

/-! ## Executions -/

/-- The arguments of a call of the function -/
structure Call (fractions : Fractions) (Object : Type) where
  target : Option (Value fractions Object)
  arguments : List (Value fractions Object)

/-- What a call leaves behind -/
structure Effects (fractions : Fractions) (Object : Type) where
  target : Value fractions Object
  returned : Value fractions Object
  argument : Text → Value fractions Object

/-- What surrounds the executor -/
structure Surroundings (fractions : Fractions) (Object : Type) where
  archives : Archives fractions Object
  /-- The files of the worker -/
  files : Text → Option archives.Content
  /-- The text that fresh memory holds -/
  fresh : Text
  /-- The function that the user has written -/
  body : Call fractions Object → Effects fractions Object

structure ExecutorState (fractions : Fractions) (Object : Type) where
  argOffset : Nat
  store : Variable → Option (Value fractions Object)
  filenames : Variable → Option Text
  called : List (Call fractions Object)
  /-- The files written, in this order -/
  written : List (Text × Value fractions Object)

def ExecutorState.initial (argOffset : Nat) :
    ExecutorState fractions Object where
  argOffset := argOffset
  store _ := none
  filenames _ := none
  called := []
  written := []

variable (text : Text)

/-- The number at the start of a text -/
def leadingInt : Int :=
  let digits : Text → Int := fun rest =>
    Nat.ofDigitChars 10 (rest.takeWhile Char.isDigit) 0
  match text.dropWhile isBlank with
  | '-' :: rest => - digits rest
  | '+' :: rest => digits rest
  | rest => digits rest

/-- `argv[i][0]`; texts are encoded in bytes. -/
def firstByte : UInt8 :=
  (text.flatMap String.utf8EncodeChar).headD 0

def Conversion.apply :
    Value fractions Object :=
  match conversion with
  | .firstChar => .char (firstByte text)
  | .isGiven => .int 1
  | .atoiShort => .short (Int16.ofInt (leadingInt text))
  | .atoi => .int (Int32.ofInt (leadingInt text))
  | .atol => .long (Int64.ofInt (leadingInt text))
  | .atoll => .longlong (Int64.ofInt (leadingInt text))
  | .strtof => .float (fractions.strtof text)
  | .strtod => .double (fractions.strtod text)
  | .strdup => .text text

/-- Appends the next words, with blanks between them. -/
def appendWords (argv : List Text) :
    (left : Nat) → (isFirst : Bool) → Nat → Text → Option (Nat × Text)
  | 0, _, argOffset, text => some (argOffset, text)
  | left + 1, isFirst, argOffset, text => do
      let word ← argv[argOffset + 1]?
      appendWords argv left false (argOffset + 1)
        (text ++ if isFirst then word else ' ' :: word)

/-- The variables after a call -/
def storeAfter
    (form : CallForm)
    (arguments : List Argument)
    (effects : Effects fractions Object)
    (store : Variable → Option (Value fractions Object)) :
    Variable → Option (Value fractions Object)
  | .this => if form = .method then some effects.target else store .this
  | .returnObject =>
      if form = .assigned then some effects.returned
      else store .returnObject
  | .named name =>
      if arguments.any (fun arg => arg.name = name && arg.isWritten) then
        some (effects.argument name)
      else
        store (.named name)

variable
  (surroundings : Surroundings fractions Object)
  (argv : List Text)

/-- Runs a statement, if its behaviour is defined. -/
def Statement.exec
    (st : ExecutorState fractions Object) :
    Statement → Option (ExecutorState fractions Object)
  | .advance n => some { st with argOffset := st.argOffset + n }
  | .assign var conversion => do
      let text ← argv[st.argOffset]?
      return { st with
        store := Function.update st.store var
          (some (conversion.apply text)) }
  | .joinWords var => do
      let text ← argv[st.argOffset]?
      let appended ← appendWords argv (leadingInt text).toNat true
        st.argOffset surroundings.fresh
      return { st with
        argOffset := appended.1
        store := Function.update st.store var (some (.text appended.2)) }
  | .takeFilename var => do
      let filename ← argv[st.argOffset]?
      return { st with
        filenames := Function.update st.filenames var (some filename) }
  | .load var type => do
      let filename ← st.filenames var
      let content ← surroundings.files filename
      let value ← surroundings.archives.load type content
      return { st with
        store := Function.update st.store var (some value) }
  | .call form arguments => do
      let values ← arguments.mapM fun arg => st.store (.named arg.name)
      let call : Call fractions Object :=
        ⟨if form = .method then st.store .this else none, values⟩
      return { st with
        store := storeAfter form arguments (surroundings.body call)
          st.store
        called := st.called ++ [call] }
  | .save var => do
      let filename ← st.filenames var
      let value ← st.store var
      return { st with written := st.written ++ [(filename, value)] }

def run
    (statements : List Statement)
    (st : ExecutorState fractions Object) :
    Option (ExecutorState fractions Object) :=
  statements.foldlM (fun st statement => statement.exec surroundings argv st) st

/-- `NUM_BASE_ARGS` -/
def numBaseArgs : Nat := 9

/-- The offset with which a case starts -/
def initialOffset : Option Nat := do
  let numSlaves ← argv[8]?
  return numBaseArgs + (leadingInt numSlaves).toNat + 4

/-! ## Agreement -/

/-- The type of the runtime whose values a conversion reads; it has none for
`long long` but `LONG_T`. -/
def Conversion.type : Conversion → DataType
  | .firstChar => .char
  | .isGiven => .boolean
  | .atoiShort => .short
  | .atoi => .int
  | .atol => .long
  | .atoll => .long
  | .strtof => .float
  | .strtod => .double
  | .strdup => .file

def Statement.readType : Statement → Option DataType
  | .assign _ conversion => some conversion.type
  | .joinWords _ => some .string
  | .takeFilename _ => some .file
  | _ => none

/-- The type as which a parameter is read -/
def Parameter.readType (parameter : Parameter) : Option DataType :=
  parameter.reads.findSome? Statement.readType

section Agreement

variable
  {func : SupportedFunction}
  (invocation : Invocation fractions Object func)

/-- The value that the function is to get: for files it is their name. -/
def Invocation.received
    (arg : Argument) :
    Value fractions Object :=
  if arg.type = .file then .text (invocation.originalName (.named arg.name))
  else invocation.value (.named arg.name)

/-- The parameter is in its variables. -/
def Parameter.IsRead
    (st : ExecutorState fractions Object) :
    Parameter → Prop
  | .target =>
      st.store .this = some (invocation.value .this) ∧
        st.filenames .this = some (invocation.originalName .this)
  | .result =>
      st.filenames .returnObject = some (invocation.originalName .returnObject)
  | .argument arg => st.store (.named arg.name) = some (invocation.received arg)

/-- The call that the invocation stands for -/
def Invocation.call :
    Call fractions Object where
  target := if func.isMethod then some (invocation.value .this) else none
  arguments := func.arguments.map invocation.received

/-- The file of a parameter with what the function left for it -/
def Invocation.outcome
    (effects : Effects fractions Object) :
    Parameter → Option (Text × Value fractions Object)
  | .target => some (invocation.originalName .this, effects.target)
  | .result => some (invocation.originalName .returnObject, effects.returned)
  | .argument arg =>
      if arg.isWritten then
        some (invocation.originalName (.named arg.name),
          effects.argument arg.name)
      else
        none

/-- The number of arguments for the first parameters -/
def fieldCount (k : Nat) : Nat :=
  ((params.take k).flatMap NIOParam.arguments).length

variable (surroundings : Surroundings fractions Object)

/-- The parameters are read one after the other, each with its type and value
and past all of its fields. -/
def ReadsAll
    (invocation : Invocation fractions Object func)
    (argv : List Text)
    (params : List (NIOParam fractions))
    (offset : Nat) :
    Prop :=
  ∀ k parameter, func.parameters[k]? = some parameter →
    ∃ st np, params[k]? = some np ∧
      run surroundings argv ((func.parameters.take (k + 1)).flatMap
        Parameter.reads) (.initial offset) = some st ∧
      st.argOffset = offset + fieldCount params (k + 1) ∧
      parameter.IsRead invocation st ∧
      parameter.readType = some np.value.type

/-- The whole case calls the function once and writes what it left. -/
def Completes
    (invocation : Invocation fractions Object func)
    (argv : List Text)
    (offset : Nat) :
    Prop :=
  ∃ st,
    run surroundings argv (generateWorkerCase func.toFunction)
        (.initial offset) = some st ∧
    st.called = [invocation.call] ∧
    st.written = func.parameters.filterMap
      (invocation.outcome (surroundings.body invocation.call))

/-- The stub, the runtime and the executor agree about an invocation. -/
def ExecutorAgrees
    (header : TaskHeader)
    (invocation : Invocation fractions Object func) :
    Prop :=
  ∃ params offset, invocation.params = some params ∧
    initialOffset (argumentVector header params) = some offset ∧
    offset = 1 + (header.arguments params.length).length ∧
    ReadsAll surroundings invocation (argumentVector header params) params
      offset ∧
    Completes surroundings invocation (argumentVector header params) offset

end Agreement

end Values

end DistributedRdf.CBinding
