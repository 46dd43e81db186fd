import DistributedRdf.InterfaceFiles

namespace DistributedRdf.CBinding

open Words

/-!
# Core elements of interface files

The runtime reads the interface file once more, line by line, and registers a
core element with an implementation for each function that it finds.
-/

variable (line : Text)

/-- `matches(".*[)];")` -/
def closes : Bool :=
  [')', ';'].isSuffixOf line

/-- `matches(".*[(].*")` -/
def opens : Bool :=
  '(' ∈ line

/-- `trim`: control characters go with the blanks. -/
def trim : Text :=
  ((line.dropWhile (· ≤ ' ')).reverse.dropWhile (· ≤ ' ')).reverse

def startsWith (line start : Text) : Bool :=
  start.isPrefixOf line

def constraintsStart : Text := "@Constraints(".toList

def implementsStart : Text := "@Implements(".toList

/-! ## Cutting a declaration -/

inductive ParserException where
  | arrayIndexOutOfBounds
  | stringIndexOutOfBounds
  /-- The constraints cannot be loaded. -/
  | constraints
  deriving DecidableEq

structure CImplementation where
  className : Text
  methodName : Text
  deriving DecidableEq

/-- The text before the first separator of class and method, if there is one -/
def beforeSeparator : Text → Option Text
  | [] => none
  | char :: rest =>
      if char = ':' ∧ rest.head? = some ':' then some []
      else (beforeSeparator rest).map (char :: ·)

/-- The rest of `loadCImplementation`; the method keeps the class in its name. -/
def implementationOf (name : Text) : CImplementation :=
  match beforeSeparator name with
  | some (first :: rest) => ⟨first :: rest, name⟩
  | _ => ⟨"NULL".toList, name⟩

/-- `loadCImplementation` of an annotation: the name is in its parentheses. -/
def loadCImplementation : CImplementation :=
  implementationOf
    (if startsWith line "@Implements".toList then
      ((line.dropWhile (· ≠ '(')).drop 1).takeWhile (· ≠ ')')
    else
      line)

/-- `replaceAll("[(|)|,|;|\\n|\\t]", " ")` -/
def withoutPunctuation : Text :=
  line.map fun char =>
    if char ∈ ['(', '|', ')', ',', ';', '\n', '\t'] then ' ' else char

/-- `split("\\s+")`: blanks in front leave an empty text there. -/
def splitBlanks : List Text :=
  match line with
  | [] => [[]]
  | first :: _ =>
      if isBlank first then
        if words line = [] then [] else [] :: words line
      else
        words line

def toUpperCase (text : Text) : Text :=
  text.map Char.toUpper

/-- The type of a parameter from the words for its direction and its type -/
def paramTypeText (paramDirection paramType : Text) : Text :=
  if toUpperCase paramDirection = "INOUT".toList then "FILE_T".toList
  else if toUpperCase paramDirection = "OUT".toList then "FILE_T".toList
  else if toUpperCase paramType = "FILE".toList then "FILE_T".toList
  else if paramType = "boolean".toList then "BOOLEAN_T".toList
  else if paramType = "char".toList then "CHAR_T".toList
  else if paramType = "int".toList then "INT_T".toList
  else if paramType = "float".toList then "FLOAT_T".toList
  else if paramType = "double".toList then "DOUBLE_T".toList
  else if paramType = "byte".toList then "BYTE_T".toList
  else if paramType = "short".toList then "SHORT_T".toList
  else if paramType = "long".toList then "LONG_T".toList
  else if paramType = "string".toList then "STRING_T".toList
  else "FILE_T".toList

/-- The loop over the words behind the name: three for each parameter -/
def paramTypes : List Text → Except ParserException (List Text)
  | [] => .ok []
  | [_] => .error .arrayIndexOutOfBounds
  | [paramDirection, paramType] => .ok [paramTypeText paramDirection paramType]
  | paramDirection :: paramType :: _ :: rest => do
      let types ← paramTypes rest
      return paramTypeText paramDirection paramType :: types

/-- `deleteCharAt(lastIndexOf(","))` -/
def deleteLastComma (buffer : Text) : Except ParserException Text :=
  if ',' ∈ buffer then
    let behind := (buffer.reverse.takeWhile (· ≠ ',')).reverse
    .ok (buffer.take (buffer.length - behind.length - 1) ++ behind)
  else
    .error .stringIndexOutOfBounds

/-- A signature with one comma too many until it is deleted -/
def signatureText
    (implementation : CImplementation)
    (types : List Text) :
    Except ParserException Text := do
  let buffer ← deleteLastComma
    (implementation.methodName ++ '(' :: types.flatMap (· ++ [',']))
  return buffer ++ ')' :: implementation.className

/-- What `parseCFunction` registers -/
structure Registration where
  declaringClass : Text
  methodName : Text
  taskSignature : Text
  implementationSignature : Text
  deriving DecidableEq

/-- The first part of `parseCFunction` -/
def parseCFunction
    (implementation : Option CImplementation) :
    Except ParserException Registration := do
  let splits := splitBlanks (withoutPunctuation line)
  match splits with
  | _ :: name :: rest =>
      let task := loadCImplementation name
      let types ← paramTypes rest
      let taskSignature ← signatureText (implementation.getD task) types
      let implementationSignature ← signatureText task types
      return ⟨task.className, task.methodName, taskSignature,
        implementationSignature⟩
  | _ => .error .arrayIndexOutOfBounds

/-! ## The registry -/

section Registry

variable {Constraints : Type}

structure MethodImplementation (Constraints : Type) where
  declaringClass : Text
  methodName : Text
  coreId : Nat
  implId : Nat
  requirements : Constraints

/-- The lists of the registry, by the number of the core element -/
structure CoreManager (Constraints : Type) where
  coreCount : Nat
  implementations : Nat → List (MethodImplementation Constraints)
  signatures : Nat → List Text
  signatureToCoreId : Text → Option Nat

def CoreManager.empty : CoreManager Constraints where
  coreCount := 0
  implementations _ := []
  signatures _ := []
  signatureToCoreId _ := none

variable
  (manager : CoreManager Constraints)
  (signature : Text)

def CoreManager.addCoreElement :
    CoreManager Constraints where
  coreCount := manager.coreCount + 1
  implementations := Function.update manager.implementations manager.coreCount []
  signatures :=
    Function.update manager.signatures manager.coreCount [signature]
  signatureToCoreId :=
    Function.update manager.signatureToCoreId signature (some manager.coreCount)

/-- The number of the core element; there is a new one for a new signature. -/
def CoreManager.registerNewCoreElement :
    CoreManager Constraints × Nat :=
  match manager.signatureToCoreId signature with
  | some coreId => (manager, coreId)
  | none => (manager.addCoreElement signature, manager.coreCount)

def CoreManager.registerNewImplementation
    (implementation : MethodImplementation Constraints)
    (signature : Text) :
    CoreManager Constraints where
  coreCount := manager.coreCount
  implementations :=
    Function.update manager.implementations implementation.coreId
      (manager.implementations implementation.coreId ++ [implementation])
  signatures := Function.update manager.signatures implementation.coreId
    (manager.signatures implementation.coreId ++ [signature])
  signatureToCoreId := Function.update manager.signatureToCoreId signature
    (some implementation.coreId)

/-- The second part of `parseCFunction` -/
def CoreManager.register
    (currConstraints : Constraints)
    (registration : Registration) :
    CoreManager Constraints :=
  let registered :=
    manager.registerNewCoreElement registration.taskSignature
  registered.1.registerNewImplementation
    ⟨registration.declaringClass, registration.methodName, registered.2,
      (registered.1.implementations registered.2).length, currConstraints⟩
    registration.implementationSignature

/-! ## The lines -/

/-- The regions that the parser enters -/
inductive CodeRegion where
  | COMMENT | CONSTRAINT | FUNCTION | IMPLEMENTATION
  deriving DecidableEq

/-- How constraints are loaded, with the constraints of a method that has none -/
structure ConstraintLoader (Constraints : Type) where
  defaultCtr : Constraints
  loadCConstraints : Text → Option Constraints

structure ParserState (Constraints : Type) where
  isReadingCodeRegion : Bool
  structureString : Text
  type : Option CodeRegion
  implementation : Option CImplementation
  currConstraints : Constraints
  manager : CoreManager Constraints

variable (loader : ConstraintLoader Constraints)

def ParserState.start : ParserState Constraints where
  isReadingCodeRegion := false
  structureString := []
  type := none
  implementation := none
  currConstraints := loader.defaultCtr
  manager := .empty

variable (st : ParserState Constraints)

def ParserState.constraint
    (text : Text) :
    Except ParserException (ParserState Constraints) :=
  match loader.loadCConstraints text with
  | some constraints => .ok { st with currConstraints := constraints }
  | none => .error .constraints

def ParserState.function
    (text : Text) :
    Except ParserException (ParserState Constraints) := do
  let registration ← parseCFunction text st.implementation
  return { st with
    manager := st.manager.register st.currConstraints registration
    currConstraints := loader.defaultCtr
    implementation := none }

variable (type : CodeRegion)

/-- What has been read in a region is used when the region ends. -/
def ParserState.endRegion
    (text : Text) :
    Except ParserException (ParserState Constraints) :=
  match type with
  | .CONSTRAINT => st.constraint loader text
  | .IMPLEMENTATION =>
      .ok { st with implementation := some (loadCImplementation text) }
  | .FUNCTION => st.function loader text
  | .COMMENT => .ok st

/-- A line inside of a region -/
def ParserState.insideRegion
    (line : Text) :
    Except ParserException (ParserState Constraints) :=
  if startsWith line "//".toList then
    .ok st
  else if type = .COMMENT then
    if ['*', '/'].isSuffixOf line then
      .ok { st with isReadingCodeRegion := false }
    else
      .ok st
  else
    let appended := st.structureString ++ line
    if closes line then
      ParserState.endRegion loader
        { st with isReadingCodeRegion := false, structureString := appended }
        type appended
    else
      .ok { st with structureString := appended }

def ParserState.enter
    (structureString : Text) :
    ParserState Constraints :=
  { st with
    isReadingCodeRegion := true
    structureString := structureString
    type := some type }

/-- A line that no region is read for -/
def ParserState.outsideRegion
    (line : Text) :
    Except ParserException (ParserState Constraints) :=
  if startsWith line "//".toList || startsWith line "#".toList ||
      startsWith line "/*".toList && ['*', '/'].isSuffixOf line then
    .ok st
  else if startsWith line "/*".toList then
    .ok (st.enter .COMMENT st.structureString)
  else if startsWith line constraintsStart then
    if closes line then st.constraint loader line
    else .ok (st.enter .CONSTRAINT line)
  else if startsWith line implementsStart then
    if closes line then
      .ok { st with implementation := some (loadCImplementation line) }
    else
      .ok (st.enter .IMPLEMENTATION line)
  else if opens line then
    if closes line then st.function loader line
    else .ok (st.enter .FUNCTION line)
  else
    .ok st

def ParserState.readLine
    (line : Text) :
    Except ParserException (ParserState Constraints) :=
  match st.isReadingCodeRegion, st.type with
  | true, some type => st.insideRegion loader type (trim line)
  | _, _ => st.outsideRegion loader (trim line)

variable (file : List Text)

/-- `parseIDLMethods` -/
def parseIDLMethods :
    Except ParserException (CoreManager Constraints) := do
  let st ← file.foldlM (ParserState.readLine loader) (.start loader)
  return st.manager

/-! ## Finding the core elements -/

/-- A declaration with what an annotation before it says that it implements -/
structure InterfaceEntry where
  implemented : Option CImplementation
  declaration : Declaration
  deriving DecidableEq

/-- The core element of a declaration is found by a call of its stub.  A
declaration that implements another function is found as a version of it. -/
structure IsFound
    (entry : InterfaceEntry) :
    Prop where
  found : ∃ signature coreId,
    callSignature entry.declaration.function = some signature ∧
    manager.signatureToCoreId signature = some coreId ∧
    (∀ other, ((manager.implementations other).filter fun implementation =>
      implementation.methodName = entry.declaration.name).length =
        if other = coreId then 1 else 0) ∧
    (entry.implemented = none →
      (manager.signatures coreId).head? = some signature)

/-- Each declaration of the file is registered once and found by its calls. -/
def FoundByCalls
    (entries : List InterfaceEntry) :
    Prop :=
  ∃ manager, parseIDLMethods loader file = .ok manager ∧
    (∀ coreId implementation,
      implementation ∈ manager.implementations coreId →
        ∃ entry ∈ entries,
          implementation.methodName = entry.declaration.name) ∧
    ∀ entry, entry ∈ entries → IsFound manager entry

end Registry

end DistributedRdf.CBinding
