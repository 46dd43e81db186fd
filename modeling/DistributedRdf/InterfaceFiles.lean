import DistributedRdf.GeneratedExecutor

namespace DistributedRdf.CBinding

open Words
open Piper (DataType)

/-!
# Interface files

The generator of the C binding reads an interface file with a scanner and a
grammar.  From each declaration it makes a stub, and a call of the stub has the
signature by which the runtime looks for the core element.
-/

/-! ## The scanner -/

inductive Token where
  | word (text : Text)
  | symbol (char : Char)
  deriving DecidableEq

/-- What the scanner is in the middle of -/
inductive LexMode where
  | initial
  | word (text : Text)
  /-- A comment up to the end of the line -/
  | line
  /-- A slash has been read. -/
  | slash
  | comment
  /-- A star has been read in a comment. -/
  | star
  | error
  deriving DecidableEq

structure LexState where
  mode : LexMode
  tokens : List Token
  deriving DecidableEq

def isIdentifierStart (char : Char) : Bool :=
  char.isAlpha

def isIdentifierChar (char : Char) : Bool :=
  char.isAlphanum || char = '_' || char = ':'

def isPunctuation (char : Char) : Bool :=
  char ∈ ['{', '}', '(', ')', ',', ';']

variable (st : LexState)

/-- A character outside of words and comments.  The lists of constraints that
the grammar allows behind a declaration are left out, and `=` and quotes with
them. -/
def LexState.readInitial (char : Char) : LexState :=
  if char = ' ' ∨ char = '\t' ∨ char = '\n' then
    { st with mode := .initial }
  else if isPunctuation char then
    ⟨.initial, st.tokens ++ [.symbol char]⟩
  else if char = '#' ∨ char = '@' then
    { st with mode := .line }
  else if char = '/' then
    { st with mode := .slash }
  else if isIdentifierStart char then
    { st with mode := .word [char] }
  else
    { st with mode := .error }

def LexState.readChar (char : Char) : LexState :=
  match st.mode with
  | .initial => st.readInitial char
  | .word text =>
      if isIdentifierChar char then
        { st with mode := .word (text ++ [char]) }
      else
        LexState.readInitial ⟨.initial, st.tokens ++ [.word text]⟩ char
  | .line => if char = '\n' then { st with mode := .initial } else st
  | .slash =>
      if char = '/' then { st with mode := .line }
      else if char = '*' then { st with mode := .comment }
      else { st with mode := .error }
  | .comment => if char = '*' then { st with mode := .star } else st
  | .star =>
      if char = '/' then { st with mode := .initial }
      else if char = '*' then st
      else { st with mode := .comment }
  | .error => st

variable (lines : List Text)

/-- Reads whole lines. -/
def LexState.readLines : LexState :=
  (lines.flatMap (· ++ ['\n'])).foldl LexState.readChar st

/-- The scanner yields exactly these tokens for the lines. -/
def Scans (tokens : List Token) : Prop :=
  LexState.readLines ⟨.initial, []⟩ lines = ⟨.initial, tokens⟩
  deriving Decidable

/-! ## Declarations -/

/-- The types that the grammar knows -/
inductive TypeWord where
  | short | long | longlong | int | float | double
  | char | wchar | boolean | string | wstring | any | void | file
  deriving DecidableEq

def TypeWord.text : TypeWord → Text
  | .short => "short".toList
  | .long => "long".toList
  | .longlong => "longlong".toList
  | .int => "int".toList
  | .float => "float".toList
  | .double => "double".toList
  | .char => "char".toList
  | .wchar => "wchar".toList
  | .boolean => "boolean".toList
  | .string => "string".toList
  | .wstring => "wstring".toList
  | .any => "any".toList
  | .void => "void".toList
  | .file => "File".toList

def TypeWord.datatype : TypeWord → Datatype
  | .short => .short
  | .long => .long
  | .longlong => .longlong
  | .int => .int
  | .float => .float
  | .double => .double
  | .char => .char
  | .wchar => .wchar
  | .boolean => .boolean
  | .string => .string
  | .wstring => .wstring
  | .any => .any
  | .void => .void
  | .file => .file

/-- `numeric_type` -/
def TypeWord.isNumeric (type : TypeWord) : Bool :=
  type ∈ [.short, .long, .longlong, .int, .float, .double]

def TypeWord.all : List TypeWord :=
  [.short, .long, .longlong, .int, .float, .double, .char, .wchar, .boolean,
    .string, .wstring, .any, .void, .file]

/-- The words that are no identifiers -/
def keywords : List Text :=
  ["interface".toList, "in".toList, "out".toList, "inout".toList,
    "unsigned".toList, "static".toList] ++ TypeWord.all.map TypeWord.text

/-- `TOK_IDENTIFIER` -/
structure IsIdentifier (text : Text) : Prop where
  start : text.head?.any isIdentifierStart = true
  chars : ∀ char, char ∈ text → isIdentifierChar char = true
  noKeyword : text ∉ keywords

theorem isIdentifier_iff {text : Text} :
    IsIdentifier text ↔
      text.head?.any isIdentifierStart = true ∧
        (∀ char, char ∈ text → isIdentifierChar char = true) ∧
        text ∉ keywords :=
  ⟨fun identifier =>
      ⟨identifier.start, identifier.chars, identifier.noKeyword⟩,
    fun identifier => ⟨identifier.1, identifier.2.1, identifier.2.2⟩⟩

instance (text : Text) : Decidable (IsIdentifier text) :=
  decidable_of_iff
    (text.head?.any isIdentifierStart = true ∧
      text.all isIdentifierChar = true ∧
      keywords.all (fun keyword => decide (text ≠ keyword)) = true)
    (by simp [isIdentifier_iff, List.forall_mem_ne])

/-- A type in a declaration -/
inductive DeclaredType where
  | basic (type : TypeWord)
  | unsigned (type : TypeWord)
  | named (classname : Text)
  deriving DecidableEq

def DeclaredType.words : DeclaredType → List Text
  | .basic type => [type.text]
  | .unsigned type => ["unsigned".toList, type.text]
  | .named classname => [classname]

def DeclaredType.datatype : DeclaredType → Datatype
  | .basic type => type.datatype
  | .unsigned type => type.datatype
  | .named _ => .object

/-- The grammar has the type. -/
def DeclaredType.IsDerived : DeclaredType → Prop
  | .basic _ => True
  | .unsigned type => type.isNumeric = true
  | .named classname => IsIdentifier classname

instance (type : DeclaredType) : Decidable type.IsDerived :=
  match type with
  | .basic _ => inferInstanceAs (Decidable True)
  | .unsigned type => inferInstanceAs (Decidable (type.isNumeric = true))
  | .named classname => inferInstanceAs (Decidable (IsIdentifier classname))

def Direction.text : Direction → Text
  | .inDir => "in".toList
  | .outDir => "out".toList
  | .inoutDir => "inout".toList

structure DeclaredArgument where
  dir : Direction
  type : DeclaredType
  name : Text
  deriving DecidableEq

structure Declaration where
  isStatic : Bool
  returnType : DeclaredType
  name : Text
  arguments : List DeclaredArgument
  deriving DecidableEq

/-- The words of an argument -/
def DeclaredArgument.words (arg : DeclaredArgument) : List Text :=
  arg.dir.text :: (arg.type.words ++ [arg.name])

variable (decl : Declaration)

/-- The tokens that the grammar derives for a declaration -/
def Declaration.tokens : List Token :=
  (if decl.isStatic then [.word "static".toList] else []) ++
    decl.returnType.words.map .word ++ [.word decl.name, .symbol '('] ++
    [Token.symbol ','].intercalate
      (decl.arguments.map fun arg => arg.words.map .word) ++
    [.symbol ')', .symbol ';']

/-- The grammar derives the declaration.  Only functions that return objects
can be static, and the argument names differ. -/
structure Declaration.IsDerived (decl : Declaration) : Prop where
  static : decl.isStatic = true → ∃ classname, decl.returnType = .named classname
  returnType : decl.returnType.IsDerived
  name : IsIdentifier decl.name
  types : ∀ arg, arg ∈ decl.arguments → arg.type.IsDerived
  names : ∀ arg, arg ∈ decl.arguments → IsIdentifier arg.name
  noVoid : ∀ arg, arg ∈ decl.arguments → arg.type.datatype ≠ .void
  distinct : (decl.arguments.map DeclaredArgument.name).Nodup

/-- The grammar accepts a file with the declarations, which have different
names. -/
structure Accepts (file : List Text) (decls : List Declaration) : Prop where
  scans : ∃ name, IsIdentifier name ∧ Scans file
    ([.word "interface".toList, .word name, .symbol '{'] ++
      decls.flatMap Declaration.tokens ++ [.symbol '}', .symbol ';'])
  derived : ∀ decl, decl ∈ decls → decl.IsDerived
  distinct : (decls.map Declaration.name).Nodup

/-! ## Functions and their calls -/

/-- The name behind the last colon, and the text up to two characters before -/
def Declaration.methodname : Text :=
  (decl.name.reverse.takeWhile (· ≠ ':')).reverse

def Declaration.classname : Option Text :=
  if ':' ∈ decl.name then
    some ((decl.name.reverse.dropWhile (· ≠ ':')).drop 2).reverse
  else
    none

/-- `begin_function`, `add_static`, `add_return_type` and `add_argument` -/
def Declaration.function : Function where
  name := decl.name
  methodname := decl.methodname
  classname := decl.classname
  accessStatic := decl.isStatic
  returnType := decl.returnType.datatype
  arguments := decl.arguments.map fun arg =>
    ⟨arg.name, arg.type.datatype, arg.dir⟩

/-- The type that `process_param` gives to a parameter -/
def Datatype.runtimeType : Datatype → Option DataType
  | .char => some .char
  | .wchar => some .char
  | .boolean => some .boolean
  | .short => some .short
  | .int => some .int
  | .long => some .long
  | .longlong => some .float
  | .float => some .float
  | .double => some .double
  | .file => some .file
  | .string => some .string
  | _ => none

/-- The stub marshals only arguments of supported types. -/
def Parameter.runtimeType (parameter : Parameter) : Option DataType :=
  match parameter with
  | .argument arg =>
      if arg.type.isSupported then (marshalArgument arg).type.runtimeType
      else none
  | parameter => parameter.marshalled.type.runtimeType

/-- The name of a type of the runtime -/
def typeText : DataType → Text
  | .boolean => "BOOLEAN_T".toList
  | .char => "CHAR_T".toList
  | .byte => "BYTE_T".toList
  | .short => "SHORT_T".toList
  | .int => "INT_T".toList
  | .long => "LONG_T".toList
  | .float => "FLOAT_T".toList
  | .double => "DOUBLE_T".toList
  | .string => "STRING_T".toList
  | .file => "FILE_T".toList
  | .object => "OBJECT_T".toList
  | .psco => "PSCO_T".toList
  | .externalPsco => "EXTERNAL_PSCO_T".toList

/-- `AbstractMethodImplementation.getSignature` for the language C -/
def getSignature
    (declaringClass methodName : Text)
    (hasTarget hasReturn : Bool)
    (types : List DataType) :
    Text :=
  let numPars := types.length - hasTarget.toNat - hasReturn.toNat
  let types := (types.take numPars).map fun type =>
    if type = .psco then DataType.object else type
  methodName ++ '(' :: ([','].intercalate (types.map typeText) ++
    ')' :: declaringClass)

/-- `executeTask`: the last parameter is a return value. -/
def hasReturn (types : List DataType) (lastIsOut : Bool) : Bool :=
  match types.getLast? with
  | some type => lastIsOut && type ∈ [.object, .psco, .externalPsco]
  | none => false

/-- The signature of a call of the stub, if the runtime takes its parameters;
the stub passes no class and no target. -/
def callSignature (func : Function) : Option Text := do
  let types ← func.parameters.mapM Parameter.runtimeType
  let lastIsOut := (generateParameterMarshalling func).getLast?.any
    fun marshalled => marshalled.dir = .outDir
  return getSignature "NULL".toList func.name false (hasReturn types lastIsOut)
    types

end DistributedRdf.CBinding
