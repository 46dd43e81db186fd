import DistributedRdf.CommandRoundTrip
import DistributedRdf.GeneratedExecutor
import Mathlib.Data.List.Forall2
import Mathlib.Data.List.TakeWhile

namespace DistributedRdf.CBinding

open Words Invocation Parameter Conversion NIOParam List Piper UInt8 Value
open Variable
open Piper (DataType Stream booleanText threadAffinity)

/-!
# Agreement of stub and executor

A case of the executor reads its parameters from where the worker has put them
as long as each parameter has as many fields as the case passes over.  Targets,
results and strings have more.
-/

/-! ## Conversions -/

theorem takeWhile_digits
    {digits : Text}
    (allDigits : ∀ char, char ∈ digits → char.isDigit = true) :
    digits.takeWhile Char.isDigit = digits :=
  takeWhile_eq_self_iff.mpr allDigits

theorem isDigit_of_mem_toDigits
    {n : Nat}
    {char : Char}
    (member : char ∈ Nat.toDigits 10 n) :
    char.isDigit = true :=
  Nat.isDigit_of_mem_toDigits (by decide) (by decide) member

/-- The number at the start of a number in decimals is the number. -/
@[simp] theorem leadingInt_decimal {i : Int} :
    leadingInt (decimal i) = i := by
  have noBlank : (decimal i).dropWhile isBlank = decimal i := by
    cases number : decimal i with
    | nil => rfl
    | cons first rest =>
        have notBlank : isBlank first = false :=
          isWord_decimal.2 first (number ▸ mem_cons_self)
        rw [dropWhile_cons_of_neg]
        rw [notBlank]
        decide
  rw [leadingInt, noBlank]
  cases i with
  | negSucc n =>
      simp only [decimal]
      rw [takeWhile_digits fun _ => isDigit_of_mem_toDigits,
        Nat.ofDigitChars_ten_toDigits]
      rfl
  | ofNat n =>
      rw [decimal]
      split
      · rename_i same
        exact absurd (isDigit_of_mem_toDigits (same ▸ mem_cons_self))
          (by decide)
      · rename_i same
        exact absurd (isDigit_of_mem_toDigits (same ▸ mem_cons_self))
          (by decide)
      · simp only
        rw [takeWhile_digits fun _ => isDigit_of_mem_toDigits,
          Nat.ofDigitChars_ten_toDigits]
        rfl

/-- The characters whose first byte is the character that was passed: the
others with the sign bit become other texts. -/
def PlainChar (value : UInt8) : Prop :=
  value < 128 ∨ value = 239
  deriving Decidable

theorem firstByte_jchar_fin :
    ∀ value : Fin 256, firstByte [jchar (ofFin value)] =
      ofFin value ↔ PlainChar (ofFin value) := by
  decide +kernel

theorem firstByte_jchar {value : UInt8} :
    firstByte [jchar value] = value ↔ PlainChar value :=
  firstByte_jchar_fin value.toFin

section Runs

variable {fractions : Fractions} {Object : Type}
  {surroundings : Surroundings fractions Object}
  {argv : List Text}
  {st st' : ExecutorState fractions Object}

/-! ## Runs of statements -/

@[simp] theorem run_nil : run surroundings argv [] st = some st := by
  rfl

theorem run_cons
    {statement : Statement}
    {statements : List Statement} :
    run surroundings argv (statement :: statements) st =
      (statement.exec surroundings argv st).bind
        (run surroundings argv statements) := by
  rfl

theorem run_append
    {first second : List Statement} :
    run surroundings argv (first ++ second) st =
      (run surroundings argv first st).bind
        (run surroundings argv second) := by
  rw [run, foldlM_append]
  rfl

theorem getElem?_of_drop
    {offset k : Nat}
    {fields rest : List Text}
    {field : Text}
    (atOffset : argv.drop offset = fields ++ rest)
    (isField : fields[k]? = some field) :
    argv[offset + k]? = some field := by
  have inside : k < fields.length := by
    by_contra outside
    rw [List.getElem?_eq_none (Nat.le_of_not_lt outside)] at isField
    exact nomatch isField
  rw [← List.getElem?_drop, atOffset, List.getElem?_append_left inside,
    isField]

variable {var : Variable}

/-- The four fields of a parameter that is no string -/
theorem run_readConversion
    {conversion : Conversion}
    {text : Text}
    (isValue : argv[st.argOffset + 3]? = some text) :
    run surroundings argv (readConversion var conversion) st =
      some { st with
        argOffset := st.argOffset + 4
        store := Function.update st.store var
          (some (conversion.apply text)) } := by
  rw [readConversion, run_cons, Statement.exec, Option.bind_some, run_cons,
    Statement.exec]
  simp only [isValue]
  rfl

theorem run_readFile
    {type : Datatype}
    {name : Text}
    (isName : argv[st.argOffset + 3]? = some name) :
    run surroundings argv (readFile var type) st =
      ((surroundings.files name).bind (surroundings.archives.load type)).map
        fun value => { st with
          argOffset := st.argOffset + 4
          store := Function.update st.store var (some value)
          filenames := Function.update st.filenames var (some name) } := by
  rw [readFile, run_cons, Statement.exec, Option.bind_some, run_cons,
    Statement.exec]
  simp only [isName, Option.bind_eq_bind, Option.bind_some, Option.pure_def]
  rw [run_cons, Statement.exec]
  simp only [Function.update_self, Option.bind_eq_bind, Option.bind_some]
  cases surroundings.files name with
  | none => rfl
  | some content =>
      simp only [Option.bind_some]
      cases surroundings.archives.load type content with
      | none => rfl
      | some value => rfl

end Runs

/-! ## Arguments that are carried over -/

section Arguments

variable {fractions : Fractions} {Object : Type} {func : SupportedFunction}
  {surroundings : Surroundings fractions Object}
  {header : TaskHeader}
  {invocation : Invocation fractions Object func}
  {argv : List Text}
  {st st' : ExecutorState fractions Object}
  {arg : Argument}
  {np : NIOParam fractions}

variable (surroundings invocation arg) in
/-- The worker has a file from which the value of an argument can be loaded. -/
def Invocation.Loads :
    Prop :=
  (surroundings.files (invocation.originalName (.named arg.name))).bind
      (surroundings.archives.load arg.type) =
    some (invocation.value (.named arg.name))

variable (surroundings invocation arg) in
/-- What an argument needs for its value to arrive at the function -/
def Invocation.IsCarried :
    Prop :=
  if arg.dir ≠ .inDir then
    arg.type = .file ∨ invocation.Loads surroundings arg
  else if arg.type = .char ∨ arg.type = .wchar then
    ∃ value, invocation.value (.named arg.name) = .char value ∧
      PlainChar value
  else if arg.type = .boolean then
    invocation.value (.named arg.name) = .int 1
  else if arg.type = .object then
    invocation.Loads surroundings arg
  else
    arg.type ≠ .string ∧ arg.type ≠ .wstring ∧ arg.type ≠ .longlong

/-- The argument is passed in a file that the stub registers. -/
def Argument.inArchive (arg : Argument) : Bool :=
  arg.isWritten || arg.dir = .inDir && arg.type = .object

variable (invocation st arg) in
/-- The state after an argument was read -/
def Invocation.afterArgument :
    ExecutorState fractions Object where
  argOffset := st.argOffset + 4
  store := Function.update st.store (.named arg.name)
    (some (invocation.received arg))
  filenames :=
    if arg.inArchive then
      Function.update st.filenames (.named arg.name)
        (some (invocation.originalName (.named arg.name)))
    else
      st.filenames
  called := st.called
  written := st.written

theorem Argument.inArchive_iff :
    arg.inArchive = true ↔
      (arg.dir ≠ .inDir ∧ arg.type ≠ .file) ∨
        (arg.dir = .inDir ∧ arg.type = .object) := by
  simp [Argument.inArchive, Argument.isWritten]

/-- The file of an argument in an archive -/
theorem addParam_inArchive
    (inArchive : arg.inArchive = true) :
    invocation.addParam (marshalArgument arg) =
      some ⟨.unspecified, "null".toList,
        .file (invocation.originalName (.named arg.name))⟩ := by
  have marshalled : ∃ dir saving, marshalArgument arg =
      ⟨.named arg.name, .filename, .file, dir, saving⟩ := by
    rcases Argument.inArchive_iff.mp inArchive with
      ⟨notIn, noFile⟩ | ⟨isIn, isObject⟩
    · cases dirIs : arg.dir with
      | inDir => exact absurd dirIs notIn
      | outDir | inoutDir =>
          exact ⟨.inoutDir, some .byValue,
            by simp [marshalArgument, dirIs, noFile]⟩
    · exact ⟨.inDir, some .byPointer,
        by simp [marshalArgument, isIn, isObject]⟩
  obtain ⟨dir, saving, marshalled⟩ := marshalled
  rw [marshalled]
  rfl

theorem readArgument_inArchive
    (supported : arg.type.isSupported = true)
    (inArchive : arg.inArchive = true) :
    readArgument arg = readFile (.named arg.name) arg.type := by
  rcases Argument.inArchive_iff.mp inArchive with
    ⟨notIn, noFile⟩ | ⟨isIn, isObject⟩
  · unfold readArgument
    split
    · rename_i isIn
      exact absurd isIn notIn
    · split
      · rename_i isFile
        exact absurd isFile noFile
      · rw [if_pos supported]
  · simp [readArgument, isIn, isObject]

/-- An argument with a conversion: its text, what is passed, how it is read -/
structure Converted
    (invocation : Invocation fractions Object func)
    (arg : Argument)
    (value : ParamValue fractions)
    (conversion : Conversion) :
    Prop where
  added : invocation.addParam (marshalArgument arg) =
    some ⟨.unspecified, "null".toList, value⟩
  reads : readArgument arg = readConversion (.named arg.name) conversion

/-- The conversion gives the argument back, with the type of its parameter. -/
def Returns
    (invocation : Invocation fractions Object func)
    (arg : Argument)
    (value : ParamValue fractions)
    (conversion : Conversion) :
    Prop :=
  ∃ text, value.arguments = [text] ∧
    conversion.apply text = invocation.received arg ∧
    conversion.type = value.type

variable
  {value : ParamValue fractions}
  {conversion : Conversion}
  {text : Text}

theorem returns_iff
    (isText : value.arguments = [text]) :
    Returns invocation arg value conversion ↔
      conversion.apply text = invocation.received arg ∧
        conversion.type = value.type := by
  constructor
  · rintro ⟨other, isOther, returns⟩
    rw [isText] at isOther
    rwa [singleton_inj.mp isOther]
  · exact fun returns => ⟨text, isText, returns⟩

theorem converted_file
    (typed : (invocation.value (.named arg.name)).HasType arg.type)
    (isFile : arg.type = .file) :
    Converted invocation arg
      (.file (invocation.originalName (.named arg.name))) .strdup := by
  have passed : ∃ name, invocation.value (.named arg.name) = .text name := by
    rw [isFile] at typed
    cases value : invocation.value (.named arg.name) with
    | text name => exact ⟨name, rfl⟩
    | _ =>
        rw [value] at typed
        exact nomatch typed
  obtain ⟨name, passed⟩ := passed
  have marshalled : marshalArgument arg =
      ⟨.named arg.name, .value, .file, arg.dir, none⟩ := by
    cases dirIs : arg.dir <;> simp [marshalArgument, dirIs, isFile]
  refine ⟨?_, ?_⟩
  · rw [marshalled]
    simp only [addParam, passed]
    rfl
  · cases dirIs : arg.dir <;> simp [readArgument, dirIs, isFile]

/-- Other arguments than objects that are only read are passed by value. -/
theorem converted_of_processed
    {passed : Value fractions Object}
    (isPassed : invocation.value (.named arg.name) = passed)
    (isIn : arg.dir = .inDir)
    (noObject : arg.type ≠ .object)
    (processed : processParam arg.type passed = some value)
    (noName : ∀ name, value.withName name = value)
    (reads : readArgument arg = readConversion (.named arg.name) conversion)
    (noText : value.type ≠ .string)
    (isText : value.arguments = [text])
    (returns :
      conversion.apply text = invocation.received arg ∧
          conversion.type = value.type ↔
        invocation.IsCarried surroundings arg) :
    ∃ value conversion, Converted invocation arg value conversion ∧
      value.type ≠ .string ∧
      (Returns invocation arg value conversion ↔
        invocation.IsCarried surroundings arg) := by
  have marshalled : marshalArgument arg =
      ⟨.named arg.name, .value, arg.type, .inDir, none⟩ := by
    simp [marshalArgument, isIn, noObject]
  refine ⟨value, conversion, ⟨?_, reads⟩, noText,
    (returns_iff isText).trans returns⟩
  rw [marshalled]
  simp only [addParam, isPassed, processed, noName,
    Option.bind_eq_bind, Option.bind_some, Option.pure_def]

/-- The numbers, characters and truth values that are passed as they are -/
theorem converted_in
    (surroundings : Surroundings fractions Object)
    (agree : fractions.Agree)
    (typed : (invocation.value (.named arg.name)).HasType arg.type)
    (isIn : arg.dir = .inDir)
    (noFile : arg.type ≠ .file)
    (noObject : arg.type ≠ .object)
    (noString : arg.type ≠ .string)
    (noWideString : arg.type ≠ .wstring) :
    ∃ value conversion, Converted invocation arg value conversion ∧
      value.type ≠ .string ∧
      (Returns invocation arg value conversion ↔
        invocation.IsCarried surroundings arg) := by
  obtain ⟨name, type, dir⟩ := arg
  obtain rfl : dir = .inDir := isIn
  simp only at typed noFile noObject noString noWideString
  generalize passed : invocation.value (.named name) = value at typed
  cases typed with
  | boolean v =>
      refine converted_of_processed passed rfl noObject rfl (fun _ => rfl)
        rfl nofun rfl ?_
      simp [received, passed, apply, type,
        ParamValue.type, Invocation.IsCarried, eq_comm]
  | char _ | wchar _ =>
      refine converted_of_processed passed rfl noObject rfl (fun _ => rfl)
        rfl nofun rfl ?_
      simp [received, passed, apply, type,
        ParamValue.type, Invocation.IsCarried, firstByte_jchar]
  | short _ | int _ =>
      refine converted_of_processed passed rfl noObject rfl (fun _ => rfl)
        rfl nofun rfl ?_
      simp [received, passed, apply, type,
        ParamValue.type, Invocation.IsCarried]
  | long _ | longlong _ =>
      refine converted_of_processed passed rfl noObject rfl (fun _ => rfl)
        rfl nofun rfl ?_
      simp [received, passed, apply, type,
        ParamValue.type, Invocation.IsCarried]
  | float v =>
      refine converted_of_processed passed rfl noObject rfl (fun _ => rfl)
        rfl nofun rfl ?_
      simp [received, passed, apply, type,
        ParamValue.type, Invocation.IsCarried, agree.strtof_floatText]
  | double v =>
      refine converted_of_processed passed rfl noObject rfl (fun _ => rfl)
        rfl nofun rfl ?_
      simp [received, passed, apply, type,
        ParamValue.type, Invocation.IsCarried, agree.strtod_doubleText]
  | string v => exact absurd rfl noString
  | wstring v => exact absurd rfl noWideString
  | file v => exact absurd rfl noFile
  | object v => exact absurd rfl noObject

/-! ## Reading an argument -/

theorem isCarried_inArchive
    (inArchive : arg.inArchive = true) :
    invocation.IsCarried surroundings arg ↔
      invocation.Loads surroundings arg := by
  unfold Invocation.IsCarried
  rcases Argument.inArchive_iff.mp inArchive with
    ⟨notIn, noFile⟩ | ⟨isIn, isObject⟩
  · rw [if_pos notIn]
    exact or_iff_right noFile
  · simp [isIn, isObject]

theorem received_inArchive
    (inArchive : arg.inArchive = true) :
    invocation.received arg = invocation.value (.named arg.name) := by
  unfold received
  rcases Argument.inArchive_iff.mp inArchive with
    ⟨-, noFile⟩ | ⟨-, isObject⟩
  · rw [if_neg noFile]
  · rw [if_neg (by rw [isObject]; decide)]

variable {rest : List Text}

theorem run_readArgument_inArchive
    (supported : arg.type.isSupported = true)
    (inArchive : arg.inArchive = true)
    (added : invocation.addParam (marshalArgument arg) = some np)
    (atOffset : argv.drop st.argOffset = np.arguments ++ rest) :
    run surroundings argv (readArgument arg) st =
      ((surroundings.files (invocation.originalName (.named arg.name))).bind
        (surroundings.archives.load arg.type)).map fun value => { st with
          argOffset := st.argOffset + 4
          store := Function.update st.store (.named arg.name) (some value)
          filenames := Function.update st.filenames (.named arg.name)
            (some (invocation.originalName (.named arg.name))) } := by
  rw [addParam_inArchive inArchive] at added
  obtain rfl := Option.some.inj added
  rw [readArgument_inArchive supported inArchive]
  exact run_readFile (getElem?_of_drop atOffset rfl)

theorem run_readArgument_converted
    (converted : Converted invocation arg value conversion)
    (isText : value.arguments = [text])
    (added : invocation.addParam (marshalArgument arg) = some np)
    (atOffset : argv.drop st.argOffset = np.arguments ++ rest) :
    run surroundings argv (readArgument arg) st =
      some { st with
        argOffset := st.argOffset + 4
        store := Function.update st.store (.named arg.name)
          (some (conversion.apply text)) } := by
  rw [converted.added] at added
  obtain rfl := Option.some.inj added
  rw [converted.reads]
  refine run_readConversion (getElem?_of_drop atOffset ?_)
  rw [arguments, isText]
  rfl

/-- All parameters but strings have one text for their value. -/
theorem exists_text
    (noString : value.type ≠ .string) :
    ∃ text, value.arguments = [text] := by
  cases value with
  | string v => exact absurd rfl noString
  | _ => exact ⟨_, rfl⟩

theorem appendWords_offset
    {left : Nat}
    {isFirst : Bool}
    {argOffset : Nat}
    {appended : Nat × Text}
    (isAppended : appendWords argv left isFirst argOffset text =
      some appended) :
    appended.1 = argOffset + left := by
  induction left generalizing isFirst argOffset text with
  | zero =>
      obtain rfl := Option.some.inj isAppended
      rfl
  | succ left hypothesis =>
      obtain ⟨word, -, isAppended⟩ := Option.bind_eq_some_iff.mp isAppended
      rw [hypothesis isAppended, Nat.add_assoc, Nat.add_comm 1]

variable {var : Variable}

/-- The offset stays at the last word of a string. -/
theorem argOffset_of_joinWords
    {count : Nat}
    (isCount : argv[st.argOffset + 3]? = some (decimal count))
    (isRun : run surroundings argv [.advance 3, .joinWords var] st =
      some st') :
    st'.argOffset = st.argOffset + 3 + count := by
  rw [run_cons, Statement.exec, Option.bind_some, run_cons,
    Statement.exec] at isRun
  simp only [isCount, Option.bind_eq_bind, Option.bind_some,
    leadingInt_decimal, Int.toNat_natCast] at isRun
  obtain ⟨after, isAfter, isRun⟩ := Option.bind_eq_some_iff.mp isRun
  obtain ⟨appended, isAppended, isAfter⟩ :=
    Option.bind_eq_some_iff.mp isAfter
  obtain rfl := Option.some.inj isRun
  obtain rfl := Option.some.inj isAfter
  exact appendWords_offset isAppended

theorem readType_inArchive
    (supported : arg.type.isSupported = true)
    (inArchive : arg.inArchive = true) :
    (argument arg).readType = some .file := by
  rw [readType, Parameter.reads,
    readArgument_inArchive supported inArchive]
  rfl

theorem readType_converted
    (converted : Converted invocation arg value conversion) :
    (argument arg).readType = some conversion.type := by
  rw [readType, Parameter.reads, converted.reads]
  rfl

/-- An argument is passed in an archive, as a string, or as a text that is
converted.  In the last case the text returns it when it is carried over. -/
theorem argument_cases
    (surroundings : Surroundings fractions Object)
    (agree : fractions.Agree)
    (typed : (invocation.value (.named arg.name)).HasType arg.type) :
    arg.inArchive = true ∨
      (arg.dir = .inDir ∧ (arg.type = .string ∨ arg.type = .wstring)) ∨
      arg.inArchive = false ∧ ∃ value conversion,
        Converted invocation arg value conversion ∧
          value.type ≠ .string ∧
          (Returns invocation arg value conversion ↔
            invocation.IsCarried surroundings arg) := by
  cases inArchive : arg.inArchive with
  | true => exact .inl rfl
  | false =>
      refine .inr ?_
      by_cases isFile : arg.type = .file
      · refine .inr ⟨rfl, _, _, converted_file typed isFile, nofun, ?_⟩
        rw [returns_iff rfl, received, if_pos isFile]
        refine iff_of_true ⟨rfl, rfl⟩ ?_
        cases dirIs : arg.dir <;>
          simp [Invocation.IsCarried, dirIs, isFile]
      · have isIn : arg.dir = .inDir := by
          by_contra notIn
          rw [Argument.inArchive_iff.mpr (.inl ⟨notIn, isFile⟩)] at inArchive
          exact nomatch inArchive
        have noObject : arg.type ≠ .object := by
          intro isObject
          rw [Argument.inArchive_iff.mpr (.inr ⟨isIn, isObject⟩)] at inArchive
          exact nomatch inArchive
        by_cases isString : arg.type = .string ∨ arg.type = .wstring
        · exact .inl ⟨isIn, isString⟩
        · obtain ⟨noString, noWideString⟩ := not_or.mp isString
          obtain ⟨value, conversion, converted, noText, returns⟩ :=
            converted_in surroundings agree typed isIn isFile
              noObject noString noWideString
          exact .inr ⟨rfl, value, conversion, converted, noText, returns⟩

/-- An argument that is carried over is read past its four fields. -/
theorem run_readArgument_of_carried
    (agree : fractions.Agree)
    (typed : (invocation.value (.named arg.name)).HasType arg.type)
    (supported : arg.type.isSupported = true)
    (carried : invocation.IsCarried surroundings arg) :
    ∃ np, invocation.addParam (marshalArgument arg) = some np ∧
      np.arguments.length = 4 ∧
      (argument arg).readType = some np.value.type ∧
      ∀ (argv : List Text) (st : ExecutorState fractions Object)
        (rest : List Text),
        argv.drop st.argOffset = np.arguments ++ rest →
          run surroundings argv (readArgument arg) st =
            some (invocation.afterArgument st arg) := by
  rcases argument_cases surroundings agree typed with
    inArchive | ⟨isIn, isString⟩ | ⟨noArchive, value, conversion, converted,
      noText, returns⟩
  · refine ⟨_, addParam_inArchive inArchive, rfl,
      readType_inArchive supported inArchive, fun argv st rest atOffset => ?_⟩
    have loads := (isCarried_inArchive inArchive).mp carried
    rw [run_readArgument_inArchive supported inArchive
      (addParam_inArchive inArchive) atOffset, loads, Option.map_some,
      afterArgument, received_inArchive inArchive, if_pos inArchive]
  · rcases isString with isString | isString <;>
      simp [Invocation.IsCarried, isIn, isString] at carried
  · obtain ⟨text, isText, applied, sameType⟩ := returns.mpr carried
    refine ⟨_, converted.added, ?_, ?_, fun argv st rest atOffset => ?_⟩
    · rw [arguments, isText]
      rfl
    · rw [readType_converted converted, sameType]
    · rw [run_readArgument_converted converted isText converted.added atOffset,
        applied, afterArgument, noArchive, if_neg (by decide)]

/-- An argument that is read past its fields with its type and value is carried
over. -/
theorem isCarried_of_run
    (agree : fractions.Agree)
    (typed : (invocation.value (.named arg.name)).HasType arg.type)
    (supported : arg.type.isSupported = true)
    (added : invocation.addParam (marshalArgument arg) = some np)
    (atOffset : argv.drop st.argOffset = np.arguments ++ rest)
    (isRun : run surroundings argv (readArgument arg) st = some st')
    (pastFields : st'.argOffset = st.argOffset + np.arguments.length)
    (isRead : st'.store (.named arg.name) = some (invocation.received arg))
    (sameType : (argument arg).readType = some np.value.type) :
    invocation.IsCarried surroundings arg := by
  rcases argument_cases surroundings agree typed with
    inArchive | ⟨isIn, isString⟩ | ⟨noArchive, value, conversion, converted,
      noText, returns⟩
  · rw [run_readArgument_inArchive supported inArchive added atOffset] at isRun
    obtain ⟨value, loads, rfl⟩ := Option.map_eq_some_iff.mp isRun
    simp only [Function.update_self, received_inArchive inArchive] at isRead
    exact (isCarried_inArchive inArchive).mpr (loads.trans isRead)
  · exfalso
    generalize passed : invocation.value (.named arg.name) = value at typed
    have marshalled : marshalArgument arg =
        ⟨.named arg.name, .value, arg.type, .inDir, none⟩ := by
      rcases isString with isString | isString <;>
        simp [marshalArgument, isIn, isString]
    have reads : readArgument arg =
        [.advance 3, .joinWords (.named arg.name)] := by
      rcases isString with isString | isString <;>
        simp [readArgument, isIn, isString]
    rw [marshalled] at added
    simp only [addParam, passed] at added
    rcases isString with isString | isString
    · rw [isString] at typed added
      cases typed with
      | string text =>
          obtain rfl := Option.some.inj added
          rw [reads] at isRun
          have stays := argOffset_of_joinWords
            (getElem?_of_drop atOffset rfl) isRun
          rw [stays] at pastFields
          simp only [arguments, ParamValue.withName,
            ParamValue.arguments, length_cons] at pastFields
          omega
    · rw [isString] at typed added
      cases typed with
      | wstring text => exact nomatch added
  · rw [converted.added] at added
    obtain rfl := Option.some.inj added
    obtain ⟨text, isText⟩ := exists_text noText
    rw [run_readArgument_converted converted isText converted.added
      atOffset] at isRun
    obtain rfl := Option.some.inj isRun
    simp only [Function.update_self] at isRead
    rw [readType_converted converted] at sameType
    exact returns.mp
      ⟨text, isText, Option.some.inj isRead, Option.some.inj sameType⟩

/-! ## Reading all arguments -/

variable (surroundings invocation arg np) in
/-- The parameter of an argument that is carried over -/
structure Fits :
    Prop where
  added : invocation.addParam (marshalArgument arg) = some np
  fields : np.arguments.length = 4
  readType : (argument arg).readType = some np.value.type
  reads : ∀ (argv : List Text) (st : ExecutorState fractions Object)
    (rest : List Text), argv.drop st.argOffset = np.arguments ++ rest →
      run surroundings argv (readArgument arg) st =
        some (invocation.afterArgument st arg)

theorem exists_fits
    (agree : fractions.Agree)
    {args : List Argument}
    (among : ∀ arg, arg ∈ args → arg ∈ func.arguments)
    (carried : ∀ arg, arg ∈ args →
      invocation.IsCarried surroundings arg) :
    ∃ params, List.Forall₂ (Fits surroundings invocation) args params := by
  induction args with
  | nil => exact ⟨[], .nil⟩
  | cons arg later hypothesis =>
      have isArgument := among arg mem_cons_self
      obtain ⟨np, added, fields, readType, reads⟩ :=
        run_readArgument_of_carried agree (invocation.typed arg isArgument)
          (func.supported arg isArgument) (carried arg mem_cons_self)
      obtain ⟨params, laterFit⟩ := hypothesis
        (fun other member => among other (mem_cons_of_mem arg member))
        (fun other member => carried other (mem_cons_of_mem arg member))
      exact ⟨np :: params, .cons ⟨added, fields, readType, reads⟩ laterFit⟩

variable (invocation st) in
/-- The state after some arguments were read -/
def Invocation.afterArguments
    (args : List Argument) :
    ExecutorState fractions Object :=
  args.foldl invocation.afterArgument st

variable {args : List Argument} {params : List (NIOParam fractions)}

theorem afterArguments_cons :
    invocation.afterArguments st (arg :: args) =
      invocation.afterArguments (invocation.afterArgument st arg) args := by
  rfl

theorem length_fields
    (fit : List.Forall₂ (Fits surroundings invocation) args params) :
    (params.flatMap arguments).length = 4 * args.length := by
  induction fit with
  | nil => rfl
  | cons fits laterFit hypothesis =>
      rw [List.flatMap_cons, length_append, fits.fields,
        hypothesis, length_cons, Nat.mul_succ, Nat.add_comm]

theorem mapM_addParam
    (fit : List.Forall₂ (Fits surroundings invocation) args params) :
    (args.map marshalArgument).mapM invocation.addParam = some params := by
  rw [mapM_eq_some_iff, map_map]
  induction fit with
  | nil => rfl
  | cons fits laterFit hypothesis =>
      rw [map_cons, map_cons, hypothesis]
      exact congrArg (· :: _) fits.added

/-- Arguments that are carried over are read one after the other. -/
theorem run_readArguments
    (fit : List.Forall₂ (Fits surroundings invocation) args params)
    (atOffset : argv.drop st.argOffset =
      params.flatMap arguments ++ rest) :
    run surroundings argv (args.flatMap readArgument) st =
      some (invocation.afterArguments st args) := by
  induction fit generalizing st with
  | nil => rfl
  | cons fits laterFit hypothesis =>
      rw [List.flatMap_cons, List.append_assoc] at atOffset
      rw [List.flatMap_cons, run_append, fits.reads argv st _ atOffset,
        Option.bind_some]
      refine hypothesis ?_
      rw [afterArgument, ← drop_drop, atOffset, ← fits.fields,
        drop_left]

theorem argOffset_afterArguments :
    (invocation.afterArguments st args).argOffset =
      st.argOffset + 4 * args.length := by
  induction args generalizing st with
  | nil => rfl
  | cons arg later hypothesis =>
      rw [afterArguments_cons, hypothesis, length_cons,
        Nat.mul_succ, Nat.add_comm (4 * later.length), ← Nat.add_assoc]
      rfl

/-- Reading an argument does not change the variables of the others. -/
theorem afterArguments_of_not_mem
    {name : Text}
    (different : name ∉ args.map Argument.name) :
    (invocation.afterArguments st args).store (.named name) =
        st.store (.named name) ∧
      (invocation.afterArguments st args).filenames (.named name) =
        st.filenames (.named name) := by
  induction args generalizing st with
  | nil => exact ⟨rfl, rfl⟩
  | cons arg later hypothesis =>
      rw [map_cons, mem_cons, not_or] at different
      have notSame : named name ≠ .named arg.name :=
        fun same => different.1 (named.inj same)
      obtain ⟨storeKept, filenamesKept⟩ :=
        @hypothesis (invocation.afterArgument st arg) different.2
      refine ⟨storeKept.trans ?_, filenamesKept.trans ?_⟩
      · exact Function.update_of_ne notSame ..
      · unfold afterArgument
        split
        · exact Function.update_of_ne notSame ..
        · rfl

/-- After all arguments were read, each is in its variables. -/
theorem afterArguments_of_mem
    (distinct : (args.map Argument.name).Nodup)
    (member : arg ∈ args) :
    (invocation.afterArguments st args).store (.named arg.name) =
        some (invocation.received arg) ∧
      (arg.inArchive = true →
        (invocation.afterArguments st args).filenames (.named arg.name) =
          some (invocation.originalName (.named arg.name))) := by
  induction args generalizing st with
  | nil => exact nomatch member
  | cons first later hypothesis =>
      rw [map_cons, nodup_cons] at distinct
      rcases mem_cons.mp member with rfl | member
      · obtain ⟨storeKept, filenamesKept⟩ :=
          @afterArguments_of_not_mem _ _ _ invocation
            (invocation.afterArgument st arg) later arg.name distinct.1
        refine ⟨storeKept.trans (Function.update_self ..), ?_⟩
        intro inArchive
        refine filenamesKept.trans ?_
        rw [afterArgument, if_pos inArchive]
        exact Function.update_self ..
      · exact hypothesis distinct.2 member

theorem afterArguments_called :
    (invocation.afterArguments st args).called = st.called ∧
      (invocation.afterArguments st args).written = st.written := by
  induction args generalizing st with
  | nil => exact ⟨rfl, rfl⟩
  | cons arg later hypothesis =>
      exact @hypothesis (invocation.afterArgument st arg)

/-! ## The argument vector -/

/-- The offset of a case is that of the first parameter. -/
theorem initialOffset_argumentVector :
    initialOffset (argumentVector header params) =
      some (1 + (header.arguments params.length).length) := by
  have isNumber : (argumentVector header params)[8]? =
      some (decimal header.slaveWorkersNodeNames.length) := rfl
  have length : (header.arguments params.length).length =
      12 + header.slaveWorkersNodeNames.length := by
    rw [TaskHeader.arguments, length_append, length_append,
      Nat.add_comm header.slaveWorkersNodeNames.length, ← Nat.add_assoc]
    rfl
  rw [initialOffset, isNumber, length]
  simp only [Option.bind_eq_bind, Option.bind_some, leadingInt_decimal,
    Int.toNat_natCast, Option.pure_def, Option.some.injEq, numBaseArgs]
  omega

theorem drop_argumentVector :
    (argumentVector header params).drop
        (1 + (header.arguments params.length).length) =
      params.flatMap arguments ++
        [threadAffinity header.assignedCoreUnits] := by
  rw [argumentVector, addArguments, Nat.add_comm, drop_succ_cons,
    List.append_assoc, drop_left]

theorem drop_fields
    {offset k : Nat}
    (atOffset : argv.drop offset = params.flatMap arguments ++ rest) :
    argv.drop (offset + fieldCount params k) =
      (params.drop k).flatMap arguments ++ rest := by
  have split : params.flatMap arguments =
      (params.take k).flatMap arguments ++
        (params.drop k).flatMap arguments := by
    rw [← List.flatMap_append, take_append_drop]
  rw [← drop_drop, atOffset, split, List.append_assoc, fieldCount,
    drop_left]

variable {k : Nat}

theorem fieldCount_succ
    (isParam : params[k]? = some np) :
    fieldCount params (k + 1) =
      fieldCount params k + np.arguments.length := by
  rw [fieldCount, List.take_add_one, isParam, List.flatMap_append,
    length_append]
  simp [fieldCount]

variable {parameter : Parameter}

theorem addParam_of_getElem?
    (taken : invocation.params = some params)
    (isParameter : func.parameters[k]? = some parameter)
    (isParam : params[k]? = some np) :
    invocation.addParam parameter.marshalled = some np := by
  have pairs := congrArg (·[k]?) (mapM_eq_some_iff.mp taken)
  simp only [generateParameterMarshalling, List.getElem?_map, isParameter,
    isParam, Option.map_some, Option.some.injEq] at pairs
  exact pairs

/-! ## The whole case -/

theorem exists_of_forall₂
    (fit : List.Forall₂ (Fits surroundings invocation) args params)
    (isArgument : args[k]? = some arg) :
    ∃ np, params[k]? = some np ∧ Fits surroundings invocation arg np := by
  induction fit generalizing k with
  | nil => exact nomatch isArgument
  | @cons first np _ _ fits laterFit hypothesis =>
      cases k with
      | zero =>
          obtain rfl := Option.some.inj isArgument
          exact ⟨np, rfl, fits⟩
      | succ k => exact hypothesis isArgument

theorem flatMap_reads :
    (args.map argument).flatMap Parameter.reads =
      args.flatMap readArgument :=
  flatMap_map ..

variable {offset : Nat}

theorem readsAll_of_fits
    (plain : func.parameters = func.arguments.map .argument)
    (fit : List.Forall₂ (Fits surroundings invocation) func.arguments params)
    (atOffset : argv.drop offset = params.flatMap arguments ++ rest) :
    ReadsAll surroundings invocation argv params offset := by
  intro k parameter isParameter
  rw [plain, List.getElem?_map] at isParameter
  obtain ⟨arg, isArgument, rfl⟩ := Option.map_eq_some_iff.mp isParameter
  obtain ⟨np, isParam, fits⟩ := exists_of_forall₂ fit isArgument
  have prefixFits := forall₂_take (k + 1) fit
  have atPrefix : argv.drop offset =
      (params.take (k + 1)).flatMap arguments ++
        ((params.drop (k + 1)).flatMap arguments ++ rest) := by
    rw [← List.append_assoc, ← List.flatMap_append, take_append_drop]
    exact atOffset
  have distinct : ((func.arguments.take (k + 1)).map Argument.name).Nodup := by
    rw [map_take]
    exact func.distinct.sublist (take_sublist ..)
  have member : arg ∈ func.arguments.take (k + 1) := by
    rw [List.take_add_one, isArgument]
    exact mem_append_right _ (mem_singleton.mpr rfl)
  refine ⟨invocation.afterArguments (.initial offset)
    (func.arguments.take (k + 1)), np, isParam, ?_, ?_, ?_, fits.readType⟩
  · rw [plain, ← map_take, flatMap_reads]
    exact run_readArguments prefixFits atPrefix
  · rw [argOffset_afterArguments, fieldCount, length_fields prefixFits]
    rfl
  · exact (afterArguments_of_mem distinct member).1

/-- The files are written in the order of the arguments. -/
theorem run_saves
    {effects : Effects fractions Object}
    (ready : ∀ arg, arg ∈ args → arg.isWritten = true →
      st.filenames (.named arg.name) =
          some (invocation.originalName (.named arg.name)) ∧
        st.store (.named arg.name) = some (effects.argument arg.name)) :
    run surroundings argv
        ((args.map argument).flatMap saves) st =
      some { st with
        written := st.written ++
          (args.map argument).filterMap
            (invocation.outcome effects) } := by
  induction args generalizing st with
  | nil => simp
  | cons arg later hypothesis =>
      have laterReady := fun other member =>
        ready other (mem_cons_of_mem arg member)
      rw [map_cons, List.flatMap_cons, run_append]
      cases isWritten : arg.isWritten with
      | false =>
          have noSave : (argument arg).saves = [] := by
            simp [saves, isWritten]
          have noOutcome :
              invocation.outcome effects (.argument arg) = none := by
            simp [outcome, isWritten]
          rw [noSave, run_nil, Option.bind_some,
            hypothesis laterReady, filterMap_cons_none noOutcome]
      | true =>
          obtain ⟨isName, isValue⟩ := ready arg mem_cons_self isWritten
          have saves : (argument arg).saves =
              [.save (.named arg.name)] := by
            simp [saves, isWritten]
          have outcome : invocation.outcome effects (.argument arg) =
              some (invocation.originalName (.named arg.name),
                effects.argument arg.name) := by
            simp [outcome, isWritten]
          rw [saves, run_cons, Statement.exec]
          simp only [isName, isValue, Option.bind_eq_bind, Option.bind_some,
            Option.pure_def, run_nil]
          have laterSaved := @hypothesis
            { st with
              written := st.written ++
                [(invocation.originalName (.named arg.name),
                  effects.argument arg.name)] }
            laterReady
          rw [laterSaved, filterMap_cons_some outcome]
          simp only [List.append_assoc, singleton_append]

theorem parameters_plain
    (noMethod : func.isMethod = false)
    (noResult : func.returnType = .void) :
    func.parameters = func.arguments.map .argument := by
  simp [Function.parameters, noMethod, noResult]

variable (surroundings invocation st) in
/-- The state after the call of a function that is no method -/
def Invocation.afterCall :
    ExecutorState fractions Object :=
  { st with
    store := storeAfter .plain func.arguments
      (surroundings.body invocation.call) st.store
    called := st.called ++ [invocation.call] }

theorem exec_call
    (noMethod : func.isMethod = false)
    (values : ∀ arg, arg ∈ func.arguments →
      st.store (.named arg.name) = some (invocation.received arg)) :
    (Statement.call .plain func.arguments).exec surroundings argv st =
      some (invocation.afterCall surroundings st) := by
  have isCall : (⟨none, func.arguments.map invocation.received⟩ :
      Call fractions Object) = invocation.call := by
    rw [call, noMethod, if_neg (by decide)]
  have taken := mapM_eq_some_map values
  rw [Statement.exec]
  simp only [taken, Option.bind_eq_bind, Option.bind_some, Option.pure_def,
    if_neg (show CallForm.plain ≠ .method by decide), isCall,
    afterCall]

/-- The case of a function without target and result -/
theorem completes_of_fits
    (noMethod : func.isMethod = false)
    (noResult : func.returnType = .void)
    (fit : List.Forall₂ (Fits surroundings invocation) func.arguments params)
    (atOffset : argv.drop offset = params.flatMap arguments ++ rest) :
    Completes surroundings invocation argv offset := by
  have plain := parameters_plain noMethod noResult
  have isPlain : func.callForm = .plain := by
    simp [Function.callForm, noMethod, noResult]
  obtain ⟨read, isRead⟩ : ∃ read, read =
      invocation.afterArguments (.initial offset) func.arguments := ⟨_, rfl⟩
  have reads : run surroundings argv (func.arguments.flatMap readArgument)
      (.initial offset) = some read := by
    rw [isRead]
    exact run_readArguments fit atOffset
  have inVariables : ∀ arg, arg ∈ func.arguments →
      read.store (.named arg.name) = some (invocation.received arg) ∧
        (arg.inArchive = true → read.filenames (.named arg.name) =
          some (invocation.originalName (.named arg.name))) := by
    intro arg member
    rw [isRead]
    exact afterArguments_of_mem func.distinct member
  have noCalls : read.called = [] ∧ read.written = [] := by
    rw [isRead]
    exact afterArguments_called
  have ready : ∀ arg, arg ∈ func.arguments → arg.isWritten = true →
      read.filenames (.named arg.name) =
          some (invocation.originalName (.named arg.name)) ∧
        (invocation.afterCall surroundings read).store (.named arg.name) =
          some ((surroundings.body invocation.call).argument arg.name) := by
    intro arg member isWritten
    have inArchive : arg.inArchive = true := by
      rw [Argument.inArchive, isWritten, Bool.true_or]
    refine ⟨(inVariables arg member).2 inArchive, ?_⟩
    refine if_pos (any_eq_true.mpr ⟨arg, member, ?_⟩)
    rw [isWritten, Bool.and_true, decide_eq_true rfl]
  have isRun : run surroundings argv (generateWorkerCase func.toFunction)
        (.initial offset) =
      run surroundings argv
        ((func.arguments.map argument).flatMap saves)
        (invocation.afterCall surroundings read) := by
    rw [generateWorkerCase, isPlain, plain, flatMap_reads, run_append, reads,
      Option.bind_some, run_cons,
      exec_call noMethod fun arg member => (inVariables arg member).1,
      Option.bind_some]
  refine ⟨_, isRun.trans (run_saves ready), ?_, ?_⟩
  · rw [afterCall, noCalls.1]
    rfl
  · rw [afterCall, noCalls.2, plain]
    rfl

/-! ## What agreement needs -/

/-- Targets and results are read past two of their four fields. -/
theorem argOffset_of_readImplicit
    (isRun : run surroundings argv (readImplicit var) st = some st') :
    st'.argOffset = st.argOffset + 2 := by
  rw [readImplicit, run_cons, Statement.exec, Option.bind_some, run_cons,
    Statement.exec] at isRun
  obtain ⟨named, isNamed, isRun⟩ := Option.bind_eq_some_iff.mp isRun
  obtain ⟨name, -, isNamed⟩ := Option.bind_eq_some_iff.mp isNamed
  obtain rfl := Option.some.inj isNamed
  rw [run_cons, Statement.exec, Option.bind_some, run_cons] at isRun
  obtain ⟨loaded, isLoaded, isRun⟩ := Option.bind_eq_some_iff.mp isRun
  obtain rfl := Option.some.inj isRun
  rw [Statement.exec] at isLoaded
  obtain ⟨filename, -, isLoaded⟩ := Option.bind_eq_some_iff.mp isLoaded
  obtain ⟨content, -, isLoaded⟩ := Option.bind_eq_some_iff.mp isLoaded
  obtain ⟨value, -, isLoaded⟩ := Option.bind_eq_some_iff.mp isLoaded
  obtain rfl := Option.some.inj isLoaded
  rfl

section

variable (taken : invocation.params = some params)

include taken

/-- The first parameter is neither the target nor the result. -/
theorem not_implicit_of_readsAll
    (reads : ReadsAll surroundings invocation argv params offset)
    (isFirst : func.parameters[0]? = some parameter)
    (isImplicit : parameter.reads = readImplicit var)
    (inFile : parameter.marshalled =
      ⟨var, .filename, .file, .inoutDir, some .byValue⟩) :
    False := by
  obtain ⟨st, np, isParam, isRun, pastFields, -⟩ := reads 0 parameter isFirst
  have added := addParam_of_getElem? taken isFirst isParam
  rw [inFile] at added
  obtain rfl := Option.some.inj added
  have first : func.parameters.take (0 + 1) = [parameter] := by
    rw [List.take_add_one, isFirst]
    rfl
  rw [first, List.flatMap_singleton, isImplicit] at isRun
  rw [argOffset_of_readImplicit isRun, fieldCount_succ isParam] at pastFields
  exact absurd (Nat.add_left_cancel pastFields) (by
    rw [fieldCount, take_zero]
    exact of_decide_eq_true rfl)

theorem plain_of_readsAll
    (reads : ReadsAll surroundings invocation argv params offset) :
    func.isMethod = false ∧ func.returnType = .void := by
  have noMethod : func.isMethod = false := by
    by_contra isMethod
    have isFirst : func.parameters[0]? = some .target := by
      simp [Function.parameters, eq_true_of_ne_false isMethod]
    exact not_implicit_of_readsAll taken reads isFirst rfl rfl
  refine ⟨noMethod, ?_⟩
  by_contra hasResult
  have isFirst : func.parameters[0]? = some .result := by
    simp [Function.parameters, noMethod, hasResult]
  exact not_implicit_of_readsAll taken reads isFirst rfl rfl

end

/-- The executor gets to each parameter with the offset of its fields. -/
theorem exists_run_take
    {offset k : Nat}
    (reads : ReadsAll surroundings invocation argv params offset)
    (isParameter : func.parameters[k]? = some parameter) :
    ∃ st, run surroundings argv
        ((func.parameters.take k).flatMap Parameter.reads) (.initial offset) =
          some st ∧
      st.argOffset = offset + fieldCount params k := by
  cases k with
  | zero => exact ⟨_, rfl, rfl⟩
  | succ j =>
      have inside : j < func.parameters.length :=
        Nat.lt_of_succ_lt (List.getElem?_eq_some_iff.mp isParameter).1
      obtain ⟨st, np, -, isRun, pastFields, -⟩ :=
        reads j _ (List.getElem?_eq_getElem inside)
      exact ⟨st, isRun, pastFields⟩

theorem isCarried_of_readsAll
    (agree : fractions.Agree)
    (taken : invocation.params = some params)
    (atOffset : argv.drop offset = params.flatMap arguments ++ rest)
    (reads : ReadsAll surroundings invocation argv params offset)
    (plain : func.parameters = func.arguments.map .argument)
    (member : arg ∈ func.arguments) :
    invocation.IsCarried surroundings arg := by
  obtain ⟨k, isArgument⟩ := mem_iff_getElem?.mp member
  have isParameter : func.parameters[k]? = some (.argument arg) := by
    rw [plain, List.getElem?_map, isArgument]
    rfl
  obtain ⟨st, isBefore, beforeFields⟩ := exists_run_take reads isParameter
  obtain ⟨st', np, isParam, isRun, pastFields, isRead, sameType⟩ :=
    reads k _ isParameter
  have fields : argv.drop st.argOffset =
      np.arguments ++
        ((params.drop (k + 1)).flatMap arguments ++ rest) := by
    obtain ⟨inside, isParam⟩ := List.getElem?_eq_some_iff.mp isParam
    rw [beforeFields, drop_fields atOffset, List.drop_eq_getElem_cons inside,
      isParam, List.flatMap_cons, List.append_assoc]
  rw [List.take_add_one, isParameter, List.flatMap_append, run_append, isBefore,
    Option.bind_some, Option.toList_some, List.flatMap_singleton] at isRun
  rw [fieldCount_succ isParam, ← Nat.add_assoc, ← beforeFields] at pastFields
  exact isCarried_of_run agree (invocation.typed arg member)
    (func.supported arg member) (addParam_of_getElem? taken isParameter isParam)
    fields isRun pastFields isRead sameType

theorem carried_of_executorAgrees
    (agree : fractions.Agree)
    (agrees : ExecutorAgrees surroundings header invocation) :
    func.isMethod = false ∧ func.returnType = .void ∧
      ∀ arg, arg ∈ func.arguments → invocation.IsCarried surroundings arg := by
  obtain ⟨params, offset, taken, -, isOffset, reads, -⟩ := agrees
  obtain ⟨noMethod, noResult⟩ := plain_of_readsAll taken reads
  subst isOffset
  exact ⟨noMethod, noResult, fun arg member =>
    isCarried_of_readsAll agree taken drop_argumentVector reads
      (parameters_plain noMethod noResult) member⟩

/-- Stub, runtime and executor agree about the calls of functions without target
and result whose arguments are carried over, and about no others. -/
theorem executorAgrees_iff
    (agree : fractions.Agree) :
    ExecutorAgrees surroundings header invocation ↔
      func.isMethod = false ∧ func.returnType = .void ∧
        ∀ arg, arg ∈ func.arguments →
          invocation.IsCarried surroundings arg := by
  refine ⟨carried_of_executorAgrees agree, ?_⟩
  rintro ⟨noMethod, noResult, carried⟩
  have plain := parameters_plain noMethod noResult
  obtain ⟨params, fit⟩ := exists_fits agree (fun _ member => member) carried
  have taken : invocation.params = some params := by
    rw [Invocation.params, generateParameterMarshalling, plain, map_map]
    exact mapM_addParam fit
  exact ⟨params, _, taken, initialOffset_argumentVector, rfl,
    readsAll_of_fits plain fit drop_argumentVector,
    completes_of_fits noMethod noResult fit drop_argumentVector⟩

variable (archives : Archives fractions Object)

/-- An archive gives back a value that was saved by value. -/
def Archives.GivesBack : Prop :=
  ∀ value type, Value.HasType value type →
    archives.load type (archives.saveValue value) = some value

/-- What the stub writes to the file of a parameter -/
def Archives.saved
    (value : Value fractions Object) :
    Saving → archives.Content
  | .byValue => archives.saveValue value
  | .byPointer => archives.savePointer value

/-- What the stub saves of an argument that is to be written can be loaded. -/
theorem loads_of_saved
    (givesBack : surroundings.archives.GivesBack)
    (member : arg ∈ func.arguments)
    (isWritten : arg.isWritten = true)
    (isSaved :
      surroundings.files (invocation.originalName (.named arg.name)) =
        (marshalArgument arg).saving.map (surroundings.archives.saved
          (invocation.value (.named arg.name)))) :
    invocation.Loads surroundings arg := by
  have byValue : (marshalArgument arg).saving = some .byValue := by
    have written : arg.dir ≠ .inDir ∧ arg.type ≠ .file := by
      simpa [Argument.isWritten] using isWritten
    cases dirIs : arg.dir with
    | inDir => exact absurd dirIs written.1
    | outDir | inoutDir => simp [marshalArgument, dirIs, written.2]
  rw [Invocation.Loads, isSaved, byValue]
  exact givesBack _ _ (invocation.typed arg member)

end Arguments

/-! ## Two calls -/

/-- Numbers without fractions -/
def wholeFractions : Fractions where
  Float := Int
  Double := Int
  floatText := wholeText
  doubleText := wholeText
  strtof text := (readWhole text).getD 0
  strtod text := (readWhole text).getD 0
  firstBytes _ := 0

theorem wholeFractions_agree : wholeFractions.Agree where
  strtof_floatText f := congrArg (Option.getD · 0) (@readWhole_wholeText f)
  strtod_doubleText d :=
    congrArg (Option.getD · 0) (@readWhole_wholeText d)

/-- Archives from which only values are loaded that were saved by value -/
def plainArchives : Archives wholeFractions Empty where
  Content := Option (Value wholeFractions Empty)
  saveValue := some
  savePointer _ := none
  load _ content := content

def sampleHeader : TaskHeader where
  executable := "worker_c".toList
  tracingActivated := false
  taskId := 3
  workerDebug := true
  storageConf := "null".toList
  declaringClass := "NULL".toList
  alternativeMethodName := "scale".toList
  slaveWorkersNodeNames := ["node1".toList]
  totalCPUComputingUnits := 1
  assignedCoreUnits := [0]

/-- `void scale(in int n, inout double d, in char c)` -/
def scaleFunction : SupportedFunction where
  name := "scale".toList
  methodname := "scale".toList
  classname := none
  accessStatic := false
  returnType := .void
  arguments := [⟨"n".toList, .int, .inDir⟩, ⟨"d".toList, .double, .inoutDir⟩,
    ⟨"c".toList, .char, .inDir⟩]
  distinct := by decide
  supported := by decide

def scaleInvocation : Invocation wholeFractions Empty scaleFunction where
  value
    | .named ['n'] => .int (-4)
    | .named ['d'] => .double (7 : Int)
    | _ => .char 65
  typed := by
    intro arg member
    simp only [scaleFunction, mem_cons, not_mem_nil,
      or_false] at member
    rcases member with rfl | rfl | rfl
    · exact .int _
    · exact .double _
    · exact .char _
  filename _ := "compss-serialized-obj_a1".toList
  originalName _ := "/tmp/sandbox/compss-serialized-obj_a1".toList

def scaleSurroundings : Surroundings wholeFractions Empty where
  archives := plainArchives
  files _ := some (some (.double (7 : Int)))
  fresh := []
  body _ := ⟨.int 0, .int 0, fun _ => .double (-28 : Int)⟩

theorem executorAgrees_scale :
    ExecutorAgrees scaleSurroundings sampleHeader scaleInvocation := by
  refine (executorAgrees_iff wholeFractions_agree).mpr ⟨rfl, rfl, ?_⟩
  intro arg member
  simp only [scaleFunction, mem_cons, not_mem_nil, or_false] at member
  rcases member with rfl | rfl | rfl
  · exact ⟨nofun, nofun, nofun⟩
  · exact .inr rfl
  · exact ⟨65, rfl, .inl (by decide)⟩

/-- `void toggle(in boolean b)` -/
def toggleFunction : SupportedFunction where
  name := "toggle".toList
  methodname := "toggle".toList
  classname := none
  accessStatic := false
  returnType := .void
  arguments := [⟨"b".toList, .boolean, .inDir⟩]
  distinct := by decide
  supported := by decide

def toggleInvocation : Invocation wholeFractions Empty toggleFunction where
  value _ := .int 0
  typed := by
    intro arg member
    obtain rfl := mem_singleton.mp member
    exact .boolean _
  filename _ := []
  originalName _ := []

/-- The executor reads a false truth value as a true one. -/
theorem not_executorAgrees_toggle :
    ¬ ExecutorAgrees scaleSurroundings sampleHeader toggleInvocation := by
  intro agrees
  obtain ⟨-, -, carried⟩ :=
    carried_of_executorAgrees wholeFractions_agree agrees
  have isTrue : int 0 = (int 1 : Value wholeFractions Empty) :=
    carried _ (mem_singleton.mpr rfl)
  exact absurd (int.inj isTrue) (by decide)

end DistributedRdf.CBinding
