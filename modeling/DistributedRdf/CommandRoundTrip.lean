import DistributedRdf.TaskCommand

namespace DistributedRdf.Piper

open Words NIOParam List DataType ExternalExecutor Option Value

/-!
# Tasks that are read as they were written

The fields of a command are found by counting words.  A field that is not one
word is never read as itself, and moves the fields behind it.
-/

section Recovery

variable
  {doubles : Doubles}
  {Object : Type}

/-- The value that the task should get -/
def ParamValue.sent : ParamValue doubles → Value doubles Object
  | .boolean value => .boolean value
  | .int value => .integer value
  | .long value => .integer value
  | .double value => .float value
  | .string value => .text value
  | .file originalName => .text originalName
  | .externalPsco id _ => .persistent id

def NIOParam.sent (np : NIOParam doubles) : Parameter doubles Object where
  pType := np.value.type.ordinal
  pStream := np.stream.ordinal
  pPrefix := np.pPrefix
  value := np.value.sent

def NIOTask.sent (nt : NIOTask doubles) : TaskParameters doubles Object where
  path := nt.declaringClass
  methodName := nt.alternativeMethodName
  slaves := nt.slaveWorkersNodeNames
  cus := decimal nt.totalCPUComputingUnits
  hasTarget := booleanText nt.hasTarget
  returnType := returnType nt
  parameters := nt.params.map NIOParam.sent

variable
  (executor : ExternalExecutor)
  (libraries : PythonLibraries Object)

/-- The Python process of an executor -/
def ExternalExecutor.process :
    PythonProcess Object where
  toPythonLibraries := libraries
  storageConf := executor.storageConf

variable (nt : NIOTask doubles)

/-- The task that is read is the one that was written. -/
def RoundTrips :
    Prop :=
  readCommand (executor.process libraries) (taskCMD executor nt) = .ok nt.sent

/-- The arguments around the fields of the task are words. -/
structure PlainSurroundings :
    Prop where
  outputs : ∀ char, char ∈ executor.outputsBasename → isBlank char = false
  storage : ∀ conf, executor.storage = some conf → IsWord conf.val
  returned :
    ∀ np, nt.returned = some np → ∀ text, text ∈ np.arguments → IsWord text

def ParamValue.Recoverable :
    ParamValue doubles → Prop
  | .string value =>
      SingleBlanked value ∧ libraries.deserializeFromString value = none
  | .file originalName => IsWord originalName
  | .externalPsco id _ =>
      executor.storage.isSome = true ∧ IsWord id ∧ libraries.getByID id = none
  | .boolean _ | .int _ | .long _ | .double _ => True

/-- The names are words, and slave nodes are named by their number. -/
structure NIOTask.Recoverable
    (executor : ExternalExecutor)
    (libraries : PythonLibraries Object)
    (nt : NIOTask doubles) :
    Prop where
  declaringClass : IsWord nt.declaringClass
  methodName : IsWord nt.alternativeMethodName
  slaves :
    ∀ name, name ∈ nt.slaveWorkersNodeNames →
      name = decimal nt.slaveWorkersNodeNames.length
  params :
    ∀ np, np ∈ nt.params →
      IsWord np.pPrefix ∧ np.value.Recoverable executor libraries

end Recovery

/-! ## Positions in the command -/

theorem mem_of_item
    {items : List Text}
    {i : Int}
    {text : Text}
    (found : item items i = .ok text) :
    text ∈ items := by
  rw [item] at found
  split at found
  · rename_i isItem
    obtain rfl := Except.ok.inj found
    split at isItem
    · exact mem_of_getElem? isItem
    · split at isItem
      · exact mem_of_getElem? isItem
      · cases isItem
  · cases found

/-- What remains of the line at a position was written as some texts, the last
word of which is cut off. -/
def Reads (args : List Text) (pos : Int) (texts : List Text) : Prop :=
  ∃ k : Nat, pos = k ∧ args.drop k = (lineWords texts).dropLast

namespace Reads

variable
  {args rest : List Text}
  {pos : Int}
  {text : Text}

theorem skip
    (reads : Reads args pos (text :: rest))
    (isWord : IsWord text) :
    Reads args (pos + 1) rest := by
  obtain ⟨k, rfl, remains⟩ := reads
  refine ⟨k + 1, rfl, ?_⟩
  rw [lineWords_cons isWord] at remains
  rw [← drop_drop, remains]
  cases lineWords rest with
  | nil => rfl
  | cons next later =>
      rw [dropLast_cons_cons, drop_one, tail_cons]

theorem item_eq
    {other : Text}
    (reads : Reads args pos (text :: rest))
    (isWord : IsWord text)
    (found : item args pos = .ok other) :
    other = text := by
  obtain ⟨k, rfl, remains⟩ := reads
  have first : (args.drop k)[0]? = some other := by
    rw [getElem?_drop]
    exact item_eq_ok_iff.mp found
  rw [remains, lineWords_cons isWord] at first
  cases later : lineWords rest with
  | nil =>
      rw [later] at first
      simp at first
  | cons next later' =>
      rw [later, dropLast_cons_cons, getElem?_cons_zero] at first
      exact (some.inj first).symm

/-- Positions in what is left of the arguments -/
theorem ofDrop
    {k : Nat}
    (reads : Reads args k rest) :
    Reads (args.drop k) 0 rest := by
  obtain ⟨j, same, remains⟩ := reads
  obtain rfl : k = j := Int.ofNat_inj.mp same
  exact ⟨0, rfl, by rw [drop_zero, remains]⟩

end Reads

/-- Some texts stand at a position of the arguments. -/
def Holds (args : List Text) (pos : Int) (texts : List Text) : Prop :=
  ∃ k : Nat, pos = k ∧ texts <+: args.drop k

namespace Holds

variable
  {args rest : List Text}
  {pos : Int}
  {text : Text}

theorem item
    (holds : Holds args pos (text :: rest)) :
    Piper.item args pos = .ok text := by
  obtain ⟨k, rfl, after, remains⟩ := holds
  rw [item_eq_ok_iff]
  have first : (args.drop k)[0]? = some text := by
    rw [← remains]
    rfl
  rwa [getElem?_drop] at first

theorem next
    (holds : Holds args pos (text :: rest)) :
    Holds args (pos + 1) rest := by
  obtain ⟨k, rfl, after, remains⟩ := holds
  refine ⟨k + 1, rfl, after, ?_⟩
  rw [← drop_drop, ← remains]
  rfl

theorem ofDrop
    {k : Nat}
    (holds : Holds args k rest) :
    Holds (args.drop k) 0 rest := by
  obtain ⟨j, same, isPrefix⟩ := holds
  obtain rfl : k = j := Int.ofNat_inj.mp same
  exact ⟨0, rfl, by rwa [drop_zero]⟩

end Holds

/-! ## Single parameters -/

section Parameters

variable
  {doubles : Doubles}
  {Object : Type}
  {executor : ExternalExecutor}
  {libraries : PythonLibraries Object}
  {args rest : List Text}
  {pos next : Int}

theorem storageConf_ne_null_iff :
    (executor.process libraries).persistentStorage =
      executor.storage.isSome := by
  unfold PythonProcess.persistentStorage process
    storageConf
  cases executor.storage with
  | none => rfl
  | some conf => exact decide_eq_true conf.property.2

variable
  {i : Int}
  {text : Text}

theorem pythonInt_eq_ok :
    pythonInt text = .ok i ↔ toInt text = some i := by
  unfold pythonInt
  cases toInt text with
  | none => simp
  | some found => simp

theorem pythonInt_decimal :
    pythonInt (decimal i) = .ok i :=
  pythonInt_eq_ok.mpr toInt_decimal

theorem pythonLong_decimal :
    pythonLong (decimal i) = .ok i := by
  rw [pythonLong, if_neg, pythonInt_decimal]
  rintro (isLast | isLast)
  · rcases mem_decimal (mem_of_getLast? isLast) with isSign | isDigit
    · exact absurd isSign (by decide)
    · exact absurd isDigit (by decide)
  · rcases mem_decimal (mem_of_getLast? isLast) with isSign | isDigit
    · exact absurd isSign (by decide)
    · exact absurd isDigit (by decide)

theorem isWord_booleanText {b : Bool} : IsWord (booleanText b) := by
  cases b with
  | false => decide
  | true => decide

theorem isWord_flag {writeFinalValue : Bool} :
    IsWord (if writeFinalValue then "W".toList else "R".toList) := by
  cases writeFinalValue with
  | false => decide
  | true => decide

variable {parts : List Text}

theorem mem_of_substrings
    {n : Nat}
    (found : substrings args pos n = .ok parts) :
    parts.length = n ∧ ∀ part, part ∈ parts → part ∈ args := by
  induction n generalizing pos parts with
  | zero =>
      obtain rfl := Except.ok.inj found
      exact ⟨rfl, fun _ member => nomatch member⟩
  | succ n hypothesis =>
      obtain ⟨first, firstFound, found⟩ := bind_eq_ok.mp found
      obtain ⟨later, laterFound, found⟩ := bind_eq_ok.mp found
      obtain rfl := Except.ok.inj found
      obtain ⟨length, members⟩ := hypothesis laterFound
      refine ⟨by rw [length_cons, length], fun part member => ?_⟩
      rcases mem_cons.mp member with rfl | member
      · exact mem_of_item firstFound
      · exact members part member

variable
  {pValue : Text}
  {process : PythonProcess Object}

theorem parameterValue_externalPsco :
    (parameterValue process args pos externalPsco.ordinal pValue :
      Except PythonException (Value doubles Object × Int)) =
      if process.persistentStorage then
        match process.getByID pValue with
        | some exception => .error exception
        | none => .ok (.persistent pValue, 5)
      else
        .error .systemExit := by
  by_cases persistent : process.persistentStorage = true
  · rw [parameterValue, if_neg (by decide), if_pos ⟨rfl, persistent⟩]
    exact (if_pos persistent).symm
  · rw [if_neg persistent]
    simp [parameterValue, ordinal, persistent]

variable (process)

theorem parameterValue_double
    (args : List Text)
    (pos : Int)
    {d : doubles.Double}
    (float : doubles.float pValue = some d) :
    parameterValue process args pos double.ordinal pValue =
      .ok (.float d, 4) := by
  simp [parameterValue, ordinal, float]

/-- Any number of words -/
theorem Reads.skipAll
    {texts : List Text}
    (reads : Reads args pos (texts ++ rest))
    (allWords : ∀ text, text ∈ texts → IsWord text) :
    Reads args (pos + texts.length) rest := by
  induction texts generalizing pos with
  | nil => rwa [length_nil, Int.natCast_zero, Int.add_zero]
  | cons text texts hypothesis =>
      have skipped :=
        hypothesis (reads.skip (allWords text mem_cons_self))
          fun other member => allWords other (mem_cons_of_mem text member)
      rwa [Int.add_assoc, Int.add_comm 1, ← Int.natCast_succ] at skipped

variable {np : NIOParam doubles}

/-- A value that is read as the one that was sent -/
theorem recoverable_of_parameterValue
    {distance : Int}
    (agree : doubles.Agree)
    (allWords : ∀ word, word ∈ args → IsWord word)
    (reads : Reads args (pos + 3) (np.value.arguments ++ rest))
    (valueFound : item args (pos + 3) = .ok pValue)
    (found :
      parameterValue (executor.process libraries) args pos
        np.value.type.ordinal pValue = .ok (np.value.sent, distance)) :
    np.value.Recoverable executor libraries ∧
      Reads args (pos + distance) rest := by
  have ofWord : ∀ {text : Text}, IsWord text →
      Reads args (pos + 3) (text :: rest) → Reads args (pos + 4) rest :=
    fun isWord reads => by
      have skipped := reads.skip isWord
      rwa [Int.add_assoc] at skipped
  cases value : np.value with
  | boolean b =>
      rw [value] at reads found
      obtain ⟨-, rfl⟩ := Prod.mk.inj (Except.ok.inj found)
      exact ⟨trivial, ofWord isWord_booleanText reads⟩
  | int _ | long _ =>
      rw [value] at reads found
      obtain ⟨read, -, found⟩ := bind_eq_ok.mp found
      obtain ⟨-, rfl⟩ := Prod.mk.inj (Except.ok.inj found)
      exact ⟨trivial, ofWord isWord_decimal reads⟩
  | double d =>
      rw [value] at reads found
      obtain rfl := reads.item_eq (agree.isWord d) valueFound
      have read := parameterValue_double (executor.process libraries) args pos
        (agree.float_toText d)
      obtain ⟨-, rfl⟩ := Prod.mk.inj (Except.ok.inj (read.symm.trans found))
      exact ⟨trivial, ofWord (agree.isWord d) reads⟩
  | file originalName =>
      rw [value] at reads found
      obtain ⟨sameName, rfl⟩ := Prod.mk.inj (Except.ok.inj found)
      obtain rfl := text.inj sameName
      have isWord := allWords _ (mem_of_item valueFound)
      exact ⟨isWord, ofWord isWord reads⟩
  | externalPsco id writeFinalValue =>
      rw [value] at reads found
      change parameterValue _ args pos externalPsco.ordinal pValue = _
        at found
      rw [parameterValue_externalPsco, storageConf_ne_null_iff] at found
      split at found
      · rename_i enabled
        split at found
        · cases found
        · rename_i stored
          obtain ⟨sameId, rfl⟩ := Prod.mk.inj (Except.ok.inj found)
          obtain rfl := persistent.inj sameId
          have isWord := allWords _ (mem_of_item valueFound)
          have skipped := (reads.skip isWord).skip isWord_flag
          rw [Int.add_assoc, Int.add_assoc] at skipped
          exact ⟨⟨enabled, isWord, stored⟩, skipped⟩
      · cases found
  | string s =>
      rw [value] at reads found
      obtain rfl := reads.item_eq isWord_decimal valueFound
      obtain ⟨count, countRead, found⟩ := bind_eq_ok.mp found
      obtain rfl := Except.ok.inj (pythonInt_decimal.symm.trans countRead)
      obtain ⟨parts, partsFound, found⟩ := bind_eq_ok.mp found
      obtain ⟨length, members⟩ := mem_of_substrings partsFound
      dsimp only at found
      split at found
      · obtain ⟨sameValue, -⟩ := Prod.mk.inj (Except.ok.inj found)
        cases sameValue
      · rename_i noObject
        obtain ⟨sameText, rfl⟩ := Prod.mk.inj (Except.ok.inj found)
        have same := text.inj sameText
        have single : SingleBlanked s := singleBlanked_of_joined length
          (fun part member => allWords part (members part member)) same
        have skipped := (reads.skip isWord_decimal).skipAll fun part member =>
          single.isWord_of_mem member
        rw [Int.add_assoc, Int.add_assoc, ← Int.add_assoc 3] at skipped
        exact ⟨⟨single, same ▸ noObject⟩, skipped⟩

/-- A parameter that is read as the one that was sent -/
theorem recoverable_of_parameter
    (agree : doubles.Agree)
    (allWords : ∀ word, word ∈ args → IsWord word)
    (reads : Reads args pos (np.arguments ++ rest))
    (found :
      parameter (executor.process libraries) args pos = .ok (np.sent, next)) :
    (IsWord np.pPrefix ∧ np.value.Recoverable executor libraries) ∧
      Reads args next rest := by
  obtain ⟨typeText, typeItem, found⟩ := bind_eq_ok.mp found
  obtain ⟨pType, typeRead, found⟩ := bind_eq_ok.mp found
  obtain ⟨streamText, streamItem, found⟩ := bind_eq_ok.mp found
  obtain ⟨pStream, streamRead, found⟩ := bind_eq_ok.mp found
  obtain ⟨pPrefix, prefixItem, found⟩ := bind_eq_ok.mp found
  obtain ⟨pValue, valueItem, found⟩ := bind_eq_ok.mp found
  obtain ⟨⟨value, distance⟩, valueRead, found⟩ := bind_eq_ok.mp found
  obtain ⟨same, rfl⟩ := Prod.mk.inj (Except.ok.inj found)
  obtain ⟨rfl, rfl, rfl, rfl⟩ := Parameter.mk.inj same
  have prefixWord : IsWord np.pPrefix := allWords _ (mem_of_item prefixItem)
  have atValue := ((reads.skip isWord_decimal).skip isWord_decimal).skip prefixWord
  rw [Int.add_assoc, Int.add_assoc] at atValue
  obtain ⟨recoverable, after⟩ :=
    recoverable_of_parameterValue agree allWords atValue valueItem valueRead
  exact ⟨⟨prefixWord, recoverable⟩, after⟩

variable
  {params : List (NIOParam doubles)}
  (agree : doubles.Agree)

include agree

theorem recoverable_of_parameters
    (allWords : ∀ word, word ∈ args → IsWord word)
    (reads : Reads args pos (params.flatMap arguments ++ rest))
    (found :
      parameters (executor.process libraries) args params.length pos =
        .ok (params.map NIOParam.sent)) :
    ∀ np, np ∈ params →
      IsWord np.pPrefix ∧ np.value.Recoverable executor libraries := by
  induction params generalizing pos with
  | nil => exact fun np member => nomatch member
  | cons first later hypothesis =>
      obtain ⟨⟨read, next⟩, firstRead, found⟩ := bind_eq_ok.mp found
      obtain ⟨laterRead, laterFound, found⟩ := bind_eq_ok.mp found
      obtain ⟨rfl, rfl⟩ := cons.inj (Except.ok.inj found)
      rw [flatMap_cons, append_assoc] at reads
      obtain ⟨recoverable, after⟩ :=
        recoverable_of_parameter agree allWords reads firstRead
      intro np member
      rcases mem_cons.mp member with rfl | member
      · exact recoverable
      · exact hypothesis after laterFound np member

/-- Recoverable parameters are written as words. -/
theorem isWord_of_mem_arguments
    (prefixWord : IsWord np.pPrefix)
    (recoverable : np.value.Recoverable executor libraries)
    (member : text ∈ np.arguments) :
    IsWord text := by
  simp only [arguments, mem_cons] at member
  rcases member with rfl | rfl | rfl | member
  · exact isWord_decimal
  · exact isWord_decimal
  · exact prefixWord
  · cases value : np.value with
    | boolean b =>
        rw [value] at member
        obtain rfl := mem_singleton.mp member
        exact isWord_booleanText
    | int _ | long _ =>
        rw [value] at member
        obtain rfl := mem_singleton.mp member
        exact isWord_decimal
    | double d =>
        rw [value] at member
        obtain rfl := mem_singleton.mp member
        exact agree.isWord d
    | file originalName =>
        rw [value] at member recoverable
        obtain rfl := mem_singleton.mp member
        exact recoverable
    | externalPsco id writeFinalValue =>
        rw [value] at member recoverable
        simp only [ParamValue.arguments, mem_cons, not_mem_nil,
          or_false] at member
        rcases member with rfl | rfl
        · exact recoverable.2.1
        · exact isWord_flag
    | string s =>
        rw [value] at member recoverable
        rcases mem_cons.mp member with rfl | member
        · exact isWord_decimal
        · exact recoverable.1.isWord_of_mem member

omit agree in
theorem substrings_of_holds
    (holds : Holds args pos (parts ++ rest)) :
    substrings args pos parts.length = .ok parts ∧
      Holds args (pos + parts.length) rest := by
  induction parts generalizing pos with
  | nil =>
      refine ⟨rfl, ?_⟩
      rwa [length_nil, Int.natCast_zero, Int.add_zero]
  | cons part later hypothesis =>
      obtain ⟨laterFound, after⟩ := hypothesis holds.next
      rw [Int.add_assoc, Int.add_comm 1, ← Int.natCast_succ] at after
      exact ⟨bind_eq_ok.mpr ⟨part, holds.item,
        bind_eq_ok.mpr ⟨later, laterFound, rfl⟩⟩, after⟩

/-- A value that is written so that it can be read again -/
theorem parameterValue_of_recoverable
    {value : ParamValue doubles}
    (recoverable : value.Recoverable executor libraries)
    (holds : Holds args (pos + 3) (value.arguments ++ rest)) :
    ∃ pValue distance, item args (pos + 3) = .ok pValue ∧
      parameterValue (executor.process libraries) args pos value.type.ordinal
        pValue = .ok (value.sent, distance) ∧
      Holds args (pos + distance) rest := by
  have afterOne : ∀ {text : Text}, Holds args (pos + 3) (text :: rest) →
      Holds args (pos + 4) rest :=
    fun holds => by
      have after := holds.next
      rwa [Int.add_assoc] at after
  cases value with
  | boolean b =>
      refine ⟨_, 4, holds.item, ?_, afterOne holds⟩
      cases b with
      | false => rfl
      | true => rfl
  | int i =>
      exact ⟨_, 4, holds.item, bind_eq_ok.mpr ⟨i, pythonInt_decimal, rfl⟩,
        afterOne holds⟩
  | long i =>
      exact ⟨_, 4, holds.item, bind_eq_ok.mpr ⟨i, pythonLong_decimal, rfl⟩,
        afterOne holds⟩
  | double d =>
      exact ⟨_, 4, holds.item,
        parameterValue_double (executor.process libraries) args pos
          (agree.float_toText d),
        afterOne holds⟩
  | file originalName => exact ⟨_, 4, holds.item, rfl, afterOne holds⟩
  | externalPsco id writeFinalValue =>
      obtain ⟨enabled, -, stored⟩ := recoverable
      refine ⟨_, 5, holds.item, ?_, ?_⟩
      · change parameterValue _ args pos externalPsco.ordinal id = _
        have found : (executor.process libraries).getByID id = none := stored
        rw [parameterValue_externalPsco, storageConf_ne_null_iff,
          if_pos enabled, found]
        rfl
      · have after := holds.next.next
        rwa [Int.add_assoc, Int.add_assoc] at after
  | string s =>
      obtain ⟨single, noObject⟩ := recoverable
      have atParts := holds.next
      rw [Int.add_assoc] at atParts
      obtain ⟨partsFound, after⟩ := substrings_of_holds atParts
      rw [Int.add_assoc] at after
      refine ⟨_, 4 + (splitAtBlanks s).length, holds.item, ?_, after⟩
      refine bind_eq_ok.mpr ⟨_, pythonInt_decimal,
        bind_eq_ok.mpr ⟨_, partsFound, ?_⟩⟩
      have same : joined (splitAtBlanks s) = s := by
        rw [splitAtBlanks_eq_splitOn single, joined_splitOn]
      have noObject : (executor.process libraries).deserializeFromString s =
        none := noObject
      simp only [same, noObject]
      rfl

theorem parameter_of_recoverable
    (recoverable : np.value.Recoverable executor libraries)
    (holds : Holds args pos (np.arguments ++ rest)) :
    ∃ next, parameter (executor.process libraries) args pos =
      .ok (np.sent, next) ∧ Holds args next rest := by
  have atPrefix := holds.next.next
  have atValue := atPrefix.next
  rw [Int.add_assoc] at atPrefix
  rw [Int.add_assoc, Int.add_assoc] at atValue
  obtain ⟨pValue, distance, valueItem, valueRead, after⟩ :=
    parameterValue_of_recoverable agree recoverable atValue
  refine ⟨pos + distance, ?_, after⟩
  refine bind_eq_ok.mpr ⟨_, holds.item, ?_⟩
  refine bind_eq_ok.mpr ⟨_, pythonInt_decimal, ?_⟩
  refine bind_eq_ok.mpr ⟨_, holds.next.item, ?_⟩
  refine bind_eq_ok.mpr ⟨_, pythonInt_decimal, ?_⟩
  refine bind_eq_ok.mpr ⟨_, atPrefix.item, ?_⟩
  refine bind_eq_ok.mpr ⟨_, valueItem, ?_⟩
  exact bind_eq_ok.mpr ⟨_, valueRead, rfl⟩

theorem parameters_of_recoverable
    (recoverable :
      ∀ np, np ∈ params → np.value.Recoverable executor libraries)
    (holds : Holds args pos (params.flatMap arguments ++ rest)) :
    parameters (executor.process libraries) args params.length pos =
      .ok (params.map NIOParam.sent) := by
  induction params generalizing pos with
  | nil => rfl
  | cons first later hypothesis =>
      rw [flatMap_cons, append_assoc] at holds
      obtain ⟨next, firstRead, after⟩ := parameter_of_recoverable agree
        (recoverable first mem_cons_self) holds
      refine bind_eq_ok.mpr ⟨_, firstRead, bind_eq_ok.mpr ⟨_, ?_, rfl⟩⟩
      exact hypothesis
        (fun np member => recoverable np (mem_cons_of_mem first member))
        after

end Parameters

/-! ## The fields of the task -/

section Fields

variable
  {doubles : Doubles}
  {Object : Type}
  {executor : ExternalExecutor}
  {libraries : PythonLibraries Object}
  {nt : NIOTask doubles}
  {args rest : List Text}
  {pos : Int}
  {previous : Text}
  {names : List Text}

/-- The slaves are read one place too early. -/
theorem eq_of_mem_slaves
    (reads : Reads args pos (previous :: (names ++ rest)))
    (isWord : IsWord previous)
    (found : substrings args pos names.length = .ok names) :
    ∀ name, name ∈ names → name = previous := by
  induction names generalizing pos previous with
  | nil => exact fun name member => nomatch member
  | cons first later hypothesis =>
      obtain ⟨read, firstItem, found⟩ := bind_eq_ok.mp found
      obtain ⟨laterRead, laterFound, found⟩ := bind_eq_ok.mp found
      obtain ⟨rfl, rfl⟩ := cons.inj (Except.ok.inj found)
      obtain rfl := reads.item_eq isWord firstItem
      intro name member
      rcases mem_cons.mp member with rfl | member
      · rfl
      · exact hypothesis (reads.skip isWord) isWord laterFound name
          member

theorem substrings_of_same
    (same : ∀ name, name ∈ names → name = previous)
    (holds : Holds args pos (previous :: (names ++ rest))) :
    substrings args pos names.length = .ok names := by
  induction names generalizing pos with
  | nil => rfl
  | cons first later hypothesis =>
      obtain rfl := same first mem_cons_self
      have laterFound := hypothesis
        (fun name member => same name (mem_cons_of_mem first member))
        holds.next
      exact bind_eq_ok.mpr ⟨first, holds.item,
        bind_eq_ok.mpr ⟨later, laterFound, rfl⟩⟩

theorem itemsFrom_natCast {items : List Text} {k : Nat} :
    itemsFrom items k = items.drop k := by
  rw [itemsFrom, if_pos (Int.natCast_nonneg k), Int.toNat_natCast]

theorem isWord_returnType : IsWord (returnType nt) := by
  have isWordNull : IsWord "null".toList := by decide
  unfold returnType
  cases nt.returned with
  | none => exact isWordNull
  | some np => exact isWord_decimal

/-- The arguments behind the slaves -/
def fieldArguments (nt : NIOTask doubles) : List Text :=
  [decimal nt.totalCPUComputingUnits, booleanText nt.hasTarget, returnType nt,
    decimal nt.params.length]

theorem methodArguments_append {texts : List Text} :
    methodArguments nt ++ texts =
      nt.declaringClass :: nt.alternativeMethodName ::
        decimal nt.slaveWorkersNodeNames.length ::
          (nt.slaveWorkersNodeNames ++ (fieldArguments nt ++ texts)) := by
  simp [methodArguments, fieldArguments]

theorem recoverable_of_taskParameters
    (agree : doubles.Agree)
    (allWords : ∀ word, word ∈ args → IsWord word)
    (reads :
      Reads args 0
        (methodArguments nt ++ (nt.params.flatMap arguments ++ rest)))
    (found :
      taskParameters (executor.process libraries) args = .ok nt.sent) :
    nt.Recoverable executor libraries := by
  obtain ⟨path, pathItem, found⟩ := bind_eq_ok.mp found
  obtain ⟨methodName, methodItem, found⟩ := bind_eq_ok.mp found
  obtain ⟨countText, countItem, found⟩ := bind_eq_ok.mp found
  obtain ⟨numSlaves, countRead, found⟩ := bind_eq_ok.mp found
  obtain ⟨slaves, slavesFound, found⟩ := bind_eq_ok.mp found
  obtain ⟨cus, cusItem, found⟩ := bind_eq_ok.mp found
  obtain ⟨hasTarget, targetItem, found⟩ := bind_eq_ok.mp found
  obtain ⟨read, returnItem, found⟩ := bind_eq_ok.mp found
  obtain ⟨numText, numItem, found⟩ := bind_eq_ok.mp found
  obtain ⟨numParams, numRead, found⟩ := bind_eq_ok.mp found
  obtain ⟨sent, paramsRead, found⟩ := bind_eq_ok.mp found
  obtain ⟨rfl, rfl, rfl, rfl, rfl, rfl, rfl⟩ :=
    TaskParameters.mk.inj (Except.ok.inj found)
  have pathWord : IsWord nt.declaringClass :=
    allWords _ (mem_of_item pathItem)
  have methodWord : IsWord nt.alternativeMethodName :=
    allWords _ (mem_of_item methodItem)
  rw [methodArguments_append] at reads
  have atCount : Reads args 2 (decimal nt.slaveWorkersNodeNames.length ::
      (nt.slaveWorkersNodeNames ++ (fieldArguments nt ++
        (nt.params.flatMap arguments ++ rest)))) :=
    (reads.skip pathWord).skip methodWord
  obtain rfl := atCount.item_eq isWord_decimal countItem
  obtain rfl := Except.ok.inj (pythonInt_decimal.symm.trans countRead)
  have same := eq_of_mem_slaves atCount isWord_decimal slavesFound
  have atFields : Reads args (3 + nt.slaveWorkersNodeNames.length : Nat)
      (fieldArguments nt ++
        (nt.params.flatMap arguments ++ rest)) := by
    rw [Int.natCast_add]
    exact (atCount.skip isWord_decimal).skipAll fun name member =>
      same name member ▸ isWord_decimal
  have fieldsFrom : itemsFrom args (3 + nt.slaveWorkersNodeNames.length) =
      args.drop (3 + nt.slaveWorkersNodeNames.length) :=
    itemsFrom_natCast
  simp only [fieldsFrom] at numItem paramsRead
  have atTarget := (atFields.ofDrop.skip isWord_decimal).ofDrop
  have atNumber := (atTarget.skip isWord_booleanText).skip isWord_returnType
  obtain rfl := atNumber.item_eq isWord_decimal numItem
  obtain rfl := Except.ok.inj (pythonInt_decimal.symm.trans numRead)
  refine ⟨pathWord, methodWord, same, ?_⟩
  refine recoverable_of_parameters agree (fun word member => ?_)
    (atNumber.skip isWord_decimal).ofDrop paramsRead
  exact allWords word
    (mem_of_mem_drop (mem_of_mem_drop (mem_of_mem_drop member)))

theorem taskParameters_of_recoverable
    (agree : doubles.Agree)
    (recoverable : nt.Recoverable executor libraries)
    (holds :
      Holds args 0
        (methodArguments nt ++ (nt.params.flatMap arguments ++ rest))) :
    taskParameters (executor.process libraries) args = .ok nt.sent := by
  rw [methodArguments_append] at holds
  have atCount := holds.next.next
  have slavesFound := substrings_of_same recoverable.slaves atCount
  have atFields : Holds args (3 + nt.slaveWorkersNodeNames.length : Nat)
      (fieldArguments nt ++
        (nt.params.flatMap arguments ++ rest)) := by
    rw [Int.natCast_add]
    exact (substrings_of_holds atCount.next).2
  have fieldsFrom : itemsFrom args (3 + nt.slaveWorkersNodeNames.length) =
      args.drop (3 + nt.slaveWorkersNodeNames.length) :=
    itemsFrom_natCast
  have atTarget := atFields.ofDrop.next.ofDrop
  have atNumber := atTarget.next.next
  have paramsRead := parameters_of_recoverable agree
    (fun np member => (recoverable.params np member).2) atNumber.next.ofDrop
  refine bind_eq_ok.mpr ⟨_, holds.item, ?_⟩
  refine bind_eq_ok.mpr ⟨_, holds.next.item, ?_⟩
  refine bind_eq_ok.mpr ⟨_, atCount.item, ?_⟩
  refine bind_eq_ok.mpr ⟨_, pythonInt_decimal, ?_⟩
  refine bind_eq_ok.mpr ⟨_, slavesFound, ?_⟩
  simp only [fieldsFrom]
  refine bind_eq_ok.mpr ⟨_, atFields.ofDrop.item, ?_⟩
  refine bind_eq_ok.mpr ⟨_, atTarget.item, ?_⟩
  refine bind_eq_ok.mpr ⟨_, atTarget.next.item, ?_⟩
  refine bind_eq_ok.mpr ⟨_, atNumber.item, ?_⟩
  refine bind_eq_ok.mpr ⟨_, pythonInt_decimal, ?_⟩
  exact bind_eq_ok.mpr ⟨_, paramsRead, rfl⟩

/-! ## The line of the task -/

variable (executor)

/-- The texts before the first field that is recovered -/
def lineStart
    (nt : NIOTask doubles) :
    List Text :=
  "task".toList :: decimal nt.jobId ::
    (executor.outputsBasename ++ ".out".toList) ::
    (executor.outputsBasename ++ ".err".toList) :: taskArguments executor nt

/-- The texts after the last field that is recovered -/
def lineEnd
    (nt : NIOTask doubles) :
    List Text :=
  nt.returned.toList.flatMap arguments ++
    [threadAffinity executor.assignedCoreUnits]

/-- All texts that the command is joined from -/
def lineTexts
    (nt : NIOTask doubles) :
    List Text :=
  lineStart executor nt ++ (methodArguments nt ++
    (nt.params.flatMap arguments ++ lineEnd executor nt))

variable
  {texts : List Text}
  {executor}
  {text : Text}

theorem joined_cons
    (nonempty : texts ≠ []) :
    joined (text :: texts) = text ++ ' ' :: joined texts := by
  obtain ⟨next, later, rfl⟩ := exists_cons_of_ne_nil nonempty
  simp [joined, intercalate_cons_cons]

theorem taskCMD_eq :
    taskCMD executor nt = joined (lineTexts executor nt) ++ ['\n'] := by
  have texts : lineTexts executor nt =
      "task".toList :: decimal nt.jobId ::
        (executor.outputsBasename ++ ".out".toList) ::
        (executor.outputsBasename ++ ".err".toList) ::
        externalArguments executor nt := by
    simp [lineTexts, lineStart, lineEnd, externalArguments, addArguments]
  have nonempty : externalArguments executor nt ≠ [] := by
    simp [externalArguments]
  rw [texts, joined_cons (cons_ne_nil _ _),
    joined_cons (cons_ne_nil _ _), joined_cons (cons_ne_nil _ _),
    joined_cons nonempty, taskCMD, getArgumentsAsString]
  simp only [append_assoc, cons_append]

theorem words_taskCMD :
    words ((taskCMD executor nt).takeWhile (· ≠ '\n')) =
      lineWords (lineTexts executor nt) := by
  rw [taskCMD_eq, lineWords]

theorem isWord_commaSeparated
    {parts : List Text}
    (nonempty : parts ≠ [])
    (allWords : ∀ part, part ∈ parts → IsWord part) :
    IsWord ([','].intercalate parts) := by
  induction parts with
  | nil => exact absurd rfl nonempty
  | cons part later hypothesis =>
      have first := allWords part mem_cons_self
      cases later with
      | nil => rwa [intercalate_singleton]
      | cons next later =>
          have rest := hypothesis (cons_ne_nil next later)
            fun other member => allWords other (mem_cons_of_mem part member)
          rw [intercalate_cons_cons]
          refine ⟨by simp [first.1], fun char member => ?_⟩
          rcases mem_append.mp member with member | member
          · rcases mem_append.mp member with member | member
            · exact first.2 char member
            · obtain rfl := mem_singleton.mp member
              rfl
          · exact rest.2 char member

variable {units : List Int}

theorem isWord_threadAffinity :
    IsWord (threadAffinity units) := by
  have isWordDash : IsWord "-".toList := by decide
  unfold threadAffinity
  split
  · exact isWordDash
  · rename_i nonempty
    refine isWord_commaSeparated (by simpa using nonempty) fun part member => ?_
    obtain ⟨unit, -, rfl⟩ := mem_map.mp member
    exact isWord_decimal

theorem mapM_pythonInt :
    (units.map decimal).mapM pythonInt = .ok units := by
  induction units with
  | nil => rfl
  | cons unit later hypothesis =>
      rw [map_cons, mapM_cons]
      exact bind_eq_ok.mpr ⟨unit, pythonInt_decimal,
        bind_eq_ok.mpr ⟨later, hypothesis, rfl⟩⟩

theorem bindCpus_threadAffinity :
    ∃ cpus, bindCpus (threadAffinity units) = .ok cpus := by
  unfold bindCpus
  split
  · exact ⟨[], rfl⟩
  · rename_i noDash
    have nonempty : units ≠ [] := fun isEmpty => noDash (if_pos isEmpty)
    have noComma : ∀ part, part ∈ units.map decimal → ',' ∉ part := by
      intro part isPart member
      obtain ⟨unit, -, rfl⟩ := mem_map.mp isPart
      rcases mem_decimal member with isSign | isDigit
      · exact absurd isSign (by decide)
      · exact absurd isDigit (by decide)
    refine ⟨units, ?_⟩
    rw [threadAffinity, if_neg nonempty,
      splitOn_intercalate ',' noComma (by simpa using nonempty),
      mapM_pythonInt]

theorem isWord_output
    {basename suffix : Text}
    (plain : ∀ char, char ∈ basename → isBlank char = false)
    (isWord : IsWord suffix) :
    IsWord (basename ++ suffix) := by
  refine ⟨by simp [isWord.1], fun char member => ?_⟩
  rcases mem_append.mp member with member | member
  · exact plain char member
  · exact isWord.2 char member

theorem isWord_of_mem_lineStart
    (surroundings : PlainSurroundings executor nt)
    (member : text ∈ lineStart executor nt) :
    IsWord text := by
  have storageWord : IsWord executor.storageConf := by
    have isWordNull : IsWord "null".toList := by decide
    unfold storageConf
    cases storage : executor.storage with
    | none => exact isWordNull
    | some conf => exact surroundings.storage conf storage
  simp only [lineStart, taskArguments, mem_cons, not_mem_nil,
    or_false] at member
  rcases member with rfl | rfl | rfl | rfl | rfl | rfl | rfl | rfl | rfl
  · decide
  · exact isWord_decimal
  · exact isWord_output surroundings.outputs (by decide)
  · exact isWord_output surroundings.outputs (by decide)
  · exact isWord_booleanText
  · exact isWord_decimal
  · exact isWord_booleanText
  · exact storageWord
  · decide

/-- The texts of a recoverable task are words. -/
theorem isWord_of_mem_lineTexts
    (agree : doubles.Agree)
    (surroundings : PlainSurroundings executor nt)
    (recoverable : nt.Recoverable executor libraries)
    (member : text ∈ lineTexts executor nt) :
    IsWord text := by
  rw [lineTexts, methodArguments_append] at member
  simp only [mem_append, mem_cons] at member
  rcases member with member | rfl | rfl | rfl | member | member | member |
    member
  · exact isWord_of_mem_lineStart surroundings member
  · exact recoverable.declaringClass
  · exact recoverable.methodName
  · exact isWord_decimal
  · exact recoverable.slaves text member ▸ isWord_decimal
  · simp only [fieldArguments, mem_cons, not_mem_nil,
      or_false] at member
    rcases member with rfl | rfl | rfl | rfl
    · exact isWord_decimal
    · exact isWord_booleanText
    · exact isWord_returnType
    · exact isWord_decimal
  · obtain ⟨np, isParam, member⟩ := mem_flatMap.mp member
    obtain ⟨prefixWord, value⟩ := recoverable.params np isParam
    exact isWord_of_mem_arguments agree prefixWord value member
  · rcases mem_append.mp member with member | member
    · obtain ⟨np, isReturned, member⟩ := mem_flatMap.mp member
      exact surroundings.returned np (mem_toList.mp isReturned) text
        member
    · obtain rfl := mem_singleton.mp member
      exact isWord_threadAffinity

theorem params_of_taskLine
    {line : TaskLine}
    (found : taskLine texts = .ok line) :
    line.params = texts.dropLast.drop 9 := by
  obtain ⟨cpus, -, found⟩ := bind_eq_ok.mp found
  obtain ⟨bound, -, found⟩ := bind_eq_ok.mp found
  obtain ⟨jobId, -, found⟩ := bind_eq_ok.mp found
  obtain ⟨jobOut, -, found⟩ := bind_eq_ok.mp found
  obtain ⟨jobErr, -, found⟩ := bind_eq_ok.mp found
  rw [← Except.ok.inj found]

theorem item_last {last : Text} :
    item (texts ++ [last]) (-1) = .ok last := by
  have isNegative : ¬ (0 : Int) ≤ -1 := by decide
  have isInside : (0 : Int) ≤ -1 + (texts ++ [last]).length := by
    rw [length_append, length_singleton]
    omega
  have position : (-1 + ((texts ++ [last]).length : Int)).toNat =
      texts.length := by
    rw [length_append, length_singleton]
    omega
  unfold item
  simp only [if_neg isNegative, if_pos isInside, position]
  rw [getElem?_concat_length]

/-- The words before the last one, and the processors of the last one -/
theorem taskLine_of_words
    {task jobId jobOut jobErr : Text}
    {later : List Text} :
    taskLine (task :: jobId :: jobOut :: jobErr :: later ++
        [threadAffinity units]) =
      .ok ⟨jobId, jobOut, jobErr,
        (task :: jobId :: jobOut :: jobErr :: later).drop 9⟩ := by
  have binds : ∃ cpus, bindCpus (threadAffinity units) = .ok cpus :=
    bindCpus_threadAffinity
  obtain ⟨cpus, bound⟩ := binds
  refine bind_eq_ok.mpr ⟨_, item_last, ?_⟩
  refine bind_eq_ok.mpr ⟨cpus, bound, ?_⟩
  simp only [dropLast_concat]
  rfl

/-- The command gives the task back exactly when its names, prefixes and values
can be recovered. -/
theorem roundTrips_iff
    (agree : doubles.Agree)
    (surroundings : PlainSurroundings executor nt) :
    RoundTrips executor libraries nt ↔ nt.Recoverable executor libraries := by
  unfold RoundTrips readCommand
  rw [words_taskCMD]
  constructor
  · intro roundTrip
    obtain ⟨line, lineRead, found⟩ := bind_eq_ok.mp roundTrip
    rw [params_of_taskLine lineRead] at found
    have atStart : Reads (lineWords (lineTexts executor nt)).dropLast 0
        (lineTexts executor nt) :=
      ⟨0, rfl, rfl⟩
    have atFields := atStart.skipAll fun text =>
      isWord_of_mem_lineStart surroundings
    refine recoverable_of_taskParameters agree (fun word member => ?_)
      atFields.ofDrop found
    exact isWord_of_mem_lineWords
      (dropLast_subset _ (mem_of_mem_drop member))
  · intro recoverable
    rw [lineWords_eq_self fun text =>
      isWord_of_mem_lineTexts agree surroundings recoverable]
    have texts : lineTexts executor nt =
        lineStart executor nt ++ (methodArguments nt ++
          (nt.params.flatMap arguments ++
            nt.returned.toList.flatMap arguments)) ++
          [threadAffinity executor.assignedCoreUnits] := by
      simp only [lineTexts, lineEnd, append_assoc]
    rw [texts]
    refine bind_eq_ok.mpr ⟨_, taskLine_of_words, ?_⟩
    exact taskParameters_of_recoverable agree recoverable
      ⟨0, rfl, prefix_refl _⟩

end Fields

def wholeText (d : Int) : Text :=
  decimal d ++ ".0".toList

def readWhole (text : Text) : Option Int :=
  if text.drop (text.length - 2) = ".0".toList then
    toInt (text.take (text.length - 2))
  else
    none

theorem readWhole_wholeText {d : Int} : readWhole (wholeText d) = some d := by
  have length : (decimal d ++ ".0".toList).length - 2 = (decimal d).length := by
    rw [length_append]
    exact Nat.add_sub_cancel _ 2
  rw [readWhole, wholeText, length, drop_left, if_pos rfl, take_left]
  exact toInt_decimal

/-- Doubles without a fraction -/
def wholeDoubles : Doubles where
  Double := Int
  toText := wholeText
  float := readWhole

theorem wholeDoubles_agree : wholeDoubles.Agree where
  isWord _ := isWord_output isWord_decimal.2 (by decide)
  float_toText _ := readWhole_wholeText

def sampleExecutor : ExternalExecutor where
  tracingActivated := false
  storage := some ⟨"redis.conf".toList, by decide⟩
  outputsBasename := "/tmp/jobs/job1_NEW".toList
  assignedCoreUnits := [0, 2]

/-- Strings are never objects, and every identifier is stored. -/
def plainLibraries : PythonLibraries Empty where
  getByID _ := none
  deserializeFromString _ := none

/-- A task with a string, a file, a double and a persistent object -/
def sampleTask : NIOTask wholeDoubles where
  jobId := 1
  taskId := 7
  workerDebug := true
  declaringClass := "app.tasks".toList
  alternativeMethodName := "run".toList
  slaveWorkersNodeNames := []
  totalCPUComputingUnits := 2
  hasTarget := false
  params := [
    ⟨.unspecified, "null".toList, .string "two words".toList⟩,
    ⟨.stdin, "null".toList, .file "/tmp/in.txt".toList⟩,
    ⟨.unspecified, "null".toList, .double (3 : Int)⟩,
    ⟨.unspecified, "null".toList, .externalPsco "id7".toList true⟩]
  returned := none

theorem roundTrips_sampleTask :
    RoundTrips sampleExecutor plainLibraries sampleTask := by
  have isWordBasename : IsWord sampleExecutor.outputsBasename := by
    decide +kernel
  refine (roundTrips_iff wholeDoubles_agree ⟨isWordBasename.2, ?_, ?_⟩).mpr
    ⟨by decide, by decide, by decide, ?_⟩
  · intro conf isConf
    obtain rfl := some.inj isConf
    decide
  · exact fun np isReturned => nomatch isReturned
  · intro np member
    simp only [sampleTask, mem_cons, not_mem_nil, or_false] at member
    rcases member with rfl | rfl | rfl | rfl
    · exact ⟨by decide, by decide, rfl⟩
    · have isWord : IsWord "/tmp/in.txt".toList := by decide
      exact ⟨by decide, isWord⟩
    · exact ⟨by decide, trivial⟩
    · exact ⟨by decide, rfl, by decide, rfl⟩

/-- The name of the slave node is read as the number of slave nodes. -/
theorem not_roundTrips_slaveNode :
    ¬ RoundTrips sampleExecutor plainLibraries
      { sampleTask with slaveWorkersNodeNames := ["node1".toList] } := by
  intro roundTrip
  have slaves := congrArg
    (fun
      | .ok task => task.slaves
      | .error _ => [])
    roundTrip
  exact absurd slaves (by decide)

end DistributedRdf.Piper
