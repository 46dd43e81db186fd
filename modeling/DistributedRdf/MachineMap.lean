import DistributedRdf.ThreadBinding
import DistributedRdf.Words

namespace DistributedRdf.Nio

open List

open Words (Text decimal)

/-!
# Texts of a machine map

The map of the machine is worked out from the output of `lscpu` and parsed when
the binder is constructed.  A text that was joined with separators is cut at the
same places again.
-/

/-!
## The output of `lscpu`
-/

/-- What has been read of the output; `none` stands for `null`. -/
structure LsCpuFields where
  numSockets : Option Int
  coresPerSocket : Option Int
  threadsPerCore : Option Int
  numCPUs : Option Int
  numaDescription : List Text
  deriving DecidableEq

def LsCpuFields.empty : LsCpuFields where
  numSockets := none
  coresPerSocket := none
  threadsPerCore := none
  numCPUs := none
  numaDescription := []

/-- `line.contains(part)` -/
def contains (line : Text) (part : String) : Bool :=
  part.toList <:+: line

/-- What comes behind the last blank -/
def lastValue (line : Text) : Option Text :=
  (split ' ' line).getLast?

/-- An empty value leaves the field as it was. -/
def readInteger (line : Text) (field : Option Int) : Option (Option Int) := do
  let value ← lastValue line
  if value = [] then
    return field
  let number ← parseInt value
  return some number

variable (fields : LsCpuFields)

/-- One line of the output; `none` if it throws. -/
def readLine (line : Text) : Option LsCpuFields :=
  if contains line "Socket(s):" then
    (readInteger line fields.numSockets).map fun numSockets =>
      { fields with numSockets }
  else if contains line "Core(s) per socket:" then
    (readInteger line fields.coresPerSocket).map fun coresPerSocket =>
      { fields with coresPerSocket }
  else if contains line "Thread(s) per core:" then
    (readInteger line fields.threadsPerCore).map fun threadsPerCore =>
      { fields with threadsPerCore }
  else if contains line "NUMA node" && contains line "CPU(s):" then
    (lastValue line).map fun coresDescription =>
      { fields with
        numaDescription := fields.numaDescription ++ [coresDescription] }
  else if contains line "CPU(s):" then
    (readInteger line fields.numCPUs).map fun numCPUs =>
      { fields with numCPUs }
  else
    some fields

/-- `String.valueOf` of a number that may be `null` -/
def valueOf : Option Int → Text
  | none => "null".toList
  | some value => decimal value

/-- The upper bound is part of the interval. -/
def generalMap : Text :=
  "0-".toList ++ valueOf fields.numCPUs

def socketMap
    (numSockets coresPerSocket threadsPerCore : Int) : Text :=
  let cpusPerSocket := coresPerSocket * threadsPerCore
  ['/'].intercalate <| (range numSockets.toNat).map fun (i : Nat) =>
    let low := i * cpusPerSocket
    let high := (i + 1) * cpusPerSocket - 1
    decimal low ++ '-' :: decimal high

def cpuMap : Option Text :=
  match fields.numSockets with
  | none => some (generalMap fields)
  | some numSockets =>
      if numSockets ≤ 0 then
        some (generalMap fields)
      else if fields.numaDescription ≠ [] then
        some (['/'].intercalate fields.numaDescription)
      else do
        return socketMap numSockets (← fields.coresPerSocket)
          (← fields.threadsPerCore)

/-- The map of the machine, or `none` if an exception is thrown -/
def processLsCpuOutput (cmdOutput : String) : Option String := do
  let fields ← (split '\n' cmdOutput.toList).foldlM readLine .empty
  let map ← cpuMap fields
  return String.ofList map

/-!
## Texts that are cut
-/

variable {separator : Char}

theorem split_eq_splitOn
    {text last : Text}
    (isLast : (text.splitOn separator).getLast? = some last)
    (nonempty : last ≠ []) :
    split separator text = text.splitOn separator := by
  unfold split
  split
  case h_1 whole isWhole => exact isWhole.symm
  case h_2 parts notWhole =>
    have reversed := eq_cons_of_mem_head?
      (head?_reverse.trans isLast)
    rw [reversed, dropWhile_cons_of_neg (by simpa using nonempty),
      ← reversed, reverse_reverse]

/-- Parts that are not empty are found again. -/
theorem split_intercalate
    {parts : List Text}
    (somePart : parts ≠ [])
    (plain : ∀ part ∈ parts, separator ∉ part ∧ part ≠ []) :
    split separator ([separator].intercalate parts) = parts := by
  have whole : ([separator].intercalate parts).splitOn separator = parts := by
    induction parts with
    | nil => contradiction
    | cons part rest hypothesis =>
        obtain ⟨partPlain, restPlain⟩ := forall_mem_cons.mp plain
        cases rest with
        | nil =>
            rw [intercalate_singleton,
              splitOn_eq_singleton partPlain.1]
        | cons next others =>
            have joins :
                [separator].intercalate (part :: next :: others) =
                  part ++ separator ::
                    [separator].intercalate (next :: others) := by
              simp [intercalate_cons_cons]
            rw [joins, splitOn_append_cons_self_of_not_mem partPlain.1,
              hypothesis (cons_ne_nil _ _) restPlain]
  obtain ⟨last, isLast⟩ :=
    Option.isSome_iff_exists.mp (getLast?_isSome.mpr somePart)
  rw [split_eq_splitOn (whole.symm ▸ isLast)
    (plain last (mem_of_getLast? isLast)).2, whole]

theorem lastValue_append
    {value : Text}
    (plain : ' ' ∉ value)
    (nonempty : value ≠ [])
    (before : Text) :
    lastValue (before ++ ' ' :: value) = some value := by
  have parts :
      (before ++ ' ' :: value).splitOn ' ' = before.splitOn ' ' ++ [value] := by
    rw [splitOn_append_cons_self, splitOn_eq_singleton plain]
  have isLast :
      ((before ++ ' ' :: value).splitOn ' ').getLast? = some value := by
    rw [parts, getLast?_append_of_ne_nil _ (cons_ne_nil _ _)]
    rfl
  rw [lastValue, split_eq_splitOn isLast nonempty, isLast]

/-- A key that ends with the only colon of a line ends where the colon is. -/
theorem suffix_of_infix_colon
    {key before after : Text}
    (plainBefore : ':' ∉ before)
    (plainAfter : ':' ∉ after)
    (isInfix : key ++ [':'] <:+: before ++ ':' :: after) :
    key <:+ before := by
  obtain ⟨front, back, whole⟩ := isInfix
  have colons : (front ++ key) ++ ':' :: back = before ++ ':' :: after := by
    rw [← whole]
    simp
  rcases append_eq_append_iff.mp colons with
    ⟨rest, isBefore, overlap⟩ | ⟨rest, isFront, overlap⟩
  · cases rest with
    | nil =>
        rw [append_nil] at isBefore
        exact ⟨front, isBefore.symm⟩
    | cons first rest =>
        obtain ⟨rfl, -⟩ := cons.inj overlap
        exact absurd (by simp [isBefore]) plainBefore
  · cases rest with
    | nil =>
        rw [append_nil] at isFront
        exact ⟨front, isFront⟩
    | cons first rest =>
        obtain ⟨rfl, isAfter⟩ := cons.inj overlap
        exact absurd (by simp [isAfter]) plainAfter

/-!
## Numbers that are read back
-/

variable {digits : Text}

theorem foldlM_digits
    (allDigits : ∀ digit ∈ digits, digit.isDigit = true)
    (value : Nat) :
    digits.foldlM
        (fun (value : Int) digit => do return 10 * value + (← digitValue digit))
        (value : Int) =
      some (Nat.ofDigitChars 10 digits value : Int) := by
  induction digits generalizing value with
  | nil => rfl
  | cons digit rest hypothesis =>
      obtain ⟨isDigit, restDigits⟩ := forall_mem_cons.mp allDigits
      have atLeastZero : '0'.toNat ≤ digit.toNat := by
        simp only [Char.isDigit, Bool.and_eq_true, decide_eq_true_eq] at isDigit
        exact isDigit.1
      have step :
          10 * (value : Int) + ((digit.toNat : Int) - ('0'.toNat : Int)) =
            ((10 * value + (digit.toNat - '0'.toNat) : Nat) : Int) := by
        omega
      have isValue :
          digitValue digit = some ((digit.toNat : Int) - ('0'.toNat : Int)) :=
        if_pos isDigit
      have first :
          (do return 10 * (value : Int) + (← digitValue digit) : Option Int) =
            some ((10 * value + (digit.toNat - '0'.toNat) : Nat) : Int) := by
        rw [isValue, ← step]
        rfl
      rw [foldlM_cons, first]
      exact hypothesis restDigits _

variable {n : Nat}

theorem isDigit_digits
    {digit : Char}
    (member : digit ∈ Nat.toDigits 10 n) :
    digit.isDigit = true :=
  Nat.isDigit_of_mem_toDigits (by decide) (by decide) member

theorem not_mem_digits
    {char : Char}
    (noDigit : char.isDigit = false) :
    char ∉ Nat.toDigits 10 n := by
  intro member
  rw [isDigit_digits member] at noDigit
  contradiction

theorem parseDigits_digits (n : Nat) :
    parseDigits (Nat.toDigits 10 n) = some (n : Int) := by
  rw [parseDigits, if_neg Nat.toDigits_ne_nil]
  refine (foldlM_digits (fun _ member => isDigit_digits member) 0).trans ?_
  rw [Nat.ofDigitChars_ten_toDigits]

theorem parseInt_of_parseDigits
    {value : Int}
    (noMinus : '-' ∉ digits)
    (noPlus : '+' ∉ digits)
    (parsed : parseDigits digits = some value)
    (inRange : -2 ^ 31 ≤ value ∧ value < 2 ^ 31) :
    parseInt digits = some value := by
  unfold parseInt
  split
  case h_1 rest => exact absurd mem_cons_self noMinus
  case h_2 rest => exact absurd mem_cons_self noPlus
  case h_3 notMinus notPlus =>
    refine Option.bind_eq_some_iff.mpr ⟨value, parsed, ?_⟩
    exact if_pos inRange

/-- A number that fits is read as it was written. -/
theorem parseInt_digits
    (fits : n < 2 ^ 31) :
    parseInt (Nat.toDigits 10 n) = some (n : Int) :=
  parseInt_of_parseDigits (not_mem_digits (by decide))
    (not_mem_digits (by decide)) (parseDigits_digits n) (by omega)

/-!
## Groups of intervals
-/

/-- How ids are listed; both bounds of a range are included. -/
inductive CpuInterval where
  | single (id : Nat)
  | range (low high : Nat)
  deriving DecidableEq

namespace CpuInterval

def bounds : CpuInterval → Nat × Nat
  | single id => (id, id)
  | range low high => (low, high)

variable (interval : CpuInterval)

/-- The bounds are in order and fit in an `int`. -/
def Proper : Prop :=
  interval.bounds.1 ≤ interval.bounds.2 ∧ interval.bounds.2 < 2 ^ 31
  deriving Decidable

def text : CpuInterval → Text
  | single id => Nat.toDigits 10 id
  | range low high => Nat.toDigits 10 low ++ '-' :: Nat.toDigits 10 high

/-- The ids of the interval -/
def ids : List Int :=
  intervalIds (interval.bounds.1, interval.bounds.2)

end CpuInterval

/-- The intervals of a group, which is a node or a socket -/
abbrev CpuGroup := List CpuInterval

namespace CpuGroup

def text (group : CpuGroup) : Text :=
  [','].intercalate (group.map CpuInterval.text)

def ids (group : CpuGroup) : List Int :=
  (group.map CpuInterval.ids).flatten

def Proper (group : CpuGroup) : Prop :=
  group ≠ [] ∧ ∀ interval ∈ group, interval.Proper
  deriving Decidable

end CpuGroup

/-- The text of a map with a group for each node or socket -/
def mapText (groups : List CpuGroup) : Text :=
  ['/'].intercalate (groups.map CpuGroup.text)

section Parsing

variable
  {interval : CpuInterval}
  {group : CpuGroup}
  {groups : List CpuGroup}
  {char : Char}

theorem mem_text_interval
    (member : char ∈ interval.text) :
    char = '-' ∨ char.isDigit = true := by
  cases interval with
  | single id => exact .inr (isDigit_digits member)
  | range low high =>
      rcases mem_append.mp member with inLow | later
      · exact .inr (isDigit_digits inLow)
      · exact (mem_cons.mp later).imp_right isDigit_digits

theorem text_interval_ne_nil : interval.text ≠ [] := by
  cases interval with
  | single id => exact Nat.toDigits_ne_nil
  | range low high =>
      exact append_ne_nil_of_right_ne_nil _ (cons_ne_nil _ _)

theorem mem_intercalate
    {parts : List Text}
    (member : char ∈ [separator].intercalate parts) :
    char = separator ∨ ∃ part ∈ parts, char ∈ part := by
  induction parts with
  | nil => simp at member
  | cons part rest hypothesis =>
      cases rest with
      | nil =>
          rw [intercalate_singleton] at member
          exact .inr ⟨part, mem_cons_self, member⟩
      | cons next others =>
          rw [intercalate_cons_cons, append_assoc,
            mem_append, mem_append, mem_singleton] at member
          rcases member with inPart | isSeparator | later
          · exact .inr ⟨part, mem_cons_self, inPart⟩
          · exact .inl isSeparator
          · refine (hypothesis later).imp_right ?_
            rintro ⟨other, isPart, inOther⟩
            exact ⟨other, mem_cons_of_mem part isPart, inOther⟩

theorem mem_text_group
    (member : char ∈ group.text) :
    char = ',' ∨ char = '-' ∨ char.isDigit = true := by
  refine (mem_intercalate member).imp_right ?_
  rintro ⟨part, isPart, inPart⟩
  obtain ⟨interval, -, rfl⟩ := mem_map.mp isPart
  exact mem_text_interval inPart

theorem text_group_ne_nil
    (someInterval : group ≠ []) :
    group.text ≠ [] := by
  cases group with
  | nil => contradiction
  | cons first rest =>
      have someText := @text_interval_ne_nil first
      cases rest with
      | nil => simpa [CpuGroup.text] using someText
      | cons next others =>
          simp [CpuGroup.text, intercalate_cons_cons, someText]

/-- An interval is parsed to its bounds. -/
theorem parseInterval_text
    (proper : interval.Proper) :
    parseInterval interval.text =
      some ((interval.bounds.1 : Int), (interval.bounds.2 : Int)) := by
  have noMinus :
      ∀ n, '-' ∉ Nat.toDigits 10 n ∧ Nat.toDigits 10 n ≠ [] := fun n =>
    ⟨not_mem_digits (by decide), Nat.toDigits_ne_nil⟩
  cases interval with
  | single id =>
      have fits : id < 2 ^ 31 := proper.2
      have parts :=
        @split_intercalate '-' [Nat.toDigits 10 id] (cons_ne_nil _ _)
          (forall_mem_singleton.mpr (noMinus id))
      rw [intercalate_singleton] at parts
      rw [CpuInterval.text, parseInterval, parts]
      simp only [CpuInterval.bounds, parseInt_digits fits]
      rfl
  | range low high =>
      have highFits : high < 2 ^ 31 := proper.2
      have lowFits : low < 2 ^ 31 := lt_of_le_of_lt proper.1 highFits
      have parts :=
        @split_intercalate '-' [Nat.toDigits 10 low, Nat.toDigits 10 high]
          (cons_ne_nil _ _)
          (forall_mem_cons.mpr
            ⟨noMinus low, forall_mem_singleton.mpr (noMinus high)⟩)
      rw [intercalate_cons_cons, intercalate_singleton,
        append_assoc, singleton_append] at parts
      rw [CpuInterval.text, parseInterval, parts]
      simp only [CpuInterval.bounds, parseInt_digits lowFits,
        parseInt_digits highFits]
      rfl

theorem mapM_eq_some_map
    {Input Output : Type}
    {read : Input → Option Output}
    {result : Input → Output}
    {inputs : List Input}
    (reads : ∀ input ∈ inputs, read input = some (result input)) :
    inputs.mapM read = some (inputs.map result) := by
  induction inputs with
  | nil => rfl
  | cons input rest hypothesis =>
      obtain ⟨first, others⟩ := forall_mem_cons.mp reads
      rw [mapM_cons, first, hypothesis others]
      rfl

theorem parseSockets_mapText
    (someGroup : groups ≠ [])
    (proper : ∀ group ∈ groups, CpuGroup.Proper group) :
    parseSockets (String.ofList (mapText groups)) =
      some (groups.map fun group => group.map fun interval =>
        ((interval.bounds.1 : Int), (interval.bounds.2 : Int))) := by
  have parts :
      split '/' (mapText groups) = groups.map CpuGroup.text := by
    refine split_intercalate (by simpa using someGroup) ?_
    intro part isPart
    obtain ⟨group, isGroup, rfl⟩ := mem_map.mp isPart
    refine ⟨fun slash => ?_, text_group_ne_nil (proper group isGroup).1⟩
    rcases mem_text_group slash with comma | minus | digit
    · exact absurd comma (by decide)
    · exact absurd minus (by decide)
    · exact absurd digit (by decide)
  have intervals :
      ∀ group ∈ groups,
        (split ',' (CpuGroup.text group)).mapM parseInterval =
          some (group.map fun interval =>
            ((interval.bounds.1 : Int), (interval.bounds.2 : Int))) := by
    intro group isGroup
    have pieces :
        split ',' (CpuGroup.text group) = group.map CpuInterval.text := by
      refine split_intercalate (by simpa using (proper group isGroup).1) ?_
      intro part isPart
      obtain ⟨interval, -, rfl⟩ := mem_map.mp isPart
      refine ⟨fun comma => ?_, text_interval_ne_nil⟩
      rcases mem_text_interval comma with minus | digit
      · exact absurd minus (by decide)
      · exact absurd digit (by decide)
    rw [pieces, mapM_map]
    exact mapM_eq_some_map fun interval isInterval =>
      parseInterval_text ((proper group isGroup).2 interval isInterval)
  rw [parseSockets, String.toList_ofList, parts, mapM_map]
  exact mapM_eq_some_map intervals

end Parsing

end DistributedRdf.Nio
