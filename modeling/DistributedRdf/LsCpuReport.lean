import DistributedRdf.MachineMap

namespace DistributedRdf.Nio

open List Option CpuGroup

open Words (Text decimal)

/-!
# What `lscpu` reports

A line of the output has a key, a colon, blanks and a value.  Lines of a node
list ids, and the lines with other keys are not read.
-/

/-- The lines of the output; keys may be indented and values are aligned. -/
inductive LsCpuLine where
  | sockets (indent padding count : Nat)
  | coresPerSocket (indent padding count : Nat)
  | threadsPerCore (indent padding count : Nat)
  | cpus (indent padding count : Nat)
  | numaNode (indent node padding : Nat) (group : CpuGroup)
  | other (text : Text)
  deriving DecidableEq

/-- The key and the value of a line, with at least one blank between them. -/
def valueLine (indent : Nat) (key : Text) (padding : Nat) (value : Text) : Text :=
  (replicate indent ' ' ++ key) ++
    ':' :: (replicate padding ' ' ++ ' ' :: value)

def nodeKey (node : Nat) : Text :=
  "NUMA node".toList ++ Nat.toDigits 10 node ++ " CPU(s)".toList

def keyWords : List String :=
  ["Socket(s):", "Core(s) per socket:", "Thread(s) per core:", "CPU(s):"]

namespace LsCpuLine

def text : LsCpuLine → Text
  | sockets indent padding count =>
      valueLine indent "Socket(s)".toList padding (Nat.toDigits 10 count)
  | coresPerSocket indent padding count =>
      valueLine indent "Core(s) per socket".toList padding
        (Nat.toDigits 10 count)
  | threadsPerCore indent padding count =>
      valueLine indent "Thread(s) per core".toList padding
        (Nat.toDigits 10 count)
  | cpus indent padding count =>
      valueLine indent "CPU(s)".toList padding (Nat.toDigits 10 count)
  | numaNode indent node padding group =>
      valueLine indent (nodeKey node) padding group.text
  | other text => text

/-- Counts fit in an `int`, and the keys of other lines are not confused. -/
def WellFormed : LsCpuLine → Prop
  | sockets _ _ count => count < 2 ^ 31
  | coresPerSocket _ _ count => 0 < count ∧ count < 2 ^ 31
  | threadsPerCore _ _ count => 0 < count ∧ count < 2 ^ 31
  | cpus _ _ count => 0 < count ∧ count < 2 ^ 31
  | numaNode _ _ _ group => ∀ interval ∈ group, interval.Proper
  | other text => '\n' ∉ text ∧ ∀ key ∈ keyWords, contains text key = false

instance : (line : LsCpuLine) → Decidable line.WellFormed
  | .sockets _ _ _ => inferInstanceAs (Decidable (_ < _))
  | .coresPerSocket _ _ _ => inferInstanceAs (Decidable (_ ∧ _))
  | .threadsPerCore _ _ _ => inferInstanceAs (Decidable (_ ∧ _))
  | .cpus _ _ _ => inferInstanceAs (Decidable (_ ∧ _))
  | .numaNode _ _ _ _ => inferInstanceAs (Decidable (∀ _ ∈ _, _))
  | .other _ => inferInstanceAs (Decidable (_ ∧ _))

end LsCpuLine

/-- What the machine reports with a list of lines -/
structure LsCpuReport where
  sockets : Option Nat
  coresPerSocket : Option Nat
  threadsPerCore : Option Nat
  cpus : Option Nat
  nodes : List CpuGroup
  deriving DecidableEq

namespace LsCpuReport

variable (report : LsCpuReport)

def add : LsCpuLine → LsCpuReport
  | .sockets _ _ count => { report with sockets := some count }
  | .coresPerSocket _ _ count => { report with coresPerSocket := some count }
  | .threadsPerCore _ _ count => { report with threadsPerCore := some count }
  | .cpus _ _ count => { report with cpus := some count }
  | .numaNode _ _ _ group => { report with nodes := report.nodes ++ [group] }
  | .other _ => report

def ofLines (lines : List LsCpuLine) : LsCpuReport :=
  lines.foldl add ⟨none, none, none, none, []⟩

/-- The value that is read from the line of a node; without ids it is the key. -/
def description (group : CpuGroup) : Text :=
  if group = [] then "CPU(s):".toList else group.text

def fields : LsCpuFields where
  numSockets := report.sockets.map Int.ofNat
  coresPerSocket := report.coresPerSocket.map Int.ofNat
  threadsPerCore := report.threadsPerCore.map Int.ofNat
  numCPUs := report.cpus.map Int.ofNat
  numaDescription := report.nodes.map description

end LsCpuReport

/-- The output ends each line. -/
def outputText (lines : List LsCpuLine) : String :=
  String.ofList (lines.map fun line => line.text ++ ['\n']).flatten

/-!
## Lines are read
-/

section ValueLine

variable
  {indent padding : Nat}
  {key tail value : Text}
  {part : String}
  {char : Char}

theorem plain_indented
    (noBlank : char ≠ ' ')
    (plain : char ∉ key) :
    char ∉ replicate indent ' ' ++ key := by
  intro member
  rcases mem_append.mp member with blank | inKey
  · exact noBlank (eq_of_mem_replicate blank)
  · exact plain inKey

theorem plain_padded
    (noBlank : char ≠ ' ')
    (plain : char ∉ value) :
    char ∉ replicate padding ' ' ++ ' ' :: value := by
  intro member
  rcases mem_append.mp member with blank | later
  · exact noBlank (eq_of_mem_replicate blank)
  · rcases mem_cons.mp later with blank | inValue
    · exact noBlank blank
    · exact plain inValue

/-- The key of a line is found in the line. -/
theorem contains_valueLine
    (isTail : tail <:+ key)
    (isPart : part.toList = tail ++ [':']) :
    contains (valueLine indent key padding value) part = true := by
  obtain ⟨front, rfl⟩ := isTail
  rw [contains, decide_eq_true_eq, isPart]
  exact ⟨replicate indent ' ' ++ front,
    replicate padding ' ' ++ ' ' :: value, by simp [valueLine]⟩

/-- Another key is only found if one of them ends with the other. -/
theorem not_contains_valueLine
    (isTail : tail <:+ key)
    (plainKey : ':' ∉ key)
    (plainValue : ':' ∉ value)
    (endsKey : part.toList.getLast? = some ':')
    (notLonger : ¬ tail ++ [':'] <:+ part.toList)
    (notShorter : ¬ part.toList <:+ tail ++ [':']) :
    contains (valueLine indent key padding value) part = false := by
  obtain ⟨other, isPart⟩ := getLast?_eq_some_iff.mp endsKey
  rw [isPart, suffix_append_self_iff] at notLonger notShorter
  rw [contains, decide_eq_false_iff_not, isPart]
  intro isInfix
  have isSuffix : other <:+ replicate indent ' ' ++ key :=
    suffix_of_infix_colon (plain_indented (by decide) plainKey)
      (plain_padded (by decide) plainValue) isInfix
  rcases suffix_or_suffix_of_suffix isSuffix
      (isTail.trans (suffix_append _ _)) with shorter | longer
  · exact notShorter shorter
  · exact notLonger longer

theorem lastValue_valueLine
    (plain : ' ' ∉ value)
    (nonempty : value ≠ []) :
    lastValue (valueLine indent key padding value) = some value := by
  have shape :
      valueLine indent key padding value =
        ((replicate indent ' ' ++ key) ++
          ':' :: replicate padding ' ') ++ ' ' :: value := by
    simp [valueLine]
  rw [shape, lastValue_append plain nonempty]

/-- Blanks at the end are dropped. -/
theorem lastValue_blanks
    (plain : ' ' ∉ value)
    (nonempty : value ≠ [])
    (before : Text)
    (blanks : Nat) :
    lastValue (before ++ ' ' :: (value ++ replicate (blanks + 1) ' ')) =
      some value := by
  have empties :
      ∀ blanks : Nat,
        (replicate blanks ' ').splitOn ' ' =
          replicate (blanks + 1) [] := by
    intro blanks
    induction blanks with
    | zero => simp
    | succ blanks hypothesis =>
        have shape :
            replicate (blanks + 1) ' ' =
              [] ++ ' ' :: replicate blanks ' ' := rfl
        rw [shape, splitOn_append_cons_self, hypothesis]
        rfl
  have parts :
      (before ++ ' ' :: (value ++ replicate (blanks + 1) ' ')).splitOn ' ' =
        before.splitOn ' ' ++ value :: replicate (blanks + 1) [] := by
    rw [splitOn_append_cons_self, replicate_succ,
      splitOn_append_cons_self_of_not_mem plain, empties]
  rw [lastValue, split, parts]
  split
  case h_1 whole isWhole =>
    have lengths := congrArg length isWhole
    rw [length_append, length_cons, length_replicate,
      length_singleton] at lengths
    omega
  case h_2 notWhole =>
    rw [getLast?_reverse, reverse_append, reverse_cons,
      reverse_replicate, append_assoc,
      dropWhile_append_of_pos (by simp),
      singleton_append, dropWhile_cons_of_neg (by simpa using nonempty)]
    rfl

theorem readInteger_valueLine
    {n : Nat}
    (fits : n < 2 ^ 31)
    (field : Option Int) :
    readInteger (valueLine indent key padding (Nat.toDigits 10 n)) field =
      some (some (n : Int)) := by
  rw [readInteger,
    lastValue_valueLine (not_mem_digits (by decide)) Nat.toDigits_ne_nil]
  simp only [bind_eq_bind, bind_some, Nat.toDigits_ne_nil,
    if_false, parseInt_digits fits]
  rfl

end ValueLine

section Reading

variable {report : LsCpuReport}

theorem suffix_nodeKey (node : Nat) : " CPU(s)".toList <:+ nodeKey node :=
  suffix_append _ _

theorem plain_text_group
    {char : Char}
    (noComma : char ≠ ',')
    (noMinus : char ≠ '-')
    (noDigit : char.isDigit = false)
    (group : CpuGroup) :
    char ∉ group.text := by
  intro member
  rcases mem_text_group member with comma | minus | digit
  · exact noComma comma
  · exact noMinus minus
  · exact absurd digit (ne_true_of_eq_false noDigit)

/-- A node without ids leaves the key as the last word of its line. -/
theorem lastValue_nodeLine
    {indent node padding : Nat}
    {group : CpuGroup} :
    lastValue (valueLine indent (nodeKey node) padding group.text) =
      some (LsCpuReport.description group) := by
  by_cases noIds : group = []
  · subst group
    have shape :
        valueLine indent (nodeKey node) padding (text []) =
          (replicate indent ' ' ++
              ("NUMA node".toList ++ Nat.toDigits 10 node)) ++
            ' ' :: ("CPU(s):".toList ++ replicate (padding + 1) ' ') := by
      have noText : text [] = [] := rfl
      have blanks :
          replicate (padding + 1) ' ' =
            replicate padding ' ' ++ [' '] :=
        replicate_succ'
      have lastWord : " CPU(s)".toList ++ [':'] = ' ' :: "CPU(s):".toList := rfl
      rw [noText, blanks, ← cons_append, ← lastWord]
      unfold valueLine nodeKey
      simp only [append_assoc, singleton_append]
    rw [shape, LsCpuReport.description, if_pos rfl]
    exact lastValue_blanks (by decide) (by decide) _ _
  · rw [LsCpuReport.description, if_neg noIds]
    exact lastValue_valueLine
      (plain_text_group (by decide) (by decide) (by decide) group)
      (text_group_ne_nil noIds)

variable {line : LsCpuLine}

/-- Each line adds to what was read what it adds to the report. -/
theorem readLine_text
    (wellFormed : line.WellFormed) :
    readLine report.fields line.text = some (report.add line).fields := by
  have plainDigits : ∀ n, ':' ∉ Nat.toDigits 10 n := fun n =>
    not_mem_digits (by decide)
  cases line with
  | sockets indent padding count =>
      have found :
          contains (valueLine indent "Socket(s)".toList padding
            (Nat.toDigits 10 count)) "Socket(s):" = true :=
        contains_valueLine suffix_rfl rfl
      rw [LsCpuLine.text, readLine, if_pos found, readInteger_valueLine wellFormed]
      rfl
  | coresPerSocket indent padding count =>
      have notFound := fun part =>
        @not_contains_valueLine indent padding _ _ _ part suffix_rfl
          (by decide : ':' ∉ "Core(s) per socket".toList) (plainDigits count)
      have found :
          contains (valueLine indent "Core(s) per socket".toList padding
            (Nat.toDigits 10 count)) "Core(s) per socket:" = true :=
        contains_valueLine suffix_rfl rfl
      simp only [LsCpuLine.text, readLine, found,
        notFound "Socket(s):" (by decide) (by decide) (by decide),
        Bool.false_eq_true, if_false, if_true,
        readInteger_valueLine wellFormed.2]
      rfl
  | threadsPerCore indent padding count =>
      have notFound := fun part =>
        @not_contains_valueLine indent padding _ _ _ part suffix_rfl
          (by decide : ':' ∉ "Thread(s) per core".toList) (plainDigits count)
      have found :
          contains (valueLine indent "Thread(s) per core".toList padding
            (Nat.toDigits 10 count)) "Thread(s) per core:" = true :=
        contains_valueLine suffix_rfl rfl
      simp only [LsCpuLine.text, readLine, found,
        notFound "Socket(s):" (by decide) (by decide) (by decide),
        notFound "Core(s) per socket:" (by decide) (by decide) (by decide),
        Bool.false_eq_true, if_false, if_true,
        readInteger_valueLine wellFormed.2]
      rfl
  | cpus indent padding count =>
      have notFound := fun part =>
        @not_contains_valueLine indent padding _ _ _ part suffix_rfl
          (by decide : ':' ∉ "CPU(s)".toList) (plainDigits count)
      have found :
          contains (valueLine indent "CPU(s)".toList padding
            (Nat.toDigits 10 count)) "CPU(s):" = true :=
        contains_valueLine suffix_rfl rfl
      have noNode :
          contains (valueLine indent "CPU(s)".toList padding
            (Nat.toDigits 10 count)) "NUMA node" = false := by
        rw [contains, decide_eq_false_iff_not]
        intro isInfix
        have member := isInfix.subset
          (by decide : 'N' ∈ "NUMA node".toList)
        rcases mem_append.mp member with inKey | later
        · exact plain_indented (by decide) (by decide) inKey
        · rcases mem_cons.mp later with colon | inValue
          · exact absurd colon (by decide)
          · exact plain_padded (by decide) (not_mem_digits (by decide)) inValue
      simp only [LsCpuLine.text, readLine, found, noNode,
        notFound "Socket(s):" (by decide) (by decide) (by decide),
        notFound "Core(s) per socket:" (by decide) (by decide) (by decide),
        notFound "Thread(s) per core:" (by decide) (by decide) (by decide),
        Bool.false_and, Bool.false_eq_true, if_false, if_true,
        readInteger_valueLine wellFormed.2]
      rfl
  | numaNode indent node padding group =>
      have plainKey : ':' ∉ nodeKey node := by
        intro member
        rcases mem_append.mp member with front | back
        · rcases mem_append.mp front with inName | inDigits
          · exact absurd inName (by decide)
          · exact plainDigits node inDigits
        · exact absurd back (by decide)
      have isTail : "CPU(s)".toList <:+ nodeKey node :=
        (suffix_cons ' ' _).trans (suffix_nodeKey node)
      have notFound := fun part =>
        @not_contains_valueLine indent padding _ _ _ part (suffix_nodeKey node)
          plainKey (plain_text_group (by decide) (by decide) (by decide) group)
      have found :
          contains (valueLine indent (nodeKey node) padding group.text)
            "CPU(s):" = true :=
        contains_valueLine isTail rfl
      have isNode :
          contains (valueLine indent (nodeKey node) padding group.text)
            "NUMA node" = true := by
        rw [contains, decide_eq_true_eq]
        refine ⟨replicate indent ' ', ?_, ?_⟩
        · exact Nat.toDigits 10 node ++ " CPU(s)".toList ++
            ':' :: (replicate padding ' ' ++ ' ' :: group.text)
        · unfold valueLine nodeKey
          simp only [append_assoc]
      simp only [LsCpuLine.text, readLine, found, isNode,
        notFound "Socket(s):" (by decide) (by decide) (by decide),
        notFound "Core(s) per socket:" (by decide) (by decide) (by decide),
        notFound "Thread(s) per core:" (by decide) (by decide) (by decide),
        Bool.and_self, Bool.false_eq_true, if_false, if_true,
        lastValue_nodeLine]
      simp [LsCpuReport.fields, LsCpuReport.add]
  | other text =>
      have notFound := wellFormed.2
      simp only [LsCpuLine.text, readLine, notFound "Socket(s):" (by decide),
        notFound "Core(s) per socket:" (by decide),
        notFound "Thread(s) per core:" (by decide),
        notFound "CPU(s):" (by decide), Bool.and_false, Bool.false_eq_true,
        if_false]
      rfl

theorem plain_text
    (wellFormed : line.WellFormed) :
    '\n' ∉ line.text := by
  have plainValue :
      ∀ {indent padding : Nat} {key value : Text},
        '\n' ∉ key → '\n' ∉ value →
          '\n' ∉ valueLine indent key padding value := by
    intro indent padding key value plainKey plain member
    rcases mem_append.mp member with inKey | later
    · exact plain_indented (by decide) plainKey inKey
    · rcases mem_cons.mp later with colon | inValue
      · exact absurd colon (by decide)
      · exact plain_padded (by decide) plain inValue
  have plainDigits : ∀ n, '\n' ∉ Nat.toDigits 10 n := fun n =>
    not_mem_digits (by decide)
  cases line with
  | sockets _ _ count | coresPerSocket _ _ count | threadsPerCore _ _ count =>
      exact plainValue (by decide) (plainDigits count)
  | cpus indent padding count =>
      exact plainValue (by decide) (plainDigits count)
  | numaNode indent node padding group =>
      refine plainValue ?_
        (plain_text_group (by decide) (by decide) (by decide) group)
      intro member
      rcases mem_append.mp member with front | back
      · rcases mem_append.mp front with inName | inDigits
        · exact absurd inName (by decide)
        · exact plainDigits node inDigits
      · exact absurd back (by decide)
  | other text => exact wellFormed.1

variable
  {lines : List LsCpuLine}
  (wellFormed : ∀ line ∈ lines, line.WellFormed)

include wellFormed

theorem splitOn_outputText :
    (outputText lines).toList.splitOn '\n' =
      lines.map LsCpuLine.text ++ [[]] := by
  rw [outputText, String.toList_ofList]
  induction lines with
  | nil => rfl
  | cons line rest hypothesis =>
      obtain ⟨lineFormed, restFormed⟩ := forall_mem_cons.mp wellFormed
      rw [map_cons, flatten_cons, append_assoc,
        singleton_append,
        splitOn_append_cons_self_of_not_mem (plain_text lineFormed),
        hypothesis restFormed]
      rfl

omit wellFormed in
/-- Empty lines say nothing, so that it does not matter that they are dropped. -/
theorem foldlM_split
    (text : Text)
    (fields : LsCpuFields) :
    (split '\n' text).foldlM readLine fields =
      (text.splitOn '\n').foldlM readLine fields := by
  have empties :
      ∀ (parts : List Text) (fields : LsCpuFields),
        (∀ part ∈ parts, part = []) →
          parts.foldlM readLine fields = some fields := by
    intro parts fields allEmpty
    induction parts with
    | nil => rfl
    | cons part rest hypothesis =>
        obtain ⟨rfl, restEmpty⟩ := forall_mem_cons.mp allEmpty
        exact hypothesis restEmpty
  unfold split
  split
  case h_1 whole isWhole => rw [isWhole]
  case h_2 notWhole =>
    let reversed := (text.splitOn '\n').reverse
    have parts :
        text.splitOn '\n' =
          (reversed.dropWhile (· = [])).reverse ++
            (reversed.takeWhile (· = [])).reverse := by
      rw [← reverse_append, takeWhile_append_dropWhile,
        reverse_reverse]
    conv_rhs => rw [parts, foldlM_append]
    have noOp :
        ∀ fields : LsCpuFields,
          ((reversed.takeWhile (· = [])).reverse).foldlM readLine fields =
            some fields := by
      intro fields
      refine empties _ fields fun part member => ?_
      simpa using mem_takeWhile_imp (mem_reverse.mp member)
    simp only [noOp]
    exact (bind_pure _).symm

theorem foldlM_readLine_text :
    (lines.map LsCpuLine.text).foldlM readLine report.fields =
      some (lines.foldl LsCpuReport.add report).fields := by
  induction lines generalizing report with
  | nil => rfl
  | cons line rest hypothesis =>
      obtain ⟨lineFormed, restFormed⟩ := forall_mem_cons.mp wellFormed
      rw [map_cons, foldlM_cons, readLine_text lineFormed]
      exact hypothesis restFormed

/-- The map only depends on what is reported. -/
theorem processLsCpuOutput_outputText :
    processLsCpuOutput (outputText lines) =
      (cpuMap (LsCpuReport.ofLines lines).fields).map String.ofList := by
  have whole :
      (split '\n' (outputText lines).toList).foldlM readLine .empty =
        some (LsCpuReport.ofLines lines).fields := by
    rw [foldlM_split, splitOn_outputText wellFormed, foldlM_append]
    have read := @foldlM_readLine_text ⟨none, none, none, none, []⟩ _ wellFormed
    rw [show LsCpuFields.empty =
      LsCpuReport.fields ⟨none, none, none, none, []⟩ from rfl, read]
    rfl
  rw [processLsCpuOutput, whole]
  dsimp only [bind_eq_bind, bind_some]
  cases cpuMap (LsCpuReport.ofLines lines).fields with
  | none => rfl
  | some map => rfl

end Reading

end DistributedRdf.Nio
