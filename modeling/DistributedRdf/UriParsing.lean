import DistributedRdf.VersionRenamings

namespace DistributedRdf.Data

open List

open Engine (StringException substring)
open Words (Text)

/-!
# Parsing of locations

A location is written as a schema, a host that may be left out, and a path.  The
end of the schema and the end of the host are looked for in the whole text.
-/

/-- `String.indexOf(String str)` -/
def indexOf (str : Text) : Text → Option Nat
  | [] => if str.isEmpty then some 0 else none
  | char :: rest =>
      if str.isPrefixOf (char :: rest) then some 0
      else (indexOf str rest).map (· + 1)

inductive Protocol where
  | fileUri
  | sharedUri
  | objectUri
  | persistentUri
  | anyUri
  deriving DecidableEq

/-- The schema without the separator that it ends with -/
def Protocol.name : Protocol → Text
  | .fileUri => "file".toList
  | .sharedUri => "shared".toList
  | .objectUri => "object".toList
  | .persistentUri => "storage".toList
  | .anyUri => "any".toList

def schemaSeparator : Text := "://".toList

def Protocol.schema (protocol : Protocol) : Text :=
  protocol.name ++ schemaSeparator

structure SimpleURI where
  schema : Text
  hostname : Text
  path : Text
  deriving DecidableEq

namespace SimpleURI

/-- The constructor that parses a text -/
def new (fullPath : Text) : Except StringException SimpleURI := do
  let (schema, parsedIndex) ←
    match indexOf schemaSeparator fullPath with
    | some endSchema => do
        let schema ← substring fullPath 0 endSchema
        pure (schema, endSchema + schemaSeparator.length)
    | none => pure ([], 0)
  let (hostname, parsedIndex) ←
    match indexOf ['@'] fullPath with
    | some endHostname => do
        let hostname ← substring fullPath parsedIndex endHostname
        pure (hostname, endHostname + 1)
    | none => pure ([], parsedIndex)
  let path ← substring fullPath parsedIndex fullPath.length
  return { schema, hostname, path }

variable (uri : SimpleURI)

def getSchema : Text :=
  if uri.schema.isEmpty then [] else uri.schema ++ schemaSeparator

def toString : Text :=
  (if uri.schema.isEmpty then [] else uri.schema ++ schemaSeparator) ++
    (if uri.hostname.isEmpty then [] else uri.hostname ++ ['@']) ++ uri.path

end SimpleURI

/-- What is written behind the schema, with or without a host -/
def written (host : Option Text) (path : Text) : Text :=
  match host with
  | some host => host ++ '@' :: path
  | none => path

/-- The text is parsed, and read again from what the parts are printed as. -/
def SurvivesParsing
    (protocol : Protocol)
    (host : Option Text)
    (path : Text) : Prop :=
  ∃ uri,
    SimpleURI.new (protocol.schema ++ written host path) = .ok uri ∧
      uri.getSchema = protocol.schema ∧
      (host = none → uri.path = path) ∧
      SimpleURI.new uri.toString = .ok uri

variable {char : Char}

theorem indexOf_singleton
    {front : Text}
    (absent : char ∉ front)
    (rest : Text) :
    indexOf [char] (front ++ char :: rest) = some front.length := by
  induction front with
  | nil => simp [indexOf]
  | cons first others hypothesis =>
      obtain ⟨different, absentLater⟩ := not_or.mp (mem_cons.not.mp absent)
      rw [cons_append, indexOf, hypothesis absentLater]
      simp [different]

theorem indexOf_singleton_eq_none
    {text : Text}
    (absent : char ∉ text) :
    indexOf [char] text = none := by
  induction text with
  | nil => rfl
  | cons first others hypothesis =>
      obtain ⟨different, absentLater⟩ := not_or.mp (mem_cons.not.mp absent)
      rw [indexOf, hypothesis absentLater]
      simp [different]

/-- A text is cut where its parts meet. -/
theorem substring_append
    {text middle : Text}
    (front back : Text)
    (parts : text = front ++ middle ++ back)
    {beginIndex endIndex : Nat}
    (begins : beginIndex = front.length)
    (ends : endIndex = (front ++ middle).length) :
    substring text beginIndex endIndex = .ok middle := by
  subst parts begins ends
  rw [substring, if_pos (by simp <;> omega)]
  simp

namespace Protocol

variable
  (protocol : Protocol)
  (rest : Text)

theorem indexOf_schema :
    indexOf schemaSeparator (protocol.schema ++ rest) =
      some protocol.name.length := by
  cases protocol <;> rfl

theorem at_not_mem_schema : '@' ∉ protocol.schema := by
  cases protocol <;> decide

theorem name_nonempty : protocol.name.isEmpty = false := by
  cases protocol <;> rfl

theorem substring_name :
    substring (protocol.schema ++ rest) 0 protocol.name.length =
      .ok protocol.name :=
  substring_append [] (schemaSeparator ++ rest) (by simp [schema]) rfl rfl

end Protocol

namespace SimpleURI

variable
  (protocol : Protocol)
  {host path : Text}

theorem new_of_no_host (absent : '@' ∉ path) :
    new (protocol.schema ++ path) =
      .ok { schema := protocol.name, hostname := [], path } := by
  have noHost : indexOf ['@'] (protocol.schema ++ path) = none :=
    indexOf_singleton_eq_none (by simp [protocol.at_not_mem_schema, absent])
  have behind :
      substring (protocol.schema ++ path)
          (protocol.name.length + schemaSeparator.length : Nat)
          (protocol.schema ++ path).length =
        .ok path :=
    substring_append protocol.schema [] (by simp)
      (by simp [Protocol.schema]) rfl
  rw [new, protocol.indexOf_schema, noHost]
  simp only [protocol.substring_name, behind, bind, Except.bind, pure,
    Except.pure]

theorem new_of_host (absent : '@' ∉ host) :
    new (protocol.schema ++ (host ++ '@' :: path)) =
      .ok { schema := protocol.name, hostname := host, path } := by
  have endHostname :
      indexOf ['@'] (protocol.schema ++ (host ++ '@' :: path)) =
        some (protocol.schema ++ host).length := by
    rw [← append_assoc]
    exact indexOf_singleton (by simp [protocol.at_not_mem_schema, absent]) path
  have isHost :
      substring (protocol.schema ++ (host ++ '@' :: path))
          (protocol.name.length + schemaSeparator.length : Nat)
          (protocol.schema ++ host).length =
        .ok host :=
    substring_append protocol.schema ('@' :: path) (by simp)
      (by simp [Protocol.schema]) rfl
  have behind :
      substring (protocol.schema ++ (host ++ '@' :: path))
          ((protocol.schema ++ host).length + 1 : Nat)
          (protocol.schema ++ (host ++ '@' :: path)).length =
        .ok path :=
    substring_append (protocol.schema ++ host ++ ['@']) [] (by simp)
      (by simp; omega) (by simp)
  rw [new, protocol.indexOf_schema, endHostname]
  simp only [protocol.substring_name, isHost, behind, bind, Except.bind, pure,
    Except.pure]

theorem toString_of_no_host :
    toString { schema := protocol.name, hostname := [], path } =
      protocol.schema ++ path := by
  simp [toString, protocol.name_nonempty, Protocol.schema]

theorem toString_of_host (nonempty : host ≠ []) :
    toString { schema := protocol.name, hostname := host, path } =
      protocol.schema ++ (host ++ '@' :: path) := by
  simp [toString, protocol.name_nonempty, Protocol.schema, nonempty]

theorem getSchema_name :
    getSchema { schema := protocol.name, hostname := host, path } =
      protocol.schema := by
  simp [getSchema, protocol.name_nonempty, Protocol.schema]

/-- What is printed is read as the same location, without an empty host. -/
theorem new_toString_iff (absent : '@' ∉ host) :
    new (toString { schema := protocol.name, hostname := host, path }) =
        .ok { schema := protocol.name, hostname := host, path } ↔
      (host = [] → '@' ∉ path) := by
  by_cases empty : host = []
  · subst empty
    rw [toString_of_no_host]
    constructor
    · rintro same - inPath
      obtain ⟨front, back, rfl, notInFront⟩ :=
        eq_append_cons_of_mem inPath
      rw [new_of_host protocol notInFront] at same
      obtain ⟨-, noFront, shorter⟩ := SimpleURI.mk.inj (Except.ok.inj same)
      have lengths := congrArg length shorter
      simp at lengths
      omega
    · intro noAt
      exact new_of_no_host protocol (noAt rfl)
  · rw [toString_of_host protocol empty]
    exact iff_of_true (new_of_host protocol absent)
      fun isEmpty => absurd isEmpty empty

end SimpleURI

/--
A location survives exactly if a path without a host has no separator of hosts,
and if there is one separator at most where the host is empty.
-/
theorem survivesParsing_iff
    (protocol : Protocol)
    (host : Option Text)
    (path : Text) :
    SurvivesParsing protocol host path ↔
      (host = none → '@' ∉ path) ∧
        ∀ rest, written host path = '@' :: rest → '@' ∉ rest := by
  by_cases inText : '@' ∈ written host path
  · obtain ⟨front, back, parts, notInFront⟩ :=
      eq_append_cons_of_mem inText
    have parsed :
        SurvivesParsing protocol host path ↔
          (host = none → back = path) ∧ (front = [] → '@' ∉ back) := by
      rw [SurvivesParsing, parts, SimpleURI.new_of_host protocol notInFront]
      simp only [Except.ok.injEq, ↓existsAndEq, true_and,
        SimpleURI.getSchema_name,
        SimpleURI.new_toString_iff protocol notInFront]
    have sameEnd :
        (∀ rest, written host path = '@' :: rest → '@' ∉ rest) ↔
          (front = [] → '@' ∉ back) := by
      rw [parts]
      cases front with
      | nil => simp
      | cons first others =>
          have different : first ≠ '@' := by
            rintro rfl
            exact notInFront mem_cons_self
          simp [different]
    rw [parsed, sameEnd]
    refine and_congr_left fun _ => ?_
    cases host with
    | some host => simp
    | none =>
        have longer : back ≠ path := by
          rintro rfl
          have lengths := congrArg length parts
          simp [written] at lengths
          omega
        have inPath : '@' ∈ path := inText
        simp [longer, inPath]
  · have noHost : host = none := by
      cases host with
      | some host => simp [written] at inText
      | none => rfl
    subst noHost
    refine iff_of_true ?_ ⟨fun _ => inText, ?_⟩
    · exact ⟨_, SimpleURI.new_of_no_host protocol inText,
        SimpleURI.getSchema_name protocol, fun _ => rfl,
        (SimpleURI.new_toString_iff protocol not_mem_nil).mpr
          fun _ => inText⟩
    · intro rest starts
      exact absurd (starts ▸ mem_cons_self) inText

/-- The directory in front of the separator is taken for a host. -/
theorem not_survivesParsing_fileName :
    ¬ SurvivesParsing .fileUri none "/home/a@b".toList := by
  rintro ⟨uri, parsed, -, samePath, -⟩
  have asHost : SimpleURI.new "file:///home/a@b".toList =
      .ok { schema := "file".toList, hostname := "/home/a".toList,
            path := "b".toList } := by
    decide
  have same := asHost.symm.trans parsed
  cases same
  exact absurd (samePath rfl) (by decide)

end DistributedRdf.Data
