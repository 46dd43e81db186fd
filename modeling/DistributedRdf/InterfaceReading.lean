import DistributedRdf.CoreRegistrations

namespace DistributedRdf.CBinding

open Words ParserState List InterfaceEntry LaidOut

/-!
# Reading interface files

The parser reads a file that is laid out in lines item by item.  Between items
it is in no region, and it has registered the declarations that it has read.
-/

section Reading

variable
  {Constraints : Type}
  {loader : ConstraintLoader Constraints}
  {st : ParserState Constraints}
  {implemented : Option CImplementation}
  {registered : List InterfaceEntry}

/-- The parser is between two items. -/
structure AtItem
    (st : ParserState Constraints)
    (implemented : Option CImplementation)
    (registered : List InterfaceEntry) :
    Prop where
  outside : st.isReadingCodeRegion = false
  implementation : st.implementation = implemented
  registered : Registered st.manager registered

/-- The item is read without an exception. -/
def Reads
    (result : Except ParserException (ParserState Constraints))
    (implemented : Option CImplementation)
    (registered : List InterfaceEntry) :
    Prop :=
  ∃ st, result = .ok st ∧ AtItem st implemented registered

/-! ## Ends of regions -/

variable {text : Text}

section

variable (atItem : AtItem st implemented registered)

include atItem

theorem AtItem.reads_constraint
    (loads : (loader.loadCConstraints text).isSome = true) :
    Reads (st.endRegion loader .CONSTRAINT text) implemented registered := by
  obtain ⟨constraints, isLoaded⟩ := Option.isSome_iff_exists.mp loads
  refine ⟨{ st with currConstraints := constraints }, ?_, ?_⟩
  · rw [endRegion, constraint, isLoaded]
  · exact ⟨atItem.outside, atItem.implementation, atItem.registered⟩

theorem AtItem.reads_implementation :
    Reads (st.endRegion loader .IMPLEMENTATION text)
      (some (loadCImplementation text)) registered :=
  ⟨_, rfl, atItem.outside, rfl, atItem.registered⟩

end

/-- A declaration whose name is new -/
structure IsReadable
    (entry : InterfaceEntry)
    (registered : List InterfaceEntry) :
    Prop where
  plain : entry.declaration.IsPlain
  derived : entry.declaration.IsDerived
  identifiers : ∀ other, other ∈ entry :: registered →
    '(' ∉ other.declaration.name
  newName : ∀ other, other ∈ registered →
    entry.declaration.name ≠ other.declaration.name

variable {entry : InterfaceEntry}

theorem AtItem.reads_function
    (atItem : AtItem st entry.implemented registered)
    (readable : IsReadable entry registered)
    (cut : splitBlanks (withoutPunctuation text) =
      tokenWords entry.declaration.tokens) :
    Reads (st.endRegion loader .FUNCTION text) none
      (registered ++ [entry]) := by
  obtain ⟨signature, taskSignature, isCall, parses, sameTask⟩ :=
    readable.plain.parseCFunction_eq readable.derived cut st.implementation
  refine ⟨{ st with
    manager := st.manager.register st.currConstraints
      ⟨"NULL".toList, entry.declaration.name, taskSignature, signature⟩
    currConstraints := loader.defaultCtr
    implementation := none }, ?_, ?_⟩
  · rw [endRegion, function, parses]
    rfl
  · exact ⟨atItem.outside, rfl,
      atItem.registered.register st.currConstraints readable.identifiers
        readable.newName isCall fun noTask =>
          sameTask (atItem.implementation.trans noTask)⟩

/-! ## Lines -/

variable {line : Text}

theorem readLine_outside
    (outside : st.isReadingCodeRegion = false) :
    st.readLine loader line = st.outsideRegion loader (trim line) := by
  rw [readLine, outside]

variable {type : CodeRegion}

theorem readLine_inside
    (inside : st.isReadingCodeRegion = true)
    (isType : st.type = some type) :
    st.readLine loader line = st.insideRegion loader type (trim line) := by
  rw [readLine, inside, isType]

/-- The lines of a region are joined until one ends it. -/
theorem foldlM_continuation
    {rest : List Text}
    (noComment : type ≠ .COMMENT)
    (joins : continuation rest = some text)
    (inside : st.isReadingCodeRegion = true)
    (isType : st.type = some type) :
    rest.foldlM (readLine loader) st =
      endRegion loader
        { st with
          isReadingCodeRegion := false
          structureString := st.structureString ++ text }
        type (st.structureString ++ text) := by
  induction rest generalizing st text with
  | nil => exact absurd joins nofun
  | cons line rest hypothesis =>
      rw [foldlM_cons, readLine_inside inside isType,
        insideRegion]
      rw [continuation] at joins
      split at joins
      · rename_i isComment
        rw [if_pos isComment]
        exact hypothesis joins inside isType
      rename_i noLineComment
      rw [if_neg noLineComment, if_neg noComment]
      split at joins
      · rename_i isEnd
        split at joins
        · rename_i isLast
          obtain rfl := Option.some.inj joins
          rw [if_pos isEnd, isLast]
          simp
        · exact absurd joins nofun
      · rename_i noEnd
        rw [if_neg noEnd]
        obtain ⟨more, ofRest, rfl⟩ := Option.map_eq_some_iff.mp joins
        have continued := @hypothesis
          { st with structureString := st.structureString ++ trim line } _
          ofRest inside isType
        rw [← append_assoc]
        exact continued

theorem foldlM_endsComment
    {rest : List Text}
    (ends : endsComment rest = true)
    (inside : st.isReadingCodeRegion = true)
    (isType : st.type = some .COMMENT) :
    rest.foldlM (readLine loader) st =
      .ok { st with isReadingCodeRegion := false } := by
  induction rest with
  | nil => exact absurd ends nofun
  | cons line rest hypothesis =>
      rw [foldlM_cons, readLine_inside inside isType,
        insideRegion]
      rw [endsComment] at ends
      split at ends
      · rename_i isComment
        rw [if_pos isComment]
        exact hypothesis ends
      rename_i noLineComment
      rw [if_neg noLineComment, if_pos rfl]
      split at ends
      · rename_i isEnd
        rw [if_pos isEnd, of_decide_eq_true ends]
        rfl
      · rename_i noEnd
        rw [if_neg noEnd]
        exact hypothesis ends

variable (loader)

/-- A line outside of a region that starts one of the type -/
def StartsRegion
    (st : ParserState Constraints)
    (type : CodeRegion)
    (line : Text) :
    Prop :=
  st.outsideRegion loader line =
    if closes line then st.endRegion loader type line
    else .ok (st.enter type line)

variable {loader}

/-- A region is read like one line with its text. -/
theorem AtItem.foldlM_region
    {first : Text}
    {rest : List Text}
    (atItem : AtItem st implemented registered)
    (noComment : type ≠ .COMMENT)
    (starts : StartsRegion loader st type (trim first))
    (isRegion : regionText first rest = some text) :
    ∃ st', AtItem st' implemented registered ∧
      (first :: rest).foldlM (readLine loader) st =
        endRegion loader st' type text := by
  rw [foldlM_cons, readLine_outside atItem.outside, starts]
  rw [regionText] at isRegion
  split at isRegion
  · rename_i isEnd
    split at isRegion
    · rename_i isLast
      obtain rfl := Option.some.inj isRegion
      refine ⟨st, atItem, ?_⟩
      rw [if_pos isEnd, isLast]
      exact bind_pure _
    · exact absurd isRegion nofun
  · rename_i noEnd
    obtain ⟨more, joins, rfl⟩ := Option.map_eq_some_iff.mp isRegion
    refine ⟨{ st.enter type (trim first) with
      isReadingCodeRegion := false
      structureString := trim first ++ more }, ?_, ?_⟩
    · exact ⟨rfl, atItem.implementation, atItem.registered⟩
    · rw [if_neg noEnd]
      exact foldlM_continuation noComment joins rfl rfl

/-! ## Starts of regions -/

variable {char : Char}

theorem startsWith_eq_false
    {line start : Text}
    (first : start.head? = some char)
    (other : char ∉ line) :
    startsWith line start = false := by
  refine Bool.eq_false_iff.mpr fun isStart => other ?_
  obtain ⟨more, rfl⟩ := isPrefixOf_iff_prefix.mp isStart
  exact mem_append_left _ (mem_of_head? first)

theorem startsRegion_constraints
    (starts : startsWith line constraintsStart = true) :
    StartsRegion loader st .CONSTRAINT line := by
  obtain ⟨more, rfl⟩ := isPrefixOf_iff_prefix.mp starts
  rw [StartsRegion, outsideRegion, if_neg, if_neg, if_pos starts]
  · rfl
  all_goals exact Bool.false_ne_true

theorem startsRegion_implements
    (starts : startsWith line implementsStart = true) :
    StartsRegion loader st .IMPLEMENTATION line := by
  obtain ⟨more, rfl⟩ := isPrefixOf_iff_prefix.mp starts
  rw [StartsRegion, outsideRegion, if_neg, if_neg, if_neg,
    if_pos starts]
  · rfl
  all_goals exact Bool.false_ne_true

theorem startsRegion_function
    (bare : ∀ char, char ∈ line → isBareChar char = true)
    (isOpened : opens line = true) :
    StartsRegion loader st .FUNCTION line := by
  have other : ∀ {start : Text} {char : Char}, start.head? = some char →
      isBareChar char = false → startsWith line start = false := by
    intro start char first notBare
    refine startsWith_eq_false first fun member => ?_
    rw [bare char member] at notBare
    exact absurd notBare nofun
  have noLineComment : startsWith line "//".toList = false := other rfl rfl
  have noPragma : startsWith line "#".toList = false := other rfl rfl
  have noComment : startsWith line "/*".toList = false := other rfl rfl
  have noConstraints : startsWith line constraintsStart = false :=
    other rfl rfl
  have noImplements : startsWith line implementsStart = false := other rfl rfl
  rw [StartsRegion, outsideRegion, noLineComment, noPragma,
    noComment, noConstraints, noImplements, isOpened]
  rfl

theorem AtItem.foldlM_comment
    {first : Text}
    {rest : List Text}
    (atItem : AtItem st implemented registered)
    (starts : startsWith (trim first) "/*".toList = true)
    (noEnd : ['*', '/'].isSuffixOf (trim first) = false)
    (ends : endsComment rest = true) :
    ∃ st', AtItem st' implemented registered ∧
      (first :: rest).foldlM (readLine loader) st = .ok st' := by
  have noLineComment : startsWith (trim first) "//".toList = false := by
    obtain ⟨more, same⟩ := isPrefixOf_iff_prefix.mp starts
    rw [← same]
    rfl
  have noPragma : startsWith (trim first) "#".toList = false := by
    obtain ⟨more, same⟩ := isPrefixOf_iff_prefix.mp starts
    rw [← same]
    rfl
  have enters : st.outsideRegion loader (trim first) =
      .ok (st.enter .COMMENT st.structureString) := by
    rw [outsideRegion, noLineComment, noPragma, noEnd, starts]
    rfl
  refine ⟨{ st.enter .COMMENT st.structureString with
    isReadingCodeRegion := false }, ?_, ?_⟩
  · exact ⟨rfl, atItem.implementation, atItem.registered⟩
  · rw [foldlM_cons, readLine_outside atItem.outside, enters]
    exact foldlM_endsComment ends rfl rfl

/-- Nothing happens on a silent line. -/
theorem outsideRegion_silent
    (silent : isSilent line = true) :
    st.outsideRegion loader line = .ok st := by
  unfold outsideRegion
  split
  · rfl
  rename_i notPassed
  simp only [Bool.or_eq_true, Bool.and_eq_true, not_or, not_and] at notPassed
  obtain ⟨⟨noLineComment, noPragma⟩, noComment⟩ := notPassed
  simp only [isSilent, noLineComment, noPragma, Bool.false_or] at silent
  split at silent
  · rename_i isComment
    exact absurd silent (noComment isComment)
  · rename_i notComment
    have notOpened : opens line = false := by simpa using silent
    have noParenthesis : '(' ∉ line := of_decide_eq_false notOpened
    have other : ∀ {start : Text}, '(' ∈ start →
        ¬ startsWith line start = true := by
      intro start parenthesis isStart
      obtain ⟨more, rfl⟩ := isPrefixOf_iff_prefix.mp isStart
      exact noParenthesis (mem_append_left _ parenthesis)
    rw [if_neg notComment, if_neg (other (by decide)),
      if_neg (other (by decide)), if_neg]
    exact Bool.not_eq_true _ ▸ notOpened

/-! ## Files -/

theorem trim_prefix_regionText
    {first : Text}
    {rest : List Text}
    (isRegion : regionText first rest = some text) :
    trim first <+: text := by
  unfold regionText at isRegion
  split at isRegion
  · split at isRegion
    · exact Option.some.inj isRegion ▸ prefix_rfl
    · exact absurd isRegion nofun
  · obtain ⟨more, -, rfl⟩ := Option.map_eq_some_iff.mp isRegion
    exact prefix_append _ _

/-- A region that is opened starts with no blank. -/
theorem not_blank_of_regionText
    {first rest' : Text}
    {rest : List Text}
    (isRegion : regionText first rest = some (char :: rest'))
    (isOpened : opens (trim first) = true) :
    ¬ char ≤ ' ' := by
  obtain ⟨more, same⟩ := trim_prefix_regionText isRegion
  cases trimmed : trim first with
  | nil =>
      rw [trimmed] at isOpened
      exact absurd isOpened (by decide)
  | cons firstChar others =>
      rw [trimmed] at same
      obtain ⟨rfl, -⟩ := cons.inj same
      exact trim_start trimmed

/-- The declarations that have been read, and those that come -/
structure AreReadable (registered entries : List InterfaceEntry) : Prop where
  plain : ∀ entry, entry ∈ entries → entry.declaration.IsPlain
  derived : ∀ entry, entry ∈ entries → entry.declaration.IsDerived
  identifiers : ∀ entry, entry ∈ registered ++ entries →
    '(' ∉ entry.declaration.name
  distinct : ((registered ++ entries).map fun entry =>
    entry.declaration.name).Nodup

variable {entries : List InterfaceEntry}

theorem AreReadable.first
    (readable : AreReadable registered (entry :: entries)) :
    IsReadable entry registered where
  plain := readable.plain entry mem_cons_self
  derived := readable.derived entry mem_cons_self
  identifiers other member := by
    refine readable.identifiers other (mem_append.mpr ?_)
    rcases mem_cons.mp member with rfl | member
    · exact .inr mem_cons_self
    · exact .inl member
  newName other member same := by
    have distinct := readable.distinct
    rw [map_append] at distinct
    exact (nodup_append.mp distinct).2.2 _ (mem_map_of_mem member)
      _ mem_cons_self same.symm

theorem AreReadable.rest
    (readable : AreReadable registered (entry :: entries)) :
    AreReadable (registered ++ [entry]) entries where
  plain other member := readable.plain other (mem_cons_of_mem entry member)
  derived other member :=
    readable.derived other (mem_cons_of_mem entry member)
  identifiers := by
    rw [append_assoc, singleton_append]
    exact readable.identifiers
  distinct := by
    rw [append_assoc, singleton_append]
    exact readable.distinct

/-- A file that is laid out is read to its end. -/
theorem foldlM_laidOut
    {lines : List Text}
    (laidOut : LaidOut loader implemented lines entries)
    (atItem : AtItem st implemented registered)
    (readable : AreReadable registered entries) :
    ∃ st', lines.foldlM (readLine loader) st = .ok st' ∧
      Registered st'.manager (registered ++ entries) := by
  induction laidOut generalizing st registered with
  | done =>
      exact ⟨st, rfl, (append_nil registered).symm ▸ atItem.registered⟩
  | silent silent _ hypothesis =>
      rw [foldlM_cons, readLine_outside atItem.outside,
        outsideRegion_silent silent]
      exact hypothesis atItem readable
  | comment starts noEnd ends _ hypothesis =>
      obtain ⟨st', atEnd, reads⟩ := atItem.foldlM_comment starts noEnd ends
      rw [foldlM_append, reads]
      exact hypothesis atEnd readable
  | constraints starts isRegion loads _ hypothesis =>
      obtain ⟨st', atEnd, reads⟩ := atItem.foldlM_region (by decide)
        (startsRegion_constraints starts) isRegion
      obtain ⟨st'', loaded, atNext⟩ := atEnd.reads_constraint loads
      rw [foldlM_append, reads, loaded]
      exact hypothesis atNext readable
  | implements starts isRegion _ hypothesis =>
      obtain ⟨st', atEnd, reads⟩ := atItem.foldlM_region (by decide)
        (startsRegion_implements starts) isRegion
      obtain ⟨st'', loaded, atNext⟩ := atEnd.reads_implementation
      rw [foldlM_append, reads, loaded]
      exact hypothesis atNext readable
  | declaration isOpened isRegion isText _ hypothesis =>
      have bare := fun char member => isText.bare char
        ((trim_prefix_regionText isRegion).subset member)
      have cut := isText.splitBlanks_eq fun char rest same =>
        not_blank_of_regionText (same ▸ isRegion) isOpened
      obtain ⟨st', atEnd, reads⟩ := atItem.foldlM_region (by decide)
        (startsRegion_function bare isOpened) isRegion
      obtain ⟨st'', parsed, atNext⟩ := atEnd.reads_function readable.first cut
      rw [foldlM_append, reads, parsed, append_cons registered]
      exact hypothesis atNext readable.rest

theorem not_parenthesis_of_identifier
    {name : Text}
    (identifier : IsIdentifier name) :
    '(' ∉ name :=
  fun member => absurd (identifier.chars '(' member) (by decide)

/-- Each declaration of a file that the grammar accepts is found by its calls,
where the declarations are plain and laid out for the parser. -/
theorem foundByCalls_of_laidOut
    {file : List Text}
    {entries : List InterfaceEntry}
    (accepted : Accepts file (entries.map declaration))
    (laidOut : LaidOut loader none file entries)
    (plain : ∀ entry, entry ∈ entries → entry.declaration.IsPlain) :
    FoundByCalls loader file entries := by
  have derived : ∀ entry, entry ∈ entries → entry.declaration.IsDerived :=
    fun entry member => accepted.derived _ (mem_map_of_mem member)
  have readable : AreReadable [] entries :=
    { plain := plain
      derived := derived
      identifiers := fun entry member =>
        not_parenthesis_of_identifier (derived entry member).name
      distinct := map_map ▸ accepted.distinct }
  have start : AtItem (.start loader) none [] := ⟨rfl, rfl, registered_empty⟩
  obtain ⟨st, reads, invariant⟩ := foldlM_laidOut laidOut start readable
  refine ⟨st.manager, ?_, invariant.named, invariant.found⟩
  rw [parseIDLMethods, reads]
  rfl

end Reading

/-! ## Two files -/

def exampleLoader : ConstraintLoader Unit where
  defaultCtr := ()
  loadCConstraints _ := some ()

def scaleArguments : List DeclaredArgument :=
  [⟨.inDir, .basic .int, "n".toList⟩,
    ⟨.outDir, .named "Matrix".toList, "m".toList⟩]

def scaleDeclaration (name : Text) : Declaration :=
  ⟨false, .basic .void, name, scaleArguments⟩

def scaleFile : List Text :=
  ["interface Math \x7b".toList,
    "  @Constraints(memory=2);".toList,
    "  void scale(in int n,".toList,
    "    out Matrix m);".toList,
    "  @Implements(scale);".toList,
    "  void fast(in int n, out Matrix m);".toList,
    "\x7d;".toList]

def scaleEntries : List InterfaceEntry :=
  [⟨none, scaleDeclaration "scale".toList⟩,
    ⟨some ⟨"NULL".toList, "scale".toList⟩, scaleDeclaration "fast".toList⟩]

variable {name : Text}

theorem scaleDeclaration_derived
    (identifier : IsIdentifier name) :
    (scaleDeclaration name).IsDerived where
  static := nofun
  returnType := trivial
  name := identifier
  types :=
    (by decide : ∀ arg, arg ∈ scaleArguments → arg.type.IsDerived)
  names :=
    (by decide : ∀ arg, arg ∈ scaleArguments → IsIdentifier arg.name)
  noVoid :=
    (by decide : ∀ arg, arg ∈ scaleArguments → arg.type.datatype ≠ .void)
  distinct :=
    (by decide : (scaleArguments.map DeclaredArgument.name).Nodup)

theorem scaleDeclaration_plain
    (noClass : ':' ∉ name) :
    (scaleDeclaration name).IsPlain where
  noResult := rfl
  noClass := noClass
  someArgument := nofun
  arguments := (by decide : ∀ arg, arg ∈ scaleArguments → arg.IsPlain)

theorem scaleFile_accepted :
    Accepts scaleFile (scaleEntries.map declaration) where
  scans := ⟨"Math".toList, by decide, by decide +kernel⟩
  derived decl member := by
    obtain ⟨entry, isEntry, rfl⟩ := mem_map.mp member
    rcases mem_pair.mp isEntry with rfl | rfl
    · exact scaleDeclaration_derived (by decide)
    · exact scaleDeclaration_derived (by decide)
  distinct := by decide

theorem scaleFile_laidOut :
    LaidOut exampleLoader none scaleFile scaleEntries := by
  refine .silent (by decide) ?_
  refine @constraints _ _ _ _ [] _ _ _ (by decide) rfl rfl ?_
  refine @declaration _ _ _ _ ["    out Matrix m);".toList]
    "void scale(in int n,out Matrix m);".toList _ _ _ (by decide)
    (by decide +kernel) ⟨all_eq_true.mp rfl, by decide +kernel⟩ ?_
  refine @implements _ _ _ _ [] "@Implements(scale);".toList _ _
    (by decide) (by decide +kernel) ?_
  refine @declaration _ _ _ _ []
    "void fast(in int n, out Matrix m);".toList _ _ _ (by decide)
    (by decide +kernel) ⟨all_eq_true.mp rfl, by decide +kernel⟩ ?_
  exact .silent (by decide) .done

theorem foundByCalls_scaleFile :
    Accepts scaleFile (scaleEntries.map declaration) ∧
      FoundByCalls exampleLoader scaleFile scaleEntries := by
  refine ⟨scaleFile_accepted, ?_⟩
  refine foundByCalls_of_laidOut scaleFile_accepted scaleFile_laidOut ?_
  intro entry member
  rcases mem_pair.mp member with rfl | rfl
  · exact scaleDeclaration_plain (by decide)
  · exact scaleDeclaration_plain (by decide)

/-- `void reset()` -/
def resetDeclaration : Declaration :=
  ⟨false, .basic .void, "reset".toList, []⟩

def resetFile : List Text :=
  ["interface Math \x7b".toList, "  void reset();".toList, "\x7d;".toList]

/-- A function without arguments stops the parser with an exception. -/
theorem not_foundByCalls_resetFile :
    Accepts resetFile [resetDeclaration] ∧
      ¬ FoundByCalls exampleLoader resetFile [⟨none, resetDeclaration⟩] := by
  refine ⟨⟨⟨"Math".toList, by decide, by decide +kernel⟩, ?_, by decide⟩, ?_⟩
  · intro decl member
    rw [mem_singleton.mp member]
    exact ⟨nofun, trivial, by decide, nofun, nofun, nofun, nodup_nil⟩
  · rintro ⟨manager, reads, -⟩
    exact absurd reads nofun

end DistributedRdf.CBinding
