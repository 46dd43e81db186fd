import DistributedRdf.FallibleSteps
import DistributedRdf.TextCuts

namespace DistributedRdf.Distribution

open Sparql List

/-!
# Rejected queries

A query is rejected when no subquery is made for it.  Only the errors of cutting
out the `WHERE` clause are caught.  A pattern that does not have three tokens and
a declaration that ends too early raise exceptions behind the `try` statement.
-/

/-! ## Malformed queries -/

def clausePatterns (query : Text) : List (List Text) :=
  match whereClause query with
  | .ok patterns => patterns
  | .error _ => []

/-- Declarations start at every third token and have three tokens. -/
def CutShort (query : Text) : Prop :=
  ∃ position, position % 3 = 0 ∧
    (split query)[position]? = some "PREFIX".toList ∧
    (split query).length < position + 3

/-- The forms that are not supported -/
inductive Malformed (query : Text) : Prop where
  | noWhere : ¬ "WHERE".toList <:+: query → Malformed query
  | noBraces :
      (∀ front back, query = front ++ "WHERE".toList ++ back → '{' ∉ back) →
      Malformed query
  | notThreeTokens {pattern} :
      pattern ∈ clausePatterns query →
      pattern.length ≠ 3 →
      Malformed query
  | declaration : CutShort query → Malformed query

/-- There is a result, which is empty for a malformed query. -/
def RejectsMalformed (query : Text) : Prop :=
  ∃ queries, partitionQuery query = .ok queries ∧
    (Malformed query → queries = [])

/-- A brace is opened between the first `WHERE` and the next one. -/
def HasClause (query : Text) : Prop :=
  ∃ clause, (splitOn "WHERE".toList (strip query))[1]? = some clause ∧
    '{' ∈ clause

/-! ## Pieces of a text -/

variable {char : Char}

theorem mem_of_mem_splitOnFrom
    {separator : Text}
    {skip : Nat}
    {word text piece : Text}
    (isPiece : piece ∈ splitOnFrom separator skip word text)
    (member : char ∈ piece) :
    char ∈ word ∨ char ∈ text := by
  induction text generalizing skip word with
  | nil =>
      have same : piece = word.reverse := by
        cases skip <;> simpa [splitOnFrom] using isPiece
      exact .inl (mem_reverse.mp (same ▸ member))
  | cons first rest hypothesis =>
      cases skip with
      | succ skip =>
          exact (hypothesis isPiece).imp_right
            (mem_cons_of_mem first)
      | zero =>
          rw [splitOnFrom] at isPiece
          split at isPiece
          · rcases mem_cons.mp isPiece with rfl | isPiece
            · exact .inl (mem_reverse.mp member)
            · exact .inr (mem_cons_of_mem first
                ((hypothesis isPiece).resolve_left not_mem_nil))
          · rcases hypothesis isPiece with inWord | inRest
            · rcases mem_cons.mp inWord with rfl | inWord
              · exact .inr mem_cons_self
              · exact .inl inWord
            · exact .inr (mem_cons_of_mem first inRest)

/-- The separator stands behind a piece that is not the last one. -/
theorem exists_of_splitOnFrom
    {separator word text first second : Text}
    {more : List Text}
    (nonempty : separator ≠ [])
    (pieces :
      splitOnFrom separator 0 word text = first :: second :: more) :
    ∃ front rest, text = front ++ separator ++ rest ∧
      splitOn separator rest = second :: more := by
  induction text generalizing word with
  | nil => exact absurd (cons.inj pieces).2 nofun
  | cons char rest hypothesis =>
      rw [splitOnFrom] at pieces
      split at pieces
      · rename_i starts
        obtain ⟨behind, whole⟩ := isPrefixOf_iff_prefix.mp starts
        obtain ⟨head, tail, rfl⟩ := exists_cons_of_ne_nil nonempty
        obtain ⟨-, rfl⟩ := cons.inj whole
        refine ⟨[], behind, whole.symm, ?_⟩
        have later := (cons.inj pieces).2
        rw [← later]
        exact (splitOnFrom_skip tail behind).symm
      · obtain ⟨front, behind, rfl, later⟩ := hypothesis pieces
        exact ⟨char :: front, behind, rfl, later⟩

theorem splitOn_ne_nil {separator text : Text} :
    splitOn separator text ≠ [] := by
  have nonempty (skip : Nat) (word : Text) :
      splitOnFrom separator skip word text ≠ [] := by
    induction text generalizing skip word with
    | nil => cases skip <;> exact cons_ne_nil _ _
    | cons char rest hypothesis =>
        cases skip with
        | succ skip => exact hypothesis skip word
        | zero =>
            rw [splitOnFrom]
            split
            · exact cons_ne_nil _ _
            · exact hypothesis 0 (char :: word)
  exact nonempty 0 []

variable {text : Text}

theorem mem_strip
    (visible : isSpace char = false) :
    char ∈ strip text ↔ char ∈ text := by
  obtain ⟨lead, tail, leadBlank, tailBlank, whole⟩ := exists_strip text
  have notBlank : ∀ blanks : Text, Blank blanks → char ∉ blanks := by
    intro blanks blank member
    exact absurd (blank char member) (by simp [visible])
  conv_rhs => rw [whole]
  simp [notBlank lead leadBlank, notBlank tail tailBlank]

theorem exists_of_second
    {separator text piece : Text}
    (nonempty : separator ≠ [])
    (isSecond : (splitOn separator text)[1]? = some piece) :
    ∃ front rest, text = front ++ separator ++ rest ∧
      piece ∈ splitOn separator rest := by
  cases pieces : splitOn separator text with
  | nil => exact absurd pieces splitOn_ne_nil
  | cons first others =>
      cases others with
      | nil =>
          rw [pieces] at isSecond
          exact absurd isSecond nofun
      | cons second more =>
          rw [pieces] at isSecond
          obtain rfl : second = piece := Option.some.inj isSecond
          obtain ⟨front, rest, whole, later⟩ :=
            exists_of_splitOnFrom nonempty pieces
          exact ⟨front, rest, whole, later ▸ mem_cons_self⟩

/-- There is a second piece where there is a separator. -/
theorem exists_second_iff :
    (∃ piece, (splitOn [char] text)[1]? = some piece) ↔ char ∈ text := by
  constructor
  · rintro ⟨piece, isSecond⟩
    obtain ⟨front, rest, rfl, -⟩ :=
      exists_of_second (cons_ne_nil _ _) isSecond
    simp
  · intro member
    obtain ⟨front, rest, rfl, absent⟩ := eq_append_cons_of_mem member
    obtain ⟨piece, more, pieces⟩ :=
      exists_cons_of_ne_nil (@splitOn_ne_nil [char] rest)
    exact ⟨piece, by rw [splitOn_singleton_append absent, pieces]; rfl⟩

/-! ## The `WHERE` clause -/

variable {position : Nat}

theorem index_eq_ok
    {items : List α}
    {item : α} :
    index items position = .ok item ↔ items[position]? = some item := by
  unfold index
  cases items[position]? <;> simp

theorem exists_whereClause_iff {query : Text} :
    (∃ patterns, whereClause query = .ok patterns) ↔ HasClause query := by
  simp only [whereClause, bind_eq_ok, index_eq_ok, HasClause]
  constructor
  · rintro ⟨patterns, clause, isClause, body, isBody, -⟩
    refine ⟨clause, isClause, ?_⟩
    exact (mem_strip (by decide)).mp (exists_second_iff.mp ⟨body, isBody⟩)
  · rintro ⟨clause, isClause, opens⟩
    obtain ⟨body, isBody⟩ :=
      exists_second_iff.mpr ((mem_strip (by decide)).mpr opens)
    obtain ⟨first, more, pieces⟩ :=
      exists_cons_of_ne_nil (@splitOn_ne_nil ['}'] (strip body))
    exact ⟨_, clause, isClause, body, isBody, first,
      by rw [pieces]; rfl, rfl⟩

variable {query : Text}

/-- A query without `WHERE` or without braces behind it has no clause. -/
theorem not_hasClause_of_noBraces
    (noBraces : ∀ front back,
      query = front ++ "WHERE".toList ++ back → '{' ∉ back) :
    ¬ HasClause query := by
  rintro ⟨clause, isClause, opens⟩
  obtain ⟨lead, tail, -, -, whole⟩ := exists_strip query
  obtain ⟨front, rest, stripped, isPiece⟩ :=
    exists_of_second (by decide) isClause
  have inRest : '{' ∈ rest :=
    (mem_of_mem_splitOnFrom isPiece opens).resolve_left not_mem_nil
  rw [stripped] at whole
  refine noBraces (lead ++ front) (rest ++ tail) ?_
    (mem_append_left tail inRest)
  rw [whole]
  simp

theorem not_hasClause_of_noWhere
    (noWhere : ¬ "WHERE".toList <:+: query) :
    ¬ HasClause query := by
  refine not_hasClause_of_noBraces fun front back whole => ?_
  exact absurd ⟨front, back, whole.symm⟩ noWhere

/-! ## Declarations and patterns -/

theorem exists_prefixAt_iff {elements : List Text} :
    (∃ declaration, prefixAt elements position = .ok declaration) ↔
      position + 2 < elements.length := by
  simp only [prefixAt, bind_eq_ok, index_eq_ok]
  constructor
  · rintro ⟨_, _, _, _, _, iri, isIri, -⟩
    exact (List.getElem?_eq_some_iff.mp isIri).1
  · intro complete
    exact ⟨_, _, List.getElem?_eq_getElem (by omega), _,
      List.getElem?_eq_getElem (by omega), _,
      List.getElem?_eq_getElem complete, rfl⟩

theorem exists_getPrefix_iff :
    (∃ prologue, getPrefix query = .ok prologue) ↔ ¬ CutShort query := by
  have given : ∀ (prologue : Text) (position : Nat),
      (∃ next, (do
        let declaration ← prefixAt (split query) position
        return prologue ++ declaration) = Except.ok next) ↔
      position + 2 < (split query).length := by
    intro prologue position
    rw [← exists_prefixAt_iff]
    simp only [bind_eq_ok]
    constructor
    · rintro ⟨_, declaration, isDeclaration, -⟩
      exact ⟨declaration, isDeclaration⟩
    · rintro ⟨declaration, isDeclaration⟩
      exact ⟨_, declaration, isDeclaration, rfl⟩
  rw [getPrefix, exists_foldlM_eq_ok_iff given]
  simp only [List.mem_filter, List.mem_range, decide_eq_true_eq, CutShort]
  constructor
  · rintro complete ⟨position, isThird, isKeyword, short⟩
    have inRange := (List.getElem?_eq_some_iff.mp isKeyword).1
    have longer := complete position ⟨inRange, isThird, isKeyword⟩
    omega
  · rintro notShort position ⟨-, isThird, isKeyword⟩
    by_contra short
    exact notShort ⟨position, isThird, isKeyword, by omega⟩

/-- Unpacking takes patterns of three tokens only. -/
theorem exists_collectEntities_iff
    {prologue : Text}
    {queries : List SubQuery}
    {entities : List Text}
    {patterns : List (List Text)} :
    (∃ collected,
      collectEntities prologue queries entities patterns = .ok collected) ↔
      ∀ pattern ∈ patterns, pattern.length = 3 := by
  induction patterns generalizing queries entities with
  | nil =>
      exact iff_of_true ⟨_, rfl⟩ fun _ isPattern =>
        absurd isPattern not_mem_nil
  | cons pattern rest hypothesis =>
      rw [forall_mem_cons]
      by_cases three : pattern.length = 3
      · obtain ⟨subject, predicate, object, rfl⟩ :=
          length_eq_three.mp three
        rw [and_iff_right three, collectEntities]
        split
        · exact hypothesis
        · exact hypothesis
      · refine iff_of_false ?_ fun all => three all.1
        rintro ⟨collected, ended⟩
        rcases pattern with
          _ | ⟨_, _ | ⟨_, _ | ⟨_, _ | ⟨_, _⟩⟩⟩⟩
        · simp [collectEntities] at ended
        · simp [collectEntities] at ended
        · simp [collectEntities] at ended
        · exact three rfl
        · simp [collectEntities] at ended

/-! ## Partitions -/

/-- There is a result unless a clause comes with a pattern or a declaration that
cannot be read. -/
theorem exists_partitionQuery_iff :
    (∃ queries, partitionQuery query = .ok queries) ↔
      ¬ HasClause query ∨
        ((∀ pattern ∈ clausePatterns query, pattern.length = 3) ∧
          ¬ CutShort query) := by
  rw [← exists_whereClause_iff, ← exists_getPrefix_iff]
  cases clause : whereClause query with
  | error exception =>
      refine iff_of_true ⟨[], by rw [partitionQuery, clause]⟩ (.inl ?_)
      rintro ⟨_, same⟩
      exact absurd same nofun
  | ok patterns =>
      have noError : ¬ ¬ ∃ others, Except.ok patterns =
          (Except.ok others : Except PyError _) :=
        not_not_intro ⟨patterns, rfl⟩
      rw [or_iff_right noError, clausePatterns, clause, partitionQuery, clause]
      simp only [bind_eq_ok]
      constructor
      · rintro ⟨_, prologue, isPrologue, collected, isCollected, -⟩
        exact ⟨exists_collectEntities_iff.mp ⟨collected, isCollected⟩,
          prologue, isPrologue⟩
      · rintro ⟨three, prologue, isPrologue⟩
        obtain ⟨collected, isCollected⟩ :=
          exists_collectEntities_iff.mpr three
        exact ⟨_, prologue, isPrologue, collected, isCollected, rfl⟩

theorem partitionQuery_of_not_hasClause
    (noClause : ¬ HasClause query) :
    partitionQuery query = .ok [] := by
  rw [← exists_whereClause_iff] at noClause
  rw [partitionQuery]
  cases clause : whereClause query with
  | error exception => rfl
  | ok patterns => exact absurd ⟨patterns, clause⟩ noClause

/-- Malformed queries are rejected where they have no clause.  In a clause each
pattern needs three tokens, and then all declarations of the query have to be
complete. -/
theorem rejectsMalformed_iff {query : Text} :
    RejectsMalformed query ↔
      ¬ HasClause query ∨
        ((∀ pattern ∈ clausePatterns query, pattern.length = 3) ∧
          ¬ CutShort query) := by
  constructor
  · rintro ⟨queries, isResult, -⟩
    exact exists_partitionQuery_iff.mp ⟨queries, isResult⟩
  · intro condition
    by_cases noClause : HasClause query
    · obtain ⟨three, complete⟩ :=
        condition.resolve_left (not_not_intro noClause)
      obtain ⟨queries, isResult⟩ := exists_partitionQuery_iff.mpr condition
      refine ⟨queries, isResult, fun malformed => ?_⟩
      cases malformed with
      | noWhere noWhere =>
          exact absurd noClause (not_hasClause_of_noWhere noWhere)
      | noBraces noBraces =>
          exact absurd noClause (not_hasClause_of_noBraces noBraces)
      | notThreeTokens isPattern notThree =>
          exact absurd (three _ isPattern) notThree
      | declaration cutShort => exact absurd cutShort complete
    · exact ⟨[], partitionQuery_of_not_hasClause noClause, fun _ => rfl⟩

/-- A pattern without an object raises an exception. -/
theorem not_rejectsMalformed_twoTokens :
    ¬ RejectsMalformed "SELECT ?x WHERE \x7b ?x a \x7d".toList := by
  rintro ⟨queries, isResult, -⟩
  have raised : partitionQuery "SELECT ?x WHERE \x7b ?x a \x7d".toList =
      .error .valueError := by
    decide +kernel
  exact absurd (raised.symm.trans isResult) nofun

end DistributedRdf.Distribution
