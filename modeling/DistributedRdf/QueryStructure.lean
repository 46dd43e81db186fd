import DistributedRdf.TextCuts
import Mathlib.Data.List.Sort
import Mathlib.Data.Nat.Choose.Basic

namespace DistributedRdf.Distribution

open Sparql

/-!
# The structure of a partition

A query is written from prefix declarations, a `SELECT` clause and a `WHERE`
clause.  `partition_query` recovers the parts by cutting the text at `WHERE`,
at braces and at every third token, so it recovers them as long as none of
these occurs where it was not written as one.
-/

def declarationTokens (declaration : Text × Text) : List Text :=
  ["PREFIX".toList, declaration.1, declaration.2]

/--
A query text by its parts.  Any blanks may stand between the tokens, and blank
pieces are allowed between two separators of the `WHERE` clause.
-/
structure WrittenQuery where
  declarations : List (Text × Text)
  selection : List Text
  head : Text
  gap : Text
  body : Text
  tail : Text
  headTokens :
    split head =
      declarations.flatMap declarationTokens ++ "SELECT".toList :: selection
  headEnds : ∃ front blank, isSpace blank = true ∧ head = front ++ [blank]
  gapBlank : Blank gap
  patternTokens :
    ∀ piece, piece ∈ splitOn " .".toList (lstrip body) →
      split piece = [] ∨ (split piece).length = 3
  tailBlank : Blank tail

namespace WrittenQuery

variable (query : WrittenQuery)

def text : Text :=
  query.head ++ "WHERE".toList ++
    (query.gap ++ '{' :: (query.body ++ '}' :: query.tail))

def patterns : List (List Text) :=
  ((splitOn " .".toList (lstrip query.body)).map split).filter fun tokens =>
    tokens ≠ []

local instance lawfulTexts : LawfulBEq Text :=
  inferInstance

/-- The object of a type pattern. -/
def typeObject : List Text → Option Text
  | [_, predicate, object] =>
      if predicate ∈ typePredicates then some object else none
  | _ => none

/-- The distinct classes in the order of their first appearance. -/
def mentionedClasses : List Text :=
  (query.patterns.filterMap typeObject).eraseDups

def declarationText (declaration : Text × Text) : Text :=
  "PREFIX".toList ++ " ".toList ++ declaration.1 ++ " ".toList ++
    declaration.2 ++ " ".toList

/-- All prefix declarations, in the order in which they were written. -/
def prologue : Text :=
  query.declarations.flatMap declarationText

end WrittenQuery

/-- The pairs of an item with each later one, by the first item. -/
def orderedPairs : List α → List (α × α)
  | [] => []
  | item :: later => later.map (fun other => (item, other)) ++ orderedPairs later

/-- The entity subqueries of the classes, then those of their pairs. -/
def subqueriesOf (prologue : Text) (entities : List Text) : List SubQuery :=
  entities.map (.entity prologue) ++
    (orderedPairs entities).map fun pair => .pair prologue pair.1 pair.2

namespace WrittenQuery

variable (query : WrittenQuery)

/-- The subqueries that the written query asks for. -/
structure Partitioned
    (queries : List SubQuery) : Prop where
  shape : queries = subqueriesOf query.prologue query.mentionedClasses
  length :
    queries.length =
      query.mentionedClasses.length +
        query.mentionedClasses.length *
          (query.mentionedClasses.length - 1) / 2
  distinct : (queries.map SubQuery.text).Nodup
  declared :
    ∀ subquery, subquery ∈ queries → query.prologue <+: subquery.text

/--
The keyword, the braces and `PREFIX` at a multiple of three occur nowhere but
where they were written as such.
-/
structure CutsCleanly : Prop where
  headKeyword : ¬ "WHERE".toList <:+: query.head
  bodyKeyword : ¬ "WHERE".toList <:+: query.body
  bodyOpens : '{' ∉ query.body
  bodyCloses : '}' ∉ query.body
  prefixes :
    ∀ position, position < (split query.text).length →
      (split query.text)[position]? = some "PREFIX".toList →
        position % 3 = 0 → position < 3 * query.declarations.length

end WrittenQuery

/-!
## The classes and their pairs
-/

theorem classesFrom_eq
    (entities : List Text)
    (patterns : List (List Text)) :
    classesFrom entities patterns =
      entities ++
        ((patterns.filterMap WrittenQuery.typeObject).filter
          fun object => object ∉ entities).eraseDups := by
  induction patterns generalizing entities with
  | nil => simp [classesFrom]
  | cons pattern rest hypothesis =>
      have noType : WrittenQuery.typeObject pattern = none →
          classesFrom entities (pattern :: rest) = classesFrom entities rest →
          classesFrom entities (pattern :: rest) =
            entities ++ (((pattern :: rest).filterMap
              WrittenQuery.typeObject).filter
                fun object => object ∉ entities).eraseDups := by
        intro isNone skips
        rw [List.filterMap_cons_none isNone, skips]
        exact hypothesis entities
      rcases pattern with
        _ | ⟨_, _ | ⟨predicate, _ | ⟨object, _ | ⟨_, _⟩⟩⟩⟩
      · exact noType rfl rfl
      · exact noType rfl rfl
      · exact noType rfl rfl
      · by_cases isType : predicate ∈ typePredicates
        · by_cases known : object ∈ entities
          · simp [classesFrom, WrittenQuery.typeObject, isType, known,
              hypothesis]
          · simp [classesFrom, WrittenQuery.typeObject, isType, known,
              hypothesis, List.eraseDups_cons, List.filter_filter,
              and_comm, beq_eq_decide]
        · simpa [classesFrom, WrittenQuery.typeObject, isType] using
            hypothesis entities
      · exact noType rfl rfl

/-- The two index loops over the classes yield the ordered pairs. -/
theorem pairQueries_eq
    (prologue : Text)
    (entities : List Text) :
    pairQueries prologue entities =
      (orderedPairs entities).map fun pair =>
        .pair prologue pair.1 pair.2 := by
  induction entities with
  | nil => rfl
  | cons entity later hypothesis =>
      have byPosition :
          (List.range later.length).map (fun position =>
              SubQuery.pair prologue entity (later.getD position [])) =
            later.map (.pair prologue entity) := by
        apply List.ext_getElem
        · simp
        · intro position inRange inLater
          simp only [List.length_map] at inLater
          simp [inLater]
      have shifted
          (first : Nat) :
          (((List.range later.length).map Nat.succ).filter fun second =>
              second > first + 1) =
            ((List.range later.length).filter fun second =>
              second > first).map Nat.succ := by
        rw [List.filter_map]
        congr 1
        apply List.filter_congr
        simp
      rw [orderedPairs, List.map_append, ← hypothesis]
      unfold pairQueries
      rw [List.length_cons, List.range_succ_eq_map, List.flatMap_cons,
        List.flatMap_map]
      congr 1
      · simpa [List.filter_map, Function.comp_def] using byPosition
      · apply List.flatMap_congr
        intro first _
        simp only [List.filter_cons, Nat.succ_eq_add_one] at shifted ⊢
        rw [shifted]
        simp [Function.comp_def]

theorem length_orderedPairs (items : List α) :
    (orderedPairs items).length = items.length * (items.length - 1) / 2 := by
  rw [← Nat.choose_two_right]
  induction items with
  | nil => rfl
  | cons item later hypothesis =>
      rw [orderedPairs, List.length_append, List.length_map,
        hypothesis, List.length_cons, Nat.choose_succ_succ' _ 1]
      simp

variable {items : List α}

theorem mem_of_mem_orderedPairs
    {pair : α × α}
    (member : pair ∈ orderedPairs items) :
    pair.1 ∈ items ∧ pair.2 ∈ items := by
  induction items with
  | nil => cases member
  | cons item later hypothesis =>
      rcases List.mem_append.mp member with first | rest
      · rcases List.mem_map.mp first with ⟨other, inLater, rfl⟩
        exact ⟨List.mem_cons_self, List.mem_cons_of_mem _ inLater⟩
      · have both := hypothesis rest
        exact ⟨List.mem_cons_of_mem _ both.1, List.mem_cons_of_mem _ both.2⟩

theorem nodup_orderedPairs
    (distinct : items.Nodup) :
    (orderedPairs items).Nodup := by
  induction items with
  | nil => exact List.nodup_nil
  | cons item later hypothesis =>
      rcases List.nodup_cons.mp distinct with ⟨fresh, laterDistinct⟩
      refine List.nodup_append.mpr
        ⟨?_, hypothesis laterDistinct, ?_⟩
      · exact laterDistinct.map fun _ _ same => (Prod.mk.inj same).2
      · rintro _ first pair rest rfl
        rcases List.mem_map.mp first with ⟨other, _, rfl⟩
        exact fresh (mem_of_mem_orderedPairs rest).1

variable (items)

theorem nodup_eraseDups
    [BEq α]
    [LawfulBEq α] :
    items.eraseDups.Nodup := by
  induction count : items.length using Nat.strong_induction_on
    generalizing items with
  | _ count hypothesis =>
      cases items with
      | nil => exact List.nodup_nil
      | cons item later =>
          rw [List.eraseDups_cons, List.nodup_cons]
          constructor
          · simp [List.mem_eraseDups]
          · refine hypothesis _ ?_ _ rfl
            have shorter := List.length_filter_le (fun other => !other == item)
              later
            rw [List.length_cons] at count
            omega

/-!
## The texts of the subqueries
-/

/-- What both templates begin with after the declarations. -/
def constructClause : Text :=
  " CONSTRUCT \x7b ?s ?p ?o \x7d WHERE \x7b \x7b".toList

theorem buildSubqueryEntity_eq (prologue typeQuery : Text) :
    buildSubqueryEntity prologue typeQuery =
      prologue ++ (constructClause ++ '?' ::
        ("s ?p ?o . ?s a ".toList ++ (typeQuery ++ ' ' ::
          (". FILTER(isLiteral(?o)) . \x7d UNION \x7b ?s ?p ?o . ?s a ".toList ++
            (typeQuery ++ " . ?s a ?o . \x7d \x7d ".toList))))) := by
  unfold buildSubqueryEntity constructClause
  repeat rw [String.toList_ofList]
  rfl

theorem buildSubqueryPair_eq (prologue typeSub typeObj : Text) :
    buildSubqueryPair prologue typeSub typeObj =
      prologue ++ (constructClause ++ ' ' ::
        ("?s ?p ?o . ?s a ".toList ++ (typeSub ++ ' ' ::
          (". ?o a ".toList ++ (typeObj ++ ' ' ::
            (". \x7d UNION \x7b ?o ?p ?s . ?s a ".toList ++ (typeSub ++
              (" . ?o a ".toList ++ (typeObj ++ " . \x7d \x7d".toList))))))))) := by
  unfold buildSubqueryPair constructClause
  repeat rw [String.toList_ofList]
  rfl

def IsToken (text : Text) : Prop :=
  ∀ char, char ∈ text → isSpace char = false

theorem isToken_nil : IsToken [] :=
  fun _ member => absurd member List.not_mem_nil

theorem IsToken.reverse
    {text : Text}
    (isToken : IsToken text) :
    IsToken text.reverse :=
  fun char member => isToken char (List.mem_reverse.mp member)

/-- A token ends at the first blank after it. -/
theorem token_append_inj
    {first second firstRest secondRest : Text}
    (firstToken : IsToken first)
    (secondToken : IsToken second)
    (same : first ++ ' ' :: firstRest = second ++ ' ' :: secondRest) :
    first = second ∧ firstRest = secondRest := by
  have ends
      {token rest : Text}
      (isToken : IsToken token) :
      (token ++ ' ' :: rest).takeWhile (fun char => !isSpace char) = token := by
    rw [List.takeWhile_append_of_pos]
    · simp [isSpace]
    · intro char member
      simp [isToken char member]
  have tokens : first = second := by
    rw [← @ends first firstRest firstToken, same, ends secondToken]
  subst tokens
  exact ⟨rfl, (List.cons.inj (List.append_cancel_left same)).2⟩

theorem mem_splitFrom_isToken
    {word text token : Text}
    (begun : IsToken word)
    (member : token ∈ splitFrom word text) :
    IsToken token := by
  induction text generalizing word with
  | nil =>
      by_cases empty : word = []
      · simp [splitFrom, closeWord, empty] at member
      · obtain rfl : token = word.reverse := by
          simpa [splitFrom, closeWord, empty] using member
        exact begun.reverse
  | cons char rest hypothesis =>
      by_cases charBlank : isSpace char = true
      · rw [splitFrom, if_pos charBlank] at member
        by_cases empty : word = []
        · rw [closeWord, if_pos empty] at member
          exact hypothesis isToken_nil member
        · rw [closeWord, if_neg empty] at member
          rcases List.mem_cons.mp member with rfl | later
          · exact begun.reverse
          · exact hypothesis isToken_nil later
      · rw [splitFrom, if_neg charBlank] at member
        refine hypothesis ?_ member
        intro other inWord
        rcases List.mem_cons.mp inWord with rfl | earlier
        · simpa using charBlank
        · exact begun other earlier

theorem mem_split_isToken
    {text token : Text}
    (member : token ∈ split text) :
    IsToken token :=
  mem_splitFrom_isToken isToken_nil member

theorem entityText_inj
    {prologue first second : Text}
    (firstToken : IsToken first)
    (secondToken : IsToken second)
    (same :
      (SubQuery.entity prologue first).text =
        (SubQuery.entity prologue second).text) :
    first = second := by
  rw [SubQuery.text, SubQuery.text, buildSubqueryEntity_eq,
    buildSubqueryEntity_eq] at same
  have afterClause := (List.cons.inj (List.append_cancel_left
    (List.append_cancel_left same))).2
  exact (token_append_inj firstToken secondToken
    (List.append_cancel_left afterClause)).1

theorem pairText_inj
    {prologue firstSub firstObj secondSub secondObj : Text}
    (firstSubToken : IsToken firstSub)
    (firstObjToken : IsToken firstObj)
    (secondSubToken : IsToken secondSub)
    (secondObjToken : IsToken secondObj)
    (same :
      (SubQuery.pair prologue firstSub firstObj).text =
        (SubQuery.pair prologue secondSub secondObj).text) :
    firstSub = secondSub ∧ firstObj = secondObj := by
  rw [SubQuery.text, SubQuery.text, buildSubqueryPair_eq,
    buildSubqueryPair_eq] at same
  have afterClause := (List.cons.inj (List.append_cancel_left
    (List.append_cancel_left same))).2
  have subjects := token_append_inj firstSubToken secondSubToken
    (List.append_cancel_left afterClause)
  have objects := token_append_inj firstObjToken secondObjToken
    (List.append_cancel_left subjects.2)
  exact ⟨subjects.1, objects.1⟩

theorem entityText_ne_pairText
    (prologue typeQuery typeSub typeObj : Text) :
    (SubQuery.entity prologue typeQuery).text ≠
      (SubQuery.pair prologue typeSub typeObj).text := by
  intro same
  rw [SubQuery.text, SubQuery.text, buildSubqueryEntity_eq,
    buildSubqueryPair_eq] at same
  have firstChars := (List.cons.inj (List.append_cancel_left
    (List.append_cancel_left same))).1
  exact absurd firstChars (by decide)

/-- A subquery with one of the declared prologues and token classes. -/
inductive OfTokens (prologue : Text) : SubQuery → Prop where
  | entity (isToken : IsToken typeQuery) :
      OfTokens prologue (.entity prologue typeQuery)
  | pair (subToken : IsToken typeSub) (objToken : IsToken typeObj) :
      OfTokens prologue (.pair prologue typeSub typeObj)

variable {prologue : Text}

/-- Different subqueries of one query have different texts. -/
theorem OfTokens.text_inj
    {first second : SubQuery}
    (firstOf : OfTokens prologue first)
    (secondOf : OfTokens prologue second)
    (same : first.text = second.text) :
    first = second := by
  cases firstOf with
  | entity firstToken =>
      cases secondOf with
      | entity secondToken => rw [entityText_inj firstToken secondToken same]
      | pair => exact absurd same (entityText_ne_pairText _ _ _ _)
  | pair firstSub firstObj =>
      cases secondOf with
      | entity => exact absurd same.symm (entityText_ne_pairText _ _ _ _)
      | pair secondSub secondObj =>
          obtain ⟨rfl, rfl⟩ :=
            pairText_inj firstSub firstObj secondSub secondObj same
          rfl

variable
  {entities : List Text}
  {subquery : SubQuery}

theorem ofTokens_of_mem_subqueries
    (tokens : ∀ entity, entity ∈ entities → IsToken entity)
    (member : subquery ∈ subqueriesOf prologue entities) :
    OfTokens prologue subquery := by
  rcases List.mem_append.mp member with isEntity | isPair
  · rcases List.mem_map.mp isEntity with ⟨entity, mentioned, rfl⟩
    exact .entity (tokens entity mentioned)
  · rcases List.mem_map.mp isPair with ⟨pair, ordered, rfl⟩
    have both := mem_of_mem_orderedPairs ordered
    exact .pair (tokens _ both.1) (tokens _ both.2)

theorem OfTokens.declared
    (ofTokens : OfTokens prologue subquery) :
    prologue <+: subquery.text := by
  cases ofTokens with
  | entity =>
      rw [SubQuery.text, buildSubqueryEntity_eq]
      exact List.prefix_append prologue _
  | pair =>
      rw [SubQuery.text, buildSubqueryPair_eq]
      exact List.prefix_append prologue _

theorem nodup_subqueriesOf
    (distinct : entities.Nodup) :
    (subqueriesOf prologue entities).Nodup := by
  refine List.nodup_append.mpr ⟨?_, ?_, ?_⟩
  · exact distinct.map fun _ _ same => (SubQuery.entity.inj same).2
  · refine (nodup_orderedPairs distinct).map ?_
    intro first second same
    have parts := SubQuery.pair.inj same
    exact Prod.ext parts.2.1 parts.2.2
  · rintro _ isEntity _ isPair rfl
    rcases List.mem_map.mp isEntity with ⟨_, _, rfl⟩
    rcases List.mem_map.mp isPair with ⟨_, _, different⟩
    cases different

theorem nodup_subqueryTexts
    (distinct : entities.Nodup)
    (tokens : ∀ entity, entity ∈ entities → IsToken entity) :
    ((subqueriesOf prologue entities).map SubQuery.text).Nodup := by
  refine List.Nodup.map_on ?_ (nodup_subqueriesOf distinct)
  intro first firstMember second secondMember same
  exact (ofTokens_of_mem_subqueries tokens firstMember).text_inj
    (ofTokens_of_mem_subqueries tokens secondMember) same

/-!
## The declarations
-/

theorem foldlM_append_ok
    {declarationAt : Nat → Except PyError Text}
    {declared : Nat → Text}
    {positions : List Nat}
    (found :
      ∀ position, position ∈ positions →
        declarationAt position = .ok (declared position))
    (prologue : Text) :
    positions.foldlM
        (fun prologue position => do
          let declaration ← declarationAt position
          return prologue ++ declaration) prologue =
      .ok (prologue ++ positions.flatMap declared) := by
  induction positions generalizing prologue with
  | nil => simp [pure, Except.pure]
  | cons position rest hypothesis =>
      have later := hypothesis (fun other member =>
        found other (List.mem_cons_of_mem position member))
        (prologue ++ declared position)
      rw [List.foldlM_cons, found position List.mem_cons_self,
        List.flatMap_cons, ← List.append_assoc]
      exact later

variable
  {declarations : List (Text × Text)}
  {rest : List Text}
  {declaration : Text × Text}

theorem getElem?_declarationTokens
    {count offset : Nat}
    (declared : declarations[count]? = some declaration)
    (within : offset < 3) :
    (declarations.flatMap declarationTokens ++ rest)[3 * count + offset]? =
      (declarationTokens declaration)[offset]? := by
  induction declarations generalizing count with
  | nil => simp at declared
  | cons first others hypothesis =>
      cases count with
      | zero =>
          obtain rfl : first = declaration := by
            simpa using declared
          rw [List.flatMap_cons, List.append_assoc, Nat.mul_zero,
            Nat.zero_add, List.getElem?_append_left]
          exact within
      | succ earlier =>
          have declaredLater : others[earlier]? = some declaration := by
            simpa using declared
          have later := hypothesis declaredLater
          rw [List.flatMap_cons, List.append_assoc,
            List.getElem?_append_right, ← later]
          · congr 1
            simp [declarationTokens]
            omega
          · simp [declarationTokens]
            omega

/-- `PREFIX` stands at every third token up to the last declaration. -/
theorem prefixPositions_eq
    (clean :
      ∀ position,
        position < (declarations.flatMap declarationTokens ++ rest).length →
        (declarations.flatMap declarationTokens ++ rest)[position]? =
            some "PREFIX".toList →
          position % 3 = 0 → position < 3 * declarations.length) :
    ((List.range
        (declarations.flatMap declarationTokens ++ rest).length).filter
      fun position =>
        position % 3 = 0 ∧
          (declarations.flatMap declarationTokens ++ rest)[position]? =
            some "PREFIX".toList) =
      (List.range declarations.length).map (3 * ·) := by
  apply List.Pairwise.eq_of_mem_iff
    (List.pairwise_lt_range.filter _)
    (List.pairwise_lt_range.map _ (by omega))
  intro position
  simp only [List.mem_filter, List.mem_range, decide_eq_true_eq, List.mem_map]
  constructor
  · rintro ⟨inRange, third, keyword⟩
    have bound := clean position inRange keyword third
    exact ⟨position / 3, by omega, by omega⟩
  · rintro ⟨count, bound, rfl⟩
    have keyword :
        (declarations.flatMap declarationTokens ++ rest)[3 * count + 0]? =
          some "PREFIX".toList :=
      getElem?_declarationTokens (List.getElem?_eq_getElem bound) (by omega)
    exact ⟨(List.getElem?_eq_some_iff.mp keyword).1, by omega, keyword⟩

theorem prefixAt_declaration
    {count : Nat}
    (declared : declarations[count]? = some declaration) :
    prefixAt (declarations.flatMap declarationTokens ++ rest) (3 * count) =
      .ok (WrittenQuery.declarationText declaration) := by
  have token
      (offset : Nat)
      (within : offset < 3) :
      (declarations.flatMap declarationTokens ++ rest)[3 * count + offset]? =
        (declarationTokens declaration)[offset]? :=
    getElem?_declarationTokens declared within
  have keyword := token 0 (by omega)
  rw [Nat.add_zero] at keyword
  simp only [prefixAt, index, keyword, token 1 (by omega), token 2 (by omega)]
  rfl

/-- The declarations are read back in the order in which they were written. -/
theorem getPrefix_of_tokens
    {query : Text}
    (tokens : split query = declarations.flatMap declarationTokens ++ rest)
    (clean :
      ∀ position, position < (split query).length →
        (split query)[position]? = some "PREFIX".toList →
          position % 3 = 0 → position < 3 * declarations.length) :
    getPrefix query =
      .ok (declarations.flatMap WrittenQuery.declarationText) := by
  have inOrder :
      (List.range declarations.length).map
          (fun count => declarations.getD count ([], [])) =
        declarations := by
    apply List.ext_getElem
    · simp
    · intro count _ inBounds
      simp [inBounds]
  rw [tokens] at clean
  simp only [getPrefix, tokens]
  rw [prefixPositions_eq clean, @foldlM_append_ok _ (fun position =>
    WrittenQuery.declarationText (declarations.getD (position / 3) ([], [])))]
  · simp only [List.flatMap_map, Nat.mul_div_cancel_left _ (by omega : 0 < 3),
      List.nil_append]
    conv_rhs => rw [← inOrder, List.flatMap_map]
  · intro position member
    rcases List.mem_map.mp member with ⟨count, inRange, rfl⟩
    have bound : count < declarations.length := List.mem_range.mp inRange
    rw [prefixAt_declaration (List.getElem?_eq_getElem bound)]
    simp [bound]

/-!
## The pieces of the text
-/

namespace WrittenQuery

variable {query : WrittenQuery}

theorem tokens_text (query : WrittenQuery) :
    ∃ rest, split query.text =
      query.declarations.flatMap declarationTokens ++ rest := by
  rcases query.headEnds with ⟨front, blank, isBlank, headIs⟩
  have headSplit : split query.head = split front := by
    rw [headIs, split_append_blank _ _ isBlank]
    exact List.append_nil _
  refine ⟨"SELECT".toList :: query.selection ++
    split ("WHERE".toList ++ (query.gap ++ '{' ::
      (query.body ++ '}' :: query.tail))), ?_⟩
  rw [text, headIs, List.append_assoc, List.append_assoc, List.singleton_append,
    split_append_blank _ _ isBlank, ← headSplit, query.headTokens,
    List.append_assoc]

theorem keyword_not_infix_of_blank
    {text : Text}
    (blank : Blank text) :
    ¬ "WHERE".toList <:+: text := by
  intro found
  have letter : 'W' ∈ text := found.subset (by decide)
  exact absurd (blank 'W' letter) (by decide)

section

variable (clean : query.CutsCleanly)

include clean

/-- The head ends with a blank, so no keyword begins in it and ends after it. -/
theorem keyword_not_infix_head :
    ¬ "WHERE".toList <:+: lstrip query.head ++ "WHERE".toList.dropLast := by
  rcases query.headEnds with ⟨front, blank, isBlank, headIs⟩
  have notLetter : blank ∉ "WHERE".toList := by
    intro letter
    have visible : ∀ char, char ∈ "WHERE".toList → isSpace char = false := by
      simp [isSpace]
    exact absurd isBlank (by simp [visible blank letter])
  intro found
  have inWhole :
      "WHERE".toList <:+:
        front ++ blank :: "WHERE".toList.dropLast := by
    have suffix : lstrip query.head ++ "WHERE".toList.dropLast <:+
        query.head ++ "WHERE".toList.dropLast :=
      List.suffix_append_self_iff.mpr (List.dropWhile_suffix isSpace)
    have whole := found.trans suffix.isInfix
    rwa [headIs, List.append_assoc, List.singleton_append] at whole
  rcases (infix_append_cons_iff notLetter).mp inWhole with inFront | inEnd
  · exact clean.headKeyword
      (headIs ▸ inFront.trans (List.prefix_append front [blank]).isInfix)
  · exact absurd (List.IsInfix.length_le inEnd) (by decide)

omit clean in
theorem strip_text (query : WrittenQuery) :
    strip query.text =
      lstrip query.head ++ "WHERE".toList ++
        (query.gap ++ '{' :: (query.body ++ ['}'])) := by
  have whole :
      query.text =
        query.head.takeWhile isSpace ++
          ((lstrip query.head ++ "WHERE".toList ++
              (query.gap ++ '{' :: query.body)) ++ '}' :: query.tail) := by
    have head : query.head = query.head.takeWhile isSpace ++ lstrip query.head :=
      List.takeWhile_append_dropWhile.symm
    rw [text]
    conv_lhs => rw [head]
    simp only [List.append_assoc, List.cons_append]
  have starts :
      lstrip (lstrip query.head ++ "WHERE".toList ++
          (query.gap ++ '{' :: query.body) ++ ['}']) =
        lstrip query.head ++ "WHERE".toList ++
          (query.gap ++ '{' :: query.body) ++ ['}'] := by
    simpa using lstrip_lstrip_append query.head
      ("HERE".toList ++ (query.gap ++ '{' :: query.body) ++ ['}'])
      (by decide : isSpace 'W' = false)
  rw [whole, strip_append (fun _ member => List.mem_takeWhile_imp member)
    query.tailBlank starts (by decide)]
  simp

theorem keyword_cut :
    splitOn "WHERE".toList (strip query.text) =
      [lstrip query.head, query.gap ++ '{' :: (query.body ++ ['}'])] := by
  have notInRest :
      ¬ "WHERE".toList <:+: query.gap ++ '{' :: (query.body ++ ['}']) := by
    rw [infix_append_cons_iff (by decide), infix_append_cons_iff (by decide)]
    rintro (inGap | inBody | inEnd)
    · exact keyword_not_infix_of_blank query.gapBlank inGap
    · exact clean.bodyKeyword inBody
    · exact keyword_not_infix_of_blank (by simp [Blank]) inEnd
  rw [strip_text, splitOn_append (by decide) (keyword_not_infix_head clean),
    splitOn_of_not_infix notInRest]

theorem brace_cut :
    splitOn ['{'] (strip (query.gap ++ '{' :: (query.body ++ ['}']))) =
      [[], query.body ++ ['}']] := by
  have stripped :
      strip (query.gap ++ '{' :: (query.body ++ ['}'])) =
        [] ++ '{' :: (query.body ++ ['}']) := by
    have starts : lstrip (('{' :: query.body) ++ ['}']) =
        ('{' :: query.body) ++ ['}'] :=
      lstrip_lstrip_append [] _ (by decide)
    simpa using @strip_append query.gap [] ('{' :: query.body) '}'
      query.gapBlank (by simp [Blank]) starts (by decide)
  have notInRest : ¬ ['{'] <:+: query.body ++ ['}'] := by
    simpa [List.singleton_infix_iff] using clean.bodyOpens
  rw [stripped, splitOn_singleton_append (by simp),
    splitOn_of_not_infix notInRest]

theorem body_cut :
    splitOn ['}'] (strip (query.body ++ ['}'])) =
      [lstrip query.body, []] := by
  have stripped :
      strip (query.body ++ ['}']) = lstrip query.body ++ '}' :: [] := by
    have starts := lstrip_lstrip_append query.body []
      (by decide : isSpace '}' = false)
    have whole :
        query.body ++ ['}'] =
          query.body.takeWhile isSpace ++ (lstrip query.body ++ '}' :: []) := by
      simp [lstrip, ← List.append_assoc, List.takeWhile_append_dropWhile]
    rw [whole, strip_append (fun _ member => List.mem_takeWhile_imp member)
      (by simp [Blank]) starts (by decide)]
  have notInBody : '}' ∉ lstrip query.body := by
    intro member
    exact clean.bodyCloses
      ((List.dropWhile_sublist isSpace).subset member)
  rw [stripped, splitOn_singleton_append notInBody]
  rfl

/-- The patterns are recovered as they were written. -/
theorem whereClause_text :
    whereClause query.text = .ok query.patterns := by
  have patternsRead :
      ((splitOn " .".toList (lstrip query.body)).filter
          fun piece => strip piece ≠ []).map
        (fun piece => split (strip piece)) = query.patterns := by
    simp only [patterns, split_strip, ne_eq, strip_eq_nil_iff, List.filter_map,
      Function.comp_def]
  rw [← patternsRead, whereClause, keyword_cut clean]
  simp only [index, bind, Except.bind, List.getElem?_cons_succ,
    List.getElem?_cons_zero, brace_cut clean, body_cut clean]
  rfl

end

/-!
## The partition
-/

theorem three_tokens_of_mem_patterns
    {pattern : List Text}
    (member : pattern ∈ query.patterns) :
    (∀ token, token ∈ pattern → IsToken token) ∧
      ∃ subject predicate object, pattern = [subject, predicate, object] := by
  rcases List.mem_filter.mp member with ⟨mapped, nonempty⟩
  rcases List.mem_map.mp mapped with ⟨piece, isPiece, rfl⟩
  refine ⟨fun token => mem_split_isToken, ?_⟩
  rcases query.patternTokens piece isPiece with blank | three
  · simp [blank] at nonempty
  · exact List.length_eq_three.mp three

theorem isToken_of_mentioned
    {entity : Text}
    (mentioned : entity ∈ query.mentionedClasses) :
    IsToken entity := by
  rcases List.mem_filterMap.mp (List.mem_eraseDups.mp mentioned) with
    ⟨pattern, member, isType⟩
  rcases three_tokens_of_mem_patterns member with
    ⟨tokens, subject, predicate, object, rfl⟩
  simp only [typeObject] at isType
  split at isType
  · obtain rfl := Option.some.inj isType
    exact tokens object (by simp)
  · cases isType

/-- No pattern with three tokens fails to unpack. -/
theorem collectEntities_isOk
    {queries : List SubQuery}
    {patterns : List (List Text)}
    (three :
      ∀ pattern, pattern ∈ patterns →
        ∃ subject predicate object, pattern = [subject, predicate, object]) :
    ∃ collected, collectEntities prologue queries entities patterns =
      .ok collected := by
  induction patterns generalizing queries entities with
  | nil => exact ⟨_, rfl⟩
  | cons pattern rest hypothesis =>
      rcases three pattern List.mem_cons_self with
        ⟨subject, predicate, object, rfl⟩
      have laterThree := fun other member =>
        three other (List.mem_cons_of_mem _ member)
      rw [collectEntities]
      split
      · exact hypothesis laterThree
      · exact hypothesis laterThree

theorem partitionQuery_text
    (clean : query.CutsCleanly) :
    partitionQuery query.text =
      .ok (subqueriesOf query.prologue query.mentionedClasses) := by
  rcases query.tokens_text with ⟨rest, tokens⟩
  have declared : getPrefix query.text = .ok query.prologue :=
    getPrefix_of_tokens tokens clean.prefixes
  rcases @collectEntities_isOk query.prologue [] [] query.patterns
    (fun _ member => (three_tokens_of_mem_patterns member).2) with
    ⟨collected, collection⟩
  have shape := collectEntities_ok collection rfl
  have found : collected.2 = query.mentionedClasses := by
    rw [shape.1, classesFrom_eq]
    simp [mentionedClasses]
  rw [partitionQuery, whereClause_text clean]
  simp only [declared, bind, Except.bind, collection, pure,
    Except.pure, shape.2, found, pairQueries_eq, subqueriesOf]

/--
A query whose parts are written unambiguously is partitioned into one subquery
for each class and one for each pair of classes, all with its declarations.
-/
theorem partitioned_of_cutsCleanly
    (query : WrittenQuery)
    (clean : query.CutsCleanly) :
    ∃ queries, partitionQuery query.text = .ok queries ∧
      query.Partitioned queries := by
  have distinct : query.mentionedClasses.Nodup := nodup_eraseDups _
  have tokens :
      ∀ entity, entity ∈ query.mentionedClasses → IsToken entity :=
    fun _ => isToken_of_mentioned
  refine ⟨_, partitionQuery_text clean, rfl, ?_, ?_, ?_⟩
  · simp [subqueriesOf, length_orderedPairs]
  · exact nodup_subqueryTexts distinct tokens
  · intro subquery member
    exact (ofTokens_of_mem_subqueries tokens member).declared

/-- The places of a query, which declares one prefix with the given IRI. -/
def placesQuery
    (iri : Text)
    (isToken : split ("PREFIX p: ".toList ++ iri ++ " SELECT ?x ".toList) =
      ["PREFIX".toList, "p:".toList, iri, "SELECT".toList, "?x".toList]) :
    WrittenQuery where
  declarations := [("p:".toList, iri)]
  selection := ["?x".toList]
  head := "PREFIX p: ".toList ++ iri ++ " SELECT ?x ".toList
  gap := " ".toList
  body := " ?x a p:Place . ?y a p:City . ?x p:in ?y . ".toList
  tail := []
  headTokens := isToken
  headEnds := ⟨"PREFIX p: ".toList ++ iri ++ " SELECT ?x".toList, ' ', rfl,
    by simp⟩
  gapBlank := by decide
  patternTokens := by decide
  tailBlank := by decide

theorem partitioned_placesQuery :
    ∃ queries,
      partitionQuery
          (placesQuery "<http://a.org/>".toList (by decide)).text =
        .ok queries ∧
      (placesQuery "<http://a.org/>".toList (by decide)).Partitioned
        queries :=
  partitioned_of_cutsCleanly _
    { headKeyword := by decide +kernel
      bodyKeyword := by decide +kernel
      bodyOpens := by decide
      bodyCloses := by decide
      prefixes := by decide +kernel }

/-- A prefix whose IRI contains the keyword makes the query unreadable. -/
theorem not_partitioned_whereIri :
    ¬ ∀ query : WrittenQuery,
      ∃ queries, partitionQuery query.text = .ok queries ∧
        query.Partitioned queries := by
  intro partitioned
  rcases partitioned
    (placesQuery "<http://WHERE.org/>".toList (by decide)) with
    ⟨queries, accepted, shape⟩
  have unread :
      partitionQuery
          (placesQuery "<http://WHERE.org/>".toList (by decide)).text =
        .ok [] := by
    decide +kernel
  rw [unread, Except.ok.injEq] at accepted
  subst accepted
  exact absurd shape.length (by decide +kernel)

end WrittenQuery

end DistributedRdf.Distribution
