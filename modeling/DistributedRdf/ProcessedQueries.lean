import DistributedRdf.RejectedQueries

namespace DistributedRdf.Distribution

open Sparql List SubQuery

/-!
# Processing a file of queries

`process_queries` keeps a result for each query of the file and prints all of
them in the end.  The result of a query that was skipped is still the number
zero, which cannot be printed.
-/

variable {Value Answer : Type}

/-- What is computed by tasks -/
structure QueryTasks (Value Answer : Type) where
  getConsolidatedTriplets : Text → Value
  /-- The store of the worker changes from one query to the next. -/
  doGlobalQuery : Nat → Text → List Text → List Value → Answer
  /-- An answer that is a graph has no such method. -/
  toprettyxml : Answer → Option Text

def querySeparator : Text :=
  "-----".toList

def globalQueries (file : Text) : List Text :=
  ((splitOn querySeparator file).filter fun q => q ≠ []).map strip

/-- `none` stands for the zero that a result is at first. -/
structure ProcessState (Value Answer : Type) where
  results : List (Option Answer)
  queryToValue : Text → Option Value

inductive Ending where
  | completed
  | raisedBeforeResults
  | raisedAfterResults
  deriving DecidableEq

/-- The results that were printed, each with its query -/
structure ProcessRun where
  reports : List (Text × Text)
  ending : Ending
  deriving DecidableEq

variable (tasks : QueryTasks Value Answer)

/-- The loop over the subqueries: a value is computed only once. -/
def collectInputs :
    List Text → (Text → Option Value) → List Value × (Text → Option Value)
  | [], queryToValue => ([], queryToValue)
  | subQuery :: rest, queryToValue =>
      let value :=
        (queryToValue subQuery).getD (tasks.getConsolidatedTriplets subQuery)
      let others :=
        collectInputs rest (Function.update queryToValue subQuery (some value))
      (value :: others.1, others.2)

def processQuery
    (st : ProcessState Value Answer)
    (query : Text × Nat) :
    Except PyError (ProcessState Value Answer) := do
  let subQueries ← partitionQuery query.1
  if subQueries = [] then
    return st
  else
    let queries := subQueries.map text
    let inputs := collectInputs tasks queries st.queryToValue
    return {
      results := st.results.set query.2
        (some (tasks.doGlobalQuery query.2 query.1 queries inputs.1))
      queryToValue := inputs.2 }

/-- The loop that prints the results, from a position on -/
def printResults (queries : List Text) : Nat → List (Option Answer) → ProcessRun
  | _, [] => ⟨[], .completed⟩
  | _, none :: _ => ⟨[], .raisedAfterResults⟩
  | i, some res :: rest =>
      match tasks.toprettyxml res with
      | none => ⟨[], .raisedAfterResults⟩
      | some text =>
          let others := printResults queries (i + 1) rest
          ⟨(queries.getD i [], text) :: others.reports, others.ending⟩

def processQueries (file : Text) : ProcessRun :=
  let queries := globalQueries file
  match queries.zipIdx.foldlM (processQuery tasks)
      ⟨replicate queries.length none, fun _ => none⟩ with
  | .error _ => ⟨[], .raisedBeforeResults⟩
  | .ok st => printResults tasks queries 0 st.results

/-! ## What is to be reported -/

/-- The answer of a query at its place in the file, if it is partitioned -/
def answerOf (query : Text × Nat) : Option Answer :=
  match partitionQuery query.1 with
  | .error _ => none
  | .ok [] => none
  | .ok subQueries =>
      let queries := subQueries.map text
      some (tasks.doGlobalQuery query.2 query.1 queries
        (queries.map tasks.getConsolidatedTriplets))

/-- The queries that are partitioned, with their answers -/
def partitionedQueries (queries : List (Text × Nat)) : List (Text × Answer) :=
  queries.filterMap fun query => (answerOf tasks query).map (query.1, ·)

/-- Each query that is partitioned is reported with its result. -/
structure ReportsPartitioned (file : Text) : Prop where
  reported :
    (processQueries tasks file).reports.map (fun report =>
      (report.1, some report.2)) =
    (partitionedQueries tasks (globalQueries file).zipIdx).map fun answered =>
      (answered.1, tasks.toprettyxml answered.2)
  notAborted : (processQueries tasks file).ending ≠ .raisedAfterResults

/-! ## Conditions -/

def IsPartitioned (query : Text) : Prop :=
  ∃ subQueries, partitionQuery query = .ok subQueries ∧ subQueries ≠ []

/-- The query raises an exception. -/
def IsFatal (query : Text) : Prop :=
  ∀ subQueries, partitionQuery query ≠ .ok subQueries

/-- Each query is partitioned and has an answer that can be printed. -/
def AllPrintable (queries : List (Text × Nat)) : Prop :=
  ∀ query ∈ queries, IsPartitioned query.1 ∧
    ∀ answer, answerOf tasks query = some answer →
      (tasks.toprettyxml answer).isSome = true

variable {tasks}

theorem answerOf_isSome_iff {query : Text × Nat} :
    (∃ answer, answerOf tasks query = some answer) ↔
      IsPartitioned query.1 := by
  unfold answerOf IsPartitioned
  cases partitionQuery query.1 with
  | error exception =>
      exact iff_of_false nofun nofun
  | ok subQueries =>
      cases subQueries with
      | nil =>
          refine iff_of_false nofun ?_
          rintro ⟨_, same, nonempty⟩
          exact nonempty (Except.ok.inj same).symm
      | cons first rest =>
          exact iff_of_true ⟨_, rfl⟩ ⟨_, rfl, cons_ne_nil first rest⟩

/-! ## The loop over the queries -/

section Loop

variable {queryToValue : Text → Option Value}

/-- The dictionary has no other values. -/
def Consistent
    (tasks : QueryTasks Value Answer)
    (queryToValue : Text → Option Value) :
    Prop :=
  ∀ subQuery value, queryToValue subQuery = some value →
    value = tasks.getConsolidatedTriplets subQuery

theorem Consistent.value_eq
    (consistent : Consistent tasks queryToValue)
    (subQuery : Text) :
    (queryToValue subQuery).getD (tasks.getConsolidatedTriplets subQuery) =
      tasks.getConsolidatedTriplets subQuery := by
  cases known : queryToValue subQuery with
  | none => rfl
  | some value => exact consistent subQuery value known

theorem Consistent.update
    (consistent : Consistent tasks queryToValue)
    (subQuery : Text) :
    Consistent tasks (Function.update queryToValue subQuery
      (some (tasks.getConsolidatedTriplets subQuery))) := by
  intro other value known
  by_cases same : other = subQuery
  · rw [same, Function.update_self] at known
    rw [same]
    exact (Option.some.inj known).symm
  · rw [Function.update_of_ne same] at known
    exact consistent other value known

theorem Consistent.collectInputs
    (consistent : Consistent tasks queryToValue)
    (subQueries : List Text) :
    (collectInputs tasks subQueries queryToValue).1 =
        subQueries.map tasks.getConsolidatedTriplets ∧
      Consistent tasks (collectInputs tasks subQueries queryToValue).2 := by
  induction subQueries generalizing queryToValue with
  | nil =>
      exact ⟨rfl, consistent⟩
  | cons subQuery rest hypothesis =>
      have others := hypothesis (consistent.update subQuery)
      simp only [Distribution.collectInputs, consistent.value_eq,
        map_cons]
      exact ⟨congrArg _ others.1, others.2⟩

/-- The result of a query replaces the zero in its place. -/
theorem Consistent.processQuery
    {query : Text × Nat}
    {before after : List (Option Answer)}
    (consistent : Consistent tasks queryToValue)
    (notFatal : ¬ IsFatal query.1)
    (place : query.2 = before.length) :
    ∃ others, Consistent tasks others ∧
      processQuery tasks ⟨before ++ none :: after, queryToValue⟩ query =
        .ok ⟨before ++ answerOf tasks query :: after, others⟩ := by
  obtain ⟨subQueries, isResult⟩ := not_forall.mp notFatal
  rw [not_not] at isResult
  cases subQueries with
  | nil =>
      refine ⟨queryToValue, consistent, ?_⟩
      rw [Distribution.processQuery, answerOf, isResult]
      rfl
  | cons first rest =>
      have inputs :=
        consistent.collectInputs ((first :: rest).map text)
      have isAnswer : answerOf tasks query = some (tasks.doGlobalQuery query.2
          query.1 ((first :: rest).map text)
          (((first :: rest).map text).map
            tasks.getConsolidatedTriplets)) := by
        rw [answerOf, isResult]
      refine ⟨_, inputs.2, ?_⟩
      rw [Distribution.processQuery, isResult, isAnswer, place, ← inputs.1]
      simp [bind, Except.bind, pure, Except.pure]

theorem Consistent.foldlM_processQuery
    {queries : List Text}
    {before : List (Option Answer)}
    (consistent : Consistent tasks queryToValue)
    (noneFatal : ∀ query ∈ queries, ¬ IsFatal query) :
    ∃ others,
      (queries.zipIdx before.length).foldlM (Distribution.processQuery tasks)
        ⟨before ++ replicate queries.length none, queryToValue⟩ =
      .ok ⟨before ++ (queries.zipIdx before.length).map (answerOf tasks),
        others⟩ := by
  induction queries generalizing before queryToValue with
  | nil =>
      exact ⟨queryToValue, rfl⟩
  | cons query rest hypothesis =>
      rw [forall_mem_cons] at noneFatal
      obtain ⟨between, stillConsistent, processed⟩ :=
        @Consistent.processQuery _ _ tasks queryToValue (query, before.length)
          before (replicate rest.length none) consistent noneFatal.1 rfl
      obtain ⟨others, ended⟩ := @hypothesis between
        (before ++ [answerOf tasks (query, before.length)]) stillConsistent
        noneFatal.2
      refine ⟨others, ?_⟩
      rw [length_append, length_singleton, append_assoc,
        append_assoc, singleton_append] at ended
      rw [zipIdx_cons, foldlM_cons, length_cons,
        replicate_succ, processed]
      exact ended

end Loop

/-- An exception of one query ends the loop. -/
theorem exists_foldlM_processQuery_iff
    {queries : List (Text × Nat)}
    {st : ProcessState Value Answer} :
    (∃ result, queries.foldlM (processQuery tasks) st = .ok result) ↔
      ∀ query ∈ queries, ¬ IsFatal query.1 := by
  refine exists_foldlM_eq_ok_iff fun st query => ?_
  rw [IsFatal, not_forall]
  simp only [processQuery, bind_eq_ok, not_not]
  constructor
  · rintro ⟨_, subQueries, isResult, -⟩
    exact ⟨subQueries, isResult⟩
  · rintro ⟨subQueries, isResult⟩
    by_cases isEmpty : subQueries = []
    · exact ⟨_, subQueries, isResult, if_pos isEmpty⟩
    · exact ⟨_, subQueries, isResult, if_neg isEmpty⟩

/-! ## The printed results -/

section Printing

variable {queries : List Text}

/-- The result of a query is an answer that can be printed. -/
theorem printable_iff {query : Text × Nat} :
    (IsPartitioned query.1 ∧
      ∀ answer, answerOf tasks query = some answer →
        (tasks.toprettyxml answer).isSome = true) ↔
      ∃ answer text, answerOf tasks query = some answer ∧
        tasks.toprettyxml answer = some text := by
  rw [← @answerOf_isSome_iff _ _ tasks]
  constructor
  · rintro ⟨⟨answer, isAnswer⟩, printable⟩
    obtain ⟨text, isText⟩ :=
      Option.isSome_iff_exists.mp (printable answer isAnswer)
    exact ⟨answer, text, isAnswer, isText⟩
  · rintro ⟨answer, text, isAnswer, isText⟩
    refine ⟨⟨answer, isAnswer⟩, fun other isOther => ?_⟩
    rw [isAnswer] at isOther
    rw [← Option.some.inj isOther, isText]
    rfl

/-- Printing goes on to the end when every result can be printed, and then each
stands next to its query. -/
theorem printResults_of_printable
    {before rest : List Text}
    (printable : AllPrintable tasks (rest.zipIdx before.length)) :
    let run := printResults tasks (before ++ rest) before.length
      ((rest.zipIdx before.length).map (answerOf tasks))
    run.ending = .completed ∧
      run.reports.map (fun report => (report.1, some report.2)) =
        (partitionedQueries tasks (rest.zipIdx before.length)).map
          fun answered => (answered.1, tasks.toprettyxml answered.2) := by
  induction rest generalizing before with
  | nil =>
      exact ⟨rfl, rfl⟩
  | cons query rest hypothesis =>
      rw [AllPrintable, zipIdx_cons, forall_mem_cons] at printable
      obtain ⟨answer, text, isAnswer, isText⟩ := printable_iff.mp printable.1
      have later := @hypothesis (before ++ [query]) (by
        rw [length_append]
        exact printable.2)
      rw [length_append, append_assoc] at later
      simp only [zipIdx_cons, map_cons, isAnswer, printResults, isText,
        partitionedQueries, filterMap_cons, Option.map_some]
      refine ⟨later.1, ?_⟩
      have name : (before ++ query :: rest).getD before.length [] = query := by
        simp
      rw [name]
      exact congrArg _ later.2

/-- Printing raises an exception at the first result that cannot be printed. -/
theorem printResults_ending
    {results : List (Option Answer)}
    {first : Nat} :
    (printResults tasks queries first results).ending ≠ .raisedAfterResults ↔
      ∀ result ∈ results, ∃ answer text, result = some answer ∧
        tasks.toprettyxml answer = some text := by
  induction results generalizing first with
  | nil =>
      exact iff_of_true nofun nofun
  | cons result rest hypothesis =>
      rw [forall_mem_cons]
      cases result with
      | none =>
          refine iff_of_false (not_not_intro rfl) ?_
          rintro ⟨⟨answer, text, same, -⟩, -⟩
          exact absurd same nofun
      | some answer =>
          cases isText : tasks.toprettyxml answer with
          | none =>
              refine iff_of_false (not_not_intro ?_) ?_
              · rw [printResults, isText]
              · rintro ⟨⟨other, text, same, isOther⟩, -⟩
                rw [← Option.some.inj same, isText] at isOther
                exact absurd isOther nofun
          | some text =>
              rw [printResults, isText, and_iff_right
                ⟨answer, text, rfl, isText⟩]
              exact hypothesis

end Printing

/-! ## Files -/

theorem partitionedQueries_eq_nil_iff {queries : List (Text × Nat)} :
    partitionedQueries tasks queries = [] ↔
      ∀ query ∈ queries, ¬ IsPartitioned query.1 := by
  rw [partitionedQueries, filterMap_eq_nil_iff]
  refine forall₂_congr fun query _ => ?_
  rw [← @answerOf_isSome_iff _ _ tasks, Option.map_eq_none_iff]
  cases answerOf tasks query with
  | none => exact iff_of_true rfl nofun
  | some answer => exact iff_of_false nofun (not_not_intro ⟨answer, rfl⟩)

theorem forall_mem_zipIdx_iff
    (holds : Text → Prop)
    {queries : List Text} :
    (∀ query ∈ queries.zipIdx, holds query.1) ↔
      ∀ query ∈ queries, holds query := by
  constructor
  · intro all query member
    obtain ⟨position, inRange, rfl⟩ := getElem_of_mem member
    exact all (_, position) (mem_zipIdx_iff_getElem?.mpr
      (getElem?_eq_getElem inRange))
  · rintro all ⟨query, position⟩ member
    exact all query (mem_of_getElem? (mem_zipIdx_iff_getElem?.mp member))

theorem processQueries_of_fatal
    {file : Text}
    (fatal : ∃ query ∈ globalQueries file, IsFatal query) :
    processQueries tasks file = ⟨[], .raisedBeforeResults⟩ := by
  rw [processQueries]
  cases ended : (globalQueries file).zipIdx.foldlM (processQuery tasks)
      ⟨replicate (globalQueries file).length none, fun _ => none⟩ with
  | error exception =>
      rfl
  | ok st =>
      obtain ⟨query, member, isFatal⟩ := fatal
      have noneFatal := (forall_mem_zipIdx_iff (¬ IsFatal ·)).mp
        (exists_foldlM_processQuery_iff.mp ⟨st, ended⟩)
      exact absurd isFatal (noneFatal query member)

theorem processQueries_of_not_fatal
    {file : Text}
    (noneFatal : ∀ query ∈ globalQueries file, ¬ IsFatal query) :
    processQueries tasks file = printResults tasks (globalQueries file) 0
      ((globalQueries file).zipIdx.map (answerOf tasks)) := by
  have consistent : Consistent tasks fun _ => none := nofun
  obtain ⟨others, ended⟩ :=
    @Consistent.foldlM_processQuery _ _ tasks _ (globalQueries file) []
      consistent noneFatal
  rw [length_nil, nil_append, nil_append] at ended
  rw [processQueries, ended]

theorem allPrintable_iff {queries : List (Text × Nat)} :
    AllPrintable tasks queries ↔
      ∀ result ∈ queries.map (answerOf tasks), ∃ answer text,
        result = some answer ∧ tasks.toprettyxml answer = some text := by
  rw [forall_mem_map]
  exact forall₂_congr fun query _ => printable_iff

/-- All queries that are partitioned are reported when none is skipped and all
answers can be printed.  Otherwise an exception comes while they are printed, or
before, and then there must have been nothing to report. -/
theorem reportsPartitioned_iff {file : Text} :
    ReportsPartitioned tasks file ↔
      AllPrintable tasks (globalQueries file).zipIdx ∨
        ((∃ query ∈ globalQueries file, IsFatal query) ∧
          ∀ query ∈ globalQueries file, ¬ IsPartitioned query) := by
  by_cases fatal : ∃ query ∈ globalQueries file, IsFatal query
  · have notPrintable :
        ¬ AllPrintable tasks (globalQueries file).zipIdx := by
      intro printable
      obtain ⟨query, member, isFatal⟩ := fatal
      obtain ⟨position, inRange, rfl⟩ := getElem_of_mem member
      obtain ⟨⟨subQueries, isResult, -⟩, -⟩ := printable (_, position)
        (mem_zipIdx_iff_getElem?.mpr (getElem?_eq_getElem inRange))
      exact isFatal subQueries isResult
    have noneReported : ReportsPartitioned tasks file ↔
        partitionedQueries tasks (globalQueries file).zipIdx = [] := by
      constructor
      · intro reports
        have reported := reports.reported
        rw [processQueries_of_fatal fatal] at reported
        exact map_eq_nil_iff.mp reported.symm
      · intro noneExpected
        constructor
        · rw [processQueries_of_fatal fatal, noneExpected]
          rfl
        · rw [processQueries_of_fatal fatal]
          exact nofun
    rw [noneReported, or_iff_right notPrintable, and_iff_right fatal,
      partitionedQueries_eq_nil_iff]
    exact forall_mem_zipIdx_iff (¬ IsPartitioned ·)
  · have noneFatal : ∀ query ∈ globalQueries file, ¬ IsFatal query := by
      intro query member isFatal
      exact fatal ⟨query, member, isFatal⟩
    rw [or_iff_left fun both => fatal both.1]
    constructor
    · intro reports
      have ending := reports.notAborted
      rw [processQueries_of_not_fatal noneFatal] at ending
      exact allPrintable_iff.mpr (printResults_ending.mp ending)
    · intro printable
      obtain ⟨completed, reported⟩ :=
        @printResults_of_printable _ _ tasks [] (globalQueries file) printable
      rw [length_nil, nil_append,
        ← processQueries_of_not_fatal noneFatal] at completed reported
      refine ⟨reported, ?_⟩
      rw [completed]
      exact nofun

/-! ## A separator at the end -/

/-- The subqueries and values of a query are its answer. -/
def exampleTasks : QueryTasks Text (List Text) where
  getConsolidatedTriplets subQuery := subQuery
  doGlobalQuery _ _ _ inputs := inputs
  toprettyxml answer := some answer.flatten

def separatedFile : Text :=
  "SELECT ?x WHERE \x7b ?x a p:C \x7d-----\n".toList

/-- Behind the last separator there is a blank query. -/
theorem not_reportsPartitioned_separatedFile :
    ¬ ReportsPartitioned exampleTasks separatedFile := by
  intro reports
  have ending : (processQueries exampleTasks separatedFile).ending =
      .raisedAfterResults := by
    decide +kernel
  exact reports.notAborted ending

end DistributedRdf.Distribution
