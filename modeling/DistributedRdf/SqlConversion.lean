import DistributedRdf.Words
import Mathlib.Data.PNat.Defs

namespace DistributedRdf.UNData

open Words List

/-!
# From XML to SQL

The converter writes an `INSERT` statement for each record of a document and
executes the statements in batches.  The columns of the table are the fields of
the first record.
-/

/-! ## Documents -/

inductive Node where
  | element (name : Text) (attributes : List (Text × Text))
      (children : List Node)
  | text (data : Text)
  | comment (data : Text)

namespace Node

def getNodeName : Node → Text
  | .element name _ _ => name
  | .text _ => "#text".toList
  | .comment _ => "#comment".toList

def getChildNodes : Node → List Node
  | .element _ _ children => children
  | .text _ => []
  | .comment _ => []

/-- An attribute that is missing is empty. -/
def getAttribute (name : Text) : Node → Text
  | .element _ attributes _ => (attributes.lookup name).getD []
  | .text _ => []
  | .comment _ => []

mutual

/-- Comments inside of an element do not belong to its text. -/
def getTextContent : Node → Text
  | .element _ _ children => textOfChildren children
  | .text data => data
  | .comment data => data

def textOfChildren : List Node → Text
  | [] => []
  | .comment _ :: rest => textOfChildren rest
  | node :: rest => getTextContent node ++ textOfChildren rest

end

mutual

/-- The elements of this name, in document order -/
def getElementsByTagName (tagname : Text) : Node → List Node
  | .element name attributes children =>
      (if name = tagname then [.element name attributes children] else []) ++
        elementsOfChildren tagname children
  | .text _ => []
  | .comment _ => []

def elementsOfChildren (tagname : Text) : List Node → List Node
  | [] => []
  | node :: rest =>
      getElementsByTagName tagname node ++ elementsOfChildren tagname rest

end

end Node

def records (doc : Node) : List Node :=
  doc.getElementsByTagName "record".toList

/-- The parser interns names, so that they can be compared by reference. -/
def fields (record : Node) : List Node :=
  record.getChildNodes.filter fun node => node.getNodeName = "field".toList

def fieldNames (record : Node) : List Text :=
  (fields record).map (Node.getAttribute "name".toList)

def fieldValues (record : Node) : List Text :=
  (fields record).map Node.getTextContent

/-! ## Statements -/

def removedChars : List Char :=
  [',', '\'', '[', ']', '(', ')']

def normalizeInput (input : Text) : Text :=
  removedChars.foldl (fun input name => input.filter (· ≠ name))
    (input.map fun char => if char = ' ' then '_' else char)

def quoted (value : Text) : Text :=
  '\'' :: (normalizeInput value ++ ['\''])

/-- There is no tuple for an empty row. -/
def valuesTuple : List Text → Option Text
  | [] => none
  | value :: rest =>
      some ('(' :: (quoted value ++
        rest.flatMap (fun value => ", ".toList ++ quoted value) ++ [')']))

def insertSQLRow (tableName : Text) (values : List Text) : Option Text :=
  (valuesTuple values).map fun tuple =>
    "INSERT INTO ".toList ++ tableName ++ " VALUES ".toList ++ tuple

/-- The batch of statements that is executed -/
def insertValues (tableName : Text) (valuesArray : List (List Text)) : List Text :=
  valuesArray.filterMap (insertSQLRow tableName)

/-! ## The conversion -/

structure ConvertState where
  columns : List Text
  createTable : Bool
  values : List (List Text)
  /-- What has been executed -/
  batches : List (List Text)
  deriving DecidableEq

/-- The columns of the table and the batches of statements -/
structure Conversion where
  columns : List Text
  batches : List (List Text)
  deriving DecidableEq

variable
  (batchSize : ℕ+) (tableName : Text)
  (st : ConvertState)

/-- One round of the loop.  The table cannot be created without columns, which
is an exception. -/
def convertRecord
    (record : Node × Nat) :
    Option ConvertState := do
  let columns :=
    if st.createTable then st.columns ++ fieldNames record.1 else st.columns
  let currentRow := fieldValues record.1
  if record.2 = 0 ∧ columns = [] then
    failure
  let createTable := st.createTable && record.2 ≠ 0
  let values := st.values ++ [currentRow]
  if record.2 % batchSize = 0 ∧ record.2 > 0 then
    return ⟨columns, createTable, [],
      st.batches ++ [insertValues tableName values]⟩
  else
    return ⟨columns, createTable, values, st.batches⟩

def convert (doc : Node) : Option Conversion := do
  let st ← (records doc).zipIdx.foldlM (convertRecord batchSize tableName)
    ⟨[], true, [], []⟩
  return ⟨st.columns, st.batches ++ [insertValues tableName st.values]⟩

/-! ## What the statements contain -/

/-- There is a statement for each record, in the order of the document, and each
value stands in the column with the name of its field. -/
structure LosesNothing (doc : Node) : Prop where
  converts : ∃ conversion,
    convert batchSize tableName doc = some conversion ∧
    conversion.batches.flatten.map some =
      (records doc).map (fun record =>
        insertSQLRow tableName (fieldValues record)) ∧
    ∀ record ∈ records doc, fieldNames record = conversion.columns

variable {batchSize tableName}

theorem insertSQLRow_eq_none_iff {values : List Text} :
    insertSQLRow tableName values = none ↔ values = [] := by
  cases values with
  | nil => exact iff_of_true rfl rfl
  | cons value rest => exact iff_of_false nofun nofun

theorem fieldValues_eq_nil_iff {record : Node} :
    fieldValues record = [] ↔ fieldNames record = [] := by
  simp [fieldValues, fieldNames]

theorem insertValues_append {values more : List (List Text)} :
    insertValues tableName (values ++ more) =
      insertValues tableName values ++ insertValues tableName more :=
  filterMap_append

/-! ## The loop -/

/-- All statements of a state, with those that have not been executed yet -/
def ConvertState.statements
    (tableName : Text)
    (st : ConvertState) :
    List Text :=
  st.batches.flatten ++ insertValues tableName st.values

variable {st}

/-- A round adds the row of its record, wherever the batch ends. -/
theorem convertRecord_later
    {record : Node}
    {position : Nat}
    (created : st.createTable = false)
    (later : position ≠ 0) :
    ∃ next,
      convertRecord batchSize tableName st (record, position) = some next ∧
      next.columns = st.columns ∧
      next.createTable = false ∧
      next.statements tableName =
        st.statements tableName ++ insertValues tableName [fieldValues record] := by
  unfold convertRecord
  rw [created, if_neg Bool.false_ne_true, if_neg fun both => later both.1]
  by_cases endsBatch : position % batchSize = 0 ∧ position > 0
  · refine ⟨_, if_pos endsBatch, rfl, rfl, ?_⟩
    simp [ConvertState.statements, insertValues]
  · refine ⟨_, if_neg endsBatch, rfl, rfl, ?_⟩
    simp [ConvertState.statements, insertValues_append]

theorem foldlM_convertRecord_later
    {rest : List Node}
    {position : Nat}
    (created : st.createTable = false) :
    ∃ ended,
      (rest.zipIdx (position + 1)).foldlM (convertRecord batchSize tableName)
        st = some ended ∧
      ended.columns = st.columns ∧
      ended.statements tableName =
        st.statements tableName ++
          insertValues tableName (rest.map fieldValues) := by
  induction rest generalizing st position with
  | nil => exact ⟨st, rfl, rfl, (append_nil _).symm⟩
  | cons record rest hypothesis =>
      obtain ⟨next, stepped, columns, stillCreated, statements⟩ :=
        @convertRecord_later batchSize tableName st record (position + 1)
          created (Nat.succ_ne_zero position)
      obtain ⟨ended, done, laterColumns, laterStatements⟩ :=
        @hypothesis next (position + 1) stillCreated
      refine ⟨ended, ?_, laterColumns.trans columns, ?_⟩
      · rw [zipIdx_cons, foldlM_cons, stepped]
        exact done
      · rw [laterStatements, statements, append_assoc,
          ← insertValues_append]
        rfl

/-- The columns are those of the first record, and every row is inserted. -/
theorem convert_eq_some
    {doc : Node}
    (present : ∀ record, (records doc).head? = some record →
      fieldNames record ≠ []) :
    ∃ conversion, convert batchSize tableName doc = some conversion ∧
      conversion.batches.flatten =
        insertValues tableName ((records doc).map fieldValues) ∧
      ∀ record, (records doc).head? = some record →
        conversion.columns = fieldNames record := by
  unfold convert
  cases all : records doc with
  | nil => exact ⟨_, rfl, rfl, nofun⟩
  | cons first rest =>
      rw [all] at present
      have columns := present first rfl
      obtain ⟨ended, done, endedColumns, statements⟩ :=
        @foldlM_convertRecord_later batchSize tableName
          ⟨fieldNames first, false, [fieldValues first], []⟩ rest 0 rfl
      refine ⟨⟨ended.columns,
        ended.batches ++ [insertValues tableName ended.values]⟩, ?_, ?_, ?_⟩
      · have stepped : convertRecord batchSize tableName ⟨[], true, [], []⟩
            (first, 0) = some ⟨fieldNames first, false,
              [fieldValues first], []⟩ := by
          simp [convertRecord, columns]
        simp only [zipIdx_cons, foldlM_cons, stepped,
          Option.bind_eq_bind, Option.bind_some, done]
        rfl
      · rw [flatten_append, flatten_singleton]
        exact statements.trans insertValues_append.symm
      · rintro record isFirst
        rw [endedColumns, Option.some.inj isFirst]

/-! ## Documents that are converted -/

theorem map_some_insertValues
    {rows : List (List Text)}
    (nonempty : ∀ row ∈ rows, row ≠ []) :
    (insertValues tableName rows).map some =
      rows.map (insertSQLRow tableName) := by
  induction rows with
  | nil => rfl
  | cons row rest hypothesis =>
      rw [forall_mem_cons] at nonempty
      obtain ⟨statement, isStatement⟩ := Option.ne_none_iff_exists'.mp
        (mt insertSQLRow_eq_none_iff.mp nonempty.1)
      rw [insertValues, filterMap_cons_some isStatement, map_cons,
        map_cons, isStatement]
      exact congrArg _ (hypothesis nonempty.2)

def field (name value : Text) : Node :=
  .element "field".toList [("name".toList, name)] [.text value]

/-- The second record has no area. -/
def missingField : Node :=
  .element "data".toList []
    [.element "record".toList []
      [field "Area".toList "Spain".toList, field "Year".toList "2010".toList],
    .element "record".toList [] [field "Year".toList "2011".toList]]

end DistributedRdf.UNData
