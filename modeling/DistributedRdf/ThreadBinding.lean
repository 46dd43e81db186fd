import DistributedRdf.MethodOutcome
import Mathlib

namespace DistributedRdf.Nio

open Java

/-!
# Binding of jobs to computing units

A map of the machine lists the computing units of each socket.  A second list of
the same shape says which job holds each of them, or `-1`.
-/

abbrev JobId := Nat

structure BindToMap where
  idList : List (List Int)
  bindedCPUs : List (List Int)
  deriving DecidableEq

/-- How `bindComputingUnits` ends when no runtime exception is thrown. -/
inductive BindResult where
  | bound (assignedCoreUnits : List Int)
  | unsufficientAvailableComputingUnits
  deriving DecidableEq

/-!
## The machine map
-/

/-- `String.split` with a separator of one character -/
def split (separator : Char) (text : List Char) : List (List Char) :=
  match text.splitOn separator with
  | [whole] => [whole]
  | parts => (parts.reverse.dropWhile (· = [])).reverse

def digitValue (digit : Char) : Option Int :=
  if digit.isDigit then some (digit.toNat - '0'.toNat) else none

/-- `Integer.parseInt` of the digits -/
def parseDigits (digits : List Char) : Option Int :=
  if digits = [] then
    none
  else
    digits.foldlM
      (fun value digit => do return 10 * value + (← digitValue digit))
      0

/-- `Integer.parseInt`, or `none` for a `NumberFormatException` -/
def parseInt (text : List Char) : Option Int := do
  let value ←
    match text with
    | '-' :: digits => (parseDigits digits).map (- ·)
    | '+' :: digits => parseDigits digits
    | digits => parseDigits digits
  if -2 ^ 31 ≤ value ∧ value < 2 ^ 31 then
    return value
  none

/-- The bounds of an interval, both of them included. -/
def parseInterval (interval : List Char) : Option (Int × Int) := do
  match split '-' interval with
  | [lower, upper] => return (← parseInt lower, ← parseInt upper)
  | lower :: _ =>
      let bound ← parseInt lower
      return (bound, bound)
  | [] => none

def intervalIds (interval : Int × Int) : List Int :=
  (List.range (interval.2 - interval.1 + 1).toNat).map (interval.1 + ·)

/-- The intervals of each socket. -/
def parseSockets (socketString : String) : Option (List (List (Int × Int))) :=
  (split '/' socketString.toList).mapM fun availableCPUs =>
    (split ',' availableCPUs).mapM parseInterval

/-- An interval with its bounds swapped counts negatively. -/
def realAmountThreads (sockets : List (List (Int × Int))) : Int :=
  (sockets.flatten.map fun interval => interval.2 - interval.1 + 1).sum

/-- Every socket gets its unit number `i` once more, while threads are missing. -/
def replicateRow (i : Nat) :
    Nat → List (List Int) → Option (List (List Int) × Nat)
  | 0, sockets => some (sockets, 0)
  | missing, [] => some ([], missing)
  | missing + 1, ids :: rest => do
      let id ← ids[i]?
      let (more, left) ← replicateRow i missing rest
      return ((ids ++ [id]) :: more, left)

/-- Every row adds a thread, so that there are no more rows than threads. -/
def replicateRows :
    (rows i missing : Nat) → List (List Int) → Option (List (List Int))
  | 0, _, _, sockets => some sockets
  | rows + 1, i, missing, sockets =>
      if i < (sockets.headD []).length ∧ missing > 0 then do
        let (more, left) ← replicateRow i missing sockets
        replicateRows rows (i + 1) left more
      else
        some sockets

variable (numThreads : Int)

/-- Both lists grow together; the free units need not be copied. -/
def auxiliarConstructor
    (computingUnitsIds : List (List Int))
    (totalAmountThreads : Int) : Option BindToMap := do
  if computingUnitsIds = [] then
    none
  let missing := (numThreads - totalAmountThreads).toNat
  let idList ← replicateRows missing 0 missing computingUnitsIds
  return ⟨idList, idList.map fun ids => ids.map fun _ => -1⟩

/-- `new BindToMap(numThreads, socketString)`, or `none` if it throws -/
def construct (socketString : String) : Option BindToMap := do
  let sockets ← parseSockets socketString
  auxiliarConstructor numThreads
    (sockets.map fun intervals => (intervals.map intervalIds).flatten)
    (realAmountThreads sockets)

/-!
## Binding and releasing
-/

def getAvailableSlots (socket : List Int) : Nat :=
  socket.count (-1)

/-- What the recursion over the sockets returns; it may run over their end. -/
inductive SocketSearch where
  | found (socketUsed : List Nat)
  | null
  | indexOutOfBounds
  deriving DecidableEq

/-- The first argument are the sockets from `index` on. -/
def recursiveBindingComputingUnits :
    List (List Int) → (amount index : Nat) → SocketSearch
  | [], _, _ => .indexOutOfBounds
  | socket :: rest, amount, index =>
      let availableSlots := getAvailableSlots socket
      if availableSlots ≥ amount then
        .found [index]
      else if availableSlots > 0 then
        match
          recursiveBindingComputingUnits rest (amount - availableSlots)
            (index + 1)
        with
        | .found nextSocketsUsed => .found (nextSocketsUsed ++ [index])
        | .null => .null
        | .indexOutOfBounds => .indexOutOfBounds
      else
        .null

/-- The free slots of one socket, until enough are assigned. -/
def assignSlots (jobId : JobId) :
    Nat → (slots ids : List Int) → Option (List Int × List Int)
  | 0, slots, _ => some ([], slots)
  | _ + 1, [], _ => some ([], [])
  | wanted + 1, slot :: slots, ids =>
      if slot = -1 then
        match ids with
        | [] => none
        | id :: ids =>
            (assignSlots jobId wanted slots ids).map fun (assigned, after) =>
              (id :: assigned, (jobId : Int) :: after)
      else
        (assignSlots jobId (wanted + 1) slots ids.tail).map
          fun (assigned, after) => (assigned, slot :: after)

/-- The sockets that the search has found, until enough slots are assigned. -/
def assignSockets (jobId : JobId) :
    List Nat → Nat → BindToMap → Outcome BindToMap (List Int)
  | [], _, binder => .returned binder []
  | socket :: rest, wanted, binder =>
      match binder.bindedCPUs[socket]?, binder.idList[socket]? with
      | some slots, some ids =>
          match assignSlots jobId wanted slots ids with
          | none => .raised binder .indexOutOfBounds
          | some (assigned, after) =>
              let next :=
                { binder with bindedCPUs := binder.bindedCPUs.set socket after }
              if assigned.length = wanted then
                .returned next assigned
              else
                (assignSockets jobId rest (wanted - assigned.length)
                  next).andThen fun final more =>
                    .returned final (assigned ++ more)
      | _, _ => .raised binder .indexOutOfBounds

namespace BindToMap

variable (binder : BindToMap)

/-- The sockets with more available slots first; the sort is stable. -/
def socketOrder : List Nat :=
  (List.range binder.bindedCPUs.length).insertionSort fun first second =>
    getAvailableSlots (binder.bindedCPUs.getD second []) ≤
      getAvailableSlots (binder.bindedCPUs.getD first [])

def updateSocketPriority : BindToMap where
  idList := binder.socketOrder.map fun socket => binder.idList.getD socket []
  bindedCPUs :=
    binder.socketOrder.map fun socket => binder.bindedCPUs.getD socket []

variable (jobId : JobId)

def bindComputingUnits
    (numCUs : Nat) : Outcome BindToMap BindResult :=
  match recursiveBindingComputingUnits binder.bindedCPUs numCUs 0 with
  | .indexOutOfBounds => .raised binder .indexOutOfBounds
  | .null => .returned binder .unsufficientAvailableComputingUnits
  | .found usedSockets =>
      (assignSockets jobId usedSockets numCUs binder).andThen
        fun binder assigned =>
          .returned binder.updateSocketPriority
            -- the rest of the array keeps its initial zeros
            (.bound (assigned ++ List.replicate (numCUs - assigned.length) 0))

def releaseComputingUnits : BindToMap :=
  updateSocketPriority
    { binder with
      bindedCPUs :=
        binder.bindedCPUs.map fun vector =>
          vector.map fun (slot : Int) => if slot = jobId then -1 else slot }

end BindToMap

end DistributedRdf.Nio
