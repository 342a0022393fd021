import SQLid.Library.Scan
import SQLid.Query
import SQLid.Tabble

/-!
# The executor

`Executor.h` on one table. The three scans share their loop: the counter is
compared as an unsigned number, and stops at the bound or when the result has
as many rows as there are active places.
-/
namespace SQLid
open Bytes (Text)
open CppText (str)

/-- The table of a query and the answer being built. -/
structure Execution where
  table : Tabble
  result : Result

/-- `std::get<int64_t>`. -/
def VariantTypes.getInt64 : VariantTypes → Except Fault (BitVec 64)
  | .int64 v => .ok v
  | _ => .error .badVariantAccess

namespace Executor

def onTable {α : Type} (x : EStateM Fault Tabble α) : EStateM Fault Execution α :=
  Programs.zoom Execution.table (fun s t => { s with table := t }) x

def onResult (f : Result → Result) : EStateM Fault Execution Unit :=
  modify fun s => { s with result := f s.result }

def pushRow (row : List VariantTypes) : EStateM Fault Execution Unit :=
  onResult fun r => { r with body := r.body ++ [row] }

/-- `int64_t` cells that carry an id. -/
def idCell (line : Nat) : VariantTypes := .int64 (BitVec.ofNat 64 line)

/-- The loop of `satisfiesConditions`; every condition is evaluated, also when the
result is settled. -/
def satisfiesFrom (line : Nat) (columns : List Column) :
    Bool → ConditionType → List Condition → EStateM Fault Tabble Bool
  | current, _, [] => pure current
  | current, logic, cond :: conds =>
      if cond.collumnId = sizeMax then satisfiesFrom line columns current cond.condType conds
      else match columns[cond.collumnId]? with
        | none => throw .undefined
        | some column => do
            let value ← Tabble.readColumn line column
            let met ← Programs.ofExcept (cond.result value)
            satisfiesFrom line columns
              (if logic = .logicalOr then current || met else current && met) logic conds

def satisfiesConditions (line : Nat) (conditions : List Condition) (columns : List Column) :
    EStateM Fault Tabble Bool :=
  satisfiesFrom line columns false .logicalOr conditions

def readColumns (line : Nat) (columns : List Column) : List Nat → EStateM Fault Tabble (List VariantTypes)
  | [] => pure []
  | id :: ids =>
      match columns[id]? with
      | none => throw .undefined
      | some column => do
          let value ← Tabble.readColumn line column
          return value :: (← readColumns line columns ids)

def readRecord (line : Nat) (columnIds : List Nat) (columns : List Column) :
    EStateM Fault Tabble (List VariantTypes) := do
  return idCell line :: (← readColumns line columns columnIds)

/-- An active line, and one that satisfies the conditions if there are any. -/
def selects (conditions : List Condition) (columns : List Column) (line : Nat) :
    EStateM Fault Tabble Bool := do
  if ← Tabble.onStorage (MemoryMap.isActive line) then
    if conditions = [] then pure true else satisfiesConditions line conditions columns
  else pure false

/-- `for (; i < max_line && result.body.size() < active_count; ++i)`, with
`max_line - i` rounds left. -/
def scanLines (conditions : List Condition) (columns : List Column) (activeCount : Nat)
    (act : Nat → EStateM Fault Execution Unit) (n i : Nat) : EStateM Fault Execution Unit :=
  Scan.loop (fun s => s.result.body.length) activeCount
    (fun line => onTable (selects conditions columns line)) act n i

/-- `std::vector<std::vector<variant_types>>::max_size()`. -/
def maxBody : Nat := (2 ^ 63 - 1) / 24

def reserveBody (n : Nat) : EStateM Fault Execution Unit :=
  if maxBody < n then throw .lengthError else pure ()

/-- The smaller of the active places and the limit. -/
def activeCount (limit : Nat) : EStateM Fault Execution Nat := do
  let places := (← get).table.getActivePlaces
  return if places < limit then places else limit

/-- The id of a direct lookup, which only the first condition can ask for. -/
def directIndex : List Condition → Option VariantTypes
  | ⟨.directIndex, _, desired⟩ :: _ => some desired
  | _ => none

/-- The strip of `executeSelect`: bounds, later ones overwriting, and the conditions left. -/
def stripSelect (i maxLine : Nat) : List Condition → Except Fault (Nat × Nat × List Condition)
  | [] => .ok (i, maxLine, [])
  | cond :: conds =>
      match cond.condType with
      | .toIndex => do stripSelect i (← cond.desired.getInt64).toNat conds
      | .fromIndex => do stripSelect (← cond.desired.getInt64).toNat maxLine conds
      | .logicalAnd | .logicalOr => stripSelect i maxLine conds
      | _ => .ok (i, maxLine, cond :: conds)

/-- The loop `executeDelete` and `executeUpdate` have instead. The scan has a counter of
its own, so that the lower bound is read and dropped. -/
def upperBound (maxLine : Nat) : List Condition → Except Fault Nat
  | [] => .ok maxLine
  | cond :: conds =>
      match cond.condType with
      | .toIndex => do upperBound (← cond.desired.getInt64).toNat conds
      | .fromIndex => do
          let _ ← cond.desired.getInt64
          upperBound maxLine conds
      | _ => .ok maxLine

def columnHeader (columns : List Column) : List Nat → Except Fault (List (Text × Text))
  | [] => .ok []
  | id :: ids =>
      match columns[id]? with
      | none => .error .undefined
      | some column => do return (column.name, typeToString column.type) :: (← columnHeader columns ids)

/-- The comparator of the sort, `operator[]` past the end of a row being undefined. -/
def rowBefore : List OderTypeOpt → List VariantTypes → List VariantTypes → Except Fault Bool
  | [], _, _ => .ok false
  | clause :: clauses, a, b =>
      match a[clause.rawId]?, b[clause.rawId]? with
      | some x, some y =>
          if x.eq y then rowBefore clauses a b
          else .ok (if clause.isGreaterSort then y.lt x else x.lt y)
      | _, _ => .error .undefined

/-- Whether `a` may stay in front of `b`. -/
def rowsInOrder (clauses : List OderTypeOpt) (a b : List VariantTypes) : Bool :=
  match rowBefore clauses b a with
  | .ok before => !before
  | .error _ => true

/-- `std::stable_sort`. Where NaN keys make the comparator no strict weak order, C++ leaves
the result open; there the order of the rows is this model's own choice. -/
def sortBody (clauses : List OderTypeOpt) (body : List (List VariantTypes)) :
    List (List VariantTypes) :=
  body.mergeSort (rowsInOrder clauses)

def executeSelect (query : SelectQuery) : EStateM Fault Execution Unit := do
  onResult fun r => { r with messeage := str "Selected" }
  let columns := (← get).table.info.columns
  let header ← Programs.ofExcept (columnHeader columns query.columnsOptimized)
  onResult fun r => { r with header := r.header ++ [str "ID"] ++ header.map Prod.fst,
                             types := r.types ++ [str "INT64"] ++ header.map Prod.snd }
  match directIndex query.conditions with
  | some desired =>
      let line ← Programs.ofExcept desired.getInt64
      pushRow (← onTable (readRecord line.toNat query.columnsOptimized columns))
  | none =>
      let (i, maxLine, conditions) ← Programs.ofExcept
        (stripSelect 0 (← get).table.getMaxActiveLine query.conditions)
      let count ← activeCount query.limit
      reserveBody count
      scanLines conditions columns count
        (fun line => do pushRow (← onTable (readRecord line query.columnsOptimized columns)))
        (maxLine - i) i
      if query.orderColumnsOptimized ≠ [] then
        onResult fun r => { r with body := sortBody query.orderColumnsOptimized r.body }

/-- The rounds of `executeInsert`; each moves `i` by the number of columns, and there
are no more rounds than values. -/
def insertFrom (os : Os) (values : List VariantTypes) (columns : List Column) :
    Nat → Nat → EStateM Fault Execution Unit
  | 0, _ => pure ()
  | n+1, i =>
      if i < values.length then do
        let insertedTo ← onTable (Tabble.insert os values columns i)
        pushRow [idCell insertedTo]
        insertFrom os values columns n (i + columns.length)
      else pure ()

def executeInsert (os : Os) (query : InsertQuery) : EStateM Fault Execution Unit := do
  onResult fun r => { r with header := r.header ++ [str "ID"], types := r.types ++ [str "INT64"] }
  let columns := (← get).table.info.columns
  tryCatch (do
      insertFrom os query.values columns query.values.length 0
      onResult fun r => { r with messeage := str "Inserted", isSucces := true })
    fun e => if e.isException then onResult fun r => { r with error := e.what } else throw e

def executeDelete (query : DeleteQuery) : EStateM Fault Execution Unit := do
  onResult fun r => { r with header := r.header ++ [str "ID"], types := r.types ++ [str "INT64"] }
  let columns := (← get).table.info.columns
  match directIndex query.conditions with
  | some desired =>
      let line ← Programs.ofExcept desired.getInt64
      if ← onTable (Tabble.onStorage (MemoryMap.isActive line.toNat)) then
        let _ ← onTable (Tabble.erase line.toNat)
        onResult fun r => { r with isSucces := true }
      pushRow [idCell line.toNat]
  | none =>
      let maxLine ← Programs.ofExcept (upperBound (← get).table.getMaxActiveLine query.conditions)
      let count ← activeCount query.limit
      reserveBody count
      scanLines query.conditions columns count
        (fun line => do
          let _ ← onTable (Tabble.erase line)
          pushRow [idCell line])
        maxLine 0
      onResult fun r => { r with isSucces := true }

/-- `columns[i]` for each of these numbers. -/
def columnsAt (columns : List Column) : List Nat → Except Fault (List Column)
  | [] => .ok []
  | id :: ids =>
      match columns[id]? with
      | none => .error .undefined
      | some column => do return column :: (← columnsAt columns ids)

def executeUpdate (os : Os) (query : UpdateQuery) : EStateM Fault Execution Unit := do
  onResult fun r => { r with header := r.header ++ [str "ID"], types := r.types ++ [str "INT64"] }
  let columns := (← get).table.info.columns
  let columnsToUpdate ← Programs.ofExcept (columnsAt columns query.columnsOptimized)
  match directIndex query.conditions with
  | some desired =>
      let line ← Programs.ofExcept desired.getInt64
      if ← onTable (Tabble.onStorage (MemoryMap.isActive line.toNat)) then
        onTable (Tabble.update os query.values columnsToUpdate line.toNat 0)
        pushRow [idCell line.toNat]
        onResult fun r => { r with isSucces := true }
  | none =>
      let maxLine ← Programs.ofExcept (upperBound (← get).table.getMaxActiveLine query.conditions)
      let count ← activeCount query.limit
      reserveBody count
      scanLines query.conditions columns count
        (fun line => do
          onTable (Tabble.update os query.values columnsToUpdate line 0)
          pushRow [idCell line])
        maxLine 0

def execute (os : Os) (query : QueryVariant) : EStateM Fault Execution Unit := do
  onResult fun r => { r with isSucces := true }
  match query with
  | .select query => executeSelect query
  | .insert query => executeInsert os query
  | .erase query => executeDelete query
  | .update query => executeUpdate os query

end Executor
end SQLid
