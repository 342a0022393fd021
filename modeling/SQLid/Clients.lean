import SQLid.Library.Interleave
import SQLid.Requests

/-!
# Clients of one table

`Tabble.h` and `Executor.h` as the threads of the server run them, one thread for
each client. A section under the mutex of the stack, an access to a counter and a
call on the storage are one action each; the answer belongs to the thread. A fault
ends the request, whether the client is told of it or nobody is left to tell.
-/
namespace SQLid
open Bytes (Text)
open Interleave

/-- What a thread does next. `first` marks the write an UPDATE of a line starts with,
`rest` counts the columns still to be written, and `select` the statement that asks.
The last five touch nothing that is shared. -/
inductive Action where
  | pop
  | loadFreeId
  | getMaxLines
  | expand
  | addPlace
  | addFreeId (cur : Nat)
  | activate (line : Nat)
  | write (first : Bool) (line offset : Nat) (value : VariantTypes) (rest : Nat)
  | inserted (line : Nat)
  | deactivate (line : Nat)
  | push (line : Nat)
  | subPlace
  | isActive (select : Bool) (line : Nat)
  | read (line : Nat)
  | getMaxActiveLine
  | getActivePlaces
  | note (op : RowOp)
  | skip (line : Nat)
  | aim (line : Nat)
  | pushRow (line : Nat) (ids : List Nat) (row : List VariantTypes)
  | fail

abbrev Client (α : Type) : Type 1 := Thread Fault Tabble Action α

namespace Client
open Thread (atom)

variable {α β : Type}

def fail (e : Fault) : Client α := atom .fail (throw e)

def ofExcept : Except Fault α → Client α
  | .ok a => pure a
  | .error e => fail e

def onStorage (l : Action) (x : EStateM Fault MemoryMap α) : Client α := atom l (Tabble.onStorage x)

def note (op : RowOp) : Client Unit := atom (.note op) (Tabble.note op)

/-! `Tabble.h`. -/

def popInStack : EStateM Fault Tabble (Option Nat) := do
  let t ← get
  match t.stackFreeId with
  | id :: rest =>
      set { t with stackFreeId := rest }
      return some id
  | [] => return none

/-- A call that finds another thread growing the file waits, and returns when that
growth is over. This can only be where the file has grown since the caller saw it. -/
def expandSeen (os : Os) (waits : Bool) (lines : Nat) : EStateM Fault Tabble Unit := do
  if waits ∧ lines < (← get).storage.getMaxLines then pure ()
  else Tabble.onStorage (MemoryMap.expand os none)

def makeRoom (os : Os) (waits : Bool) (cur lines : Nat) : Client Unit :=
  if lines ≤ cur then atom .expand (expandSeen os waits lines) else pure ()

def loadFreeId : EStateM Fault Tabble Nat := do return (← get).freeId

def loadMaxLines : EStateM Fault Tabble Nat := do return (← get).storage.getMaxLines

def addPlace : EStateM Fault Tabble Unit :=
  modify fun t => { t with activePlaces := sizeAdd t.activePlaces 1 }

def addFreeId : EStateM Fault Tabble Unit :=
  modify fun t => { t with freeId := sizeAdd t.freeId 1 }

def subPlace : EStateM Fault Tabble Unit :=
  modify fun t => { t with activePlaces := sizeSub t.activePlaces 1 }

/-- The part of `allocateId` behind an empty stack. -/
def allocateFresh (os : Os) (waits : Bool) : Client Nat := do
  let cur ← atom .loadFreeId loadFreeId
  let lines ← atom .getMaxLines loadMaxLines
  makeRoom os waits cur lines
  atom .addPlace addPlace
  atom (.addFreeId cur) addFreeId
  return cur

def allocateId (os : Os) (waits : Bool) : Client Nat := do
  match ← atom .pop popInStack with
  | some id => return id
  | none => allocateFresh os waits

def updateFrom (os : Os) (values : List VariantTypes) (cur : Nat) :
    Bool → Nat → List Column → Client Unit
  | _, _, [] => pure ()
  | first, i, column :: columns =>
      match values[i]? with
      | none => fail .undefined
      | some value => do
          onStorage (.write first cur column.offset value columns.length)
            (MemoryMap.writeInfo os cur column.offset value)
          updateFrom os values cur false (i + 1) columns

def update (os : Os) (values : List VariantTypes) (columns : List Column) (first : Bool)
    (cur indexValues : Nat) : Client Unit := do
  note (.update cur)
  updateFrom os values cur first indexValues columns

def insert (os : Os) (waits : Bool) (values : List VariantTypes) (columns : List Column)
    (index : Nat) : Client Nat := do
  let cur ← allocateId os waits
  note (.insert cur)
  onStorage (.activate cur) (MemoryMap.activate cur)
  update os values columns false cur index
  atom (.inserted cur) addPlace
  return cur

def erase (line : Nat) : Client Nat := do
  note (.erase line)
  onStorage (.deactivate line) (MemoryMap.deactivate line)
  atom (.push line) (Tabble.pushInStack line)
  atom .subPlace subPlace
  return line

def readColumn (line : Nat) (column : Column) : Client VariantTypes :=
  atom (.read line) (Tabble.readColumn line column)

/-! `Executor.h`. -/

def satisfiesFrom (line : Nat) (columns : List Column) :
    Bool → ConditionType → List Condition → Client Bool
  | current, _, [] => pure current
  | current, logic, cond :: conds =>
      if cond.collumnId = sizeMax then satisfiesFrom line columns current cond.condType conds
      else match columns[cond.collumnId]? with
        | none => fail .undefined
        | some column => do
            let value ← readColumn line column
            let met ← ofExcept (cond.result value)
            satisfiesFrom line columns
              (if logic = .logicalOr then current || met else current && met) logic conds

def satisfiesConditions (line : Nat) (conditions : List Condition) (columns : List Column) :
    Client Bool :=
  satisfiesFrom line columns false .logicalOr conditions

def readColumns (line : Nat) (columns : List Column) : List Nat → Client (List VariantTypes)
  | [] => pure []
  | id :: ids =>
      match columns[id]? with
      | none => fail .undefined
      | some column => do
          let value ← readColumn line column
          let values ← readColumns line columns ids
          return value :: values

/-- `readRecord`, and the row pushed to the answer. -/
def pushRecord (line : Nat) (columnIds : List Nat) (columns : List Column) :
    Client (List VariantTypes) := do
  let values ← readColumns line columns columnIds
  atom (.pushRow line columnIds (Executor.idCell line :: values)) (pure ())
  return Executor.idCell line :: values

def selects (select : Bool) (conditions : List Condition) (columns : List Column) (line : Nat) :
    Client Bool := do
  if ← onStorage (.isActive select line) (MemoryMap.isActive line) then
    if conditions = [] then pure true else satisfiesConditions line conditions columns
  else pure false

/-- The scan of a statement; `act` makes the row of a line that is selected. -/
def scanLines (select : Bool) (conditions : List Condition) (columns : List Column)
    (activeCount : Nat) (act : Nat → Client (List VariantTypes)) :
    Nat → Nat → List (List VariantTypes) → Client (List (List VariantTypes))
  | 0, _, body => pure body
  | n+1, i, body =>
      if body.length < activeCount then do
        if ← selects select conditions columns i then do
          let row ← act i
          scanLines select conditions columns activeCount act n (i + 1) (body ++ [row])
        else do
          atom (.skip i) (pure ())
          scanLines select conditions columns activeCount act n (i + 1) body
      else pure body

def getMaxActiveLine : Client Nat :=
  atom .getMaxActiveLine (do return (← get).getMaxActiveLine)

def activeCount (limit : Nat) : Client Nat := do
  let places ← atom .getActivePlaces (do return (← get).getActivePlaces)
  return if places < limit then places else limit

def reserveBody (n : Nat) : Client Unit :=
  if Executor.maxBody < n then fail .lengthError else pure ()

def sorted (query : SelectQuery) (body : List (List VariantTypes)) : List (List VariantTypes) :=
  if query.orderColumnsOptimized ≠ [] then Executor.sortBody query.orderColumnsOptimized body
  else body

def executeSelect (columns : List Column) (query : SelectQuery) : Client (List (List VariantTypes)) := do
  let _ ← ofExcept (Executor.columnHeader columns query.columnsOptimized)
  match Executor.directIndex query.conditions with
  | some desired =>
      let line ← ofExcept desired.getInt64
      atom (.aim line.toNat) (pure ())
      let row ← pushRecord line.toNat query.columnsOptimized columns
      return [row]
  | none =>
      let freeId ← getMaxActiveLine
      let strip ← ofExcept (Executor.stripSelect 0 freeId query.conditions)
      let count ← activeCount query.limit
      reserveBody count
      let body ← scanLines true strip.2.2 columns count
        (fun line => pushRecord line query.columnsOptimized columns)
        (strip.2.1 - strip.1) strip.1 []
      return sorted query body

def insertFrom (os : Os) (waits : Nat → Bool) (values : List VariantTypes) (columns : List Column) :
    Nat → Nat → List (List VariantTypes) → Client (List (List VariantTypes))
  | 0, _, body => pure body
  | n+1, i, body =>
      if i < values.length then do
        let insertedTo ← insert os (waits i) values columns i
        insertFrom os waits values columns n (i + columns.length)
          (body ++ [[Executor.idCell insertedTo]])
      else pure body

def executeInsert (os : Os) (waits : Nat → Bool) (columns : List Column) (query : InsertQuery) :
    Client (List (List VariantTypes)) :=
  insertFrom os waits query.values columns query.values.length 0 []

/-- An active line is changed, and the line is the row in either case or in this one. -/
def eraseLine (line : Nat) : Client (List VariantTypes) := do
  let _ ← erase line
  return [Executor.idCell line]

def updateLine (os : Os) (values : List VariantTypes) (columns : List Column) (line : Nat) :
    Client (List VariantTypes) := do
  update os values columns true line 0
  return [Executor.idCell line]

def executeDelete (columns : List Column) (query : DeleteQuery) : Client (List (List VariantTypes)) := do
  match Executor.directIndex query.conditions with
  | some desired =>
      let line ← ofExcept desired.getInt64
      if ← onStorage (.isActive false line.toNat) (MemoryMap.isActive line.toNat) then do
        let row ← eraseLine line.toNat
        return [row]
      else return [[Executor.idCell line.toNat]]
  | none =>
      let freeId ← getMaxActiveLine
      let maxLine ← ofExcept (Executor.upperBound freeId query.conditions)
      let count ← activeCount query.limit
      reserveBody count
      scanLines false query.conditions columns count eraseLine maxLine 0 []

def executeUpdate (os : Os) (columns : List Column) (query : UpdateQuery) :
    Client (List (List VariantTypes)) := do
  let columnsToUpdate ← ofExcept (Executor.columnsAt columns query.columnsOptimized)
  match Executor.directIndex query.conditions with
  | some desired =>
      let line ← ofExcept desired.getInt64
      if ← onStorage (.isActive false line.toNat) (MemoryMap.isActive line.toNat) then do
        let row ← updateLine os query.values columnsToUpdate line.toNat
        return [row]
      else return []
  | none =>
      let freeId ← getMaxActiveLine
      let maxLine ← ofExcept (Executor.upperBound freeId query.conditions)
      let count ← activeCount query.limit
      reserveBody count
      scanLines false query.conditions columns count
        (updateLine os query.values columnsToUpdate) maxLine 0 []

/-- The statement of a query; the rows of its answer. -/
def execute (os : Os) (waits : Nat → Bool) (columns : List Column) :
    QueryVariant → Client (List (List VariantTypes))
  | .select query => executeSelect columns query
  | .insert query => executeInsert os waits columns query
  | .erase query => executeDelete columns query
  | .update query => executeUpdate os columns query

end Client
end SQLid
