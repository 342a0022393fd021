import SQLid.MemoryMap
import SQLid.TabbleInfo

/-!
# A table

`Tabble.h` run by one thread: the storage, the stack of freed lines, the first
line never used and the counter of active places.
-/
namespace SQLid
open Bytes (Text)
open CppText (str)

inductive RowOp where
  | insert (line : Nat)
  | update (line : Nat)
  | erase (line : Nat)
  deriving DecidableEq, Repr

/-- `history` is a ghost: the row operations called so far, oldest first. -/
structure Tabble where
  info : TabbleInfo
  storage : MemoryMap
  stackFreeId : List Nat
  freeId : Nat
  activePlaces : Nat
  history : List RowOp

namespace Tabble

/-- A table object before its constructor has opened the storage file. -/
def closed (info : TabbleInfo) (file : ByteFile) (calls : Nat) : Tabble :=
  ⟨info, ⟨.closed file info.lineLength calls, false, []⟩, [], 0, 0, []⟩

def onStorage {α : Type} (x : EStateM Fault MemoryMap α) : EStateM Fault Tabble α :=
  Programs.zoom storage (fun t m => { t with storage := m }) x

def note (op : RowOp) : EStateM Fault Tabble Unit :=
  modify fun t => { t with history := t.history ++ [op] }

/-- `while (ind < maxLine and storage.isActive(ind)) ++ind`, `n` lines before the end. -/
def skipActive : Nat → Nat → EStateM Fault Tabble Nat
  | 0, ind => pure ind
  | n+1, ind => do
      if ← onStorage (MemoryMap.isActive ind) then skipActive n (ind + 1) else pure ind

/-- The second loop: the last active line moves `freeId` past itself. -/
def countActive : Nat → Nat → EStateM Fault Tabble Unit
  | 0, _ => pure ()
  | n+1, i => do
      if ← onStorage (MemoryMap.isActive i) then
        modify fun t => { t with freeId := sizeAdd i 1, activePlaces := sizeAdd t.activePlaces 1 }
      countActive n (i + 1)

/-- The third loop: inactive lines go on the stack. -/
def pushHoles : Nat → Nat → EStateM Fault Tabble Unit
  | 0, _ => pure ()
  | n+1, i => do
      unless ← onStorage (MemoryMap.isActive i) do
        modify fun t => { t with stackFreeId := i :: t.stackFreeId }
      pushHoles n (i + 1)

def analyzeHoles (os : Os) : EStateM Fault Tabble Unit := do
  let maxLine := (← get).storage.getMaxLines
  let ind ← skipActive maxLine 0
  if ind = maxLine then onStorage (MemoryMap.expand os none)
  countActive (← get).storage.getMaxLines 0
  pushHoles (← get).freeId 0

/-- The constructor: open the storage file and rebuild the allocator from it. -/
def construct (os : Os) : EStateM Fault Tabble Unit := do
  onStorage (MemoryMap.onCore (MemoryMapLinux.openFile os))
  analyzeHoles os

/-- The table made from a storage file by the constructor. -/
def openFile (os : Os) (info : TabbleInfo) (file : ByteFile) (calls : Nat) :
    EStateM.Result Fault Tabble Unit :=
  (construct os).run (closed info file calls)

/-- Destroy the object and construct it again over the same file. -/
def reopen (os : Os) (t : Tabble) : EStateM.Result Fault Tabble Unit :=
  openFile os t.info t.storage.core.file t.storage.core.calls

def pushInStack (ind : Nat) : EStateM Fault Tabble Unit :=
  modify fun t => { t with stackFreeId := ind :: t.stackFreeId }

def allocateId (os : Os) : EStateM Fault Tabble Nat := do
  let t ← get
  match t.stackFreeId with
  | id :: rest =>
      set { t with stackFreeId := rest }
      return id
  | [] =>
      let cur := t.freeId
      if t.storage.getMaxLines ≤ cur then onStorage (MemoryMap.expand os none)
      modify fun t => { t with activePlaces := sizeAdd t.activePlaces 1 }
      modify fun t => { t with freeId := sizeAdd t.freeId 1 }
      return cur

def getActivePlaces (t : Tabble) : Nat := t.activePlaces
def getMaxActiveLine (t : Tabble) : Nat := t.freeId

/-- The loop of `update`; a missing value is read past the end of the vector. -/
def updateFrom (os : Os) (values : List VariantTypes) (cur : Nat) :
    Nat → List Column → EStateM Fault Tabble Unit
  | _, [] => pure ()
  | i, column :: columns => do
      match values[i]? with
      | none => throw .undefined
      | some value =>
          onStorage (MemoryMap.writeInfo os cur column.offset value)
          updateFrom os values cur (i + 1) columns

def update (os : Os) (values : List VariantTypes) (columns : List Column) (cur indexValues : Nat) :
    EStateM Fault Tabble Unit := do
  note (.update cur)
  updateFrom os values cur indexValues columns

def insert (os : Os) (values : List VariantTypes) (columns : List Column) (index : Nat) :
    EStateM Fault Tabble Nat := do
  let cur ← allocateId os
  note (.insert cur)
  onStorage (MemoryMap.activate cur)
  update os values columns cur index
  modify fun t => { t with activePlaces := sizeAdd t.activePlaces 1 }
  return cur

def erase (line : Nat) : EStateM Fault Tabble Nat := do
  note (.erase line)
  onStorage (MemoryMap.deactivate line)
  pushInStack line
  modify fun t => { t with activePlaces := sizeSub t.activePlaces 1 }
  return line

/-- The switch has no case for texts and for `VOID`, and runs off its end there. -/
def readNumber (line offset : Nat) : ColumnType → EStateM Fault Tabble VariantTypes
  | .voida | .text | .string => throw .undefined
  | type => do
      let bs ← onStorage (MemoryMap.readNumber line offset (typeSizes type))
      Programs.ofExcept (numberOfBytes bs type)

def readText (line offset size : Nat) : EStateM Fault Tabble Text :=
  if size = 0 then onStorage (MemoryMap.readText line offset 128)
  else onStorage (MemoryMap.readText line offset size)

/-- The branch both readers of a column in the executor take. -/
def readColumn (line : Nat) (column : Column) : EStateM Fault Tabble VariantTypes :=
  if column.type.isText then .string <$> readText line column.offset column.size
  else readNumber line column.offset column.type

end Tabble
end SQLid
