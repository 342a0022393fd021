import SQLid.MemoryMapLinux

/-!
# The storage of one table

`MemoryMap.h` run by one thread, so that every stripe lock is free; the spin
flag `expanding` stays, since a failed growth leaves it set.
-/
namespace SQLid
open Bytes (Text)
open CppText (str)

/-- The bytes `memcpy` takes from a value, least significant first. -/
def VariantTypes.bytes : VariantTypes → Text
  | .int32 v => Bytes.leBytes 4 v.toNat
  | .int64 v => Bytes.leBytes 8 v.toNat
  | .double v => Bytes.leBytes 8 v.toNat
  | .float v => Bytes.leBytes 4 v.toNat
  | .bool b => [if b then 1 else 0]
  | .string s => s

/-- A byte other than 0 and 1 is no valid `bool`; it is read as true. -/
def boolOfBytes (bs : Text) : Bool := bs.headD 0 != 0

/-- The number `memcpy` makes of the bytes of a column, by the type it is read at. -/
def numberOfBytes (bs : Text) : ColumnType → Except Fault VariantTypes
  | .int32 => .ok (.int32 (BitVec.ofNat 32 (Bytes.leNat bs)))
  | .int64 => .ok (.int64 (BitVec.ofNat 64 (Bytes.leNat bs)))
  | .double => .ok (.double (BitVec.ofNat 64 (Bytes.leNat bs)))
  | .float => .ok (.float (BitVec.ofNat 32 (Bytes.leNat bs)))
  | .bool => .ok (.bool (boolOfBytes bs))
  | .voida | .text | .string => .error .undefined

theorem VariantTypes.length_bytes {v : VariantTypes} {t : ColumnType} (h : v.hasType t = true)
    (ht : t.isText = false) : v.bytes.length = typeSizes t := by
  cases v <;> cases t <;> simp_all [hasType, ColumnType.isText, bytes, typeSizes]

/-- Reading back the bytes of a number gives its bit pattern. -/
theorem numberOfBytes_bytes {v : VariantTypes} {t : ColumnType} (h : v.hasType t = true)
    (ht : t.isText = false) : numberOfBytes v.bytes t = .ok v := by
  have hnat {w : Nat} (v : BitVec w) (n : Nat) (hw : 256 ^ n = 2 ^ w) :
      BitVec.ofNat w (Bytes.leNat (Bytes.leBytes n v.toNat)) = v := by
    apply BitVec.eq_of_toNat_eq
    rw [Bytes.leNat_leBytes, BitVec.toNat_ofNat, hw, Nat.mod_mod, Nat.mod_eq_of_lt v.isLt]
  cases v with
  | string s => cases t <;> simp_all [VariantTypes.hasType, ColumnType.isText]
  | bool b =>
      cases t <;> simp_all [VariantTypes.hasType, numberOfBytes]
      cases b <;> rfl
  | int32 v =>
      cases t <;> simp_all [VariantTypes.hasType, numberOfBytes]
      exact hnat v 4 (by decide)
  | int64 v =>
      cases t <;> simp_all [VariantTypes.hasType, numberOfBytes]
      exact hnat v 8 (by decide)
  | double v =>
      cases t <;> simp_all [VariantTypes.hasType, numberOfBytes]
      exact hnat v 8 (by decide)
  | float v =>
      cases t <;> simp_all [VariantTypes.hasType, numberOfBytes]
      exact hnat v 4 (by decide)

/-- `expand` says for which line a writer asked for growth, if a writer did. -/
inductive Call where
  | expand (writer : Option Nat)
  | isActive (lineNumber : Nat)
  | activate (lineNumber : Nat)
  | deactivate (lineNumber : Nat)
  | readNumber (lineNumber : Nat)
  | readText (lineNumber : Nat)
  | writeNumber (lineNumber : Nat)
  | writeText (lineNumber : Nat)
  deriving DecidableEq, Repr

def Call.line : Call → Option Nat
  | .expand writer => writer
  | .isActive n | .activate n | .deactivate n | .readNumber n | .readText n
  | .writeNumber n | .writeText n => some n

/-- `log` is a ghost: the calls made so far, newest first, each with the file it
found. Nothing reads it. -/
structure MemoryMap where
  core : MemoryMapLinux
  expanding : Bool
  log : List (Call × MemoryMapLinux)

namespace MemoryMap

def getMaxLines (m : MemoryMap) : Nat := m.core.getMaxLine

def record (c : Call) : EStateM Fault MemoryMap Unit :=
  modify fun m => { m with log := (c, m.core) :: m.log }

def onCore {α : Type} (x : EStateM Fault MemoryMapLinux α) : EStateM Fault MemoryMap α :=
  Programs.zoom core (fun m c => { m with core := c }) x

/-- A caller that finds the flag set waits for the thread that set it. -/
def expand (os : Os) (writer : Option Nat) : EStateM Fault MemoryMap Unit := do
  record (.expand writer)
  if (← get).expanding then throw .hang
  modify fun m => { m with expanding := true }
  onCore (MemoryMapLinux.expandFile os)
  modify fun m => { m with expanding := false }

/-- Both writers grow the file for a line past its end, by one doubling only. -/
def write (os : Os) (c : Call) (lineNumber : Nat) (put : EStateM Fault MemoryMapLinux Unit) :
    EStateM Fault MemoryMap Unit := do
  record c
  if (← get).core.getMaxLine ≤ lineNumber then expand os (some lineNumber)
  onCore put

def writeNumber (os : Os) (lineNumber offset : Nat) (value : Text) : EStateM Fault MemoryMap Unit :=
  write os (.writeNumber lineNumber) lineNumber (MemoryMapLinux.writeNumber lineNumber offset value)

def writeText (os : Os) (lineNumber offset : Nat) (value : Text) : EStateM Fault MemoryMap Unit :=
  write os (.writeText lineNumber) lineNumber (MemoryMapLinux.writeText lineNumber offset value)

def readNumber (lineNumber offset size : Nat) : EStateM Fault MemoryMap Text := do
  record (.readNumber lineNumber)
  Programs.ofExcept ((← get).core.readNumber lineNumber offset size)

def readText (lineNumber offset size : Nat) : EStateM Fault MemoryMap Text := do
  record (.readText lineNumber)
  Programs.ofExcept ((← get).core.readText lineNumber offset size)

def writeFlag (c : Call) (lineNumber : Nat) (b : Bool) : EStateM Fault MemoryMap Unit := do
  record c
  onCore (MemoryMapLinux.writeNumber lineNumber 0 (VariantTypes.bool b).bytes)

def activate (lineNumber : Nat) : EStateM Fault MemoryMap Unit :=
  writeFlag (.activate lineNumber) lineNumber true

def deactivate (lineNumber : Nat) : EStateM Fault MemoryMap Unit :=
  writeFlag (.deactivate lineNumber) lineNumber false

def isActive (lineNumber : Nat) : EStateM Fault MemoryMap Bool := do
  record (.isActive lineNumber)
  return boolOfBytes (← Programs.ofExcept ((← get).core.readNumber lineNumber 0 1))

def writeInfo (os : Os) (lineNumber offset : Nat) : VariantTypes → EStateM Fault MemoryMap Unit
  | .string s => writeText os lineNumber offset s
  | value => writeNumber os lineNumber offset value.bytes

end MemoryMap
end SQLid
