import SQLid.Library.Programs
import SQLid.Variants

/-!
# The memory-mapped storage file

`MemoryMapLinux.h` with the part of the operating system it talks to. Pointers
are 64-bit numbers and wrap like them; a byte outside the mapping or past the
end of the file cannot be touched.
-/
namespace SQLid
open Bytes (Text)
open CppText (str)

structure ByteFile where
  size : Nat
  byte : Nat → UInt8

def ByteFile.empty : ByteFile := ⟨0, fun _ => 0⟩

/-- `ftruncate` keeps the common part and fills a longer file with zeros. -/
def ByteFile.truncate (f : ByteFile) (n : Nat) : ByteFile :=
  ⟨n, fun k => if k < f.size ∧ k < n then f.byte k else 0⟩

/-- The answers of the operating system to the `n`-th growth of a file. The laws
are those of a signed `off_t` and of `mmap`, which places a mapping in the half
of a 57-bit address space that belongs to the program. -/
structure Os where
  ftruncate : Nat → Nat → Bool
  mmap : Nat → Nat → Option Nat
  ftruncate_offT : ∀ n size, ftruncate n size = true → size < 2 ^ 63
  mmap_address : ∀ n len addr, mmap n len = some addr → 0 < addr ∧ addr + len ≤ 2 ^ 56

/-- Nothing fails that can succeed; an empty mapping never does. -/
def Os.reliable : Os where
  ftruncate _ size := size < 2 ^ 63
  mmap _ len := if 0 < len ∧ len < 2 ^ 55 then some 4096 else none
  ftruncate_offT _ _ h := by simpa using h
  mmap_address _ len addr h := by
    split at h
    · cases h; omega
    · cases h

/-- `file` is the content on disk, which a shared mapping writes through to;
`mapped` is how many bytes the system maps at `mappedData`, and `calls` counts
the growth requests made so far. -/
structure MemoryMapLinux where
  file : ByteFile
  mappedData : Nat
  mapped : Nat
  fileSize : Nat
  lineLength : Nat
  calls : Nat

namespace MemoryMapLinux

def mapFailed : Nat := 2 ^ 64 - 1

/-- An object whose file has not been opened. -/
def closed (file : ByteFile) (lineLength calls : Nat) : MemoryMapLinux :=
  ⟨file, 0, 0, 0, lineLength, calls⟩

/-- A zero line length would divide by zero; no such file can be mapped. -/
def getMaxLine (m : MemoryMapLinux) : Nat := m.fileSize / m.lineLength

def ftruncateTo (os : Os) (newFileSize : Nat) : EStateM Fault MemoryMapLinux Unit := do
  let m ← get
  if os.ftruncate m.calls newFileSize then
    set { m with file := m.file.truncate newFileSize }
  else
    throw (.runtimeError (str "ftruncate failed"))

def mmapBytes (os : Os) (len : Nat) : EStateM Fault MemoryMapLinux Unit := do
  let m ← get
  match os.mmap m.calls len with
  | some addr => set { m with mappedData := addr, mapped := len, calls := m.calls + 1 }
  | none =>
      set { m with mappedData := mapFailed, mapped := 0, calls := m.calls + 1 }
      throw (.runtimeError (str "mmap failed"))

def expandFile (os : Os) : EStateM Fault MemoryMapLinux Unit := do
  modify fun m => if m.mappedData = 0 then m else { m with mapped := 0 }
  let newFileSize := sizeMul (← get).fileSize 2
  ftruncateTo os newFileSize
  mmapBytes os newFileSize
  modify fun m => { m with fileSize := newFileSize }

/-- `MAP_FAILED` is not unmapped and stays in the pointer. -/
def close : EStateM Fault MemoryMapLinux Unit :=
  modify fun m =>
    if m.mappedData = mapFailed then { m with fileSize := 0 }
    else { m with mappedData := 0, mapped := 0, fileSize := 0 }

/-- A file no longer than one line is sized for 100 lines. -/
def openFile (os : Os) : EStateM Fault MemoryMapLinux Unit := do
  close
  modify fun m => { m with fileSize := m.file.size }
  let m ← get
  if m.fileSize ≤ m.lineLength then
    modify fun m => { m with fileSize := sizeMul m.lineLength 100 }
    tryCatch (ftruncateTo os (sizeMul m.lineLength 100)) fun e => do close; throw e
  tryCatch (do mmapBytes os (← get).fileSize) fun e => do close; throw e

/-- The address of a line; past the end of the file it is null. -/
def findLine (m : MemoryMapLinux) (lineNumber : Nat) : Option Nat :=
  if m.mappedData = 0 then none
  else
    let current := sizeAdd m.mappedData (sizeMul lineNumber m.lineLength)
    if current < sizeAdd m.mappedData m.fileSize then some current else none

/-- `findLine(lineNumber) + offset`. An offset from the null pointer points at nothing. -/
def lineStart (m : MemoryMapLinux) (lineNumber offset : Nat) : Option Nat :=
  (m.findLine lineNumber).map (sizeAdd · offset)

/-- `n` bytes at this address may be touched. -/
def Accessible (m : MemoryMapLinux) (addr n : Nat) : Prop :=
  m.mappedData ≤ addr ∧ addr + n ≤ m.mappedData + m.mapped ∧ addr - m.mappedData + n ≤ m.file.size

instance (m : MemoryMapLinux) (addr n : Nat) : Decidable (m.Accessible addr n) :=
  inferInstanceAs (Decidable (_ ∧ _ ∧ _))

def load (m : MemoryMapLinux) (addr n : Nat) : Except Fault Text :=
  if m.Accessible addr n then .ok (Bytes.slice m.file.byte (addr - m.mappedData) n)
  else .error .undefined

/-- Copying nothing touches nothing. -/
def store (dst : Option Nat) (bs : Text) : EStateM Fault MemoryMapLinux Unit := do
  let m ← get
  match dst with
  | none => if bs = [] then pure () else throw .undefined
  | some addr =>
      if bs = [] then pure ()
      else if m.Accessible addr bs.length then
        set { m with file := { m.file with byte := Bytes.blit m.file.byte (addr - m.mappedData) bs } }
      else throw .undefined

/-- The bytes up to the first NUL, at most `size` of them. -/
def loadText (m : MemoryMapLinux) : Nat → Nat → Except Fault Text
  | _, 0 => .ok []
  | addr, size+1 => do
      match ← m.load addr 1 with
      | [] | 0 :: _ => .ok []
      | b :: _ => return b :: (← m.loadText (addr + 1) size)

/-- The two writers differ in the message only; a number comes as its object
representation. -/
def writeBytes (tooLong : Text) (lineNumber offset : Nat) (value : Text) :
    EStateM Fault MemoryMapLinux Unit := do
  let m ← get
  if sizeSub m.lineLength offset < value.length then throw (.runtimeError tooLong)
  store (m.lineStart lineNumber offset) value

def writeText : Nat → Nat → Text → EStateM Fault MemoryMapLinux Unit :=
  writeBytes (str "Text is too long for the field")

def writeNumber : Nat → Nat → Text → EStateM Fault MemoryMapLinux Unit :=
  writeBytes (str "Number is too long for the field")

def readText (m : MemoryMapLinux) (lineNumber offset size : Nat) : Except Fault Text :=
  match m.lineStart lineNumber offset with
  | none => if offset = 0 ∨ size = 0 then .ok [] else .error .undefined
  | some lineStart => if lineStart = 0 then .ok [] else m.loadText lineStart size

def readNumber (m : MemoryMapLinux) (lineNumber offset size : Nat) : Except Fault Text :=
  match m.lineStart lineNumber offset with
  | none => .error .undefined
  | some lineStart => m.load lineStart size

end MemoryMapLinux
end SQLid
