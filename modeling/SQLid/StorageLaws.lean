import SQLid.MemoryMap
import Mathlib.Tactic.Ring

/-!
# What the storage does on the lines of the file

`Live` is the state of a mapping no growth of which has failed. On it every
access to a line below `getMaxLine` is an access to the bytes of that line.
-/
namespace SQLid
open Bytes (Text)
open CppText (str)

namespace MemoryMapLinux

structure Live (m : MemoryMapLinux) : Prop where
  lineLength_pos : 0 < m.lineLength
  address_pos : 0 < m.mappedData
  address_top : m.mappedData + m.fileSize ≤ 2 ^ 56
  offT : m.fileSize < 2 ^ 63
  mapped_eq : m.mapped = m.fileSize
  size_eq : m.file.size = m.fileSize
  lines : m.lineLength ∣ m.fileSize
  hundred : 100 * m.lineLength ≤ m.fileSize

/-- A mapping of all of the file, which is some number of lines. -/
structure Mapping (m : MemoryMapLinux) : Prop where
  lineLength_pos : 0 < m.lineLength
  lineLength_lt : m.lineLength < 2 ^ 64
  address_pos : 0 < m.mappedData
  address_top : m.mappedData + m.fileSize ≤ 2 ^ 56
  mapped_eq : m.mapped = m.fileSize
  size_eq : m.file.size = m.fileSize
  lines : m.lineLength ∣ m.fileSize

theorem Live.mapping {m : MemoryMapLinux} (h : m.Live) : m.Mapping where
  lineLength_pos := h.lineLength_pos
  lineLength_lt := by
    have hhundred := h.hundred
    have hoff := h.offT
    omega
  address_pos := h.address_pos
  address_top := h.address_top
  mapped_eq := h.mapped_eq
  size_eq := h.size_eq
  lines := h.lines

/-- The active flag of a line, its first byte. -/
def flag (m : MemoryMapLinux) (i : Nat) : Bool := m.file.byte (i * m.lineLength) != 0

def setBytes (m : MemoryMapLinux) (a : Nat) (bs : Text) : MemoryMapLinux :=
  { m with file := { m.file with byte := Bytes.blit m.file.byte a bs } }

section setBytes
variable (m : MemoryMapLinux) (a : Nat) (bs : Text)

@[simp] theorem setBytes_lineLength : (m.setBytes a bs).lineLength = m.lineLength := rfl
@[simp] theorem setBytes_fileSize : (m.setBytes a bs).fileSize = m.fileSize := rfl
@[simp] theorem setBytes_calls : (m.setBytes a bs).calls = m.calls := rfl
@[simp] theorem setBytes_mappedData : (m.setBytes a bs).mappedData = m.mappedData := rfl
@[simp] theorem setBytes_size : (m.setBytes a bs).file.size = m.file.size := rfl
@[simp] theorem setBytes_byte :
    (m.setBytes a bs).file.byte = Bytes.blit m.file.byte a bs := rfl
@[simp] theorem setBytes_getMaxLine : (m.setBytes a bs).getMaxLine = m.getMaxLine := rfl

theorem setBytes_nil : m.setBytes a [] = m := by
  simp [setBytes]

theorem Live.setBytes {m : MemoryMapLinux} (h : m.Live) : (m.setBytes a bs).Live :=
  ⟨h.lineLength_pos, h.address_pos, h.address_top, h.offT, h.mapped_eq, h.size_eq, h.lines,
    h.hundred⟩

end setBytes

section Inside
variable {m : MemoryMapLinux} {i : Nat}

theorem line_end_le (hi : i < m.getMaxLine) : i * m.lineLength + m.lineLength ≤ m.fileSize := by
  have h := Nat.mul_le_mul_right m.lineLength (Nat.succ_le_of_lt hi)
  rw [Nat.succ_mul] at h
  exact h.trans (Nat.div_mul_le_self _ _)

theorem Mapping.findLine (h : m.Mapping) (hi : i < m.getMaxLine) :
    m.findLine i = some (m.mappedData + i * m.lineLength) := by
  have hend := line_end_le hi
  have hpos := h.lineLength_pos
  have htop := h.address_top
  have hmul : sizeMul i m.lineLength = i * m.lineLength := sizeMul_eq (by omega)
  have hcur : sizeAdd m.mappedData (i * m.lineLength) = m.mappedData + i * m.lineLength :=
    sizeAdd_eq (by omega)
  have hlim : sizeAdd m.mappedData m.fileSize = m.mappedData + m.fileSize := sizeAdd_eq (by omega)
  have hdata := h.address_pos
  unfold MemoryMapLinux.findLine
  rw [if_neg (by omega), hmul, hcur, hlim, if_pos (by omega)]

/-- Where the bytes of a column start in the address space. -/
theorem Mapping.lineStart (h : m.Mapping) (hi : i < m.getMaxLine) {off : Nat} (ho : off ≤ m.lineLength) :
    m.lineStart i off = some (m.mappedData + (i * m.lineLength + off)) := by
  have hend := line_end_le hi
  have htop := h.address_top
  unfold MemoryMapLinux.lineStart
  rw [h.findLine hi, Option.map_some, sizeAdd_eq (by omega), Nat.add_assoc]

/-- Past the end of the file there is no line, as long as its address does not wrap. -/
theorem Mapping.findLine_past (h : m.Mapping) (hi : m.getMaxLine ≤ i)
    (hwrap : m.mappedData + i * m.lineLength < 2 ^ 64) : m.findLine i = none := by
  have hpos := h.lineLength_pos
  have htop := h.address_top
  have hge : m.fileSize ≤ i * m.lineLength := by
    rw [← Nat.div_mul_cancel h.lines]
    exact Nat.mul_le_mul_right m.lineLength hi
  unfold MemoryMapLinux.findLine
  rw [if_neg (by have := h.address_pos; omega), sizeMul_eq (by omega), sizeAdd_eq hwrap,
    sizeAdd_eq (by omega)]
  exact if_neg (by omega)

theorem Mapping.accessible (h : m.Mapping) {k n : Nat} (hk : k + n ≤ m.fileSize) :
    m.Accessible (m.mappedData + k) n := by
  have hm := h.mapped_eq
  have hs := h.size_eq
  refine ⟨by omega, by omega, ?_⟩
  rw [Nat.add_sub_cancel_left]
  omega

theorem Mapping.load (h : m.Mapping) {k n : Nat} (hk : k + n ≤ m.fileSize) :
    m.load (m.mappedData + k) n = .ok (Bytes.slice m.file.byte k n) := by
  unfold MemoryMapLinux.load
  rw [if_pos (h.accessible hk), Nat.add_sub_cancel_left]

theorem Mapping.loadText (h : m.Mapping) {k n : Nat} (hk : k + n ≤ m.fileSize) :
    m.loadText (m.mappedData + k) n = .ok (Bytes.cutNul (Bytes.slice m.file.byte k n)) := by
  induction n generalizing k with
  | zero => rfl
  | succ n ih =>
    have hload : m.load (m.mappedData + k) 1 = .ok [m.file.byte k] := h.load (by omega)
    have hrest := ih (k := k + 1) (by omega)
    rw [MemoryMapLinux.loadText, hload]
    by_cases hb : m.file.byte k = 0
    · simp [bind, Except.bind, hb, Bytes.slice, Bytes.cutNul]
    · rw [← Nat.add_assoc] at hrest
      simp only [bind, Except.bind, pure, Except.pure, hrest]
      simp [Bytes.slice, Bytes.cutNul, hb]

theorem Mapping.readNumber (h : m.Mapping) (hi : i < m.getMaxLine) {off n : Nat}
    (ho : off + n ≤ m.lineLength) :
    m.readNumber i off n = .ok (Bytes.slice m.file.byte (i * m.lineLength + off) n) := by
  have hend := line_end_le hi
  unfold MemoryMapLinux.readNumber
  rw [h.lineStart hi (by omega)]
  exact h.load (by omega)

theorem Mapping.readText (h : m.Mapping) (hi : i < m.getMaxLine) {off n : Nat}
    (ho : off + n ≤ m.lineLength) :
    m.readText i off n =
      .ok (Bytes.cutNul (Bytes.slice m.file.byte (i * m.lineLength + off) n)) := by
  have hend := line_end_le hi
  have hdata := h.address_pos
  unfold MemoryMapLinux.readText
  rw [h.lineStart hi (by omega)]
  simp only
  rw [if_neg (by omega), h.loadText (by omega)]

/-- No byte of a line past the end of the file can be touched, as long as its
addresses do not wrap. -/
theorem Mapping.lineStart_past (h : m.Mapping) (hi : m.getMaxLine ≤ i)
    (hwrap : i * m.lineLength + m.lineLength ≤ 2 ^ 64) {off n : Nat} (hn : 0 < n)
    (ho : off + n ≤ m.lineLength) {a : Nat} (ha : m.lineStart i off = some a) :
    ¬ m.Accessible a n := by
  have hpos := h.lineLength_pos
  have hdata := h.address_pos
  have htop := h.address_top
  have hfile := Nat.mul_le_mul_right m.lineLength hi
  rw [show m.getMaxLine * m.lineLength = m.fileSize from Nat.div_mul_cancel h.lines] at hfile
  have hmul : sizeMul i m.lineLength = i * m.lineLength := sizeMul_eq (by omega)
  have hlim : sizeAdd m.mappedData m.fileSize = m.mappedData + m.fileSize := sizeAdd_eq (by omega)
  unfold MemoryMapLinux.lineStart MemoryMapLinux.findLine at ha
  rw [if_neg (by omega), hmul, hlim] at ha
  dsimp only at ha
  split at ha
  · rename_i hlt
    rw [Option.map_some, Option.some.injEq] at ha
    -- the address has wrapped, and ends up below the mapping
    have hcur : sizeAdd m.mappedData (i * m.lineLength) =
        m.mappedData + i * m.lineLength - 2 ^ 64 := by
      unfold sizeAdd at hlt ⊢
      omega
    have haddr : a = m.mappedData + i * m.lineLength - 2 ^ 64 + off := by
      rw [← ha, hcur]
      exact sizeAdd_eq (by omega)
    rintro ⟨hle, -, -⟩
    unfold sizeAdd at hlt
    omega
  · cases ha

/-- Writing to a line past the end of the file does nothing that could be observed. -/
theorem Mapping.writeBytes_past (h : m.Mapping) (hi : m.getMaxLine ≤ i)
    (hwrap : i * m.lineLength + m.lineLength ≤ 2 ^ 64) {off : Nat} {bs : Text} (msg : Text)
    (ho : off + bs.length ≤ m.lineLength) :
    (MemoryMapLinux.writeBytes msg i off bs).run m = .ok () m ∨
      (MemoryMapLinux.writeBytes msg i off bs).run m = .error .undefined m := by
  have hsub : sizeSub m.lineLength off = m.lineLength - off :=
    sizeSub_eq (by omega) h.lineLength_lt
  unfold MemoryMapLinux.writeBytes MemoryMapLinux.store
  rw [Programs.run_bind_ok (EStateM.run_get m), hsub, if_neg (by omega)]
  dsimp only
  rw [Programs.run_bind_ok (EStateM.run_get m)]
  by_cases hbs : bs = []
  · refine .inl ?_
    cases m.lineStart i off <;> simp [hbs]
  · refine .inr ?_
    cases ha : m.lineStart i off with
    | none => simp [hbs]
    | some a =>
        have hlen := List.length_pos_iff.mpr hbs
        simp [hbs, h.lineStart_past hi hwrap hlen ho ha]

theorem Mapping.store (h : m.Mapping) {k : Nat} {bs : Text} (hk : k + bs.length ≤ m.fileSize) :
    (MemoryMapLinux.store (some (m.mappedData + k)) bs).run m = .ok () (m.setBytes k bs) := by
  unfold MemoryMapLinux.store
  rw [Programs.run_bind_ok (EStateM.run_get m)]
  by_cases hbs : bs = []
  · rw [if_pos hbs, hbs, setBytes_nil]
    rfl
  · dsimp only
    rw [if_neg hbs, if_pos (h.accessible hk), Nat.add_sub_cancel_left]
    rfl

theorem Mapping.sub_offset (h : m.Mapping) {off : Nat} (ho : off ≤ m.lineLength) :
    sizeSub m.lineLength off = m.lineLength - off := sizeSub_eq ho h.lineLength_lt

theorem Mapping.writeBytes (h : m.Mapping) (hi : i < m.getMaxLine) {off : Nat} {bs msg : Text}
    (ho : off + bs.length ≤ m.lineLength) :
    (MemoryMapLinux.writeBytes msg i off bs).run m =
      .ok () (m.setBytes (i * m.lineLength + off) bs) := by
  have hend := line_end_le hi
  unfold MemoryMapLinux.writeBytes
  rw [Programs.run_bind_ok (EStateM.run_get m), h.sub_offset (by omega), if_neg (by omega),
    h.lineStart hi (by omega)]
  exact h.store (by omega)

/-- A value longer than the rest of its line is refused before any byte changes. -/
theorem Mapping.writeBytes_long (h : m.Mapping) {off : Nat} {bs msg : Text} (ho : off ≤ m.lineLength)
    (hlong : m.lineLength < off + bs.length) :
    (MemoryMapLinux.writeBytes msg i off bs).run m = .error (.runtimeError msg) m := by
  unfold MemoryMapLinux.writeBytes
  rw [Programs.run_bind_ok (EStateM.run_get m), h.sub_offset ho, if_pos (by omega)]
  rfl

end Inside

/-! Growth: both system calls answer for the requested size, or nothing is mapped. -/

end MemoryMapLinux

def Os.grows (os : Os) (n size : Nat) : Bool := os.ftruncate n size && (os.mmap n size).isSome

theorem Os.grows_iff {os : Os} {n size : Nat} :
    os.grows n size = true ↔ os.ftruncate n size = true ∧ ∃ addr, os.mmap n size = some addr := by
  simp [Os.grows, Option.isSome_iff_exists]

/-- The two ways a growth fails. -/
def Fault.IsGrowth (e : Fault) : Prop :=
  e = .runtimeError (str "ftruncate failed") ∨ e = .runtimeError (str "mmap failed")

namespace MemoryMapLinux

/-- The file sized and mapped anew. -/
def resized (m : MemoryMapLinux) (size addr : Nat) : MemoryMapLinux :=
  { m with file := m.file.truncate size, mappedData := addr, mapped := size, fileSize := size,
           calls := m.calls + 1 }

@[simp] theorem resized_lineLength (m : MemoryMapLinux) (size addr : Nat) :
    (m.resized size addr).lineLength = m.lineLength := rfl
@[simp] theorem resized_fileSize (m : MemoryMapLinux) (size addr : Nat) :
    (m.resized size addr).fileSize = size := rfl
@[simp] theorem resized_calls (m : MemoryMapLinux) (size addr : Nat) :
    (m.resized size addr).calls = m.calls + 1 := rfl

theorem resized_live {os : Os} {m : MemoryMapLinux} {size addr : Nat}
    (hL : 0 < m.lineLength) (hdvd : m.lineLength ∣ size) (hh : 100 * m.lineLength ≤ size)
    (ht : os.ftruncate m.calls size = true) (hm : os.mmap m.calls size = some addr) :
    (m.resized size addr).Live :=
  ⟨hL, (os.mmap_address _ _ _ hm).1, (os.mmap_address _ _ _ hm).2, os.ftruncate_offT _ _ ht,
    rfl, rfl, hdvd, hh⟩

theorem Live.double {m : MemoryMapLinux} (h : m.Live) : sizeMul m.fileSize 2 = 2 * m.fileSize := by
  have := h.offT
  rw [sizeMul_eq (by omega), Nat.mul_comm]

theorem Live.expandFile_ok {os : Os} {m : MemoryMapLinux} (h : m.Live)
    (hg : os.grows m.calls (2 * m.fileSize) = true) :
    ∃ addr, (expandFile os).run m = .ok () (m.resized (2 * m.fileSize) addr) ∧
      (m.resized (2 * m.fileSize) addr).Live := by
  obtain ⟨ht, addr, hm⟩ := Os.grows_iff.mp hg
  refine ⟨addr, ?_, resized_live h.lineLength_pos (h.lines.mul_left 2)
    (by have := h.hundred; omega) ht hm⟩
  have hdata : m.mappedData ≠ 0 := by have := h.address_pos; omega
  simp [expandFile, ftruncateTo, mmapBytes, hdata, h.double, ht, hm, resized]

/-- What a file must hold for the lines in it to be addressable when it is opened. -/
structure Lines (file : ByteFile) (lineLength : Nat) : Prop where
  dvd : lineLength ∣ file.size
  hundred : 100 * lineLength ≤ file.size
  offT : file.size < 2 ^ 63

theorem Live.fileLines {m : MemoryMapLinux} (h : m.Live) : Lines m.file m.lineLength := by
  refine ⟨?_, ?_, ?_⟩ <;> rw [h.size_eq]
  · exact h.lines
  · exact h.hundred
  · exact h.offT

/-- A failed growth keeps every byte, but the pages are unmapped. -/
structure Broken (m m' : MemoryMapLinux) : Prop where
  lineLength : m'.lineLength = m.lineLength
  fileSize : m'.fileSize = m.fileSize
  lines : Lines m'.file m.lineLength
  size : m.fileSize ≤ m'.file.size
  byte_old : ∀ k < m.fileSize, m'.file.byte k = m.file.byte k
  byte_new : ∀ k, m.fileSize ≤ k → k < m'.file.size → m'.file.byte k = 0

theorem Live.expandFile_error {os : Os} {m : MemoryMapLinux} (h : m.Live)
    (hg : os.grows m.calls (2 * m.fileSize) = false) :
    ∃ e m', (expandFile os).run m = .error e m' ∧ e.IsGrowth ∧ Broken m m' := by
  have hdata : m.mappedData ≠ 0 := by have := h.address_pos; omega
  have hsize := h.size_eq
  cases ht : os.ftruncate m.calls (2 * m.fileSize) with
  | false =>
      refine ⟨.runtimeError (str "ftruncate failed"), { m with mapped := 0 }, ?_, .inl rfl,
        ⟨rfl, rfl, h.fileLines, hsize.ge, fun _ _ => rfl, fun k hk hk' => ?_⟩⟩
      · simp [expandFile, ftruncateTo, hdata, h.double, ht]
      · simp only [hsize] at hk'
        omega
  | true =>
      have hm : os.mmap m.calls (2 * m.fileSize) = none := by
        simpa [Os.grows, ht] using hg
      have hhundred := h.hundred
      refine ⟨.runtimeError (str "mmap failed"),
        { m with file := m.file.truncate (2 * m.fileSize), mappedData := mapFailed, mapped := 0,
                 calls := m.calls + 1 }, ?_, .inr rfl,
        ⟨rfl, rfl, ⟨h.lines.mul_left 2, ?_, os.ftruncate_offT _ _ ht⟩, ?_, ?_, ?_⟩⟩
      · simp [expandFile, ftruncateTo, mmapBytes, hdata, h.double, ht, hm]
      · simp only [ByteFile.truncate]
        omega
      · simp only [ByteFile.truncate]
        omega
      · intro k hk
        simp only [ByteFile.truncate]
        rw [if_pos ⟨by omega, by omega⟩]
      · intro k hk _
        simp only [ByteFile.truncate]
        rw [if_neg (by omega)]

/-! Opening a file that is new or holds whole lines. -/

/-- The storage as a successful `openFile` leaves it. -/
def opened (file : ByteFile) (lineLength calls addr : Nat) : MemoryMapLinux :=
  ⟨file, addr, file.size, file.size, lineLength, calls + 1⟩

/-- The content `openFile` maps. -/
def initialFile (file : ByteFile) (lineLength : Nat) : ByteFile :=
  if file.size ≤ lineLength then file.truncate (100 * lineLength) else file

theorem openFile_outcome (os : Os) (file : ByteFile) {L : Nat} (c : Nat) (hfit : L * 100 < 2 ^ 64) :
    (∃ addr, (openFile os).run (closed file L c) = .ok () (opened (initialFile file L) L c addr) ∧
        (file.size ≤ L → os.ftruncate c (100 * L) = true) ∧
        os.mmap c (initialFile file L).size = some addr) ∨
      ∃ e m', (openFile os).run (closed file L c) = .error e m' ∧ e.IsGrowth := by
  have hmul : sizeMul L 100 = 100 * L := by rw [sizeMul_eq hfit, Nat.mul_comm]
  have hne : (0 : Nat) ≠ mapFailed := by decide
  by_cases hs : file.size ≤ L
  · cases ht : os.ftruncate c (100 * L) with
    | false =>
        refine .inr ⟨.runtimeError (str "ftruncate failed"), closed file L c, ?_, .inl rfl⟩
        simp [openFile, close, closed, hne, hs, hmul, ftruncateTo, ht]
    | true =>
        cases hm : os.mmap c (100 * L) with
        | none =>
            refine .inr ⟨.runtimeError (str "mmap failed"), ?_⟩
            simp [openFile, close, closed, hne, hs, hmul, ftruncateTo, mmapBytes, ht, hm,
              Fault.IsGrowth]
        | some addr =>
            refine .inl ⟨addr, ?_, fun _ => rfl, by simp [initialFile, hs, ByteFile.truncate, hm]⟩
            simp [openFile, close, closed, hne, hs, hmul, ftruncateTo, mmapBytes, ht, hm, opened,
              initialFile, ByteFile.truncate]
  · cases hm : os.mmap c file.size with
    | none =>
        refine .inr ⟨.runtimeError (str "mmap failed"), ?_⟩
        simp [openFile, close, closed, hne, hs, mmapBytes, hm, Fault.IsGrowth]
    | some addr =>
        refine .inl ⟨addr, ?_, fun h => absurd h hs, by simp [initialFile, hs, hm]⟩
        simp [openFile, close, closed, hne, hs, mmapBytes, hm, opened, initialFile]

theorem opened_live {os : Os} {file : ByteFile} {L c addr : Nat} (hL : 0 < L)
    (hfile : file.size = 0 ∨ Lines file L) (ht : file.size ≤ L → os.ftruncate c (100 * L) = true)
    (hm : os.mmap c (initialFile file L).size = some addr) :
    (opened (initialFile file L) L c addr).Live := by
  have hlines : Lines (initialFile file L) L := by
    unfold initialFile
    split_ifs with hs
    · exact ⟨Dvd.intro_left 100 rfl, le_rfl, os.ftruncate_offT _ _ (ht hs)⟩
    · exact hfile.resolve_left (by omega)
  exact ⟨hL, (os.mmap_address _ _ _ hm).1, (os.mmap_address _ _ _ hm).2, hlines.offT, rfl, rfl,
    hlines.dvd, hlines.hundred⟩

theorem initialFile_lines {file : ByteFile} {L : Nat} (hL : 0 < L) (h : Lines file L) :
    initialFile file L = file := by
  have := h.hundred
  unfold initialFile
  rw [if_neg (by omega)]

/-! The active flags. -/

section flags
variable {m : MemoryMapLinux} {i j off : Nat} {bs : Text}

/-- Bytes behind the first one of a line are no flag of any line. -/
theorem line_data_ne_flag {L k : Nat} (h1 : i * L < k) (h2 : k < i * L + L) : k ≠ j * L := by
  rintro rfl
  have hij : i < j := Nat.lt_of_mul_lt_mul_right h1
  have := Nat.mul_le_mul_right L (Nat.succ_le_of_lt hij)
  rw [Nat.succ_mul] at this
  omega

theorem flag_setBytes_flag (hL : 0 < m.lineLength) (b : UInt8) :
    (m.setBytes (i * m.lineLength) [b]).flag = Function.update m.flag i (b != 0) := by
  funext j
  simp only [flag, setBytes_byte, setBytes_lineLength]
  by_cases hji : j = i
  · subst hji
    rw [Function.update_self, Bytes.blit_of_mem le_rfl (by simp)]
    simp
  · have hne : j * m.lineLength ≠ i * m.lineLength := fun h => hji (Nat.eq_of_mul_eq_mul_right hL h)
    rw [Function.update_of_ne hji, Bytes.blit_of_not_mem (by simp; omega)]
    rfl

theorem Live.getMaxLine_mul (h : m.Live) : m.getMaxLine * m.lineLength = m.fileSize :=
  Nat.div_mul_cancel h.lines

theorem Live.getMaxLine_resized (h : m.Live) (addr : Nat) :
    (m.resized (2 * m.fileSize) addr).getMaxLine = 2 * m.getMaxLine :=
  Nat.mul_div_assoc 2 h.lines

theorem Live.getMaxLine_pos (h : m.Live) : 0 < m.getMaxLine := by
  have h1 := h.hundred
  have h2 := h.lineLength_pos
  exact Nat.div_pos (by omega) h2

theorem Live.byte_resized (h : m.Live) {k addr : Nat} (hk : k < m.fileSize) :
    (m.resized (2 * m.fileSize) addr).file.byte k = m.file.byte k := by
  have hs := h.size_eq
  simp only [resized, ByteFile.truncate]
  rw [if_pos ⟨by omega, by omega⟩]

theorem Live.flag_resized (h : m.Live) {addr : Nat} (hi : i < m.getMaxLine) :
    (m.resized (2 * m.fileSize) addr).flag i = m.flag i := by
  have hend := line_end_le hi
  have hpos := h.lineLength_pos
  simp only [flag, resized_lineLength]
  rw [h.byte_resized (by omega)]

theorem Live.flag_resized_new (h : m.Live) {addr : Nat} (hi : m.getMaxLine ≤ i) :
    (m.resized (2 * m.fileSize) addr).flag i = false := by
  have hs := h.size_eq
  have hge := Nat.mul_le_mul_right m.lineLength hi
  rw [h.getMaxLine_mul] at hge
  simp only [flag, resized, ByteFile.truncate]
  rw [if_neg (by omega)]
  rfl

theorem Live.isActive (h : m.Live) (hi : i < m.getMaxLine) :
    m.readNumber i 0 1 = .ok [m.file.byte (i * m.lineLength)] := by
  have hpos := h.lineLength_pos
  exact h.mapping.readNumber hi (by omega)

end flags
end MemoryMapLinux

/-! The locked accessors, as calls on the file they find. -/

namespace MemoryMap

def logged (m : MemoryMap) (c : Call) : MemoryMap := { m with log := (c, m.core) :: m.log }

def withCore (m : MemoryMap) (core : MemoryMapLinux) : MemoryMap := { m with core := core }

variable {os : Os} {m : MemoryMap} {c : Call} {i : Nat} {put : EStateM Fault MemoryMapLinux Unit}
  {core : MemoryMapLinux} {e : Fault}

theorem run_record (c : Call) (m : MemoryMap) : (record c).run m = .ok () (m.logged c) := rfl

theorem run_onCore_ok {α : Type} {x : EStateM Fault MemoryMapLinux α} {a : α}
    (hx : x.run m.core = .ok a core) : (onCore x).run m = .ok a (m.withCore core) := by
  simp only [onCore, Programs.run_zoom, hx, withCore]

theorem run_onCore_error {α : Type} {x : EStateM Fault MemoryMapLinux α}
    (hx : x.run m.core = .error e core) : (onCore x).run m = .error e (m.withCore core) := by
  simp only [onCore, Programs.run_zoom, hx, withCore]

/-- Below the end of the file a write does not grow it. -/
theorem run_write_inside (hi : i < m.core.getMaxLine) :
    (write os c i put).run m = (onCore put).run (m.logged c) := by
  have hlt : ¬ (m.logged c).core.getMaxLine ≤ i := by simp only [logged]; omega
  unfold write
  rw [Programs.run_bind_ok (run_record c m), Programs.run_bind_ok (EStateM.run_get _), if_neg hlt]

theorem run_readNumber {off n : Nat} {bs : Text} (h : m.core.readNumber i off n = .ok bs) :
    (readNumber i off n).run m = .ok bs (m.logged (.readNumber i)) := by
  have h' : (m.logged (.readNumber i)).core.readNumber i off n = .ok bs := h
  unfold readNumber
  rw [Programs.run_bind_ok (run_record _ m), Programs.run_bind_ok (EStateM.run_get _), h']
  rfl

theorem run_readText {off n : Nat} {bs : Text} (h : m.core.readText i off n = .ok bs) :
    (readText i off n).run m = .ok bs (m.logged (.readText i)) := by
  have h' : (m.logged (.readText i)).core.readText i off n = .ok bs := h
  unfold readText
  rw [Programs.run_bind_ok (run_record _ m), Programs.run_bind_ok (EStateM.run_get _), h']
  rfl

theorem run_isActive {bs : Text} (h : m.core.readNumber i 0 1 = .ok bs) :
    (isActive i).run m = .ok (boolOfBytes bs) (m.logged (.isActive i)) := by
  have h' : (m.logged (.isActive i)).core.readNumber i 0 1 = .ok bs := h
  unfold isActive
  rw [Programs.run_bind_ok (run_record _ m), Programs.run_bind_ok (EStateM.run_get _), h']
  rfl

/-- Growth of an idle storage: the flag is set while the file grows, and stays set
when it does not. -/
theorem run_expand (os : Os) (w : Option Nat) (hidle : m.expanding = false) :
    (expand os w).run m = match (MemoryMapLinux.expandFile os).run m.core with
      | .ok _ core => .ok () ((m.logged (.expand w)).withCore core)
      | .error e core => .error e { (m.logged (.expand w)).withCore core with expanding := true } := by
  unfold expand
  have hflag : (m.logged (.expand w)).expanding = false := hidle
  rw [Programs.run_bind_ok (run_record _ m), Programs.run_bind_ok (EStateM.run_get _), hflag,
    if_neg Bool.false_ne_true]
  dsimp only
  rw [Programs.run_bind_ok (EStateM.run_modify _ _)]
  cases hx : (MemoryMapLinux.expandFile os).run m.core with
  | ok a core =>
      rw [Programs.run_bind_ok (run_onCore_ok (m := { m.logged (.expand w) with expanding := true }) hx)]
      simp only [EStateM.run_modify, withCore, logged, hidle]
  | error e core =>
      rw [Programs.run_bind_error
        (run_onCore_error (m := { m.logged (.expand w) with expanding := true }) hx)]
      rfl

end MemoryMap
end SQLid
