import SQLid.StorageLaws

/-!
# The guards of the storage

What the four accessors of `MemoryMapLinux.h` do for any line, offset and length, in the
arithmetic of `size_t`. The writers compare a length with `lineLength - offset`, which
wraps; `readText` tests a pointer that an offset has been added to; `readNumber` tests nothing.
-/
namespace SQLid
open Bytes (Text)
open CppText (str)
open Programs

namespace MemoryMapLinux

/-- So many bytes at this offset are part of a line of the file. -/
def Field (m : MemoryMapLinux) (lineNumber offset length : Nat) : Prop :=
  lineNumber < m.getMaxLine ∧ offset + length ≤ m.lineLength

/-- The bytes of a line. -/
def lineBytes (m : MemoryMapLinux) (lineNumber : Nat) : Set Nat :=
  {k | lineNumber * m.lineLength ≤ k ∧ k < lineNumber * m.lineLength + m.lineLength}

def withBytes (m : MemoryMapLinux) (byte : Nat → UInt8) : MemoryMapLinux :=
  { m with file := { m.file with byte := byte } }

/-- A write that returns was to a field of the line and has changed bytes of that line only.
One that does not return reports an error and has changed nothing. -/
structure WriteExact (m : MemoryMapLinux) (lineNumber offset length : Nat)
    (write : EStateM Fault MemoryMapLinux Unit) : Prop where
  returned : ∀ m', write.run m = .ok () m' → m.Field lineNumber offset length ∧
    ∃ byte, (∀ k ∉ m.lineBytes lineNumber, byte k = m.file.byte k) ∧ m' = m.withBytes byte
  failed : ∀ e m', write.run m = .error e m' → e.isException = true ∧ m' = m

/-- A read either is of a field of the line and depends on no other bytes than those of that
line, or it reports an error and depends on no byte at all. -/
def ReadExact (m : MemoryMapLinux) (lineNumber offset size : Nat) (reports : Except Fault Text → Prop)
    (read : MemoryMapLinux → Nat → Nat → Nat → Except Fault Text) : Prop :=
  (m.Field lineNumber offset size ∧ (∃ text, read m lineNumber offset size = .ok text) ∧
    ∀ byte, (∀ k ∈ m.lineBytes lineNumber, byte k = m.file.byte k) →
      read (m.withBytes byte) lineNumber offset size = read m lineNumber offset size) ∨
  (reports (read m lineNumber offset size) ∧
    ∀ byte, read (m.withBytes byte) lineNumber offset size = read m lineNumber offset size)

def Throws (answer : Except Fault Text) : Prop := ∃ e, answer = .error e ∧ e.isException = true

/-- An exception or an empty view. -/
def EmptyOrThrows (answer : Except Fault Text) : Prop := answer = .ok [] ∨ Throws answer

/-- The length is more than `lineLength - offset`, which wraps below zero. -/
def TooLong (m : MemoryMapLinux) (offset length : Nat) : Prop :=
  if offset ≤ m.lineLength then m.lineLength - offset < length
  else 2 ^ 64 - (offset - m.lineLength) < length

/-- The pointer `readText` tests is null, before an offset or with it. -/
def NullStart (m : MemoryMapLinux) (lineNumber offset : Nat) : Prop :=
  if (m.mappedData + lineNumber * m.lineLength) % 2 ^ 64 < m.mappedData + m.fileSize then
    (m.mappedData + lineNumber * m.lineLength + offset) % 2 ^ 64 = 0
  else offset = 0

section
variable {m : MemoryMapLinux} {lineNumber offset : Nat} {value : Text}

/-- Where a line is looked for. -/
theorem Mapping.lineStart_eq (h : m.Mapping) : m.lineStart lineNumber offset =
    if (m.mappedData + lineNumber * m.lineLength) % 2 ^ 64 < m.mappedData + m.fileSize then
      some ((m.mappedData + lineNumber * m.lineLength + offset) % 2 ^ 64)
    else none := by
  have hdata := h.address_pos
  have htop := h.address_top
  have hlim : sizeAdd m.mappedData m.fileSize = m.mappedData + m.fileSize := sizeAdd_eq (by omega)
  have hcur : sizeAdd m.mappedData (sizeMul lineNumber m.lineLength) =
      (m.mappedData + lineNumber * m.lineLength) % 2 ^ 64 := by
    unfold sizeAdd sizeMul
    rw [Nat.add_mod_mod]
  unfold MemoryMapLinux.lineStart MemoryMapLinux.findLine
  rw [if_neg (by omega), hcur, hlim]
  dsimp only
  split
  · rw [Option.map_some, Option.some.injEq]
    unfold sizeAdd
    rw [Nat.mod_add_mod]
  · rfl

/-- Past the end of the line the difference wraps. -/
theorem Mapping.sub_past (h : m.Mapping) (hoffset : offset < 2 ^ 64) (hpast : ¬ offset ≤ m.lineLength) :
    sizeSub m.lineLength offset = 2 ^ 64 - (offset - m.lineLength) := by
  have hline := h.lineLength_lt
  have hlt : m.lineLength + 2 ^ 64 - offset < 2 ^ 64 := by omega
  have hsub : m.lineLength + 2 ^ 64 - offset = 2 ^ 64 - (offset - m.lineLength) := by omega
  unfold sizeSub
  rw [Nat.mod_eq_of_lt hlt, hsub]

theorem Mapping.sub_lt_iff (h : m.Mapping) (hoffset : offset < 2 ^ 64) {length : Nat} :
    sizeSub m.lineLength offset < length ↔ m.TooLong offset length := by
  unfold TooLong
  by_cases hle : offset ≤ m.lineLength
  · have hsub := h.sub_offset hle
    rw [if_pos hle, hsub]
  · have hsub := h.sub_past hoffset hle
    rw [if_neg hle, hsub]

/-- What cannot be stored is no exception. -/
theorem store_outcome (dst : Option Nat) (bs : Text) :
    (∃ m', (store dst bs).run m = .ok () m') ∨ (store dst bs).run m = .error .undefined m := by
  unfold store
  rw [run_bind_ok (EStateM.run_get m)]
  cases dst with
  | none =>
      by_cases hbs : bs = []
      · exact .inl ⟨m, by simp [hbs]⟩
      · exact .inr (by simp [hbs])
  | some a =>
      by_cases hbs : bs = []
      · exact .inl ⟨m, by simp [hbs]⟩
      · by_cases hacc : m.Accessible a bs.length
        · exact .inl ⟨_, by simp only [hbs, hacc, if_true, if_false]; rfl⟩
        · exact .inr (by simp [hbs, hacc])

theorem setBytes_withBytes (a : Nat) (bs : Text) :
    m.setBytes a bs = m.withBytes (Bytes.blit m.file.byte a bs) := rfl

theorem Mapping.withBytes (h : m.Mapping) (byte : Nat → UInt8) : (m.withBytes byte).Mapping :=
  ⟨h.lineLength_pos, h.lineLength_lt, h.address_pos, h.address_top, h.mapped_eq, h.size_eq, h.lines⟩

theorem run_writeBytes_long {msg : Text} (hlong : sizeSub m.lineLength offset < value.length) :
    (writeBytes msg lineNumber offset value).run m = .error (.runtimeError msg) m := by
  unfold writeBytes
  rw [run_bind_ok (EStateM.run_get m), if_pos hlong]
  rfl

theorem run_writeBytes_fits {msg : Text} (hfits : ¬ sizeSub m.lineLength offset < value.length) :
    (writeBytes msg lineNumber offset value).run m =
      (store (m.lineStart lineNumber offset) value).run m := by
  unfold writeBytes
  rw [run_bind_ok (EStateM.run_get m), if_neg hfits]

theorem writeExact_of_long {msg : Text} (hlong : sizeSub m.lineLength offset < value.length) :
    WriteExact m lineNumber offset value.length (writeBytes msg lineNumber offset value) := by
  have hrun : (writeBytes msg lineNumber offset value).run m = _ := run_writeBytes_long hlong
  constructor
  · intro m' hok
    rw [hrun] at hok
    cases hok
  · intro e m' herror
    rw [hrun] at herror
    cases herror
    exact ⟨rfl, rfl⟩

theorem writeExact_of_field (h : m.Mapping) {msg : Text} (hfield : m.Field lineNumber offset value.length) :
    WriteExact m lineNumber offset value.length (writeBytes msg lineNumber offset value) := by
  obtain ⟨hline, hend⟩ := hfield
  have hrun : (writeBytes msg lineNumber offset value).run m = _ := h.writeBytes hline hend
  constructor
  · intro m' hok
    rw [hrun] at hok
    cases hok
    refine ⟨⟨hline, hend⟩, _, fun k hk => ?_, setBytes_withBytes _ _⟩
    refine Bytes.blit_of_not_mem ?_
    change ¬ (_ ≤ k ∧ k < _) at hk
    omega
  · intro e m' herror
    rw [hrun] at herror
    cases herror

/-- What passes the guard outside of the line is not reported. -/
theorem not_writeExact {msg : Text} (hfits : ¬ sizeSub m.lineLength offset < value.length)
    (hfield : ¬ m.Field lineNumber offset value.length) :
    ¬ WriteExact m lineNumber offset value.length (writeBytes msg lineNumber offset value) := by
  intro hexact
  have hrun : (writeBytes msg lineNumber offset value).run m = _ := run_writeBytes_fits hfits
  rcases store_outcome (m := m) (m.lineStart lineNumber offset) value with ⟨m', hstore⟩ | hstore
  · exact hfield (hexact.returned m' (hrun.trans hstore)).1
  · have he := (hexact.failed _ _ (hrun.trans hstore)).1
    cases he

/-- Writing stays in the line exactly for its fields, and is refused exactly when the guard
finds the value too long. -/
theorem writeBytes_exact_iff (h : m.Mapping) (hoffset : offset < 2 ^ 64) (msg : Text) :
    WriteExact m lineNumber offset value.length (writeBytes msg lineNumber offset value) ↔
      m.Field lineNumber offset value.length ∨ m.TooLong offset value.length := by
  have hguard : _ ↔ m.TooLong offset value.length := h.sub_lt_iff hoffset
  by_cases hlong : sizeSub m.lineLength offset < value.length
  · exact iff_of_true (writeExact_of_long hlong) (.inr (hguard.mp hlong))
  · by_cases hfield : m.Field lineNumber offset value.length
    · exact iff_of_true (writeExact_of_field h hfield) (.inl hfield)
    · exact iff_of_false (not_writeExact hlong hfield) (not_or.mpr ⟨hfield, mt hguard.mpr hlong⟩)

/-- Numbers are read from anywhere. -/
theorem readNumber_exact_iff (h : m.Mapping) {size : Nat} :
    ReadExact m lineNumber offset size Throws readNumber ↔ m.Field lineNumber offset size := by
  constructor
  · rintro (⟨hfield, -⟩ | ⟨⟨e, hread, he⟩, -⟩)
    · exact hfield
    · unfold readNumber MemoryMapLinux.load at hread
      split at hread
      · cases hread
        cases he
      · split at hread <;> cases hread
        cases he
  · intro hfield
    refine .inl ⟨hfield, ⟨_, h.readNumber hfield.1 hfield.2⟩, fun byte hbyte => ?_⟩
    rw [h.readNumber hfield.1 hfield.2, (h.withBytes byte).readNumber hfield.1 hfield.2]
    refine congrArg _ (Bytes.slice_congr fun k hlow hhigh => hbyte k ?_)
    have hend := hfield.2
    change _ ≤ k ∧ k < _
    change lineNumber * m.lineLength + offset ≤ k at hlow
    change k < lineNumber * m.lineLength + offset + size at hhigh
    omega

theorem Except_ok_bind {ε α β : Type} (a : α) (f : α → Except ε β) : (Except.ok a >>= f) = f a := rfl

theorem loadText_undefined {a size : Nat} {e : Fault} (h : m.loadText a size = .error e) :
    e = .undefined := by
  induction size generalizing a with
  | zero => cases h
  | succ size ih =>
      unfold MemoryMapLinux.loadText at h
      by_cases hacc : m.Accessible a 1
      · have hload : m.load a 1 = .ok (Bytes.slice m.file.byte (a - m.mappedData) 1) := if_pos hacc
        rw [hload, Except_ok_bind] at h
        split at h
        · cases h
        · cases h
        · cases hrest : m.loadText (a + 1) size with
          | error e' =>
              rw [hrest] at h
              cases h
              exact ih hrest
          | ok rest =>
              rw [hrest] at h
              cases h
      · have hload : m.load a 1 = .error .undefined := if_neg hacc
        rw [hload] at h
        cases h
        rfl

theorem readText_undefined {size : Nat} {e : Fault} (h : m.readText lineNumber offset size = .error e) :
    ¬ e.isException = true := by
  have he : e = .undefined := by
    unfold readText at h
    split at h
    · split at h <;> cases h
      rfl
    · split at h
      · cases h
      · exact loadText_undefined h
  rw [he]
  exact Bool.false_ne_true

/-- The first byte is read before anything is found out about it. -/
theorem loadText_depends {a size : Nat} (hsize : 0 < size) (h : m.loadText a size = .ok []) :
    (m.withBytes fun _ => 1).loadText a size ≠ .ok [] := by
  obtain ⟨n, rfl⟩ : ∃ n, size = n + 1 := ⟨size - 1, by omega⟩
  have hacc : m.Accessible a 1 := by
    by_contra hnot
    unfold MemoryMapLinux.loadText MemoryMapLinux.load at h
    rw [if_neg hnot] at h
    cases h
  have hload : (m.withBytes fun _ => 1).load a 1 = .ok [1] := if_pos hacc
  intro hagain
  unfold MemoryMapLinux.loadText at hagain
  rw [hload] at hagain
  change ((m.withBytes fun _ => 1).loadText (a + 1) n >>= fun rest => pure (1 :: rest)) = .ok [] at hagain
  cases hrest : (m.withBytes fun _ => 1).loadText (a + 1) n with
  | error e =>
      rw [hrest] at hagain
      cases hagain
  | ok rest =>
      rw [hrest] at hagain
      cases hagain

theorem readText_exact_iff (h : m.Mapping) {size : Nat} :
    ReadExact m lineNumber offset size EmptyOrThrows readText ↔
      m.Field lineNumber offset size ∨ size = 0 ∨ m.NullStart lineNumber offset := by
  have hnull : m.NullStart lineNumber offset ↔
      (m.lineStart lineNumber offset = none ∧ offset = 0) ∨ m.lineStart lineNumber offset = some 0 := by
    unfold NullStart
    rw [h.lineStart_eq]
    split
    · simp
    · simp
  have hfield : m.Field lineNumber offset size → ReadExact m lineNumber offset size EmptyOrThrows readText := by
    intro hfield
    refine .inl ⟨hfield, ⟨_, h.readText hfield.1 hfield.2⟩, fun byte hbyte => ?_⟩
    rw [h.readText hfield.1 hfield.2, (h.withBytes byte).readText hfield.1 hfield.2]
    refine congrArg _ (congrArg _ (Bytes.slice_congr fun k hlow hhigh => hbyte k ?_))
    have hend := hfield.2
    change _ ≤ k ∧ k < _
    change lineNumber * m.lineLength + offset ≤ k at hlow
    change k < lineNumber * m.lineLength + offset + size at hhigh
    omega
  -- the pointer does not depend on the bytes
  have hstart (byte : Nat → UInt8) : (m.withBytes byte).lineStart lineNumber offset =
      m.lineStart lineNumber offset := rfl
  constructor
  · rintro (⟨hfield, -⟩ | ⟨hreports, hbyte⟩)
    · exact .inl hfield
    · refine .inr (Classical.or_iff_not_imp_left.mpr fun hsize => hnull.mpr ?_)
      have hread : m.readText lineNumber offset size = .ok [] := by
        rcases hreports with hempty | ⟨e, herror, he⟩
        · exact hempty
        · exact (readText_undefined herror he).elim
      cases hs : m.lineStart lineNumber offset with
      | none =>
          unfold readText at hread
          rw [hs] at hread
          dsimp only at hread
          by_cases hzero : offset = 0
          · exact .inl ⟨rfl, hzero⟩
          · rw [if_neg (not_or.mpr ⟨hzero, hsize⟩)] at hread
            cases hread
      | some start =>
          refine .inr (congrArg some ?_)
          by_contra hstartNull
          have hones := (hbyte fun _ => 1).trans hread
          unfold readText at hread hones
          rw [hstart, hs] at hones
          rw [hs] at hread
          dsimp only at hread hones
          rw [if_neg hstartNull] at hread hones
          exact loadText_depends (Nat.pos_of_ne_zero hsize) hread hones
  · rintro (hinside | rfl | hstartNull)
    · exact hfield hinside
    · refine .inr ⟨.inl ?_, fun byte => ?_⟩
      · unfold readText
        cases m.lineStart lineNumber offset <;> simp [loadText]
      · unfold readText
        rw [hstart]
        cases m.lineStart lineNumber offset <;> simp [loadText]
    · rcases hnull.mp hstartNull with ⟨hnone, rfl⟩ | hzero
      · refine .inr ⟨.inl ?_, fun byte => ?_⟩
        · unfold readText
          rw [hnone]
          simp
        · unfold readText
          rw [hstart, hnone]
      · refine .inr ⟨.inl ?_, fun byte => ?_⟩
        · unfold readText
          rw [hzero]
          simp
        · unfold readText
          rw [hstart, hzero]
          simp

/-- The guards are exact for the fields of the lines of the file. For all others the writers
are exact when the length is more than the wrapped difference, `readText` when it is asked
for nothing or finds a null pointer, and `readNumber` never is. -/
theorem guards_exact_iff (h : m.Mapping) (lineNumber : Nat) (hoffset : offset < 2 ^ 64) :
    (∀ value, WriteExact m lineNumber offset value.length (writeText lineNumber offset value) ↔
      m.Field lineNumber offset value.length ∨ m.TooLong offset value.length) ∧
    (∀ value, WriteExact m lineNumber offset value.length (writeNumber lineNumber offset value) ↔
      m.Field lineNumber offset value.length ∨ m.TooLong offset value.length) ∧
    (∀ size, ReadExact m lineNumber offset size EmptyOrThrows readText ↔
      m.Field lineNumber offset size ∨ size = 0 ∨ m.NullStart lineNumber offset) ∧
    ∀ size, ReadExact m lineNumber offset size Throws readNumber ↔ m.Field lineNumber offset size :=
  ⟨fun _ => writeBytes_exact_iff h hoffset _, fun _ => writeBytes_exact_iff h hoffset _,
    fun _ => readText_exact_iff h, fun _ => readNumber_exact_iff h⟩

end
/-- Two lines of five bytes. -/
def twoLines : MemoryMapLinux := ⟨⟨10, fun _ => 0⟩, 4096, 10, 10, 5, 0⟩

theorem twoLines_mapping : twoLines.Mapping where
  lineLength_pos := by decide
  lineLength_lt := by decide
  address_pos := by decide
  address_top := by decide
  mapped_eq := rfl
  size_eq := rfl
  lines := ⟨2, rfl⟩

theorem guards_exact_iff_sample : WriteExact twoLines 1 1 4 (writeNumber 1 1 [1, 2, 3, 4]) ∧
    ReadExact twoLines 1 1 4 EmptyOrThrows readText ∧ ReadExact twoLines 1 1 4 Throws readNumber := by
  obtain ⟨-, hwrite, htext, hnumber⟩ := guards_exact_iff twoLines_mapping 1 (show 1 < 2 ^ 64 by decide)
  have hfield : twoLines.Field 1 1 4 := ⟨by decide, by decide⟩
  exact ⟨(hwrite [1, 2, 3, 4]).mpr (.inl hfield), (htext 4).mpr (.inl hfield), (hnumber 4).mpr hfield⟩

/-- Line 3689348814741910324 of five bytes starts at byte 4. -/
theorem wrapped_line_written : ¬ ∀ (m : MemoryMapLinux) (lineNumber offset : Nat) (value : Text), m.Mapping →
    lineNumber < 2 ^ 64 → offset < 2 ^ 64 → value.length < 2 ^ 64 →
    WriteExact m lineNumber offset value.length (writeNumber lineNumber offset value) := by
  intro h
  have hexact := h twoLines 3689348814741910324 0 [0] twoLines_mapping (by decide) (by decide) (by decide)
  have hfield : ¬ twoLines.Field 3689348814741910324 0 [0].length := by
    rintro ⟨hline, -⟩
    exact absurd hline (by decide)
  exact not_writeExact (by decide) hfield hexact

end MemoryMapLinux
end SQLid
