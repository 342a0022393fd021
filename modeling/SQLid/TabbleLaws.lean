import SQLid.Tabble
import SQLid.StorageLaws
import SQLid.Library.SlotPool

/-!
# Table operations on a sound table

A table is sound while its mapping is live and its allocator agrees with the
active flags in the file. `Touches` bounds what a program did to a table: which
bytes it may have changed and that its calls stayed inside the file.
-/
namespace SQLid
open Bytes (Text)
open CppText (str)

/-- A call on a line of the file, or a growth of a full file by the allocator. -/
def CallInside (e : Call × MemoryMapLinux) : Prop :=
  (e.1 = .expand none → ∀ i < e.2.getMaxLine, e.2.flag i = true) ∧
    ∀ i, e.1.line = some i → i < e.2.getMaxLine

theorem callInside_line {c : Call} {m : MemoryMapLinux} {i : Nat} (hc : c.line = some i)
    (hi : i < m.getMaxLine) : CallInside (c, m) := by
  refine ⟨fun h => ?_, fun j hj => ?_⟩
  · simp only at h
    subst h
    cases hc
  · simp only [hc, Option.some.injEq] at hj
    subst hj
    exact hi

def MemoryMapLinux.withByte (m : MemoryMapLinux) (b : Nat → UInt8) : MemoryMapLinux :=
  { m with file := { m.file with byte := b } }

theorem MemoryMapLinux.Live.withByte {m : MemoryMapLinux} (h : m.Live) (b : Nat → UInt8) :
    (m.withByte b).Live :=
  ⟨h.lineLength_pos, h.address_pos, h.address_top, h.offT, h.mapped_eq, h.size_eq, h.lines,
    h.hundred⟩

namespace Tabble

def flag (t : Tabble) (i : Nat) : Bool := t.storage.core.flag i
def maxLines (t : Tabble) : Nat := t.storage.core.getMaxLine
def byte (t : Tabble) : Nat → UInt8 := t.storage.core.file.byte

def pool (t : Tabble) : SlotPool.Pool := ⟨t.flag, t.stackFreeId, t.freeId, t.maxLines⟩

/-- How many lines are active. -/
def activeCount (t : Tabble) : Nat := t.pool.count

/-- The storage is open on a file of whole lines of a well laid out schema. -/
structure Mapped (t : Tabble) : Prop where
  layout : t.info.Layout
  lineLength : t.storage.core.lineLength = t.info.lineLength
  live : t.storage.core.Live
  idle : t.storage.expanding = false

structure Sound (t : Tabble) : Prop extends Mapped t where
  pool : t.pool.Inv

/-- The calls made between two states stayed inside the file each of them found. -/
def LogsInside (t t' : Tabble) : Prop :=
  ∃ l, t'.storage.log = l ++ t.storage.log ∧ ∀ e ∈ l, CallInside e

theorem LogsInside.refl (t : Tabble) : LogsInside t t := ⟨[], rfl, by simp⟩

theorem LogsInside.trans {t t' t'' : Tabble} (h : LogsInside t t') (h' : LogsInside t' t'') :
    LogsInside t t'' := by
  obtain ⟨l, hl, hin⟩ := h
  obtain ⟨l', hl', hin'⟩ := h'
  refine ⟨l' ++ l, by rw [hl', hl, List.append_assoc], fun e he => ?_⟩
  exact (List.mem_append.mp he).elim (hin' e) (hin e)

theorem LogsInside.one {t t' : Tabble} {e : Call × MemoryMapLinux} (hin : CallInside e)
    (h : t'.storage.log = e :: t.storage.log) : LogsInside t t' :=
  ⟨[e], h, fun _ he => List.mem_singleton.mp he ▸ hin⟩

theorem LogsInside.all {t t' : Tabble} (h : LogsInside t t')
    (ht : ∀ e ∈ t.storage.log, CallInside e) : ∀ e ∈ t'.storage.log, CallInside e := by
  obtain ⟨l, hl, hin⟩ := h
  intro e he
  rw [hl] at he
  exact (List.mem_append.mp he).elim (hin e) (ht e)

/-- Nothing but bytes at addresses in `P` and the log differs. -/
structure Touches (P : Nat → Prop) (t t' : Tabble) : Prop where
  info : t'.info = t.info
  stack : t'.stackFreeId = t.stackFreeId
  freeId : t'.freeId = t.freeId
  places : t'.activePlaces = t.activePlaces
  history : t'.history = t.history
  expanding : t'.storage.expanding = t.storage.expanding
  core : ∃ b, t'.storage.core = t.storage.core.withByte b ∧ ∀ k, ¬ P k → b k = t.byte k
  log : LogsInside t t'

section Touches
variable {P Q : Nat → Prop} {t t' t'' : Tabble}

theorem Touches.refl (P : Nat → Prop) (t : Tabble) : Touches P t t :=
  ⟨rfl, rfl, rfl, rfl, rfl, rfl, ⟨t.byte, rfl, fun _ _ => rfl⟩, .refl t⟩

theorem Touches.trans (h : Touches P t t') (h' : Touches P t' t'') : Touches P t t'' := by
  obtain ⟨b, hb, hP⟩ := h.core
  obtain ⟨b', hb', hP'⟩ := h'.core
  refine ⟨h'.info.trans h.info, h'.stack.trans h.stack, h'.freeId.trans h.freeId,
    h'.places.trans h.places, h'.history.trans h.history, h'.expanding.trans h.expanding,
    ⟨b', ?_, ?_⟩, h.log.trans h'.log⟩
  · rw [hb', hb]
    rfl
  · intro k hk
    rw [hP' k hk, ← hP k hk]
    simp only [byte, hb]
    rfl

theorem Touches.mono (h : Touches P t t') (hPQ : ∀ k, P k → Q k) : Touches Q t t' := by
  obtain ⟨b, hb, hP⟩ := h.core
  exact ⟨h.info, h.stack, h.freeId, h.places, h.history, h.expanding,
    ⟨b, hb, fun k hk => hP k fun hp => hk (hPQ k hp)⟩, h.log⟩

theorem Touches.lineLength (h : Touches P t t') :
    t'.storage.core.lineLength = t.storage.core.lineLength := by
  obtain ⟨b, hb, -⟩ := h.core
  rw [hb]
  rfl

theorem Touches.maxLines (h : Touches P t t') : t'.maxLines = t.maxLines := by
  obtain ⟨b, hb, -⟩ := h.core
  simp only [Tabble.maxLines, hb]
  rfl

theorem Touches.byte (h : Touches P t t') {k : Nat} (hk : ¬ P k) : t'.byte k = t.byte k := by
  obtain ⟨b, hb, hP⟩ := h.core
  rw [← hP k hk]
  simp only [Tabble.byte, hb]
  rfl

theorem Touches.flag (h : Touches P t t') {i : Nat} (hi : ¬ P (i * t.storage.core.lineLength)) :
    t'.flag i = t.flag i := by
  have hb := h.byte hi
  simp only [Tabble.byte] at hb
  simp only [Tabble.flag, MemoryMapLinux.flag, h.lineLength, hb]

theorem Touches.mapped (h : Touches P t t') (hs : t.Mapped) : t'.Mapped := by
  obtain ⟨b, hb, -⟩ := h.core
  exact ⟨by rw [h.info]; exact hs.layout, by rw [h.lineLength, h.info, hs.lineLength],
    by rw [hb]; exact hs.live.withByte b, by rw [h.expanding, hs.idle]⟩

/-- As long as no flag is touched, soundness is kept. -/
theorem Touches.sound (h : Touches P t t') (hs : t.Sound)
    (hP : ∀ i, ¬ P (i * t.storage.core.lineLength)) : t'.Sound := by
  refine ⟨h.mapped hs.toMapped, ?_⟩
  have hflag : t'.flag = t.flag := funext fun i => h.flag (hP i)
  have hpool : t'.pool = t.pool := by
    simp only [Tabble.pool, hflag, h.stack, h.freeId, h.maxLines]
  rw [hpool]
  exact hs.pool

end Touches

/-! Single calls. -/

def logged (t : Tabble) (c : Call) : Tabble := { t with storage := t.storage.logged c }

def withCore (t : Tabble) (core : MemoryMapLinux) : Tabble :=
  { t with storage := t.storage.withCore core }

def withBytes (t : Tabble) (a : Nat) (bs : Text) : Tabble :=
  t.withCore (t.storage.core.setBytes a bs)

theorem logged_touches (P : Nat → Prop) {t : Tabble} {c : Call} {i : Nat} (hc : c.line = some i)
    (hi : i < t.maxLines) : Touches P t (t.logged c) :=
  ⟨rfl, rfl, rfl, rfl, rfl, rfl, ⟨t.byte, rfl, fun _ _ => rfl⟩,
    .one (callInside_line hc hi) rfl⟩

theorem withBytes_touches (t : Tabble) (a : Nat) (bs : Text) :
    Touches (fun k => a ≤ k ∧ k < a + bs.length) t (t.withBytes a bs) :=
  ⟨rfl, rfl, rfl, rfl, rfl, rfl,
    ⟨Bytes.blit t.byte a bs, rfl, fun _ hk => Bytes.blit_of_not_mem (by omega)⟩,
    .refl t⟩

theorem run_onStorage_ok {α : Type} {x : EStateM Fault MemoryMap α} {t : Tabble} {a : α}
    {m : MemoryMap} (hx : x.run t.storage = .ok a m) :
    (onStorage x).run t = .ok a { t with storage := m } := by
  simp only [onStorage, Programs.run_zoom, hx]

theorem run_onStorage_error {α : Type} {x : EStateM Fault MemoryMap α} {t : Tabble} {e : Fault}
    {m : MemoryMap} (hx : x.run t.storage = .error e m) :
    (onStorage x).run t = .error e { t with storage := m } := by
  simp only [onStorage, Programs.run_zoom, hx]

section Calls
variable {t : Tabble} {i : Nat} (h : t.Mapped) (hi : i < t.maxLines)
include h hi

theorem Mapped.isActive :
    (onStorage (MemoryMap.isActive i)).run t = .ok (t.flag i) (t.logged (.isActive i)) :=
  run_onStorage_ok (MemoryMap.run_isActive (h.live.isActive hi))

theorem Mapped.storageReadNumber {off n : Nat} (ho : off + n ≤ t.info.lineLength) :
    (onStorage (MemoryMap.readNumber i off n)).run t =
      .ok (Bytes.slice t.byte (i * t.info.lineLength + off) n) (t.logged (.readNumber i)) := by
  rw [← h.lineLength] at ho ⊢
  exact run_onStorage_ok (MemoryMap.run_readNumber (h.live.mapping.readNumber hi ho))

theorem Mapped.storageReadText {off n : Nat} (ho : off + n ≤ t.info.lineLength) :
    (onStorage (MemoryMap.readText i off n)).run t =
      .ok (Bytes.cutNul (Bytes.slice t.byte (i * t.info.lineLength + off) n))
        (t.logged (.readText i)) := by
  rw [← h.lineLength] at ho ⊢
  exact run_onStorage_ok (MemoryMap.run_readText (h.live.mapping.readText hi ho))

/-- A write to a line of the file needs no growth. -/
theorem Mapped.write {os : Os} {c : Call} {off : Nat} {bs msg : Text}
    (ho : off + bs.length ≤ t.info.lineLength) :
    (onStorage (MemoryMap.write os c i (MemoryMapLinux.writeBytes msg i off bs))).run t =
      .ok () ((t.logged c).withBytes (i * t.info.lineLength + off) bs) := by
  rw [← h.lineLength] at ho ⊢
  refine run_onStorage_ok ((MemoryMap.run_write_inside hi).trans ?_)
  exact MemoryMap.run_onCore_ok (h.live.mapping.writeBytes hi ho)

theorem Mapped.write_long {os : Os} {c : Call} {off : Nat} {bs msg : Text}
    (ho : off ≤ t.info.lineLength) (hlong : t.info.lineLength < off + bs.length) :
    (onStorage (MemoryMap.write os c i (MemoryMapLinux.writeBytes msg i off bs))).run t =
      .error (.runtimeError msg) (t.logged c) := by
  rw [← h.lineLength] at ho hlong
  refine run_onStorage_error ((MemoryMap.run_write_inside hi).trans ?_)
  exact MemoryMap.run_onCore_error (h.live.mapping.writeBytes_long ho hlong)

theorem Mapped.writeFlag {c : Call} (b : Bool) :
    (onStorage (MemoryMap.writeFlag c i b)).run t =
      .ok () ((t.logged c).withBytes (i * t.info.lineLength) (VariantTypes.bool b).bytes) := by
  rw [← h.lineLength]
  have hpos := h.live.lineLength_pos
  have hlen : 0 + (VariantTypes.bool b).bytes.length ≤ t.storage.core.lineLength := by
    simp only [VariantTypes.bytes, List.length_singleton]
    omega
  have hw : (MemoryMapLinux.writeNumber i 0 (VariantTypes.bool b).bytes).run t.storage.core =
      .ok () (t.storage.core.setBytes (i * t.storage.core.lineLength) (VariantTypes.bool b).bytes) :=
    h.live.mapping.writeBytes hi hlen
  refine run_onStorage_ok ((Programs.run_bind_ok (MemoryMap.run_record c t.storage)).trans ?_)
  exact MemoryMap.run_onCore_ok hw

end Calls

/-! Reading a column. -/

/-- The value the bytes of a column stand for: a number, or text up to its first NUL. -/
def cellOfBytes (bs : Text) (type : ColumnType) : VariantTypes :=
  match numberOfBytes bs type with
  | .ok v => v
  | .error _ => .string (Bytes.cutNul bs)

def cell (t : Tabble) (i : Nat) (c : Column) : VariantTypes :=
  cellOfBytes (Bytes.slice t.byte (i * t.info.lineLength + c.offset) c.size) c.type

theorem cellOfBytes_text {bs : Text} {type : ColumnType} (h : type.isText = true) :
    cellOfBytes bs type = .string (Bytes.cutNul bs) := by
  cases type <;> first | rfl | cases h

theorem numberOfBytes_cell (bs : Text) {type : ColumnType} (h : type.isText = false)
    (hv : type ≠ .voida) : numberOfBytes bs type = .ok (cellOfBytes bs type) := by
  cases type <;> first | rfl | contradiction

theorem cellOfBytes_hasType (bs : Text) {type : ColumnType} (hv : type ≠ .voida) :
    (cellOfBytes bs type).hasType type = true := by
  cases type <;> first | rfl | contradiction

/-- A column with a size is no `VOID` column, and a number fills its column. -/
theorem column_type {info : TabbleInfo} (h : info.Layout) {c : Column} (hc : c ∈ info.columns)
    (hsize : 0 < c.size) : c.type ≠ .voida ∧ (c.type.isText = false → c.size = typeSizes c.type) := by
  constructor
  · intro hv
    have := h.sizes c hc (by simp [hv])
    simp only [hv, typeSizes] at this
    omega
  · intro ht
    exact h.sizes c hc fun hs => by simp [hs, ColumnType.isText] at ht

theorem Mapped.readColumn {t : Tabble} {i : Nat} (h : t.Mapped) (hi : i < t.maxLines) {c : Column}
    (hc : c ∈ t.info.columns) (hsize : 0 < c.size) :
    ∃ t', (readColumn i c).run t = .ok (t.cell i c) t' ∧ Touches (fun _ => False) t t' := by
  have hin := h.layout.column_inside hc
  obtain ⟨hv, hnum⟩ := column_type h.layout hc hsize
  unfold Tabble.readColumn
  cases ht : c.type.isText with
  | true =>
      refine ⟨t.logged (.readText i), ?_, logged_touches _ rfl hi⟩
      rw [if_pos rfl, Programs.run_map]
      unfold Tabble.readText
      rw [if_neg (by omega), h.storageReadText hi hin.2]
      simp only [cell, cellOfBytes_text ht]
  | false =>
      refine ⟨t.logged (.readNumber i), ?_, logged_touches _ rfl hi⟩
      have hread := h.storageReadNumber hi hin.2
      rw [hnum ht] at hread
      have hval := numberOfBytes_cell (Bytes.slice t.byte (i * t.info.lineLength + c.offset)
        (typeSizes c.type)) ht hv
      rw [if_neg Bool.false_ne_true]
      unfold Tabble.readNumber
      cases hty : c.type <;> simp only [hty] at hread hval hnum ht hv
      case voida => contradiction
      case text | string => cases ht
      all_goals
        rw [Programs.run_bind_ok hread, hval, cell, hty, hnum rfl]
        rfl

/-! Writing the columns of a line. -/

/-- Behind the flag of the line and before the next line. -/
def InLine (L i k : Nat) : Prop := i * L < k ∧ k < i * L + L

theorem not_inLine_flag (L i j : Nat) : ¬ InLine L i (j * L) := fun h =>
  MemoryMapLinux.line_data_ne_flag h.1 h.2 rfl

def writeCall (i : Nat) : VariantTypes → Call
  | .string _ => .writeText i
  | _ => .writeNumber i

def tooLong : VariantTypes → Text
  | .string _ => str "Text is too long for the field"
  | _ => str "Number is too long for the field"

theorem writeInfo_eq (os : Os) (i off : Nat) (v : VariantTypes) :
    MemoryMap.writeInfo os i off v =
      MemoryMap.write os (writeCall i v) i (MemoryMapLinux.writeBytes (tooLong v) i off v.bytes) := by
  cases v <;> rfl

theorem writeCall_line (i : Nat) (v : VariantTypes) : (writeCall i v).line = some i := by
  cases v <;> rfl

theorem inLine_of_column {L i off n k : Nat} (ho : 1 ≤ off) (hend : off + n ≤ L)
    (hk : i * L + off ≤ k ∧ k < i * L + off + n) : InLine L i k := by
  unfold InLine
  omega

section Write
variable {t : Tabble} {i : Nat} (h : t.Mapped) (os : Os) (hi : i < t.maxLines)
include h hi

theorem Mapped.writeInfo_ok {off : Nat} {v : VariantTypes} (ho : 1 ≤ off)
    (hend : off + v.bytes.length ≤ t.info.lineLength) :
    ∃ t', (onStorage (MemoryMap.writeInfo os i off v)).run t = .ok () t' ∧
      Touches (InLine t.info.lineLength i) t t' ∧
      t'.byte = Bytes.blit t.byte (i * t.info.lineLength + off) v.bytes := by
  rw [writeInfo_eq]
  refine ⟨_, h.write hi hend, ?_, rfl⟩
  refine (logged_touches _ (writeCall_line i v) hi).trans ?_
  exact (withBytes_touches _ _ _).mono fun k hk => inLine_of_column ho hend hk

theorem Mapped.writeInfo_error {off : Nat} (v : VariantTypes) (ho : off ≤ t.info.lineLength)
    (hend : t.info.lineLength < off + v.bytes.length) :
    (onStorage (MemoryMap.writeInfo os i off v)).run t =
      .error (.runtimeError (tooLong v)) (t.logged (writeCall i v)) := by
  rw [writeInfo_eq]
  exact h.write_long hi ho hend

end Write

end Tabble
end SQLid
