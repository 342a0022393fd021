import SQLid.AllOrNothing
import SQLid.StorageGuards

/-!
# Growths that fail

Calls on the storage of a table in any order. The storage stays mapped and reads back what
was written as long as every growth it asks for is granted. One that is refused leaves it
unmapped for good, with the flag set that makes later growths wait.
-/
namespace SQLid
open Bytes (Text)
open CppText (str)
open Programs

/-- The calls on the storage of a table. -/
inductive StorageOp where
  | expand
  | isActive (lineNumber : Nat)
  | activate (lineNumber : Nat)
  | deactivate (lineNumber : Nat)
  | readNumber (lineNumber offset size : Nat)
  | readText (lineNumber offset size : Nat)
  | writeNumber (lineNumber offset : Nat) (value : Text)
  | writeText (lineNumber offset : Nat) (value : Text)
  deriving DecidableEq, Repr

structure LineWrite where
  line : Nat
  offset : Nat
  bytes : Text
  deriving DecidableEq, Repr

/-- The bytes of the file after these writes, the newest first. -/
def writtenBytes (lineLength : Nat) (start : Nat → UInt8) : List LineWrite → Nat → UInt8
  | [] => start
  | w :: ws => Bytes.blit (writtenBytes lineLength start ws) (w.line * lineLength + w.offset) w.bytes

/-- The bytes of a file, with zeros behind them. -/
def ByteFile.bytes (file : ByteFile) (k : Nat) : UInt8 := if k < file.size then file.byte k else 0

namespace StorageOp

def run (os : Os) : StorageOp → EStateM Fault MemoryMap Unit
  | .expand => MemoryMap.expand os none
  | .isActive i => discard (MemoryMap.isActive i)
  | .activate i => MemoryMap.activate i
  | .deactivate i => MemoryMap.deactivate i
  | .readNumber i offset size => discard (MemoryMap.readNumber i offset size)
  | .readText i offset size => discard (MemoryMap.readText i offset size)
  | .writeNumber i offset value => MemoryMap.writeNumber os i offset value
  | .writeText i offset value => MemoryMap.writeText os i offset value

/-- What a call writes when it returns. -/
def writes : StorageOp → List LineWrite
  | .activate i => [⟨i, 0, (VariantTypes.bool true).bytes⟩]
  | .deactivate i => [⟨i, 0, (VariantTypes.bool false).bytes⟩]
  | .writeNumber i offset value | .writeText i offset value => [⟨i, offset, value⟩]
  | _ => []

/-- What is written goes to a place in a line whose addresses do not wrap; the line may lie
past the file, and the value may be too long. -/
def Addressed (lineLength : Nat) (op : StorageOp) : Prop :=
  ∀ w ∈ op.writes, w.offset ≤ lineLength ∧ w.line * lineLength + lineLength ≤ 2 ^ 64

def asksGrowth (m : MemoryMap) : StorageOp → Bool
  | .expand => true
  | .writeNumber i _ _ | .writeText i _ _ => m.getMaxLines ≤ i
  | _ => false

/-- The call asks the operating system for a growth and does not get it. -/
def refused (os : Os) (m : MemoryMap) (op : StorageOp) : Bool :=
  op.asksGrowth m && !os.grows m.core.calls (2 * m.core.fileSize)

end StorageOp

/-- Runs of calls on a storage that was opened, each going on from the state the one before
left, also by an exception: whether a growth was refused, what the file held and what was
written since. -/
inductive StorageRun (os : Os) : Bool → (Nat → UInt8) → List LineWrite → MemoryMap → Prop
  | opened {file : ByteFile} {lineLength calls : Nat} {core : MemoryMapLinux} : 0 < lineLength →
      lineLength * 100 < 2 ^ 64 → file.size = 0 ∨ MemoryMapLinux.Lines file lineLength →
      (MemoryMapLinux.openFile os).run (MemoryMapLinux.closed file lineLength calls) = .ok () core →
      StorageRun os false core.file.bytes [] ⟨core, false, []⟩
  | returned {failed : Bool} {start : Nat → UInt8} {writes : List LineWrite} {m m' : MemoryMap}
      {op : StorageOp} : StorageRun os failed start writes m → op.Addressed m.core.lineLength →
      (op.run os).run m = .ok () m' →
      StorageRun os (failed || op.refused os m) start (op.writes ++ writes) m'
  | threw {failed : Bool} {start : Nat → UInt8} {writes : List LineWrite} {m m' : MemoryMap}
      {op : StorageOp} {e : Fault} : StorageRun os failed start writes m →
      op.Addressed m.core.lineLength → (op.run os).run m = .error e m' → e.isException = true →
      StorageRun os (failed || op.refused os m) start writes m'

/-- No growth is waited for, `mappedData` maps `fileSize` bytes of the file, and the lines of
the file, with them all that were written, read as the writes have left them. -/
structure Usable (start : Nat → UInt8) (writes : List LineWrite) (m : MemoryMap) : Prop where
  idle : m.expanding = false
  address : 0 < m.core.mappedData
  mapped : m.core.mapped = m.core.fileSize
  file : m.core.fileSize ≤ m.core.file.size
  lines : ∀ w ∈ writes, w.bytes ≠ [] → w.line < m.getMaxLines
  numbers : ∀ i < m.getMaxLines, ∀ offset size, offset + size ≤ m.core.lineLength →
    m.core.readNumber i offset size = .ok (Bytes.slice (writtenBytes m.core.lineLength start writes)
      (i * m.core.lineLength + offset) size)
  texts : ∀ i < m.getMaxLines, ∀ offset size, offset + size ≤ m.core.lineLength →
    m.core.readText i offset size = .ok (Bytes.cutNul
      (Bytes.slice (writtenBytes m.core.lineLength start writes) (i * m.core.lineLength + offset) size))

/-- What every call keeps that is granted its growth. -/
structure Holding (start : Nat → UInt8) (writes : List LineWrite) (m : MemoryMap) : Prop where
  idle : m.expanding = false
  live : m.core.Live
  lines : ∀ w ∈ writes, w.bytes ≠ [] → w.line < m.getMaxLines
  bytes : ∀ k < m.core.fileSize, m.core.file.byte k = writtenBytes m.core.lineLength start writes k
  zeros : ∀ k, m.core.fileSize ≤ k → writtenBytes m.core.lineLength start writes k = 0

section
variable {os : Os} {start : Nat → UInt8} {writes : List LineWrite} {m : MemoryMap}

theorem Holding.logged (h : Holding start writes m) (c : Call) : Holding start writes (m.logged c) :=
  ⟨h.idle, h.live, h.lines, h.bytes, h.zeros⟩

theorem Holding.usable (h : Holding start writes m) : Usable start writes m := by
  have hslice {i offset size : Nat} (hi : i < m.getMaxLines) (hend : offset + size ≤ m.core.lineLength) :
      Bytes.slice m.core.file.byte (i * m.core.lineLength + offset) size =
        Bytes.slice (writtenBytes m.core.lineLength start writes) (i * m.core.lineLength + offset) size := by
    apply Bytes.slice_congr
    intro k hlow hhigh
    have hline := MemoryMapLinux.line_end_le hi
    exact h.bytes k (by omega)
  refine ⟨h.idle, h.live.address_pos, h.live.mapped_eq, h.live.size_eq.ge, h.lines, ?_, ?_⟩
  · intro i hi offset size hend
    rw [h.live.mapping.readNumber hi hend, hslice hi hend]
  · intro i hi offset size hend
    rw [h.live.mapping.readText hi hend, hslice hi hend]

/-- A growth that is granted adds lines of zeros. -/
theorem Holding.expand (h : Holding start writes m) (w : Option Nat)
    (hgrows : os.grows m.core.calls (2 * m.core.fileSize) = true) :
    ∃ m', (MemoryMap.expand os w).run m = .ok () m' ∧ Holding start writes m' ∧
      m'.core.lineLength = m.core.lineLength := by
  obtain ⟨addr, hrun, hlive⟩ := h.live.expandFile_ok hgrows
  have hexpand := MemoryMap.run_expand os w h.idle
  rw [hrun] at hexpand
  refine ⟨_, hexpand, ⟨h.idle, hlive, ?_, ?_, ?_⟩, rfl⟩
  · intro w hw hbytes
    have hline := h.lines w hw hbytes
    have hmax : (m.core.resized (2 * m.core.fileSize) addr).getMaxLine = _ := h.live.getMaxLine_resized addr
    change w.line < (m.core.resized (2 * m.core.fileSize) addr).getMaxLine
    change w.line < m.core.getMaxLine at hline
    omega
  · intro k _
    by_cases hk : k < m.core.fileSize
    · exact (h.live.byte_resized hk).trans (h.bytes k hk)
    · have hsize := h.live.size_eq
      refine Eq.trans ?_ (h.zeros k (Nat.le_of_not_lt hk)).symm
      simp only [MemoryMapLinux.resized, MemoryMap.withCore, ByteFile.truncate]
      rw [if_neg (by omega)]
  · intro k hk
    refine h.zeros k (Nat.le_trans ?_ hk)
    change m.core.fileSize ≤ 2 * m.core.fileSize
    omega

/-- A value written where there is no line is not written. -/
theorem MemoryMapLinux.Mapping.writeBytes_nowhere {core : MemoryMapLinux} (h : core.Mapping) {i offset : Nat}
    (hi : core.getMaxLine ≤ i) (hwrap : i * core.lineLength + core.lineLength ≤ 2 ^ 64) {value msg : Text}
    (hvalue : value ≠ []) (hend : offset + value.length ≤ core.lineLength) :
    (MemoryMapLinux.writeBytes msg i offset value).run core = .error .undefined core := by
  have hfits : ¬ sizeSub core.lineLength offset < value.length := by
    rw [h.sub_offset (by omega)]
    omega
  refine (MemoryMapLinux.run_writeBytes_fits hfits).trans ?_
  unfold MemoryMapLinux.store
  rw [run_bind_ok (EStateM.run_get core)]
  cases haddress : core.lineStart i offset with
  | none => simp [hvalue]
  | some a => simp [hvalue, h.lineStart_past hi hwrap (List.length_pos_iff.mpr hvalue) hend haddress]

theorem blit_congr {f g : Nat → UInt8} {k : Nat} (a : Nat) (value : Text) (h : f k = g k) :
    Bytes.blit f a value k = Bytes.blit g a value k := by
  unfold Bytes.blit
  rw [h]

/-- The bytes of a value stored in a line. -/
theorem Holding.set (h : Holding start writes m) {i offset : Nat} {value : Text} (hi : i < m.getMaxLines)
    (hend : offset + value.length ≤ m.core.lineLength) :
    Holding start (⟨i, offset, value⟩ :: writes)
      (m.withCore (m.core.setBytes (i * m.core.lineLength + offset) value)) := by
  have hline := MemoryMapLinux.line_end_le hi
  refine ⟨h.idle, MemoryMapLinux.Live.setBytes _ _ h.live, ?_, ?_, ?_⟩
  · intro w hw hbytes
    rcases List.mem_cons.mp hw with rfl | hw
    · exact hi
    · exact h.lines w hw hbytes
  · intro k hk
    exact blit_congr _ value (h.bytes k hk)
  · intro k hk
    refine Eq.trans (Bytes.blit_of_not_mem ?_) (h.zeros k hk)
    change m.core.fileSize ≤ k at hk
    right
    change i * m.core.lineLength + offset + value.length ≤ k
    omega

/-- A write to some line, of a value of any length. -/
theorem Holding.put (h : Holding start writes m) {i offset : Nat} {value msg : Text}
    (hoffset : offset ≤ m.core.lineLength) (hwrap : i * m.core.lineLength + m.core.lineLength ≤ 2 ^ 64) :
    Post (fun _ => Holding start (⟨i, offset, value⟩ :: writes))
      (fun e m' => e.isException = true → Holding start writes m')
      ((MemoryMap.onCore (MemoryMapLinux.writeBytes msg i offset value)).run m) := by
  by_cases hend : offset + value.length ≤ m.core.lineLength
  · by_cases hi : i < m.getMaxLines
    · rw [MemoryMap.run_onCore_ok (h.live.mapping.writeBytes hi hend)]
      exact .ok (h.set hi hend)
    · by_cases hvalue : value = []
      · subst hvalue
        have hkept : Holding start (⟨i, offset, []⟩ :: writes) m := by
          refine ⟨h.idle, h.live, ?_, ?_, ?_⟩
          · intro w hw hbytes
            rcases List.mem_cons.mp hw with rfl | hw
            · exact absurd rfl hbytes
            · exact h.lines w hw hbytes
          · intro k hk
            rw [h.bytes k hk]
            exact (congrFun (Bytes.blit_nil _ _) k).symm
          · intro k hk
            exact (congrFun (Bytes.blit_nil _ _) k).trans (h.zeros k hk)
        rcases h.live.mapping.writeBytes_past (Nat.le_of_not_lt hi) hwrap msg hend with hrun | hrun
        · rw [MemoryMap.run_onCore_ok hrun]
          exact .ok hkept
        · rw [MemoryMap.run_onCore_error hrun]
          exact .error fun he => by cases he
      · rw [MemoryMap.run_onCore_error (h.live.mapping.writeBytes_nowhere (Nat.le_of_not_lt hi) hwrap hvalue hend)]
        exact .error fun he => by cases he
  · rw [MemoryMap.run_onCore_error (h.live.mapping.writeBytes_long hoffset (Nat.lt_of_not_le hend))]
    exact .error fun _ => h

/-- A write that grows the file first where it is too short. -/
theorem Holding.write (h : Holding start writes m) {c : Call} {i offset : Nat} {value msg : Text}
    (hoffset : offset ≤ m.core.lineLength) (hwrap : i * m.core.lineLength + m.core.lineLength ≤ 2 ^ 64)
    (hgrows : m.getMaxLines ≤ i → os.grows m.core.calls (2 * m.core.fileSize) = true) :
    Post (fun _ => Holding start (⟨i, offset, value⟩ :: writes))
      (fun e m' => e.isException = true → Holding start writes m')
      ((MemoryMap.write os c i (MemoryMapLinux.writeBytes msg i offset value)).run m) := by
  by_cases hi : i < m.getMaxLines
  · rw [MemoryMap.run_write_inside hi]
    exact (h.logged c).put hoffset hwrap
  · have hpast := Nat.le_of_not_lt hi
    obtain ⟨m', hrun, hgrown, hlength⟩ := (h.logged c).expand (some i) (hgrows hpast)
    have hge : (m.logged c).core.getMaxLine ≤ i := hpast
    unfold MemoryMap.write
    rw [run_bind_ok (MemoryMap.run_record c m), run_bind_ok (EStateM.run_get _), if_pos hge, run_bind_ok hrun]
    refine hgrown.put ?_ ?_
    · rw [hlength]
      exact hoffset
    · rw [hlength]
      exact hwrap

/-- Reading leaves nothing but a call in the log. -/
theorem run_record_read (c : Call) (x : MemoryMap → Except Fault Text) (m : MemoryMap) :
    finalState ((do MemoryMap.record c; Programs.ofExcept (x (← get)) : EStateM Fault MemoryMap Text).run m) =
      m.logged c := by
  rw [run_bind_ok (MemoryMap.run_record c m), run_bind_ok (EStateM.run_get _)]
  cases x (m.logged c) <;> rfl

theorem run_discard_final {α : Type} (x : EStateM Fault MemoryMap α) (m : MemoryMap) :
    finalState ((discard x).run m) = finalState (x.run m) := by
  unfold discard
  change finalState ((Function.const α () <$> x).run m) = _
  rw [run_map]
  cases x.run m <;> rfl

/-- The calls that only read. -/
def StorageOp.reads : StorageOp → Bool
  | .isActive _ | .readNumber _ _ _ | .readText _ _ _ => true
  | _ => false

theorem StorageOp.run_reads (os : Os) {op : StorageOp} (hop : op.reads = true) (m : MemoryMap) :
    ∃ c, finalState ((op.run os).run m) = m.logged c := by
  cases op with
  | isActive i =>
      refine ⟨.isActive i, (run_discard_final _ m).trans ?_⟩
      unfold MemoryMap.isActive
      rw [run_bind_ok (MemoryMap.run_record _ m), run_bind_ok (EStateM.run_get _)]
      cases hread : (m.logged (.isActive i)).core.readNumber i 0 1 <;> rfl
  | readNumber i offset size =>
      exact ⟨.readNumber i, (run_discard_final _ m).trans (run_record_read _ (fun m => m.core.readNumber i offset size) m)⟩
  | readText i offset size =>
      exact ⟨.readText i, (run_discard_final _ m).trans (run_record_read _ (fun m => m.core.readText i offset size) m)⟩
  | _ => cases hop

/-- A call that gets the growth it asks for. -/
theorem Holding.call (h : Holding start writes m) {op : StorageOp} (haddressed : op.Addressed m.core.lineLength)
    (hgranted : op.refused os m = false) :
    Post (fun _ => Holding start (op.writes ++ writes))
      (fun e m' => e.isException = true → Holding start writes m') ((op.run os).run m) := by
  have hgrows : op.asksGrowth m = true → os.grows m.core.calls (2 * m.core.fileSize) = true := by
    intro hasks
    unfold StorageOp.refused at hgranted
    rw [hasks, Bool.true_and, Bool.not_eq_false'] at hgranted
    exact hgranted
  have hreads (hop : op.reads = true) (hnone : op.writes = []) :
      Post (fun _ => Holding start (op.writes ++ writes))
        (fun e m' => e.isException = true → Holding start writes m') ((op.run os).run m) := by
    obtain ⟨c, hfinal⟩ := StorageOp.run_reads os hop m
    rw [hnone, List.nil_append]
    exact (post_of_final (P := Holding start writes) (by rw [hfinal]; exact h.logged c)).mono
      (fun _ _ hkept => hkept) (fun _ _ hkept _ => hkept)
  have hwrite {c : Call} {i offset : Nat} {value msg : Text}
      (hop : (⟨i, offset, value⟩ : LineWrite) ∈ op.writes)
      (hasks : m.getMaxLines ≤ i → op.asksGrowth m = true) :
      Post (fun _ => Holding start (⟨i, offset, value⟩ :: writes))
        (fun e m' => e.isException = true → Holding start writes m')
        ((MemoryMap.write os c i (MemoryMapLinux.writeBytes msg i offset value)).run m) :=
    h.write (haddressed _ hop).1 (haddressed _ hop).2 fun hi => hgrows (hasks hi)
  have hflag {c : Call} {i : Nat} {b : Bool} (hop : (⟨i, 0, (VariantTypes.bool b).bytes⟩ : LineWrite) ∈ op.writes) :
      Post (fun _ => Holding start (⟨i, 0, (VariantTypes.bool b).bytes⟩ :: writes))
        (fun e m' => e.isException = true → Holding start writes m') ((MemoryMap.writeFlag c i b).run m) := by
    unfold MemoryMap.writeFlag
    rw [run_bind_ok (MemoryMap.run_record c m)]
    exact (h.logged c).put (haddressed _ hop).1 (haddressed _ hop).2
  cases op with
  | expand =>
      obtain ⟨m', hrun, hgrown, -⟩ := h.expand none (hgrows rfl)
      exact hrun ▸ .ok hgrown
  | isActive i => exact hreads rfl rfl
  | readNumber i offset size => exact hreads rfl rfl
  | readText i offset size => exact hreads rfl rfl
  | activate i => exact hflag List.mem_cons_self
  | deactivate i => exact hflag List.mem_cons_self
  | writeNumber i offset value => exact hwrite List.mem_cons_self fun hi => decide_eq_true hi
  | writeText i offset value => exact hwrite List.mem_cons_self fun hi => decide_eq_true hi

@[simp] theorem MemoryMap.withCore_expanding (core : MemoryMapLinux) :
    (m.withCore core).expanding = m.expanding := rfl

/-- Nothing clears the flag but the growth that set it. -/
theorem StorageOp.run_expanding (hm : m.expanding = true) (op : StorageOp) :
    (finalState ((op.run os).run m)).expanding = true := by
  have hreads (hop : op.reads = true) : (finalState ((op.run os).run m)).expanding = true := by
    obtain ⟨c, hfinal⟩ := run_reads os hop m
    rw [hfinal]
    exact hm
  have hflag (c : Call) (i : Nat) (b : Bool) :
      (finalState ((MemoryMap.writeFlag c i b).run m)).expanding = true := by
    unfold MemoryMap.writeFlag
    rw [run_bind_ok (MemoryMap.run_record c m), Tabble.run_onCore_final, MemoryMap.withCore_expanding]
    exact hm
  have hwrite (c : Call) (i : Nat) (put : EStateM Fault MemoryMapLinux Unit) :
      (finalState ((MemoryMap.write os c i put).run m)).expanding = true := by
    by_cases hi : i < m.core.getMaxLine
    · rw [MemoryMap.run_write_inside hi, Tabble.run_onCore_final, MemoryMap.withCore_expanding]
      exact hm
    · rw [Tabble.run_write_hang hm (Nat.le_of_not_lt hi)]
      exact hm
  cases op with
  | expand =>
      change (finalState ((MemoryMap.expand os none).run m)).expanding = true
      rw [Tabble.run_expand_hang hm]
      exact hm
  | isActive i => exact hreads rfl
  | readNumber i offset size => exact hreads rfl
  | readText i offset size => exact hreads rfl
  | activate i => exact hflag _ _ _
  | deactivate i => exact hflag _ _ _
  | writeNumber i offset value => exact hwrite _ _ _
  | writeText i offset value => exact hwrite _ _ _

theorem Holding.expand_refused (h : Holding start writes m) (w : Option Nat)
    (hrefused : os.grows m.core.calls (2 * m.core.fileSize) = false) :
    ∃ e m', (MemoryMap.expand os w).run m = .error e m' ∧ m'.expanding = true := by
  obtain ⟨e, core, hrun, -, -⟩ := h.live.expandFile_error hrefused
  have hexpand := MemoryMap.run_expand os w h.idle
  rw [hrun] at hexpand
  exact ⟨e, _, hexpand, rfl⟩

/-- A call that does not get the growth it asks for leaves the flag set. -/
theorem Holding.call_refused (h : Holding start writes m) {op : StorageOp} (hrefused : op.refused os m = true) :
    (finalState ((op.run os).run m)).expanding = true := by
  obtain ⟨hasks, hgrows⟩ := Bool.and_eq_true_iff.mp hrefused
  rw [Bool.not_eq_true'] at hgrows
  have hwrite {c : Call} {i : Nat} {put : EStateM Fault MemoryMapLinux Unit} (hi : m.getMaxLines ≤ i) :
      (finalState ((MemoryMap.write os c i put).run m)).expanding = true := by
    obtain ⟨e, m', hrun, hset⟩ := (h.logged c).expand_refused (some i) hgrows
    have hge : (m.logged c).core.getMaxLine ≤ i := hi
    unfold MemoryMap.write
    rw [run_bind_ok (MemoryMap.run_record c m), run_bind_ok (EStateM.run_get _), if_pos hge, run_bind_error hrun]
    exact hset
  cases op with
  | expand =>
      obtain ⟨e, m', hrun, hset⟩ := h.expand_refused none hgrows
      change (finalState ((MemoryMap.expand os none).run m)).expanding = true
      rw [hrun]
      exact hset
  | writeNumber i offset value => exact hwrite (of_decide_eq_true hasks)
  | writeText i offset value => exact hwrite (of_decide_eq_true hasks)
  | _ => cases hasks

theorem Holding.opened {file : ByteFile} {lineLength calls : Nat} {core : MemoryMapLinux} (hlength : 0 < lineLength)
    (hfit : lineLength * 100 < 2 ^ 64) (hfile : file.size = 0 ∨ MemoryMapLinux.Lines file lineLength)
    (hopen : (MemoryMapLinux.openFile os).run (MemoryMapLinux.closed file lineLength calls) = .ok () core) :
    Holding core.file.bytes [] ⟨core, false, []⟩ := by
  rcases MemoryMapLinux.openFile_outcome os file calls hfit with ⟨addr, hrun, htruncate, hmap⟩ | ⟨e, m', hrun, -⟩
  · rw [hopen] at hrun
    cases hrun
    have hlive := MemoryMapLinux.opened_live hlength hfile htruncate hmap
    refine ⟨rfl, hlive, List.forall_mem_nil _, fun k hk => (if_pos hk).symm, fun k hk => ?_⟩
    exact if_neg (Nat.not_lt_of_le hk)
  · rw [hopen] at hrun
    cases hrun

theorem StorageRun.states {failed : Bool} (h : StorageRun os failed start writes m) :
    (failed = false → Holding start writes m) ∧ (failed = true → m.expanding = true) := by
  have hstep {failed : Bool} {start : Nat → UInt8} {writes : List LineWrite} {m : MemoryMap} {op : StorageOp}
      (ih : (failed = false → Holding start writes m) ∧ (failed = true → m.expanding = true))
      (hfailed : (failed || op.refused os m) = true) : (finalState ((op.run os).run m)).expanding = true := by
    cases failed with
    | true => exact StorageOp.run_expanding (ih.2 rfl) op
    | false => exact (ih.1 rfl).call_refused hfailed
  induction h with
  | opened hlength hfit hfile hopen =>
      exact ⟨fun _ => .opened hlength hfit hfile hopen, fun hfailed => by cases hfailed⟩
  | returned _ haddressed hrun ih =>
      constructor
      · intro hfine
        obtain ⟨hfailed, hgranted⟩ := Bool.or_eq_false_iff.mp hfine
        have hpost := (ih.1 hfailed).call haddressed hgranted
        rw [hrun] at hpost
        cases hpost with
        | ok hkept => exact hkept
      · intro hfailed
        have hset := hstep ih hfailed
        rw [hrun] at hset
        exact hset
  | threw _ haddressed hrun hexception ih =>
      constructor
      · intro hfine
        obtain ⟨hfailed, hgranted⟩ := Bool.or_eq_false_iff.mp hfine
        have hpost := (ih.1 hfailed).call haddressed hgranted
        rw [hrun] at hpost
        cases hpost with
        | error hkept => exact hkept hexception
      · intro hfailed
        have hset := hstep ih hfailed
        rw [hrun] at hset
        exact hset

/-- After any calls the storage is usable exactly if no growth was refused. -/
theorem usable_iff_granted {failed : Bool} (h : StorageRun os failed start writes m) :
    Usable start writes m ↔ failed = false := by
  obtain ⟨hholding, hset⟩ := h.states
  constructor
  · intro husable
    cases failed with
    | false => rfl
    | true =>
        have hidle := husable.idle
        rw [hset rfl] at hidle
        cases hidle
  · intro hfailed
    exact (hholding hfailed).usable

end
/-- A new file of lines of five bytes. -/
def tinyOpened (os : Os) : MemoryMap :=
  ⟨finalState ((MemoryMapLinux.openFile os).run (MemoryMapLinux.closed .empty 5 0)), false, []⟩

def tinyWritten : MemoryMap :=
  finalState (((StorageOp.writeNumber 99 1 [1, 2, 3, 4]).run .reliable).run (tinyOpened .reliable))

def tinyGrown : MemoryMap := finalState ((StorageOp.expand.run .reliable).run tinyWritten)

theorem tinyOpened_run {os : Os} (h : isOk ((MemoryMapLinux.openFile os).run
    (MemoryMapLinux.closed .empty 5 0)) = true) :
    StorageRun os false (tinyOpened os).core.file.bytes [] (tinyOpened os) :=
  .opened (by decide) (by decide) (.inl rfl) (eq_ok_of_isOk h)

theorem usable_iff_granted_sample :
    Usable (tinyOpened .reliable).core.file.bytes [⟨99, 1, [1, 2, 3, 4]⟩] tinyGrown := by
  have haddressed : (StorageOp.writeNumber 99 1 [1, 2, 3, 4]).Addressed (tinyOpened .reliable).core.lineLength := by
    intro w hw
    rw [List.mem_singleton.mp hw]
    decide +kernel
  have hwritten : StorageRun .reliable _ _ [⟨99, 1, [1, 2, 3, 4]⟩] tinyWritten :=
    .returned (tinyOpened_run (by decide +kernel)) haddressed (eq_ok_of_isOk (by decide +kernel))
  have hgrown : StorageRun .reliable _ _ [⟨99, 1, [1, 2, 3, 4]⟩] tinyGrown :=
    .returned hwritten (show StorageOp.expand.Addressed _ from List.forall_mem_nil _)
      (eq_ok_of_isOk (by decide +kernel))
  exact (usable_iff_granted hgrown).mpr (by decide +kernel)

/-- The growth of a file that the system does not make larger leaves the flag set. -/
theorem growth_unusable : ¬ ∀ (os : Os) (failed : Bool) (start : Nat → UInt8) (writes : List LineWrite)
    (m : MemoryMap), StorageRun os failed start writes m → Usable start writes m := by
  intro h
  have hfault : fault ((StorageOp.expand.run .once).run (tinyOpened .once)) =
    some (.runtimeError (str "ftruncate failed")) := by decide +kernel
  have hopened : StorageRun .once false _ [] (tinyOpened .once) := tinyOpened_run (by decide +kernel)
  have hrun := hopened.threw (show StorageOp.expand.Addressed _ from List.forall_mem_nil _)
    (eq_error_of_fault hfault) rfl
  exact absurd (h _ _ _ _ _ hrun).idle (by decide +kernel)

end SQLid
