import SQLid.TabbleOps

/-!
# How lines come to life and go

`insert`, `erase` and the reconstruction on open, each as a change of the set of
active lines of a sound table.
-/
namespace SQLid
open Bytes (Text)
open CppText (str)

namespace Tabble

/-- A line of the file whose flag is set. -/
def active (t : Tabble) (i : Nat) : Bool := decide (i < t.maxLines) && t.flag i

theorem active_iff {t : Tabble} {i : Nat} : t.active i = true ↔ i < t.maxLines ∧ t.flag i = true := by
  simp [active]

theorem active_of_lt {t : Tabble} {i : Nat} (h : i < t.maxLines) : t.active i = t.flag i := by
  simp [active, h]

theorem active_congr {t t' : Tabble} (hm : t'.maxLines = t.maxLines) (hf : t'.flag = t.flag) :
    t'.active = t.active := by
  funext i
  simp only [active, hm, hf]

theorem Touches.active {P : Nat → Prop} {t t' : Tabble} (h : Touches P t t')
    (hP : ∀ i, ¬ P (i * t.storage.core.lineLength)) : t'.active = t.active :=
  active_congr h.maxLines (funext fun i => h.flag (hP i))

theorem activeCount_eq (t : Tabble) :
    t.activeCount = Nat.count (fun i => t.active i = true) t.maxLines :=
  SlotPool.count_congr fun _ hi => (active_of_lt hi).symm

/-- Active lines are below `freeId`. -/
theorem Sound.active_lt {t : Tabble} (h : t.Sound) {i : Nat} (hi : t.active i = true) :
    i < t.freeId := by
  obtain ⟨hlt, hf⟩ := active_iff.mp hi
  by_contra hge
  have hfree : t.flag i = false := h.pool.above i (Nat.le_of_not_lt hge) hlt
  rw [hf] at hfree
  cases hfree

theorem Sound.freeId_le {t : Tabble} (h : t.Sound) : t.freeId ≤ t.maxLines := h.pool.top_le

def withHistory (t : Tabble) (l : List RowOp) : Tabble := { t with history := l }

theorem Sound.withHistory {t : Tabble} (h : t.Sound) (l : List RowOp) : (t.withHistory l).Sound :=
  ⟨⟨h.layout, h.lineLength, h.live, h.idle⟩, h.pool⟩

theorem run_note (op : RowOp) (t : Tabble) :
    (note op).run t = .ok () (t.withHistory (t.history ++ [op])) := rfl

/-! `insert`. -/

/-- A line has been allocated and marked; what its columns hold is left open. -/
structure Started (t t' : Tabble) (cur : Nat) : Prop where
  sound : t'.Sound
  info : t'.info = t.info
  cur_lt : cur < t'.maxLines
  free : t.active cur = false
  active : t'.active = Function.update t.active cur true
  grown : t.maxLines ≤ t'.maxLines
  bytes : ∀ i < t.maxLines, i ≠ cur → ∀ k, InLine t.info.lineLength i k → t'.byte k = t.byte k
  history : t'.history = t.history ++ [.insert cur, .update cur]
  counters : (cur < t.freeId ∧ t'.freeId = t.freeId ∧ t'.activePlaces = t.activePlaces) ∨
    (cur = t.freeId ∧ t'.freeId = t.freeId + 1 ∧ t'.activePlaces = sizeAdd t.activePlaces 1)
  log : LogsInside t t'

theorem Mapped.line_end_le {t : Tabble} (h : t.Mapped) {i : Nat} (hi : i < t.maxLines) :
    i * t.info.lineLength + t.info.lineLength ≤ t.storage.core.fileSize := by
  rw [← h.lineLength]
  exact MemoryMapLinux.line_end_le hi

theorem not_inLine_of_ne {L i j k : Nat} (hij : i ≠ j) (h : InLine L i k) : ¬ InLine L j k := by
  rintro ⟨hj, hj'⟩
  obtain ⟨hi, hi'⟩ := h
  rcases Nat.lt_or_gt_of_ne hij with hlt | hlt
  · have := Nat.mul_le_mul_right L (Nat.succ_le_of_lt hlt)
    rw [Nat.succ_mul] at this
    omega
  · have := Nat.mul_le_mul_right L (Nat.succ_le_of_lt hlt)
    rw [Nat.succ_mul] at this
    omega

theorem Allocated.active {t t' : Tabble} {cur : Nat} (a : Allocated t t' cur) :
    t'.active = t.active := by
  funext i
  have hgrown := a.grown
  by_cases hi : i < t.maxLines
  · rw [active_of_lt hi, active_of_lt (by omega), a.flag_old i hi]
  · have hnot : t.active i = false := by simp [Tabble.active, hi]
    rw [hnot]
    rcases a.flag_new i (Nat.le_of_not_lt hi) with hf | hm
    · simp [Tabble.active, hf]
    · simp [Tabble.active, hm, hi]

theorem flag_activate {t : Tabble} (hL : 0 < t.storage.core.lineLength) (c : Call) (i : Nat)
    (b : Bool) :
    ((t.logged c).withBytes (i * t.storage.core.lineLength) (VariantTypes.bool b).bytes).flag =
      Function.update t.flag i b := by
  have h := MemoryMapLinux.flag_setBytes_flag (i := i) hL (if b then 1 else 0)
  cases b <;> exact h

/-- The flag of a line set by an insert, both of its notes taken. -/
def marked (t : Tabble) (cur : Nat) : Tabble :=
  ((t.withHistory (t.history ++ [.insert cur])).logged (.activate cur)).withBytes
    (cur * t.storage.core.lineLength) (VariantTypes.bool true).bytes |>.withHistory
      (t.history ++ [.insert cur, .update cur])

/-- Setting the flag of the allocated line. -/
theorem Allocated.started {t t' : Tabble} {cur : Nat} (a : Allocated t t' cur)
    (hpos : t.Mapped) : Started t (t'.marked cur) cur := by
  have hL := a.mapped.live.lineLength_pos
  have hlen : t'.storage.core.lineLength = t.info.lineLength := by
    rw [a.mapped.lineLength, a.info]
  have hflag := flag_activate (t := t') hL (.activate cur) cur true
  refine ⟨⟨⟨a.mapped.layout, a.mapped.lineLength, a.mapped.live.setBytes _ _, a.mapped.idle⟩, ?_⟩,
    a.info, a.cur_lt, ?_, ?_, a.grown, ?_, ?_, a.counters,
    a.log.trans (.one (e := (.activate cur, t'.storage.core)) (callInside_line rfl a.cur_lt) rfl)⟩
  · have hpool := a.pool
    rw [← hflag] at hpool
    exact hpool
  · rw [← a.active, active_of_lt a.cur_lt, a.cur_free]
  · rw [← a.active]
    funext i
    by_cases hi : i = cur
    · subst hi
      rw [Function.update_self, active_iff]
      exact ⟨a.cur_lt, (congrFun hflag i).trans (Function.update_self ..)⟩
    · rw [Function.update_of_ne hi]
      have hf := congrFun hflag i
      rw [Function.update_of_ne hi] at hf
      simp only [Tabble.active]
      exact congrArg (decide (i < t'.maxLines) && ·) hf
  · intro i hi hne k hk
    have hend := hpos.line_end_le hi
    have hkflag : k ≠ cur * t.info.lineLength :=
      MemoryMapLinux.line_data_ne_flag hk.1 hk.2
    rw [← a.byte_old k (by have := hk.2; omega)]
    refine Bytes.blit_of_not_mem ?_
    rw [hlen]
    simp only [VariantTypes.bytes, List.length_singleton]
    omega
  · change t'.history ++ _ = _
    rw [a.history]

/-- The columns of the new line may be written without losing any of this. -/
theorem Started.touches {t t' t'' : Tabble} {cur : Nat} (s : Started t t' cur)
    (h : Touches (InLine t.info.lineLength cur) t' t'') : Started t t'' cur := by
  have hnot : ∀ i, ¬ InLine t.info.lineLength cur (i * t'.storage.core.lineLength) := by
    intro i
    rw [s.sound.lineLength, s.info]
    exact not_inLine_flag _ _ _
  refine ⟨h.sound s.sound hnot, h.info.trans s.info, by rw [h.maxLines]; exact s.cur_lt, s.free,
    (h.active hnot).trans s.active, by rw [h.maxLines]; exact s.grown, ?_,
    h.history.trans s.history, by rw [h.freeId, h.places]; exact s.counters,
    s.log.trans h.log⟩
  · intro i hi hne k hk
    rw [h.byte (not_inLine_of_ne hne hk), s.bytes i hi hne k hk]

/-- `activePlaces.fetch_add(1)`. -/
def addPlace (t : Tabble) : Tabble := { t with activePlaces := sizeAdd t.activePlaces 1 }

/-- What is left of `insert` once a line has been allocated. -/
theorem Allocated.run_insert {os : Os} {t t' : Tabble} {cur : Nat} (a : Allocated t t' cur)
    (hrun : (allocateId os).run t = .ok cur t') (values : List VariantTypes)
    (columns : List Column) (index : Nat) :
    (insert os values columns index).run t =
      match (updateFrom os values cur index columns).run (t'.marked cur) with
      | .ok _ t₂ => .ok cur t₂.addPlace
      | .error e t₂ => .error e t₂ := by
  have hmapped : (t'.withHistory (t'.history ++ [.insert cur])).Mapped :=
    ⟨a.mapped.layout, a.mapped.lineLength, a.mapped.live, a.mapped.idle⟩
  have hflag : (onStorage (MemoryMap.activate cur)).run
      (t'.withHistory (t'.history ++ [.insert cur])) = _ := hmapped.writeFlag a.cur_lt true
  rw [← hmapped.lineLength] at hflag
  unfold insert update
  rw [Programs.run_bind_ok hrun, Programs.run_bind_ok (run_note _ _), Programs.run_bind_ok hflag,
    bind_assoc, Programs.run_bind_ok (run_note _ _)]
  have hhist : ∀ op op' : RowOp, t'.history ++ [op] ++ [op'] = t'.history ++ [op, op'] := by
    intro op op'
    rw [List.append_assoc]
    rfl
  simp only [marked, withBytes, withCore, logged, withHistory, hhist]
  cases hup : (updateFrom os values cur index columns).run _ with
  | ok a t₂ => rw [Programs.run_bind_ok hup]; rfl
  | error e t₂ => rw [Programs.run_bind_error hup]

/-- The faults the column loop of `update` raises. -/
def UpdateFault (values : List VariantTypes) (k : Nat) (columns : List Column) (e : Fault) : Prop :=
  (e = .undefined ∧ values.length < k + columns.length) ∨ ∃ v, e = .runtimeError (tooLong v)

section Insert
variable {t : Tabble} (h : t.Sound) (os : Os) (values : List VariantTypes) {columns : List Column}
  (index : Nat) (hc : ∀ c ∈ columns, c ∈ t.info.columns)
include h hc

/-- An insert that finds room marks a free line, also when a value stops it half way. -/
theorem Sound.insert_outcome :
    (∃ cur t', Started t t' cur ∧
      ((insert os values columns index).run t = .ok cur t'.addPlace ∨
        ∃ e, (insert os values columns index).run t = .error e t' ∧
          UpdateFault values index columns e)) ∨
      (Stuck os t ∧
        ∃ e t', (insert os values columns index).run t = .error e t' ∧ e.IsGrowth ∧ Broken t t') := by
  rcases h.allocateId_outcome os with ⟨cur, t₁, halloc, a⟩ | ⟨hstuck, e, t', halloc, hgrowth⟩
  · have hstart := a.started h.toMapped
    have hrun := a.run_insert halloc values columns index
    obtain ⟨t₃, htouch, hcases⟩ := hstart.sound.updateFrom_outcome os hstart.cur_lt
      values (fun c hcm => by rw [hstart.info]; exact hc c hcm) index
    rw [hstart.info] at htouch
    refine .inl ⟨cur, t₃, hstart.touches htouch, ?_⟩
    rw [hrun]
    rcases hcases with hok | ⟨herr, hlen⟩ | ⟨v, herr⟩
    · exact .inl (by rw [hok])
    · exact .inr ⟨_, by rw [herr], .inl ⟨rfl, hlen⟩⟩
    · exact .inr ⟨_, by rw [herr], .inr ⟨v, rfl⟩⟩
  · refine .inr ⟨hstuck, e, t', ?_, hgrowth⟩
    unfold insert
    rw [Programs.run_bind_error halloc]

/-- When every value fits behind its offset, an insert that finds room stores them all. -/
theorem Sound.insert_ok
    (hfit : ∀ j c, columns[j]? = some c → ∃ v, values[index + j]? = some v ∧
      c.offset + v.bytes.length ≤ t.info.lineLength) :
    (∃ cur t' f, Started t t' cur ∧
      (insert os values columns index).run t = .ok cur t'.addPlace ∧
        t'.byte = storeValues f (cur * t.info.lineLength) values index columns) ∨
      (Stuck os t ∧
        ∃ e t', (insert os values columns index).run t = .error e t' ∧ e.IsGrowth ∧ Broken t t') := by
  rcases h.allocateId_outcome os with ⟨cur, t₁, halloc, a⟩ | ⟨hstuck, e, t', halloc, hgrowth⟩
  · have hstart := a.started h.toMapped
    have hrun := a.run_insert halloc values columns index
    obtain ⟨t₃, hok, htouch, hbyte⟩ := hstart.sound.updateFrom_ok os hstart.cur_lt
      values index (fun c hcm => by rw [hstart.info]; exact hc c hcm)
      (by rw [hstart.info]; exact hfit)
    rw [hstart.info] at htouch hbyte
    exact .inl ⟨cur, t₃, (t₁.marked cur).byte, hstart.touches htouch, by rw [hrun, hok], hbyte⟩
  · refine .inr ⟨hstuck, e, t', ?_, hgrowth⟩
    unfold insert
    rw [Programs.run_bind_error halloc]

end Insert

/-! `update` as a whole. -/

theorem run_update (os : Os) (values : List VariantTypes) (columns : List Column) (cur k : Nat)
    (t : Tabble) : (update os values columns cur k).run t =
      (updateFrom os values cur k columns).run (t.withHistory (t.history ++ [.update cur])) :=
  Programs.run_bind_ok (run_note _ _)

/-! `erase`. -/

/-- `pushInStack` and `activePlaces.fetch_sub(1)`. -/
def released (t : Tabble) (i : Nat) : Tabble :=
  { t with stackFreeId := i :: t.stackFreeId, activePlaces := sizeSub t.activePlaces 1 }

structure Erased (t t' : Tabble) (i : Nat) : Prop where
  sound : t'.Sound
  info : t'.info = t.info
  maxLines : t'.maxLines = t.maxLines
  active : t'.active = Function.update t.active i false
  bytes : ∀ j k, InLine t.info.lineLength j k → t'.byte k = t.byte k
  freeId : t'.freeId = t.freeId
  stack : t'.stackFreeId = i :: t.stackFreeId
  places : t'.activePlaces = sizeSub t.activePlaces 1
  history : t'.history = t.history ++ [.erase i]
  log : LogsInside t t'

theorem Sound.erase_ok {t : Tabble} {i : Nat} (h : t.Sound) (hi : t.active i = true) :
    ∃ t', (erase i).run t = .ok i t' ∧ Erased t t' i := by
  obtain ⟨hlt, hf⟩ := active_iff.mp hi
  have hL := h.live.lineLength_pos
  have hm := h.withHistory (t.history ++ [.erase i])
  have hflag : (onStorage (MemoryMap.deactivate i)).run (t.withHistory (t.history ++ [.erase i])) = _ :=
    hm.writeFlag hlt false
  rw [← hm.lineLength] at hflag
  have hupd := flag_activate (t := t) hL (.deactivate i) i false
  refine ⟨(((t.withHistory (t.history ++ [.erase i])).logged (.deactivate i)).withBytes
    (i * t.storage.core.lineLength) (VariantTypes.bool false).bytes).released i, ?_, ?_⟩
  · unfold erase
    rw [Programs.run_bind_ok (run_note _ _), Programs.run_bind_ok hflag]
    rfl
  · refine ⟨⟨⟨h.layout, h.lineLength, h.live.setBytes _ _, h.idle⟩, ?_⟩, rfl, rfl, ?_, ?_, rfl, rfl,
      rfl, rfl, .one (e := (.deactivate i, t.storage.core)) (callInside_line rfl hlt) rfl⟩
    · have hpool : (SlotPool.Pool.mk (Function.update t.flag i false) (i :: t.stackFreeId) t.freeId
          t.maxLines).Inv := h.pool.release hlt hf
      rw [← hupd] at hpool
      exact hpool
    · funext j
      by_cases hj : j = i
      · subst hj
        rw [Function.update_self]
        have := congrFun hupd j
        rw [Function.update_self] at this
        simp only [Tabble.active]
        exact Bool.and_eq_false_iff.mpr (.inr this)
      · rw [Function.update_of_ne hj]
        have hne := congrFun hupd j
        rw [Function.update_of_ne hj] at hne
        simp only [Tabble.active]
        exact congrArg (decide (j < t.maxLines) && ·) hne
    · intro j k hk
      have hkflag : k ≠ i * t.info.lineLength := MemoryMapLinux.line_data_ne_flag hk.1 hk.2
      refine Bytes.blit_of_not_mem ?_
      rw [h.lineLength]
      simp only [VariantTypes.bytes, List.length_singleton]
      omega

end Tabble
end SQLid
