import SQLid.TabbleOpen

/-!
# The free list over whole runs

Any sequence of `insert`, `erase` of active lines, `update` and reopening keeps
the allocator in agreement with the flags in the file. A growth that fails and
undefined behaviour end a run; every other exception leaves a state from which
the run goes on.
-/
namespace SQLid
open Bytes (Text)

/-- After these a run has no next state. -/
def Fault.EndsRun (e : Fault) : Prop := e.IsGrowth ∨ e.isException = false

namespace Tabble

/-- Growth by the allocator finds every line active, and an insert marks a line of the file. -/
def AllocatorSafe (e : Call × MemoryMapLinux) : Prop :=
  (e.1 = .expand none → ∀ i < e.2.getMaxLine, e.2.flag i = true) ∧
    ∀ i, e.1 = .activate i → i < e.2.getMaxLine

theorem AllocatorSafe.of_inside {e : Call × MemoryMapLinux} (h : CallInside e) : AllocatorSafe e :=
  ⟨h.1, fun i hi => h.2 i (by rw [hi]; rfl)⟩

structure AllocatorInv (schema : TabbleInfo) (t : Tabble) : Prop where
  sound : t.Sound
  schema : t.info = schema
  log : ∀ e ∈ t.storage.log, AllocatorSafe e

section AllocatorInv
variable {schema : TabbleInfo} {t t' : Tabble} (h : AllocatorInv schema t)
include h

theorem AllocatorInv.logsInside (hl : LogsInside t t') : ∀ e ∈ t'.storage.log, AllocatorSafe e := by
  obtain ⟨l, hl, hin⟩ := hl
  intro e he
  rw [hl] at he
  exact (List.mem_append.mp he).elim (fun he => .of_inside (hin e he)) (h.log e)

theorem AllocatorInv.touches {P : Nat → Prop} (ht : Touches P t t')
    (hP : ∀ i, ¬ P (i * t.storage.core.lineLength)) : AllocatorInv schema t' :=
  ⟨ht.sound h.sound hP, ht.info.trans h.schema, h.logsInside ht.log⟩

theorem AllocatorInv.logged {c : Call} (hc : AllocatorSafe (c, t.storage.core)) :
    AllocatorInv schema (t.logged c) := by
  refine ⟨⟨⟨h.sound.layout, h.sound.lineLength, h.sound.live, h.sound.idle⟩, h.sound.pool⟩,
    h.schema, fun e he => ?_⟩
  rcases List.mem_cons.mp he with rfl | he
  · exact hc
  · exact h.log e he

/-- A writer may grow a file that has free lines. -/
theorem AllocatorInv.grown {i : Nat} (g : Grown (some i) t t') : AllocatorInv schema t' := by
  refine ⟨⟨g.mapped, g.pool h.sound.pool⟩, g.info.trans h.schema, fun e he => ?_⟩
  rw [g.log] at he
  rcases List.mem_cons.mp he with rfl | he
  · exact ⟨fun hc => by simp at hc, fun j hj => by cases hj⟩
  · exact h.log e he

end AllocatorInv

/-- Writing has left the active lines and their counter alone. -/
structure Wrote (t t' : Tabble) : Prop where
  active : t'.active = t.active
  places : t'.activePlaces = t.activePlaces
  grown : t.maxLines ≤ t'.maxLines

theorem Wrote.refl (t : Tabble) : Wrote t t := ⟨rfl, rfl, le_rfl⟩

theorem Wrote.trans {t t' t'' : Tabble} (h : Wrote t t') (h' : Wrote t' t'') : Wrote t t'' :=
  ⟨h'.active.trans h.active, h'.places.trans h.places, h.grown.trans h'.grown⟩

theorem Wrote.activeCount {t t' : Tabble} (h : Wrote t t') : t'.activeCount = t.activeCount := by
  rw [activeCount_eq, activeCount_eq, h.active]
  apply SlotPool.count_eq_of_false h.grown
  intro i hi _
  have hnot : ¬ i < t.maxLines := by omega
  simp [Tabble.active, hnot]

theorem Wrote.logged (t : Tabble) (c : Call) : Wrote t (t.logged c) := ⟨rfl, rfl, le_rfl⟩

theorem Grown.wrote {w : Option Nat} {t t' : Tabble} (g : Grown w t t') : Wrote t t' :=
  ⟨g.active, g.places, by rw [g.maxLines]; omega⟩

theorem Touches.wrote {P : Nat → Prop} {t t' : Tabble} (h : Touches P t t')
    (hP : ∀ i, ¬ P (i * t.storage.core.lineLength)) : Wrote t t' :=
  ⟨h.active hP, h.places, h.maxLines.ge⟩

/-! Writing to a line that may lie past the end of the file. -/

theorem onStorage_bind {α β : Type} (x : EStateM Fault MemoryMap α)
    (f : α → EStateM Fault MemoryMap β) (t : Tabble) :
    (onStorage (x >>= f)).run t = (onStorage x >>= fun a => onStorage (f a)).run t := by
  simp only [onStorage, Programs.run_zoom, EStateM.run_bind]
  cases x.run t.storage <;> rfl

theorem run_onStorage_logged {α : Type} {x y : EStateM Fault MemoryMap α} {t : Tabble} {c : Call}
    (h : x.run t.storage = y.run (t.storage.logged c)) :
    (onStorage x).run t = (onStorage y).run (t.logged c) := by
  have hy : (t.logged c).storage = t.storage.logged c := rfl
  simp only [onStorage, Programs.run_zoom, h, hy]
  cases y.run (t.storage.logged c) <;> rfl

theorem run_write_past {os : Os} {t : Tabble} {c : Call} {i : Nat}
    {put : EStateM Fault MemoryMapLinux Unit} (hi : t.maxLines ≤ i) :
    (onStorage (MemoryMap.write os c i put)).run t =
      (onStorage (MemoryMap.expand os (some i)) >>= fun _ =>
        onStorage (MemoryMap.onCore put)).run (t.logged c) := by
  have hge : (t.storage.logged c).core.getMaxLine ≤ i := hi
  have hrun : (MemoryMap.write os c i put).run t.storage =
      (MemoryMap.expand os (some i) >>= fun _ => MemoryMap.onCore put).run (t.storage.logged c) := by
    unfold MemoryMap.write
    rw [Programs.run_bind_ok (MemoryMap.run_record c _), Programs.run_bind_ok (EStateM.run_get _),
      if_pos hge]
  rw [← onStorage_bind]
  exact run_onStorage_logged hrun

/-- A value stored behind the flag of some line, or refused, or nowhere. -/
theorem AllocatorInv.put {schema : TabbleInfo} {t t' : Tabble} (h : AllocatorInv schema t) {i : Nat}
    (hwrap : i * schema.lineLength + schema.lineLength ≤ 2 ^ 64) {off : Nat} {bs msg : Text}
    (ho : 1 ≤ off) (ho' : off ≤ schema.lineLength)
    (hrun : Programs.Settles Fault.EndsRun
      ((onStorage (MemoryMap.onCore (MemoryMapLinux.writeBytes msg i off bs))).run t) t') :
    AllocatorInv schema t' ∧ Wrote t t' := by
  have hlive := h.sound.live
  have hlen : t.storage.core.lineLength = schema.lineLength := by
    rw [h.sound.lineLength, h.schema]
  rw [← hlen] at hwrap ho'
  by_cases hlong : t.storage.core.lineLength < off + bs.length
  · rw [run_onStorage_error (MemoryMap.run_onCore_error (hlive.mapping.writeBytes_long ho' hlong)),
      Programs.settles_error] at hrun
    obtain ⟨-, rfl⟩ := hrun
    exact ⟨h, .refl t⟩
  · by_cases hi : i < t.maxLines
    · rw [run_onStorage_ok (MemoryMap.run_onCore_ok (hlive.mapping.writeBytes hi (by omega))),
        Programs.settles_ok] at hrun
      obtain rfl := hrun
      have htouch := withBytes_touches t (i * t.storage.core.lineLength + off) bs
      have hflags (j : Nat) : ¬ (i * t.storage.core.lineLength + off ≤ j * t.storage.core.lineLength ∧
          j * t.storage.core.lineLength < i * t.storage.core.lineLength + off + bs.length) := fun hj =>
        MemoryMapLinux.line_data_ne_flag (i := i) (j := j) (L := t.storage.core.lineLength)
          (by omega) (by omega) rfl
      exact ⟨h.touches htouch hflags, htouch.wrote hflags⟩
    · rcases hlive.mapping.writeBytes_past (Nat.le_of_not_lt hi) hwrap msg
        (show off + bs.length ≤ t.storage.core.lineLength by omega) with hok | herr
      · rw [run_onStorage_ok (MemoryMap.run_onCore_ok hok), Programs.settles_ok] at hrun
        obtain rfl := hrun
        exact ⟨h, .refl t⟩
      · rw [run_onStorage_error (MemoryMap.run_onCore_error herr), Programs.settles_error] at hrun
        exact absurd (.inr rfl) hrun.1

theorem AllocatorInv.writeInfo {schema : TabbleInfo} {os : Os} {t t' : Tabble}
    (h : AllocatorInv schema t) {i : Nat}
    (hwrap : i * schema.lineLength + schema.lineLength ≤ 2 ^ 64) {off : Nat} {v : VariantTypes}
    (ho : 1 ≤ off) (ho' : off ≤ schema.lineLength)
    (hrun : Programs.Settles Fault.EndsRun
      ((onStorage (MemoryMap.writeInfo os i off v)).run t) t') :
    AllocatorInv schema t' ∧ Wrote t t' := by
  have hcall : ∀ m, AllocatorSafe (writeCall i v, m) := fun m => by
    cases v <;> exact ⟨(nomatch ·), fun _ => (nomatch ·)⟩
  have hlog := h.logged (hcall t.storage.core)
  rw [writeInfo_eq] at hrun
  by_cases hi : i < t.maxLines
  · rw [run_onStorage_logged (MemoryMap.run_write_inside hi)] at hrun
    obtain ⟨hinv, hwrote⟩ := hlog.put hwrap ho ho' hrun
    exact ⟨hinv, (Wrote.logged t _).trans hwrote⟩
  · rw [run_write_past (Nat.le_of_not_lt hi)] at hrun
    cases hg : os.grows t.storage.core.calls (2 * t.storage.core.fileSize) with
    | true =>
        obtain ⟨t₁, hexp, g⟩ := hlog.sound.expand_ok os (some i) hg
        rw [Programs.run_bind_ok hexp] at hrun
        obtain ⟨hinv, hwrote⟩ := (hlog.grown g).put hwrap ho ho' hrun
        exact ⟨hinv, (Wrote.logged t _).trans (g.wrote.trans hwrote)⟩
    | false =>
        obtain ⟨e, t₁, hexp, hgrowth, -⟩ := hlog.sound.expand_error os (some i) hg
        rw [Programs.run_bind_error hexp, Programs.settles_error] at hrun
        exact absurd (.inl hgrowth) hrun.1

theorem AllocatorInv.updateFrom {schema : TabbleInfo} {os : Os} {values : List VariantTypes}
    {i : Nat} (hwrap : i * schema.lineLength + schema.lineLength ≤ 2 ^ 64)
    {columns : List Column} (hc : ∀ c ∈ columns, c ∈ schema.columns) {t t' : Tabble}
    (h : AllocatorInv schema t) {k : Nat}
    (hrun : Programs.Settles Fault.EndsRun ((updateFrom os values i k columns).run t) t') :
    AllocatorInv schema t' ∧ Wrote t t' := by
  induction columns generalizing t k with
  | nil =>
      obtain rfl := Programs.settles_ok.mp hrun
      exact ⟨h, .refl t⟩
  | cons c columns ih =>
      have hlay : schema.Layout := h.schema ▸ h.sound.layout
      have hin := hlay.column_inside (hc c List.mem_cons_self)
      unfold Tabble.updateFrom at hrun
      cases hv : values[k]? with
      | none =>
          rw [hv] at hrun
          exact absurd (.inr rfl) (Programs.settles_error.mp hrun).1
      | some v =>
          rw [hv] at hrun
          rcases hrun.bind with ⟨_, t₁, hfirst, hrest⟩ | ⟨e, hfirst, hbad⟩
          · have hwritten := h.writeInfo hwrap hin.1 (by omega) (by rw [hfirst]; exact .ok _ t₁)
            obtain ⟨hinv, hwrote⟩ := ih (fun d hd => hc d (List.mem_cons_of_mem c hd)) hwritten.1 hrest
            exact ⟨hinv, hwritten.2.trans hwrote⟩
          · exact h.writeInfo hwrap hin.1 (by omega) (by rw [hfirst]; exact .error t' hbad)

theorem AllocatorInv.withHistory {schema : TabbleInfo} {t : Tabble} (h : AllocatorInv schema t)
    (l : List RowOp) : AllocatorInv schema (t.withHistory l) :=
  ⟨h.sound.withHistory l, h.schema, h.log⟩

theorem AllocatorInv.update {schema : TabbleInfo} {os : Os} {values : List VariantTypes}
    {i k : Nat} (hwrap : i * schema.lineLength + schema.lineLength ≤ 2 ^ 64)
    {columns : List Column} (hc : ∀ c ∈ columns, c ∈ schema.columns) {t t' : Tabble}
    (h : AllocatorInv schema t)
    (hrun : Programs.Settles Fault.EndsRun ((update os values columns i k).run t) t') :
    AllocatorInv schema t' ∧ Wrote t t' := by
  rw [run_update] at hrun
  obtain ⟨hinv, hwrote⟩ := (h.withHistory _).updateFrom hwrap hc hrun
  exact ⟨hinv, hwrote.active, hwrote.places, hwrote.grown⟩

theorem AllocatorInv.started {schema : TabbleInfo} {t t' : Tabble} {cur : Nat}
    (h : AllocatorInv schema t) (s : Started t t' cur) : AllocatorInv schema t' :=
  ⟨s.sound, s.info.trans h.schema, h.logsInside s.log⟩

theorem columns_of {schema info : TabbleInfo} (h : info = schema) :
    ∀ c ∈ schema.columns, c ∈ info.columns := fun _ hc => h ▸ hc

theorem AllocatorInv.insert {schema : TabbleInfo} {os : Os} {values : List VariantTypes}
    {index : Nat} {t t' : Tabble} (h : AllocatorInv schema t)
    (hrun : Programs.Settles Fault.EndsRun
      ((insert os values schema.columns index).run t) t') : AllocatorInv schema t' := by
  rcases h.sound.insert_outcome os values index (columns_of h.schema) with
    ⟨cur, t₁, s, hok | ⟨e, herr, -⟩⟩ | ⟨-, e, t₁, herr, hgrowth, -⟩
  · rw [hok, Programs.settles_ok] at hrun
    obtain rfl := hrun
    have h₁ := h.started s
    exact ⟨⟨⟨h₁.sound.layout, h₁.sound.lineLength, h₁.sound.live, h₁.sound.idle⟩, h₁.sound.pool⟩,
      h₁.schema, h₁.log⟩
  · rw [herr, Programs.settles_error] at hrun
    obtain ⟨-, rfl⟩ := hrun
    exact h.started s
  · rw [herr, Programs.settles_error] at hrun
    exact absurd (.inl hgrowth) hrun.1

theorem AllocatorInv.erase {schema : TabbleInfo} {i : Nat} {t t' : Tabble}
    (h : AllocatorInv schema t) (hi : t.active i = true)
    (hrun : Programs.Settles Fault.EndsRun ((erase i).run t) t') : AllocatorInv schema t' := by
  obtain ⟨t₁, hok, e⟩ := h.sound.erase_ok hi
  rw [hok, Programs.settles_ok] at hrun
  obtain rfl := hrun
  exact ⟨e.sound, e.info.trans h.schema, h.logsInside e.log⟩

/-- The states of a table that starts from an empty storage file. An update may
address any line whose bytes have addresses that do not wrap. -/
inductive Reachable (os : Os) (schema : TabbleInfo) : Tabble → Prop
  | start {calls : Nat} {t : Tabble} :
      openFile os schema .empty calls = .ok () t → Reachable os schema t
  | insert {t t' : Tabble} (values : List VariantTypes) (index : Nat) : Reachable os schema t →
      Programs.Settles Fault.EndsRun ((insert os values schema.columns index).run t) t' →
      Reachable os schema t'
  | erase {t t' : Tabble} {i : Nat} : Reachable os schema t → t.active i = true →
      Programs.Settles Fault.EndsRun ((erase i).run t) t' → Reachable os schema t'
  | update {t t' : Tabble} (values : List VariantTypes) {columns : List Column} {i : Nat} (k : Nat) :
      Reachable os schema t → (∀ c ∈ columns, c ∈ schema.columns) →
      i * schema.lineLength + schema.lineLength ≤ 2 ^ 64 →
      Programs.Settles Fault.EndsRun ((update os values columns i k).run t) t' →
      Reachable os schema t'
  | reopen {t t' : Tabble} : Reachable os schema t → reopen os t = .ok () t' →
      Reachable os schema t'

theorem Reachable.inv {os : Os} {schema : TabbleInfo} (hlay : schema.Layout)
    (hfit : schema.lineLength * 100 < 2 ^ 64) {t : Tabble} (h : Reachable os schema t) :
    AllocatorInv schema t := by
  induction h with
  | @start calls t hopen =>
      have hempty : ByteFile.empty.size = 0 := rfl
      rcases openFile_outcome os calls hlay hfit (.inl hempty) with ⟨t₁, hok, o⟩ | ⟨e, t₁, herr, -⟩
      · rw [hok] at hopen
        cases hopen
        exact ⟨o.sound, o.info, fun e he => .of_inside (o.log e he)⟩
      · rw [herr] at hopen
        cases hopen
  | insert values index _ hrun ih => exact ih.insert hrun
  | erase _ hi hrun ih => exact ih.erase hi hrun
  | update values k _ hc hwrap hrun ih => exact (ih.update hwrap hc hrun).1
  | reopen _ hopen ih =>
      rcases ih.sound.toMapped.reopen_outcome os (by rw [ih.schema]; exact hfit) with
        ⟨t₁, hok, r⟩ | ⟨e, t₁, herr, -⟩
      · rw [hok] at hopen
        cases hopen
        exact ⟨r.sound, r.info.trans ih.schema, fun e he => .of_inside (r.log e he)⟩
      · rw [herr] at hopen
        cases hopen

/-- The free list is exactly the inactive lines below `freeId`, every line in use is
below `freeId` and in the file, inserts mark lines of the file only, and the
allocator grows none but a full file. -/
theorem free_list_exact {os : Os} {schema : TabbleInfo} (hlay : schema.Layout)
    (hfit : schema.lineLength * 100 < 2 ^ 64) {t : Tabble} (h : Reachable os schema t) :
    t.stackFreeId.Nodup ∧
      (∀ i, i ∈ t.stackFreeId ↔ i < t.freeId ∧ t.active i = false) ∧
      (∀ i, t.freeId ≤ i → t.active i = false) ∧
      t.freeId ≤ t.storage.getMaxLines ∧
      (∀ i m, (Call.activate i, m) ∈ t.storage.log → i < m.getMaxLine) ∧
      ∀ m, (Call.expand none, m) ∈ t.storage.log → ∀ i < m.getMaxLine, m.flag i = true := by
  have hinv := h.inv hlay hfit
  have hs := hinv.sound
  refine ⟨hs.pool.nodup, fun i => ?_, fun i hi => ?_, hs.freeId_le,
    fun i m hm => (hinv.log _ hm).2 i rfl, fun m hm => (hinv.log _ hm).1 rfl⟩
  · have hmem : i ∈ t.stackFreeId ↔ i < t.freeId ∧ t.flag i = false := hs.pool.mem_stack i
    have hle := hs.freeId_le
    rw [hmem]
    refine and_congr_right fun hi => ?_
    rw [active_of_lt (by omega)]
  · by_contra hact
    have := hs.active_lt (by simpa using hact)
    omega

/-! A table with one number. -/

def sampleInfo : TabbleInfo where
  lineLength := 5
  columnsNumber := 1
  columns := [⟨CppText.str "n", 1, .int32, 4⟩]
  columnsMap := [(CppText.str "n", 0)]

theorem sampleInfo_layout : sampleInfo.Layout :=
  ⟨rfl, by decide, ⟨rfl, trivial⟩, by decide, by decide⟩

def sampleOpened : Tabble := Programs.finalState (openFile .reliable sampleInfo .empty 0)

theorem sampleOpened_opens : openFile .reliable sampleInfo .empty 0 = .ok () sampleOpened :=
  Programs.eq_ok_of_isOk (by decide +kernel)

theorem sampleOpened_idle : sampleOpened.storage.expanding = false := by decide +kernel

def sampleInserted (t : Tabble) (n : BitVec 32) : Tabble :=
  Programs.finalState ((insert .reliable [.int32 n] sampleInfo.columns 0).run t)

def sampleErased : Tabble :=
  Programs.finalState ((erase 0).run (sampleInserted (sampleInserted sampleOpened 7) 8))

theorem sampleErased_reachable : Reachable .reliable sampleInfo sampleErased := by
  have hopen : Reachable .reliable sampleInfo sampleOpened := .start sampleOpened_opens
  have h₁ : Reachable .reliable sampleInfo (sampleInserted sampleOpened 7) :=
    .insert _ _ hopen (Programs.settles_of_isOk (by decide +kernel))
  have h₂ : Reachable .reliable sampleInfo (sampleInserted (sampleInserted sampleOpened 7) 8) :=
    .insert _ _ h₁ (Programs.settles_of_isOk (by decide +kernel))
  exact .erase h₂ (by decide +kernel) (Programs.settles_of_isOk (by decide +kernel))

/-- After two inserts and one erase the freed line is the free list. -/
theorem free_list_exact_sample : sampleErased.stackFreeId = [0] ∧ sampleErased.freeId = 2 ∧
    ∀ i, i ∈ sampleErased.stackFreeId ↔ i < sampleErased.freeId ∧ sampleErased.active i = false :=
  ⟨by decide +kernel, by decide +kernel,
    (free_list_exact sampleInfo_layout (by decide) sampleErased_reachable).2.1⟩

/-! `a STRING[18446744073709551600] b TEXT`: the sum of the sizes wraps, and column
`b` starts fifteen bytes before the line it belongs to. -/

def wrappedInfo : TabbleInfo where
  lineLength := 113
  columnsNumber := 2
  columns := [⟨CppText.str "a", 1, .string, 2 ^ 64 - 16⟩,
    ⟨CppText.str "b", 2 ^ 64 - 15, .text, 128⟩]
  columnsMap := [(CppText.str "a", 0), (CppText.str "b", 1)]

def wrappedOpened : Tabble := Programs.finalState (openFile .reliable wrappedInfo .empty 0)

def wrappedInserted (t : Tabble) : Tabble :=
  Programs.finalState
    ((insert .reliable [.string [], .string []] wrappedInfo.columns 0).run t)

/-- Fifteen letters and a zero byte for column `b`. -/
def flagText : Text := List.replicate 15 120 ++ [0]

def wrappedUpdated : Tabble :=
  Programs.finalState ((update .reliable [.string flagText] (wrappedInfo.columns.drop 1) 1 0).run
    (wrappedInserted (wrappedInserted wrappedOpened)))

theorem wrappedUpdated_reachable : Reachable .reliable wrappedInfo wrappedUpdated := by
  have hopen : Reachable .reliable wrappedInfo wrappedOpened :=
    .start (Programs.eq_ok_of_isOk (by decide +kernel))
  have h₁ : Reachable .reliable wrappedInfo (wrappedInserted wrappedOpened) :=
    .insert _ _ hopen (Programs.settles_of_isOk (by decide +kernel))
  have h₂ : Reachable .reliable wrappedInfo (wrappedInserted (wrappedInserted wrappedOpened)) :=
    .insert _ _ h₁ (Programs.settles_of_isOk (by decide +kernel))
  exact .update _ _ h₂ (fun c hc => List.mem_of_mem_drop hc) (by decide)
    (Programs.settles_of_isOk (by decide +kernel))

/-- The update of the second row clears the row's flag, and nobody puts the line on the stack. -/
theorem wrapped_update_loses_line :
    ¬ ∀ (os : Os) (schema : TabbleInfo) (t : Tabble), 0 < schema.lineLength →
      schema.lineLength * 100 < 2 ^ 64 → Reachable os schema t →
      t.stackFreeId.Nodup ∧
        (∀ i, i ∈ t.stackFreeId ↔ i < t.freeId ∧ t.active i = false) ∧
        (∀ i, t.freeId ≤ i → t.active i = false) ∧
        t.freeId ≤ t.storage.getMaxLines ∧
        (∀ i m, (Call.activate i, m) ∈ t.storage.log → i < m.getMaxLine) ∧
        ∀ m, (Call.expand none, m) ∈ t.storage.log → ∀ i < m.getMaxLine, m.flag i = true := by
  intro h
  have hlist := (h _ _ _ (by decide) (by decide) wrappedUpdated_reachable).2.1 1
  have hfreed : 1 < wrappedUpdated.freeId ∧ wrappedUpdated.active 1 = false := by decide +kernel
  have hempty : wrappedUpdated.stackFreeId = [] := by decide +kernel
  have hmem := hlist.mpr hfreed
  rw [hempty] at hmem
  exact absurd hmem List.not_mem_nil

end Tabble
end SQLid
