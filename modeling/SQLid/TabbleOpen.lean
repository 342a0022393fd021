import SQLid.TabbleLife

/-!
# Opening a table

The three passes of `analyzeHoles` over the flags of the file compute the pool
that the flags determine, whatever allocator state was there before the object
was destroyed.
-/
namespace SQLid
open Bytes (Text)
open SlotPool (lastUsed holes)

namespace Tabble

/-- Nothing but the allocator and the log differs. -/
structure Scanned (t t' : Tabble) : Prop where
  info : t'.info = t.info
  core : t'.storage.core = t.storage.core
  expanding : t'.storage.expanding = t.storage.expanding
  history : t'.history = t.history
  log : LogsInside t t'

def allocator (t : Tabble) : List Nat × Nat × Nat := (t.stackFreeId, t.freeId, t.activePlaces)

section Scanned
variable {t t' t'' : Tabble}

theorem Scanned.refl (t : Tabble) : Scanned t t := ⟨rfl, rfl, rfl, rfl, .refl t⟩

theorem Scanned.trans (h : Scanned t t') (h' : Scanned t' t'') : Scanned t t'' :=
  ⟨h'.info.trans h.info, h'.core.trans h.core, h'.expanding.trans h.expanding,
    h'.history.trans h.history, h.log.trans h'.log⟩

theorem Scanned.flag (h : Scanned t t') : t'.flag = t.flag := by
  funext i
  simp only [Tabble.flag, h.core]

theorem Scanned.maxLines (h : Scanned t t') : t'.maxLines = t.maxLines := by
  simp only [Tabble.maxLines, h.core]

theorem Scanned.byte (h : Scanned t t') : t'.byte = t.byte := by
  simp only [Tabble.byte, h.core]

theorem Scanned.mapped (h : Scanned t t') (hm : t.Mapped) : t'.Mapped :=
  ⟨by rw [h.info]; exact hm.layout, by rw [h.core, h.info, hm.lineLength],
    by rw [h.core]; exact hm.live, by rw [h.expanding, hm.idle]⟩

theorem logged_scanned {i : Nat} (hi : i < t.maxLines) : Scanned t (t.logged (.isActive i)) :=
  ⟨rfl, rfl, rfl, rfl, .one (callInside_line rfl hi) rfl⟩

end Scanned

theorem Mapped.skipActive_run {t : Tabble} (h : t.Mapped) (n ind : Nat)
    (hn : ind + n ≤ t.maxLines) :
    ∃ r t', (skipActive n ind).run t = .ok r t' ∧ Scanned t t' ∧ t'.allocator = t.allocator ∧
      ((r = ind + n ∧ ∀ i, ind ≤ i → i < r → t.flag i = true) ∨ r < ind + n) := by
  induction n generalizing t ind with
  | zero => exact ⟨ind, t, rfl, .refl t, rfl, .inl ⟨rfl, fun i _ _ => by omega⟩⟩
  | succ n ih =>
    have hcall := h.isActive (i := ind) (by omega)
    have hstep := logged_scanned (t := t) (i := ind) (by omega)
    cases hf : t.flag ind with
    | false =>
        refine ⟨ind, _, ?_, hstep, rfl, .inr (by omega)⟩
        unfold skipActive
        rw [Programs.run_bind_ok hcall, hf]
        rfl
    | true =>
        obtain ⟨r, t', hrun, hscan, halloc, hcases⟩ := ih (hstep.mapped h) (ind + 1)
          (by rw [hstep.maxLines]; omega)
        refine ⟨r, t', ?_, hstep.trans hscan, halloc, ?_⟩
        · unfold skipActive
          rw [Programs.run_bind_ok hcall, hf, if_pos rfl, hrun]
        · rcases hcases with ⟨hr, hall⟩ | hr
          · refine .inl ⟨by omega, fun i hi hir => ?_⟩
            rcases Nat.eq_or_lt_of_le hi with rfl | hlt
            · exact hf
            · rw [← hstep.flag]
              exact hall i hlt hir
          · exact .inr (by omega)

/-- The second pass keeps `freeId` and `activePlaces` exact for the lines it has seen. -/
theorem Mapped.countActive_run {t : Tabble} (h : t.Mapped) {n i : Nat} (hn : i + n ≤ t.maxLines)
    (hfree : t.freeId = lastUsed t.flag i)
    (hplaces : t.activePlaces = Nat.count (fun j => t.flag j = true) i) :
    ∃ t', (countActive n i).run t = .ok () t' ∧ Scanned t t' ∧
      t'.allocator = (t.stackFreeId, lastUsed t.flag (i + n),
        Nat.count (fun j => t.flag j = true) (i + n)) := by
  induction n generalizing t i with
  | zero => exact ⟨t, rfl, .refl t, by simp [allocator, hfree, hplaces]⟩
  | succ n ih =>
    have hcall := h.isActive (i := i) (by omega)
    have hstep := logged_scanned (t := t) (i := i) (by omega)
    have hmax := h.maxLines_lt
    cases hf : t.flag i with
    | false =>
        obtain ⟨t', hrun, hscan, halloc⟩ := ih (i := i + 1) (hstep.mapped h)
          (by rw [hstep.maxLines]; omega)
          (by simp only [hstep.flag, lastUsed, hf, Bool.false_eq_true, if_false]; exact hfree)
          (by simp only [hstep.flag, Nat.count_succ, hf, Bool.false_eq_true, if_false]; exact hplaces)
        refine ⟨t', ?_, hstep.trans hscan, ?_⟩
        · unfold countActive
          rw [Programs.run_bind_ok hcall, hf, if_neg Bool.false_ne_true]
          exact hrun
        · rw [halloc, hstep.flag, Nat.add_right_comm, Nat.add_assoc]
          rfl
    | true =>
        have hcount : t.activePlaces ≤ i := by rw [hplaces]; exact Nat.count_le _
        have hnext : Scanned t { t.logged (.isActive i) with
            freeId := sizeAdd i 1, activePlaces := sizeAdd t.activePlaces 1 } :=
          ⟨hstep.info, hstep.core, hstep.expanding, hstep.history, hstep.log⟩
        obtain ⟨t', hrun, hscan, halloc⟩ := ih (i := i + 1) (hnext.mapped h)
          (by rw [hnext.maxLines]; omega)
          (by simp only [hnext.flag, lastUsed, hf, if_true]; exact sizeAdd_eq (by omega))
          (by simp only [hnext.flag, Nat.count_succ, hf, if_true, ← hplaces]
              exact sizeAdd_eq (by omega))
        refine ⟨t', ?_, hnext.trans hscan, ?_⟩
        · unfold countActive
          rw [Programs.run_bind_ok hcall, hf, if_pos rfl]
          exact hrun
        · rw [halloc, hnext.flag, Nat.add_right_comm, Nat.add_assoc]
          rfl

theorem Mapped.pushHoles_run {t : Tabble} (h : t.Mapped) {n i : Nat} (hn : i + n ≤ t.maxLines)
    (hstack : t.stackFreeId = holes t.flag i) :
    ∃ t', (pushHoles n i).run t = .ok () t' ∧ Scanned t t' ∧
      t'.allocator = (holes t.flag (i + n), t.freeId, t.activePlaces) := by
  induction n generalizing t i with
  | zero => exact ⟨t, rfl, .refl t, by simp [allocator, hstack]⟩
  | succ n ih =>
    have hcall := h.isActive (i := i) (by omega)
    have hstep := logged_scanned (t := t) (i := i) (by omega)
    cases hf : t.flag i with
    | true =>
        obtain ⟨t', hrun, hscan, halloc⟩ := ih (i := i + 1) (hstep.mapped h)
          (by rw [hstep.maxLines]; omega)
          (by rw [hstep.flag, SlotPool.holes_succ, hf, if_pos rfl]; exact hstack)
        refine ⟨t', ?_, hstep.trans hscan, ?_⟩
        · unfold pushHoles
          rw [Programs.run_bind_ok hcall, hf]
          exact hrun
        · rw [halloc, hstep.flag, Nat.add_right_comm, Nat.add_assoc]
          rfl
    | false =>
        have hnext : Scanned t { t.logged (.isActive i) with stackFreeId := i :: t.stackFreeId } :=
          ⟨hstep.info, hstep.core, hstep.expanding, hstep.history, hstep.log⟩
        obtain ⟨t', hrun, hscan, halloc⟩ := ih (i := i + 1) (hnext.mapped h)
          (by rw [hnext.maxLines]; omega)
          (by rw [hnext.flag, SlotPool.holes_succ, hf, if_neg Bool.false_ne_true, ← hstack])
        refine ⟨t', ?_, hnext.trans hscan, ?_⟩
        · unfold pushHoles
          rw [Programs.run_bind_ok hcall, hf]
          exact hrun
        · rw [halloc, hnext.flag, Nat.add_right_comm, Nat.add_assoc]
          rfl

/-- The table an open file is taken for. -/
structure Rebuilt (t t' : Tabble) : Prop where
  sound : t'.Sound
  info : t'.info = t.info
  history : t'.history = t.history
  active : t'.active = t.active
  grown : t.maxLines ≤ t'.maxLines
  byte : ∀ k < t.storage.core.fileSize, t'.byte k = t.byte k
  places : t'.activePlaces = t'.activeCount
  log : LogsInside t t'

theorem Mapped.rebuild_run {t : Tabble} (h : t.Mapped) (ha : t.allocator = ([], 0, 0)) :
    ∃ t', (do countActive (← get).storage.getMaxLines 0
              pushHoles (← get).freeId 0 : EStateM Fault Tabble Unit).run t = .ok () t' ∧
      Rebuilt t t' := by
  simp only [allocator, Prod.mk.injEq] at ha
  obtain ⟨hs, hf, hp⟩ := ha
  obtain ⟨t₁, hrun₁, hscan₁, halloc₁⟩ := h.countActive_run (n := t.maxLines) (i := 0) (by omega) hf hp
  simp only [allocator, Prod.mk.injEq, Nat.zero_add] at halloc₁
  obtain ⟨hs₁, hf₁, hp₁⟩ := halloc₁
  have hlast := SlotPool.lastUsed_le t.flag t.maxLines
  obtain ⟨t₂, hrun₂, hscan₂, halloc₂⟩ := (hscan₁.mapped h).pushHoles_run (n := t₁.freeId) (i := 0)
    (by rw [hscan₁.maxLines, hf₁]; omega) (by rw [hs₁, hs]; rfl)
  simp only [allocator, Prod.mk.injEq, Nat.zero_add] at halloc₂
  obtain ⟨hs₂, hf₂, hp₂⟩ := halloc₂
  have hscan := hscan₁.trans hscan₂
  refine ⟨t₂, ?_, ⟨hscan.mapped h, ?_⟩, hscan.info, hscan.history,
    active_congr hscan.maxLines hscan.flag, hscan.maxLines.ge, fun k _ => congrFun hscan.byte k, ?_,
    hscan.log⟩
  · rw [Programs.run_bind_ok (EStateM.run_get t)]
    refine (Programs.run_bind_ok hrun₁).trans ?_
    rw [Programs.run_bind_ok (EStateM.run_get t₁), hrun₂]
  · simp only [pool, hscan.flag, hscan.maxLines, hs₂, hf₂, hscan₁.flag, hf₁]
    exact SlotPool.rebuild_inv _ _
  · rw [hp₂, hp₁, activeCount_eq, active_congr hscan.maxLines hscan.flag, hscan.maxLines]
    exact SlotPool.count_congr fun i hi => (active_of_lt hi).symm

theorem Grown.active {w : Option Nat} {t t' : Tabble} (g : Grown w t t') : t'.active = t.active := by
  funext i
  have hm := g.maxLines
  by_cases hi : i < t.maxLines
  · rw [active_of_lt hi, active_of_lt (by omega), g.flag_old i hi]
  · simp [Tabble.active, hi, g.flag_new i (Nat.le_of_not_lt hi)]

theorem Rebuilt.of_scanned {t t' t'' : Tabble} (h : Scanned t t') (r : Rebuilt t' t'') :
    Rebuilt t t'' :=
  ⟨r.sound, r.info.trans h.info, r.history.trans h.history,
    r.active.trans (active_congr h.maxLines h.flag), h.maxLines ▸ r.grown,
    fun k hk => (r.byte k (h.core ▸ hk)).trans (congrFun h.byte k), r.places, h.log.trans r.log⟩

theorem Rebuilt.of_grown {t t' t'' : Tabble} (g : Grown none t t')
    (hfull : ∀ i < t.maxLines, t.flag i = true) (r : Rebuilt t' t'') :
    Rebuilt t t'' := by
  refine ⟨r.sound, r.info.trans g.info, r.history.trans g.history, r.active.trans g.active, ?_, ?_,
    r.places, (g.logsInside hfull).trans r.log⟩
  · have := r.grown
    rw [g.maxLines] at this
    omega
  · intro k hk
    rw [r.byte k (by rw [g.fileSize]; omega), g.byte_old k hk]

/-- The reconstruction succeeds, or the file has no free line and does not grow. -/
theorem Mapped.analyzeHoles_outcome {t : Tabble} (h : t.Mapped) (os : Os)
    (ha : t.allocator = ([], 0, 0)) :
    (∃ t', (analyzeHoles os).run t = .ok () t' ∧ Rebuilt t t') ∨
      (os.grows t.storage.core.calls (2 * t.storage.core.fileSize) = false ∧
        ∃ e t', (analyzeHoles os).run t = .error e t' ∧ e.IsGrowth) := by
  obtain ⟨r, t₁, hrun₁, hscan₁, halloc₁, hcases⟩ :=
    h.skipActive_run t.maxLines 0 (by omega)
  rw [Nat.zero_add] at hcases
  have hm₁ := hscan₁.mapped h
  have hstart : (analyzeHoles os).run t =
      (do if r = t.storage.getMaxLines then onStorage (MemoryMap.expand os none)
          countActive (← get).storage.getMaxLines 0
          pushHoles (← get).freeId 0 : EStateM Fault Tabble Unit).run t₁ := by
    unfold analyzeHoles
    rw [Programs.run_bind_ok (EStateM.run_get t)]
    exact Programs.run_bind_ok hrun₁
  rw [hstart]
  by_cases hr : r = t.storage.getMaxLines
  · have hall : ∀ i < t₁.maxLines, t₁.flag i = true := by
      rw [hscan₁.maxLines, hscan₁.flag]
      rcases hcases with ⟨hr', hall⟩ | hlt
      · exact fun i hi => hall i (Nat.zero_le i) (by omega)
      · exact absurd hr (Nat.ne_of_lt hlt)
    rw [if_pos hr]
    cases hg : os.grows t.storage.core.calls (2 * t.storage.core.fileSize) with
    | true =>
        obtain ⟨t₂, hrun₂, g⟩ := hm₁.expand_ok os none (by rw [hscan₁.core]; exact hg)
        have ha₂ : t₂.allocator = ([], 0, 0) := by
          rw [← ha, ← halloc₁]
          simp only [allocator, g.stack, g.freeId, g.places]
        obtain ⟨t₃, hrun₃, hre⟩ := g.mapped.rebuild_run ha₂
        exact .inl ⟨t₃, by rw [Programs.run_bind_ok hrun₂, hrun₃], .of_scanned hscan₁ (.of_grown g hall hre)⟩
    | false =>
        obtain ⟨e, t₂, hrun₂, hgrowth, -⟩ := hm₁.expand_error os none (by rw [hscan₁.core]; exact hg)
        exact .inr ⟨rfl, e, t₂, Programs.run_bind_error hrun₂, hgrowth⟩
  · rw [if_neg hr]
    obtain ⟨t₂, hrun₂, hre⟩ := hm₁.rebuild_run (by rw [← ha, ← halloc₁])
    exact .inl ⟨t₂, hrun₂, .of_scanned hscan₁ hre⟩

/-! The constructor. -/

/-- A table opened from a file: its active lines and bytes are those of the file. -/
structure Opened (schema : TabbleInfo) (file : ByteFile) (t : Tabble) : Prop where
  sound : t.Sound
  info : t.info = schema
  history : t.history = []
  active : ∀ i, t.active i = (decide (i * schema.lineLength < file.size) &&
    file.byte (i * schema.lineLength) != 0)
  grown : file.size / schema.lineLength ≤ t.maxLines
  byte : ∀ k < file.size, t.byte k = file.byte k
  places : t.activePlaces = t.activeCount
  log : ∀ e ∈ t.storage.log, CallInside e

open MemoryMapLinux (Lines initialFile)

theorem initialFile_flag {file : ByteFile} {L : Nat} (hL : 0 < L)
    (hfile : file.size = 0 ∨ Lines file L) (i : Nat) :
    (decide (i < (initialFile file L).size / L) && (initialFile file L).byte (i * L) != 0) =
      (decide (i * L < file.size) && file.byte (i * L) != 0) := by
  rcases hfile with h0 | hlines
  · have hbyte : (initialFile file L).byte (i * L) = 0 := by
      simp [initialFile, h0, ByteFile.truncate]
    simp [hbyte, h0]
  · rw [MemoryMapLinux.initialFile_lines hL hlines]
    have hlt : i < file.size / L ↔ i * L < file.size := by
      rw [Nat.lt_div_iff_mul_lt' hlines.dvd, Nat.mul_comm]
    simp only [hlt]

theorem initialFile_byte {file : ByteFile} {L : Nat} (hL : 0 < L)
    (hfile : file.size = 0 ∨ Lines file L) {k : Nat} (hk : k < file.size) :
    k < (initialFile file L).size ∧ (initialFile file L).byte k = file.byte k := by
  rcases hfile with h0 | hlines
  · omega
  · rw [MemoryMapLinux.initialFile_lines hL hlines]
    exact ⟨hk, rfl⟩

theorem initialFile_size {file : ByteFile} {L : Nat} (hL : 0 < L)
    (hfile : file.size = 0 ∨ Lines file L) : file.size ≤ (initialFile file L).size := by
  rcases hfile with h0 | hlines
  · omega
  · rw [MemoryMapLinux.initialFile_lines hL hlines]

theorem openFile_outcome (os : Os) {info : TabbleInfo} {file : ByteFile} (calls : Nat)
    (hlay : info.Layout) (hfit : info.lineLength * 100 < 2 ^ 64)
    (hfile : file.size = 0 ∨ Lines file info.lineLength) :
    (∃ t, openFile os info file calls = .ok () t ∧ Opened info file t) ∨
      ∃ e t, openFile os info file calls = .error e t ∧ e.IsGrowth := by
  have hL := hlay.lineLength_pos
  unfold openFile construct
  rcases MemoryMapLinux.openFile_outcome os file calls hfit with
    ⟨addr, hrun, ht, hm⟩ | ⟨e, core, hrun, hgrowth⟩
  · have hlive := MemoryMapLinux.opened_live hL hfile ht hm
    have hcore := MemoryMap.run_onCore_ok (m := (closed info file calls).storage) hrun
    rw [Programs.run_bind_ok (run_onStorage_ok hcore)]
    have hmapped : Mapped { closed info file calls with
        storage := (closed info file calls).storage.withCore
          (MemoryMapLinux.opened (initialFile file info.lineLength) info.lineLength calls addr) } :=
      ⟨hlay, rfl, hlive, rfl⟩
    rcases hmapped.analyzeHoles_outcome os rfl with ⟨t, hrun', r⟩ | ⟨-, e, t, hrun', hgrowth⟩
    · refine .inl ⟨t, hrun', r.sound, r.info, r.history, fun i => ?_, ?_, fun k hk => ?_, r.places,
        r.log.all (List.forall_mem_nil _)⟩
      · rw [r.active]
        exact initialFile_flag hL hfile i
      · exact (Nat.div_le_div_right (initialFile_size hL hfile)).trans r.grown
      · obtain ⟨hin, hbyte⟩ := initialFile_byte hL hfile hk
        rw [r.byte k hin]
        exact hbyte
    · exact .inr ⟨e, t, hrun', hgrowth⟩
  · refine .inr ⟨e, _, Programs.run_bind_error (run_onStorage_error
      (MemoryMap.run_onCore_error (m := (closed info file calls).storage) hrun)), hgrowth⟩

/-- Closing and opening a sound table changes neither its active lines nor their bytes,
and makes the counter of active places exact. -/
structure Reopened (t t' : Tabble) : Prop where
  sound : t'.Sound
  info : t'.info = t.info
  history : t'.history = []
  active : t'.active = t.active
  bytes : ∀ i < t.maxLines, ∀ k, InLine t.info.lineLength i k → t'.byte k = t.byte k
  places : t'.activePlaces = t'.activeCount
  log : ∀ e ∈ t'.storage.log, CallInside e

theorem Mapped.reopen_outcome {t : Tabble} (h : t.Mapped) (os : Os)
    (hfit : t.info.lineLength * 100 < 2 ^ 64) :
    (∃ t', reopen os t = .ok () t' ∧ Reopened t t') ∨
      ∃ e t', reopen os t = .error e t' ∧ e.IsGrowth := by
  have hlines : Lines t.storage.core.file t.info.lineLength := by
    rw [← h.lineLength]
    exact h.live.fileLines
  rcases openFile_outcome os t.storage.core.calls h.layout hfit (.inr hlines) with
    ⟨t', hrun, o⟩ | herr
  · refine .inl ⟨t', hrun, o.sound, o.info, o.history, funext fun i => ?_, fun i hi k hk => ?_,
      o.places, o.log⟩
    · have hlt : i < t.maxLines ↔ i * t.info.lineLength < t.storage.core.file.size := by
        rw [Nat.mul_comm, ← Nat.lt_div_iff_mul_lt' hlines.dvd, h.live.size_eq, ← h.lineLength]
        rfl
      rw [o.active i, Tabble.active, Tabble.flag, MemoryMapLinux.flag, h.lineLength]
      simp only [hlt]
    · have hend := h.line_end_le hi
      refine o.byte k ?_
      rw [h.live.size_eq]
      have := hk.2
      omega
  · exact .inr herr

end Tabble
end SQLid
