import SQLid.ClientAlone

/-!
# Single actions on the storage

What one call on the storage does to a table that other threads use too. A growth
that failed leaves the table gone: every later call faults or changes nothing.
-/
namespace SQLid
open Bytes (Text)
open CppText (str)
open Programs

namespace MemoryMapLinux

theorem not_accessible {m : MemoryMapLinux} (h : m.mapped = 0) (addr : Nat) {n : Nat} (hn : 0 < n) :
    ¬ m.Accessible addr n := by
  rintro ⟨hlow, hhigh, -⟩
  omega

/-- Nothing is stored where nothing is mapped. -/
theorem writeBytes_unmapped {m : MemoryMapLinux} (h : m.mapped = 0) (msg : Text) (i off : Nat)
    (bs : Text) : (bs = [] ∧ (writeBytes msg i off bs).run m = .ok () m) ∨
      ∃ e, (writeBytes msg i off bs).run m = .error e m := by
  unfold writeBytes
  rw [run_bind_ok (EStateM.run_get m)]
  by_cases hlong : sizeSub m.lineLength off < bs.length
  · exact .inr ⟨_, by rw [if_pos hlong]; rfl⟩
  · rw [if_neg hlong]
    dsimp only
    unfold store
    rw [run_bind_ok (EStateM.run_get m)]
    by_cases hbs : bs = []
    · refine .inl ⟨hbs, ?_⟩
      cases m.lineStart i off <;> simp [hbs]
    · refine .inr ⟨.undefined, ?_⟩
      have hlen := List.length_pos_iff.mpr hbs
      cases m.lineStart i off <;> simp [hbs, not_accessible h _ hlen]

theorem expandFile_error_mapped {os : Os} {m m' : MemoryMapLinux} {e : Fault}
    (h : (expandFile os).run m = .error e m') (hdata : m.mappedData ≠ 0) : m'.mapped = 0 := by
  unfold expandFile ftruncateTo mmapBytes at h
  cases ht : os.ftruncate m.calls (sizeMul m.fileSize 2) with
  | false =>
      simp [hdata, ht] at h
      rw [← h.2]
  | true =>
      cases hm : os.mmap m.calls (sizeMul m.fileSize 2) with
      | some addr => simp [hdata, ht, hm] at h
      | none =>
          simp [hdata, ht, hm] at h
          rw [← h.2]

end MemoryMapLinux

namespace Tabble

/-- A growth of the file has failed: its pages are unmapped, and the flag that keeps
others from growing it stays set. -/
structure Gone (t : Tabble) : Prop where
  expanding : t.storage.expanding = true
  mapped : t.storage.core.mapped = 0

/-- The file and what is mapped of it are the same. -/
structure SameFile (t t' : Tabble) : Prop where
  core : t'.storage.core = t.storage.core
  expanding : t'.storage.expanding = t.storage.expanding
  info : t'.info = t.info

section SameFile
variable {t t' : Tabble} (h : SameFile t t')
include h

theorem SameFile.mapped (hm : t.Mapped) : t'.Mapped := by
  refine ⟨?_, ?_, ?_, ?_⟩
  · rw [h.info]
    exact hm.layout
  · rw [h.core, h.info]
    exact hm.lineLength
  · rw [h.core]
    exact hm.live
  · rw [h.expanding]
    exact hm.idle

theorem SameFile.gone (hg : t.Gone) : t'.Gone := by
  refine ⟨?_, ?_⟩
  · rw [h.expanding]
    exact hg.expanding
  · rw [h.core]
    exact hg.mapped

theorem SameFile.maxLines : t'.maxLines = t.maxLines := by
  unfold Tabble.maxLines
  rw [h.core]

theorem SameFile.active : t'.active = t.active := by
  unfold Tabble.active Tabble.maxLines Tabble.flag
  rw [h.core]

end SameFile

theorem LogOnly.sameFile {t t' : Tabble} (h : LogOnly t t') : SameFile t t' := by
  obtain ⟨l, rfl⟩ := h
  exact ⟨rfl, rfl, rfl⟩

/-- Both outcomes of a program leave nothing but calls in the log. -/
def Idles {α : Type} (x : EStateM Fault Tabble α) (t : Tabble) : Prop :=
  Post (fun _ t' => LogOnly t t') (fun _ t' => LogOnly t t') (x.run t)

theorem ReadsLine.idles {α : Type} {i : Nat} {x : EStateM Fault Tabble α} (h : ReadsLine i x)
    (t : Tabble) : Idles x t := by
  obtain ⟨l, -, hrun⟩ := h.run t
  unfold Idles
  rw [hrun]
  cases t.peek x with
  | ok a => exact .ok ⟨l, rfl⟩
  | error e => exact .error ⟨l, rfl⟩

theorem run_expand_hang {os : Os} {w : Option Nat} {m : MemoryMap} (h : m.expanding = true) :
    (MemoryMap.expand os w).run m = .error .hang (m.logged (.expand w)) := by
  unfold MemoryMap.expand
  rw [run_bind_ok (MemoryMap.run_record _ _), run_bind_ok (EStateM.run_get _)]
  have hset : (m.logged (.expand w)).expanding = true := h
  rw [hset]
  rfl

/-- Past the end of a file that cannot grow a write waits. -/
theorem run_write_hang {os : Os} {c : Call} {i : Nat} {put : EStateM Fault MemoryMapLinux Unit}
    {m : MemoryMap} (h : m.expanding = true) (hi : m.core.getMaxLine ≤ i) :
    (MemoryMap.write os c i put).run m =
      .error .hang ((m.logged c).logged (.expand (some i))) := by
  have hle : (m.logged c).core.getMaxLine ≤ i := hi
  unfold MemoryMap.write
  rw [run_bind_ok (MemoryMap.run_record _ _), run_bind_ok (EStateM.run_get _), if_pos hle]
  exact run_bind_error (run_expand_hang (m := m.logged c) h)

section Gone
variable {t : Tabble} (h : t.Gone)
include h

/-- A write to the unmapped file, of a flag or of a value. -/
theorem Gone.idles_put {c : Call} {msg : Text} {i off : Nat} {bs : Text}
    {x : EStateM Fault MemoryMap Unit} (hx : x.run t.storage =
      (MemoryMap.onCore (MemoryMapLinux.writeBytes msg i off bs)).run (t.storage.logged c)) :
    Idles (onStorage x) t := by
  unfold Idles
  rcases MemoryMapLinux.writeBytes_unmapped h.mapped msg i off bs with ⟨-, hrun⟩ | ⟨e, hrun⟩
  · rw [run_onStorage_ok (hx.trans (MemoryMap.run_onCore_ok (m := t.storage.logged c) hrun))]
    exact .ok ⟨[(c, t.storage.core)], rfl⟩
  · rw [run_onStorage_error (hx.trans (MemoryMap.run_onCore_error (m := t.storage.logged c) hrun))]
    exact .error ⟨[(c, t.storage.core)], rfl⟩

theorem Gone.writeFlag_error (c : Call) (i : Nat) (b : Bool) :
    ∃ e t', (onStorage (MemoryMap.writeFlag c i b)).run t = .error e t' ∧ LogOnly t t' := by
  rcases MemoryMapLinux.writeBytes_unmapped h.mapped (str "Number is too long for the field") i 0
    (VariantTypes.bool b).bytes with ⟨hnil, -⟩ | ⟨e, hrun⟩
  · cases hnil
  · refine ⟨e, _, run_onStorage_error ((run_bind_ok (MemoryMap.run_record c t.storage)).trans
      (MemoryMap.run_onCore_error (m := t.storage.logged c) hrun)), [(c, t.storage.core)], rfl⟩

theorem Gone.idles_writeInfo (os : Os) (i off : Nat) (v : VariantTypes) :
    Idles (onStorage (MemoryMap.writeInfo os i off v)) t := by
  rw [writeInfo_eq]
  by_cases hi : t.storage.core.getMaxLine ≤ i
  · unfold Idles
    rw [run_onStorage_error (run_write_hang h.expanding hi)]
    exact .error ⟨[(.expand (some i), t.storage.core), (writeCall i v, t.storage.core)], rfl⟩
  · exact h.idles_put (MemoryMap.run_write_inside (Nat.lt_of_not_le hi))

end Gone

/-- A growth by a thread: the file doubles, or the table is gone and holds what it held. -/
structure Lost (t t' : Tabble) : Prop where
  gone : t'.Gone
  info : t'.info = t.info
  stack : t'.stackFreeId = t.stackFreeId
  freeId : t'.freeId = t.freeId
  maxLines : t'.maxLines = t.maxLines
  active : t'.active = t.active

theorem Mapped.expand_outcome {t : Tabble} (h : t.Mapped) (os : Os) (w : Option Nat) :
    (∃ t', (onStorage (MemoryMap.expand os w)).run t = .ok () t' ∧ Grown w t t') ∨
      ∃ e t', (onStorage (MemoryMap.expand os w)).run t = .error e t' ∧ Lost t t' := by
  cases hg : os.grows t.storage.core.calls (2 * t.storage.core.fileSize) with
  | true => exact .inl (h.expand_ok os w hg)
  | false =>
      obtain ⟨e, core, hrun, -, hbroken⟩ := h.live.expandFile_error hg
      have hexpand := MemoryMap.run_expand os w h.idle
      rw [hrun] at hexpand
      have hpos := h.live.address_pos
      have hmapped := MemoryMapLinux.expandFile_error_mapped hrun (by omega)
      have hmax : core.getMaxLine = t.maxLines := by
        unfold MemoryMapLinux.getMaxLine Tabble.maxLines MemoryMapLinux.getMaxLine
        rw [hbroken.fileSize, hbroken.lineLength]
      refine .inr ⟨e, _, run_onStorage_error hexpand, ⟨rfl, hmapped⟩, rfl, rfl, rfl, hmax, ?_⟩
      funext i
      by_cases hi : i < t.maxLines
      · have hend := h.line_end_le hi
        have hL := h.live.lineLength_pos
        have hlen := h.lineLength
        have hbyte := hbroken.byte_old (i * t.storage.core.lineLength) (by rw [hlen] at hL ⊢; omega)
        have hflag : core.flag i = t.flag i := by
          unfold Tabble.flag MemoryMapLinux.flag
          rw [hbroken.lineLength, hbyte]
        rw [active_of_lt hi, ← hflag]
        exact active_of_lt (t := { t with storage := _ }) (by
          change i < core.getMaxLine
          omega)
      · have hnot : t.active i = false := by simp [Tabble.active, hi]
        have hlt : ¬ i < core.getMaxLine := by omega
        rw [hnot]
        exact Bool.and_eq_false_iff.mpr (.inl (decide_eq_false hlt))

/-- The flag of a line of the file set or cleared. -/
theorem Mapped.writeFlag_outcome {t : Tabble} (h : t.Mapped) {i : Nat} (hi : i < t.maxLines) (c : Call)
    (hc : c.line = some i) (b : Bool) :
    ∃ t', (onStorage (MemoryMap.writeFlag c i b)).run t = .ok () t' ∧
      Touches (fun k => k = i * t.info.lineLength) t t' ∧
      t'.active = Function.update t.active i b := by
  have hL := h.live.lineLength_pos
  refine ⟨_, h.writeFlag hi b, ?_, ?_⟩
  · refine (logged_touches _ hc hi).trans ((withBytes_touches _ _ _).mono fun k hk => ?_)
    simp only [VariantTypes.bytes, List.length_singleton] at hk
    omega
  · have hflag := flag_activate hL c i b
    rw [h.lineLength] at hflag
    funext j
    change (decide (j < t.maxLines) && _) = _
    rw [hflag]
    by_cases hj : j = i
    · subst hj
      simp [hi]
    · simp only [Function.update_of_ne hj]
      rfl

end Tabble
end SQLid
