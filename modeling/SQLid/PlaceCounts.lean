import SQLid.FreeList
import SQLid.Spares
import Mathlib.Data.Int.ModEq

/-!
# The counter of active places

`activePlaces` is moved once by an erase, and by an insert once for the row and once
more for a line never used before; an insert that throws leaves its row active without
the first of the two. The drift is how far this takes it off the number of active lines.
-/
namespace SQLid
open Programs

namespace Tabble

/-- What an insert adds to the drift: whether it has to take a line never used, and
whether its values all fit the line. -/
def insertDrift (t : Tabble) (values : List VariantTypes) (columns : List Column) (index : Nat) : Int :=
  (if t.stackFreeId = [] then 1 else 0) +
    (if writtenColumns t.info.lineLength values index columns = columns then 1 else 0) - 1

/-- Runs of the row operations with the drift since the file was opened. -/
inductive Counted (os : Os) (schema : TabbleInfo) : Tabble → Int → Prop
  | start {calls : Nat} {t : Tabble} :
      openFile os schema .empty calls = .ok () t → Counted os schema t 0
  | insert {t t' : Tabble} {d : Int} (values : List VariantTypes) (index : Nat) : Counted os schema t d →
      Settles Fault.EndsRun ((insert os values schema.columns index).run t) t' →
      Counted os schema t' (d + t.insertDrift values schema.columns index)
  | erase {t t' : Tabble} {d : Int} {i : Nat} : Counted os schema t d → t.active i = true →
      Settles Fault.EndsRun ((erase i).run t) t' → Counted os schema t' d
  | update {t t' : Tabble} {d : Int} (values : List VariantTypes) {columns : List Column} {i : Nat}
      (k : Nat) : Counted os schema t d → (∀ c ∈ columns, c ∈ schema.columns) →
      i * schema.lineLength + schema.lineLength ≤ 2 ^ 64 →
      Settles Fault.EndsRun ((update os values columns i k).run t) t' → Counted os schema t' d
  | reopen {t t' : Tabble} {d : Int} : Counted os schema t d → reopen os t = .ok () t' →
      Counted os schema t' 0

section
variable {os : Os} {schema : TabbleInfo} {t t' : Tabble} {d : Int}

theorem Counted.reachable (h : Counted os schema t d) : Reachable os schema t := by
  induction h with
  | start hopen => exact .start hopen
  | insert values index _ hrun ih => exact .insert values index ih hrun
  | erase _ hi hrun ih => exact .erase ih hi hrun
  | update values k _ hc hwrap hrun ih => exact .update values k ih hc hwrap hrun
  | reopen _ hopen ih => exact .reopen ih hopen

theorem Reachable.counted (h : Reachable os schema t) : ∃ d, Counted os schema t d := by
  induction h with
  | start hopen => exact ⟨0, .start hopen⟩
  | insert values index _ hrun ih =>
      obtain ⟨d, hd⟩ := ih
      exact ⟨_, .insert values index hd hrun⟩
  | erase _ hi hrun ih =>
      obtain ⟨d, hd⟩ := ih
      exact ⟨d, .erase hd hi hrun⟩
  | update values k _ hc hwrap hrun ih =>
      obtain ⟨d, hd⟩ := ih
      exact ⟨d, .update values k hd hc hwrap hrun⟩
  | reopen _ hopen ih =>
      obtain ⟨d, hd⟩ := ih
      exact ⟨0, .reopen hd hopen⟩

theorem Spare.Taken.counters {s s' : Spare} (h : Taken os s s') :
    (s.freed = 0 ∧ s'.freeId = s.freeId + 1) ∨ (s.freed ≠ 0 ∧ s'.freeId = s.freeId) := by
  cases h with
  | freed => exact .inr ⟨Nat.succ_ne_zero _, rfl⟩
  | fresh _ => exact .inl ⟨rfl, rfl⟩
  | grown _ => exact .inl ⟨rfl, rfl⟩

/-- An insert takes its line from the stack, or a new one when the stack is empty. -/
theorem Sound.insert_counters (h : t.Sound) (os : Os) (values : List VariantTypes) (index : Nat)
    {columns : List Column} (hc : ∀ c ∈ columns, c ∈ t.info.columns) :
    (∃ cur t', Started t t' cur ∧
        t'.activePlaces = (if t.stackFreeId = [] then sizeAdd t.activePlaces 1 else t.activePlaces) ∧
        ((writtenColumns t.info.lineLength values index columns = columns ∧
            (insert os values columns index).run t = .ok cur t'.addPlace) ∨
          (writtenColumns t.info.lineLength values index columns ≠ columns ∧
            ∃ e, (insert os values columns index).run t = .error e t'))) ∨
      ∃ e t', (insert os values columns index).run t = .error e t' ∧ e.EndsRun := by
  rcases h.allocateId_spare os with ⟨cur, t₁, halloc, htaken⟩ | ⟨e, t₁, halloc, -⟩
  · rcases h.allocateId_outcome os with ⟨cur', t₂, halloc', a⟩ | ⟨-, e, t₂, halloc', -⟩
    · rw [halloc] at halloc'
      cases halloc'
      have hstart := a.started h.toMapped
      obtain ⟨t₃, htouch, -, hcases⟩ := hstart.sound.updateFrom_stores os hstart.cur_lt values
        index (fun c hcm => by rw [hstart.info]; exact hc c hcm)
      rw [hstart.info] at htouch hcases
      have hplaces : t₃.activePlaces =
          if t.stackFreeId = [] then sizeAdd t.activePlaces 1 else t.activePlaces := by
        have hsame : t₃.activePlaces = t₁.activePlaces := htouch.places
        rw [hsame]
        rcases htaken.counters with ⟨hnone, hnext⟩ | ⟨hsome, hkept⟩
        · rw [if_pos (List.length_eq_zero_iff.mp hnone)]
          rcases a.counters with ⟨-, hfree, -⟩ | ⟨-, -, hp⟩
          · have hfresh : t₁.freeId = t.freeId + 1 := hnext
            omega
          · exact hp
        · rw [if_neg fun hnil => hsome (List.length_eq_zero_iff.mpr hnil)]
          rcases a.counters with ⟨-, -, hp⟩ | ⟨-, hfree, -⟩
          · exact hp
          · have hsame : t₁.freeId = t.freeId := hkept
            omega
      rw [a.run_insert halloc]
      rcases hcases with ⟨hall, hok⟩ | ⟨herr, -⟩ | ⟨hsome, v, herr⟩
      · exact .inl ⟨cur, t₃, hstart.touches htouch, hplaces, .inl ⟨hall, by rw [hok]⟩⟩
      · exact .inr ⟨_, t₃, by rw [herr], .inr rfl⟩
      · exact .inl ⟨cur, t₃, hstart.touches htouch, hplaces, .inr ⟨hsome, _, by rw [herr]⟩⟩
    · rw [halloc] at halloc'
      cases halloc'
  · rcases h.allocateId_outcome os with ⟨cur', t₂, halloc', -⟩ | ⟨-, e', t₂, halloc', hgrowth, -⟩
    · rw [halloc] at halloc'
      cases halloc'
    · refine .inr ⟨e', t₂, ?_, .inl hgrowth⟩
      unfold insert
      rw [Programs.run_bind_error halloc']

/-- The counter and the number of active lines, the drift apart modulo 2^64. -/
structure Drifted (schema : TabbleInfo) (t : Tabble) (d : Int) : Prop where
  inv : AllocatorInv schema t
  places_lt : t.activePlaces < 2 ^ 64
  drift : (t.activePlaces : Int) ≡ t.activeCount + d [ZMOD 2 ^ 64]

theorem Sound.activeCount_lt (h : t.Sound) : t.activeCount < 2 ^ 64 := by
  have hcount : t.activeCount ≤ t.maxLines := Nat.count_le _
  have hmax := h.maxLines_lt
  omega

theorem sizeAdd_modEq (a b : Nat) : (sizeAdd a b : Int) ≡ a + b [ZMOD 2 ^ 64] := by
  unfold sizeAdd
  push_cast
  exact Int.mod_modEq _ _

theorem sizeSub_modEq {a b : Nat} (hb : b ≤ 2 ^ 64) : (sizeSub a b : Int) ≡ a - b [ZMOD 2 ^ 64] := by
  unfold sizeSub
  have hcast : ((a + 2 ^ 64 - b : Nat) : Int) = a - b + 2 ^ 64 := by omega
  rw [Int.natCast_mod, hcast]
  exact (Int.mod_modEq _ _).trans Int.add_modEq_right

theorem Drifted.of_exact (h : AllocatorInv schema t) (hplaces : t.activePlaces = t.activeCount) :
    Drifted schema t 0 := by
  refine ⟨h, ?_, ?_⟩
  · rw [hplaces]
    exact h.sound.activeCount_lt
  · rw [hplaces, add_zero]

theorem Drifted.wrote (h : Drifted schema t d) (hinv : AllocatorInv schema t') (hw : Wrote t t') :
    Drifted schema t' d := by
  refine ⟨hinv, ?_, ?_⟩
  · rw [hw.places]
    exact h.places_lt
  · rw [hw.places, hw.activeCount]
    exact h.drift

theorem Drifted.erased (h : Drifted schema t d) {i : Nat} (hi : t.active i = true)
    (hrun : Settles Fault.EndsRun ((Tabble.erase i).run t) t') : Drifted schema t' d := by
  have hinv := h.inv.erase hi hrun
  obtain ⟨t₁, hok, e⟩ := h.inv.sound.erase_ok hi
  rw [hok, settles_ok] at hrun
  obtain rfl := hrun
  have hcount : t₁.activeCount + 1 = t.activeCount := by
    rw [activeCount_eq, activeCount_eq, e.active, e.maxLines]
    exact SlotPool.count_update_false (active_iff.mp hi).1 hi
  refine ⟨hinv, ?_, ?_⟩
  · rw [e.places]
    exact Nat.mod_lt _ (by decide)
  · rw [e.places]
    have hsub := sizeSub_modEq (a := t.activePlaces) (b := 1) (by decide)
    have hshift := h.drift.sub_right 1
    refine (hsub.trans hshift).trans ?_
    have hvalue : (t.activeCount : Int) + d - 1 = t₁.activeCount + d := by omega
    rw [hvalue]

theorem Started.activeCount {cur : Nat} (s : Started t t' cur) :
    t'.activeCount = t.activeCount + 1 := by
  rw [activeCount_eq, activeCount_eq, s.active, SlotPool.count_update_true s.cur_lt s.free,
    SlotPool.count_eq_of_false s.grown fun i hi _ => by simp [Tabble.active]; omega]

theorem Drifted.inserted (h : Drifted schema t d) (values : List VariantTypes) (index : Nat)
    (hrun : Settles Fault.EndsRun ((Tabble.insert os values schema.columns index).run t) t') :
    Drifted schema t' (d + t.insertDrift values schema.columns index) := by
  have hinv := h.inv.insert hrun
  rcases h.inv.sound.insert_counters os values index (columns_of h.inv.schema) with
    ⟨cur, t₁, s, hplaces, hcases⟩ | ⟨e, t₁, herr, hends⟩
  · have hcount := s.activeCount
    -- the counter after the allocation
    have hfirst : (t₁.activePlaces : Int) ≡
        t.activePlaces + (if t.stackFreeId = [] then 1 else 0) [ZMOD 2 ^ 64] := by
      rw [hplaces]
      split_ifs
      · exact sizeAdd_modEq _ 1
      · rw [add_zero]
    have hbase := hfirst.trans (h.drift.add_right (if t.stackFreeId = [] then 1 else 0))
    have hlt : t₁.activePlaces < 2 ^ 64 := by
      rw [hplaces]
      split_ifs
      · exact Nat.mod_lt _ (by decide)
      · exact h.places_lt
    unfold insertDrift
    rcases hcases with ⟨hall, hok⟩ | ⟨hsome, e, herr⟩
    · rw [hok, settles_ok] at hrun
      obtain rfl := hrun
      rw [if_pos hall]
      refine ⟨hinv, Nat.mod_lt _ (by decide), ?_⟩
      have hsecond : (t₁.addPlace.activePlaces : Int) ≡ t₁.activePlaces + 1 [ZMOD 2 ^ 64] :=
        sizeAdd_modEq _ 1
      refine (hsecond.trans (hbase.add_right 1)).trans ?_
      have hvalue : (t.activeCount : Int) + d + (if t.stackFreeId = [] then 1 else 0) + 1 =
          t₁.activeCount + (d + ((if t.stackFreeId = [] then 1 else 0) + 1 - 1)) := by omega
      rw [hvalue]
      rfl
    · rw [herr, settles_error] at hrun
      obtain ⟨-, rfl⟩ := hrun
      rw [if_neg hsome]
      refine ⟨hinv, hlt, hbase.trans ?_⟩
      have hvalue : (t.activeCount : Int) + d + (if t.stackFreeId = [] then 1 else 0) =
          t₁.activeCount + (d + ((if t.stackFreeId = [] then 1 else 0) + 0 - 1)) := by omega
      rw [hvalue]
  · rw [herr, settles_error] at hrun
    exact absurd hends hrun.1

theorem Counted.drifted (hlay : schema.Layout) (hfit : schema.lineLength * 100 < 2 ^ 64)
    (h : Counted os schema t d) : Drifted schema t d := by
  induction h with
  | @start calls t hopen =>
      have hinv := (Reachable.start hopen).inv hlay hfit
      have hempty : ByteFile.empty.size = 0 := rfl
      rcases openFile_outcome os calls hlay hfit (.inl hempty) with ⟨t₁, hok, o⟩ | ⟨e, t₁, herr, -⟩
      · rw [hok] at hopen
        cases hopen
        exact .of_exact hinv o.places
      · rw [herr] at hopen
        cases hopen
  | insert values index _ hrun ih => exact ih.inserted values index hrun
  | erase _ hi hrun ih => exact ih.erased hi hrun
  | update values k _ hc hwrap hrun ih =>
      obtain ⟨hinv, hwrote⟩ := ih.inv.update hwrap hc hrun
      exact ih.wrote hinv hwrote
  | reopen h hopen ih =>
      have hinv := (Reachable.reopen h.reachable hopen).inv hlay hfit
      rcases ih.inv.sound.toMapped.reopen_outcome os (by rw [ih.inv.schema]; exact hfit) with
        ⟨t₁, hok, r⟩ | ⟨e, t₁, herr, -⟩
      · rw [hok] at hopen
        cases hopen
        exact .of_exact hinv r.places
      · rw [herr] at hopen
        cases hopen

theorem Drifted.exact_iff (hd : Drifted schema t d) :
    t.activePlaces = t.activeCount ↔ (2 ^ 64 : Int) ∣ d := by
  have hcount := hd.inv.sound.activeCount_lt
  have hplaces := hd.places_lt
  have hmod := hd.drift
  constructor
  · intro heq
    rw [heq] at hmod
    have hzero : (t.activeCount : Int) + 0 ≡ t.activeCount + d [ZMOD 2 ^ 64] := by rwa [add_zero]
    exact Int.modEq_zero_iff_dvd.mp (Int.ModEq.add_left_cancel' _ hzero).symm
  · intro hdvd
    have hzero := (Int.modEq_zero_iff_dvd.mpr hdvd).add_left (t.activeCount : Int)
    rw [add_zero] at hzero
    have hsame := hmod.trans hzero
    unfold Int.ModEq at hsame
    rw [Int.emod_eq_of_lt (by omega) (by omega), Int.emod_eq_of_lt (by omega) (by omega)] at hsame
    omega

/-- In every state of a run the counter is exact when the drift is, modulo 2^64, nothing. -/
theorem places_exact_iff (hlay : schema.Layout) (hfit : schema.lineLength * 100 < 2 ^ 64)
    (h : Counted os schema t d) : t.activePlaces = t.activeCount ↔ (2 ^ 64 : Int) ∣ d :=
  (h.drifted hlay hfit).exact_iff

end

/-- An insert of the sample schema into a table without freed lines is counted once too often. -/
theorem sampleInserted_counted {t : Tabble} {d : Int} (h : Counted .reliable sampleInfo t d) (n : BitVec 32)
    (hstack : t.stackFreeId = [])
    (hok : isOk ((insert .reliable [.int32 n] sampleInfo.columns 0).run t) = true) :
    Counted .reliable sampleInfo (sampleInserted t n) (d + 1) := by
  have hrun := h.insert [.int32 n] 0 (settles_of_isOk hok)
  have hinfo := (h.reachable.inv sampleInfo_layout (by decide)).schema
  have hall : writtenColumns sampleInfo.lineLength [.int32 n] 0 sampleInfo.columns =
      sampleInfo.columns := rfl
  have hdrift : t.insertDrift [.int32 n] sampleInfo.columns 0 = 1 := by
    unfold insertDrift
    rw [hinfo, if_pos hstack, if_pos hall]
    rfl
  rwa [hdrift] at hrun

theorem sampleOpened_counted : Counted .reliable sampleInfo sampleOpened 0 := .start sampleOpened_opens

theorem firstInserted_counted : Counted .reliable sampleInfo (sampleInserted sampleOpened 7) 1 :=
  sampleInserted_counted sampleOpened_counted 7 (by decide +kernel) (by decide +kernel)

/-- The table is opened again, and a row put into its freed line. -/
def sampleRefilled : Tabble := sampleInserted (finalState (reopen .reliable sampleErased)) 9

theorem sampleRefilled_counted {d : Int} (h : Counted .reliable sampleInfo sampleErased d) :
    Counted .reliable sampleInfo sampleRefilled 0 := by
  have hopen : Counted .reliable sampleInfo (finalState (reopen .reliable sampleErased)) 0 :=
    .reopen h (eq_ok_of_isOk (by decide +kernel))
  have hrun := hopen.insert [.int32 9] 0 (settles_of_isOk (by decide +kernel))
  have hdrift : (finalState (reopen .reliable sampleErased)).insertDrift [.int32 9] sampleInfo.columns 0 = 0 := by
    decide +kernel
  rwa [hdrift] at hrun

/-- Two inserts into a new file and an erase: the second line was as new as the first. When the
file has been opened again, a row in the freed line is counted once. -/
theorem places_exact_iff_sample : Counted .reliable sampleInfo sampleErased 2 ∧
    ¬ sampleErased.activePlaces = sampleErased.activeCount ∧
      sampleRefilled.activeCount = 2 ∧ sampleRefilled.activePlaces = sampleRefilled.activeCount := by
  have hsecond : Counted .reliable sampleInfo (sampleInserted (sampleInserted sampleOpened 7) 8) 2 :=
    sampleInserted_counted firstInserted_counted 8 (by decide +kernel) (by decide +kernel)
  have herased : Counted .reliable sampleInfo sampleErased 2 :=
    .erase hsecond (by decide +kernel) (settles_of_isOk (by decide +kernel))
  have hexact := (places_exact_iff sampleInfo_layout (by decide) (sampleRefilled_counted herased)).mpr (dvd_zero _)
  refine ⟨herased, fun hexact => ?_, by decide +kernel, hexact⟩
  have hdvd := (places_exact_iff sampleInfo_layout (by decide) herased).mp hexact
  exact absurd hdvd (by decide)

/-- One insert into a new file is counted twice. -/
theorem fresh_line_counted_twice : ¬ ∀ (os : Os) (schema : TabbleInfo) (t : Tabble), schema.Layout →
    schema.lineLength * 100 < 2 ^ 64 → Reachable os schema t → t.activePlaces = t.activeCount := by
  intro h
  have hexact := h _ _ _ sampleInfo_layout (by decide) firstInserted_counted.reachable
  have hdrifted := firstInserted_counted.drifted sampleInfo_layout (by decide)
  exact absurd (hdrifted.exact_iff.mp hexact) (by decide)

end Tabble
end SQLid
