import SQLid.StorageSteps

/-!
# The lines left for rows

How many rows find a line depends on the stack, the first line never used, the lines
of the file and the growths the system grants.
-/
namespace SQLid

namespace Tabble

/-- What the allocator has left: freed lines, the first line never used, the lines of the
file, and the growths and bytes of the storage. -/
structure Spare where
  freed : Nat
  freeId : Nat
  maxLines : Nat
  calls : Nat
  fileSize : Nat
  deriving DecidableEq, Repr

def spare (t : Tabble) : Spare :=
  ⟨t.stackFreeId.length, t.freeId, t.maxLines, t.storage.core.calls, t.storage.core.fileSize⟩

/-- Every growth these rows need is granted; the file doubles each time. -/
def Spare.Grows (os : Os) (s : Spare) (rows : Nat) : Prop :=
  ∀ m, s.freed + s.maxLines * 2 ^ m < rows + s.freeId →
    os.grows (s.calls + m) (2 * (s.fileSize * 2 ^ m)) = true

/-- What is left after a row has got a line. -/
inductive Spare.Taken (os : Os) : Spare → Spare → Prop
  | freed {n freeId maxLines calls fileSize : Nat} :
      Taken os ⟨n + 1, freeId, maxLines, calls, fileSize⟩ ⟨n, freeId, maxLines, calls, fileSize⟩
  | fresh {freeId maxLines calls fileSize : Nat} : freeId < maxLines →
      Taken os ⟨0, freeId, maxLines, calls, fileSize⟩ ⟨0, freeId + 1, maxLines, calls, fileSize⟩
  | grown {maxLines calls fileSize : Nat} : os.grows calls (2 * fileSize) = true →
      Taken os ⟨0, maxLines, maxLines, calls, fileSize⟩
        ⟨0, maxLines + 1, 2 * maxLines, calls + 1, 2 * fileSize⟩

theorem Spare.Taken.grows {os : Os} {s s' : Spare} (h : Taken os s s') (rows : Nat) :
    s.Grows os (rows + 1) ↔ s'.Grows os rows := by
  cases h with
  | freed =>
      apply forall_congr'
      intro m
      dsimp only
      rw [Nat.add_right_comm, Nat.add_right_comm rows, Nat.add_lt_add_iff_right]
  | fresh hlt =>
      apply forall_congr'
      intro m
      dsimp only
      rw [Nat.add_assoc rows, Nat.add_comm 1]
  | @grown maxLines calls fileSize hgrows =>
      have hlines (m : Nat) : maxLines * 2 ^ (m + 1) = 2 * maxLines * 2 ^ m := by
        rw [Nat.pow_succ, Nat.mul_comm (2 ^ m) 2, ← Nat.mul_assoc, Nat.mul_comm maxLines 2]
      have hsize (m : Nat) : fileSize * 2 ^ (m + 1) = 2 * fileSize * 2 ^ m := by
        rw [Nat.pow_succ, Nat.mul_comm (2 ^ m) 2, ← Nat.mul_assoc, Nat.mul_comm fileSize 2]
      have hcalls (m : Nat) : calls + (m + 1) = calls + 1 + m := Nat.add_right_comm calls m 1
      constructor
      · intro h m hm
        have hnext := h (m + 1)
        dsimp only at hm hnext ⊢
        rw [hlines, hsize, hcalls] at hnext
        apply hnext
        omega
      · intro h m hm
        cases m with
        | zero =>
            dsimp only
            rw [Nat.pow_zero, Nat.mul_one, Nat.add_zero]
            exact hgrows
        | succ m =>
            have hnext := h m
            dsimp only at hm hnext ⊢
            rw [hlines] at hm
            rw [hsize, hcalls]
            apply hnext
            omega

/-! What an insert leaves. -/

section
variable {t t' : Tabble}

theorem Touches.spare {P : Nat → Prop} (h : Touches P t t') : t'.spare = t.spare := by
  obtain ⟨b, hb, -⟩ := h.core
  unfold Tabble.spare Tabble.maxLines
  rw [h.stack, h.freeId, hb]
  rfl

theorem Grown.spare {w : Option Nat} (g : Grown w t t') :
    t'.spare = ⟨t.stackFreeId.length, t.freeId, 2 * t.maxLines, t.storage.core.calls + 1,
      2 * t.storage.core.fileSize⟩ := by
  unfold Tabble.spare
  rw [g.stack, g.freeId, g.maxLines, g.calls, g.fileSize]

/-- Without a line for one more row there is none for several. -/
theorem Spare.not_grows {os : Os} {s : Spare} (h : ¬ s.Grows os 1) {rows : Nat} (hrows : 0 < rows) :
    ¬ s.Grows os rows := by
  intro hall
  apply h
  intro m hm
  apply hall m
  omega

/-- A free line is left for no row at all. -/
theorem Sound.grows_zero (h : t.Sound) (os : Os) : t.spare.Grows os 0 := by
  intro m hm
  have hle : t.freeId ≤ t.maxLines := h.freeId_le
  have hpow : t.maxLines ≤ t.maxLines * 2 ^ m := Nat.le_mul_of_pos_right _ (Nat.two_pow_pos m)
  dsimp only [spare] at hm
  omega

/-- Both counters moved past a line used first. -/
def bumped (t : Tabble) : Tabble :=
  { t with activePlaces := sizeAdd t.activePlaces 1, freeId := sizeAdd t.freeId 1 }

theorem bumped_spare (t : Tabble) {n : Nat} (hn : sizeAdd t.freeId 1 = n + 1) :
    t.bumped.spare = ⟨t.spare.freed, n + 1, t.spare.maxLines, t.spare.calls, t.spare.fileSize⟩ := by
  rw [← hn]
  rfl

theorem Sound.allocateId_spare (h : t.Sound) (os : Os) :
    (∃ cur t', (allocateId os).run t = .ok cur t' ∧ Spare.Taken os t.spare t'.spare) ∨
      ∃ e t', (allocateId os).run t = .error e t' ∧ t'.Gone ∧ ¬ t.spare.Grows os 1 := by
  have hle : t.freeId ≤ t.maxLines := h.freeId_le
  have hnext : sizeAdd t.freeId 1 = t.freeId + 1 :=
    sizeAdd_eq (by have := h.maxLines_lt; omega)
  cases hs : t.stackFreeId with
  | cons cur rest =>
      refine .inl ⟨cur, { t with stackFreeId := rest }, ?_, ?_⟩
      · unfold allocateId
        rw [Programs.run_bind_ok (EStateM.run_get t), hs]
        rfl
      · unfold spare
        rw [hs]
        exact .freed
  | nil =>
      have hspare : t.spare = ⟨0, t.freeId, t.maxLines, t.storage.core.calls,
          t.storage.core.fileSize⟩ := by
        unfold spare
        rw [hs]
        rfl
      by_cases hfull : t.storage.getMaxLines ≤ t.freeId
      · have heq : t.freeId = t.maxLines := Nat.le_antisymm hle hfull
        rw [heq] at hspare
        rcases h.expand_outcome os none with ⟨t₁, hrun, hgrown⟩ | ⟨e, t₁, hrun, hlost⟩
        · refine .inl ⟨t.freeId, t₁.bumped, ?_, ?_⟩
          · rw [run_allocateId_fresh hs, if_pos hfull, Programs.run_bind_ok hrun]
            rfl
          · have hgrows : os.grows t.storage.core.calls (2 * t.storage.core.fileSize) = true := by
              by_contra hnot
              obtain ⟨e, t₂, herr, -⟩ := h.expand_error os none (by simpa using hnot)
              rw [hrun] at herr
              cases herr
            have hlast : sizeAdd t₁.freeId 1 = t.maxLines + 1 := by rw [hgrown.freeId, hnext, heq]
            rw [bumped_spare t₁ hlast, hspare, hgrown.spare, hs]
            exact .grown hgrows
        · refine .inr ⟨e, t₁, ?_, hlost.gone, ?_⟩
          · rw [run_allocateId_fresh hs, if_pos hfull, Programs.run_bind_error hrun]
          · intro hgrows
            have hfirst := hgrows 0 (by rw [hspare, Nat.pow_zero]; dsimp only; omega)
            rw [hspare, Nat.pow_zero, Nat.mul_one] at hfirst
            obtain ⟨t₂, hok, -⟩ := h.expand_ok os none hfirst
            rw [hrun] at hok
            cases hok
      · refine .inl ⟨t.freeId, t.bumped, ?_, ?_⟩
        · rw [run_allocateId_fresh hs, if_neg hfull]
          rfl
        · rw [bumped_spare t hnext, hspare]
          exact .fresh (Nat.lt_of_not_le hfull)

/-- An insert takes one line of what the allocator has, or finds none and the table is gone. -/
theorem Sound.insert_spare (h : t.Sound) (os : Os) (values : List VariantTypes) (index : Nat)
    {columns : List Column} (hc : ∀ c ∈ columns, c ∈ t.info.columns)
    (hfit : ∀ j c, columns[j]? = some c → ∃ v, values[index + j]? = some v ∧
      c.offset + v.bytes.length ≤ t.info.lineLength) :
    (∃ cur t', (insert os values columns index).run t = .ok cur t' ∧
        Spare.Taken os t.spare t'.spare) ∨
      ∃ e t', (insert os values columns index).run t = .error e t' ∧ t'.Gone ∧
        ¬ t.spare.Grows os 1 := by
  rcases h.allocateId_spare os with ⟨cur, t₁, halloc, htaken⟩ | ⟨e, t₁, halloc, hgone⟩
  · rcases h.allocateId_outcome os with ⟨cur', t₂, halloc', a⟩ | ⟨-, e, t₂, halloc', -⟩
    · rw [halloc] at halloc'
      cases halloc'
      have hstart := a.started h.toMapped
      obtain ⟨t₃, hok, htouch, -⟩ := hstart.sound.updateFrom_ok os hstart.cur_lt values index
        (fun c hcm => by rw [hstart.info]; exact hc c hcm) (by rw [hstart.info]; exact hfit)
      refine .inl ⟨cur, t₃.addPlace, ?_, ?_⟩
      · rw [a.run_insert halloc, hok]
      · have hsame : t₃.addPlace.spare = t₁.spare := htouch.spare
        rwa [hsame]
    · rw [halloc] at halloc'
      cases halloc'
  · refine .inr ⟨e, t₁, ?_, hgone⟩
    unfold insert
    rw [Programs.run_bind_error halloc]

/-- A table that is gone takes no row. -/
theorem Gone.insert_error (h : t.Gone) (os : Os) (values : List VariantTypes) (columns : List Column)
    (index : Nat) : ∃ e t', (insert os values columns index).run t = .error e t' := by
  have hmark (cur : Nat) (t₁ : Tabble) (hgone : t₁.Gone) (hrun : (allocateId os).run t = .ok cur t₁) :
      ∃ e t', (insert os values columns index).run t = .error e t' := by
    have hnoted : (t₁.withHistory (t₁.history ++ [.insert cur])).Gone := ⟨hgone.expanding, hgone.mapped⟩
    obtain ⟨e, t', hflag, -⟩ := hnoted.writeFlag_error (.activate cur) cur true
    refine ⟨e, t', ?_⟩
    unfold insert
    rw [Programs.run_bind_ok hrun, Programs.run_bind_ok (run_note _ _)]
    exact Programs.run_bind_error hflag
  cases hs : t.stackFreeId with
  | cons cur rest =>
      apply hmark cur { t with stackFreeId := rest } ⟨h.expanding, h.mapped⟩
      unfold allocateId
      rw [Programs.run_bind_ok (EStateM.run_get t), hs]
      rfl
  | nil =>
      by_cases hfull : t.storage.getMaxLines ≤ t.freeId
      · have hhang := run_onStorage_error (@run_expand_hang os none _ h.expanding)
        unfold insert
        rw [EStateM.run_bind, run_allocateId_fresh hs, if_pos hfull, Programs.run_bind_error hhang]
        exact ⟨_, _, rfl⟩
      · apply hmark t.freeId t.bumped ⟨h.expanding, h.mapped⟩
        rw [run_allocateId_fresh hs, if_neg hfull]
        rfl

end
end Tabble
end SQLid
