import SQLid.Updates
import SQLid.Spares

/-!
# What an INSERT does

An INSERT fills one free line after the other. A file that is full and does not grow
ends it early, with the rows before in the file and in the answer.
-/
namespace SQLid
open Programs
open Tabble (RowSim)

namespace Tabble

/-- The rows of an INSERT so far, in the lines they went to. -/
structure Inserting (values : List VariantTypes) (t : Tabble) (done : List Nat) (t' : Tabble) :
    Prop where
  sound : t'.Sound
  info : t'.info = t.info
  nodup : done.Nodup
  free : ∀ i ∈ done, t.rowMap i = none
  stored : ∀ (r : Nat) i, done[r]? = some i →
    t'.rowMap i = some (insertedRow values (r * t.info.columns.length) t.info.columns.length)
  kept : ∀ i ∉ done, t'.rowMap i = t.rowMap i
  history : t'.history = t.history ++ done.flatMap fun i => [.insert i, .update i]

section Inserting
variable {values : List VariantTypes} {t t' : Tabble} {done : List Nat}

theorem Inserting.refl (h : t.Sound) : Inserting values t [] t :=
  ⟨h, rfl, .nil, List.forall_mem_nil _, nofun, fun _ _ => rfl, (List.append_nil _).symm⟩

theorem Inserting.active (h : Inserting values t done t') (i : Nat) :
    t'.active i = (t.active i || decide (i ∈ done)) := by
  rw [← rowMap_isSome, ← rowMap_isSome]
  by_cases hi : i ∈ done
  · obtain ⟨r, hr⟩ := List.mem_iff_getElem?.mp hi
    simp [h.stored r i hr, hi]
  · simp [h.kept i hi, hi]

/-- A growth that failed has not touched the lines of the file. -/
theorem Broken.active (h : Broken t t') : t'.active = t.active := by
  have hmax : t'.maxLines = t.maxLines := by
    change t'.storage.core.fileSize / t'.storage.core.lineLength = _
    rw [h.core.fileSize, h.core.lineLength]
    rfl
  funext i
  unfold Tabble.active
  rw [hmax]
  by_cases hi : i < t.maxLines
  · have hend := MemoryMapLinux.line_end_le (m := t.storage.core) hi
    have hpos : 0 < t.storage.core.lineLength := by
      by_contra hzero
      have hmax : t.maxLines = t.storage.core.fileSize / t.storage.core.lineLength := rfl
      rw [Nat.eq_zero_of_not_pos hzero, Nat.div_zero] at hmax
      omega
    congr 1
    change (t'.storage.core.file.byte (i * t'.storage.core.lineLength) != 0) = _
    rw [h.core.lineLength, h.core.byte_old _ (by omega)]
    rfl
  · simp [hi]

theorem onStorage_history {α : Type} (x : EStateM Fault MemoryMap α) (t : Tabble) :
    (finalState ((onStorage x).run t)).history = t.history := by
  unfold onStorage
  rw [run_zoom]
  cases x.run t.storage <;> rfl

/-- An insert that finds no room fails before it has noted anything. -/
theorem Stuck.history {os : Os} (h : Stuck os t) (ht : t.Mapped) (values : List VariantTypes)
    (columns : List Column) (index : Nat) :
    (finalState ((insert os values columns index).run t)).history = t.history := by
  have hfull : t.storage.getMaxLines ≤ t.freeId := h.full
  obtain ⟨e, t', hrun, -⟩ := ht.expand_error os none h.fails
  have hhistory := onStorage_history (MemoryMap.expand os none) t
  rw [hrun] at hhistory
  have halloc : (allocateId os).run t = .error e t' := by
    rw [run_allocateId_fresh h.stack, if_pos hfull]
    exact run_bind_error hrun
  unfold insert
  rw [run_bind_error halloc]
  exact hhistory

/-- The next row goes to a line that was free from the start, or there is no room for it
and the table is gone. -/
theorem Inserting.insert (h : Inserting values t done t') (os : Os) (hfit : t.info.ValuesFit values
      (done.length * t.info.columns.length) (List.range t.info.columns.length)) :
    (∃ cur t'', (Tabble.insert os values t.info.columns (done.length * t.info.columns.length)).run t' =
        .ok cur t'' ∧ Inserting values t (done ++ [cur]) t'' ∧ Spare.Taken os t'.spare t''.spare) ∨
      ∃ e t'', (Tabble.insert os values t.info.columns (done.length * t.info.columns.length)).run t' =
        .error e t'' ∧ e.IsGrowth ∧ (Broken t' t'' ∧ t''.history = t'.history) ∧ t''.Gone ∧
          ¬ t'.spare.Grows os 1 := by
  have hsim : RowSim t.info t' t'.rowMap := ⟨h.sound, h.info, rfl⟩
  have hpick : t.info.pick (List.range t.info.columns.length) = t.info.columns := by
    rw [TabbleInfo.pick_range, List.take_length]
  have hends := hfit.ends hsim.layout
  rw [hpick] at hends
  have hspare := h.sound.insert_spare os values (done.length * t.info.columns.length)
    (columns_of h.info) (by rw [h.info]; exact hends)
  rcases h.sound.insert_ok os values (done.length * t.info.columns.length)
    (columns_of h.info) (by rw [h.info]; exact hends) with
    ⟨cur, t₁, -, hstart, hok, -⟩ | ⟨hstuck, e, t₁, herr, hgrowth, hbroken⟩
  · rcases hsim.insert os hfit with ⟨cur', t₂, hok', hnone, hnext⟩ | ⟨e, t₂, herr, -⟩
    · rw [hok] at hok'
      cases hok'
      have hnew : cur ∉ done := by
        intro hmem
        obtain ⟨r, hr⟩ := List.mem_iff_getElem?.mp hmem
        rw [h.stored r cur hr] at hnone
        cases hnone
      obtain ⟨t₂, hrun, htaken⟩ : ∃ t₂, (Tabble.insert os values t.info.columns
          (done.length * t.info.columns.length)).run t' = .ok cur t₂ ∧
          Spare.Taken os t'.spare t₂.spare := by
        rcases hspare with ⟨cur', t₂, hrun, htaken⟩ | ⟨e, t₂, hrun, -⟩
        · rw [hok] at hrun
          cases hrun
          exact ⟨_, hok, htaken⟩
        · rw [hok] at hrun
          cases hrun
      rw [hok] at hrun
      cases hrun
      refine .inl ⟨cur, _, hok, ⟨hnext.sound, hnext.schema, ?_, ?_, ?_, ?_, ?_⟩, htaken⟩
      · exact List.nodup_append.mpr ⟨h.nodup, List.nodup_singleton cur, fun i hi j hj hij => by
          rw [hij, List.mem_singleton.mp hj] at hi
          exact hnew hi⟩
      · intro i hi
        rcases List.mem_append.mp hi with hi | hi
        · exact h.free i hi
        · rw [List.mem_singleton.mp hi, ← h.kept cur hnew]
          exact hnone
      · intro r i hr
        rw [← hnext.rows]
        by_cases hlast : r < done.length
        · rw [List.getElem?_append_left hlast] at hr
          have hne : i ≠ cur := by
            rintro rfl
            exact hnew (List.mem_of_getElem? hr)
          rw [Function.update_of_ne hne]
          exact h.stored r i hr
        · rw [List.getElem?_append_right (Nat.le_of_not_lt hlast)] at hr
          have hrow : r = done.length := by
            have := (List.getElem?_eq_some_iff.mp hr).1
            simp only [List.length_singleton] at this
            omega
          subst hrow
          rw [Nat.sub_self] at hr
          cases hr
          rw [Function.update_self]
      · intro i hi
        rw [← hnext.rows, Function.update_of_ne fun heq => hi (by simp [heq])]
        exact h.kept i fun hmem => hi (List.mem_append_left _ hmem)
      · have hhistory : t₁.addPlace.history = t'.history ++ [.insert cur, .update cur] := hstart.history
        rw [hhistory, h.history, List.flatMap_append, List.append_assoc]
        rfl
    · rw [hok] at herr
      cases herr
  · have hhistory := hstuck.history h.sound.toMapped values t.info.columns
      (done.length * t.info.columns.length)
    rw [herr] at hhistory
    rcases hspare with ⟨cur, t₂, hrun, -⟩ | ⟨e', t₂, hrun, hgone⟩
    · rw [herr] at hrun
      cases hrun
    · rw [herr] at hrun
      cases hrun
      exact .inr ⟨e, t₁, herr, hgrowth, ⟨hbroken, hhistory⟩, hgone⟩

end Inserting
end Tabble

namespace Executor
open Tabble (Inserting Broken)

/-- An INSERT has filled a line with each of its rows and answers with the lines. -/
def Inserted (values : List VariantTypes) (t : Tabble) (rows : Nat) (s : Execution) : Prop :=
  ∃ done, done.length = rows ∧ Inserting values t done s.table ∧ s.result.body = done.map idRow

/-- The file has not grown; the rows before that are in it, and in the answer. -/
def InsertStopped (values : List VariantTypes) (t : Tabble) (s : Execution) : Prop :=
  ∃ done t', Inserting values t done t' ∧ Broken t' s.table ∧ s.table.history = t'.history ∧
    s.result.body = done.map idRow

/-- The rows so far, and whether there is room for the others. -/
def Filling (values : List VariantTypes) (t : Tabble) (os : Os) (rows : Nat) (done : List Nat)
    (t' : Tabble) : Prop :=
  Inserting values t done t' ∧ (t'.spare.Grows os (rows - done.length) ↔ t.spare.Grows os rows)

/-- The rows before the one without a line are answered, and the table is gone. -/
def Short (rows : Nat) (s : Execution) : Prop :=
  s.table.Gone ∧ ∃ done : List Nat, done.length < rows ∧ s.result.body = done.map idRow

/-- There was no room for all rows. -/
structure Stopped (values : List VariantTypes) (t : Tabble) (os : Os) (rows : Nat) (s : Execution) :
    Prop where
  written : InsertStopped values t s
  short : Short rows s
  room : ¬ t.spare.Grows os rows

section
variable {t : Tabble} {values : List VariantTypes} {rows : Nat}

theorem insertFrom_lines (os : Os) (hcols : 0 < t.info.columns.length)
    (hrows : t.info.FullRows values rows) (res : Result) (n : Nat) (done : List Nat)
    (hdone : done.length ≤ rows) (hn : rows ≤ done.length + n) :
    Triple (Scanned (Filling values t os rows) idRow res done)
      (insertFrom os values t.info.columns n (done.length * t.info.columns.length))
      (fun _ s => Inserted values t rows s ∧ t.spare.Grows os rows)
      (fun e s => e.IsGrowth ∧ Stopped values t os rows s) := by
  have hend (done : List Nat) (hlast : done.length = rows) (s : Execution)
      (hs : Scanned (Filling values t os rows) idRow res done s) :
      Inserted values t rows s ∧ t.spare.Grows os rows := by
    obtain ⟨⟨hins, hroom⟩, hr⟩ := hs
    refine ⟨⟨done, hlast, hins, by rw [hr]; rfl⟩, hroom.mp ?_⟩
    rw [hlast, Nat.sub_self]
    exact hins.sound.grows_zero os
  induction n generalizing done with
  | zero =>
      intro s hs
      exact .ok (hend done (by omega) s hs)
  | succ n ih =>
      unfold insertFrom
      apply triple_ite
      · intro hlt
        have hlast : done.length < rows := by
          rw [hrows.length] at hlt
          exact Nat.lt_of_mul_lt_mul_right hlt
        rintro ⟨t', r'⟩ ⟨⟨hs, hroom⟩, hr⟩
        dsimp only at hs hroom hr
        subst hr
        rcases hs.insert os (hrows.fits _ hlast) with
          ⟨cur, t'', hrun, hnext, htaken⟩ | ⟨e, t'', hrun, hgrowth, ⟨hbroken, hhistory⟩, hgone, hnot⟩
        · rw [run_bind_ok (run_onTable_ok hrun)]
          have hlen : (done ++ [cur]).length = done.length + 1 := List.length_append
          have hrest := ih (done ++ [cur]) (by omega) (by omega)
          rw [hlen, Nat.succ_mul] at hrest
          apply hrest
          refine ⟨⟨hnext, ?_⟩, ?_⟩
          · have hsum : rows - (done.length + 1) + 1 = rows - done.length := by omega
            rw [← hroom, ← hsum, htaken.grows, hlen]
          · change withRows res (done.map idRow ++ [idRow cur]) = _
            rw [List.map_append]
            rfl
        · rw [run_bind_error (run_onTable_error hrun)]
          refine .error ⟨hgrowth, ⟨done, t', hs, hbroken, hhistory, rfl⟩, ⟨hgone, done, hlast, rfl⟩, ?_⟩
          rw [← hroom]
          exact Tabble.Spare.not_grows hnot (by omega)
      · intro hge s hs
        refine .ok (hend done ?_ s hs)
        by_contra hne
        apply hge
        rw [hrows.length]
        exact Nat.mul_lt_mul_of_pos_right (by omega) hcols

/-- An INSERT always answers, with all its rows just when there is room for them. -/
theorem executeInsert_room (ht : t.Sound) (os : Os) (hcols : 0 < t.info.columns.length)
    {query : InsertQuery} (hrows : t.info.FullRows query.values rows) (r : Result) (hr : r.body = []) :
    Post (fun _ s => Inserted query.values t rows s ∧ t.spare.Grows os rows ∨
        Stopped query.values t os rows s)
      (fun _ _ => False) ((executeInsert os query).run ⟨t, r⟩) := by
  have hrounds : rows ≤ 0 + query.values.length := by
    rw [hrows.length, Nat.zero_add]
    exact Nat.le_mul_of_pos_right rows hcols
  have hloop := insertFrom_lines os hcols hrows r.idHeader query.values.length [] (Nat.zero_le _) hrounds
  rw [List.length_nil, Nat.zero_mul] at hloop
  have hdone : Triple (fun s => Inserted query.values t rows s ∧ t.spare.Grows os rows)
      (onResult fun r => { r with messeage := CppText.str "Inserted", isSucces := true })
      (fun _ s => Inserted query.values t rows s ∧ t.spare.Grows os rows ∨
        Stopped query.values t os rows s)
      (fun e s => e.IsGrowth ∧ Stopped query.values t os rows s) :=
    triple_modify fun _ hs => .inl hs
  have hcatch (e : Fault) : Triple (fun s => e.IsGrowth ∧ Stopped query.values t os rows s)
      (if e.isException then onResult fun r => { r with error := e.what } else throw e)
      (fun _ s => Inserted query.values t rows s ∧ t.spare.Grows os rows ∨
        Stopped query.values t os rows s)
      (fun _ _ => False) := by
    apply triple_ite
    · intro _
      exact triple_modify fun _ hs => .inr ⟨hs.2.written, hs.2.short, hs.2.room⟩
    · intro hraise
      apply triple_throw
      rintro s ⟨hgrowth, -⟩
      apply hraise
      rcases hgrowth with rfl | rfl <;> rfl
  have hall := triple_tryCatch (hloop.bind fun _ => hdone) hcatch
  have hbody : r.idHeader = withRows r.idHeader [] := by
    unfold withRows
    rw [← hr]
    rfl
  unfold executeInsert
  rw [run_bind_ok (run_header t r), run_bind_ok (EStateM.run_get _)]
  exact hall ⟨t, r.idHeader⟩ ⟨⟨Inserting.refl ht, Iff.rfl⟩, hbody⟩

theorem executeInsert_outcome (ht : t.Sound) (os : Os) (hcols : 0 < t.info.columns.length)
    {query : InsertQuery} (hrows : t.info.FullRows query.values rows) (r : Result) (hr : r.body = []) :
    Post (fun _ s => Inserted query.values t rows s ∨ InsertStopped query.values t s)
      (fun _ _ => False) ((executeInsert os query).run ⟨t, r⟩) :=
  (executeInsert_room ht os hcols hrows r hr).mono
    (fun _ _ h => h.imp And.left Stopped.written) fun _ _ h => h

/-- On a table that is gone an INSERT answers without a line, or faults. -/
theorem executeInsert_gone (ht : t.Gone) (os : Os) {query : InsertQuery} (hvalues : query.values ≠ [])
    (r : Result) (hr : r.body = []) :
    Post (fun _ s => s.result.body = []) (fun _ _ => True) ((executeInsert os query).run ⟨t, r⟩) := by
  obtain ⟨e, t', hrun⟩ := ht.insert_error os query.values t.info.columns 0
  obtain ⟨n, hn⟩ := Nat.exists_eq_succ_of_ne_zero (List.length_pos_iff.mpr hvalues).ne'
  have hloop : (insertFrom os query.values t.info.columns query.values.length 0).run ⟨t, r.idHeader⟩ =
      .error e ⟨t', r.idHeader⟩ := by
    rw [hn]
    unfold insertFrom
    rw [if_pos (List.length_pos_iff.mpr hvalues)]
    exact run_bind_error (run_onTable_error hrun)
  unfold executeInsert
  rw [run_bind_ok (run_header t r), run_bind_ok (EStateM.run_get _), run_tryCatch,
    run_bind_error hloop]
  dsimp only
  split_ifs
  · exact .ok hr
  · exact .error trivial

end
end Executor
end SQLid
