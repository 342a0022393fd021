import SQLid.Updates

/-!
# What a DELETE does

A DELETE by conditions erases the lines it is aimed at and answers with them. One that
goes to a line directly answers with that line also when there was nothing to erase.
-/
namespace SQLid
open Programs
open Tabble (Erasing LogOnly)

namespace Optimizer
variable {info : TabbleInfo}

theorem optimizeDelete_made {raw query : DeleteQuery} (h : optimizeDelete info raw = .ok query) :
    ∀ c ∈ query.conditions, c.Made info.columns := by
  obtain ⟨conditions, hconditions, h⟩ := Except_bind_ok h
  cases h
  exact optimizeConditions_made (List.forall_mem_nil _) hconditions

end Optimizer

namespace Executor

section
variable {t : Tabble} {conds : List Condition}

theorem delete_line {done : List Nat} {i : Nat} (hi : t.active i = true) (hnew : i ∉ done) (r : Result) :
    Triple (Scanned (Erasing t) idRow r done)
      (do
        let _ ← onTable (Tabble.erase i)
        pushRow [idCell i])
      (fun _ => Scanned (Erasing t) idRow r (done ++ [i])) (fun _ _ => False) := by
  have herase : Triple (Erasing t done) (Tabble.erase i) (fun _ => Erasing t (done ++ [i]))
      (fun _ _ => False) := by
    intro t' h
    obtain ⟨t'', hrun, hnext⟩ := h.erase hi hnew
    rw [hrun]
    exact .ok hnext
  have hpush := triple_pushRow (P := Erasing t (done ++ [i])) (E := fun _ _ => False) r
    (done.map idRow) (idRow i)
  have hboth := (triple_onTable_result herase (withRows r (done.map idRow))).bind fun _ => hpush
  apply hboth.conseq (fun _ hs => hs) _ fun _ _ he => he
  rintro _ s ⟨hs, hr⟩
  refine ⟨hs, ?_⟩
  rw [hr, List.map_append]
  rfl

theorem delete_lines (ht : t.Mapped) (hfill : ∀ c ∈ t.info.columns, 0 < c.size)
    (hmade : ∀ c ∈ conds, c.Made t.info.columns) (r : Result) (count n : Nat) :
    Triple (Scanned (Erasing t) idRow r [])
      (scanLines conds t.info.columns count
        (fun line => do
          let _ ← onTable (Tabble.erase line)
          pushRow [idCell line]) n 0)
      (fun _ => Scanned (Erasing t) idRow r (scannedLines t conds count 0 n))
      (fun _ s => Astray t conds n ∧
        ∃ t', Erasing t (scannedLines t conds count 0 n) t' ∧ LogOnly t' s.table) := by
  have hscan : Triple (Scanned (Erasing t) idRow r [])
      (scanLines conds t.info.columns count
        (fun line => do
          let _ ← onTable (Tabble.erase line)
          pushRow [idCell line]) n 0)
      (fun _ => Scanned (Erasing t) idRow r (scannedLines t conds count 0 n))
      (fun _ s => False ∨ (Astray t conds (0 + n) ∧
        ∃ t', Erasing t (scannedLines t conds count 0 n) t' ∧ LogOnly t' s.table)) := by
    apply scanLines_window ht hfill (fun c hc => (hmade c hc).typed)
      (Tabble.erasing_follows t conds) (Nat.zero_le _)
    intro i hi _ _ hmeets _
    apply delete_line (Tabble.meets_iff.mp hmeets).1
    rw [Scan.mem_passed hi]
    rintro ⟨⟨-, hself⟩, -⟩
    exact Nat.lt_irrefl i hself
  apply hscan.conseq (fun _ hs => hs) (fun _ _ hs => hs)
  rintro _ s (hnever | hastray)
  · exact hnever.elim
  · rwa [Nat.zero_add] at hastray

/-- A DELETE has erased `lines` and answers with these. -/
def Deleted (t : Tabble) (lines shown : List Nat) (s : Execution) : Prop :=
  UpToLog (Erasing t lines) s.table ∧ s.result.body = shown.map idRow

/-- A DELETE has failed at a read behind its last line, or before it started. -/
def Undeleted (t : Tabble) (conds : List Condition) (lines : List Nat) (s : Execution) : Prop :=
  (Strays t conds ∧ UpToLog (Erasing t lines) s.table) ∨ (maxBody < t.activePlaces ∧ s.table = t)

/-- The lines a DELETE answers with. -/
def shownLines (t : Tabble) (conds : List Condition) (limit : Nat) : List Nat :=
  match directIndex conds with
  | some (.int64 line) => [line.toNat]
  | _ => targetLines t conds limit

theorem delete_direct (ht : t.Sound) {line : Nat}
    (ha : line < t.maxLines ∨ t.peek (Tabble.onStorage (MemoryMap.isActive line)) ≠ .ok true)
    (hstrays : t.maxLines ≤ line → Strays t conds) (r : Result) :
    Triple (fun s => s.table = t ∧ s.result = withRows r [])
      (do
        if ← onTable (Tabble.onStorage (MemoryMap.isActive line)) then
          let _ ← onTable (Tabble.erase line)
          onResult fun r => { r with isSucces := true }
        pushRow [idCell line])
      (fun _ => Deleted t (if t.active line then [line] else []) [line])
      (fun _ => Undeleted t conds (if t.active line then [line] else [])) := by
  rintro ⟨t₀, r₀⟩ ⟨htable, hresult⟩
  dsimp only at htable hresult
  subst t₀ r₀
  have hstart := Erasing.refl ht
  rcases isActive_outcome ht.toMapped ha with ⟨hactive, t', hrun, hquiet⟩ | ⟨hactive, t', hlog, hcases⟩
  · obtain ⟨t'', herase, hnext⟩ := (hstart.quiet hquiet).erase hactive List.not_mem_nil
    rw [run_bind_ok (run_onTable_ok hrun), if_pos hactive, if_pos rfl]
    rw [run_bind_ok (run_onTable_ok herase)]
    exact .ok ⟨⟨t'', hnext, .refl _⟩, rfl⟩
  · rw [hactive, if_neg Bool.false_ne_true]
    rcases hcases with hrun | ⟨e, hrun⟩
    · rw [run_bind_ok (run_onTable_ok hrun), if_neg Bool.false_ne_true]
      exact .ok ⟨⟨t, hstart, hlog⟩, rfl⟩
    · rw [run_bind_error (run_onTable_error hrun)]
      have hpast : t.maxLines ≤ line := by
        by_contra hlt
        rw [ht.toMapped.isActive (by omega)] at hrun
        cases hrun
      exact .error (.inl ⟨hstrays hpast, t, hstart, hlog⟩)

theorem delete_window (ht : t.Sound) (hfill : ∀ c ∈ t.info.columns, 0 < c.size)
    (hmade : ∀ c ∈ conds, c.Made t.info.columns) (r : Result) (limit maxLine : Nat)
    (hmax : upperBound t.getMaxActiveLine conds = .ok maxLine) :
    Triple (fun s => s.table = t ∧ s.result = withRows r [])
      (do
        let count ← activeCount limit
        reserveBody count
        scanLines conds t.info.columns count
          (fun line => do
            let _ ← onTable (Tabble.erase line)
            pushRow [idCell line]) maxLine 0
        onResult fun r => { r with isSucces := true })
      (fun _ => Deleted t (scannedLines t conds
          (if t.getActivePlaces < limit then t.getActivePlaces else limit) 0 maxLine)
        (scannedLines t conds
          (if t.getActivePlaces < limit then t.getActivePlaces else limit) 0 maxLine))
      (fun _ => Undeleted t conds (scannedLines t conds
        (if t.getActivePlaces < limit then t.getActivePlaces else limit) 0 maxLine)) := by
  rintro ⟨t₀, r₀⟩ ⟨htable, hresult⟩
  dsimp only at htable hresult
  subst t₀ r₀
  generalize hcount : (if t.getActivePlaces < limit then t.getActivePlaces else limit) = count
  have hactive : (activeCount limit).run ⟨t, withRows r []⟩ = .ok count ⟨t, withRows r []⟩ := by
    rw [← hcount]
    rfl
  rw [run_bind_ok hactive]
  unfold reserveBody
  by_cases hbody : maxBody < count
  · have hplaces : count ≤ t.activePlaces := by
      rw [← hcount]
      unfold Tabble.getActivePlaces
      split <;> omega
    rw [if_pos hbody]
    exact .error (.inr ⟨by omega, rfl⟩)
  · rw [if_neg hbody]
    have hlines := delete_lines ht.toMapped hfill hmade r count maxLine
    have hdone : Triple (Scanned (Erasing t) idRow r (scannedLines t conds count 0 maxLine))
        (onResult fun r => { r with isSucces := true })
        (fun _ => Deleted t (scannedLines t conds count 0 maxLine) (scannedLines t conds count 0 maxLine))
        (fun _ s => Astray t conds maxLine ∧
          ∃ t', Erasing t (scannedLines t conds count 0 maxLine) t' ∧ LogOnly t' s.table) := by
      apply triple_modify
      rintro s ⟨hs, hr⟩
      exact ⟨⟨s.table, hs, .refl _⟩, by rw [hr]; rfl⟩
    exact ((hlines.bind fun _ => hdone) ⟨t, withRows r []⟩ ⟨Erasing.refl ht, rfl⟩).mono
      (fun _ _ h => h) fun _ _ ⟨hastray, hrest⟩ => .inl ⟨.inr ⟨maxLine, hmax, hastray⟩, hrest⟩

/-- A DELETE ends with all its lines erased; when it fails, that has nothing to do with them. -/
theorem executeDelete_outcome (ht : t.Sound) (hfill : ∀ c ∈ t.info.columns, 0 < c.size)
    {query : DeleteQuery} (hmade : ∀ c ∈ query.conditions, c.Made t.info.columns)
    (ha : Aimed t query.conditions) (r : Result) (hr : r.body = []) :
    Post (fun _ => Deleted t (targetLines t query.conditions query.limit)
        (shownLines t query.conditions query.limit))
      (fun _ => Undeleted t query.conditions (targetLines t query.conditions query.limit))
      ((executeDelete query).run ⟨t, r⟩) := by
  have hbody : r.idHeader = withRows r.idHeader [] := by
    unfold withRows
    rw [← hr]
    rfl
  unfold executeDelete shownLines
  rw [run_bind_ok (run_header t r), run_bind_ok (EStateM.run_get _)]
  cases hdir : directIndex query.conditions with
  | some desired =>
      obtain ⟨line, hline⟩ := directIndex_made hmade hdir
      have hint := directIndex_eq hdir hline
      rw [hdir] at hint
      cases hint
      unfold targetLines
      rw [hdir]
      dsimp only
      rw [hline, run_bind_ok (run_ofExcept_ok _ _)]
      exact delete_direct ht (ha line hdir) (fun hpast => .inl ⟨line, hdir, hpast⟩) r.idHeader
        ⟨t, r.idHeader⟩ ⟨rfl, hbody⟩
  | none =>
      obtain ⟨maxLine, hmax⟩ := upperBound_made hmade t.getMaxActiveLine
      unfold targetLines
      rw [hdir]
      dsimp only
      rw [run_bind_ok (EStateM.run_get _), hmax, run_bind_ok (run_ofExcept_ok _ _)]
      exact delete_window ht hfill hmade r.idHeader query.limit maxLine hmax ⟨t, r.idHeader⟩ ⟨rfl, hbody⟩

end
end Executor
end SQLid
