import SQLid.ReportedIds
import SQLid.Selects
import Mathlib.Data.List.Sort

/-!
# When a statement acts on given lines

Each statement goes to one line directly or scans the lines of a window. It acts on
given lines if they are that one line, or those the scan picks, and every read on the
way there answers.
-/
namespace SQLid
open Programs
open Tabble (Erasing Rewritten LogOnly writtenColumns Advanced Halted)

/-! Rows and their lines. -/

/-- The line in the id cell of a row. -/
def rowLine (row : List VariantTypes) : Nat :=
  match row.head? with
  | some (.int64 line) => line.toNat
  | _ => 0

theorem rowLine_of_head {row : List VariantTypes} {i : Nat} (hi : i < 2 ^ 64)
    (h : row.head? = some (Executor.idCell i)) : rowLine row = i := by
  unfold rowLine
  rw [h]
  exact (BitVec.toNat_ofNat _ _).trans (Nat.mod_eq_of_lt hi)

section
variable {t : Tabble} {ids : List Nat} {lines lines' : List Nat}

theorem rowLine_selectedRow {i : Nat} (hi : i < 2 ^ 64) : rowLine (t.selectedRow ids i) = i :=
  rowLine_of_head hi rfl

/-- Rows of lines in ascending order show which lines they are. -/
theorem selectedRows_perm (hlines : lines.Pairwise (· < ·)) (hlines' : lines'.Pairwise (· < ·))
    (hlt : ∀ i ∈ lines, i < 2 ^ 64) (hlt' : ∀ i ∈ lines', i < 2 ^ 64)
    (h : (lines.map (t.selectedRow ids)).Perm (lines'.map (t.selectedRow ids))) : lines = lines' := by
  have hback : ∀ l : List Nat, (∀ i ∈ l, i < 2 ^ 64) → (l.map (t.selectedRow ids)).map rowLine = l := by
    intro l hl
    rw [List.map_map]
    exact (List.map_congr_left fun i hi => rowLine_selectedRow (hl i hi)).trans (List.map_id l)
  have hperm := h.map rowLine
  rw [hback lines hlt, hback lines' hlt'] at hperm
  exact hperm.eq_of_pairwise (fun a b _ _ hab hba => absurd (hab.trans hba) (Nat.lt_irrefl a)) hlines hlines'

theorem picked_pairwise (p : Nat → Bool) (start n k : Nat) :
    (Scan.picked p start n k).Pairwise (· < ·) := by
  have hrange : (List.range' start n).Pairwise (· < ·) := List.pairwise_lt_range'
  exact (hrange.filter p).sublist (List.take_sublist k _)

end

namespace Executor

/-! SELECT. -/

section
variable {t : Tabble} {query : SelectQuery} {lines : List Nat} {r : Result}

/-- The SELECT answers with the rows of these lines, sorted if it is to, and leaves the table alone. -/
def Answers (t : Tabble) (query : SelectQuery) (lines : List Nat) (x : EStateM.Result Fault Execution Unit) :
    Prop :=
  ∃ s, x = .ok () s ∧ LogOnly t s.table ∧ Selected t query lines s

/-- One row is read and answered. -/
theorem push_row (i : Nat) (ids : List Nat) (columns : List Column) :
    Triple (fun s => s.result.body = []) (do pushRow (← onTable (readRecord i ids columns)))
      (fun _ s => ∃ row, s.result.body = [row] ∧ row.head? = some (idCell i)) fun _ _ => True := by
  have hread : Triple (fun s : Execution => s.result.body = []) (onTable (readRecord i ids columns))
      (fun row s => s.result.body = [] ∧ row.head? = some (idCell i)) fun _ _ => True := by
    have hhead : Triple (fun _ : Tabble => True) (readRecord i ids columns)
        (fun row _ => row.head? = some (idCell i)) fun _ _ => True :=
      (triple_true _).bind fun cells => triple_pure fun _ _ => rfl
    exact triple_zoom fun s hs => (hhead s.table trivial).mono (fun _ _ h => ⟨hs, h⟩) fun _ _ h => h
  refine hread.bind fun row => triple_modify fun s ⟨hs, hhead⟩ => ⟨row, ?_, hhead⟩
  change s.result.body ++ [row] = [row]
  rw [hs, List.nil_append]

section lookup
variable (ht : t.Mapped) (hfill : ∀ c ∈ t.info.columns, 0 < c.size)
  (hids : ∀ id ∈ query.columnsOptimized, id < t.info.columns.length) {line : BitVec 64}
  (hdir : directIndex query.conditions = some (.int64 line)) (hr : r.body = [])
include ht hids hdir hr

/-- A lookup that answers with these lines has looked up the only one of them. -/
theorem lookup_answered {s : Execution} (hok : (executeSelect query).run ⟨t, r⟩ = .ok () s)
    (hlines : ∀ i ∈ lines, i < t.maxLines)
    (hperm : s.result.body.Perm (lines.map (t.selectedRow query.columnsOptimized))) :
    lines = [line.toNat] := by
  have hmax := ht.maxLines_lt
  obtain ⟨header, hrun⟩ := run_executeSelect_lookup hids hdir r
  rw [hrun] at hok
  obtain ⟨row, hrow, hhead⟩ := (push_row line.toNat query.columnsOptimized t.info.columns).ok hr hok
  rw [hrow] at hperm
  obtain ⟨i, rfl⟩ := List.length_eq_one_iff.mp (by simpa using hperm.length_eq.symm)
  have hsame : row = t.selectedRow query.columnsOptimized i := by
    simpa using hperm
  have hi := hlines i List.mem_cons_self
  have hline := rowLine_of_head line.isLt hhead
  rw [hsame, rowLine_selectedRow (by omega)] at hline
  rw [hline]

include hfill in
/-- A lookup of a line of the file answers with it. -/
theorem lookup_answers (hin : line.toNat < t.maxLines) :
    Answers t query [line.toNat] ((executeSelect query).run ⟨t, r⟩) := by
  obtain ⟨header, hrun⟩ := run_executeSelect_lookup hids hdir r
  rw [hrun]
  have hwith : withRows (r.selectHeader header) [] = r.selectHeader header := by
    unfold withRows
    rw [← hr]
    rfl
  have hpost := select_line (I := fun _ => True) ht hfill hids hin (fun _ _ _ => trivial)
    (r.selectHeader header) [] (fun _ _ => False) ⟨t, r.selectHeader header⟩ ⟨.refl _ t, hwith.symm⟩
  generalize (do pushRow (← onTable (readRecord line.toNat query.columnsOptimized t.info.columns)) :
    EStateM Fault Execution Unit).run ⟨t, r.selectHeader header⟩ = result at hpost
  cases hpost with
  | error hnever => exact hnever.elim
  | ok hdone =>
      obtain ⟨hadds, hbody⟩ := hdone
      refine ⟨_, rfl, hadds.logOnly, ?_⟩
      unfold Selected
      rw [hbody]
      split_ifs
      · exact (List.mergeSort_singleton _).symm
      · rfl

end lookup

section scan
variable (ht : t.Mapped) (hfill : ∀ c ∈ t.info.columns, 0 < c.size)
  (hids : ∀ id ∈ query.columnsOptimized, id < t.info.columns.length)
  (hdir : directIndex query.conditions = none) {start stop : Nat} {conds : List Condition}
  (hstrip : stripSelect 0 t.getMaxActiveLine query.conditions = .ok (start, stop, conds))
  (hplaces : t.activePlaces ≤ maxBody) (hr : r.body = [])
include ht hfill hids hdir hstrip hplaces hr

/-- A scan that comes to its end answers with the lines it picks. -/
theorem scan_answers
    (hswept : Scan.Swept (Tested t conds) (t.meets conds) (rowBound t query.limit) start (stop - start)) :
    Answers t query (Scan.picked (t.meets conds) start (stop - start) (rowBound t query.limit))
      ((executeSelect query).run ⟨t, r⟩) := by
  have hpost := executeSelect_swept (I := fun _ => True) ht hfill hids hdir hstrip hplaces
    (fun i (hi : Tested t conds i) => ⟨hi, fun _ _ _ => trivial⟩) hswept r hr
  generalize (executeSelect query).run ⟨t, r⟩ = result at hpost
  cases hpost with
  | error hnever => exact hnever.elim
  | ok hdone => exact ⟨_, rfl, hdone.1.logOnly, hdone.2⟩

/-- A scan that answers with these lines, in their order or not, has come to its end and picked them. -/
theorem scan_answered (hstop : stop ≤ 2 ^ 64) {s : Execution}
    (hok : (executeSelect query).run ⟨t, r⟩ = .ok () s) (hlines : ∀ i ∈ lines, i < t.maxLines)
    (hsorted : lines.Pairwise (· < ·))
    (hperm : s.result.body.Perm (lines.map (t.selectedRow query.columnsOptimized))) :
    Scan.Swept (Tested t conds) (t.meets conds) (rowBound t query.limit) start (stop - start) ∧
      Scan.picked (t.meets conds) start (stop - start) (rowBound t query.limit) = lines := by
  have hmax := ht.maxLines_lt
  by_cases hswept : Scan.Swept (Tested t conds) (t.meets conds) (rowBound t query.limit) start (stop - start)
  · obtain ⟨s', hok', -, hselected⟩ := scan_answers ht hfill hids hdir hstrip hplaces hr hswept
    rw [hok] at hok'
    cases hok'
    refine ⟨hswept, selectedRows_perm (picked_pairwise _ _ _ _) hsorted (fun i hi => ?_) (fun i hi => ?_)
      (hselected.perm.symm.trans hperm)⟩
    · have hactive := (Tabble.meets_iff.mp (Scan.mem_picked hi).2.2).1
      have hlt := (Tabble.active_iff.mp hactive).1
      omega
    · have hlt := hlines i hi
      omega
  · have hpost := executeSelect_unswept ht hfill hids hdir hstrip hplaces hstop hswept r hr
    rw [hok] at hpost
    cases hpost with
    | ok hbeyond =>
        obtain ⟨row, hrow, i, hi, hlt, hhead⟩ := hbeyond
        obtain ⟨j, hj, rfl⟩ := List.mem_map.mp (hperm.mem_iff.mp hrow)
        have hin := hlines j hj
        have hline := rowLine_of_head hlt hhead
        rw [rowLine_selectedRow (by omega)] at hline
        omega

end scan
end

/-! DELETE and UPDATE. -/

section
variable {t : Tabble} {lines : List Nat} {r : Result}

/-- A line that is tested directly is in the file or reads as one that is not active. -/
def Probed (t : Tabble) (line : Nat) : Prop :=
  line < t.maxLines ∨ t.peek (Tabble.onStorage (MemoryMap.isActive line)) = .ok false

/-- The test of a line, where it answers. -/
theorem probed_run {line : Nat} (ht : t.Mapped) (h : Probed t line) : ∃ t',
    (Tabble.onStorage (MemoryMap.isActive line)).run t = .ok (t.active line) t' ∧ LogOnly t t' ∧
      (t.active line = true → Tabble.Quiet t t') := by
  have hreads := Tabble.reads_isActive line
  by_cases hlt : line < t.maxLines
  · obtain ⟨t', hrun, hquiet⟩ := hreads.quiet hlt (ht.peek_isActive hlt)
    rw [← Tabble.active_of_lt hlt] at hrun
    exact ⟨t', hrun, hquiet.logOnly, fun _ => hquiet⟩
  · have hinactive : t.active line = false := by simp [Tabble.active, hlt]
    obtain ⟨l, -, hrun⟩ := hreads.run_ok (h.resolve_left hlt)
    rw [hinactive]
    exact ⟨_, hrun, ⟨l, rfl⟩, fun hactive => by cases hactive⟩

/-- Where it does not answer that, it faults or takes a line behind the file for an active one. -/
theorem unprobed_run {line : Nat} (h : ¬ Probed t line) : ∃ t', LogOnly t t' ∧
    ((∃ e, (Tabble.onStorage (MemoryMap.isActive line)).run t = .error e t') ∨
      (t.maxLines ≤ line ∧ (Tabble.onStorage (MemoryMap.isActive line)).run t = .ok true t')) := by
  have hreads := Tabble.reads_isActive line
  have hpast : t.maxLines ≤ line := Nat.le_of_not_lt fun hlt => h (.inl hlt)
  cases hpeek : t.peek (Tabble.onStorage (MemoryMap.isActive line)) with
  | error e =>
      obtain ⟨l, -, hrun⟩ := hreads.run_error hpeek
      exact ⟨_, ⟨l, rfl⟩, .inl ⟨e, hrun⟩⟩
  | ok b =>
      cases b with
      | false => exact absurd (.inr hpeek) h
      | true =>
          obtain ⟨l, -, hrun⟩ := hreads.run_ok hpeek
          exact ⟨_, ⟨l, rfl⟩, .inr ⟨hpast, hrun⟩⟩

/-- What a program on the storage does is no row operation. -/
theorem onStorage_history {α : Type} (x : EStateM Fault MemoryMap α) (ops : List RowOp) :
    Triple (fun t : Tabble => t.history = ops) (Tabble.onStorage x) (fun _ t => t.history = ops)
      fun _ _ => True :=
  triple_zoom fun _ ht => ((triple_true x) _ trivial).mono (fun _ _ _ => ht) fun _ _ _ => trivial

theorem erase_history (line : Nat) (ops : List RowOp) :
    Triple (fun t : Tabble => t.history = ops) (Tabble.erase line)
      (fun _ (t : Tabble) => t.history = ops ++ [.erase line]) fun _ _ => True := by
  unfold Tabble.erase Tabble.note Tabble.pushInStack
  have hnote : Triple (fun t : Tabble => t.history = ops)
      (modify fun t : Tabble => { t with history := t.history ++ [.erase line] })
      (fun _ (t : Tabble) => t.history = ops ++ [.erase line]) fun (_ : Fault) _ => True :=
    triple_modify fun t ht => by rw [ht]
  exact hnote.bind fun _ => (onStorage_history _ _).bind fun _ t ht => .ok ht

theorem updateFrom_history (os : Os) (values : List VariantTypes) (line : Nat) (ops : List RowOp) (i : Nat)
    (columns : List Column) :
    Triple (fun t : Tabble => t.history = ops) (Tabble.updateFrom os values line i columns)
      (fun _ t => t.history = ops) fun _ _ => True := by
  induction columns generalizing i with
  | nil => exact triple_pure fun _ ht => ht
  | cons column columns ih =>
    unfold Tabble.updateFrom
    cases values[i]? with
    | none => exact triple_throw fun _ _ => trivial
    | some value => exact (onStorage_history _ ops).bind fun _ => ih (i + 1)

theorem update_history (os : Os) (values : List VariantTypes) (columns : List Column) (line : Nat)
    (ops : List RowOp) :
    Triple (fun t : Tabble => t.history = ops) (Tabble.update os values columns line 0)
      (fun _ (t : Tabble) => t.history = ops ++ [.update line]) fun _ _ => True := by
  unfold Tabble.update Tabble.note
  have hnote : Triple (fun t : Tabble => t.history = ops)
      (modify fun t : Tabble => { t with history := t.history ++ [.update line] })
      (fun _ (t : Tabble) => t.history = ops ++ [.update line]) fun (_ : Fault) _ => True :=
    triple_modify fun t ht => by rw [ht]
  exact hnote.bind fun _ => updateFrom_history os values line _ 0 columns

/-- A DELETE or UPDATE that finds no direct lookup scans from the first line. -/
theorem run_window (query : QueryBase) (r : Result) (act : Nat → EStateM Fault Execution Unit) {maxLine : Nat}
    (hmax : upperBound t.getMaxActiveLine query.conditions = .ok maxLine)
    (hplaces : t.activePlaces ≤ maxBody) (rest : EStateM Fault Execution Unit) (hr : r.body = []) :
    (do
      let maxLine ← Programs.ofExcept (upperBound (← get).table.getMaxActiveLine query.conditions)
      let count ← activeCount query.limit
      reserveBody count
      scanLines query.conditions t.info.columns count act maxLine 0
      rest : EStateM Fault Execution Unit).run ⟨t, r⟩ =
      (scanLines query.conditions t.info.columns (rowBound t query.limit) act maxLine 0 >>= fun _ => rest).run
        ⟨t, withRows r []⟩ := by
  have hbody : withRows r [] = r := by
    unfold withRows
    rw [← hr]
  have hactive : (activeCount query.limit).run ⟨t, r⟩ = .ok (rowBound t query.limit) ⟨t, r⟩ := rfl
  have hreserve : (reserveBody (rowBound t query.limit)).run ⟨t, r⟩ = .ok () ⟨t, r⟩ := by
    have hle : rowBound t query.limit ≤ t.activePlaces := by
      unfold rowBound Tabble.getActivePlaces
      split <;> omega
    unfold reserveBody
    rw [if_neg (by omega)]
    rfl
  rw [hbody, run_bind_ok (EStateM.run_get _), hmax, run_bind_ok (run_ofExcept_ok _ _), run_bind_ok hactive,
    run_bind_ok hreserve]

theorem run_executeDelete_scan {query : DeleteQuery} {maxLine : Nat}
    (hdir : directIndex query.conditions = none)
    (hmax : upperBound t.getMaxActiveLine query.conditions = .ok maxLine)
    (hplaces : t.activePlaces ≤ maxBody) (hr : r.body = []) :
    (executeDelete query).run ⟨t, r⟩ =
      (scanLines query.conditions t.info.columns (rowBound t query.limit)
        (fun line => do
          let _ ← onTable (Tabble.erase line)
          pushRow [idCell line]) maxLine 0 >>= fun _ => onResult fun r => { r with isSucces := true }).run
        ⟨t, withRows r.idHeader []⟩ := by
  unfold executeDelete
  rw [run_bind_ok (run_header t r), run_bind_ok (EStateM.run_get _), hdir]
  exact run_window query.toQueryBase r.idHeader _ hmax hplaces _ hr

theorem run_executeUpdate_scan {query : UpdateQuery} {os : Os} {picked : List Column} {maxLine : Nat}
    (hcolumns : columnsAt t.info.columns query.columnsOptimized = .ok picked)
    (hdir : directIndex query.conditions = none)
    (hmax : upperBound t.getMaxActiveLine query.conditions = .ok maxLine)
    (hplaces : t.activePlaces ≤ maxBody) (hr : r.body = []) :
    (executeUpdate os query).run ⟨t, r⟩ =
      (scanLines query.conditions t.info.columns (rowBound t query.limit)
        (fun line => do
          onTable (Tabble.update os query.values picked line 0)
          pushRow [idCell line]) maxLine 0).run ⟨t, withRows r.idHeader []⟩ := by
  unfold executeUpdate
  rw [run_bind_ok (run_header t r), run_bind_ok (EStateM.run_get _)]
  dsimp only
  rw [hcolumns, run_bind_ok (run_ofExcept_ok _ _), hdir]
  have hend := run_window query.toQueryBase r.idHeader
    (fun line => do
      onTable (Tabble.update os query.values picked line 0)
      pushRow [idCell line]) hmax hplaces (pure ()) hr
  simp only [bind_pure_unit] at hend
  exact hend

/-- The DELETE erases these lines and no others. -/
def Erases (t : Tabble) (lines : List Nat) (x : EStateM.Result Fault Execution Unit) : Prop :=
  ∃ s, x = .ok () s ∧ UpToLog (Erasing t lines) s.table

/-- The UPDATE writes its values over these lines and no others. -/
def Rewrites (values : List VariantTypes) (picked : List Column) (t : Tabble) (lines : List Nat)
    (x : EStateM.Result Fault Execution Unit) : Prop :=
  ∃ s, x = .ok () s ∧ UpToLog (Advanced values picked t lines) s.table

theorem upToLog_history {R : Tabble → Prop} {ops : List RowOp} (hR : ∀ t', R t' → t'.history = ops)
    {t' : Tabble} (h : UpToLog R t') : t'.history = ops := by
  obtain ⟨t'', hR', l, rfl⟩ := h
  exact hR t'' hR'

theorem erasing_lines {t' : Tabble} (h : UpToLog (Erasing t lines) t') :
    t'.history = t.history ++ lines.map RowOp.erase :=
  upToLog_history (fun _ h => h.history) h

theorem advanced_lines {values : List VariantTypes} {picked : List Column} {t' : Tabble}
    (h : UpToLog (Advanced values picked t lines) t') : t'.history = t.history ++ lines.map RowOp.update :=
  upToLog_history (fun _ h => h.rewritten.history) h

theorem erase_lines_inj {lines' : List Nat}
    (h : t.history ++ lines.map RowOp.erase = t.history ++ lines'.map RowOp.erase) : lines = lines' :=
  List.map_injective_iff.mpr (fun _ _ h => RowOp.erase.inj h) (List.append_cancel_left h)

theorem update_lines_inj {lines' : List Nat}
    (h : t.history ++ lines.map RowOp.update = t.history ++ lines'.map RowOp.update) : lines = lines' :=
  List.map_injective_iff.mpr (fun _ _ h => RowOp.update.inj h) (List.append_cancel_left h)

/-- A DELETE by a scan erases what the scan picks, if it comes to its end. -/
theorem scan_erases_iff {query : DeleteQuery} (ht : t.Sound) (hfill : ∀ c ∈ t.info.columns, 0 < c.size)
    (hdir : directIndex query.conditions = none) {maxLine : Nat}
    (hmax : upperBound t.getMaxActiveLine query.conditions = .ok maxLine)
    (hplaces : t.activePlaces ≤ maxBody) (hr : r.body = []) :
    Erases t lines ((executeDelete query).run ⟨t, r⟩) ↔
      Scan.Swept (Legible t query.conditions) (t.meets query.conditions) (rowBound t query.limit) 0 maxLine ∧
        Scan.picked (t.meets query.conditions) 0 maxLine (rowBound t query.limit) = lines := by
  rw [run_executeDelete_scan hdir hmax hplaces hr]
  have hrounds : Scan.Rounds (fun s : Execution => s.result.body.length) (rowBound t query.limit)
      (fun line => onTable (selects query.conditions t.info.columns line))
      (fun line => do
        let _ ← onTable (Tabble.erase line)
        pushRow [idCell line])
      (Legible t query.conditions) (t.meets query.conditions) (Scanned (Erasing t) idRow r.idHeader)
      (fun _ _ => False) 0 maxLine := by
    apply scan_rounds hfill (Tabble.erasing_follows t query.conditions)
    intro i hi _ _ hmeets _
    apply delete_line (Tabble.meets_iff.mp hmeets).1
    rw [Scan.mem_passed hi]
    rintro ⟨⟨-, hself⟩, -⟩
    exact Nat.lt_irrefl i hself
  have hstart : Scanned (Erasing t) idRow r.idHeader [] ⟨t, withRows r.idHeader []⟩ := ⟨Erasing.refl ht, rfl⟩
  rcases Scan.swept_or_stuck (Legible t query.conditions) (t.meets query.conditions)
    (rowBound t query.limit) 0 maxLine with hswept | ⟨m, hstuck⟩
  · have hdone : Triple (Scanned (Erasing t) idRow r.idHeader
          (Scan.picked (t.meets query.conditions) 0 maxLine (rowBound t query.limit)))
        (onResult fun r => { r with isSucces := true })
        (fun _ s => Erasing t (Scan.picked (t.meets query.conditions) 0 maxLine (rowBound t query.limit)) s.table)
        fun _ _ => False := triple_modify fun s hs => hs.1
    have hpost := ((hrounds.swept hswept).bind fun _ => hdone) _ hstart
    unfold scanLines
    generalize (Scan.loop _ _ _ _ maxLine 0 >>= fun _ => _ : EStateM Fault Execution Unit).run _ = result at hpost ⊢
    cases hpost with
    | error hnever => exact hnever.elim
    | ok herasing =>
        constructor
        · rintro ⟨s, hok, hwanted⟩
          cases hok
          exact ⟨hswept, erase_lines_inj (herasing.history.symm.trans (erasing_lines hwanted))⟩
        · rintro ⟨-, rfl⟩
          exact ⟨_, rfl, _, herasing, .refl _⟩
  · refine iff_of_false (fun herases => ?_) fun h => Scan.not_swept_of_stuck hstuck h.1
    obtain ⟨s, hok, -⟩ := herases
    have hnever := scan_stuck hfill (Tabble.erasing_follows t query.conditions) hrounds
      (Nat.zero_le _) hstuck
    exact ((hnever.bind (R := fun _ _ => False) fun _ _ h => h.elim).ok hstart hok).elim

/-- An UPDATE by a scan writes what the scan picks, if it comes to its end and the values fit. -/
theorem scan_rewrites_iff {os : Os} {query : UpdateQuery} {picked : List Column} (ht : t.Mapped)
    (hfill : ∀ c ∈ t.info.columns, 0 < c.size)
    (hcolumns : columnsAt t.info.columns query.columnsOptimized = .ok picked)
    (hc : ∀ c ∈ picked, c ∈ t.info.columns) (hlen : picked.length ≤ query.values.length)
    (hdir : directIndex query.conditions = none) {maxLine : Nat}
    (hmax : upperBound t.getMaxActiveLine query.conditions = .ok maxLine)
    (hplaces : t.activePlaces ≤ maxBody) (hr : r.body = []) :
    Rewrites query.values picked t lines ((executeUpdate os query).run ⟨t, r⟩) ↔
      Scan.Swept (Legible t query.conditions) (t.meets query.conditions) (rowBound t query.limit) 0 maxLine ∧
        Scan.picked (t.meets query.conditions) 0 maxLine (rowBound t query.limit) = lines ∧
        (lines = [] ∨ writtenColumns t.info.lineLength query.values 0 picked = picked) := by
  rw [run_executeUpdate_scan hcolumns hdir hmax hplaces hr]
  generalize htargets : Scan.picked (t.meets query.conditions) 0 maxLine (rowBound t query.limit) = targets
  have hrounds : Scan.Rounds (fun s : Execution => s.result.body.length) (rowBound t query.limit)
      (fun line => onTable (selects query.conditions t.info.columns line))
      (fun line => do
        onTable (Tabble.update os query.values picked line 0)
        pushRow [idCell line])
      (Legible t query.conditions) (t.meets query.conditions)
      (Scanned (Advanced query.values picked t) idRow r.idHeader)
      (fun _ s => Halted query.values picked t targets s.table) 0 maxLine := by
    apply scan_rounds hfill (Tabble.advanced_follows ht query.values picked query.conditions)
    intro i hi _ hlt hmeets hcount
    apply update_line ht os hc hlen (Tabble.meets_iff.mp hmeets).1
    · rw [Scan.mem_passed hi]
      rintro ⟨⟨-, hself⟩, -⟩
      exact Nat.lt_irrefl i hself
    · intro hpassed
      rw [← htargets]
      exact Scan.picked_first hi hlt hpassed hmeets (by omega)
  have hstart : Scanned (Advanced query.values picked t) idRow r.idHeader [] ⟨t, withRows r.idHeader []⟩ :=
    ⟨⟨.inl rfl, Rewritten.refl _ _ t⟩, rfl⟩
  rcases Scan.swept_or_stuck (Legible t query.conditions) (t.meets query.conditions)
    (rowBound t query.limit) 0 maxLine with hswept | ⟨m, hstuck⟩
  · have hpost := hrounds.swept hswept _ hstart
    unfold scanLines
    rw [htargets] at hpost
    generalize (Scan.loop _ _ _ _ maxLine 0 : EStateM Fault Execution Unit).run _ = result at hpost ⊢
    cases hpost with
    | error hhalted =>
        refine iff_of_false (fun ⟨s, hok, _⟩ => by cases hok) ?_
        rintro ⟨-, rfl, hnone | hwhole⟩
        · obtain ⟨i, rest, hfirst, -⟩ := hhalted.first
          rw [hnone] at hfirst
          cases hfirst
        · exact hhalted.partly hwhole
    | ok hdone =>
        obtain ⟨hadvanced, -⟩ := hdone
        constructor
        · rintro ⟨s, hok, hwanted⟩
          cases hok
          have hlines := update_lines_inj (hadvanced.rewritten.history.symm.trans (advanced_lines hwanted))
          exact ⟨hswept, hlines, hlines ▸ hadvanced.whole⟩
        · rintro ⟨-, rfl, -⟩
          exact ⟨_, rfl, _, hadvanced, .refl _⟩
  · refine iff_of_false (fun hrewrites => ?_) fun h => Scan.not_swept_of_stuck hstuck h.1
    obtain ⟨s, hok, -⟩ := hrewrites
    exact ((scan_stuck hfill (Tabble.advanced_follows ht query.values picked query.conditions) hrounds
      (Nat.zero_le _) hstuck).ok hstart hok).elim

/-- A DELETE by a lookup erases its line, if that is active. -/
theorem lookup_erases_iff {query : DeleteQuery} (ht : t.Sound) {line : BitVec 64}
    (hdir : directIndex query.conditions = some (.int64 line)) (hlines : ∀ i ∈ lines, t.active i = true) :
    Erases t lines ((executeDelete query).run ⟨t, r⟩) ↔
      Probed t line.toNat ∧ lines = if t.active line.toNat then [line.toNat] else [] := by
  unfold executeDelete
  rw [run_bind_ok (run_header t r), run_bind_ok (EStateM.run_get _), hdir]
  dsimp only
  rw [show VariantTypes.getInt64 (.int64 line) = .ok line from rfl, run_bind_ok (run_ofExcept_ok _ _)]
  have hstart := Erasing.refl ht
  by_cases hprobed : Probed t line.toNat
  · obtain ⟨t', hrun, hlog, hquiet⟩ := probed_run ht.toMapped hprobed
    rw [run_bind_ok (run_onTable_ok hrun)]
    cases hactive : t.active line.toNat with
    | true =>
        obtain ⟨t'', herase, hnext⟩ := (hstart.quiet (hquiet hactive)).erase hactive List.not_mem_nil
        rw [if_pos rfl, if_pos rfl, run_bind_ok (run_onTable_ok herase)]
        constructor
        · rintro ⟨s, hok, hwanted⟩
          cases hok
          exact ⟨hprobed, erase_lines_inj ((erasing_lines hwanted).symm.trans hnext.history)⟩
        · rintro ⟨-, rfl⟩
          exact ⟨_, rfl, _, hnext, .refl _⟩
    | false =>
        rw [if_neg Bool.false_ne_true, if_neg Bool.false_ne_true]
        constructor
        · rintro ⟨s, hok, hwanted⟩
          cases hok
          have hsame : t'.history = t.history ++ ([] : List Nat).map RowOp.erase :=
            hlog.history.trans (List.append_nil _).symm
          exact ⟨hprobed, erase_lines_inj ((erasing_lines hwanted).symm.trans hsame)⟩
        · rintro ⟨-, rfl⟩
          exact ⟨_, rfl, t, hstart, hlog⟩
  · refine iff_of_false ?_ fun h => hprobed h.1
    rintro ⟨s, hok, hwanted⟩
    obtain ⟨t', hlog, ⟨e, hrun⟩ | ⟨hpast, hrun⟩⟩ := unprobed_run hprobed
    · rw [run_bind_error (run_onTable_error hrun)] at hok
      cases hok
    · -- a line behind the file is taken for one that is active
      rw [run_bind_ok (run_onTable_ok hrun), if_pos rfl] at hok
      have herase := erase_history line.toNat t.history
      have hsteps : Triple (fun s : Execution => s.table.history = t.history)
          (do
            let _ ← onTable (Tabble.erase line.toNat)
            onResult fun r => { r with isSucces := true }
            pushRow [idCell line.toNat])
          (fun _ s => s.table.history = t.history ++ [.erase line.toNat]) fun _ _ => True :=
        (triple_onTable herase).bind fun _ s hs => .ok hs
      have hhistory := hsteps.ok hlog.history hok
      have hlast : lines = [line.toNat] := erase_lines_inj ((erasing_lines hwanted).symm.trans hhistory)
      have hactive := hlines line.toNat (by rw [hlast]; exact List.mem_cons_self)
      exact absurd (Tabble.active_iff.mp hactive).1 (by omega)

/-- An UPDATE by a lookup writes its line, if that is active and the values fit. -/
theorem lookup_rewrites_iff {os : Os} {query : UpdateQuery} {picked : List Column} (ht : t.Mapped)
    (hcolumns : columnsAt t.info.columns query.columnsOptimized = .ok picked)
    (hc : ∀ c ∈ picked, c ∈ t.info.columns) (hlen : picked.length ≤ query.values.length)
    {line : BitVec 64} (hdir : directIndex query.conditions = some (.int64 line))
    (hlines : ∀ i ∈ lines, t.active i = true) (hr : r.body = []) :
    Rewrites query.values picked t lines ((executeUpdate os query).run ⟨t, r⟩) ↔
      Probed t line.toNat ∧ lines = (if t.active line.toNat then [line.toNat] else []) ∧
        (lines = [] ∨ writtenColumns t.info.lineLength query.values 0 picked = picked) := by
  unfold executeUpdate
  rw [run_bind_ok (run_header t r), run_bind_ok (EStateM.run_get _)]
  dsimp only
  rw [hcolumns, run_bind_ok (run_ofExcept_ok _ _), hdir]
  dsimp only
  rw [show VariantTypes.getInt64 (.int64 line) = .ok line from rfl, run_bind_ok (run_ofExcept_ok _ _)]
  have hstart : ∀ t', Tabble.Quiet t t' → Advanced query.values picked t [] t' :=
    fun t' hquiet => ⟨.inl rfl, (Rewritten.refl _ _ t).quiet hquiet⟩
  by_cases hprobed : Probed t line.toNat
  · obtain ⟨t', hrun, hlog, hquiet⟩ := probed_run ht hprobed
    rw [run_bind_ok (run_onTable_ok hrun)]
    cases hactive : t.active line.toNat with
    | true =>
        rw [if_pos rfl, if_pos rfl]
        have hbody : r.idHeader = withRows r.idHeader [] := by
          unfold withRows
          rw [← hr]
          rfl
        have hfirst : ([] : List Nat) = [] → ∃ rest, [line.toNat] = line.toNat :: rest := fun _ => ⟨[], rfl⟩
        have hwrite := update_line ht os hc hlen hactive List.not_mem_nil hfirst r.idHeader
        have hdone : Triple (Scanned (Advanced query.values picked t) idRow r.idHeader ([] ++ [line.toNat]))
            (onResult fun r => { r with isSucces := true })
            (fun _ s => Advanced query.values picked t [line.toNat] s.table)
            (fun _ s => Halted query.values picked t [line.toNat] s.table) := triple_modify fun s hs => hs.1
        have hpost := (hwrite.bind fun _ => hdone) ⟨t', r.idHeader⟩ ⟨hstart t' (hquiet hactive), hbody⟩
        rw [bind_assoc] at hpost
        generalize (do
          onTable (Tabble.update os query.values picked line.toNat 0)
          pushRow [idCell line.toNat]
          onResult fun r => { r with isSucces := true } : EStateM Fault Execution Unit).run _ = result
            at hpost ⊢
        cases hpost with
        | error hhalted =>
            refine iff_of_false (fun ⟨s, hok, _⟩ => by cases hok) ?_
            rintro ⟨-, rfl, hnone | hwhole⟩
            · cases hnone
            · exact hhalted.partly hwhole
        | ok hadvanced =>
            constructor
            · rintro ⟨s, hok, hwanted⟩
              cases hok
              have hline : lines = [line.toNat] :=
                update_lines_inj ((advanced_lines hwanted).symm.trans hadvanced.rewritten.history)
              exact ⟨hprobed, hline, hline ▸ hadvanced.whole⟩
            · rintro ⟨-, rfl, -⟩
              exact ⟨_, rfl, _, hadvanced, .refl _⟩
    | false =>
        rw [if_neg Bool.false_ne_true, if_neg Bool.false_ne_true]
        constructor
        · rintro ⟨s, hok, hwanted⟩
          cases hok
          have hsame : t'.history = t.history ++ ([] : List Nat).map RowOp.update :=
            hlog.history.trans (List.append_nil _).symm
          have hnone := update_lines_inj ((advanced_lines hwanted).symm.trans hsame)
          exact ⟨hprobed, hnone, .inl hnone⟩
        · rintro ⟨-, rfl, -⟩
          exact ⟨_, rfl, t, hstart t (.refl t), hlog⟩
  · refine iff_of_false ?_ fun h => hprobed h.1
    rintro ⟨s, hok, hwanted⟩
    obtain ⟨t', hlog, ⟨e, hrun⟩ | ⟨hpast, hrun⟩⟩ := unprobed_run hprobed
    · rw [run_bind_error (run_onTable_error hrun)] at hok
      cases hok
    · -- a line behind the file is taken for one that is active
      rw [run_bind_ok (run_onTable_ok hrun), if_pos rfl] at hok
      have hupdate := update_history os query.values picked line.toNat t.history
      have hsteps : Triple (fun s : Execution => s.table.history = t.history)
          (do
            onTable (Tabble.update os query.values picked line.toNat 0)
            pushRow [idCell line.toNat]
            onResult fun r => { r with isSucces := true })
          (fun _ s => s.table.history = t.history ++ [.update line.toNat]) fun _ _ => True :=
        (triple_onTable hupdate).bind fun _ s hs => .ok hs
      have hhistory := hsteps.ok hlog.history hok
      have hlast : lines = [line.toNat] := update_lines_inj ((advanced_lines hwanted).symm.trans hhistory)
      have hactive := hlines line.toNat (by rw [hlast]; exact List.mem_cons_self)
      exact absurd (Tabble.active_iff.mp hactive).1 (by omega)

end

end Executor
end SQLid
