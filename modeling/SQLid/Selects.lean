import SQLid.Updates

/-!
# What a SELECT does

A SELECT answers with the rows of the lines its scan picks and leaves the table alone.
-/
namespace SQLid
open Bytes (Text)
open Programs
open Tabble (LogOnly ReadsLine)

/-- The answer with the columns of a SELECT announced. -/
def Result.selectHeader (r : Result) (header : List (Text × Text)) : Result :=
  { r with messeage := CppText.str "Selected",
           header := r.header ++ [CppText.str "ID"] ++ header.map Prod.fst,
           types := r.types ++ [CppText.str "INT64"] ++ header.map Prod.snd }

namespace Tabble

/-- The same table after more calls, all of them `I`. -/
def Adds (I : Call × MemoryMapLinux → Prop) (t t' : Tabble) : Prop :=
  ∃ l, t' = t.addLog l ∧ ∀ e ∈ l, I e

variable {I : Call × MemoryMapLinux → Prop} {t t' : Tabble} {i : Nat}

theorem Adds.refl (I : Call × MemoryMapLinux → Prop) (t : Tabble) : t.Adds I t := ⟨[], rfl, by simp⟩

theorem Adds.logOnly (h : t.Adds I t') : LogOnly t t' := by
  obtain ⟨l, rfl, -⟩ := h
  exact ⟨l, rfl⟩

/-- The calls on this line of the table are `I`. -/
def Calls (I : Call × MemoryMapLinux → Prop) (t : Tabble) (i : Nat) : Prop :=
  ∀ e : Call × MemoryMapLinux, e.1.line = some i → e.2 = t.storage.core → I e

/-- A read answers the same after more calls. -/
theorem ReadsLine.triple_adds {α : Type} {x : EStateM Fault Tabble α} {E : Fault → Tabble → Prop}
    (h : ReadsLine i x) (hI : t.Calls I i) {a : α} (hp : t.peek x = .ok a) :
    Triple (t.Adds I) x (fun b t' => b = a ∧ t.Adds I t') E := by
  rintro t' ⟨l, rfl, hl⟩
  have hp' : (t.addLog l).peek x = .ok a := by
    rw [← hp]
    exact h.peek_congr rfl
  obtain ⟨l', hl', hrun⟩ := h.run_ok hp'
  rw [hrun]
  refine .ok ⟨rfl, l' ++ l, by simp only [addLog, List.append_assoc], fun e he => ?_⟩
  rcases List.mem_append.mp he with he | he
  · exact hI e (hl' e he).1 (hl' e he).2
  · exact hl e he

end Tabble

namespace Executor

theorem columnHeader_ok {columns : List Column} {ids : List Nat} (h : ∀ id ∈ ids, id < columns.length) :
    ∃ header, columnHeader columns ids = .ok header := by
  induction ids with
  | nil => exact ⟨[], rfl⟩
  | cons id ids ih =>
      obtain ⟨header, hheader⟩ := ih fun i hi => h i (List.mem_cons_of_mem id hi)
      have hid := h id List.mem_cons_self
      have hcol := List.getElem?_eq_getElem hid
      refine ⟨(columns[id].name, typeToString columns[id].type) :: header, ?_⟩
      unfold columnHeader
      rw [hcol]
      dsimp only
      rw [hheader]
      rfl

section
variable {t : Tabble} {ids : List Nat} {conds : List Condition} {I : Call × MemoryMapLinux → Prop}

/-- The row of a line of the file is read and answered. -/
theorem select_line (ht : t.Mapped) (hfill : ∀ c ∈ t.info.columns, 0 < c.size)
    (hids : ∀ id ∈ ids, id < t.info.columns.length) {i : Nat} (hi : i < t.maxLines) (hI : t.Calls I i)
    (r : Result) (done : List Nat) (E : Fault → Execution → Prop) :
    Triple (Scanned (fun _ => t.Adds I) (t.selectedRow ids) r done)
      (do pushRow (← onTable (readRecord i ids t.info.columns)))
      (fun _ => Scanned (fun _ => t.Adds I) (t.selectedRow ids) r (done ++ [i])) E := by
  have hread : Triple (t.Adds I) (readRecord i ids t.info.columns)
      (fun row t' => row = t.selectedRow ids i ∧ t.Adds I t') (fun _ _ => False) :=
    (reads_readRecord i ids _).triple_adds hI (ht.peek_readRecord hi hfill hids)
  have hboth := (triple_onTable_result hread (withRows r (done.map (t.selectedRow ids)))).bind
    fun row => (triple_modify (f := fun s : Execution =>
        { s with result := { s.result with body := s.result.body ++ [row] } })
      (Q := fun _ => Scanned (fun _ => t.Adds I) (t.selectedRow ids) r (done ++ [i]))
      (E := fun _ _ => False) (by
        rintro s ⟨⟨rfl, hadds⟩, hr⟩
        refine ⟨hadds, ?_⟩
        rw [hr, List.map_append]
        rfl))
  exact hboth.conseq (fun _ h => h) (fun _ _ h => h) fun _ _ h => h.elim

/-- The test of the line answers as it does for a line of the file. -/
def Tested (t : Tabble) (conds : List Condition) (i : Nat) : Prop :=
  t.peek (selects conds t.info.columns i) = .ok (t.meets conds i)

theorem Legible.tested (ht : t.Mapped) (hfill : ∀ c ∈ t.info.columns, 0 < c.size) {i : Nat}
    (h : Legible t conds i) : Tested t conds i := (ht.peek_selects h.1 hfill conds).trans h.2

/-- In the file the test fails only with the conditions. -/
theorem legible_or (ht : t.Mapped) (hfill : ∀ c ∈ t.info.columns, 0 < c.size) {i : Nat}
    (hi : i < t.maxLines) : Legible t conds i ∨ ∃ e, t.peek (selects conds t.info.columns i) = .error e := by
  rw [ht.peek_selects hi hfill conds]
  cases hb : t.rowSelects conds i with
  | ok b => exact .inl ⟨hi, by rw [hb, Tabble.meets_of_ok hi hb]⟩
  | error e => exact .inr ⟨e, rfl⟩

theorem select_rounds (ht : t.Mapped) (hfill : ∀ c ∈ t.info.columns, 0 < c.size)
    (hids : ∀ id ∈ ids, id < t.info.columns.length) {good : Nat → Prop}
    (hgood : ∀ i, good i → Tested t conds i ∧ t.Calls I i) (r : Result) (count start n : Nat)
    (E : Fault → Execution → Prop) :
    Scan.Rounds (fun s : Execution => s.result.body.length) count
      (fun line => onTable (selects conds t.info.columns line))
      (fun line => do pushRow (← onTable (readRecord line ids t.info.columns))) good (t.meets conds)
      (Scanned (fun _ => t.Adds I) (t.selectedRow ids) r) E start n := by
  refine ⟨?_, fun j _ _ hj => ?_, fun j _ _ hj hp _ => ?_⟩
  · rintro done s ⟨-, hs⟩
    rw [hs]
    simp [withRows]
  · have hread := (reads_selects conds t.info.columns j).triple_adds (E := fun _ _ => False)
      (hgood j hj).2 (hgood j hj).1
    exact (triple_onTable_result hread _).conseq (fun _ h => h) (fun _ _ h => ⟨h.1.1, h.1.2, h.2⟩)
      fun _ _ h => h.elim
  · have hline := (Tabble.active_iff.mp (Tabble.meets_iff.mp hp).1).1
    exact select_line ht hfill hids hline (hgood j hj).2 r _ E

/-- A SELECT has answered with the rows of `lines`, sorted if it was to. -/
def Selected (t : Tabble) (query : SelectQuery) (lines : List Nat) (s : Execution) : Prop :=
  s.result.body = if query.orderColumnsOptimized ≠ []
    then sortBody query.orderColumnsOptimized (lines.map (t.selectedRow query.columnsOptimized))
    else lines.map (t.selectedRow query.columnsOptimized)

theorem Selected.perm {query : SelectQuery} {lines : List Nat} {s : Execution}
    (h : Selected t query lines s) :
    s.result.body.Perm (lines.map (t.selectedRow query.columnsOptimized)) := by
  rw [h]
  split_ifs
  · exact List.mergeSort_perm _ _
  · exact .refl _

theorem Selected.unsorted {query : SelectQuery} {lines : List Nat} {s : Execution}
    (h : Selected t query lines s) (hnone : query.orderColumnsOptimized = []) :
    s.result.body = lines.map (t.selectedRow query.columnsOptimized) := by
  rw [h, if_neg (by simp [hnone])]

/-- The sort at the end of a scan. -/
def sortAnswer (query : SelectQuery) : EStateM Fault Execution Unit :=
  if query.orderColumnsOptimized ≠ [] then
    onResult fun r => { r with body := sortBody query.orderColumnsOptimized r.body }
  else pure ()

/-- How many rows a scan may answer with. -/
def rowBound (t : Tabble) (limit : Nat) : Nat :=
  if t.getActivePlaces < limit then t.getActivePlaces else limit

theorem run_selected (t : Tabble) (r : Result) :
    (onResult fun r => { r with messeage := CppText.str "Selected" }).run ⟨t, r⟩ =
      .ok () ⟨t, { r with messeage := CppText.str "Selected" }⟩ := rfl

theorem run_announced (t : Tabble) (r : Result) (header : List (Text × Text)) :
    (onResult fun r =>
      { r with header := r.header ++ [CppText.str "ID"] ++ header.map Prod.fst,
               types := r.types ++ [CppText.str "INT64"] ++ header.map Prod.snd }).run
      ⟨t, { r with messeage := CppText.str "Selected" }⟩ = .ok () ⟨t, r.selectHeader header⟩ := rfl

/-- A SELECT of one line by its id reads that line, whatever is in it. -/
theorem run_executeSelect_lookup {query : SelectQuery}
    (hids : ∀ id ∈ query.columnsOptimized, id < t.info.columns.length) {line : BitVec 64}
    (hdir : directIndex query.conditions = some (.int64 line)) (r : Result) :
    ∃ header, (executeSelect query).run ⟨t, r⟩ =
      (do pushRow (← onTable (readRecord line.toNat query.columnsOptimized t.info.columns))).run
        ⟨t, r.selectHeader header⟩ := by
  obtain ⟨header, hheader⟩ := columnHeader_ok hids
  refine ⟨header, ?_⟩
  unfold executeSelect
  rw [run_bind_ok (run_selected t r), run_bind_ok (EStateM.run_get _)]
  dsimp only
  rw [hheader, run_bind_ok (run_ofExcept_ok _ _), run_bind_ok (run_announced t r header)]
  rw [hdir]
  rfl

/-- A SELECT that goes to no line directly scans its window and sorts the answer. -/
theorem run_executeSelect_scan {query : SelectQuery}
    (hids : ∀ id ∈ query.columnsOptimized, id < t.info.columns.length)
    (hdir : directIndex query.conditions = none) {start stop : Nat}
    (hstrip : stripSelect 0 t.getMaxActiveLine query.conditions = .ok (start, stop, conds))
    (hplaces : t.activePlaces ≤ maxBody) (r : Result) (hr : r.body = []) :
    ∃ header, (executeSelect query).run ⟨t, r⟩ =
      (scanLines conds t.info.columns (rowBound t query.limit)
        (fun line => do pushRow (← onTable (readRecord line query.columnsOptimized t.info.columns)))
        (stop - start) start >>= fun _ => sortAnswer query).run ⟨t, withRows (r.selectHeader header) []⟩ := by
  obtain ⟨header, hheader⟩ := columnHeader_ok hids
  have hbody : withRows (r.selectHeader header) [] = r.selectHeader header := by
    unfold withRows
    rw [← hr]
    rfl
  have hactive : (activeCount query.limit).run ⟨t, r.selectHeader header⟩ =
      .ok (rowBound t query.limit) ⟨t, r.selectHeader header⟩ := rfl
  have hreserve : (reserveBody (rowBound t query.limit)).run ⟨t, r.selectHeader header⟩ =
      .ok () ⟨t, r.selectHeader header⟩ := by
    have hle : rowBound t query.limit ≤ t.activePlaces := by
      unfold rowBound Tabble.getActivePlaces
      split <;> omega
    unfold reserveBody
    rw [if_neg (by omega)]
    rfl
  refine ⟨header, ?_⟩
  rw [hbody]
  unfold executeSelect
  rw [run_bind_ok (run_selected t r), run_bind_ok (EStateM.run_get _)]
  dsimp only
  rw [hheader, run_bind_ok (run_ofExcept_ok _ _), run_bind_ok (run_announced t r header)]
  rw [hdir]
  dsimp only
  rw [run_bind_ok (EStateM.run_get _), hstrip, run_bind_ok (run_ofExcept_ok _ _)]
  dsimp only
  rw [run_bind_ok hactive, run_bind_ok hreserve]
  rfl

theorem select_sorts {query : SelectQuery} (r : Result) (lines : List Nat) (E : Fault → Execution → Prop) :
    Triple (Scanned (fun _ => t.Adds I) (t.selectedRow query.columnsOptimized) r lines) (sortAnswer query)
      (fun _ s => t.Adds I s.table ∧ Selected t query lines s) E := by
  apply triple_ite
  · intro hne
    apply triple_modify
    rintro s ⟨hadds, hrows⟩
    refine ⟨hadds, ?_⟩
    unfold Selected
    rw [if_pos hne, hrows]
    rfl
  · intro heq
    apply triple_pure
    rintro s ⟨hadds, hrows⟩
    refine ⟨hadds, ?_⟩
    unfold Selected
    rw [if_neg heq, hrows]
    rfl

/-- The answer has a row of a line past the end of the file. -/
def Beyond (t : Tabble) (s : Execution) : Prop :=
  ∃ row ∈ s.result.body, ∃ i, t.maxLines ≤ i ∧ i < 2 ^ 64 ∧ row.head? = some (idCell i)

theorem beyond_onTable {α : Type} (x : EStateM Fault Tabble α) :
    Triple (Beyond t) (onTable x) (fun _ => Beyond t) fun _ _ => True :=
  triple_zoom fun s hs => ((triple_true x) s.table trivial).mono (fun _ _ _ => hs) fun _ _ _ => trivial

theorem beyond_pushRow (row : List VariantTypes) :
    Triple (Beyond t) (pushRow row) (fun _ => Beyond t) fun _ _ => True := by
  apply triple_modify
  rintro s ⟨row', hrow, hline⟩
  exact ⟨row', List.mem_append_left _ hrow, hline⟩

theorem beyond_scan (count n i : Nat) :
    Triple (Beyond t)
      (scanLines conds t.info.columns count
        (fun line => do pushRow (← onTable (readRecord line ids t.info.columns))) n i)
      (fun _ => Beyond t) fun _ _ => True := by
  have hloop : Triple (Beyond t) (scanLines conds t.info.columns count
      (fun line => do pushRow (← onTable (readRecord line ids t.info.columns))) n i)
      (fun _ s => ∃ j : Nat, Beyond t s ∧ j ≤ i + n ∧ (j = i + n ∨ count ≤ s.result.body.length))
      fun _ _ => True := by
    apply Scan.loop_triple (I := fun _ => Beyond t) (J := fun _ => Beyond t)
    · intro j
      apply (beyond_onTable (selects conds t.info.columns j)).conseq (fun _ h => h) _ fun _ _ h => h
      rintro (_ | _) s h
      · exact h
      · exact h
    · intro j
      exact (beyond_onTable (readRecord j ids t.info.columns)).bind fun row => beyond_pushRow row
  exact hloop.conseq (fun _ h => h) (fun _ _ ⟨_, h, _⟩ => h) fun _ _ h => h

theorem beyond_sort (query : SelectQuery) :
    Triple (Beyond t) (sortAnswer query) (fun _ => Beyond t) fun _ _ => True := by
  apply triple_ite
  · intro _
    apply triple_modify
    rintro s ⟨row, hrow, hline⟩
    exact ⟨row, (List.mergeSort_perm _ _).mem_iff.mpr hrow, hline⟩
  · intro _
    exact triple_pure fun _ h => h

/-- The row of a line past the end of the file, if it is read. -/
theorem beyond_row {i : Nat} (hi : t.maxLines ≤ i) (hlt : i < 2 ^ 64) :
    Triple (fun _ => True) (do pushRow (← onTable (readRecord i ids t.info.columns)))
      (fun _ => Beyond t) fun _ _ => True := by
  have hread : Triple (fun _ : Tabble => True) (readRecord i ids t.info.columns)
      (fun row _ => row.head? = some (idCell i)) fun _ _ => True :=
    (triple_true _).bind fun cells => triple_pure fun _ _ => rfl
  have hrow : Triple (fun _ : Execution => True) (onTable (readRecord i ids t.info.columns))
      (fun row _ => row.head? = some (idCell i)) fun _ _ => True :=
    triple_zoom fun s _ => (hread s.table trivial).mono (fun _ _ h => h) fun _ _ h => h
  refine hrow.bind fun row => triple_modify fun s hhead => ?_
  exact ⟨row, List.mem_append_right _ (List.mem_singleton_self row), i, hi, hlt, hhead⟩

section scan
variable {query : SelectQuery} {start stop : Nat}
  (ht : t.Mapped) (hfill : ∀ c ∈ t.info.columns, 0 < c.size)
  (hids : ∀ id ∈ query.columnsOptimized, id < t.info.columns.length)
  (hdir : directIndex query.conditions = none)
  (hstrip : stripSelect 0 t.getMaxActiveLine query.conditions = .ok (start, stop, conds))
  (hplaces : t.activePlaces ≤ maxBody)
include ht hfill hids hdir hstrip hplaces

/-- A SELECT that sweeps its window answers with the lines it picks. -/
theorem executeSelect_swept {good : Nat → Prop} (hgood : ∀ i, good i → Tested t conds i ∧ t.Calls I i)
    (hswept : Scan.Swept good (t.meets conds) (rowBound t query.limit) start (stop - start))
    (r : Result) (hr : r.body = []) :
    Post (fun _ s => t.Adds I s.table ∧ Selected t query
        (Scan.picked (t.meets conds) start (stop - start) (rowBound t query.limit)) s)
      (fun _ _ => False) ((executeSelect query).run ⟨t, r⟩) := by
  obtain ⟨header, hrun⟩ := run_executeSelect_scan hids hdir hstrip hplaces r hr
  rw [hrun]
  have hscan := (select_rounds ht hfill hids hgood (r.selectHeader header) (rowBound t query.limit) start
    (stop - start) fun _ _ => False).swept hswept
  exact (hscan.bind fun _ => select_sorts _ _ _) ⟨t, _⟩ ⟨.refl I t, rfl⟩

/-- One that does not answers, if at all, with a line past the end of the file. -/
theorem executeSelect_unswept (hstop : stop ≤ 2 ^ 64)
    (hswept : ¬ Scan.Swept (Tested t conds) (t.meets conds) (rowBound t query.limit) start (stop - start))
    (r : Result) (hr : r.body = []) :
    Post (fun _ s => Beyond t s) (fun _ _ => True) ((executeSelect query).run ⟨t, r⟩) := by
  obtain ⟨header, hrun⟩ := run_executeSelect_scan hids hdir hstrip hplaces r hr
  rw [hrun]
  obtain ⟨m, hstuck⟩ := (Scan.swept_or_stuck (Tested t conds) (t.meets conds) (rowBound t query.limit)
    start (stop - start)).resolve_left hswept
  have hrounds := select_rounds (I := fun _ => True) ht hfill hids
    (fun i (hi : Tested t conds i) => ⟨hi, fun _ _ _ => trivial⟩) (r.selectHeader header)
    (rowBound t query.limit) start (stop - start) fun _ _ => True
  have hscan := hrounds.stuck (Q := fun _ => Beyond t) hstuck fun d => ?_
  · exact (hscan.bind fun _ => beyond_sort query) ⟨t, _⟩ ⟨.refl _ t, rfl⟩
  obtain ⟨hm, -, hbad, -⟩ := hstuck
  generalize hj : start + m = j at hbad ⊢
  rintro s ⟨⟨l, htable, -⟩, -⟩
  have hpeek : s.table.peek (selects conds t.info.columns j) = t.peek (selects conds t.info.columns j) := by
    rw [htable]
    exact (reads_selects conds t.info.columns j).peek_congr rfl
  cases hanswer : t.peek (selects conds t.info.columns j) with
  | error e =>
      rw [hanswer] at hpeek
      obtain ⟨l', -, herr⟩ := (reads_selects conds t.info.columns j).run_error hpeek
      rw [run_bind_error (run_onTable_error herr)]
      exact .error trivial
  | ok b =>
      have hpast : t.maxLines ≤ j := by
        by_contra hlt
        rcases @legible_or _ conds ht hfill j (by omega) with hlegible | ⟨e, herr⟩
        · exact hbad (hlegible.tested ht hfill)
        · rw [hanswer] at herr
          cases herr
      cases b with
      | false => exact absurd (hanswer.trans (by rw [Tabble.meets_past hpast])) hbad
      | true =>
          rw [hanswer] at hpeek
          obtain ⟨l', -, hok⟩ := (reads_selects conds t.info.columns j).run_ok hpeek
          rw [run_bind_ok (run_onTable_ok hok), if_pos rfl]
          exact ((beyond_row hpast (by omega)).bind fun _ => beyond_scan _ d (j + 1)) _ trivial

end scan
end
end Executor
end SQLid
