import SQLid.IdClauses
import SQLid.Outcomes
import SQLid.UpdateFailures

/-!
# Statements that search by the id

With a lookup or with bounds on the id a SELECT, a DELETE and an UPDATE go three ways of
their own. What each acts on is compared with the first active lines the clause holds on.
-/
namespace SQLid
open Bytes (Text)
open CppText (str)
open Programs
open Tabble (LogOnly Advanced Erasing)
open Executor (directIndex stripSelect upperBound rowBound Tested Legible Probed UpToLog)

/-! What the statements are meant to do. -/

section
variable (os : Os) (t : Tabble) (search : Search t.info) (command : Text)

/-- The SELECT answers with the rows of the lines the search is meant for, and changes nothing. -/
def SelectsLines (cols : List Text) (order : Option (List Text)) : Prop :=
  ∃ columns s, Requested t.info cols columns ∧ request os command t = .ok () s ∧ LogOnly t s.table ∧
    s.result.body.Perm ((search.lines t).map fun i => Executor.idCell i :: columns.map (t.cell i)) ∧
    (order = none → s.result.body = (search.lines t).map fun i => Executor.idCell i :: columns.map (t.cell i))

/-- The DELETE erases the lines the search is meant for and no others. -/
def ErasesLines : Prop :=
  ∃ s, request os command t = .ok () s ∧ UpToLog (Erasing t (search.lines t)) s.table

/-- The UPDATE writes its values over the lines the search is meant for and no others. -/
def UpdatesLines : Prop :=
  ∃ q s, compile t.info command = .ok (.update q) ∧ request os command t = .ok () s ∧
    UpToLog (Advanced q.values (t.info.pick q.columnsOptimized) t (search.lines t)) s.table

/-- Every value of the UPDATE ends before its line does, if there is a line to write. -/
def UpdateFits : Prop :=
  search.lines t = [] ∨ ∀ q, compile t.info command = .ok (.update q) →
    Tabble.Fitting t.info.lineLength q.values (t.info.pick q.columnsOptimized)

end

/-! The lines a search is meant for. -/

section
variable {t : Tabble} {search : Search t.info}

/-- How many lines before this one the search is meant for, the limit apart. -/
def Search.rank (search : Search t.info) (i : Nat) : Nat :=
  ((List.range i).filter fun j => t.active j && search.holds t j).length

theorem Search.lines_active {i : Nat} (h : i ∈ search.lines t) : t.active i = true := by
  have hmem := (List.mem_filter.mp (List.mem_of_mem_take h)).2
  exact (Bool.and_eq_true_iff.mp hmem).1

theorem Search.lines_lt {i : Nat} (h : i ∈ search.lines t) : i < t.maxLines :=
  (Tabble.active_iff.mp (Search.lines_active h)).1

theorem Search.lines_pairwise : (search.lines t).Pairwise (· < ·) :=
  (List.pairwise_lt_range.filter _).sublist (List.take_sublist _ _)

theorem Search.lines_eq_picked : search.lines t =
    Scan.picked (fun i => t.active i && search.holds t i) 0 t.maxLines search.bound := by
  unfold Search.lines Scan.picked
  rw [List.range_eq_range']

/-- A window of active lines, cut off where the file ends. -/
theorem filter_window {p : Nat → Bool} (hp : ∀ i, p i = true → t.active i = true) (start stop : Nat) :
    (List.range' start (stop - start)).filter p =
      (List.range t.maxLines).filter fun i => decide (start ≤ i ∧ i < stop) && p i := by
  have hleft : ((List.range' start (stop - start)).filter p).Pairwise (· < ·) :=
    List.Pairwise.filter p List.pairwise_lt_range'
  have hright : ((List.range t.maxLines).filter fun i => decide (start ≤ i ∧ i < stop) && p i).Pairwise (· < ·) :=
    List.pairwise_lt_range.filter _
  have hne {l : List Nat} (h : l.Pairwise (· < ·)) : l.Nodup := h.imp Nat.ne_of_lt
  refine List.Perm.eq_of_pairwise (fun a b _ _ hab hba => absurd (hab.trans hba) (Nat.lt_irrefl a)) hleft hright ?_
  rw [List.perm_ext_iff_of_nodup (hne hleft) (hne hright)]
  intro i
  rw [List.mem_filter, List.mem_filter, List.mem_range'_1, List.mem_range, Bool.and_eq_true, decide_eq_true_eq]
  constructor
  · rintro ⟨⟨hlow, hhigh⟩, hi⟩
    exact ⟨(Tabble.active_iff.mp (hp i hi)).1, ⟨hlow, by omega⟩, hi⟩
  · rintro ⟨-, ⟨hlow, hhigh⟩, hi⟩
    exact ⟨⟨hlow, by omega⟩, hi⟩

/-- A scan of a window picks the lines the search is meant for when it decides as the search
does on every active line with room before it. -/
theorem picked_lines_iff (hs : Served t.info t) {p : Nat → Bool} (hp : ∀ i, p i = true → t.active i = true)
    (start stop : Nat) :
    Scan.picked p start (stop - start) (rowBound t search.bound) = search.lines t ↔
      ∀ i, t.active i = true → search.rank i < search.bound →
        (start ≤ i ∧ i < stop ∧ p i = true ↔ search.holds t i = true) := by
  have hshort : ((List.range t.maxLines).filter fun i => decide (start ≤ i ∧ i < stop) && p i).length ≤
      t.activePlaces := by
    refine (Tabble.length_active_le fun i hi => ?_).trans hs.places_ge
    exact hp i (Bool.and_eq_true_iff.mp hi).2
  have hwindow : Scan.picked p start (stop - start) (rowBound t search.bound) =
      Scan.picked (fun i => decide (start ≤ i ∧ i < stop) && p i) 0 t.maxLines search.bound := by
    unfold Scan.picked rowBound Tabble.getActivePlaces
    rw [filter_window hp, ← List.range_eq_range']
    split_ifs with hplaces
    · rw [List.take_of_length_le hshort, List.take_of_length_le (hshort.trans hplaces.le)]
    · rfl
  rw [hwindow, Search.lines_eq_picked, Scan.picked_eq_iff]
  have hrank (i : Nat) : (Scan.passed (fun i => t.active i && search.holds t i) 0 i).length = search.rank i := by
    unfold Scan.passed Search.rank
    rw [Nat.sub_zero, List.range_eq_range']
  simp only [hrank, Nat.zero_le, Nat.zero_add, forall_const]
  constructor
  · intro h i hi hroom
    have hsame := h i (Tabble.active_iff.mp hi).1 hroom
    rw [Bool.eq_iff_iff, Bool.and_eq_true, decide_eq_true_eq, hi, Bool.true_and, and_assoc] at hsame
    exact hsame
  · intro h i hlt hroom
    rw [Bool.eq_iff_iff, Bool.and_eq_true, decide_eq_true_eq, Bool.and_eq_true, and_assoc]
    by_cases hi : t.active i = true
    · rw [h i hi hroom, and_iff_right hi]
    · refine iff_of_false (fun hall => hi (hp i hall.2.2)) fun hall => hi hall.1

end

/-! From the words to the executor. -/

section
variable {os : Os} {t : Tabble} {search : Search t.info} {name command : Text}

theorem Requested.unique {info : TabbleInfo} {cols : List Text} {columns columns' : List Column}
    (h : Requested info cols columns) (h' : Requested info cols columns') : columns = columns' := by
  induction h generalizing columns' with
  | none =>
      cases h'
      rfl
  | all =>
      cases h' with
      | all => rfl
      | column hname => exact absurd rfl hname
  | column hname hid hcol _ ih =>
      cases h' with
      | all => exact absurd rfl hname
      | column _ hid' hcol' hrest =>
          rw [hid] at hid'
          cases hid'
          rw [hcol] at hcol'
          cases hcol'
          rw [ih hrest]

theorem request_select {query : SelectQuery} (hc : compile t.info command = .ok (.select query)) :
    request os command t = (Executor.executeSelect query).run ⟨t, { isSucces := true }⟩ := by
  unfold request
  rw [run_answer hc]
  rfl

theorem request_erase {query : DeleteQuery} (hc : compile t.info command = .ok (.erase query)) :
    request os command t = (Executor.executeDelete query).run ⟨t, { isSucces := true }⟩ := by
  unfold request
  rw [run_answer hc]
  rfl

theorem compile_of_request {s : Execution} (h : request os command t = .ok () s) :
    ∃ query, compile t.info command = .ok query := by
  cases hc : compile t.info command with
  | ok query => exact ⟨query, rfl⟩
  | error e =>
      have herr : request os command t = _ := run_answer_error hc {}
      rw [herr] at h
      cases h

section select
variable {cols : List Text} {order : Option (List Text)}
  (hwords : CppText.words command = selectWords cols name search order) (hcols : ∀ c ∈ cols, c ≠ str "FROM")
  (hreg : t.info.Regular)
include hwords hcols hreg

/-- A SELECT that answers as it is meant to was compiled, and its run answers with the rows. -/
theorem SelectsLines.executed (h : SelectsLines os t search command cols order) : search.Accepted ∧
    ∃ q : SelectQuery, q.conditions = search.conditions ∧ q.limit = search.bound ∧
      (∀ id ∈ q.columnsOptimized, id < t.info.columns.length) ∧ ∃ s,
        (Executor.executeSelect q).run ⟨t, { isSucces := true }⟩ = .ok () s ∧
          s.result.body.Perm ((search.lines t).map (t.selectedRow q.columnsOptimized)) := by
  obtain ⟨columns, s, hrequested, hrun, -, hperm, -⟩ := h
  obtain ⟨query, hc⟩ := compile_of_request hrun
  obtain ⟨haccepted, q, rfl, hconds, hlimit, hids, -⟩ := compile_select_words hwords hcols hc
  rw [request_select hc] at hrun
  obtain rfl := hrequested.unique (requested_of_optimize hreg.toLayout hids)
  exact ⟨haccepted, q, hconds, hlimit, Optimizer.optimizeColumns_lt hreg.toLayout hids, s, hrun, hperm⟩

theorem selectsLines_of_answers {q : SelectQuery} (hc : compile t.info command = .ok (.select q))
    (h : Executor.Answers t q (search.lines t) ((Executor.executeSelect q).run ⟨t, { isSucces := true }⟩)) :
    SelectsLines os t search command cols order := by
  obtain ⟨-, q', heq, -, -, hids, horder⟩ := compile_select_words hwords hcols hc
  cases heq
  obtain ⟨s, hrun, hlog, hselected⟩ := h
  exact ⟨t.info.pick q.columnsOptimized, s, requested_of_optimize hreg.toLayout hids,
    (request_select hc).trans hrun, hlog, hselected.perm, fun hnone => hselected.unsorted (horder hnone)⟩

/-- A SELECT that looks up a line is right when it is the only one it is meant for. -/
theorem selectsLines_lookup_iff (hs : Served t.info t)
    (hc : search.Accepted → ∃ query, compile t.info command = .ok query) {line : BitVec 64}
    (hdir : directIndex search.conditions = some (.int64 line)) :
    SelectsLines os t search command cols order ↔ search.Accepted ∧ search.lines t = [line.toNat] := by
  constructor
  · intro h
    obtain ⟨haccepted, q, hconds, -, hids, s, hrun, hperm⟩ := h.executed hwords hcols hreg
    rw [← hconds] at hdir
    exact ⟨haccepted, Executor.lookup_answered hs.sound.toMapped hids hdir rfl hrun
      (fun i hi => Search.lines_lt hi) hperm⟩
  · rintro ⟨haccepted, hlines⟩
    obtain ⟨query, hc⟩ := hc haccepted
    obtain ⟨-, q, rfl, hconds, -, hids, -⟩ := compile_select_words hwords hcols hc
    rw [← hconds] at hdir
    apply selectsLines_of_answers hwords hcols hreg hc
    rw [hlines]
    apply Executor.lookup_answers hs.sound.toMapped hreg.filled
      (Optimizer.optimizeColumns_lt hreg.toLayout hids) hdir rfl
    exact Search.lines_lt (by rw [hlines]; exact List.mem_cons_self)

/-- A SELECT that scans is right when it comes to its end and picks the lines it is meant for. -/
theorem selectsLines_scan_iff (hs : Served t.info t)
    (hc : search.Accepted → ∃ query, compile t.info command = .ok query)
    (hdir : directIndex search.conditions = none) {start stop : Nat} {conds : List Condition}
    (hstrip : search.Accepted →
      stripSelect 0 t.getMaxActiveLine search.conditions = .ok (start, stop, conds) ∧ stop ≤ 2 ^ 64) :
    SelectsLines os t search command cols order ↔ search.Accepted ∧
      Scan.Swept (Tested t conds) (t.meets conds) (rowBound t search.bound) start (stop - start) ∧
        Scan.picked (t.meets conds) start (stop - start) (rowBound t search.bound) = search.lines t := by
  constructor
  · intro h
    obtain ⟨haccepted, q, hconds, hlimit, hids, s, hrun, hperm⟩ := h.executed hwords hcols hreg
    obtain ⟨hstrip, hstop⟩ := hstrip haccepted
    rw [← hconds] at hdir hstrip
    rw [← hlimit]
    exact ⟨haccepted, Executor.scan_answered hs.sound.toMapped hreg.filled hids hdir hstrip hs.places_body rfl
      hstop hrun (fun i hi => Search.lines_lt hi) Search.lines_pairwise hperm⟩
  · rintro ⟨haccepted, hswept, hpicked⟩
    obtain ⟨query, hc⟩ := hc haccepted
    obtain ⟨-, q, rfl, hconds, hlimit, hids, -⟩ := compile_select_words hwords hcols hc
    obtain ⟨hstrip, -⟩ := hstrip haccepted
    rw [← hconds] at hdir hstrip
    rw [← hlimit] at hswept hpicked
    apply selectsLines_of_answers hwords hcols hreg hc
    rw [← hpicked]
    exact Executor.scan_answers hs.sound.toMapped hreg.filled (Optimizer.optimizeColumns_lt hreg.toLayout hids)
      hdir hstrip hs.places_body rfl hswept

end select

section erase
variable (hwords : CppText.words command = deleteWords name search)
include hwords

theorem compile_delete_accepted {query : QueryVariant} (hc : compile t.info command = .ok query) :
    search.Accepted := by
  have hraw := hc
  unfold compile at hraw
  rw [RequestParser.parse_eq, hwords] at hraw
  unfold deleteWords at hraw
  rw [RequestParser.parseWords_delete, RequestParser.parseDelete_words search.unended_limit] at hraw
  obtain ⟨q, hq, -⟩ := Except_map_ok hraw
  obtain ⟨conditions, hconditions, -⟩ := Except_bind_ok hq
  exact (Search.accepted_of_optimize hconditions).1

/-- What a DELETE with these conditions does, for a DELETE of these words. -/
theorem erasesLines_iff {P : Prop}
    (h : ∀ q : DeleteQuery, q.conditions = search.conditions → q.limit = search.bound → search.Accepted →
      (Executor.Erases t (search.lines t) ((Executor.executeDelete q).run ⟨t, { isSucces := true }⟩) ↔ P)) :
    ErasesLines os t search command ↔ search.Accepted ∧ P := by
  constructor
  · rintro ⟨s, hrun, herasing⟩
    obtain ⟨query, hc⟩ := compile_of_request hrun
    have haccepted := compile_delete_accepted hwords hc
    have hcompiled := compile_delete_words hwords haccepted
    rw [request_erase hcompiled] at hrun
    exact ⟨haccepted, (h _ rfl rfl haccepted).mp ⟨s, hrun, herasing⟩⟩
  · rintro ⟨haccepted, hP⟩
    obtain ⟨s, hrun, herasing⟩ := (h
      { tabbleName := name, rawConditions := search.tokens.getD [], limit := search.bound,
        conditions := search.conditions } rfl rfl haccepted).mpr hP
    exact ⟨s, (request_erase (compile_delete_words hwords haccepted)).trans hrun, herasing⟩

end erase

section update
variable {sets : List (Text × Text)} (hwords : CppText.words command = updateWords name sets search)
  (hsets : ∀ p ∈ sets, p.1 ≠ str "WHERE" ∧ p.1 ≠ str "LIMIT")
  (hc : search.Accepted → ∃ query, compile t.info command = .ok query)
include hwords hsets hc

/-- What an UPDATE with these conditions does, for an UPDATE of these words. -/
theorem updatesLines_iff {P : Prop}
    (h : ∀ q : UpdateQuery, q.conditions = search.conditions → q.limit = search.bound → search.Accepted →
      Executor.columnsAt t.info.columns q.columnsOptimized = .ok (t.info.pick q.columnsOptimized) →
      (t.info.pick q.columnsOptimized).length ≤ q.values.length →
      (Executor.Rewrites q.values (t.info.pick q.columnsOptimized) t (search.lines t)
          ((Executor.executeUpdate os q).run ⟨t, { isSucces := true }⟩) ↔
        P ∧ (search.lines t = [] ∨ Tabble.writtenColumns t.info.lineLength q.values 0
          (t.info.pick q.columnsOptimized) = t.info.pick q.columnsOptimized))) :
    UpdatesLines os t search command ↔ search.Accepted ∧ P ∧ UpdateFits t search command := by
  have hcompiled {query : QueryVariant} (hc : compile t.info command = .ok query) :
      search.Accepted ∧ ∃ q : UpdateQuery, query = .update q ∧
        (Executor.Rewrites q.values (t.info.pick q.columnsOptimized) t (search.lines t)
            ((Executor.executeUpdate os q).run ⟨t, { isSucces := true }⟩) ↔
          P ∧ (search.lines t = [] ∨
            Tabble.Fitting t.info.lineLength q.values (t.info.pick q.columnsOptimized))) := by
    obtain ⟨haccepted, raw, q, rfl, hconds, hlimit, hprepared⟩ := compile_update_words hwords hsets hc
    obtain ⟨hcolumns, hlength⟩ := hprepared.set.columnsAt
    have hlen : (t.info.pick q.columnsOptimized).length ≤ q.values.length := by
      rw [hlength, hprepared.set.length]
    refine ⟨haccepted, q, rfl, ?_⟩
    rw [Tabble.fitting_iff hlen]
    exact h q hconds hlimit haccepted hcolumns hlen
  constructor
  · rintro ⟨q, s, hq, hrun, hadvanced⟩
    obtain ⟨haccepted, q', heq, hiff⟩ := hcompiled hq
    cases heq
    rw [request_update hq] at hrun
    obtain ⟨hP, hfits⟩ := hiff.mp ⟨s, hrun, hadvanced⟩
    refine ⟨haccepted, hP, hfits.imp_right fun hfit q' hq' => ?_⟩
    rw [hq] at hq'
    cases hq'
    exact hfit
  · rintro ⟨haccepted, hP, hfits⟩
    obtain ⟨query, hq⟩ := hc haccepted
    obtain ⟨-, q, rfl, hiff⟩ := hcompiled hq
    obtain ⟨s, hrun, hadvanced⟩ := hiff.mpr ⟨hP, hfits.imp_right fun hfit => hfit q hq⟩
    exact ⟨q, s, hq, (request_update hq).trans hrun, hadvanced⟩

end update

end
end SQLid
