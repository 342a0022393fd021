import SQLid.Selects
import SQLid.ReportedIds
import SQLid.Rendering
import SQLid.Statements

/-!
# Three statements with one clause

With a clause that has no term on the id, or with none, the lines a SELECT answers with,
a DELETE erases and an UPDATE writes are the first active ones the clause holds on.
-/
namespace SQLid
open Bytes (Text)
open CppText (str)
open Programs
open Tabble (LogOnly)
open Executor (directIndex stripSelect upperBound scannedLines targetLines shownLines)

namespace Tabble
variable {t : Tabble} {schema : TabbleInfo} {conds : List Condition}

/-- A counter that counts every active line cuts no scan short. -/
theorem length_active_le {p : Nat → Bool} (hp : ∀ i, p i = true → t.active i = true) :
    ((List.range t.maxLines).filter p).length ≤ t.activeCount := by
  have hactive := (List.monotone_filter_right (List.range t.maxLines) hp).length_le
  rw [activeCount_eq]
  unfold Nat.count
  rw [List.countP_eq_length_filter]
  simpa using hactive

/-- A scan of all lines used so far finds the first of all lines that meet the conditions. -/
theorem scannedLines_all (hs : Served schema t) (conds : List Condition) (limit : Nat) :
    scannedLines t conds (if t.getActivePlaces < limit then t.getActivePlaces else limit) 0
        t.getMaxActiveLine = ((List.range t.maxLines).filter (t.meets conds)).take limit := by
  have htop : t.freeId ≤ t.maxLines := hs.sound.freeId_le
  have hsplit : List.range t.maxLines =
      List.range' 0 t.freeId ++ List.range' t.freeId (t.maxLines - t.freeId) := by
    have happend := @List.range'_append_1 0 t.freeId (t.maxLines - t.freeId)
    rw [Nat.zero_add, Nat.add_sub_cancel' htop] at happend
    rw [List.range_eq_range', happend]
  have hrest : (List.range' t.freeId (t.maxLines - t.freeId)).filter (t.meets conds) = [] := by
    apply List.filter_eq_nil_iff.mpr
    intro i hi hmeets
    have hlt := hs.sound.active_lt (meets_iff.mp hmeets).1
    have hge := (List.mem_range'_1.mp hi).1
    omega
  have hlen : ((List.range' 0 t.freeId).filter (t.meets conds)).length ≤ t.activePlaces := by
    have hall := length_active_le fun i (hi : t.meets conds i = true) => (meets_iff.mp hi).1
    rw [hsplit, List.filter_append, hrest, List.append_nil] at hall
    exact hall.trans hs.places_ge
  unfold Executor.scannedLines Scan.picked getMaxActiveLine getActivePlaces
  rw [hsplit, List.filter_append, hrest, List.append_nil, Nat.sub_zero, Nat.min_eq_left htop]
  split_ifs with hplaces
  · rw [List.take_of_length_le hlen, List.take_of_length_le (hlen.trans hplaces.le)]
  · rfl

end Tabble

/-! Conditions without the id. -/

section
variable {info : TabbleInfo}

/-- The conditions of a clause without id terms begin with a comparison. -/
theorem Clause.Plain.conditions {clause : Clause info} (h : clause.Plain) :
    ∃ (term : ColumnTerm info) (rest : List Condition),
      clause.conditions = term.condition :: rest ∧ clause.conditions = plainConditions clause.items := by
  have hids : clause.conditions = plainConditions clause.items := by
    unfold Clause.conditions
    rw [h.ids]
    rfl
  obtain ⟨first, rest⟩ := clause
  cases first with
  | id term => exact absurd h.1 Bool.false_ne_true
  | column term => exact ⟨term, _, hids, hids⟩

/-- No term of the clause is on the id. -/
def Search.Plain (search : Search info) : Prop := ∀ clause ∈ search.clause, clause.Plain

/-- Nothing is looked up directly, and no bound is set. -/
structure Unbounded (conds : List Condition) : Prop where
  direct : directIndex conds = none
  strip : ∀ start stop, stripSelect start stop conds = .ok (start, stop, conds)
  upper : ∀ stop, upperBound stop conds = .ok stop

theorem unbounded_nil : Unbounded [] := ⟨rfl, fun _ _ => rfl, fun _ => rfl⟩

theorem unbounded_column (term : ColumnTerm info) (rest : List Condition) :
    Unbounded (term.condition :: rest) := by
  have hkind : term.condition.condType = term.oper.kind := rfl
  refine ⟨?_, fun start stop => ?_, fun stop => ?_⟩
  · unfold directIndex ColumnTerm.condition
    cases term.oper <;> rfl
  · unfold stripSelect
    rw [hkind]
    cases term.oper <;> rfl
  · unfold upperBound
    rw [hkind]
    cases term.oper <;> rfl

theorem Search.Plain.unbounded {search : Search info} (h : search.Plain) : Unbounded search.conditions := by
  unfold Search.conditions
  cases hclause : search.clause with
  | none => exact unbounded_nil
  | some clause =>
      obtain ⟨term, rest, hconds, -⟩ := (h clause hclause).conditions
      dsimp only
      rw [hconds]
      exact unbounded_column term rest

/-- The conditions hold on a row exactly when the clause does. -/
theorem Search.Plain.rowSelects {t : Tabble} (hreg : t.info.Regular) {search : Search t.info}
    (h : search.Plain) (i : Nat) :
    t.rowSelects search.conditions i = .ok (t.flag i && search.holds t i) := by
  unfold Tabble.rowSelects Search.conditions Search.holds
  cases hflag : t.flag i with
  | false => rfl
  | true =>
      rw [if_pos rfl, Bool.true_and]
      cases hclause : search.clause with
      | none => rfl
      | some clause =>
          have hplain := h clause hclause
          obtain ⟨term, rest, hconds, hitems⟩ := hplain.conditions
          dsimp only
          rw [if_neg (by rw [hconds]; exact List.cons_ne_nil _ _), hitems]
          have heval := rowSatisfies_items hreg (t.cell i) false .or clause.items
          rw [hplain.foldColumns i] at heval
          exact heval

theorem Search.Plain.meets {t : Tabble} (hreg : t.info.Regular) {search : Search t.info}
    (h : search.Plain) (i : Nat) :
    t.meets search.conditions i = (t.active i && search.holds t i) := by
  unfold Tabble.meets
  rw [h.rowSelects hreg]
  unfold Tabble.active
  cases decide (i < t.maxLines) <;> cases t.flag i <;> rfl

theorem Search.Plain.lines {t : Tabble} (hs : Served t.info t) (hreg : t.info.Regular)
    {search : Search t.info} (h : search.Plain) :
    scannedLines t search.conditions
        (if t.getActivePlaces < search.bound then t.getActivePlaces else search.bound) 0
        t.getMaxActiveLine = search.lines t := by
  rw [Tabble.scannedLines_all hs]
  unfold Search.lines
  congr 2
  exact funext (h.meets hreg)

/-- A scan of the lines used so far stays in the file, and its conditions evaluate. -/
theorem Search.Plain.not_astray {t : Tabble} (hs : t.Sound) (hreg : t.info.Regular)
    {search : Search t.info} (h : search.Plain) :
    ¬ Executor.Astray t search.conditions t.getMaxActiveLine := by
  rintro (hpast | ⟨i, -, hne⟩)
  · have htop : t.freeId ≤ t.maxLines := hs.freeId_le
    change t.maxLines < t.freeId at hpast
    omega
  · exact hne _ (h.rowSelects hreg i)

/-- Every line of that scan can be read. -/
theorem Search.Plain.swept {t : Tabble} (hs : Served t.info t) (hreg : t.info.Regular)
    {search : Search t.info} (h : search.Plain) (count : Nat) :
    Scan.Swept (Executor.Tested t search.conditions) (t.meets search.conditions) count 0
      (t.getMaxActiveLine - 0) := by
  refine ⟨_, le_rfl, .inl rfl, fun i _ hi => ?_⟩
  have htop : t.freeId ≤ t.maxLines := hs.sound.freeId_le
  have hline : i < t.maxLines := by
    change i < 0 + (t.freeId - 0) at hi
    omega
  have hselects := h.rowSelects hreg i
  have hlegible : Executor.Legible t search.conditions i :=
    ⟨hline, by rw [hselects, Tabble.meets_of_ok hline hselects]⟩
  exact hlegible.tested hs.sound.toMapped hreg.filled

end

/-! From the words to the query. -/

section
variable {info : TabbleInfo} {search : Search info} {command name : Text} {cols : List Text}

theorem Search.optimize (search : Search info) (h : search.Accepted) :
    Optimizer.optimizeConditions info (search.tokens.getD []) [] = .ok search.conditions := by
  unfold Search.tokens Search.conditions
  cases hclause : search.clause with
  | none => rfl
  | some clause =>
      have haccepted := optimizeConditions_clause clause
      rw [if_pos (h clause hclause)] at haccepted
      exact haccepted

/-- The optimizer takes the clause of an accepted search only. -/
theorem Search.accepted_of_optimize {search : Search info} {conditions : List Condition}
    (h : Optimizer.optimizeConditions info (search.tokens.getD []) [] = .ok conditions) :
    search.Accepted ∧ conditions = search.conditions := by
  have haccepted : search.Accepted := by
    intro clause hclause
    unfold Search.tokens at h
    rw [hclause, Option.map_some, Option.getD_some, optimizeConditions_clause] at h
    by_contra hrefused
    rw [if_neg hrefused] at h
    cases h
  rw [search.optimize haccepted] at h
  exact ⟨haccepted, (Except.ok.inj h).symm⟩

theorem Search.Plain.accepted (h : search.Plain) : search.Accepted := by
  intro clause hclause
  unfold Clause.Accepted
  rw [(h clause hclause).ids]
  exact List.forall_mem_nil _

theorem compile_delete_words (h : CppText.words command = deleteWords name search)
    (haccepted : search.Accepted) :
    compile info command = .ok (.erase
      { tabbleName := name, rawConditions := search.tokens.getD [], limit := search.bound,
        conditions := search.conditions }) := by
  unfold compile
  rw [RequestParser.parse_eq, h]
  unfold deleteWords
  rw [RequestParser.parseWords_delete, RequestParser.parseDelete_words search.unended_limit]
  change Optimizer.optimize info (.erase _) = _
  unfold Optimizer.optimize
  dsimp only
  unfold Optimizer.optimizeDelete
  dsimp only
  rw [search.optimize haccepted]
  rfl

/-- A SELECT that compiles selects the columns it names, with the conditions of its clause. -/
theorem compile_select_words {order : Option (List Text)} {query : QueryVariant}
    (h : CppText.words command = selectWords cols name search order) (hcols : ∀ c ∈ cols, c ≠ str "FROM")
    (hc : compile info command = .ok query) :
    search.Accepted ∧ ∃ q : SelectQuery, query = .select q ∧ q.conditions = search.conditions ∧
      q.limit = search.bound ∧ Optimizer.optimizeColumns info cols = .ok q.columnsOptimized ∧
      (order = none → q.orderColumnsOptimized = []) := by
  obtain ⟨raw, hraw, hopt⟩ := Except_bind_ok hc
  rw [RequestParser.parse_eq, h] at hraw
  unfold selectWords at hraw
  rw [RequestParser.parseWords_select,
    RequestParser.parseSelect_words hcols search.unended_tokens search.limit order] at hraw
  obtain ⟨q₀, hq₀, rfl⟩ := Except_map_ok hraw
  obtain ⟨oder, hoder, rfl⟩ := Except_map_ok hq₀
  rcases Optimizer.optimize_cases hopt with ⟨r, q, heq, rfl, hq⟩ | ⟨r, q, heq, -⟩ | ⟨r, q, heq, -⟩ |
    ⟨r, q, heq, -⟩ <;> cases heq
  obtain ⟨conditions, hconditions, hq⟩ := Except_bind_ok hq
  obtain ⟨columns, hcolumns, hq⟩ := Except_bind_ok hq
  obtain ⟨ordering, hordering, hq⟩ := Except_bind_ok hq
  cases hq
  dsimp only at hconditions hcolumns hordering ⊢
  obtain ⟨haccepted, rfl⟩ := Search.accepted_of_optimize hconditions
  refine ⟨haccepted, _, rfl, rfl, rfl, hcolumns, ?_⟩
  rintro rfl
  cases hoder
  cases hordering
  rfl

/-- An UPDATE that compiles has the conditions of its clause. -/
theorem compile_update_words {sets : List (Text × Text)} {query : QueryVariant}
    (h : CppText.words command = updateWords name sets search)
    (hsets : ∀ p ∈ sets, p.1 ≠ str "WHERE" ∧ p.1 ≠ str "LIMIT") (hc : compile info command = .ok query) :
    search.Accepted ∧ ∃ (raw q : UpdateQuery), query = .update q ∧ q.conditions = search.conditions ∧
      q.limit = search.bound ∧ Optimizer.Prepared info raw q := by
  obtain ⟨raw, hraw, hopt⟩ := Except_bind_ok hc
  rw [RequestParser.parse_eq, h] at hraw
  unfold updateWords at hraw
  rw [RequestParser.parseWords_update,
    RequestParser.parseUpdate_words hsets search.unended_limit search.limit] at hraw
  cases hraw
  rcases Optimizer.optimize_cases hopt with ⟨r, q, heq, -⟩ | ⟨r, q, heq, -⟩ | ⟨r, q, heq, -⟩ |
    ⟨r, q, heq, rfl, hq⟩ <;> cases heq
  have hprepared := Optimizer.optimizeUpdate_prepared hq
  obtain ⟨columns, hcolumns, hq⟩ := Except_bind_ok hq
  obtain ⟨conditions, hconditions, hq⟩ := Except_bind_ok hq
  obtain ⟨values, hvalues, hq⟩ := Except_bind_ok hq
  cases hq
  dsimp only at hconditions
  obtain ⟨haccepted, rfl⟩ := Search.accepted_of_optimize hconditions
  exact ⟨haccepted, _, _, rfl, rfl, rfl, hprepared⟩

end

/-! What the three statements do. -/

/-- The columns a SELECT asks for, in the order it names them; `*` stands for all and ends
the list. -/
inductive Requested (info : TabbleInfo) : List Text → List Column → Prop
  | none : Requested info [] []
  | all {cols : List Text} : Requested info (str "*" :: cols) info.columns
  | column {col : Text} {cols : List Text} {id : Nat} {column : Column} {columns : List Column} :
      col ≠ str "*" → info.columnsMap.lookup col = some id → info.columns[id]? = some column →
      Requested info cols columns → Requested info (col :: cols) (column :: columns)

theorem requested_of_optimize {info : TabbleInfo} (hlay : info.Layout) {cols : List Text} {ids : List Nat}
    (h : Optimizer.optimizeColumns info cols = .ok ids) : Requested info cols (info.pick ids) := by
  induction cols generalizing ids with
  | nil =>
      cases h
      exact .none
  | cons col cols ih =>
      unfold Optimizer.optimizeColumns at h
      split at h
      · next hall =>
        cases h
        rw [hall, TabbleInfo.pick_range, List.take_length]
        exact .all
      · next hname =>
        split at h
        · cases h
        · next id hid =>
          obtain ⟨rest, hrest, h⟩ := Except_bind_ok h
          cases h
          have hcol := List.getElem?_eq_getElem (hlay.lookup_lt hid)
          rw [TabbleInfo.pick_cons hcol]
          exact .column hname hid hcol (ih hrest)

/-- On this table all three statements act on the lines the search is meant for. -/
structure Agrees (os : Os) (t : Tabble) (search : Search t.info) : Prop where
  select : ∀ {name command : Text} {cols : List Text} {order : Option (List Text)} {query : QueryVariant},
    CppText.words command = selectWords cols name search order → (∀ c ∈ cols, c ≠ str "FROM") →
    compile t.info command = .ok query → ∃ columns s, Requested t.info cols columns ∧
      request os command t = .ok () s ∧ LogOnly t s.table ∧
      s.result.body.Perm ((search.lines t).map fun i => Executor.idCell i :: columns.map (t.cell i)) ∧
      (order = none →
        s.result.body = (search.lines t).map fun i => Executor.idCell i :: columns.map (t.cell i))
  erase : ∀ {name command : Text}, CppText.words command = deleteWords name search →
    ∃ s, request os command t = .ok () s ∧
      s.table.history = t.history ++ (search.lines t).map RowOp.erase ∧
      ∀ i, s.table.active i = (t.active i && !decide (i ∈ search.lines t))
  update : ∀ {name command : Text} {sets : List (Text × Text)} {s : Execution},
    CppText.words command = updateWords name sets search →
    (∀ p ∈ sets, p.1 ≠ str "WHERE" ∧ p.1 ≠ str "LIMIT") → request os command t = .ok () s →
    s.table.history = t.history ++ (search.lines t).map RowOp.update

section
variable {os : Os} {t : Tabble} {search : Search t.info}

/-- The scan of a DELETE or UPDATE, as that of a SELECT, goes over the lines used so far. -/
theorem Search.Plain.targets (hs : Served t.info t) (hreg : t.info.Regular) (h : search.Plain) :
    targetLines t search.conditions search.bound = search.lines t := by
  have hnone := h.unbounded.direct
  have hupper := h.unbounded.upper t.getMaxActiveLine
  unfold targetLines
  rw [hnone]
  dsimp only
  rw [hupper]
  exact h.lines hs hreg

theorem Search.Plain.shown (hs : Served t.info t) (hreg : t.info.Regular) (h : search.Plain) :
    shownLines t search.conditions search.bound = search.lines t := by
  have htargets := h.targets hs hreg
  unfold shownLines
  rw [h.unbounded.direct]
  exact htargets

theorem Search.Plain.not_strays (hs : t.Sound) (hreg : t.info.Regular) (h : search.Plain) :
    ¬ Executor.Strays t search.conditions := by
  rintro (⟨line, hdirect, -⟩ | ⟨maxLine, hmax, hastray⟩)
  · rw [h.unbounded.direct] at hdirect
    cases hdirect
  · rw [h.unbounded.upper] at hmax
    cases hmax
    exact h.not_astray hs hreg hastray

theorem Search.Plain.aimed (h : search.Plain) : Executor.Aimed t search.conditions := by
  intro line hline
  rw [h.unbounded.direct] at hline
  cases hline

theorem Served.places_body {schema : TabbleInfo} (hs : Served schema t) : t.activePlaces ≤ Executor.maxBody := by
  have hlt := hs.places_lt
  unfold Executor.maxBody
  omega

/-- The lines of a search whose limit is not the one it is written with. -/
def Search.upTo {info : TabbleInfo} (search : Search info) (t : Tabble) (limit : Nat) : List Nat :=
  ((List.range t.maxLines).filter fun i => t.active i && search.holds t i).take limit

theorem Search.Plain.select (hs : Served t.info t) (hreg : t.info.Regular) (hplain : search.Plain)
    {query : SelectQuery} (hconds : query.conditions = search.conditions)
    (hids : ∀ id ∈ query.columnsOptimized, id < t.info.columns.length) {r : Result} (hr : r.body = []) :
    ∃ s, (Executor.executeSelect query).run ⟨t, r⟩ = .ok () s ∧ LogOnly t s.table ∧
      Executor.Selected t query (search.upTo t query.limit) s := by
  have hunbounded := hplain.unbounded
  have hswept := hplain.swept hs hreg
  rw [← hconds] at hunbounded hswept
  have hpost := Executor.executeSelect_swept hs.sound.toMapped hreg.filled hids hunbounded.direct
    (hunbounded.strip 0 t.getMaxActiveLine) hs.places_body (I := fun _ => True)
    (fun i (hi : Executor.Tested t query.conditions i) => ⟨hi, fun _ _ _ => trivial⟩) (hswept _) r hr
  rw [Nat.sub_zero, ← Executor.scannedLines_eq] at hpost
  unfold Executor.rowBound at hpost
  rw [Tabble.scannedLines_all hs, hconds, funext (hplain.meets hreg)] at hpost
  generalize (Executor.executeSelect query).run ⟨t, r⟩ = result at hpost
  cases hpost with
  | error hnever => exact hnever.elim
  | ok hselected => exact ⟨_, rfl, hselected.1.logOnly, hselected.2⟩

theorem select_agrees (hs : Served t.info t) (hreg : t.info.Regular) (hplain : search.Plain)
    {name command : Text} {cols : List Text} {order : Option (List Text)} {query : QueryVariant}
    (hwords : CppText.words command = selectWords cols name search order)
    (hcols : ∀ c ∈ cols, c ≠ str "FROM") (hc : compile t.info command = .ok query) :
    ∃ ids s, Optimizer.optimizeColumns t.info cols = .ok ids ∧ request os command t = .ok () s ∧
      LogOnly t s.table ∧ s.result.body.Perm ((search.lines t).map (t.selectedRow ids)) ∧
      (order = none → s.result.body = (search.lines t).map (t.selectedRow ids)) := by
  obtain ⟨-, q, rfl, hconds, hlimit, hids, horder⟩ := compile_select_words hwords hcols hc
  obtain ⟨s, hrun, hlog, hselected⟩ := hplain.select hs hreg hconds
    (Optimizer.optimizeColumns_lt hreg.toLayout hids) (r := { isSucces := true }) rfl
  rw [hlimit] at hselected
  refine ⟨_, s, hids, ?_, hlog, hselected.perm, fun hnone => hselected.unsorted (horder hnone)⟩
  unfold request
  rw [run_answer hc, run_execute]
  exact hrun

theorem delete_agrees (hs : Served t.info t) (hreg : t.info.Regular) (hplain : search.Plain)
    {name command : Text} (hwords : CppText.words command = deleteWords name search) :
    ∃ s, request os command t = .ok () s ∧
      s.table.history = t.history ++ (search.lines t).map RowOp.erase ∧
      ∀ i, s.table.active i = (t.active i && !decide (i ∈ search.lines t)) := by
  have hc := compile_delete_words hwords hplain.accepted
  have hpost := Executor.executeDelete_outcome hs.sound hreg.filled (compile_erase hc) hplain.aimed
    { isSucces := true } rfl
  dsimp only at hpost
  rw [hplain.targets hs hreg, hplain.shown hs hreg] at hpost
  have hrun : request os command t = _ := run_answer hc {}
  rw [run_execute] at hrun
  rw [← hrun] at hpost
  generalize request os command t = result at hpost
  cases hpost with
  | error hfail =>
      rcases hfail with ⟨hstrays, -⟩ | ⟨hplaces, -⟩
      · exact absurd hstrays (hplain.not_strays hs.sound hreg)
      · exact absurd hs.places_body (Nat.not_le.mpr hplaces)
  | ok hdeleted =>
      obtain ⟨⟨t', herasing, hlog⟩, -⟩ := hdeleted
      refine ⟨_, rfl, hlog.history.trans herasing.history, fun i => ?_⟩
      rw [hlog.active, herasing.active]

theorem update_agrees (hs : Served t.info t) (hreg : t.info.Regular) (hplain : search.Plain)
    {name command : Text} {sets : List (Text × Text)} {s : Execution}
    (hwords : CppText.words command = updateWords name sets search)
    (hsets : ∀ p ∈ sets, p.1 ≠ str "WHERE" ∧ p.1 ≠ str "LIMIT") (hrun : request os command t = .ok () s) :
    s.table.history = t.history ++ (search.lines t).map RowOp.update := by
  obtain ⟨query, hc⟩ : ∃ query, compile t.info command = .ok query := by
    cases hc : compile t.info command with
    | ok query => exact ⟨query, rfl⟩
    | error e =>
        have herr : request os command t = _ := run_answer_error hc {}
        rw [herr] at hrun
        cases hrun
  obtain ⟨-, raw, q, rfl, hconds, hlimit, hprepared⟩ := compile_update_words hwords hsets hc
  have haimed : Executor.Aimed t q.conditions := by
    rw [hconds]
    exact hplain.aimed
  have hpost := Executor.executeUpdate_outcome hs.sound.toMapped hreg.filled os hprepared haimed
    { isSucces := true } rfl
  rw [hconds, hlimit, hplain.targets hs hreg, ← request_update hc, hrun] at hpost
  cases hpost with
  | ok hupdated =>
      obtain ⟨⟨t', hadvanced, hlog⟩, -⟩ := hupdated
      exact hlog.history.trans hadvanced.rewritten.history

end

/-- In every state of an orderly run the three statements agree on every clause without id
terms. -/
theorem plain_clauses_agree {os : Os} {schema : TabbleInfo} (hreg : schema.Regular) {t : Tabble}
    (h : Reach Orderly os schema t) (hidle : t.storage.expanding = false) (search : Search t.info)
    (hplain : search.Plain) : Agrees os t search := by
  have hs := h.served hreg hidle
  obtain rfl : t.info = schema := hs.info
  refine ⟨fun hwords hcols hc => ?_, fun hwords => delete_agrees hs hreg hplain hwords,
    fun hwords hsets hrun => update_agrees hs hreg hplain hwords hsets hrun⟩
  obtain ⟨ids, s, hids, hrun, hlog, hperm, hrows⟩ := select_agrees hs hreg hplain hwords hcols hc
  exact ⟨t.info.pick ids, s, requested_of_optimize hreg.toLayout hids, hrun, hlog, hperm, hrows⟩

/-! The table of one number, with one row of four ones. -/

/-- The table after a request. -/
def answered (t : Tabble) (command : String) : Tabble :=
  (finalState (request .reliable (str command) t)).table

theorem reach_answered {ok : Tabble → Text → Prop} {schema : TabbleInfo} {t : Tabble} {command : String}
    (h : Reach ok .reliable schema t) (hok : ok t (str command))
    (hrun : isOk (request .reliable (str command) t) = true) :
    Reach ok .reliable schema (answered t command) :=
  .request _ h hok (settles_of_isOk hrun)

theorem sampleInfo_regular : Tabble.sampleInfo.Regular := ⟨Tabble.sampleInfo_layout, by decide, by decide⟩

def sampleFilled : Tabble := answered Tabble.sampleOpened "INSERT INTO t 16843009"

theorem sampleOpened_reach (ok : Tabble → Text → Prop) :
    Reach ok .reliable Tabble.sampleInfo Tabble.sampleOpened := .start Tabble.sampleOpened_opens

theorem sampleFilled_reach {ok : Tabble → Text → Prop}
    (h : ok Tabble.sampleOpened (str "INSERT INTO t 16843009")) :
    Reach ok .reliable Tabble.sampleInfo sampleFilled :=
  reach_answered (sampleOpened_reach ok) h (by decide +kernel)

theorem sampleFilled_orderly : Reach Orderly .reliable Tabble.sampleInfo sampleFilled :=
  sampleFilled_reach (orderly_of_undirected Tabble.sampleOpened_idle (by decide +kernel))

theorem sampleFilled_awake : sampleFilled.storage.expanding = false := by decide +kernel

/-- The term `n > 3`. -/
def sampleTerm : ColumnTerm sampleFilled.info where
  name := str "n"
  oper := .greater
  literal := str "3"
  columnId := 0
  column := ⟨str "n", 1, .int32, 4⟩
  desired := .int32 3
  lookup := by decide +kernel
  get := by decide +kernel
  parses := by decide +kernel
  notId := by decide +kernel
  notConnective := by decide +kernel

def sampleSearch : Search sampleFilled.info where
  clause := some ⟨.column sampleTerm, []⟩
  limit := none
  unended := by decide +kernel

theorem plain_clauses_agree_sample :
    sampleSearch.lines sampleFilled = [0] ∧ Agrees .reliable sampleFilled sampleSearch := by
  have hplain : sampleSearch.Plain := by
    intro clause hclause
    cases hclause
    exact ⟨rfl, List.forall_mem_nil _⟩
  exact ⟨by decide +kernel, plain_clauses_agree sampleInfo_regular sampleFilled_orderly
    sampleFilled_awake sampleSearch hplain⟩

/-- Two DELETEs by ids that wrap around to bytes of the row leave the table with no active place
and the row still active. -/
def sampleStruck : Tabble :=
  answered (answered sampleFilled "DELETE FROM t WHERE id == 3689348814741910324")
    "DELETE FROM t WHERE id == 7378697629483820647"

example : sampleStruck.getActivePlaces = 0 := by decide +kernel

theorem sampleStruck_reach : Reach (fun _ _ => True) .reliable Tabble.sampleInfo sampleStruck :=
  reach_answered (reach_answered (sampleFilled_reach trivial) trivial (by decide +kernel)) trivial
    (by decide +kernel)

/-- A SELECT without a clause does not find the row then. -/
theorem struck_row_unselected : ¬ ∀ (os : Os) (schema : TabbleInfo) (t : Tabble), schema.Regular →
    Reach (fun _ _ => True) os schema t → ∀ search : Search t.info, search.Plain → Agrees os t search := by
  intro h
  have hagrees := h .reliable _ _ sampleInfo_regular sampleStruck_reach
    ⟨none, none, fun _ hc => by cases hc⟩ fun _ hc => by cases hc
  have hcompiles : (compile sampleStruck.info (str "SELECT * FROM t")).isOk = true := by decide +kernel
  have hnone : (finalState (request .reliable (str "SELECT * FROM t") sampleStruck)).result.body = [] := by
    decide +kernel
  have hactive : (List.range sampleStruck.maxLines).filter sampleStruck.active = [0] := by
    decide +kernel
  cases hc : compile sampleStruck.info (str "SELECT * FROM t") with
  | error e =>
      rw [hc] at hcompiles
      cases hcompiles
  | ok query =>
      obtain ⟨columns, s, -, hrun, -, hperm, -⟩ := @Agrees.select _ _ _ hagrees (str "t")
        (str "SELECT * FROM t") [str "*"] none query (by decide +kernel) (by decide +kernel) hc
      rw [hrun] at hnone
      have hlength := hperm.length_eq
      rw [show s.result.body = [] from hnone, List.length_map] at hlength
      unfold Search.lines Search.holds at hlength
      simp only [Bool.and_true] at hlength
      rw [hactive] at hlength
      exact absurd hlength (by decide)

end SQLid
