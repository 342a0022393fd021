import SQLid.IdSearches

/-!
# When the id paths agree with a scan of all lines

A lookup agrees with the clause it stands in when the lines the clause holds on are the
line itself. Bounds agree when the window they make and the column terms together hold
where the clause does. A DELETE or UPDATE with bounds gets stuck on the first active line.
-/
namespace SQLid
open Bytes (Text)
open CppText (str)
open Programs
open Executor (directIndex stripSelect upperBound rowBound Tested Legible Probed)

/-! Scans whose conditions begin with one on the id. -/

section
variable {t : Tabble} {i : Nat}

/-- No row may be answered, or no line of the window reads as active. -/
def Vacant (t : Tabble) (limit start stop : Nat) : Prop :=
  rowBound t limit = 0 ∨
    ∀ i, start ≤ i → i < stop → t.peek (Tabble.onStorage (MemoryMap.isActive i)) = .ok false

/-- The test of a line that reads as active faults at the condition on the id. -/
theorem peek_index (term : IdTerm) (conds : List Condition) (columns : List Column) :
    t.peek (Executor.selects (term.condition :: conds) columns i) = .ok false ↔
      t.peek (Tabble.onStorage (MemoryMap.isActive i)) = .ok false := by
  have hcond (b : Bool) : Tabble.ReadsLine i (if b = true then
      if term.condition :: conds = [] then pure true
      else Executor.satisfiesConditions i (term.condition :: conds) columns
      else pure false) := by
    cases b with
    | false => exact Tabble.reads_pure _
    | true =>
        rw [if_pos rfl, if_neg (List.cons_ne_nil _ _)]
        exact Executor.reads_satisfiesFrom i columns _ _ _
  have hselects := (Tabble.reads_isActive i).peek_bind (t := t) hcond
  change t.peek (Executor.selects (term.condition :: conds) columns i) = _ at hselects
  rw [hselects]
  cases t.peek (Tabble.onStorage (MemoryMap.isActive i)) with
  | error e => exact Iff.rfl
  | ok b =>
      cases b with
      | false => exact iff_of_true rfl rfl
      | true =>
          refine iff_of_false (fun hpeek => ?_) fun heq => by cases heq
          have hid : term.condition.collumnId ≠ sizeMax := by
            change (0 : Nat) ≠ sizeMax
            decide
          have hkind : term.condition.condType = term.oper.kind := rfl
          change t.peek (Executor.satisfiesFrom i columns false .logicalOr (term.condition :: conds)) = _ at hpeek
          unfold Executor.satisfiesFrom at hpeek
          rw [if_neg hid] at hpeek
          cases hcol : columns[term.condition.collumnId]? with
          | none =>
              rw [hcol] at hpeek
              cases hpeek
          | some column =>
              rw [hcol] at hpeek
              dsimp only at hpeek
              rw [(Tabble.reads_readColumn i column).peek_bind fun _ =>
                (Tabble.reads_ofExcept _).bind fun _ => Executor.reads_satisfiesFrom i _ _ _ _] at hpeek
              obtain ⟨value, -, hpeek⟩ := Except_bind_ok hpeek
              unfold Condition.result at hpeek
              rw [hkind] at hpeek
              cases hoper : term.oper <;> rw [hoper] at hpeek <;> cases hpeek

theorem tested_index_iff (term : IdTerm) (conds : List Condition) : Tested t (term.condition :: conds) i ↔
    t.peek (Tabble.onStorage (MemoryMap.isActive i)) = .ok false := by
  unfold Tested
  rw [meets_index, peek_index]

theorem legible_index_iff (term : IdTerm) (conds : List Condition) : Legible t (term.condition :: conds) i ↔
    i < t.maxLines ∧ t.active i = false := by
  unfold Legible
  rw [meets_index, rowSelects_index]
  refine and_congr_right fun hi => ?_
  rw [Tabble.active_of_lt hi]
  cases t.flag i <;> simp

/-- The window of a DELETE or UPDATE begins in the file. -/
theorem vacant_file_iff (ht : t.Mapped) (limit stop : Nat) : Vacant t limit 0 stop ↔
    rowBound t limit = 0 ∨ ∀ i, 0 ≤ i → i < 0 + stop → i < t.maxLines ∧ t.active i = false := by
  unfold Vacant
  refine or_congr_right ⟨fun h i _ hi => ?_, fun h i _ hi => ?_⟩
  · have hlt : i < t.maxLines := by
      by_contra hpast
      have hend := h t.maxLines (Nat.zero_le _) (by omega)
      rw [Executor.peek_isActive_end ht] at hend
      cases hend
    have hpeek := h i (Nat.zero_le _) (by omega)
    rw [ht.peek_isActive hlt] at hpeek
    exact ⟨hlt, (Tabble.active_of_lt hlt).trans (Except.ok.inj hpeek)⟩
  · obtain ⟨hlt, hactive⟩ := h i (Nat.zero_le _) (by omega)
    rw [ht.peek_isActive hlt, ← Tabble.active_of_lt hlt, hactive]

theorem swept_index_iff (term : IdTerm) (conds : List Condition) (limit start stop : Nat) :
    Scan.Swept (Tested t (term.condition :: conds)) (t.meets (term.condition :: conds)) (rowBound t limit) start
      (stop - start) ↔ Vacant t limit start stop := by
  rw [Scan.swept_never (meets_index term conds)]
  refine or_congr_right ⟨fun h i hlow hhigh => ?_, fun h i hlow hhigh => ?_⟩
  · exact (tested_index_iff term conds).mp (h i hlow (by omega))
  · exact (tested_index_iff term conds).mpr (h i hlow (by omega))

theorem swept_change_iff (ht : t.Mapped) (term : IdTerm) (conds : List Condition) (limit stop : Nat) :
    Scan.Swept (Legible t (term.condition :: conds)) (t.meets (term.condition :: conds)) (rowBound t limit) 0
      stop ↔ Vacant t limit 0 stop := by
  rw [Scan.swept_never (meets_index term conds), vacant_file_iff ht]
  simp only [legible_index_iff]

end

/-! What decides whether a statement is right. -/

section
variable {t : Tabble} (search : Search t.info) (clause : Clause t.info)

/-- Where the window of a scan begins. -/
def Clause.lower {info : TabbleInfo} (clause : Clause info) : Nat := firstBound .atLeast clause.latest 0

/-- Where the window of a scan ends, if not where the lines end that were used so far. -/
def Clause.upperOf {info : TabbleInfo} (clause : Clause info) (top : Nat) : Nat :=
  firstBound .atMost clause.latest top

/-- The line that is looked up is the only one the search is meant for; where another id term
stands behind the lookup, nothing is meant and the window is vacant. -/
def SelectHits : Prop :=
  match clause.direct with
  | some line => search.lines t = [line]
  | none => search.lines t = [] ∧ Vacant t search.bound clause.lower (clause.upperOf t.getMaxActiveLine)

/-- The line that is looked up can be tested, and is meant exactly when it is active; where
another id term stands behind the lookup, nothing is meant and the window is vacant. -/
def ChangeHits : Prop :=
  match clause.direct with
  | some line => Probed t line ∧ search.lines t = if t.active line then [line] else []
  | none => search.lines t = [] ∧ Vacant t search.bound 0 (clause.upperOf t.getMaxActiveLine)

end

section
variable {os : Os} {t : Tabble} {search : Search t.info} {clause : Clause t.info} {name command : Text}
  (hs : Served t.info t) (hreg : t.info.Regular) (hclause : search.clause = some clause)

theorem Search.conditions_some {info : TabbleInfo} {search : Search info} {clause : Clause info}
    (h : search.clause = some clause) : search.conditions = clause.conditions := by
  unfold Search.conditions
  rw [h]

theorem Search.accepted_some {info : TabbleInfo} {search : Search info} {clause : Clause info}
    (h : search.clause = some clause) : search.Accepted ↔ clause.Accepted := by
  unfold Search.Accepted
  rw [h]
  simp

theorem Clause.direct_line {info : TabbleInfo} {clause : Clause info} (hacc : clause.Accepted) {line : Nat}
    (h : clause.direct = some line) : (BitVec.ofNat 64 line).toNat = line := by
  obtain ⟨front, last, hids, -, rfl⟩ := Clause.direct_some h
  have hterm := hacc last (by rw [hids]; exact List.mem_append_right _ List.mem_cons_self)
  exact (BitVec.toNat_ofNat _ _).trans (Nat.mod_eq_of_lt (IdTerm.line_lt hterm))

/-- Behind the bounds that count, a SELECT keeps the last lookup. -/
theorem Clause.kept_lookup {info : TabbleInfo} {clause : Clause info}
    (h : ∃ term ∈ clause.ids, term.oper = .equal) : ∃ term conds, clause.kept = IdTerm.condition term :: conds := by
  obtain ⟨front, last, hlast, hequal⟩ := Clause.settled_lookup h
  have hlogical : ¬ last.condition.isLogical = true := by
    have hkind : last.condition.condType = last.oper.kind := rfl
    unfold Condition.isLogical
    rw [hkind, hequal]
    exact Bool.false_ne_true
  unfold Clause.kept
  rw [hlast, List.map_append, List.reverse_append, List.map_singleton, List.reverse_singleton,
    List.singleton_append, List.cons_append, List.dropWhile_cons_of_neg hlogical]
  exact ⟨last, _, rfl⟩

include hs

theorem upperOf_le (hacc : clause.Accepted) : clause.upperOf t.getMaxActiveLine ≤ 2 ^ 64 := by
  have htop : t.freeId ≤ t.maxLines := hs.sound.freeId_le
  have hmax := hs.sound.toMapped.maxLines_lt
  have hlt : t.getMaxActiveLine < 2 ^ 64 := by
    unfold Tabble.getMaxActiveLine
    omega
  exact (firstBound_lt (fun term hterm => hacc term (Clause.latest_mem hterm)) hlt).le

include hreg

/-- The line is in the file, or its test finds nothing behind the end. -/
def Passable (t : Tabble) (clause : Clause t.info) (i : Nat) : Prop :=
  i < t.maxLines ∨ t.peek (Executor.selects clause.kept t.info.columns i) = .ok false

theorem tested_kept_iff (hbounds : ∀ term ∈ clause.ids, term.oper ≠ .equal) (i : Nat) :
    Tested t clause.kept i ↔ Passable t clause i := by
  unfold Passable
  by_cases hlt : i < t.maxLines
  · have hrow := Clause.rowSelects_kept hreg hbounds i
    have hlegible : Legible t clause.kept i := ⟨hlt, by rw [hrow, Tabble.meets_of_ok hlt hrow]⟩
    exact iff_of_true (hlegible.tested hs.sound.toMapped hreg.filled) (.inl hlt)
  · unfold Tested
    rw [Tabble.meets_past (Nat.le_of_not_lt hlt)]
    simp [hlt]

include hclause

/-- A SELECT with a lookup in its clause. -/
theorem selectsLines_iff (hlookup : ∃ term ∈ clause.ids, term.oper = .equal) {cols : List Text}
    {order : Option (List Text)} (hwords : CppText.words command = selectWords cols name search order)
    (hcols : ∀ c ∈ cols, c ≠ str "FROM") (hc : search.Accepted → ∃ query, compile t.info command = .ok query) :
    SelectsLines os t search command cols order ↔ search.Accepted ∧ SelectHits search clause := by
  have hconds := Search.conditions_some hclause
  have hids : clause.ids ≠ [] := by
    obtain ⟨term, hterm, -⟩ := hlookup
    exact List.ne_nil_of_mem hterm
  unfold SelectHits
  cases hdirect : clause.direct with
  | some line =>
      have hdir : directIndex search.conditions = _ := hconds ▸ Clause.directIndex_some hdirect
      rw [selectsLines_lookup_iff hwords hcols hreg hs hc hdir]
      refine and_congr_right fun hacc => ?_
      rw [Clause.direct_line ((Search.accepted_some hclause).mp hacc) hdirect]
  | none =>
      have hdir : directIndex search.conditions = none := hconds ▸ Clause.directIndex_none hdirect hids
      obtain ⟨term, conds, hkept⟩ := Clause.kept_lookup hlookup
      have hstrip (hacc : search.Accepted) : stripSelect 0 t.getMaxActiveLine search.conditions =
          .ok (clause.lower, clause.upperOf t.getMaxActiveLine, clause.kept) ∧
            clause.upperOf t.getMaxActiveLine ≤ 2 ^ 64 := by
        have hacc' := (Search.accepted_some hclause).mp hacc
        rw [hconds]
        exact ⟨Clause.strip hacc' _, upperOf_le hs hacc'⟩
      rw [selectsLines_scan_iff hwords hcols hreg hs hc hdir hstrip, hkept, swept_index_iff,
        Scan.picked_never (meets_index term conds), and_comm (a := Vacant ..), eq_comm (a := [])]

/-- A DELETE with an id term in its clause. -/
theorem erasesLines_id_iff (hids : clause.ids ≠ []) (hwords : CppText.words command = deleteWords name search) :
    ErasesLines os t search command ↔ search.Accepted ∧ ChangeHits search clause := by
  have hconds := Search.conditions_some hclause
  refine erasesLines_iff hwords fun q hq hlimit hacc => ?_
  have hacc' := (Search.accepted_some hclause).mp hacc
  rw [hconds] at hq
  unfold ChangeHits
  cases hdirect : clause.direct with
  | some line =>
      have hdir := Clause.directIndex_some hdirect
      rw [← hq] at hdir
      rw [Executor.lookup_erases_iff hs.sound hdir fun i hi => Search.lines_active hi,
        Clause.direct_line hacc' hdirect]
  | none =>
      obtain ⟨front, last, hfront, -⟩ := Clause.direct_none hdirect hids
      have hdir := Clause.directIndex_none hdirect hids
      have hmax := Clause.upper hacc' t.getMaxActiveLine
      rw [← hq] at hdir hmax
      rw [Executor.scan_erases_iff hs.sound hreg.filled hdir hmax hs.places_body rfl, hq, hlimit,
        Clause.conditions_cons hfront, swept_change_iff hs.sound.toMapped, Scan.picked_never (meets_index _ _),
        and_comm, eq_comm (a := [])]
      rfl

/-- An UPDATE with an id term in its clause. -/
theorem updatesLines_id_iff (hids : clause.ids ≠ []) {sets : List (Text × Text)}
    (hwords : CppText.words command = updateWords name sets search)
    (hsets : ∀ p ∈ sets, p.1 ≠ str "WHERE" ∧ p.1 ≠ str "LIMIT")
    (hc : search.Accepted → ∃ query, compile t.info command = .ok query) :
    UpdatesLines os t search command ↔
      search.Accepted ∧ ChangeHits search clause ∧ UpdateFits t search command := by
  have hconds := Search.conditions_some hclause
  refine updatesLines_iff hwords hsets hc fun q hq hlimit hacc hcolumns hlen => ?_
  have hacc' := (Search.accepted_some hclause).mp hacc
  have hpick := t.info.pick_subset q.columnsOptimized
  rw [hconds] at hq
  unfold ChangeHits
  cases hdirect : clause.direct with
  | some line =>
      have hdir := Clause.directIndex_some hdirect
      rw [← hq] at hdir
      rw [Executor.lookup_rewrites_iff hs.sound.toMapped hcolumns hpick hlen hdir
        (fun i hi => Search.lines_active hi) rfl, Clause.direct_line hacc' hdirect, and_assoc]
  | none =>
      obtain ⟨front, last, hfront, -⟩ := Clause.direct_none hdirect hids
      have hdir := Clause.directIndex_none hdirect hids
      have hmax := Clause.upper hacc' t.getMaxActiveLine
      rw [← hq] at hdir hmax
      rw [Executor.scan_rewrites_iff hs.sound.toMapped hreg.filled hcolumns hpick hlen hdir hmax hs.places_body rfl,
        hq, hlimit, Clause.conditions_cons hfront, swept_change_iff hs.sound.toMapped,
        Scan.picked_never (meets_index _ _), ← and_assoc, and_comm (a := Vacant ..), eq_comm (a := [])]
      rfl

/-! Clauses whose id terms are bounds. -/

/-- A SELECT with bounds on the id. -/
theorem selectsLines_bounds_iff (hids : clause.ids ≠ []) (hbounds : ∀ term ∈ clause.ids, term.oper ≠ .equal)
    {cols : List Text} {order : Option (List Text)}
    (hwords : CppText.words command = selectWords cols name search order) (hcols : ∀ c ∈ cols, c ≠ str "FROM")
    (hc : search.Accepted → ∃ query, compile t.info command = .ok query) :
    SelectsLines os t search command cols order ↔ search.Accepted ∧
      Scan.Swept (Passable t clause) (fun i => t.active i && clause.columnsHold i (t.cell i))
        (rowBound t search.bound) clause.lower (clause.upperOf t.getMaxActiveLine - clause.lower) ∧
      ∀ i, t.active i = true → search.rank i < search.bound →
        ((clause.lower ≤ i ∧ i < clause.upperOf t.getMaxActiveLine ∧ clause.columnsHold i (t.cell i) = true) ↔
          search.holds t i = true) := by
  have hconds := Search.conditions_some hclause
  have hdirect := Clause.direct_bounds hbounds
  have hdir : directIndex search.conditions = none := hconds ▸ Clause.directIndex_none hdirect hids
  have hstrip (hacc : search.Accepted) : stripSelect 0 t.getMaxActiveLine search.conditions =
      .ok (clause.lower, clause.upperOf t.getMaxActiveLine, clause.kept) ∧
        clause.upperOf t.getMaxActiveLine ≤ 2 ^ 64 := by
    have hacc' := (Search.accepted_some hclause).mp hacc
    rw [hconds]
    exact ⟨Clause.strip hacc' _, upperOf_le hs hacc'⟩
  have hmeets : t.meets clause.kept = fun i => t.active i && clause.columnsHold i (t.cell i) :=
    funext (Clause.meets_kept hreg hbounds)
  have hgood : Tested t clause.kept = Passable t clause :=
    funext fun i => propext (tested_kept_iff hs hreg hbounds i)
  rw [selectsLines_scan_iff hwords hcols hreg hs hc hdir hstrip, hmeets, hgood,
    picked_lines_iff hs fun i hi => (Bool.and_eq_true_iff.mp hi).1]
  refine and_congr_right fun _ => and_congr_right fun _ => forall_congr' fun i => ?_
  refine imp_congr_right fun hi => ?_
  rw [hi, Bool.true_and]

end

/-! Every state of an orderly run. -/

section
variable {os : Os} {schema : TabbleInfo} {t : Tabble} (hreg : schema.Regular) (h : Reach Orderly os schema t)
  (hidle : t.storage.expanding = false) (search : Search t.info) {clause : Clause t.info}
  (hclause : search.clause = some clause) {name command : Text}
include hreg h hidle hclause

end
/-! The table of one number again, with its one row and without. -/

theorem id_isId : Optimizer.isId (str "id") = true := by decide

theorem integerPrefix_zero : CppText.integerPrefix (str "0") = some (false, 0) := by decide

theorem integerPrefix_five : CppText.integerPrefix (str "5") = some (false, 5) := by decide

/-- The term that compares the id with 0. -/
def zeroTerm (oper : IdOper) : IdTerm := ⟨str "id", oper, str "0", false, 0, id_isId, integerPrefix_zero⟩

/-- The term `id == 5`. -/
def fiveTerm : IdTerm := ⟨str "id", .equal, str "5", false, 5, id_isId, integerPrefix_five⟩

/-- The search of one id term. -/
def idSearch (info : TabbleInfo) (term : IdTerm)
    (h : ∀ w ∈ [term.name, term.oper.token, term.literal], w ≠ str "LIMIT" ∧ w ≠ str "ORDER") : Search info where
  clause := some ⟨.id term, []⟩
  limit := none
  unended := by
    intro clause hclause
    cases hclause
    exact h

theorem zeroTerm_unended (oper : IdOper) : ∀ w ∈ [(zeroTerm oper).name, (zeroTerm oper).oper.token,
    (zeroTerm oper).literal], w ≠ str "LIMIT" ∧ w ≠ str "ORDER" := by
  cases oper <;> decide

theorem fiveTerm_unended : ∀ w ∈ [fiveTerm.name, fiveTerm.oper.token, fiveTerm.literal],
    w ≠ str "LIMIT" ∧ w ≠ str "ORDER" := by
  decide

def zeroSearch (info : TabbleInfo) (oper : IdOper) : Search info :=
  idSearch info (zeroTerm oper) (zeroTerm_unended oper)

def fiveSearch (info : TabbleInfo) : Search info := idSearch info fiveTerm fiveTerm_unended

theorem compiles_of_isOk {info : TabbleInfo} {command : Text} (h : (compile info command).isOk = true) :
    ∃ query, compile info command = .ok query := by
  cases hc : compile info command with
  | ok query => exact ⟨query, rfl⟩
  | error e =>
      rw [hc] at h
      cases h

theorem sampleOpened_info : Tabble.sampleOpened.info = Tabble.sampleInfo :=
  ((sampleOpened_reach Orderly).served sampleInfo_regular Tabble.sampleOpened_idle).info

theorem sampleOpened_served : Served Tabble.sampleOpened.info Tabble.sampleOpened := by
  rw [sampleOpened_info]
  exact (sampleOpened_reach Orderly).served sampleInfo_regular Tabble.sampleOpened_idle

theorem sampleOpened_regular : Tabble.sampleOpened.info.Regular := by
  rw [sampleOpened_info]
  exact sampleInfo_regular

theorem sampleFilled_info : sampleFilled.info = Tabble.sampleInfo :=
  (sampleFilled_orderly.served sampleInfo_regular sampleFilled_awake).info

theorem sampleFilled_served : Served sampleFilled.info sampleFilled := by
  rw [sampleFilled_info]
  exact sampleFilled_orderly.served sampleInfo_regular sampleFilled_awake

theorem sampleFilled_regular : sampleFilled.info.Regular := by
  rw [sampleFilled_info]
  exact sampleInfo_regular

/-- The row is in the first line. -/
example : sampleFilled.getMaxActiveLine = 1 := by decide +kernel

theorem star_not_from : ∀ c ∈ [str "*"], c ≠ str "FROM" := by decide

/-- The statements of the samples compile for the table of one number. -/
theorem sample_compiles {t : Tabble} (ht : t.info = Tabble.sampleInfo) {command : Text}
    (h : (compile Tabble.sampleInfo command).isOk = true) : ∃ query, compile t.info command = .ok query := by
  rw [ht]
  exact compiles_of_isOk h

theorem zeroTerm_bounds {info : TabbleInfo} {oper : IdOper} (h : oper ≠ .equal) :
    ∀ term ∈ (⟨.id (zeroTerm oper), []⟩ : Clause info).ids, term.oper ≠ .equal := by
  intro term hterm
  rw [List.mem_singleton.mp hterm]
  exact h

theorem zeroTerm_ids (info : TabbleInfo) (oper : IdOper) :
    (⟨.id (zeroTerm oper), []⟩ : Clause info).ids ≠ [] := List.cons_ne_nil _ _

theorem zeroSearch_accepted (info : TabbleInfo) (oper : IdOper) : (zeroSearch info oper).Accepted := by
  intro clause hclause
  cases hclause
  intro term hterm
  rw [List.mem_singleton.mp hterm]
  change 0 < 2 ^ 64
  decide

section
variable {t : Tabble}

/-- The clause `id >= 0` makes a window of all lines used so far. -/
theorem zero_window {info : TabbleInfo} (top : Nat) :
    firstBound .atLeast (⟨.id (zeroTerm .atLeast), []⟩ : Clause info).ids 0 = 0 ∧
      firstBound .atMost (⟨.id (zeroTerm .atLeast), []⟩ : Clause info).ids top = top := ⟨rfl, rfl⟩

theorem zero_swept (hs : Served t.info t) (p : Nat → Bool) (count : Nat) :
    Scan.Swept (Passable t ⟨.id (zeroTerm .atLeast), []⟩) p count 0 (t.getMaxActiveLine - 0) := by
  have htop : t.freeId ≤ t.maxLines := hs.sound.freeId_le
  refine ⟨_, le_rfl, .inl rfl, fun i _ hlt => .inl ?_⟩
  change i < 0 + (t.freeId - 0) at hlt
  omega

theorem zero_holds (t : Tabble) (i : Nat) : (zeroSearch t.info .atLeast).holds t i = true := by
  change decide ((0 : Int) ≤ i) = true
  simp

theorem zero_columnsHold (t : Tabble) (i : Nat) :
    (⟨.id (zeroTerm .atLeast), []⟩ : Clause t.info).columnsHold i (t.cell i) = true := rfl

end

example : (zeroSearch sampleFilled.info .atLeast).lines sampleFilled = [0] := by decide +kernel

/-- The term `n == 9`, which the row does not meet. -/
def nineTerm : ColumnTerm sampleFilled.info :=
  { sampleTerm with
    oper := .equal
    literal := str "9"
    desired := .int32 9
    parses := by decide +kernel }

/-- `id <= 0 AND n == 9`. -/
def nineClause : Clause sampleFilled.info := ⟨.id (zeroTerm .atMost), [(.and, .column nineTerm)]⟩

def nineSearch : Search sampleFilled.info := ⟨some nineClause, none, by decide +kernel⟩

theorem nineSearch_accepted : nineSearch.Accepted := by
  intro clause hclause
  cases hclause
  intro term hterm
  rw [List.mem_singleton.mp hterm]
  exact Nat.two_pow_pos 64

end SQLid
