import SQLid.Deletes
import SQLid.InsertedRows

/-!
# The ids a statement reports

The answer to an INSERT, DELETE or UPDATE is compared with the lines it has changed.
-/
namespace SQLid
open Bytes (Text)
open Programs
open Executor (idRow targetLines shownLines)

namespace QueryVariant

/-- Line `i` went from inactive to active, from active to inactive, or was updated while active. -/
def Affects : QueryVariant → Tabble → Tabble → List RowOp → Nat → Prop
  | .insert _, t, t', _, i => t.active i = false ∧ t'.active i = true
  | .erase _, t, t', _, i => t.active i = true ∧ t'.active i = false
  | .update _, t, _, ops, i => t.active i = true ∧ .update i ∈ ops
  | .select _, _, _, _, _ => False

/-- The line of a row operation of the kind a statement is made of. -/
def lineOf : QueryVariant → RowOp → Option Nat
  | .insert _, .insert i => some i
  | .erase _, .erase i => some i
  | .update _, .update i => some i
  | _, _ => none

end QueryVariant

/-- The answer holds the lines the statement affected, each once, in the order of the row
operations. -/
def ReportsExactly (query : QueryVariant) (t : Tabble) (s : Execution) : Prop :=
  ∃ lines ops, s.result.body = lines.map idRow ∧ s.table.history = t.history ++ ops ∧
    lines.Nodup ∧ lines = ops.filterMap query.lineOf ∧ ∀ i, i ∈ lines ↔ query.Affects t s.table ops i

/-- A DELETE that goes to one line directly, and the line is not active. -/
def MissesLine (t : Tabble) (query : QueryVariant) : Prop :=
  ∃ q line, query = .erase q ∧ Executor.directIndex q.conditions = some (.int64 line) ∧
    t.active line.toNat = false

section
variable {t t' : Tabble} {s : Execution}

theorem Tabble.LogOnly.active (h : Tabble.LogOnly t t') : t'.active = t.active := by
  obtain ⟨l, rfl⟩ := h
  rfl

theorem Tabble.LogOnly.history (h : Tabble.LogOnly t t') : t'.history = t.history := by
  obtain ⟨l, rfl⟩ := h
  rfl

theorem Tabble.Inserting.reported {values : List VariantTypes} {done : List Nat} {query : InsertQuery}
    (h : Tabble.Inserting values t done t') (hactive : s.table.active = t'.active)
    (hhistory : s.table.history = t'.history) (hbody : s.result.body = done.map idRow) :
    ReportsExactly (.insert query) t s := by
  refine ⟨done, _, hbody, hhistory.trans h.history, h.nodup, ?_, fun i => ?_⟩
  · rw [List.filterMap_flatMap]
    exact (List.flatMap_pure_eq_map _ _).symm ▸ (List.map_id _).symm
  · change i ∈ done ↔ t.active i = false ∧ s.table.active i = true
    rw [hactive, h.active]
    constructor
    · intro hi
      have hfree : t.active i = false := by
        rw [← Tabble.rowMap_isSome, h.free i hi]
        rfl
      exact ⟨hfree, by simp [hi]⟩
    · rintro ⟨hfree, hnow⟩
      simpa [hfree] using hnow

theorem Executor.Deleted.reported {lines : List Nat} {query : DeleteQuery}
    (h : Executor.Deleted t lines lines s) (hnodup : lines.Nodup)
    (hactive : ∀ i ∈ lines, t.active i = true) : ReportsExactly (.erase query) t s := by
  obtain ⟨⟨t', herasing, hlog⟩, hbody⟩ := h
  refine ⟨lines, _, hbody, hlog.history.trans herasing.history, hnodup, ?_, fun i => ?_⟩
  · rw [List.filterMap_map]
    exact (List.filterMap_some).symm
  · change i ∈ lines ↔ t.active i = true ∧ s.table.active i = false
    rw [hlog.active, herasing.active]
    constructor
    · intro hi
      exact ⟨hactive i hi, by simp [hi]⟩
    · rintro ⟨hwas, hnow⟩
      simpa [hwas] using hnow

/-- A DELETE that has erased nothing must not answer with a line. -/
theorem Executor.Deleted.misreported {k : Nat} {query : DeleteQuery}
    (h : Executor.Deleted t [] [k] s) : ¬ ReportsExactly (.erase query) t s := by
  obtain ⟨⟨t', herasing, hlog⟩, hbody⟩ := h
  rintro ⟨lines, ops, hlines, -, -, -, haffects⟩
  rw [hbody] at hlines
  cases lines with
  | nil => cases hlines
  | cons i lines =>
      obtain ⟨hwas, hnow⟩ := (haffects i).mp List.mem_cons_self
      rw [hlog.active, herasing.active, hwas] at hnow
      simp at hnow

theorem Executor.Updated.reported {values : List VariantTypes} {picked : List Column}
    {lines : List Nat} {query : UpdateQuery} (h : Executor.Updated values picked t lines s)
    (hnodup : lines.Nodup) (hactive : ∀ i ∈ lines, t.active i = true) :
    ReportsExactly (.update query) t s := by
  obtain ⟨⟨t', hadvanced, hlog⟩, hbody⟩ := h
  refine ⟨lines, _, hbody, hlog.history.trans hadvanced.rewritten.history, hnodup, ?_, fun i => ?_⟩
  · rw [List.filterMap_map]
    exact (List.filterMap_some).symm
  · change i ∈ lines ↔ t.active i = true ∧ RowOp.update i ∈ lines.map RowOp.update
    rw [List.mem_map_of_injective fun _ _ heq => RowOp.update.inj heq]
    exact ⟨fun hi => ⟨hactive i hi, hi⟩, fun hi => hi.2⟩

theorem compile_erase {info : TabbleInfo} {command : Text} {query : DeleteQuery}
    (h : compile info command = .ok (.erase query)) : ∀ c ∈ query.conditions, c.Made info.columns := by
  obtain ⟨raw, -, h⟩ := Except_bind_ok h
  rcases Optimizer.optimize_cases h with ⟨r, q, -, heq, -⟩ | ⟨r, q, -, heq, -⟩ | ⟨r, q, -, heq, hq⟩ |
    ⟨r, q, -, heq, -⟩ <;> cases heq
  exact Optimizer.optimizeDelete_made hq

theorem Executor.shownLines_of_active {conds : List Condition} {limit : Nat}
    (h : ∀ line, Executor.directIndex conds = some (.int64 line) → t.active line.toNat = true) :
    shownLines t conds limit = targetLines t conds limit := by
  unfold shownLines targetLines
  cases hdir : Executor.directIndex conds with
  | none => rfl
  | some desired =>
      cases desired with
      | int64 line =>
          change [line.toNat] = if t.active line.toNat then [line.toNat] else []
          rw [if_pos (h line hdir)]
      | int32 | double | float | bool | string => rfl

theorem run_execute (os : Os) (t : Tabble) (query : QueryVariant) :
    (Executor.execute os query).run ⟨t, {}⟩ = (match query with
      | .select q => Executor.executeSelect q
      | .insert q => Executor.executeInsert os q
      | .erase q => Executor.executeDelete q
      | .update q => Executor.executeUpdate os q).run ⟨t, { isSucces := true }⟩ := by
  cases query <;> rfl

/-- On every state an orderly run reaches, an orderly INSERT, DELETE or UPDATE that completes
reports exactly the lines it has affected, unless it is a DELETE that misses its line. -/
theorem reported_ids_exact {os : Os} {schema : TabbleInfo} (hreg : schema.Regular)
    (h : Reach Orderly os schema t) {command : Text} (ho : Orderly t command) {query : QueryVariant}
    (hc : compile t.info command = .ok query) (hselect : ∀ q, query ≠ .select q)
    (hrun : request os command t = .ok () s) : ReportsExactly query t s ↔ ¬ MissesLine t query := by
  have hs := h.served hreg ho.idle
  have hfill : ∀ c ∈ t.info.columns, 0 < c.size := by
    rw [hs.info]
    exact hreg.filled
  have hexec : (Executor.execute os query).run ⟨t, {}⟩ = .ok () s := by
    unfold request at hrun
    rwa [run_answer hc] at hrun
  rw [run_execute] at hexec
  cases query with
  | select q => exact absurd rfl (hselect q)
  | insert q =>
      have hnot : ¬ MissesLine t (.insert q) := by
        rintro ⟨_, _, heq, -⟩
        cases heq
      refine iff_of_true ?_ hnot
      obtain ⟨raws, hraws⟩ := compile_insert hc
      obtain ⟨hcols, hvalues⟩ := Optimizer.optimizeInsertValues_ok hraws
      have hpost := Executor.executeInsert_outcome hs.sound os hcols
        (Optimizer.insertRows_fullRows hvalues) { isSucces := true } rfl
      rw [hexec] at hpost
      cases hpost with
      | ok hdone =>
          rcases hdone with ⟨done, -, hins, hbody⟩ | ⟨done, t', hins, hbroken, hhistory, hbody⟩
          · exact hins.reported rfl rfl hbody
          · exact hins.reported hbroken.active hhistory hbody
  | erase q =>
      have hpost := Executor.executeDelete_outcome hs.sound hfill (compile_erase hc)
        (ho.aimed _ _ hc rfl) { isSucces := true } rfl
      rw [hexec] at hpost
      cases hpost with
      | ok hdone =>
          by_cases hmiss : MissesLine t (.erase q)
          · refine iff_of_false ?_ (not_not.mpr hmiss)
            obtain ⟨_, line, heq, hdir, hactive⟩ := hmiss
            cases heq
            have hlines : targetLines t q.conditions q.limit = [] := by
              unfold targetLines
              rw [hdir]
              change (if t.active line.toNat then [line.toNat] else []) = []
              rw [hactive, if_neg Bool.false_ne_true]
            have hshown : shownLines t q.conditions q.limit = [line.toNat] := by
              unfold shownLines
              rw [hdir]
            rw [hlines, hshown] at hdone
            exact hdone.misreported
          · refine iff_of_true ?_ hmiss
            have hshown : shownLines t q.conditions q.limit = targetLines t q.conditions q.limit := by
              apply Executor.shownLines_of_active
              intro line hdir
              by_contra hactive
              exact hmiss ⟨q, line, rfl, hdir, by simpa using hactive⟩
            rw [hshown] at hdone
            exact hdone.reported (Executor.targetLines_nodup ..) fun i hi => Executor.targetLines_active hi
  | update q =>
      have hnot : ¬ MissesLine t (.update q) := by
        rintro ⟨_, _, heq, -⟩
        cases heq
      refine iff_of_true ?_ hnot
      obtain ⟨raw, hprepared⟩ := compile_update hc
      have hpost := Executor.executeUpdate_outcome hs.sound.toMapped hfill os hprepared
        (ho.aimed _ _ hc rfl) { isSucces := true } rfl
      rw [hexec] at hpost
      cases hpost with
      | ok hdone =>
          exact hdone.reported (Executor.targetLines_nodup ..) fun i hi => Executor.targetLines_active hi

end

/-! The table of two texts again. -/

/-- What a command becomes for it. -/
def textsQuery (command : String) : Option QueryVariant :=
  (compile Tabble.textsInfo (CppText.str command)).toOption

theorem textsQuery_compile {t : Tabble} (hinfo : t.info = Tabble.textsInfo) {command : String}
    {query : QueryVariant} (h : textsQuery command = some query) :
    compile t.info (CppText.str command) = .ok query := by
  rw [hinfo]
  unfold textsQuery at h
  cases hc : compile Tabble.textsInfo (CppText.str command) with
  | ok q =>
      rw [hc] at h
      cases h
      rfl
  | error e =>
      rw [hc] at h
      cases h

/-- Its row is deleted by what it holds, and reported. -/
theorem reported_ids_exact_sample : ∃ query, textsQuery "DELETE FROM t WHERE a == abc" = some query ∧
    ReportsExactly query textsFilled
      (finalState (request .reliable (CppText.str "DELETE FROM t WHERE a == abc") textsFilled)) := by
  obtain ⟨query, hquery⟩ := Option.isSome_iff_exists.mp
    (by decide +kernel : (textsQuery "DELETE FROM t WHERE a == abc").isSome = true)
  have hfacts : ∀ q ∈ textsQuery "DELETE FROM t WHERE a == abc",
      ∀ conds ∈ q.changes, Executor.directIndex conds = none := by decide +kernel
  have horderly : Orderly textsFilled (CppText.str "DELETE FROM t WHERE a == abc") :=
    orderly_of_undirected (by decide +kernel) (by decide +kernel)
  have hselect : ∀ q, query ≠ .select q := by
    rintro q rfl
    have hnone : ∀ q ∈ textsQuery "DELETE FROM t WHERE a == abc", q.changes.isSome = true := by
      decide +kernel
    exact absurd (hnone _ hquery) Bool.false_ne_true
  refine ⟨query, hquery, (reported_ids_exact textsInfo_regular textsFilled_orderly horderly
    (textsQuery_compile textsFilled_info hquery) hselect (eq_ok_of_isOk (by decide +kernel))).mpr ?_⟩
  rintro ⟨q, line, rfl, hdir, -⟩
  rw [hfacts _ hquery q.conditions rfl] at hdir
  cases hdir

/-- A DELETE on the table without rows reports a row it has not deleted. -/
theorem missing_line_reported : ¬ ∀ (os : Os) (schema : TabbleInfo) (t : Tabble) (command : Text)
    (query : QueryVariant) (s : Execution), schema.Regular → Reach (fun _ _ => True) os schema t →
    compile t.info command = .ok query → (∀ q, query ≠ .select q) →
    request os command t = .ok () s → ReportsExactly query t s := by
  intro h
  obtain ⟨query, hquery⟩ := Option.isSome_iff_exists.mp
    (by decide +kernel : (textsQuery "DELETE FROM t WHERE id == 0").isSome = true)
  obtain ⟨q, rfl⟩ : ∃ q, query = .erase q := by
    have herase : ∀ q ∈ textsQuery "DELETE FROM t WHERE id == 0", q = .erase ⟨q.base⟩ := by
      decide +kernel
    exact ⟨_, herase query hquery⟩
  have hempty : Tabble.openFile .reliable Tabble.textsInfo .empty 0 = .ok () textsOpened :=
    eq_ok_of_isOk (by decide +kernel)
  have hinfo : textsOpened.info = Tabble.textsInfo := by decide +kernel
  have hrun : isOk (request .reliable (CppText.str "DELETE FROM t WHERE id == 0") textsOpened) = true := by
    decide +kernel
  have hone : (finalState (request .reliable (CppText.str "DELETE FROM t WHERE id == 0")
    textsOpened)).result.body.length = 1 := by decide +kernel
  have hexact := h .reliable Tabble.textsInfo textsOpened (CppText.str "DELETE FROM t WHERE id == 0")
    (.erase q) _ textsInfo_regular (.start hempty) (textsQuery_compile hinfo hquery)
    (fun _ heq => by cases heq) (eq_ok_of_isOk hrun)
  generalize finalState (request .reliable (CppText.str "DELETE FROM t WHERE id == 0")
    textsOpened) = s at hone hexact
  obtain ⟨lines, ops, hlines, -, -, -, haffects⟩ := hexact
  rw [hlines, List.length_map] at hone
  obtain ⟨i, rfl⟩ := List.length_eq_one_iff.mp hone
  have hactive := ((haffects i).mp (List.mem_singleton_self i)).1
  have hnone : textsOpened.active i = false := by
    have hsim := Tabble.Run.sim textsInfo_regular.toLayout textsInfo_regular.fits (.start hempty)
    rw [← Tabble.rowMap_isSome, ← hsim.rows]
    rfl
  rw [hnone] at hactive
  exact absurd hactive Bool.false_ne_true

end SQLid
