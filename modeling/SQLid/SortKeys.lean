import SQLid.OptimizerLaws
import SQLid.Rows

/-!
# Sort keys

The optimizer expands the column list of a SELECT and looks for the columns of its ORDER
BY in the list as it was written. When do the places it finds lead to the cells of these
columns in the rows that are read?
-/
namespace SQLid
open Bytes (Text)
open CppText (str)

/-- The row of a line: its id, and a cell for each column number. -/
def recordOf (line : VariantTypes) (cell : Nat → VariantTypes) (ids : List Nat) : List VariantTypes :=
  line :: ids.map cell

/-- In every row with these columns the place holds the value of the named column, or
the id. -/
def KeyRight (info : TabbleInfo) (ids : List Nat) (rawColumn : Text) (place : Nat) : Prop :=
  ∀ (line : VariantTypes) (cell : Nat → VariantTypes),
    if Optimizer.isId rawColumn then (recordOf line cell ids)[place]? = some line
    else ∃ id, info.columnsMap.lookup rawColumn = some id ∧
      (recordOf line cell ids)[place]? = some (cell id)

/-- Every order clause keeps its direction and gets a right place. -/
def KeysRight (info : TabbleInfo) (ids : List Nat) : List OderTypeRaw → List OderTypeOpt → Prop :=
  List.Forall₂ fun clause key =>
    key.isGreaterSort = clause.isGreaterSort ∧ KeyRight info ids clause.rawColumn key.rawId

/-- The column names in front of the first `*`. -/
def namedBefore (columnsRaw : List Text) : List Text := columnsRaw.takeWhile (· ≠ str "*")

/-- Columns the optimizer finds where the executor puts them. -/
def Reached (columnsRaw : List Text) (rawColumn : Text) : Prop :=
  Optimizer.isId rawColumn = true ∨ rawColumn ∈ namedBefore columnsRaw ∨
    columnsRaw.head? = some (str "*")

instance (columnsRaw : List Text) : DecidablePred (Reached columnsRaw) := fun _ =>
  inferInstanceAs (Decidable (_ ∨ _ ∨ _))

/-- The cell of a column number on a line. -/
def Tabble.cellAt (t : Tabble) (i id : Nat) : VariantTypes :=
  (t.info.columns[id]?.map (t.cell i)).getD (.bool false)

/-- The reader of the executor builds such a row from every line of every table. -/
def RowsBuilt (info : TabbleInfo) (ids : List Nat) : Prop :=
  ∀ t : Tabble, t.Mapped → t.info = info → (∀ c ∈ info.columns, 0 < c.size) → ∀ i < t.maxLines,
    t.peek (Executor.readRecord i ids info.columns) =
      .ok (recordOf (Executor.idCell i) (t.cellAt i) ids)

theorem Tabble.Mapped.readRecord_recordOf {t : Tabble} {i : Nat} (h : t.Mapped) (hi : i < t.maxLines)
    (hfill : ∀ c ∈ t.info.columns, 0 < c.size) {ids : List Nat}
    (hids : ∀ id ∈ ids, id < t.info.columns.length) :
    t.peek (Executor.readRecord i ids t.info.columns) =
      .ok (recordOf (Executor.idCell i) (t.cellAt i) ids) := by
  have hcells : (t.info.pick ids).map (t.cell i) = ids.map (t.cellAt i) := by
    clear h hi hfill
    unfold Tabble.cellAt
    induction ids with
    | nil => rfl
    | cons id ids ih =>
        have hget := List.getElem?_eq_getElem (hids id List.mem_cons_self)
        rw [TabbleInfo.pick_cons hget, List.map_cons, List.map_cons,
          ih fun id' hid' => hids id' (List.mem_cons_of_mem id hid'), hget]
        rfl
  rw [h.peek_readRecord hi hfill hids]
  unfold Tabble.selectedRow recordOf
  rw [hcells]

namespace Optimizer
variable {info : TabbleInfo}

theorem optimizeColumns_ok {cols : List Text} {ids : List Nat} (h : optimizeColumns info cols = .ok ids) :
    ∃ front, List.Forall₂ (fun col id => info.columnsMap.lookup col = some id) (namedBefore cols) front ∧
      ids = front ++ if str "*" ∈ cols then List.range info.columns.length else [] := by
  induction cols generalizing ids with
  | nil =>
      cases h
      exact ⟨[], .nil, rfl⟩
  | cons col cols ih =>
      unfold optimizeColumns at h
      unfold namedBefore
      by_cases hstar : col = str "*"
      · rw [if_pos hstar] at h
        cases h
        exact ⟨[], by simp [hstar], by simp [hstar]⟩
      · rw [if_neg hstar] at h
        cases hlookup : info.columnsMap.lookup col with
        | none =>
            rw [hlookup] at h
            cases h
        | some id =>
            rw [hlookup] at h
            obtain ⟨rest, hrest, h⟩ := Except_bind_ok h
            cases h
            obtain ⟨front, hfront, rfl⟩ := ih hrest
            refine ⟨id :: front, ?_, ?_⟩
            · rw [List.takeWhile_cons_of_pos (by simpa using hstar)]
              exact .cons hlookup hfront
            · have hother : str "*" ∈ col :: cols ↔ str "*" ∈ cols := by
                rw [List.mem_cons, or_iff_right fun heq => hstar heq.symm]
              simp only [hother, List.cons_append]

theorem orderPlace_ok {rawColumn : Text} {i place : Nat} {cols : List Text}
    (h : orderPlace info rawColumn i cols = .ok place) :
    (rawColumn ∈ namedBefore cols ∧ place = i + (namedBefore cols).idxOf rawColumn + 1) ∨
      (rawColumn ∉ namedBefore cols ∧ str "*" ∈ cols ∧
        ∃ id, info.columnsMap.lookup rawColumn = some id ∧ place = id + 1) := by
  induction cols generalizing i with
  | nil => cases h
  | cons col cols ih =>
      unfold orderPlace at h
      unfold namedBefore
      by_cases hstar : col = str "*"
      · rw [if_pos hstar] at h
        cases hlookup : info.columnsMap.lookup rawColumn with
        | none =>
            rw [hlookup] at h
            cases h
        | some id =>
            rw [hlookup] at h
            cases h
            exact .inr ⟨by simp [hstar], by simp [hstar], id, rfl, rfl⟩
      · rw [if_neg hstar] at h
        rw [List.takeWhile_cons_of_pos (by simpa using hstar)]
        by_cases hname : col = rawColumn
        · rw [if_pos hname] at h
          cases h
          refine .inl ⟨by simp [hname], ?_⟩
          rw [hname, List.idxOf_cons_self]
        · rw [if_neg hname] at h
          rcases ih h with ⟨hmem, rfl⟩ | ⟨hnot, hmem, id, hid, rfl⟩
          · refine .inl ⟨List.mem_cons_of_mem col hmem, ?_⟩
            rw [List.idxOf_cons_ne _ hname]
            change _ = i + ((namedBefore cols).idxOf rawColumn + 1) + 1
            omega
          · refine .inr ⟨?_, List.mem_cons_of_mem col hmem, id, hid, rfl⟩
            rw [List.mem_cons, not_or]
            exact ⟨fun heq => hname heq.symm, hnot⟩

theorem optimizeOrdering_ok {columnsRaw : List Text} {clauses : List OderTypeRaw}
    {keys : List OderTypeOpt} (h : optimizeOrdering info columnsRaw clauses = .ok keys) :
    List.Forall₂ (fun clause key => key.isGreaterSort = clause.isGreaterSort ∧
      if isId clause.rawColumn then key.rawId = 0
      else orderPlace info clause.rawColumn 0 columnsRaw = .ok key.rawId) clauses keys := by
  induction clauses generalizing keys with
  | nil =>
      cases h
      exact .nil
  | cons clause clauses ih =>
      unfold optimizeOrdering at h
      dsimp only at h
      by_cases hid : isId clause.rawColumn = true
      · rw [if_pos hid] at h
        obtain ⟨place, hplace, h⟩ := Except_bind_ok h
        obtain ⟨rest, hrest, h⟩ := Except_bind_ok h
        cases hplace
        cases h
        exact .cons ⟨rfl, by rw [if_pos hid]⟩ (ih hrest)
      · rw [if_neg hid] at h
        obtain ⟨place, hplace, h⟩ := Except_bind_ok h
        obtain ⟨rest, hrest, h⟩ := Except_bind_ok h
        cases h
        exact .cons ⟨rfl, by rw [if_neg hid]; exact hplace⟩ (ih hrest)

end Optimizer

section
variable {info : TabbleInfo} {columnsRaw : List Text} {ids : List Nat}

/-- A place past the id is right when the column number stands there. -/
theorem keyRight_succ {rawColumn : Text} (hid : Optimizer.isId rawColumn = false) (k : Nat) :
    KeyRight info ids rawColumn (k + 1) ↔
      ∃ id, info.columnsMap.lookup rawColumn = some id ∧ ids[k]? = some id := by
  unfold KeyRight recordOf
  simp only [hid, Bool.false_eq_true, if_false, List.getElem?_cons_succ, List.getElem?_map]
  constructor
  · intro h
    obtain ⟨id, hlookup, -⟩ := h (.bool false) fun _ => .bool false
    obtain ⟨id', hlookup', hcell⟩ := h (.bool false) fun n => .bool (n = id)
    rw [hlookup] at hlookup'
    cases hlookup'
    refine ⟨id, hlookup, ?_⟩
    cases hget : ids[k]? with
    | none =>
        rw [hget] at hcell
        cases hcell
    | some n =>
        rw [hget] at hcell
        simpa using hcell
  · rintro ⟨id, hlookup, hget⟩ line cell
    exact ⟨id, hlookup, by rw [hget, Option.map_some]⟩

theorem lookup_name (hmap : info.columnsMap = columnsMapFrom 0 info.columns []) {name : Text} {id : Nat}
    (h : info.columnsMap.lookup name = some id) :
    ∃ column, info.columns[id]? = some column ∧ column.name = name := by
  rw [hmap, lookup_columnsMapFrom] at h
  simp only [List.lookup_nil, Option.none_or, add_zero, Option.map_id'] at h
  obtain ⟨hlt, hname, -⟩ := List.findIdx?_eq_some_iff_getElem.mp h
  exact ⟨_, List.getElem?_eq_getElem hlt, of_decide_eq_true hname⟩

theorem head_of_namedBefore (h : namedBefore columnsRaw = []) (hstar : str "*" ∈ columnsRaw) :
    columnsRaw.head? = some (str "*") := by
  cases columnsRaw with
  | nil => cases hstar
  | cons col cols =>
      by_cases hcol : col = str "*"
      · rw [hcol, List.head?_cons]
      · unfold namedBefore at h
        rw [List.takeWhile_cons_of_pos (by simpa using hcol)] at h
        cases h

/-- A place that was found is right if the column stands before every `*`, or `*` stands
first. -/
theorem keyRight_iff (hmap : info.columnsMap = columnsMapFrom 0 info.columns [])
    (hids : Optimizer.optimizeColumns info columnsRaw = .ok ids) {rawColumn : Text}
    (hid : Optimizer.isId rawColumn = false) {place : Nat}
    (hplace : Optimizer.orderPlace info rawColumn 0 columnsRaw = .ok place) :
    KeyRight info ids rawColumn place ↔ Reached columnsRaw rawColumn := by
  obtain ⟨front, hfront, rfl⟩ := Optimizer.optimizeColumns_ok hids
  have hlen := hfront.length_eq
  unfold Reached
  simp only [hid, Bool.false_eq_true, false_or]
  rcases Optimizer.orderPlace_ok hplace with ⟨hmem, rfl⟩ | ⟨hnot, hstar, id, hlookup, rfl⟩
  · have hlt := List.idxOf_lt_length_of_mem hmem
    have hplaced := hfront.get hlt (by omega)
    rw [List.get_eq_getElem, List.getElem_idxOf] at hplaced
    refine iff_of_true ?_ (.inl hmem)
    rw [Nat.zero_add, keyRight_succ hid]
    refine ⟨_, hplaced, ?_⟩
    rw [List.getElem?_append_left (by omega)]
    exact List.getElem?_eq_getElem _
  · rw [keyRight_succ hid, or_iff_right hnot, if_pos hstar]
    obtain ⟨column, hcolumn, hname⟩ := lookup_name hmap hlookup
    have hlt := (List.getElem?_eq_some_iff.mp hcolumn).1
    constructor
    · rintro ⟨id', hlookup', hget⟩
      obtain rfl : id = id' := Option.some.inj (hlookup.symm.trans hlookup')
      rcases Nat.lt_or_ge id front.length with hbefore | hbehind
      · -- the place is taken by a column of its own name
        rw [List.getElem?_append_left hbefore] at hget
        have hthere := hfront.get (by omega) hbefore
        rw [List.getElem?_eq_getElem hbefore] at hget
        obtain ⟨column', hcolumn', hname'⟩ := lookup_name hmap hthere
        rw [List.get_eq_getElem, Option.some.inj hget, hcolumn] at hcolumn'
        cases hcolumn'
        refine absurd ?_ hnot
        rw [← hname, hname']
        exact List.getElem_mem _
      · rw [List.getElem?_append_right hbehind] at hget
        have hsame : id - front.length = id := by
          simpa using (List.getElem?_eq_some_iff.mp hget).2
        -- the list is shifted by what stands in front of it, so nothing does
        have hnone : namedBefore columnsRaw = [] := List.length_eq_zero_iff.mp (by omega)
        exact head_of_namedBefore hnone hstar
    · intro hhead
      have hnone : namedBefore columnsRaw = [] := by
        cases columnsRaw with
        | nil => rfl
        | cons col cols =>
            obtain rfl : col = str "*" := Option.some.inj hhead
            exact List.takeWhile_cons_of_neg (by simp)
      rw [hnone] at hlen
      refine ⟨id, hlookup, ?_⟩
      rw [List.getElem?_append_right (by rw [← hlen]; exact Nat.zero_le id), ← hlen]
      exact List.getElem?_range hlt

theorem keysRight_iff (hmap : info.columnsMap = columnsMapFrom 0 info.columns [])
    (hids : Optimizer.optimizeColumns info columnsRaw = .ok ids) {clauses : List OderTypeRaw}
    {keys : List OderTypeOpt} (hkeys : Optimizer.optimizeOrdering info columnsRaw clauses = .ok keys) :
    KeysRight info ids clauses keys ↔ ∀ clause ∈ clauses, Reached columnsRaw clause.rawColumn := by
  have hboth := Optimizer.optimizeOrdering_ok hkeys
  clear hkeys
  unfold KeysRight
  induction hboth with
  | nil => simp
  | @cons clause key clauses keys hkey hrest ih =>
      obtain ⟨hflag, hplace⟩ := hkey
      rw [List.forall₂_cons, List.forall_mem_cons]
      apply and_congr _ ih
      rw [and_iff_right hflag]
      by_cases hid : Optimizer.isId clause.rawColumn = true
      · rw [if_pos hid] at hplace
        refine iff_of_true (fun line cell => ?_) (.inl hid)
        rw [if_pos hid, hplace]
        rfl
      · rw [if_neg hid] at hplace
        exact keyRight_iff hmap hids (Bool.eq_false_iff.mpr hid) hplace

end

/-- The optimizer finds the right places exactly when every ORDER BY name is the id, stands
in the list before the first `*`, or `*` itself stands first: otherwise the columns of `*`
are moved by the names in front of it and the place is not. -/
theorem keys_right_iff {info : TabbleInfo} (hmap : info.columnsMap = columnsMapFrom 0 info.columns [])
    {columnsRaw : List Text} {ids : List Nat} (hids : Optimizer.optimizeColumns info columnsRaw = .ok ids)
    {clauses : List OderTypeRaw} {keys : List OderTypeOpt}
    (hkeys : Optimizer.optimizeOrdering info columnsRaw clauses = .ok keys) :
    RowsBuilt info ids ∧
      (KeysRight info ids clauses keys ↔ ∀ clause ∈ clauses, Reached columnsRaw clause.rawColumn) := by
  refine ⟨?_, keysRight_iff hmap hids hkeys⟩
  rintro t ht rfl hfill i hi
  exact ht.readRecord_recordOf hi hfill (Optimizer.optimizeColumns_lt ht.layout hids)

/-- Two columns: a number `n` and a flag `m`. -/
def numberedFlags : TabbleInfo where
  lineLength := 6
  columnsNumber := 2
  columns := [⟨str "n", 1, .int32, 4⟩, ⟨str "m", 5, .bool, 1⟩]
  columnsMap := [(str "n", 0), (str "m", 1)]

theorem keys_right_iff_sample : KeysRight numberedFlags [0, 1] [⟨str "m", true⟩, ⟨str "id", false⟩]
    [⟨2, true⟩, ⟨0, false⟩] := by
  have hids : Optimizer.optimizeColumns numberedFlags [str "*"] = .ok [0, 1] := by decide
  exact (keys_right_iff (by decide) hids (by decide +kernel)).2.mpr (by decide +kernel)

/-- `SELECT n * FROM t ORDER BY m ASC`: the row is `id n n m` and the place of `m` is 2,
that of the second `n`. -/
theorem keys_behind_star_wrong : ¬∀ (info : TabbleInfo) (columnsRaw : List Text) (ids : List Nat)
    (clauses : List OderTypeRaw) (keys : List OderTypeOpt),
    info.columnsMap = columnsMapFrom 0 info.columns [] →
    Optimizer.optimizeColumns info columnsRaw = .ok ids →
    Optimizer.optimizeOrdering info columnsRaw clauses = .ok keys → KeysRight info ids clauses keys := by
  intro h
  have hright := h numberedFlags [str "n", str "*"] [0, 0, 1] [⟨str "m", true⟩] [⟨2, true⟩]
    (by decide) (by decide) (by decide +kernel)
  have hkey := (List.forall₂_cons.mp hright).1.2
  rw [keyRight_succ (by decide +kernel)] at hkey
  obtain ⟨id, hlookup, hplaced⟩ := hkey
  have hsecond : numberedFlags.columnsMap.lookup (str "m") = some 1 := by decide
  rw [hsecond] at hlookup
  cases hlookup
  cases hplaced

end SQLid
