import SQLid.FreeList

/-!
# The table as a map from ids to rows

The abstract table is a partial function from ids to rows. `Run` drives it and
the code side by side; the simulation relates the rows of the map to the bytes
of the active lines, read back column by column.
-/
namespace SQLid
open Bytes (Text blit slice)
open Tabble (cellOfBytes storeValues)

abbrev Row := List VariantTypes
abbrev RowMap := Nat → Option Row

/-- What a reader gets back of a stored value: text ends at its first NUL. -/
def VariantTypes.stored : VariantTypes → VariantTypes
  | .string s => .string (Bytes.cutNul s)
  | v => v

theorem cellOfBytes_bytes {v : VariantTypes} {type : ColumnType} (h : v.hasType type = true) :
    cellOfBytes v.bytes type = v.stored := by
  cases ht : type.isText with
  | true =>
      rw [Tabble.cellOfBytes_text ht]
      cases v <;> cases type <;> first | rfl | simp_all [VariantTypes.hasType, ColumnType.isText]
  | false =>
      unfold cellOfBytes
      rw [numberOfBytes_bytes h ht]
      cases v <;> cases type <;> first | rfl | simp_all [VariantTypes.hasType, ColumnType.isText]

/-- A value for a column: of its type, and as text already of its size. -/
def VariantTypes.Fits (v : VariantTypes) (c : Column) : Prop :=
  v.hasType c.type = true ∧ (c.type.isText = true → v.bytes.length = c.size)

instance (v : VariantTypes) (c : Column) : Decidable (v.Fits c) :=
  inferInstanceAs (Decidable (_ ∧ _))

namespace TabbleInfo

theorem Layout.fits_length {info : TabbleInfo} (h : info.Layout) {c : Column}
    (hc : c ∈ info.columns) {v : VariantTypes} (hv : v.Fits c) : v.bytes.length = c.size := by
  cases ht : c.type.isText with
  | true => exact hv.2 ht
  | false =>
      rw [VariantTypes.length_bytes hv.1 ht]
      refine (h.sizes c hc fun hs => ?_).symm
      rw [hs] at ht
      cases ht

/-- The values from `k` on fit the columns with these numbers. -/
def ValuesFit (info : TabbleInfo) (values : List VariantTypes) (k : Nat) (ids : List Nat) : Prop :=
  ∀ j id, ids[j]? = some id →
    ∃ c v, info.columns[id]? = some c ∧ values[k + j]? = some v ∧ v.Fits c

theorem ValuesFit.tail {info : TabbleInfo} {values : List VariantTypes} {k id : Nat}
    {ids : List Nat} (h : info.ValuesFit values k (id :: ids)) :
    info.ValuesFit values (k + 1) ids := by
  intro j id' hj
  obtain ⟨c, v, hc, hv, hfit⟩ := h (j + 1) id' (by simpa using hj)
  exact ⟨c, v, hc, by rw [← hv]; congr 1; omega, hfit⟩

end TabbleInfo

/-- The cells of a line, taken from its bytes. -/
def rowAt (info : TabbleInfo) (f : Nat → UInt8) (base : Nat) : Row :=
  info.columns.map fun c => cellOfBytes (slice f (base + c.offset) c.size) c.type

/-- Assign values to the cells with these numbers, in this order. -/
def setCells (values : List VariantTypes) : Nat → List Nat → Row → Row
  | _, [], row => row
  | k, id :: ids, row => setCells values (k + 1) ids (row.set id (values.getD k (.bool false)).stored)

/-- The row an insert of a full row makes. -/
def insertedRow (values : List VariantTypes) (index n : Nat) : Row :=
  ((values.drop index).take n).map VariantTypes.stored

theorem setCells_range {values : List VariantTypes} {k s m : Nat} {row : Row}
    (hrow : s + m ≤ row.length) (hvalues : 0 < m → k + m ≤ values.length) :
    setCells values k (List.range' s m) row =
      row.take s ++ insertedRow values k m ++ row.drop (s + m) := by
  unfold insertedRow
  induction m generalizing k s row with
  | zero => simp [setCells]
  | succ m ih =>
    have hk : k < values.length := by have := hvalues m.succ_pos; omega
    have hs : s < row.length := by omega
    rw [List.range'_succ, setCells, ih (by rw [List.length_set]; omega) fun _ => by omega,
      List.getD_eq_getElem?_getD, List.getElem?_eq_getElem hk, Option.getD_some, List.drop_eq_getElem_cons hk, List.take_succ_cons,
      List.map_cons, List.take_add_one, List.getElem?_set_self hs, List.take_set_of_le le_rfl,
      List.drop_set_of_lt (by omega), Nat.add_assoc s 1 m, Nat.add_comm 1 m]
    simp

section rowAt
variable {info : TabbleInfo} (h : info.Layout) (f : Nat → UInt8) (base : Nat)
include h

theorem rowAt_blit {id : Nat} {c : Column} (hid : info.columns[id]? = some c) {v : VariantTypes}
    (hv : v.Fits c) :
    rowAt info (blit f (base + c.offset) v.bytes) base = (rowAt info f base).set id v.stored := by
  have hlen := h.fits_length (List.mem_of_getElem? hid) hv
  refine List.ext_getElem? fun j => ?_
  simp only [rowAt, List.getElem?_map]
  by_cases hj : id = j
  · subst hj
    have hid' := (List.getElem?_eq_some_iff.mp hid).1
    rw [List.getElem?_set_self (by simpa using hid'), hid, Option.map_some, ← hlen,
      Bytes.slice_blit_self, cellOfBytes_bytes hv.1]
  · rw [List.getElem?_set_ne hj, List.getElem?_map]
    cases hd : info.columns[j]? with
    | none => rfl
    | some d =>
        have hdis := h.disjoint hid hd hj
        simp only [Option.map_some]
        rw [Bytes.slice_blit_disjoint (by omega)]

theorem rowAt_storeValues {values : List VariantTypes} {k : Nat} {ids : List Nat}
    (hfit : info.ValuesFit values k ids) :
    rowAt info (storeValues f base values k (info.pick ids)) base =
      setCells values k ids (rowAt info f base) := by
  induction ids generalizing f k with
  | nil => rfl
  | cons id ids ih =>
    obtain ⟨c, v, hc, hv, hvc⟩ := hfit 0 id rfl
    have hget : values.getD k (.bool false) = v := by
      rw [List.getD_eq_getElem?_getD]
      simp only [Nat.add_zero] at hv
      rw [hv, Option.getD_some]
    rw [TabbleInfo.pick_cons hc, storeValues, ih _ hfit.tail, setCells, hget, rowAt_blit h f base hc hvc]

end rowAt

/-- Values that fit end before their line does. -/
theorem TabbleInfo.ValuesFit.ends {info : TabbleInfo} (h : info.Layout) {values : List VariantTypes} {k : Nat} {ids : List Nat}
    (hfit : info.ValuesFit values k ids) (j : Nat) (c : Column) (hc : (info.pick ids)[j]? = some c) :
    ∃ v, values[k + j]? = some v ∧ c.offset + v.bytes.length ≤ info.lineLength := by
  induction ids generalizing k j with
  | nil => cases hc
  | cons id ids ih =>
    obtain ⟨d, v, hd, hv, hvd⟩ := hfit 0 id rfl
    rw [TabbleInfo.pick_cons hd] at hc
    cases j with
    | zero =>
        obtain rfl : d = c := by simpa using hc
        have hmem := List.mem_of_getElem? hd
        refine ⟨v, hv, ?_⟩
        rw [h.fits_length hmem hvd]
        exact (h.column_inside hmem).2
    | succ j =>
        obtain ⟨w, hw, hend⟩ := ih hfit.tail j (by simpa using hc)
        exact ⟨w, by rw [← hw]; congr 1; omega, hend⟩

theorem TabbleInfo.pick_subset (info : TabbleInfo) (ids : List Nat) :
    ∀ c ∈ info.pick ids, c ∈ info.columns := by
  intro c hc
  obtain ⟨id, -, hid⟩ := List.mem_filterMap.mp hc
  exact List.mem_of_getElem? hid

/-! The simulation. -/

namespace Tabble

def row (t : Tabble) (i : Nat) : Row := rowAt t.info t.byte (i * t.info.lineLength)

/-- The map a table stands for. -/
def rowMap (t : Tabble) : RowMap := fun i => if t.active i then some (t.row i) else none

theorem rowMap_isSome (t : Tabble) (i : Nat) : (t.rowMap i).isSome = t.active i := by
  unfold rowMap
  cases t.active i <;> rfl

theorem rowMap_ne_none {t : Tabble} {i : Nat} : t.rowMap i ≠ none ↔ t.active i = true := by
  rw [← rowMap_isSome, Option.isSome_iff_ne_none]

/-- A row depends on the bytes of its line only. -/
theorem row_congr {t t' : Tabble} (h : t.info.Layout) (hinfo : t'.info = t.info) {i : Nat}
    (hb : ∀ k, InLine t.info.lineLength i k → t'.byte k = t.byte k) : t'.row i = t.row i := by
  unfold row rowAt
  rw [hinfo]
  refine List.map_congr_left fun c hc => ?_
  have hin := h.column_inside hc
  rw [Bytes.slice_congr fun k hk hk' => hb k (inLine_of_column hin.1 hin.2 ⟨hk, hk'⟩)]

theorem rowMap_congr {t t' : Tabble} (h : t.info.Layout) (hinfo : t'.info = t.info)
    (hact : t'.active = t.active)
    (hb : ∀ i, t.active i = true → ∀ k, InLine t.info.lineLength i k → t'.byte k = t.byte k) :
    t'.rowMap = t.rowMap := by
  funext i
  unfold rowMap
  rw [hact]
  cases ha : t.active i with
  | true => rw [row_congr h hinfo (hb i ha)]
  | false => rfl

theorem active_lt_maxLines {t : Tabble} {i : Nat} (h : t.active i = true) : i < t.maxLines :=
  (active_iff.mp h).1

theorem rowMap_some {t : Tabble} {i : Nat} {row : Row} (h : t.rowMap i = some row) :
    t.active i = true ∧ t.row i = row := by
  have hact : t.active i = true := rowMap_ne_none.mp (by rw [h]; exact Option.some_ne_none row)
  unfold rowMap at h
  rw [hact, if_pos rfl, Option.some.injEq] at h
  exact ⟨hact, h⟩

structure RowSim (schema : TabbleInfo) (t : Tabble) (rows : RowMap) : Prop where
  sound : t.Sound
  schema : t.info = schema
  rows : rows = t.rowMap

section RowSim
variable {schema : TabbleInfo} {t : Tabble} {rows : RowMap} (h : RowSim schema t rows)
include h

theorem RowSim.layout : schema.Layout := h.schema ▸ h.sound.layout

/-- An insert adds one row, under an id that had none. -/
theorem RowSim.insert (os : Os) {values : List VariantTypes} {index : Nat}
    (hfit : schema.ValuesFit values index (List.range schema.columns.length)) :
    (∃ cur t', (insert os values schema.columns index).run t = .ok cur t' ∧ rows cur = none ∧
      RowSim schema t' (Function.update rows cur
        (some (insertedRow values index schema.columns.length)))) ∨
      ∃ e t', (insert os values schema.columns index).run t = .error e t' ∧ e.IsGrowth := by
  have hlay := h.layout
  have hpick : schema.pick (List.range schema.columns.length) = schema.columns := by
    rw [TabbleInfo.pick_range, List.take_length]
  have hends := hfit.ends hlay
  rw [hpick] at hends
  rcases h.sound.insert_ok os values index (columns_of h.schema) (by rw [h.schema]; exact hends) with
    ⟨cur, t₁, f, s, hok, hbyte⟩ | ⟨-, e, t₁, herr, hgrowth, -⟩
  · have hinfo := s.info.trans h.schema
    refine .inl ⟨cur, t₁.addPlace, hok, ?_, ⟨⟨⟨s.sound.layout, s.sound.lineLength, s.sound.live,
      s.sound.idle⟩, s.sound.pool⟩, hinfo, ?_⟩⟩
    · rw [h.rows, rowMap, s.free, if_neg Bool.false_ne_true]
    · have hmap : t₁.addPlace.rowMap = t₁.rowMap := rfl
      rw [hmap, h.rows]
      funext i
      by_cases hi : i = cur
      · subst hi
        have hlen (hpos : 0 < schema.columns.length) :
            index + schema.columns.length ≤ values.length := by
          by_contra hlt
          obtain ⟨c, v, -, hv, -⟩ := hfit (schema.columns.length - 1) (schema.columns.length - 1) (by
            rw [List.getElem?_range (by omega)])
          have := (List.getElem?_eq_some_iff.mp hv).1
          omega
        have hrow : t₁.row i = insertedRow values index schema.columns.length := by
          rw [row, hinfo, hbyte, h.schema]
          have hstore := rowAt_storeValues hlay f (i * schema.lineLength) hfit
          rw [hpick] at hstore
          rw [hstore, List.range_eq_range', setCells_range (by simp [rowAt]) hlen]
          simp [rowAt]
        rw [Function.update_self, rowMap, s.active, Function.update_self, if_pos rfl, hrow]
      · rw [Function.update_of_ne hi, rowMap, rowMap, s.active, Function.update_of_ne hi]
        cases ha : t.active i with
        | false => rfl
        | true =>
            rw [row_congr h.sound.layout s.info fun k hk => s.bytes i (active_lt_maxLines ha) hi k hk]
  · exact .inr ⟨e, t₁, herr, hgrowth⟩

theorem RowSim.erase {i : Nat} (hi : rows i ≠ none) :
    ∃ t', (erase i).run t = .ok i t' ∧ RowSim schema t' (Function.update rows i none) := by
  rw [h.rows, rowMap_ne_none] at hi
  obtain ⟨t', hok, e⟩ := h.sound.erase_ok hi
  refine ⟨t', hok, e.sound, e.info.trans h.schema, ?_⟩
  rw [h.rows]
  funext j
  by_cases hj : j = i
  · subst hj
    rw [Function.update_self, rowMap, e.active, Function.update_self, if_neg Bool.false_ne_true]
  · rw [Function.update_of_ne hj, rowMap, rowMap, e.active, Function.update_of_ne hj,
      row_congr h.sound.layout e.info (e.bytes j)]

theorem RowSim.update (os : Os) {values : List VariantTypes} {ids : List Nat} {i k : Nat} {row : Row}
    (hi : rows i = some row) (hfit : schema.ValuesFit values k ids) :
    ∃ t', (update os values (schema.pick ids) i k).run t = .ok () t' ∧
      RowSim schema t' (Function.update rows i (some (setCells values k ids row))) := by
  obtain rfl := h.schema
  have hlay := h.layout
  rw [h.rows] at hi
  obtain ⟨hact, hrow⟩ := rowMap_some hi
  have hnote := h.sound.withHistory (t.history ++ [.update i])
  obtain ⟨t', hok, htouch, hbyte⟩ := hnote.updateFrom_ok os (active_lt_maxLines hact) values k
    (t.info.pick_subset ids) (hfit.ends hlay)
  have hinfo : t'.info = t.info := htouch.info
  have hflags : ∀ j, ¬ InLine t.info.lineLength i (j * t.storage.core.lineLength) := by
    rw [h.sound.lineLength]
    exact not_inLine_flag _ _
  have hactive : t'.active = t.active := htouch.active hflags
  refine ⟨t', (run_update os values _ i k t).trans hok, htouch.sound hnote hflags,
    hinfo, ?_⟩
  rw [h.rows]
  funext j
  by_cases hj : j = i
  · subst hj
    have hnew : t'.row j = setCells values k ids (t.row j) := by
      rw [Tabble.row, Tabble.row, hinfo, hbyte]
      exact rowAt_storeValues hlay t.byte (j * t.info.lineLength) hfit
    rw [Function.update_self, rowMap, hactive, hact, if_pos rfl, hnew, hrow]
  · rw [Function.update_of_ne hj, rowMap, rowMap, hactive,
      row_congr h.sound.layout hinfo fun m hm => htouch.byte (not_inLine_of_ne hj hm)]

theorem RowSim.reopen (os : Os) (hfit : schema.lineLength * 100 < 2 ^ 64) :
    (∃ t', reopen os t = .ok () t' ∧ RowSim schema t' rows) ∨
      ∃ e t', reopen os t = .error e t' ∧ e.IsGrowth := by
  rcases h.sound.toMapped.reopen_outcome os (by rw [h.schema]; exact hfit) with ⟨t', hok, r⟩ | herr
  · refine .inl ⟨t', hok, r.sound, r.info.trans h.schema, ?_⟩
    rw [h.rows]
    exact (rowMap_congr h.sound.layout r.info r.active fun i hi =>
      r.bytes i (active_lt_maxLines hi)).symm
  · exact .inr herr

/-- Reading a column of a row of the map. -/
theorem RowSim.readColumn {i j : Nat} {row : Row} {c : Column} (hi : rows i = some row)
    (hc : schema.columns[j]? = some c) (hsize : 0 < c.size) :
    ∃ v t', row[j]? = some v ∧ (readColumn i c).run t = .ok v t' := by
  rw [h.rows] at hi
  obtain ⟨hact, hrow⟩ := rowMap_some hi
  have hmem : c ∈ t.info.columns := by
    rw [h.schema]
    exact List.mem_of_getElem? hc
  obtain ⟨t', hread, -⟩ := h.sound.toMapped.readColumn (active_lt_maxLines hact) hmem hsize
  refine ⟨t.cell i c, t', ?_, hread⟩
  rw [← hrow, Tabble.row, rowAt, List.getElem?_map, h.schema, hc, Option.map_some, ← h.schema]
  rfl

end RowSim

/-- The code run beside the map. The map is told what each call was asked for, and
the id an insert answered. -/
inductive Run (os : Os) (schema : TabbleInfo) : Tabble → RowMap → Prop
  | start {calls : Nat} {t : Tabble} :
      openFile os schema .empty calls = .ok () t → Run os schema t fun _ => none
  | insert {t t' : Tabble} {rows : RowMap} {values : List VariantTypes} {index cur : Nat} :
      Run os schema t rows → schema.ValuesFit values index (List.range schema.columns.length) →
      (insert os values schema.columns index).run t = .ok cur t' →
      Run os schema t' (Function.update rows cur
        (some (insertedRow values index schema.columns.length)))
  | erase {t t' : Tabble} {rows : RowMap} {i r : Nat} : Run os schema t rows → rows i ≠ none →
      (erase i).run t = .ok r t' → Run os schema t' (Function.update rows i none)
  | update {t t' : Tabble} {rows : RowMap} {values : List VariantTypes} {ids : List Nat} {i k : Nat}
      {row : Row} : Run os schema t rows → rows i = some row → schema.ValuesFit values k ids →
      (update os values (schema.pick ids) i k).run t = .ok () t' →
      Run os schema t' (Function.update rows i (some (setCells values k ids row)))
  | reopen {t t' : Tabble} {rows : RowMap} : Run os schema t rows → reopen os t = .ok () t' →
      Run os schema t' rows

theorem Run.sim {os : Os} {schema : TabbleInfo} (hlay : schema.Layout)
    (hfit : schema.lineLength * 100 < 2 ^ 64) {t : Tabble} {rows : RowMap}
    (h : Run os schema t rows) : RowSim schema t rows := by
  induction h with
  | @start calls t hopen =>
      have hempty : ByteFile.empty.size = 0 := rfl
      rcases openFile_outcome os calls hlay hfit (.inl hempty) with ⟨t₁, hok, o⟩ | ⟨e, t₁, herr, -⟩
      · rw [hok] at hopen
        cases hopen
        refine ⟨o.sound, o.info, funext fun i => ?_⟩
        have hnot : t.active i = false := by
          rw [o.active i, hempty]
          rfl
        rw [rowMap, hnot, if_neg Bool.false_ne_true]
      · rw [herr] at hopen
        cases hopen
  | insert _ hvalues hrun ih =>
      rcases ih.insert os hvalues with ⟨cur, t₁, hok, -, hsim⟩ | ⟨e, t₁, herr, -⟩
      · rw [hok] at hrun
        cases hrun
        exact hsim
      · rw [herr] at hrun
        cases hrun
  | erase _ hi hrun ih =>
      obtain ⟨t₁, hok, hsim⟩ := ih.erase hi
      rw [hok] at hrun
      cases hrun
      exact hsim
  | update _ hi hvalues hrun ih =>
      obtain ⟨t₁, hok, hsim⟩ := ih.update os hi hvalues
      rw [hok] at hrun
      cases hrun
      exact hsim
  | reopen _ hopen ih =>
      rcases ih.reopen os hfit with ⟨t₁, hok, hsim⟩ | ⟨e, t₁, herr, -⟩
      · rw [hok] at hopen
        cases hopen
        exact hsim
      · rw [herr] at hopen
        cases hopen

/-- Along every run the flags and columns of the table are those of the map, inserts
answer ids that were free, and only a growth that fails stops an operation. -/
theorem table_refines_map {os : Os} {schema : TabbleInfo} (hlay : schema.Layout)
    (hfit : schema.lineLength * 100 < 2 ^ 64) (hsize : ∀ c ∈ schema.columns, 0 < c.size)
    {t : Tabble} {rows : RowMap} (h : Run os schema t rows) :
    (∀ i < t.storage.getMaxLines, ∃ t',
      (onStorage (MemoryMap.isActive i)).run t = .ok (rows i).isSome t') ∧
    (∀ i, t.storage.getMaxLines ≤ i → rows i = none) ∧
    (∀ i (row : Row), rows i = some row → row.length = schema.columns.length ∧
      ∀ (j : Nat) (c : Column), schema.columns[j]? = some c →
        ∃ (v : VariantTypes) (t' : Tabble), row[j]? = some v ∧ (readColumn i c).run t = .ok v t') ∧
    (∀ values index, schema.ValuesFit values index (List.range schema.columns.length) →
      (∃ cur t', (insert os values schema.columns index).run t = .ok cur t' ∧ rows cur = none) ∨
        ∃ e t', (insert os values schema.columns index).run t = .error e t' ∧ e.IsGrowth) ∧
    (∀ i, rows i ≠ none → ∃ t', (erase i).run t = .ok i t') ∧
    (∀ values ids i k, rows i ≠ none → schema.ValuesFit values k ids →
      ∃ t', (update os values (schema.pick ids) i k).run t = .ok () t') ∧
    ((∃ t', reopen os t = .ok () t') ∨ ∃ e t', reopen os t = .error e t' ∧ e.IsGrowth) := by
  have hsim := h.sim hlay hfit
  refine ⟨fun i hi => ?_, fun i hi => ?_, fun i row hi => ⟨?_, fun j c hc => ?_⟩,
    fun values index hvalues => ?_, fun i hi => ?_, fun values ids i k hi hvalues => ?_, ?_⟩
  · have hact : (rows i).isSome = t.flag i := by
      rw [hsim.rows, rowMap_isSome, active_of_lt hi]
    rw [hact]
    exact ⟨_, hsim.sound.toMapped.isActive hi⟩
  · rw [hsim.rows, rowMap, if_neg]
    intro hact
    exact absurd (active_lt_maxLines hact) (Nat.not_lt.mpr hi)
  · rw [hsim.rows] at hi
    rw [← (rowMap_some hi).2, Tabble.row, rowAt, List.length_map, hsim.schema]
  · exact hsim.readColumn hi hc (hsize c (List.mem_of_getElem? hc))
  · exact (hsim.insert os hvalues).imp_left fun ⟨cur, t', hok, hfree, _⟩ => ⟨cur, t', hok, hfree⟩
  · exact (hsim.erase hi).imp fun t' ht => ht.1
  · obtain ⟨row, hrow⟩ := Option.ne_none_iff_exists'.mp hi
    exact (hsim.update os hrow hvalues).imp fun t' ht => ht.1
  · exact (hsim.reopen os hfit).imp_left fun ⟨t', hok, _⟩ => ⟨t', hok⟩

/-- An insert and an update of the sample table, seen through the map. -/
theorem table_refines_map_sample : ∃ t rows, Run .reliable sampleInfo t rows ∧
    rows 0 = some [.int32 9] ∧ ∀ i < t.storage.getMaxLines, ∃ t',
      (onStorage (MemoryMap.isActive i)).run t = .ok (rows i).isSome t' := by
  have hfit (n : BitVec 32) : sampleInfo.ValuesFit [.int32 n] 0 [0] := by
    intro j id hj
    cases j with
    | zero =>
        obtain rfl : 0 = id := by simpa using hj
        exact ⟨_, _, rfl, rfl, rfl, nofun⟩
    | succ j => simp at hj
  have hopen : Run .reliable sampleInfo sampleOpened fun _ => none := .start sampleOpened_opens
  have hins : Run .reliable sampleInfo (sampleInserted sampleOpened 7) _ :=
    .insert hopen (hfit 7) (Programs.eq_ok_of_value (a := 0) (by decide +kernel))
  have hupd : Run .reliable sampleInfo (Programs.finalState
      ((update .reliable [.int32 9] (sampleInfo.pick [0]) 0 0).run (sampleInserted sampleOpened 7))) _ :=
    hins.update rfl (hfit 9) (Programs.eq_ok_of_isOk (by decide +kernel))
  exact ⟨_, _, hupd, rfl, (table_refines_map sampleInfo_layout (by decide) (by decide) hupd).1⟩

end Tabble
end SQLid
