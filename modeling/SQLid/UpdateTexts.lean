import SQLid.Library.Layers
import SQLid.UpdateFailures

/-!
# The texts of an UPDATE

An UPDATE stores a text as it comes: a short one keeps the end of the old text behind
it, and a long one runs into the columns behind its own.
-/
namespace SQLid
open Bytes (Text layers laid slice)
open Programs
open Tabble (cellOfBytes storeValues Fitting InLine Rewritten LogOnly)
open Executor (targetLines Aimed UpToLog)

/-! What the values of a SET list write to a line. -/

/-- The writes of an UPDATE to one line, as offsets and bytes. -/
def setWrites (values : List VariantTypes) : Nat → List Column → List (Nat × Text)
  | _, [] => []
  | k, c :: columns => (c.offset, (values.getD k (.bool false)).bytes) :: setWrites values (k + 1) columns

theorem storeValues_laid (f : Nat → UInt8) (base : Nat) (values : List VariantTypes) (k : Nat)
    (columns : List Column) (q : Nat) :
    storeValues f base values k columns (base + q) =
      laid (fun q => f (base + q)) (setWrites values k columns) q := by
  induction columns generalizing f k with
  | nil => rfl
  | cons c columns ih =>
    unfold storeValues setWrites
    rw [ih, Bytes.laid_cons]
    congr 1
    funext q
    exact Bytes.blit_shift f base c.offset q _

theorem mem_setWrites {values : List VariantTypes} {columns : List Column} {j k : Nat} {c : Column}
    {v : VariantTypes} (hc : columns[j]? = some c) (hv : values[k + j]? = some v) :
    (c.offset, v.bytes) ∈ setWrites values k columns := by
  induction columns generalizing j k with
  | nil => cases hc
  | cons d columns ih =>
    unfold setWrites
    cases j with
    | zero =>
        cases hc
        rw [Nat.add_zero] at hv
        rw [List.getD_eq_getElem?_getD, hv, Option.getD_some]
        exact List.mem_cons_self
    | succ j =>
        refine List.mem_cons_of_mem _ (ih hc ?_)
        rw [← hv]
        congr 1
        omega

/-- Every write starts where one of the columns does. -/
theorem setWrites_offset {values : List VariantTypes} {columns : List Column} {k : Nat}
    {w : Nat × Text} (h : w ∈ setWrites values k columns) : ∃ c ∈ columns, w.1 = c.offset := by
  induction columns generalizing k with
  | nil => cases h
  | cons c columns ih =>
    rcases List.mem_cons.mp h with rfl | h
    · exact ⟨c, List.mem_cons_self, rfl⟩
    · obtain ⟨d, hd, hw⟩ := ih h
      exact ⟨d, List.mem_cons_of_mem c hd, hw⟩

/-! UPDATEs with a given SET list. -/

/-- An UPDATE of an open table that completes, and a line it was aimed at. -/
structure SetRun (os : Os) (schema : TabbleInfo) (cols vals : List Text) (t : Tabble)
    (query : UpdateQuery) (i : Nat) (t' : Tabble) : Prop where
  mapped : t.Mapped
  info : t.info = schema
  accepted : ∃ raw, raw.columnsRaw = cols ∧ raw.rawValues = vals ∧
    Optimizer.optimizeUpdate schema raw = .ok query
  completes : ∃ s, (Executor.executeUpdate os query).run ⟨t, {}⟩ = .ok () s ∧ s.table = t'
  line : i ∈ targetLines t query.conditions query.limit

theorem Tabble.Mapped.logOnly {t t' : Tabble} (h : t.Mapped) (hl : LogOnly t t') : t'.Mapped := by
  obtain ⟨l, rfl⟩ := hl
  exact ⟨h.layout, h.lineLength, h.live, h.idle⟩

/-- A line that an UPDATE is aimed at is a line of the file. -/
theorem Executor.aimed_of_target {t : Tabble} {conds : List Condition} {limit i : Nat}
    (h : i ∈ targetLines t conds limit) : Aimed t conds := by
  intro line hdir
  have hactive := targetLines_active h
  unfold targetLines at h
  rw [hdir] at h
  change i ∈ (if t.active line.toNat then [line.toNat] else []) at h
  split at h
  · rw [List.mem_singleton.mp h] at hactive
    exact .inl (Tabble.active_lt_maxLines hactive)
  · cases h

section
variable {os : Os} {schema : TabbleInfo} {cols vals : List Text} {ids : List Nat}
  {values : List VariantTypes} {t t' : Tabble} {query : UpdateQuery} {i : Nat}

/-- The SET list decides the columns and the values. -/
theorem SetRun.set (h : SetRun os schema cols vals t query i t')
    (hids : Optimizer.optimizeColumns schema cols = .ok ids)
    (hvalues : Optimizer.optimizeUpdateValues schema ids vals = .ok values) :
    query.columnsOptimized = ids ∧ query.values = values := by
  obtain ⟨raw, rfl, rfl, hopt⟩ := h.accepted
  obtain ⟨ids', hids', hopt⟩ := Except_bind_ok hopt
  rw [hids] at hids'
  cases hids'
  obtain ⟨conditions, -, hopt⟩ := Except_bind_ok hopt
  obtain ⟨values', hvalues', hopt⟩ := Except_bind_ok hopt
  rw [hvalues] at hvalues'
  cases hvalues'
  cases hopt
  exact ⟨rfl, rfl⟩

/-- What is read of a line before and after. -/
theorem SetRun.reads (hfill : ∀ c ∈ schema.columns, 0 < c.size)
    (h : SetRun os schema cols vals t query i t')
    (hids : Optimizer.optimizeColumns schema cols = .ok ids)
    (hvalues : Optimizer.optimizeUpdateValues schema ids vals = .ok values) :
    Fitting schema.lineLength values (schema.pick ids) ∧
      ∀ c ∈ schema.columns,
        t.peek (Tabble.readColumn i c) = .ok (cellOfBytes
          (slice (fun q => t.byte (i * schema.lineLength + q)) c.offset c.size) c.type) ∧
        t'.peek (Tabble.readColumn i c) = .ok (cellOfBytes
          (slice (laid (fun q => t.byte (i * schema.lineLength + q))
            (setWrites values 0 (schema.pick ids))) c.offset c.size) c.type) := by
  obtain ⟨hcols, hvals⟩ := h.set hids hvalues
  obtain ⟨raw, -, -, hopt⟩ := h.accepted
  obtain rfl := h.info
  have hq := Optimizer.optimizeUpdate_prepared hopt
  obtain ⟨s, hrun, rfl⟩ := h.completes
  have hpost := Executor.executeUpdate_outcome h.mapped hfill os hq
    (Executor.aimed_of_target h.line) {} rfl
  rw [hrun, hcols, hvals] at hpost
  obtain ⟨-, hpick⟩ := hq.set.columnsAt
  have hlen : (t.info.pick ids).length ≤ values.length := by
    rw [← hcols, ← hvals, hpick, hq.set.length]
  cases hpost with
  | ok hdone =>
      obtain ⟨⟨t₁, hadvanced, hlog⟩, -⟩ := hdone
      have hlines : targetLines t query.conditions query.limit ≠ [] := List.ne_nil_of_mem h.line
      have hwhole := hadvanced.whole.resolve_left hlines
      refine ⟨(Tabble.fitting_iff hlen).mpr hwhole, fun c hc => ?_⟩
      have hactive := Executor.targetLines_active h.line
      have hlt := Tabble.active_lt_maxLines hactive
      have hin := h.mapped.layout.column_inside hc
      have hsize := hfill c hc
      have hmapped : t₁.Mapped := hadvanced.rewritten.mapped h.mapped
      have hinfo : s.table.info = t.info := by
        obtain ⟨l, hl⟩ := hlog
        rw [hl]
        exact hadvanced.rewritten.info
      have hmax : s.table.maxLines = t.maxLines := by
        obtain ⟨l, hl⟩ := hlog
        rw [hl]
        exact hadvanced.rewritten.maxLines
      constructor
      · rw [h.mapped.peek_readColumn hlt hc hsize, Tabble.cell, Bytes.slice_shift]
      · rw [(hmapped.logOnly hlog).peek_readColumn (by rwa [hmax]) (by rwa [hinfo]) hsize, Tabble.cell,
          hinfo, Tabble.byte_logOnly hlog, Bytes.slice_shift]
        congr 2
        apply Bytes.slice_congr
        intro q hq hq'
        rw [← storeValues_laid]
        exact hadvanced.rewritten.stored i h.line _
          (Tabble.inLine_of_column hin.1 hin.2 ⟨by omega, by omega⟩)

/-! A table with one active line, which holds anything. -/

def Tabble.lone (t : Tabble) (f : Nat → UInt8) : Tabble :=
  { t with
    storage := t.storage.withCore (t.storage.core.withByte fun k => if k = 0 then 1 else f k)
    stackFreeId := []
    freeId := 1
    activePlaces := 1 }

theorem Tabble.Mapped.lone (h : t.Mapped) (f : Nat → UInt8) : (t.lone f).Mapped :=
  ⟨h.layout, h.lineLength, h.live.withByte _, h.idle⟩

theorem Tabble.Mapped.lone_active (h : t.Mapped) (f : Nat → UInt8) : (t.lone f).active 0 = true := by
  have hflag : (t.lone f).flag 0 = true := by
    unfold Tabble.flag MemoryMapLinux.flag
    rw [Nat.zero_mul]
    rfl
  exact Tabble.active_iff.mpr ⟨(h.lone f).live.getMaxLine_pos, hflag⟩

theorem Tabble.Mapped.lone_target (h : t.Mapped) (f : Nat → UInt8) :
    0 ∈ targetLines (t.lone f) [] sizeMax := by
  have hmax := (h.lone f).live.getMaxLine_pos
  have hmeets : (t.lone f).meets [] 0 = true := by
    have hactive := h.lone_active f
    refine Tabble.meets_iff.mpr ⟨hactive, ?_⟩
    unfold Tabble.rowSelects
    rw [if_pos (Tabble.active_iff.mp hactive).2, if_pos rfl]
  have hscan : targetLines (t.lone f) [] sizeMax = Executor.scannedLines (t.lone f) [] 1 0 1 := rfl
  change 0 < (t.lone f).maxLines at hmax
  obtain ⟨rest, hrest⟩ : ∃ rest, Scan.picked ((t.lone f).meets []) 0
      (min 1 ((t.lone f).maxLines - 0)) 1 = 0 :: rest :=
    Scan.picked_first le_rfl (by omega) (Scan.passed_self _ _) hmeets Nat.one_pos
  rw [hscan]
  unfold Executor.scannedLines
  rw [hrest]
  exact List.mem_cons_self

theorem Tabble.Mapped.lone_not_strays (h : t.Mapped) (f : Nat → UInt8) :
    ¬ Executor.Strays (t.lone f) [] := by
  have hmax := (h.lone f).live.getMaxLine_pos
  rintro (⟨line, hdir, -⟩ | ⟨maxLine, hupper, hastray⟩)
  · cases hdir
  · cases hupper
    rcases hastray with hlt | ⟨i, -, hnone⟩
    · change (t.lone f).maxLines < 1 at hlt
      change 0 < (t.lone f).maxLines at hmax
      omega
    · unfold Tabble.rowSelects at hnone
      by_cases hflag : (t.lone f).flag i = true
      · rw [if_pos hflag, if_pos rfl] at hnone
        exact hnone true rfl
      · rw [if_neg hflag] at hnone
        exact hnone false rfl

/-- A SET list whose values fit is carried out on a line that holds anything. -/
theorem exists_setRun (os : Os) (ht : t.Mapped) (hfill : ∀ c ∈ t.info.columns, 0 < c.size)
    (hids : Optimizer.optimizeColumns t.info cols = .ok ids)
    (hvalues : Optimizer.optimizeUpdateValues t.info ids vals = .ok values)
    (hfit : Fitting t.info.lineLength values (t.info.pick ids)) (f : Nat → UInt8) :
    ∃ t₁ query t', SetRun os t.info cols vals t₁ query 0 t' ∧ ∀ q, 1 ≤ q → t₁.byte q = f q := by
  obtain ⟨query, hcolumns, hstored, hconditions, hlimit, hopt⟩ : ∃ query : UpdateQuery,
      query.columnsOptimized = ids ∧ query.values = values ∧ query.conditions = [] ∧
        query.limit = sizeMax ∧
        Optimizer.optimizeUpdate t.info { columnsRaw := cols, rawValues := vals } = .ok query := by
    refine ⟨{ columnsRaw := cols, rawValues := vals, columnsOptimized := ids, values }, rfl, rfl, rfl, rfl, ?_⟩
    unfold Optimizer.optimizeUpdate
    rw [hids]
    change (Optimizer.optimizeUpdateValues t.info ids vals >>= _) = _
    rw [hvalues]
    rfl
  have hq := Optimizer.optimizeUpdate_prepared hopt
  obtain ⟨-, hpick⟩ := hq.set.columnsAt
  have hlen : (t.info.pick ids).length ≤ values.length := by
    rw [← hcolumns, ← hstored, hpick, hq.set.length]
  have htarget := ht.lone_target f
  rw [← hconditions, ← hlimit] at htarget
  have hcompletes : ∃ s, (Executor.executeUpdate os query).run ⟨t.lone f, {}⟩ = .ok () s := by
    have hpost := Executor.executeUpdate_outcome (ht.lone f) hfill os hq
      (Executor.aimed_of_target htarget) {} rfl
    cases hrun : (Executor.executeUpdate os query).run ⟨t.lone f, {}⟩ with
    | ok _ s => exact ⟨s, rfl⟩
    | error e s =>
        rw [hrun] at hpost
        cases hpost with
        | error hfailed =>
            rcases hfailed with hhalt | ⟨hstrays, -⟩ | ⟨hmax, -⟩
            · rw [hcolumns, hstored] at hhalt
              exact absurd ((Tabble.fitting_iff hlen).mp hfit) hhalt.partly
            · rw [hconditions] at hstrays
              exact absurd hstrays (ht.lone_not_strays f)
            · change Executor.maxBody < 1 at hmax
              exact absurd hmax (by decide)
  obtain ⟨s, hs⟩ := hcompletes
  refine ⟨t.lone f, query, s.table, ⟨ht.lone f, rfl, ⟨_, rfl, rfl, hopt⟩, ⟨s, hs, rfl⟩, htarget⟩,
    fun q hq => ?_⟩
  change (if q = 0 then 1 else f q) = f q
  rw [if_neg (by omega)]

/-! Columns that are not named. -/

/-- What a column reads as tells whether its first byte is NUL. -/
theorem Tabble.cellOfBytes_head {x y : UInt8} {xs ys : Text} {type : ColumnType} (hv : type ≠ .voida)
    (h : cellOfBytes (x :: xs) type = cellOfBytes (y :: ys) type) : x = 0 ↔ y = 0 := by
  have hnumber {w : Nat} (hw : 256 ∣ 2 ^ w)
      (heq : BitVec.ofNat w (Bytes.leNat (x :: xs)) = BitVec.ofNat w (Bytes.leNat (y :: ys))) : x = y := by
    have hnat := congrArg (fun v => v.toNat % 256) heq
    simp only [BitVec.toNat_ofNat, Nat.mod_mod_of_dvd _ hw, Bytes.leNat, Nat.add_mul_mod_self_left] at hnat
    apply UInt8.toNat_inj.mp
    have hx := x.toNat_lt
    have hy := y.toNat_lt
    omega
  have htext (heq : Bytes.cutNul (x :: xs) = Bytes.cutNul (y :: ys)) : x = 0 ↔ y = 0 := by
    unfold Bytes.cutNul at heq
    by_cases hx : x = 0 <;> by_cases hy : y = 0 <;> simp [hx, hy] at heq ⊢
  cases type with
  | voida => exact absurd rfl hv
  | int32 => rw [hnumber (w := 32) (by decide) (VariantTypes.int32.inj h)]
  | int64 => rw [hnumber (w := 64) (by decide) (VariantTypes.int64.inj h)]
  | double => rw [hnumber (w := 64) (by decide) (VariantTypes.double.inj h)]
  | float => rw [hnumber (w := 32) (by decide) (VariantTypes.float.inj h)]
  | bool =>
      have hbool : (x != 0) = (y != 0) := VariantTypes.bool.inj h
      by_cases hx : x = 0 <;> by_cases hy : y = 0 <;> simp [hx, hy] at hbool ⊢
  | text | string => exact htext (VariantTypes.string.inj h)

/-- No value of a SET list reaches a column the list does not name. -/
def Clear (schema : TabbleInfo) (ids : List Nat) (values : List VariantTypes) : Prop :=
  ∀ w ∈ setWrites values 0 (schema.pick ids), ∀ (m : Nat) c, schema.columns[m]? = some c → m ∉ ids →
    w.1 + w.2.length ≤ c.offset ∨ c.offset + c.size ≤ w.1

/-- A value that reaches a column not named covers its first byte. -/
theorem covers_first (hlay : schema.Layout) {w : Nat × Text}
    (hw : w ∈ setWrites values 0 (schema.pick ids)) {m : Nat} {c : Column}
    (hc : schema.columns[m]? = some c) (hm : m ∉ ids)
    (h : ¬ (w.1 + w.2.length ≤ c.offset ∨ c.offset + c.size ≤ w.1)) :
    w.1 ≤ c.offset ∧ c.offset < w.1 + w.2.length := by
  obtain ⟨d, hd, hoff⟩ := setWrites_offset hw
  obtain ⟨id, hid, hcol⟩ := List.mem_filterMap.mp hd
  have hne : id ≠ m := by
    rintro rfl
    exact hm hid
  rcases hlay.disjoint hcol hc hne with hbefore | hbehind <;> omega

/-- An UPDATE leaves the columns it does not name alone, whatever its lines hold, exactly if
its values are clear of them or one does not fit its line. -/
theorem update_keeps_columns {t₀ : Tabble} (h₀ : t₀.Mapped) (hfill : ∀ c ∈ t₀.info.columns, 0 < c.size)
    (hids : Optimizer.optimizeColumns t₀.info cols = .ok ids)
    (hvalues : Optimizer.optimizeUpdateValues t₀.info ids vals = .ok values) :
    (∀ t query i t', SetRun os t₀.info cols vals t query i t' → ∀ (m : Nat) c,
        t₀.info.columns[m]? = some c → m ∉ ids →
        t'.peek (Tabble.readColumn i c) = t.peek (Tabble.readColumn i c)) ↔
      (Fitting t₀.info.lineLength values (t₀.info.pick ids) → Clear t₀.info ids values) := by
  constructor
  · intro hkeep hfit w hw m c hc hm
    by_contra hreach
    obtain ⟨hlow, hhigh⟩ := covers_first h₀.layout hw hc hm hreach
    have hmem := List.mem_of_getElem? hc
    have hsize := hfill c hmem
    cases hb : Bytes.layers (setWrites values 0 (t₀.info.pick ids)) c.offset with
    | none =>
        have := Bytes.layers_eq_none_iff.mp hb w hw
        omega
    | some b =>
        -- the column starts with a NUL just if the byte written there is none
        obtain ⟨t, query, t', hrun, hbyte⟩ := exists_setRun os h₀ hfill hids hvalues hfit
          fun _ => if b = 0 then 1 else 0
        obtain ⟨hbefore, hafter⟩ := (hrun.reads hfill hids hvalues).2 c hmem
        have hsame := hkeep t query 0 t' hrun m c hc hm
        rw [hbefore, hafter, Except.ok.injEq] at hsame
        obtain ⟨n, hn⟩ : ∃ n, c.size = n + 1 := ⟨c.size - 1, by omega⟩
        have hoff := (h₀.layout.column_inside hmem).1
        rw [hn, slice, slice, Bytes.laid_of_some hb, hbyte _ (by omega)] at hsame
        have hhead := Tabble.cellOfBytes_head (Tabble.column_type h₀.layout hmem hsize).1 hsame
        by_cases hzero : b = 0 <;> simp [hzero] at hhead
  · intro hclear t query i t' hrun m c hc hm
    have hmem := List.mem_of_getElem? hc
    obtain ⟨hfit, hreads⟩ := hrun.reads hfill hids hvalues
    obtain ⟨hbefore, hafter⟩ := hreads c hmem
    rw [hbefore, hafter]
    congr 2
    apply Bytes.slice_congr
    intro q hq hq'
    apply Bytes.laid_of_none
    apply Bytes.layers_eq_none_iff.mpr
    intro w hw
    have := hclear hfit w hw m c hc hm
    omega

/-! Columns that are named once. -/

/-- What a reader gets of a token that has been inserted into this column of a fresh row. -/
def Column.inserted (c : Column) (raw : Text) : Except Fault VariantTypes :=
  if c.type.isText then .ok (.string (Bytes.cutNul (raw.take c.size))) else parseValue raw c.type

/-- The writes put this text, cut to the column, into the column and end it there. -/
def PutsText (writes : List (Nat × Text)) (c : Column) (text : Text) : Prop :=
  (∀ p < text.length, layers writes (c.offset + p) = text[p]?) ∧
    (c.size = text.length ∨ layers writes (c.offset + text.length) = some 0)

/-- The writes put the number a token stands for into a column. -/
def PutsNumber (writes : List (Nat × Text)) (c : Column) (raw : Text) : Prop :=
  parseValue raw c.type =
    .ok (cellOfBytes (slice (fun q => (layers writes q).getD 0) c.offset c.size) c.type)

/-- The values of a SET list, laid over one another, leave in each column named once what an
INSERT would. -/
def Faithful (schema : TabbleInfo) (ids : List Nat) (vals : List Text)
    (values : List VariantTypes) : Prop :=
  ∀ (j : Nat) m c raw, ids[j]? = some m → ids.count m = 1 → schema.columns[m]? = some c →
    vals[j]? = some raw →
    if c.type.isText then
      PutsText (setWrites values 0 (schema.pick ids)) c (Bytes.cutNul (raw.take c.size))
    else PutsNumber (setWrites values 0 (schema.pick ids)) c raw

/-- A number that is named is written over the whole of its column. -/
theorem named_covers (hlay : schema.Layout) (hfill : ∀ c ∈ schema.columns, 0 < c.size)
    (hset : Optimizer.SetValues schema ids vals values) {j m : Nat} {c : Column}
    (hj : ids[j]? = some m) (hc : schema.columns[m]? = some c) (htype : c.type.isText = false)
    (f : Nat → UInt8) {q : Nat} (hq : c.offset ≤ q) (hq' : q < c.offset + c.size) :
    laid f (setWrites values 0 (schema.pick ids)) q =
      (layers (setWrites values 0 (schema.pick ids)) q).getD 0 := by
  obtain ⟨c', raw, v, hc', -, hv, hparse⟩ := hset.parsed j m hj
  rw [hc] at hc'
  cases hc'
  have hmem := List.mem_of_getElem? hc
  have hwrite := mem_setWrites (k := 0) (hset.getElem?_pick hj hc) (by rwa [Nat.zero_add])
  have hlen : v.bytes.length = c.size := by
    rw [VariantTypes.length_bytes (parseValue_hasType hparse) htype]
    exact ((Tabble.column_type hlay hmem (hfill c hmem)).2 htype).symm
  cases hl : layers (setWrites values 0 (schema.pick ids)) q with
  | none =>
      have := Bytes.layers_eq_none_iff.mp hl _ hwrite
      dsimp only at this
      omega
  | some b => exact Bytes.laid_of_some hl

/-- An UPDATE stores in the columns named once what an INSERT would, whatever its lines hold,
exactly if its values do so by themselves or one does not fit its line. -/
theorem update_stores_inserted {t₀ : Tabble} (h₀ : t₀.Mapped)
    (hfill : ∀ c ∈ t₀.info.columns, 0 < c.size)
    (hids : Optimizer.optimizeColumns t₀.info cols = .ok ids)
    (hvalues : Optimizer.optimizeUpdateValues t₀.info ids vals = .ok values) :
    (∀ t query i t', SetRun os t₀.info cols vals t query i t' → ∀ (j : Nat) m c raw,
        ids[j]? = some m → ids.count m = 1 → t₀.info.columns[m]? = some c → vals[j]? = some raw →
        t'.peek (Tabble.readColumn i c) = c.inserted raw) ↔
      (Fitting t₀.info.lineLength values (t₀.info.pick ids) →
        Faithful t₀.info ids vals values) := by
  have hset := Optimizer.updateValues_set (Optimizer.orIncorrect_ok hvalues)
  constructor
  · intro hstores hfit j m c raw hj honce hc hraw
    have hmem := List.mem_of_getElem? hc
    have hoff := (h₀.layout.column_inside hmem).1
    have hread (f : Nat → UInt8) : .ok (cellOfBytes (slice (laid f
        (setWrites values 0 (t₀.info.pick ids))) c.offset c.size) c.type) = c.inserted raw := by
      obtain ⟨t, query, t', hrun, hbyte⟩ := exists_setRun os h₀ hfill hids hvalues hfit f
      rw [← hstores t query 0 t' hrun j m c raw hj honce hc hraw,
        ((hrun.reads hfill hids hvalues).2 c hmem).2]
      congr 2
      apply Bytes.slice_congr
      intro q hq _
      unfold laid
      simp only [Nat.zero_mul, Nat.zero_add, hbyte q (by omega)]
    unfold Column.inserted at hread
    split_ifs at hread ⊢ with htype
    · apply (Bytes.forall_cutNul_laid_iff Bytes.mem_cutNul_ne _).mp
      · intro f
        have hf := hread f
        rw [Tabble.cellOfBytes_text htype, Except.ok.injEq] at hf
        exact VariantTypes.string.inj hf
      · exact (Bytes.cutNul_length_le _).trans (by rw [List.length_take]; omega)
    · exact (hread fun _ => 0).symm
  · intro hfaithful t query i t' hrun j m c raw hj honce hc hraw
    have hmem := List.mem_of_getElem? hc
    obtain ⟨hfit, hreads⟩ := hrun.reads hfill hids hvalues
    rw [(hreads c hmem).2]
    have hputs := hfaithful hfit j m c raw hj honce hc hraw
    unfold Column.inserted
    split_ifs at hputs ⊢ with htype
    · rw [Tabble.cellOfBytes_text htype,
        (Bytes.forall_cutNul_laid_iff Bytes.mem_cutNul_ne _).mpr hputs]
      exact (Bytes.cutNul_length_le _).trans (by rw [List.length_take]; omega)
    · rw [hputs]
      congr 2
      apply Bytes.slice_congr
      intro q hq hq'
      exact named_covers h₀.layout hfill hset hj hc (by simpa using htype) _ hq hq'

end

/-! `UPDATE t SET a = ..` on the table of two texts. -/

def textsSet (value : String) : UpdateQuery where
  columnsRaw := [CppText.str "a"]
  rawValues := [CppText.str value]

def textsSetQuery (value : String) : UpdateQuery :=
  { textsSet value with columnsOptimized := [0], values := [.string (CppText.str value)] }

theorem textsSet_optimized (value : String) :
    Optimizer.optimizeUpdate Tabble.textsInfo (textsSet value) = .ok (textsSetQuery value) := rfl

/-- The row holds `abc` and `def` before. -/
def textsSetDone (value : String) : EStateM.Result Fault Execution Unit :=
  (Executor.executeUpdate .reliable (textsSetQuery value)).run ⟨textsFilled, {}⟩

theorem textsFilled_mapped : textsFilled.Mapped :=
  (textsFilled_orderly.served textsInfo_regular (by decide +kernel)).sound.toMapped

theorem textsFilled_line : 0 ∈ targetLines textsFilled [] sizeMax := by decide +kernel

theorem textsSet_run (value : String) (h : isOk (textsSetDone value) = true) :
    SetRun .reliable Tabble.textsInfo [CppText.str "a"] [CppText.str value] textsFilled
      (textsSetQuery value) 0 (finalState (textsSetDone value)).table where
  mapped := textsFilled_mapped
  info := textsFilled_info
  accepted := ⟨textsSet value, rfl, rfl, textsSet_optimized value⟩
  completes := ⟨finalState (textsSetDone value), eq_ok_of_isOk h, rfl⟩
  line := textsFilled_line

/-- `xyz` fills `a` and stays out of `b`. -/
theorem update_keeps_columns_sample :
    (finalState (textsSetDone "xyz")).table.peek (Tabble.readColumn 0 ⟨CppText.str "b", 4, .string, 3⟩) =
      textsFilled.peek (Tabble.readColumn 0 ⟨CppText.str "b", 4, .string, 3⟩) := by
  have hclear : Clear textsFilled.info [0] [.string (CppText.str "xyz")] := by
    rw [textsFilled_info]
    intro w hw m c hc hm
    obtain rfl : w = (1, CppText.str "xyz") := List.mem_singleton.mp hw
    have hm' : m = 1 := by
      have := (List.getElem?_eq_some_iff.mp hc).1
      change m < 2 at this
      simp only [List.mem_singleton] at hm
      omega
    subst hm'
    cases hc
    exact .inl (by decide)
  have hrun := textsSet_run "xyz" (by decide +kernel)
  rw [← textsFilled_info] at hrun
  exact (update_keeps_columns textsFilled_mapped
    (by rw [textsFilled_info]; exact textsInfo_regular.filled)
    (by rw [textsFilled_info]; rfl) (by rw [textsFilled_info]; rfl)).mpr (fun _ => hclear)
    _ _ _ _ hrun 1 _ (by rw [textsFilled_info]; rfl) (by decide)

example : (finalState (textsSetDone "wxyz")).table.peek (Tabble.readColumn 0 ⟨CppText.str "b", 4, .string, 3⟩) =
    .ok (.string (CppText.str "zef")) := by
  decide +kernel

/-- The fourth letter of `wxyz` lands in `b`, which turns from `def` to `zef`. -/
theorem update_spills : ¬ ∀ (os : Os) (schema : TabbleInfo) (cols vals : List Text) (t : Tabble)
    (query : UpdateQuery) (i : Nat) (t' : Tabble), schema.Regular →
    SetRun os schema cols vals t query i t' → ∀ (m : Nat) c, schema.columns[m]? = some c →
      m ∉ query.columnsOptimized →
      t'.peek (Tabble.readColumn i c) = t.peek (Tabble.readColumn i c) := by
  intro h
  have hrun := textsSet_run "wxyz" (by decide +kernel)
  have hsame := h _ _ _ _ _ _ _ _ textsInfo_regular hrun 1 _ rfl (by decide)
  exact absurd hsame (by decide +kernel)

/-- `xyz` fills `a`, so that nothing of the old text is left. -/
theorem update_stores_inserted_sample :
    (finalState (textsSetDone "xyz")).table.peek (Tabble.readColumn 0 ⟨CppText.str "a", 1, .string, 3⟩) =
      .ok (.string (CppText.str "xyz")) := by
  have hfaithful : Faithful textsFilled.info [0] [CppText.str "xyz"] [.string (CppText.str "xyz")] := by
    rw [textsFilled_info]
    intro j m c raw hj _ hc hraw
    have hj' : j = 0 := by
      have := (List.getElem?_eq_some_iff.mp hj).1
      change j < 1 at this
      omega
    subst hj'
    cases hj
    cases hc
    cases hraw
    exact ⟨by decide +kernel, .inl (by decide)⟩
  have hrun := textsSet_run "xyz" (by decide +kernel)
  rw [← textsFilled_info] at hrun
  exact (update_stores_inserted textsFilled_mapped
    (by rw [textsFilled_info]; exact textsInfo_regular.filled)
    (by rw [textsFilled_info]; rfl) (by rw [textsFilled_info]; rfl)).mpr (fun _ => hfaithful)
    _ _ _ _ hrun 0 0 _ _ rfl rfl (by rw [textsFilled_info]; rfl) rfl

/-- `x` is put over `abc`, which reads as `xbc` then. -/
theorem update_keeps_the_rest : ¬ ∀ (os : Os) (schema : TabbleInfo) (cols vals : List Text)
    (t : Tabble) (query : UpdateQuery) (i : Nat) (t' : Tabble), schema.Regular →
    SetRun os schema cols vals t query i t' → ∀ (j : Nat) m c raw,
      query.columnsOptimized[j]? = some m → query.columnsOptimized.count m = 1 →
      schema.columns[m]? = some c → vals[j]? = some raw →
      t'.peek (Tabble.readColumn i c) = c.inserted raw := by
  intro h
  have hrun := textsSet_run "x" (by decide +kernel)
  have hsame := h _ _ _ _ _ _ _ _ textsInfo_regular hrun 0 0 _ _ rfl rfl rfl rfl
  exact absurd hsame (by decide +kernel)

end SQLid
