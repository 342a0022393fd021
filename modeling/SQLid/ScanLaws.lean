import SQLid.Requests

/-!
# Scans

Each statement acts on the lines its conditions pick, in order, as many as it may;
what it does to one line does not change what it makes of the next ones. A scan that
leaves the file faults there, and conditions that do not evaluate fault on the first
active line.
-/
namespace SQLid
open Bytes (Text)
open Programs

namespace Tabble

theorem rowSatisfiesFrom_congr {cell cell' : Column → VariantTypes} {columns : List Column}
    (h : ∀ c ∈ columns, cell' c = cell c) (current : Bool) (logic : ConditionType)
    (conds : List Condition) :
    rowSatisfiesFrom cell' columns current logic conds =
      rowSatisfiesFrom cell columns current logic conds := by
  induction conds generalizing current logic with
  | nil => rfl
  | cons cond conds ih =>
    unfold rowSatisfiesFrom
    rw [ih]
    cases hcol : columns[cond.collumnId]? with
    | none => rfl
    | some column =>
        dsimp only
        rw [h column (List.mem_of_getElem? hcol)]
        simp only [ih]

/-- A line is selected by its own flag and cells. -/
theorem rowSelects_congr {t t' : Tabble} {i : Nat} (hinfo : t'.info = t.info)
    (hflag : t'.flag i = t.flag i) (hcell : ∀ c ∈ t.info.columns, t'.cell i c = t.cell i c)
    (conds : List Condition) : t'.rowSelects conds i = t.rowSelects conds i := by
  unfold rowSelects
  rw [hflag, hinfo, rowSatisfiesFrom_congr hcell]

theorem cell_congr {t t' : Tabble} {i : Nat} (hlay : t.info.Layout) (hinfo : t'.info = t.info)
    (hb : ∀ k, InLine t.info.lineLength i k → t'.byte k = t.byte k) :
    ∀ c ∈ t.info.columns, t'.cell i c = t.cell i c := by
  intro c hc
  have hin := hlay.column_inside hc
  unfold cell
  rw [hinfo, Bytes.slice_congr fun k hk hk' => hb k (inLine_of_column hin.1 hin.2 ⟨hk, hk'⟩)]

/-- Testing a line makes one call. -/
theorem run_isActive (i : Nat) (t : Tabble) : (onStorage (MemoryMap.isActive i)).run t =
    match t.peek (onStorage (MemoryMap.isActive i)) with
      | .ok b => .ok b (t.addLog [(Call.isActive i, t.storage.core)])
      | .error e => .error e (t.addLog [(Call.isActive i, t.storage.core)]) := by
  have hrun : (MemoryMap.isActive i).run t.storage =
      (Programs.ofExcept ((t.storage.core.readNumber i 0 1).map boolOfBytes)).run
        (t.storage.logged (.isActive i)) := by
    unfold MemoryMap.isActive
    rw [run_bind_ok (MemoryMap.run_record _ _), run_bind_ok (EStateM.run_get _)]
    change (Programs.ofExcept (t.storage.core.readNumber i 0 1) >>= _ : EStateM Fault MemoryMap Bool).run _ = _
    cases t.storage.core.readNumber i 0 1 <;> rfl
  cases hread : (t.storage.core.readNumber i 0 1).map boolOfBytes with
  | ok b =>
      rw [hread] at hrun
      rw [peek_of_ok (run_onStorage_ok hrun), run_onStorage_ok hrun]
      rfl
  | error e =>
      rw [hread] at hrun
      rw [peek_of_error (run_onStorage_error hrun), run_onStorage_error hrun]
      rfl

/-- The line is active and satisfies the conditions. -/
def meets (t : Tabble) (conds : List Condition) (line : Nat) : Bool :=
  t.active line && match t.rowSelects conds line with
    | .ok b => b
    | .error _ => false

theorem meets_iff {t : Tabble} {conds : List Condition} {line : Nat} :
    t.meets conds line = true ↔ t.active line = true ∧ t.rowSelects conds line = .ok true := by
  unfold meets
  rw [Bool.and_eq_true]
  refine and_congr_right fun _ => ?_
  cases t.rowSelects conds line with
  | ok b => simp
  | error e => simp

theorem meets_past {t : Tabble} {conds : List Condition} {line : Nat} (h : t.maxLines ≤ line) :
    t.meets conds line = false := by
  have hnot : ¬ line < t.maxLines := Nat.not_lt.mpr h
  simp [meets, active, hnot]

/-- What is selected in the file is active. -/
theorem meets_of_lt {t : Tabble} {conds : List Condition} {line : Nat} (hi : line < t.maxLines) :
    t.meets conds line = true ↔ t.rowSelects conds line = .ok true := by
  rw [meets_iff, and_iff_right_of_imp fun hs => ?_]
  rw [active_of_lt hi]
  unfold rowSelects at hs
  by_contra hflag
  rw [if_neg hflag] at hs
  cases hs

theorem meets_of_ok {t : Tabble} {conds : List Condition} {line : Nat} (hi : line < t.maxLines)
    {b : Bool} (h : t.rowSelects conds line = .ok b) : t.meets conds line = b := by
  rw [Bool.eq_iff_iff, meets_of_lt hi, h, Except.ok.injEq]

end Tabble

/-! Conditions the optimizer makes evaluate on every row or on none. -/

/-- Both evaluate, or both fault alike. -/
def Alike (x y : Except Fault Bool) : Prop :=
  (∃ a b, x = .ok a ∧ y = .ok b) ∨ ∃ e, x = .error e ∧ y = .error e

theorem VariantTypes.getBool_alike {v w : VariantTypes} {type : ColumnType}
    (hv : v.hasType type = true) (hw : w.hasType type = true) : Alike v.getBool w.getBool := by
  cases v with
  | bool a =>
      cases type <;> cases hv
      cases w <;> cases hw
      exact .inl ⟨_, _, rfl, rfl⟩
  | int32 | int64 | double | float | string =>
      refine .inr ⟨.badVariantAccess, rfl, ?_⟩
      cases type <;> cases hv <;> cases w <;> first | rfl | cases hw

namespace Condition

/-- A connective, an index condition, or a comparison with a value of the type of its column. -/
def Typed (columns : List Column) (c : Condition) : Prop :=
  c.collumnId = sizeMax ∨
    (c.condType = .directIndex ∨ c.condType = .toIndex ∨ c.condType = .fromIndex) ∨
    ∀ column, columns[c.collumnId]? = some column → c.desired.hasType column.type = true

theorem result_alike {c : Condition} {v w : VariantTypes} {type : ColumnType}
    (h : (c.condType = .directIndex ∨ c.condType = .toIndex ∨ c.condType = .fromIndex) ∨
      c.desired.hasType type = true)
    (hv : v.hasType type = true) (hw : w.hasType type = true) : Alike (c.result v) (c.result w) := by
  rcases h with hindex | hdesired
  · refine .inr ⟨.undefined, ?_, ?_⟩ <;> unfold result <;>
      rcases hindex with h | h | h <;> rw [h]
  · have hbool : ∀ x : VariantTypes, x.hasType type = true → Alike x.getBool c.desired.getBool :=
      fun x hx => VariantTypes.getBool_alike hx hdesired
    unfold result
    cases c.condType with
    | equal | notEqual | greater | less => exact .inl ⟨_, _, rfl, rfl⟩
    | logicalAnd | logicalOr | directIndex | toIndex | fromIndex => exact .inr ⟨_, rfl, rfl⟩
    | and | or =>
        rcases hbool v hv with ⟨a, d, ha, hd⟩ | ⟨e, ha, hd⟩
        · obtain ⟨b, -, hb, -⟩ | ⟨e, -, hd'⟩ := hbool w hw
          · refine .inl ?_
            dsimp only
            rw [ha, hb, hd]
            cases a <;> cases b <;> exact ⟨_, _, rfl, rfl⟩
          · rw [hd] at hd'
            cases hd'
        · obtain ⟨b, d, hb, hd'⟩ | ⟨e', hb, hd'⟩ := hbool w hw
          · rw [hd] at hd'
            cases hd'
          · rw [hd] at hd'
            cases hd'
            refine .inr ⟨e, ?_, ?_⟩
            · dsimp only
              rw [ha]
              rfl
            · dsimp only
              rw [hb]
              rfl

end Condition

namespace Tabble

theorem rowSatisfiesFrom_alike {cell cell' : Column → VariantTypes} {columns : List Column}
    (hcell : ∀ c ∈ columns, (cell c).hasType c.type = true)
    (hcell' : ∀ c ∈ columns, (cell' c).hasType c.type = true) {conds : List Condition}
    (h : ∀ c ∈ conds, c.Typed columns) (current current' : Bool) (logic : ConditionType) :
    Alike (rowSatisfiesFrom cell columns current logic conds)
      (rowSatisfiesFrom cell' columns current' logic conds) := by
  induction conds generalizing current current' logic with
  | nil => exact .inl ⟨_, _, rfl, rfl⟩
  | cons cond conds ih =>
    have hrest := ih fun c hc => h c (List.mem_cons_of_mem cond hc)
    unfold rowSatisfiesFrom
    by_cases hmax : cond.collumnId = sizeMax
    · rw [if_pos hmax, if_pos hmax]
      exact hrest _ _ _
    · rw [if_neg hmax, if_neg hmax]
      cases hcol : columns[cond.collumnId]? with
      | none => exact .inr ⟨_, rfl, rfl⟩
      | some column =>
          have hmem := List.mem_of_getElem? hcol
          have htyped := ((h cond List.mem_cons_self).resolve_left hmax).imp_right fun hd =>
            hd column hcol
          rcases Condition.result_alike htyped (hcell column hmem) (hcell' column hmem) with
            ⟨a, b, ha, hb⟩ | ⟨e, ha, hb⟩
          · dsimp only
            rw [ha, hb]
            exact hrest _ _ _
          · refine .inr ⟨e, ?_, ?_⟩
            · dsimp only
              rw [ha]
              rfl
            · dsimp only
              rw [hb]
              rfl

theorem Mapped.cell_hasType {t : Tabble} (h : t.Mapped) (hfill : ∀ c ∈ t.info.columns, 0 < c.size)
    (i : Nat) : ∀ c ∈ t.info.columns, (t.cell i c).hasType c.type = true := fun c hc =>
  cellOfBytes_hasType _ (column_type h.layout hc (hfill c hc)).1

/-- The conditions evaluate on every line, or no line meets them. -/
theorem Mapped.meets_or {t : Tabble} (h : t.Mapped) (hfill : ∀ c ∈ t.info.columns, 0 < c.size)
    {conds : List Condition} (htyped : ∀ c ∈ conds, c.Typed t.info.columns) :
    (∀ i < t.maxLines, t.rowSelects conds i = .ok (t.meets conds i)) ∨ ∀ i, t.meets conds i = false := by
  by_cases hall : ∀ i < t.maxLines, ∃ b, t.rowSelects conds i = .ok b
  · refine .inl fun i hi => ?_
    obtain ⟨b, hb⟩ := hall i hi
    rw [hb, meets_of_ok hi hb]
  · refine .inr fun j => ?_
    by_contra hj
    rw [Bool.not_eq_false, meets_iff] at hj
    obtain ⟨hactive, hsel⟩ := hj
    apply hall
    intro i hi
    have hcells := h.cell_hasType hfill
    unfold rowSelects at hsel ⊢
    rw [if_pos (active_iff.mp hactive).2] at hsel
    by_cases hflag : t.flag i = true
    · rw [if_pos hflag]
      by_cases hnone : conds = []
      · rw [if_pos hnone]
        exact ⟨true, rfl⟩
      · rw [if_neg hnone] at hsel ⊢
        rcases rowSatisfiesFrom_alike (hcells i) (hcells j) htyped false false .logicalOr with
          ⟨a, b, ha, -⟩ | ⟨e, -, he⟩
        · exact ⟨a, ha⟩
        · rw [hsel] at he
          cases he
    · rw [if_neg hflag]
      exact ⟨false, rfl⟩

/-! What a statement has made of the table so far. -/

/-- The same table but for the flags of the lines erased so far. -/
structure Erasing (t : Tabble) (done : List Nat) (t' : Tabble) : Prop where
  sound : t'.Sound
  info : t'.info = t.info
  maxLines : t'.maxLines = t.maxLines
  active : ∀ i, t'.active i = (t.active i && !decide (i ∈ done))
  bytes : ∀ j k, InLine t.info.lineLength j k → t'.byte k = t.byte k
  history : t'.history = t.history ++ done.map RowOp.erase
  log : LogsInside t t'

/-- The same table but for the values stored in the lines updated so far. -/
structure Rewritten (values : List VariantTypes) (columns : List Column) (t : Tabble)
    (done : List Nat) (t' : Tabble) : Prop where
  touches : Touches (fun k => ∃ i ∈ done, InLine t.info.lineLength i k)
    (t.withHistory (t.history ++ done.map RowOp.update)) t'
  stored : ∀ i ∈ done, ∀ k, InLine t.info.lineLength i k →
    t'.byte k = storeValues t.byte (i * t.info.lineLength) values 0 columns k

/-- What a scan has to know of the table its statement leaves. -/
structure Follows (t : Tabble) (conds : List Condition) (R : List Nat → Tabble → Prop) : Prop where
  mapped : ∀ {done t'}, R done t' → t'.Mapped
  info : ∀ {done t'}, R done t' → t'.info = t.info
  maxLines : ∀ {done t'}, R done t' → t'.maxLines = t.maxLines
  rowSelects : ∀ {done t' i}, R done t' → i < t.maxLines → i ∉ done →
    t'.rowSelects conds i = t.rowSelects conds i
  quiet : ∀ {done t' t''}, R done t' → Quiet t' t'' → R done t''

theorem flag_of_active {t t' : Tabble} {i : Nat} (hm : t'.maxLines = t.maxLines) (hi : i < t.maxLines)
    (ha : t'.active i = t.active i) : t'.flag i = t.flag i := by
  rwa [active_of_lt (by omega), active_of_lt hi] at ha

theorem Quiet.touches {P : Nat → Prop} {t t' : Tabble} (h : Quiet t t') : Touches P t t' := by
  have hlog := h.logsInside
  obtain ⟨l, rfl, -⟩ := h
  exact ⟨rfl, rfl, rfl, rfl, rfl, rfl, ⟨t.byte, rfl, fun _ _ => rfl⟩, hlog⟩

theorem Touches.withHistory {P : Nat → Prop} {t t' : Tabble} (h : Touches P t t') (l : List RowOp) :
    Touches P (t.withHistory l) (t'.withHistory l) :=
  ⟨h.info, h.stack, h.freeId, h.places, rfl, h.expanding, h.core, h.log⟩

theorem Mapped.withHistory {t : Tabble} (h : t.Mapped) (l : List RowOp) : (t.withHistory l).Mapped :=
  ⟨h.layout, h.lineLength, h.live, h.idle⟩

theorem storeValues_congr {f g : Nat → UInt8} {a : Nat} (h : f a = g a) (base : Nat)
    (values : List VariantTypes) (k : Nat) (columns : List Column) :
    storeValues f base values k columns a = storeValues g base values k columns a := by
  induction columns generalizing f g k with
  | nil => exact h
  | cons c columns ih =>
    apply ih
    unfold Bytes.blit
    rw [h]

section Erasing
variable {t t' t'' : Tabble} {done : List Nat} {i : Nat}

theorem Erasing.refl (h : t.Sound) : Erasing t [] t :=
  ⟨h, rfl, rfl, by simp, fun _ _ _ => rfl, by simp, .refl t⟩

theorem Erasing.quiet (h : Erasing t done t') (hq : Quiet t' t'') : Erasing t done t'' := by
  have hlog := hq.logsInside
  obtain ⟨l, rfl, -⟩ := hq
  exact ⟨h.sound.addLog l, h.info, h.maxLines, h.active, h.bytes, h.history, h.log.trans hlog⟩

theorem Erasing.erase (h : Erasing t done t') (hi : t.active i = true) (hnew : i ∉ done) :
    ∃ t'', (Tabble.erase i).run t' = .ok i t'' ∧ Erasing t (done ++ [i]) t'' := by
  have hact : t'.active i = true := by simp [h.active, hi, hnew]
  obtain ⟨t'', hrun, e⟩ := h.sound.erase_ok hact
  refine ⟨t'', hrun, e.sound, e.info.trans h.info, e.maxLines.trans h.maxLines, fun j => ?_,
    fun j k hk => ?_, ?_, h.log.trans e.log⟩
  · rw [e.active]
    by_cases hj : j = i
    · subst hj
      simp
    · rw [Function.update_of_ne hj, h.active]
      simp [hj]
  · rw [e.bytes j k (by rwa [h.info]), h.bytes j k hk]
  · rw [e.history, h.history, List.map_append, List.append_assoc]
    rfl

theorem erasing_follows (t : Tabble) (conds : List Condition) : Follows t conds (Erasing t) where
  mapped h := h.sound.toMapped
  info h := h.info
  maxLines h := h.maxLines
  rowSelects := by
    intro done t' i h hi hnew
    have hlay : t.info.Layout := h.info ▸ h.sound.layout
    apply rowSelects_congr h.info _ (cell_congr hlay h.info (h.bytes i)) conds
    apply flag_of_active h.maxLines hi
    simp [h.active, hnew]
  quiet h hq := h.quiet hq

end Erasing

section Rewritten
variable {values : List VariantTypes} {columns : List Column} {t t' t'' : Tabble}
  {done : List Nat} {i : Nat}

theorem Rewritten.refl (values : List VariantTypes) (columns : List Column) (t : Tabble) :
    Rewritten values columns t [] t := by
  refine ⟨?_, List.forall_mem_nil _⟩
  rw [List.map_nil, List.append_nil]
  exact .refl _ t

theorem Rewritten.quiet (h : Rewritten values columns t done t') (hq : Quiet t' t'') :
    Rewritten values columns t done t'' := by
  refine ⟨h.touches.trans hq.touches, fun i hi k hk => ?_⟩
  rw [← h.stored i hi k hk]
  exact (hq.touches (P := fun _ => False)).byte not_false

theorem Rewritten.mapped (h : Rewritten values columns t done t') (ht : t.Mapped) : t'.Mapped :=
  h.touches.mapped (ht.withHistory _)

theorem Rewritten.info (h : Rewritten values columns t done t') : t'.info = t.info := h.touches.info

theorem Rewritten.maxLines (h : Rewritten values columns t done t') : t'.maxLines = t.maxLines :=
  h.touches.maxLines

theorem Rewritten.history (h : Rewritten values columns t done t') :
    t'.history = t.history ++ done.map RowOp.update := h.touches.history

theorem Rewritten.byte (h : Rewritten values columns t done t') (hnew : i ∉ done) {k : Nat}
    (hk : InLine t.info.lineLength i k) : t'.byte k = t.byte k := by
  apply h.touches.byte
  rintro ⟨j, hj, hin⟩
  have hji : j ≠ i := by
    rintro rfl
    exact hnew hj
  exact not_inLine_of_ne hji hin hk

theorem Rewritten.flag (h : Rewritten values columns t done t') (ht : t.Mapped) (i : Nat) :
    t'.flag i = t.flag i := by
  apply h.touches.flag
  rintro ⟨j, -, hin⟩
  have hline : (t.withHistory (t.history ++ done.map RowOp.update)).storage.core.lineLength =
    t.info.lineLength := ht.lineLength
  rw [hline] at hin
  exact not_inLine_flag _ _ _ hin

/-- Another line is updated, up to the first value that does not fit. -/
theorem Rewritten.update (h : Rewritten values columns t done t') (ht : t.Mapped) (os : Os)
    (hi : t.active i = true) (hnew : i ∉ done) {picked : List Column}
    (hc : ∀ c ∈ picked, c ∈ t.info.columns) (hlen : picked.length ≤ values.length)
    (hwritten : writtenColumns t.info.lineLength values 0 picked = columns) :
    ∃ t'', Rewritten values columns t (done ++ [i]) t'' ∧
      ((columns = picked ∧ (Tabble.update os values picked i 0).run t' = .ok () t'') ∨
        (columns ≠ picked ∧ ∃ v, (Tabble.update os values picked i 0).run t' =
          .error (.runtimeError (tooLong v)) t'')) := by
  have hlt : i < t'.maxLines := by
    rw [h.maxLines]
    exact (active_iff.mp hi).1
  obtain ⟨t'', htouch, hbyte, hcases⟩ :=
    ((h.mapped ht).withHistory (t'.history ++ [.update i])).updateFrom_written os hlt values 0
      (fun c hcm => h.info ▸ hc c hcm) (by omega)
  have hinfo : (t'.withHistory (t'.history ++ [.update i])).info = t.info := h.info
  rw [hinfo, hwritten] at hbyte hcases
  rw [hinfo] at htouch
  refine ⟨t'', ⟨?_, fun j hj k hk => ?_⟩, by rwa [run_update]⟩
  · have hfirst := h.touches.withHistory (t'.history ++ [.update i])
    rw [h.history, List.append_assoc] at hfirst htouch
    rw [List.map_append]
    apply (hfirst.mono _).trans (htouch.mono _)
    · rintro k ⟨j, hj, hin⟩
      exact ⟨j, List.mem_append_left _ hj, hin⟩
    · intro k hin
      exact ⟨i, List.mem_append_right _ List.mem_cons_self, hin⟩
  · by_cases hji : j = i
    · subst hji
      have hsame : t'.byte k = t.byte k := h.byte hnew hk
      rw [hbyte]
      exact storeValues_congr hsame _ _ _ _
    · have hdone : j ∈ done := by
        rcases List.mem_append.mp hj with hj | hj
        · exact hj
        · exact absurd (List.mem_singleton.mp hj) hji
      rw [← h.stored j hdone k hk]
      exact htouch.byte (not_inLine_of_ne hji hk)

theorem rewritten_follows (ht : t.Mapped) (values : List VariantTypes) (columns : List Column)
    (conds : List Condition) : Follows t conds (Rewritten values columns t) where
  mapped h := h.mapped ht
  info h := h.info
  maxLines h := h.maxLines
  rowSelects := by
    intro done t' i h hi hnew
    exact rowSelects_congr h.info (h.flag ht i)
      (cell_congr ht.layout h.info fun k hk => h.byte hnew hk) conds
  quiet h hq := h.quiet hq

end Rewritten
end Tabble

namespace Executor
open Tabble (Quiet Erasing Rewritten Follows LogOnly)

/-- Work on the table leaves the answer alone. -/
theorem triple_onTable_result {α : Type} {x : EStateM Fault Tabble α} {P : Tabble → Prop}
    {Q : α → Tabble → Prop} {E : Fault → Tabble → Prop} (h : Triple P x Q E) (r : Result) :
    Triple (fun s => P s.table ∧ s.result = r) (onTable x) (fun a s => Q a s.table ∧ s.result = r)
      (fun e s => E e s.table) := by
  refine triple_zoom fun s hs => ?_
  exact (h s.table hs.1).mono (fun _ _ hq => ⟨hq, hs.2⟩) fun _ _ he => he

/-- The rows found so far, behind the answer there was. -/
def withRows (r : Result) (rows : List (List VariantTypes)) : Result := { r with body := rows }

theorem triple_pushRow {P : Tabble → Prop} {E : Fault → Execution → Prop} (r : Result)
    (rows : List (List VariantTypes)) (row : List VariantTypes) :
    Triple (fun s => P s.table ∧ s.result = withRows r rows) (pushRow row)
      (fun _ s => P s.table ∧ s.result = withRows r (rows ++ [row])) E :=
  triple_modify fun s hs => ⟨hs.1, by rw [hs.2]; rfl⟩

/-- The lines of the file a scan over this window acts on. -/
def scannedLines (t : Tabble) (conds : List Condition) (count start n : Nat) : List Nat :=
  Scan.picked (t.meets conds) start (min n (t.maxLines - start)) count

/-- Behind the end of the file there is nothing to pick. -/
theorem scannedLines_eq (t : Tabble) (conds : List Condition) (count start n : Nat) :
    scannedLines t conds count start n = Scan.picked (t.meets conds) start n count := by
  unfold scannedLines
  apply Scan.picked_trim (Nat.min_le_left _ _)
  intro i hi hlt
  apply Tabble.meets_past
  omega

section
variable {t : Tabble} {conds : List Condition} {count start n : Nat}
  {R : List Nat → Tabble → Prop} {row : Nat → List VariantTypes} {r : Result}
  {act : Nat → EStateM Fault Execution Unit} {E : Fault → Execution → Prop}

/-- The state of a scan that has acted on these lines. -/
def Scanned (R : List Nat → Tabble → Prop) (row : Nat → List VariantTypes) (r : Result)
    (done : List Nat) (s : Execution) : Prop :=
  R done s.table ∧ s.result = withRows r (done.map row)

/-- A read of a scan up to `stop` can fault: it leaves the file, or the conditions do not
evaluate on a line. -/
def Astray (t : Tabble) (conds : List Condition) (stop : Nat) : Prop :=
  t.maxLines < stop ∨ ∃ i < t.maxLines, ∀ b, t.rowSelects conds i ≠ .ok b

/-- The line is in the file, and the conditions evaluate on it. -/
def Legible (t : Tabble) (conds : List Condition) (i : Nat) : Prop :=
  i < t.maxLines ∧ t.rowSelects conds i = .ok (t.meets conds i)

/-- A scan has faulted at the test of line `j`, which was logged, behind the lines it has
acted on. -/
def Stalled (t : Tabble) (R : List Nat → Tabble → Prop) (done : List Nat) (j : Nat) (s : Execution) :
    Prop :=
  ∃ t' l, R done t' ∧ s.table = t'.addLog l ∧ (j < t.maxLines → ∀ e ∈ l, CallInside e) ∧
    (Call.isActive j, t'.storage.core) ∈ l

/-- The test of a line logs its call, whatever comes of it. -/
theorem selects_logs (conds : List Condition) (columns : List Column) (i : Nat) (t : Tabble) :
    ∃ l, (∀ e ∈ l, e.1.line = some i ∧ e.2 = t.storage.core) ∧ (Call.isActive i, t.storage.core) ∈ l ∧
      (selects conds columns i).run t = match t.peek (selects conds columns i) with
        | .ok b => .ok b (t.addLog l)
        | .error e => .error e (t.addLog l) := by
  have hfirst := Tabble.run_isActive i t
  have hone : ∀ e ∈ [(Call.isActive i, t.storage.core)], e.1.line = some i ∧ e.2 = t.storage.core := by
    simp [Call.line]
  have hrest (b : Bool) : Tabble.ReadsLine i (if b then
      if conds = [] then pure true else satisfiesConditions i conds columns else pure false) := by
    cases b with
    | false => exact Tabble.reads_pure _
    | true =>
        rw [if_pos rfl]
        split
        · exact Tabble.reads_pure _
        · exact reads_satisfiesFrom i columns _ _ _
  cases hpeek : t.peek (Tabble.onStorage (MemoryMap.isActive i)) with
  | error e =>
      rw [hpeek] at hfirst
      have hrun : (selects conds columns i).run t = _ := run_bind_error hfirst
      rw [Tabble.peek_of_error hrun]
      exact ⟨_, hone, List.mem_singleton_self _, hrun⟩
  | ok b =>
      rw [hpeek] at hfirst
      obtain ⟨l, hl, hrun⟩ := (hrest b).run (t.addLog [(Call.isActive i, t.storage.core)])
      have hboth : (selects conds columns i).run t = _ := (run_bind_ok hfirst).trans hrun
      refine ⟨l ++ [(Call.isActive i, t.storage.core)], ?_, by simp, ?_⟩
      · intro e he
        exact (List.mem_append.mp he).elim (hl e) (hone e)
      · have hlog : (t.addLog [(Call.isActive i, t.storage.core)]).addLog l =
            t.addLog (l ++ [(Call.isActive i, t.storage.core)]) := by
          unfold Tabble.addLog
          simp only [List.append_assoc]
        rw [hlog] at hboth
        generalize hrest' : (t.addLog [(Call.isActive i, t.storage.core)]).peek _ = answer at hboth
        cases answer with
        | ok b' => rw [hboth, Tabble.peek_of_ok hboth]
        | error e => rw [hboth, Tabble.peek_of_error hboth]

section rounds

/-- A scan of the lines that can be read goes on as `meets` says. -/
theorem scan_rounds (hfill : ∀ c ∈ t.info.columns, 0 < c.size) (hR : Follows t conds R)
    (hact : ∀ i, start ≤ i → i < t.maxLines → i < start + n → t.meets conds i = true →
      (Scan.passed (t.meets conds) start i).length < count →
      Triple (Scanned R row r (Scan.passed (t.meets conds) start i)) (act i)
        (fun _ => Scanned R row r (Scan.passed (t.meets conds) start i ++ [i])) E) :
    Scan.Rounds (fun s : Execution => s.result.body.length) count
      (fun line => onTable (selects conds t.info.columns line)) act (Legible t conds) (t.meets conds)
      (Scanned R row r) E start n := by
  refine ⟨?_, fun j hj hlt hgood => ?_, fun j hj hlt hgood hp hlen => hact j hj hgood.1 hlt hp hlen⟩
  · rintro done s ⟨-, hs⟩
    rw [hs]
    simp [withRows]
  · have hnew : j ∉ Scan.passed (t.meets conds) start j := by
      rw [Scan.mem_passed hj]
      rintro ⟨⟨-, hself⟩, -⟩
      exact Nat.lt_irrefl j hself
    refine triple_zoom fun s hs => ?_
    obtain ⟨hs, hr⟩ := hs
    have hline : j < s.table.maxLines := by
      rw [hR.maxLines hs]
      exact hgood.1
    have hpeek := (hR.mapped hs).peek_selects hline (by rwa [hR.info hs]) conds
    rw [hR.rowSelects hs hgood.1 hnew, hR.info hs, hgood.2] at hpeek
    obtain ⟨t', hrun, hq⟩ := (reads_selects conds t.info.columns j).quiet hline hpeek
    rw [hrun]
    exact .ok ⟨rfl, hR.quiet hs hq, hr⟩

/-- Where a scan from a line of the file on gets stuck, it faults. -/
theorem scan_stuck (hfill : ∀ c ∈ t.info.columns, 0 < c.size) (hR : Follows t conds R)
    (hrounds : Scan.Rounds (fun s : Execution => s.result.body.length) count
      (fun line => onTable (selects conds t.info.columns line)) act (Legible t conds) (t.meets conds)
      (Scanned R row r) E start n) (hstart : start ≤ t.maxLines) {m : Nat}
    (hstuck : Scan.Stuck (Legible t conds) (t.meets conds) count start n m) :
    Triple (Scanned R row r []) (scanLines conds t.info.columns count act n start) (fun _ _ => False)
      (fun e s => E e s ∨ Stalled t R (Scan.passed (t.meets conds) start (start + m)) (start + m) s) := by
  have hfault : Scan.Rounds (fun s : Execution => s.result.body.length) count
      (fun line => onTable (selects conds t.info.columns line)) act (Legible t conds) (t.meets conds)
      (Scanned R row r) (fun e s => E e s ∨
        Stalled t R (Scan.passed (t.meets conds) start (start + m)) (start + m) s) start n :=
    ⟨hrounds.size,
      fun j hj hlt hgood => (hrounds.sel j hj hlt hgood).conseq (fun _ h => h) (fun _ _ h => h) fun _ _ => .inl,
      fun j hj hlt hgood hp hlen => (hrounds.act j hj hlt hgood hp hlen).conseq (fun _ h => h)
        (fun _ _ h => h) fun _ _ => .inl⟩
  refine hfault.stuck hstuck fun d => ?_
  obtain ⟨-, -, hbad, hall⟩ := hstuck
  generalize hj : start + m = j at hbad hall ⊢
  have hle : j ≤ t.maxLines := by
    by_contra hgt
    have hlast := hall (j - 1) (by omega) (by omega)
    have hin := hlast.1
    omega
  have hnew : j ∉ Scan.passed (t.meets conds) start j := by
    rw [Scan.mem_passed (by omega)]
    rintro ⟨⟨-, hself⟩, -⟩
    exact Nat.lt_irrefl j hself
  rintro s ⟨hs, hr⟩
  have hmax := hR.maxLines hs
  have hinfo := hR.info hs
  have hmapped := hR.mapped hs
  obtain ⟨l, hl, hcall, hrun⟩ := selects_logs conds t.info.columns j s.table
  obtain ⟨e, herr⟩ : ∃ e, s.table.peek (selects conds t.info.columns j) = .error e := by
    rcases Nat.lt_or_eq_of_le hle with hlt | rfl
    · have hpeek := hmapped.peek_selects (hmax ▸ hlt) (by rwa [hinfo]) conds
      rw [hR.rowSelects hs hlt hnew, hinfo] at hpeek
      cases hb : t.rowSelects conds j with
      | ok b => exact absurd ⟨hlt, by rw [hb, Tabble.meets_of_ok hlt hb]⟩ hbad
      | error e => exact ⟨e, hpeek.trans hb⟩
    · have hend := peek_selects_end hmapped conds t.info.columns
      rw [hmax] at hend
      exact ⟨_, hend⟩
  rw [herr] at hrun
  have hzoom : (onTable (selects conds t.info.columns j)).run s =
      .error e { s with table := s.table.addLog l } := by
    unfold onTable
    rw [run_zoom, hrun]
  rw [run_bind_error hzoom]
  refine .error (.inr ⟨s.table, l, hs, rfl, fun hlt c hc => ?_, hcall⟩)
  obtain ⟨call, core⟩ := c
  obtain ⟨hline, hcore⟩ := hl _ hc
  dsimp only at hline hcore
  subst hcore
  apply callInside_line hline
  change j < s.table.maxLines
  rwa [hmax]

end rounds

/-- A scan of the table from a line of the file on: it ends well, or where the statement
fails on a line, or at a read that does, and then nothing but the log has changed since the
last line it acted on. -/
theorem scanLines_window (h : t.Mapped) (hfill : ∀ c ∈ t.info.columns, 0 < c.size)
    (htyped : ∀ c ∈ conds, c.Typed t.info.columns) (hR : Follows t conds R)
    (hstart : start ≤ t.maxLines)
    (hact : ∀ i, start ≤ i → i < t.maxLines → i < start + n → t.meets conds i = true →
      (Scan.passed (t.meets conds) start i).length < count →
      Triple (Scanned R row r (Scan.passed (t.meets conds) start i)) (act i)
        (fun _ => Scanned R row r (Scan.passed (t.meets conds) start i ++ [i])) E) :
    Triple (Scanned R row r []) (scanLines conds t.info.columns count act n start)
      (fun _ => Scanned R row r (scannedLines t conds count start n))
      (fun e s => E e s ∨ (Astray t conds (start + n) ∧
        ∃ t', R (scannedLines t conds count start n) t' ∧ LogOnly t' s.table)) := by
  have hlines := scannedLines_eq t conds count start n
  have hrounds := scan_rounds hfill hR hact
  rcases Scan.swept_or_stuck (Legible t conds) (t.meets conds) count start n with hswept | ⟨m, hstuck⟩
  · rw [hlines]
    exact (hrounds.swept hswept).conseq (fun _ hs => hs) (fun _ _ hs => hs) fun _ _ => .inl
  · apply (scan_stuck hfill hR hrounds hstart hstuck).conseq (fun _ hs => hs) (fun _ _ hs => hs.elim)
    rintro e s (he | ⟨t', l, hs, htable, -, -⟩)
    · exact .inl he
    · have hlog : LogOnly t' s.table := ⟨l, htable⟩
      obtain ⟨hm, hcount, hbad, -⟩ := hstuck
      rcases Nat.lt_or_ge (start + m) t.maxLines with hlt | hge
      · -- the conditions do not evaluate, so that no line has been acted on
        have herr : ∀ b, t.rowSelects conds (start + m) ≠ .ok b := by
          intro b hb
          exact hbad ⟨hlt, by rw [hb, Tabble.meets_of_ok hlt hb]⟩
        have hnever : ∀ i, t.meets conds i = false := by
          rcases h.meets_or hfill htyped with hall | hnever
          · exact absurd (hall _ hlt) (herr _)
          · exact hnever
        rw [Scan.passed_never hnever] at hs
        rw [hlines, Scan.picked_never hnever]
        exact .inr ⟨.inr ⟨_, hlt, herr⟩, t', hs, hlog⟩
      · rw [← Scan.picked_of_few hcount.le,
          Scan.picked_trim hm.le fun i hi _ => Tabble.meets_past (by omega), ← hlines] at hs
        exact .inr ⟨.inl (by omega), t', hs, hlog⟩

end
end Executor
end SQLid
