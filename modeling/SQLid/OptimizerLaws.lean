import SQLid.Optimizer
import SQLid.RowMap

/-!
# What the optimizer hands to the executor

The values of an accepted insert fill whole rows, and the column numbers of an
accepted query are columns of the schema.
-/
namespace SQLid
open Bytes (Text)

theorem Except_bind_ok {ε α β : Type} {x : Except ε α} {f : α → Except ε β} {b : β}
    (h : (x >>= f) = .ok b) : ∃ a, x = .ok a ∧ f a = .ok b := by
  cases x with
  | error e => cases h
  | ok a => exact ⟨a, rfl, h⟩

/-- Whole rows, each value fitting its column. -/
structure TabbleInfo.FullRows (info : TabbleInfo) (values : List VariantTypes) (rows : Nat) :
    Prop where
  length : values.length = rows * info.columns.length
  fits : ∀ r < rows, info.ValuesFit values (r * info.columns.length)
    (List.range info.columns.length)

namespace Optimizer

theorem orIncorrect_ok {α : Type} {message : Text} {x : Except Fault α} {a : α}
    (h : orIncorrect message x = .ok a) : x = .ok a := by
  cases x with
  | ok b => exact h
  | error e => cases h

theorem insertValues_cons {info : TabbleInfo} {column : Column} {columns : List Column} {raw : Text}
    {raws : List Text} {row : List VariantTypes}
    (h : insertValues info (column :: columns) (raw :: raws) = .ok row) :
    ∃ v rest, insertValue column raw = .ok v ∧ insertValues info columns raws = .ok rest ∧
      v :: rest = row := by
  obtain ⟨v, hv, h⟩ := Except_bind_ok h
  obtain ⟨rest, hrest, h⟩ := Except_bind_ok h
  cases h
  exact ⟨v, rest, hv, hrest, rfl⟩

section insertValue
variable {column : Column} {raw : Text} {v : VariantTypes} (h : insertValue column raw = .ok v)
include h

theorem insertValue_text (htype : column.type.isText = true) :
    v = .string (Bytes.resize raw column.size) := by
  unfold insertValue at h
  rw [if_pos htype] at h
  split_ifs at h
  cases h
  rfl

theorem insertValue_number (htype : column.type.isText = false) :
    parseValue raw column.type = .ok v := by
  unfold insertValue at h
  rwa [htype, if_neg Bool.false_ne_true] at h

/-- The value prepared for a column fits it. -/
theorem insertValue_fits : v.Fits column := by
  cases htype : column.type.isText with
  | true =>
      obtain rfl := insertValue_text h htype
      refine ⟨?_, fun _ => Bytes.length_resize raw column.size⟩
      cases hty : column.type <;> rw [hty] at htype <;> first | rfl | cases htype
  | false =>
      exact ⟨parseValue_hasType (insertValue_number h htype), fun hc => by rw [htype] at hc; cases hc⟩

end insertValue

theorem insertValues_fit {info : TabbleInfo} {columns : List Column} {raws : List Text}
    {row : List VariantTypes} (h : insertValues info columns raws = .ok row) :
    row.length = columns.length ∧
      ∀ (j : Nat) c, columns[j]? = some c → ∃ v : VariantTypes, row[j]? = some v ∧ v.Fits c := by
  induction columns generalizing raws row with
  | nil =>
      cases h
      exact ⟨rfl, fun j c hc => by simp at hc⟩
  | cons column columns ih =>
      cases raws with
      | nil => cases h
      | cons raw raws =>
          obtain ⟨v, rest, hv, hrest, rfl⟩ := insertValues_cons h
          obtain ⟨hlen, hfits⟩ := ih hrest
          refine ⟨by simp [hlen], fun j c hc => ?_⟩
          cases j with
          | succ j => exact hfits j c hc
          | zero =>
              cases hc
              exact ⟨v, rfl, insertValue_fits hv⟩

theorem insertRows_fullRows {info : TabbleInfo} {rows : Nat} {raws : List Text}
    {values : List VariantTypes} (h : insertRows info rows raws = .ok values) :
    info.FullRows values rows := by
  induction rows generalizing raws values with
  | zero =>
      cases h
      exact ⟨by simp, fun r hr => absurd hr (Nat.not_lt_zero r)⟩
  | succ n ih =>
      obtain ⟨row, hrow, h⟩ := Except_bind_ok h
      obtain ⟨rest, hrest, h⟩ := Except_bind_ok h
      cases h
      obtain ⟨hlen, hfits⟩ := insertValues_fit hrow
      have hih := ih hrest
      refine ⟨by rw [List.length_append, hlen, hih.length, Nat.succ_mul, Nat.add_comm],
        fun r hr j id hj => ?_⟩
      obtain ⟨hid, rfl⟩ := List.getElem?_eq_some_iff.mp hj
      rw [List.length_range] at hid
      rw [List.getElem_range]
      have hcol := List.getElem?_eq_getElem hid
      cases r with
      | zero =>
          obtain ⟨v, hv, hfit⟩ := hfits j _ hcol
          refine ⟨_, v, hcol, ?_, hfit⟩
          rw [Nat.zero_mul, Nat.zero_add, List.getElem?_append_left (by omega)]
          exact hv
      | succ r =>
          obtain ⟨c, v, hc, hv, hfit⟩ := hih.fits r (by omega) j j (by rw [List.getElem?_range hid])
          refine ⟨c, v, hc, ?_, hfit⟩
          rw [Nat.succ_mul, List.getElem?_append_right (by omega), ← hv]
          congr 1
          omega

theorem optimizeInsertValues_fullRows {info : TabbleInfo} {raws : List Text}
    {values : List VariantTypes} (h : optimizeInsertValues info raws = .ok values) :
    ∃ rows, info.FullRows values rows := by
  unfold optimizeInsertValues at h
  split at h
  · cases h
  · split at h
    · cases h
    · exact ⟨_, insertRows_fullRows (orIncorrect_ok h)⟩

theorem optimizeConditions_connective {info : TabbleInfo} {w : Text} (h : isConnective w = true)
    (ws : List Text) (conditions : List Condition) :
    optimizeConditions info (w :: ws) conditions =
      optimizeConditions info ws (conditions ++ [connective w]) := by
  conv => lhs; unfold optimizeConditions
  rw [if_pos h]

theorem optimizeConditions_term {info : TabbleInfo} {w : Text} (h : isConnective w = false)
    (oper valueStr : Text) (ws : List Text) (conditions : List Condition) :
    optimizeConditions info (w :: oper :: valueStr :: ws) conditions =
      optimizeTerm info w oper valueStr conditions >>= optimizeConditions info ws := by
  conv => lhs; unfold optimizeConditions
  rw [if_neg (by rw [h]; exact Bool.false_ne_true)]

theorem optimizeColumns_lt {info : TabbleInfo} (hlay : info.Layout) {cols : List Text}
    {ids : List Nat} (h : optimizeColumns info cols = .ok ids) :
    ∀ id ∈ ids, id < info.columns.length := by
  induction cols generalizing ids with
  | nil =>
      cases h
      exact List.forall_mem_nil _
  | cons col cols ih =>
      unfold optimizeColumns at h
      split at h
      · cases h
        exact fun id hid => List.mem_range.mp hid
      · split at h
        · cases h
        · rename_i id hid
          obtain ⟨rest, hrest, h⟩ := Except_bind_ok h
          cases h
          exact List.forall_mem_cons.mpr ⟨hlay.lookup_lt hid, ih hrest⟩

theorem optimizeSelect_ok_iff {info : TabbleInfo} {r q : SelectQuery} : optimizeSelect info r = .ok q ↔
    ∃ conditions ids keys, optimizeConditions info r.rawConditions [] = .ok conditions ∧
      optimizeColumns info r.columnsRaw = .ok ids ∧
        optimizeOrdering info r.columnsRaw r.oderColumnsRaw = .ok keys ∧
          q = { r with conditions, columnsOptimized := ids, orderColumnsOptimized := keys } := by
  constructor
  · intro h
    obtain ⟨conditions, hconditions, h⟩ := Except_bind_ok h
    obtain ⟨ids, hids, h⟩ := Except_bind_ok h
    obtain ⟨keys, hkeys, h⟩ := Except_bind_ok h
    cases h
    exact ⟨conditions, ids, keys, hconditions, hids, hkeys, rfl⟩
  · rintro ⟨conditions, ids, keys, hconditions, hids, hkeys, rfl⟩
    unfold optimizeSelect
    rw [hconditions, hids, hkeys]
    rfl

theorem optimizeDelete_ok_iff {info : TabbleInfo} {r q : DeleteQuery} : optimizeDelete info r = .ok q ↔
    ∃ conditions, optimizeConditions info r.rawConditions [] = .ok conditions ∧ q = { r with conditions } := by
  constructor
  · intro h
    obtain ⟨conditions, hconditions, h⟩ := Except_bind_ok h
    cases h
    exact ⟨conditions, hconditions, rfl⟩
  · rintro ⟨conditions, hconditions, rfl⟩
    unfold optimizeDelete
    rw [hconditions]
    rfl

theorem optimizeUpdate_ok_iff {info : TabbleInfo} {r q : UpdateQuery} : optimizeUpdate info r = .ok q ↔
    ∃ ids conditions values, optimizeColumns info r.columnsRaw = .ok ids ∧
      optimizeConditions info r.rawConditions [] = .ok conditions ∧
        optimizeUpdateValues info ids r.rawValues = .ok values ∧
          q = { r with columnsOptimized := ids, conditions, values } := by
  constructor
  · intro h
    obtain ⟨ids, hids, h⟩ := Except_bind_ok h
    obtain ⟨conditions, hconditions, h⟩ := Except_bind_ok h
    obtain ⟨values, hvalues, h⟩ := Except_bind_ok h
    cases h
    exact ⟨ids, conditions, values, hids, hconditions, hvalues, rfl⟩
  · rintro ⟨ids, conditions, values, hids, hconditions, hvalues, rfl⟩
    unfold optimizeUpdate
    rw [hids, hconditions]
    change (optimizeUpdateValues info ids r.rawValues >>= _) = _
    rw [hvalues]
    rfl

/-- Every statement is optimized as what it is. -/
theorem optimize_cases {info : TabbleInfo} {raw query : QueryVariant}
    (h : optimize info raw = .ok query) :
    (∃ r q, raw = .select r ∧ query = .select q ∧ optimizeSelect info r = .ok q) ∨
      (∃ r q, raw = .insert r ∧ query = .insert q ∧ optimizeInsert info r = .ok q) ∨
      (∃ r q, raw = .erase r ∧ query = .erase q ∧ optimizeDelete info r = .ok q) ∨
      ∃ r q, raw = .update r ∧ query = .update q ∧ optimizeUpdate info r = .ok q := by
  cases raw with
  | select r =>
      obtain ⟨q, hq, rfl⟩ := Except_map_ok h
      exact .inl ⟨r, q, rfl, rfl, hq⟩
  | insert r =>
      obtain ⟨q, hq, rfl⟩ := Except_map_ok h
      exact .inr (.inl ⟨r, q, rfl, rfl, hq⟩)
  | erase r =>
      obtain ⟨q, hq, rfl⟩ := Except_map_ok h
      exact .inr (.inr (.inl ⟨r, q, rfl, rfl, hq⟩))
  | update r =>
      obtain ⟨q, hq, rfl⟩ := Except_map_ok h
      exact .inr (.inr (.inr ⟨r, q, rfl, rfl, hq⟩))

end Optimizer
end SQLid
