import SQLid.Variants
import Mathlib.Data.List.Basic

/-!
# Table schemas

The data of `InfoLoader.h`. `Layout` is what a schema written by `createTable`
and read back by `loadFile` satisfies as long as no sum of sizes wraps.
-/
namespace SQLid
open Bytes (Text)

structure Column where
  name : Text
  offset : Nat
  type : ColumnType
  size : Nat
  deriving DecidableEq, Repr

structure TabbleInfo where
  lineLength : Nat
  columnsNumber : Nat
  columns : List Column
  columnsMap : List (Text × Nat)
  deriving DecidableEq, Repr

/-- `unordered_map::insert` keeps the first entry of a key. -/
def insertNew (m : List (Text × Nat)) (k : Text) (v : Nat) : List (Text × Nat) :=
  if (m.lookup k).isSome then m else m ++ [(k, v)]

def columnsMapFrom : Nat → List Column → List (Text × Nat) → List (Text × Nat)
  | _, [], m => m
  | ind, c :: cs, m => columnsMapFrom (ind+1) cs (insertNew m c.name ind)

theorem lookup_insertNew (m : List (Text × Nat)) (k n : Text) (v : Nat) :
    (insertNew m k v).lookup n = (m.lookup n).or (if n = k then some v else none) := by
  unfold insertNew
  by_cases h : (m.lookup k).isSome
  · rw [if_pos h]
    by_cases hn : n = k
    · subst hn
      obtain ⟨w, hw⟩ := Option.isSome_iff_exists.mp h
      simp [hw]
    · simp [hn]
  · rw [if_neg h, List.lookup_append]
    by_cases hn : n = k
    · simp [hn]
    · have hk : (n == k) = false := by simpa using hn
      simp [hn, hk, List.lookup_cons]

/-- A name resolves to the first column that has it. -/
theorem lookup_columnsMapFrom (ind : Nat) (cs : List Column) (m : List (Text × Nat)) (n : Text) :
    (columnsMapFrom ind cs m).lookup n =
      (m.lookup n).or ((cs.findIdx? (·.name = n)).map (· + ind)) := by
  induction cs generalizing ind m with
  | nil => simp [columnsMapFrom]
  | cons c cs ih =>
    rw [columnsMapFrom, ih, lookup_insertNew, List.findIdx?_cons, Option.or_assoc]
    by_cases hn : c.name = n
    · simp [hn]
    · have hn' : n ≠ c.name := fun h => hn h.symm
      simp only [hn, hn', decide_false, if_false, Option.none_or, Bool.false_eq_true,
        Option.map_map]
      congr 2
      funext k
      simp only [Function.comp]
      omega

/-- Column `i` starts at the running sum of the sizes before it. -/
def OffsetsFrom : Nat → List Column → Prop
  | _, [] => True
  | o, c :: cs => c.offset = o ∧ OffsetsFrom (o + c.size) cs

def sizeSum (cs : List Column) : Nat := (cs.map Column.size).sum

@[simp] theorem sizeSum_cons (c : Column) (cs : List Column) :
    sizeSum (c :: cs) = c.size + sizeSum cs := by simp [sizeSum]

structure TabbleInfo.Layout (info : TabbleInfo) : Prop where
  columnsNumber : info.columnsNumber = info.columns.length
  columnsMap : info.columnsMap = columnsMapFrom 0 info.columns []
  offsets : OffsetsFrom 1 info.columns
  lineLength : info.lineLength = 1 + sizeSum info.columns
  sizes : ∀ c ∈ info.columns, c.type ≠ .string → c.size = typeSizes c.type

namespace TabbleInfo

/-- The columns with these numbers. -/
def pick (info : TabbleInfo) (ids : List Nat) : List Column := ids.filterMap (info.columns[·]?)

theorem pick_cons {info : TabbleInfo} {id : Nat} {c : Column} (h : info.columns[id]? = some c)
    (ids : List Nat) : info.pick (id :: ids) = c :: info.pick ids := by
  simp only [pick, List.filterMap_cons, h]

theorem pick_range (info : TabbleInfo) (n : Nat) :
    info.pick (List.range n) = info.columns.take n := by
  unfold pick
  induction n with
  | zero => rfl
  | succ n ih =>
    rw [List.range_succ, List.filterMap_append, ih, List.take_add_one]
    cases hn : info.columns[n]? <;> simp [hn]

end TabbleInfo

theorem OffsetsFrom.bounds {o : Nat} {cs : List Column} (h : OffsetsFrom o cs) :
    ∀ c ∈ cs, o ≤ c.offset ∧ c.offset + c.size ≤ o + sizeSum cs := by
  induction cs generalizing o with
  | nil => intro c hc; cases hc
  | cons d cs ih =>
    intro c hc
    rw [sizeSum_cons]
    rcases List.mem_cons.mp hc with rfl | hc
    · rw [h.1]; omega
    · have := ih h.2 c hc
      omega

/-- Two columns at different places occupy disjoint ranges. -/
theorem OffsetsFrom.disjoint {o : Nat} {cs : List Column} (h : OffsetsFrom o cs)
    {i j : Nat} {c d : Column} (hi : cs[i]? = some c) (hj : cs[j]? = some d) (hij : i < j) :
    c.offset + c.size ≤ d.offset := by
  induction cs generalizing o i j with
  | nil => simp at hi
  | cons e cs ih =>
    cases j with
    | zero => omega
    | succ j =>
      cases i with
      | zero =>
        simp only [List.getElem?_cons_zero, Option.some.injEq] at hi
        subst hi
        have hd := h.2.bounds d (List.mem_of_getElem? (by simpa using hj))
        rw [h.1]
        exact hd.1
      | succ i => exact ih h.2 (by simpa using hi) (by simpa using hj) (by omega)

section Layout
variable {info : TabbleInfo} (h : info.Layout)
include h

theorem TabbleInfo.Layout.lookup (n : Text) :
    info.columnsMap.lookup n = info.columns.findIdx? (·.name = n) := by
  rw [h.columnsMap, lookup_columnsMapFrom]
  simp

theorem TabbleInfo.Layout.lineLength_pos : 0 < info.lineLength := by
  have := h.lineLength
  omega

/-- Every column lies inside the line and leaves byte 0 to the active flag. -/
theorem TabbleInfo.Layout.column_inside {c : Column} (hc : c ∈ info.columns) :
    1 ≤ c.offset ∧ c.offset + c.size ≤ info.lineLength := by
  have := h.offsets.bounds c hc
  rw [h.lineLength]
  exact this

theorem TabbleInfo.Layout.disjoint {i j : Nat} {c d : Column}
    (hi : info.columns[i]? = some c) (hj : info.columns[j]? = some d) (hij : i ≠ j) :
    c.offset + c.size ≤ d.offset ∨ d.offset + d.size ≤ c.offset := by
  rcases Nat.lt_or_gt_of_ne hij with hlt | hlt
  · exact .inl (h.offsets.disjoint hi hj hlt)
  · exact .inr (h.offsets.disjoint hj hi hlt)

theorem TabbleInfo.Layout.lookup_lt {n : Text} {i : Nat} (hi : info.columnsMap.lookup n = some i) :
    i < info.columns.length := by
  rw [h.lookup] at hi
  exact (List.findIdx?_eq_some_iff_getElem.mp hi).1

end Layout
end SQLid
