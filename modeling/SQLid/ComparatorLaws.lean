import SQLid.Library.MissingKeys
import SQLid.RowOrder

/-!
# The laws of the comparator of the rows

The executor sorts the rows by the first column in which they are not equal, `!=` deciding
what is equal and `<` or `>` what comes first. A NaN is not equal to itself and neither less
nor greater than anything, so that two rows may not be told apart from a third one and yet
from each other.
-/
namespace SQLid
open Bytes (Text)
open CppText (str)
open Programs
open MissingKeys (Same Before Ahead Apart Between)

/-! The values of one type as keys. -/

/-- A NaN has no place among the values. -/
def VariantTypes.orderKey (v : VariantTypes) : Option (ℕ ×ₗ List ℤ) := if v.isNaN then none else some v.key

namespace VariantTypes
variable {a b : VariantTypes}

theorem orderKey_nan (h : a.isNaN = true) : a.orderKey = none := if_pos h

theorem orderKey_some (h : a.isNaN = false) : a.orderKey = some a.key := if_neg (Bool.eq_false_iff.mp h)

theorem orderKey_eq_none_iff : a.orderKey = none ↔ a.isNaN = true := by
  cases h : a.isNaN with
  | true => simp [orderKey_nan h]
  | false => simp [orderKey_some h]

theorem nan_ne (h : a.isNaN = true ∨ b.isNaN = true) : a.eq b = false := by
  rcases h with h | h
  · cases a <;> cases b <;> simp_all [VariantTypes.eq, isNaN, Ieee.Format.eq]
  · cases a <;> cases b <;> simp_all [VariantTypes.eq, isNaN, Ieee.Format.eq]

theorem nan_not_lt (hkind : a.index = b.index) (h : a.isNaN = true ∨ b.isNaN = true) : a.lt b = false := by
  rcases h with h | h
  · cases a <;> cases b <;> simp_all [VariantTypes.lt, isNaN, Ieee.Format.lt, index]
  · cases a <;> cases b <;> simp_all [VariantTypes.lt, isNaN, Ieee.Format.lt, index]

/-- Values that are equal have the same key. -/
theorem eq_iff_orderKey : a.eq b = true ↔ ∃ x, a.orderKey = some x ∧ b.orderKey = some x := by
  cases ha : a.isNaN with
  | true => simp [nan_ne (.inl ha), orderKey_nan ha]
  | false =>
      cases hb : b.isNaN with
      | true => simp [nan_ne (.inr hb), orderKey_nan hb]
      | false =>
          rw [eq_iff ha hb, orderKey_some ha, orderKey_some hb]
          simp [eq_comm]

/-- Values of one alternative compare as their keys do. -/
theorem lt_iff_orderKey (hkind : a.index = b.index) :
    a.lt b = true ↔ ∃ x y, a.orderKey = some x ∧ b.orderKey = some y ∧ x < y := by
  cases ha : a.isNaN with
  | true => simp [nan_not_lt hkind (.inl ha), orderKey_nan ha]
  | false =>
      cases hb : b.isNaN with
      | true => simp [nan_not_lt hkind (.inr hb), orderKey_nan hb]
      | false =>
          rw [lt_iff ha hb, orderKey_some ha, orderKey_some hb]
          simp

end VariantTypes

theorem VariantTypes.index_of_type {v w : VariantTypes} {type : ColumnType} (hv : v.hasType type = true)
    (hw : w.hasType type = true) : v.index = w.index := by
  cases v <;> cases type <;> cases hv <;> cases w <;> cases hw <;> rfl

/-! What the comparator tells apart. -/

/-- The first place where the rows are not equal holds a NaN of neither. -/
def rowApart : List (Nat × Bool) → List VariantTypes → List VariantTypes → Bool
  | [], _, _ => false
  | (place, _) :: keys, a, b =>
      if (rowValue a place).eq (rowValue b place) then rowApart keys a b
      else !(rowValue a place).isNaN && !(rowValue b place).isNaN

/-- The first place where the three rows are not equal holds a NaN of `b`. -/
def rowBetween : List (Nat × Bool) → List VariantTypes → List VariantTypes → List VariantTypes → Bool
  | [], _, _, _ => false
  | (place, _) :: keys, a, b, c =>
      (rowValue b place).isNaN ||
        ((rowValue a place).eq (rowValue b place) && (rowValue b place).eq (rowValue c place) &&
          rowBetween keys a b c)

/-- The rows hold values of the same alternatives. -/
def SameKinds (a b : List VariantTypes) : Prop := ∀ place, (rowValue a place).index = (rowValue b place).index

/-- The keys of a row at these places, a NaN being none. -/
def rowKeys (keys : List (Nat × Bool)) : List ((List VariantTypes → Option (ℕ ×ₗ List ℤ)) × Bool) :=
  keys.map fun key => (fun row => (rowValue row key.1).orderKey, key.2)

section
variable {keys : List (Nat × Bool)} {a b c : List VariantTypes}

theorem rowAhead_iff (h : SameKinds a b) : rowAhead keys a b = true ↔ Ahead (rowKeys keys) a b := by
  induction keys with
  | nil => exact iff_of_false Bool.false_ne_true id
  | cons key keys ih =>
      obtain ⟨place, ascending⟩ := key
      change _ ↔ Before (fun row => (rowValue row place).orderKey) ascending a b ∨
        Same (fun row => (rowValue row place).orderKey) a b ∧ Ahead (rowKeys keys) a b
      have hsame : Same (fun row => (rowValue row place).orderKey) a b ↔
          (rowValue a place).eq (rowValue b place) = true := VariantTypes.eq_iff_orderKey.symm
      have hab := VariantTypes.lt_iff_orderKey (h place)
      have hba := VariantTypes.lt_iff_orderKey (h place).symm
      unfold rowAhead
      rw [← ih, hsame]
      by_cases heq : (rowValue a place).eq (rowValue b place) = true
      · rw [if_pos heq]
        have hnot : ¬ Before (fun row => (rowValue row place).orderKey) ascending a b := fun hbefore =>
          Before.irrefl _ _ b ((hsame.mpr heq).before_iff_left.mp hbefore)
        simp [hnot, heq]
      · rw [if_neg heq]
        cases ascending with
        | true =>
            rw [if_pos rfl, hab]
            simp [Before, heq]
        | false =>
            rw [if_neg Bool.false_ne_true, hba]
            simp only [Before, heq, Bool.false_eq_true, if_false, false_and, or_false]
            constructor
            · rintro ⟨x, y, hx, hy, hlt⟩
              exact ⟨y, x, hy, hx, hlt⟩
            · rintro ⟨y, x, hy, hx, hlt⟩
              exact ⟨x, y, hx, hy, hlt⟩

theorem rowApart_iff : rowApart keys a b = true ↔ Apart (rowKeys keys) a b := by
  induction keys with
  | nil => exact iff_of_false Bool.false_ne_true id
  | cons key keys ih =>
      obtain ⟨place, ascending⟩ := key
      change _ ↔ (∃ x y, (rowValue a place).orderKey = some x ∧ (rowValue b place).orderKey = some y ∧ x ≠ y) ∨
        (∃ x, (rowValue a place).orderKey = some x ∧ (rowValue b place).orderKey = some x) ∧ Apart (rowKeys keys) a b
      unfold rowApart
      rw [← ih, ← VariantTypes.eq_iff_orderKey]
      by_cases heq : (rowValue a place).eq (rowValue b place) = true
      · obtain ⟨x, ha, hb⟩ := VariantTypes.eq_iff_orderKey.mp heq
        rw [if_pos heq, ha, hb]
        simp [heq]
      · rw [if_neg heq]
        cases ha : (rowValue a place).isNaN with
        | true => simp [heq, VariantTypes.orderKey_nan ha]
        | false =>
            cases hb : (rowValue b place).isNaN with
            | true => simp [heq, VariantTypes.orderKey_nan hb]
            | false =>
                have hne := mt (VariantTypes.eq_iff ha hb).mpr heq
                simp [heq, VariantTypes.orderKey_some ha, VariantTypes.orderKey_some hb, hne]

theorem rowBetween_iff : rowBetween keys a b c = true ↔ Between (rowKeys keys) a b c := by
  induction keys with
  | nil => exact iff_of_false Bool.false_ne_true id
  | cons key keys ih =>
      obtain ⟨place, ascending⟩ := key
      change _ ↔ (rowValue b place).orderKey = none ∨
        (∃ x, (rowValue a place).orderKey = some x ∧ (rowValue b place).orderKey = some x) ∧
        (∃ x, (rowValue b place).orderKey = some x ∧ (rowValue c place).orderKey = some x) ∧
          Between (rowKeys keys) a b c
      unfold rowBetween
      rw [← ih, ← VariantTypes.eq_iff_orderKey, ← VariantTypes.eq_iff_orderKey, VariantTypes.orderKey_eq_none_iff,
        Bool.or_eq_true, Bool.and_eq_true, Bool.and_eq_true, and_assoc]

end

/-! The rows of a table. -/

/-- The rows a SELECT of these columns can answer with: those of any lines. -/
def Tabble.rowsOf (t : Tabble) (ids : List Nat) : Set (List VariantTypes) :=
  {row | ∃ i, t.peek (Executor.readRecord i ids t.info.columns) = .ok row}

section
variable {t : Tabble} {ids : List Nat} {a b : List VariantTypes}

theorem Tabble.hasType_of_peek {i : Nat} {column : Column} {v : VariantTypes}
    (h : t.peek (Tabble.readColumn i column) = .ok v) : v.hasType column.type = true := by
  unfold Tabble.peek at h
  cases hrun : (Tabble.readColumn i column).run t with
  | error e t' =>
      rw [hrun] at h
      cases h
  | ok a t' =>
      rw [hrun] at h
      cases h
      exact (readColumn_hasType i column).ok trivial hrun

/-- Two rows of a table hold the same alternatives. -/
theorem Tabble.rowsOf_sameKinds (ha : a ∈ t.rowsOf ids) (hb : b ∈ t.rowsOf ids) : SameKinds a b := by
  obtain ⟨i, ha⟩ := ha
  obtain ⟨j, hb⟩ := hb
  intro place
  cases place with
  | zero =>
      obtain ⟨cells, rfl, -⟩ := Executor.readRecord_cells ha
      obtain ⟨cells', rfl, -⟩ := Executor.readRecord_cells hb
      rfl
  | succ k =>
      cases hk : ids[k]? with
      | none =>
          have hlong : ids.length ≤ k := List.getElem?_eq_none_iff.mp hk
          have hla := Executor.read_length ha
          have hlb := Executor.read_length hb
          unfold rowValue
          rw [List.getElem?_eq_none (by omega), List.getElem?_eq_none (by omega)]
      | some id =>
          obtain ⟨column, hcolumn, hva⟩ := Executor.read_cell ha hk
          obtain ⟨column', hcolumn', hvb⟩ := Executor.read_cell hb hk
          rw [hcolumn] at hcolumn'
          cases hcolumn'
          exact VariantTypes.index_of_type (Tabble.hasType_of_peek hva) (Tabble.hasType_of_peek hvb)

/-- What a SELECT sorts are rows of the table. -/
theorem Executor.RowsRead.rowsOf {bound : Nat} {rows : List (List VariantTypes)}
    (h : Executor.RowsRead t ids bound rows) : ∀ row ∈ rows, row ∈ t.rowsOf ids :=
  h.exists_line

end

section
variable {t : Tabble} {columnsRaw : List Text} {ids : List Nat} {order : List OderTypeRaw}
  {keys : List OderTypeOpt}

/-- The comparator of an ORDER BY is a strict weak order on rows of the table exactly when
no two of them that it tells apart have a row with a NaN between them. -/
theorem sort_weak_iff (hmap : t.info.columnsMap = columnsMapFrom 0 t.info.columns [])
    (hids : Optimizer.optimizeColumns t.info columnsRaw = .ok ids)
    (hkeys : Optimizer.optimizeOrdering t.info columnsRaw order = .ok keys)
    {rows : Set (List VariantTypes)} (hrows : ∀ row ∈ rows, row ∈ t.rowsOf ids) :
    (∀ a ∈ rows, ∀ b ∈ rows, ∃ ahead, Executor.rowBefore keys a b = .ok ahead) ∧
      (IsStrictWeakOrder rows (fun a b => Executor.rowBefore keys a b = .ok true) ↔
        ∀ a ∈ rows, ∀ b ∈ rows, ∀ c ∈ rows, rowBetween (sortedKeys keys) a b c = true →
          rowApart (sortedKeys keys) a c = false) := by
  have hwide : ∀ row ∈ rows, ∀ key ∈ keys, key.rawId < row.length := by
    intro row hrow key hkey
    obtain ⟨i, hread⟩ := hrows row hrow
    rw [Executor.read_length hread]
    exact keys_inside hmap hids hkeys key hkey
  have hbefore : ∀ a ∈ rows, ∀ b ∈ rows, Executor.rowBefore keys a b = .ok (rowAhead (sortedKeys keys) a b) :=
    fun a ha b hb => rowBefore_eq (hwide a ha) (hwide b hb)
  refine ⟨fun a ha b hb => ⟨_, hbefore a ha b hb⟩, ?_⟩
  have hahead : (fun a b : rows => Executor.rowBefore keys a b = .ok true) =
      fun a b : rows => Ahead (rowKeys (sortedKeys keys)) a b := by
    funext ⟨a, ha⟩ ⟨b, hb⟩
    rw [hbefore a ha b hb, ← rowAhead_iff (Tabble.rowsOf_sameKinds (hrows a ha) (hrows b hb))]
    exact propext ⟨Except.ok.inj, congrArg _⟩
  rw [hahead, MissingKeys.strictWeak_iff]
  simp only [← rowBetween_iff, ← rowApart_iff, Bool.not_eq_true]

end

/-! A column of floating point numbers with the values 1, NaN and 2. -/

def floatsInfo : TabbleInfo where
  lineLength := 5
  columnsNumber := 1
  columns := [⟨str "x", 1, .float, 4⟩]
  columnsMap := [(str "x", 0)]

def floatsOpened : Tabble := finalState (Tabble.openFile .reliable floatsInfo .empty 0)

def floatsFilled : Tabble := answered floatsOpened "INSERT INTO t 1 nan 2"

example : floatsFilled.getMaxActiveLine = 3 := by decide +kernel

theorem floatsInfo_regular : floatsInfo.Regular :=
  ⟨⟨rfl, by decide, ⟨rfl, trivial⟩, rfl, by decide⟩, by decide, by decide⟩

theorem floatsFilled_reach : Reach Orderly .reliable floatsInfo floatsFilled := by
  have hopen : Tabble.openFile .reliable floatsInfo .empty 0 = .ok () floatsOpened :=
    eq_ok_of_isOk (by decide +kernel)
  exact reach_answered (.start hopen) (orderly_of_undirected (by decide +kernel) (by decide +kernel))
    (by decide +kernel)

theorem floatsFilled_rows :
    floatsFilled.peek (Executor.readRecord 0 [0] floatsFilled.info.columns) =
      .ok [.int64 0, .float 0x3f800000] ∧
    floatsFilled.peek (Executor.readRecord 1 [0] floatsFilled.info.columns) =
      .ok [.int64 1, .float 0x7fc00000] ∧
    floatsFilled.peek (Executor.readRecord 2 [0] floatsFilled.info.columns) =
      .ok [.int64 2, .float 0x40000000] ∧
    Optimizer.optimizeColumns floatsFilled.info [str "*"] = .ok [0] ∧
    Optimizer.optimizeOrdering floatsFilled.info [str "*"] [⟨str "x", true⟩] = .ok [⟨1, true⟩] := by
  decide +kernel

/-- The rows of the 1 and of the NaN. -/
def oneAndNaN : Set (List VariantTypes) :=
  {[.int64 0, .float 0x3f800000], [.int64 1, .float 0x7fc00000]}

/-- Without the 2 the rows can be sorted. -/
theorem sort_weak_iff_sample :
    IsStrictWeakOrder oneAndNaN (fun a b => Executor.rowBefore [⟨1, true⟩] a b = .ok true) := by
  obtain ⟨hone, hnan, -, hids, hkeys⟩ := floatsFilled_rows
  have hmap : floatsFilled.info.columnsMap = columnsMapFrom 0 floatsFilled.info.columns [] := by
    decide +kernel
  have hrows : ∀ row ∈ oneAndNaN, row ∈ floatsFilled.rowsOf [0] := by
    rintro row (rfl | rfl)
    · exact ⟨0, hone⟩
    · exact ⟨1, hnan⟩
  obtain ⟨-, hweak⟩ := sort_weak_iff hmap hids hkeys hrows
  refine hweak.mpr ?_
  -- no two of the rows are told apart
  rintro a (rfl | rfl) b - c (rfl | rfl) -
  · decide +kernel
  · decide +kernel
  · decide +kernel
  · decide +kernel

/-- Neither 1 nor 2 is told apart from the NaN, but they are from each other. -/
theorem nan_between_rows : ¬ ∀ (os : Os) (schema : TabbleInfo) (t : Tabble) (columnsRaw : List Text)
    (ids : List Nat) (order : List OderTypeRaw) (keys : List OderTypeOpt), schema.Regular →
    Reach Orderly os schema t → Optimizer.optimizeColumns t.info columnsRaw = .ok ids →
    Optimizer.optimizeOrdering t.info columnsRaw order = .ok keys →
    IsStrictWeakOrder (t.rowsOf ids) (fun a b => Executor.rowBefore keys a b = .ok true) := by
  intro h
  obtain ⟨hone, hnan, htwo, hids, hkeys⟩ := floatsFilled_rows
  have hweak := h .reliable _ _ [str "*"] _ [⟨str "x", true⟩] _ floatsInfo_regular floatsFilled_reach hids hkeys
  have hleft : Executor.rowBefore [⟨1, true⟩] [.int64 0, .float 0x3f800000] [.int64 1, .float 0x7fc00000] ≠ .ok true ∧
      Executor.rowBefore [⟨1, true⟩] [.int64 1, .float 0x7fc00000] [.int64 0, .float 0x3f800000] ≠ .ok true := by
    decide
  have hright : Executor.rowBefore [⟨1, true⟩] [.int64 1, .float 0x7fc00000] [.int64 2, .float 0x40000000] ≠ .ok true ∧
      Executor.rowBefore [⟨1, true⟩] [.int64 2, .float 0x40000000] [.int64 1, .float 0x7fc00000] ≠ .ok true := by
    decide
  have hahead : Executor.rowBefore [⟨1, true⟩] [.int64 2, .float 0x40000000] [.int64 0, .float 0x3f800000] =
      .ok true := by decide
  obtain ⟨-, hnot⟩ := hweak.incomp_trans ⟨_, 0, hone⟩ ⟨_, 1, hnan⟩ ⟨_, 2, htwo⟩ hleft hright
  exact hnot hahead

end SQLid
