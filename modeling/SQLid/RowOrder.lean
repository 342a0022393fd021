import SQLid.Library.StableSort
import SQLid.SortKeys
import SQLid.Agreement
import Mathlib.Data.List.Lex
import Mathlib.Data.Prod.Lex
import Mathlib.Order.Lex

/-!
# The order of the rows

A SELECT with an ORDER BY answers with the rows it answers with without one, sorted by the
executor. The parser makes `true` of ASC and the executor sorts `true` by `>`.
-/
namespace SQLid
open Bytes (Text)
open CppText (str)
open Programs
open StableSort (Comparison Ordered keyAhead)
open Tabble (LogOnly ReadsLine)

/-! The order of the values. -/

def VariantTypes.isNaN : VariantTypes → Bool
  | .double bits => Ieee.binary64.isNaN bits.toNat
  | .float bits => Ieee.binary32.isNaN bits.toNat
  | _ => false

/-- The place of a value among all of them. -/
def VariantTypes.key : VariantTypes → ℕ ×ₗ List ℤ
  | .int32 v => toLex (0, [v.toInt])
  | .int64 v => toLex (1, [v.toInt])
  | .double bits => toLex (2, [Ieee.binary64.key bits.toNat])
  | .float bits => toLex (3, [Ieee.binary32.key bits.toNat])
  | .bool b => toLex (4, [if b then 1 else 0])
  | .string s => toLex (5, s.map fun b => (b.toNat : ℤ))

theorem textLt_iff (a b : Text) :
    textLt a b = true ↔ a.map (fun c => (c.toNat : ℤ)) < b.map fun c => (c.toNat : ℤ) := by
  induction a generalizing b with
  | nil => cases b <;> simp [textLt]
  | cons c a ih =>
      cases b with
      | nil => simp [textLt]
      | cons d b => simp [textLt, ih, List.cons_lt_cons_iff, UInt8.lt_iff_toNat_lt, UInt8.toNat_inj]

theorem singleton_lt (m n : ℤ) : [m] < [n] ↔ m < n := by simp [List.cons_lt_cons_iff]

namespace VariantTypes
variable {a b : VariantTypes}

/-- Values that are no NaN compare as their keys do. -/
theorem eq_iff (ha : a.isNaN = false) (hb : b.isNaN = false) : a.eq b = true ↔ a.key = b.key := by
  have hbytes : Function.Injective fun c : UInt8 => (c.toNat : ℤ) := fun c d h => by
    simpa [UInt8.toNat_inj] using h
  cases a <;> cases b <;> simp_all [VariantTypes.eq, key, isNaN, Ieee.Format.eq]
  case int32.int32 => exact BitVec.toInt_inj.symm
  case int64.int64 => exact BitVec.toInt_inj.symm
  case bool.bool b b' => cases b <;> cases b' <;> simp
  case string.string => exact (List.map_injective_iff.mpr hbytes).eq_iff.symm

theorem lt_iff (ha : a.isNaN = false) (hb : b.isNaN = false) : a.lt b = true ↔ a.key < b.key := by
  cases a <;> cases b <;>
    simp_all [VariantTypes.lt, key, isNaN, Ieee.Format.lt, Prod.Lex.toLex_lt_toLex, index, textLt_iff,
      singleton_lt]
  case int32.int32 => exact BitVec.slt_iff_toInt_lt
  case int64.int64 => exact BitVec.slt_iff_toInt_lt
  case bool.bool b b' => cases b <;> cases b' <;> simp

end VariantTypes

/-- Only floating point numbers can be NaN. -/
theorem VariantTypes.isNaN_of_type {v : VariantTypes} {type : ColumnType} (h : v.hasType type = true)
    (hexact : type ≠ .double ∧ type ≠ .float) : v.isNaN = false := by
  obtain ⟨hdouble, hfloat⟩ := hexact
  cases v with
  | double bits => cases type <;> simp_all [VariantTypes.hasType]
  | float bits => cases type <;> simp_all [VariantTypes.hasType]
  | _ => rfl

/-! The order of the rows, by the values at some places of them. -/

def rowValue (row : List VariantTypes) (place : Nat) : VariantTypes := row[place]?.getD (.bool false)

/-- Whether `a` has to stand ahead of `b`: a place with `true` is ascending. -/
def rowAhead : List (Nat × Bool) → List VariantTypes → List VariantTypes → Bool
  | [], _, _ => false
  | (place, ascending) :: keys, a, b =>
      if (rowValue a place).eq (rowValue b place) then rowAhead keys a b
      else if ascending then (rowValue a place).lt (rowValue b place)
      else (rowValue b place).lt (rowValue a place)

/-- Equal at all of the places. -/
def rowTied (keys : List (Nat × Bool)) (a b : List VariantTypes) : Bool :=
  keys.all fun key => (rowValue a key.1).eq (rowValue b key.1)

/-- The id a row begins with. -/
def rowId (row : List VariantTypes) : Nat :=
  match row.head? with
  | some (.int64 v) => v.toNat
  | _ => 0

/-- The answer is these rows in the order of the keys, those that tie by their ids. -/
structure RowsOrdered (keys : List (Nat × Bool)) (rows answer : List (List VariantTypes)) : Prop where
  perm : answer.Perm rows
  sorted : answer.Pairwise fun a b => rowAhead keys b a = false
  stable : answer.Pairwise fun a b => rowTied keys a b = true → rowId a < rowId b

def NaNFree (row : List VariantTypes) : Prop := ∀ v ∈ row, v.isNaN = false

/-- The keys of a row at these places. -/
def cellKeys (keys : List (Nat × Bool)) : List ((List VariantTypes → ℕ ×ₗ List ℤ) × Bool) :=
  keys.map fun key => (fun row => (rowValue row key.1).key, key.2)

section
variable {a b : List VariantTypes} {keys : List (Nat × Bool)}

theorem NaNFree.rowValue (h : NaNFree a) (place : Nat) : (rowValue a place).isNaN = false := by
  unfold SQLid.rowValue
  cases hget : a[place]? with
  | none => rfl
  | some v => exact h v (List.mem_of_getElem? hget)

theorem rowAhead_eq (ha : NaNFree a) (hb : NaNFree b) : rowAhead keys a b = keyAhead (cellKeys keys) a b := by
  induction keys with
  | nil => rfl
  | cons key keys ih =>
      obtain ⟨place, ascending⟩ := key
      have heq := VariantTypes.eq_iff (ha.rowValue place) (hb.rowValue place)
      have hab := VariantTypes.lt_iff (ha.rowValue place) (hb.rowValue place)
      have hba := VariantTypes.lt_iff (hb.rowValue place) (ha.rowValue place)
      unfold rowAhead
      change _ = keyAhead ((fun row => (SQLid.rowValue row place).key, ascending) :: cellKeys keys) a b
      rw [StableSort.keyAhead_cons]
      by_cases hkey : (SQLid.rowValue a place).key = (SQLid.rowValue b place).key
      · rw [if_pos (heq.mpr hkey), if_pos hkey, ih]
      · rw [if_neg (mt heq.mp hkey), if_neg hkey, Bool.eq_iff_iff.mpr (hab.trans decide_eq_true_iff.symm),
          Bool.eq_iff_iff.mpr (hba.trans decide_eq_true_iff.symm)]

theorem rowTied_iff (ha : NaNFree a) (hb : NaNFree b) :
    rowTied keys a b = true ↔ StableSort.Tied (cellKeys keys) a b := by
  unfold rowTied StableSort.Tied cellKeys
  rw [List.all_eq_true, List.forall_mem_map]
  exact forall₂_congr fun key _ => VariantTypes.eq_iff (ha.rowValue key.1) (hb.rowValue key.1)

end

/-! What the sort of the executor makes of the rows. -/

/-- Every key the other way round. -/
def exchanged (keys : List (Nat × Bool)) : List (Nat × Bool) := keys.map fun key => (key.1, !key.2)

/-- What the executor sorts by. -/
def sortedKeys (clauses : List OderTypeOpt) : List (Nat × Bool) :=
  clauses.map fun clause => (clause.rawId, !clause.isGreaterSort)

section
variable {clauses : List OderTypeOpt} {keys : List (Nat × Bool)} {rows answer : List (List VariantTypes)}

theorem cellKeys_exchanged (keys : List (Nat × Bool)) :
    cellKeys (exchanged keys) = StableSort.reversed (cellKeys keys) := by
  unfold cellKeys exchanged StableSort.reversed
  rw [List.map_map, List.map_map]
  rfl

theorem rowBefore_eq {a b : List VariantTypes} (ha : ∀ clause ∈ clauses, clause.rawId < a.length)
    (hb : ∀ clause ∈ clauses, clause.rawId < b.length) :
    Executor.rowBefore clauses a b = .ok (rowAhead (sortedKeys clauses) a b) := by
  induction clauses with
  | nil => rfl
  | cons clause clauses ih =>
      obtain ⟨x, hx⟩ : ∃ x, a[clause.rawId]? = some x :=
        ⟨_, List.getElem?_eq_getElem (ha clause List.mem_cons_self)⟩
      obtain ⟨y, hy⟩ : ∃ y, b[clause.rawId]? = some y :=
        ⟨_, List.getElem?_eq_getElem (hb clause List.mem_cons_self)⟩
      have hrest := ih (fun c hc => ha c (List.mem_cons_of_mem clause hc))
        fun c hc => hb c (List.mem_cons_of_mem clause hc)
      unfold Executor.rowBefore
      change _ = Except.ok (rowAhead ((clause.rawId, !clause.isGreaterSort) :: sortedKeys clauses) a b)
      unfold rowAhead rowValue
      rw [hx, hy, hrest]
      dsimp only [Option.getD_some]
      by_cases heq : x.eq y = true
      · rw [if_pos heq, if_pos heq]
      · rw [if_neg heq, if_neg heq]
        cases clause.isGreaterSort with
        | false => rfl
        | true => rfl

variable (hnan : ∀ row ∈ rows, NaNFree row)
include hnan

theorem sortBody_eq (hwide : ∀ row ∈ rows, ∀ clause ∈ clauses, clause.rawId < row.length) :
    Executor.sortBody clauses rows =
      rows.mergeSort fun a b => !keyAhead (cellKeys (sortedKeys clauses)) b a := by
  have hsame : ∀ a ∈ rows, ∀ b ∈ rows, Executor.rowsInOrder clauses a b =
      !keyAhead (cellKeys (sortedKeys clauses)) (id b) (id a) := by
    intro a ha b hb
    unfold Executor.rowsInOrder
    rw [rowBefore_eq (hwide b hb) (hwide a ha), rowAhead_eq (hnan b hb) (hnan a ha)]
    rfl
  have hsort := List.map_mergeSort (f := id)
    (s := fun a b => !keyAhead (cellKeys (sortedKeys clauses)) b a) hsame
  rw [List.map_id, List.map_id] at hsort
  exact hsort

theorem rowsOrdered_iff :
    RowsOrdered keys rows answer ↔ Ordered (keyAhead (cellKeys keys)) rowId rows answer := by
  have hanswer : answer.Perm rows → ∀ {a b}, a ∈ answer → b ∈ answer → NaNFree a ∧ NaNFree b :=
    fun hperm {a b} ha hb => ⟨hnan a (hperm.mem_iff.mp ha), hnan b (hperm.mem_iff.mp hb)⟩
  constructor
  · rintro ⟨hperm, hsorted, hstable⟩
    refine ⟨hperm, hsorted.imp_of_mem fun ha hb h => ?_, hstable.imp_of_mem fun ha hb h hab hba => ?_⟩
    · obtain ⟨ha, hb⟩ := hanswer hperm ha hb
      rw [← rowAhead_eq hb ha]
      exact h
    · obtain ⟨ha, hb⟩ := hanswer hperm ha hb
      exact h ((rowTied_iff ha hb).mpr (StableSort.tied_iff.mpr ⟨hab, hba⟩))
  · rintro ⟨hperm, hsorted, hstable⟩
    refine ⟨hperm, hsorted.imp_of_mem fun ha hb h => ?_, hstable.imp_of_mem fun ha hb h htied => ?_⟩
    · obtain ⟨ha, hb⟩ := hanswer hperm ha hb
      rw [rowAhead_eq hb ha]
      exact h
    · obtain ⟨ha, hb⟩ := hanswer hperm ha hb
      obtain ⟨hab, hba⟩ := StableSort.tied_iff.mp ((rowTied_iff ha hb).mp htied)
      exact h hab hba

variable (hwide : ∀ row ∈ rows, ∀ clause ∈ clauses, clause.rawId < row.length)
  (hids : rows.Pairwise fun a b => rowId a < rowId b)
include hwide hids

theorem sortBody_ordered_iff : RowsOrdered keys rows (Executor.sortBody clauses rows) ↔
    ∀ a b, List.Sublist [a, b] rows → rowAhead (sortedKeys clauses) b a = rowAhead keys b a := by
  rw [rowsOrdered_iff hnan, sortBody_eq hnan hwide, StableSort.ordered_mergeSort_iff
    (StableSort.keyAhead_comparison _) (StableSort.keyAhead_comparison _) hids]
  refine forall₂_congr fun a b => forall_congr' fun hpair => ?_
  have ha := hnan a (hpair.subset (by simp))
  have hb := hnan b (hpair.subset (by simp))
  rw [rowAhead_eq hb ha, rowAhead_eq hb ha]

/-- Sorted the other way round, the answer is in order only if all rows tie. -/
theorem sortBody_exchanged_iff (hexchanged : ∀ a ∈ rows, ∀ b ∈ rows,
    rowAhead (sortedKeys clauses) a b = rowAhead (exchanged keys) a b) :
    RowsOrdered keys rows (Executor.sortBody clauses rows) ↔
      ∀ a ∈ rows, ∀ b ∈ rows, rowTied keys a b = true := by
  rw [sortBody_ordered_iff hnan hwide hids]
  have hagree := StableSort.agree_reversed_iff (cellKeys keys) rows
  constructor
  · intro h a ha b hb
    rw [rowTied_iff (hnan a ha) (hnan b hb)]
    refine hagree.mp (fun a b hpair => ?_) a ha b hb
    have ha := hpair.subset (show a ∈ [a, b] by simp)
    have hb := hpair.subset (show b ∈ [a, b] by simp)
    rw [← cellKeys_exchanged, ← rowAhead_eq (hnan b hb) (hnan a ha), ← rowAhead_eq (hnan b hb) (hnan a ha),
      ← hexchanged b hb a ha]
    exact h a b hpair
  · intro h a b hpair
    have ha := hpair.subset (show a ∈ [a, b] by simp)
    have hb := hpair.subset (show b ∈ [a, b] by simp)
    rw [hexchanged b hb a ha, rowAhead_eq (hnan b hb) (hnan a ha), rowAhead_eq (hnan b hb) (hnan a ha),
      cellKeys_exchanged]
    exact hagree.mpr (fun a ha b hb => (rowTied_iff (hnan a ha) (hnan b hb)).mp (h a ha b hb)) a b hpair

end

/-! The rows a SELECT reads. -/

namespace Executor
variable {t : Tabble} {ids : List Nat}

/-- Rows of ascending lines below the bound, each as the executor reads it. -/
def RowsRead (t : Tabble) (ids : List Nat) (bound : Nat) (rows : List (List VariantTypes)) : Prop :=
  ∃ lines : List Nat, lines.Pairwise (· < ·) ∧ (∀ i ∈ lines, i < bound) ∧
    List.Forall₂ (fun i row => t.peek (readRecord i ids t.info.columns) = .ok row) lines rows

theorem rowsRead_nil (bound : Nat) : RowsRead t ids bound [] := ⟨[], .nil, List.forall_mem_nil _, .nil⟩

theorem RowsRead.mono {bound bound' : Nat} {rows : List (List VariantTypes)} (h : RowsRead t ids bound rows)
    (hle : bound ≤ bound') : RowsRead t ids bound' rows := by
  obtain ⟨lines, hsorted, hbound, hrows⟩ := h
  exact ⟨lines, hsorted, fun i hi => (hbound i hi).trans_le hle, hrows⟩

theorem RowsRead.push {i : Nat} {rows : List (List VariantTypes)} {row : List VariantTypes}
    (h : RowsRead t ids i rows) (hrow : t.peek (readRecord i ids t.info.columns) = .ok row) :
    RowsRead t ids (i + 1) (rows ++ [row]) := by
  obtain ⟨lines, hsorted, hbound, hrows⟩ := h
  refine ⟨lines ++ [i], ?_, ?_, List.rel_append hrows (.cons hrow .nil)⟩
  · rw [List.pairwise_append]
    exact ⟨hsorted, List.pairwise_singleton _ _, fun j hj k hk => List.mem_singleton.mp hk ▸ hbound j hj⟩
  · intro j hj
    rcases List.mem_append.mp hj with hj | hj
    · exact (hbound j hj).trans (Nat.lt_succ_self i)
    · rw [List.mem_singleton.mp hj]
      exact Nat.lt_succ_self i

theorem triple_logOnly {α : Type} {i : Nat} {x : EStateM Fault Tabble α} (h : ReadsLine i x) :
    Triple (LogOnly t) x (fun a t' => t.peek x = .ok a ∧ LogOnly t t') fun _ _ => True := by
  rintro t' ⟨l, rfl⟩
  have hsame : (t.addLog l).peek x = t.peek x := h.peek_congr rfl
  obtain ⟨l', -, hrun⟩ := h.run (t.addLog l)
  rw [hsame] at hrun
  rw [hrun]
  cases t.peek x with
  | ok a => exact .ok ⟨rfl, LogOnly.trans ⟨l, rfl⟩ ⟨l', rfl⟩⟩
  | error e => exact .error trivial

/-- The rows so far are those of lines below `i`. -/
def ReadBelow (t : Tabble) (ids : List Nat) (i : Nat) (s : Execution) : Prop :=
  LogOnly t s.table ∧ RowsRead t ids i s.result.body

theorem readBelow_push (i : Nat) : Triple (ReadBelow t ids i)
    (do pushRow (← onTable (readRecord i ids t.info.columns))) (fun _ => ReadBelow t ids (i + 1))
    fun _ _ => True := by
  have hread : Triple (ReadBelow t ids i) (onTable (readRecord i ids t.info.columns))
      (fun row s => t.peek (readRecord i ids t.info.columns) = .ok row ∧ ReadBelow t ids i s)
      fun _ _ => True := by
    refine triple_zoom fun s hs => ?_
    exact (triple_logOnly (reads_readRecord i ids _) s.table hs.1).mono
      (fun _ _ h => ⟨h.1, h.2, hs.2⟩) fun _ _ h => h
  refine hread.bind fun row => triple_modify fun s hs => ?_
  exact ⟨hs.2.1, hs.2.2.push hs.1⟩

theorem readBelow_scan (conds : List Condition) (count n i : Nat) :
    Triple (ReadBelow t ids i)
      (scanLines conds t.info.columns count
        (fun line => do pushRow (← onTable (readRecord line ids t.info.columns))) n i)
      (fun _ => ReadBelow t ids (i + n)) fun _ _ => True := by
  have hselects (j : Nat) : Triple (ReadBelow t ids j) (onTable (selects conds t.info.columns j))
      (fun b s => if b then ReadBelow t ids j s else ReadBelow t ids (j + 1) s) fun _ _ => True := by
    refine triple_zoom fun s hs => ?_
    apply (triple_logOnly (reads_selects conds t.info.columns j) s.table hs.1).mono _ fun _ _ h => h
    rintro (_ | _) t' ⟨-, hlog⟩
    · exact ⟨hlog, hs.2.mono (Nat.le_succ j)⟩
    · exact ⟨hlog, hs.2⟩
  have hloop : Triple (ReadBelow t ids i) (scanLines conds t.info.columns count
      (fun line => do pushRow (← onTable (readRecord line ids t.info.columns))) n i)
      (fun _ s => ∃ j, ReadBelow t ids j s ∧ j ≤ i + n ∧ (j = i + n ∨ count ≤ s.result.body.length))
      fun _ _ => True := Scan.loop_triple hselects readBelow_push n i
  exact hloop.conseq (fun _ h => h) (fun _ _ ⟨j, h, hle, _⟩ => ⟨h.1, h.2.mono hle⟩) fun _ _ h => h

/-- Bounds are 64-bit numbers. -/
theorem stripSelect_le {conds rest : List Condition} {i maxLine start stop : Nat}
    (hi : i ≤ 2 ^ 64) (hmax : maxLine ≤ 2 ^ 64)
    (h : stripSelect i maxLine conds = .ok (start, stop, rest)) : start ≤ 2 ^ 64 ∧ stop ≤ 2 ^ 64 := by
  induction conds generalizing i maxLine with
  | nil =>
      cases h
      exact ⟨hi, hmax⟩
  | cons cond conds ih =>
      unfold stripSelect at h
      cases hkind : cond.condType with
      | toIndex =>
          rw [hkind] at h
          obtain ⟨v, -, h⟩ := Except_bind_ok h
          exact ih hi v.isLt.le h
      | fromIndex =>
          rw [hkind] at h
          obtain ⟨v, -, h⟩ := Except_bind_ok h
          exact ih v.isLt.le hmax h
      | logicalAnd | logicalOr =>
          rw [hkind] at h
          exact ih hi hmax h
      | _ =>
          rw [hkind] at h
          cases h
          exact ⟨hi, hmax⟩

/-- The same statement without its order. -/
def unordered (query : SelectQuery) : SelectQuery := { query with orderColumnsOptimized := [] }

theorem executeSelect_scan (query : SelectQuery) (hdir : directIndex query.conditions = none) :
    executeSelect query = (executeSelect (unordered query) >>= fun _ => sortAnswer query) := by
  unfold executeSelect unordered sortAnswer
  dsimp only
  rw [hdir]
  simp only [bind_assoc, ne_eq, not_true_eq_false, if_false, pure_bind]

theorem executeSelect_direct (query : SelectQuery) {desired : VariantTypes}
    (hdir : directIndex query.conditions = some desired) :
    executeSelect query = executeSelect (unordered query) := by
  unfold executeSelect unordered
  dsimp only
  rw [hdir]

/-- No rows are answered yet. -/
def Blank (t : Tabble) (s : Execution) : Prop := s.table = t ∧ s.result.body = []

theorem blank_ofExcept {α : Type} (x : Except Fault α) :
    Triple (Blank t) (ofExcept x) (fun a s => x = .ok a ∧ Blank t s) fun _ _ => True :=
  triple_ofExcept (fun _ _ hx h => ⟨hx, h⟩) fun _ _ _ _ => trivial

theorem blank_onResult (f : Result → Result) (hf : ∀ r : Result, r.body = [] → (f r).body = []) :
    Triple (Blank t) (onResult f) (fun _ => Blank t) fun _ _ => True :=
  triple_modify fun _ hs => ⟨hs.1, hf _ hs.2⟩

/-- A direct lookup answers with one row. -/
theorem direct_single (query : SelectQuery) {desired : VariantTypes}
    (hdir : directIndex query.conditions = some desired) :
    Triple (Blank t) (executeSelect query) (fun _ s => ∃ row, s.result.body = [row]) fun _ _ => True := by
  have hread (x : EStateM Fault Tabble (List VariantTypes)) : Triple (Blank t) (onTable x)
      (fun _ s => s.result.body = []) fun _ _ => True :=
    triple_zoom fun s hs => ((triple_true x) s.table trivial).mono (fun _ _ _ => hs.2) fun _ _ _ => trivial
  unfold executeSelect
  refine (blank_onResult _ (by exact fun _ h => h)).bind fun _ => triple_get fun s₀ _ => ?_
  dsimp only
  refine (blank_ofExcept _).bind fun header => ?_
  refine ((blank_onResult _ (by exact fun _ h => h)).conseq (fun _ h => h.2) (fun _ _ h => h)
    fun _ _ h => h).bind fun _ => ?_
  rw [hdir]
  refine (blank_ofExcept _).bind fun line => ?_
  refine ((hread _).conseq (fun _ h => h.2) (fun _ _ h => h) fun _ _ h => h).bind fun row => ?_
  refine triple_modify fun s hs => ⟨row, ?_⟩
  change s.result.body ++ [row] = [row]
  rw [hs, List.nil_append]

/-- Without an order the rows come in the order of their lines. -/
theorem unordered_rows (query : SelectQuery) (hmax : t.getMaxActiveLine ≤ 2 ^ 64) :
    Triple (Blank t) (executeSelect (unordered query))
      (fun _ => ReadBelow t query.columnsOptimized (2 ^ 64)) fun _ _ => True := by
  unfold executeSelect
  refine (blank_onResult _ (by exact fun _ h => h)).bind fun _ => triple_get fun s₀ hs₀ => ?_
  obtain ⟨rfl, -⟩ := hs₀
  dsimp only
  refine (blank_ofExcept _).bind fun header => ?_
  refine ((blank_onResult _ (by exact fun _ h => h)).conseq (fun _ h => h.2) (fun _ _ h => h)
    fun _ _ h => h).bind fun _ => ?_
  cases hdir : directIndex (unordered query).conditions with
  | some desired =>
      refine (blank_ofExcept _).bind fun line => ?_
      refine (readBelow_push line.toNat).conseq ?_ (fun _ _ h => ?_) fun _ _ h => h
      · rintro s ⟨-, htable, hbody⟩
        rw [ReadBelow, hbody, htable]
        exact ⟨.refl _, rowsRead_nil _⟩
      · exact ⟨h.1, h.2.mono line.isLt⟩
  | none =>
      refine triple_get fun s₁ hs₁ => ?_
      refine (blank_ofExcept _).bind fun window => ?_
      obtain ⟨i, maxLine, conditions⟩ := window
      dsimp only
      refine Triple.bind (Q := fun _ s => ReadBelow s₀.table query.columnsOptimized i s ∧
        i ≤ 2 ^ 64 ∧ maxLine ≤ 2 ^ 64) ?_ fun count => ?_
      · refine triple_get fun _ _ => triple_pure fun s hs => ?_
        obtain ⟨hstrip, htable, hbody⟩ := hs
        rw [hs₁.1] at hstrip
        refine ⟨?_, stripSelect_le (Nat.zero_le _) hmax hstrip⟩
        rw [ReadBelow, hbody, htable]
        exact ⟨.refl _, rowsRead_nil _⟩
      · refine Triple.bind (Q := fun _ s => ReadBelow s₀.table query.columnsOptimized i s ∧
          i ≤ 2 ^ 64 ∧ maxLine ≤ 2 ^ 64) ?_ fun _ => ?_
        · exact triple_ite (fun _ => triple_throw fun _ _ => trivial) fun _ => triple_pure fun _ h => h
        · rintro s ⟨hbelow, hi, hmax⟩
          refine (Triple.bind (readBelow_scan _ _ _ _) fun _ => ?_) s hbelow
          refine triple_pure fun s hs => ⟨hs.1, hs.2.mono ?_⟩
          omega

/-- The cells of a row are those of the columns with these numbers. -/
theorem readColumns_cells {i : Nat} {cells : List VariantTypes}
    (h : t.peek (readColumns i t.info.columns ids) = .ok cells) :
    List.Forall₂ (fun id cell => ∃ column, t.info.columns[id]? = some column ∧
      t.peek (Tabble.readColumn i column) = .ok cell) ids cells := by
  induction ids generalizing cells with
  | nil =>
      cases h
      exact .nil
  | cons id ids ih =>
      unfold readColumns at h
      cases hget : t.info.columns[id]? with
      | none =>
          rw [hget] at h
          cases h
      | some column =>
          rw [hget] at h
          dsimp only at h
          rw [(Tabble.reads_readColumn i column).peek_bind fun _ =>
            (reads_readColumns i _ ids).bind fun _ => Tabble.reads_pure _] at h
          obtain ⟨cell, hcell, h⟩ := Except_bind_ok h
          rw [(reads_readColumns i _ ids).peek_bind fun _ => Tabble.reads_pure _] at h
          obtain ⟨rest, hrest, h⟩ := Except_bind_ok h
          cases h
          exact .cons ⟨column, hget, hcell⟩ (ih hrest)

theorem readRecord_cells {i : Nat} {row : List VariantTypes}
    (h : t.peek (readRecord i ids t.info.columns) = .ok row) :
    ∃ cells, row = idCell i :: cells ∧ List.Forall₂ (fun id cell => ∃ column,
      t.info.columns[id]? = some column ∧ t.peek (Tabble.readColumn i column) = .ok cell) ids cells := by
  unfold readRecord at h
  rw [(reads_readColumns i _ ids).peek_bind fun _ => Tabble.reads_pure _] at h
  obtain ⟨cells, hcells, h⟩ := Except_bind_ok h
  cases h
  exact ⟨cells, rfl, readColumns_cells hcells⟩

section rows
variable {rows : List (List VariantTypes)} {bound : Nat}

theorem RowsRead.exists_line (h : RowsRead t ids bound rows) :
    ∀ row ∈ rows, ∃ i, t.peek (readRecord i ids t.info.columns) = .ok row := by
  obtain ⟨lines, -, -, hrows⟩ := h
  induction hrows with
  | nil => exact List.forall_mem_nil _
  | cons hrow _ ih => exact List.forall_mem_cons.mpr ⟨⟨_, hrow⟩, ih⟩

theorem rowId_of_read {i : Nat} {row : List VariantTypes}
    (h : t.peek (readRecord i ids t.info.columns) = .ok row) (hi : i < 2 ^ 64) : rowId row = i := by
  obtain ⟨cells, rfl, -⟩ := readRecord_cells h
  change (BitVec.ofNat 64 i).toNat = i
  rw [BitVec.toNat_ofNat, Nat.mod_eq_of_lt hi]

theorem RowsRead.ids_sorted (h : RowsRead t ids (2 ^ 64) rows) :
    rows.Pairwise fun a b => rowId a < rowId b := by
  obtain ⟨lines, hsorted, hbound, hrows⟩ := h
  have hlines : rows.map rowId = lines := by
    clear hsorted
    induction hrows with
    | nil => rfl
    | cons hrow _ ih =>
        obtain ⟨hi, hbound⟩ := List.forall_mem_cons.mp hbound
        rw [List.map_cons, rowId_of_read hrow hi, ih hbound]
  rw [← hlines] at hsorted
  exact List.pairwise_map.mp hsorted

/-- A cell of a row that is read. -/
theorem read_cell {i k id : Nat} {row : List VariantTypes}
    (h : t.peek (readRecord i ids t.info.columns) = .ok row) (hk : ids[k]? = some id) :
    ∃ column, t.info.columns[id]? = some column ∧
      t.peek (Tabble.readColumn i column) = .ok (rowValue row (k + 1)) := by
  obtain ⟨cells, rfl, hcells⟩ := readRecord_cells h
  obtain ⟨hlt, rfl⟩ := List.getElem?_eq_some_iff.mp hk
  have hlen := hcells.length_eq
  obtain ⟨column, hcolumn, hread⟩ := hcells.get hlt (by omega)
  refine ⟨column, hcolumn, ?_⟩
  unfold rowValue
  rw [List.getElem?_cons_succ, List.getElem?_eq_getElem (by omega)]
  exact hread

theorem read_length {i : Nat} {row : List VariantTypes}
    (h : t.peek (readRecord i ids t.info.columns) = .ok row) : row.length = ids.length + 1 := by
  obtain ⟨cells, rfl, hcells⟩ := readRecord_cells h
  rw [List.length_cons, hcells.length_eq]

end rows
end Executor

/-- No column of any line reads as a NaN. -/
def Tabble.NaNFree (t : Tabble) : Prop :=
  ∀ i, ∀ column ∈ t.info.columns, ∀ v, t.peek (Tabble.readColumn i column) = .ok v → v.isNaN = false

theorem Tabble.NaNFree.row {t : Tabble} (h : t.NaNFree) {ids : List Nat} {i : Nat} {row : List VariantTypes}
    (hread : t.peek (Executor.readRecord i ids t.info.columns) = .ok row) : SQLid.NaNFree row := by
  obtain ⟨cells, rfl, hcells⟩ := Executor.readRecord_cells hread
  refine List.forall_mem_cons.mpr ⟨rfl, ?_⟩
  clear hread
  induction hcells with
  | nil => exact List.forall_mem_nil _
  | cons hcell _ ih =>
      obtain ⟨column, hcolumn, hvalue⟩ := hcell
      exact List.forall_mem_cons.mpr ⟨h i column (List.mem_of_getElem? hcolumn) _ hvalue, ih⟩

theorem readColumn_hasType (i : Nat) (c : Column) :
    Triple (fun _ : Tabble => True) (Tabble.readColumn i c) (fun v _ => v.hasType c.type = true)
      fun _ _ => True := by
  apply triple_ite
  · intro htext
    refine triple_map ((triple_true _).conseq (fun _ h => h) (fun s _ _ => ?_) fun _ _ h => h)
    cases htype : c.type <;> simp_all [ColumnType.isText, VariantTypes.hasType]
  · intro _
    unfold Tabble.readNumber
    split
    case h_4 type hvoid htext hstring =>
      refine (triple_true _).bind fun bs => triple_ofExcept (fun v _ hv _ => ?_) fun _ _ _ _ => trivial
      cases htype : c.type <;> rw [htype] at hv <;> cases hv <;> rfl
    all_goals exact triple_throw fun _ _ => trivial

/-- Only columns of floating point numbers hold a NaN. -/
theorem Tabble.nanFree_of_types {t : Tabble}
    (h : ∀ column ∈ t.info.columns, column.type ≠ .double ∧ column.type ≠ .float) : t.NaNFree := by
  intro i column hcolumn v hpeek
  obtain ⟨t', hrun⟩ : ∃ t', (Tabble.readColumn i column).run t = .ok v t' := by
    unfold Tabble.peek at hpeek
    cases hrun : (Tabble.readColumn i column).run t with
    | error e t' =>
        rw [hrun] at hpeek
        cases hpeek
    | ok a t' =>
        rw [hrun] at hpeek
        cases hpeek
        exact ⟨t', rfl⟩
  exact VariantTypes.isNaN_of_type ((readColumn_hasType i column).ok trivial hrun) (h column hcolumn)

/-! The keys of an ORDER BY. -/

/-- The place of the named column in the rows. -/
def columnPlace (info : TabbleInfo) (ids : List Nat) (rawColumn : Text) : Nat :=
  if Optimizer.isId rawColumn then 0
  else match info.columnsMap.lookup rawColumn with
    | none => 0
    | some id => ids.idxOf id + 1

/-- The place the optimizer looks at. -/
def soughtPlace (info : TabbleInfo) (columnsRaw : List Text) (rawColumn : Text) : Nat :=
  if Optimizer.isId rawColumn then 0
  else if rawColumn ∈ namedBefore columnsRaw then (namedBefore columnsRaw).idxOf rawColumn + 1
  else (info.columnsMap.lookup rawColumn).getD 0 + 1

/-- The order as it is written: `ASC`, which the parser makes `true` of, is ascending. -/
def writtenKeys (info : TabbleInfo) (ids : List Nat) (order : List OderTypeRaw) : List (Nat × Bool) :=
  order.map fun clause => (columnPlace info ids clause.rawColumn, clause.isGreaterSort)

/-- The order the rows come in. -/
def soughtKeys (info : TabbleInfo) (columnsRaw : List Text) (order : List OderTypeRaw) : List (Nat × Bool) :=
  order.map fun clause => (soughtPlace info columnsRaw clause.rawColumn, !clause.isGreaterSort)

section
variable {info : TabbleInfo} {columnsRaw : List Text} {ids : List Nat} {order : List OderTypeRaw}
  {keys : List OderTypeOpt}

theorem soughtPlace_eq {rawColumn : Text} (hid : ¬ Optimizer.isId rawColumn = true) {place : Nat}
    (h : Optimizer.orderPlace info rawColumn 0 columnsRaw = .ok place) :
    soughtPlace info columnsRaw rawColumn = place := by
  unfold soughtPlace
  rw [if_neg hid]
  rcases Optimizer.orderPlace_ok h with ⟨hmem, rfl⟩ | ⟨hnot, -, id, hlookup, rfl⟩
  · rw [if_pos hmem, Nat.zero_add]
  · rw [if_neg hnot, hlookup, Option.getD_some]

theorem sortedKeys_eq (hkeys : Optimizer.optimizeOrdering info columnsRaw order = .ok keys) :
    sortedKeys keys = soughtKeys info columnsRaw order := by
  have hboth := Optimizer.optimizeOrdering_ok hkeys
  clear hkeys
  induction hboth with
  | nil => rfl
  | @cons clause key order keys hkey _ ih =>
      obtain ⟨hflag, hplace⟩ := hkey
      change (key.rawId, !key.isGreaterSort) :: sortedKeys keys =
        (soughtPlace info columnsRaw clause.rawColumn, !clause.isGreaterSort) :: soughtKeys info columnsRaw order
      rw [ih, hflag]
      by_cases hid : Optimizer.isId clause.rawColumn = true
      · rw [if_pos hid] at hplace
        unfold soughtPlace
        rw [if_pos hid, hplace]
      · rw [if_neg hid] at hplace
        rw [soughtPlace_eq hid hplace]

/-- Every place is one of the row. -/
theorem keys_inside (hmap : info.columnsMap = columnsMapFrom 0 info.columns [])
    (hids : Optimizer.optimizeColumns info columnsRaw = .ok ids)
    (hkeys : Optimizer.optimizeOrdering info columnsRaw order = .ok keys) :
    ∀ key ∈ keys, key.rawId < ids.length + 1 := by
  have hboth := Optimizer.optimizeOrdering_ok hkeys
  clear hkeys
  obtain ⟨front, hfront, rfl⟩ := Optimizer.optimizeColumns_ok hids
  have hlen := hfront.length_eq
  induction hboth with
  | nil => exact List.forall_mem_nil _
  | @cons clause key order keys hkey _ ih =>
      refine List.forall_mem_cons.mpr ⟨?_, ih⟩
      obtain ⟨-, hplace⟩ := hkey
      by_cases hid : Optimizer.isId clause.rawColumn = true
      · rw [if_pos hid] at hplace
        omega
      · rw [if_neg hid] at hplace
        rw [List.length_append]
        rcases Optimizer.orderPlace_ok hplace with ⟨hmem, hkey⟩ | ⟨-, hstar, id, hlookup, hkey⟩
        · have hlt := List.idxOf_lt_length_of_mem hmem
          omega
        · obtain ⟨column, hcolumn, -⟩ := lookup_name hmap hlookup
          have hlt := (List.getElem?_eq_some_iff.mp hcolumn).1
          rw [if_pos hstar, List.length_range]
          omega

/-- A place that is reached holds the value of the named column. -/
theorem sought_value {t : Tabble} (hmap : t.info.columnsMap = columnsMapFrom 0 t.info.columns [])
    (hids : Optimizer.optimizeColumns t.info columnsRaw = .ok ids) {rawColumn : Text} {place : Nat}
    (hid : ¬ Optimizer.isId rawColumn = true)
    (hplace : Optimizer.orderPlace t.info rawColumn 0 columnsRaw = .ok place)
    (hreached : Reached columnsRaw rawColumn) {i : Nat} {row : List VariantTypes}
    (hrow : t.peek (Executor.readRecord i ids t.info.columns) = .ok row) :
    rowValue row place = rowValue row (columnPlace t.info ids rawColumn) := by
  have hright := (keyRight_iff hmap hids (Bool.eq_false_iff.mpr hid) hplace).mpr hreached
  obtain ⟨k, rfl⟩ : ∃ k, place = k + 1 := by
    rcases Optimizer.orderPlace_ok hplace with ⟨-, h⟩ | ⟨-, -, id, -, h⟩
    · exact ⟨_, h⟩
    · exact ⟨_, h⟩
  obtain ⟨id, hlookup, hget⟩ := (keyRight_succ (Bool.eq_false_iff.mpr hid) k).mp hright
  have hmem := List.mem_of_getElem? hget
  have hfirst : ids[ids.idxOf id]? = some id := by
    rw [List.getElem?_eq_getElem (List.idxOf_lt_length_of_mem hmem), List.getElem_idxOf]
  unfold columnPlace
  rw [if_neg hid, hlookup]
  obtain ⟨column, hcolumn, hsought⟩ := Executor.read_cell hrow hget
  obtain ⟨column', hcolumn', hnamed⟩ := Executor.read_cell hrow hfirst
  rw [hcolumn] at hcolumn'
  cases hcolumn'
  rw [hsought] at hnamed
  exact Except.ok.inj hnamed

end

theorem rowAhead_congr {keys keys' : List (Nat × Bool)} {a b : List VariantTypes}
    (h : List.Forall₂ (fun key key' => key.2 = key'.2 ∧ rowValue a key.1 = rowValue a key'.1 ∧
      rowValue b key.1 = rowValue b key'.1) keys keys') : rowAhead keys a b = rowAhead keys' a b := by
  induction h with
  | nil => rfl
  | @cons key key' keys keys' hkey _ ih =>
      obtain ⟨place, ascending⟩ := key
      obtain ⟨place', ascending'⟩ := key'
      obtain ⟨rfl, ha, hb⟩ := hkey
      unfold rowAhead
      rw [ih, ha, hb]

section
variable {t : Tabble} {columnsRaw : List Text} {ids : List Nat} {order : List OderTypeRaw}
  {keys : List OderTypeOpt}

/-- Where every name is reached the executor sorts by the named columns, the other way round. -/
theorem sorted_exchanged (hmap : t.info.columnsMap = columnsMapFrom 0 t.info.columns [])
    (hids : Optimizer.optimizeColumns t.info columnsRaw = .ok ids)
    (hkeys : Optimizer.optimizeOrdering t.info columnsRaw order = .ok keys)
    (hreached : ∀ clause ∈ order, Reached columnsRaw clause.rawColumn) {i j : Nat}
    {a b : List VariantTypes} (ha : t.peek (Executor.readRecord i ids t.info.columns) = .ok a)
    (hb : t.peek (Executor.readRecord j ids t.info.columns) = .ok b) :
    rowAhead (sortedKeys keys) a b = rowAhead (exchanged (writtenKeys t.info ids order)) a b := by
  apply rowAhead_congr
  have hboth := Optimizer.optimizeOrdering_ok hkeys
  clear hkeys
  induction hboth with
  | nil => exact .nil
  | @cons clause key order keys hkey _ ih =>
      obtain ⟨hclause, hreached⟩ := List.forall_mem_cons.mp hreached
      refine .cons ?_ (ih hreached)
      obtain ⟨hflag, hplace⟩ := hkey
      dsimp only
      refine ⟨by rw [hflag], ?_⟩
      by_cases hid : Optimizer.isId clause.rawColumn = true
      · rw [if_pos hid] at hplace
        unfold columnPlace
        rw [if_pos hid, hplace]
        exact ⟨rfl, rfl⟩
      · rw [if_neg hid] at hplace
        exact ⟨sought_value hmap hids hid hplace hclause ha, sought_value hmap hids hid hplace hclause hb⟩

/-- An answer with an order is the answer without it, sorted. -/
theorem executeSelect_sorted {query : SelectQuery} (hmax : t.getMaxActiveLine ≤ 2 ^ 64) {r : Result}
    (hr : r.body = []) {s : Execution} (hrun : (Executor.executeSelect query).run ⟨t, r⟩ = .ok () s) :
    ∃ s₀, (Executor.executeSelect (Executor.unordered query)).run ⟨t, r⟩ = .ok () s₀ ∧
      Executor.RowsRead t query.columnsOptimized (2 ^ 64) s₀.result.body ∧
      s.result.body = Executor.sortBody query.orderColumnsOptimized s₀.result.body := by
  have hrows := Executor.unordered_rows query hmax
  cases hdir : Executor.directIndex query.conditions with
  | some desired =>
      have hone := Executor.direct_single (t := t) query hdir
      obtain ⟨row, hbody⟩ := hone.ok (s := ⟨t, r⟩) ⟨rfl, hr⟩ hrun
      rw [Executor.executeSelect_direct query hdir] at hrun
      refine ⟨s, hrun, (hrows.ok (s := ⟨t, r⟩) ⟨rfl, hr⟩ hrun).2, ?_⟩
      rw [hbody]
      exact (List.mergeSort_singleton row).symm
  | none =>
      rw [Executor.executeSelect_scan query hdir] at hrun
      cases hscan : (Executor.executeSelect (Executor.unordered query)).run ⟨t, r⟩ with
      | error e s' =>
          rw [run_bind_error hscan] at hrun
          cases hrun
      | ok u s₀ =>
          rw [run_bind_ok hscan] at hrun
          refine ⟨s₀, rfl, (hrows.ok (s := ⟨t, r⟩) ⟨rfl, hr⟩ hscan).2, ?_⟩
          unfold Executor.sortAnswer at hrun
          by_cases hkeys : query.orderColumnsOptimized = []
          · rw [if_neg (not_not_intro hkeys)] at hrun
            cases hrun
            rw [hkeys]
            exact (List.mergeSort_of_pairwise (List.pairwise_of_forall fun _ _ => rfl)).symm
          · rw [if_pos hkeys] at hrun
            cases hrun
            rfl

/-- The query of a SELECT that was accepted. -/
theorem compile_select {info : TabbleInfo} {columns : List Text} {name : Text}
    {conditions : Option (List Text)} {limit : Option Nat} {order : Option (List OderTypeRaw)} {command : Text}
    (hst : (Statement.select columns name conditions limit order).WellFormed)
    (hcommand : (Statement.select columns name conditions limit order).Renders (CppText.words command)) :
    compile info command = .select <$> Optimizer.optimizeSelect info
      { tabbleName := name, rawConditions := conditions.getD [], limit := limit.getD sizeMax,
        columnsRaw := columns, oderColumnsRaw := order.getD [] } :=
  compile_renders hst hcommand

end

section
variable {os : Os} {t : Tabble} {columns : List Text} {name : Text} {conditions : Option (List Text)}
  {limit : Option Nat} {order : List OderTypeRaw} {command plain : Text} {s : Execution}

/-- A SELECT with an ORDER BY answers with the sorted rows of the same SELECT without one. -/
theorem ordered_select (hmax : t.getMaxActiveLine ≤ 2 ^ 64)
    (hst : (Statement.select columns name conditions limit (some order)).WellFormed)
    (hcommand : (Statement.select columns name conditions limit (some order)).Renders (CppText.words command))
    (hplain : (Statement.select columns name conditions limit none).Renders (CppText.words plain))
    (hrun : request os command t = .ok () s) :
    ∃ ids keys s₀, Optimizer.optimizeColumns t.info columns = .ok ids ∧
      Optimizer.optimizeOrdering t.info columns order = .ok keys ∧ request os plain t = .ok () s₀ ∧
      Executor.RowsRead t ids (2 ^ 64) s₀.result.body ∧
      s.result.body = Executor.sortBody keys s₀.result.body := by
  have hordered : compile t.info command = _ := compile_select hst hcommand
  have hunordered : compile t.info plain = _ :=
    compile_select (show (Statement.select columns name conditions limit none).WellFormed from hst) hplain
  cases hopt : compile t.info command with
  | error e =>
      have hfault : (Operator.answer os command).run ⟨t, {}⟩ = .error e ⟨t, {}⟩ := run_answer_error hopt {}
      unfold request at hrun
      rw [hfault] at hrun
      cases hrun
  | ok query =>
      rw [hopt] at hordered
      obtain ⟨q, hq, rfl⟩ := Except_map_ok hordered.symm
      obtain ⟨conds, hconds, hq⟩ := Except_bind_ok hq
      obtain ⟨ids, hids, hq⟩ := Except_bind_ok hq
      obtain ⟨keys, hkeys, hq⟩ := Except_bind_ok hq
      cases hq
      unfold Optimizer.optimizeSelect at hunordered
      dsimp only [Option.getD_none] at hconds hids hkeys hunordered
      rw [hconds, hids] at hunordered
      unfold request at hrun ⊢
      rw [run_answer hopt, run_execute] at hrun
      obtain ⟨s₀, hrun₀, hrows, hbody⟩ := executeSelect_sorted hmax rfl hrun
      refine ⟨ids, keys, s₀, hids, hkeys, ?_, hrows, hbody⟩
      rw [run_answer hunordered, run_execute]
      exact hrun₀

/-- The answer is in the order that is written exactly when the places the optimizer finds,
compared the other way round, put every two rows into it. Where they are those of the named
columns, that is when all rows tie. -/
theorem written_order_iff (hmap : t.info.columnsMap = columnsMapFrom 0 t.info.columns [])
    (hmax : t.getMaxActiveLine ≤ 2 ^ 64) (hnan : t.NaNFree)
    (hst : (Statement.select columns name conditions limit (some order)).WellFormed)
    (hcommand : (Statement.select columns name conditions limit (some order)).Renders (CppText.words command))
    (hplain : (Statement.select columns name conditions limit none).Renders (CppText.words plain))
    (hrun : request os command t = .ok () s) :
    ∃ ids s₀, Optimizer.optimizeColumns t.info columns = .ok ids ∧ request os plain t = .ok () s₀ ∧
      (RowsOrdered (writtenKeys t.info ids order) s₀.result.body s.result.body ↔
        ∀ a b, List.Sublist [a, b] s₀.result.body →
          rowAhead (soughtKeys t.info columns order) b a = rowAhead (writtenKeys t.info ids order) b a) ∧
      ((∀ clause ∈ order, Reached columns clause.rawColumn) →
        (RowsOrdered (writtenKeys t.info ids order) s₀.result.body s.result.body ↔
          ∀ a ∈ s₀.result.body, ∀ b ∈ s₀.result.body, rowTied (writtenKeys t.info ids order) a b = true)) := by
  obtain ⟨ids, keys, s₀, hids, hkeys, hrun₀, hrows, hbody⟩ := ordered_select hmax hst hcommand hplain hrun
  have hlines := hrows.exists_line
  have hfree : ∀ row ∈ s₀.result.body, SQLid.NaNFree row := fun row hrow =>
    (hlines row hrow).elim fun _ hread => hnan.row hread
  have hwide : ∀ row ∈ s₀.result.body, ∀ key ∈ keys, key.rawId < row.length := by
    intro row hrow key hkey
    obtain ⟨i, hread⟩ := hlines row hrow
    rw [Executor.read_length hread]
    exact keys_inside hmap hids hkeys key hkey
  refine ⟨ids, s₀, hids, hrun₀, ?_, fun hreached => ?_⟩
  · rw [hbody, ← sortedKeys_eq hkeys]
    exact sortBody_ordered_iff hfree hwide hrows.ids_sorted
  · rw [hbody]
    refine sortBody_exchanged_iff hfree hwide hrows.ids_sorted fun a ha b hb => ?_
    obtain ⟨i, hread⟩ := hlines a ha
    obtain ⟨j, hread'⟩ := hlines b hb
    exact sorted_exchanged hmap hids hkeys hreached hread hread'

end
/-! Two rows with the numbers 7 and 8, and two with the number 7. -/

def sampleRows : Tabble := answered Tabble.sampleOpened "INSERT INTO t 7 8"

def sampleTies : Tabble := answered Tabble.sampleOpened "INSERT INTO t 7 7"

theorem sampleRows_reach : Reach Orderly .reliable Tabble.sampleInfo sampleRows := by
  exact reach_answered (.start Tabble.sampleOpened_opens)
    (orderly_of_undirected Tabble.sampleOpened_idle (by decide +kernel)) (by decide +kernel)

theorem sample_ordered : (Statement.select [str "*"] (str "t") none none (some [⟨str "n", true⟩])).Renders
    (CppText.words (str "SELECT * FROM t ORDER BY n ASC")) := by
  have hwords : CppText.words (str "SELECT * FROM t ORDER BY n ASC") = str "SELECT" :: ([str "*"] ++
      str "FROM" :: str "t" :: (whereWords none ++ ([] ++ orderWords ((some [⟨str "n", true⟩]).map sortWords)))) := by
    decide
  rw [hwords]
  exact .select .absent

theorem sample_unordered : (Statement.select [str "*"] (str "t") none none none).Renders
    (CppText.words (str "SELECT * FROM t")) := by
  have hwords : CppText.words (str "SELECT * FROM t") = str "SELECT" :: ([str "*"] ++
      str "FROM" :: str "t" :: (whereWords none ++ ([] ++ orderWords (none.map sortWords)))) := by
    decide
  rw [hwords]
  exact .select .absent

theorem sample_wellFormed (order : Option (List OderTypeRaw)) :
    (Statement.select [str "*"] (str "t") none none order).WellFormed :=
  ⟨by decide, fun _ h => by (cases h), fun _ h => by (cases h)⟩

theorem written_order_iff_sample : ∃ s s₀ : Execution,
    request .reliable (str "SELECT * FROM t ORDER BY n ASC") sampleTies = .ok () s ∧
      request .reliable (str "SELECT * FROM t") sampleTies = .ok () s₀ ∧
      RowsOrdered (writtenKeys sampleTies.info [0] [⟨str "n", true⟩]) s₀.result.body s.result.body := by
  obtain ⟨⟨⟩, s, hrun⟩ := exists_of_isOk
    (show isOk (request .reliable (str "SELECT * FROM t ORDER BY n ASC") sampleTies) = true by decide +kernel)
  have hmap : sampleTies.info.columnsMap = columnsMapFrom 0 sampleTies.info.columns [] := by decide +kernel
  have hmax : sampleTies.getMaxActiveLine ≤ 2 ^ 64 := by decide +kernel
  have hnan : sampleTies.NaNFree := Tabble.nanFree_of_types (by decide +kernel)
  have hcolumns : Optimizer.optimizeColumns sampleTies.info [str "*"] = .ok [0] := by decide +kernel
  have hbody : (finalState (request .reliable (str "SELECT * FROM t") sampleTies)).result.body =
      [[.int64 0, .int32 7], [.int64 1, .int32 7]] := by decide +kernel
  obtain ⟨ids, s₀, hids, hrun₀, -, htied⟩ :=
    written_order_iff hmap hmax hnan (sample_wellFormed _) sample_ordered sample_unordered hrun
  rw [hcolumns] at hids
  cases hids
  rw [hrun₀] at hbody
  have hrows : s₀.result.body = _ := hbody
  refine ⟨s, s₀, hrun, hrun₀, (htied (by decide +kernel)).mpr ?_⟩
  rw [hrows]
  decide +kernel

def sampleBody : List (List VariantTypes) := [[.int64 0, .int32 7], [.int64 1, .int32 8]]

theorem sampleBody_unordered : ¬ RowsOrdered [(1, true)] sampleBody (Executor.sortBody [⟨1, true⟩] sampleBody) := by
  have hfree : ∀ row ∈ sampleBody, NaNFree row := by simp [sampleBody, NaNFree, VariantTypes.isNaN]
  have hexchanged : ∀ a ∈ sampleBody, ∀ b ∈ sampleBody,
      rowAhead (sortedKeys [⟨1, true⟩]) a b = rowAhead (exchanged [(1, true)]) a b := by decide
  rw [sortBody_exchanged_iff hfree (by decide) (by decide) hexchanged]
  decide

/-- `SELECT * FROM t ORDER BY n ASC` answers 8 before 7. -/
theorem ascending_descends : ¬ ∀ (os : Os) (schema : TabbleInfo) (t : Tabble) (columns : List Text) (name : Text)
    (conditions : Option (List Text)) (limit : Option Nat) (order : List OderTypeRaw) (command plain : Text)
    (s : Execution), schema.Regular → Reach Orderly os schema t → t.NaNFree →
    (Statement.select columns name conditions limit (some order)).WellFormed →
    (Statement.select columns name conditions limit (some order)).Renders (CppText.words command) →
    (Statement.select columns name conditions limit none).Renders (CppText.words plain) →
    request os command t = .ok () s → ∃ ids s₀, Optimizer.optimizeColumns t.info columns = .ok ids ∧
      request os plain t = .ok () s₀ ∧ RowsOrdered (writtenKeys t.info ids order) s₀.result.body s.result.body := by
  intro h
  have hrun : request .reliable (str "SELECT * FROM t ORDER BY n ASC") sampleRows = .ok () _ :=
    eq_ok_of_isOk (by decide +kernel)
  have hnan : sampleRows.NaNFree := Tabble.nanFree_of_types (by decide +kernel)
  obtain ⟨ids, s₀, hids, hrun₀, hordered⟩ := h .reliable _ sampleRows [str "*"] (str "t") none none
    [⟨str "n", true⟩] (str "SELECT * FROM t ORDER BY n ASC") (str "SELECT * FROM t") _ sampleInfo_regular
    sampleRows_reach hnan (sample_wellFormed _) sample_ordered sample_unordered hrun
  have hcolumns : Optimizer.optimizeColumns sampleRows.info [str "*"] = .ok [0] := by decide +kernel
  rw [hcolumns] at hids
  cases hids
  have hbody : (finalState (request .reliable (str "SELECT * FROM t") sampleRows)).result.body =
      sampleBody := by decide +kernel
  rw [hrun₀] at hbody
  have hrows : s₀.result.body = _ := hbody
  obtain ⟨ids, keys, s₁, -, hkeys, hrun₁, -, hsorted⟩ := ordered_select (by decide +kernel)
    (sample_wellFormed _) sample_ordered sample_unordered hrun
  rw [hrun₀] at hrun₁
  cases hrun₁
  have hplaces : Optimizer.optimizeOrdering sampleRows.info [str "*"] [⟨str "n", true⟩] = .ok [⟨1, true⟩] := by
    decide +kernel
  rw [hplaces] at hkeys
  cases hkeys
  rw [hsorted, hrows] at hordered
  have hkey : writtenKeys sampleRows.info [0] [⟨str "n", true⟩] = [(1, true)] := by decide +kernel
  rw [hkey] at hordered
  exact sampleBody_unordered hordered

end SQLid
