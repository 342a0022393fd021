import Mathlib.Data.Nat.Count
import Mathlib.Data.List.Basic

/-!
# Slot pools

Numbered slots below a capacity, each in use or free. A pool hands out the last
released slot first and then the first slot never used, and it may be rebuilt
from the use marks alone.
-/
namespace SlotPool

structure Pool where
  used : Nat → Bool
  stack : List Nat
  top : Nat
  cap : Nat

/-- The stack is exactly the free slots below `top`, and nothing above is in use. -/
structure Pool.Inv (p : Pool) : Prop where
  nodup : p.stack.Nodup
  mem_stack : ∀ i, i ∈ p.stack ↔ i < p.top ∧ p.used i = false
  above : ∀ i, p.top ≤ i → i < p.cap → p.used i = false
  top_le : p.top ≤ p.cap

/-- How many slots are in use. -/
def Pool.count (p : Pool) : Nat := Nat.count (fun i => p.used i = true) p.cap

theorem count_congr {f g : Nat → Bool} {n : Nat} (h : ∀ i < n, f i = g i) :
    Nat.count (fun i => f i = true) n = Nat.count (fun i => g i = true) n := by
  induction n with
  | zero => rfl
  | succ n ih =>
    rw [Nat.count_succ, Nat.count_succ, ih fun i hi => h i (by omega), h n (by omega)]

theorem count_update_true {f : Nat → Bool} {n i : Nat} (hi : i < n) (hf : f i = false) :
    Nat.count (fun j => Function.update f i true j = true) n =
      Nat.count (fun j => f j = true) n + 1 := by
  induction n with
  | zero => omega
  | succ n ih =>
    rw [Nat.count_succ, Nat.count_succ]
    by_cases hin : i = n
    · subst hin
      have hsame : Nat.count (fun j => Function.update f i true j = true) i =
          Nat.count (fun j => f j = true) i :=
        count_congr fun j hj => Function.update_of_ne (by omega) _ _
      rw [hsame]
      simp [hf]
    · rw [ih (by omega), Function.update_of_ne (Ne.symm hin)]
      omega

theorem count_update_false {f : Nat → Bool} {n i : Nat} (hi : i < n) (hf : f i = true) :
    Nat.count (fun j => Function.update f i false j = true) n + 1 =
      Nat.count (fun j => f j = true) n := by
  rw [← count_update_true hi (f := Function.update f i false) (by simp)]
  simp only [Function.update_idem, ← hf, Function.update_eq_self]

theorem count_eq_of_false {f : Nat → Bool} {m n : Nat} (hmn : m ≤ n)
    (h : ∀ i, m ≤ i → i < n → f i = false) :
    Nat.count (fun i => f i = true) n = Nat.count (fun i => f i = true) m := by
  induction n, hmn using Nat.le_induction with
  | base => rfl
  | succ n hn ih =>
    rw [Nat.count_succ, ih fun i hi hi' => h i hi (by omega)]
    simp [h n hn (by omega)]

section
variable {p : Pool} (h : p.Inv)
include h

/-- The slot on the stack is free and stays in range when it is taken. -/
theorem Pool.Inv.take {i : Nat} {rest : List Nat} (hs : p.stack = i :: rest) :
    i < p.top ∧ p.used i = false ∧
      (Pool.mk (Function.update p.used i true) rest p.top p.cap).Inv := by
  have hi := (h.mem_stack i).mp (by simp [hs])
  have hnd := h.nodup
  rw [hs, List.nodup_cons] at hnd
  refine ⟨hi.1, hi.2, hnd.2, fun j => ?_, fun j hj hj' => ?_, h.top_le⟩
  · have hj := h.mem_stack j
    rw [hs, List.mem_cons] at hj
    by_cases hji : j = i
    · subst hji
      simp [hnd.1]
    · simp only [hji, false_or] at hj
      simp only [hj, Function.update_of_ne hji]
  · simp only at hj hj' ⊢
    rw [Function.update_of_ne (by omega)]
    exact h.above j hj hj'

/-- With an empty stack the pool is full below `top`, so the next slot is fresh. -/
theorem Pool.Inv.bump (hs : p.stack = []) (hcap : p.top < p.cap) :
    (Pool.mk (Function.update p.used p.top true) [] (p.top + 1) p.cap).Inv := by
  refine ⟨List.nodup_nil, fun j => ?_, fun j hj hj' => ?_, hcap⟩
  · have hj := h.mem_stack j
    rw [hs] at hj
    by_cases hjt : j = p.top
    · simp [hjt]
    · simp only [List.not_mem_nil, false_iff, not_and, Function.update_of_ne hjt] at hj ⊢
      intro hlt
      exact hj (by omega)
  · simp only at hj hj' ⊢
    rw [Function.update_of_ne (by omega)]
    exact h.above j (by omega) hj'

/-- An empty stack and `top` at the capacity leave no free slot. -/
theorem Pool.Inv.full (hs : p.stack = []) (hcap : p.cap ≤ p.top) : ∀ i < p.cap, p.used i = true := by
  intro i hi
  by_contra hne
  have hmem := (h.mem_stack i).mpr ⟨by omega, by simpa using hne⟩
  simp [hs] at hmem

theorem Pool.Inv.release {i : Nat} (hi : i < p.cap) (hu : p.used i = true) :
    (Pool.mk (Function.update p.used i false) (i :: p.stack) p.top p.cap).Inv := by
  have hnot : i ∉ p.stack := fun hm => by simp [((h.mem_stack i).mp hm).2] at hu
  have htop : i < p.top := by
    by_contra hlt
    simp [h.above i (by omega) hi] at hu
  refine ⟨List.nodup_cons.mpr ⟨hnot, h.nodup⟩, fun j => ?_, fun j hj hj' => ?_, h.top_le⟩
  · have hj := h.mem_stack j
    by_cases hji : j = i
    · simp [hji, htop]
    · simp only [List.mem_cons, hji, false_or, hj, Function.update_of_ne hji]
  · simp only at hj hj' ⊢
    rw [Function.update_of_ne (by omega)]
    exact h.above j hj hj'

/-- More capacity, with the new slots free. -/
theorem Pool.Inv.grow (used : Nat → Bool) (cap : Nat) (hcap : p.cap ≤ cap)
    (hold : ∀ i < p.cap, used i = p.used i) (hnew : ∀ i, p.cap ≤ i → i < cap → used i = false) :
    (Pool.mk used p.stack p.top cap).Inv := by
  have htop := h.top_le
  refine ⟨h.nodup, fun j => ?_, fun j hj hj' => ?_, htop.trans hcap⟩
  · simp only [h.mem_stack j]
    constructor
    · rintro ⟨hlt, hu⟩
      exact ⟨hlt, (hold j (by omega)).trans hu⟩
    · rintro ⟨hlt, hu⟩
      exact ⟨hlt, (hold j (by omega)).symm.trans hu⟩
  · by_cases hjc : j < p.cap
    · exact (hold j hjc).trans (h.above j hj hjc)
    · exact hnew j (by omega) hj'

end

/-! Rebuilding a pool from its marks: one pass finds the last slot in use, a
second one stacks the free slots below it. -/

def lastUsed (used : Nat → Bool) : Nat → Nat
  | 0 => 0
  | n+1 => if used n then n + 1 else lastUsed used n

theorem lastUsed_le (used : Nat → Bool) (n : Nat) : lastUsed used n ≤ n := by
  induction n with
  | zero => exact le_rfl
  | succ n ih =>
    rw [lastUsed]
    split_ifs <;> omega

theorem lastUsed_above (used : Nat → Bool) (n : Nat) :
    ∀ i, lastUsed used n ≤ i → i < n → used i = false := by
  induction n with
  | zero => intro i _ hi; omega
  | succ n ih =>
    intro i hi hin
    rw [lastUsed] at hi
    split_ifs at hi with hn
    · omega
    · rcases Nat.lt_succ_iff_lt_or_eq.mp hin with hlt | rfl
      · exact ih i hi hlt
      · simpa using hn

/-- The free slots below `n`, the highest first. -/
def holes (used : Nat → Bool) (n : Nat) : List Nat :=
  ((List.range n).filter fun i => !used i).reverse

theorem holes_succ (used : Nat → Bool) (n : Nat) :
    holes used (n + 1) = if used n then holes used n else n :: holes used n := by
  unfold holes
  rw [List.range_succ, List.filter_append, List.reverse_append]
  cases h : used n <;> simp [h]

theorem rebuild_inv (used : Nat → Bool) (cap : Nat) :
    (Pool.mk used (holes used (lastUsed used cap)) (lastUsed used cap) cap).Inv := by
  refine ⟨?_, fun i => ?_, lastUsed_above used cap, lastUsed_le used cap⟩
  · exact List.nodup_reverse.mpr (List.nodup_range.filter _)
  · simp [holes]

end SlotPool
