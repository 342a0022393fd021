import Mathlib.Data.List.Nodup
import Mathlib.Data.List.Pairwise
import Mathlib.Order.Lattice

/-!
# Stable sorts

What a stable sort by one comparison says about another: the list it makes is sorted by
the other exactly when the two agree on every pair of elements in their first order. The
comparisons by several keys, each ascending or descending, are of this kind.
-/
namespace StableSort
variable {α : Type}

/-- A strict comparison: what is not ahead of each other is tied, and tied elements are
interchangeable. -/
structure Comparison (ahead : α → α → Bool) : Prop where
  asymm : ∀ a b, ahead a b = true → ahead b a = false
  trans : ∀ a b c, ahead b a = false → ahead c b = false → ahead c a = false

/-- `ys` is `xs` in order, elements that tie by rank. -/
structure Ordered (ahead : α → α → Bool) (rank : α → Nat) (xs ys : List α) : Prop where
  perm : ys.Perm xs
  sorted : ys.Pairwise fun a b => ahead b a = false
  stable : ys.Pairwise fun a b => ahead a b = false → ahead b a = false → rank a < rank b

section
variable {l : List α} {x y : α}

theorem sublist_pair (hx : x ∈ l) (hy : y ∈ l) (hne : x ≠ y) :
    List.Sublist [x, y] l ∨ List.Sublist [y, x] l := by
  have hpairs : l.Pairwise fun a b => List.Sublist [a, b] l ∨ List.Sublist [b, a] l :=
    List.pairwise_iff_forall_sublist.mpr fun h => .inl h
  have : Std.Symm fun a b => List.Sublist [a, b] l ∨ List.Sublist [b, a] l := ⟨fun _ _ h => h.symm⟩
  exact hpairs.forall hx hy hne

theorem not_sublist_swap (hl : l.Nodup) (h : List.Sublist [x, y] l) : ¬ List.Sublist [y, x] l := by
  induction l with
  | nil => cases h
  | cons a l ih =>
      obtain ⟨ha, hl⟩ := List.nodup_cons.mp hl
      intro hswap
      cases h with
      | cons _ h =>
          cases hswap with
          | cons _ hswap => exact ih hl h hswap
          | cons_cons _ _ => exact ha (h.subset (List.mem_cons_of_mem x (List.mem_singleton_self y)))
      | cons_cons _ h =>
          cases hswap with
          | cons _ hswap => exact ha (hswap.subset (List.mem_cons_of_mem _ (List.mem_singleton_self _)))
          | cons_cons _ _ => exact ha (h.subset (List.mem_singleton_self _))

end

section
variable {ahead sortAhead : α → α → Bool} {rank : α → Nat} {xs : List α}

theorem Comparison.le_trans (h : Comparison ahead) (a b c : α) (hab : (!ahead b a) = true)
    (hbc : (!ahead c b) = true) : (!ahead c a) = true := by
  rw [Bool.not_eq_true'] at hab hbc ⊢
  exact h.trans a b c hab hbc

theorem Comparison.le_total (h : Comparison ahead) (a b : α) : (!ahead b a || !ahead a b) = true := by
  cases hab : ahead a b with
  | false => simp
  | true => simp [h.asymm a b hab]

theorem Comparison.sorted (h : Comparison ahead) (xs : List α) :
    (xs.mergeSort fun a b => !ahead b a).Pairwise fun a b => ahead b a = false :=
  (List.pairwise_mergeSort h.le_trans h.le_total xs).imp fun hab => by simpa using hab

/-- What is not to be moved stays in front. -/
theorem Comparison.keeps (h : Comparison ahead) {a b : α} (hab : ahead b a = false)
    (hpair : List.Sublist [a, b] xs) : List.Sublist [a, b] (xs.mergeSort fun a b => !ahead b a) :=
  List.pair_sublist_mergeSort h.le_trans h.le_total (by rw [hab]; rfl) hpair

/-- A stable sort sorts by another comparison exactly when the two agree on whether a later
element goes ahead of an earlier one. -/
theorem ordered_mergeSort_iff (hahead : Comparison ahead) (hsort : Comparison sortAhead)
    (hrank : xs.Pairwise fun a b => rank a < rank b) :
    Ordered ahead rank xs (xs.mergeSort fun a b => !sortAhead b a) ↔
      ∀ a b, List.Sublist [a, b] xs → sortAhead b a = ahead b a := by
  have hranked : ∀ {a b}, List.Sublist [a, b] xs → rank a < rank b :=
    List.pairwise_iff_forall_sublist.mp hrank
  have hnodup : xs.Nodup := hrank.imp fun h => by
    rintro rfl
    omega
  have hperm := List.mergeSort_perm xs fun a b => !sortAhead b a
  have hsorted : ∀ {a b}, List.Sublist [a, b] (xs.mergeSort fun a b => !sortAhead b a) →
      sortAhead b a = false := List.pairwise_iff_forall_sublist.mp (hsort.sorted xs)
  constructor
  · intro h a b hpair
    have hlt := hranked hpair
    have hresult : ∀ {a b}, List.Sublist [a, b] (xs.mergeSort fun a b => !sortAhead b a) →
        ahead b a = false := List.pairwise_iff_forall_sublist.mp h.sorted
    cases hba : sortAhead b a with
    | false => exact (hresult (hsort.keeps hba hpair)).symm
    | true =>
        -- the sort has moved `b` ahead, so the other comparison must ask for it
        have ha : a ∈ xs := hpair.subset (by simp)
        have hb : b ∈ xs := hpair.subset (by simp)
        have hne : b ≠ a := by
          rintro rfl
          omega
        rcases sublist_pair (hperm.mem_iff.mpr hb) (hperm.mem_iff.mpr ha) hne with hmoved | hkept
        · by_contra hnot
          have hstable := List.pairwise_iff_forall_sublist.mp h.stable hmoved
          have hrev := hstable (by simpa using Ne.symm hnot) (hresult hmoved)
          omega
        · rw [hsorted hkept] at hba
          cases hba
  · intro h
    -- an earlier element is behind a later one only when both comparisons say so
    have hpairs : ∀ a b, List.Sublist [a, b] (xs.mergeSort fun a b => !sortAhead b a) →
        List.Sublist [a, b] xs ∨ ahead a b = true := by
      intro a b hpair
      have ha : a ∈ xs := hperm.mem_iff.mp (hpair.subset (by simp))
      have hb : b ∈ xs := hperm.mem_iff.mp (hpair.subset (by simp))
      have hresult : (xs.mergeSort fun a b => !sortAhead b a).Nodup := hperm.nodup_iff.mpr hnodup
      have hne : a ≠ b := by
        rintro rfl
        exact List.nodup_iff_sublist.mp hresult a hpair
      rcases sublist_pair ha hb hne with hfirst | hsecond
      · exact .inl hfirst
      · refine .inr ?_
        rw [← h b a hsecond]
        by_contra hnot
        exact not_sublist_swap hresult hpair (hsort.keeps (by simpa using hnot) hsecond)
    refine ⟨hperm, List.pairwise_iff_forall_sublist.mpr fun {a b} hpair => ?_,
      List.pairwise_iff_forall_sublist.mpr fun {a b} hpair hab hba => ?_⟩
    · rcases hpairs a b hpair with hfirst | hmoved
      · rw [← h a b hfirst]
        exact hsorted hpair
      · exact hahead.asymm a b hmoved
    · rcases hpairs a b hpair with hfirst | hmoved
      · exact hranked hfirst
      · rw [hab] at hmoved
        cases hmoved

end

/-! Comparison by several keys. -/

section
variable {κ : Type} [LinearOrder κ]

/-- Whether `a` stands ahead of `b` by the first key on which they differ. -/
def keyAhead : List ((α → κ) × Bool) → α → α → Bool
  | [], _, _ => false
  | (key, ascending) :: keys, a, b =>
      if key a = key b then keyAhead keys a b
      else if ascending then decide (key a < key b) else decide (key b < key a)

def Tied (keys : List ((α → κ) × Bool)) (a b : α) : Prop := ∀ key ∈ keys, key.1 a = key.1 b

theorem keyAhead_cons (key : α → κ) (ascending : Bool) (keys : List ((α → κ) × Bool)) (a b : α) :
    keyAhead ((key, ascending) :: keys) a b = if key a = key b then keyAhead keys a b
      else if ascending then decide (key a < key b) else decide (key b < key a) := rfl

/-- Every key the other way round. -/
def reversed (keys : List ((α → κ) × Bool)) : List ((α → κ) × Bool) :=
  keys.map fun key => (key.1, !key.2)

variable {keys : List ((α → κ) × Bool)} {a b : α}

theorem keyAhead_comparison (keys : List ((α → κ) × Bool)) : Comparison (keyAhead keys) := by
  induction keys with
  | nil => exact ⟨fun _ _ _ => rfl, fun _ _ _ _ _ => rfl⟩
  | cons key keys ih =>
      obtain ⟨key, ascending⟩ := key
      constructor
      · intro a b h
        have := ih.asymm a b
        rw [keyAhead_cons] at h ⊢
        grind
      · intro a b c hba hcb
        have := ih.trans a b c
        rw [keyAhead_cons] at hba hcb ⊢
        grind

theorem keyAhead_reversed (keys : List ((α → κ) × Bool)) (a b : α) :
    keyAhead (reversed keys) a b = keyAhead keys b a := by
  induction keys with
  | nil => rfl
  | cons key keys ih =>
      obtain ⟨key, ascending⟩ := key
      change keyAhead ((key, !ascending) :: reversed keys) a b = _
      rw [keyAhead_cons, keyAhead_cons]
      cases ascending with
      | false => simp [ih, eq_comm]
      | true => simp [ih, eq_comm]

theorem tied_iff : Tied keys a b ↔ keyAhead keys a b = false ∧ keyAhead keys b a = false := by
  induction keys with
  | nil => exact ⟨fun _ => ⟨rfl, rfl⟩, fun _ => List.forall_mem_nil _⟩
  | cons key keys ih =>
      obtain ⟨key, ascending⟩ := key
      have hcons : Tied ((key, ascending) :: keys) a b ↔ key a = key b ∧ Tied keys a b := by
        simp [Tied]
      rw [hcons, ih]
      rw [keyAhead_cons, keyAhead_cons]
      by_cases heq : key a = key b
      · simp [heq]
      · rcases lt_or_gt_of_ne heq with hlt | hlt
        · cases ascending <;> simp [heq, Ne.symm heq, hlt]
        · cases ascending <;> simp [heq, Ne.symm heq, hlt]

variable (keys) in
/-- Sorted the other way round, only elements that tie are in order. -/
theorem agree_reversed_iff (xs : List α) :
    (∀ a b, List.Sublist [a, b] xs → keyAhead (reversed keys) b a = keyAhead keys b a) ↔
      ∀ a ∈ xs, ∀ b ∈ xs, Tied keys a b := by
  constructor
  · intro h
    have htied : ∀ a b, List.Sublist [a, b] xs → keyAhead keys a b = false ∧ keyAhead keys b a = false := by
      intro a b hpair
      have hsame := h a b hpair
      rw [keyAhead_reversed] at hsame
      cases hba : keyAhead keys b a with
      | false => exact ⟨hsame.trans hba, rfl⟩
      | true =>
          rw [hba, (keyAhead_comparison keys).asymm b a hba] at hsame
          cases hsame
    intro a ha b hb
    by_cases hne : a = b
    · rw [hne]
      exact fun _ _ => rfl
    · rcases sublist_pair ha hb hne with hpair | hpair
      · exact tied_iff.mpr (htied a b hpair)
      · exact tied_iff.mpr (htied b a hpair).symm
  · intro h a b hpair
    obtain ⟨hab, hba⟩ := tied_iff.mp (h a (hpair.subset (by simp)) b (hpair.subset (by simp)))
    rw [keyAhead_reversed, hab, hba]

end
end StableSort
