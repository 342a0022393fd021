import Mathlib.Order.Defs.Unbundled
import Mathlib.Order.Lattice
import Mathlib.Data.Set.CoeSort

/-!
# Comparisons by keys that may be missing

Elements are compared by the first key that is not the same of both. A missing key is the
same as none and neither less nor greater than any. The comparison is always a strict order.
It is a strict weak one unless a missing key stands between two elements that other keys
tell apart.
-/
namespace MissingKeys
variable {α κ : Type}

/-- Both keys are there and equal. -/
def Same (key : α → Option κ) (a b : α) : Prop := ∃ x, key a = some x ∧ key b = some x

/-- Both keys are there, and in this order. -/
def Before [LinearOrder κ] (key : α → Option κ) (ascending : Bool) (a b : α) : Prop :=
  ∃ x y, key a = some x ∧ key b = some y ∧ if ascending then x < y else y < x

/-- Whether `a` stands ahead of `b` by the first key that is not the same of both. -/
def Ahead [LinearOrder κ] : List ((α → Option κ) × Bool) → α → α → Prop
  | [], _, _ => False
  | (key, ascending) :: keys, a, b => Before key ascending a b ∨ Same key a b ∧ Ahead keys a b

/-- The first key that is not the same of both is there of both. -/
def Apart : List ((α → Option κ) × Bool) → α → α → Prop
  | [], _, _ => False
  | (key, _) :: keys, a, b => (∃ x y, key a = some x ∧ key b = some y ∧ x ≠ y) ∨ Same key a b ∧ Apart keys a b

/-- `b` has no key at the first one that is not the same of all three. -/
def Between : List ((α → Option κ) × Bool) → α → α → α → Prop
  | [], _, _, _ => False
  | (key, _) :: keys, a, b, c => key b = none ∨ Same key a b ∧ Same key b c ∧ Between keys a b c

section
variable {key : α → Option κ} {ascending : Bool} {keys : List ((α → Option κ) × Bool)} {a b c : α}

theorem Same.symm (h : Same key a b) : Same key b a := by
  obtain ⟨x, ha, hb⟩ := h
  exact ⟨x, hb, ha⟩

theorem Same.trans (hab : Same key a b) (hbc : Same key b c) : Same key a c := by
  obtain ⟨x, ha, hb⟩ := hab
  obtain ⟨y, hb', hc⟩ := hbc
  rw [hb] at hb'
  cases hb'
  exact ⟨x, ha, hc⟩

/-- What a missing key stands between is told apart from neither side. -/
theorem Between.not_apart (h : Between keys a b c) : ¬ Apart keys a b ∧ ¬ Apart keys b c := by
  induction keys with
  | nil => exact h.elim
  | cons key keys ih =>
      obtain ⟨key, ascending⟩ := key
      rcases h with hnone | ⟨hab, hbc, h⟩
      · constructor
        · rintro (⟨x, y, -, hb, -⟩ | ⟨⟨x, -, hb⟩, -⟩) <;> simp [hnone] at hb
        · rintro (⟨x, y, hb, -, -⟩ | ⟨⟨x, hb, -⟩, -⟩) <;> simp [hnone] at hb
      · obtain ⟨x, ha, hb⟩ := hab
        obtain ⟨y, hb', hc⟩ := hbc
        obtain ⟨hleft, hright⟩ := ih h
        constructor
        · rintro (⟨v, w, hv, hw, hne⟩ | ⟨-, h⟩)
          · simp_all
          · exact hleft h
        · rintro (⟨v, w, hv, hw, hne⟩ | ⟨-, h⟩)
          · simp_all
          · exact hright h

/-- Elements that are apart have a missing key between them and what neither is told apart from. -/
theorem Apart.between (hac : Apart keys a c) (hab : ¬ Apart keys a b) (hbc : ¬ Apart keys b c) :
    Between keys a b c := by
  induction keys with
  | nil => exact hac
  | cons key keys ih =>
      obtain ⟨key, ascending⟩ := key
      cases hb : key b with
      | none => exact .inl hb
      | some y =>
          have hleft : ∀ {x}, key a = some x → x = y := fun ha => by
            by_contra hne
            exact hab (.inl ⟨_, y, ha, hb, hne⟩)
          have hright : ∀ {z}, key c = some z → y = z := fun hc => by
            by_contra hne
            exact hbc (.inl ⟨y, _, hb, hc, hne⟩)
          rcases hac with ⟨x, z, ha, hc, hne⟩ | ⟨⟨x, ha, hc⟩, hac⟩
          · exact absurd ((hleft ha).trans (hright hc)) hne
          · have hkey := hleft ha
            subst hkey
            have hab' : Same key a b := ⟨x, ha, hb⟩
            have hbc' : Same key b c := ⟨x, hb, hc⟩
            exact .inr ⟨hab', hbc', ih hac (fun h => hab (.inr ⟨hab', h⟩)) fun h => hbc (.inr ⟨hbc', h⟩)⟩

variable [LinearOrder κ]

theorem Same.before_iff_left (h : Same key a b) : Before key ascending a c ↔ Before key ascending b c := by
  obtain ⟨x, ha, hb⟩ := h
  simp [Before, ha, hb]

theorem Same.before_iff_right (h : Same key b c) : Before key ascending a b ↔ Before key ascending a c := by
  obtain ⟨x, hb, hc⟩ := h
  simp [Before, hb, hc]

theorem Before.irrefl (key : α → Option κ) (ascending : Bool) (a : α) : ¬ Before key ascending a a := by
  rintro ⟨x, y, hx, hy, h⟩
  rw [hx] at hy
  cases hy
  cases ascending <;> simp at h

theorem Before.trans (hab : Before key ascending a b) (hbc : Before key ascending b c) :
    Before key ascending a c := by
  obtain ⟨x, y, ha, hb, hxy⟩ := hab
  obtain ⟨y', z, hb', hc, hyz⟩ := hbc
  rw [hb] at hb'
  cases hb'
  refine ⟨x, z, ha, hc, ?_⟩
  cases ascending with
  | true => exact lt_trans hxy hyz
  | false => exact lt_trans hyz hxy

/-- Two keys that are there differ when one of them comes first. -/
theorem before_or_iff : (∃ x y, key a = some x ∧ key b = some y ∧ x ≠ y) ↔
    Before key ascending a b ∨ Before key ascending b a := by
  constructor
  · rintro ⟨x, y, ha, hb, hne⟩
    rcases lt_or_gt_of_ne hne with hlt | hlt
    · cases ascending with
      | true => exact .inl ⟨x, y, ha, hb, hlt⟩
      | false => exact .inr ⟨y, x, hb, ha, hlt⟩
    · cases ascending with
      | true => exact .inr ⟨y, x, hb, ha, hlt⟩
      | false => exact .inl ⟨x, y, ha, hb, hlt⟩
  · rintro (⟨x, y, ha, hb, h⟩ | ⟨y, x, hb, ha, h⟩)
    · refine ⟨x, y, ha, hb, ?_⟩
      rintro rfl
      cases ascending <;> simp at h
    · refine ⟨x, y, ha, hb, ?_⟩
      rintro rfl
      cases ascending <;> simp at h

theorem ahead_irrefl (keys : List ((α → Option κ) × Bool)) (a : α) : ¬ Ahead keys a a := by
  induction keys with
  | nil => exact id
  | cons key keys ih =>
      rintro (h | ⟨-, h⟩)
      · exact Before.irrefl _ _ a h
      · exact ih h

theorem ahead_trans (hab : Ahead keys a b) (hbc : Ahead keys b c) : Ahead keys a c := by
  induction keys with
  | nil => exact hab.elim
  | cons key keys ih =>
      rcases hab with hab | ⟨hsame, hab⟩
      · rcases hbc with hbc | ⟨hsame', -⟩
        · exact .inl (hab.trans hbc)
        · exact .inl (hsame'.before_iff_right.mp hab)
      · rcases hbc with hbc | ⟨hsame', hbc⟩
        · exact .inl (hsame.before_iff_left.mpr hbc)
        · exact .inr ⟨hsame.trans hsame', ih hab hbc⟩

/-- Elements are apart when one of them is ahead. -/
theorem apart_iff : Apart keys a b ↔ Ahead keys a b ∨ Ahead keys b a := by
  induction keys with
  | nil => exact (or_self_iff).symm
  | cons key keys ih =>
      obtain ⟨key, ascending⟩ := key
      have hsymm : Same key b a ↔ Same key a b := ⟨Same.symm, Same.symm⟩
      unfold Apart Ahead
      rw [ih, @before_or_iff _ _ key ascending, hsymm, and_or_left, or_or_or_comm]

/-- The comparison is a strict weak order on the elements unless a missing key stands between
two of them that are apart. -/
theorem strictWeak_iff (keys : List ((α → Option κ) × Bool)) (elements : Set α) :
    IsStrictWeakOrder elements (fun a b => Ahead keys a b) ↔
      ∀ a ∈ elements, ∀ b ∈ elements, ∀ c ∈ elements, Between keys a b c → ¬ Apart keys a c := by
  constructor
  · intro h a ha b hb c hc hbetween hapart
    obtain ⟨hab, hbc⟩ := hbetween.not_apart
    rw [apart_iff, not_or] at hab hbc
    have hac := h.incomp_trans ⟨a, ha⟩ ⟨b, hb⟩ ⟨c, hc⟩ hab hbc
    rw [apart_iff] at hapart
    exact not_or.mpr hac hapart
  · intro h
    refine { irrefl := fun a => ahead_irrefl keys a, trans := fun _ _ _ => ahead_trans, incomp_trans := ?_ }
    rintro ⟨a, ha⟩ ⟨b, hb⟩ ⟨c, hc⟩ hab hbc
    by_contra hac
    rw [not_and_or, not_not, not_not] at hac
    have hapart : Apart keys a c := apart_iff.mpr hac
    refine h a ha b hb c hc (hapart.between ?_ ?_) hapart
    · rw [apart_iff, not_or]
      exact hab
    · rw [apart_iff, not_or]
      exact hbc

end
end MissingKeys
