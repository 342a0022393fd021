import SQLid.Library.Bytes

/-!
# Writes laid over one another

Of several writes to a store the last one that covers an address decides its byte;
an address none of them covers keeps the byte it had.
-/
namespace Bytes

/-- The byte the last write to an address leaves there. -/
def layers : List (Nat × Text) → Nat → Option UInt8
  | [], _ => none
  | (a, bs) :: writes, k => (layers writes k).or (if a ≤ k then bs[k - a]? else none)

/-- The store after the writes. -/
def laid (f : Nat → UInt8) (writes : List (Nat × Text)) (k : Nat) : UInt8 :=
  (layers writes k).getD (f k)

theorem blit_eq_getD (f : Nat → UInt8) (a : Nat) (bs : Text) (k : Nat) :
    blit f a bs k = (if a ≤ k then bs[k - a]? else none).getD (f k) := by
  by_cases hk : a ≤ k
  · rw [if_pos hk]
    by_cases hend : k < a + bs.length
    · rw [blit_of_mem hk hend, List.getD_eq_getElem?_getD, List.getElem?_eq_getElem (by omega)]
      rfl
    · rw [blit_of_not_mem (by omega), List.getElem?_eq_none (by omega)]
      rfl
  · rw [if_neg hk, blit_of_not_mem (by omega)]
    rfl

theorem laid_cons (f : Nat → UInt8) (a : Nat) (bs : Text) (writes : List (Nat × Text)) (k : Nat) :
    laid f ((a, bs) :: writes) k = laid (blit f a bs) writes k := by
  have hlayers : layers ((a, bs) :: writes) k =
    (layers writes k).or (if a ≤ k then bs[k - a]? else none) := rfl
  unfold laid
  rw [hlayers, blit_eq_getD]
  cases layers writes k <;> rfl

theorem laid_of_none {f : Nat → UInt8} {writes : List (Nat × Text)} {k : Nat}
    (h : layers writes k = none) : laid f writes k = f k := by
  unfold laid
  rw [h]
  rfl

theorem laid_of_some {f : Nat → UInt8} {writes : List (Nat × Text)} {k : Nat} {b : UInt8}
    (h : layers writes k = some b) : laid f writes k = b := by
  unfold laid
  rw [h]
  rfl

theorem layers_eq_none_iff {writes : List (Nat × Text)} {k : Nat} :
    layers writes k = none ↔ ∀ w ∈ writes, k < w.1 ∨ w.1 + w.2.length ≤ k := by
  induction writes with
  | nil => simp [layers]
  | cons w writes ih =>
    obtain ⟨a, bs⟩ := w
    unfold layers
    rw [Option.or_eq_none_iff, ih, List.forall_mem_cons, and_comm]
    refine and_congr_left fun _ => ?_
    by_cases hk : a ≤ k
    · rw [if_pos hk, List.getElem?_eq_none_iff]
      dsimp only
      omega
    · rw [if_neg hk]
      simp only [true_iff]
      omega

/-- A text read up to its first NUL, place by place. -/
theorem cutNul_eq_iff {bs e : Text} (he : ∀ b ∈ e, b ≠ 0) :
    cutNul bs = e ↔ (∀ p < e.length, bs[p]? = e[p]?) ∧ (bs.length = e.length ∨ bs[e.length]? = some 0) := by
  induction bs generalizing e with
  | nil =>
      cases e with
      | nil => simp [cutNul]
      | cons x e =>
          constructor
          · intro h
            cases h
          · rintro ⟨h, -⟩
            have := h 0 (Nat.succ_pos _)
            cases this
  | cons b bs ih =>
      cases e with
      | nil =>
          unfold cutNul
          by_cases hb : b = 0
          · simp [hb]
          · simp [hb]
      | cons x e =>
          have hrest := ih (e := e) fun y hy => he y (List.mem_cons_of_mem x hy)
          have hx := he x List.mem_cons_self
          unfold cutNul at hrest ⊢
          constructor
          · intro h
            by_cases hb : b = 0
            · simp [hb] at h
            · rw [List.takeWhile_cons_of_pos (by simpa using hb), List.cons.injEq] at h
              obtain ⟨rfl, h⟩ := h
              obtain ⟨hplaces, hend⟩ := hrest.mp h
              refine ⟨fun p hp => ?_, ?_⟩
              · cases p with
                | zero => rfl
                | succ p => exact hplaces p (Nat.lt_of_succ_lt_succ hp)
              · simpa using hend
          · rintro ⟨hplaces, hend⟩
            have hbx : b = x := by simpa using hplaces 0 (Nat.succ_pos _)
            subst hbx
            rw [List.takeWhile_cons_of_pos (by simpa using hx), hrest.mpr]
            refine ⟨fun p hp => hplaces (p + 1) (Nat.succ_lt_succ hp), ?_⟩
            simpa using hend

theorem getElem?_slice {f : Nat → UInt8} {a n p : Nat} (hp : p < n) :
    (slice f a n)[p]? = some (f (a + p)) := by
  induction n generalizing a p with
  | zero => omega
  | succ n ih =>
    cases p with
    | zero => rfl
    | succ p =>
        rw [slice, List.getElem?_cons_succ, ih (by omega), Nat.add_assoc, Nat.add_comm 1 p]

theorem mem_cutNul_ne {bs : Text} : ∀ b ∈ cutNul bs, b ≠ 0 := by
  intro b hb
  have := List.all_eq_true.mp (List.all_takeWhile (l := bs) (p := fun b => decide (b ≠ 0))) b hb
  simpa using this

/-- A range reads as this text whatever was there before, exactly if the writes put the text
there and a NUL behind it, where there is room for one. -/
theorem forall_cutNul_laid_iff {writes : List (Nat × Text)} {a n : Nat} {e : Text}
    (he : ∀ b ∈ e, b ≠ 0) (hn : e.length ≤ n) :
    (∀ f, cutNul (slice (laid f writes) a n) = e) ↔
      (∀ p < e.length, layers writes (a + p) = e[p]?) ∧
        (n = e.length ∨ layers writes (a + e.length) = some 0) := by
  constructor
  · intro h
    have hzero := (cutNul_eq_iff he).mp (h fun _ => 0)
    have hone := (cutNul_eq_iff he).mp (h fun _ => 1)
    refine ⟨fun p hp => ?_, ?_⟩
    · -- a byte that was not written would be the NUL of an empty store
      have hplace := hzero.1 p hp
      rw [getElem?_slice (by omega), List.getElem?_eq_getElem hp] at hplace
      have hne := he e[p] (List.getElem_mem hp)
      cases hl : layers writes (a + p) with
      | none =>
          rw [laid_of_none hl, Option.some.injEq] at hplace
          exact absurd hplace.symm hne
      | some b => rw [List.getElem?_eq_getElem hp, ← hplace, laid_of_some hl]
    · by_cases hfull : n = e.length
      · exact .inl hfull
      · refine .inr ?_
        have hend := hone.2.resolve_left (by rw [length_slice]; exact hfull)
        rw [getElem?_slice (by omega), Option.some.injEq] at hend
        cases hl : layers writes (a + e.length) with
        | none =>
            rw [laid_of_none hl] at hend
            exact absurd hend (by decide)
        | some b => rw [← hend, laid_of_some hl]
  · rintro ⟨hplaces, hend⟩ f
    rw [cutNul_eq_iff he, length_slice]
    refine ⟨fun p hp => ?_, ?_⟩
    · have hplace := hplaces p hp
      rw [List.getElem?_eq_getElem hp] at hplace ⊢
      rw [getElem?_slice (by omega), laid_of_some hplace]
    · by_cases hfull : n = e.length
      · exact .inl hfull
      · rw [getElem?_slice (by omega), laid_of_some (hend.resolve_left hfull)]
        exact .inr rfl

end Bytes
