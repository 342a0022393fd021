import Mathlib.Data.List.Basic

/-!
# A stream that arrives in pieces

Reading what one piece holds, and reading a number of elements whatever the pieces.
Pieces without elements are passed over.
-/
namespace Pieces
variable {α : Type}

/-- At most `k` elements of the first piece that has any; nothing at the end. -/
def readSome (k : Nat) : List (List α) → Option (List α × List (List α))
  | [] => none
  | [] :: pieces => readSome k pieces
  | (a :: piece) :: pieces => some ((a :: piece).take k, (a :: piece).drop k :: pieces)

/-- Exactly `k` elements, or nothing if fewer are left. -/
def readAll : Nat → List (List α) → Option (List α × List (List α))
  | 0, pieces => some ([], pieces)
  | _+1, [] => none
  | k+1, piece :: pieces =>
      if k + 1 ≤ piece.length then some (piece.take (k + 1), piece.drop (k + 1) :: pieces)
      else (readAll (k + 1 - piece.length) pieces).map fun r => (piece ++ r.1, r.2)

theorem readSome_none {k : Nat} {pieces : List (List α)} (h : readSome k pieces = none) :
    pieces.flatten = [] := by
  induction pieces with
  | nil => rfl
  | cons piece pieces ih =>
      cases piece with
      | nil => exact ih h
      | cons a piece => cases h

theorem readSome_some {k : Nat} {pieces rest : List (List α)} {bs : List α}
    (h : readSome k pieces = some (bs, rest)) :
    pieces.flatten = bs ++ rest.flatten ∧ bs.length ≤ k ∧ (0 < k → bs ≠ []) := by
  induction pieces with
  | nil => cases h
  | cons piece pieces ih =>
      cases piece with
      | nil => exact ih h
      | cons a piece =>
          cases h
          refine ⟨?_, List.length_take_le k _, fun hk hnil => ?_⟩
          · rw [List.flatten_cons, List.flatten_cons, ← List.append_assoc, List.take_append_drop]
          · rcases List.take_eq_nil_iff.1 hnil with rfl | hnil
            · exact absurd hk (by decide)
            · cases hnil

theorem readAll_some {k : Nat} {pieces rest : List (List α)} {bs : List α}
    (h : readAll k pieces = some (bs, rest)) :
    pieces.flatten = bs ++ rest.flatten ∧ bs.length = k := by
  induction pieces generalizing k bs with
  | nil =>
      cases k with
      | zero =>
          cases h
          exact ⟨rfl, rfl⟩
      | succ k => cases h
  | cons piece pieces ih =>
      cases k with
      | zero =>
          cases h
          exact ⟨rfl, rfl⟩
      | succ k =>
          unfold readAll at h
          split_ifs at h with hk
          · cases h
            refine ⟨?_, List.length_take_of_le hk⟩
            rw [List.flatten_cons, List.flatten_cons, ← List.append_assoc, List.take_append_drop]
          · obtain ⟨⟨bs', rest'⟩, hread, hbs⟩ := Option.map_eq_some_iff.1 h
            cases hbs
            obtain ⟨hflat, hlen⟩ := ih hread
            refine ⟨?_, ?_⟩
            · rw [List.flatten_cons, hflat, List.append_assoc]
            · rw [List.length_append, hlen]
              omega

theorem readAll_none {k : Nat} {pieces : List (List α)} (h : readAll k pieces = none) :
    pieces.flatten.length < k := by
  induction pieces generalizing k with
  | nil =>
      cases k with
      | zero => cases h
      | succ k => exact Nat.succ_pos k
  | cons piece pieces ih =>
      cases k with
      | zero => cases h
      | succ k =>
          unfold readAll at h
          split_ifs at h with hk
          have hrest := ih (Option.map_eq_none_iff.1 h)
          rw [List.flatten_cons, List.length_append]
          omega

/-- Whether enough is left decides the outcome. -/
theorem readAll_of_le {k : Nat} {pieces : List (List α)} (h : k ≤ pieces.flatten.length) :
    ∃ rest, readAll k pieces = some (pieces.flatten.take k, rest) ∧
      rest.flatten = pieces.flatten.drop k := by
  cases hread : readAll k pieces with
  | none => exact absurd (readAll_none hread) (Nat.not_lt.2 h)
  | some r =>
      obtain ⟨bs, rest⟩ := r
      obtain ⟨hflat, hlen⟩ := readAll_some hread
      refine ⟨rest, ?_, ?_⟩
      · rw [hflat, List.take_left' hlen]
      · rw [hflat, List.drop_left' hlen]

end Pieces
