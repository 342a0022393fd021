import Mathlib.Data.Nat.ModEq
import Mathlib.Tactic.Positivity
import Mathlib.Data.List.Basic
import Mathlib.Data.List.TakeWhile

/-!
# Byte stores and little-endian numbers

A store is a total map from addresses to bytes. `blit` overwrites a range,
`slice` reads one, and the lemmas say which reads an overwrite can change.
-/
namespace Bytes

abbrev Text := List UInt8

/-- The `n` low bytes of a number, least significant first. -/
def leBytes : Nat → Nat → Text
  | 0, _ => []
  | n+1, v => UInt8.ofNat v :: leBytes n (v / 256)

def leNat : Text → Nat
  | [] => 0
  | b :: bs => b.toNat + 256 * leNat bs

@[simp] theorem length_leBytes (n v : Nat) : (leBytes n v).length = n := by
  induction n generalizing v with
  | zero => rfl
  | succ n ih => simp [leBytes, ih]

theorem leNat_leBytes (n v : Nat) : leNat (leBytes n v) = v % 256 ^ n := by
  induction n generalizing v with
  | zero => simp [leBytes, leNat, Nat.mod_one]
  | succ n ih =>
    have hb : (UInt8.ofNat v).toNat = v % 256 := by simp
    rw [leBytes, leNat, ih, hb, pow_succ', Nat.mod_mul]

theorem leBytes_add (m n v : Nat) : leBytes (m + n) v = leBytes m v ++ leBytes n (v / 256 ^ m) := by
  induction m generalizing v with
  | zero => simp [leBytes]
  | succ m ih =>
    rw [Nat.succ_add, leBytes, leBytes, ih, List.cons_append, Nat.div_div_eq_div_mul, ← pow_succ']

theorem leNat_append (as bs : Text) : leNat (as ++ bs) = leNat as + 256 ^ as.length * leNat bs := by
  induction as with
  | nil => simp [leNat]
  | cons a as ih =>
    rw [List.cons_append, leNat, leNat, ih, List.length_cons, pow_succ', Nat.mul_add, Nat.mul_assoc,
      Nat.add_assoc]

/-- The number whose low bytes have been overwritten. -/
def overwrite (width old : Nat) (bs : Text) : Nat := leNat (bs ++ (leBytes width old).drop bs.length)

/-- The low bytes of a number make it that number only if the others are its own already. -/
theorem overwrite_eq_iff {width w old v : Nat} (hw : w ≤ width) (hold : old < 256 ^ width)
    (hv : v < 256 ^ width) :
    overwrite width old ((leBytes width v).take w) = v ↔ old / 256 ^ w = v / 256 ^ w := by
  obtain ⟨n, rfl⟩ := Nat.exists_eq_add_of_le hw
  have hhigh : old / 256 ^ w < 256 ^ n := by
    rw [Nat.div_lt_iff_lt_mul (by positivity), Nat.mul_comm, ← pow_add]
    exact hold
  have hval : overwrite (w + n) old ((leBytes (w + n) v).take w) =
      v % 256 ^ w + 256 ^ w * (old / 256 ^ w) := by
    unfold overwrite
    rw [leBytes_add, List.take_left' (length_leBytes w v), length_leBytes, leBytes_add,
      List.drop_left' (length_leBytes w old), leNat_append, leNat_leBytes, leNat_leBytes,
      length_leBytes, Nat.mod_eq_of_lt hhigh]
  rw [hval]
  constructor
  · intro h
    have hpos : 0 < 256 ^ w := by positivity
    exact Nat.eq_of_mul_eq_mul_left hpos
      (Nat.add_left_cancel (h.trans (Nat.mod_add_div v (256 ^ w)).symm))
  · intro h
    rw [h, Nat.mod_add_div]

def blit (f : Nat → UInt8) (a : Nat) (bs : Text) : Nat → UInt8 := fun k =>
  if a ≤ k ∧ k < a + bs.length then bs.getD (k - a) 0 else f k

def slice (f : Nat → UInt8) : Nat → Nat → Text
  | _, 0 => []
  | a, n+1 => f a :: slice f (a+1) n

@[simp] theorem length_slice (f : Nat → UInt8) (a n : Nat) : (slice f a n).length = n := by
  induction n generalizing a with
  | zero => rfl
  | succ n ih => simp [slice, ih]

theorem slice_congr {f g : Nat → UInt8} {a n : Nat}
    (h : ∀ k, a ≤ k → k < a + n → f k = g k) : slice f a n = slice g a n := by
  induction n generalizing a with
  | zero => rfl
  | succ n ih =>
    rw [slice, slice, h a le_rfl (by omega), ih fun k hk hk' => h k (by omega) (by omega)]

theorem blit_of_not_mem {f : Nat → UInt8} {a k : Nat} {bs : Text}
    (h : k < a ∨ a + bs.length ≤ k) : blit f a bs k = f k := by
  unfold blit
  rw [if_neg (by omega)]

theorem blit_of_mem {f : Nat → UInt8} {a k : Nat} {bs : Text}
    (h : a ≤ k) (h' : k < a + bs.length) : blit f a bs k = bs.getD (k - a) 0 := by
  unfold blit
  rw [if_pos ⟨h, h'⟩]

theorem slice_blit_disjoint {f : Nat → UInt8} {a b n : Nat} {bs : Text}
    (h : b + n ≤ a ∨ a + bs.length ≤ b) : slice (blit f a bs) b n = slice f b n :=
  slice_congr fun _ hk hk' => blit_of_not_mem (by omega)

theorem slice_blit_self (f : Nat → UInt8) (a : Nat) (bs : Text) :
    slice (blit f a bs) a bs.length = bs := by
  induction bs generalizing f a with
  | nil => rfl
  | cons b bs ih =>
    have hhead : blit f a (b :: bs) a = b := by
      rw [blit_of_mem le_rfl (by simp)]
      simp
    have htail : slice (blit f a (b :: bs)) (a+1) bs.length = slice (blit f (a+1) bs) (a+1) bs.length := by
      refine slice_congr fun k hk hk' => ?_
      rw [blit_of_mem (by omega) (by simp; omega), blit_of_mem hk hk']
      obtain ⟨d, rfl⟩ := Nat.exists_eq_add_of_le hk
      have h1 : a + 1 + d - a = d + 1 := by omega
      have h2 : a + 1 + d - (a + 1) = d := by omega
      rw [h1, h2, List.getD_cons_succ]
    rw [List.length_cons, slice, hhead, htail, ih]

@[simp] theorem blit_nil (f : Nat → UInt8) (a : Nat) : blit f a [] = f :=
  funext fun _ => blit_of_not_mem (by simp; omega)

/-- Addresses may be counted from another base. -/
theorem slice_shift (f : Nat → UInt8) (b a n : Nat) :
    slice f (b + a) n = slice (fun k => f (b + k)) a n := by
  induction n generalizing a with
  | zero => rfl
  | succ n ih => rw [slice, slice, Nat.add_assoc, ih]

theorem blit_shift (f : Nat → UInt8) (b a k : Nat) (bs : Text) :
    blit f (b + a) bs (b + k) = blit (fun k => f (b + k)) a bs k := by
  unfold blit
  have hiff : (b + a ≤ b + k ∧ b + k < b + a + bs.length) ↔ (a ≤ k ∧ k < a + bs.length) := by omega
  have hsub : b + k - (b + a) = k - a := by omega
  simp only [hiff, hsub]

/-- Text up to its first NUL. -/
def cutNul (bs : Text) : Text := bs.takeWhile (· ≠ 0)

theorem cutNul_length_le (bs : Text) : (cutNul bs).length ≤ bs.length :=
  (List.takeWhile_sublist _).length_le

/-- `std::string::resize`: cut at the end or padded there with NULs. -/
def resize (bs : Text) (n : Nat) : Text := bs.take n ++ List.replicate (n - bs.length) 0

@[simp] theorem length_resize (bs : Text) (n : Nat) : (resize bs n).length = n := by
  simp only [resize, List.length_append, List.length_take, List.length_replicate]
  omega

theorem cutNul_append_replicate (bs : Text) (n : Nat) :
    cutNul (bs ++ List.replicate n 0) = cutNul bs := by
  induction bs with
  | nil => cases n <;> simp [cutNul, List.replicate_succ]
  | cons b bs ih =>
    unfold cutNul at ih ⊢
    rw [List.cons_append, List.takeWhile_cons, List.takeWhile_cons, ih]

/-- A text is kept if nothing is cut off and it has no NUL. -/
theorem cutNul_take_eq_iff {bs : Text} {n : Nat} : cutNul (bs.take n) = bs ↔ bs.length ≤ n ∧ 0 ∉ bs := by
  constructor
  · intro h
    have hlen := congrArg List.length h
    have hcut := cutNul_length_le (bs.take n)
    rw [List.length_take] at hcut
    have hle : bs.length ≤ n := by omega
    refine ⟨hle, fun hzero => ?_⟩
    rw [List.take_of_length_le hle] at h
    rw [← h] at hzero
    simpa using List.mem_takeWhile_imp hzero
  · rintro ⟨hle, hzero⟩
    rw [List.take_of_length_le hle]
    refine List.takeWhile_eq_self_iff.mpr fun b hb => ?_
    rw [decide_eq_true_eq]
    rintro rfl
    exact hzero hb

/-- Padding is invisible to a reader that stops at the first NUL. -/
theorem cutNul_resize (bs : Text) (n : Nat) : cutNul (resize bs n) = cutNul (bs.take n) :=
  cutNul_append_replicate _ _

end Bytes
