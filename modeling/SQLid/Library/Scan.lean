import SQLid.Library.Programs
import Mathlib.Data.List.Basic
import Mathlib.Data.Nat.Find

/-!
# Bounded scans

A scan walks over the indices of a window, tests each one and acts on those it
selects, until the window ends or it has acted often enough. How often it has
acted is read off the state.
-/
namespace Scan
open Programs
universe u
variable {ε σ : Type}

/-- `n` rounds from index `i` on, while `size` is below `count`. -/
def loop (size : σ → Nat) (count : Nat) (sel : Nat → EStateM ε σ Bool)
    (act : Nat → EStateM ε σ Unit) : Nat → Nat → EStateM ε σ Unit
  | 0, _ => pure ()
  | n+1, i => do
      if size (← get) < count then
        if ← sel i then act i
        loop size count sel act n (i + 1)

/-- The selected indices a scan acts on. -/
def picked (p : Nat → Bool) (i n k : Nat) : List Nat := ((List.range' i n).filter p).take k

theorem picked_zero (p : Nat → Bool) (i k : Nat) : picked p i 0 k = [] := by
  simp [picked]

theorem picked_none (p : Nat → Bool) (i n : Nat) : picked p i n 0 = [] := by
  simp [picked]

theorem picked_skip {p : Nat → Bool} {i : Nat} (hp : p i = false) (n k : Nat) :
    picked p i (n + 1) k = picked p (i + 1) n k := by
  simp [picked, List.range'_succ, hp]

theorem picked_take {p : Nat → Bool} {i : Nat} (hp : p i = true) (n k : Nat) :
    picked p i (n + 1) (k + 1) = i :: picked p (i + 1) n k := by
  simp [picked, List.range'_succ, hp]

section loop
variable {size : σ → Nat} {count : Nat} {sel : Nat → EStateM ε σ Bool}
  {act : Nat → EStateM ε σ Unit} {s : σ} {n i : Nat}

theorem loop_full (h : count ≤ size s) : (loop size count sel act n i).run s = .ok () s := by
  cases n with
  | zero => rfl
  | succ n =>
    unfold loop
    rw [run_bind_ok (EStateM.run_get s), if_neg (by omega)]
    rfl

theorem loop_step (h : size s < count) : (loop size count sel act (n + 1) i).run s =
    (sel i >>= fun b => (if b then act i else pure ()) >>= fun _ =>
      loop size count sel act n (i + 1)).run s := by
  rw [loop, run_bind_ok (EStateM.run_get s), if_pos h]
  cases hs : (sel i).run s with
  | error e s' => rw [run_bind_error hs, run_bind_error hs]
  | ok b s' =>
      rw [run_bind_ok hs, run_bind_ok hs]
      cases b <;> rfl

/-- The next round, if there is one. -/
theorem triple_loop_succ {P : σ → Prop} {Q : Unit → σ → Prop} {E : ε → σ → Prop}
    (hfull : ∀ s, P s → count ≤ size s → Q () s)
    (hround : ∀ s, P s → size s < count → Post Q E
      ((sel i >>= fun b => (if b then act i else pure ()) >>= fun _ =>
        loop size count sel act n (i + 1)).run s)) :
    Triple P (loop size count sel act (n + 1) i) Q E := by
  intro s hs
  by_cases h : count ≤ size s
  · rw [loop_full h]
    exact .ok (hfull s hs h)
  · rw [loop_step (by omega)]
    exact hround s hs (by omega)

end loop

/-- The selected indices from `start` up to `i`. -/
def passed (p : Nat → Bool) (start i : Nat) : List Nat := (List.range' start (i - start)).filter p

section passed
variable {p : Nat → Bool} {start i n k : Nat}

theorem passed_self (p : Nat → Bool) (start : Nat) : passed p start start = [] := by
  simp [passed]

theorem passed_succ (hi : start ≤ i) :
    passed p start (i + 1) = passed p start i ++ if p i then [i] else [] := by
  have hlen : i + 1 - start = i - start + 1 := by omega
  have hlast : start + (i - start) = i := by omega
  unfold passed
  rw [hlen, List.range'_1_concat, List.filter_append, hlast]
  cases hp : p i <;> simp [hp]

theorem mem_passed (hi : start ≤ i) {j : Nat} :
    j ∈ passed p start i ↔ (start ≤ j ∧ j < i) ∧ p j = true := by
  unfold passed
  rw [List.mem_filter, List.mem_range'_1, Nat.add_sub_cancel' hi]

theorem mem_picked {j : Nat} (h : j ∈ picked p start n k) : start ≤ j ∧ j < start + n ∧ p j = true := by
  have hmem := List.mem_filter.mp (List.mem_of_mem_take h)
  rw [List.mem_range'_1] at hmem
  exact ⟨hmem.1.1, hmem.1.2, hmem.2⟩

theorem passed_never (h : ∀ j, p j = false) : passed p start i = [] := by
  simp [passed, h]

theorem picked_never (h : ∀ j, p j = false) : picked p start n k = [] := by
  simp [picked, h]

theorem picked_nodup (p : Nat → Bool) (start n k : Nat) : (picked p start n k).Nodup :=
  (List.take_sublist k _).nodup ((List.nodup_range' ..).filter p)

/-- The first index that is selected is the first one acted on. -/
theorem picked_first (hi : start ≤ i) (hn : i < start + n) (hpassed : passed p start i = [])
    (hp : p i = true) (hk : 0 < k) : ∃ rest, picked p start n k = i :: rest := by
  obtain ⟨d, hd⟩ : ∃ d, n = i - start + (d + 1) := ⟨n - (i - start) - 1, by omega⟩
  obtain ⟨k, rfl⟩ : ∃ m, k = m + 1 := ⟨k - 1, by omega⟩
  have hsplit : List.range' start n = List.range' start (i - start) ++ i :: List.range' (i + 1) d := by
    rw [hd, ← List.range'_append_1, List.range'_succ, Nat.add_sub_cancel' hi]
  unfold passed at hpassed
  refine ⟨((List.range' (i + 1) d).filter p).take k, ?_⟩
  unfold picked
  rw [hsplit, List.filter_append, hpassed, List.nil_append, List.filter_cons_of_pos hp,
    List.take_succ_cons]

end passed

/-- Before any index nothing has been passed; behind a selected one, one more. -/
theorem passed_cons {p : Nat → Bool} {i j : Nat} (h : i < j) :
    passed p i j = (if p i then [i] else []) ++ passed p (i + 1) j := by
  have hlen : j - i = (j - (i + 1)) + 1 := by omega
  unfold passed
  rw [hlen, List.range'_succ, List.filter_cons]
  cases p i <;> rfl

/-- Two selections act on the same indices exactly when they agree on every index the second
one comes to with room for more. -/
theorem picked_eq_iff {p q : Nat → Bool} {i n k : Nat} :
    picked p i n k = picked q i n k ↔
      ∀ j, i ≤ j → j < i + n → (passed q i j).length < k → p j = q j := by
  induction n generalizing i k with
  | zero =>
    rw [picked_zero, picked_zero]
    exact iff_of_true rfl fun j hj hlt => by omega
  | succ n ih =>
    cases k with
    | zero =>
      rw [picked_none, picked_none]
      exact iff_of_true rfl fun j _ _ hlen => absurd hlen (Nat.not_lt_zero _)
    | succ k =>
      have hhere : (passed q i i).length < k + 1 := by
        rw [passed_self]
        exact Nat.succ_pos k
      have hmissing (r : Nat → Bool) : i ∉ picked r (i + 1) n (k + 1) := fun hmem =>
        absurd (mem_picked hmem).1 (by omega)
      cases hp : p i <;> cases hq : q i
      · rw [picked_skip hp, picked_skip hq, ih]
        constructor
        · intro h j hj hlt hlen
          rcases Nat.eq_or_lt_of_le hj with rfl | hnext
          · rw [hp, hq]
          · rw [passed_cons hnext, hq] at hlen
            exact h j hnext (by omega) hlen
        · intro h j hj hlt hlen
          refine h j (by omega) (by omega) ?_
          rw [passed_cons (by omega), hq]
          exact hlen
      · rw [picked_skip hp, picked_take hq]
        refine iff_of_false (fun heq => hmissing p ?_) fun h => ?_
        · rw [heq]
          exact List.mem_cons_self
        · exact absurd (h i le_rfl (by omega) hhere) (by simp [hp, hq])
      · rw [picked_take hp, picked_skip hq]
        refine iff_of_false (fun heq => hmissing q ?_) fun h => ?_
        · rw [← heq]
          exact List.mem_cons_self
        · exact absurd (h i le_rfl (by omega) hhere) (by simp [hp, hq])
      · rw [picked_take hp, picked_take hq, List.cons.injEq, ih]
        constructor
        · rintro ⟨-, h⟩ j hj hlt hlen
          rcases Nat.eq_or_lt_of_le hj with rfl | hnext
          · rw [hp, hq]
          · rw [passed_cons hnext, hq] at hlen
            exact h j hnext (by omega) (by simpa using hlen)
        · intro h
          refine ⟨rfl, fun j hj hlt hlen => h j (by omega) (by omega) ?_⟩
          rw [passed_cons (by omega), hq]
          simpa using hlen

/-- What a scan does round by round. `R done`: the scan has acted on `done`, which are the
selected indices so far. -/
theorem loop_picks {size : σ → Nat} {count : Nat} {sel : Nat → EStateM ε σ Bool}
    {act : Nat → EStateM ε σ Unit} {p : Nat → Bool} {R : List Nat → σ → Prop} {E : ε → σ → Prop}
    {start stop : Nat} (hsize : ∀ done s, R done s → size s = done.length)
    (hsel : ∀ j, start ≤ j → j < stop →
      Triple (R (passed p start j)) (sel j) (fun b s => b = p j ∧ R (passed p start j) s) E)
    (hact : ∀ j, start ≤ j → j < stop → p j = true → (passed p start j).length < count →
      Triple (R (passed p start j)) (act j) (fun _ s => R (passed p start j ++ [j]) s) E)
    {n i : Nat} (hi : start ≤ i) (hn : i + n ≤ stop) :
    Triple (R (passed p start i)) (loop size count sel act n i)
      (fun _ s => R (passed p start i ++ picked p i n (count - (passed p start i).length)) s) E := by
  induction n generalizing i with
  | zero => exact triple_pure fun s hs => by rwa [picked_zero, List.append_nil]
  | succ n ih =>
    intro s hs
    have hlen := hsize _ s hs
    have hnext := passed_succ (p := p) hi
    by_cases hfull : count ≤ size s
    · rw [loop_full hfull, Nat.sub_eq_zero_of_le (by omega), picked_none, List.append_nil]
      exact .ok hs
    · rw [loop_step (by omega)]
      refine ((hsel i hi (by omega)).bind fun b => ?_) s hs
      rintro s' ⟨rfl, hs'⟩
      have hrest := ih (i := i + 1) (by omega) (by omega)
      cases hp : p i with
      | false =>
          rw [hp, if_neg Bool.false_ne_true, List.append_nil] at hnext
          rw [hnext] at hrest
          rw [picked_skip hp]
          exact hrest s' hs'
      | true =>
          obtain ⟨k, hk⟩ : ∃ k, count - (passed p start i).length = k + 1 :=
            ⟨count - (passed p start i).length - 1, by omega⟩
          have hk' : count - (passed p start i ++ [i]).length = k := by
            rw [List.length_append, List.length_singleton]
            omega
          rw [hp, if_pos rfl] at hnext
          rw [hnext, hk', List.append_assoc, List.singleton_append] at hrest
          rw [hk, picked_take hp]
          exact ((hact i hi (by omega) hp (by omega)).bind fun _ => hrest) s' hs'

/-- A window in two parts. -/
theorem loop_add {size : σ → Nat} {count : Nat} {sel : Nat → EStateM ε σ Bool}
    {act : Nat → EStateM ε σ Unit} (m n i : Nat) (s : σ) :
    (loop size count sel act (m + n) i).run s =
      (loop size count sel act m i >>= fun _ => loop size count sel act n (i + m)).run s := by
  induction m generalizing i s with
  | zero =>
    rw [Nat.zero_add]
    rfl
  | succ m ih =>
    by_cases hfull : count ≤ size s
    · rw [loop_full hfull, run_bind_ok (loop_full hfull), loop_full hfull]
    · rw [Nat.succ_add, loop_step (by omega)]
      cases hsel : (sel i).run s with
      | error e s' =>
          rw [run_bind_error hsel, run_bind_error]
          rw [loop_step (by omega), run_bind_error hsel]
      | ok b s' =>
          rw [run_bind_ok hsel]
          cases hact : (if b then act i else pure () : EStateM ε σ Unit).run s' with
          | error e s'' =>
              rw [run_bind_error hact, run_bind_error]
              rw [loop_step (by omega), run_bind_ok hsel, run_bind_error hact]
          | ok u s'' =>
              rw [run_bind_ok hact, ih, Nat.add_right_comm, Nat.add_assoc]
              have hhead : (loop size count sel act (m + 1) i).run s =
                  (loop size count sel act m (i + 1)).run s'' := by
                rw [loop_step (by omega), run_bind_ok hsel, run_bind_ok hact]
              cases hm : (loop size count sel act m (i + 1)).run s'' with
              | ok v s₃ => rw [run_bind_ok hm, run_bind_ok (hhead.trans hm)]
              | error e s₃ => rw [run_bind_error hm, run_bind_error (hhead.trans hm)]

theorem triple_loop_add {size : σ → Nat} {count : Nat} {sel : Nat → EStateM ε σ Bool}
    {act : Nat → EStateM ε σ Unit} {P Q : σ → Prop} {R : Unit → σ → Prop} {E : ε → σ → Prop}
    {m n i : Nat} (hfirst : Triple P (loop size count sel act m i) (fun _ => Q) E)
    (hsecond : Triple Q (loop size count sel act n (i + m)) R E) :
    Triple P (loop size count sel act (m + n) i) R E := by
  intro s hs
  rw [loop_add]
  exact (hfirst.bind fun _ => hsecond) s hs

/-- An invariant of the rounds is one of the scan, which ends at the end of the window
or when it has acted often enough. -/
theorem loop_triple {size : σ → Nat} {count : Nat} {sel : Nat → EStateM ε σ Bool}
    {act : Nat → EStateM ε σ Unit} {I : Nat → σ → Prop} {J : Nat → σ → Prop} {E : ε → σ → Prop}
    (hsel : ∀ i, Triple (I i) (sel i) (fun b s => if b then J i s else I (i + 1) s) E)
    (hact : ∀ i, Triple (J i) (act i) (fun _ s => I (i + 1) s) E) (n i : Nat) :
    Triple (I i) (loop size count sel act n i)
      (fun _ s => ∃ j, I j s ∧ j ≤ i + n ∧ (j = i + n ∨ count ≤ size s)) E := by
  induction n generalizing i with
  | zero => exact triple_pure fun s hs => ⟨i, hs, le_rfl, .inl rfl⟩
  | succ n ih =>
    intro s hs
    by_cases hfull : count ≤ size s
    · rw [loop_full hfull]
      exact .ok ⟨i, hs, Nat.le_add_right i _, .inr hfull⟩
    · rw [loop_step (by omega)]
      have hnext : Triple (I (i + 1)) (loop size count sel act n (i + 1))
          (fun _ s => ∃ j, I j s ∧ j ≤ i + (n + 1) ∧ (j = i + (n + 1) ∨ count ≤ size s)) E :=
        (ih (i + 1)).conseq (fun _ h => h)
          (fun _ _ ⟨j, h, hle, hj⟩ => ⟨j, h, by omega, hj.imp_left fun hj => by omega⟩) fun _ _ h => h
      refine ((hsel i).bind fun b => Triple.bind ?_ fun _ => hnext) s hs
      cases b with
      | true => exact hact i
      | false => exact triple_pure fun s hs => hs

/-! Where a scan stops. -/

/-- Every index is `good` until the scan stops, at the end of the window or with enough indices. -/
def Swept (good : Nat → Prop) (p : Nat → Bool) (count start n : Nat) : Prop :=
  ∃ m ≤ n, (m = n ∨ count ≤ (passed p start (start + m)).length) ∧
    ∀ i, start ≤ i → i < start + m → good i

/-- The scan comes to an index that is not `good`. -/
def Stuck (good : Nat → Prop) (p : Nat → Bool) (count start n m : Nat) : Prop :=
  m < n ∧ (passed p start (start + m)).length < count ∧ ¬ good (start + m) ∧
    ∀ i, start ≤ i → i < start + m → good i

section Swept
variable {good good' : Nat → Prop} {p : Nat → Bool} {count start n : Nat}

theorem passed_length_mono {i j : Nat} (h : i ≤ j) : (passed p start i).length ≤ (passed p start j).length := by
  have hsub : List.Sublist (List.range' start (i - start)) (List.range' start (j - start)) :=
    List.range'_sublist_right.mpr (by omega)
  exact (hsub.filter p).length_le

/-- A scan sweeps its window or gets stuck in it. -/
theorem swept_or_stuck (good : Nat → Prop) (p : Nat → Bool) (count start n : Nat) :
    Swept good p count start n ∨ ∃ m, Stuck good p count start n m := by
  classical
  by_cases hex : ∃ m, m < n ∧ ¬ good (start + m)
  · have hfirst := Nat.find_spec hex
    have hall : ∀ i, start ≤ i → i < start + Nat.find hex → good i := by
      intro i hi hlt
      by_contra hbad
      have hmin := Nat.find_min hex (m := i - start) (by omega)
      exact hmin ⟨by omega, by rwa [Nat.add_sub_cancel' hi]⟩
    by_cases hcount : count ≤ (passed p start (start + Nat.find hex)).length
    · exact .inl ⟨_, Nat.le_of_lt hfirst.1, .inr hcount, hall⟩
    · exact .inr ⟨_, hfirst.1, by omega, hfirst.2, hall⟩
  · refine .inl ⟨n, le_rfl, .inl rfl, fun i hi hlt => ?_⟩
    by_contra hbad
    exact hex ⟨i - start, by omega, by rwa [Nat.add_sub_cancel' hi]⟩

theorem not_swept_of_stuck {m : Nat} (h : Stuck good p count start n m) :
    ¬ Swept good p count start n := by
  rintro ⟨k, hk, hstop, hall⟩
  obtain ⟨hm, hcount, hbad, -⟩ := h
  have hle : k ≤ m := by
    by_contra hlt
    exact hbad (hall _ (Nat.le_add_right _ _) (by omega))
  have hmono := @passed_length_mono p start _ _ (Nat.add_le_add_left hle start)
  omega

/-- The indices a scan acts on are those passed by where it stops. -/
theorem picked_of_enough {m : Nat} (hm : m ≤ n)
    (hstop : m = n ∨ count ≤ (passed p start (start + m)).length) :
    picked p start n count = picked p start m count := by
  rcases hstop with rfl | hcount
  · rfl
  · obtain ⟨d, rfl⟩ := Nat.exists_eq_add_of_le hm
    unfold passed at hcount
    rw [Nat.add_sub_cancel_left] at hcount
    unfold picked
    rw [← List.range'_append_1, List.filter_append, List.take_append_of_le_length hcount]

/-- The end of a window where nothing is selected does not count. -/
theorem picked_trim {m : Nat} (hm : m ≤ n) (h : ∀ i, start + m ≤ i → i < start + n → p i = false) :
    picked p start m count = picked p start n count := by
  obtain ⟨d, rfl⟩ := Nat.exists_eq_add_of_le hm
  have hrest : (List.range' (start + m) d).filter p = [] := by
    apply List.filter_eq_nil_iff.mpr
    intro i hi hp
    have hin := List.mem_range'_1.mp hi
    rw [h i hin.1 (by omega)] at hp
    exact Bool.false_ne_true hp
  unfold picked
  rw [← List.range'_append_1, List.filter_append, hrest, List.append_nil]

theorem picked_of_few {m : Nat} (hcount : (passed p start (start + m)).length ≤ count) :
    picked p start m count = passed p start (start + m) := by
  unfold passed at hcount ⊢
  rw [Nat.add_sub_cancel_left] at hcount ⊢
  unfold picked
  rw [List.take_of_length_le hcount]

/-- Where nothing is selected, a scan sweeps its window only if it has nothing to find or all
of the window is good. -/
theorem swept_never (h : ∀ i, p i = false) :
    Swept good p count start n ↔ count = 0 ∨ ∀ i, start ≤ i → i < start + n → good i := by
  constructor
  · rintro ⟨m, hm, hstop, hall⟩
    rw [passed_never h] at hstop
    rcases hstop with rfl | hcount
    · exact .inr hall
    · exact .inl (Nat.le_zero.mp hcount)
  · rintro (rfl | hall)
    · exact ⟨0, Nat.zero_le n, .inr (Nat.zero_le _), fun i hi hlt => by omega⟩
    · exact ⟨n, le_rfl, .inl rfl, hall⟩

end Swept

section stops
variable {size : σ → Nat} {count : Nat} {sel : Nat → EStateM ε σ Bool} {act : Nat → EStateM ε σ Unit}
  {good : Nat → Prop} {p : Nat → Bool} {R : List Nat → σ → Prop} {E : ε → σ → Prop} {start n : Nat}

/-- Where it is good, an index is tested as `p` says, and selected, acted on. -/
structure Rounds (size : σ → Nat) (count : Nat) (sel : Nat → EStateM ε σ Bool)
    (act : Nat → EStateM ε σ Unit) (good : Nat → Prop) (p : Nat → Bool) (R : List Nat → σ → Prop)
    (E : ε → σ → Prop) (start n : Nat) : Prop where
  size : ∀ done s, R done s → size s = done.length
  sel : ∀ j, start ≤ j → j < start + n → good j →
    Triple (R (passed p start j)) (sel j) (fun b s => b = p j ∧ R (passed p start j) s) E
  act : ∀ j, start ≤ j → j < start + n → good j → p j = true → (passed p start j).length < count →
    Triple (R (passed p start j)) (act j) (fun _ s => R (passed p start j ++ [j]) s) E

theorem Rounds.upto (h : Rounds size count sel act good p R E start n) {m : Nat} (hm : m ≤ n)
    (hall : ∀ i, start ≤ i → i < start + m → good i) :
    Triple (R []) (loop size count sel act m start) (fun _ => R (picked p start m count)) E := by
  have hloop := loop_picks h.size (fun j hj hlt => h.sel j hj (by omega) (hall j hj hlt))
    (fun j hj hlt hp hlen => h.act j hj (by omega) (hall j hj hlt) hp hlen) le_rfl le_rfl
  rwa [passed_self, List.length_nil, Nat.sub_zero, List.nil_append] at hloop

theorem Rounds.swept (h : Rounds size count sel act good p R E start n)
    (hswept : Swept good p count start n) :
    Triple (R []) (loop size count sel act n start) (fun _ => R (picked p start n count)) E := by
  obtain ⟨m, hm, hstop, hall⟩ := hswept
  rw [picked_of_enough hm hstop]
  obtain ⟨d, rfl⟩ := Nat.exists_eq_add_of_le hm
  apply triple_loop_add (h.upto hm hall)
  intro s hs
  rcases hstop with hd | hcount
  · obtain rfl : d = 0 := by omega
    exact .ok hs
  · have hsize := h.size _ s hs
    have hlength : (picked p start m count).length = count := by
      unfold passed at hcount
      rw [Nat.add_sub_cancel_left] at hcount
      unfold picked
      rw [List.length_take, Nat.min_eq_left hcount]
    rw [loop_full (by omega)]
    exact .ok hs

/-- A stuck scan does what it does from the index it is stuck at on. -/
theorem Rounds.stuck (h : Rounds size count sel act good p R E start n) {m : Nat}
    (hstuck : Stuck good p count start n m) {Q : Unit → σ → Prop}
    (hrest : ∀ d, Triple (R (passed p start (start + m)))
      (sel (start + m) >>= fun b => (if b then act (start + m) else pure ()) >>= fun _ =>
        loop size count sel act d (start + m + 1)) Q E) :
    Triple (R []) (loop size count sel act n start) Q E := by
  obtain ⟨hm, hcount, -, hall⟩ := hstuck
  obtain ⟨d, rfl⟩ : ∃ d, n = m + (d + 1) := ⟨n - m - 1, by omega⟩
  have hfirst := h.upto (Nat.le_of_lt hm) hall
  rw [picked_of_few (Nat.le_of_lt hcount)] at hfirst
  apply triple_loop_add hfirst
  intro s hs
  have hsize := h.size _ s hs
  rw [loop_step (by omega)]
  exact hrest d s hs

end stops

end Scan
