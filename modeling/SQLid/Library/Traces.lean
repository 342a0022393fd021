import SQLid.Library.Scan

/-!
# What a program adds to a log

A log kept in the state only grows. A program is bounded by what it may add, and how
much of it, whatever its outcome.
-/
namespace Traces
open Programs
universe u
variable {ε σ τ α β κ : Type u}

/-- At most `n` entries were added, and all of them are allowed. -/
def Grows (log : σ → List κ) (P : κ → Prop) (n : Nat) (s s' : σ) : Prop :=
  ∃ new, log s' = new ++ log s ∧ new.length ≤ n ∧ ∀ e ∈ new, P e

/-- A program that keeps `I` and adds at most `n` allowed entries. -/
def Adds (I : σ → Prop) (log : σ → List κ) (P : κ → Prop) (n : Nat) (x : EStateM ε σ α) : Prop :=
  ∀ s, I s → I (finalState (x.run s)) ∧ Grows log P n s (finalState (x.run s))

/-- What a program adds, whatever becomes of the rest of the state. -/
def Spends (I : σ → Prop) (log : σ → List κ) (P : κ → Prop) (n : Nat) (x : EStateM ε σ α) : Prop :=
  ∀ s, I s → Grows log P n s (finalState (x.run s))

section Grows
variable {log : σ → List κ} {P Q : κ → Prop} {m n : Nat} {s s' s'' : σ}

theorem Grows.of_eq (h : log s' = log s) (n : Nat) : Grows log P n s s' :=
  ⟨[], h, Nat.zero_le n, fun _ he => absurd he List.not_mem_nil⟩

theorem Grows.one {e : κ} (h : log s' = e :: log s) (he : P e) : Grows log P 1 s s' := by
  refine ⟨[e], h, le_rfl, fun e' he' => ?_⟩
  rw [List.mem_singleton.mp he']
  exact he

theorem Grows.trans (h : Grows log P m s s') (h' : Grows log P n s' s'') :
    Grows log P (m + n) s s'' := by
  obtain ⟨l, hl, hlen, hP⟩ := h
  obtain ⟨l', hl', hlen', hP'⟩ := h'
  refine ⟨l' ++ l, ?_, ?_, fun e he => ?_⟩
  · rw [hl', hl, List.append_assoc]
  · rw [List.length_append]
    omega
  · exact (List.mem_append.mp he).elim (hP' e) (hP e)

theorem Grows.mono (h : Grows log P m s s') (hn : m ≤ n) (hP : ∀ e, P e → Q e) :
    Grows log Q n s s' := by
  obtain ⟨l, hl, hlen, hall⟩ := h
  exact ⟨l, hl, Nat.le_trans hlen hn, fun e he => hP e (hall e he)⟩

theorem Grows.le (h : Grows log P m s s') (hn : m ≤ n) : Grows log P n s s' :=
  h.mono hn fun _ he => he

end Grows

section Adds
variable {I : σ → Prop} {log : σ → List κ} {P Q : κ → Prop} {m n : Nat} {x : EStateM ε σ α}

theorem adds_of_eq (h : ∀ s, I s → I (finalState (x.run s)) ∧ log (finalState (x.run s)) = log s)
    (n : Nat) : Adds I log P n x := fun s hs => ⟨(h s hs).1, .of_eq (h s hs).2 n⟩

theorem adds_pure (a : α) (n : Nat) : Adds I log P n (pure a : EStateM ε σ α) :=
  adds_of_eq (fun _ hs => ⟨hs, rfl⟩) n

theorem adds_throw (e : ε) (n : Nat) : Adds I log P n (throw e : EStateM ε σ α) :=
  adds_of_eq (fun _ hs => ⟨hs, rfl⟩) n

theorem adds_ofExcept (r : Except ε α) (n : Nat) : Adds I log P n (Programs.ofExcept r : EStateM ε σ α) := by
  apply adds_of_eq
  intro s hs
  cases r <;> exact ⟨hs, rfl⟩

theorem Adds.mono (h : Adds I log P m x) (hn : m ≤ n) (hP : ∀ e, P e → Q e) : Adds I log Q n x :=
  fun s hs => ⟨(h s hs).1, (h s hs).2.mono hn hP⟩

theorem Adds.le (h : Adds I log P m x) (hn : m ≤ n) : Adds I log P n x := h.mono hn fun _ he => he

theorem Adds.bind {f : α → EStateM ε σ β} (hx : Adds I log P m x) (hf : ∀ a, Adds I log P n (f a)) :
    Adds I log P (m + n) (x >>= f) := by
  intro s hs
  obtain ⟨hI, hgrows⟩ := hx s hs
  cases hrun : x.run s with
  | ok a s' =>
      rw [hrun] at hI hgrows
      rw [run_bind_ok hrun]
      obtain ⟨hI', hgrows'⟩ := hf a s' hI
      exact ⟨hI', hgrows.trans hgrows'⟩
  | error e s' =>
      rw [hrun] at hI hgrows
      rw [run_bind_error hrun]
      exact ⟨hI, hgrows.le (Nat.le_add_right m n)⟩

theorem Adds.spends (h : Adds I log P n x) : Spends I log P n x := fun s hs => (h s hs).2

theorem Spends.of_imp {J : σ → Prop} (h : Spends J log P n x) (hI : ∀ s, I s → J s) :
    Spends I log P n x := fun s hs => h s (hI s hs)

theorem Spends.bind {f : α → EStateM ε σ β} (hx : Spends I log P m x)
    (hf : ∀ a, Spends (fun _ => True) log P n (f a)) : Spends I log P (m + n) (x >>= f) := by
  intro s hs
  have hgrows := hx s hs
  cases hrun : x.run s with
  | ok a s' =>
      rw [hrun] at hgrows
      rw [run_bind_ok hrun]
      exact hgrows.trans (hf a s' trivial)
  | error e s' =>
      rw [hrun] at hgrows
      rw [run_bind_error hrun]
      exact hgrows.le (Nat.le_add_right m n)

/-- Only the last part of a sequence may break `I`. -/
theorem Adds.seq {f : α → EStateM ε σ β} (hx : Adds I log P m x) (hf : ∀ a, Spends I log P n (f a)) :
    Spends I log P (m + n) (x >>= f) := by
  intro s hs
  obtain ⟨hI, hgrows⟩ := hx s hs
  cases hrun : x.run s with
  | ok a s' =>
      rw [hrun] at hI hgrows
      rw [run_bind_ok hrun]
      exact hgrows.trans (hf a s' hI)
  | error e s' =>
      rw [hrun] at hgrows
      rw [run_bind_error hrun]
      exact hgrows.le (Nat.le_add_right m n)

theorem Adds.seq_zero {f : α → EStateM ε σ β} (hx : Adds I log P 0 x)
    (hf : ∀ a, Spends I log P n (f a)) : Spends I log P n (x >>= f) := by
  have h := hx.seq hf
  rwa [Nat.zero_add] at h

theorem spends_get {f : σ → EStateM ε σ β} (h : ∀ s, I s → Spends I log P n (f s)) :
    Spends I log P n (get >>= f) := fun s hs => h s hs s hs

theorem spends_ofExcept_bind {r : Except ε α} {f : α → EStateM ε σ β}
    (h : ∀ a, r = .ok a → Spends I log P n (f a)) : Spends I log P n (Programs.ofExcept r >>= f) := by
  intro s hs
  cases hr : r with
  | ok a =>
      rw [run_bind_ok (run_ofExcept_ok a s)]
      exact h a hr s hs
  | error e =>
      rw [run_bind_error (run_ofExcept_error e s)]
      exact .of_eq rfl n

/-- A first part that adds nothing. -/
theorem Adds.bind_zero {f : α → EStateM ε σ β} (hx : Adds I log P 0 x) (hf : ∀ a, Adds I log P n (f a)) :
    Adds I log P n (x >>= f) := (hx.bind hf).le (Nat.le_of_eq (Nat.zero_add n))

theorem adds_get {f : σ → EStateM ε σ β} (h : ∀ s, I s → Adds I log P n (f s)) :
    Adds I log P n (get >>= f) := fun s hs => h s hs s hs

theorem Adds.map (h : Adds I log P n x) (f : α → β) : Adds I log P n (f <$> x) := by
  intro s hs
  obtain ⟨hI, hgrows⟩ := h s hs
  rw [run_map]
  cases hrun : x.run s <;> rw [hrun] at hI hgrows <;> exact ⟨hI, hgrows⟩

theorem adds_ite {c : Prop} [Decidable c] {y : EStateM ε σ α} (hx : Adds I log P n x)
    (hy : Adds I log P n y) : Adds I log P n (if c then x else y) := by
  split_ifs
  · exact hx
  · exact hy

theorem Adds.tryCatch {handle : ε → EStateM ε σ α} (hx : Adds I log P m x)
    (hh : ∀ e, Adds I log P n (handle e)) : Adds I log P (m + n) (tryCatch x handle) := by
  intro s hs
  obtain ⟨hI, hgrows⟩ := hx s hs
  rw [run_tryCatch]
  cases hrun : x.run s with
  | ok a s' =>
      rw [hrun] at hI hgrows
      exact ⟨hI, hgrows.le (Nat.le_add_right m n)⟩
  | error e s' =>
      rw [hrun] at hI hgrows
      obtain ⟨hI', hgrows'⟩ := hh e s' hI
      exact ⟨hI', hgrows.trans hgrows'⟩

theorem Adds.zoom {get : σ → τ} {set : σ → τ → σ} {J : τ → Prop} {log' : τ → List κ}
    {y : EStateM ε τ α} (h : Adds J log' P n y) (hI : ∀ s, I s → J (get s))
    (hset : ∀ s t, I s → J t → I (set s t)) (hlog : ∀ s, log s = log' (get s))
    (hget : ∀ s t, log (set s t) = log' t) : Adds I log P n (zoom get set y) := by
  intro s hs
  obtain ⟨hJ, new, hnew, hlen, hP⟩ := h (get s) (hI s hs)
  have hgrows (t : τ) (ht : log' t = new ++ log' (get s)) : Grows log P n s (set s t) :=
    ⟨new, by rw [hget, hlog, ht], hlen, hP⟩
  rw [run_zoom]
  cases hrun : y.run (get s) with
  | ok a t =>
      rw [hrun] at hJ hnew
      exact ⟨hset s t hs hJ, hgrows t hnew⟩
  | error e t =>
      rw [hrun] at hJ hnew
      exact ⟨hset s t hs hJ, hgrows t hnew⟩

end Adds

section loop
variable {ε σ κ : Type} {I : σ → Prop} {log : σ → List κ} {P : κ → Prop} {size : σ → Nat}
  {sel : Nat → EStateM ε σ Bool} {act : Nat → EStateM ε σ Unit} {nsel nact start stop : Nat}

/-- A test that adds little in every round, and an action that may add more but that a
scan takes no more often than it still has to. -/
structure Metered (I : σ → Prop) (log : σ → List κ) (P : κ → Prop) (size : σ → Nat)
    (sel : Nat → EStateM ε σ Bool) (act : Nat → EStateM ε σ Unit) (nsel nact start stop : Nat) :
    Prop where
  test : ∀ j, start ≤ j → j < stop → Adds I log P nsel (sel j)
  action : ∀ j, start ≤ j → j < stop → Adds I log P nact (act j)
  tested : ∀ j s b s', I s → (sel j).run s = .ok b s' → size s' = size s
  acted : ∀ j s u s', I s → (act j).run s = .ok u s' → size s' = size s + 1

theorem Metered.next (h : Metered I log P size sel act nsel nact start stop) :
    Metered I log P size sel act nsel nact (start + 1) stop :=
  ⟨fun j hj => h.test j (by omega), fun j hj => h.action j (by omega), h.tested, h.acted⟩

/-- The entries of one round more. -/
theorem rounds_succ {count n k : Nat} (hk : k < count) :
    nsel + (nact + (n * nsel + min n (count - (k + 1)) * nact)) ≤
      (n + 1) * nsel + min (n + 1) (count - k) * nact := by
  have hmin : min (n + 1) (count - k) = min n (count - (k + 1)) + 1 := by omega
  rw [hmin, Nat.add_mul, Nat.add_mul, Nat.one_mul, Nat.one_mul]
  omega

theorem rounds_skip {count n k : Nat} :
    nsel + (n * nsel + min n (count - k) * nact) ≤ (n + 1) * nsel + min (n + 1) (count - k) * nact := by
  have hmin : min n (count - k) * nact ≤ min (n + 1) (count - k) * nact :=
    Nat.mul_le_mul_right nact (by omega)
  rw [Nat.add_mul, Nat.one_mul]
  omega

/-- What a scan adds: a test for each round, an action for each result still missing. -/
theorem Metered.loop (h : Metered I log P size sel act nsel nact start stop) (count : Nat) {n : Nat}
    (hn : start + n ≤ stop) {s : σ} (hs : I s) :
    I (finalState ((Scan.loop size count sel act n start).run s)) ∧
      Grows log P (n * nsel + min n (count - size s) * nact) s
        (finalState ((Scan.loop size count sel act n start).run s)) := by
  induction n generalizing start s with
  | zero => exact ⟨hs, .of_eq rfl _⟩
  | succ n ih =>
    by_cases hfull : count ≤ size s
    · rw [Scan.loop_full hfull]
      exact ⟨hs, .of_eq rfl _⟩
    · rw [Scan.loop_step (by omega)]
      obtain ⟨hI, hgrows⟩ := h.test start le_rfl (by omega) s hs
      cases hsel : (sel start).run s with
      | error e s' =>
          rw [hsel] at hI hgrows
          rw [run_bind_error hsel]
          exact ⟨hI, hgrows.le (Nat.le_trans (Nat.le_add_right _ _) rounds_skip)⟩
      | ok b s' =>
          have hsize := h.tested start s b s' hs hsel
          rw [hsel, finalState_ok] at hI hgrows
          rw [run_bind_ok hsel]
          cases b with
          | false =>
              obtain ⟨hI', hrest⟩ := ih h.next (by omega) hI
              rw [hsize] at hrest
              exact ⟨hI', (hgrows.trans hrest).le rounds_skip⟩
          | true =>
              have hbound := @rounds_succ nsel nact count n (size s) (by omega)
              obtain ⟨hI', hact⟩ := h.action start le_rfl (by omega) s' hI
              rw [if_pos rfl]
              cases hrun : (act start).run s' with
              | error e s'' =>
                  rw [hrun] at hI' hact
                  rw [run_bind_error hrun]
                  exact ⟨hI', (hgrows.trans hact).le (by omega)⟩
              | ok u s'' =>
                  have hone := h.acted start s' u s'' hI hrun
                  rw [hrun, finalState_ok] at hI' hact
                  rw [run_bind_ok hrun]
                  obtain ⟨hI'', hrest⟩ := ih h.next (by omega) hI'
                  rw [hone, hsize] at hrest
                  exact ⟨hI'', (hgrows.trans (hact.trans hrest)).le hbound⟩

end loop
end Traces
