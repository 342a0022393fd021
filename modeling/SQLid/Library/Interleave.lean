import SQLid.Library.Programs
import Mathlib.Logic.Function.Basic

/-!
# Threads that interleave

A thread is the atomic actions it takes, one after the other. Any number of threads act
on one shared state in any order. A thread owns a role, and what an action of one thread
does to the shared state must suit the roles of all others; the rules below put such
arguments together along the text of a thread.
-/
namespace Interleave
open Programs

/-- The actions a thread takes until it returns; each has a label. -/
inductive Thread (ε σ Λ α : Type) : Type 1
  | ret (a : α)
  | act {β : Type} (l : Λ) (x : EStateM ε σ β) (k : β → Thread ε σ Λ α)

namespace Thread
variable {ε σ Λ α β τ : Type}

def bind : Thread ε σ Λ α → (α → Thread ε σ Λ β) → Thread ε σ Λ β
  | ret a, f => f a
  | act l x k, f => act l x fun b => (k b).bind f

instance : Monad (Thread ε σ Λ) where
  pure := ret
  bind := bind

/-- One action. -/
def atom (l : Λ) (x : EStateM ε σ α) : Thread ε σ Λ α := act l x ret

/-- The thread alone. -/
def run : Thread ε σ Λ α → EStateM ε σ α
  | ret a => pure a
  | act _ x k => x >>= fun b => (k b).run

@[simp] theorem run_pure (a : α) : (pure a : Thread ε σ Λ α).run = pure a := rfl

@[simp] theorem run_atom (l : Λ) (x : EStateM ε σ α) : (atom l x).run = x := bind_pure x

@[simp] theorem run_bind (p : Thread ε σ Λ α) (f : α → Thread ε σ Λ β) :
    (p >>= f).run = p.run >>= fun a => (f a).run := by
  induction p with
  | ret a => exact (pure_bind a fun a => (f a).run).symm
  | act l x k ih =>
      change (x >>= fun b => ((k b) >>= f).run) = (x >>= fun b => (k b).run) >>= fun a => (f a).run
      rw [bind_assoc]
      exact congrArg (x >>= ·) (funext ih)

end Thread

variable {ε σ Λ γ ρ α β : Type}

/-- What is recorded of an action, from the state it finds, and what a thread may begin. -/
structure System (ε σ Λ γ : Type) where
  note : Nat → Λ → σ → γ → γ
  request : Thread ε σ Λ Unit → Prop

structure Machine (ε σ Λ γ : Type) where
  shared : σ
  ghost : γ
  threads : Nat → Thread ε σ Λ Unit

/-- A thread that has returned may begin a request; a thread whose next action meets `ok`
takes it. A fault ends the request and leaves its state behind. -/
inductive Step (S : System ε σ Λ γ) (ok : Nat → Λ → σ → γ → Prop) :
    Machine ε σ Λ γ → Machine ε σ Λ γ → Prop
  | begin {m : Machine ε σ Λ γ} (i : Nat) (p : Thread ε σ Λ Unit) : m.threads i = .ret () →
      S.request p → Step S ok m { m with threads := Function.update m.threads i p }
  | act {m : Machine ε σ Λ γ} (i : Nat) {l : Λ} {β : Type} {x : EStateM ε σ β}
      {k : β → Thread ε σ Λ Unit} {b : β} {s' : σ} : m.threads i = .act l x k →
      ok i l m.shared m.ghost → x.run m.shared = .ok b s' →
      Step S ok m ⟨s', S.note i l m.shared m.ghost, Function.update m.threads i (k b)⟩
  | fault {m : Machine ε σ Λ γ} (i : Nat) {l : Λ} {β : Type} {x : EStateM ε σ β}
      {k : β → Thread ε σ Λ Unit} {e : ε} {s' : σ} : m.threads i = .act l x k →
      ok i l m.shared m.ghost → x.run m.shared = .error e s' →
      Step S ok m ⟨s', m.ghost, Function.update m.threads i (.ret ())⟩

inductive Runs (S : System ε σ Λ γ) (ok : Nat → Λ → σ → γ → Prop) (m : Machine ε σ Λ γ) :
    Machine ε σ Λ γ → Prop
  | refl : Runs S ok m m
  | step {m' m'' : Machine ε σ Λ γ} : Runs S ok m m' → Step S ok m' m'' → Runs S ok m m''

/-- All threads have returned. -/
def Machine.start (s : σ) (g : γ) : Machine ε σ Λ γ := ⟨s, g, fun _ => .ret ()⟩

/-! Runs on a schedule. -/

section play
variable (S : System ε σ Λ γ) (ok : Nat → Λ → σ → γ → Prop) [∀ i l s g, Decidable (ok i l s g)]

/-- Thread `i` takes its next action, if it has one and may. -/
def Machine.advance (m : Machine ε σ Λ γ) (i : Nat) : Machine ε σ Λ γ :=
  match m.threads i with
  | .ret _ => m
  | .act l x k =>
      if ok i l m.shared m.ghost then
        match x.run m.shared with
        | .ok b s' => ⟨s', S.note i l m.shared m.ghost, Function.update m.threads i (k b)⟩
        | .error _ s' => ⟨s', m.ghost, Function.update m.threads i (.ret ())⟩
      else m

def Machine.play (schedule : List Nat) (m : Machine ε σ Λ γ) : Machine ε σ Λ γ :=
  schedule.foldl (Machine.advance S ok) m

variable {S ok}

omit [∀ i l s g, Decidable (ok i l s g)] in
theorem Runs.trans {m m' m'' : Machine ε σ Λ γ} (h : Runs S ok m m') (h' : Runs S ok m' m'') :
    Runs S ok m m'' := by
  induction h' with
  | refl => exact h
  | step _ hstep ih => exact ih.step hstep

theorem runs_advance (m : Machine ε σ Λ γ) (i : Nat) : Runs S ok m (m.advance S ok i) := by
  unfold Machine.advance
  cases hi : m.threads i with
  | ret _ => exact .refl
  | act l x k =>
      dsimp only
      split_ifs with hok
      · cases hrun : x.run m.shared with
        | ok b s' => exact Runs.refl.step (.act i hi hok hrun)
        | error e s' => exact Runs.refl.step (.fault i hi hok hrun)
      · exact .refl

/-- Any schedule is a run. -/
theorem runs_play (schedule : List Nat) (m : Machine ε σ Λ γ) : Runs S ok m (m.play S ok schedule) := by
  induction schedule generalizing m with
  | nil => exact .refl
  | cons i schedule ih => exact (runs_advance m i).trans (ih (m.advance S ok i))

/-- Requests begun by threads that have returned, in this order. -/
def Machine.begin (m : Machine ε σ Λ γ) : List (Thread ε σ Λ Unit) → Nat → Machine ε σ Λ γ
  | [], _ => m
  | p :: ps, i => Machine.begin { m with threads := Function.update m.threads i p } ps (i + 1)

omit [∀ i l s g, Decidable (ok i l s g)] in
theorem runs_begin {ps : List (Thread ε σ Λ Unit)} (hps : ∀ p ∈ ps, S.request p)
    (m : Machine ε σ Λ γ) (k : Nat) (hret : ∀ j, k ≤ j → m.threads j = .ret ()) :
    Runs S ok m (m.begin ps k) := by
  induction ps generalizing m k with
  | nil => exact .refl
  | cons p ps ih =>
    refine Runs.trans (Runs.refl.step (.begin k p (hret k (Nat.le_refl k)) (hps p List.mem_cons_self))) ?_
    refine ih (fun q hq => hps q (List.mem_cons_of_mem p hq)) _ (k + 1) fun j hj => ?_
    exact (Function.update_of_ne (by omega) _ _).trans (hret j (by omega))

end play

section Safe
variable (S : System ε σ Λ γ) (ok : Nat → Λ → σ → γ → Prop)
  (I : σ → γ → (Nat → ρ) → Prop) (idle : ρ → Prop)

/-- From any state in which the thread has the role, the action keeps the invariant and
gives the thread a new role; after a fault it must be idle. -/
def Does (i : Nat) (r : ρ) (l : Λ) (x : EStateM ε σ β) (Q : β → ρ → Prop) : Prop :=
  ∀ s g roles, I s g roles → roles i = r → ok i l s g →
    Post (fun b s' => ∃ r', I s' (S.note i l s g) (Function.update roles i r') ∧ Q b r')
      (fun _ s' => ∃ r', I s' g (Function.update roles i r') ∧ idle r') (x.run s)

/-- All actions of the thread do so, and it returns with a role that satisfies `Q`. -/
def Safe (i : Nat) (Q : α → ρ → Prop) : Thread ε σ Λ α → ρ → Prop
  | .ret a, r => Q a r
  | .act l x k, r => Does S ok I idle i r l x fun b r' => Safe i Q (k b) r'

/-- The invariant with some roles that all threads are safe in. -/
def Holds (m : Machine ε σ Λ γ) : Prop :=
  ∃ roles, I m.shared m.ghost roles ∧ ∀ i, Safe S ok I idle i (fun _ => idle) (m.threads i) (roles i)

variable {S ok I idle}

theorem Does.mono {i : Nat} {r : ρ} {l : Λ} {x : EStateM ε σ β} {Q R : β → ρ → Prop}
    (h : Does S ok I idle i r l x Q) (hQR : ∀ b r', Q b r' → R b r') :
    Does S ok I idle i r l x R := by
  intro s g roles hI hr hok
  refine (h s g roles hI hr hok).mono ?_ fun _ _ h => h
  rintro b s' ⟨r', hI', hQ⟩
  exact ⟨r', hI', hQR b r' hQ⟩

theorem safe_pure {i : Nat} {Q : α → ρ → Prop} {a : α} {r : ρ} (h : Q a r) :
    Safe S ok I idle i Q (pure a) r := h

theorem safe_atom {i : Nat} {r : ρ} {l : Λ} {x : EStateM ε σ β} {Q : β → ρ → Prop}
    (h : Does S ok I idle i r l x Q) : Safe S ok I idle i Q (.atom l x) r := h

theorem Safe.bind {i : Nat} {Q : α → ρ → Prop} {R : β → ρ → Prop} {p : Thread ε σ Λ α}
    {f : α → Thread ε σ Λ β} {r : ρ} (hp : Safe S ok I idle i Q p r)
    (hf : ∀ a r', Q a r' → Safe S ok I idle i R (f a) r') :
    Safe S ok I idle i R (p >>= f) r := by
  induction p generalizing r with
  | ret a => exact hf a r hp
  | act l x k ih => exact Does.mono hp fun b r' h => ih b h

theorem Safe.mono {i : Nat} {Q R : α → ρ → Prop} {p : Thread ε σ Λ α} {r : ρ}
    (h : Safe S ok I idle i Q p r) (hQR : ∀ a r', Q a r' → R a r') : Safe S ok I idle i R p r := by
  induction p generalizing r with
  | ret a => exact hQR a r h
  | act l x k ih => exact Does.mono h fun b r' hb => ih b hb

/-- One action and what follows it. -/
theorem safe_atom_bind {i : Nat} {r : ρ} {l : Λ} {x : EStateM ε σ α} {Q : α → ρ → Prop}
    {R : β → ρ → Prop} {f : α → Thread ε σ Λ β} (hx : Does S ok I idle i r l x Q)
    (hf : ∀ a r', Q a r' → Safe S ok I idle i R (f a) r') :
    Safe S ok I idle i R (.atom l x >>= f) r := (safe_atom hx).bind hf

theorem safe_ite {i : Nat} {Q : α → ρ → Prop} {c : Prop} [Decidable c] {p q : Thread ε σ Λ α}
    {r : ρ} (hp : c → Safe S ok I idle i Q p r) (hq : ¬ c → Safe S ok I idle i Q q r) :
    Safe S ok I idle i Q (if c then p else q) r := by
  split_ifs with h
  · exact hp h
  · exact hq h

/-- What one step keeps: the invariant and the safety of every thread. -/
theorem Step.holds {m m' : Machine ε σ Λ γ} (h : Step S ok m m')
    (hrequest : ∀ p, S.request p → ∀ i r, idle r → Safe S ok I idle i (fun _ => idle) p r)
    (hm : Holds S ok I idle m) : Holds S ok I idle m' := by
  obtain ⟨roles, hI, hsafe⟩ := hm
  -- the threads that did not act keep their roles
  have hothers : ∀ (i : Nat) (p : Thread ε σ Λ Unit) (r : ρ),
      Safe S ok I idle i (fun _ => idle) p r → ∀ j, Safe S ok I idle j (fun _ => idle)
        (Function.update m.threads i p j) (Function.update roles i r j) := by
    intro i p r hp j
    by_cases hj : j = i
    · subst hj
      rw [Function.update_self, Function.update_self]
      exact hp
    · rw [Function.update_of_ne hj, Function.update_of_ne hj]
      exact hsafe j
  cases h with
  | begin i p hret hp =>
      have hidle := hsafe i
      rw [hret] at hidle
      have hnew := hothers i p (roles i) (hrequest p hp i (roles i) hidle)
      rw [Function.update_eq_self] at hnew
      exact ⟨roles, hI, hnew⟩
  | @act i l β x k b s' hact hok hrun =>
      have hdoes := hsafe i
      rw [hact] at hdoes
      have hpost := hdoes m.shared m.ghost roles hI rfl hok
      rw [hrun] at hpost
      cases hpost with
      | ok hpost =>
          obtain ⟨r', hI', hk⟩ := hpost
          exact ⟨_, hI', hothers i _ r' hk⟩
  | @fault i l β x k e s' hact hok hrun =>
      have hdoes := hsafe i
      rw [hact] at hdoes
      have hpost := hdoes m.shared m.ghost roles hI rfl hok
      rw [hrun] at hpost
      cases hpost with
      | error hpost =>
          obtain ⟨r', hI', hidle⟩ := hpost
          exact ⟨_, hI', hothers i _ r' hidle⟩

theorem Runs.holds {m m' : Machine ε σ Λ γ} (h : Runs S ok m m')
    (hrequest : ∀ p, S.request p → ∀ i r, idle r → Safe S ok I idle i (fun _ => idle) p r)
    (hm : Holds S ok I idle m) : Holds S ok I idle m' := by
  induction h with
  | refl => exact hm
  | step _ hstep ih => exact hstep.holds hrequest ih

/-- The invariant holds of every state of a run that starts with all threads idle. -/
theorem Runs.invariant {s : σ} {g : γ} {m : Machine ε σ Λ γ} {r : ρ}
    (h : Runs S ok (.start s g) m)
    (hrequest : ∀ p, S.request p → ∀ i r, idle r → Safe S ok I idle i (fun _ => idle) p r)
    (hidle : idle r) (hstart : I s g fun _ => r) : ∃ roles, I m.shared m.ghost roles := by
  obtain ⟨roles, hI, -⟩ := h.holds hrequest ⟨fun _ => r, hstart, fun _ => hidle⟩
  exact ⟨roles, hI⟩

end Safe

end Interleave
