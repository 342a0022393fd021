import SQLid.Library.SlotPool

/-!
# A slot pool shared by threads

The steps a thread takes to get a slot and to give one back are taken apart, and
other threads act in between. A fresh slot is loaded from `top` before `top` is
moved, so that a step is only sound where `top` is still what was loaded.
-/
namespace SlotPool

/-- What a thread has in hand between two of its steps. -/
inductive Role where
  | idle
  | loaded (i : Nat)
  | ready (i : Nat)
  | taken (i : Nat)
  | filling (i : Nat)
  | visiting (i : Nat)
  | released (i : Nat)
  deriving DecidableEq

/-- How often each slot has been given back, what that number was when a thread took
its slot, and the slots taken and reported, each with its number. -/
structure Ledger where
  freed : Nat → Nat
  since : Nat → Nat
  returned : List (Nat × Nat)

def Ledger.empty : Ledger := ⟨fun _ => 0, fun _ => 0, []⟩

/-- The slot is in the hands of this thread: off the stack and not in use. -/
@[grind] def Role.Holds (r : Role) (i : Nat) : Prop := r = .taken i ∨ r = .released i

/-- The thread has made sure that the slot is below the capacity. -/
@[grind] def Role.Within (r : Role) (i : Nat) : Prop :=
  r = .ready i ∨ r = .filling i ∨ r = .visiting i

/-- The slot taken after it was given back `n` times has been put to use since. -/
@[grind] def Spent (p : Pool) (g : Ledger) (roles : Nat → Role) (i n : Nat) : Prop :=
  n < g.freed i ∨ n = g.freed i ∧ i < p.top ∧ i ∉ p.stack ∧ ∀ j, roles j ≠ .taken i

structure Shared (p : Pool) (g : Ledger) (roles : Nat → Role) : Prop where
  nodup : p.stack.Nodup
  stacked : ∀ i ∈ p.stack, i < p.top ∧ p.used i = false
  above : ∀ i, p.top ≤ i → p.used i = false
  top_le : p.top ≤ p.cap
  loaded : ∀ j i, roles j = .loaded i → i ≤ p.cap
  within : ∀ j i, (roles j).Within i → i < p.cap
  holds : ∀ j i, (roles j).Holds i → i < p.top ∧ p.used i = false ∧ i ∉ p.stack
  alone : ∀ j k i, j ≠ k → (roles j).Holds i → ¬ (roles k).Holds i
  since : ∀ j i, roles j = .taken i → g.since j = g.freed i
  returned : g.returned.Nodup
  spent : ∀ e ∈ g.returned, Spent p g roles e.1 e.2
  filling : ∀ j i, roles j = .filling i →
    Spent p g roles i (g.since j) ∧ (i, g.since j) ∉ g.returned
  apart : ∀ j k i, j ≠ k → roles j = .filling i → roles k = .filling i → g.since j ≠ g.since k

namespace Shared
variable {p : Pool} {g : Ledger} {roles : Nat → Role} {i j : Nat}

/-- Nothing has been put to use under the present number of a slot that can be taken. -/
theorem spent_lt {n : Nat} (hi : i ∈ p.stack ∨ p.top ≤ i ∨ roles j = .taken i)
    (hn : Spent p g roles i n) : n < g.freed i := by
  rcases hn with hlt | ⟨-, htop, hstack, htaken⟩
  · exact hlt
  · rcases hi with hi | hi | hi
    · exact absurd hi hstack
    · omega
    · exact absurd hi (htaken j)

/-- A slot on the stack or never used is in nobody's hands. -/
theorem not_held (h : Shared p g roles) (hi : i ∈ p.stack ∨ p.top ≤ i) (k : Nat) :
    ¬ (roles k).Holds i := by
  intro hk
  obtain ⟨htop, -, hstack⟩ := h.holds k i hk
  rcases hi with hi | hi
  · exact hstack hi
  · omega

/-- A thread may forget its slot. -/
theorem idle (h : Shared p g roles) (j : Nat) : Shared p g (Function.update roles j .idle) := by
  obtain ⟨hnodup, hstacked, habove, htop, hloaded, hwithin, hholds, halone, hsince, hreturned,
    hspent, hfilling, hapart⟩ := h
  constructor <;> grind [Function.update_apply]

theorem load (h : Shared p g roles) (hi : i ≤ p.cap) (j : Nat) :
    Shared p g (Function.update roles j (.loaded i)) := by
  obtain ⟨hnodup, hstacked, habove, htop, hloaded, hwithin, hholds, halone, hsince, hreturned,
    hspent, hfilling, hapart⟩ := h
  constructor <;> grind [Function.update_apply]

/-- A slot below the capacity may be tried or looked at. -/
theorem reach (h : Shared p g roles) {r : Role} (hr : r = .ready i ∨ r = .visiting i)
    (hi : i < p.cap) (j : Nat) : Shared p g (Function.update roles j r) := by
  obtain ⟨hnodup, hstacked, habove, htop, hloaded, hwithin, hholds, halone, hsince, hreturned,
    hspent, hfilling, hapart⟩ := h
  constructor <;> grind [Function.update_apply]

theorem grow (h : Shared p g roles) {cap : Nat} (hcap : p.cap ≤ cap) :
    Shared { p with cap } g roles :=
  ⟨h.nodup, h.stacked, h.above, h.top_le.trans hcap, fun j i hj => (h.loaded j i hj).trans hcap,
    fun j i hj => (h.within j i hj).trans_le hcap, h.holds, h.alone, h.since, h.returned, h.spent,
    h.filling, h.apart⟩

theorem pop (h : Shared p g roles) {rest : List Nat} (hs : p.stack = i :: rest) (j : Nat) :
    Shared { p with stack := rest } { g with since := Function.update g.since j (g.freed i) }
      (Function.update roles j (.taken i)) := by
  have hi : i ∈ p.stack := by simp [hs]
  have hheld := h.not_held (.inl hi)
  have hold (n : Nat) : Spent p g roles i n → n < g.freed i := spent_lt (j := j) (.inl hi)
  obtain ⟨hnodup, hstacked, habove, htop, hloaded, hwithin, hholds, halone, hsince, hreturned,
    hspent, hfilling, hapart⟩ := h
  constructor <;> grind [Function.update_apply]

/-- A fresh slot is taken where `top` still is what the thread loaded. -/
theorem bump (h : Shared p g roles) (hj : roles j = .ready p.top) :
    Shared { p with top := p.top + 1 }
      { g with since := Function.update g.since j (g.freed p.top) }
      (Function.update roles j (.taken p.top)) := by
  have hlt : p.top < p.cap := h.within j p.top (.inl hj)
  have hheld := h.not_held (.inr le_rfl)
  have hold (n : Nat) : Spent p g roles p.top n → n < g.freed p.top :=
    spent_lt (j := j) (.inr (.inl le_rfl))
  obtain ⟨hnodup, hstacked, habove, htop, hloaded, hwithin, hholds, halone, hsince, hreturned,
    hspent, hfilling, hapart⟩ := h
  constructor <;> grind [Function.update_apply]

theorem activate (h : Shared p g roles) (hj : roles j = .taken i) :
    Shared { p with used := Function.update p.used i true } g
      (Function.update roles j (.filling i)) := by
  have hold (n : Nat) : Spent p g roles i n → n < g.freed i := spent_lt (.inr (.inr hj))
  have hothers (k : Nat) (hk : k ≠ j) : ¬ (roles k).Holds i :=
    h.alone j k i hk.symm (.inl hj)
  obtain ⟨hnodup, hstacked, habove, htop, hloaded, hwithin, hholds, halone, hsince, hreturned,
    hspent, hfilling, hapart⟩ := h
  constructor <;> grind [Function.update_apply]

theorem report (h : Shared p g roles) (hj : roles j = .filling i) :
    Shared p { g with returned := (i, g.since j) :: g.returned } (Function.update roles j .idle) := by
  obtain ⟨hspent, hnew⟩ := h.filling j i hj
  obtain ⟨hnodup, hstacked, habove, htop, hloaded, hwithin, hholds, halone, hsince, hreturned,
    hall, hfilling, hapart⟩ := h
  constructor <;> grind [Function.update_apply]

theorem deactivate (h : Shared p g roles) (hi : p.used i = true) (j : Nat) :
    Shared { p with used := Function.update p.used i false } g
      (Function.update roles j (.released i)) := by
  have hheld (k : Nat) : ¬ (roles k).Holds i := fun hk => by
    rw [(h.holds k i hk).2.1] at hi
    cases hi
  obtain ⟨hnodup, hstacked, habove, htop, hloaded, hwithin, hholds, halone, hsince, hreturned,
    hspent, hfilling, hapart⟩ := h
  constructor <;> grind [Function.update_apply]

theorem push (h : Shared p g roles) (hj : roles j = .released i) :
    Shared { p with stack := i :: p.stack }
      { g with freed := Function.update g.freed i (g.freed i + 1) }
      (Function.update roles j .idle) := by
  have hothers (k : Nat) (hk : k ≠ j) : ¬ (roles k).Holds i :=
    h.alone j k i hk.symm (.inr hj)
  obtain ⟨hnodup, hstacked, habove, htop, hloaded, hwithin, hholds, halone, hsince, hreturned,
    hspent, hfilling, hapart⟩ := h
  constructor <;> grind [Function.update_apply]

end Shared

theorem Pool.Inv.shared {p : Pool} (h : p.Inv) (hcap : ∀ i, p.cap ≤ i → p.used i = false) :
    Shared p .empty fun _ => .idle := by
  refine ⟨h.nodup, fun i hi => (h.mem_stack i).mp hi, fun i hi => ?_, h.top_le, ?_, ?_, ?_, ?_, ?_,
    List.nodup_nil, ?_, ?_, ?_⟩
  · by_cases hlt : i < p.cap
    · exact h.above i hi hlt
    · exact hcap i (by omega)
  all_goals simp [Ledger.empty, Role.Holds, Role.Within]

end SlotPool
