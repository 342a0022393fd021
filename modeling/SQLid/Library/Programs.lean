import Mathlib.Tactic.SplitIfs

/-!
# Programs with a state and faults

`EStateM ε σ` keeps the state a fault left behind, which is how an exception
thrown half way through a C++ function behaves. The rules below compose runs
and pre- and postconditions of programs.
-/
namespace Programs
universe u
variable {ε σ τ α β : Type u}

theorem run_bind_ok {x : EStateM ε σ α} {f : α → EStateM ε σ β} {s s' : σ} {a : α}
    (h : x.run s = .ok a s') : (x >>= f).run s = (f a).run s' := by
  rw [EStateM.run_bind, h]

theorem run_bind_error {x : EStateM ε σ α} {f : α → EStateM ε σ β} {s s' : σ} {e : ε}
    (h : x.run s = .error e s') : (x >>= f).run s = .error e s' := by
  rw [EStateM.run_bind, h]

@[simp] theorem run_throw (e : ε) (s : σ) :
    (throw e : EStateM ε σ α).run s = .error e s := rfl

@[simp] theorem run_map (f : α → β) (x : EStateM ε σ α) (s : σ) :
    (f <$> x).run s = match x.run s with
      | .ok a s' => .ok (f a) s'
      | .error e s' => .error e s' := by
  simp only [Functor.map, EStateM.map, EStateM.run]
  cases x s <;> rfl

/-- A handler sees the state the fault left behind; nothing is rolled back. -/
@[simp high] theorem run_tryCatch (x : EStateM ε σ α) (handle : ε → EStateM ε σ α) (s : σ) :
    (tryCatch x handle).run s = match x.run s with
      | .ok a s' => .ok a s'
      | .error e s' => (handle e).run s' := by
  simp only [tryCatch, tryCatchThe, MonadExceptOf.tryCatch, EStateM.tryCatch, EStateM.run]
  cases x s <;> rfl

/-- Run a program on one component of a larger state. -/
def zoom (get : σ → τ) (set : σ → τ → σ) (x : EStateM ε τ α) : EStateM ε σ α := fun s =>
  match x.run (get s) with
  | .ok a t => .ok a (set s t)
  | .error e t => .error e (set s t)

@[simp] theorem run_zoom (get : σ → τ) (set : σ → τ → σ) (x : EStateM ε τ α) (s : σ) :
    (zoom get set x).run s = match x.run (get s) with
      | .ok a t => .ok a (set s t)
      | .error e t => .error e (set s t) := rfl

/-- A pure computation that may fault, as a program that leaves the state alone. -/
def ofExcept (x : Except ε α) : EStateM ε σ α := fun s =>
  match x with
  | .ok a => .ok a s
  | .error e => .error e s

@[simp] theorem run_ofExcept_ok (a : α) (s : σ) :
    (ofExcept (.ok a) : EStateM ε σ α).run s = .ok a s := rfl

@[simp] theorem run_ofExcept_error (e : ε) (s : σ) :
    (ofExcept (.error e) : EStateM ε σ α).run s = .error e s := rfl

/-- The state a run ends in, whatever its outcome. -/
def finalState : EStateM.Result ε σ α → σ
  | .ok _ s => s
  | .error _ s => s

@[simp] theorem finalState_ok (a : α) (s : σ) :
    finalState (.ok a s : EStateM.Result ε σ α) = s := rfl

@[simp] theorem finalState_error (e : ε) (s : σ) :
    finalState (.error e s : EStateM.Result ε σ α) = s := rfl

/-- The run returned. -/
def isOk : EStateM.Result ε σ α → Bool
  | .ok _ _ => true
  | .error _ _ => false

/-- What the run returned, if it did. -/
def value : EStateM.Result ε σ α → Option α
  | .ok a _ => some a
  | .error _ _ => none

/-- What the run threw, if it did. -/
def fault : EStateM.Result ε σ α → Option ε
  | .ok _ _ => none
  | .error e _ => some e

theorem eq_error_of_fault {r : EStateM.Result ε σ α} {e : ε} (h : fault r = some e) :
    r = .error e (finalState r) := by
  cases r with
  | ok a s => cases h
  | error e' s =>
      obtain rfl : e' = e := by simpa [fault] using h
      rfl

theorem eq_ok_of_value {r : EStateM.Result ε σ α} {a : α} (h : value r = some a) :
    r = .ok a (finalState r) := by
  cases r with
  | ok b s =>
      obtain rfl : b = a := by simpa [value] using h
      rfl
  | error e s => cases h

theorem exists_of_isOk {r : EStateM.Result ε σ α} (h : isOk r = true) : ∃ a s, r = .ok a s := by
  cases r with
  | ok a s => exact ⟨a, s, rfl⟩
  | error e s => cases h

theorem eq_ok_of_isOk {r : EStateM.Result ε σ PUnit} (h : isOk r = true) :
    r = .ok ⟨⟩ (finalState r) := by
  cases r with
  | ok a s => rfl
  | error e s => cases h

/-- The run ended in this state, and not by a fault in `bad`. -/
inductive Settles (bad : ε → Prop) : EStateM.Result ε σ α → σ → Prop
  | ok (a : α) (s : σ) : Settles bad (.ok a s) s
  | error {e : ε} (s : σ) : ¬ bad e → Settles bad (.error e s) s

theorem settles_ok {bad : ε → Prop} {a : α} {s s' : σ} :
    Settles bad (.ok a s : EStateM.Result ε σ α) s' ↔ s = s' := by
  constructor
  · rintro ⟨⟩
    rfl
  · rintro rfl
    exact .ok a s

theorem settles_error {bad : ε → Prop} {e : ε} {s s' : σ} :
    Settles bad (.error e s : EStateM.Result ε σ α) s' ↔ ¬ bad e ∧ s = s' := by
  constructor
  · rintro ⟨⟩
    exact ⟨‹_›, rfl⟩
  · rintro ⟨hbad, rfl⟩
    exact .error s hbad

theorem settles_of_isOk {bad : ε → Prop} {r : EStateM.Result ε σ α} (h : isOk r = true) :
    Settles bad r (finalState r) := by
  cases r with
  | ok a s => exact .ok a s
  | error e s => cases h

/-- A sequence settles where its second part does, or where its first one faults. -/
theorem Settles.bind {bad : ε → Prop} {x : EStateM ε σ α} {f : α → EStateM ε σ β} {s s' : σ}
    (h : Settles bad ((x >>= f).run s) s') :
    (∃ a t, x.run s = .ok a t ∧ Settles bad ((f a).run t) s') ∨
      ∃ e, x.run s = .error e s' ∧ ¬ bad e := by
  cases hx : x.run s with
  | ok a t =>
      rw [run_bind_ok hx] at h
      exact .inl ⟨a, t, rfl, h⟩
  | error e t =>
      rw [run_bind_error hx, settles_error] at h
      obtain ⟨hbad, rfl⟩ := h
      exact .inr ⟨e, rfl, hbad⟩

/-! Pre- and postconditions. A program has one postcondition for what it returns and
one for what it faults with. -/

/-- What a result must satisfy, by its outcome. -/
inductive Post (Q : α → σ → Prop) (E : ε → σ → Prop) : EStateM.Result ε σ α → Prop
  | ok {a : α} {s : σ} : Q a s → Post Q E (.ok a s)
  | error {e : ε} {s : σ} : E e s → Post Q E (.error e s)

def Triple (P : σ → Prop) (x : EStateM ε σ α) (Q : α → σ → Prop) (E : ε → σ → Prop) : Prop :=
  ∀ s, P s → Post Q E (x.run s)

section Triple
variable {P P' : σ → Prop} {Q Q' : α → σ → Prop} {R : β → σ → Prop} {E E' : ε → σ → Prop}

theorem Triple.ok {x : EStateM ε σ α} (h : Triple P x Q E) {s s' : σ} {a : α} (hs : P s)
    (hx : x.run s = .ok a s') : Q a s' := by
  have hpost := h s hs
  rw [hx] at hpost
  cases hpost with
  | ok hQ => exact hQ

theorem Triple.error {x : EStateM ε σ α} (h : Triple P x Q E) {s s' : σ} {e : ε} (hs : P s)
    (hx : x.run s = .error e s') : E e s' := by
  have hpost := h s hs
  rw [hx] at hpost
  cases hpost with
  | error hE => exact hE

/-- A property every outcome has holds of the state a run ends in. -/
theorem Triple.final {x : EStateM ε σ α} (h : Triple P x (fun _ => P') (fun _ => P')) {s : σ}
    (hs : P s) : P' (finalState (x.run s)) := by
  have hpost := h s hs
  cases hrun : x.run s with
  | ok a s' =>
      rw [hrun] at hpost
      cases hpost with
      | ok h => exact h
  | error e s' =>
      rw [hrun] at hpost
      cases hpost with
      | error h => exact h

theorem Post.mono {r : EStateM.Result ε σ α} (h : Post Q E r) (hQ : ∀ a s, Q a s → Q' a s)
    (hE : ∀ e s, E e s → E' e s) : Post Q' E' r := by
  cases h with
  | ok h => exact .ok (hQ _ _ h)
  | error h => exact .error (hE _ _ h)

/-- A property of the final state holds of it whatever the outcome. -/
theorem post_of_final {r : EStateM.Result ε σ α} (h : P (finalState r)) :
    Post (fun _ => P) (fun _ => P) r := by
  cases r with
  | ok a s => exact .ok h
  | error e s => exact .error h

theorem Post.settles {bad : ε → Prop} {r : EStateM.Result ε σ α} {s : σ} (h : Post Q E r)
    (hs : Settles bad r s) : (∃ a, Q a s) ∨ ∃ e, ¬ bad e ∧ E e s := by
  cases hs with
  | ok a s =>
      cases h with
      | ok h => exact .inl ⟨a, h⟩
  | error s he =>
      cases h with
      | error h => exact .inr ⟨_, he, h⟩

theorem Triple.conseq {x : EStateM ε σ α} (h : Triple P x Q E) (hP : ∀ s, P' s → P s)
    (hQ : ∀ a s, Q a s → Q' a s) (hE : ∀ e s, E e s → E' e s) : Triple P' x Q' E' :=
  fun s hs => (h s (hP s hs)).mono hQ hE

theorem triple_true (x : EStateM ε σ α) :
    Triple (fun _ => True) x (fun _ _ => True) (fun _ _ => True) := by
  intro s _
  cases x.run s with
  | ok a s' => exact .ok trivial
  | error e s' => exact .error trivial

theorem triple_pure {a : α} (h : ∀ s, P s → Q a s) : Triple P (pure a) Q E :=
  fun s hs => .ok (h s hs)

theorem triple_throw {e : ε} (h : ∀ s, P s → E e s) : Triple P (throw e : EStateM ε σ α) Q E :=
  fun s hs => .error (h s hs)

theorem triple_modify {f : σ → σ} {Q : PUnit → σ → Prop} (h : ∀ s, P s → Q ⟨⟩ (f s)) :
    Triple P (modify f : EStateM ε σ PUnit) Q E := fun s hs => .ok (h s hs)

theorem triple_ofExcept {x : Except ε α} (hQ : ∀ a s, x = .ok a → P s → Q a s)
    (hE : ∀ e s, x = .error e → P s → E e s) : Triple P (ofExcept x) Q E := by
  intro s hs
  cases x with
  | ok a => exact .ok (hQ a s rfl hs)
  | error e => exact .error (hE e s rfl hs)

theorem Triple.bind {x : EStateM ε σ α} {f : α → EStateM ε σ β} (hx : Triple P x Q E)
    (hf : ∀ a, Triple (Q a) (f a) R E) : Triple P (x >>= f) R E := by
  intro s hs
  cases h : x.run s with
  | ok a s' =>
      rw [run_bind_ok h]
      exact hf a s' (hx.ok hs h)
  | error e s' =>
      rw [run_bind_error h]
      exact .error (hx.error hs h)

theorem triple_get {f : σ → EStateM ε σ β} (h : ∀ s, P s → Triple P (f s) R E) :
    Triple P (get >>= f) R E := fun s hs => h s hs s hs

/-- The state that was read is still the current one. -/
theorem triple_get_eq {f : σ → EStateM ε σ β}
    (h : ∀ s, Triple (fun s' => P s' ∧ s' = s) (f s) R E) : Triple P (get >>= f) R E :=
  fun s hs => h s s ⟨hs, rfl⟩

theorem triple_map {x : EStateM ε σ α} {f : α → β} (h : Triple P x (fun a s => R (f a) s) E) :
    Triple P (f <$> x) R E := by
  intro s hs
  rw [run_map]
  cases hx : x.run s with
  | ok a s' => exact .ok (h.ok hs hx)
  | error e s' => exact .error (h.error hs hx)

theorem triple_ite {c : Prop} [Decidable c] {x y : EStateM ε σ α}
    (hx : c → Triple P x Q E) (hy : ¬ c → Triple P y Q E) : Triple P (if c then x else y) Q E := by
  split_ifs with h
  · exact hx h
  · exact hy h

theorem triple_tryCatch {x : EStateM ε σ α} {handle : ε → EStateM ε σ α}
    (hx : Triple P x Q E') (hh : ∀ e, Triple (E' e) (handle e) Q E) :
    Triple P (tryCatch x handle) Q E := by
  intro s hs
  rw [run_tryCatch]
  cases h : x.run s with
  | ok a s' => exact .ok (hx.ok hs h)
  | error e s' => exact hh e s' (hx.error hs h)

end Triple

theorem triple_zoom {get : σ → τ} {set : σ → τ → σ} {x : EStateM ε τ α} {P : σ → Prop}
    {Q : α → σ → Prop} {E : ε → σ → Prop}
    (h : ∀ s, P s → Post (fun a t => Q a (set s t)) (fun e t => E e (set s t)) (x.run (get s))) :
    Triple P (zoom get set x) Q E := by
  intro s hs
  have hpost := h s hs
  rw [run_zoom]
  cases hx : x.run (get s) with
  | ok a t =>
      rw [hx] at hpost
      cases hpost with
      | ok hQ => exact .ok hQ
  | error e t =>
      rw [hx] at hpost
      cases hpost with
      | error hE => exact .error hE

end Programs
