import SQLid.Library.Scan

/-!
# Properties a program keeps

A property of the state that a program leaves true whatever its outcome, an exception
half way through included.
-/
namespace Programs
universe u
variable {ε σ τ α β : Type u} {P : σ → Prop}

abbrev Keeps (P : σ → Prop) (x : EStateM ε σ α) : Prop := Triple P x (fun _ => P) (fun _ => P)

theorem keeps_pure (a : α) : Keeps P (pure a : EStateM ε σ α) := triple_pure fun _ h => h

theorem keeps_throw (e : ε) : Keeps P (throw e : EStateM ε σ α) := triple_throw fun _ h => h

theorem keeps_ofExcept (r : Except ε α) : Keeps P (ofExcept r) :=
  triple_ofExcept (fun _ _ _ h => h) fun _ _ _ h => h

theorem keeps_modify {f : σ → σ} (h : ∀ s, P s → P (f s)) : Keeps P (modify f : EStateM ε σ PUnit) :=
  triple_modify h

theorem keeps_get {f : σ → EStateM ε σ β} (h : ∀ s, P s → Keeps P (f s)) : Keeps P (get >>= f) :=
  triple_get h

theorem Keeps.bind {x : EStateM ε σ α} {f : α → EStateM ε σ β} (hx : Keeps P x)
    (hf : ∀ a, Keeps P (f a)) : Keeps P (x >>= f) := Triple.bind hx hf

theorem Keeps.map {x : EStateM ε σ α} (hx : Keeps P x) (f : α → β) : Keeps P (f <$> x) := triple_map hx

theorem keeps_ite {c : Prop} [Decidable c] {x y : EStateM ε σ α} (hx : Keeps P x) (hy : Keeps P y) :
    Keeps P (if c then x else y) := triple_ite (fun _ => hx) fun _ => hy

theorem Keeps.tryCatch {x : EStateM ε σ α} {handle : ε → EStateM ε σ α} (hx : Keeps P x)
    (hh : ∀ e, Keeps P (handle e)) : Keeps P (tryCatch x handle) := triple_tryCatch hx hh

/-- A program on a component keeps what the component satisfies. -/
theorem Keeps.zoom {P' : τ → Prop} {x : EStateM ε τ α} {read : σ → τ} {write : σ → τ → σ}
    (hx : Keeps P' x) (hread : ∀ s, P s → P' (read s)) (hwrite : ∀ s t, P s → P' t → P (write s t)) :
    Keeps P (zoom read write x) :=
  triple_zoom fun s hs => (hx (read s) (hread s hs)).mono (fun _ t ht => hwrite s t hs ht)
    fun _ t ht => hwrite s t hs ht

end Programs

namespace Scan
open Programs
variable {ε σ : Type} {P : σ → Prop}

theorem keeps_loop {size : σ → Nat} {count : Nat} {sel : Nat → EStateM ε σ Bool}
    {act : Nat → EStateM ε σ Unit} (hsel : ∀ i, Keeps P (sel i)) (hact : ∀ i, Keeps P (act i)) (n i : Nat) :
    Keeps P (loop size count sel act n i) := by
  induction n generalizing i with
  | zero => exact keeps_pure _
  | succ n ih =>
      refine triple_loop_succ (fun _ hs _ => hs) fun s hs _ => ?_
      have hround : Keeps P (sel i >>= fun b => (if b then act i else pure ()) >>= fun _ =>
          loop size count sel act n (i + 1)) :=
        (hsel i).bind fun b => (keeps_ite (hact i) (keeps_pure _)).bind fun _ => ih (i + 1)
      exact hround s hs

end Scan
