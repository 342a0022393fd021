import Mathlib.Logic.Function.Basic

/-!
# Live entries and an archive

A store of named entries, with copies of them that are taken and put back. Copies are
never written over, so that what is put back is what was there when the copy was taken.
-/
namespace Archive
universe u v
variable {ν : Type u} {τ : Type v}

structure Store (ν : Type u) (τ : Type v) where
  live : ν → Option τ
  archive : ν → Option τ

inductive Act (ν : Type u)
  | pass
  | change (name : ν)
  | create (name : ν)
  | remove (name : ν)
  | save (name copy : ν)
  | load (copy name : ν)

/-- The live entry an act may change. -/
def Act.target : Act ν → Option ν
  | .pass | .save _ _ => none
  | .change name | .create name | .remove name | .load _ name => some name

variable [DecidableEq ν]

def Store.setLive (st : Store ν τ) (name : ν) (entry : Option τ) : Store ν τ :=
  { st with live := Function.update st.live name entry }

/-- Entries change as `change` allows, and start as `fresh`. -/
inductive Step (change : τ → τ → Prop) (fresh : τ) : Act ν → Store ν τ → Store ν τ → Prop
  | pass (st : Store ν τ) : Step change fresh .pass st st
  | change {st : Store ν τ} {name : ν} {entry entry' : τ} : st.live name = some entry → change entry entry' →
      Step change fresh (.change name) st (st.setLive name (some entry'))
  | create {st : Store ν τ} {name : ν} : st.live name = none →
      Step change fresh (.create name) st (st.setLive name (some fresh))
  | remove {st : Store ν τ} {name : ν} {entry : τ} : st.live name = some entry →
      Step change fresh (.remove name) st (st.setLive name none)
  | save {st : Store ν τ} {name copy : ν} {entry : τ} : st.live name = some entry → st.archive copy = none →
      Step change fresh (.save name copy) st
        { st with archive := Function.update st.archive copy (some entry) }
  | load {st : Store ν τ} {name copy : ν} {entry : τ} : st.archive copy = some entry →
      Step change fresh (.load copy name) st (st.setLive name (some entry))

/-- One act after the other. -/
inductive Steps (change : τ → τ → Prop) (fresh : τ) : List (Act ν) → Store ν τ → Store ν τ → Prop
  | nil (st : Store ν τ) : Steps change fresh [] st st
  | snoc {acts : List (Act ν)} {act : Act ν} {st st' st'' : Store ν τ} : Steps change fresh acts st st' →
      Step change fresh act st' st'' → Steps change fresh (acts ++ [act]) st st''

section
variable {change : τ → τ → Prop} {fresh : τ} {st st' : Store ν τ} {name copy : ν}

theorem Store.live_setLive_self (entry : Option τ) : (st.setLive name entry).live name = entry :=
  Function.update_self ..

theorem Store.live_setLive_other {other : ν} (h : other ≠ name) (entry : Option τ) :
    (st.setLive name entry).live other = st.live other := Function.update_of_ne h ..

/-- A copy stays what it is. -/
theorem Step.archive_kept {act : Act ν} (h : Step change fresh act st st') {entry : τ}
    (hcopy : st.archive copy = some entry) : st'.archive copy = some entry := by
  cases h with
  | save hlive hnone =>
      refine (Function.update_of_ne ?_ ..).trans hcopy
      rintro rfl
      rw [hnone] at hcopy
      cases hcopy
  | _ => exact hcopy

/-- An act is about one entry at most. -/
theorem Step.live_kept {act : Act ν} (h : Step change fresh act st st') (hname : act.target ≠ some name) :
    st'.live name = st.live name := by
  have hother {other : ν} (entry : Option τ) (hne : Act.target act = some other) :
      (st.setLive other entry).live name = st.live name := by
    refine Store.live_setLive_other (fun heq => hname ?_) entry
    rw [heq]
    exact hne
  cases h with
  | pass => rfl
  | save => rfl
  | change => exact hother _ rfl
  | create => exact hother _ rfl
  | remove => exact hother _ rfl
  | load => exact hother _ rfl

theorem Steps.archive_kept {acts : List (Act ν)} (h : Steps change fresh acts st st') {entry : τ}
    (hcopy : st.archive copy = some entry) : st'.archive copy = some entry := by
  induction h with
  | nil => exact hcopy
  | snoc _ hstep ih => exact hstep.archive_kept (ih hcopy)

theorem Steps.live_kept {acts : List (Act ν)} (h : Steps change fresh acts st st')
    (hname : ∀ act ∈ acts, act.target ≠ some name) : st'.live name = st.live name := by
  induction h with
  | nil => rfl
  | snoc _ hstep ih =>
      rw [hstep.live_kept (hname _ (List.mem_append_right _ List.mem_cons_self)),
        ih fun act hact => hname act (List.mem_append_left _ hact)]

end
end Archive
