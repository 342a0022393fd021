import Mathlib.Logic.Function.Basic

/-!
# Versions of slots that are written and read in pieces

Threads write the content of a slot piece by piece, and others read it piece by piece.
Beside the contents it is noted which complete contents a slot has had, who is writing
it, who is reading it, and what the readers have answered.
-/
namespace Versions

variable {C α : Type}

/-- `draft` is what the writer alone makes of the content it found; a reader is a thread
and its slot, an answer a slot and what was said of it. -/
structure Log (C α : Type) where
  had : Nat → List C
  writer : Nat → Option Nat
  draft : Nat → C
  readers : List (Nat × Nat)
  answers : List (Nat × α)

/-- What a thread has in hand: nothing, a slot it writes to, or one it has found with
this content. -/
inductive Role (C : Type) where
  | idle
  | writing (s : Nat)
  | reading (s : Nat) (c : C)

namespace Log

/-- All slots in use are complete. -/
def start (content : Nat → C) (live : Nat → Bool) : Log C α :=
  ⟨fun s => if live s then [content s] else [], fun _ => none, content, [], []⟩

def others (g : Log C α) (i : Nat) : List (Nat × Nat) := g.readers.filter (·.1 ≠ i)

/-- Thread `i` turns to a slot to read it. -/
def look (g : Log C α) (i s : Nat) : Log C α := { g with readers := (i, s) :: g.others i }

def leave (g : Log C α) (i : Nat) : Log C α := { g with readers := g.others i }

/-- Thread `i` starts to write. -/
def claim (g : Log C α) (i s : Nat) (c : C) : Log C α :=
  { g with writer := Function.update g.writer s (some i), draft := Function.update g.draft s c }

def put (g : Log C α) (s : Nat) (c : C) : Log C α := { g with draft := Function.update g.draft s c }

/-- The writer has finished. -/
def close (g : Log C α) (s : Nat) : Log C α :=
  { g with
    writer := Function.update g.writer s none
    had := Function.update g.had s (g.draft s :: g.had s) }

def answer (g : Log C α) (s : Nat) (a : α) : Log C α := { g with answers := (s, a) :: g.answers }

end Log

/-- What readers say of a slot is said of a content it has had. -/
def Whole (tells : Nat → C → α → Prop) (g : Log C α) : Prop :=
  ∀ p ∈ g.answers, ∃ c ∈ g.had p.1, tells p.1 c p.2

section Whole
variable {tells : Nat → C → α → Prop} {g : Log C α}

theorem Whole.answer (h : Whole tells g) {s : Nat} {c : C} {a : α} (hc : c ∈ g.had s)
    (ha : tells s c a) : Whole tells (g.answer s a) := by
  intro p hp
  rcases List.mem_cons.mp hp with rfl | hp
  · exact ⟨c, hc, ha⟩
  · exact h p hp

/-- Nothing is said of a slot that has had no content. -/
theorem Whole.said (h : Whole tells g) : ∀ p ∈ g.answers, (g.had p.1).length ≠ 0 := by
  intro p hp
  obtain ⟨c, hc, -⟩ := h p hp
  exact Nat.ne_of_gt (List.length_pos_of_mem hc)

/-- A slot may have had more. -/
theorem Whole.more (h : Whole tells g) {g' : Log C α} (hanswers : g'.answers = g.answers)
    (hhad : ∀ s, ∀ c ∈ g.had s, c ∈ g'.had s) : Whole tells g' := by
  intro p hp
  rw [hanswers] at hp
  obtain ⟨c, hc, htells⟩ := h p hp
  exact ⟨c, hhad p.1 c hc, htells⟩

theorem Whole.close (h : Whole tells g) (s : Nat) : Whole tells (g.close s) := by
  refine h.more rfl fun s' c hc => ?_
  change c ∈ Function.update g.had s (g.draft s :: g.had s) s'
  by_cases hs : s' = s
  · subst hs
    rw [Function.update_self]
    exact List.mem_cons_of_mem _ hc
  · rw [Function.update_of_ne hs]
    exact hc

end Whole

/-- Between its writes a slot holds a content it has had, and while somebody reads it
nobody writes to it. -/
structure Tracked (content : Nat → C) (live : Nat → Bool) (cap : Nat) (g : Log C α)
    (roles : Nat → Role C) : Prop where
  live : ∀ s, live s = true → s < cap ∧ (g.writer s = none → g.had s ≠ [])
  held : ∀ s, g.writer s = none → g.had s ≠ [] → s < cap ∧ content s ∈ g.had s
  draft : ∀ s i, g.writer s = some i → s < cap ∧ g.draft s = content s
  unread : ∀ p ∈ g.readers, g.writer p.2 = none
  writing : ∀ j s, roles j = .writing s → g.writer s = some j
  reading : ∀ j s c, roles j = .reading s c →
    s < cap ∧ c = content s ∧ c ∈ g.had s ∧ (j, s) ∈ g.readers

namespace Tracked
variable {content : Nat → C} {live : Nat → Bool} {cap : Nat} {g : Log C α} {roles : Nat → Role C}
  {i s : Nat}

theorem start (h : ∀ s, live s = true → s < cap) :
    Tracked content live cap (.start content live : Log C α) fun _ => .idle := by
  refine ⟨fun s hs => ⟨h s hs, ?_⟩, fun s _ hs => ?_, ?_, ?_, ?_, ?_⟩
  · simp [Log.start, hs]
  · by_cases hlive : live s = true
    · simp [Log.start, hlive, h s hlive]
    · simp [Log.start, hlive] at hs
  all_goals simp [Log.start]

/-- A thread may forget what it is doing; its writing stays noted. -/
theorem idle (h : Tracked content live cap g roles) (i : Nat) :
    Tracked content live cap g (Function.update roles i .idle) := by
  obtain ⟨hlive, hheld, hdraft, hunread, hwriting, hreading⟩ := h
  constructor <;> grind [Function.update_apply]

theorem look (h : Tracked content live cap g roles) (hw : g.writer s = none) (hs : g.had s ≠ [])
    (i : Nat) : Tracked content live cap (g.look i s)
      (Function.update roles i (.reading s (content s))) := by
  obtain ⟨hlive, hheld, hdraft, hunread, hwriting, hreading⟩ := h
  unfold Log.look Log.others
  constructor <;> grind [Function.update_apply]

theorem leave (h : Tracked content live cap g roles) (i : Nat) :
    Tracked content live cap (g.leave i) (Function.update roles i .idle) := by
  obtain ⟨hlive, hheld, hdraft, hunread, hwriting, hreading⟩ := h
  unfold Log.leave Log.others
  constructor <;> grind [Function.update_apply]

theorem claim (h : Tracked content live cap g roles) (hs : s < cap)
    (hr : ∀ p ∈ g.readers, p.2 ≠ s) (hw : g.writer s = none) (i : Nat) :
    Tracked content live cap (g.claim i s (content s)) (Function.update roles i (.writing s)) := by
  obtain ⟨hlive, hheld, hdraft, hunread, hwriting, hreading⟩ := h
  unfold Log.claim
  constructor <;> grind [Function.update_apply]

/-- A slot that is written to may be put into use. -/
theorem activate (h : Tracked content live cap g roles) (hw : roles i = .writing s) :
    Tracked content (Function.update live s true) cap g roles := by
  have hwriter := h.writing i s hw
  have hcap := (h.draft s i hwriter).1
  obtain ⟨hlive, hheld, hdraft, hunread, hwriting, hreading⟩ := h
  constructor <;> grind [Function.update_apply]

theorem deactivate (h : Tracked content live cap g roles) (s : Nat) :
    Tracked content (Function.update live s false) cap g roles := by
  obtain ⟨hlive, hheld, hdraft, hunread, hwriting, hreading⟩ := h
  constructor <;> grind [Function.update_apply]

/-- One piece more has been written. -/
theorem put (h : Tracked content live cap g roles) (hw : roles i = .writing s) (c : C) :
    Tracked (Function.update content s c) live cap (g.put s c) roles := by
  have hwriter := h.writing i s hw
  obtain ⟨hlive, hheld, hdraft, hunread, hwriting, hreading⟩ := h
  unfold Log.put
  constructor <;> grind [Function.update_apply]

theorem close (h : Tracked content live cap g roles) (hw : roles i = .writing s) :
    Tracked content live cap (g.close s) (Function.update roles i .idle) := by
  have hwriter := h.writing i s hw
  have hdone := (h.draft s i hwriter).2
  obtain ⟨hlive, hheld, hdraft, hunread, hwriting, hreading⟩ := h
  unfold Log.close
  constructor <;> grind [Function.update_apply]

theorem answered (h : Tracked content live cap g roles) (s : Nat) (a : α) :
    Tracked content live cap (g.answer s a) roles :=
  ⟨h.live, h.held, h.draft, h.unread, h.writing, h.reading⟩

/-- More room changes nothing in the slots there were. -/
theorem grow (h : Tracked content live cap g roles) {content' : Nat → C} {cap' : Nat}
    (hcontent : ∀ s < cap, content' s = content s) (hcap : cap ≤ cap') :
    Tracked content' live cap' g roles := by
  obtain ⟨hlive, hheld, hdraft, hunread, hwriting, hreading⟩ := h
  constructor <;> grind

end Tracked
end Versions
