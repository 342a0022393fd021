import SQLid.Executor
import SQLid.TabbleOpen

/-!
# Programs that only read one line

What such a program answers depends on the mapping alone, and all it leaves
behind is calls on its line in the log. `peek` is the answer.
-/
namespace SQLid
open Bytes (Text)

namespace Tabble

def addLog (t : Tabble) (l : List (Call × MemoryMapLinux)) : Tabble :=
  { t with storage := { t.storage with log := l ++ t.storage.log } }

/-- The same table but for more calls in the log. -/
def LogOnly (t t' : Tabble) : Prop := ∃ l, t' = t.addLog l

theorem LogOnly.refl (t : Tabble) : LogOnly t t := ⟨[], rfl⟩

theorem LogOnly.trans {t t' t'' : Tabble} (h : LogOnly t t') (h' : LogOnly t' t'') :
    LogOnly t t'' := by
  obtain ⟨l, rfl⟩ := h
  obtain ⟨l', rfl⟩ := h'
  exact ⟨l' ++ l, by simp only [addLog, List.append_assoc]⟩

/-- What a program answers on a table. -/
def peek {α : Type} (x : EStateM Fault Tabble α) (t : Tabble) : Except Fault α :=
  match x.run t with
  | .ok a _ => .ok a
  | .error e _ => .error e

/-- `x` answers `f` of the mapping and logs calls on line `i` only. -/
def ReadsLine {α : Type} (i : Nat) (x : EStateM Fault Tabble α) : Prop :=
  ∃ f : MemoryMapLinux → Except Fault α, ∀ t, ∃ l,
    (∀ e ∈ l, e.1.line = some i ∧ e.2 = t.storage.core) ∧
      x.run t = match f t.storage.core with
        | .ok a => .ok a (t.addLog l)
        | .error e => .error e (t.addLog l)

section ReadsLine
variable {α β : Type} {i : Nat} {x : EStateM Fault Tabble α} {t t' : Tabble}

theorem peek_of_ok {a : α} (h : x.run t = .ok a t') : t.peek x = .ok a := by
  rw [peek, h]

theorem peek_of_error {e : Fault} (h : x.run t = .error e t') : t.peek x = .error e := by
  rw [peek, h]

theorem ReadsLine.run (h : ReadsLine i x) (t : Tabble) : ∃ l,
    (∀ e ∈ l, e.1.line = some i ∧ e.2 = t.storage.core) ∧
      x.run t = match t.peek x with
        | .ok a => .ok a (t.addLog l)
        | .error e => .error e (t.addLog l) := by
  obtain ⟨f, hf⟩ := h
  obtain ⟨l, hl, hrun⟩ := hf t
  refine ⟨l, hl, ?_⟩
  cases hfc : f t.storage.core with
  | ok a =>
      rw [hfc] at hrun
      rw [peek_of_ok hrun, hrun]
  | error e =>
      rw [hfc] at hrun
      rw [peek_of_error hrun, hrun]

theorem ReadsLine.run_ok (h : ReadsLine i x) {a : α} (hp : t.peek x = .ok a) :
    ∃ l, (∀ e ∈ l, e.1.line = some i ∧ e.2 = t.storage.core) ∧ x.run t = .ok a (t.addLog l) := by
  obtain ⟨l, hl, hrun⟩ := h.run t
  rw [hp] at hrun
  exact ⟨l, hl, hrun⟩

theorem ReadsLine.run_error (h : ReadsLine i x) {e : Fault} (hp : t.peek x = .error e) :
    ∃ l, (∀ e ∈ l, e.1.line = some i ∧ e.2 = t.storage.core) ∧ x.run t = .error e (t.addLog l) := by
  obtain ⟨l, hl, hrun⟩ := h.run t
  rw [hp] at hrun
  exact ⟨l, hl, hrun⟩

/-- Answers depend on the mapping alone. -/
theorem ReadsLine.peek_congr (h : ReadsLine i x) (hc : t'.storage.core = t.storage.core) :
    t'.peek x = t.peek x := by
  obtain ⟨f, hf⟩ := h
  obtain ⟨l, -, hrun⟩ := hf t
  obtain ⟨l', -, hrun'⟩ := hf t'
  rw [hc] at hrun'
  cases hfc : f t.storage.core with
  | ok a =>
      rw [hfc] at hrun hrun'
      rw [peek_of_ok hrun, peek_of_ok hrun']
  | error e =>
      rw [hfc] at hrun hrun'
      rw [peek_of_error hrun, peek_of_error hrun']

theorem reads_ofExcept (r : Except Fault α) : ReadsLine i (Programs.ofExcept r) := by
  refine ⟨fun _ => r, fun t => ⟨[], by simp, ?_⟩⟩
  cases r <;> rfl

theorem reads_pure (a : α) : ReadsLine i (pure a : EStateM Fault Tabble α) :=
  ⟨fun _ => .ok a, fun _ => ⟨[], by simp, rfl⟩⟩

theorem reads_throw (e : Fault) : ReadsLine i (throw e : EStateM Fault Tabble α) :=
  ⟨fun _ => .error e, fun _ => ⟨[], by simp, rfl⟩⟩

theorem ReadsLine.bind {f : α → EStateM Fault Tabble β} (hx : ReadsLine i x)
    (hf : ∀ a, ReadsLine i (f a)) : ReadsLine i (x >>= f) := by
  obtain ⟨g, hg⟩ := hx
  choose h hh using hf
  refine ⟨fun m => g m >>= fun a => h a m, fun t => ?_⟩
  obtain ⟨l, hl, hrun⟩ := hg t
  cases hgc : g t.storage.core with
  | error e =>
      rw [hgc] at hrun
      refine ⟨l, hl, ?_⟩
      simp only [hgc]
      exact Programs.run_bind_error hrun
  | ok a =>
      rw [hgc] at hrun
      obtain ⟨l', hl', hrun'⟩ := hh a (t.addLog l)
      refine ⟨l' ++ l, fun e he => (List.mem_append.mp he).elim (hl' e) (hl e), ?_⟩
      rw [Programs.run_bind_ok hrun, hrun']
      simp only [hgc, addLog, List.append_assoc]
      rfl

theorem ReadsLine.map (hx : ReadsLine i x) (f : α → β) : ReadsLine i (f <$> x) := by
  rw [← bind_pure_comp]
  exact hx.bind fun _ => reads_pure _

theorem ReadsLine.peek_bind {f : α → EStateM Fault Tabble β} (hx : ReadsLine i x)
    (hf : ∀ a, ReadsLine i (f a)) : t.peek (x >>= f) = t.peek x >>= fun a => t.peek (f a) := by
  cases hp : t.peek x with
  | error e =>
      obtain ⟨l, -, hrun⟩ := hx.run_error hp
      rw [peek_of_error (Programs.run_bind_error hrun)]
      rfl
  | ok a =>
      obtain ⟨l, -, hrun⟩ := hx.run_ok hp
      have hcongr : (t.addLog l).peek (f a) = t.peek (f a) := (hf a).peek_congr rfl
      unfold peek at hcongr ⊢
      rw [Programs.run_bind_ok hrun]
      exact hcongr

end ReadsLine

/-! The reading calls. -/

theorem reads_call {α : Type} {i : Nat} {c : Call} (hc : c.line = some i)
    (f : MemoryMapLinux → Except Fault α) :
    ReadsLine i (onStorage (do MemoryMap.record c; Programs.ofExcept (f (← get).core))) := by
  refine ⟨f, fun t => ⟨[(c, t.storage.core)], ?_, ?_⟩⟩
  · intro e he
    rw [List.mem_singleton.mp he]
    exact ⟨hc, rfl⟩
  · have hrun : (do MemoryMap.record c; Programs.ofExcept (f (← get).core) :
        EStateM Fault MemoryMap α).run t.storage =
        (Programs.ofExcept (f t.storage.core)).run (t.storage.logged c) := rfl
    cases hf : f t.storage.core with
    | ok a =>
        rw [hf] at hrun
        exact run_onStorage_ok hrun
    | error e =>
        rw [hf] at hrun
        exact run_onStorage_error hrun

theorem reads_isActive (i : Nat) : ReadsLine i (onStorage (MemoryMap.isActive i)) := by
  have h := reads_call (i := i) (c := .isActive i) rfl
    fun m => (m.readNumber i 0 1).map boolOfBytes
  have heq : MemoryMap.isActive i = (do
      MemoryMap.record (.isActive i)
      Programs.ofExcept (((← get).core.readNumber i 0 1).map boolOfBytes)) := by
    funext m
    change (MemoryMap.isActive i).run m = _
    unfold MemoryMap.isActive
    rw [Programs.run_bind_ok (MemoryMap.run_record _ m), Programs.run_bind_ok (EStateM.run_get _)]
    cases hr : (m.logged (.isActive i)).core.readNumber i 0 1 with
    | ok bs =>
        rw [Programs.run_bind_ok (Programs.run_ofExcept_ok bs _)]
        change _ = (Programs.ofExcept (((m.logged (.isActive i)).core.readNumber i 0 1).map
          boolOfBytes)).run (m.logged (.isActive i))
        rw [hr]
        rfl
    | error e =>
        rw [Programs.run_bind_error (Programs.run_ofExcept_error e _)]
        change _ = (Programs.ofExcept (((m.logged (.isActive i)).core.readNumber i 0 1).map
          boolOfBytes)).run (m.logged (.isActive i))
        rw [hr]
        rfl
  rwa [heq]

theorem reads_readColumn (i : Nat) (c : Column) : ReadsLine i (readColumn i c) := by
  have htext (off n : Nat) : ReadsLine i (onStorage (MemoryMap.readText i off n)) :=
    reads_call rfl fun m => m.readText i off n
  have hnum (off n : Nat) : ReadsLine i (onStorage (MemoryMap.readNumber i off n)) :=
    reads_call rfl fun m => m.readNumber i off n
  unfold readColumn
  split
  · refine ReadsLine.map ?_ _
    unfold Tabble.readText
    split <;> exact htext _ _
  · unfold Tabble.readNumber
    split
    case h_4 => exact (hnum _ _).bind fun _ => reads_ofExcept _
    all_goals exact reads_throw _

end Tabble

/-! The reading programs of the executor. -/

namespace Executor
open Tabble (ReadsLine)

theorem reads_satisfiesFrom (i : Nat) (columns : List Column) (current : Bool)
    (logic : ConditionType) (conds : List Condition) :
    ReadsLine i (satisfiesFrom i columns current logic conds) := by
  induction conds generalizing current logic with
  | nil => exact Tabble.reads_pure _
  | cons cond conds ih =>
    unfold satisfiesFrom
    split
    · exact ih _ _
    · split
      · exact Tabble.reads_throw _
      · exact (Tabble.reads_readColumn i _).bind fun _ => (Tabble.reads_ofExcept _).bind fun _ => ih _ _

theorem reads_selects (conditions : List Condition) (columns : List Column) (i : Nat) :
    ReadsLine i (selects conditions columns i) := by
  refine (Tabble.reads_isActive i).bind fun b => ?_
  cases b with
  | false => exact Tabble.reads_pure _
  | true =>
      rw [if_pos rfl]
      split
      · exact Tabble.reads_pure _
      · exact reads_satisfiesFrom i columns _ _ _

theorem reads_readColumns (i : Nat) (columns : List Column) (ids : List Nat) :
    ReadsLine i (readColumns i columns ids) := by
  induction ids with
  | nil => exact Tabble.reads_pure _
  | cons id ids ih =>
    unfold readColumns
    split
    · exact Tabble.reads_throw _
    · exact (Tabble.reads_readColumn i _).bind fun _ => ih.bind fun _ => Tabble.reads_pure _

theorem reads_readRecord (i : Nat) (ids : List Nat) (columns : List Column) :
    ReadsLine i (readRecord i ids columns) :=
  (reads_readColumns i columns ids).bind fun _ => Tabble.reads_pure _

end Executor
end SQLid
