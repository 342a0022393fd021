import SQLid.Reads

/-!
# Reading the rows of a file

On a line of the file the reading programs of the executor answer a pure function
of the flag and the cells of that line.
-/
namespace SQLid
open Bytes (Text)

/-- A layout without empty columns whose first file has a size that does not wrap. -/
structure TabbleInfo.Regular (info : TabbleInfo) : Prop extends info.Layout where
  filled : ∀ c ∈ info.columns, 0 < c.size
  fits : info.lineLength * 100 < 2 ^ 64

theorem length_le_sizeSum {cs : List Column} (h : ∀ c ∈ cs, 0 < c.size) : cs.length ≤ sizeSum cs := by
  induction cs with
  | nil => exact le_rfl
  | cons c cs ih =>
    have hc := h c List.mem_cons_self
    have hcs := ih fun d hd => h d (List.mem_cons_of_mem c hd)
    rw [List.length_cons, sizeSum_cons]
    omega

theorem TabbleInfo.Regular.columns_lt {info : TabbleInfo} (h : info.Regular) :
    info.columns.length < sizeMax := by
  have h1 := length_le_sizeSum h.filled
  have h2 := h.lineLength
  have h3 := h.fits
  unfold sizeMax
  omega

namespace Tabble

/-! What a line holds. -/

/-- `satisfiesConditions` over the cells of a row. -/
def rowSatisfiesFrom (cell : Column → VariantTypes) (columns : List Column) :
    Bool → ConditionType → List Condition → Except Fault Bool
  | current, _, [] => .ok current
  | current, logic, cond :: conds =>
      if cond.collumnId = sizeMax then rowSatisfiesFrom cell columns current cond.condType conds
      else match columns[cond.collumnId]? with
        | none => .error .undefined
        | some column => do
            let met ← cond.result (cell column)
            rowSatisfiesFrom cell columns
              (if logic = .logicalOr then current || met else current && met) logic conds

/-- What a scan with these conditions makes of line `i`. -/
def rowSelects (t : Tabble) (conditions : List Condition) (i : Nat) : Except Fault Bool :=
  if t.flag i then
    if conditions = [] then .ok true
    else rowSatisfiesFrom (t.cell i) t.info.columns false .logicalOr conditions
  else .ok false

/-- The row of line `i`: its id and the cells of these columns. -/
def selectedRow (t : Tabble) (ids : List Nat) (i : Nat) : List VariantTypes :=
  Executor.idCell i :: (t.info.pick ids).map (t.cell i)

/-- Reading a line of the file leaves nothing but calls inside it. -/
def Quiet (t t' : Tabble) : Prop := ∃ l, t' = t.addLog l ∧ ∀ e ∈ l, CallInside e

section Quiet
variable {t t' t'' : Tabble}

theorem Quiet.refl (t : Tabble) : Quiet t t := ⟨[], rfl, by simp⟩

theorem Quiet.logsInside (h : Quiet t t') : LogsInside t t' := by
  obtain ⟨l, rfl, hin⟩ := h
  exact ⟨l, rfl, hin⟩

theorem Quiet.logOnly (h : Quiet t t') : LogOnly t t' := by
  obtain ⟨l, rfl, -⟩ := h
  exact ⟨l, rfl⟩

theorem Sound.addLog (h : t.Sound) (l : List (Call × MemoryMapLinux)) : (t.addLog l).Sound :=
  ⟨⟨h.layout, h.lineLength, h.live, h.idle⟩, h.pool⟩

end Quiet

section peek
variable {t : Tabble} {i : Nat}

theorem peek_ofExcept {α : Type} (x : Except Fault α) : t.peek (Programs.ofExcept x) = x := by
  cases x <;> rfl

/-- A read that answers stays quiet. -/
theorem ReadsLine.quiet {α : Type} {x : EStateM Fault Tabble α} (h : ReadsLine i x)
    (hi : i < t.maxLines) {a : α} (hp : t.peek x = .ok a) :
    ∃ t', x.run t = .ok a t' ∧ Quiet t t' := by
  obtain ⟨l, hl, hrun⟩ := h.run_ok hp
  refine ⟨_, hrun, l, rfl, fun e he => ?_⟩
  obtain ⟨hline, hcore⟩ := hl e he
  obtain ⟨c, m⟩ := e
  simp only at hline hcore
  subst hcore
  exact callInside_line hline hi

theorem ReadsLine.quiet_error {α : Type} {x : EStateM Fault Tabble α} (h : ReadsLine i x)
    (hi : i < t.maxLines) {e : Fault} (hp : t.peek x = .error e) :
    ∃ t', x.run t = .error e t' ∧ Quiet t t' := by
  obtain ⟨l, hl, hrun⟩ := h.run_error hp
  refine ⟨_, hrun, l, rfl, fun e he => ?_⟩
  obtain ⟨hline, hcore⟩ := hl e he
  obtain ⟨c, m⟩ := e
  simp only at hline hcore
  subst hcore
  exact callInside_line hline hi

variable (h : t.Mapped) (hi : i < t.maxLines)
include h hi

theorem Mapped.peek_isActive : t.peek (onStorage (MemoryMap.isActive i)) = .ok (t.flag i) :=
  peek_of_ok (h.isActive hi)

theorem Mapped.peek_readColumn {c : Column} (hc : c ∈ t.info.columns) (hsize : 0 < c.size) :
    t.peek (Tabble.readColumn i c) = .ok (t.cell i c) := by
  obtain ⟨t', hrun, -⟩ := h.readColumn hi hc hsize
  exact peek_of_ok hrun

variable (hfill : ∀ c ∈ t.info.columns, 0 < c.size)
include hfill

theorem Mapped.peek_satisfiesFrom (current : Bool) (logic : ConditionType) (conds : List Condition) :
    t.peek (Executor.satisfiesFrom i t.info.columns current logic conds) =
      rowSatisfiesFrom (t.cell i) t.info.columns current logic conds := by
  induction conds generalizing current logic with
  | nil => rfl
  | cons cond conds ih =>
    unfold Executor.satisfiesFrom rowSatisfiesFrom
    by_cases hmax : cond.collumnId = sizeMax
    · rw [if_pos hmax, if_pos hmax]
      exact ih _ _
    · rw [if_neg hmax, if_neg hmax]
      cases hcol : t.info.columns[cond.collumnId]? with
      | none => rfl
      | some column =>
          have hmem := List.mem_of_getElem? hcol
          dsimp only
          rw [(reads_readColumn i column).peek_bind fun _ =>
            (reads_ofExcept _).bind fun _ => Executor.reads_satisfiesFrom i _ _ _ _,
            h.peek_readColumn hi hmem (hfill column hmem)]
          change t.peek (Programs.ofExcept (cond.result (t.cell i column)) >>= fun met =>
            Executor.satisfiesFrom i t.info.columns
              (if logic = .logicalOr then current || met else current && met) logic conds) = _
          rw [(reads_ofExcept (i := i) _).peek_bind fun _ => Executor.reads_satisfiesFrom i _ _ _ _,
            peek_ofExcept]
          refine bind_congr fun met => ?_
          exact ih _ _

theorem Mapped.peek_selects (conds : List Condition) :
    t.peek (Executor.selects conds t.info.columns i) = t.rowSelects conds i := by
  unfold Executor.selects rowSelects
  rw [(reads_isActive i).peek_bind, h.peek_isActive hi]
  · cases t.flag i with
    | false => rfl
    | true =>
        change t.peek (if conds = [] then pure true
          else Executor.satisfiesConditions i conds t.info.columns) = _
        rw [if_pos rfl]
        split_ifs
        · rfl
        · exact h.peek_satisfiesFrom hi hfill _ _ _
  · intro b
    cases b with
    | false => exact reads_pure _
    | true =>
        rw [if_pos rfl]
        split
        · exact reads_pure _
        · exact Executor.reads_satisfiesFrom i t.info.columns _ _ _

theorem Mapped.peek_readColumns {ids : List Nat} (hids : ∀ id ∈ ids, id < t.info.columns.length) :
    t.peek (Executor.readColumns i t.info.columns ids) =
      .ok ((t.info.pick ids).map (t.cell i)) := by
  induction ids with
  | nil => rfl
  | cons id ids ih =>
    have hid := hids id List.mem_cons_self
    have hcol := List.getElem?_eq_getElem hid
    have hmem := List.getElem_mem hid
    unfold Executor.readColumns
    rw [TabbleInfo.pick_cons hcol, hcol]
    dsimp only
    rw [(reads_readColumn i _).peek_bind fun _ =>
      (Executor.reads_readColumns i _ _).bind fun _ => reads_pure _,
      h.peek_readColumn hi hmem (hfill _ hmem)]
    change t.peek (Executor.readColumns i t.info.columns ids >>= _) = _
    rw [(Executor.reads_readColumns i _ _).peek_bind fun _ => reads_pure _,
      ih fun id' hid' => hids id' (List.mem_cons_of_mem id hid')]
    rfl

theorem Mapped.peek_readRecord {ids : List Nat} (hids : ∀ id ∈ ids, id < t.info.columns.length) :
    t.peek (Executor.readRecord i ids t.info.columns) = .ok (t.selectedRow ids i) := by
  unfold Executor.readRecord
  rw [(Executor.reads_readColumns i _ _).peek_bind fun _ => reads_pure _,
    h.peek_readColumns hi hfill hids]
  rfl

end peek

end Tabble
end SQLid
