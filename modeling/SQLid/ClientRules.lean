import SQLid.StorageSteps

/-!
# Rules for clients

What must be shown of the actions of a client for every statement to be safe: the
roles between two rows are the idle ones, and `Tests` are the roles of a thread that
has found a line active.
-/
namespace SQLid
open Interleave

namespace Client
open Thread (atom)

variable {γ ρ α β : Type} (S : Interleave.System Fault Tabble Action γ) (ok : Nat → Action → Tabble → γ → Prop)
  (I : Tabble → γ → (Nat → ρ) → Prop) (idle : ρ → Prop)

/-- The obligations for thread `i`. -/
structure Rules (os : Os) (columns : List Column) (Tests : Bool → Nat → ρ → Prop) (i : Nat) :
    Prop where
  fail : ∀ (α : Type) (r : ρ) (e : Fault) (Q : α → ρ → Prop),
    Does S ok I idle i r .fail (throw e : EStateM Fault Tabble α) Q
  counter : ∀ (r : ρ) (l : Action) (f : Tabble → Nat), l = .getMaxActiveLine ∨ l = .getActivePlaces →
    idle r → Does S ok I idle i r l (do return f (← get)) fun _ => idle
  isActive : ∀ (r : ρ) (select : Bool) (line : Nat), idle r →
    Does S ok I idle i r (.isActive select line) (Tabble.onStorage (MemoryMap.isActive line))
      fun b r' => if b then Tests select line r' else idle r'
  read : ∀ (r : ρ) (select : Bool) (line : Nat) (column : Column), Tests select line r →
    Does S ok I idle i r (.read line) (Tabble.readColumn line column) fun _ => Tests select line
  skip : ∀ (r : ρ) (select : Bool) (line : Nat), idle r ∨ Tests select line r →
    Does S ok I idle i r (.skip line) (pure ()) fun _ => idle
  aim : ∀ (r : ρ) (line : Nat), idle r →
    Does S ok I idle i r (.aim line) (pure ()) fun _ => Tests true line
  pushRecord : ∀ (r : ρ) (line : Nat) (ids : List Nat), Tests true line r →
    Safe S ok I idle i (fun _ => idle) (pushRecord line ids columns) r
  erase : ∀ (r : ρ) (line : Nat), Tests false line r →
    Safe S ok I idle i (fun _ => idle) (erase line) r
  update : ∀ (r : ρ) (line : Nat) (values : List VariantTypes) (updated : List Column),
    (∀ c ∈ updated, c ∈ columns) → Tests false line r →
    Safe S ok I idle i (fun _ => idle) (update os values updated true line 0) r
  insert : ∀ (r : ρ) (waits : Bool) (values : List VariantTypes) (index : Nat), idle r →
    Safe S ok I idle i (fun _ => idle) (insert os waits values columns index) r

variable {S ok I idle} {os : Os} {columns : List Column} {Tests : Bool → Nat → ρ → Prop} {i : Nat}

namespace Rules
variable (h : Rules S ok I idle os columns Tests i) {r : ρ}
include h

theorem safe_fail (e : Fault) (Q : α → ρ → Prop) : Safe S ok I idle i Q (Client.fail e) r :=
  safe_atom (h.fail α r e Q)

theorem safe_ofExcept {x : Except Fault α} {Q : α → ρ → Prop} (hx : ∀ a, x = .ok a → Q a r) :
    Safe S ok I idle i Q (ofExcept x) r := by
  cases x with
  | ok a => exact hx a rfl
  | error e => exact h.safe_fail e Q

/-- Conditions are evaluated on a line that has been found active. -/
theorem safe_satisfiesFrom {select : Bool} {line : Nat} (conds : List Condition) (current : Bool)
    (logic : ConditionType) (hr : Tests select line r) :
    Safe S ok I idle i (fun _ => Tests select line)
      (satisfiesFrom line columns current logic conds) r := by
  induction conds generalizing current logic r with
  | nil => exact hr
  | cons cond conds ih =>
    unfold satisfiesFrom
    refine safe_ite (fun _ => ih current _ hr) fun _ => ?_
    cases columns[cond.collumnId]? with
    | none => exact h.safe_fail _ _
    | some column =>
        refine safe_atom_bind (h.read r select line column hr) fun value r' hr' => ?_
        have hmet : Safe S ok I idle i (fun _ => Tests select line) (ofExcept (cond.result value)) r' :=
          h.safe_ofExcept fun _ _ => hr'
        exact hmet.bind fun met r'' hr'' => ih _ _ hr''

theorem safe_selects (select : Bool) (conditions : List Condition) (line : Nat) (hr : idle r) :
    Safe S ok I idle i (fun b r' => idle r' ∧ b = false ∨ Tests select line r')
      (selects select conditions columns line) r := by
  refine safe_atom_bind (h.isActive r select line hr) fun b r' hr' => ?_
  cases b with
  | false => exact .inl ⟨hr', rfl⟩
  | true =>
      refine safe_ite (fun _ => ?_) fun hb => absurd rfl hb
      refine safe_ite (fun _ => .inr hr') fun _ => ?_
      have hcond := h.safe_satisfiesFrom conditions false .logicalOr (r := r') hr'
      exact hcond.mono fun _ _ hq => .inr hq

/-- The scan of a statement whose work on a line it has found is safe. -/
theorem safe_scanLines {select : Bool} {conditions : List Condition} {count : Nat}
    {act : Nat → Client (List VariantTypes)}
    (hact : ∀ line r, Tests select line r → Safe S ok I idle i (fun _ => idle) (act line) r)
    (n k : Nat) (body : List (List VariantTypes)) (hr : idle r) :
    Safe S ok I idle i (fun _ => idle) (scanLines select conditions columns count act n k body) r := by
  induction n generalizing k body r with
  | zero => exact hr
  | succ n ih =>
    unfold scanLines
    refine safe_ite (fun _ => ?_) fun _ => hr
    refine (h.safe_selects select conditions k hr).bind fun b r' hr' => ?_
    refine safe_ite (fun hb => ?_) fun _ => ?_
    · rcases hr' with ⟨-, rfl⟩ | htest
      · cases hb
      · exact (hact k r' htest).bind fun row r'' hr'' => ih (k + 1) _ hr''
    · have hskip : idle r' ∨ Tests select k r' := hr'.imp And.left id
      exact safe_atom_bind (h.skip r' select k hskip) fun _ r'' hr'' => ih (k + 1) body hr''

theorem safe_getMaxActiveLine (hr : idle r) :
    Safe S ok I idle i (fun _ => idle) getMaxActiveLine r :=
  safe_atom (h.counter r _ Tabble.getMaxActiveLine (.inl rfl) hr)

theorem safe_activeCount (limit : Nat) (hr : idle r) :
    Safe S ok I idle i (fun _ => idle) (activeCount limit) r :=
  safe_atom_bind (h.counter r _ Tabble.getActivePlaces (.inr rfl) hr) fun _ _ hr' => hr'

theorem safe_reserveBody (n : Nat) (hr : idle r) :
    Safe S ok I idle i (fun _ => idle) (reserveBody n) r :=
  safe_ite (fun _ => h.safe_fail _ _) fun _ => hr

theorem safe_executeSelect (query : SelectQuery) (hr : idle r) :
    Safe S ok I idle i (fun _ => idle) (executeSelect columns query) r := by
  unfold executeSelect
  have hheader : Safe S ok I idle i (fun _ => idle)
      (ofExcept (Executor.columnHeader columns query.columnsOptimized)) r :=
    h.safe_ofExcept fun _ _ => hr
  refine hheader.bind fun _ r hr => ?_
  cases Executor.directIndex query.conditions with
  | some desired =>
      have hline : Safe S ok I idle i (fun _ => idle) (ofExcept desired.getInt64) r :=
        h.safe_ofExcept fun _ _ => hr
      refine hline.bind fun line r hr => ?_
      refine safe_atom_bind (h.aim r line.toNat hr) fun _ r hr => ?_
      exact (h.pushRecord r line.toNat query.columnsOptimized hr).bind fun _ _ hr => hr
  | none =>
      refine (h.safe_getMaxActiveLine hr).bind fun freeId r hr => ?_
      have hstrip : Safe S ok I idle i (fun _ => idle)
          (ofExcept (Executor.stripSelect 0 freeId query.conditions)) r :=
        h.safe_ofExcept fun _ _ => hr
      refine hstrip.bind fun strip r hr => ?_
      refine (h.safe_activeCount query.limit hr).bind fun count r hr => ?_
      refine (h.safe_reserveBody count hr).bind fun _ r hr => ?_
      refine Safe.bind (h.safe_scanLines (fun line r hr => ?_) _ _ _ hr) fun _ _ hr => hr
      exact h.pushRecord r line query.columnsOptimized hr

theorem safe_eraseLine (line : Nat) (hr : Tests false line r) :
    Safe S ok I idle i (fun _ => idle) (eraseLine line) r :=
  (h.erase r line hr).bind fun _ _ hr => hr

theorem safe_updateLine {values : List VariantTypes} {updated : List Column}
    (hc : ∀ c ∈ updated, c ∈ columns) (line : Nat) (hr : Tests false line r) :
    Safe S ok I idle i (fun _ => idle) (updateLine os values updated line) r :=
  (h.update r line values updated hc hr).bind fun _ _ hr => hr

theorem safe_executeDelete (query : DeleteQuery) (hr : idle r) :
    Safe S ok I idle i (fun _ => idle) (executeDelete columns query) r := by
  unfold executeDelete
  cases Executor.directIndex query.conditions with
  | some desired =>
      have hline : Safe S ok I idle i (fun _ => idle) (ofExcept desired.getInt64) r :=
        h.safe_ofExcept fun _ _ => hr
      refine hline.bind fun line r hr => ?_
      refine safe_atom_bind (h.isActive r false line.toNat hr) fun b r hr => ?_
      cases b with
      | false => exact hr
      | true => exact (h.safe_eraseLine line.toNat hr).bind fun _ _ hr => hr
  | none =>
      refine (h.safe_getMaxActiveLine hr).bind fun freeId r hr => ?_
      have hbound : Safe S ok I idle i (fun _ => idle)
          (ofExcept (Executor.upperBound freeId query.conditions)) r :=
        h.safe_ofExcept fun _ _ => hr
      refine hbound.bind fun maxLine r hr => ?_
      refine (h.safe_activeCount query.limit hr).bind fun count r hr => ?_
      refine (h.safe_reserveBody count hr).bind fun _ r hr => ?_
      exact h.safe_scanLines (fun line r hr => h.safe_eraseLine line hr) _ _ _ hr

theorem safe_executeUpdate (query : UpdateQuery) (hr : idle r) :
    Safe S ok I idle i (fun _ => idle) (executeUpdate os columns query) r := by
  unfold executeUpdate
  have hcolumns : Safe S ok I idle i (fun updated r' => (∀ c ∈ updated, c ∈ columns) ∧ idle r')
      (ofExcept (Executor.columnsAt columns query.columnsOptimized)) r :=
    h.safe_ofExcept fun updated hu => ⟨Executor.columnsAt_mem hu, hr⟩
  refine hcolumns.bind fun updated r hr => ?_
  obtain ⟨hc, hr⟩ := hr
  cases Executor.directIndex query.conditions with
  | some desired =>
      have hline : Safe S ok I idle i (fun _ => idle) (ofExcept desired.getInt64) r :=
        h.safe_ofExcept fun _ _ => hr
      refine hline.bind fun line r hr => ?_
      refine safe_atom_bind (h.isActive r false line.toNat hr) fun b r hr => ?_
      cases b with
      | false => exact hr
      | true => exact (h.safe_updateLine hc line.toNat hr).bind fun _ _ hr => hr
  | none =>
      refine (h.safe_getMaxActiveLine hr).bind fun freeId r hr => ?_
      have hbound : Safe S ok I idle i (fun _ => idle)
          (ofExcept (Executor.upperBound freeId query.conditions)) r :=
        h.safe_ofExcept fun _ _ => hr
      refine hbound.bind fun maxLine r hr => ?_
      refine (h.safe_activeCount query.limit hr).bind fun count r hr => ?_
      refine (h.safe_reserveBody count hr).bind fun _ r hr => ?_
      exact h.safe_scanLines (fun line r hr => h.safe_updateLine hc line hr) _ _ _ hr

theorem safe_insertFrom {waits : Nat → Bool} {values : List VariantTypes} (n k : Nat)
    (body : List (List VariantTypes)) (hr : idle r) :
    Safe S ok I idle i (fun _ => idle) (insertFrom os waits values columns n k body) r := by
  induction n generalizing k body r with
  | zero => exact hr
  | succ n ih =>
    refine safe_ite (fun _ => ?_) fun _ => hr
    exact (h.insert r (waits k) values k hr).bind fun cur r' hr' => ih _ _ hr'

/-- Every statement is safe for a thread that meets the obligations. -/
theorem safe_execute (waits : Nat → Bool) (query : QueryVariant) (hr : idle r) :
    Safe S ok I idle i (fun _ => idle) (execute os waits columns query) r := by
  cases query with
  | select query => exact h.safe_executeSelect query hr
  | insert query => exact h.safe_insertFrom query.values.length 0 [] hr
  | erase query => exact h.safe_executeDelete query hr
  | update query => exact h.safe_executeUpdate query hr

end Rules

/-! The clients of one table. -/

/-- What a client thread may begin: a request that the parser and the optimizer accept. -/
def Request (os : Os) (schema : TabbleInfo) (p : Client Unit) : Prop :=
  ∃ command query waits, compile schema command = .ok query ∧
    p = execute os waits schema.columns query >>= fun _ => pure ()

def clients (os : Os) (schema : TabbleInfo) (note : Nat → Action → Tabble → γ → γ) :
    Interleave.System Fault Tabble Action γ := ⟨note, Request os schema⟩

theorem Rules.safe_request {schema : TabbleInfo}
    (h : Rules S ok I idle os schema.columns Tests i) {p : Client Unit} (hp : Request os schema p)
    {r : ρ} (hr : idle r) : Safe S ok I idle i (fun _ => idle) p r := by
  obtain ⟨-, query, waits, -, rfl⟩ := hp
  exact (h.safe_execute waits query hr).bind fun _ _ hr => hr

end Client
end SQLid
