import SQLid.OptimizerLaws
import SQLid.Rows

/-!
# WHERE clauses

The clauses a client can write, what they mean on a row when they are read from
left to right with `id` as an integer column, and the conditions the optimizer
makes of their tokens.
-/
namespace SQLid
open Bytes (Text)
open CppText (str)

/-! The written language. -/

inductive Oper where
  | equal | notEqual | greater | less
  deriving DecidableEq, Repr

inductive IdOper where
  | equal | atLeast | atMost
  deriving DecidableEq, Repr

inductive Connective where
  | and | or
  deriving DecidableEq, Repr

def Oper.token : Oper → Text
  | .equal => str "=="
  | .notEqual => str "!="
  | .greater => str ">"
  | .less => str "<"

def IdOper.token : IdOper → Text
  | .equal => str "=="
  | .atLeast => str ">="
  | .atMost => str "<="

def Connective.token : Connective → Text
  | .and => str "AND"
  | .or => str "OR"

/-- A comparison of a column with a literal its type accepts. -/
structure ColumnTerm (info : TabbleInfo) where
  name : Text
  oper : Oper
  literal : Text
  columnId : Nat
  column : Column
  desired : VariantTypes
  lookup : info.columnsMap.lookup name = some columnId
  get : info.columns[columnId]? = some column
  parses : parseValue literal column.type = .ok desired
  notId : Optimizer.isId name = false
  notConnective : Optimizer.isConnective name = false

/-- A comparison of the id with an integer of any size. -/
structure IdTerm where
  name : Text
  oper : IdOper
  literal : Text
  minus : Bool
  magnitude : Nat
  isId : Optimizer.isId name = true
  number : CppText.integerPrefix literal = some (minus, magnitude)

inductive Term (info : TabbleInfo) where
  | column (term : ColumnTerm info)
  | id (term : IdTerm)

structure Clause (info : TabbleInfo) where
  first : Term info
  rest : List (Connective × Term info)

section
variable {info : TabbleInfo}

def Term.tokens : Term info → List Text
  | .column term => [term.name, term.oper.token, term.literal]
  | .id term => [term.name, term.oper.token, term.literal]

/-- The clause word by word, a term counting as one. -/
def Clause.items (clause : Clause info) : List (Connective ⊕ Term info) :=
  .inr clause.first :: clause.rest.flatMap fun p => [.inl p.1, .inr p.2]

def itemTokens : Connective ⊕ Term info → List Text
  | .inl connective => [connective.token]
  | .inr term => term.tokens

def Clause.tokens (clause : Clause info) : List Text := clause.items.flatMap itemTokens

/-! What a clause means. -/

def Oper.test : Oper → VariantTypes → VariantTypes → Bool
  | .equal, value, desired => value.eq desired
  | .notEqual, value, desired => !value.eq desired
  | .greater, value, desired => desired.lt value
  | .less, value, desired => value.lt desired

def IdOper.test : IdOper → Int → Int → Bool
  | .equal, i, bound => i == bound
  | .atLeast, i, bound => bound ≤ i
  | .atMost, i, bound => i ≤ bound

def Connective.apply : Connective → Bool → Bool → Bool
  | .and, a, b => a && b
  | .or, a, b => a || b

def IdTerm.bound (term : IdTerm) : Int :=
  if term.minus then -(term.magnitude : Int) else term.magnitude

/-- On the row with this id and these cells. -/
def Term.holds (i : Nat) (cell : Column → VariantTypes) : Term info → Bool
  | .column term => term.oper.test (cell term.column) term.desired
  | .id term => term.oper.test i term.bound

/-- From left to right, neither connective binding stronger. -/
def Clause.holds (clause : Clause info) (i : Nat) (cell : Column → VariantTypes) : Bool :=
  clause.rest.foldl (fun b p => p.1.apply b (p.2.holds i cell)) (clause.first.holds i cell)

def Term.isColumn : Term info → Bool
  | .column _ => true
  | .id _ => false

/-- No term is on the id. -/
def Clause.Plain (clause : Clause info) : Prop :=
  clause.first.isColumn = true ∧ ∀ p ∈ clause.rest, p.2.isColumn = true

/-! What the optimizer makes of it. -/

def Oper.kind : Oper → ConditionType
  | .equal => .equal
  | .notEqual => .notEqual
  | .greater => .greater
  | .less => .less

def IdOper.kind : IdOper → ConditionType
  | .equal => .directIndex
  | .atLeast => .fromIndex
  | .atMost => .toIndex

def Connective.kind : Connective → ConditionType
  | .and => .logicalAnd
  | .or => .logicalOr

/-- The integer modulo 2^64, as `stoul` gives it. -/
def IdTerm.line (term : IdTerm) : Nat :=
  if term.minus then (2 ^ 64 - term.magnitude) % 2 ^ 64 else term.magnitude

/-- What `stoul` does not refuse. -/
def IdTerm.Accepted (term : IdTerm) : Prop := term.magnitude < 2 ^ 64

instance (term : IdTerm) : Decidable term.Accepted := inferInstanceAs (Decidable (_ < _))

def ColumnTerm.condition (term : ColumnTerm info) : Condition :=
  ⟨term.oper.kind, term.columnId, term.desired⟩

def IdTerm.condition (term : IdTerm) : Condition :=
  ⟨term.oper.kind, 0, .int64 (BitVec.ofNat 64 term.line)⟩

def Connective.condition (connective : Connective) : Condition :=
  ⟨connective.kind, sizeMax, .int32 0⟩

/-- The id terms in the order they are written. -/
def idTerms (items : List (Connective ⊕ Term info)) : List IdTerm :=
  items.filterMap fun
    | .inr (.id term) => some term
    | _ => none

/-- The connectives and the column terms in the order they are written. -/
def plainConditions (items : List (Connective ⊕ Term info)) : List Condition :=
  items.filterMap fun
    | .inl connective => some connective.condition
    | .inr (.column term) => some term.condition
    | .inr (.id _) => none

def Clause.ids (clause : Clause info) : List IdTerm := idTerms clause.items

/-- `stoul` refuses none of the bounds. -/
def Clause.Accepted (clause : Clause info) : Prop := ∀ term ∈ clause.ids, term.Accepted

instance (clause : Clause info) : Decidable clause.Accepted :=
  inferInstanceAs (Decidable (∀ term ∈ clause.ids, term.Accepted))

def Clause.conditions (clause : Clause info) : List Condition :=
  (clause.ids.map IdTerm.condition).reverse ++ plainConditions clause.items

theorem IdTerm.line_lt {term : IdTerm} (h : term.Accepted) : term.line < 2 ^ 64 := by
  unfold IdTerm.line
  unfold IdTerm.Accepted at h
  split
  · exact Nat.mod_lt _ (by decide)
  · exact h

theorem IdTerm.indexValue (term : IdTerm) : Optimizer.indexValue term.literal =
    if term.Accepted then .ok (.int64 (BitVec.ofNat 64 term.line)) else .error .outOfRange := by
  unfold Optimizer.indexValue CppText.stoul IdTerm.line IdTerm.Accepted
  rw [term.number]
  dsimp only
  by_cases h : term.magnitude < 2 ^ 64
  · simp only [h, Nat.not_le.mpr h, if_true, if_false]
    rfl
  · simp only [h, Nat.not_lt.mp h, if_true, if_false]
    rfl

theorem optimizeTerm_id (term : IdTerm) (conditions : List Condition) :
    Optimizer.optimizeTerm info term.name term.oper.token term.literal conditions =
      if term.Accepted then .ok (term.condition :: conditions) else .error .outOfRange := by
  have hkind : Optimizer.indexKind term.oper.token = some term.oper.kind := by
    cases term.oper <;> rfl
  unfold Optimizer.optimizeTerm
  rw [if_pos term.isId, hkind]
  dsimp only
  rw [term.indexValue]
  split_ifs <;> rfl

theorem optimizeTerm_column (term : ColumnTerm info) (conditions : List Condition) :
    Optimizer.optimizeTerm info term.name term.oper.token term.literal conditions =
      .ok (conditions ++ [term.condition]) := by
  have hkind : conditionMap.lookup term.oper.token = some term.oper.kind := by
    cases term.oper <;> rfl
  have hcond : Optimizer.columnCondition info term.name term.oper.token term.literal =
      .ok term.condition := by
    unfold Optimizer.columnCondition
    rw [term.lookup]
    dsimp only
    rw [term.get]
    dsimp only
    rw [term.parses, hkind]
    rfl
  unfold Optimizer.optimizeTerm
  rw [if_neg (by rw [term.notId]; exact Bool.false_ne_true), hcond]
  rfl

theorem connective_token (connective : Connective) :
    Optimizer.isConnective connective.token = true ∧
      Optimizer.connective connective.token = connective.condition := by
  cases connective <;> exact ⟨rfl, rfl⟩

theorem not_connective_of_id {name : Text} (h : Optimizer.isId name = true) :
    Optimizer.isConnective name = false := by
  unfold Optimizer.isId at h
  rcases Bool.or_eq_true_iff.mp h with h | h <;>
    · rw [of_decide_eq_true h]
      rfl

/-- Id terms go to the front one by one, everything else to the end. -/
theorem optimizeConditions_items (items : List (Connective ⊕ Term info))
    (conditions : List Condition) :
    Optimizer.optimizeConditions info (items.flatMap itemTokens) conditions =
      if ∀ term ∈ idTerms items, term.Accepted then
        .ok ((idTerms items |>.map IdTerm.condition).reverse ++ conditions ++ plainConditions items)
      else .error .outOfRange := by
  induction items generalizing conditions with
  | nil => simp [idTerms, plainConditions, Optimizer.optimizeConditions]
  | cons item items ih =>
    rw [List.flatMap_cons]
    rcases item with connective | (term | term)
    · obtain ⟨htoken, hcond⟩ := connective_token connective
      have hids : idTerms (.inl connective :: items) = idTerms items := rfl
      have hplain : plainConditions (.inl connective :: items) =
          connective.condition :: plainConditions items := rfl
      change Optimizer.optimizeConditions info (connective.token :: items.flatMap itemTokens) _ = _
      rw [Optimizer.optimizeConditions_connective htoken, hcond, ih, hids, hplain]
      simp only [List.append_assoc, List.singleton_append]
    · have hids : idTerms (.inr (.column term) :: items) = idTerms items := rfl
      have hplain : plainConditions (.inr (.column term) :: items) =
          term.condition :: plainConditions items := rfl
      change Optimizer.optimizeConditions info
        (term.name :: term.oper.token :: term.literal :: items.flatMap itemTokens) _ = _
      rw [Optimizer.optimizeConditions_term term.notConnective, optimizeTerm_column, hids, hplain]
      change Optimizer.optimizeConditions info (items.flatMap itemTokens)
        (conditions ++ [term.condition]) = _
      rw [ih]
      simp only [List.append_assoc, List.singleton_append]
    · have hids : idTerms (.inr (.id term) :: items) = term :: idTerms items := rfl
      have hplain : plainConditions (.inr (.id term) :: items) = plainConditions items := rfl
      change Optimizer.optimizeConditions info
        (term.name :: term.oper.token :: term.literal :: items.flatMap itemTokens) _ = _
      rw [Optimizer.optimizeConditions_term (not_connective_of_id term.isId), optimizeTerm_id, hids,
        hplain]
      by_cases hterm : term.Accepted
      · rw [if_pos hterm]
        change Optimizer.optimizeConditions info (items.flatMap itemTokens)
          (term.condition :: conditions) = _
        rw [ih]
        simp [hterm]
      · rw [if_neg hterm, if_neg fun hall => hterm (hall term List.mem_cons_self)]
        rfl

theorem optimizeConditions_clause (clause : Clause info) :
    Optimizer.optimizeConditions info clause.tokens [] =
      if clause.Accepted then .ok clause.conditions else .error .outOfRange := by
  unfold Clause.tokens Clause.conditions
  rw [optimizeConditions_items, List.append_nil]
  rfl

/-! What the executor makes of the conditions. -/

/-- The column terms alone, each joined by the connective that stands last before it. -/
def foldColumns (cell : Column → VariantTypes) :
    Bool → Connective → List (Connective ⊕ Term info) → Bool
  | current, _, [] => current
  | current, _, .inl connective :: items => foldColumns cell current connective items
  | current, logic, .inr (.column term) :: items =>
      foldColumns cell (logic.apply current (term.oper.test (cell term.column) term.desired)) logic items
  | current, logic, .inr (.id _) :: items => foldColumns cell current logic items

theorem ColumnTerm.result (term : ColumnTerm info) (value : VariantTypes) :
    term.condition.result value = .ok (term.oper.test value term.desired) := by
  unfold ColumnTerm.condition Condition.result
  cases term.oper <;> rfl

theorem ColumnTerm.columnId_lt (term : ColumnTerm info) : term.columnId < info.columns.length :=
  (List.getElem?_eq_some_iff.mp term.get).1

theorem rowSatisfies_items (hreg : info.Regular) (cell : Column → VariantTypes) (current : Bool)
    (logic : Connective) (items : List (Connective ⊕ Term info)) :
    Tabble.rowSatisfiesFrom cell info.columns current logic.kind (plainConditions items) =
      .ok (foldColumns cell current logic items) := by
  induction items generalizing current logic with
  | nil => rfl
  | cons item items ih =>
    rcases item with connective | (term | term)
    · change Tabble.rowSatisfiesFrom cell info.columns current logic.kind
        (connective.condition :: plainConditions items) = _
      unfold Tabble.rowSatisfiesFrom
      rw [if_pos (show connective.condition.collumnId = sizeMax from rfl)]
      exact ih current connective
    · have hid : term.condition.collumnId ≠ sizeMax :=
        Nat.ne_of_lt (term.columnId_lt.trans hreg.columns_lt)
      have hget : info.columns[term.condition.collumnId]? = some term.column := term.get
      change Tabble.rowSatisfiesFrom cell info.columns current logic.kind
        (term.condition :: plainConditions items) = _
      unfold Tabble.rowSatisfiesFrom
      rw [if_neg hid, hget]
      dsimp only
      rw [term.result]
      have hnext := ih (logic.apply current (term.oper.test (cell term.column) term.desired)) logic
      cases logic <;> exact hnext
    · exact ih current logic

theorem foldColumns_rest {cell : Column → VariantTypes} (i : Nat) (current : Bool) (logic : Connective)
    {rest : List (Connective × Term info)} (h : ∀ p ∈ rest, p.2.isColumn = true) :
    foldColumns cell current logic (rest.flatMap fun p => [.inl p.1, .inr p.2]) =
      rest.foldl (fun b p => p.1.apply b (p.2.holds i cell)) current := by
  induction rest generalizing current logic with
  | nil => rfl
  | cons p rest ih =>
    obtain ⟨connective, term⟩ := p
    have hterm := h _ List.mem_cons_self
    cases term with
    | id term => cases hterm
    | column term => exact ih _ connective fun q hq => h q (List.mem_cons_of_mem _ hq)

/-- Without id terms the executor evaluates the clause itself. -/
theorem Clause.Plain.foldColumns {clause : Clause info} (h : clause.Plain) (i : Nat)
    (cell : Column → VariantTypes) :
    SQLid.foldColumns cell false .or clause.items = clause.holds i cell := by
  obtain ⟨first, rest⟩ := clause
  obtain ⟨hfirst, hrest⟩ := h
  cases first with
  | id term => cases hfirst
  | column term => exact foldColumns_rest i _ .or hrest

theorem idTerms_rest {rest : List (Connective × Term info)}
    (h : ∀ p ∈ rest, p.2.isColumn = true) :
    idTerms (rest.flatMap fun p => [.inl p.1, .inr p.2]) = [] := by
  induction rest with
  | nil => rfl
  | cons p rest ih =>
    obtain ⟨connective, term⟩ := p
    have hterm := h _ List.mem_cons_self
    cases term with
    | id term => cases hterm
    | column term => exact ih fun q hq => h q (List.mem_cons_of_mem _ hq)

theorem Clause.Plain.ids {clause : Clause info} (h : clause.Plain) : clause.ids = [] := by
  obtain ⟨first, rest⟩ := clause
  obtain ⟨hfirst, hrest⟩ := h
  cases first with
  | id term => cases hfirst
  | column term => exact idTerms_rest hrest

end
end SQLid
