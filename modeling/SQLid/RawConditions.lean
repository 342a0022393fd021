import SQLid.OptimizerLaws

/-!
# The words of a WHERE clause

A clause of any words is read as connectives and terms of three words. What the optimizer
has compiled when it returns, and when it drops a term that was written.
-/
namespace SQLid
open Bytes (Text)
open CppText (str)

/-- One round of the loop over the words. -/
inductive RawItem where
  | connective (w : Text)
  | triple (columnName oper valueStr : Text)
  deriving DecidableEq, Repr

/-- A term at the end that is cut off is left out. -/
def rawItems : List Text → List RawItem
  | [] => []
  | w :: ws =>
      if Optimizer.isConnective w then .connective w :: rawItems ws
      else match ws with
        | oper :: valueStr :: ws => .triple w oper valueStr :: rawItems ws
        | _ => []

theorem rawItems_connective {w : Text} (h : Optimizer.isConnective w = true) (ws : List Text) :
    rawItems (w :: ws) = .connective w :: rawItems ws := by
  conv => lhs; unfold rawItems
  rw [if_pos h]

theorem rawItems_triple {w : Text} (h : ¬ Optimizer.isConnective w = true) (oper valueStr : Text)
    (ws : List Text) : rawItems (w :: oper :: valueStr :: ws) = .triple w oper valueStr :: rawItems ws := by
  conv => lhs; unfold rawItems
  rw [if_neg h]

/-- The operator is one the source has for the id, or for a column. -/
def RawItem.Supported : RawItem → Prop
  | .connective _ => True
  | .triple columnName oper _ =>
      if Optimizer.isId columnName then Optimizer.indexKind oper ≠ none
      else conditionMap.lookup oper ≠ none

instance : DecidablePred RawItem.Supported := fun item => by
  cases item with
  | connective w => exact inferInstanceAs (Decidable True)
  | triple columnName oper valueStr =>
      exact inferInstanceAs (Decidable (if Optimizer.isId columnName then Optimizer.indexKind oper ≠ none
        else conditionMap.lookup oper ≠ none))

def ConditionType.isIndex : ConditionType → Bool
  | .directIndex | .toIndex | .fromIndex => true
  | _ => false

/-- The condition stands for the item: a connective, a comparison of the id with the
value, or the comparison of a column. -/
def Compiled (info : TabbleInfo) : RawItem → Condition → Prop
  | .connective w, condition => condition = Optimizer.connective w
  | .triple columnName oper valueStr, condition =>
      if Optimizer.isId columnName then
        condition.condType.isIndex = true ∧ Optimizer.indexValue valueStr = .ok condition.desired
      else Optimizer.columnCondition info columnName oper valueStr = .ok condition

/-- No written condition is dropped: a list that compiles has one condition for each item,
and an operator that is not supported is rejected. -/
structure NothingDropped (info : TabbleInfo) (raw : List Text) : Prop where
  kept : ∀ conditions, Optimizer.optimizeConditions info raw [] = .ok conditions →
    (∃ each, List.Forall₂ (Compiled info) (rawItems raw) each ∧ conditions.Perm each) ∧
      (raw ≠ [] → conditions ≠ [])
  rejected : ∀ item ∈ rawItems raw, ¬ item.Supported →
    ∃ message, Optimizer.optimizeConditions info raw [] = .error (.incorrectInput message)

/-- The list is refused as incorrect input: at a term that is cut off or names no column,
at a value its type calls incorrect, or at the operator of a column. All before it is
compiled, a term on the id with another operator passing for compiled. -/
def RefusedTerms (info : TabbleInfo) : List Text → Prop
  | [] => False
  | w :: ws =>
      if Optimizer.isConnective w then RefusedTerms info ws
      else match ws with
        | oper :: valueStr :: ws =>
            if Optimizer.isId w then
              (Optimizer.indexKind oper = none ∨ ∃ n, CppText.stoul valueStr = .ok n) ∧
                RefusedTerms info ws
            else match info.columnsMap.lookup w with
              | none => True
              | some columnId =>
                  match info.columns[columnId]? with
                  | none => False
                  | some column =>
                      match parseValue valueStr column.type with
                      | .error e => ∃ message, e = .incorrectInput message
                      | .ok _ => conditionMap.lookup oper = none ∨ RefusedTerms info ws
        | _ => True

namespace Optimizer
variable {info : TabbleInfo}

theorem indexValue_ok {valueStr : Text} {desired : VariantTypes} :
    indexValue valueStr = .ok desired ↔
      ∃ n, CppText.stoul valueStr = .ok n ∧ desired = .int64 (BitVec.ofNat 64 n) := by
  unfold indexValue
  cases CppText.stoul valueStr with
  | error e => exact ⟨nofun, nofun⟩
  | ok n =>
      constructor
      · intro h
        cases h
        exact ⟨n, rfl, rfl⟩
      · rintro ⟨m, hm, rfl⟩
        cases hm
        rfl

/-- The kinds of terms a round can meet, with what it makes of each. -/
theorem optimizeTerm_ok {columnName oper valueStr : Text} {conditions out : List Condition}
    (h : optimizeTerm info columnName oper valueStr conditions = .ok out) :
    (isId columnName = true ∧ indexKind oper = none ∧ out = conditions) ∨
      (∃ kind desired, isId columnName = true ∧ indexKind oper = some kind ∧
        indexValue valueStr = .ok desired ∧ out = ⟨kind, 0, desired⟩ :: conditions) ∨
      ∃ condition, isId columnName = false ∧
        columnCondition info columnName oper valueStr = .ok condition ∧ out = conditions ++ [condition] := by
  unfold optimizeTerm at h
  by_cases hid : isId columnName = true
  · rw [if_pos hid] at h
    cases hkind : indexKind oper with
    | none =>
        rw [hkind] at h
        cases h
        exact .inl ⟨hid, rfl, rfl⟩
    | some kind =>
        rw [hkind] at h
        obtain ⟨desired, hvalue, h⟩ := Except_bind_ok h
        cases h
        exact .inr (.inl ⟨kind, desired, hid, rfl, hvalue, rfl⟩)
  · rw [if_neg hid] at h
    obtain ⟨condition, hcondition, h⟩ := Except_bind_ok h
    cases h
    exact .inr (.inr ⟨condition, Bool.eq_false_iff.mpr hid, hcondition, rfl⟩)

theorem isIndex_of_indexKind {oper : Text} {kind : ConditionType} (h : indexKind oper = some kind) :
    kind.isIndex = true := by
  unfold indexKind at h
  split_ifs at h <;> cases h <;> rfl

theorem optimizeConditions_short {w : Text} {ws : List Text} (hconn : ¬ isConnective w = true)
    (hshort : ∀ oper valueStr rest, ws = oper :: valueStr :: rest → False) (conditions : List Condition) :
    optimizeConditions info (w :: ws) conditions =
      .error (.incorrectInput (str "Incorrect conditions input")) := by
  conv => lhs; unfold optimizeConditions
  rw [if_neg hconn]
  split
  · exact absurd rfl (hshort _ _ _)
  · rfl

/-- With operators the source has, every item gets its condition. -/
theorem optimizeConditions_compiled {raw : List Text} {conditions out : List Condition}
    (hsupported : ∀ item ∈ rawItems raw, item.Supported)
    (h : optimizeConditions info raw conditions = .ok out) :
    ∃ each, List.Forall₂ (Compiled info) (rawItems raw) each ∧ out.Perm (conditions ++ each) := by
  induction raw using rawItems.induct generalizing conditions with
  | case1 =>
      cases h
      exact ⟨[], .nil, by rw [List.append_nil]⟩
  | case2 w ws hconn ih =>
      rw [optimizeConditions_connective hconn] at h
      rw [rawItems_connective hconn] at hsupported ⊢
      obtain ⟨each, heach, hperm⟩ := ih (fun item hitem => hsupported item (List.mem_cons_of_mem _ hitem)) h
      refine ⟨connective w :: each, .cons rfl heach, ?_⟩
      rwa [List.append_assoc, List.singleton_append] at hperm
  | case3 w hconn oper valueStr ws ih =>
      rw [optimizeConditions_term (Bool.eq_false_iff.mpr hconn)] at h
      obtain ⟨next, hterm, hrest⟩ := Except_bind_ok h
      rw [rawItems_triple hconn] at hsupported ⊢
      have hthis := hsupported _ List.mem_cons_self
      obtain ⟨each, heach, hperm⟩ :=
        ih (fun item hitem => hsupported item (List.mem_cons_of_mem _ hitem)) hrest
      rcases optimizeTerm_ok hterm with ⟨hid, hnone, -⟩ | ⟨kind, desired, hid, hkind, hvalue, rfl⟩ |
        ⟨condition, hid, hcondition, rfl⟩
      · simp only [RawItem.Supported, hid, if_true] at hthis
        exact absurd hnone hthis
      · refine ⟨⟨kind, 0, desired⟩ :: each, .cons ?_ heach, ?_⟩
        · simp only [Compiled, hid, if_true]
          exact ⟨isIndex_of_indexKind hkind, hvalue⟩
        · exact hperm.trans List.perm_middle.symm
      · refine ⟨condition :: each, .cons ?_ heach, ?_⟩
        · simp only [Compiled, hid, Bool.false_eq_true, if_false]
          exact hcondition
        · rwa [List.append_assoc, List.singleton_append] at hperm
  | case4 w ws hconn hshort =>
      rw [optimizeConditions_short hconn hshort] at h
      cases h

theorem rawItems_ne_nil {raw : List Text} {conditions out : List Condition}
    (h : optimizeConditions info raw conditions = .ok out) (hne : raw ≠ []) : rawItems raw ≠ [] := by
  cases raw with
  | nil => exact absurd rfl hne
  | cons w ws =>
      by_cases hconn : isConnective w = true
      · rw [rawItems_connective hconn]
        exact List.cons_ne_nil _ _
      · cases ws with
        | nil =>
            rw [optimizeConditions_short hconn (by simp)] at h
            cases h
        | cons oper ws =>
            cases ws with
            | nil =>
                rw [optimizeConditions_short hconn (by simp)] at h
                cases h
            | cons valueStr ws =>
                rw [rawItems_triple hconn]
                exact List.cons_ne_nil _ _

variable (info) in
/-- A list is refused as incorrect input only at a term that says so. -/
theorem optimizeConditions_refused (raw : List Text) (conditions : List Condition) :
    (∃ message, optimizeConditions info raw conditions = .error (.incorrectInput message)) ↔
      RefusedTerms info raw := by
  induction raw using rawItems.induct generalizing conditions with
  | case1 => exact ⟨nofun, nofun⟩
  | case2 w ws hconn ih =>
      rw [optimizeConditions_connective hconn, ih]
      conv => rhs; unfold RefusedTerms
      rw [if_pos hconn]
  | case3 w hconn oper valueStr ws ih =>
      rw [optimizeConditions_term (Bool.eq_false_iff.mpr hconn)]
      conv => rhs; unfold RefusedTerms
      rw [if_neg hconn]
      dsimp only
      by_cases hid : isId w = true
      · rw [if_pos hid]
        unfold optimizeTerm
        rw [if_pos hid]
        cases hkind : indexKind oper with
        | none => exact (ih conditions).trans ⟨fun h => ⟨.inl rfl, h⟩, And.right⟩
        | some kind =>
            dsimp only
            cases hvalue : CppText.stoul valueStr with
            | error e =>
                have hindex : indexValue valueStr = .error (Fault.ofConv e) := by
                  unfold indexValue
                  rw [hvalue]
                  rfl
                rw [hindex]
                constructor
                · rintro ⟨message, h⟩
                  cases e <;> cases h
                · rintro ⟨hnone | ⟨n, hn⟩, -⟩
                  · cases hnone
                  · cases hn
            | ok n =>
                rw [indexValue_ok.mpr ⟨n, hvalue, rfl⟩]
                exact (ih _).trans ⟨fun h => ⟨.inr ⟨n, rfl⟩, h⟩, And.right⟩
      · rw [if_neg hid]
        unfold optimizeTerm columnCondition
        rw [if_neg hid]
        cases hlookup : info.columnsMap.lookup w with
        | none => exact ⟨fun _ => trivial, fun _ => ⟨_, rfl⟩⟩
        | some columnId =>
            dsimp only
            cases hcolumn : info.columns[columnId]? with
            | none => exact ⟨nofun, nofun⟩
            | some column =>
                dsimp only
                cases hparse : parseValue valueStr column.type with
                | error e =>
                    constructor
                    · rintro ⟨message, h⟩
                      exact ⟨message, Except.error.inj h⟩
                    · rintro ⟨message, rfl⟩
                      exact ⟨message, rfl⟩
                | ok desired =>
                    cases hkind : conditionMap.lookup oper with
                    | none => exact ⟨fun _ => .inl rfl, fun _ => ⟨_, rfl⟩⟩
                    | some kind =>
                        refine (ih (conditions ++ [⟨kind, columnId, desired⟩])).trans ⟨Or.inr, ?_⟩
                        rintro (hnone | h)
                        · cases hnone
                        · exact h
  | case4 w ws hconn hshort =>
      rw [optimizeConditions_short hconn hshort]
      conv => rhs; unfold RefusedTerms
      rw [if_neg hconn]
      split
      · exact absurd rfl (hshort _ _ _)
      · exact ⟨fun _ => trivial, fun _ => ⟨_, rfl⟩⟩

end Optimizer

/-- No condition is dropped if the source has every operator, or if the list is refused
as incorrect input before one of the others is met. -/
theorem nothing_dropped_iff (info : TabbleInfo) (raw : List Text) : NothingDropped info raw ↔
    (∀ item ∈ rawItems raw, item.Supported) ∨ RefusedTerms info raw := by
  have hrefused := Optimizer.optimizeConditions_refused info raw []
  constructor
  · intro h
    by_cases hall : ∀ item ∈ rawItems raw, item.Supported
    · exact .inl hall
    · simp only [not_forall] at hall
      obtain ⟨item, hitem, hother⟩ := hall
      exact .inr (hrefused.mp (h.rejected item hitem hother))
  · rintro (hall | hstop)
    · refine ⟨fun conditions hcompiled => ?_, fun item hitem hother => absurd (hall item hitem) hother⟩
      obtain ⟨each, heach, hperm⟩ := Optimizer.optimizeConditions_compiled hall hcompiled
      rw [List.nil_append] at hperm
      refine ⟨⟨each, heach, hperm⟩, fun hne hnil => ?_⟩
      rw [hnil] at hperm
      rw [List.nil_perm.mp hperm] at heach
      have hitems : rawItems raw = [] := by
        cases hraw : rawItems raw with
        | nil => rfl
        | cons item items =>
            rw [hraw] at heach
            cases heach
      exact Optimizer.rawItems_ne_nil hcompiled hne hitems
    · obtain ⟨message, hmessage⟩ := hrefused.mpr hstop
      refine ⟨fun conditions hcompiled => ?_, fun _ _ _ => ⟨message, hmessage⟩⟩
      rw [hmessage] at hcompiled
      cases hcompiled

/-- `DELETE FROM t WHERE id != 5` compiles to no condition, and erases every row. -/
theorem id_condition_dropped : ¬ ∀ (info : TabbleInfo) (raw : List Text), NothingDropped info raw := by
  intro h
  have hnone := (h ⟨5, 1, [⟨str "n", 1, .int32, 4⟩], [(str "n", 0)]⟩ [str "id", str "!=", str "5"]).kept []
    (by decide +kernel)
  exact hnone.2 (by decide) rfl

end SQLid
