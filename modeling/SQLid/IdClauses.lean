import SQLid.Agreement
import SQLid.Scans
import Mathlib.Data.List.DropRight

/-!
# Clauses with terms on the id

The optimizer takes the terms on the id out of their clause and puts them in front of
it, the last one foremost. A lookup counts in front of all others only; of the bounds
behind the last lookup the first one of each kind does. The column terms stay as they
are, each with the connectives before it.
-/
namespace SQLid
open Executor (directIndex stripSelect upperBound)

/-! The bounds. -/

/-- The line of the first of these terms with this operator. -/
def firstBound (oper : IdOper) (ids : List IdTerm) (otherwise : Nat) : Nat :=
  ((ids.find? fun term => term.oper = oper).map IdTerm.line).getD otherwise

theorem firstBound_concat (oper : IdOper) (ids : List IdTerm) (term : IdTerm) (otherwise : Nat) :
    firstBound oper (ids ++ [term]) otherwise =
      firstBound oper ids (if term.oper = oper then term.line else otherwise) := by
  unfold firstBound
  rw [List.find?_append]
  cases ids.find? fun term => term.oper = oper with
  | some first => rfl
  | none =>
      by_cases h : term.oper = oper
      · simp [h]
      · simp [h]

theorem firstBound_lt {oper : IdOper} {ids : List IdTerm} (h : ∀ term ∈ ids, term.Accepted)
    {otherwise : Nat} (hlt : otherwise < 2 ^ 64) : firstBound oper ids otherwise < 2 ^ 64 := by
  unfold firstBound
  cases hfind : ids.find? fun term => term.oper = oper with
  | none => exact hlt
  | some term => exact IdTerm.line_lt (h term (List.mem_of_find?_eq_some hfind))

theorem IdTerm.getInt64 {term : IdTerm} (h : term.Accepted) :
    ∃ line : BitVec 64, term.condition.desired = .int64 line ∧ line.toNat = term.line :=
  ⟨_, rfl, (BitVec.toNat_ofNat _ _).trans (Nat.mod_eq_of_lt (IdTerm.line_lt h))⟩

theorem stripSelect_bounds {ids : List IdTerm} (hbounds : ∀ term ∈ ids, term.oper ≠ .equal)
    (hacc : ∀ term ∈ ids, term.Accepted) (start stop : Nat) (conds : List Condition) :
    stripSelect start stop ((ids.map IdTerm.condition).reverse ++ conds) =
      stripSelect (firstBound .atLeast ids start) (firstBound .atMost ids stop) conds := by
  induction ids using List.reverseRecOn generalizing start stop with
  | nil => rfl
  | append_singleton ids term ih =>
    have hrest := ih (fun d hd => hbounds d (List.mem_append_left _ hd))
      fun d hd => hacc d (List.mem_append_left _ hd)
    obtain ⟨line, hdesired, hline⟩ := IdTerm.getInt64 (hacc term (List.mem_append_right _ List.mem_cons_self))
    have hterm := hbounds term (List.mem_append_right _ List.mem_cons_self)
    have hkind : term.condition.condType = term.oper.kind := rfl
    rw [firstBound_concat, firstBound_concat, ← hrest, List.map_append, List.reverse_append]
    change stripSelect start stop (term.condition :: ((ids.map IdTerm.condition).reverse ++ conds)) = _
    conv => lhs; unfold stripSelect
    rw [hkind, hdesired]
    cases hoper : term.oper with
    | equal => exact absurd hoper hterm
    | atLeast =>
        rw [← hline]
        rfl
    | atMost =>
        rw [← hline]
        rfl

theorem upperBound_bounds {ids : List IdTerm} (hbounds : ∀ term ∈ ids, term.oper ≠ .equal)
    (hacc : ∀ term ∈ ids, term.Accepted) (stop : Nat) (conds : List Condition) :
    upperBound stop ((ids.map IdTerm.condition).reverse ++ conds) =
      upperBound (firstBound .atMost ids stop) conds := by
  induction ids using List.reverseRecOn generalizing stop with
  | nil => rfl
  | append_singleton ids term ih =>
    have hrest := ih (fun d hd => hbounds d (List.mem_append_left _ hd))
      fun d hd => hacc d (List.mem_append_left _ hd)
    obtain ⟨line, hdesired, hline⟩ := IdTerm.getInt64 (hacc term (List.mem_append_right _ List.mem_cons_self))
    have hterm := hbounds term (List.mem_append_right _ List.mem_cons_self)
    have hkind : term.condition.condType = term.oper.kind := rfl
    rw [firstBound_concat, ← hrest, List.map_append, List.reverse_append]
    change upperBound stop (term.condition :: ((ids.map IdTerm.condition).reverse ++ conds)) = _
    conv => lhs; unfold upperBound
    rw [hkind, hdesired]
    cases hoper : term.oper with
    | equal => exact absurd hoper hterm
    | atLeast => rfl
    | atMost =>
        rw [← hline]
        rfl

/-! The parts of a clause. -/

section
variable {info : TabbleInfo}

/-- The line the last id term looks up, if it is a lookup. -/
def Clause.direct (clause : Clause info) : Option Nat :=
  clause.ids.getLast?.bind fun term => if term.oper = .equal then some term.line else none

/-- The bounds behind the last lookup. -/
def Clause.latest (clause : Clause info) : List IdTerm :=
  clause.ids.rtakeWhile fun term => term.oper ≠ .equal

/-- The id terms up to the last lookup. -/
def Clause.settled (clause : Clause info) : List IdTerm :=
  clause.ids.rdropWhile fun term => term.oper ≠ .equal

/-- What a SELECT keeps of the conditions for its scan. -/
def Clause.kept (clause : Clause info) : List Condition :=
  ((clause.settled.map IdTerm.condition).reverse ++ plainConditions clause.items).dropWhile
    Condition.isLogical

/-- A pair of a clause word for word. -/
def pairItems (p : Connective × Term info) : List (Connective ⊕ Term info) := [.inl p.1, .inr p.2]

/-- The column terms of these pairs as a clause, the first one without its connective. -/
def crossed (ps : List (Connective × Term info)) : Option (Clause info) :=
  match ps.filter fun p => p.2.isColumn with
  | [] => none
  | p :: rest => some ⟨p.2, rest⟩

/-- The clause with its id terms crossed out, each with the connective before it. -/
def Clause.columnsOnly (clause : Clause info) : Option (Clause info) :=
  crossed ((.or, clause.first) :: clause.rest)

/-- A clause that need not be there holds. -/
def heldBy (i : Nat) (cell : Column → VariantTypes) : Option (Clause info) → Bool
  | none => true
  | some clause => clause.holds i cell

/-- The column terms alone hold, or there are none. -/
def Clause.columnsHold (clause : Clause info) (i : Nat) (cell : Column → VariantTypes) : Bool :=
  heldBy i cell clause.columnsOnly

variable {clause : Clause info}

theorem Clause.settled_append (clause : Clause info) : clause.settled ++ clause.latest = clause.ids :=
  List.rdropWhile_append_rtakeWhile

theorem Clause.conditions_split (clause : Clause info) : clause.conditions =
    (clause.latest.map IdTerm.condition).reverse ++
      ((clause.settled.map IdTerm.condition).reverse ++ plainConditions clause.items) := by
  unfold Clause.conditions
  rw [← clause.settled_append, List.map_append, List.reverse_append, List.append_assoc]

theorem Clause.latest_bounds : ∀ term ∈ clause.latest, term.oper ≠ .equal := by
  intro term hterm
  have hall := List.mem_rtakeWhile_imp hterm
  simpa using hall

theorem Clause.latest_mem {term : IdTerm} (h : term ∈ clause.latest) : term ∈ clause.ids := by
  rw [← clause.settled_append]
  exact List.mem_append_right _ h

/-- The id terms end with a lookup up to the last one. -/
theorem Clause.settled_cases (clause : Clause info) : clause.settled = [] ∨
    ∃ front last, clause.settled = front ++ [last] ∧ last.oper = .equal := by
  rcases List.eq_nil_or_concat clause.settled with hnil | ⟨front, last, hlast⟩
  · exact .inl hnil
  · rw [List.concat_eq_append] at hlast
    refine .inr ⟨front, last, hlast, ?_⟩
    have hne : clause.settled ≠ [] := by
      rw [hlast]
      exact List.append_ne_nil_of_right_ne_nil _ (List.cons_ne_nil _ _)
    have hnot := List.rdropWhile_last_not (fun term : IdTerm => decide (term.oper ≠ .equal)) clause.ids hne
    have hgetLast : clause.settled.getLast hne = last := by
      simp [hlast]
    change ¬ decide ((clause.settled.getLast hne).oper ≠ .equal) = true at hnot
    rw [hgetLast] at hnot
    simpa using hnot

/-- Without a lookup all id terms are bounds that count. -/
theorem Clause.settled_nil (h : ∀ term ∈ clause.ids, term.oper ≠ .equal) : clause.settled = [] := by
  rcases clause.settled_cases with hnil | ⟨front, last, hlast, hequal⟩
  · exact hnil
  · refine absurd hequal (h last ?_)
    rw [← clause.settled_append, hlast]
    exact List.mem_append_left _ (List.mem_append_right _ List.mem_cons_self)

theorem Clause.settled_lookup (h : ∃ term ∈ clause.ids, term.oper = .equal) :
    ∃ front last, clause.settled = front ++ [last] ∧ last.oper = .equal := by
  refine clause.settled_cases.resolve_left fun hnil => ?_
  obtain ⟨term, hterm, hequal⟩ := h
  rw [← clause.settled_append, hnil, List.nil_append] at hterm
  exact Clause.latest_bounds term hterm hequal

/-- A clause whose last id term is a lookup has no bounds that count. -/
theorem Clause.direct_some {line : Nat} (h : clause.direct = some line) :
    ∃ front last, clause.ids = front ++ [last] ∧ last.oper = .equal ∧ last.line = line := by
  unfold Clause.direct at h
  rcases List.eq_nil_or_concat clause.ids with hnil | ⟨front, last, hlast⟩
  · rw [hnil] at h
    cases h
  · rw [List.concat_eq_append] at hlast
    rw [hlast, List.getLast?_concat, Option.bind_some] at h
    refine ⟨front, last, hlast, ?_⟩
    split_ifs at h with hequal
    cases h
    exact ⟨hequal, rfl⟩

theorem Clause.direct_none (h : clause.direct = none) (hids : clause.ids ≠ []) :
    ∃ front last, clause.ids = front ++ [last] ∧ last.oper ≠ .equal := by
  unfold Clause.direct at h
  rcases List.eq_nil_or_concat clause.ids with hnil | ⟨front, last, hlast⟩
  · exact absurd hnil hids
  · rw [List.concat_eq_append] at hlast
    rw [hlast, List.getLast?_concat, Option.bind_some] at h
    refine ⟨front, last, hlast, fun hequal => ?_⟩
    rw [if_pos hequal] at h
    cases h

theorem Clause.direct_bounds
    (h : ∀ term ∈ clause.ids, term.oper ≠ .equal) : clause.direct = none := by
  cases hdirect : clause.direct with
  | none => rfl
  | some line =>
      obtain ⟨front, last, hids, hequal, -⟩ := Clause.direct_some hdirect
      exact absurd hequal (h last (by rw [hids]; exact List.mem_append_right _ List.mem_cons_self))

theorem Clause.latest_bounds_all
    (h : ∀ term ∈ clause.ids, term.oper ≠ .equal) : clause.latest = clause.ids := by
  have hsplit := clause.settled_append
  rwa [Clause.settled_nil h, List.nil_append] at hsplit

/-! What the statements make of the parts. -/

/-- The foremost condition is that of the last id term. -/
theorem Clause.conditions_cons {front : List IdTerm} {last : IdTerm} (h : clause.ids = front ++ [last]) :
    clause.conditions =
      last.condition :: ((front.map IdTerm.condition).reverse ++ plainConditions clause.items) := by
  unfold Clause.conditions
  rw [h, List.map_append, List.reverse_append]
  rfl

theorem Clause.directIndex_some {line : Nat} (h : clause.direct = some line) :
    directIndex clause.conditions = some (.int64 (BitVec.ofNat 64 line)) := by
  obtain ⟨front, last, hids, hequal, rfl⟩ := Clause.direct_some h
  rw [Clause.conditions_cons hids]
  unfold IdTerm.condition directIndex
  rw [hequal]
  rfl

theorem Clause.directIndex_none (h : clause.direct = none) (hids : clause.ids ≠ []) :
    directIndex clause.conditions = none := by
  obtain ⟨front, last, hfront, hequal⟩ := Clause.direct_none h hids
  rw [Clause.conditions_cons hfront]
  unfold IdTerm.condition directIndex
  cases hoper : last.oper with
  | equal => exact absurd hoper hequal
  | atLeast => rfl
  | atMost => rfl

/-- A clause joined by AND holds when all its terms do. -/
theorem Clause.holds_and (hand : ∀ p ∈ clause.rest, p.1 = .and)
    (i : Nat) (cell : Column → VariantTypes) :
    clause.holds i cell = (clause.first :: clause.rest.map Prod.snd).all fun term => term.holds i cell := by
  obtain ⟨first, rest⟩ := clause
  unfold Clause.holds
  rw [List.all_cons]
  dsimp only at hand ⊢
  generalize first.holds i cell = current
  induction rest generalizing current with
  | nil => simp
  | cons p rest ih =>
    have hp := hand p List.mem_cons_self
    rw [List.foldl_cons, ih (fun q hq => hand q (List.mem_cons_of_mem p hq)), hp, List.map_cons, List.all_cons]
    exact Bool.and_assoc ..

theorem plainConditions_index (items : List (Connective ⊕ Term info)) :
    ∀ c ∈ plainConditions items, c.isIndex = false := by
  intro c hc
  obtain ⟨item, -, hitem⟩ := List.mem_filterMap.mp hc
  rcases item with connective | (term | term)
  · cases hitem
    cases connective <;> rfl
  · cases hitem
    unfold Condition.isIndex ColumnTerm.condition
    cases term.oper <;> rfl
  · cases hitem

/-- The scan of a SELECT has the bounds that count, and the rest of the conditions. -/
theorem Clause.strip (hacc : clause.Accepted) (top : Nat) : stripSelect 0 top clause.conditions =
    .ok (firstBound .atLeast clause.latest 0, firstBound .atMost clause.latest top, clause.kept) := by
  rw [clause.conditions_split, stripSelect_bounds Clause.latest_bounds fun term hterm =>
    hacc term (Clause.latest_mem hterm)]
  unfold Clause.kept
  rcases clause.settled_cases with hnil | ⟨front, last, hlast, hequal⟩
  · rw [hnil, List.map_nil, List.reverse_nil, List.nil_append]
    exact Executor.stripSelect_plain (plainConditions_index _) _ _
  · rw [hlast, List.map_append, List.reverse_append, List.map_singleton, List.reverse_singleton,
      List.singleton_append, List.cons_append]
    have hkind : last.condition.condType = .directIndex := by
      change last.oper.kind = .directIndex
      rw [hequal]
      rfl
    have hlogical : ¬ last.condition.isLogical = true := by
      unfold Condition.isLogical
      rw [hkind]
      exact Bool.false_ne_true
    rw [List.dropWhile_cons_of_neg hlogical]
    unfold stripSelect
    rw [hkind]

theorem upperBound_plain {conds : List Condition} (h : ∀ c ∈ conds, c.isIndex = false) (stop : Nat) :
    upperBound stop conds = .ok stop := by
  cases conds with
  | nil => rfl
  | cons c conds =>
    have hc := h c List.mem_cons_self
    obtain ⟨kind, id, desired⟩ := c
    unfold upperBound
    cases kind <;> first | rfl | cases hc

/-- The scan of a DELETE or UPDATE has the upper bound that counts. -/
theorem Clause.upper (hacc : clause.Accepted) (top : Nat) :
    upperBound top clause.conditions = .ok (firstBound .atMost clause.latest top) := by
  rw [clause.conditions_split, upperBound_bounds Clause.latest_bounds fun term hterm =>
    hacc term (Clause.latest_mem hterm)]
  rcases clause.settled_cases with hnil | ⟨front, last, hlast, hequal⟩
  · rw [hnil, List.map_nil, List.reverse_nil, List.nil_append]
    exact upperBound_plain (plainConditions_index _) _
  · rw [hlast, List.map_append, List.reverse_append, List.map_singleton, List.reverse_singleton,
      List.singleton_append, List.cons_append]
    have hkind : last.condition.condType = .directIndex := by
      change last.oper.kind = .directIndex
      rw [hequal]
      rfl
    unfold upperBound
    rw [hkind]

end

/-! What the conditions make of a row. -/

section
variable {t : Tabble} {i : Nat}

/-- An index condition does not evaluate on a row that is active. -/
theorem rowSelects_index (term : IdTerm) (conds : List Condition) :
    t.rowSelects (term.condition :: conds) i = if t.flag i then .error .undefined else .ok false := by
  unfold Tabble.rowSelects
  cases t.flag i with
  | false => rfl
  | true =>
      rw [if_pos rfl, if_neg (List.cons_ne_nil _ _), if_pos rfl]
      have hid : term.condition.collumnId ≠ sizeMax := by
        change (0 : Nat) ≠ sizeMax
        decide
      unfold Tabble.rowSatisfiesFrom
      rw [if_neg hid]
      cases t.info.columns[term.condition.collumnId]? with
      | none => rfl
      | some column =>
          have hkind : term.condition.condType = term.oper.kind := rfl
          dsimp only
          unfold Condition.result
          rw [hkind]
          cases term.oper <;> rfl

theorem meets_index (term : IdTerm) (conds : List Condition) (i : Nat) :
    t.meets (term.condition :: conds) i = false := by
  unfold Tabble.meets
  rw [rowSelects_index]
  cases hflag : t.flag i with
  | false => simp [Tabble.active, hflag]
  | true => simp

theorem foldColumns_pairs {info : TabbleInfo} (i : Nat) (cell : Column → VariantTypes) (current : Bool)
    (logic : Connective) (ps : List (Connective × Term info)) :
    foldColumns cell current logic (ps.flatMap pairItems) =
      (ps.filter fun p => p.2.isColumn).foldl (fun b p => p.1.apply b (p.2.holds i cell)) current := by
  induction ps generalizing current logic with
  | nil => rfl
  | cons p ps ih =>
    obtain ⟨connective, term | term⟩ := p
    · exact ih _ connective
    · exact ih current connective

/-- Leading connectives dropped, the conditions of the column terms are those of a clause. -/
theorem rowSelects_crossed (hreg : t.info.Regular) (ps : List (Connective × Term t.info)) (i : Nat) :
    t.rowSelects ((plainConditions (ps.flatMap pairItems)).dropWhile Condition.isLogical) i =
      .ok (t.flag i && heldBy i (t.cell i) (crossed ps)) := by
  induction ps with
  | nil =>
    change t.rowSelects [] i = .ok (t.flag i && true)
    unfold Tabble.rowSelects
    cases t.flag i <;> rfl
  | cons p ps ih =>
    obtain ⟨connective, term⟩ := p
    have hlogical : connective.condition.isLogical = true := by cases connective <;> rfl
    cases term with
    | id term =>
        change t.rowSelects ((connective.condition :: plainConditions (ps.flatMap pairItems)).dropWhile
          Condition.isLogical) i = _
        rw [List.dropWhile_cons_of_pos hlogical]
        exact ih
    | column term =>
        have hcolumn : ¬ term.condition.isLogical = true := by
          unfold Condition.isLogical ColumnTerm.condition
          cases term.oper <;> exact Bool.false_ne_true
        change t.rowSelects ((connective.condition :: term.condition ::
          plainConditions (ps.flatMap pairItems)).dropWhile Condition.isLogical) i = _
        rw [List.dropWhile_cons_of_pos hlogical, List.dropWhile_cons_of_neg hcolumn]
        unfold Tabble.rowSelects
        cases t.flag i with
        | false => rfl
        | true =>
            rw [if_pos rfl, if_neg (List.cons_ne_nil _ _)]
            refine (rowSatisfies_items hreg (t.cell i) false .or
              (.inr (.column term) :: ps.flatMap pairItems)).trans ?_
            have hrest := foldColumns_pairs i (t.cell i)
              (Connective.or.apply false (term.oper.test (t.cell i term.column) term.desired)) .or ps
            exact congrArg Except.ok hrest

theorem Clause.rowSelects_kept {clause : Clause t.info} (hreg : t.info.Regular)
    (h : ∀ term ∈ clause.ids, term.oper ≠ .equal) (i : Nat) :
    t.rowSelects clause.kept i = .ok (t.flag i && clause.columnsHold i (t.cell i)) := by
  have hitems : plainConditions (((.or, clause.first) :: clause.rest).flatMap pairItems) =
      Connective.or.condition :: plainConditions clause.items := rfl
  have hall := rowSelects_crossed hreg ((.or, clause.first) :: clause.rest) i
  rw [hitems, List.dropWhile_cons_of_pos rfl] at hall
  unfold Clause.kept
  rw [Clause.settled_nil h, List.map_nil, List.reverse_nil, List.nil_append]
  exact hall

theorem Clause.meets_kept {clause : Clause t.info} (hreg : t.info.Regular)
    (h : ∀ term ∈ clause.ids, term.oper ≠ .equal) (i : Nat) :
    t.meets clause.kept i = (t.active i && clause.columnsHold i (t.cell i)) := by
  unfold Tabble.meets
  rw [Clause.rowSelects_kept hreg h]
  unfold Tabble.active
  cases decide (i < t.maxLines) <;> cases t.flag i <;> rfl

end
end SQLid
