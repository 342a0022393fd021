import SQLid.RawConditions
import SQLid.ScanLaws

/-!
# Which conditions evaluate

The conditions a scan evaluates on an active line, and when each of them has a comparison
function, a column and a value the function takes.
-/
namespace SQLid
open Bytes (Text)
open CppText (str)
open Executor (directIndex stripSelect)

/-! What compiled conditions look like. -/

/-- The kind of index condition an item becomes. -/
def RawItem.indexKind : RawItem → Option ConditionType
  | .connective _ => none
  | .triple columnName oper _ =>
      if Optimizer.isId columnName then Optimizer.indexKind oper else none

def RawItem.isPlain : RawItem → Bool
  | .connective _ => true
  | .triple columnName _ _ => !Optimizer.isId columnName

/-- The kinds of the index conditions in the order they are written. -/
def rawIndexKinds (raw : List Text) : List ConditionType := (rawItems raw).filterMap RawItem.indexKind

namespace Optimizer
variable {info : TabbleInfo}

theorem columnCondition_ok {columnName oper valueStr : Text} {condition : Condition}
    (h : columnCondition info columnName oper valueStr = .ok condition) :
    ∃ column, info.columnsMap.lookup columnName = some condition.collumnId ∧
      info.columns[condition.collumnId]? = some column ∧
        parseValue valueStr column.type = .ok condition.desired ∧
          conditionMap.lookup oper = some condition.condType := by
  unfold columnCondition at h
  cases hlookup : info.columnsMap.lookup columnName with
  | none =>
      rw [hlookup] at h
      cases h
  | some columnId =>
      rw [hlookup] at h
      dsimp only at h
      cases hcolumn : info.columns[columnId]? with
      | none =>
          rw [hcolumn] at h
          cases h
      | some column =>
          rw [hcolumn] at h
          obtain ⟨desired, hparse, h⟩ := Except_bind_ok h
          cases hkind : conditionMap.lookup oper with
          | none =>
              rw [hkind] at h
              cases h
          | some kind =>
              rw [hkind] at h
              cases h
              exact ⟨column, rfl, hcolumn, hparse, rfl⟩

/-- The index conditions stand in front, last written first, and all others behind them. -/
theorem optimizeConditions_shape {raw : List Text} {conditions out : List Condition}
    (h : optimizeConditions info raw conditions = .ok out) :
    ∃ front plain, out = front ++ conditions ++ plain ∧
      front.map Condition.condType = (rawIndexKinds raw).reverse ∧
        (∀ c ∈ front, c.collumnId = 0 ∧ c.condType.isIndex = true ∧ ∃ n, c.desired = .int64 n) ∧
          List.Forall₂ (Compiled info) ((rawItems raw).filter RawItem.isPlain) plain := by
  induction raw using rawItems.induct generalizing conditions with
  | case1 =>
      cases h
      exact ⟨[], [], by simp, rfl, List.forall_mem_nil _, .nil⟩
  | case2 w ws hconn ih =>
      rw [optimizeConditions_connective hconn] at h
      obtain ⟨front, plain, rfl, hkinds, hfront, hplain⟩ := ih h
      have hindex : rawIndexKinds (w :: ws) = rawIndexKinds ws := by
        unfold rawIndexKinds
        rw [rawItems_connective hconn]
        rfl
      refine ⟨front, connective w :: plain, by simp, by rw [hkinds, hindex], hfront, ?_⟩
      rw [rawItems_connective hconn]
      exact .cons rfl hplain
  | case3 w hconn oper valueStr ws ih =>
      rw [optimizeConditions_term (Bool.eq_false_iff.mpr hconn)] at h
      obtain ⟨next, hterm, hrest⟩ := Except_bind_ok h
      obtain ⟨front, plain, rfl, hkinds, hfront, hplain⟩ := ih hrest
      have hindex : rawIndexKinds (w :: oper :: valueStr :: ws) =
          ((RawItem.triple w oper valueStr).indexKind).toList ++ rawIndexKinds ws := by
        unfold rawIndexKinds
        rw [rawItems_triple hconn, List.filterMap_cons]
        cases (RawItem.triple w oper valueStr).indexKind <;> rfl
      rw [rawItems_triple hconn, hindex]
      rcases optimizeTerm_ok hterm with ⟨hid, hnone, rfl⟩ | ⟨kind, desired, hid, hkind, hvalue, rfl⟩ |
        ⟨condition, hid, hcondition, rfl⟩
      · refine ⟨front, plain, rfl, ?_, hfront, ?_⟩
        · simp [RawItem.indexKind, hid, hnone, hkinds]
        · simpa [RawItem.isPlain, hid] using hplain
      · obtain ⟨n, -, rfl⟩ := indexValue_ok.mp hvalue
        refine ⟨front ++ [⟨kind, 0, .int64 (BitVec.ofNat 64 n)⟩], plain, by simp, ?_, ?_, ?_⟩
        · simp [RawItem.indexKind, hid, hkind, hkinds]
        · intro c hc
          rcases List.mem_append.mp hc with hc | hc
          · exact hfront c hc
          · rw [List.mem_singleton] at hc
            rw [hc]
            exact ⟨rfl, isIndex_of_indexKind hkind, _, rfl⟩
        · simpa [RawItem.isPlain, hid] using hplain
      · refine ⟨front, condition :: plain, by simp, ?_, hfront, ?_⟩
        · simp [RawItem.indexKind, hid, hkinds]
        · have hthis : Compiled info (.triple w oper valueStr) condition := by
            simpa [Compiled, hid] using hcondition
          simpa [RawItem.isPlain, hid] using List.Forall₂.cons hthis hplain
  | case4 w ws hconn hshort =>
      rw [optimizeConditions_short hconn hshort] at h
      cases h

end Optimizer

/-! What a scan evaluates. -/

inductive Scanning where
  | select | erase | update
  deriving DecidableEq, Repr

/-- A scan on an active line passes this condition to a comparison function. -/
def Evaluated (kind : Scanning) (conditions : List Condition) (c : Condition) : Prop :=
  directIndex conditions = none ∧ c.collumnId ≠ sizeMax ∧
    match kind with
    | .select => ∃ maxLine start stop rest,
        stripSelect 0 maxLine conditions = .ok (start, stop, rest) ∧ c ∈ rest
    | .erase | .update => c ∈ conditions

/-- The function is one of the array, the column one of the table, and no value of the
column makes the function throw. -/
structure Evaluable (info : TabbleInfo) (c : Condition) : Prop where
  inRange : c.condType ∈ [ConditionType.equal, .notEqual, .greater, .less, .and, .or]
  column : ∃ column, info.columns[c.collumnId]? = some column ∧
    ∀ value : VariantTypes, value.hasType column.type = true → ∃ b, c.result value = .ok b

/-- AND and OR are compared with BOOL columns only. -/
def BoolLogic (info : TabbleInfo) (raw : List Text) : Prop :=
  ∀ columnName oper valueStr, .triple columnName oper valueStr ∈ rawItems raw →
    Optimizer.isId columnName = false → Optimizer.isConnective oper = true →
      ∀ columnId column, info.columnsMap.lookup columnName = some columnId →
        info.columns[columnId]? = some column → column.type = .bool

theorem conditionMap_connective {oper : Text} {kind : ConditionType}
    (h : conditionMap.lookup oper = some kind) :
    kind ∈ [ConditionType.equal, .notEqual, .greater, .less, .and, .or] ∧
      (Optimizer.isConnective oper = true ↔ kind = .and ∨ kind = .or) := by
  obtain ⟨before, behind, heq, -⟩ := List.lookup_eq_some_iff.mp h
  have hmem : (oper, kind) ∈ conditionMap := by
    rw [heq]
    exact List.mem_append_right before List.mem_cons_self
  simp only [conditionMap, List.mem_cons, Prod.mk.injEq, List.not_mem_nil, or_false] at hmem
  rcases hmem with ⟨rfl, rfl⟩ | ⟨rfl, rfl⟩ | ⟨rfl, rfl⟩ | ⟨rfl, rfl⟩ | ⟨rfl, rfl⟩ | ⟨rfl, rfl⟩ <;> decide

section
variable {info : TabbleInfo}

theorem evaluable_iff {columnName oper valueStr : Text} {c : Condition} {column : Column}
    (h : Optimizer.columnCondition info columnName oper valueStr = .ok c)
    (hcolumn : info.columns[c.collumnId]? = some column) :
    Evaluable info c ↔ (Optimizer.isConnective oper = true → column.type = .bool) := by
  obtain ⟨column', -, hget, hparse, hkind⟩ := Optimizer.columnCondition_ok h
  obtain rfl : column' = column := Option.some.inj (hget.symm.trans hcolumn)
  have hdesired := parseValue_hasType hparse
  obtain ⟨hrange, hlogic⟩ := conditionMap_connective hkind
  have hbool (v : VariantTypes) (hv : v.hasType column'.type = true) (htype : column'.type = .bool) :
      ∃ b, v = .bool b := by
    rw [htype] at hv
    cases v <;> first | exact ⟨_, rfl⟩ | cases hv
  rw [hlogic]
  constructor
  · rintro ⟨-, column, hcol, hvalues⟩ hconn
    obtain rfl : column' = column := Option.some.inj (hget.symm.trans hcol)
    obtain ⟨b, hb⟩ := hvalues c.desired hdesired
    obtain ⟨d, hd⟩ : ∃ d, c.desired.getBool = .ok d := by
      unfold Condition.result at hb
      cases hget : c.desired.getBool with
      | ok d => exact ⟨d, rfl⟩
      | error e =>
          rcases hconn with hconn | hconn
          · rw [hconn, hget] at hb
            cases hb
          · rw [hconn, hget] at hb
            cases hb
    cases hval : c.desired with
    | bool d' =>
        rw [hval] at hdesired
        cases htype : column'.type <;> rw [htype] at hdesired <;> first | rfl | cases hdesired
    | int32 | int64 | double | float | string =>
        rw [hval] at hd
        cases hd
  · intro htype
    refine ⟨hrange, column', hcolumn, fun value hvalue => ?_⟩
    unfold Condition.result
    simp only [List.mem_cons, List.not_mem_nil, or_false] at hrange
    rcases hrange with hk | hk | hk | hk | hk | hk
    · rw [hk]
      exact ⟨_, rfl⟩
    · rw [hk]
      exact ⟨_, rfl⟩
    · rw [hk]
      exact ⟨_, rfl⟩
    · rw [hk]
      exact ⟨_, rfl⟩
    · obtain ⟨a, rfl⟩ := hbool value hvalue (htype (.inl hk))
      obtain ⟨b, hb⟩ := hbool c.desired hdesired (htype (.inl hk))
      rw [hk, hb]
      cases a <;> exact ⟨_, rfl⟩
    · obtain ⟨a, rfl⟩ := hbool value hvalue (htype (.inr hk))
      obtain ⟨b, hb⟩ := hbool c.desired hdesired (htype (.inr hk))
      rw [hk, hb]
      cases a <;> exact ⟨_, rfl⟩

theorem not_evaluable_index {c : Condition} (h : c.condType.isIndex = true) : ¬ Evaluable info c := by
  rintro ⟨hrange, -⟩
  simp only [List.mem_cons, List.not_mem_nil, or_false] at hrange
  rcases hrange with hk | hk | hk | hk | hk | hk <;> rw [hk] at h <;> cases h

theorem forall₂_partner {α β : Type} {R : α → β → Prop} {l : List α} {m : List β}
    (h : List.Forall₂ R l m) : (∀ a ∈ l, ∃ b ∈ m, R a b) ∧ ∀ b ∈ m, ∃ a ∈ l, R a b := by
  induction h with
  | nil => exact ⟨List.forall_mem_nil _, List.forall_mem_nil _⟩
  | cons hab _ ih =>
      refine ⟨List.forall_mem_cons.mpr ⟨⟨_, List.mem_cons_self, hab⟩, fun a ha => ?_⟩,
        List.forall_mem_cons.mpr ⟨⟨_, List.mem_cons_self, hab⟩, fun b hb => ?_⟩⟩
      · obtain ⟨b, hb, hR⟩ := ih.1 a ha
        exact ⟨b, List.mem_cons_of_mem _ hb, hR⟩
      · obtain ⟨a, ha, hR⟩ := ih.2 b hb
        exact ⟨a, List.mem_cons_of_mem _ ha, hR⟩

/-- The conditions behind the index conditions evaluate when AND and OR meet BOOL columns. -/
theorem plain_evaluable_iff (hlt : info.columns.length < 2 ^ 64) {raw : List Text}
    {plain : List Condition}
    (h : List.Forall₂ (Compiled info) ((rawItems raw).filter RawItem.isPlain) plain) :
    (∀ c ∈ plain, c.collumnId ≠ sizeMax → Evaluable info c) ↔ BoolLogic info raw := by
  constructor
  · intro hall columnName oper valueStr hitem hid hconn columnId column hlookup hcolumn
    have hplain : RawItem.triple columnName oper valueStr ∈ (rawItems raw).filter RawItem.isPlain :=
      List.mem_filter.mpr ⟨hitem, by simp [RawItem.isPlain, hid]⟩
    obtain ⟨c, hc, hcompiled⟩ := (forall₂_partner h).1 _ hplain
    simp only [Compiled, hid, Bool.false_eq_true, if_false] at hcompiled
    obtain ⟨column', hlookup', hget, -, -⟩ := Optimizer.columnCondition_ok hcompiled
    obtain rfl : columnId = c.collumnId := Option.some.inj (hlookup.symm.trans hlookup')
    have hvalid := (List.getElem?_eq_some_iff.mp hcolumn).1
    have hmax : c.collumnId ≠ sizeMax := by
      unfold sizeMax
      omega
    exact (evaluable_iff hcompiled hcolumn).mp (hall c hc hmax) hconn
  · intro hlogic c hc hmax
    obtain ⟨item, hitem, hcompiled⟩ := (forall₂_partner h).2 c hc
    obtain ⟨hmem, hplain⟩ := List.mem_filter.mp hitem
    cases item with
    | connective w =>
        rw [show c = Optimizer.connective w from hcompiled] at hmax
        exact absurd rfl hmax
    | triple columnName oper valueStr =>
        have hid : Optimizer.isId columnName = false := by simpa [RawItem.isPlain] using hplain
        simp only [Compiled, hid, Bool.false_eq_true, if_false] at hcompiled
        obtain ⟨column, hlookup, hget, -, -⟩ := Optimizer.columnCondition_ok hcompiled
        exact (evaluable_iff hcompiled hget).mpr fun hconn =>
          hlogic columnName oper valueStr hmem hid hconn _ column hlookup hget

/-- Conditions that evaluate make the loop of `satisfiesConditions` return. -/
theorem Tabble.Mapped.satisfies_returns {t : Tabble} {i : Nat} (h : t.Mapped) (hi : i < t.maxLines)
    (hfill : ∀ c ∈ t.info.columns, 0 < c.size) {conds : List Condition}
    (hall : ∀ c ∈ conds, c.collumnId ≠ sizeMax → Evaluable t.info c) (current : Bool)
    (logic : ConditionType) :
    ∃ b, t.peek (Executor.satisfiesFrom i t.info.columns current logic conds) = .ok b := by
  rw [h.peek_satisfiesFrom hi hfill]
  induction conds generalizing current logic with
  | nil => exact ⟨current, rfl⟩
  | cons c conds ih =>
      have hrest := ih fun d hd => hall d (List.mem_cons_of_mem c hd)
      unfold Tabble.rowSatisfiesFrom
      by_cases hmax : c.collumnId = sizeMax
      · rw [if_pos hmax]
        exact hrest current _
      · obtain ⟨-, column, hcolumn, hvalues⟩ := hall c List.mem_cons_self hmax
        obtain ⟨b, hb⟩ := hvalues _ (h.cell_hasType hfill i column (List.mem_of_getElem? hcolumn))
        rw [if_neg hmax, hcolumn]
        dsimp only
        rw [hb]
        exact hrest _ _

/-! What the strip of a SELECT leaves. -/

/-- Without a direct lookup only connectives are stripped behind the index conditions. -/
theorem strip_front {front : List Condition}
    (hfront : ∀ c ∈ front, c.condType = .toIndex ∨ c.condType = .fromIndex)
    (hvalues : ∀ c ∈ front, ∃ n, c.desired = .int64 n) (start stop : Nat) (plain : List Condition) :
    ∃ start' stop', stripSelect start stop (front ++ plain) = stripSelect start' stop' plain := by
  induction front generalizing start stop with
  | nil => exact ⟨start, stop, rfl⟩
  | cons c front ih =>
      obtain ⟨n, hn⟩ := hvalues c List.mem_cons_self
      have hrest := ih (fun d hd => hfront d (List.mem_cons_of_mem c hd))
        fun d hd => hvalues d (List.mem_cons_of_mem c hd)
      rcases hfront c List.mem_cons_self with hkind | hkind
      · obtain ⟨start', stop', h⟩ := hrest start n.toNat
        refine ⟨start', stop', ?_⟩
        rw [← h, List.cons_append]
        conv => lhs; unfold stripSelect
        rw [hkind, hn]
        rfl
      · obtain ⟨start', stop', h⟩ := hrest n.toNat stop
        refine ⟨start', stop', ?_⟩
        rw [← h, List.cons_append]
        conv => lhs; unfold stripSelect
        rw [hkind, hn]
        rfl

theorem strip_plain {plain : List Condition} (hplain : ∀ c ∈ plain, c.condType.isIndex = false)
    (start stop : Nat) : ∃ dropped rest, plain = dropped ++ rest ∧
      (∀ c ∈ dropped, c.condType = .logicalAnd ∨ c.condType = .logicalOr) ∧
        stripSelect start stop plain = .ok (start, stop, rest) := by
  induction plain with
  | nil => exact ⟨[], [], rfl, List.forall_mem_nil _, rfl⟩
  | cons c plain ih =>
      obtain ⟨dropped, rest, rfl, hdropped, hstrip⟩ := ih fun d hd => hplain d (List.mem_cons_of_mem c hd)
      have hindex := hplain c List.mem_cons_self
      by_cases hlogic : c.condType = .logicalAnd ∨ c.condType = .logicalOr
      · refine ⟨c :: dropped, rest, rfl, List.forall_mem_cons.mpr ⟨hlogic, hdropped⟩, ?_⟩
        rw [← hstrip]
        conv => lhs; unfold stripSelect
        rcases hlogic with hkind | hkind <;> rw [hkind]
      · refine ⟨[], c :: (dropped ++ rest), rfl, List.forall_mem_nil _, ?_⟩
        unfold stripSelect
        cases hkind : c.condType with
        | logicalAnd => exact absurd (.inl hkind) hlogic
        | logicalOr => exact absurd (.inr hkind) hlogic
        | directIndex | toIndex | fromIndex => simp [hkind, ConditionType.isIndex] at hindex
        | equal | notEqual | greater | less | and | or => rfl

/-- A direct lookup that is not in front stops the strip and is left. -/
theorem strip_direct {front : List Condition} (hdirect : ∃ c ∈ front, c.condType = .directIndex)
    (hfront : ∀ c ∈ front, c.condType.isIndex = true) (hvalues : ∀ c ∈ front, ∃ n, c.desired = .int64 n)
    (start stop : Nat) (plain : List Condition) :
    ∃ start' stop' rest, stripSelect start stop (front ++ plain) = .ok (start', stop', rest) ∧
      ∃ c ∈ rest, c ∈ front ∧ c.condType = .directIndex := by
  induction front generalizing start stop with
  | nil =>
      obtain ⟨c, hc, -⟩ := hdirect
      cases hc
  | cons c front ih =>
      obtain ⟨n, hn⟩ := hvalues c List.mem_cons_self
      have hindex := hfront c List.mem_cons_self
      by_cases hkind : c.condType = .directIndex
      · refine ⟨start, stop, c :: (front ++ plain), ?_, c, List.mem_cons_self, List.mem_cons_self, hkind⟩
        rw [List.cons_append]
        unfold stripSelect
        rw [hkind]
      · have htail : ∃ d ∈ front, d.condType = .directIndex := by
          obtain ⟨d, hd, hdkind⟩ := hdirect
          rcases List.mem_cons.mp hd with rfl | hd
          · exact absurd hdkind hkind
          · exact ⟨d, hd, hdkind⟩
        have hrest := ih htail (fun d hd => hfront d (List.mem_cons_of_mem c hd))
          fun d hd => hvalues d (List.mem_cons_of_mem c hd)
        have hstep : ∃ start' stop', stripSelect start stop (c :: front ++ plain) =
            stripSelect start' stop' (front ++ plain) := by
          rw [List.cons_append]
          cases hother : c.condType with
          | directIndex => exact absurd hother hkind
          | toIndex =>
              refine ⟨start, n.toNat, ?_⟩
              conv => lhs; unfold stripSelect
              rw [hother, hn]
              rfl
          | fromIndex =>
              refine ⟨n.toNat, stop, ?_⟩
              conv => lhs; unfold stripSelect
              rw [hother, hn]
              rfl
          | equal | notEqual | greater | less | and | or | logicalAnd | logicalOr =>
              simp [hother, ConditionType.isIndex] at hindex
        obtain ⟨start', stop', hstep⟩ := hstep
        obtain ⟨i, m, rest, hstrip, d, hd, hmem, hdkind⟩ := hrest start' stop'
        exact ⟨i, m, rest, hstep.trans hstrip, d, hd, List.mem_cons_of_mem c hmem, hdkind⟩

/-- Behind the index conditions are connectives, which have no column, and comparisons. -/
theorem plain_kinds {items : List RawItem} {plain : List Condition}
    (hitems : ∀ item ∈ items, item.isPlain = true) (h : List.Forall₂ (Compiled info) items plain) :
    ∀ c ∈ plain, c.condType.isIndex = false ∧
      (c.condType = .logicalAnd ∨ c.condType = .logicalOr → c.collumnId = sizeMax) := by
  intro c hc
  obtain ⟨item, hitem, hcompiled⟩ := (forall₂_partner h).2 c hc
  cases item with
  | connective w =>
      rw [show c = Optimizer.connective w from hcompiled]
      unfold Optimizer.connective
      split_ifs <;> exact ⟨rfl, fun _ => rfl⟩
  | triple columnName oper valueStr =>
      have hid : Optimizer.isId columnName = false := by simpa [RawItem.isPlain] using hitems _ hitem
      simp only [Compiled, hid, Bool.false_eq_true, if_false] at hcompiled
      obtain ⟨column, -, -, -, hkind⟩ := Optimizer.columnCondition_ok hcompiled
      have hrange := (conditionMap_connective hkind).1
      simp only [List.mem_cons, List.not_mem_nil, or_false] at hrange
      rcases hrange with hk | hk | hk | hk | hk | hk <;> rw [hk] <;> exact ⟨rfl, by simp⟩

theorem directIndex_front {front plain : List Condition}
    (hplain : ∀ c ∈ plain, c.condType.isIndex = false) :
    directIndex (front ++ plain) = none ↔ (front.map Condition.condType).head? ≠ some .directIndex := by
  have hcons (c : Condition) (cs : List Condition) :
      directIndex (c :: cs) = none ↔ c.condType ≠ .directIndex := by
    obtain ⟨kind, id, desired⟩ := c
    cases kind <;> simp [directIndex]
  cases front with
  | cons c front =>
      rw [List.cons_append, hcons]
      simp
  | nil =>
      cases plain with
      | nil => simp [directIndex]
      | cons c plain =>
          rw [List.nil_append, hcons]
          have hindex := hplain c List.mem_cons_self
          simp only [List.map_nil, List.head?_nil, ne_eq, reduceCtorEq, not_false_eq_true, iff_true]
          intro hkind
          rw [hkind] at hindex
          cases hindex

/-- What a scan evaluates has a function, a column and only values the function takes. -/
def EvaluationTotal (info : TabbleInfo) (kind : Scanning) (conditions : List Condition) : Prop :=
  ∀ c, Evaluated kind conditions c → Evaluable info c

/-- The term on the id written last is a direct lookup. -/
def DirectLookup (raw : List Text) : Prop := (rawIndexKinds raw).getLast? = some .directIndex

/-- The index conditions of the list are all stripped before the scan. -/
def Scanning.Strips : Scanning → List Text → Prop
  | .select, raw => .directIndex ∉ rawIndexKinds raw
  | .erase, raw | .update, raw => rawIndexKinds raw = []

/-- The evaluation is total for a direct lookup, which evaluates nothing, and otherwise
when no index condition is left and AND and OR meet BOOL columns. -/
theorem evaluation_total_iff (hlt : info.columns.length < 2 ^ 64) {raw : List Text}
    {conditions : List Condition} (h : Optimizer.optimizeConditions info raw [] = .ok conditions)
    (kind : Scanning) : EvaluationTotal info kind conditions ↔
      DirectLookup raw ∨ (kind.Strips raw ∧ BoolLogic info raw) := by
  obtain ⟨front, plain, rfl, hkinds, hfront, hplain⟩ := Optimizer.optimizeConditions_shape h
  have hiff := plain_evaluable_iff hlt hplain
  have hkinds' := plain_kinds (fun item hitem => (List.mem_filter.mp hitem).2) hplain
  have hdirect : directIndex (front ++ [] ++ plain) = none ↔ ¬ DirectLookup raw := by
    rw [List.append_nil, directIndex_front fun c hc => (hkinds' c hc).1, hkinds, List.head?_reverse]
    rfl
  have hleft (c : Condition) (hc : c ∈ front) : c.collumnId ≠ sizeMax ∧ ¬ Evaluable info c := by
    obtain ⟨hzero, hindex, -⟩ := hfront c hc
    rw [hzero]
    exact ⟨by decide, not_evaluable_index hindex⟩
  by_cases hlookup : DirectLookup raw
  · exact ⟨fun _ => .inl hlookup, fun _ c hc => absurd (hdirect.mp hc.1) (not_not.mpr hlookup)⟩
  · have hnone := hdirect.mpr hlookup
    rw [or_iff_right hlookup, ← hiff]
    rw [List.append_nil] at hnone ⊢
    have hvalues : ∀ c ∈ front, ∃ n, c.desired = .int64 n := fun c hc => (hfront c hc).2.2
    have hmem : ConditionType.directIndex ∈ rawIndexKinds raw ↔ ∃ c ∈ front, c.condType = .directIndex := by
      rw [← List.mem_reverse, ← hkinds, List.mem_map]
    cases kind with
    | erase | update =>
        constructor
        · intro total
          have hempty : front = [] := by
            cases front with
            | nil => rfl
            | cons c front =>
                obtain ⟨hmax, hbad⟩ := hleft c List.mem_cons_self
                exact absurd (total c ⟨hnone, hmax, List.mem_append_left _ List.mem_cons_self⟩) hbad
          refine ⟨?_, fun c hc hmax => total c ⟨hnone, hmax, List.mem_append_right _ hc⟩⟩
          rw [hempty] at hkinds
          exact List.reverse_eq_nil_iff.mp hkinds.symm
        · rintro ⟨hnil, hall⟩ c ⟨-, hmax, hc⟩
          have hempty : front = [] := by
            rw [show rawIndexKinds raw = [] from hnil] at hkinds
            exact List.map_eq_nil_iff.mp hkinds
          rw [hempty, List.nil_append] at hc
          exact hall c hc hmax
    | select =>
        have hbounds (hstrips : ConditionType.directIndex ∉ rawIndexKinds raw) :
            ∀ c ∈ front, c.condType = .toIndex ∨ c.condType = .fromIndex := by
          intro c hc
          have hindex := (hfront c hc).2.1
          cases hkind : c.condType with
          | directIndex => exact absurd (hmem.mpr ⟨c, hc, hkind⟩) hstrips
          | toIndex => exact .inl rfl
          | fromIndex => exact .inr rfl
          | equal | notEqual | greater | less | and | or | logicalAnd | logicalOr =>
              simp [hkind, ConditionType.isIndex] at hindex
        constructor
        · intro total
          have hstrips : ConditionType.directIndex ∉ rawIndexKinds raw := by
            intro hthere
            obtain ⟨start, stop, rest, hstrip, c, hc, hcfront, -⟩ := strip_direct (hmem.mp hthere)
              (fun c hc => (hfront c hc).2.1) hvalues 0 0 plain
            obtain ⟨hmax, hbad⟩ := hleft c hcfront
            exact hbad (total c ⟨hnone, hmax, 0, start, stop, rest, hstrip, hc⟩)
          refine ⟨hstrips, fun c hc hmax => ?_⟩
          obtain ⟨start, stop, hstrip⟩ := strip_front (hbounds hstrips) hvalues 0 0 plain
          obtain ⟨dropped, rest, rfl, hdropped, hrest⟩ :=
            strip_plain (fun c hc => (hkinds' c hc).1) start stop
          rcases List.mem_append.mp hc with hcd | hcr
          · exact absurd ((hkinds' c hc).2 (hdropped c hcd)) hmax
          · exact total c ⟨hnone, hmax, 0, start, stop, rest, hstrip.trans hrest, hcr⟩
        · rintro ⟨hstrips, hall⟩ c ⟨-, hmax, maxLine, start, stop, rest, hstrip, hc⟩
          obtain ⟨start', stop', hfrontstrip⟩ := strip_front (hbounds hstrips) hvalues 0 maxLine plain
          obtain ⟨dropped, rest', rfl, -, hrest⟩ :=
            strip_plain (fun c hc => (hkinds' c hc).1) start' stop'
          rw [hfrontstrip, hrest] at hstrip
          cases hstrip
          exact hall c (List.mem_append_right _ hc) hmax

end

/-- A BOOL column and an INT32 column. -/
def flagInfo : TabbleInfo where
  lineLength := 6
  columnsNumber := 2
  columns := [⟨str "b", 1, .bool, 1⟩, ⟨str "n", 2, .int32, 4⟩]
  columnsMap := [(str "b", 0), (str "n", 1)]

theorem evaluation_total_iff_sample : EvaluationTotal flagInfo .select
    [⟨.fromIndex, 0, .int64 3⟩, ⟨.logicalAnd, sizeMax, .int32 0⟩, ⟨.and, 0, .bool true⟩] := by
  have hcompiled : Optimizer.optimizeConditions flagInfo
      [str "id", str ">=", str "3", str "AND", str "b", str "AND", str "true"] [] =
        .ok [⟨.fromIndex, 0, .int64 3⟩, ⟨.logicalAnd, sizeMax, .int32 0⟩, ⟨.and, 0, .bool true⟩] := by
    decide +kernel
  have hstrips : ConditionType.directIndex ∉ rawIndexKinds
      [str "id", str ">=", str "3", str "AND", str "b", str "AND", str "true"] := by decide +kernel
  refine (evaluation_total_iff (by decide) hcompiled .select).mpr (.inr ⟨hstrips, ?_⟩)
  intro columnName oper valueStr hitem hid hconn columnId column hlookup hcolumn
  have hitems : rawItems [str "id", str ">=", str "3", str "AND", str "b", str "AND", str "true"] =
      [.triple (str "id") (str ">=") (str "3"), .connective (str "AND"),
        .triple (str "b") (str "AND") (str "true")] := by decide +kernel
  rw [hitems] at hitem
  simp only [List.mem_cons, RawItem.triple.injEq, reduceCtorEq, List.not_mem_nil, or_false,
    false_or] at hitem
  rcases hitem with ⟨rfl, rfl, rfl⟩ | ⟨rfl, rfl, rfl⟩
  · cases hid
  · have hfirst : flagInfo.columnsMap.lookup (str "b") = some 0 := by decide
    rw [hfirst] at hlookup
    cases hlookup
    cases hcolumn
    rfl

/-- `DELETE FROM t WHERE id >= 0`: the scan calls the function behind the end of the array. -/
theorem index_condition_evaluated : ¬ ∀ (info : TabbleInfo) (raw : List Text)
    (conditions : List Condition) (kind : Scanning), info.columns.length < 2 ^ 64 →
      Optimizer.optimizeConditions info raw [] = .ok conditions → EvaluationTotal info kind conditions := by
  intro h
  have htotal := h flagInfo [str "id", str ">=", str "0"] [⟨.fromIndex, 0, .int64 0⟩] .erase
    (by decide) (by decide +kernel)
  exact not_evaluable_index rfl (htotal _ ⟨rfl, by decide, List.mem_singleton.mpr rfl⟩)

end SQLid
