import SQLid.ConditionSafety
import SQLid.SortKeys

/-!
# Where a name leads

A name stands between other words in a list, a clause or an order, and what stands around it
compiles by itself. When does the optimizer put the column of this name in its place?
-/
namespace SQLid
open Bytes (Text)
open CppText (str)

/-- The names are those of all columns, one after the other. -/
def WholeTable (info : TabbleInfo) (columnsRaw : List Text) : Prop :=
  columnsRaw.map (fun col => info.columnsMap.lookup col) = (List.range info.columns.length).map some

/-- The place holds the cell of this column in every row. -/
def LeadsTo (ids : List Nat) (place k : Nat) : Prop :=
  ∀ (line : VariantTypes) (cell : Nat → VariantTypes), (recordOf line cell ids)[place]? = some (cell k)

theorem leadsTo_iff {ids : List Nat} {place k : Nat} :
    LeadsTo ids place k ↔ ∃ p, place = p + 1 ∧ ids[p]? = some k := by
  unfold LeadsTo recordOf
  constructor
  · intro h
    cases place with
    | zero =>
        have hline := h (.bool false) fun _ => .bool true
        cases hline
    | succ p =>
        refine ⟨p, rfl, ?_⟩
        have hcell := h (.bool false) fun n => .bool (n = k)
        rw [List.getElem?_cons_succ, List.getElem?_map] at hcell
        obtain ⟨n, hn, heq⟩ := Option.map_eq_some_iff.mp hcell
        rw [hn]
        simpa using heq
  · rintro ⟨p, rfl, hget⟩ line cell
    rw [List.getElem?_cons_succ, List.getElem?_map, hget, Option.map_some]

namespace Optimizer
variable {info : TabbleInfo}

theorem optimizeColumns_named {cols : List Text} {ids : List Nat} (h : optimizeColumns info cols = .ok ids)
    (hstar : str "*" ∉ cols) : cols.map (fun col => info.columnsMap.lookup col) = ids.map some := by
  obtain ⟨front, hfront, rfl⟩ := optimizeColumns_ok h
  have hall : namedBefore cols = cols := by
    apply List.takeWhile_eq_self_iff.mpr
    intro col hcol
    have hne : col ≠ str "*" := fun heq => hstar (heq ▸ hcol)
    simpa using hne
  rw [hall] at hfront
  rw [if_neg hstar, List.append_nil, ← List.forall₂_eq_eq_eq, List.forall₂_map_left_iff,
    List.forall₂_map_right_iff]
  exact hfront

theorem optimizeColumns_cons {col : Text} {id : Nat} (hstar : col ≠ str "*")
    (hlookup : info.columnsMap.lookup col = some id) (cols : List Text) :
    optimizeColumns info (col :: cols) = (id :: ·) <$> optimizeColumns info cols := by
  conv => lhs; unfold optimizeColumns
  rw [if_neg hstar, hlookup]
  cases optimizeColumns info cols <;> rfl

theorem optimizeColumns_unknown {col : Text} (hstar : col ≠ str "*")
    (hlookup : info.columnsMap.lookup col = none) (cols : List Text) :
    optimizeColumns info (col :: cols) = .error (.incorrectInput (str "Error during columns comparison")) := by
  unfold optimizeColumns
  rw [if_neg hstar, hlookup]

theorem optimizeColumns_front {front : List Text} {before : List Nat} (hstar : str "*" ∉ front)
    (h : optimizeColumns info front = .ok before) (rest : List Text) :
    optimizeColumns info (front ++ rest) = (before ++ ·) <$> optimizeColumns info rest := by
  induction front generalizing before with
  | nil =>
      cases h
      change optimizeColumns info rest = _
      cases optimizeColumns info rest <;> rfl
  | cons col front ih =>
      rw [List.mem_cons, not_or] at hstar
      have hne : col ≠ str "*" := fun heq => hstar.1 heq.symm
      cases hlookup : info.columnsMap.lookup col with
      | none =>
          rw [optimizeColumns_unknown hne hlookup] at h
          cases h
      | some id =>
          rw [optimizeColumns_cons hne hlookup] at h
          obtain ⟨ids, hids, rfl⟩ := Except_map_ok h
          rw [List.cons_append, optimizeColumns_cons hne hlookup, ih hstar.2 hids]
          cases optimizeColumns info rest <;> rfl

/-- Behind a `*` nothing is listed any more. -/
theorem optimizeColumns_behind {front : List Text} (hstar : str "*" ∈ front) (rest : List Text) :
    optimizeColumns info (front ++ rest) = optimizeColumns info front := by
  induction front with
  | nil => cases hstar
  | cons col front ih =>
      rw [List.cons_append]
      by_cases hcol : col = str "*"
      · unfold optimizeColumns
        rw [if_pos hcol, if_pos hcol]
      · have hmem := (List.mem_cons.mp hstar).resolve_left fun heq => hcol heq.symm
        cases hlookup : info.columnsMap.lookup col with
        | none => rw [optimizeColumns_unknown hcol hlookup, optimizeColumns_unknown hcol hlookup]
        | some id => rw [optimizeColumns_cons hcol hlookup, optimizeColumns_cons hcol hlookup, ih hmem]

theorem updateValues_append {ids ids' : List Nat} {raws raws' : List Text} {vs vs' : List VariantTypes}
    (hlen : ids.length = raws.length) (h : updateValues info ids raws = .ok vs)
    (h' : updateValues info ids' raws' = .ok vs') :
    updateValues info (ids ++ ids') (raws ++ raws') = .ok (vs ++ vs') := by
  induction ids generalizing raws vs with
  | nil =>
      cases raws with
      | nil =>
          cases h
          exact h'
      | cons raw raws => cases hlen
  | cons id ids ih =>
      cases raws with
      | nil => cases hlen
      | cons raw raws =>
          unfold updateValues at h
          cases hcolumn : info.columns[id]? with
          | none =>
              rw [hcolumn] at h
              cases h
          | some column =>
              rw [hcolumn] at h
              obtain ⟨v, hv, h⟩ := Except_bind_ok h
              obtain ⟨rest, hrest, h⟩ := Except_bind_ok h
              cases h
              rw [List.cons_append, List.cons_append]
              unfold updateValues
              rw [hcolumn]
              dsimp only
              rw [hv, ih (Nat.succ.inj hlen) hrest]
              rfl

theorem updateValues_cons {column : Column} {k : Nat} (hcolumn : info.columns[k]? = some column) {raw : Text}
    {v : VariantTypes} (hv : parseValue raw column.type = .ok v) {ids : List Nat} {raws : List Text}
    {vs : List VariantTypes} (h : updateValues info ids raws = .ok vs) :
    updateValues info (k :: ids) (raw :: raws) = .ok (v :: vs) := by
  unfold updateValues
  rw [hcolumn]
  dsimp only
  rw [hv, h]
  rfl

/-- A `*` that is the name of a column stands for this column and those behind it if they are
all there are. -/
theorem range_star_iff (hmap : info.columnsMap = columnsMapFrom 0 info.columns []) {column : Column} {k : Nat}
    (hcolumn : info.columns[k]? = some column) (hname : column.name = str "*") {back : List Text}
    {behind : List Nat} (hback : optimizeColumns info back = .ok behind) :
    List.range info.columns.length = k :: behind ↔
      info.columnsMap.lookup (str "*") = some k ∧ WholeTable info (str "*" :: back) := by
  obtain ⟨n, hn⟩ : ∃ n, info.columns.length = n + 1 :=
    Nat.exists_eq_succ_of_ne_zero (Nat.ne_of_gt (Nat.zero_lt_of_lt (List.getElem?_eq_some_iff.mp hcolumn).1))
  unfold WholeTable
  rw [hn, List.range_succ_eq_map, List.map_cons, List.map_cons]
  constructor
  · intro heq
    obtain ⟨rfl, rfl⟩ := List.cons.inj heq
    have hfirst : info.columnsMap.lookup (str "*") = some 0 := by
      rw [hmap, lookup_columnsMapFrom]
      have hzero : info.columns.findIdx? (fun c => decide (c.name = str "*")) = some 0 := by
        cases hcols : info.columns with
        | nil =>
            rw [hcols] at hcolumn
            cases hcolumn
        | cons c cs =>
            rw [hcols] at hcolumn
            cases hcolumn
            simp [List.findIdx?_cons, hname]
      rw [hzero]
      rfl
    -- a second `*` would list more columns than there are
    have hstar : str "*" ∉ back := by
      intro hmem
      obtain ⟨front, -, hids⟩ := optimizeColumns_ok hback
      have hlen := congrArg List.length hids
      rw [if_pos hmem, hn] at hlen
      simp only [List.length_map, List.length_range, List.length_append] at hlen
      omega
    exact ⟨hfirst, by rw [hfirst, optimizeColumns_named hback hstar]⟩
  · rintro ⟨hfirst, heq⟩
    obtain ⟨hzero, hrest⟩ := List.cons.inj heq
    rw [hfirst] at hzero
    cases hzero
    have hstar : str "*" ∉ back := by
      intro hmem
      have hlookup : info.columnsMap.lookup (str "*") ∈ back.map (fun col => info.columnsMap.lookup col) :=
        List.mem_map_of_mem hmem
      rw [hrest, hfirst, List.mem_map] at hlookup
      obtain ⟨id, hid, heq⟩ := hlookup
      obtain ⟨id', -, rfl⟩ := List.mem_map.mp hid
      cases heq
    rw [optimizeColumns_named hback hstar] at hrest
    rw [List.map_injective_iff.mpr (Option.some_injective Nat) hrest]

/-- A name in a list leads to its column if no `*` stands before it, it is no `*`, and it is
the first of its kind. -/
theorem listed_iff (hmap : info.columnsMap = columnsMapFrom 0 info.columns []) {column : Column} {k : Nat}
    (hcolumn : info.columns[k]? = some column) {front back : List Text} {before behind : List Nat}
    (hfront : optimizeColumns info front = .ok before) (hback : optimizeColumns info back = .ok behind) :
    optimizeColumns info (front ++ column.name :: back) = .ok (before ++ k :: behind) ↔
      info.columnsMap.lookup column.name = some k ∧ str "*" ∉ front ∧
        (column.name = str "*" → WholeTable info (column.name :: back)) := by
  by_cases hstar : str "*" ∈ front
  · rw [optimizeColumns_behind hstar, hfront]
    refine iff_of_false (fun heq => ?_) fun h => h.2.1 hstar
    have hlen := congrArg List.length (Except.ok.inj heq)
    rw [List.length_append, List.length_cons] at hlen
    omega
  rw [and_iff_right hstar]
  have hcancel (x : Except Fault (List Nat)) (ids : List Nat) :
      (before ++ ·) <$> x = .ok (before ++ ids) ↔ x = .ok ids := by
    cases x with
    | error e =>
        refine iff_of_false (fun h => ?_) fun h => ?_
        · cases h
        · cases h
    | ok own =>
        constructor
        · intro h
          exact congrArg Except.ok (List.append_cancel_left (Except.ok.inj h))
        · intro h
          cases h
          rfl
  rw [optimizeColumns_front hstar hfront, hcancel]
  by_cases hname : column.name = str "*"
  · rw [hname]
    unfold optimizeColumns
    rw [if_pos rfl, Except.ok.injEq, range_star_iff hmap hcolumn hname hback]
    exact and_congr_right fun _ => ⟨fun h _ => h, fun h => h rfl⟩
  · cases hlookup : info.columnsMap.lookup column.name with
    | none =>
        rw [optimizeColumns_unknown hname hlookup]
        refine iff_of_false (fun h => ?_) fun h => ?_
        · cases h
        · cases h.1
    | some id =>
        rw [optimizeColumns_cons hname hlookup, hback]
        change Except.ok (id :: behind) = .ok (k :: behind) ↔ _
        simp [hname]

/-- A clause that ends with a whole term is compiled before what follows it. -/
theorem optimizeConditions_front {front : List Text} {conditions before : List Condition}
    (h : optimizeConditions info front conditions = .ok before) (rest : List Text) :
    optimizeConditions info (front ++ rest) conditions = optimizeConditions info rest before := by
  induction front using rawItems.induct generalizing conditions with
  | case1 =>
      cases h
      rfl
  | case2 w ws hconn ih =>
      rw [optimizeConditions_connective hconn] at h
      rw [List.cons_append, optimizeConditions_connective hconn, ih h]
  | case3 w hconn oper valueStr ws ih =>
      have hterm := Bool.eq_false_iff.mpr hconn
      rw [optimizeConditions_term hterm] at h
      obtain ⟨next, hnext, h⟩ := Except_bind_ok h
      simp only [List.cons_append]
      rw [optimizeConditions_term hterm, hnext]
      exact ih h
  | case4 w ws hconn hshort =>
      rw [optimizeConditions_short hconn hshort] at h
      cases h

variable (info) in
/-- What a term adds does not depend on what was compiled before it. -/
theorem optimizeTerm_frame (columnName oper valueStr : Text) :
    (∃ e, ∀ conditions, optimizeTerm info columnName oper valueStr conditions = .error e) ∨
      ∃ front plain, (∀ c ∈ front, c.condType.isIndex = true) ∧
        ∀ conditions, optimizeTerm info columnName oper valueStr conditions = .ok (front ++ conditions ++ plain) := by
  unfold optimizeTerm
  by_cases hid : isId columnName = true
  · simp only [if_pos hid]
    cases hkind : indexKind oper with
    | none => exact .inr ⟨[], [], List.forall_mem_nil _, fun conditions => by simp⟩
    | some kind =>
        cases indexValue valueStr with
        | error e => exact .inl ⟨e, fun _ => rfl⟩
        | ok v =>
            refine .inr ⟨[⟨kind, 0, v⟩], [], ?_, fun conditions => by rw [List.append_nil]; rfl⟩
            exact List.forall_mem_singleton.mpr (isIndex_of_indexKind hkind)
  · simp only [if_neg hid]
    cases columnCondition info columnName oper valueStr with
    | error e => exact .inl ⟨e, fun _ => rfl⟩
    | ok c => exact .inr ⟨[], [c], List.forall_mem_nil _, fun _ => rfl⟩

variable (info) in
/-- What a clause adds does not depend on what was compiled before it. -/
theorem optimizeConditions_frame (raw : List Text) :
    (∃ e, ∀ conditions, optimizeConditions info raw conditions = .error e) ∨
      ∃ front plain, (∀ c ∈ front, c.condType.isIndex = true) ∧
        ∀ conditions, optimizeConditions info raw conditions = .ok (front ++ conditions ++ plain) := by
  induction raw using rawItems.induct with
  | case1 =>
      refine .inr ⟨[], [], List.forall_mem_nil _, fun conditions => ?_⟩
      simp [optimizeConditions]
  | case2 w ws hconn ih =>
      rcases ih with ⟨e, herr⟩ | ⟨front, plain, hfront, hok⟩
      · refine .inl ⟨e, fun conditions => ?_⟩
        rw [optimizeConditions_connective hconn, herr]
      · refine .inr ⟨front, connective w :: plain, hfront, fun conditions => ?_⟩
        rw [optimizeConditions_connective hconn, hok]
        simp
  | case3 w hconn oper valueStr ws ih =>
      have hround (conditions : List Condition) : optimizeConditions info (w :: oper :: valueStr :: ws) conditions =
          optimizeTerm info w oper valueStr conditions >>= optimizeConditions info ws :=
        optimizeConditions_term (Bool.eq_false_iff.mpr hconn) oper valueStr ws conditions
      rcases optimizeTerm_frame info w oper valueStr with ⟨e, herr⟩ | ⟨front, plain, hfront, hok⟩
      · refine .inl ⟨e, fun conditions => ?_⟩
        rw [hround, herr]
        rfl
      · rcases ih with ⟨e, herr⟩ | ⟨front', plain', hfront', hok'⟩
        · refine .inl ⟨e, fun conditions => ?_⟩
          rw [hround, hok]
          exact herr _
        · refine .inr ⟨front' ++ front, plain ++ plain', ?_, fun conditions => ?_⟩
          · exact List.forall_mem_append.mpr ⟨hfront', hfront⟩
          · rw [hround, hok]
            refine (hok' _).trans ?_
            simp
  | case4 w ws hconn hshort => exact .inl ⟨_, optimizeConditions_short hconn hshort⟩

def isPlain (c : Condition) : Bool := !c.condType.isIndex

theorem filter_isPlain {front : List Condition} (h : ∀ c ∈ front, c.condType.isIndex = true)
    (conditions plain : List Condition) : (front ++ conditions ++ plain).filter isPlain =
      conditions.filter isPlain ++ plain.filter isPlain := by
  have hnone : front.filter isPlain = [] := by
    rw [List.filter_eq_nil_iff]
    intro c hc
    simp [isPlain, h c hc]
  rw [List.filter_append, List.filter_append, hnone, List.nil_append]

/-- A name in a term leads to its column if it is neither a connective nor the id and the
first of its kind. -/
theorem compared_iff {column : Column} {k : Nat} (hcolumn : info.columns[k]? = some column)
    {front back : List Text} {oper literal : Text} {before : List Condition} {kind : ConditionType}
    {desired : VariantTypes} (hfront : optimizeConditions info front [] = .ok before)
    (hback : ∃ out, optimizeConditions info back [] = .ok out) (hkind : conditionMap.lookup oper = some kind)
    (hdesired : parseValue literal column.type = .ok desired) :
    (∃ out, optimizeConditions info (front ++ column.name :: oper :: literal :: back) [] = .ok out ∧
        optimizeConditions info back (before ++ [⟨kind, k, desired⟩]) = .ok out) ↔
      isId column.name = false ∧ isConnective column.name = false ∧
        info.columnsMap.lookup column.name = some k := by
  rw [optimizeConditions_front hfront]
  obtain ⟨index, plain, hindex, hframe⟩ : ∃ index plain, (∀ c ∈ index, c.condType.isIndex = true) ∧
      ∀ conditions, optimizeConditions info back conditions = .ok (index ++ conditions ++ plain) := by
    obtain ⟨out, hout⟩ := hback
    rcases optimizeConditions_frame info back with ⟨e, herr⟩ | hframe
    · rw [herr] at hout
      cases hout
    · exact hframe
  obtain ⟨hkinds, -⟩ := conditionMap_connective hkind
  have hplain : kind.isIndex = false := by
    revert hkinds
    cases kind <;> decide
  have hself : ([⟨kind, k, desired⟩] : List Condition).filter isPlain = [⟨kind, k, desired⟩] := by
    apply List.filter_cons_of_pos
    unfold isPlain
    rw [hplain]
    rfl
  rw [hframe]
  by_cases hconn : isConnective column.name = true
  · refine iff_of_false ?_ (by simp [hconn])
    rintro ⟨out, hout, hown⟩
    rw [optimizeConditions_connective hconn] at hout
    rcases optimizeConditions_frame info (oper :: literal :: back) with ⟨e, herr⟩ | ⟨index', plain', hindex', hok⟩
    · rw [herr] at hout
      cases hout
    · -- the connective stands where the comparison should
      rw [hok, ← hown] at hout
      have hsame := congrArg (List.filter isPlain) (Except.ok.inj hout)
      have hself' : [connective column.name].filter isPlain = [connective column.name] := by
        apply List.filter_cons_of_pos
        unfold isPlain connective
        split_ifs <;> rfl
      rw [filter_isPlain hindex', filter_isPlain hindex, List.filter_append, List.filter_append, hself, hself',
        List.append_assoc, List.append_assoc] at hsame
      have hhead := (List.cons.inj (List.append_cancel_left hsame)).1
      have htype : (connective column.name).condType = kind := congrArg Condition.condType hhead
      rw [← htype] at hkinds
      revert hkinds
      unfold connective
      split_ifs <;> decide
  · rw [optimizeConditions_term (Bool.eq_false_iff.mpr hconn)]
    by_cases hid : isId column.name = true
    · refine iff_of_false ?_ (by simp [hid])
      rintro ⟨out, hout, hown⟩
      obtain ⟨next, hnext, hout⟩ := Except_bind_ok hout
      rw [hframe, ← hown] at hout
      have hsame := congrArg (List.filter isPlain) (Except.ok.inj hout)
      -- an index condition, or none, stands for the term
      have hrest : next.filter isPlain = before.filter isPlain := by
        rcases optimizeTerm_ok hnext with ⟨-, -, rfl⟩ | ⟨kind', v, -, hkind', -, rfl⟩ | ⟨c, hno, -, -⟩
        · rfl
        · apply List.filter_cons_of_neg
          simp [isPlain, isIndex_of_indexKind hkind']
        · rw [hid] at hno
          cases hno
      rw [filter_isPlain hindex, filter_isPlain hindex, List.filter_append, hself, hrest, List.append_assoc] at hsame
      have hlen := congrArg List.length (List.append_cancel_left hsame)
      rw [List.length_append, List.length_singleton] at hlen
      omega
    · rw [and_iff_right (Bool.eq_false_iff.mpr hid), and_iff_right (Bool.eq_false_iff.mpr hconn)]
      unfold optimizeTerm
      rw [if_neg hid]
      constructor
      · rintro ⟨out, hout, hown⟩
        obtain ⟨next, hnext, hout⟩ := Except_bind_ok hout
        obtain ⟨c, hc, hnext⟩ := Except_bind_ok hnext
        cases hnext
        rw [hframe, ← hown] at hout
        have hsame := List.append_cancel_left (List.append_cancel_right (Except.ok.inj hout))
        have hc' : c = ⟨kind, k, desired⟩ := (List.cons.inj (List.append_cancel_left hsame)).1
        obtain ⟨column', hlookup, -⟩ := columnCondition_ok hc
        rw [hlookup, hc']
      · intro hlookup
        have hc : columnCondition info column.name oper literal = .ok ⟨kind, k, desired⟩ := by
          unfold columnCondition
          rw [hlookup]
          dsimp only
          rw [hcolumn]
          dsimp only
          rw [hdesired, hkind]
          rfl
        rw [hc]
        exact ⟨_, hframe _, rfl⟩

theorem optimizeOrdering_of {columnsRaw : List Text} {clauses : List OderTypeRaw} {keys : List OderTypeOpt}
    (h : List.Forall₂ (fun clause key => key.isGreaterSort = clause.isGreaterSort ∧
      if isId clause.rawColumn then key.rawId = 0
      else orderPlace info clause.rawColumn 0 columnsRaw = .ok key.rawId) clauses keys) :
    optimizeOrdering info columnsRaw clauses = .ok keys := by
  induction h with
  | nil => rfl
  | @cons clause key clauses keys hkey _ ih =>
      obtain ⟨hflag, hplace⟩ := hkey
      have hself : (⟨key.rawId, clause.isGreaterSort⟩ : OderTypeOpt) = key := by rw [← hflag]
      unfold optimizeOrdering
      by_cases hid : isId clause.rawColumn = true
      · rw [if_pos hid] at hplace ⊢
        rw [hplace] at hself
        rw [ih, ← hself]
        rfl
      · rw [if_neg hid] at hplace ⊢
        rw [hplace, ih, ← hself]
        rfl

theorem orderPlace_found {rawColumn : Text} {k : Nat} (hlookup : info.columnsMap.lookup rawColumn = some k)
    {cols : List Text} (h : rawColumn ∈ cols ∨ str "*" ∈ cols) (i : Nat) :
    ∃ place, orderPlace info rawColumn i cols = .ok place := by
  induction cols generalizing i with
  | nil => rcases h with h | h <;> cases h
  | cons col cols ih =>
      unfold orderPlace
      split_ifs with hstar hname
      · rw [hlookup]
        exact ⟨_, rfl⟩
      · exact ⟨_, rfl⟩
      · apply ih
        rw [List.mem_cons, List.mem_cons] at h
        exact h.imp (Or.resolve_left · fun heq => hname heq.symm) (Or.resolve_left · fun heq => hstar heq.symm)

theorem lookup_eq_some_iff (hmap : info.columnsMap = columnsMapFrom 0 info.columns []) {column : Column} {k : Nat}
    (hcolumn : info.columns[k]? = some column) : info.columnsMap.lookup column.name = some k ↔
      ∀ j < k, ∀ other, info.columns[j]? = some other → other.name ≠ column.name := by
  have hlookup : info.columnsMap.lookup column.name = info.columns.findIdx? (·.name = column.name) := by
    rw [hmap, lookup_columnsMapFrom]
    simp
  obtain ⟨hk, hget⟩ := List.getElem?_eq_some_iff.mp hcolumn
  rw [hlookup, List.findIdx?_eq_some_iff_getElem]
  constructor
  · rintro ⟨_, _, hfirst⟩ j hj other hother
    obtain ⟨hj', rfl⟩ := List.getElem?_eq_some_iff.mp hother
    simpa using hfirst j hj
  · intro hfirst
    refine ⟨hk, by simp [hget], fun j hj => ?_⟩
    simpa using hfirst j hj _ (List.getElem?_eq_getElem (by omega))

theorem lookup_le (hmap : info.columnsMap = columnsMapFrom 0 info.columns []) {column : Column} {k id : Nat}
    (hcolumn : info.columns[k]? = some column) (hlookup : info.columnsMap.lookup column.name = some id) :
    id ≤ k := by
  obtain ⟨first, hfirst, hname⟩ := lookup_name hmap hlookup
  rw [← hname] at hlookup
  by_contra hlt
  exact (lookup_eq_some_iff hmap hfirst).mp hlookup k (by omega) column hcolumn hname.symm

/-- A place that was found leads to the column of the name if it is reached. -/
theorem orderPlace_leadsTo_iff (hmap : info.columnsMap = columnsMapFrom 0 info.columns []) {column : Column}
    {k : Nat} (hcolumn : info.columns[k]? = some column) {columnsRaw : List Text} {ids : List Nat}
    (hids : optimizeColumns info columnsRaw = .ok ids) (hid : isId column.name = false) {place : Nat}
    (hplace : orderPlace info column.name 0 columnsRaw = .ok place) :
    LeadsTo ids place k ↔ Reached columnsRaw column.name ∧ info.columnsMap.lookup column.name = some k := by
  obtain ⟨front, hfront, hshape⟩ := optimizeColumns_ok hids
  have hlen := hfront.length_eq
  rw [← keyRight_iff hmap hids hid hplace, leadsTo_iff]
  constructor
  · rintro ⟨p, rfl, hget⟩
    have hlookup : info.columnsMap.lookup column.name = some k := by
      rcases orderPlace_ok hplace with ⟨hmem, hp⟩ | ⟨hnot, hstar, id, hlookup, hp⟩
      · have hlt := List.idxOf_lt_length_of_mem hmem
        have hplaced := hfront.get hlt (by omega)
        obtain rfl : p = (namedBefore columnsRaw).idxOf column.name := by omega
        rw [hshape, List.getElem?_append_left (by omega), List.getElem?_eq_getElem (by omega)] at hget
        rw [List.get_eq_getElem, List.getElem_idxOf, List.get_eq_getElem, Option.some.inj hget] at hplaced
        exact hplaced
      · obtain rfl : p = id := by omega
        have hfirst := lookup_le hmap hcolumn hlookup
        rcases Nat.lt_or_ge p front.length with hbefore | hbehind
        · -- the place is taken by a column of its own name
          have hthere := hfront.get (by omega) hbefore
          rw [hshape, List.getElem?_append_left hbefore, List.getElem?_eq_getElem hbefore] at hget
          rw [List.get_eq_getElem, List.get_eq_getElem, Option.some.inj hget] at hthere
          obtain ⟨column', hcolumn', hname⟩ := lookup_name hmap hthere
          rw [hcolumn] at hcolumn'
          cases hcolumn'
          rw [hname] at hnot
          exact absurd (List.getElem_mem _) hnot
        · rw [hshape, List.getElem?_append_right hbehind, if_pos hstar] at hget
          have hsame : p - front.length = k := by
            simpa using (List.getElem?_eq_some_iff.mp hget).2
          rwa [show p = k by omega] at hlookup
    exact ⟨(keyRight_succ hid p).mpr ⟨k, hlookup, hget⟩, hlookup⟩
  · rintro ⟨hkey, hlookup⟩
    obtain ⟨p, rfl⟩ : ∃ p, place = p + 1 := by
      rcases orderPlace_ok hplace with ⟨-, rfl⟩ | ⟨-, -, id, -, rfl⟩
      · exact ⟨_, rfl⟩
      · exact ⟨id, rfl⟩
    obtain ⟨id, hid', hget⟩ := (keyRight_succ hid p).mp hkey
    rw [hlookup] at hid'
    cases hid'
    exact ⟨p, rfl, hget⟩

theorem reached_found {columnsRaw : List Text} {rawColumn : Text} (h : Reached columnsRaw rawColumn)
    (hid : isId rawColumn = false) : rawColumn ∈ columnsRaw ∨ str "*" ∈ columnsRaw := by
  rcases h with hyes | hmem | hhead
  · rw [hid] at hyes
    cases hyes
  · exact .inl (List.takeWhile_subset _ hmem)
  · exact .inr (List.mem_of_mem_head? hhead)

/-- A name in an ORDER BY leads to its column if it is not the id, the list of the SELECT
reaches it, and it is the first of its kind. -/
theorem ordered_iff (hmap : info.columnsMap = columnsMapFrom 0 info.columns []) {column : Column}
    {k : Nat} (hcolumn : info.columns[k]? = some column) {columnsRaw : List Text} {ids : List Nat}
    (hids : optimizeColumns info columnsRaw = .ok ids) {front back : List OderTypeRaw} (isGreaterSort : Bool)
    {before behind : List OderTypeOpt} (hfront : optimizeOrdering info columnsRaw front = .ok before)
    (hback : optimizeOrdering info columnsRaw back = .ok behind) :
    (∃ keys key, optimizeOrdering info columnsRaw (front ++ ⟨column.name, isGreaterSort⟩ :: back) = .ok keys ∧
        keys[front.length]? = some key ∧ key.isGreaterSort = isGreaterSort ∧ LeadsTo ids key.rawId k) ↔
      isId column.name = false ∧ Reached columnsRaw column.name ∧
        info.columnsMap.lookup column.name = some k := by
  constructor
  · rintro ⟨keys, key, hkeys, hkey, -, hleads⟩
    obtain ⟨hlt, rfl⟩ := List.getElem?_eq_some_iff.mp hkey
    have hthis := ((optimizeOrdering_ok hkeys).get (by simp) hlt).2
    simp only [List.get_eq_getElem, List.getElem_append_right (Nat.le_refl _), Nat.sub_self,
      List.getElem_cons_zero] at hthis
    cases hid : isId column.name with
    | true =>
        rw [if_pos hid] at hthis
        obtain ⟨p, hp, -⟩ := leadsTo_iff.mp hleads
        omega
    | false =>
        rw [if_neg (Bool.eq_false_iff.mp hid)] at hthis
        exact ⟨rfl, (orderPlace_leadsTo_iff hmap hcolumn hids hid hthis).mp hleads⟩
  · rintro ⟨hid, hreached, hlookup⟩
    obtain ⟨place, hplace⟩ := orderPlace_found hlookup (reached_found hreached hid) 0
    have hleads := (orderPlace_leadsTo_iff hmap hcolumn hids hid hplace).mpr ⟨hreached, hlookup⟩
    have hbefore := optimizeOrdering_ok hfront
    have hlen := hbefore.length_eq
    refine ⟨before ++ ⟨place, isGreaterSort⟩ :: behind, ⟨place, isGreaterSort⟩, optimizeOrdering_of ?_, ?_, rfl,
      hleads⟩
    · refine List.rel_append hbefore (.cons ⟨rfl, ?_⟩ (optimizeOrdering_ok hback))
      dsimp only
      rw [if_neg (Bool.eq_false_iff.mp hid)]
      exact hplace
    · rw [hlen, List.getElem?_append_right (Nat.le_refl _), Nat.sub_self]
      rfl

end Optimizer
end SQLid
