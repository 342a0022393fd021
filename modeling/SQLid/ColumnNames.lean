import SQLid.Acceptance
import SQLid.CreatedTables
import SQLid.NameResolution
import SQLid.Statements

/-!
# The names of columns

A statement names columns in the list of a SELECT, in the terms of a clause, in an ORDER BY
and in the assignments of an UPDATE, and each of these places has words that are no names
there. In a table that was created, which of its columns can be named where?
-/
namespace SQLid
open Bytes (Text)
open CppText (str IsWord)
open Programs

def QueryVariant.clause : QueryVariant → List Condition
  | .select query => query.conditions
  | .update query => query.conditions
  | .erase query => query.conditions
  | .insert _ => []

/-! Where a keyword ends a list. -/

namespace RequestParser

theorem parseConditionAndLimit_cut {front : List Text} (h : ∀ w ∈ front, w ≠ str "LIMIT") (rest : List Text) :
    (parseConditionAndLimit (str "WHERE" :: (front ++ str "LIMIT" :: rest))).1 = front := by
  have hstop := readUntil_stop (s := str "LIMIT") (fun w hw => decide_eq_false (h w hw)) rfl (str "WHERE") rest
  unfold parseConditionAndLimit
  simp only [next, hstop, if_true]

theorem parseSet_stop {word : Text} (h : word = str "WHERE" ∨ word = str "LIMIT") (buf : Text) (rest : List Text) :
    parseSet buf (word :: rest) = .ok ([], word, rest) := by
  unfold parseSet
  rcases h with rfl | rfl <;> rfl

theorem parseUpdate_sets (name : Text) {word : Text} {sets : List (Text × Text)} (hsets : Settable sets)
    (hword : word = str "WHERE" ∨ word = str "LIMIT") (rest : List Text) :
    ∃ limit, parseUpdate (name :: str "SET" :: (setWords sets ++ word :: rest)) =
      .ok { tabbleName := name, limit,
            rawConditions := if word = str "LIMIT" then [] else (readUntil (· = str "LIMIT") word rest).1,
            columnsRaw := sets.map Prod.fst, rawValues := sets.map Prod.snd } := by
  have hset : parseSet (str "SET") (setWords sets ++ word :: rest) = .ok (sets, word, rest) := by
    rw [parseSet_sets hsets, parseSet_stop hword]
    change Except.ok (sets ++ [], word, rest) = _
    rw [List.append_nil]
  unfold parseUpdate
  simp only [next, hset, ne_eq, not_true_eq_false, if_false]
  rcases hword with rfl | rfl
  · exact ⟨_, rfl⟩
  · exact ⟨_, rfl⟩

end RequestParser

section
variable {info : TabbleInfo} {command name : Text} {query : QueryVariant}

/-- The list of a SELECT ends at the first `FROM`. -/
theorem compile_from {columns ws : List Text} (hcols : ∀ c ∈ columns, c ≠ str "FROM")
    (hwords : CppText.words command = str "SELECT" :: (columns ++ str "FROM" :: ws))
    (h : compile info command = .ok query) :
    ∃ q, query = .select q ∧ Optimizer.optimizeColumns info columns = .ok q.columnsOptimized := by
  unfold compile at h
  rw [RequestParser.parse_eq, hwords, RequestParser.parseWords_select, RequestParser.parseSelect_from hcols] at h
  obtain ⟨raw, hraw, h⟩ := Except_bind_ok h
  obtain ⟨r, hr, rfl⟩ := Except_map_ok hraw
  obtain ⟨tail, -, rfl⟩ := Except_map_ok hr
  obtain ⟨q, hq, rfl⟩ := Except_map_ok h
  obtain ⟨conditions, ids, keys, -, hids, -, rfl⟩ := Optimizer.optimizeSelect_ok_iff.mp hq
  exact ⟨_, rfl, hids⟩

/-- The assignments end at the first `WHERE` or `LIMIT`. -/
theorem compile_sets {word : Text} {sets : List (Text × Text)} {rest : List Text} (hsets : Settable sets)
    (hword : word = str "WHERE" ∨ word = str "LIMIT")
    (hwords : CppText.words command = str "UPDATE" :: name :: str "SET" :: (setWords sets ++ word :: rest))
    (h : compile info command = .ok query) :
    ∃ q, query = .update q ∧ Optimizer.optimizeColumns info (sets.map Prod.fst) = .ok q.columnsOptimized := by
  obtain ⟨limit, hparse⟩ := RequestParser.parseUpdate_sets name hsets hword rest
  unfold compile at h
  rw [RequestParser.parse_eq, hwords, RequestParser.parseWords_update, hparse] at h
  obtain ⟨q, hq, rfl⟩ := Except_map_ok h
  obtain ⟨ids, conditions, values, hids, -, -, rfl⟩ := Optimizer.optimizeUpdate_ok_iff.mp hq
  exact ⟨_, rfl, hids⟩

end
/-! Statements around a clause. -/

/-- The assignments can be read and made. -/
def SetsSound (info : TabbleInfo) (sets : List (Text × Text)) : Prop :=
  Settable sets ∧ ∃ ids values, Optimizer.optimizeColumns info (sets.map Prod.fst) = .ok ids ∧
    Optimizer.updateValues info ids (sets.map Prod.snd) = .ok values

/-- A statement without its clause. -/
inductive Host where
  | select (columns : List Text) (order : Option (List OderTypeRaw))
  | erase
  | update (sets : List (Text × Text))

namespace Host

def statement (tabbleName : Text) (conditions : Option (List Text)) (limit : Option Nat) : Host → Statement
  | .select columns order => .select columns tabbleName conditions limit order
  | .erase => .erase tabbleName conditions limit
  | .update sets => .update tabbleName sets conditions limit

/-- The words that end its clause. -/
def Ends : Host → Text → Prop
  | .select _ _, w => w = str "LIMIT" ∨ w = str "ORDER"
  | .erase, w => w = str "LIMIT"
  | .update _, w => w = str "LIMIT"

instance (host : Host) : DecidablePred host.Ends := fun w => by
  cases host with
  | select columns order => exact inferInstanceAs (Decidable (w = str "LIMIT" ∨ w = str "ORDER"))
  | erase => exact inferInstanceAs (Decidable (w = str "LIMIT"))
  | update sets => exact inferInstanceAs (Decidable (w = str "LIMIT"))

theorem Ends.keyword {host : Host} {w : Text} (h : host.Ends w) : w = str "LIMIT" ∨ w = str "ORDER" := by
  cases host with
  | select columns order => exact h
  | erase => exact .inl h
  | update sets => exact .inl h

/-- It compiles but for its clause. -/
def Sound (info : TabbleInfo) : Host → Prop
  | .select columns order => (∀ c ∈ columns, c ≠ str "FROM") ∧
      (∃ ids, Optimizer.optimizeColumns info columns = .ok ids) ∧
        ∃ keys, Optimizer.optimizeOrdering info columns (order.getD []) = .ok keys
  | .erase => True
  | .update sets => SetsSound info sets

variable {info : TabbleInfo} {host : Host} {command name word : Text} {limit : Option Nat}
  {raw front rest : List Text}

theorem wellFormed (hsound : host.Sound info) (hraw : ∀ w ∈ raw, ¬ host.Ends w) (hlimit : ∀ n ∈ limit, n < 2 ^ 64) :
    (host.statement name (some raw) limit).WellFormed := by
  cases host with
  | select columns order =>
      refine ⟨hsound.1, ?_, hlimit⟩
      rintro tokens ⟨⟩ w hw
      exact not_or.mp (hraw w hw)
  | erase =>
      refine ⟨?_, hlimit⟩
      rintro tokens ⟨⟩ w hw
      exact hraw w hw
  | update sets =>
      refine ⟨hsound.1, ?_, hlimit⟩
      rintro tokens ⟨⟩ w hw
      exact hraw w hw

/-- The clause decides whether the statement compiles, and to what conditions. -/
theorem compiles_iff (hsound : host.Sound info) (hraw : ∀ w ∈ raw, ¬ host.Ends w)
    (hlimit : ∀ n ∈ limit, n < 2 ^ 64)
    (hcommand : (host.statement name (some raw) limit).Renders (CppText.words command)) (out : List Condition) :
    (∃ query, compile info command = .ok query ∧ query.clause = out) ↔
      Optimizer.optimizeConditions info raw [] = .ok out := by
  rw [compile_renders (wellFormed hsound hraw hlimit) hcommand]
  cases host with
  | select columns order =>
      obtain ⟨-, ⟨ids, hids⟩, keys, hkeys⟩ := hsound
      constructor
      · rintro ⟨query, hquery, rfl⟩
        obtain ⟨q, hq, rfl⟩ := Except_map_ok hquery
        obtain ⟨conditions, _, _, hconditions, -, -, rfl⟩ := Optimizer.optimizeSelect_ok_iff.mp hq
        exact hconditions
      · intro hconditions
        exact ⟨_, congrArg (Except.map QueryVariant.select)
          (Optimizer.optimizeSelect_ok_iff.mpr ⟨out, ids, keys, hconditions, hids, hkeys, rfl⟩), rfl⟩
  | erase =>
      constructor
      · rintro ⟨query, hquery, rfl⟩
        obtain ⟨q, hq, rfl⟩ := Except_map_ok hquery
        obtain ⟨conditions, hconditions, rfl⟩ := Optimizer.optimizeDelete_ok_iff.mp hq
        exact hconditions
      · intro hconditions
        exact ⟨_, congrArg (Except.map QueryVariant.erase)
          (Optimizer.optimizeDelete_ok_iff.mpr ⟨out, hconditions, rfl⟩), rfl⟩
  | update sets =>
      obtain ⟨-, ids, values, hids, hvalues⟩ := hsound
      constructor
      · rintro ⟨query, hquery, rfl⟩
        obtain ⟨q, hq, rfl⟩ := Except_map_ok hquery
        obtain ⟨_, conditions, _, -, hconditions, -, rfl⟩ := Optimizer.optimizeUpdate_ok_iff.mp hq
        exact hconditions
      · intro hconditions
        have hmade : Optimizer.optimizeUpdateValues info ids (sets.map Prod.snd) = .ok values := by
          unfold Optimizer.optimizeUpdateValues
          rw [hvalues]
          rfl
        exact ⟨_, congrArg (Except.map QueryVariant.update)
          (Optimizer.optimizeUpdate_ok_iff.mpr ⟨ids, out, values, hids, hconditions, hmade, rfl⟩), rfl⟩

/-- A word that ends the clause keeps the rest of it from the optimizer. -/
theorem compile_cut (hsound : host.Sound info) (hfront : ∀ w ∈ front, ¬ host.Ends w) (hword : host.Ends word)
    (hcommand : (host.statement name (some (front ++ word :: rest)) limit).Renders (CppText.words command))
    {query : QueryVariant} (h : compile info command = .ok query) :
    Optimizer.optimizeConditions info front [] = .ok query.clause := by
  generalize hwords : CppText.words command = ws at hcommand
  unfold compile at h
  rw [RequestParser.parse_eq, hwords] at h
  clear hwords
  cases host with
  | select columns order =>
      obtain ⟨hcols, -, -⟩ := hsound
      have hunended : RequestParser.Unended (some front) := by
        rintro tokens ⟨⟩ w hw
        exact not_or.mp (hfront w hw)
      cases hcommand with
      | @select _ _ _ _ _ lws _ =>
          have hclause : whereWords (some (front ++ word :: rest)) ++ (lws ++ orderWords (order.map sortWords)) =
              whereWords (some front) ++ word :: (rest ++ (lws ++ orderWords (order.map sortWords))) := by
            simp [whereWords]
          have hafter : ∀ w ∈ (word :: (rest ++ (lws ++ orderWords (order.map sortWords)))).head?,
              w = str "LIMIT" ∨ w = str "ORDER" := by
            rintro w ⟨⟩
            exact hword
          rw [hclause, RequestParser.parseWords_select, RequestParser.parseSelect_from hcols] at h
          obtain ⟨raw, hraw, h⟩ := Except_bind_ok h
          obtain ⟨r, hr, rfl⟩ := Except_map_ok hraw
          obtain ⟨tail, htail, rfl⟩ := Except_map_ok hr
          have htail' := (RequestParser.selectTail_where hunended hafter).symm.trans htail
          obtain ⟨after, -, rfl⟩ := Except_map_ok htail'
          obtain ⟨q, hq, rfl⟩ := Except_map_ok h
          obtain ⟨conditions, _, _, hconditions, -, -, rfl⟩ := Optimizer.optimizeSelect_ok_iff.mp hq
          exact hconditions
  | erase =>
      cases hcommand with
      | @erase _ _ _ lws _ =>
          have hclause : whereWords (some (front ++ word :: rest)) ++ lws =
              str "WHERE" :: (front ++ str "LIMIT" :: (rest ++ lws)) := by
            rw [show word = str "LIMIT" from hword]
            simp [whereWords]
          rw [hclause, RequestParser.parseWords_delete] at h
          obtain ⟨q, hq, rfl⟩ := Except_map_ok h
          obtain ⟨conditions, hconditions, rfl⟩ := Optimizer.optimizeDelete_ok_iff.mp hq
          rw [← RequestParser.parseConditionAndLimit_cut hfront (rest ++ lws)]
          exact hconditions
  | update sets =>
      obtain ⟨hsets, -⟩ := hsound
      cases hcommand with
      | @update _ _ _ _ lws _ =>
          have hclause : whereWords (some (front ++ word :: rest)) ++ lws =
              str "WHERE" :: (front ++ str "LIMIT" :: (rest ++ lws)) := by
            rw [show word = str "LIMIT" from hword]
            simp [whereWords]
          obtain ⟨bound, hparse⟩ := RequestParser.parseUpdate_sets name hsets (.inl rfl)
            (front ++ str "LIMIT" :: (rest ++ lws))
          rw [hclause, RequestParser.parseWords_update, hparse] at h
          obtain ⟨q, hq, rfl⟩ := Except_map_ok h
          obtain ⟨_, conditions, _, -, hconditions, -, rfl⟩ := Optimizer.optimizeUpdate_ok_iff.mp hq
          have hread := RequestParser.readUntil_stop (p := fun w => decide (w = str "LIMIT"))
            (fun w hw => decide_eq_false (hfront w hw)) (decide_eq_true rfl) (str "WHERE") (rest ++ lws)
          dsimp only at hconditions
          rw [if_neg (by decide), hread] at hconditions
          exact hconditions

end Host

/-! Uses of a name. -/

/-- A statement with a gap where a column is named. -/
inductive Use where
  | listed (front back : List Text) (conditions : Option (List Text)) (order : Option (List OderTypeRaw))
  | compared (host : Host) (front : List Text) (oper literal : Text) (back : List Text)
  | ordered (columns : List Text) (conditions : Option (List Text)) (front : List OderTypeRaw)
      (isGreaterSort : Bool) (back : List OderTypeRaw)
  | assigned (front : List (Text × Text)) (value : Text) (back : List (Text × Text))
      (conditions : Option (List Text))

/-- The list leads to this column between what stands around the name. -/
def Listed (info : TabbleInfo) (k : Nat) (front back : List Text) (ids : List Nat) : Prop :=
  ∃ before behind, Optimizer.optimizeColumns info front = .ok before ∧
    Optimizer.optimizeColumns info back = .ok behind ∧ ids = before ++ k :: behind

theorem listed_eq_iff {info : TabbleInfo} {k : Nat} {front back : List Text} {ids before behind : List Nat}
    (hfront : Optimizer.optimizeColumns info front = .ok before)
    (hback : Optimizer.optimizeColumns info back = .ok behind) :
    Listed info k front back ids ↔ ids = before ++ k :: behind := by
  constructor
  · rintro ⟨before', behind', hfront', hback', rfl⟩
    rw [hfront] at hfront'
    rw [hback] at hback'
    cases hfront'
    cases hback'
    rfl
  · rintro rfl
    exact ⟨before, behind, hfront, hback, rfl⟩

/-- What stands in front does not lead to the column by itself. -/
theorem not_listed_front {info : TabbleInfo} {k : Nat} {front back : List Text} {ids : List Nat}
    (h : Optimizer.optimizeColumns info front = .ok ids) : ¬ Listed info k front back ids := by
  rintro ⟨before, behind, hfront, -, hids⟩
  rw [h] at hfront
  cases hfront
  have hlen := congrArg List.length hids
  rw [List.length_append, List.length_cons] at hlen
  omega

/-- The conditions compare this column with the literal. -/
def Compared (info : TabbleInfo) (k : Nat) (front : List Text) (oper literal : Text) (back : List Text)
    (conditions : List Condition) : Prop :=
  ∃ before kind column desired, Optimizer.optimizeConditions info front [] = .ok before ∧
    conditionMap.lookup oper = some kind ∧ info.columns[k]? = some column ∧
      parseValue literal column.type = .ok desired ∧
        Optimizer.optimizeConditions info back (before ++ [⟨kind, k, desired⟩]) = .ok conditions

namespace Use

def fill (tabbleName : Text) (limit : Option Nat) (name : Text) : Use → Statement
  | .listed front back conditions order =>
      .select (front ++ name :: back) tabbleName conditions limit order
  | .compared host front oper literal back =>
      host.statement tabbleName (some (front ++ name :: oper :: literal :: back)) limit
  | .ordered columns conditions front isGreaterSort back =>
      .select columns tabbleName conditions limit (some (front ++ ⟨name, isGreaterSort⟩ :: back))
  | .assigned front value back conditions =>
      .update tabbleName (front ++ (name, value) :: back) conditions limit

/-- In the compiled statement the name leads to this column. -/
def Leads (info : TabbleInfo) (k : Nat) : Use → QueryVariant → Prop
  | .listed front back _ _, .select query => Listed info k front back query.columnsOptimized
  | .compared _ front oper literal back, query => Compared info k front oper literal back query.clause
  | .ordered _ _ front isGreaterSort _, .select query =>
      ∃ key, query.orderColumnsOptimized[front.length]? = some key ∧ key.isGreaterSort = isGreaterSort ∧
        LeadsTo query.columnsOptimized key.rawId k
  | .assigned front _ back _, .update query =>
      Listed info k (front.map Prod.fst) (back.map Prod.fst) query.columnsOptimized
  | _, _ => False

/-- What stands around the name of the column is right. -/
def Sound (info : TabbleInfo) (column : Column) : Use → Prop
  | .listed front back conditions order =>
      (∀ w ∈ front ++ back, w ≠ str "FROM") ∧
        (∃ ids, Optimizer.optimizeColumns info front = .ok ids) ∧
        (∃ ids, Optimizer.optimizeColumns info back = .ok ids) ∧
        RequestParser.Unended conditions ∧
        (∃ out, Optimizer.optimizeConditions info (conditions.getD []) [] = .ok out) ∧
        ∃ keys, Optimizer.optimizeOrdering info (front ++ column.name :: back) (order.getD []) = .ok keys
  | .compared host front oper literal back =>
      host.Sound info ∧ (∀ w ∈ front ++ literal :: back, ¬ host.Ends w) ∧
        (∃ out, Optimizer.optimizeConditions info front [] = .ok out) ∧
        (∃ out, Optimizer.optimizeConditions info back [] = .ok out) ∧
        (∃ kind, conditionMap.lookup oper = some kind) ∧ ∃ desired, parseValue literal column.type = .ok desired
  | .ordered columns conditions front _ back =>
      (∀ c ∈ columns, c ≠ str "FROM") ∧ (∃ ids, Optimizer.optimizeColumns info columns = .ok ids) ∧
        RequestParser.Unended conditions ∧
        (∃ out, Optimizer.optimizeConditions info (conditions.getD []) [] = .ok out) ∧
        (∃ keys, Optimizer.optimizeOrdering info columns front = .ok keys) ∧
        ∃ keys, Optimizer.optimizeOrdering info columns back = .ok keys
  | .assigned front value back conditions =>
      SetsSound info front ∧ SetsSound info back ∧
        (∃ v, parseValue value column.type = .ok v) ∧ RequestParser.UnendedLimit conditions ∧
        ∃ out, Optimizer.optimizeConditions info (conditions.getD []) [] = .ok out

/-- The name stands for itself in this place. -/
def Names (info : TabbleInfo) (name : Text) : Use → Prop
  | .listed front back _ _ => name ≠ str "FROM" ∧ str "*" ∉ front ∧
      (name = str "*" → WholeTable info (name :: back))
  | .compared host _ _ _ _ =>
      ¬ host.Ends name ∧ Optimizer.isId name = false ∧ Optimizer.isConnective name = false
  | .ordered columns _ _ _ _ => Optimizer.isId name = false ∧ Reached columns name
  | .assigned front _ back _ => (name ≠ str "WHERE" ∧ name ≠ str "LIMIT") ∧ str "*" ∉ front.map Prod.fst ∧
      (name = str "*" → WholeTable info (name :: back.map Prod.fst))

/-- A command with this statement compiles, and its name leads to this column. -/
def Resolves (info : TabbleInfo) (command : Text) (k : Nat) (use : Use) : Prop :=
  ∃ query, compile info command = .ok query ∧ use.Leads info k query

section
variable {info : TabbleInfo} {column : Column} {k : Nat} {command tabbleName : Text} {limit : Option Nat}
variable (hmap : info.columnsMap = columnsMapFrom 0 info.columns []) (hcolumn : info.columns[k]? = some column)
  (hlimit : ∀ n ∈ limit, n < 2 ^ 64)
include hmap hcolumn hlimit

theorem listed_resolves_iff {front back : List Text} {conditions : Option (List Text)}
    {order : Option (List OderTypeRaw)}
    (hcommand : ((listed front back conditions order).fill tabbleName limit column.name).Renders
      (CppText.words command)) (hsound : (listed front back conditions order).Sound info column) :
    (listed front back conditions order).Resolves info command k ↔
      (listed front back conditions order).Names info column.name ∧
        info.columnsMap.lookup column.name = some k := by
  obtain ⟨hfrom, ⟨before, hfront⟩, ⟨behind, hback⟩, hunended, ⟨out, hout⟩, keys, hkeys⟩ := hsound
  have hnamed := Optimizer.listed_iff hmap hcolumn hfront hback
  by_cases hname : column.name = str "FROM"
  · refine iff_of_false ?_ fun h => h.1.1 hname
    rintro ⟨query, hquery, hleads⟩
    generalize hwords : CppText.words command = ws at hcommand
    cases hcommand
    rw [hname, List.append_assoc, List.cons_append] at hwords
    obtain ⟨q, rfl, hids⟩ := compile_from (fun c hc => hfrom c (List.mem_append_left back hc)) hwords hquery
    exact not_listed_front hids hleads
  · have hst : ((listed front back conditions order).fill tabbleName limit column.name).WellFormed := by
      refine ⟨fun c hc => ?_, hunended, hlimit⟩
      rcases List.mem_append.mp hc with hc | hc
      · exact hfrom c (List.mem_append_left back hc)
      · rcases List.mem_cons.mp hc with rfl | hc
        · exact hname
        · exact hfrom c (List.mem_append_right front hc)
    unfold Resolves
    rw [compile_renders hst hcommand]
    constructor
    · rintro ⟨query, hquery, hleads⟩
      obtain ⟨q, hq, rfl⟩ := Except_map_ok hquery
      obtain ⟨_, ids, _, -, hids, -, rfl⟩ := Optimizer.optimizeSelect_ok_iff.mp hq
      obtain rfl := (listed_eq_iff hfront hback).mp hleads
      obtain ⟨hlookup, hwhole⟩ := hnamed.mp hids
      exact ⟨⟨hname, hwhole⟩, hlookup⟩
    · rintro ⟨⟨-, hwhole⟩, hlookup⟩
      have hids := hnamed.mpr ⟨hlookup, hwhole⟩
      exact ⟨_, congrArg (Except.map QueryVariant.select)
        (Optimizer.optimizeSelect_ok_iff.mpr ⟨out, _, keys, hout, hids, hkeys, rfl⟩),
        (listed_eq_iff hfront hback).mpr rfl⟩

omit hmap in
theorem compared_resolves_iff {host : Host} {front back : List Text} {oper literal : Text}
    (hcommand : ((compared host front oper literal back).fill tabbleName limit column.name).Renders
      (CppText.words command)) (hsound : (compared host front oper literal back).Sound info column) :
    (compared host front oper literal back).Resolves info command k ↔
      (compared host front oper literal back).Names info column.name ∧
        info.columnsMap.lookup column.name = some k := by
  obtain ⟨hhost, hends, ⟨before, hfront⟩, hback, ⟨kind, hkind⟩, desired, hdesired⟩ := hsound
  have hnamed := Optimizer.compared_iff hcolumn hfront hback hkind hdesired
  have hcompared (conditions : List Condition) : Compared info k front oper literal back conditions ↔
      Optimizer.optimizeConditions info back (before ++ [⟨kind, k, desired⟩]) = .ok conditions := by
    constructor
    · rintro ⟨before', kind', column', desired', hfront', hkind', hcolumn', hdesired', hout⟩
      rw [hfront] at hfront'
      rw [hkind] at hkind'
      rw [hcolumn] at hcolumn'
      cases hfront'
      cases hkind'
      cases hcolumn'
      rw [hdesired] at hdesired'
      cases hdesired'
      exact hout
    · intro hout
      exact ⟨before, kind, column, desired, hfront, hkind, hcolumn, hdesired, hout⟩
  by_cases hname : host.Ends column.name
  · refine iff_of_false ?_ fun h => h.1.1 hname
    rintro ⟨query, hquery, hleads⟩
    have hcut := Host.compile_cut hhost (fun w hw => hends w (List.mem_append_left _ hw)) hname hcommand hquery
    rw [hfront] at hcut
    have hout := (hcompared query.clause).mp hleads
    obtain ⟨index, plain, heq, -⟩ := Optimizer.optimizeConditions_shape hout
    rw [← Except.ok.inj hcut] at heq
    have hlen := congrArg List.length heq
    simp only [List.length_append, List.length_singleton] at hlen
    omega
  · have hraw : ∀ w ∈ front ++ column.name :: oper :: literal :: back, ¬ host.Ends w := by
      intro w hw
      simp only [List.mem_append, List.mem_cons] at hw hends
      rcases hw with hw | rfl | rfl | hw
      · exact hends w (.inl hw)
      · exact hname
      · intro hend
        rcases hend.keyword with rfl | rfl <;> cases hkind
      · exact hends w (.inr hw)
    have hcompiles := Host.compiles_iff hhost hraw hlimit hcommand
    constructor
    · rintro ⟨query, hquery, hleads⟩
      have hout := (hcompiles query.clause).mp ⟨query, hquery, rfl⟩
      obtain ⟨hid, hconn, hlookup⟩ := hnamed.mp ⟨query.clause, hout, (hcompared _).mp hleads⟩
      exact ⟨⟨hname, hid, hconn⟩, hlookup⟩
    · rintro ⟨⟨-, hid, hconn⟩, hlookup⟩
      obtain ⟨out, hout, hown⟩ := hnamed.mpr ⟨hid, hconn, hlookup⟩
      obtain ⟨query, hquery, rfl⟩ := (hcompiles out).mpr hout
      exact ⟨query, hquery, (hcompared _).mpr hown⟩

theorem ordered_resolves_iff {columns : List Text} {conditions : Option (List Text)}
    {front back : List OderTypeRaw} {isGreaterSort : Bool}
    (hcommand : ((ordered columns conditions front isGreaterSort back).fill tabbleName limit
      column.name).Renders (CppText.words command))
    (hsound : (ordered columns conditions front isGreaterSort back).Sound info column) :
    (ordered columns conditions front isGreaterSort back).Resolves info command k ↔
      (ordered columns conditions front isGreaterSort back).Names info column.name ∧
        info.columnsMap.lookup column.name = some k := by
  obtain ⟨hcols, ⟨ids, hids⟩, hunended, ⟨out, hout⟩, ⟨before, hfront⟩, behind, hback⟩ := hsound
  have hnamed := Optimizer.ordered_iff hmap hcolumn hids isGreaterSort hfront hback
  have hst : ((ordered columns conditions front isGreaterSort back).fill tabbleName limit column.name).WellFormed :=
    ⟨hcols, hunended, hlimit⟩
  unfold Resolves
  rw [compile_renders hst hcommand]
  constructor
  · rintro ⟨query, hquery, hleads⟩
    obtain ⟨q, hq, rfl⟩ := Except_map_ok hquery
    obtain ⟨_, ids', keys, -, hids', hkeys, rfl⟩ := Optimizer.optimizeSelect_ok_iff.mp hq
    obtain ⟨key, hkey, hflag, hplace⟩ := hleads
    obtain rfl := Except.ok.inj (hids.symm.trans hids')
    obtain ⟨hid, hreached, hlookup⟩ := hnamed.mp ⟨keys, key, hkeys, hkey, hflag, hplace⟩
    exact ⟨⟨hid, hreached⟩, hlookup⟩
  · rintro ⟨⟨hid, hreached⟩, hlookup⟩
    obtain ⟨keys, key, hkeys, hkey, hflag, hplace⟩ := hnamed.mpr ⟨hid, hreached, hlookup⟩
    exact ⟨_, congrArg (Except.map QueryVariant.select)
      (Optimizer.optimizeSelect_ok_iff.mpr ⟨out, ids, keys, hout, hids, hkeys, rfl⟩), key, hkey, hflag, hplace⟩

theorem assigned_resolves_iff {front back : List (Text × Text)} {value : Text} {conditions : Option (List Text)}
    (hcommand : ((assigned front value back conditions).fill tabbleName limit column.name).Renders
      (CppText.words command)) (hsound : (assigned front value back conditions).Sound info column) :
    (assigned front value back conditions).Resolves info command k ↔
      (assigned front value back conditions).Names info column.name ∧
        info.columnsMap.lookup column.name = some k := by
  obtain ⟨⟨hsets, before, values, hfront, hvalues⟩, ⟨hsets', behind, values', hback, hvalues'⟩, ⟨v, hv⟩,
    hunended, out, hout⟩ := hsound
  have hnamed := Optimizer.listed_iff hmap hcolumn hfront hback
  by_cases hname : column.name = str "WHERE" ∨ column.name = str "LIMIT"
  · refine iff_of_false ?_ fun h => hname.elim h.1.1.1 h.1.1.2
    rintro ⟨query, hquery, hleads⟩
    generalize hwords : CppText.words command = ws at hcommand
    cases hcommand with
    | @update _ _ _ _ lws _ =>
        have hcut : setWords (front ++ (column.name, value) :: back) ++ (whereWords conditions ++ lws) =
            setWords front ++ column.name ::
              (str "=" :: value :: (setWords back ++ (whereWords conditions ++ lws))) := by
          simp [setWords]
        rw [hcut] at hwords
        obtain ⟨q, rfl, hids⟩ := compile_sets hsets hname hwords hquery
        exact not_listed_front hids hleads
  · obtain ⟨hwhere, hends⟩ := not_or.mp hname
    have hst : ((assigned front value back conditions).fill tabbleName limit column.name).WellFormed := by
      refine ⟨fun p hp => ?_, hunended, hlimit⟩
      rcases List.mem_append.mp hp with hp | hp
      · exact hsets p hp
      · rcases List.mem_cons.mp hp with rfl | hp
        · exact ⟨hwhere, hends⟩
        · exact hsets' p hp
    unfold Resolves
    rw [compile_renders hst hcommand]
    constructor
    · rintro ⟨query, hquery, hleads⟩
      obtain ⟨q, hq, rfl⟩ := Except_map_ok hquery
      obtain ⟨ids, _, _, hids, -, -, rfl⟩ := Optimizer.optimizeUpdate_ok_iff.mp hq
      obtain rfl := (listed_eq_iff hfront hback).mp hleads
      dsimp only at hids
      rw [List.map_append, List.map_cons] at hids
      obtain ⟨hlookup, hwhole⟩ := hnamed.mp hids
      exact ⟨⟨⟨hwhere, hends⟩, hwhole⟩, hlookup⟩
    · rintro ⟨⟨-, hstar, hwhole⟩, hlookup⟩
      have hids := hnamed.mpr ⟨hlookup, hstar, hwhole⟩
      have hlen : before.length = (front.map Prod.snd).length := by
        have hsame := congrArg List.length (Optimizer.optimizeColumns_named hfront hstar)
        simpa using hsame.symm
      have hmade : Optimizer.optimizeUpdateValues info (before ++ k :: behind)
          ((front ++ (column.name, value) :: back).map Prod.snd) = .ok (values ++ v :: values') := by
        unfold Optimizer.optimizeUpdateValues
        rw [List.map_append, List.map_cons,
          Optimizer.updateValues_append hlen hvalues (Optimizer.updateValues_cons hcolumn hv hvalues')]
        rfl
      rw [← List.map_cons (f := Prod.fst) (a := (column.name, value)), ← List.map_append] at hids
      exact ⟨_, congrArg (Except.map QueryVariant.update)
        (Optimizer.optimizeUpdate_ok_iff.mpr ⟨_, out, _, hids, hout, hmade, rfl⟩),
        (listed_eq_iff hfront hback).mpr rfl⟩

/-- A name leads to its column just when it is one in this place and no column before has it. -/
theorem resolves_iff (use : Use) (hcommand : (use.fill tabbleName limit column.name).Renders (CppText.words command))
    (hsound : use.Sound info column) : use.Resolves info command k ↔
      use.Names info column.name ∧ info.columnsMap.lookup column.name = some k := by
  cases use with
  | listed => exact listed_resolves_iff hmap hcolumn hlimit hcommand hsound
  | compared => exact compared_resolves_iff hcolumn hlimit hcommand hsound
  | ordered => exact ordered_resolves_iff hmap hcolumn hlimit hcommand hsound
  | assigned => exact assigned_resolves_iff hmap hcolumn hlimit hcommand hsound

end
end Use

/-! Tables that were created. -/

/-- A column of a table that was created is found under its name just where the name is no other
word and no column before it has the name. -/
theorem created_name_resolves_iff {cwd : Loc} {os : Os} {base base' : DataBase} {ws : List Text} {t t' : Disk}
    (hway : base.absoluteWay ≠ []) (hws : ∀ w ∈ ws, IsWord w)
    (hrun : (DataBase.createTable (Disk.files cwd) os base ws).run t = .ok base' t') :
    ∃ columns table, DataBase.parseColumns (RequestParser.next [] ws).2 = .ok columns ∧
      base' = base.insertTabble table (RequestParser.next [] ws).1 ∧ table.info = schemaOf columns ∧
        ∀ k column, table.info.columns[k]? = some column →
          ∀ (use : Use) (tabbleName : Text) (limit : Option Nat) (command : Text), (∀ n ∈ limit, n < 2 ^ 64) →
            (use.fill tabbleName limit column.name).Renders (CppText.words command) →
              use.Sound table.info column → (use.Resolves table.info command k ↔
                use.Names table.info column.name ∧
                  ∀ j < k, ∀ other, table.info.columns[j]? = some other → other.name ≠ column.name) := by
  obtain ⟨columns, hparse, -, -, table, hbase, hinfo⟩ := DataBase.createTable_ok hway hws hrun
  refine ⟨columns, table, hparse, hbase, hinfo, ?_⟩
  intro k column hcolumn use tabbleName limit command hlimit hcommand hsound
  have hmap : table.info.columnsMap = columnsMapFrom 0 table.info.columns [] := by
    rw [hinfo]
    rfl
  rw [Use.resolves_iff hmap hcolumn hlimit use hcommand hsound, Optimizer.lookup_eq_some_iff hmap hcolumn]

/-- `SELECT * FROM t WHERE name == x` -/
theorem created_name_resolves_iff_sample : ∃ table : Tabble,
    (Use.compared (.select [str "*"] none) [] (str "==") (str "x") []).Resolves table.info
      (str "SELECT * FROM t WHERE name == x") 0 := by
  obtain ⟨base', t', hrun⟩ := exists_of_isOk (r := (DataBase.createTable (Disk.files []) .reliable shopBase
    plainTable).run shopSystem.disk) (by decide +kernel)
  obtain ⟨columns, table, hparse, -, hinfo, hall⟩ := created_name_resolves_iff (by decide) (by decide +kernel) hrun
  have hcolumns : columns = [(str "name", .string, 10), (str "STRING", .int32, 4)] := by
    have htwo : DataBase.parseColumns plainTable.tail =
        .ok [(str "name", .string, 10), (str "STRING", .int32, 4)] := by decide +kernel
    exact Except.ok.inj (hparse.symm.trans htwo)
  rw [hcolumns] at hinfo
  rw [hinfo] at hall
  refine ⟨table, ?_⟩
  rw [hinfo]
  have hcommand : CppText.words (str "SELECT * FROM t WHERE name == x") = str "SELECT" :: ([str "*"] ++
      str "FROM" :: str "t" :: (whereWords (some [str "name", str "==", str "x"]) ++ ([] ++ orderWords none))) := by
    decide +kernel
  refine (hall 0 ⟨str "name", 1, .string, 10⟩ rfl _ (str "t") none _ nofun ?_ ?_).mpr ⟨?_, ?_⟩
  · rw [hcommand]
    exact .select .absent
  · refine ⟨⟨by decide, ⟨_, rfl⟩, [], rfl⟩, by decide, ⟨[], rfl⟩, ⟨[], rfl⟩, ⟨.equal, rfl⟩, _, rfl⟩
  · exact ⟨by decide, by decide, by decide⟩
  · exact fun j hj => absurd hj (Nat.not_lt_zero j)

/-- A table with a column `id`, and `SELECT * FROM t WHERE id == 5`. -/
theorem id_column_captured : ¬ ∀ (cwd : Loc) (os : Os) (base base' : DataBase) (ws : List Text) (t t' : Disk)
    (table : Tabble), base.absoluteWay ≠ [] → (∀ w ∈ ws, IsWord w) →
      (DataBase.createTable (Disk.files cwd) os base ws).run t = .ok base' t' →
        base' = base.insertTabble table (RequestParser.next [] ws).1 →
          ∀ k column, table.info.columns[k]? = some column →
            ∀ (use : Use) (tabbleName : Text) (limit : Option Nat) (command : Text), (∀ n ∈ limit, n < 2 ^ 64) →
              (use.fill tabbleName limit column.name).Renders (CppText.words command) →
                use.Sound table.info column → use.Resolves table.info command k := by
  intro h
  obtain ⟨base', t', hrun⟩ := exists_of_isOk (r := (DataBase.createTable (Disk.files []) .reliable shopBase
    [str "t", str "id", str "INT32"]).run shopSystem.disk) (by decide +kernel)
  obtain ⟨columns, hparse, -, -, table, hbase, hinfo⟩ :=
    DataBase.createTable_ok (by decide) (by decide +kernel) hrun
  have hcolumns : columns = [(str "id", .int32, 4)] := by
    have hone : DataBase.parseColumns [str "id", str "INT32"] = .ok [(str "id", .int32, 4)] := by decide +kernel
    exact Except.ok.inj (hparse.symm.trans hone)
  rw [hcolumns] at hinfo
  have hall := h _ _ _ _ _ _ _ table (by decide) (by decide +kernel) hrun hbase
  rw [hinfo] at hall
  have hcommand : ((Use.compared (.select [str "*"] none) [] (str "==") (str "5") []).fill (str "t") none
      (str "id")).Renders (CppText.words (str "SELECT * FROM t WHERE id == 5")) := by
    have hwords : CppText.words (str "SELECT * FROM t WHERE id == 5") = str "SELECT" :: ([str "*"] ++
        str "FROM" :: str "t" :: (whereWords (some [str "id", str "==", str "5"]) ++ ([] ++ orderWords none))) := by
      decide +kernel
    rw [hwords]
    exact .select .absent
  have hsound : (Use.compared (.select [str "*"] none) [] (str "==") (str "5") []).Sound
      (schemaOf [(str "id", .int32, 4)]) ⟨str "id", 1, .int32, 4⟩ :=
    ⟨⟨by decide, ⟨_, rfl⟩, [], rfl⟩, by decide, ⟨[], rfl⟩, ⟨[], rfl⟩, ⟨.equal, rfl⟩, _, rfl⟩
  have hcolumn : (schemaOf [(str "id", .int32, 4)]).columns[0]? = some ⟨str "id", 1, .int32, 4⟩ := rfl
  have hlimit : ∀ n ∈ (none : Option Nat), n < 2 ^ 64 := nofun
  have hresolves := hall 0 _ hcolumn _ (str "t") none _ hlimit hcommand hsound
  have hnamed := (Use.resolves_iff rfl hcolumn hlimit _ hcommand hsound).mp hresolves
  exact absurd hnamed.1.2.1 (by decide)

end SQLid
