import SQLid.ConditionSafety
import SQLid.InsertedRows

/-!
# What the integers of a statement mean

A token for an integer column is converted by its longest numeric prefix, and so is a bound
of the id, whose sign wraps. A token means the integer it becomes when it is a decimal
literal of it.
-/
namespace SQLid
open Bytes (Text)
open CppText (str Literal)
open Programs

theorem Except_mapError_ok {ε ε' α : Type} {f : ε → ε'} {x : Except ε α} {a : α} (h : x.mapError f = .ok a) :
    x = .ok a := by
  cases x with
  | error e => cases h
  | ok b =>
      cases h
      rfl

/-- What a token stands for. -/
inductive TokenPlace where
  | column (type : ColumnType)
  | bound
  deriving DecidableEq, Repr

namespace TokenPlace

def integer : TokenPlace → Bool
  | .column .int32 | .column .int64 | .bound => true
  | _ => false

/-- The integer a value of the place is; a bound is a line number. -/
def value : TokenPlace → VariantTypes → Option Int
  | .column .int32, .int32 v => some v.toInt
  | .column .int64, .int64 v => some v.toInt
  | .bound, .int64 v => some v.toNat
  | _, _ => none

/-- The integers of the place. -/
def range : TokenPlace → Set Int
  | .column .int32 => {n | -0x80000000 ≤ n ∧ n < 0x80000000}
  | .column .int64 => {n | -0x8000000000000000 ≤ n ∧ n < 0x8000000000000000}
  | .bound => {n | 0 ≤ n ∧ n < 0x10000000000000000}
  | _ => ∅

/-- The token is a literal, for a bound one that is not negative. -/
def Plain : TokenPlace → Text → Prop
  | .bound, token => ∃ v, Literal token v ∧ 0 ≤ v
  | .column _, token => ∃ v, Literal token v

/-- What the optimizer makes of a token. -/
def convert : TokenPlace → Text → Except Fault VariantTypes
  | .bound, token => Optimizer.indexValue token
  | .column type, token => parseValue token type

end TokenPlace

/-- The terms of the WHERE clause; an INSERT has none. -/
def QueryVariant.rawClause : QueryVariant → List Text
  | .insert _ => []
  | .select query => query.rawConditions
  | .update query => query.rawConditions
  | .erase query => query.rawConditions

/-- Where the tokens of a parsed statement stand. The tokens of an INSERT go round the
columns, those of a SET list stand for its columns. -/
inductive Stands (info : TabbleInfo) : QueryVariant → TokenPlace → Text → Prop
  | insert {raw : InsertQuery} {k : Nat} {column : Column} {token : Text} :
      raw.rawValues[k]? = some token → info.columns[k % info.columns.length]? = some column →
      Stands info (.insert raw) (.column column.type) token
  | set {raw : UpdateQuery} {ids : List Nat} {j id : Nat} {column : Column} {token : Text} :
      Optimizer.optimizeColumns info raw.columnsRaw = .ok ids → ids[j]? = some id →
      info.columns[id]? = some column → raw.rawValues[j]? = some token →
      Stands info (.update raw) (.column column.type) token
  | term {raw : QueryVariant} {columnName oper token : Text} {columnId : Nat} {column : Column} :
      .triple columnName oper token ∈ rawItems raw.rawClause → Optimizer.isId columnName = false →
      info.columnsMap.lookup columnName = some columnId → info.columns[columnId]? = some column →
      Stands info raw (.column column.type) token
  | bound {raw : QueryVariant} {columnName oper token : Text} :
      .triple columnName oper token ∈ rawItems raw.rawClause → Optimizer.isId columnName = true →
      Optimizer.indexKind oper ≠ none → Stands info raw .bound token

/-- What the tokens have become in the statement that is executed. -/
inductive Becomes (info : TabbleInfo) : QueryVariant → QueryVariant → TokenPlace → Text → VariantTypes → Prop
  | insert {raw query : InsertQuery} {k : Nat} {column : Column} {token : Text} {v : VariantTypes} :
      raw.rawValues[k]? = some token → info.columns[k % info.columns.length]? = some column →
      query.values[k]? = some v → Becomes info (.insert raw) (.insert query) (.column column.type) token v
  | set {raw query : UpdateQuery} {j id : Nat} {column : Column} {token : Text} {v : VariantTypes} :
      query.columnsOptimized[j]? = some id → info.columns[id]? = some column →
      raw.rawValues[j]? = some token → query.values[j]? = some v →
      Becomes info (.update raw) (.update query) (.column column.type) token v
  | term {raw query : QueryVariant} {columnName oper token : Text} {condition : Condition} {column : Column} :
      .triple columnName oper token ∈ rawItems raw.rawClause → Optimizer.isId columnName = false →
      condition ∈ query.base.conditions →
      Optimizer.columnCondition info columnName oper token = .ok condition →
      info.columns[condition.collumnId]? = some column →
      Becomes info raw query (.column column.type) token condition.desired
  | bound {raw query : QueryVariant} {columnName oper token : Text} {condition : Condition} :
      .triple columnName oper token ∈ rawItems raw.rawClause → Optimizer.isId columnName = true →
      Optimizer.indexKind oper = some condition.condType → condition ∈ query.base.conditions →
      Optimizer.indexValue token = .ok condition.desired →
      Becomes info raw query .bound token condition.desired

/-- Every token that has become an integer is a decimal literal of it, in the range of its place. -/
def LiteralsKept (info : TabbleInfo) (raw query : QueryVariant) : Prop :=
  ∀ place token v, Becomes info raw query place token v → ∀ n, place.value v = some n →
    Literal token n ∧ n ∈ place.range

namespace TokenPlace
variable {place : TokenPlace} {token : Text} {v : VariantTypes}

/-- What is made of a token for an integer is one, and that of a literal of the place if it is one. -/
theorem convert_integer (hplace : place.integer = true) (h : place.convert token = .ok v) :
    ∃ n, place.value v = some n ∧ n ∈ place.range ∧ (place.Plain token ↔ Literal token n) := by
  cases place with
  | bound =>
      obtain ⟨n, hread, rfl⟩ := Optimizer.indexValue_ok.mp h
      have hlt := CppText.stoul_lt hread
      have hvalue : (BitVec.ofNat 64 n).toNat = n := by
        rw [BitVec.toNat_ofNat, Nat.mod_eq_of_lt hlt]
      refine ⟨n, congrArg (fun m : Nat => some (m : Int)) hvalue, ⟨Int.natCast_nonneg n, by exact_mod_cast hlt⟩, ?_⟩
      constructor
      · rintro ⟨m, hliteral, hm⟩
        rw [hliteral.stoul hm hread]
        exact hliteral
      · intro hliteral
        exact ⟨n, hliteral, Int.natCast_nonneg n⟩
  | column type =>
      have hsigned {w : Nat} (hw : 0 < w) {b : BitVec w} (hread : CppText.signedPrefix w token = .ok b) :
          (-2 ^ (w - 1) ≤ b.toInt ∧ b.toInt < 2 ^ (w - 1)) ∧
            ((∃ n, Literal token n) ↔ Literal token b.toInt) := by
        refine ⟨⟨BitVec.le_toInt b, BitVec.toInt_lt⟩, ?_⟩
        constructor
        · rintro ⟨m, hliteral⟩
          rw [hliteral.signedPrefix hw hread]
          exact hliteral
        · exact fun hliteral => ⟨_, hliteral⟩
      cases type with
      | int32 =>
          obtain ⟨b, hread, rfl⟩ := Except_map_ok h
          exact ⟨_, rfl, hsigned (by decide) (Except_mapError_ok hread)⟩
      | int64 =>
          obtain ⟨b, hread, rfl⟩ := Except_map_ok h
          exact ⟨_, rfl, hsigned (by decide) (Except_mapError_ok hread)⟩
      | _ => cases hplace

end TokenPlace

namespace Optimizer
variable {info : TabbleInfo}

/-- The conditions before a round stay, and every term the source has an operator for leaves one. -/
theorem optimizeConditions_terms {raw : List Text} {conditions out : List Condition}
    (h : optimizeConditions info raw conditions = .ok out) : (∀ condition ∈ conditions, condition ∈ out) ∧
      ∀ columnName oper token, .triple columnName oper token ∈ rawItems raw →
        (isId columnName = false → ∃ condition ∈ out, columnCondition info columnName oper token = .ok condition) ∧
        (isId columnName = true → ∀ kind, indexKind oper = some kind →
          ∃ desired, (⟨kind, 0, desired⟩ : Condition) ∈ out ∧ indexValue token = .ok desired) := by
  induction raw using rawItems.induct generalizing conditions with
  | case1 =>
      cases h
      exact ⟨fun _ hmem => hmem, fun _ _ _ hitem => by cases hitem⟩
  | case2 w ws hconn ih =>
      rw [optimizeConditions_connective hconn] at h
      obtain ⟨hkept, hterms⟩ := ih h
      refine ⟨fun condition hmem => hkept condition (List.mem_append_left _ hmem), fun columnName oper token hitem => ?_⟩
      rw [rawItems_connective hconn] at hitem
      rcases List.mem_cons.mp hitem with heq | hitem
      · cases heq
      · exact hterms columnName oper token hitem
  | case3 w hconn oper valueStr ws ih =>
      rw [optimizeConditions_term (Bool.eq_false_iff.mpr hconn)] at h
      obtain ⟨next, hterm, hrest⟩ := Except_bind_ok h
      obtain ⟨hkept, hterms⟩ := ih hrest
      have hnext : ∀ condition ∈ conditions, condition ∈ next := by
        rcases optimizeTerm_ok hterm with ⟨-, -, rfl⟩ | ⟨kind, desired, -, -, -, rfl⟩ | ⟨condition, -, -, rfl⟩
        · exact fun _ hmem => hmem
        · exact fun _ hmem => List.mem_cons_of_mem _ hmem
        · exact fun _ hmem => List.mem_append_left _ hmem
      refine ⟨fun condition hmem => hkept condition (hnext condition hmem), fun columnName oper' token hitem => ?_⟩
      rw [rawItems_triple hconn] at hitem
      rcases List.mem_cons.mp hitem with heq | hitem
      · cases heq
        constructor
        · intro hid
          rcases optimizeTerm_ok hterm with ⟨hid', -, -⟩ | ⟨kind, desired, hid', -⟩ | ⟨condition, -, hcondition, rfl⟩
          · rw [hid] at hid'
            cases hid'
          · rw [hid] at hid'
            cases hid'
          · exact ⟨condition, hkept _ (List.mem_append_right _ List.mem_cons_self), hcondition⟩
        · intro hid kind hkind
          rcases optimizeTerm_ok hterm with ⟨-, hnone, -⟩ | ⟨kind', desired, -, hkind', hvalue, rfl⟩ | ⟨condition, hid', -⟩
          · rw [hkind] at hnone
            cases hnone
          · rw [hkind] at hkind'
            cases hkind'
            exact ⟨desired, hkept _ List.mem_cons_self, hvalue⟩
          · rw [hid] at hid'
            cases hid'
      · exact hterms columnName oper' token hitem
  | case4 w ws hconn hshort =>
      rw [optimizeConditions_short hconn hshort] at h
      cases h

theorem optimize_conditions {raw query : QueryVariant} (h : optimize info raw = .ok query) :
    raw.rawClause = [] ∨ optimizeConditions info raw.rawClause [] = .ok query.base.conditions := by
  rcases optimize_cases h with ⟨r, q, rfl, rfl, hq⟩ | ⟨r, q, rfl, rfl, -⟩ | ⟨r, q, rfl, rfl, hq⟩ | ⟨r, q, rfl, rfl, hq⟩
  · obtain ⟨conditions, _, _, hconditions, -, -, rfl⟩ := optimizeSelect_ok_iff.mp hq
    exact .inr hconditions
  · exact .inl rfl
  · obtain ⟨conditions, hconditions, rfl⟩ := optimizeDelete_ok_iff.mp hq
    exact .inr hconditions
  · obtain ⟨_, conditions, _, -, hconditions, -, rfl⟩ := optimizeUpdate_ok_iff.mp hq
    exact .inr hconditions

/-- A term of an accepted statement leaves its condition. -/
theorem optimize_term {raw query : QueryVariant} (h : optimize info raw = .ok query)
    {columnName oper token : Text} (hitem : .triple columnName oper token ∈ rawItems raw.rawClause) :
    (isId columnName = false → ∃ condition ∈ query.base.conditions,
        columnCondition info columnName oper token = .ok condition) ∧
      (isId columnName = true → ∀ kind, indexKind oper = some kind →
        ∃ desired, (⟨kind, 0, desired⟩ : Condition) ∈ query.base.conditions ∧ indexValue token = .ok desired) := by
  rcases optimize_conditions h with hnone | hconditions
  · rw [hnone] at hitem
    cases hitem
  · exact (optimizeConditions_terms hconditions).2 columnName oper token hitem

theorem insertValue_integer {column : Column} {token : Text} {v : VariantTypes}
    (h : insertValue column token = .ok v) (hplace : (TokenPlace.column column.type).integer = true) :
    parseValue token column.type = .ok v := by
  unfold insertValue at h
  cases htype : column.type with
  | int32 =>
      rw [htype] at h
      exact h
  | int64 =>
      rw [htype] at h
      exact h
  | _ =>
      rw [htype] at hplace
      cases hplace

theorem optimizeInsertValues_length {raws : List Text} {values : List VariantTypes}
    (h : optimizeInsertValues info raws = .ok values) : values.length = raws.length := by
  obtain ⟨-, hrows⟩ := optimizeInsertValues_ok h
  have hmod : raws.length % info.columns.length = 0 := by
    unfold optimizeInsertValues at h
    split_ifs at h with hcols hmod
    exact not_not.mp hmod
  rw [(insertRows_fullRows hrows).length]
  exact Nat.div_mul_cancel (Nat.dvd_of_mod_eq_zero hmod)

/-- The token at a place of an INSERT becomes the value there. -/
theorem optimizeInsertValues_made {raws : List Text} {values : List VariantTypes}
    (h : optimizeInsertValues info raws = .ok values) {k : Nat} (hk : k < raws.length) {column : Column}
    (hcolumn : info.columns[k % info.columns.length]? = some column) :
    ∃ raw v, raws[k]? = some raw ∧ values[k]? = some v ∧ insertValue column raw = .ok v := by
  obtain ⟨-, hrows⟩ := optimizeInsertValues_ok h
  have hr : k / info.columns.length < raws.length / info.columns.length := by
    apply Nat.div_lt_of_lt_mul
    rw [Nat.mul_comm, ← (insertRows_fullRows hrows).length, optimizeInsertValues_length h]
    exact hk
  have hmade := insertRows_made hrows hr hcolumn
  rwa [Nat.div_add_mod'] at hmade

end Optimizer

section
variable {info : TabbleInfo} {raw query : QueryVariant} {place : TokenPlace} {token : Text} {v : VariantTypes}

/-- What a token has become is what the optimizer makes of it. -/
theorem Becomes.stands (hopt : Optimizer.optimize info raw = .ok query) (h : Becomes info raw query place token v)
    (hplace : place.integer = true) : Stands info raw place token ∧ place.convert token = .ok v := by
  cases h with
  | insert hraw hcolumn hvalue =>
      obtain ⟨q, hq, heq⟩ := Except_map_ok hopt
      cases heq
      obtain ⟨values, hvalues, hq⟩ := Except_bind_ok hq
      cases hq
      obtain ⟨raw, v, hraw', hvalue', hmade⟩ :=
        Optimizer.optimizeInsertValues_made hvalues (List.getElem?_eq_some_iff.mp hraw).1 hcolumn
      rw [hraw] at hraw'
      cases hraw'
      rw [hvalue] at hvalue'
      cases hvalue'
      exact ⟨.insert hraw hcolumn, Optimizer.insertValue_integer hmade hplace⟩
  | set hid hcolumn hraw hvalue =>
      obtain ⟨q, hq, heq⟩ := Except_map_ok hopt
      cases heq
      obtain ⟨ids, conditions, values, hids, -, hvalues, rfl⟩ := Optimizer.optimizeUpdate_ok_iff.mp hq
      obtain ⟨column, raw, v, hcolumn', hraw', hvalue', hparse⟩ :=
        (Optimizer.updateValues_set (Optimizer.orIncorrect_ok hvalues)).parsed _ _ hid
      rw [hcolumn] at hcolumn'
      cases hcolumn'
      rw [hraw] at hraw'
      cases hraw'
      rw [hvalue] at hvalue'
      cases hvalue'
      exact ⟨.set hids hid hcolumn hraw, hparse⟩
  | term hitem hid hmem hcondition hcolumn =>
      obtain ⟨column, hlookup, hcolumn', hvalue, -⟩ := Optimizer.columnCondition_ok hcondition
      rw [hcolumn] at hcolumn'
      cases hcolumn'
      exact ⟨.term hitem hid hlookup hcolumn, hvalue⟩
  | bound hitem hid hkind hmem hvalue =>
      refine ⟨.bound hitem hid ?_, hvalue⟩
      rw [hkind]
      exact Option.some_ne_none _

/-- Every token of an accepted statement that stands for an integer becomes one. -/
theorem Stands.becomes (hopt : Optimizer.optimize info raw = .ok query) (h : Stands info raw place token)
    (hplace : place.integer = true) : ∃ v, Becomes info raw query place token v := by
  cases h with
  | insert hraw hcolumn =>
      obtain ⟨q, hq, rfl⟩ := Except_map_ok hopt
      obtain ⟨values, hvalues, hq⟩ := Except_bind_ok hq
      cases hq
      obtain ⟨_, v, -, hvalue, -⟩ :=
        Optimizer.optimizeInsertValues_made hvalues (List.getElem?_eq_some_iff.mp hraw).1 hcolumn
      exact ⟨v, .insert hraw hcolumn hvalue⟩
  | set hids hid hcolumn hraw =>
      obtain ⟨q, hq, rfl⟩ := Except_map_ok hopt
      obtain ⟨ids, conditions, values, hids', -, hvalues, rfl⟩ := Optimizer.optimizeUpdate_ok_iff.mp hq
      rw [hids] at hids'
      cases hids'
      obtain ⟨_, _, v, -, -, hvalue, -⟩ :=
        (Optimizer.updateValues_set (Optimizer.orIncorrect_ok hvalues)).parsed _ _ hid
      exact ⟨v, .set hid hcolumn hraw hvalue⟩
  | term hitem hid hlookup hcolumn =>
      obtain ⟨condition, hmem, hcondition⟩ := (Optimizer.optimize_term hopt hitem).1 hid
      obtain ⟨column, hlookup', hcolumn', -⟩ := Optimizer.columnCondition_ok hcondition
      rw [hlookup] at hlookup'
      cases hlookup'
      exact ⟨_, .term hitem hid hmem hcondition hcolumn⟩
  | bound hitem hid hkind =>
      obtain ⟨kind, hkind⟩ := Option.ne_none_iff_exists'.mp hkind
      obtain ⟨desired, hmem, hvalue⟩ := (Optimizer.optimize_term hopt hitem).2 hid kind hkind
      exact ⟨desired, .bound hitem hid hkind hmem hvalue⟩

/-- The integers of an accepted statement mean what they say exactly when every token that
stands for one is a literal, and no bound of the id is negative. -/
theorem literals_kept_iff (hopt : Optimizer.optimize info raw = .ok query) : LiteralsKept info raw query ↔
    ∀ place token, Stands info raw place token → place.integer = true → place.Plain token := by
  constructor
  · intro h place token hstands hplace
    obtain ⟨v, hbecomes⟩ := hstands.becomes hopt hplace
    obtain ⟨-, hconvert⟩ := hbecomes.stands hopt hplace
    obtain ⟨n, hvalue, -, hplain⟩ := TokenPlace.convert_integer hplace hconvert
    exact hplain.mpr (h place token v hbecomes n hvalue).1
  · intro h place token v hbecomes n hvalue
    have hplace : place.integer = true := by
      unfold TokenPlace.value at hvalue
      split at hvalue
      · rfl
      · rfl
      · rfl
      · cases hvalue
    obtain ⟨hstands, hconvert⟩ := hbecomes.stands hopt hplace
    obtain ⟨m, hvalue', hrange, hplain⟩ := TokenPlace.convert_integer hplace hconvert
    rw [hvalue] at hvalue'
    cases hvalue'
    exact ⟨hplain.mp (h place token hstands hplace), hrange⟩

end
/-- `UPDATE t SET n = -7 WHERE id >= 2`. -/
def literalsUpdate : UpdateQuery where
  tabbleName := str "t"
  rawConditions := [str "id", str ">=", str "2"]
  columnsRaw := [str "n"]
  rawValues := [str "-7"]

def literalsUpdated : UpdateQuery :=
  { literalsUpdate with conditions := [⟨.fromIndex, 0, .int64 2⟩], columnsOptimized := [0], values := [.int32 (-7)] }

theorem literals_kept_iff_sample :
    LiteralsKept Tabble.sampleInfo (.update literalsUpdate) (.update literalsUpdated) := by
  apply (literals_kept_iff (by decide +kernel)).mpr
  intro place token hstands hplace
  have hitems : rawItems (QueryVariant.update literalsUpdate).rawClause = [.triple (str "id") (str ">=") (str "2")] := rfl
  cases hstands with
  | set hids hid hcolumn hraw =>
      next j _ _ =>
      cases j with
      | zero =>
          cases hraw
          exact ⟨-7, .minus (n := 7) ⟨by decide, by decide +kernel, by decide⟩⟩
      | succ j => cases hraw
  | term hitem hid hlookup hcolumn =>
      rw [hitems, List.mem_singleton] at hitem
      cases hitem
      exact absurd hid (by decide)
  | bound hitem hid hkind =>
      rw [hitems, List.mem_singleton] at hitem
      cases hitem
      exact ⟨2, .bare (n := 2) ⟨by decide, by decide +kernel, by decide⟩, by decide⟩

/-- `INSERT INTO t 12abc` stores 12. -/
theorem literal_cut : ¬ ∀ (info : TabbleInfo) (command : Text) (raw query : QueryVariant),
    RequestParser.parse command = .ok raw → Optimizer.optimize info raw = .ok query →
    LiteralsKept info raw query := by
  intro h
  have hkept := h Tabble.sampleInfo (str "INSERT INTO t 12abc")
    (.insert { tabbleName := str "t", rawValues := [str "12abc"] })
    (.insert { tabbleName := str "t", rawValues := [str "12abc"], values := [.int32 12] })
    (by decide +kernel) (by decide +kernel)
  have hcolumn : Tabble.sampleInfo.columns[0 % Tabble.sampleInfo.columns.length]? =
    some ⟨str "n", 1, .int32, 4⟩ := rfl
  obtain ⟨hliteral, -⟩ := hkept _ (str "12abc") (.int32 12) (.insert (k := 0) rfl hcolumn rfl) 12 rfl
  cases hliteral with
  | bare hnumeral => exact absurd (hnumeral.digits 97) (by decide)

end SQLid
