import SQLid.InsertedRows
import SQLid.RowOrder

/-!
# Searching for what was inserted

A row has just been inserted, and a SELECT looks for it by one of its columns and the very
token that was inserted there. When is it found?
-/
namespace SQLid
open Bytes (Text)
open CppText (str)
open Programs
open Tabble (LogOnly Inserting)

/-! The line of the row. -/

/-- The line the next row goes to. -/
def Tabble.nextLine (t : Tabble) : Nat := t.stackFreeId.head?.getD t.freeId

section
variable {os : Os} {t : Tabble}

theorem allocateId_nextLine : Triple (fun t' => t' = t) (Tabble.allocateId os)
    (fun cur _ => cur = t.nextLine) fun _ _ => True := by
  have hvalue (x : EStateM Fault Tabble Unit) (y : EStateM Fault Tabble Unit) (n : Nat) :
      Triple (fun _ => True) (do x; y; return n) (fun cur _ => cur = n) fun _ _ => True :=
    (triple_true x).bind fun _ => (triple_true y).bind fun _ => triple_pure fun _ _ => rfl
  unfold Tabble.allocateId
  refine triple_get fun t' ht' => ?_
  obtain rfl := ht'
  unfold Tabble.nextLine
  cases hstack : t'.stackFreeId with
  | nil =>
      refine Triple.conseq (P := fun _ => True) ?_ (fun _ _ => trivial) (fun _ _ h => h) fun _ _ h => h
      exact triple_ite (fun _ => (triple_true _).bind fun _ => hvalue _ _ _) fun _ => hvalue _ _ _
  | cons id rest =>
      refine Triple.conseq (P := fun _ => True) ?_ (fun _ _ => trivial) (fun _ _ h => h) fun _ _ h => h
      exact (triple_true _).bind fun _ => triple_pure fun _ _ => rfl

theorem insert_nextLine (values : List VariantTypes) (columns : List Column) (index : Nat) :
    Triple (fun t' => t' = t) (Tabble.insert os values columns index) (fun cur _ => cur = t.nextLine)
      fun _ _ => True := by
  unfold Tabble.insert
  refine allocateId_nextLine.bind fun cur => ?_
  rintro t' rfl
  refine ((triple_true _).bind fun _ => (triple_true _).bind fun _ => (triple_true _).bind fun _ =>
    (triple_true _).bind fun _ => triple_pure fun _ _ => rfl) t' trivial

/-- The answer begins with this row. -/
def Begins (row : List VariantTypes) (s : Execution) : Prop := s.result.body.head? = some row

theorem begins_insertFrom {row : List VariantTypes} (values : List VariantTypes) (columns : List Column)
    (n i : Nat) : Triple (Begins row) (Executor.insertFrom os values columns n i) (fun _ => Begins row)
      fun _ => Begins row := by
  induction n generalizing i with
  | zero => exact triple_pure fun _ h => h
  | succ n ih =>
      refine triple_ite (fun _ => ?_) fun _ => triple_pure fun _ h => h
      have hinsert : Triple (Begins row) (Executor.onTable (Tabble.insert os values columns i))
          (fun _ => Begins row) fun _ => Begins row :=
        triple_zoom fun s hs => ((triple_true _) s.table trivial).mono (fun _ _ _ => hs)
          (E := fun _ _ => True) fun _ _ _ => hs
      refine hinsert.bind fun cur => Triple.bind (Q := fun _ => Begins row) ?_ fun _ => ih _
      refine triple_modify fun s hs => ?_
      change (s.result.body ++ [_]).head? = some row
      rw [List.head?_append, hs]
      rfl

/-- The first id an INSERT answers with. -/
theorem executeInsert_nextLine (query : InsertQuery) : Triple (Executor.Blank t)
    (Executor.executeInsert os query)
    (fun _ s => ∀ row ∈ s.result.body.head?, row = Executor.idRow t.nextLine) fun _ _ => True := by
  have hbegins (s : Execution) (h : Begins (Executor.idRow t.nextLine) s) :
      ∀ row ∈ s.result.body.head?, row = Executor.idRow t.nextLine := by
    intro row hrow
    rw [h] at hrow
    exact (Option.some.inj hrow).symm
  have hnone (s : Execution) (h : s.result.body = []) :
      ∀ row ∈ s.result.body.head?, row = Executor.idRow t.nextLine := by
    intro row hrow
    rw [h] at hrow
    cases hrow
  have hfirst (columns : List Column) (i : Nat) : Triple (Executor.Blank t)
      (Executor.onTable (Tabble.insert os query.values columns i))
      (fun cur s => cur = t.nextLine ∧ s.result.body = []) fun _ s => s.result.body = [] :=
    triple_zoom fun s hs => (insert_nextLine _ _ _ s.table hs.1).mono (fun _ _ h => ⟨h, hs.2⟩)
      fun _ _ _ => hs.2
  have hloop (columns : List Column) (n i : Nat) : Triple (Executor.Blank t)
      (Executor.insertFrom os query.values columns n i)
      (fun _ s => ∀ row ∈ s.result.body.head?, row = Executor.idRow t.nextLine)
      fun _ s => ∀ row ∈ s.result.body.head?, row = Executor.idRow t.nextLine := by
    cases n with
    | zero => exact triple_pure fun s hs => hnone s hs.2
    | succ n =>
        refine triple_ite (fun _ => ?_) fun _ => triple_pure fun s hs => hnone s hs.2
        refine ((hfirst columns i).conseq (fun _ h => h) (fun _ _ h => h) fun _ s h => hnone s h).bind fun cur => ?_
        refine Triple.bind (Q := fun _ => Begins (Executor.idRow t.nextLine)) ?_ fun _ =>
          (begins_insertFrom _ _ _ _).conseq (fun _ h => h) (fun _ s h => hbegins s h) fun _ s h => hbegins s h
        refine triple_modify fun s hs => ?_
        obtain ⟨rfl, hbody⟩ := hs
        change (s.result.body ++ [_]).head? = _
        rw [hbody]
        rfl
  unfold Executor.executeInsert
  refine (Executor.blank_onResult _ (by exact fun _ h => h)).bind fun _ => triple_get fun s₀ _ => ?_
  refine triple_tryCatch ((hloop _ _ _).bind fun _ => triple_modify fun _ h => h) fun e => ?_
  exact triple_ite (fun _ => triple_modify fun _ h => h) fun _ => triple_throw fun _ _ => trivial

end
/-! The row after the INSERT. -/

/-- A row is stored in its line with the cells its tokens stand for. -/
structure StoredRow (tokens : List Text) (i : Nat) (t : Tabble) : Prop where
  active : t.active i = true
  cells : ∀ (m : Nat) column token, t.info.columns[m]? = some column → tokens[m]? = some token →
    column.inserted token = .ok (t.cell i column)

section
variable {os : Os} {schema : TabbleInfo} {t : Tabble} {name insertion : Text} {tokens : List Text} {s : Execution}

theorem Tabble.Sound.nextLine_le (h : t.Sound) : t.nextLine ≤ t.maxLines := by
  have htop := h.freeId_le
  unfold Tabble.nextLine
  cases hstack : t.stackFreeId with
  | nil => exact htop
  | cons i rest =>
      have hmem : i ∈ t.stackFreeId ↔ i < t.freeId ∧ t.flag i = false := h.pool.mem_stack i
      rw [hstack] at hmem
      have hlt := (hmem.mp List.mem_cons_self).1
      change i ≤ t.maxLines
      omega

theorem idRow_inj {i j : Nat} (h : Executor.idRow i = Executor.idRow j) (hi : i < 2 ^ 64) (hj : j < 2 ^ 64) :
    i = j := by
  have hcell : BitVec.ofNat 64 i = BitVec.ofNat 64 j :=
    VariantTypes.int64.inj (List.cons.inj h).1
  have hnat := congrArg BitVec.toNat hcell
  rwa [BitVec.toNat_ofNat, BitVec.toNat_ofNat, Nat.mod_eq_of_lt hi, Nat.mod_eq_of_lt hj] at hnat

theorem inserted_stored (hreg : schema.Regular) (h : Reach Orderly os schema t)
    (hidle : t.storage.expanding = false)
    (hwords : CppText.words insertion = str "INSERT" :: str "INTO" :: name :: tokens)
    (hlen : tokens.length = schema.columns.length) (hrun : request os insertion t = .ok () s)
    (hgrown : s.table.storage.expanding = false) :
    Reach Orderly os schema s.table ∧ s.result.body = [Executor.idRow t.nextLine] ∧
      StoredRow tokens t.nextLine s.table := by
  have hs := h.served hreg hidle
  obtain rfl := hs.info
  cases hc : compile t.info insertion with
  | error e =>
      unfold request at hrun
      rw [run_answer_error hc] at hrun
      cases hrun
  | ok query =>
      have hraw : RequestParser.parse insertion = .ok (.insert { tabbleName := name, rawValues := tokens }) := by
        rw [RequestParser.parse_eq, hwords, RequestParser.parseWords_insert]
        rfl
      have hopt := hc
      unfold compile at hopt
      rw [hraw] at hopt
      obtain ⟨q, hq, rfl⟩ := Except_map_ok hopt
      obtain ⟨values, hvalues, hq⟩ := Except_bind_ok hq
      cases hq
      dsimp only at hvalues
      obtain ⟨hcols, htokens⟩ := Optimizer.optimizeInsertValues_ok hvalues
      rw [hlen, Nat.div_self hcols] at htokens
      have hreach : Reach Orderly os t.info s.table := by
        refine .request insertion h ⟨hidle, fun query conds hquery hconds => ?_⟩ (settles_ok.mpr rfl |> fun h => hrun ▸ h)
        rw [hc] at hquery
        cases hquery
        cases hconds
      have hrows : t.info.FullRows values 1 := Optimizer.insertRows_fullRows htokens
      unfold request at hrun
      rw [run_answer hc, run_execute] at hrun
      dsimp only at hrun
      generalize hquery : ({ tabbleName := name, rawValues := tokens, values := values } : InsertQuery) = query
        at hrun
      obtain rfl : query.values = values := by rw [← hquery]
      have hout := Executor.executeInsert_outcome hs.sound os hcols hrows { isSucces := true } rfl
      have hfirst := (executeInsert_nextLine query).ok (s := ⟨t, { isSucces := true }⟩) ⟨rfl, rfl⟩ hrun
      rw [hrun] at hout
      cases hout with
      | ok hdone =>
          rcases hdone with ⟨lines, hone, hins, hbody⟩ | ⟨_, _, _, hbroken, _⟩
          · obtain ⟨i, rfl⟩ := List.length_eq_one_iff.mp hone
            obtain ⟨hactive, -⟩ := Tabble.rowMap_some (hins.stored 0 i rfl)
            have hlt := Tabble.active_lt_maxLines hactive
            have hline : i = t.nextLine := by
              have hmost := hins.sound.maxLines_le
              have hnext := hs.sound.nextLine_le
              have hmost' := hs.sound.maxLines_le
              rw [hbody] at hfirst
              exact idRow_inj (hfirst _ rfl) (by omega) (by omega)
            refine ⟨hreach, by rw [hbody, ← hline]; rfl, by rw [← hline]; exact hactive, ?_⟩
            intro m column token hcolumn htoken
            obtain ⟨row, hrow, hcells⟩ := (hins.readsBack hreg.filled hs.sound htokens hone).rows 0 i rfl
            rw [← hins.info] at hrow
            have hfill : ∀ c ∈ s.table.info.columns, 0 < c.size := hins.info ▸ hreg.filled
            rw [hins.sound.toMapped.peek_readRecord hlt hfill fun id hid => List.mem_range.mp hid] at hrow
            cases hrow
            rw [hins.info] at hcolumn
            obtain ⟨raw, v, hraw, hv, hins'⟩ := hcells m column hcolumn
            rw [Nat.zero_mul, Nat.zero_add, htoken] at hraw
            cases hraw
            rw [TabbleInfo.pick_range, List.take_length, hins.info, List.getElem?_map, hcolumn] at hv
            cases hv
            rw [← hline]
            exact hins'
          · rw [hbroken.expanding] at hgrown
            cases hgrown

end
/-! The SELECT that looks for it. -/

def searchWords (name column token : Text) : List Text :=
  [str "SELECT", str "*", str "FROM", name, str "WHERE", column, str "==", token]

/-- The statement answers with the row of this line. -/
def Finds (os : Os) (search : Text) (i : Nat) (t : Tabble) : Prop :=
  ∃ s, request os search t = .ok () s ∧ t.selectedRow (List.range t.info.columns.length) i ∈ s.result.body

section
variable {os : Os} {t : Tabble} {name column token search : Text} {limit i : Nat}

/-- What the words up to the one that ends the clause compile to. -/
theorem compile_search (info : TabbleInfo) (hwords : CppText.words search = searchWords name column token)
    (pre after : List Text) (hsplit : [column, str "==", token] = pre ++ after)
    (hpre : ∀ w ∈ pre, w ≠ str "LIMIT" ∧ w ≠ str "ORDER")
    (hafter : ∀ w ∈ after.head?, w = str "LIMIT" ∨ w = str "ORDER")
    (hlimit : RequestParser.selectAfter after = .ok (limit, [])) :
    compile info search = (Optimizer.optimizeConditions info pre []).map fun conditions =>
      .select { tabbleName := name, rawConditions := pre, limit, columnsRaw := [str "*"], conditions,
                columnsOptimized := List.range info.columns.length } := by
  have hcols : ∀ c ∈ [str "*"], c ≠ str "FROM" := by decide
  have hunended : RequestParser.Unended (some pre) := by
    rintro tokens ⟨⟩
    exact hpre
  have hraw : RequestParser.parse search = .ok (.select
      { tabbleName := name, rawConditions := pre, limit, columnsRaw := [str "*"] }) := by
    have hclause : searchWords name column token =
        str "SELECT" :: ([str "*"] ++ str "FROM" :: name :: (whereWords (some pre) ++ after)) := by
      unfold searchWords whereWords
      rw [hsplit]
      rfl
    rw [RequestParser.parse_eq, hwords, hclause, RequestParser.parseWords_select,
      RequestParser.parseSelect_from hcols]
    change (_ <$> (_ <$> RequestParser.selectTail (whereWords (some pre) ++ after))) = _
    rw [RequestParser.selectTail_where hunended hafter, hlimit]
    rfl
  unfold compile
  rw [hraw]
  change (QueryVariant.select <$> Optimizer.optimizeSelect info _) = _
  unfold Optimizer.optimizeSelect
  dsimp only
  cases Optimizer.optimizeConditions info pre [] with
  | error e => rfl
  | ok conditions => rfl

theorem not_finds_of_error {e : Fault} (h : compile t.info search = .error e) : ¬ Finds os search i t := by
  rintro ⟨s, hrun, -⟩
  unfold request at hrun
  rw [run_answer_error h] at hrun
  cases hrun

theorem mem_upTo {info : TabbleInfo} {searched : Search info} (hlimit : t.maxLines ≤ limit) :
    i ∈ searched.upTo t limit ↔ t.active i = true ∧ searched.holds t i = true := by
  unfold Search.upTo
  rw [List.take_of_length_le, List.mem_filter, List.mem_range, Bool.and_eq_true,
    and_iff_right_of_imp fun h => Tabble.active_lt_maxLines h.1]
  have hall := List.length_filter_le (fun i => t.active i && searched.holds t i) (List.range t.maxLines)
  rw [List.length_range] at hall
  omega

/-- A SELECT of all columns by a plain clause finds a row that it takes in. -/
theorem finds_plain_iff (hs : Served t.info t) (hreg : t.info.Regular) {searched : Search t.info}
    (hplain : searched.Plain) {query : SelectQuery} (hc : compile t.info search = .ok (.select query))
    (hconds : query.conditions = searched.conditions)
    (hids : query.columnsOptimized = List.range t.info.columns.length)
    (horder : query.orderColumnsOptimized = []) (hi : i < t.maxLines) :
    Finds os search i t ↔ i ∈ searched.upTo t query.limit := by
  have hlt : ∀ id ∈ query.columnsOptimized, id < t.info.columns.length := by
    rw [hids]
    exact fun id hid => List.mem_range.mp hid
  obtain ⟨s, hrun, -, hselected⟩ := hplain.select hs hreg hconds hlt (r := { isSucces := true }) rfl
  have hbody := hselected.unsorted horder
  rw [hids] at hbody
  have hrequest : request os search t = .ok () s := by
    unfold request
    rw [run_answer hc, run_execute]
    exact hrun
  unfold Finds
  rw [hrequest]
  have hmost := hs.sound.maxLines_le
  constructor
  · rintro ⟨_, ⟨⟩, hmem⟩
    rw [hbody, List.mem_map] at hmem
    obtain ⟨j, hj, hrow⟩ := hmem
    have hjlt := List.mem_range.mp (List.mem_filter.mp (List.mem_of_mem_take hj)).1
    have hcell : Executor.idRow j = Executor.idRow i := congrArg (fun cell => [cell]) (List.cons.inj hrow).1
    rw [← idRow_inj hcell (by omega) (by omega)]
    exact hj
  · intro hmem
    refine ⟨s, rfl, ?_⟩
    rw [hbody]
    exact List.mem_map_of_mem hmem

/-- A lookup by the id finds the row of that line only. -/
theorem finds_lookup_iff (hs : Served t.info t) (hreg : t.info.Regular) {query : SelectQuery}
    (hc : compile t.info search = .ok (.select query)) {line : BitVec 64}
    (hdir : Executor.directIndex query.conditions = some (.int64 line))
    (hids : query.columnsOptimized = List.range t.info.columns.length) (hi : i < t.maxLines) :
    Finds os search i t ↔ line.toNat = i := by
  have hlt : ∀ id ∈ query.columnsOptimized, id < t.info.columns.length := by
    rw [hids]
    exact fun id hid => List.mem_range.mp hid
  obtain ⟨header, hrun⟩ := Executor.run_executeSelect_lookup hlt hdir { isSucces := true }
  have hrequest : request os search t = _ := (run_answer hc {}).trans ((run_execute os t _).trans hrun)
  have hmost := hs.sound.maxLines_le
  rw [hids] at hrequest
  have hanswer {row : List VariantTypes} (hrow : t.peek (Executor.readRecord line.toNat
      (List.range t.info.columns.length) t.info.columns) = .ok row) :
      ∃ s, request os search t = .ok () s ∧ s.result.body = [row] := by
    obtain ⟨l, -, hread⟩ := (Executor.reads_readRecord line.toNat _ _).run_ok hrow
    rw [hrequest, run_bind_ok (Executor.run_onTable_ok hread)]
    exact ⟨_, rfl, rfl⟩
  constructor
  · rintro ⟨s, hok, hmem⟩
    cases hrow : t.peek (Executor.readRecord line.toNat (List.range t.info.columns.length) t.info.columns) with
    | error e =>
        obtain ⟨l, -, hread⟩ := (Executor.reads_readRecord line.toNat _ _).run_error hrow
        rw [hrequest, run_bind_error (Executor.run_onTable_error hread)] at hok
        cases hok
    | ok row =>
        obtain ⟨s', hok', hbody⟩ := hanswer hrow
        rw [hok] at hok'
        cases hok'
        obtain ⟨cells, rfl, -⟩ := Executor.readRecord_cells hrow
        rw [hbody, List.mem_singleton] at hmem
        have hcell : Executor.idRow line.toNat = Executor.idRow i :=
          congrArg (fun cell => [cell]) (List.cons.inj hmem).1.symm
        exact idRow_inj hcell line.isLt (by omega)
  · rintro rfl
    obtain ⟨s, hok, hbody⟩ := hanswer (hs.sound.toMapped.peek_readRecord hi hreg.filled fun id hid =>
      List.mem_range.mp hid)
    refine ⟨s, hok, ?_⟩
    rw [hbody]
    exact List.mem_singleton_self _

end

/-! When it is found. -/

/-- The column that answers to a name compares equal to the token. -/
def Matches (info : TabbleInfo) (tokens : List Text) (name token : Text) : Prop :=
  ∃ k column raw stored desired, info.columnsMap.lookup name = some k ∧ info.columns[k]? = some column ∧
    tokens[k]? = some raw ∧ column.inserted raw = .ok stored ∧ parseValue token column.type = .ok desired ∧
    stored.eq desired = true

/-- A row is found by a column and its token: `ORDER` ends the clause before anything is
compared; otherwise no word may be a keyword, an `id` has to be that of the line, and a text
has to be stored as it is. -/
def Findable (info : TabbleInfo) (tokens : List Text) (line m : Nat) (column : Column) (token : Text) : Prop :=
  column.name = str "ORDER" ∨
    (column.name ≠ str "LIMIT" ∧ token ≠ str "LIMIT" ∧ token ≠ str "ORDER" ∧
      Optimizer.isConnective column.name = false ∧
      if Optimizer.isId column.name then Optimizer.indexValue token = .ok (.int64 (BitVec.ofNat 64 line))
      else if info.columnsMap.lookup column.name = some m then
        column.type.isText = true → token.length ≤ column.size ∧ 0 ∉ token
      else Matches info tokens column.name token)

theorem VariantTypes.eq_self {v : VariantTypes} (h : v.isNaN = false) : v.eq v = true :=
  (VariantTypes.eq_iff h h).mpr rfl

section
variable {info : TabbleInfo} {tokens : List Text} {m : Nat} {column : Column} {token : Text}

/-- By its own column a row is found unless the text is cut. -/
theorem matches_own_iff (hcolumn : info.columns[m]? = some column) (htoken : tokens[m]? = some token)
    (hlookup : info.columnsMap.lookup column.name = some m) {stored : VariantTypes}
    (hstored : column.inserted token = .ok stored)
    (hexact : column.type ≠ .double ∧ column.type ≠ .float) :
    Matches info tokens column.name token ↔
      (column.type.isText = true → token.length ≤ column.size ∧ 0 ∉ token) := by
  have hown : Matches info tokens column.name token ↔ ∃ stored desired, column.inserted token = .ok stored ∧
      parseValue token column.type = .ok desired ∧ stored.eq desired = true := by
    constructor
    · rintro ⟨k, column', raw, stored, desired, hk, hget, hraw, hins, hparse, heq⟩
      rw [hlookup] at hk
      cases hk
      rw [hcolumn] at hget
      cases hget
      rw [htoken] at hraw
      cases hraw
      exact ⟨stored, desired, hins, hparse, heq⟩
    · rintro ⟨stored, desired, hins, hparse, heq⟩
      exact ⟨m, column, token, stored, desired, hlookup, hcolumn, htoken, hins, hparse, heq⟩
  rw [hown]
  cases htext : column.type.isText with
  | true =>
      have hins : column.inserted token = .ok (.string (Bytes.cutNul (token.take column.size))) := by
        unfold Column.inserted
        rw [if_pos htext]
      have hparse : parseValue token column.type = .ok (.string token) := by
        cases htype : column.type with
        | text | string => rfl
        | _ =>
            rw [htype] at htext
            cases htext
      rw [hins, hparse]
      constructor
      · rintro ⟨stored, desired, ⟨⟩, ⟨⟩, heq⟩ -
        exact Bytes.cutNul_take_eq_iff.mp (by simpa [VariantTypes.eq] using heq)
      · intro h
        refine ⟨_, _, rfl, rfl, ?_⟩
        rw [Bytes.cutNul_take_eq_iff.mpr (h rfl)]
        exact VariantTypes.eq_self rfl
  | false =>
      have hins : column.inserted token = parseValue token column.type := by
        unfold Column.inserted
        rw [if_neg (by rw [htext]; exact Bool.false_ne_true)]
      refine iff_of_true ⟨stored, stored, hstored, hins ▸ hstored, VariantTypes.eq_self ?_⟩ fun h => by cases h
      exact VariantTypes.isNaN_of_type (parseValue_hasType (hins ▸ hstored)) hexact

end
section
variable {os : Os} {t : Tabble} {name word token search : Text}

/-- The clause that is not there. -/
def noClause (info : TabbleInfo) : Search info := ⟨none, none, fun _ h => by cases h⟩

theorem noClause_plain (info : TabbleInfo) : (noClause info).Plain := fun _ h => by cases h

theorem optimizeConditions_short (info : TabbleInfo) {w v : Text} (conditions : List Condition)
    (h : Optimizer.isConnective w = false ∨ Optimizer.isConnective v = false) :
    ∃ e, Optimizer.optimizeConditions info [w, v] conditions = .error e := by
  cases hw : Optimizer.isConnective w with
  | false =>
      unfold Optimizer.optimizeConditions
      rw [hw]
      exact ⟨_, rfl⟩
  | true =>
      have hv : Optimizer.isConnective v = false := h.resolve_left (by simp [hw])
      unfold Optimizer.optimizeConditions
      rw [hw, if_pos rfl]
      unfold Optimizer.optimizeConditions
      rw [hv]
      exact ⟨_, rfl⟩

/-- A token that is a keyword ends the clause after the operator. -/
theorem not_finds_keyword (hwords : CppText.words search = searchWords name word token)
    (hlimit : word ≠ str "LIMIT") (horder : word ≠ str "ORDER")
    (htoken : token = str "LIMIT" ∨ token = str "ORDER") : ¬ Finds os search i t := by
  have hpre : ∀ w ∈ [word, str "=="], w ≠ str "LIMIT" ∧ w ≠ str "ORDER" := by
    intro w hw
    rcases List.mem_cons.mp hw with rfl | hw
    · exact ⟨hlimit, horder⟩
    · rw [List.mem_singleton.mp hw]
      decide
  obtain ⟨limit, hafter⟩ : ∃ limit, RequestParser.selectAfter [token] = .ok (limit, []) := by
    rcases htoken with rfl | rfl
    · exact ⟨_, RequestParser.selectAfter_failed rfl⟩
    · exact ⟨_, RequestParser.selectAfter_order []⟩
  have hc := compile_search t.info hwords [word, str "=="] [token] rfl hpre
    (by rintro w ⟨⟩; exact htoken) hafter
  obtain ⟨e, herr⟩ := optimizeConditions_short t.info (w := word) [] (.inr (show Optimizer.isConnective (str "==") = false from rfl))
  rw [herr] at hc
  exact not_finds_of_error hc

section whole
variable (hwords : CppText.words search = searchWords name word token)
  (hword : word ≠ str "LIMIT" ∧ word ≠ str "ORDER") (htoken : token ≠ str "LIMIT" ∧ token ≠ str "ORDER")

include hword htoken in
theorem whole_unended : ∀ w ∈ [word, str "==", token], w ≠ str "LIMIT" ∧ w ≠ str "ORDER" := by
  intro w hw
  rcases List.mem_cons.mp hw with rfl | hw
  · exact hword
  · rcases List.mem_cons.mp hw with rfl | hw
    · decide
    · rw [List.mem_singleton.mp hw]
      exact htoken

include hwords hword htoken

theorem compile_whole (info : TabbleInfo) : compile info search =
    (Optimizer.optimizeConditions info [word, str "==", token] []).map fun conditions =>
      .select { tabbleName := name, rawConditions := [word, str "==", token], limit := sizeMax,
                columnsRaw := [str "*"], conditions,
                columnsOptimized := List.range info.columns.length } := by
  exact compile_search info hwords _ [] (List.append_nil _).symm (whole_unended hword htoken) (by rintro w ⟨⟩) rfl

/-- `AND == …` is a connective with two words behind it. -/
theorem not_finds_connective (hconn : Optimizer.isConnective word = true) : ¬ Finds os search i t := by
  have hc := compile_whole hwords hword htoken t.info
  obtain ⟨e, herr⟩ := optimizeConditions_short t.info (v := token) [Optimizer.connective word]
    (.inl (show Optimizer.isConnective (str "==") = false from rfl))
  have hall : Optimizer.optimizeConditions t.info [word, str "==", token] [] = .error e := by
    unfold Optimizer.optimizeConditions
    rw [if_pos hconn]
    exact herr
  rw [hall] at hc
  exact not_finds_of_error hc

end whole
end

/-! A clause of one term. -/

theorem optimizeConditions_one {info : TabbleInfo} {word : Text} (hid : Optimizer.isId word = false)
    (hconn : Optimizer.isConnective word = false) (oper token : Text) :
    Optimizer.optimizeConditions info [word, oper, token] [] =
      (Optimizer.columnCondition info word oper token).map fun c => [c] := by
  rw [Optimizer.optimizeConditions_term hconn]
  unfold Optimizer.optimizeTerm
  rw [if_neg (by rw [hid]; exact Bool.false_ne_true)]
  cases Optimizer.columnCondition info word oper token with
  | error e => rfl
  | ok c => rfl

/-- A comparison is refused, or it is a term of a clause. -/
theorem columnCondition_cases (info : TabbleInfo) {word : Text} (hid : Optimizer.isId word = false)
    (hconn : Optimizer.isConnective word = false) (token : Text) :
    (∃ e, Optimizer.columnCondition info word (str "==") token = .error e) ∨
      ∃ term : ColumnTerm info, term.oper = .equal ∧ term.name = word ∧ term.literal = token := by
  unfold Optimizer.columnCondition
  cases hlookup : info.columnsMap.lookup word with
  | none => exact .inl ⟨_, rfl⟩
  | some k =>
      dsimp only
      cases hcolumn : info.columns[k]? with
      | none => exact .inl ⟨_, rfl⟩
      | some column =>
          dsimp only
          cases hparse : parseValue token column.type with
          | error e => exact .inl ⟨e, rfl⟩
          | ok desired =>
              exact .inr ⟨⟨word, .equal, token, k, column, desired, hlookup, hcolumn, hparse, hid, hconn⟩,
                rfl, rfl, rfl⟩

theorem Matches.columnCondition {info : TabbleInfo} {tokens : List Text} {word token : Text}
    (h : Matches info tokens word token) :
    ∃ c, Optimizer.columnCondition info word (str "==") token = .ok c := by
  obtain ⟨k, column, raw, stored, desired, hlookup, hcolumn, -, -, hparse, -⟩ := h
  unfold Optimizer.columnCondition
  rw [hlookup]
  dsimp only
  rw [hcolumn]
  dsimp only
  rw [hparse]
  exact ⟨_, rfl⟩

section
variable {os : Os} {t : Tabble} {name word token search : Text}
variable (hs : Served t.info t) (hreg : t.info.Regular) {i : Nat} (hactive : t.active i = true)
include hs hreg hactive

/-- `WHERE ORDER` has no clause and no order: the statement answers with all rows. -/
theorem finds_order (hwords : CppText.words search = searchWords name (str "ORDER") token) :
    Finds os search i t := by
  have hc := compile_search t.info hwords [] _ rfl (List.forall_mem_nil _)
    (by rintro w ⟨⟩; exact .inr rfl) (RequestParser.selectAfter_order [str "==", token])
  have hlt := Tabble.active_lt_maxLines hactive
  have hmost := hs.sound.maxLines_le
  refine (finds_plain_iff hs hreg (noClause_plain t.info) hc rfl rfl rfl hlt).mpr ?_
  refine (mem_upTo ?_).mpr ⟨hactive, rfl⟩
  change t.maxLines ≤ 2 ^ 64 - 1
  omega

/-- `WHERE LIMIT` has no clause either, and `==` is no number: the limit is 0. -/
theorem not_finds_limit (hwords : CppText.words search = searchWords name (str "LIMIT") token) :
    ¬ Finds os search i t := by
  have hc := compile_search t.info hwords [] _ rfl (List.forall_mem_nil _)
    (by rintro w ⟨⟩; exact .inl rfl) (RequestParser.selectAfter_failed rfl)
  have hlt := Tabble.active_lt_maxLines hactive
  rw [finds_plain_iff hs hreg (noClause_plain t.info) hc rfl rfl rfl hlt]
  exact List.not_mem_nil

section whole
variable (hwords : CppText.words search = searchWords name word token)
  (hword : word ≠ str "LIMIT" ∧ word ≠ str "ORDER") (htoken : token ≠ str "LIMIT" ∧ token ≠ str "ORDER")
include hwords hword htoken

/-- `id == …` reads the line with this number. -/
theorem finds_id_iff (hid : Optimizer.isId word = true) :
    Finds os search i t ↔ Optimizer.indexValue token = .ok (.int64 (BitVec.ofNat 64 i)) := by
  have hc := compile_whole hwords hword htoken t.info
  have hlt := Tabble.active_lt_maxLines hactive
  have hmost := hs.sound.maxLines_le
  have hconditions : Optimizer.optimizeConditions t.info [word, str "==", token] [] =
      (Optimizer.indexValue token).map fun v => [⟨.directIndex, 0, v⟩] := by
    rw [Optimizer.optimizeConditions_term (not_connective_of_id hid)]
    unfold Optimizer.optimizeTerm
    rw [if_pos hid]
    cases Optimizer.indexValue token with
    | error e => rfl
    | ok v => rfl
  rw [hconditions] at hc
  cases hvalue : Optimizer.indexValue token with
  | error e =>
      rw [hvalue] at hc
      refine iff_of_false (not_finds_of_error hc) fun h => ?_
      cases h
  | ok v =>
      rw [hvalue] at hc
      obtain ⟨n, -, rfl⟩ := Except_map_ok hvalue
      rw [finds_lookup_iff hs hreg hc rfl rfl hlt]
      constructor
      · rintro rfl
        rw [BitVec.ofNat_toNat, BitVec.setWidth_eq]
      · intro h
        rw [VariantTypes.int64.inj (Except.ok.inj h), BitVec.toNat_ofNat, Nat.mod_eq_of_lt (by omega)]

/-- A word that names no special column is looked for among the columns. -/
theorem finds_column_iff (hid : Optimizer.isId word = false) (hconn : Optimizer.isConnective word = false)
    {tokens : List Text} (hlen : tokens.length = t.info.columns.length)
    (hcells : ∀ (k : Nat) column raw, t.info.columns[k]? = some column → tokens[k]? = some raw →
      column.inserted raw = .ok (t.cell i column)) :
    Finds os search i t ↔ Matches t.info tokens word token := by
  have hc := compile_whole hwords hword htoken t.info
  have hlt := Tabble.active_lt_maxLines hactive
  have hmost := hs.sound.maxLines_le
  rcases columnCondition_cases t.info hid hconn token with ⟨e, herr⟩ | ⟨term, hoper, rfl, rfl⟩
  · rw [optimizeConditions_one hid hconn, herr] at hc
    refine iff_of_false (not_finds_of_error hc) fun hmatches => ?_
    obtain ⟨c, hok⟩ := hmatches.columnCondition
    rw [herr] at hok
    cases hok
  · have htokens : (⟨.column term, []⟩ : Clause t.info).tokens = [term.name, str "==", term.literal] := by
      change [term.name, term.oper.token, term.literal] = _
      rw [hoper]
      rfl
    have hunended : ∀ c ∈ some (⟨.column term, []⟩ : Clause t.info), ∀ w ∈ c.tokens,
        w ≠ str "LIMIT" ∧ w ≠ str "ORDER" := by
      rintro c ⟨⟩ w hw
      rw [htokens] at hw
      exact whole_unended hword htoken w hw
    have hplain : (⟨some ⟨.column term, []⟩, none, hunended⟩ : Search t.info).Plain := by
      rintro clause ⟨⟩
      exact ⟨rfl, List.forall_mem_nil _⟩
    have hcompiled := Search.optimize _ hplain.accepted
    change Optimizer.optimizeConditions t.info (⟨.column term, []⟩ : Clause t.info).tokens [] = _ at hcompiled
    rw [htokens] at hcompiled
    rw [hcompiled] at hc
    rw [finds_plain_iff hs hreg hplain hc rfl rfl rfl hlt, mem_upTo (by change _ ≤ 2 ^ 64 - 1; omega)]
    have hholds : (⟨some ⟨.column term, []⟩, none, hunended⟩ : Search t.info).holds t i =
        (t.cell i term.column).eq term.desired := by
      change term.oper.test _ _ = _
      rw [hoper]
      rfl
    rw [hholds, and_iff_right hactive]
    obtain ⟨raw, hraw⟩ : ∃ raw, tokens[term.columnId]? = some raw :=
      ⟨_, List.getElem?_eq_getElem (hlen ▸ hreg.toLayout.lookup_lt term.lookup)⟩
    have hcell := hcells _ _ _ term.get hraw
    constructor
    · intro heq
      exact ⟨_, _, raw, _, _, term.lookup, term.get, hraw, hcell, term.parses, heq⟩
    · rintro ⟨k, column, raw', stored, desired, hlookup, hcolumn, hraw', hins, hparse, heq⟩
      rw [term.lookup] at hlookup
      cases hlookup
      rw [term.get] at hcolumn
      cases hcolumn
      rw [term.parses] at hparse
      cases hparse
      rw [hcells _ _ _ term.get hraw'] at hins
      cases hins
      exact heq

end whole
end

section
variable {os : Os} {schema : TabbleInfo} {t : Tabble} {name insertion search token : Text} {tokens : List Text}
  {s : Execution} {m : Nat} {column : Column}

/-- An inserted row is found by a column that is not FLOAT or DOUBLE and its token just when the
token is findable. -/
theorem inserted_found_iff (hreg : schema.Regular) (h : Reach Orderly os schema t)
    (hidle : t.storage.expanding = false)
    (hinsert : CppText.words insertion = str "INSERT" :: str "INTO" :: name :: tokens)
    (hlen : tokens.length = schema.columns.length) (hrun : request os insertion t = .ok () s)
    (hgrown : s.table.storage.expanding = false) (hcolumn : schema.columns[m]? = some column)
    (htoken : tokens[m]? = some token) (hexact : column.type ≠ .double ∧ column.type ≠ .float)
    (hsearch : CppText.words search = searchWords name column.name token) :
    s.result.body = [Executor.idRow t.nextLine] ∧
      (Finds os search t.nextLine s.table ↔ Findable schema tokens t.nextLine m column token) := by
  obtain ⟨hreach, hbody, hactive, hcells⟩ := inserted_stored hreg h hidle hinsert hlen hrun hgrown
  refine ⟨hbody, ?_⟩
  have hs := hreach.served hreg hgrown
  generalize s.table = t' at *
  obtain rfl := hs.info
  by_cases horder : column.name = str "ORDER"
  · rw [horder] at hsearch
    exact iff_of_true (finds_order hs hreg hactive hsearch) (.inl horder)
  unfold Findable
  rw [or_iff_right horder]
  by_cases hlimit : column.name = str "LIMIT"
  · rw [hlimit] at hsearch
    exact iff_of_false (not_finds_limit hs hreg hactive hsearch) fun h => h.1 hlimit
  by_cases hkeyword : token = str "LIMIT" ∨ token = str "ORDER"
  · refine iff_of_false (not_finds_keyword hsearch hlimit horder hkeyword) ?_
    rintro ⟨-, hl, ho, -⟩
    exact hkeyword.elim hl ho
  obtain ⟨hl, ho⟩ := not_or.mp hkeyword
  cases hconn : Optimizer.isConnective column.name with
  | true =>
      refine iff_of_false (not_finds_connective hsearch ⟨hlimit, horder⟩ ⟨hl, ho⟩ hconn) ?_
      rintro ⟨-, -, -, hnot, -⟩
      cases hnot
  | false =>
      rw [and_iff_right hlimit, and_iff_right hl, and_iff_right ho, and_iff_right rfl]
      cases hid : Optimizer.isId column.name with
      | true =>
          rw [if_pos rfl]
          exact finds_id_iff hs hreg hactive hsearch ⟨hlimit, horder⟩ ⟨hl, ho⟩ hid
      | false =>
          rw [if_neg Bool.false_ne_true,
            finds_column_iff hs hreg hactive hsearch ⟨hlimit, horder⟩ ⟨hl, ho⟩ hid hconn hlen hcells]
          by_cases hown : t'.info.columnsMap.lookup column.name = some m
          · rw [if_pos hown]
            exact matches_own_iff hcolumn htoken hown (hcells m column token hcolumn htoken) hexact
          · rw [if_neg hown]

end

/-! A text that fits its column, and one that does not. -/

theorem textsOpened_reach : Reach Orderly .reliable Tabble.textsInfo textsOpened :=
  .start (show Tabble.openFile .reliable Tabble.textsInfo .empty 0 = .ok () textsOpened from
    eq_ok_of_isOk (by decide +kernel))

theorem inserted_found_iff_sample : Finds .reliable (str "SELECT * FROM t WHERE a == pq") 0
    (answered textsOpened "INSERT INTO t pq rstu") := by
  obtain ⟨⟨⟩, s, hrun⟩ := exists_of_isOk
    (show isOk (request .reliable (str "INSERT INTO t pq rstu") textsOpened) = true by decide +kernel)
  have hs : answered textsOpened "INSERT INTO t pq rstu" = s.table := by
    unfold answered
    rw [hrun]
    rfl
  have hgrown : (answered textsOpened "INSERT INTO t pq rstu").storage.expanding = false := by decide +kernel
  have hnext : textsOpened.nextLine = 0 := by decide +kernel
  have hfindable : Findable Tabble.textsInfo [str "pq", str "rstu"] 0 0 ⟨str "a", 1, .string, 3⟩ (str "pq") := by
    unfold Findable
    rw [if_neg (by decide +kernel), if_pos (by decide +kernel)]
    decide +kernel
  rw [hs] at hgrown ⊢
  have hinsert : CppText.words (str "INSERT INTO t pq rstu") =
      str "INSERT" :: str "INTO" :: str "t" :: [str "pq", str "rstu"] := by decide +kernel
  have hsearch : CppText.words (str "SELECT * FROM t WHERE a == pq") =
      searchWords (str "t") (str "a") (str "pq") := by decide +kernel
  have hcolumn : Tabble.textsInfo.columns[0]? = some ⟨str "a", 1, .string, 3⟩ := rfl
  obtain ⟨-, hfound⟩ := inserted_found_iff textsInfo_regular textsOpened_reach (by decide +kernel) hinsert rfl
    hrun hgrown hcolumn rfl (by decide) hsearch
  rw [hnext] at hfound
  exact hfound.mpr hfindable

/-- `INSERT INTO t abcd x` and `SELECT * FROM t WHERE a == abcd`, for a column of three bytes. -/
theorem cut_text_not_found : ¬ ∀ (os : Os) (schema : TabbleInfo) (t : Tabble) (name insertion search token : Text)
    (tokens : List Text) (s : Execution) (m : Nat) (column : Column), schema.Regular →
    Reach Orderly os schema t → t.storage.expanding = false →
    CppText.words insertion = str "INSERT" :: str "INTO" :: name :: tokens →
    tokens.length = schema.columns.length → request os insertion t = .ok () s →
    s.table.storage.expanding = false → schema.columns[m]? = some column → tokens[m]? = some token →
    column.type ≠ .double ∧ column.type ≠ .float →
    CppText.words search = searchWords name column.name token → Finds os search t.nextLine s.table := by
  intro h
  obtain ⟨⟨⟩, s, hrun⟩ := exists_of_isOk
    (show isOk (request .reliable (str "INSERT INTO t abcd x") textsOpened) = true by decide +kernel)
  have hs : answered textsOpened "INSERT INTO t abcd x" = s.table := by
    unfold answered
    rw [hrun]
    rfl
  have hgrown : (answered textsOpened "INSERT INTO t abcd x").storage.expanding = false := by decide +kernel
  have hnone : (finalState (request .reliable (str "SELECT * FROM t WHERE a == abcd")
      (answered textsOpened "INSERT INTO t abcd x"))).result.body = [] := by decide +kernel
  rw [hs] at hgrown hnone
  obtain ⟨s', hfound, hmem⟩ := h .reliable Tabble.textsInfo textsOpened (str "t") (str "INSERT INTO t abcd x")
    (str "SELECT * FROM t WHERE a == abcd") (str "abcd") [str "abcd", str "x"] s 0 ⟨str "a", 1, .string, 3⟩
    textsInfo_regular textsOpened_reach (by decide +kernel) (by decide +kernel) rfl hrun hgrown rfl rfl
    (by decide) (by decide +kernel)
  rw [hfound] at hnone
  have hbody : s'.result.body = [] := hnone
  rw [hbody] at hmem
  cases hmem

end SQLid
