import SQLid.DataBase
import SQLid.RowMap

/-!
# What is reported

The two exceptions a client is told of come from the parser and the optimizer only:
nothing the executor calls raises them, so that a request reported as failed has not
reached the table.
-/
namespace SQLid
open Bytes (Text)
open CppText (str)
open Programs

/-- No fault is one of the two that are reported. -/
abbrev Unreported {σ α : Type} (x : EStateM Fault σ α) : Prop :=
  Triple (fun _ => True) x (fun _ _ => True) (fun e _ => e.isReported = false)

/-- The same of a computation without a state. -/
def Mute {α : Type} (x : Except Fault α) : Prop := ∀ e, x = .error e → e.isReported = false

section rules
variable {σ τ α β : Type}

theorem Mute.ok (a : α) : Mute (.ok a) := fun _ h => by cases h

theorem Mute.error {e : Fault} (h : e.isReported = false) : Mute (.error e : Except Fault α) := by
  intro e' he
  cases he
  exact h

theorem Mute.bind {x : Except Fault α} {f : α → Except Fault β} (hx : Mute x)
    (hf : ∀ a, Mute (f a)) : Mute (x >>= f) := by
  intro e h
  cases x with
  | ok a => exact hf a e h
  | error e' =>
      cases h
      exact hx e rfl

theorem Mute.unreported {x : Except Fault α} (h : Mute x) :
    Unreported (Programs.ofExcept x : EStateM Fault σ α) :=
  triple_ofExcept (fun _ _ _ _ => trivial) fun e _ he _ => h e he

theorem unreported_pure (a : α) : Unreported (pure a : EStateM Fault σ α) :=
  triple_pure fun _ _ => trivial

theorem unreported_throw {e : Fault} (h : e.isReported = false) :
    Unreported (throw e : EStateM Fault σ α) := triple_throw fun _ _ => h

theorem unreported_modify (f : σ → σ) : Unreported (modify f : EStateM Fault σ PUnit) :=
  triple_modify fun _ _ => trivial

theorem unreported_get {f : σ → EStateM Fault σ β} (h : ∀ s, Unreported (f s)) :
    Unreported (get >>= f) := triple_get fun s _ => h s

theorem unreported_bind {x : EStateM Fault σ α} {f : α → EStateM Fault σ β} (hx : Unreported x)
    (hf : ∀ a, Unreported (f a)) : Unreported (x >>= f) := hx.bind hf

theorem unreported_ite {c : Prop} [Decidable c] {x y : EStateM Fault σ α} (hx : Unreported x)
    (hy : Unreported y) : Unreported (if c then x else y) := triple_ite (fun _ => hx) fun _ => hy

/-- A guard in front of the rest. -/
theorem unreported_guard {c : Prop} [Decidable c] {e : Fault} (he : e.isReported = false)
    {f : α → EStateM Fault σ β} {y : EStateM Fault σ β} (hy : Unreported y) :
    Unreported (if c then throw e >>= f else y) :=
  unreported_ite (fun _ _ => .error he) hy

/-- A step that is made or not in front of the rest. -/
theorem unreported_step {c : Prop} [Decidable c] {x : EStateM Fault σ α} (hx : Unreported x)
    {y : EStateM Fault σ β} (hy : Unreported y) :
    Unreported (if c then x >>= fun _ => y else y) := unreported_ite (hx.bind fun _ => hy) hy

theorem unreported_zoom {get : σ → τ} {set : σ → τ → σ} {x : EStateM Fault τ α}
    (h : Unreported x) : Unreported (zoom get set x) :=
  triple_zoom fun s _ => (h (get s) trivial).mono (fun _ _ _ => trivial) fun _ _ h => h

end rules

/-! The storage. -/

namespace MemoryMapLinux

theorem mute_load (m : MemoryMapLinux) (addr n : Nat) : Mute (m.load addr n) := by
  unfold load
  split_ifs
  · exact .ok _
  · exact .error rfl

theorem mute_loadText (m : MemoryMapLinux) (n addr : Nat) : Mute (m.loadText addr n) := by
  induction n generalizing addr with
  | zero => exact .ok _
  | succ n ih =>
      refine (mute_load m addr 1).bind fun bs => ?_
      split
      · exact .ok _
      · exact .ok _
      · exact (ih _).bind fun _ => .ok _

theorem mute_readText (m : MemoryMapLinux) (lineNumber offset size : Nat) :
    Mute (m.readText lineNumber offset size) := by
  unfold readText
  split
  · split_ifs
    · exact .ok _
    · exact .error rfl
  · split_ifs
    · exact .ok _
    · exact mute_loadText m size _

theorem mute_readNumber (m : MemoryMapLinux) (lineNumber offset size : Nat) :
    Mute (m.readNumber lineNumber offset size) := by
  unfold readNumber
  split
  · exact .error rfl
  · exact mute_load m _ size

theorem unreported_store (dst : Option Nat) (bs : Text) : Unreported (store dst bs) := by
  refine unreported_get fun m => ?_
  cases dst with
  | none => exact unreported_ite (unreported_pure _) (unreported_throw rfl)
  | some addr =>
      refine unreported_ite (unreported_pure _) (unreported_ite ?_ (unreported_throw rfl))
      exact unreported_modify _

theorem unreported_writeBytes (tooLong : Text) (lineNumber offset : Nat) (value : Text) :
    Unreported (writeBytes tooLong lineNumber offset value) := by
  exact unreported_get fun m => unreported_guard rfl (unreported_store _ value)

theorem unreported_expandFile (os : Os) : Unreported (expandFile os) := by
  refine unreported_bind (unreported_modify _) fun _ => unreported_get fun m => ?_
  have htruncate (n : Nat) : Unreported (ftruncateTo os n) :=
    unreported_get fun m => unreported_ite (unreported_modify _) (unreported_throw rfl)
  have hmap (n : Nat) : Unreported (mmapBytes os n) := by
    refine unreported_get fun m => ?_
    cases os.mmap m.calls n with
    | some addr => exact unreported_modify _
    | none => exact unreported_bind (unreported_modify _) fun _ => unreported_throw rfl
  exact unreported_bind (htruncate _) fun _ => unreported_bind (hmap _) fun _ => unreported_modify _

end MemoryMapLinux

namespace MemoryMap

theorem unreported_expand (os : Os) (writer : Option Nat) : Unreported (expand os writer) := by
  refine unreported_bind (unreported_modify _) fun _ => unreported_get fun m => ?_
  refine unreported_guard rfl (unreported_bind (unreported_modify _) fun _ => ?_)
  exact unreported_bind (unreported_zoom (MemoryMapLinux.unreported_expandFile os)) fun _ =>
    unreported_modify _

theorem unreported_write (os : Os) (c : Call) (lineNumber : Nat)
    {put : EStateM Fault MemoryMapLinux Unit} (hput : Unreported put) :
    Unreported (write os c lineNumber put) := by
  refine unreported_bind (unreported_modify _) fun _ => unreported_get fun m => ?_
  exact unreported_step (unreported_expand os _) (unreported_zoom hput)

theorem unreported_writeInfo (os : Os) (lineNumber offset : Nat) (value : VariantTypes) :
    Unreported (writeInfo os lineNumber offset value) := by
  cases value with
  | string s => exact unreported_write os _ _ (MemoryMapLinux.unreported_writeBytes _ _ _ _)
  | _ => exact unreported_write os _ _ (MemoryMapLinux.unreported_writeBytes _ _ _ _)

theorem unreported_writeFlag (c : Call) (lineNumber : Nat) (b : Bool) :
    Unreported (writeFlag c lineNumber b) :=
  unreported_bind (unreported_modify _) fun _ =>
    unreported_zoom (MemoryMapLinux.unreported_writeBytes _ _ _ _)

theorem unreported_isActive (lineNumber : Nat) : Unreported (isActive lineNumber) := by
  refine unreported_bind (unreported_modify _) fun _ => unreported_get fun m => ?_
  exact unreported_bind (MemoryMapLinux.mute_readNumber _ _ _ _).unreported fun _ => unreported_pure _

theorem unreported_readNumber (lineNumber offset size : Nat) :
    Unreported (readNumber lineNumber offset size) :=
  unreported_bind (unreported_modify _) fun _ => unreported_get fun _ =>
    (MemoryMapLinux.mute_readNumber _ _ _ _).unreported

theorem unreported_readText (lineNumber offset size : Nat) :
    Unreported (readText lineNumber offset size) :=
  unreported_bind (unreported_modify _) fun _ => unreported_get fun _ =>
    (MemoryMapLinux.mute_readText _ _ _ _).unreported

end MemoryMap

/-! The table. -/

namespace Tabble

theorem unreported_allocateId (os : Os) : Unreported (allocateId os) := by
  refine unreported_get fun t => ?_
  cases t.stackFreeId with
  | cons id rest => exact unreported_bind (unreported_modify _) fun _ => unreported_pure _
  | nil =>
      refine unreported_step (unreported_zoom (MemoryMap.unreported_expand os none)) ?_
      exact unreported_bind (unreported_modify _) fun _ =>
        unreported_bind (unreported_modify _) fun _ => unreported_pure _

theorem unreported_updateFrom (os : Os) (values : List VariantTypes) (cur : Nat)
    (columns : List Column) (i : Nat) : Unreported (updateFrom os values cur i columns) := by
  induction columns generalizing i with
  | nil => exact unreported_pure _
  | cons column columns ih =>
      unfold updateFrom
      cases values[i]? with
      | none => exact unreported_throw rfl
      | some value =>
          exact unreported_bind (unreported_zoom (MemoryMap.unreported_writeInfo os _ _ _)) fun _ => ih _

theorem unreported_update (os : Os) (values : List VariantTypes) (columns : List Column)
    (cur index : Nat) : Unreported (update os values columns cur index) :=
  unreported_bind (unreported_modify _) fun _ => unreported_updateFrom os values cur columns index

theorem unreported_insert (os : Os) (values : List VariantTypes) (columns : List Column)
    (index : Nat) : Unreported (insert os values columns index) := by
  refine unreported_bind (unreported_allocateId os) fun cur => unreported_bind (unreported_modify _) fun _ => ?_
  refine unreported_bind (unreported_zoom (MemoryMap.unreported_writeFlag _ _ _)) fun _ => ?_
  exact unreported_bind (unreported_update os values columns cur index) fun _ =>
    unreported_bind (unreported_modify _) fun _ => unreported_pure _

theorem unreported_erase (line : Nat) : Unreported (erase line) := by
  refine unreported_bind (unreported_modify _) fun _ => ?_
  refine unreported_bind (unreported_zoom (MemoryMap.unreported_writeFlag _ _ _)) fun _ => ?_
  exact unreported_bind (unreported_modify _) fun _ =>
    unreported_bind (unreported_modify _) fun _ => unreported_pure _

theorem mute_numberOfBytes (bs : Text) (type : ColumnType) : Mute (numberOfBytes bs type) := by
  cases type with
  | voida | text | string => exact .error rfl
  | _ => exact .ok _

theorem unreported_readColumn (line : Nat) (column : Column) : Unreported (readColumn line column) := by
  unfold readColumn
  refine unreported_ite ?_ ?_
  · refine triple_map ?_
    exact unreported_ite (unreported_zoom (MemoryMap.unreported_readText _ _ _))
      (unreported_zoom (MemoryMap.unreported_readText _ _ _))
  · have hread (type : ColumnType) : Unreported (do
        let bs ← onStorage (MemoryMap.readNumber line column.offset (typeSizes type))
        Programs.ofExcept (numberOfBytes bs type) : EStateM Fault Tabble VariantTypes) :=
      unreported_bind (unreported_zoom (MemoryMap.unreported_readNumber _ _ _)) fun bs =>
        (mute_numberOfBytes bs type).unreported
    unfold readNumber
    cases column.type with
    | voida | text | string => exact unreported_throw rfl
    | _ => exact hread _

end Tabble

/-! The executor. -/

theorem VariantTypes.mute_getInt64 (v : VariantTypes) : Mute v.getInt64 := by
  cases v with
  | int64 n => exact .ok n
  | _ => exact .error rfl

theorem Condition.mute_result (c : Condition) (value : VariantTypes) : Mute (c.result value) := by
  have hbool (v : VariantTypes) : Mute v.getBool := by
    cases v with
    | bool b => exact .ok b
    | _ => exact .error rfl
  unfold result
  cases c.condType with
  | equal | notEqual | greater | less => exact .ok _
  | and =>
      refine (hbool value).bind fun b => ?_
      split_ifs
      · exact hbool _
      · exact .ok _
  | or =>
      refine (hbool value).bind fun b => ?_
      split_ifs
      · exact .ok _
      · exact hbool _
  | _ => exact .error rfl

namespace Executor

theorem unreported_onTable {α : Type} {x : EStateM Fault Tabble α} (h : Unreported x) :
    Unreported (onTable x) := unreported_zoom h

theorem unreported_onResult (f : Result → Result) : Unreported (onResult f) := unreported_modify _

theorem unreported_satisfiesFrom (line : Nat) (columns : List Column) (conds : List Condition)
    (current : Bool) (logic : ConditionType) :
    Unreported (satisfiesFrom line columns current logic conds) := by
  induction conds generalizing current logic with
  | nil => exact unreported_pure _
  | cons cond conds ih =>
      unfold satisfiesFrom
      refine unreported_ite (ih _ _) ?_
      cases columns[cond.collumnId]? with
      | none => exact unreported_throw rfl
      | some column =>
          refine unreported_bind (Tabble.unreported_readColumn line column) fun value => ?_
          exact unreported_bind (cond.mute_result value).unreported fun met => ih _ _

theorem unreported_readRecord (line : Nat) (columnIds : List Nat) (columns : List Column) :
    Unreported (readRecord line columnIds columns) := by
  have hcolumns : Unreported (readColumns line columns columnIds) := by
    induction columnIds with
    | nil => exact unreported_pure _
    | cons id ids ih =>
        unfold readColumns
        cases columns[id]? with
        | none => exact unreported_throw rfl
        | some column =>
            exact unreported_bind (Tabble.unreported_readColumn line column) fun value =>
              unreported_bind ih fun _ => unreported_pure _
  exact unreported_bind hcolumns fun _ => unreported_pure _

theorem unreported_scanLines (conditions : List Condition) (columns : List Column) (count : Nat)
    {act : Nat → EStateM Fault Execution Unit} (hact : ∀ line, Unreported (act line)) (n i : Nat) :
    Unreported (scanLines conditions columns count act n i) := by
  have hselects (line : Nat) : Unreported (selects conditions columns line) := by
    refine unreported_bind (unreported_zoom (MemoryMap.unreported_isActive line)) fun b => ?_
    refine unreported_ite (unreported_ite (unreported_pure _) ?_) (unreported_pure _)
    exact unreported_satisfiesFrom line columns conditions _ _
  induction n generalizing i with
  | zero => exact unreported_pure _
  | succ n ih =>
      unfold scanLines at ih ⊢
      unfold Scan.loop
      refine unreported_get fun s => unreported_ite ?_ (unreported_pure _)
      exact unreported_bind (unreported_onTable (hselects i)) fun b => unreported_step (hact i) (ih _)

theorem unreported_window (limit : Nat) {f : Nat → EStateM Fault Execution Unit}
    (hf : ∀ count, Unreported (f count)) : Unreported (do
      let count ← activeCount limit
      reserveBody count
      f count) :=
  unreported_bind (unreported_get fun _ => unreported_pure _) fun count =>
    unreported_bind (unreported_ite (unreported_throw rfl) (unreported_pure _)) fun _ => hf count

theorem mute_columnHeader (columns : List Column) (ids : List Nat) : Mute (columnHeader columns ids) := by
  induction ids with
  | nil => exact .ok _
  | cons id ids ih =>
      unfold columnHeader
      cases columns[id]? with
      | none => exact .error rfl
      | some column => exact ih.bind fun _ => .ok _

theorem mute_columnsAt (columns : List Column) (ids : List Nat) : Mute (columnsAt columns ids) := by
  induction ids with
  | nil => exact .ok _
  | cons id ids ih =>
      unfold columnsAt
      cases columns[id]? with
      | none => exact .error rfl
      | some column => exact ih.bind fun _ => .ok _

theorem mute_stripSelect (conds : List Condition) (i maxLine : Nat) :
    Mute (stripSelect i maxLine conds) := by
  induction conds generalizing i maxLine with
  | nil => exact .ok _
  | cons cond conds ih =>
      unfold stripSelect
      cases cond.condType with
      | toIndex => exact cond.desired.mute_getInt64.bind fun _ => ih _ _
      | fromIndex => exact cond.desired.mute_getInt64.bind fun _ => ih _ _
      | logicalAnd | logicalOr => exact ih _ _
      | _ => exact .ok _

theorem mute_upperBound (conds : List Condition) (maxLine : Nat) : Mute (upperBound maxLine conds) := by
  induction conds generalizing maxLine with
  | nil => exact .ok _
  | cons cond conds ih =>
      unfold upperBound
      cases cond.condType with
      | toIndex => exact cond.desired.mute_getInt64.bind fun _ => ih _
      | fromIndex => exact cond.desired.mute_getInt64.bind fun _ => ih _
      | _ => exact .ok _

theorem unreported_executeSelect (query : SelectQuery) : Unreported (executeSelect query) := by
  refine unreported_bind (unreported_onResult _) fun _ => unreported_get fun s => ?_
  refine unreported_bind (mute_columnHeader _ _).unreported fun header => ?_
  refine unreported_bind (unreported_onResult _) fun _ => ?_
  cases directIndex query.conditions with
  | some desired =>
      refine unreported_bind desired.mute_getInt64.unreported fun line => ?_
      exact unreported_bind (unreported_onTable (unreported_readRecord _ _ _)) fun _ => unreported_onResult _
  | none =>
      refine unreported_get fun s => unreported_bind (mute_stripSelect _ _ _).unreported fun found => ?_
      refine unreported_window query.limit fun count => ?_
      refine unreported_bind (unreported_scanLines _ _ count (fun line => ?_) _ _) fun _ => ?_
      · exact unreported_bind (unreported_onTable (unreported_readRecord _ _ _)) fun _ =>
          unreported_onResult _
      · exact unreported_ite (unreported_onResult _) (unreported_pure _)

theorem unreported_insertFrom (os : Os) (values : List VariantTypes) (columns : List Column) (n i : Nat) :
    Unreported (insertFrom os values columns n i) := by
  induction n generalizing i with
  | zero => exact unreported_pure _
  | succ n ih =>
      refine unreported_ite ?_ (unreported_pure _)
      refine unreported_bind (unreported_onTable (Tabble.unreported_insert os _ _ _)) fun line => ?_
      exact unreported_bind (unreported_onResult _) fun _ => ih _

theorem unreported_executeInsert (os : Os) (query : InsertQuery) : Unreported (executeInsert os query) := by
  refine unreported_bind (unreported_onResult _) fun _ => unreported_get fun s => ?_
  have htry : Unreported (do
      insertFrom os query.values s.table.info.columns query.values.length 0
      onResult fun r => { r with messeage := str "Inserted", isSucces := true }) :=
    unreported_bind (unreported_insertFrom os _ _ _ _) fun _ => unreported_onResult _
  refine triple_tryCatch htry fun e => ?_
  exact triple_ite (fun _ => (unreported_onResult _).conseq (fun _ _ => trivial) (fun _ _ h => h)
    fun _ _ h => h) fun _ => triple_throw fun _ h => h

theorem unreported_executeDelete (query : DeleteQuery) : Unreported (executeDelete query) := by
  refine unreported_bind (unreported_onResult _) fun _ => unreported_get fun s => ?_
  have herase (line : Nat) : Unreported (onTable (Tabble.erase line)) :=
    unreported_onTable (Tabble.unreported_erase line)
  cases directIndex query.conditions with
  | some desired =>
      refine unreported_bind desired.mute_getInt64.unreported fun line => ?_
      refine unreported_bind (unreported_onTable (unreported_zoom (MemoryMap.unreported_isActive _))) fun b => ?_
      refine unreported_ite (unreported_bind (herase _) fun _ => ?_) (unreported_onResult _)
      exact unreported_bind (unreported_onResult _) fun _ => unreported_onResult _
  | none =>
      refine unreported_get fun s => unreported_bind (mute_upperBound _ _).unreported fun maxLine => ?_
      refine unreported_window query.limit fun count => ?_
      refine unreported_bind (unreported_scanLines _ _ count (fun line => ?_) _ _) fun _ =>
        unreported_onResult _
      exact unreported_bind (herase line) fun _ => unreported_onResult _

theorem unreported_executeUpdate (os : Os) (query : UpdateQuery) : Unreported (executeUpdate os query) := by
  refine unreported_bind (unreported_onResult _) fun _ => unreported_get fun s => ?_
  refine unreported_bind (mute_columnsAt _ _).unreported fun columns => ?_
  have hupdate (line : Nat) : Unreported (onTable (Tabble.update os query.values columns line 0)) :=
    unreported_onTable (Tabble.unreported_update os _ _ _ _)
  cases directIndex query.conditions with
  | some desired =>
      refine unreported_bind desired.mute_getInt64.unreported fun line => ?_
      refine unreported_bind (unreported_onTable (unreported_zoom (MemoryMap.unreported_isActive _))) fun b => ?_
      refine unreported_ite (unreported_bind (hupdate _) fun _ => ?_) (unreported_pure _)
      exact unreported_bind (unreported_onResult _) fun _ => unreported_onResult _
  | none =>
      refine unreported_get fun s => unreported_bind (mute_upperBound _ _).unreported fun maxLine => ?_
      refine unreported_window query.limit fun count => ?_
      refine unreported_scanLines _ _ count (fun line => ?_) _ _
      exact unreported_bind (hupdate line) fun _ => unreported_onResult _

theorem unreported_execute (os : Os) (query : QueryVariant) : Unreported (execute os query) := by
  refine unreported_bind (unreported_onResult _) fun _ => ?_
  cases query with
  | select query => exact unreported_executeSelect query
  | insert query => exact unreported_executeInsert os query
  | erase query => exact unreported_executeDelete query
  | update query => exact unreported_executeUpdate os query

end Executor

namespace Operator

/-- Writing the table back leaves the database as it was when the table is. -/
theorem onTabble_error {id : Nat} {x : EStateM Fault Execution Unit} {e : Fault} {s s' : Serving}
    (he : e.isReported = true) (hx : ∀ r, (x.run r) = .error e r ∨ ∀ r', x.run r ≠ .error e r')
    (h : (onTabble id x).run s = .error e s') : s' = s := by
  unfold onTabble at h
  rw [run_bind_ok (EStateM.run_get s)] at h
  cases htable : s.base.tabbles[id]? with
  | none =>
      rw [htable] at h
      cases h
      cases he
  | some table =>
      rw [htable] at h
      simp only [run_zoom] at h
      rcases hx ⟨table, s.result⟩ with hrun | hrun
      · rw [hrun] at h
        cases h
        obtain ⟨hlt, rfl⟩ := List.getElem?_eq_some_iff.1 htable
        rw [List.set_getElem_self hlt]
      · cases hfound : x.run ⟨table, s.result⟩ with
        | ok a e' =>
            rw [hfound] at h
            cases h
        | error e' r' =>
            rw [hfound] at h
            cases h
            exact absurd hfound (hrun r')

/-- A reported fault comes from the optimizer, before anything has run. -/
theorem process_error (os : Os) (query : QueryVariant) {e : Fault} (he : e.isReported = true)
    (s : Execution) : (process os query).run s = .error e s ∨ ∀ s', (process os query).run s ≠ .error e s' := by
  unfold process
  rw [run_bind_ok (EStateM.run_get s)]
  cases hopt : Optimizer.optimize s.table.info query with
  | error e' =>
      by_cases heq : e' = e
      · rw [heq]
        exact .inl rfl
      · right
        intro s' h
        cases h
        exact heq rfl
  | ok query' =>
      right
      intro s' h
      rw [run_bind_ok (run_ofExcept_ok query' s)] at h
      rw [(Executor.unreported_execute os query').error trivial h] at he
      cases he

theorem attempt_error {os : Os} {command : Text} {e : Fault} {s s' : Serving}
    (he : e.isReported = true) (h : (attempt os command).run s = .error e s') : s' = s := by
  unfold attempt at h
  cases hparse : RequestParser.parse command with
  | error e' =>
      rw [hparse] at h
      cases h
      rfl
  | ok query =>
      rw [hparse, run_bind_ok (run_ofExcept_ok query s), run_bind_ok (EStateM.run_get s)] at h
      cases hid : s.base.getTabbleId query.base.tabbleName with
      | error e' =>
          rw [hid] at h
          cases h
          rfl
      | ok id =>
          rw [hid, run_bind_ok (run_ofExcept_ok id s)] at h
          exact onTabble_error he (process_error os query he) h

end Operator

/-- A request reported as failed leaves every table as it was, and the executor raises
none of the faults that are reported. -/
theorem failed_request_unchanged (os : Os) (command : Text) (base : DataBase) :
    (∀ result base', (Operator.execute os command).run base = .ok result base' →
        result.isSucces = false → base' = base) ∧
      ∀ query s e s', (Executor.execute os query).run s = .error e s' →
        (∀ message, e ≠ .incorrectInput message) ∧ ∀ message, e ≠ .execution message := by
  constructor
  · intro result base' h hfailed
    change Operator.execute os command base = _ at h
    unfold Operator.execute at h
    cases hrun : (Operator.attempt os command).run ⟨base, {}⟩ with
    | ok a s =>
        rw [hrun] at h
        cases h
        cases hfailed
    | error e s =>
        rw [hrun] at h
        dsimp only at h
        split_ifs at h with he
        cases h
        rw [Operator.attempt_error he hrun]
  · intro query s e s' h
    have he := (Executor.unreported_execute os query).error trivial h
    constructor
    · rintro message rfl
      cases he
    · rintro message rfl
      cases he

/-! A table of two numbers with two rows. -/

def pairInfo : TabbleInfo where
  lineLength := 9
  columnsNumber := 2
  columns := [⟨str "n", 1, .int32, 4⟩, ⟨str "m", 5, .int32, 4⟩]
  columnsMap := [(str "n", 0), (str "m", 1)]

def pairsOpened : Tabble := finalState (Tabble.openFile .reliable pairInfo .empty 0)

def pairsFilled : DataBase :=
  finalState ((Operator.execute .reliable (str "INSERT INTO t 1 2 3 4")).run
    ⟨str "/r/shop", str "shop", [pairsOpened], [(str "t", 0)]⟩)

/-- The reply says that the request failed. -/
def Operator.refuses (base : DataBase) (command : String) : Bool :=
  match (Operator.execute .reliable (str command)).run base with
  | .ok result _ => !result.isSucces
  | .error _ _ => false

theorem Operator.exists_of_refuses {base : DataBase} {command : String}
    (h : Operator.refuses base command = true) : ∃ result base',
      (Operator.execute .reliable (str command)).run base = .ok result base' ∧ result.isSucces = false := by
  unfold Operator.refuses at h
  cases hrun : (Operator.execute .reliable (str command)).run base with
  | ok result base' =>
      rw [hrun] at h
      exact ⟨result, base', rfl, by simpa using h⟩
  | error e base' =>
      rw [hrun] at h
      cases h

/-- An INSERT of two rows fails at its last value and an UPDATE of two columns at its last one. -/
theorem failed_request_unchanged_sample :
    (pairsFilled.tabbles.map fun t => (t.rowMap 0, t.rowMap 1)) =
        [(some [.int32 1, .int32 2], some [.int32 3, .int32 4])] ∧
      (∃ result, (Operator.execute .reliable (str "INSERT INTO t 5 6 7 eight")).run pairsFilled =
        .ok result pairsFilled ∧ result.isSucces = false) ∧
      ∃ result, (Operator.execute .reliable (str "UPDATE t SET n = 9 m = ten")).run pairsFilled =
        .ok result pairsFilled ∧ result.isSucces = false := by
  obtain ⟨inserted, base₁, hinsert, hrefused⟩ := Operator.exists_of_refuses
    (show Operator.refuses pairsFilled "INSERT INTO t 5 6 7 eight" = true by decide +kernel)
  obtain ⟨updated, base₂, hupdate, hrefused'⟩ := Operator.exists_of_refuses
    (show Operator.refuses pairsFilled "UPDATE t SET n = 9 m = ten" = true by decide +kernel)
  have hsame := (failed_request_unchanged .reliable _ pairsFilled).1 inserted base₁ hinsert hrefused
  have hsame' := (failed_request_unchanged .reliable _ pairsFilled).1 updated base₂ hupdate hrefused'
  rw [hsame] at hinsert
  rw [hsame'] at hupdate
  exact ⟨by decide +kernel, ⟨inserted, hinsert, hrefused⟩, updated, hupdate, hrefused'⟩

end SQLid
