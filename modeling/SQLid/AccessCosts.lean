import SQLid.Library.Traces
import SQLid.Requests

/-!
# How often a request goes to the storage

The calls a request makes, counted over every outcome: what it finds in the file
decides where it stops, not how far it may go.
-/
namespace SQLid
open Bytes (Text)
open Programs
open Traces

abbrev LogEntry := Call × MemoryMapLinux

/-- A call on a line between these two. -/
def Call.Between (first stop : Nat) (c : Call) : Prop := ∃ i, c.line = some i ∧ first ≤ i ∧ i < stop

theorem Call.between_one {c : Call} {i : Nat} (h : c.line = some i) : c.Between i (i + 1) :=
  ⟨i, h, le_rfl, Nat.lt_succ_self i⟩

/-- The calls that leave the file as it is. -/
def Call.Peeks : Call → Prop
  | .isActive _ | .readNumber _ | .readText _ => True
  | .expand _ | .activate _ | .deactivate _ | .writeNumber _ | .writeText _ => False

/-- What an insertion asks of the storage: the growth of a full file and writes. -/
def Call.Stores : Call → Prop
  | .expand _ | .activate _ | .writeNumber _ | .writeText _ => True
  | .isActive _ | .deactivate _ | .readNumber _ | .readText _ => False

namespace MemoryMap
variable {C : Call → Prop} {n i : Nat}

/-- A program on the storage makes at most `n` calls, all in `C`. -/
abbrev Costs {α : Type} (C : Call → Prop) (n : Nat) (x : EStateM Fault MemoryMap α) : Prop :=
  Adds (fun _ => True) MemoryMap.log (fun e : LogEntry => C e.1) n x

theorem adds_record {c : Call} (h : C c) :
    Costs C 1 (record c) :=
  fun _ _ => ⟨trivial, .one rfl h⟩

theorem adds_onCore {α : Type} (x : EStateM Fault MemoryMapLinux α) :
    Costs C n (onCore x) := by
  apply adds_of_eq
  intro _ _
  unfold onCore
  rw [run_zoom]
  split <;> exact ⟨trivial, rfl⟩

theorem adds_isActive (h : C (.isActive i)) :
    Costs C 1 (isActive i) :=
  (adds_record h).bind (n := 0) fun _ => adds_get fun _ _ =>
    (adds_ofExcept _ 0).bind (n := 0) fun _ => adds_pure _ 0

theorem adds_readNumber (off size : Nat) (h : C (.readNumber i)) :
    Costs C 1 (readNumber i off size) :=
  (adds_record h).bind (n := 0) fun _ => adds_get fun _ _ => adds_ofExcept _ 0

theorem adds_readText (off size : Nat) (h : C (.readText i)) :
    Costs C 1 (readText i off size) :=
  (adds_record h).bind (n := 0) fun _ => adds_get fun _ _ => adds_ofExcept _ 0

theorem adds_expanding (b : Bool) : Costs C n
    (modify fun m => { m with expanding := b }) := fun _ _ => ⟨trivial, .of_eq rfl n⟩

theorem adds_expand (os : Os) {writer : Option Nat} (h : C (.expand writer)) :
    Costs C 1 (expand os writer) := by
  have hgrow : Costs C 0 (do
      modify fun m => { m with expanding := true }
      onCore (MemoryMapLinux.expandFile os)
      modify fun m => { m with expanding := false }) := by
    exact (adds_expanding true).bind_zero fun _ => (adds_onCore _).bind_zero fun _ => adds_expanding false
  refine (adds_record h).bind (n := 0) fun _ => adds_get fun m _ => ?_
  exact adds_ite ((adds_throw _ 0).bind_zero fun _ => hgrow) hgrow

/-- A write asks at most once for growth. -/
theorem adds_write (os : Os) {c : Call} (put : EStateM Fault MemoryMapLinux Unit) (h : C c)
    (hexpand : C (.expand (some i))) :
    Costs C 2 (write os c i put) := by
  refine (adds_record h).bind (n := 1) fun _ => adds_get fun m _ => ?_
  exact adds_ite ((adds_expand os hexpand).bind (n := 0) fun _ => adds_onCore put) (adds_onCore put)

theorem adds_writeFlag {c : Call} (b : Bool) (h : C c) :
    Costs C 1 (writeFlag c i b) :=
  (adds_record h).bind (n := 0) fun _ => adds_onCore _

theorem adds_writeInfo (os : Os) (off : Nat) (v : VariantTypes) (hnumber : C (.writeNumber i))
    (htext : C (.writeText i)) (hexpand : C (.expand (some i))) :
    Costs C 2 (writeInfo os i off v) := by
  cases v with
  | string s => exact adds_write os _ htext hexpand
  | int32 | int64 | double | float | bool => exact adds_write os _ hnumber hexpand

end MemoryMap

namespace Tabble
variable {info : TabbleInfo} {C : Call → Prop} {n i : Nat}

/-- The log of a table. -/
def log (t : Tabble) : List LogEntry := t.storage.log

/-- The schema of the table stays. -/
def HasInfo (info : TabbleInfo) (t : Tabble) : Prop := t.info = info

abbrev Costs {α : Type} (info : TabbleInfo) (C : Call → Prop) (n : Nat) (x : EStateM Fault Tabble α) :
    Prop := Adds (HasInfo info) log (fun e => C e.1) n x

theorem adds_onStorage {α : Type} {x : EStateM Fault MemoryMap α}
    (h : MemoryMap.Costs C n x) :
    Costs info C n (onStorage x) :=
  h.zoom (fun _ _ => trivial) (fun _ _ ht _ => ht) (fun _ => rfl) fun _ _ => rfl

theorem adds_modify {f : Tabble → Tabble} (hinfo : ∀ t, (f t).info = t.info)
    (hlog : ∀ t, (f t).storage = t.storage) :
    Costs info C n (modify f) :=
  fun t ht => ⟨(hinfo t).trans ht, .of_eq (congrArg MemoryMap.log (hlog t)) n⟩

theorem adds_readColumn (column : Column) (hnumber : C (.readNumber i)) (htext : C (.readText i)) :
    Costs info C 1 (readColumn i column) := by
  unfold readColumn
  split_ifs
  · apply Adds.map
    unfold Tabble.readText
    exact adds_ite (adds_onStorage (MemoryMap.adds_readText _ _ htext))
      (adds_onStorage (MemoryMap.adds_readText _ _ htext))
  · cases column.type with
    | voida | text | string => exact adds_throw _ 1
    | int32 | int64 | double | float | bool =>
        exact (adds_onStorage (MemoryMap.adds_readNumber _ _ hnumber)).bind (n := 0) fun _ =>
          adds_ofExcept _ 0

theorem adds_updateFrom (os : Os) (values : List VariantTypes) (hnumber : C (.writeNumber i))
    (htext : C (.writeText i)) (hexpand : C (.expand (some i))) (columns : List Column) (k : Nat) :
    Costs info C (2 * columns.length)
      (updateFrom os values i k columns) := by
  induction columns generalizing k with
  | nil => exact adds_pure _ _
  | cons column columns ih =>
      unfold updateFrom
      cases values[k]? with
      | none => exact adds_throw _ _
      | some value =>
          have hone : Costs info C 2 (onStorage (MemoryMap.writeInfo os i column.offset value)) :=
            adds_onStorage (MemoryMap.adds_writeInfo os column.offset value hnumber htext hexpand)
          refine (hone.bind fun _ => ih (k + 1)).le ?_
          rw [List.length_cons]
          omega

theorem adds_update (os : Os) (values : List VariantTypes) (columns : List Column) (k : Nat)
    (hnumber : C (.writeNumber i)) (htext : C (.writeText i)) (hexpand : C (.expand (some i))) :
    Costs info C (2 * columns.length) (update os values columns i k) := by
  unfold update note
  exact Adds.bind_zero (adds_modify (fun _ => rfl) fun _ => rfl) fun _ =>
    adds_updateFrom os values hnumber htext hexpand columns k

theorem adds_erase (h : C (.deactivate i)) :
    Costs info C 1 (erase i) := by
  unfold erase note pushInStack
  refine Adds.bind_zero (adds_modify (fun _ => rfl) fun _ => rfl) fun _ => ?_
  refine (adds_onStorage (MemoryMap.adds_writeFlag false h)).bind (n := 0) fun _ => ?_
  refine Adds.bind_zero (adds_modify (fun _ => rfl) fun _ => rfl) fun _ => ?_
  exact Adds.bind_zero (adds_modify (fun _ => rfl) fun _ => rfl) fun _ => adds_pure _ 0

theorem adds_allocateId (os : Os) (h : C (.expand none)) :
    Costs info C 1 (allocateId os) := by
  intro t ht
  have hcount : Costs info C 0 (do
      modify fun t => { t with activePlaces := sizeAdd t.activePlaces 1 }
      modify fun t => { t with freeId := sizeAdd t.freeId 1 }
      return t.freeId) := by
    refine Adds.bind_zero (adds_modify (fun _ => rfl) fun _ => rfl) fun _ => ?_
    exact Adds.bind_zero (adds_modify (fun _ => rfl) fun _ => rfl) fun _ => adds_pure _ 0
  have hgrow : Costs info C 1 (if t.storage.getMaxLines ≤ t.freeId then do
      onStorage (MemoryMap.expand os none)
      modify fun t => { t with activePlaces := sizeAdd t.activePlaces 1 }
      modify fun t => { t with freeId := sizeAdd t.freeId 1 }
      return t.freeId
    else do
      modify fun t => { t with activePlaces := sizeAdd t.activePlaces 1 }
      modify fun t => { t with freeId := sizeAdd t.freeId 1 }
      return t.freeId) :=
    adds_ite ((adds_onStorage (MemoryMap.adds_expand os h)).bind (n := 0) fun _ => hcount)
      (hcount.le (Nat.zero_le 1))
  unfold allocateId
  rw [run_bind_ok (EStateM.run_get t)]
  cases hstack : t.stackFreeId with
  | cons id rest => exact ⟨ht, .of_eq rfl 1⟩
  | nil => exact hgrow t ht

/-- An inserted row costs a call for its line, one for its flag and two for each value. -/
theorem adds_insert (os : Os) (values : List VariantTypes) (columns : List Column) (index : Nat)
    (h : ∀ c : Call, c.Stores → C c) :
    Costs info C (2 + 2 * columns.length) (insert os values columns index) := by
  have hrow (cur : Nat) : Costs info C (1 + 2 * columns.length) (do
      note (.insert cur)
      onStorage (MemoryMap.activate cur)
      update os values columns cur index
      modify fun t => { t with activePlaces := sizeAdd t.activePlaces 1 }
      return cur) := by
    unfold note
    refine Adds.bind_zero (adds_modify (fun _ => rfl) fun _ => rfl) fun _ => ?_
    refine (adds_onStorage (MemoryMap.adds_writeFlag true (h (.activate cur) trivial))).bind fun _ => ?_
    refine (adds_update os values columns index (h (.writeNumber cur) trivial)
      (h (.writeText cur) trivial) (h (.expand (some cur)) trivial)).bind
      (n := 0) fun _ => ?_
    exact Adds.bind_zero (adds_modify (fun _ => rfl) fun _ => rfl) fun _ => adds_pure _ 0
  refine ((adds_allocateId os (h (.expand none) trivial)).bind hrow).le ?_
  omega

end Tabble

namespace Executor
variable {info : TabbleInfo} {C : Call → Prop} {n i : Nat}

def log (s : Execution) : List LogEntry := s.table.storage.log

abbrev Costs {α : Type} (info : TabbleInfo) (C : Call → Prop) (n : Nat) (x : EStateM Fault Execution α) :
    Prop := Adds (fun s => s.table.info = info) log (fun e => C e.1) n x

theorem adds_onTable {α : Type} {x : EStateM Fault Tabble α} (h : Tabble.Costs info C n x) :
    Costs info C n (onTable x) :=
  h.zoom (fun _ hs => hs) (fun _ _ _ ht => ht) (fun _ => rfl) fun _ _ => rfl

theorem adds_onResult (f : Result → Result) : Costs info C n (onResult f) :=
  fun _ hs => ⟨hs, .of_eq rfl n⟩

theorem adds_satisfiesFrom (columns : List Column) (hnumber : C (.readNumber i))
    (htext : C (.readText i)) (current : Bool) (logic : ConditionType) (conds : List Condition) :
    Tabble.Costs info C conds.length (satisfiesFrom i columns current logic conds) := by
  induction conds generalizing current logic with
  | nil => exact adds_pure _ _
  | cons cond conds ih =>
      unfold satisfiesFrom
      by_cases hskip : cond.collumnId = sizeMax
      · rw [if_pos hskip]
        exact (ih current cond.condType).le (Nat.le_succ _)
      · rw [if_neg hskip]
        cases columns[cond.collumnId]? with
        | none => exact adds_throw _ _
        | some column =>
            refine ((Tabble.adds_readColumn column hnumber htext).bind fun value => ?_).le
              (Nat.add_comm 1 conds.length).le
            exact (adds_ofExcept _ 0).bind_zero fun met => ih _ logic

/-- The flag of a line and the conditions on it. -/
theorem adds_selects (conds : List Condition) (columns : List Column) (hactive : C (.isActive i))
    (hnumber : C (.readNumber i)) (htext : C (.readText i)) :
    Tabble.Costs info C (1 + conds.length) (selects conds columns i) := by
  refine (Tabble.adds_onStorage (MemoryMap.adds_isActive hactive)).bind fun active => ?_
  refine adds_ite (adds_ite (adds_pure _ _) ?_) (adds_pure _ _)
  exact adds_satisfiesFrom columns hnumber htext _ _ conds

theorem adds_readColumns (columns : List Column) (hnumber : C (.readNumber i)) (htext : C (.readText i))
    (ids : List Nat) : Tabble.Costs info C ids.length (readColumns i columns ids) := by
  induction ids with
  | nil => exact adds_pure _ _
  | cons id ids ih =>
      unfold readColumns
      cases columns[id]? with
      | none => exact adds_throw _ _
      | some column =>
          refine ((Tabble.adds_readColumn column hnumber htext).bind fun value => ?_).le
            (Nat.add_comm 1 ids.length).le
          exact ih.bind (n := 0) fun _ => adds_pure _ 0

theorem adds_readRecord (ids : List Nat) (columns : List Column) (hnumber : C (.readNumber i))
    (htext : C (.readText i)) : Tabble.Costs info C ids.length (readRecord i ids columns) :=
  (adds_readColumns columns hnumber htext ids).bind (n := 0) fun _ => adds_pure _ 0

/-! Scans. -/

/-- Nothing has happened to the table and the answer is still empty. -/
def Fresh (t : Tabble) (s : Execution) : Prop := s.table = t ∧ s.result.body = []

theorem fresh_onResult {t : Tabble} {P : LogEntry → Prop} {f : Result → Result}
    (h : ∀ r, (f r).body = r.body) : Adds (Fresh t) log P 0 (onResult f) :=
  fun _ hs => ⟨⟨hs.1, (h _).trans hs.2⟩, .of_eq rfl 0⟩

theorem body_onTable {α : Type} {x : EStateM Fault Tabble α} {s s' : Execution} {a : α}
    (h : (onTable x).run s = .ok a s') : s'.result.body.length = s.result.body.length := by
  unfold onTable at h
  rw [run_zoom] at h
  split at h <;> cases h
  rfl

theorem body_pushRow {row : List VariantTypes} {s s' : Execution} {u : Unit}
    (h : (pushRow row).run s = .ok u s') : s'.result.body.length = s.result.body.length + 1 := by
  cases h
  exact List.length_append

/-- An action of a scan: some work on the table and a row for the answer. -/
theorem body_act {α : Type} {x : EStateM Fault Tabble α} {row : α → List VariantTypes}
    {s s' : Execution} {u : Unit} (h : (onTable x >>= fun a => pushRow (row a)).run s = .ok u s') :
    s'.result.body.length = s.result.body.length + 1 := by
  cases hx : (onTable x).run s with
  | ok a s₁ =>
      rw [run_bind_ok hx] at h
      rw [body_pushRow h, body_onTable hx]
  | error e s₁ =>
      rw [run_bind_error hx] at h
      cases h

/-- What a scan of the executor costs that works on each line it picks. -/
theorem spends_scanLines {α : Type} {t : Tabble} (first stop : Nat) (conds : List Condition)
    (columns : List Column) (count : Nat) {work : Nat → EStateM Fault Tabble α}
    {row : Nat → α → List VariantTypes} (hwork : ∀ i, first ≤ i → i < stop → Tabble.Costs t.info C n (work i))
    (hactive : ∀ i, first ≤ i → i < stop → C (.isActive i))
    (hnumber : ∀ i, first ≤ i → i < stop → C (.readNumber i))
    (htext : ∀ i, first ≤ i → i < stop → C (.readText i)) :
    Spends (Fresh t) log (fun e => C e.1)
      ((stop - first) * (1 + conds.length) + min (stop - first) count * n)
      (scanLines conds columns count (fun i => do pushRow (row i (← onTable (work i))))
        (stop - first) first) := by
  intro s hs
  by_cases hlt : stop ≤ first
  · rw [Nat.sub_eq_zero_of_le hlt]
    exact .of_eq rfl _
  · have hmeter : Metered (fun s : Execution => s.table.info = t.info) log (fun e => C e.1)
        (fun s => s.result.body.length) (fun i => onTable (selects conds columns i))
        (fun i => do pushRow (row i (← onTable (work i)))) (1 + conds.length) n first stop :=
      { test := fun i hi hlt => adds_onTable (adds_selects conds columns (hactive i hi hlt)
          (hnumber i hi hlt) (htext i hi hlt))
        action := fun i hi hlt => (adds_onTable (hwork i hi hlt)).bind (n := 0) fun _ => adds_onResult _
        tested := fun i s b s' _ h => body_onTable h
        acted := fun i s u s' _ h => body_act h }
    have hloop := (hmeter.loop count (n := stop - first) (by omega) (congrArg Tabble.info hs.1)).2
    rw [show s.result.body.length = 0 from congrArg List.length hs.2, Nat.sub_zero] at hloop
    exact hloop

theorem fresh_ofExcept {α : Type} {t : Tabble} {P : LogEntry → Prop} (x : Except Fault α) :
    Adds (Fresh t) log P 0 (ofExcept x) := adds_ofExcept x 0

theorem fresh_reserveBody {t : Tabble} {P : LogEntry → Prop} (k : Nat) :
    Adds (Fresh t) log P 0 (reserveBody k) :=
  adds_ite (adds_throw _ 0) (adds_pure _ 0)

/-! Statements. -/

/-- Where a statement may go and how many calls it may make. -/
structure Plan where
  first : Nat
  stop : Nat
  calls : Nat
  deriving DecidableEq, Repr

/-- A statement that faults before its first call. -/
def Plan.nothing : Plan := ⟨0, 0, 0⟩

/-- One line, found by its id. -/
def Plan.lookup (line : BitVec 64) (calls : Nat) : Plan := ⟨line.toNat, line.toNat + 1, calls⟩

/-- Each line of a window is tested, and `work` calls are made for each one picked. -/
def Plan.scan (first stop conds count work : Nat) : Plan :=
  ⟨first, stop, (stop - first) * (1 + conds) + min (stop - first) count * work⟩

/-- The calls that stay in the window of the plan. -/
def Plan.Permits (plan : Plan) (c : Call) : Prop := c.Between plan.first plan.stop

/-- Those of them that a SELECT may make. -/
def Plan.Looks (plan : Plan) (c : Call) : Prop := plan.Permits c ∧ c.Peeks

def selectPlan (query : SelectQuery) (t : Tabble) : Plan :=
  match directIndex query.conditions with
  | some desired =>
      match desired.getInt64 with
      | .ok line => .lookup line query.columnsOptimized.length
      | .error _ => .nothing
  | none =>
      match stripSelect 0 t.getMaxActiveLine query.conditions with
      | .ok (first, stop, conds) =>
          .scan first stop conds.length (min t.getActivePlaces query.limit) query.columnsOptimized.length
      | .error _ => .nothing

/-- The plan of a DELETE or UPDATE that makes `work` calls for each line it changes. -/
def changePlan (query : QueryBase) (work : Nat) (t : Tabble) : Plan :=
  match directIndex query.conditions with
  | some desired =>
      match desired.getInt64 with
      | .ok line => .lookup line (1 + work)
      | .error _ => .nothing
  | none =>
      match upperBound t.getMaxActiveLine query.conditions with
      | .ok maxLine =>
          .scan 0 maxLine query.conditions.length (min t.getActivePlaces query.limit) work
      | .error _ => .nothing

theorem columnsAt_length {columns picked : List Column} {ids : List Nat}
    (h : columnsAt columns ids = .ok picked) : picked.length = ids.length := by
  induction ids generalizing picked with
  | nil =>
      cases h
      rfl
  | cons id ids ih =>
      unfold columnsAt at h
      cases hid : columns[id]? with
      | none =>
          rw [hid] at h
          cases h
      | some column =>
          rw [hid] at h
          obtain ⟨rest, hrest, h⟩ := Except_bind_ok h
          cases h
          rw [List.length_cons, List.length_cons, ih hrest]

/-- The smaller of the active places and the limit bounds the rows of a scan. -/
theorem spends_counted {t : Tabble} {limit : Nat} {P : LogEntry → Prop}
    {f : Nat → EStateM Fault Execution Unit}
    (h : Spends (Fresh t) log P n (f (min t.getActivePlaces limit))) :
    Spends (Fresh t) log P n (do
      let count ← activeCount limit
      reserveBody count
      f count) := by
  intro s hs
  have hcount : (activeCount limit).run s = .ok (min t.getActivePlaces limit) s := by
    have hmin : (if s.table.getActivePlaces < limit then s.table.getActivePlaces else limit) =
        min t.getActivePlaces limit := by
      rw [hs.1]
      split_ifs <;> omega
    rw [← hmin]
    rfl
  rw [run_bind_ok hcount]
  exact (fresh_reserveBody _).seq_zero (fun _ => h) s hs

theorem Plan.permits_lookup {line : BitVec 64} {calls : Nat} {c : Call} (h : c.line = some line.toNat) :
    (Plan.lookup line calls).Permits c := Call.between_one h

theorem Plan.permits_scan {first stop conds count work i : Nat} {c : Call} (h : c.line = some i)
    (hi : first ≤ i) (hlt : i < stop) : (Plan.scan first stop conds count work).Permits c :=
  ⟨i, h, hi, hlt⟩

theorem spends_onResult {I : Execution → Prop} {P : LogEntry → Prop} (f : Result → Result) :
    Spends I log P 0 (onResult f) := fun _ _ => .of_eq rfl 0

theorem selectPlan_lookup {query : SelectQuery} {desired : VariantTypes} {line : BitVec 64} (t : Tabble)
    (hdir : directIndex query.conditions = some desired) (hline : desired.getInt64 = .ok line) :
    selectPlan query t = .lookup line query.columnsOptimized.length := by
  simp only [selectPlan, hdir, hline]

theorem selectPlan_scan {query : SelectQuery} {t : Tabble} {first stop : Nat} {conds : List Condition}
    (hdir : directIndex query.conditions = none)
    (hstrip : stripSelect 0 t.getMaxActiveLine query.conditions = .ok (first, stop, conds)) :
    selectPlan query t = .scan first stop conds.length (min t.getActivePlaces query.limit)
      query.columnsOptimized.length := by
  simp only [selectPlan, hdir, hstrip]

theorem changePlan_lookup {query : QueryBase} {desired : VariantTypes} {line : BitVec 64} (work : Nat)
    (t : Tabble) (hdir : directIndex query.conditions = some desired)
    (hline : desired.getInt64 = .ok line) : changePlan query work t = .lookup line (1 + work) := by
  simp only [changePlan, hdir, hline]

theorem changePlan_scan {query : QueryBase} {t : Tabble} {maxLine : Nat} (work : Nat)
    (hdir : directIndex query.conditions = none)
    (hmax : upperBound t.getMaxActiveLine query.conditions = .ok maxLine) :
    changePlan query work t =
      .scan 0 maxLine query.conditions.length (min t.getActivePlaces query.limit) work := by
  simp only [changePlan, hdir, hmax]

theorem executeSelect_spends (query : SelectQuery) (t : Tabble) :
    Spends (Fresh t) log (fun e => (selectPlan query t).Looks e.1) (selectPlan query t).calls
      (executeSelect query) := by
  unfold executeSelect
  refine Adds.seq_zero (fresh_onResult fun _ => rfl) fun _ => spends_get fun s hs => ?_
  rw [hs.1]
  refine (fresh_ofExcept _).seq_zero fun header => ?_
  refine Adds.seq_zero (fresh_onResult fun _ => rfl) fun _ => ?_
  cases hdir : directIndex query.conditions with
  | some desired =>
      refine spends_ofExcept_bind fun line hline => ?_
      rw [selectPlan_lookup t hdir hline]
      have hrow : Costs t.info (Plan.lookup line query.columnsOptimized.length).Looks query.columnsOptimized.length
          (do pushRow (← onTable (readRecord line.toNat query.columnsOptimized t.info.columns))) :=
        (adds_onTable (adds_readRecord _ _ ⟨Plan.permits_lookup rfl, trivial⟩
          ⟨Plan.permits_lookup rfl, trivial⟩)).bind (n := 0) fun _ => adds_onResult _
      exact hrow.spends.of_imp fun s hs => congrArg Tabble.info hs.1
  | none =>
      refine spends_get fun s hs => ?_
      rw [hs.1]
      refine spends_ofExcept_bind fun ⟨first, stop, conds⟩ hstrip => ?_
      rw [selectPlan_scan hdir hstrip]
      refine spends_counted ?_
      refine Spends.bind (n := 0) ?_ fun _ => ?_
      · have hinside (call : Nat → Call) (hline : ∀ i, (call i).line = some i)
            (hpeeks : ∀ i, (call i).Peeks) (i : Nat) (hi : first ≤ i) (hlt : i < stop) :
            (Plan.scan first stop conds.length (min t.getActivePlaces query.limit)
              query.columnsOptimized.length).Looks (call i) :=
          ⟨Plan.permits_scan (hline i) hi hlt, hpeeks i⟩
        have hactive := hinside .isActive (fun _ => rfl) fun _ => trivial
        have hnumber := hinside .readNumber (fun _ => rfl) fun _ => trivial
        have htext := hinside .readText (fun _ => rfl) fun _ => trivial
        exact spends_scanLines first stop conds t.info.columns _
          (fun i hi hlt => adds_readRecord _ _ (hnumber i hi hlt) (htext i hi hlt)) hactive hnumber htext
      · split
        · exact spends_onResult _
        · exact (adds_pure _ 0).spends

theorem executeDelete_spends (query : DeleteQuery) (t : Tabble) :
    Spends (Fresh t) log (fun e => (changePlan query.toQueryBase 1 t).Permits e.1)
      (changePlan query.toQueryBase 1 t).calls (executeDelete query) := by
  unfold executeDelete
  refine Adds.seq_zero (fresh_onResult fun _ => rfl) fun _ => spends_get fun s hs => ?_
  rw [hs.1]
  cases hdir : directIndex query.conditions with
  | some desired =>
      refine spends_ofExcept_bind fun line hline => ?_
      rw [changePlan_lookup 1 t hdir hline]
      have herase : Costs t.info (Plan.lookup line (1 + 1)).Permits (1 + 1) (do
          if ← onTable (Tabble.onStorage (MemoryMap.isActive line.toNat)) then
            let _ ← onTable (Tabble.erase line.toNat)
            onResult fun r => { r with isSucces := true }
          pushRow [idCell line.toNat]) := by
        refine (adds_onTable (Tabble.adds_onStorage
          (MemoryMap.adds_isActive (Plan.permits_lookup rfl)))).bind fun active => ?_
        refine adds_ite ?_ (adds_onResult _)
        refine (adds_onTable (Tabble.adds_erase (Plan.permits_lookup rfl))).bind (n := 0) fun _ => ?_
        exact (adds_onResult _).bind_zero fun _ => adds_onResult _
      exact herase.spends.of_imp fun s hs => congrArg Tabble.info hs.1
  | none =>
      refine spends_get fun s hs => ?_
      rw [hs.1]
      refine spends_ofExcept_bind fun maxLine hmax => ?_
      rw [changePlan_scan 1 hdir hmax]
      refine spends_counted ?_
      refine Spends.bind (n := 0) ?_ fun _ => spends_onResult _
      exact spends_scanLines 0 maxLine query.conditions t.info.columns _
        (fun i hi hlt => Tabble.adds_erase (Plan.permits_scan rfl hi hlt))
        (fun i hi hlt => Plan.permits_scan rfl hi hlt) (fun i hi hlt => Plan.permits_scan rfl hi hlt)
        fun i hi hlt => Plan.permits_scan rfl hi hlt

theorem executeUpdate_spends (os : Os) (query : UpdateQuery) (t : Tabble) :
    Spends (Fresh t) log
      (fun e => (changePlan query.toQueryBase (2 * query.columnsOptimized.length) t).Permits e.1)
      (changePlan query.toQueryBase (2 * query.columnsOptimized.length) t).calls
      (executeUpdate os query) := by
  unfold executeUpdate
  refine Adds.seq_zero (fresh_onResult fun _ => rfl) fun _ => spends_get fun s hs => ?_
  rw [hs.1]
  refine spends_ofExcept_bind fun picked hpicked => ?_
  rw [← columnsAt_length hpicked]
  cases hdir : directIndex query.conditions with
  | some desired =>
      refine spends_ofExcept_bind fun line hline => ?_
      rw [changePlan_lookup _ t hdir hline]
      have hupdate : Costs t.info (Plan.lookup line (1 + 2 * picked.length)).Permits
          (1 + 2 * picked.length) (do
          if ← onTable (Tabble.onStorage (MemoryMap.isActive line.toNat)) then
            onTable (Tabble.update os query.values picked line.toNat 0)
            pushRow [idCell line.toNat]
            onResult fun r => { r with isSucces := true }) := by
        refine (adds_onTable (Tabble.adds_onStorage
          (MemoryMap.adds_isActive (Plan.permits_lookup rfl)))).bind fun active => ?_
        refine adds_ite ?_ (adds_pure _ _)
        refine (adds_onTable (Tabble.adds_update os query.values picked 0 (Plan.permits_lookup rfl)
          (Plan.permits_lookup rfl) (Plan.permits_lookup rfl))).bind (n := 0) fun _ => ?_
        exact (adds_onResult _).bind_zero fun _ => adds_onResult _
      exact hupdate.spends.of_imp fun s hs => congrArg Tabble.info hs.1
  | none =>
      refine spends_get fun s hs => ?_
      rw [hs.1]
      refine spends_ofExcept_bind fun maxLine hmax => ?_
      rw [changePlan_scan _ hdir hmax]
      refine spends_counted ?_
      exact spends_scanLines 0 maxLine query.conditions t.info.columns _
        (fun i hi hlt => Tabble.adds_update os query.values picked 0 (Plan.permits_scan rfl hi hlt)
          (Plan.permits_scan rfl hi hlt) (Plan.permits_scan rfl hi hlt))
        (fun i hi hlt => Plan.permits_scan rfl hi hlt) (fun i hi hlt => Plan.permits_scan rfl hi hlt)
        fun i hi hlt => Plan.permits_scan rfl hi hlt

/-- The rows still to be inserted, each with its line, its flag and its values. -/
theorem adds_insertFrom (os : Os) {values : List VariantTypes} {columns : List Column} {rows : Nat}
    (hlen : values.length = rows * columns.length)
    (hC : ∀ c : Call, c.Stores → C c) (n r : Nat) (hr : r ≤ rows) :
    Costs info C ((rows - r) * (2 + 2 * columns.length))
      (insertFrom os values columns n (r * columns.length)) := by
  induction n generalizing r with
  | zero => exact adds_pure _ _
  | succ n ih =>
      unfold insertFrom
      by_cases hlt : r * columns.length < values.length
      · rw [if_pos hlt]
        rw [hlen] at hlt
        have hnext : r + 1 ≤ rows := Nat.lt_of_mul_lt_mul_right hlt
        have hsum : rows - r = 1 + (rows - (r + 1)) := by omega
        rw [hsum, Nat.add_mul, Nat.one_mul]
        refine (adds_onTable (Tabble.adds_insert os values columns _ hC)).bind fun cur => ?_
        refine (adds_onResult _).bind_zero fun _ => ?_
        rw [← Nat.succ_mul]
        exact ih (r + 1) hnext
      · rw [if_neg hlt]
        exact adds_pure _ _

theorem executeInsert_spends (os : Os) (query : InsertQuery) {t : Tabble} {rows : Nat}
    (hlen : query.values.length = rows * t.info.columns.length) :
    Spends (Fresh t) log (fun e => e.1.Stores) (rows * (2 + 2 * t.info.columns.length))
      (executeInsert os query) := by
  unfold executeInsert
  refine Adds.seq_zero (fresh_onResult fun _ => rfl) fun _ => spends_get fun s hs => ?_
  rw [hs.1]
  have hinsert : Costs t.info Call.Stores ((rows - 0) * (2 + 2 * t.info.columns.length))
      (insertFrom os query.values t.info.columns query.values.length (0 * t.info.columns.length)) :=
    adds_insertFrom os hlen (fun _ h => h) query.values.length 0 (Nat.zero_le rows)
  rw [Nat.zero_mul, Nat.sub_zero] at hinsert
  have hcaught : Costs t.info Call.Stores (rows * (2 + 2 * t.info.columns.length)) (tryCatch (do
      insertFrom os query.values t.info.columns query.values.length 0
      onResult fun r => { r with messeage := CppText.str "Inserted", isSucces := true })
      fun e => if e.isException then onResult fun r => { r with error := e.what } else throw e) :=
    (hinsert.bind (n := 0) fun _ => adds_onResult _).tryCatch (n := 0) fun e =>
      adds_ite (adds_onResult _) (adds_throw _ _)
  exact hcaught.spends.of_imp fun s hs => congrArg Tabble.info hs.1

end Executor

/-! Requests. -/

section
variable {os : Os} {t : Tabble} {command : Text}

theorem request_spends {query : QueryVariant} (hc : compile t.info command = .ok query)
    {P : LogEntry → Prop} {n : Nat}
    (h : Spends (Executor.Fresh t) Executor.log P n (match query with
      | .select q => Executor.executeSelect q
      | .insert q => Executor.executeInsert os q
      | .erase q => Executor.executeDelete q
      | .update q => Executor.executeUpdate os q)) :
    Grows Executor.log P n ⟨t, {}⟩ (finalState (request os command t)) := by
  unfold request
  rw [run_answer hc]
  have hstart : (Executor.execute os query).run ⟨t, {}⟩ = (match query with
      | .select q => Executor.executeSelect q
      | .insert q => Executor.executeInsert os q
      | .erase q => Executor.executeDelete q
      | .update q => Executor.executeUpdate os q).run ⟨t, { isSucces := true }⟩ := by
    cases query <;> rfl
  rw [hstart]
  exact h ⟨t, { isSucces := true }⟩ ⟨rfl, rfl⟩

/-- A SELECT goes to the one line it asks for, or tests the lines of its window and reads as
many of them as there are active places or as the limit allows. It changes none. -/
theorem select_cost {query : SelectQuery} (hc : compile t.info command = .ok (.select query)) :
    Grows Executor.log (fun e => (Executor.selectPlan query t).Looks e.1)
      (Executor.selectPlan query t).calls ⟨t, {}⟩ (finalState (request os command t)) :=
  request_spends hc (Executor.executeSelect_spends query t)

/-- The table of one number with the rows 4, 9 and 7. -/
def costsFilled : Tabble :=
  (finalState (request .reliable (CppText.str "INSERT INTO t 4 9 7") Tabble.sampleOpened)).table

/-- The condition `n > 5`. -/
def aboveFive : Condition := ⟨.greater, 0, .int32 5⟩

def aboveFiveRaw : List Text := [CppText.str "n", CppText.str ">", CppText.str "5"]

def firstAbove : SelectQuery where
  tabbleName := CppText.str "t"
  conditions := [aboveFive]
  rawConditions := aboveFiveRaw
  limit := 1
  columnsRaw := [CppText.str "*"]
  columnsOptimized := [0]

/-- Two lines are tested and the second is read, in five calls where seven are allowed. -/
theorem select_cost_sample : Executor.selectPlan firstAbove costsFilled = ⟨0, 3, 7⟩ ∧
    (finalState (request .reliable (CppText.str "SELECT * FROM t WHERE n > 5 LIMIT 1")
      costsFilled)).result.body = [[.int64 1, .int32 9]] ∧
    Grows Executor.log (fun e => (Executor.Plan.mk 0 3 7).Looks e.1) 7 ⟨costsFilled, {}⟩
      (finalState (request .reliable (CppText.str "SELECT * FROM t WHERE n > 5 LIMIT 1") costsFilled)) := by
  have hplan : Executor.selectPlan firstAbove costsFilled = ⟨0, 3, 7⟩ := by decide +kernel
  have hcost := @select_cost .reliable costsFilled (CppText.str "SELECT * FROM t WHERE n > 5 LIMIT 1")
    firstAbove (by decide +kernel)
  rw [hplan] at hcost
  exact ⟨hplan, by decide +kernel, hcost⟩

/-- DELETE and UPDATE go to one line, or test the lines below their bound and change as many of
them as there are active places or as the limit allows. -/
theorem change_cost :
    (∀ query, compile t.info command = .ok (.erase query) →
      Grows Executor.log (fun e => (Executor.changePlan query.toQueryBase 1 t).Permits e.1)
        (Executor.changePlan query.toQueryBase 1 t).calls ⟨t, {}⟩ (finalState (request os command t))) ∧
    ∀ query, compile t.info command = .ok (.update query) →
      Grows Executor.log
        (fun e => (Executor.changePlan query.toQueryBase (2 * query.columnsOptimized.length) t).Permits e.1)
        (Executor.changePlan query.toQueryBase (2 * query.columnsOptimized.length) t).calls ⟨t, {}⟩
        (finalState (request os command t)) :=
  ⟨fun query hc => request_spends hc (Executor.executeDelete_spends query t),
    fun query hc => request_spends hc (Executor.executeUpdate_spends os query t)⟩

def eraseAbove : DeleteQuery where
  tabbleName := CppText.str "t"
  conditions := [aboveFive]
  rawConditions := aboveFiveRaw

def updateAbove : UpdateQuery where
  tabbleName := CppText.str "t"
  conditions := [aboveFive]
  rawConditions := aboveFiveRaw
  columnsRaw := [CppText.str "n"]
  columnsOptimized := [0]
  rawValues := [CppText.str "1"]
  values := [.int32 1]

/-- The three lines are tested, and two of them erased or written. -/
theorem change_cost_sample :
    Executor.changePlan eraseAbove.toQueryBase 1 costsFilled = ⟨0, 3, 9⟩ ∧
    Executor.changePlan updateAbove.toQueryBase 2 costsFilled = ⟨0, 3, 12⟩ ∧
    (finalState (request .reliable (CppText.str "DELETE FROM t WHERE n > 5") costsFilled)).result.body =
      [[.int64 1], [.int64 2]] ∧
    Grows Executor.log (fun e => (Executor.Plan.mk 0 3 9).Permits e.1) 9 ⟨costsFilled, {}⟩
      (finalState (request .reliable (CppText.str "DELETE FROM t WHERE n > 5") costsFilled)) ∧
    Grows Executor.log (fun e => (Executor.Plan.mk 0 3 12).Permits e.1) 12 ⟨costsFilled, {}⟩
      (finalState (request .reliable (CppText.str "UPDATE t SET n = 1 WHERE n > 5") costsFilled)) := by
  have herased : Executor.changePlan eraseAbove.toQueryBase 1 costsFilled = ⟨0, 3, 9⟩ := by decide +kernel
  have hupdated : Executor.changePlan updateAbove.toQueryBase 2 costsFilled = ⟨0, 3, 12⟩ := by
    decide +kernel
  have hdelete := (@change_cost .reliable costsFilled (CppText.str "DELETE FROM t WHERE n > 5")).1
    eraseAbove (by decide +kernel)
  have hupdate := (@change_cost .reliable costsFilled (CppText.str "UPDATE t SET n = 1 WHERE n > 5")).2
    updateAbove (by decide +kernel)
  rw [herased] at hdelete
  rw [show 2 * updateAbove.columnsOptimized.length = 2 from rfl, hupdated] at hupdate
  exact ⟨herased, hupdated, by decide +kernel, hdelete, hupdate⟩

/-- What an INSERT does to the storage depends on its values only, not on the table. -/
theorem insert_cost {query : InsertQuery} (hc : compile t.info command = .ok (.insert query)) :
    Grows Executor.log (fun e => e.1.Stores)
      (query.values.length / t.info.columns.length * (2 + 2 * t.info.columns.length)) ⟨t, {}⟩
      (finalState (request os command t)) := by
  obtain ⟨raws, hraws⟩ := compile_insert hc
  obtain ⟨rows, hrows⟩ := Optimizer.optimizeInsertValues_fullRows hraws
  have hspends := Executor.executeInsert_spends os query hrows.length
  apply request_spends hc
  by_cases hwide : t.info.columns.length = 0
  · have hempty : query.values.length = 0 * t.info.columns.length := by
      rw [hrows.length, hwide, Nat.mul_zero]
    have hnone := Executor.executeInsert_spends os query hempty
    rw [hwide, Nat.div_zero]
    rwa [hwide] at hnone
  · rw [hrows.length, Nat.mul_div_cancel rows (by omega)]
    exact hspends

def storedTwo : InsertQuery where
  tabbleName := CppText.str "t"
  rawValues := [CppText.str "5", CppText.str "6"]
  values := [.int32 5, .int32 6]

/-- Two rows into the next two lines, with a flag and a value to store for each. -/
theorem insert_cost_sample :
    (finalState (request .reliable (CppText.str "INSERT INTO t 5 6") costsFilled)).result.body =
      [[.int64 3], [.int64 4]] ∧
    Grows Executor.log (fun e => e.1.Stores) 8 ⟨costsFilled, {}⟩
      (finalState (request .reliable (CppText.str "INSERT INTO t 5 6") costsFilled)) := by
  have hinfo : costsFilled.info = Tabble.sampleInfo := by decide +kernel
  have hcost := @insert_cost .reliable costsFilled (CppText.str "INSERT INTO t 5 6") storedTwo
    (by decide +kernel)
  rw [hinfo] at hcost
  exact ⟨by decide +kernel, hcost⟩

end
end SQLid
