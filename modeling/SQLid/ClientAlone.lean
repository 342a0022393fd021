import SQLid.Clients

/-!
# A client alone

A thread that nobody else interrupts does to the table what the operations and the
statements of one thread do, and makes the rows they answer with.
-/
namespace SQLid
open Interleave Programs

namespace Client
open Thread (atom run_bind run_pure run_atom)

variable {α β : Type}

@[simp] theorem run_fail (e : Fault) : (fail e : Client α).run = throw e := run_atom _ _

@[simp] theorem run_ofExcept (x : Except Fault α) : (ofExcept x : Client α).run = Programs.ofExcept x := by
  cases x with
  | ok a => rfl
  | error e => exact run_fail e

@[simp] theorem run_onStorage (l : Action) (x : EStateM Fault MemoryMap α) :
    (onStorage l x).run = Tabble.onStorage x := run_atom l _

/-! The operations. -/

/-- Alone a client finds the file as it saw it, and grows it. -/
theorem run_makeRoom (os : Os) (waits : Bool) (cur : Nat) (t : Tabble) :
    (makeRoom os waits cur t.storage.getMaxLines).run.run t =
      (if t.storage.getMaxLines ≤ cur then Tabble.onStorage (MemoryMap.expand os none)
        else pure ()).run t := by
  unfold makeRoom
  split_ifs with h
  · rw [run_atom, expandSeen, run_bind_ok (EStateM.run_get t), if_neg (by omega)]
  · rfl

theorem run_allocateId (os : Os) (waits : Bool) :
    (allocateId os waits).run = Tabble.allocateId os := by
  funext t
  change (allocateId os waits).run.run t = (Tabble.allocateId os).run t
  unfold allocateId Tabble.allocateId popInStack
  rw [run_bind, run_atom, run_bind_ok (EStateM.run_get t)]
  cases hs : t.stackFreeId with
  | cons id rest =>
      rw [EStateM.run_bind, run_bind_ok (EStateM.run_get t), hs]
      rfl
  | nil =>
      rw [EStateM.run_bind, run_bind_ok (EStateM.run_get t), hs]
      change (allocateFresh os waits).run.run t = _
      unfold allocateFresh
      simp only [run_bind, run_atom]
      have hload : loadFreeId.run t = .ok t.freeId t := rfl
      have hlines : loadMaxLines.run t = .ok t.storage.getMaxLines t := rfl
      rw [run_bind_ok hload, run_bind_ok hlines, EStateM.run_bind, run_makeRoom]
      split_ifs
      · rw [EStateM.run_bind]
        rfl
      · rfl

theorem run_updateFrom (os : Os) (values : List VariantTypes) (cur : Nat) (first : Bool) (i : Nat)
    (columns : List Column) :
    (updateFrom os values cur first i columns).run = Tabble.updateFrom os values cur i columns := by
  induction columns generalizing first i with
  | nil => rfl
  | cons column columns ih =>
    unfold updateFrom Tabble.updateFrom
    cases values[i]? with
    | none => exact run_fail _
    | some value =>
        dsimp only
        rw [run_bind, run_onStorage]
        exact bind_congr fun _ => ih false (i + 1)

theorem run_update (os : Os) (values : List VariantTypes) (columns : List Column) (first : Bool)
    (cur index : Nat) :
    (update os values columns first cur index).run = Tabble.update os values columns cur index := by
  unfold update Tabble.update note
  rw [run_bind, run_atom]
  exact bind_congr fun _ => run_updateFrom os values cur first index columns

theorem run_insert (os : Os) (waits : Bool) (values : List VariantTypes) (columns : List Column)
    (index : Nat) :
    (insert os waits values columns index).run = Tabble.insert os values columns index := by
  unfold insert Tabble.insert note
  simp only [run_bind, run_allocateId, run_atom, run_onStorage, run_update, run_pure]
  rfl

theorem run_erase (line : Nat) : (erase line).run = Tabble.erase line := by
  unfold erase Tabble.erase note
  simp only [run_bind, run_atom, run_onStorage, run_pure]
  rfl

@[simp] theorem run_readColumn (line : Nat) (column : Column) :
    (readColumn line column).run = Tabble.readColumn line column := run_atom _ _

theorem run_satisfiesFrom (line : Nat) (columns : List Column) (current : Bool)
    (logic : ConditionType) (conds : List Condition) :
    (satisfiesFrom line columns current logic conds).run =
      Executor.satisfiesFrom line columns current logic conds := by
  induction conds generalizing current logic with
  | nil => rfl
  | cons cond conds ih =>
    unfold satisfiesFrom Executor.satisfiesFrom
    by_cases hmax : cond.collumnId = sizeMax
    · rw [if_pos hmax, if_pos hmax]
      exact ih _ _
    · rw [if_neg hmax, if_neg hmax]
      cases columns[cond.collumnId]? with
      | none => exact run_fail _
      | some column =>
          dsimp only
          rw [run_bind, run_readColumn]
          refine bind_congr fun value => ?_
          rw [run_bind, run_ofExcept]
          exact bind_congr fun met => ih _ _

theorem run_selects (select : Bool) (conditions : List Condition) (columns : List Column) (line : Nat) :
    (selects select conditions columns line).run = Executor.selects conditions columns line := by
  unfold selects Executor.selects
  rw [run_bind, run_onStorage]
  refine bind_congr fun b => ?_
  split_ifs
  · rfl
  · exact run_satisfiesFrom line columns _ _ _
  · rfl

theorem run_readColumns (line : Nat) (columns : List Column) (ids : List Nat) :
    (readColumns line columns ids).run = Executor.readColumns line columns ids := by
  induction ids with
  | nil => rfl
  | cons id ids ih =>
    unfold readColumns Executor.readColumns
    cases columns[id]? with
    | none => exact run_fail _
    | some column =>
        dsimp only
        rw [run_bind, run_readColumn]
        refine bind_congr fun value => ?_
        rw [run_bind, ih]
        rfl

theorem run_pushRecord (line : Nat) (ids : List Nat) (columns : List Column) :
    (pushRecord line ids columns).run = Executor.readRecord line ids columns := by
  unfold pushRecord Executor.readRecord
  simp only [run_bind, run_readColumns, run_atom, run_pure]
  rfl

/-! The statements. -/

/-- Both end alike, on the same table, and the answer has the rows of the thread. -/
inductive Agree : EStateM.Result Fault Tabble (List (List VariantTypes)) →
    EStateM.Result Fault Execution Unit → Prop
  | ok {t : Tabble} {r : Result} : Agree (.ok r.body t) (.ok () ⟨t, r⟩)
  | error {e : Fault} {t : Tabble} {r : Result} : Agree (.error e t) (.error e ⟨t, r⟩)

/-- The thread goes on from the rows found so far. -/
def Performs (p : List (List VariantTypes) → Client (List (List VariantTypes)))
    (x : EStateM Fault Execution Unit) : Prop :=
  ∀ t r, Agree ((p r.body).run.run t) (x.run ⟨t, r⟩)

section Performs
variable {p : List (List VariantTypes) → Client (List (List VariantTypes))}
  {x : EStateM Fault Execution Unit}
  {q : α → List (List VariantTypes) → Client (List (List VariantTypes))}
  {y : α → EStateM Fault Execution Unit}
  {q' : Nat → List (List VariantTypes) → Client (List (List VariantTypes))}
  {y' : Nat → EStateM Fault Execution Unit}

theorem performs_pure : Performs pure (pure ()) := fun _ _ => .ok

theorem performs_onResult {f : Result → Result} (hf : ∀ r, (f r).body = r.body)
    (h : Performs p x) : Performs p (Executor.onResult f >>= fun _ => x) := by
  intro t r
  have hrest := h t (f r)
  rw [hf] at hrest
  exact hrest

theorem performs_pushRow {row : List VariantTypes} (h : Performs p x) :
    Performs (fun body => p (body ++ [row])) (Executor.pushRow row >>= fun _ => x) :=
  fun t r => h t { r with body := r.body ++ [row] }

theorem performs_bind {c : Client α} {z : EStateM Fault Execution α}
    (hc : ∀ t r, z.run ⟨t, r⟩ = match c.run.run t with
      | .ok a t' => .ok a ⟨t', r⟩
      | .error e t' => .error e ⟨t', r⟩) (h : ∀ a, Performs (q a) (y a)) :
    Performs (fun body => c >>= fun a => q a body) (z >>= y) := by
  intro t r
  have hz := hc t r
  rw [run_bind]
  cases hrun : c.run.run t with
  | ok a t' =>
      rw [hrun] at hz
      rw [run_bind_ok hrun, run_bind_ok hz]
      exact h a t' r
  | error e t' =>
      rw [hrun] at hz
      rw [run_bind_error hrun, run_bind_error hz]
      exact .error

theorem performs_onTable {c : Client α} {z : EStateM Fault Tabble α} (hc : c.run = z)
    (h : ∀ a, Performs (q a) (y a)) :
    Performs (fun body => c >>= fun a => q a body) (Executor.onTable z >>= y) := by
  refine performs_bind (fun t r => ?_) h
  rw [hc, Executor.onTable, run_zoom]
  cases z.run t <;> rfl

/-- One statement part after the other. -/
theorem performs_seq {p' : List (List VariantTypes) → Client (List (List VariantTypes))}
    {x' : EStateM Fault Execution Unit} (h : Performs p x) (h' : Performs p' x') :
    Performs (fun body => p body >>= p') (x >>= fun _ => x') := by
  intro t r
  have hp := h t r
  rw [run_bind]
  generalize hc : (p r.body).run.run t = c at hp
  generalize hx : x.run ⟨t, r⟩ = z at hp
  cases hp with
  | @ok t' r' =>
      rw [run_bind_ok hc, run_bind_ok hx]
      exact h' t' r'
  | error =>
      rw [run_bind_error hc, run_bind_error hx]
      exact .error

theorem performs_ofExcept {z : Except Fault α} (h : ∀ a, Performs (q a) (y a)) :
    Performs (fun body => ofExcept z >>= fun a => q a body) (Programs.ofExcept z >>= y) := by
  refine performs_bind (fun t r => ?_) h
  rw [run_ofExcept]
  cases z <;> rfl

/-- A counter that the statement reads. -/
theorem performs_load {l : Action} {f : Tabble → α} (h : ∀ a, Performs (q a) (y a)) :
    Performs (fun body => atom l (do return f (← get)) >>= fun a => q a body)
      (get >>= fun s => y (f s.table)) := fun t r => h (f t) t r

theorem performs_ite {c : Prop} [Decidable c]
    {p' : List (List VariantTypes) → Client (List (List VariantTypes))}
    {x' : EStateM Fault Execution Unit} (h : c → Performs p x) (h' : ¬ c → Performs p' x') :
    Performs (fun body => if c then p body else p' body) (if c then x else x') := by
  split_ifs with hc
  · exact h hc
  · exact h' hc

/-- Steps of the thread that the executor has no program for. -/
theorem performs_skip {l : Action} (h : Performs p x) :
    Performs (fun body => atom l (pure ()) >>= fun _ => p body) x := fun t r => h t r

theorem performs_activeCount {limit : Nat} (h : ∀ n, Performs (q' n) (y' n)) :
    Performs (fun body => activeCount limit >>= fun n => q' n body)
      (Executor.activeCount limit >>= y') := performs_bind (fun _ _ => rfl) h

theorem performs_reserveBody {n : Nat} (h : Performs p x) :
    Performs (fun body => reserveBody n >>= fun _ => p body)
      (Executor.reserveBody n >>= fun _ => x) := by
  refine performs_bind (fun t r => ?_) fun _ => h
  unfold reserveBody Executor.reserveBody
  split_ifs
  · rw [run_fail]
    rfl
  · rfl

end Performs

/-- What a statement does to a line it has selected, and the row it makes of it. -/
def Acts (act : Nat → Client (List VariantTypes)) (act' : Nat → EStateM Fault Execution Unit) : Prop :=
  ∀ line, Performs (fun body => act line >>= fun row => pure (body ++ [row])) (act' line)

theorem performs_scanLines {select : Bool} {conditions : List Condition} {columns : List Column}
    {count : Nat} {act : Nat → Client (List VariantTypes)} {act' : Nat → EStateM Fault Execution Unit}
    (hact : Acts act act') (n i : Nat) :
    Performs (scanLines select conditions columns count act n i)
      (Executor.scanLines conditions columns count act' n i) := by
  induction n generalizing i with
  | zero => exact performs_pure
  | succ n ih =>
    intro t r
    unfold scanLines Executor.scanLines Scan.loop
    rw [run_bind_ok (EStateM.run_get _)]
    by_cases hcount : r.body.length < count
    · rw [if_pos hcount, if_pos hcount]
      refine performs_onTable (q := fun b body => if b then do
          let row ← act i
          scanLines select conditions columns count act n (i + 1) (body ++ [row])
        else do
          atom (.skip i) (pure ())
          scanLines select conditions columns count act n (i + 1) body)
        (run_selects select conditions columns i) (fun b => ?_) t r
      cases b with
      | false => exact ih (i + 1)
      | true =>
          intro t' r'
          have h := performs_seq (hact i) (ih (i + 1)) t' r'
          simp only [run_bind, bind_assoc, run_pure, pure_bind] at h
          simp only [if_true, run_bind]
          exact h
    · rw [if_neg hcount, if_neg hcount]
      exact .ok

theorem acts_pushRecord (ids : List Nat) (columns : List Column) :
    Acts (fun line => pushRecord line ids columns)
      (fun line => do
        Executor.pushRow (← Executor.onTable (Executor.readRecord line ids columns))) := by
  intro line
  exact performs_onTable (run_pushRecord line ids columns) fun _ => performs_pushRow performs_pure

theorem acts_eraseLine : Acts eraseLine (fun line => do
    let _ ← Executor.onTable (Tabble.erase line)
    Executor.pushRow [Executor.idCell line]) := by
  intro line t r
  have h := performs_onTable (q := fun _ body => pure (body ++ [[Executor.idCell line]]))
    (run_erase line) (fun _ => performs_pushRow performs_pure) t r
  simp only [eraseLine, run_bind, bind_assoc, run_pure, pure_bind] at h ⊢
  exact h

theorem acts_updateLine (os : Os) (values : List VariantTypes) (columns : List Column) :
    Acts (updateLine os values columns) (fun line => do
      Executor.onTable (Tabble.update os values columns line 0)
      Executor.pushRow [Executor.idCell line]) := by
  intro line t r
  have h := performs_onTable (q := fun _ body => pure (body ++ [[Executor.idCell line]]))
    (run_update os values columns true line 0) (fun _ => performs_pushRow performs_pure) t r
  simp only [updateLine, run_bind, bind_assoc, run_pure, pure_bind] at h ⊢
  exact h

section statements
variable {t : Tabble} {r : Result}

theorem run_onResult (f : Result → Result) (t : Tabble) (r : Result) :
    (Executor.onResult f).run ⟨t, r⟩ = .ok () ⟨t, f r⟩ := rfl

/-- A statement starts with no rows. -/
theorem Performs.agree {p : List (List VariantTypes) → Client (List (List VariantTypes))}
    {x : EStateM Fault Execution Unit} (h : Performs p x) (hr : r.body = []) :
    Agree ((p []).run.run t) (x.run ⟨t, r⟩) := by
  rw [← hr]
  exact h t r

theorem performs_sorted (query : SelectQuery) :
    Performs (fun body => pure (sorted query body))
      (if query.orderColumnsOptimized ≠ [] then
        Executor.onResult fun r => { r with body := Executor.sortBody query.orderColumnsOptimized r.body }
      else pure ()) := by
  intro t r
  unfold sorted
  split_ifs
  · exact @Agree.ok t { r with body := _ }
  · exact .ok

theorem agree_executeSelect (query : SelectQuery) (hr : r.body = []) :
    Agree ((executeSelect t.info.columns query).run.run t)
      ((Executor.executeSelect query).run ⟨t, r⟩) := by
  unfold executeSelect Executor.executeSelect
  rw [run_bind_ok (run_onResult _ t r), run_bind_ok (EStateM.run_get _)]
  cases hd : Executor.directIndex query.conditions with
  | some desired =>
      refine Performs.agree (p := fun body => do
        let _ ← ofExcept (Executor.columnHeader t.info.columns query.columnsOptimized)
        let line ← ofExcept desired.getInt64
        atom (.aim line.toNat) (pure ())
        let row ← pushRecord line.toNat query.columnsOptimized t.info.columns
        return body ++ [row]) ?_ hr
      refine performs_ofExcept fun header => performs_onResult (fun _ => rfl) ?_
      refine performs_ofExcept fun line => performs_skip ?_
      exact acts_pushRecord query.columnsOptimized t.info.columns line.toNat
  | none =>
      refine Performs.agree (p := fun body => do
        let _ ← ofExcept (Executor.columnHeader t.info.columns query.columnsOptimized)
        let freeId ← getMaxActiveLine
        let strip ← ofExcept (Executor.stripSelect 0 freeId query.conditions)
        let count ← activeCount query.limit
        reserveBody count
        let body ← scanLines true strip.2.2 t.info.columns count
          (fun line => pushRecord line query.columnsOptimized t.info.columns)
          (strip.2.1 - strip.1) strip.1 body
        return sorted query body) ?_ hr
      refine performs_ofExcept fun header => performs_onResult (fun _ => rfl) ?_
      refine performs_load fun freeId => performs_ofExcept fun strip => ?_
      refine performs_activeCount fun count => performs_reserveBody ?_
      exact performs_seq (performs_scanLines (acts_pushRecord _ _) _ _) (performs_sorted query)

theorem agree_executeDelete (query : DeleteQuery) (hr : r.body = []) :
    Agree ((executeDelete t.info.columns query).run.run t)
      ((Executor.executeDelete query).run ⟨t, r⟩) := by
  unfold executeDelete Executor.executeDelete
  rw [run_bind_ok (run_onResult _ t r), run_bind_ok (EStateM.run_get _)]
  cases hd : Executor.directIndex query.conditions with
  | some desired =>
      refine Performs.agree (p := fun body => do
        let line ← ofExcept desired.getInt64
        if ← onStorage (.isActive false line.toNat) (MemoryMap.isActive line.toNat) then do
          let row ← eraseLine line.toNat
          return body ++ [row]
        else return body ++ [[Executor.idCell line.toNat]]) ?_ hr
      refine performs_ofExcept fun line => performs_onTable (run_onStorage _ _) fun b => ?_
      cases b with
      | false => exact performs_pushRow performs_pure
      | true =>
          intro t r
          have h := performs_onTable (q := fun _ body => pure (body ++ [[Executor.idCell line.toNat]]))
            (run_erase line.toNat) (fun _ => performs_onResult
              (f := fun r => { r with isSucces := true }) (fun _ => rfl)
              (performs_pushRow performs_pure)) t r
          simp only [eraseLine, run_bind, bind_assoc, run_pure, pure_bind, if_true] at h ⊢
          exact h
  | none =>
      refine Performs.agree (p := fun body => do
        let freeId ← getMaxActiveLine
        let maxLine ← ofExcept (Executor.upperBound freeId query.conditions)
        let count ← activeCount query.limit
        reserveBody count
        scanLines false query.conditions t.info.columns count eraseLine maxLine 0 body) ?_ hr
      refine performs_load fun freeId => performs_ofExcept fun maxLine => ?_
      refine performs_activeCount fun count => performs_reserveBody ?_
      have h := performs_seq (@performs_scanLines false query.conditions t.info.columns count _ _
        acts_eraseLine maxLine 0)
        (performs_onResult (f := fun r => { r with isSucces := true }) (fun _ => rfl) performs_pure)
      intro t' r'
      have h' := h t' r'
      simp only [run_bind, run_pure, bind_pure] at h'
      exact h'

theorem agree_executeUpdate (os : Os) (query : UpdateQuery) (hr : r.body = []) :
    Agree ((executeUpdate os t.info.columns query).run.run t)
      ((Executor.executeUpdate os query).run ⟨t, r⟩) := by
  unfold executeUpdate Executor.executeUpdate
  rw [run_bind_ok (run_onResult _ t r), run_bind_ok (EStateM.run_get _)]
  cases hd : Executor.directIndex query.conditions with
  | some desired =>
      refine Performs.agree (p := fun body => do
        let columnsToUpdate ← ofExcept (Executor.columnsAt t.info.columns query.columnsOptimized)
        let line ← ofExcept desired.getInt64
        if ← onStorage (.isActive false line.toNat) (MemoryMap.isActive line.toNat) then do
          let row ← updateLine os query.values columnsToUpdate line.toNat
          return body ++ [row]
        else return body) ?_ hr
      refine performs_ofExcept fun columns => performs_ofExcept fun line =>
        performs_onTable (run_onStorage _ _) fun b => ?_
      cases b with
      | false => exact performs_pure
      | true =>
          intro t r
          have h := performs_onTable (q := fun _ body => pure (body ++ [[Executor.idCell line.toNat]]))
            (run_update os query.values columns true line.toNat 0) (fun _ =>
              performs_pushRow (performs_onResult (f := fun r => { r with isSucces := true })
                (fun _ => rfl) performs_pure)) t r
          simp only [updateLine, run_bind, bind_assoc, run_pure, pure_bind, if_true] at h ⊢
          exact h
  | none =>
      refine Performs.agree (p := fun body => do
        let columnsToUpdate ← ofExcept (Executor.columnsAt t.info.columns query.columnsOptimized)
        let freeId ← getMaxActiveLine
        let maxLine ← ofExcept (Executor.upperBound freeId query.conditions)
        let count ← activeCount query.limit
        reserveBody count
        scanLines false query.conditions t.info.columns count
          (updateLine os query.values columnsToUpdate) maxLine 0 body) ?_ hr
      refine performs_ofExcept fun columns => ?_
      dsimp only
      refine performs_load fun freeId => performs_ofExcept fun maxLine => ?_
      refine performs_activeCount fun count => performs_reserveBody ?_
      exact performs_scanLines (acts_updateLine os query.values columns) maxLine 0

theorem performs_insertFrom (os : Os) (waits : Nat → Bool) (values : List VariantTypes)
    (columns : List Column) (n i : Nat) :
    Performs (insertFrom os waits values columns n i) (Executor.insertFrom os values columns n i) := by
  induction n generalizing i with
  | zero => exact performs_pure
  | succ n ih =>
    refine performs_ite (fun _ => ?_) fun _ => performs_pure
    refine performs_onTable (run_insert os (waits i) values columns i) fun cur => ?_
    exact performs_pushRow (ih (i + columns.length))

/-- The table and the rows of a statement are those of its thread. -/
theorem execute_alone (os : Os) (waits : Nat → Bool) (query : QueryVariant) (hr : r.body = []) :
    (finalState ((Executor.execute os query).run ⟨t, r⟩)).table =
        finalState ((execute os waits t.info.columns query).run.run t) ∧
      ∀ body, value ((execute os waits t.info.columns query).run.run t) = some body →
        (finalState ((Executor.execute os query).run ⟨t, r⟩)).result.body = body := by
  have hagree {c : EStateM.Result Fault Tabble (List (List VariantTypes))}
      {z : EStateM.Result Fault Execution Unit} (h : Agree c z) :
      (finalState z).table = finalState c ∧ ∀ body, value c = some body →
        (finalState z).result.body = body := by
    cases h with
    | ok => exact ⟨rfl, fun body hb => by simpa [value] using hb⟩
    | error => exact ⟨rfl, fun body hb => by cases hb⟩
  unfold Executor.execute
  rw [run_bind_ok (run_onResult _ t r)]
  cases query with
  | select query => exact hagree (agree_executeSelect query hr)
  | erase query => exact hagree (agree_executeDelete query hr)
  | update query => exact hagree (agree_executeUpdate os query hr)
  | insert query =>
      -- what the executor catches has changed the table as it would have uncaught
      have h := Performs.agree (t := t) (r := { r with
        header := r.header ++ [CppText.str "ID"], types := r.types ++ [CppText.str "INT64"],
        isSucces := true }) (performs_insertFrom os waits query.values t.info.columns
          query.values.length 0) hr
      dsimp only
      unfold Executor.executeInsert
      rw [run_bind_ok (run_onResult _ t _), run_bind_ok (EStateM.run_get _), run_tryCatch,
        EStateM.run_bind]
      change Agree ((executeInsert os waits t.info.columns query).run.run t) _ at h
      dsimp only
      generalize hx : (Executor.insertFrom os query.values t.info.columns query.values.length 0).run
        _ = x at h ⊢
      change _ = finalState ((executeInsert os waits t.info.columns query).run.run t) ∧
        ∀ body, value ((executeInsert os waits t.info.columns query).run.run t) = some body → _
      generalize (executeInsert os waits t.info.columns query).run.run t = c at h ⊢
      cases h with
      | @ok t' r' =>
          refine ⟨rfl, fun body hb => ?_⟩
          obtain rfl : r'.body = body := by simpa [value] using hb
          rfl
      | @error e =>
          refine ⟨?_, fun body hb => by cases hb⟩
          dsimp only
          split_ifs
          · rfl
          · rfl

end statements

end Client
end SQLid
