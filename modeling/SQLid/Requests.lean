import SQLid.Service

/-!
# Runs of one table

A table starts from an empty storage file, answers requests one after the other
and is opened again from its file. Whether an exception reaches the client or ends
the process, the table it leaves is the one the next request or the next start
finds; undefined behaviour and a wait without end leave none.
-/
namespace SQLid
open Bytes (Text)
open Programs
open Operator (answer)

/-- The query a request becomes for a table of this schema. -/
def compile (info : TabbleInfo) (command : Text) : Except Fault QueryVariant := do
  Optimizer.optimize info (← RequestParser.parse command)

def request (os : Os) (command : Text) (t : Tabble) : EStateM.Result Fault Execution Unit :=
  (answer os command).run ⟨t, {}⟩

/-- The conditions of a statement that changes the lines it finds. -/
def QueryVariant.changes : QueryVariant → Option (List Condition)
  | .erase query => some query.conditions
  | .update query => some query.conditions
  | .select _ | .insert _ => none

/-- No growth of the file has failed since it was opened, and a DELETE or UPDATE that
goes to one line directly finds it in the file or not active. -/
structure Orderly (t : Tabble) (command : Text) : Prop where
  idle : t.storage.expanding = false
  aimed : ∀ query conds, compile t.info command = .ok query → query.changes = some conds →
    Executor.Aimed t conds

/-- The states of a table over runs whose requests meet `ok`. -/
inductive Reach (ok : Tabble → Text → Prop) (os : Os) (schema : TabbleInfo) : Tabble → Prop
  | start {calls : Nat} {t : Tabble} :
      Tabble.openFile os schema .empty calls = .ok () t → Reach ok os schema t
  | request {t : Tabble} {s : Execution} (command : Text) : Reach ok os schema t → ok t command →
      Settles (fun e => e.isException = false) (request os command t) s → Reach ok os schema s.table
  | restart {t t' : Tabble} {calls : Nat} : Reach ok os schema t →
      Tabble.openFile os t.info t.storage.core.file calls = .ok () t' → Reach ok os schema t'

section
variable {os : Os} {schema : TabbleInfo} {t : Tabble} {command : Text} {query : QueryVariant}

theorem run_answer (h : compile t.info command = .ok query) (r : Result) :
    (answer os command).run ⟨t, r⟩ = (Executor.execute os query).run ⟨t, r⟩ := by
  obtain ⟨raw, hparse, hopt⟩ := Except_bind_ok h
  unfold answer Operator.process
  rw [hparse, run_bind_ok (run_ofExcept_ok raw _), run_bind_ok (EStateM.run_get _), hopt,
    run_bind_ok (run_ofExcept_ok query _)]

theorem run_answer_error {e : Fault} (h : compile t.info command = .error e) (r : Result) :
    (answer os command).run ⟨t, r⟩ = .error e ⟨t, r⟩ := by
  unfold compile at h
  unfold answer Operator.process
  cases hparse : RequestParser.parse command with
  | error e' =>
      rw [hparse] at h
      cases h
      exact run_bind_error (run_ofExcept_error _ _)
  | ok raw =>
      rw [hparse] at h
      change Optimizer.optimize t.info raw = .error e at h
      rw [run_bind_ok (run_ofExcept_ok raw _), run_bind_ok (EStateM.run_get _), h]
      exact run_bind_error (run_ofExcept_error _ _)

theorem optimize_insert {info : TabbleInfo} {raw : QueryVariant} {query : InsertQuery}
    (h : Optimizer.optimize info raw = .ok (.insert query)) :
    ∃ r : InsertQuery, Optimizer.optimizeInsertValues info r.rawValues = .ok query.values := by
  rcases Optimizer.optimize_cases h with ⟨r, q, -, heq, -⟩ | ⟨r, q, -, heq, hq⟩ | ⟨r, q, -, heq, -⟩ |
    ⟨r, q, -, heq, -⟩ <;> cases heq
  obtain ⟨values, hvalues, hq⟩ := Except_bind_ok hq
  cases hq
  exact ⟨r, hvalues⟩

theorem compile_insert {info : TabbleInfo} {query : InsertQuery}
    (h : compile info command = .ok (.insert query)) :
    ∃ raws, Optimizer.optimizeInsertValues info raws = .ok query.values := by
  obtain ⟨raw, -, hopt⟩ := Except_bind_ok h
  obtain ⟨r, hr⟩ := optimize_insert hopt
  exact ⟨r.rawValues, hr⟩

/-- What a request leaves of a served table. -/
theorem request_kept (hreg : schema.Regular) (h : Served schema t)
    (ha : ∀ query conds, compile t.info command = .ok query → query.changes = some conds →
      Executor.Aimed t conds) :
    Post (fun _ s => Kept schema s.table) (fun e s => e.isException = true → Kept schema s.table)
      (request os command t) := by
  unfold request
  cases hc : compile t.info command with
  | error e =>
      rw [run_answer_error hc]
      exact .error fun _ => h.kept
  | ok query =>
      rw [run_answer hc]
      have hres : Triple (fun s : Execution => s.table = t)
          (Executor.onResult fun r => { r with isSucces := true }) (fun _ s => s.table = t)
          (fun e s => e.isException = true → Kept schema s.table) := Executor.triple_onResult_eq _
      refine (hres.bind (R := fun _ s => Kept schema s.table) fun _ => ?_) ⟨t, {}⟩ rfl
      cases query with
      | select query =>
          exact (Executor.select_keeps (P := Served schema) (fun _ _ h hl => h.logOnly hl)
            query).conseq (Executor.Served.of_eq h) (fun _ _ h => h.kept) fun _ _ h _ => h.kept
      | insert query =>
          obtain ⟨raws, hraws⟩ := compile_insert hc
          obtain ⟨rows, hrows⟩ := Optimizer.optimizeInsertValues_fullRows hraws
          rw [h.info] at hrows
          exact (Executor.insert_kept os hreg.toLayout hrows).conseq (Executor.Served.of_eq h)
            (fun _ _ h => h) fun _ _ h => h
      | erase query =>
          exact (Executor.delete_served hreg h (ha _ _ hc rfl)).conseq (fun _ h => h)
            (fun _ _ h => h.kept) fun _ _ h he => (h he).kept
      | update query =>
          exact (Executor.update_served os hreg h (ha _ _ hc rfl)).conseq (fun _ h => h)
            (fun _ _ h => h.kept) fun _ _ h he => (h he).kept

theorem Tabble.Opened.served {file : ByteFile} (o : Tabble.Opened schema file t) :
    Served schema t := by
  refine ⟨o.sound, o.info, o.places.ge, ?_⟩
  have := o.places
  omega

theorem openFile_served (hreg : schema.Regular) {file : ByteFile} {calls : Nat}
    (hfile : file.size = 0 ∨ MemoryMapLinux.Lines file schema.lineLength)
    (h : Tabble.openFile os schema file calls = .ok () t) : Served schema t := by
  rcases Tabble.openFile_outcome os calls hreg.toLayout hreg.fits hfile with
    ⟨t', hok, o⟩ | ⟨e, t', herr, -⟩
  · rw [hok] at h
    cases h
    exact o.served
  · rw [herr] at h
    cases h

/-- Every state of an orderly run is served until a growth fails. -/
theorem Reach.kept (hreg : schema.Regular) (h : Reach Orderly os schema t) : Kept schema t := by
  induction h with
  | start hopen =>
      have hempty : ByteFile.empty.size = 0 := rfl
      exact (openFile_served hreg (.inl hempty) hopen).kept
  | request command _ hok hrun ih =>
      rcases (request_kept hreg (ih.served hok.idle) hok.aimed).settles hrun with
        ⟨-, h⟩ | ⟨e, he, h⟩
      · exact h
      · exact h (by simpa using he)
  | restart _ hopen ih =>
      rw [ih.info] at hopen
      exact (openFile_served hreg (.inr ih.file) hopen).kept

theorem Reach.served (hreg : schema.Regular) (h : Reach Orderly os schema t)
    (hidle : t.storage.expanding = false) : Served schema t := (h.kept hreg).served hidle

end
end SQLid
