import SQLid.RequestParser
import SQLid.Optimizer
import SQLid.Executor

/-!
# Requests to a database

`DataBase::optimizing` and `Operator::execute` on the database a client is
attached to. The query keeps a pointer to its table between the two, which is
the number of the table here.
-/
namespace SQLid
open Bytes (Text)
open CppText (str)

structure DataBase where
  absoluteWay : Text
  dataBaseName : Text
  tabbles : List Tabble
  tabblesName : List (Text × Nat)

def DataBase.getTabbleId (base : DataBase) (name : Text) : Except Fault Nat :=
  match base.tabblesName.lookup name with
  | some id => .ok id
  | none => .error (.incorrectInput (str "Unknown table name: " ++ name))

/-- The two exceptions `Operator` catches. -/
def Fault.isReported : Fault → Bool
  | .incorrectInput _ | .execution _ => true
  | _ => false

namespace Operator

/-- `optimize` and `execute` on the table of the query. -/
def process (os : Os) (query : QueryVariant) : EStateM Fault Execution Unit := do
  let query ← Programs.ofExcept (Optimizer.optimize (← get).table.info query)
  Executor.execute os query

/-- A request as the table it names sees it. -/
def answer (os : Os) (command : Text) : EStateM Fault Execution Unit := do
  let query ← Programs.ofExcept (RequestParser.parse command)
  process os query

/-- The database and the answer being built. -/
structure Serving where
  base : DataBase
  result : Result

/-- The table the query points to, written back whatever the outcome. -/
def onTabble (id : Nat) (x : EStateM Fault Execution Unit) : EStateM Fault Serving Unit := do
  match (← get).base.tabbles[id]? with
  | none => throw .undefined
  | some table =>
      Programs.zoom (fun s => ⟨table, s.result⟩)
        (fun s e => ⟨{ s.base with tabbles := s.base.tabbles.set id e.table }, e.result⟩) x

/-- The body of the `try` block. -/
def attempt (os : Os) (command : Text) : EStateM Fault Serving Unit := do
  let query ← Programs.ofExcept (RequestParser.parse command)
  let id ← Programs.ofExcept ((← get).base.getTabbleId query.base.tabbleName)
  onTabble id (process os query)

/-- After a `try` block that ends, the success flag is set whatever the executor
left in it. -/
def execute (os : Os) (command : Text) : EStateM Fault DataBase Result := fun base =>
  match (attempt os command).run ⟨base, {}⟩ with
  | .ok _ s => .ok { s.result with isSucces := true } s.base
  | .error e s =>
      if e.isReported then .ok { s.result with error := e.what, isSucces := false } s.base
      else .error e s.base

end Operator
end SQLid
