import SQLid.System

/-!
# Clients and their messages

`CommandsExecutor.h`, `Operator.h` and the body of the loop of `SyncServer.h`: one
message of one client is processed at a time.
-/
namespace SQLid
open Bytes (Text)
open CppText (str)

structure ClientInfo where
  id : Nat
  isConsole : Bool := false
  joinedToDataBase : Bool := false
  baseId : Nat := 0
  deriving DecidableEq, Repr

variable {δ : Type}

namespace CommandsExecutor

/-- The system, the client and the answer being built. -/
structure Commanding (δ : Type) where
  sys : System δ
  client : ClientInfo
  result : Result

def onSystem {α : Type} (x : EStateM Fault (System δ) α) : EStateM Fault (Commanding δ) α :=
  Programs.zoom Commanding.sys (fun s sys => { s with sys := sys }) x

def onResult (f : Result → Result) : EStateM Fault (Commanding δ) Unit :=
  modify fun s => { s with result := f s.result }

def say (messeage : Text) : EStateM Fault (Commanding δ) Unit :=
  onResult fun r => { r with messeage := messeage }

/-- Empty slots are passed over. -/
def showStructure (sys : System δ) : List (List VariantTypes) :=
  sys.bases.filterMap fun slot => slot.map fun base => [.string base.getBaseNameAndTablesNames]

def attach (databaseName : Text) : EStateM Fault (Commanding δ) Unit := do
  match (← get).sys.getDataBaseId databaseName with
  | .error _ => throw (.incorrectInput (str "Unknown database: " ++ databaseName))
  | .ok id =>
      modify fun s => { s with client := { s.client with baseId := id, joinedToDataBase := true } }
      say (str "Succes")

def execute (fs : FileSystem δ) (os : Os) (command : CommandsVariant) :
    EStateM Fault (Commanding δ) Unit := do
  match command with
  | .attach databaseName => attach databaseName
  | .createDatabase databaseName => do
      onSystem (System.createDataBase fs os databaseName)
      say (str "Database created")
  | .createTableForDatabase stream => do
      onSystem (System.createTable fs os stream)
      say (str "Table created")
  | .backupDatabase base backup => do
      onSystem (System.backUpDatabase fs base backup)
      say (str "Backuped")
  | .restoreDatabase backup base => do
      onSystem (System.restoreDatabase fs os backup base)
      say (str "Restored")
  | .showStructure => do
      let rows := showStructure (← get).sys
      onResult fun r => { r with body := r.body ++ rows }
      say (str "Info:")
  | .dropDatabase base => do
      let _ ← onSystem (System.deleteDatabase fs base)
      say (str "Base dropped")
  | .help => do
      onResult fun r => { r with body := getHelp }
      say (str "Some info ...")
  onResult fun r => { r with isSucces := true }

end CommandsExecutor

namespace Operator
open CommandsExecutor (Commanding)

/-- The body of the `try` block of `executeCommand`. -/
def attemptCommand (fs : FileSystem δ) (os : Os) (command : Text) :
    EStateM Fault (Commanding δ) Unit := do
  let com ← Programs.ofExcept (CommandsParser.parse (CppText.words command))
  CommandsExecutor.execute fs os com

def executeCommand (fs : FileSystem δ) (os : Os) (command : Text) :
    EStateM Fault (System δ × ClientInfo) Result := fun s =>
  match (attemptCommand fs os command).run ⟨s.1, s.2, {}⟩ with
  | .ok _ c => .ok { c.result with isSucces := true } (c.sys, c.client)
  | .error e c =>
      if e.isReported then .ok { c.result with error := e.what, isSucces := false } (c.sys, c.client)
      else .error e (c.sys, c.client)

/-- The lookup of the client's database stands before the `try` block. -/
def executeFor (os : Os) (client : ClientInfo) (command : Text) : EStateM Fault (System δ) Result := do
  let base ← Programs.ofExcept ((← get).getDataBaseById client.baseId)
  Programs.zoom (fun _ => base)
    (fun s base => { s with bases := s.bases.set client.baseId (some base) }) (execute os command)

end Operator

/-- `threads` are the clients whose loop runs. -/
structure SyncServer (δ : Type) where
  sys : System δ
  freeId : Nat
  clients : Nat → Option ClientInfo
  threads : List Nat

namespace SyncServer

def start (sys : System δ) : SyncServer δ := ⟨sys, 0, fun _ => none, []⟩

def addNewClient (sv : SyncServer δ) : SyncServer δ :=
  { sv with
    freeId := sv.freeId + 1
    clients := Function.update sv.clients sv.freeId (some { id := sv.freeId })
    threads := sv.freeId :: sv.threads }

def setClient (id : Nat) (client : ClientInfo) (sv : SyncServer δ) : SyncServer δ :=
  { sv with clients := Function.update sv.clients id (some client) }

/-- What the loop does with a message that has been read. -/
def answerMessage (fs : FileSystem δ) (os : Os) (id : Nat) (buf : Text) :
    EStateM Fault (SyncServer δ) Result := do
  match (← get).clients id with
  | none => throw .outOfRange
  | some client =>
      if buf = str "DISCONNECT" then do
        modify fun sv => { sv with threads := sv.threads.erase id }
        return { isSucces := true, messeage := str "DISCONNECTED" }
      else if buf = str "LEAVE" then do
        modify (setClient id { client with joinedToDataBase := false })
        return { isSucces := true, messeage := str "LEAVED" }
      else if client.joinedToDataBase then
        Programs.zoom SyncServer.sys (fun sv sys => { sv with sys := sys })
          (Operator.executeFor os client buf)
      else
        Programs.zoom (fun sv => (sv.sys, client))
          (fun sv s => setClient id s.2 { sv with sys := s.1 }) (Operator.executeCommand fs os buf)

/-- Clients come, and messages of clients whose loop runs are processed in any order,
those that meet `ok`. The state an uncaught exception leaves counts too. -/
inductive Step (fs : FileSystem δ) (os : Os) (ok : SyncServer δ → Nat → Text → Prop) :
    SyncServer δ → SyncServer δ → Prop
  | connect (sv : SyncServer δ) : Step fs os ok sv sv.addNewClient
  | message {sv : SyncServer δ} (id : Nat) (buf : Text) : id ∈ sv.threads → ok sv id buf →
      Step fs os ok sv (Programs.finalState ((answerMessage fs os id buf).run sv))

inductive Steps (fs : FileSystem δ) (os : Os) (ok : SyncServer δ → Nat → Text → Prop)
    (sv : SyncServer δ) : SyncServer δ → Prop
  | refl : Steps fs os ok sv sv
  | step {sv' sv'' : SyncServer δ} : Steps fs os ok sv sv' → Step fs os ok sv' sv'' →
      Steps fs os ok sv sv''

/-- A server whose system has started over some disk. -/
def Started (fs : FileSystem δ) (os : Os) (sv : SyncServer δ) : Prop :=
  ∃ absolutePath disk sys, (System.construct fs os).run (System.blank absolutePath disk) = .ok () sys ∧
    sv = start sys

end SyncServer
end SQLid
