import SQLid.Commands
import SQLid.FileSystem

/-!
# The registry of databases

`system.h`: a vector of slots, each with a database or empty, and the map from names
to slots. Every command is run by one thread at a time; `createDataBase` works on the
disk before it takes the lock, which leaves the registry alone until then.
-/
namespace SQLid
open Bytes (Text)
open CppText (str)

structure System (δ : Type) where
  absolutePath : Text
  bases : List (Option DataBase)
  nameBase : List (Text × Nat)
  disk : δ

namespace System
variable {δ : Type}

def backUpName : Text := str "backup"

def onDisk {α : Type} (x : EStateM Fault δ α) : EStateM Fault (System δ) α :=
  Programs.zoom System.disk (fun s d => { s with disk := d }) x

def throwIf (c : Prop) [Decidable c] (e : Fault) : EStateM Fault (System δ) Unit :=
  if c then throw e else pure ()

/-- `catch (const fs::filesystem_error&)`. -/
def catchFilesystem {α : Type} (x : EStateM Fault (System δ) α)
    (handle : Text → EStateM Fault (System δ) α) : EStateM Fault (System δ) α :=
  tryCatch x fun
    | .filesystemError what => handle what
    | e => throw e

/-! Lookups. -/

/-- `*bases.at(ind)`: an empty slot is a null pointer. -/
def getDataBaseById (s : System δ) (ind : Nat) : Except Fault DataBase :=
  match s.bases[ind]? with
  | none => .error .outOfRange
  | some none => .error .undefined
  | some (some base) => .ok base

/-- `name_base.at(name)`. -/
def getDataBaseId (s : System δ) (name : Text) : Except Fault Nat :=
  match s.nameBase.lookup name with
  | none => .error .outOfRange
  | some id => .ok id

def getDataBase (s : System δ) (name : Text) : Except Fault DataBase := do
  s.getDataBaseById (← s.getDataBaseId name)

/-! Updates of the registry. -/

/-- `bases[id] = …`, which does not check the index. -/
def setSlot (id : Nat) (slot : Option DataBase) : EStateM Fault (System δ) Unit := do
  if id < (← get).bases.length then
    modify fun s => { s with bases := s.bases.set id slot }
  else throw .undefined

/-- `bases.push_back` and `name_base.insert`, which keeps the slot of a name it has. -/
def register (name : Text) (base : DataBase) : EStateM Fault (System δ) Unit :=
  modify fun s =>
    { s with
      nameBase := insertNew s.nameBase name s.bases.length
      bases := s.bases ++ [some base] }

def unregister (name : Text) : EStateM Fault (System δ) Unit :=
  modify fun s => { s with nameBase := s.nameBase.filter fun p => p.1 ≠ name }

/-! The commands. -/

section
variable (fs : FileSystem δ) (os : Os)

def createDataBase (name : Text) : EStateM Fault (System δ) Unit := do
  throwIf (name = []) (.incorrectInput (str "Database name cannot be empty"))
  throwIf (hasInvalidCharacter name)
    (.incorrectInput (str "Database name contains invalid characters"))
  let absolutePath := (← get).absolutePath
  let dbPath := joinPath absolutePath name
  let found ← onDisk (fs.pathExists dbPath)
  throwIf found (.incorrectInput (str "Database '" ++ name ++ str "' already exists"))
  let created ← onDisk (fs.createDirectory dbPath)
  throwIf (created = false)
    (.incorrectInput (str "Failed to create database directory: " ++ dbPath))
  let base ← onDisk (DataBase.construct fs os (absolutePath ++ str "/" ++ name) name)
  register name base

/-- The first word names the database. -/
def createTable (ws : List Text) : EStateM Fault (System δ) Unit := do
  let (buf, ws) := RequestParser.next [] ws
  let base ← Programs.ofExcept ((← get).getDataBase buf)
  let id ← Programs.ofExcept ((← get).getDataBaseId buf)
  let base ← onDisk (DataBase.createTable fs os base ws)
  setSlot id (some base)

/-- One entry of the copying loop. -/
def copyEntry (source target : Text) (entry : Text × Bool) : EStateM Fault δ Unit :=
  if entry.2 then fs.createDirectories (joinPath target entry.1)
  else fs.copyFile (joinPath source entry.1) (joinPath target entry.1)

def copyEntries (source target : Text) : List (Text × Bool) → EStateM Fault δ Unit
  | [] => pure ()
  | entry :: entries => do
      copyEntry fs source target entry
      copyEntries source target entries

def copyTree (source target : Text) : EStateM Fault δ Unit := do
  let entries ← fs.recursiveDirectoryIterator source
  copyEntries fs source target entries

/-- `!fs::exists(path) || !fs::is_directory(path)` negated. -/
def isExistingDirectory (path : Text) : EStateM Fault δ Bool := do
  if ← fs.pathExists path then fs.isDirectory path else pure false

def backUpDatabase (dbName backupName : Text) : EStateM Fault (System δ) Unit := do
  let s ← get
  throwIf (s.nameBase.lookup dbName = none)
    (.incorrectInput (str "Database '" ++ dbName ++ str "' not found"))
  throwIf (backupName = [] ∨ hasInvalidCharacter backupName)
    (.incorrectInput (str "Invalid backup name"))
  let sourcePath := joinPath s.absolutePath dbName
  let backupPath := joinPath (joinPath s.absolutePath backUpName) backupName
  let found ← onDisk (isExistingDirectory fs sourcePath)
  throwIf (found = false)
    (.incorrectInput (str "Source database directory not found: " ++ sourcePath))
  let created ← onDisk (fs.createDirectory backupPath)
  throwIf (created = false)
    (.incorrectInput (str "Failed to create backup directory: " ++ backupPath))
  catchFilesystem (onDisk (copyTree fs sourcePath backupPath)) fun what => do
    onDisk (fs.removeAll backupPath)
    throw (.incorrectInput (str "Backup failed: " ++ what))

/-- The slot is emptied and the name forgotten before the directory is removed. -/
def deleteDatabase (dbName : Text) : EStateM Fault (System δ) Nat := do
  match (← get).nameBase.lookup dbName with
  | none => throw (.incorrectInput (str "Database '" ++ dbName ++ str "' not found"))
  | some id =>
      setSlot id none
      unregister dbName
      let dbPath := joinPath (← get).absolutePath dbName
      catchFilesystem (onDisk do
          if ← isExistingDirectory fs dbPath then fs.removeAll dbPath) fun what =>
        throw (.incorrectInput (str "Failed to delete database directory: " ++ what))
      return id

/-- The work of `restoreDatabase` on the disk, which ends with the database opened. -/
def rebuild (backupPath restorePath dbName : Text) : EStateM Fault δ DataBase := do
  if ← fs.pathExists restorePath then fs.removeAll restorePath
  let _ ← fs.createDirectory restorePath
  copyTree fs backupPath restorePath
  DataBase.construct fs os restorePath dbName

/-- A registered name has its slot emptied first and filled again at the end. -/
def restoreDatabase (backupName dbName : Text) : EStateM Fault (System δ) Unit := do
  let s ← get
  let backupPath := joinPath (joinPath s.absolutePath backUpName) backupName
  let restorePath := joinPath s.absolutePath dbName
  let found ← onDisk (isExistingDirectory fs backupPath)
  throwIf (found = false) (.incorrectInput (str "Backup '" ++ backupName ++ str "' not found"))
  match s.nameBase.lookup dbName with
  | some id => do
      setSlot id none
      catchFilesystem (do
          let base ← onDisk (rebuild fs os backupPath restorePath dbName)
          setSlot id (some base)) fun what => do
        onDisk (fs.removeAll restorePath)
        throw (.incorrectInput (str "Restore failed: " ++ what))
  | none =>
      catchFilesystem (do
          let base ← onDisk (rebuild fs os backupPath restorePath dbName)
          register dbName base) fun what => do
        onDisk (fs.removeAll restorePath)
        throw (.incorrectInput (str "Restore failed: " ++ what))

/-! Start-up. -/

/-- A directory that cannot be opened as a database is passed over, and `i` counts
those that were. -/
def openBases : Nat → List (Text × Bool) → EStateM Fault (System δ) Unit
  | _, [] => pure ()
  | i, (name, isDirectory) :: entries =>
      if isDirectory then do
        let path := (← get).absolutePath ++ str "/" ++ name
        let opened ← tryCatch (some <$> onDisk (DataBase.construct fs os path name)) fun e =>
          if e.isException then pure none else throw e
        match opened with
        | none => openBases i entries
        | some base => do
            modify fun s =>
              { s with bases := s.bases ++ [some base], nameBase := insertNew s.nameBase name i }
            openBases (i + 1) entries
      else openBases i entries

def loadFoldersAndOpenBases : EStateM Fault (System δ) Unit := do
  let absolutePath := (← get).absolutePath
  let entries ← onDisk (fs.directoryIterator absolutePath)
  openBases fs os 0 entries
  if ← onDisk (fs.isEmpty absolutePath) then createDataBase fs os (str "default")
  if entries.all fun entry => !(entry.2 && entry.1 = backUpName) then do
    let _ ← onDisk (fs.createDirectory (absolutePath ++ str "/" ++ backUpName))

/-- The constructor, over a disk in any state. -/
def construct : EStateM Fault (System δ) Unit := do
  let absolutePath := (← get).absolutePath
  let found ← onDisk (fs.pathExists absolutePath)
  throwIf (found = false) (.runtimeError (str "Path does not exist: " ++ absolutePath))
  let isDirectory ← onDisk (fs.isDirectory absolutePath)
  throwIf (isDirectory = false)
    (.runtimeError (str "Path is not a directory: " ++ absolutePath))
  loadFoldersAndOpenBases fs os

/-- The object before its constructor has run. -/
def blank (absolutePath : Text) (disk : δ) : System δ := ⟨absolutePath, [], [], disk⟩

end
end System
end SQLid
