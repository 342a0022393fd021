import SQLid.DataBase

/-!
# Files and directories

The calls the program makes to the file system, and the constructors that read a
schema, a table and a database from it. What the calls answer is left open: each
of them may throw, and `δ` is whatever the disk keeps from one call to the next.
-/
namespace SQLid
open Bytes (Text)
open CppText (str IStream)

/-- `readText` is an input file stream and `writeText` an output one, which ignores
its failures. `openStorage` gives the bytes of a storage file, created when there is
none, and how often it has been asked to grow. The iterators list names, or paths
relative to the directory, each with the answer of `is_directory`. -/
structure FileSystem (δ : Type) where
  pathExists : Text → EStateM Fault δ Bool
  isDirectory : Text → EStateM Fault δ Bool
  isEmpty : Text → EStateM Fault δ Bool
  createDirectory : Text → EStateM Fault δ Bool
  createDirectories : Text → EStateM Fault δ Unit
  copyFile : Text → Text → EStateM Fault δ Unit
  removeAll : Text → EStateM Fault δ Unit
  directoryIterator : Text → EStateM Fault δ (List (Text × Bool))
  recursiveDirectoryIterator : Text → EStateM Fault δ (List (Text × Bool))
  readText : Text → EStateM Fault δ (Option Text)
  writeText : Text → Text → EStateM Fault δ Unit
  openStorage : Text → EStateM Fault δ (ByteFile × Nat)

/-- `fs::path(a) / b`; an absolute `b` stands for itself. -/
def joinPath (a b : Text) : Text :=
  if b.head? = some 47 then b
  else if a = [] || a.getLast? = some 47 then a ++ b
  else a ++ str "/" ++ b

/-- The characters no name of a database, table or backup may contain. -/
def invalidCharacters : Text := str "/\\?%*:|\"<>"

def hasInvalidCharacter (name : Text) : Bool := name.any fun b => invalidCharacters.contains b

/-- `stream << n`. -/
def natText (n : Nat) : Text := str (toString n)

/-! The schema file. -/

namespace InfoLoader

/-- `columns.resize` throws past this many columns of 56 bytes. -/
def maxColumns : Nat := (2 ^ 63 - 1) / 56

/-- The first loop: a name that is missing stays empty. -/
def readNames : Nat → IStream → List Text × IStream
  | 0, stream => ([], stream)
  | n+1, stream =>
      let (word, stream) := stream.word
      let (names, stream) := readNames n stream
      (word.getD [] :: names, stream)

/-- The type and size of a column. An unknown word is looked up with `operator[]`,
and a size nothing is left for is read uninitialized. -/
def readType (curType : Text) (stream : IStream) : Except Fault (ColumnType × Nat × IStream) :=
  if curType = str "STRING" then
    if stream.fail || stream.rest.isEmpty then .error .undefined
    else
      let (size, stream) := stream.size 0
      .ok (.string, size, stream)
  else
    let type := (stringToType.lookup curType).getD .voida
    .ok (type, typeSizes type, stream)

/-- The second loop: a type that is missing is the one before. -/
def readTypes : Text → Nat → List Text → IStream → Except Fault (List Column)
  | _, _, [], _ => .ok []
  | curType, offset, name :: names, stream => do
      let (word, stream) := stream.word
      let curType := word.getD curType
      let (type, size, stream) ← readType curType stream
      return ⟨name, offset, type, size⟩ :: (← readTypes curType (sizeAdd offset size) names stream)

def loadFile (text : Text) : Except Fault TabbleInfo := do
  let (lineLength, stream) := (IStream.ofText text).size 0
  let (columnsNumber, stream) := stream.size 0
  if maxColumns < columnsNumber then throw .lengthError
  let (names, stream) := readNames columnsNumber stream
  let columns ← readTypes [] 1 names stream
  return { lineLength, columnsNumber, columns, columnsMap := columnsMapFrom 0 columns [] }

example : loadFile (str "15\n2\nname id\nSTRING 10 INT32\n") =
    .ok { lineLength := 15, columnsNumber := 2,
          columns := [⟨str "name", 1, .string, 10⟩, ⟨str "id", 11, .int32, 4⟩],
          columnsMap := [(str "name", 0), (str "id", 1)] } := by
  decide +kernel

end InfoLoader

section
variable {δ : Type} (fs : FileSystem δ) (os : Os)

/-- The constructor of `Tabble`. A line of no bytes divides by zero when the file is
not empty, and cannot be mapped when it is. -/
def Tabble.load (baseName : Text) : EStateM Fault δ Tabble := do
  match ← fs.readText (baseName ++ str "_info.db") with
  | none => throw (.runtimeError (str "Can not open the info file"))
  | some text =>
      let info ← Programs.ofExcept (InfoLoader.loadFile text)
      let (file, calls) ← fs.openStorage (baseName ++ str "_storage.db")
      if info.lineLength = 0 ∧ 0 < file.size then throw .undefined
      else match Tabble.openFile os info file calls with
        | .ok _ table => return table
        | .error e _ => throw e

namespace DataBase

def insertTabble (base : DataBase) (tabble : Tabble) (name : Text) : DataBase :=
  { base with
    tabblesName := insertNew base.tabblesName name base.tabbles.length
    tabbles := base.tabbles ++ [tabble] }

def openTabble (base : DataBase) (localName : Text) : EStateM Fault δ DataBase := do
  let cur ← Tabble.load fs os (base.absoluteWay ++ str "/" ++ localName ++ str "/" ++ localName)
  return base.insertTabble cur localName

def openTabbles : DataBase → List (Text × Bool) → EStateM Fault δ DataBase
  | base, [] => pure base
  | base, (name, isDirectory) :: entries =>
      if isDirectory then do
        let base ← openTabble fs os base name
        openTabbles base entries
      else openTabbles base entries

/-- The constructor: every directory inside is a table. -/
def construct (absoluteWay dataBaseName : Text) : EStateM Fault δ DataBase := do
  let entries ← fs.directoryIterator absoluteWay
  openTabbles fs os ⟨absoluteWay, dataBaseName, [], []⟩ entries

end DataBase
end

/-! `createTable`. -/

namespace DataBase

/-- The size between the brackets of `STRING[N]`. -/
def columnType (word : Text) : Except Fault (ColumnType × Nat) :=
  if (str "STRING[").isPrefixOf word && word.getLast? = some 93 then
    ((CppText.stoul ((word.drop 7).take (word.length - 8))).mapError Fault.ofConv).map fun n =>
      (.string, n)
  else match stringToType.lookup word with
    | none => .error (.incorrectInput (str "Unknown type: " ++ word))
    | some type => .ok (type, typeSizes type)

/-- `while (stream >> col_name >> col_type)`; a name without a type is dropped. -/
def parseColumns : List Text → Except Fault (List (Text × ColumnType × Nat))
  | name :: word :: ws => do
      let (type, size) ← columnType word
      return (name, type, size) :: (← parseColumns ws)
  | _ => .ok []

def infoText (columns : List (Text × ColumnType × Nat)) : Text :=
  let lineLength := columns.foldl (fun n c => sizeAdd n c.2.2) 1
  let types := columns.map fun c =>
    if c.2.1 = .string then typeToString c.2.1 ++ str " " ++ natText c.2.2 else typeToString c.2.1
  natText lineLength ++ str "\n" ++ natText columns.length ++ str "\n" ++
    (str " ").intercalate (columns.map Prod.fst) ++ str "\n" ++ (str " ").intercalate types ++ str "\n"

/-- The database is changed last, so that an exception leaves it as it was. -/
def createTable {δ : Type} (fs : FileSystem δ) (os : Os) (base : DataBase) (ws : List Text) :
    EStateM Fault δ DataBase := do
  let (tableName, ws) := RequestParser.next [] ws
  if tableName = [] ∨ hasInvalidCharacter tableName then
    throw (.incorrectInput (str "Invalid table name: " ++ tableName))
  else if (base.tabblesName.lookup tableName).isSome then
    throw (.incorrectInput (str "Table '" ++ tableName ++ str "' already exists"))
  else do
    let columns ← Programs.ofExcept (parseColumns ws)
    if columns = [] then
      throw (.incorrectInput (str "No columns specified for table: " ++ tableName))
    else do
      let tablePath := joinPath base.absoluteWay tableName
      if ← fs.createDirectory tablePath then
        let stem := base.absoluteWay ++ str "/" ++ tableName ++ str "/" ++ tableName
        fs.writeText (stem ++ str "_info.db") (infoText columns)
        fs.writeText (stem ++ str "_storage.db") []
        openTabble fs os base tableName
      else throw (.incorrectInput (str "Failed to create table directory: " ++ tablePath))

/-- An order of the names the map leaves open. -/
def getBaseNameAndTablesNames (base : DataBase) : Text :=
  base.dataBaseName ++ str ": [" ++ base.tabblesName.flatMap (fun p => str " " ++ p.1) ++ str " ] "

end DataBase

example : DataBase.infoText [(str "name", .string, 10), (str "id", .int32, 4)] =
    str "15\n2\nname id\nSTRING 10 INT32\n" := by
  decide +kernel

end SQLid
