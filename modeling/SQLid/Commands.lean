import SQLid.RequestParser

/-! The system commands of `Commands.h`, the parser of `CommandsParser.h` and the texts
of `Help.h`. -/
namespace SQLid
open Bytes (Text)
open CppText (str)

/-- A table is created from the words that follow. -/
inductive CommandsVariant where
  | attach (databaseName : Text)
  | createDatabase (databaseName : Text)
  | createTableForDatabase (stream : List Text)
  | backupDatabase (base backup : Text)
  | restoreDatabase (backup base : Text)
  | showStructure
  | dropDatabase (base : Text)
  | help
  deriving DecidableEq, Repr

namespace CommandsParser
open RequestParser (next)

def unknown (buf : Text) : Except Fault CommandsVariant :=
  .error (.incorrectInput (str "Unknown command: " ++ buf))

/-- `buf` keeps its word when the stream has none left, and the test for `HELP` is
true of every word. -/
def parse (ws : List Text) : Except Fault CommandsVariant :=
  let (buf, ws) := next [] ws
  if buf = str "CREATE" then
    let (buf, ws) := next buf ws
    if buf = str "TABLE" then
      let (buf, ws) := next buf ws
      if buf = str "FOR" then .ok (.createTableForDatabase ws) else unknown buf
    else if buf = str "DATABASE" then .ok (.createDatabase (next buf ws).1)
    else unknown buf
  else if buf = str "ATTACH" then
    let (buf, ws) := next buf ws
    if buf = str "TO" then .ok (.attach (next buf ws).1) else unknown buf
  else if buf = str "BACKUP" then
    let (name1, ws) := next [] ws
    let (buf, ws) := next buf ws
    if buf = str "AS" then .ok (.backupDatabase name1 (next [] ws).1) else unknown buf
  else if buf = str "RESTORE" then
    let (name1, ws) := next [] ws
    let (buf, ws) := next buf ws
    if buf = str "AS" then .ok (.restoreDatabase name1 (next [] ws).1) else unknown buf
  else if buf = str "SHOW" then .ok .showStructure
  else if buf = str "DROP" then
    let (buf, ws) := next buf ws
    if buf = str "DATABASE" ∨ buf = str "BASE" then .ok (.dropDatabase (next buf ws).1)
    else unknown buf
  else .ok .help

example : parse (CppText.words (str "RESTORE old AS shop")) =
    .ok (.restoreDatabase (str "old") (str "shop")) := by
  decide +kernel

end CommandsParser

def helpArray : List String :=
  [" ",
   "*** SQLid Database System ***",
   " ",
   "=== System commands ===",
   "'SHOW' - display 'database1 [ table1 ... tableN ]'",
   "'CREATE DATABASE DATABASE_NAME'",
   "'CREATE TABLE FOR DATABASE_NAME TABLE_NAME COL1_NAME COL1_TYPE ... COLN_NAME COLN_TYPE'",
   "'ATTACH TO DATABASE_NAME' - connect to some database",
   "'BACKUP DATABASE_NAME AS DATABASE_BACKUP_NAME'",
   "'RESTORE DATABASE_BACKUP_NAME AS DATABASE_NAME'",
   "'DROP DATABASE_NAME' - delete database",
   "'DISCONNECT' - turn off connection",
   "'LEAVE' - dettach from current database",
   " ",
   "=== SQLid SYNTAX ===",
   " --- CONDITIONS ---",
   "'... WHERE id == x' - direct indexing, O(1)",
   "'... WHERE id >= x AND id <= y' - range indexing, O(y-x)",
   "'... WHERE col1 == x AND col2 > y AND col3 < z OR col1 != v' - O(n)",
   "'... WHERE some_cond LIMIT L' - O(n)",
   "Valid examples: ",
   "1) '... WHERE id == 100'",
   "2) '... WHERE id >= 10 AND id <= 80 AND name < Numa AND age > 20 OR SALARY == 1.1 LIMIT 10",
   " ",
   "--- Queries ---",
   "'SELECT col1 ... col2 FROM table_name WHERE ...' - '*' is supported",
   "'INSERT INTO table_name val1 ... valN' - you can also insert multiple data using one insert",
   "'UPDATE table_name SET col1 = val1 ... colN = valN WHERE ...'",
   "'DELETE FROM table_name WHERE ...' - 'WHERE' is required",
   " ",
   "--- ORDER BY for SELECT ---",
   "ORDER BY MUST CONTAIN THE SAME COLUMNS TO SORT AS SELECT'S OUTPUT",
   "Example: table[name, age, salary]",
   "SELECT name FROM table WHERE cond LIMIT N ORDER BY age DESC - incorrect",
   "SELECT * FROM table WHERE cond LIMIT N ORDER BY age DESC - correct",
   "SELECT * FROM table WHERE cond LIMIT N ORDER BY firstname DESC - incorrect",
   "DESC and ASC supported as usual.",
   "ORDER BY must be at the end of query.",
   " ",
   "=== Supported types ===",
   "Integers: 'INT32', 'INT64'",
   "Floats: 'FLOAT', 'DOUBLE'",
   "'STRING[N]' - Fixed-size string (N characters)",
   "'TEXT'\t- cString (128 chars fixed)",
   "Boolean: 'BOOL'"]

def getHelp : List (List VariantTypes) := helpArray.map fun line => [.string (str line)]

end SQLid
