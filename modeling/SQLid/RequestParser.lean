import SQLid.Query

/-!
# The request parser

`RequestParser.h` over the words of the command. A stream that has no word left
leaves the target of `>>` as it was; a string that has been moved from is empty.
-/
namespace SQLid
open Bytes (Text)
open CppText (str IStream)

namespace RequestParser

/-- `str >> buf`. -/
def next (buf : Text) : List Text → Text × List Text
  | [] => (buf, [])
  | w :: ws => (w, ws)

/-- `while (str >> buf) { if (stop) break; push_back(std::move(buf)); }`: what was
pushed, what `buf` holds then, and the words left. -/
def readUntil (stop : Text → Bool) : Text → List Text → List Text × Text × List Text
  | buf, [] => ([], buf, [])
  | _, w :: ws =>
      if stop w then ([], w, ws)
      else
        let (pushed, buf, rest) := readUntil stop [] ws
        (w :: pushed, buf, rest)

/-- `str >> result.limit`. -/
def readLimit (ws : List Text) : Nat × IStream := (IStream.mk ws false).size sizeMax

def parseConditionAndLimit (ws : List Text) : List Text × Nat :=
  let (buf, ws) := next [] ws
  let (rawConditions, buf, ws) :=
    if buf = str "WHERE" then readUntil (· = str "LIMIT") buf ws else ([], buf, ws)
  (rawConditions, if buf = str "LIMIT" then (readLimit ws).1 else sizeMax)

def sortFlag (type : Text) : Except Fault Bool :=
  if type = str "ASC" then .ok true
  else if type = str "DESC" then .ok false
  else .error (.incorrectInput (str "Unknown sort type: " ++ type))

/-- A column without a sort type takes the one before. -/
def parseOrder : Text → List Text → Except Fault (List OderTypeRaw)
  | _, [] => .ok []
  | type, [col] => do return [⟨col, ← sortFlag type⟩]
  | _, col :: type :: ws => do
      let flag ← sortFlag type
      return ⟨col, flag⟩ :: (← parseOrder type ws)

def parseSelect (ws : List Text) : Except Fault SelectQuery := do
  let (columnsRaw, buf, ws) := readUntil (· = str "FROM") [] ws
  if buf ≠ str "FROM" then throw (.incorrectInput (str "Missed keyworld \"FROM\""))
  let (tabbleName, ws) := next buf ws
  let (buf, ws) := next [] ws
  let (rawConditions, buf, ws) :=
    if buf = str "WHERE" then
      readUntil (fun w => w = str "LIMIT" || w = str "ORDER") buf ws
    else ([], buf, ws)
  let (limit, buf, stream) :=
    if buf = str "LIMIT" then
      let (limit, stream) := readLimit ws
      match stream.word with
      | (some w, stream) => (limit, w, stream)
      | (none, stream) => (limit, buf, stream)
    else (sizeMax, buf, ⟨ws, false⟩)
  let oderColumnsRaw ←
    if buf = str "ORDER" then
      let (buf, ws) := next buf stream.rest
      if buf = str "BY" then parseOrder [] ws else .ok []
    else .ok []
  return { tabbleName, rawConditions, limit, columnsRaw, oderColumnsRaw }

def parseInsert (ws : List Text) : Except Fault InsertQuery := do
  let (buf, ws) := next [] ws
  if buf ≠ str "INTO" then throw (.incorrectInput (str "Missed keyworld \"INTO\""))
  let (tabbleName, rawValues) := next [] ws
  return { tabbleName, rawValues }

def parseDelete (ws : List Text) : Except Fault DeleteQuery := do
  let (buf, ws) := next [] ws
  if buf ≠ str "FROM" then throw (.incorrectInput (str "Missed keyworld \"FROM\""))
  let (tabbleName, ws) := next [] ws
  let (rawConditions, limit) := parseConditionAndLimit ws
  return { tabbleName, rawConditions, limit }

/-- The loop over the assignments; a value that is missing is the `=` still in `buf`. -/
def parseSet : Text → List Text → Except Fault (List (Text × Text) × Text × List Text)
  | buf, [] => .ok ([], buf, [])
  | _, column :: ws =>
      if column = str "WHERE" || column = str "LIMIT" then .ok ([], column, ws)
      else match ws with
        | [] => .error (.incorrectInput (str "Missed symbol '='"))
        | [eq] =>
            if eq = str "=" then .ok ([(column, eq)], [], [])
            else .error (.incorrectInput (str "Missed symbol '='"))
        | eq :: value :: ws =>
            if eq = str "=" then do
              let (pairs, buf, rest) ← parseSet [] ws
              return ((column, value) :: pairs, buf, rest)
            else .error (.incorrectInput (str "Missed symbol '='"))

def parseUpdate (ws : List Text) : Except Fault UpdateQuery := do
  let (tabbleName, ws) := next [] ws
  let (buf, ws) := next [] ws
  if buf ≠ str "SET" then throw (.incorrectInput (str "Missed keyworld \"SET\""))
  let (pairs, buf, ws) ← parseSet buf ws
  let (rawConditions, buf, ws) :=
    if buf = str "LIMIT" then ([], buf, ws) else readUntil (· = str "LIMIT") buf ws
  let limit := if buf = str "LIMIT" then (readLimit ws).1 else sizeMax
  return { tabbleName, rawConditions, limit,
           columnsRaw := pairs.map Prod.fst, rawValues := pairs.map Prod.snd }

def parse (command : Text) : Except Fault QueryVariant :=
  let (queryType, ws) := next [] (CppText.words command)
  if queryType = str "SELECT" then .select <$> parseSelect ws
  else if queryType = str "INSERT" then .insert <$> parseInsert ws
  else if queryType = str "DELETE" then .erase <$> parseDelete ws
  else if queryType = str "UPDATE" then .update <$> parseUpdate ws
  else .error (.incorrectInput (str "Unsupported command"))

example : parse (str "DELETE FROM t WHERE a > 1 LIMIT 5") =
    .ok (.erase { tabbleName := str "t", rawConditions := [str "a", str ">", str "1"], limit := 5 }) := by
  decide +kernel

end RequestParser
end SQLid
