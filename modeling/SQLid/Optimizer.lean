import SQLid.Query

/-!
# The optimizer

`Optimizer.h`: names become column numbers, literals become values, and terms on
`id` become index conditions in front of all others.
-/
namespace SQLid
open Bytes (Text)
open CppText (str)

namespace Optimizer

def isConnective (w : Text) : Bool := w = str "AND" || w = str "OR"

def isId (w : Text) : Bool := w = str "id" || w = str "ID"

/-- The kind of an index condition; other operators on `id` make none. -/
def indexKind (oper : Text) : Option ConditionType :=
  if oper = str "==" then some .directIndex
  else if oper = str ">=" then some .fromIndex
  else if oper = str "<=" then some .toIndex
  else none

/-- `static_cast<int64_t>(std::stoul(valueStr))`; nobody catches what `stoul` throws. -/
def indexValue (valueStr : Text) : Except Fault VariantTypes :=
  (CppText.stoul valueStr).mapError Fault.ofConv |>.map fun n => .int64 (BitVec.ofNat 64 n)

def columnCondition (info : TabbleInfo) (columnName oper valueStr : Text) :
    Except Fault Condition :=
  match info.columnsMap.lookup columnName with
  | none => .error (.incorrectInput (str "Incorrect column's name"))
  | some columnId =>
      match info.columns[columnId]? with
      | none => .error .undefined
      | some column => do
          let desired ← parseValue valueStr column.type
          match conditionMap.lookup oper with
          | none => .error (.incorrectInput (str "Incorrect opearion: " ++ oper))
          | some conditionType => return ⟨conditionType, columnId, desired⟩

/-- One round over a term of three tokens. -/
def optimizeTerm (info : TabbleInfo) (columnName oper valueStr : Text) (conditions : List Condition) :
    Except Fault (List Condition) :=
  if isId columnName then
    match indexKind oper with
    | none => .ok conditions
    | some kind => do return ⟨kind, 0, ← indexValue valueStr⟩ :: conditions
  else do return conditions ++ [← columnCondition info columnName oper valueStr]

def connective (w : Text) : Condition :=
  ⟨if w = str "AND" then .logicalAnd else .logicalOr, sizeMax, .int32 0⟩

def optimizeConditions (info : TabbleInfo) : List Text → List Condition →
    Except Fault (List Condition)
  | [], conditions => .ok conditions
  | w :: ws, conditions =>
      if isConnective w then optimizeConditions info ws (conditions ++ [connective w])
      else match ws with
        | oper :: valueStr :: ws => do
            optimizeConditions info ws (← optimizeTerm info w oper valueStr conditions)
        | _ => .error (.incorrectInput (str "Incorrect conditions input"))

def optimizeColumns (info : TabbleInfo) : List Text → Except Fault (List Nat)
  | [] => .ok []
  | col :: cols =>
      if col = str "*" then .ok (List.range info.columns.length)
      else match info.columnsMap.lookup col with
        | none => .error (.incorrectInput (str "Error during columns comparison"))
        | some id => do return id :: (← optimizeColumns info cols)

/-- The place of a sort column in the row that is read: `*` takes any column, a name
only itself. -/
def orderPlace (info : TabbleInfo) (rawColumn : Text) : Nat → List Text → Except Fault Nat
  | _, [] => .error (.incorrectInput (str "This column does not exist: " ++ rawColumn))
  | i, col :: cols =>
      if col = str "*" then
        match info.columnsMap.lookup rawColumn with
        | some id => .ok (id + 1)
        | none => .error (.incorrectInput (str "This column does not exist: " ++ rawColumn))
      else if col = rawColumn then .ok (i + 1)
      else orderPlace info rawColumn (i + 1) cols

def optimizeOrdering (info : TabbleInfo) (columnsRaw : List Text) :
    List OderTypeRaw → Except Fault (List OderTypeOpt)
  | [] => .ok []
  | el :: els => do
      let place ← if isId el.rawColumn then .ok 0 else orderPlace info el.rawColumn 0 columnsRaw
      return ⟨place, el.isGreaterSort⟩ :: (← optimizeOrdering info columnsRaw els)

/-- Every fault of a block, whatever it is, answered with one message. -/
def orIncorrect {α : Type} (message : Text) (x : Except Fault α) : Except Fault α :=
  match x with
  | .ok a => .ok a
  | .error e => .error (if e.isException then .incorrectInput message else e)

/-- Texts get the size of their column; `resize` throws for a size no string can have. -/
def insertValue (column : Column) (raw : Text) : Except Fault VariantTypes :=
  if column.type.isText then
    if maxSize < column.size then .error .lengthError else .ok (.string (Bytes.resize raw column.size))
  else parseValue raw column.type

/-- One row of an insert. -/
def insertValues (info : TabbleInfo) : List Column → List Text → Except Fault (List VariantTypes)
  | [], _ => .ok []
  | _ :: _, [] => .error .outOfRange
  | column :: columns, raw :: raws => do
      return (← insertValue column raw) :: (← insertValues info columns raws)

def insertRows (info : TabbleInfo) : Nat → List Text → Except Fault (List VariantTypes)
  | 0, _ => .ok []
  | n+1, raws => do
      let row ← insertValues info info.columns raws
      return row ++ (← insertRows info n (raws.drop info.columns.length))

/-- A table without columns would divide by zero. -/
def optimizeInsertValues (info : TabbleInfo) (rawValues : List Text) :
    Except Fault (List VariantTypes) :=
  if info.columns.length = 0 then .error .undefined
  else if rawValues.length % info.columns.length ≠ 0 then
    .error (.incorrectInput (str "Number of values (" ++ str (toString rawValues.length) ++
      str ") must be multiple of number of columns (" ++ str (toString info.columns.length) ++ str ")"))
  else orIncorrect (str "Error during values comparison")
    (insertRows info (rawValues.length / info.columns.length) rawValues)

def updateValues (info : TabbleInfo) : List Nat → List Text → Except Fault (List VariantTypes)
  | [], _ => .ok []
  | _ :: _, [] => .error .outOfRange
  | id :: ids, raw :: raws =>
      match info.columns[id]? with
      | none => .error .undefined
      | some column => do
          let value ← parseValue raw column.type
          return value :: (← updateValues info ids raws)

def optimizeUpdateValues (info : TabbleInfo) (ids : List Nat) (rawValues : List Text) :
    Except Fault (List VariantTypes) :=
  orIncorrect (str "Error during columns comparison") (updateValues info ids rawValues)

def optimizeSelect (info : TabbleInfo) (query : SelectQuery) : Except Fault SelectQuery := do
  let conditions ← optimizeConditions info query.rawConditions []
  let columnsOptimized ← optimizeColumns info query.columnsRaw
  let orderColumnsOptimized ← optimizeOrdering info query.columnsRaw query.oderColumnsRaw
  return { query with conditions, columnsOptimized, orderColumnsOptimized }

def optimizeInsert (info : TabbleInfo) (query : InsertQuery) : Except Fault InsertQuery := do
  return { query with values := ← optimizeInsertValues info query.rawValues }

def optimizeDelete (info : TabbleInfo) (query : DeleteQuery) : Except Fault DeleteQuery := do
  return { query with conditions := ← optimizeConditions info query.rawConditions [] }

def optimizeUpdate (info : TabbleInfo) (query : UpdateQuery) : Except Fault UpdateQuery := do
  let columnsOptimized ← optimizeColumns info query.columnsRaw
  let conditions ← optimizeConditions info query.rawConditions []
  let values ← optimizeUpdateValues info columnsOptimized query.rawValues
  return { query with columnsOptimized, conditions, values }

def optimize (info : TabbleInfo) : QueryVariant → Except Fault QueryVariant
  | .select query => .select <$> optimizeSelect info query
  | .insert query => .insert <$> optimizeInsert info query
  | .erase query => .erase <$> optimizeDelete info query
  | .update query => .update <$> optimizeUpdate info query

end Optimizer
end SQLid
