import SQLid.Variants

/-! The condition kinds and the table of comparison functions of `Conditions.h`. -/
namespace SQLid
open Bytes (Text)
open CppText (str)

inductive ConditionType where
  | equal | notEqual | greater | less | and | or | logicalAnd | logicalOr
  | directIndex | toIndex | fromIndex
  deriving DecidableEq, Repr

def conditionMap : List (Text × ConditionType) :=
  [(str "==", .equal), (str "!=", .notEqual), (str ">", .greater), (str "<", .less),
   (str "AND", .and), (str "OR", .or)]

/-- `collumnId` is `sizeMax` for a connective. -/
structure Condition where
  condType : ConditionType
  collumnId : Nat
  desired : VariantTypes
  deriving DecidableEq, Repr

/-- `std::get<bool>`. -/
def VariantTypes.getBool : VariantTypes → Except Fault Bool
  | .bool b => .ok b
  | _ => .error .badVariantAccess

/-- `functions[(size_t)cond_type](value, desired)`: the array has six entries,
and a larger index reads past its end. -/
def Condition.result (c : Condition) (value : VariantTypes) : Except Fault Bool :=
  match c.condType with
  | .equal => .ok (value.eq c.desired)
  | .notEqual => .ok (!value.eq c.desired)
  | .greater => .ok (c.desired.lt value)
  | .less => .ok (value.lt c.desired)
  | .and => do if ← value.getBool then c.desired.getBool else .ok false
  | .or => do if ← value.getBool then .ok true else c.desired.getBool
  | .logicalAnd | .logicalOr | .directIndex | .toIndex | .fromIndex => .error .undefined

end SQLid
