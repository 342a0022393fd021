import SQLid.Conditions
import SQLid.TabbleInfo

/-! The queries of `Query.h` and the answer of `Result.h`. -/
namespace SQLid
open Bytes (Text)

structure QueryBase where
  tabbleName : Text := []
  conditions : List Condition := []
  rawConditions : List Text := []
  limit : Nat := sizeMax
  deriving DecidableEq, Repr

structure OderTypeRaw where
  rawColumn : Text
  isGreaterSort : Bool
  deriving DecidableEq, Repr

structure OderTypeOpt where
  rawId : Nat
  isGreaterSort : Bool
  deriving DecidableEq, Repr

structure SelectQuery extends QueryBase where
  columnsRaw : List Text := []
  columnsOptimized : List Nat := []
  oderColumnsRaw : List OderTypeRaw := []
  orderColumnsOptimized : List OderTypeOpt := []
  deriving DecidableEq, Repr

structure InsertQuery extends QueryBase where
  rawValues : List Text := []
  values : List VariantTypes := []
  deriving DecidableEq, Repr

structure DeleteQuery extends QueryBase where
  deriving DecidableEq, Repr

structure UpdateQuery extends QueryBase where
  columnsRaw : List Text := []
  columnsOptimized : List Nat := []
  rawValues : List Text := []
  values : List VariantTypes := []
  deriving DecidableEq, Repr

inductive QueryVariant where
  | select (query : SelectQuery)
  | update (query : UpdateQuery)
  | insert (query : InsertQuery)
  | erase (query : DeleteQuery)
  deriving DecidableEq, Repr

def QueryVariant.base : QueryVariant → QueryBase
  | .select query => query.toQueryBase
  | .update query => query.toQueryBase
  | .insert query => query.toQueryBase
  | .erase query => query.toQueryBase

structure Result where
  isSucces : Bool := false
  header : List Text := []
  types : List Text := []
  messeage : Text := []
  error : Text := []
  body : List (List VariantTypes) := []
  deriving DecidableEq, Repr

end SQLid
