import SQLid.Clauses
import SQLid.Rendering
import SQLid.Requests

/-!
# Statements with an optional WHERE and LIMIT

The words of the three statements that search a table, and the queries the parser
makes of them.
-/
namespace SQLid
open Bytes (Text)
open CppText (str)

/-- The query of a request that was written as it is documented. -/
theorem compile_renders {info : TabbleInfo} {st : Statement} {command : Text} (hst : st.WellFormed)
    (hcommand : st.Renders (CppText.words command)) :
    compile info command = Optimizer.optimize info st.query := by
  unfold compile
  rw [RequestParser.parse_eq, RequestParser.parseWords_renders hst hcommand]
  rfl

/-- The optional parts at the end of a statement; a clause has no word that ends it. -/
structure Search (info : TabbleInfo) where
  clause : Option (Clause info)
  limit : Option Limit
  unended : ∀ c ∈ clause, ∀ w ∈ c.tokens, w ≠ str "LIMIT" ∧ w ≠ str "ORDER"

namespace Search
variable {info : TabbleInfo} (search : Search info)

/-- The tokens of the clause. -/
def tokens : Option (List Text) := search.clause.map Clause.tokens

/-- How many lines the statement may act on. -/
def bound : Nat := limitBound search.limit

def conditions : List Condition :=
  match search.clause with
  | none => []
  | some clause => clause.conditions

/-- The optimizer refuses none of the id bounds. -/
def Accepted : Prop := ∀ clause ∈ search.clause, clause.Accepted

/-- The row of line `i` meets the clause, if there is one. -/
def holds (t : Tabble) (i : Nat) : Bool :=
  match search.clause with
  | none => true
  | some clause => clause.holds i (t.cell i)

/-- The lines a statement is meant to act on: the first active ones the clause holds on. -/
def lines (t : Tabble) : List Nat :=
  ((List.range t.maxLines).filter fun i => t.active i && search.holds t i).take search.bound

theorem unended_tokens : RequestParser.Unended search.tokens := by
  intro tokens htokens w hw
  obtain ⟨clause, hclause, rfl⟩ := Option.map_eq_some_iff.1 htokens
  exact search.unended clause hclause w hw

theorem unended_limit : RequestParser.UnendedLimit search.tokens := fun tokens htokens w hw =>
  (search.unended_tokens tokens htokens w hw).1

end Search

def selectWords {info : TabbleInfo} (cols : List Text) (name : Text) (search : Search info)
    (order : Option (List Text)) : List Text :=
  str "SELECT" :: (cols ++ str "FROM" :: name ::
    (whereWords search.tokens ++ (limitWords search.limit ++ orderWords order)))

def deleteWords {info : TabbleInfo} (name : Text) (search : Search info) : List Text :=
  str "DELETE" :: str "FROM" :: name :: (whereWords search.tokens ++ limitWords search.limit)

def updateWords {info : TabbleInfo} (name : Text) (sets : List (Text × Text))
    (search : Search info) : List Text :=
  str "UPDATE" :: name :: str "SET" ::
    (setWords sets ++ (whereWords search.tokens ++ limitWords search.limit))

end SQLid
