import SQLid.Grammar

/-!
# The parser inverts rendering

A request as a value, the words a client may write it with, and the query the parser
makes of them, whatever blanks stand between the words.
-/
namespace SQLid
open Bytes (Text)
open CppText (str Numeral IsWord Spaced)

/-- A request; the pairs of an UPDATE are columns and values. -/
inductive Statement where
  | select (columns : List Text) (tabbleName : Text) (conditions : Option (List Text))
      (limit : Option Nat) (order : Option (List OderTypeRaw))
  | insert (tabbleName : Text) (values : List Text)
  | erase (tabbleName : Text) (conditions : Option (List Text)) (limit : Option Nat)
  | update (tabbleName : Text) (sets : List (Text × Text)) (conditions : Option (List Text))
      (limit : Option Nat)

/-- `LIMIT` and a decimal number, if there is a limit. -/
inductive RendersLimit : Option Nat → List Text → Prop
  | absent : RendersLimit none []
  | present {n : Nat} {w : Text} : Numeral n w → RendersLimit (some n) [str "LIMIT", w]

namespace Statement

/-- The documented syntax. -/
inductive Renders : Statement → List Text → Prop
  | select {columns : List Text} {tabbleName : Text} {conditions : Option (List Text)}
      {limit : Option Nat} {order : Option (List OderTypeRaw)} {ws : List Text} :
      RendersLimit limit ws → Renders (.select columns tabbleName conditions limit order)
        (str "SELECT" :: (columns ++ str "FROM" :: tabbleName ::
          (whereWords conditions ++ (ws ++ orderWords (order.map sortWords)))))
  | insert {tabbleName : Text} {values : List Text} :
      Renders (.insert tabbleName values) (str "INSERT" :: str "INTO" :: tabbleName :: values)
  | erase {tabbleName : Text} {conditions : Option (List Text)} {limit : Option Nat}
      {ws : List Text} : RendersLimit limit ws → Renders (.erase tabbleName conditions limit)
        (str "DELETE" :: str "FROM" :: tabbleName :: (whereWords conditions ++ ws))
  | update {tabbleName : Text} {sets : List (Text × Text)} {conditions : Option (List Text)}
      {limit : Option Nat} {ws : List Text} : RendersLimit limit ws →
      Renders (.update tabbleName sets conditions limit)
        (str "UPDATE" :: tabbleName :: str "SET" ::
          (setWords sets ++ (whereWords conditions ++ ws)))

/-- No token is a keyword that would end its list, and the limit is a 64-bit number. -/
def WellFormed : Statement → Prop
  | .select columns _ conditions limit _ =>
      (∀ c ∈ columns, c ≠ str "FROM") ∧ RequestParser.Unended conditions ∧ ∀ n ∈ limit, n < 2 ^ 64
  | .insert _ _ => True
  | .erase _ conditions limit => RequestParser.UnendedLimit conditions ∧ ∀ n ∈ limit, n < 2 ^ 64
  | .update _ sets conditions limit =>
      (∀ p ∈ sets, p.1 ≠ str "WHERE" ∧ p.1 ≠ str "LIMIT") ∧
        RequestParser.UnendedLimit conditions ∧ ∀ n ∈ limit, n < 2 ^ 64

/-- What the parser is to return. -/
def query : Statement → QueryVariant
  | .select columns tabbleName conditions limit order =>
      .select { tabbleName, rawConditions := conditions.getD [], limit := limit.getD sizeMax,
                columnsRaw := columns, oderColumnsRaw := order.getD [] }
  | .insert tabbleName values => .insert { tabbleName, rawValues := values }
  | .erase tabbleName conditions limit =>
      .erase { tabbleName, rawConditions := conditions.getD [], limit := limit.getD sizeMax }
  | .update tabbleName sets conditions limit =>
      .update { tabbleName, rawConditions := conditions.getD [], limit := limit.getD sizeMax,
                columnsRaw := sets.map Prod.fst, rawValues := sets.map Prod.snd }

end Statement

theorem RendersLimit.exists_limit {limit : Option Nat} {ws : List Text} (h : RendersLimit limit ws)
    (hlt : ∀ n ∈ limit, n < 2 ^ 64) :
    ∃ number : Option Limit, limitWords number = ws ∧ limitBound number = limit.getD sizeMax := by
  cases h with
  | absent => exact ⟨none, rfl, rfl⟩
  | present hn => exact ⟨some (Limit.ofNumeral hn (hlt _ rfl)), rfl, rfl⟩

theorem rendersLimit_exists (limit : Option Nat) : ∃ ws, RendersLimit limit ws := by
  cases limit with
  | none => exact ⟨[], .absent⟩
  | some n => exact ⟨_, .present (CppText.numeral_toString n)⟩

/-- Every request can be written. -/
theorem Statement.renders_exists (st : Statement) : ∃ ws, st.Renders ws := by
  cases st with
  | select columns tabbleName conditions limit order =>
      obtain ⟨ws, h⟩ := rendersLimit_exists limit
      exact ⟨_, .select h⟩
  | insert tabbleName values => exact ⟨_, .insert⟩
  | erase tabbleName conditions limit =>
      obtain ⟨ws, h⟩ := rendersLimit_exists limit
      exact ⟨_, .erase h⟩
  | update tabbleName sets conditions limit =>
      obtain ⟨ws, h⟩ := rendersLimit_exists limit
      exact ⟨_, .update h⟩

namespace RequestParser

theorem orderRaw_sortWords (order : Option (List OderTypeRaw)) :
    orderRaw (order.map sortWords) = .ok (order.getD []) := by
  cases order with
  | none => rfl
  | some os => exact parseOrder_sortWords [] os

/-- The words of a request alone decide what is parsed. -/
def parseWords (ws : List Text) : Except Fault QueryVariant :=
  let (queryType, ws) := next [] ws
  if queryType = str "SELECT" then .select <$> parseSelect ws
  else if queryType = str "INSERT" then .insert <$> parseInsert ws
  else if queryType = str "DELETE" then .erase <$> parseDelete ws
  else if queryType = str "UPDATE" then .update <$> parseUpdate ws
  else .error (.incorrectInput (str "Unsupported command"))

theorem parse_eq (command : Text) : parse command = parseWords (CppText.words command) := rfl

theorem parseWords_select (ws : List Text) :
    parseWords (str "SELECT" :: ws) = .select <$> parseSelect ws := by
  unfold parseWords
  exact if_pos rfl

theorem parseWords_insert (ws : List Text) :
    parseWords (str "INSERT" :: ws) = .insert <$> parseInsert ws := by
  unfold parseWords
  exact (if_neg (by decide)).trans (if_pos rfl)

theorem parseWords_delete (ws : List Text) :
    parseWords (str "DELETE" :: ws) = .erase <$> parseDelete ws := by
  unfold parseWords
  exact (if_neg (by decide)).trans ((if_neg (by decide)).trans (if_pos rfl))

theorem parseWords_update (ws : List Text) :
    parseWords (str "UPDATE" :: ws) = .update <$> parseUpdate ws := by
  unfold parseWords
  exact (if_neg (by decide)).trans ((if_neg (by decide)).trans ((if_neg (by decide)).trans (if_pos rfl)))

theorem parseWords_renders {st : Statement} {ws : List Text} (hst : st.WellFormed)
    (h : st.Renders ws) : parseWords ws = .ok st.query := by
  cases h with
  | select hlimit =>
      obtain ⟨hcols, hconds, hlt⟩ := hst
      obtain ⟨number, rfl, hbound⟩ := hlimit.exists_limit hlt
      rw [parseWords_select, parseSelect_words hcols hconds, orderRaw_sortWords, hbound]
      rfl
  | insert => exact parseWords_insert _
  | erase hlimit =>
      obtain ⟨hconds, hlt⟩ := hst
      obtain ⟨number, rfl, hbound⟩ := hlimit.exists_limit hlt
      rw [parseWords_delete, parseDelete_words hconds, hbound]
      rfl
  | update hlimit =>
      obtain ⟨hsets, hconds, hlt⟩ := hst
      obtain ⟨number, rfl, hbound⟩ := hlimit.exists_limit hlt
      rw [parseWords_update, parseUpdate_words hsets hconds, hbound]
      rfl

/-- Rendering a request and parsing it returns its table, columns, conditions, values,
limit and order. -/
theorem parse_renders {st : Statement} {ws : List Text} {command : Text} (hst : st.WellFormed)
    (h : st.Renders ws) (hwords : ∀ w ∈ ws, IsWord w) (hspaced : Spaced ws command) :
    parse command = .ok st.query := by
  rw [parse_eq, hspaced.words hwords, parseWords_renders hst h]

/-- A request with a clause, a limit and an order. -/
def sampleStatement : Statement :=
  .select [str "name"] (str "t") (some [str "age", str ">", str "20"]) (some 5)
    (some [⟨str "name", false⟩])

def sampleWords : List Text :=
  [str "SELECT", str "name", str "FROM", str "t", str "WHERE", str "age", str ">", str "20",
    str "LIMIT", str "5", str "ORDER", str "BY", str "name", str "DESC"]

theorem sampleWords_spaced :
    Spaced sampleWords (str "SELECT  name FROM t WHERE age > 20 LIMIT 5 ORDER BY name DESC") :=
  .cons (str "SELECT") (str "  ") (by decide +kernel) (by decide +kernel)
    (.blank _ (.blank _ (.blank _ (.blank _ (.blank _ (.blank _ (.blank _ (.blank _ (.blank _
      (.blank _ (.blank _ (.blank _ (.single (str "DESC"))))))))))))))

theorem sampleStatement_wellFormed : sampleStatement.WellFormed := by
  refine ⟨by decide +kernel, fun tokens h => ?_, by decide +kernel⟩
  cases h
  decide +kernel

theorem parse_renders_sample :
    parse (str "SELECT  name FROM t WHERE age > 20 LIMIT 5 ORDER BY name DESC") =
      .ok sampleStatement.query :=
  parse_renders sampleStatement_wellFormed
    (.select (.present ⟨by decide +kernel, by decide +kernel, by decide +kernel⟩))
    (show ∀ w ∈ sampleWords, IsWord w by decide +kernel) sampleWords_spaced

end RequestParser
end SQLid
