import SQLid.Rendering

/-!
# What the parser accepts

A request that is accepted is either a rendering of a documented request or one of
the near misses listed here, which lose words or make some up.
-/
namespace SQLid
open Bytes (Text)
open CppText (str Numeral)

namespace Statement

def clause : Statement → Option (List Text)
  | .select _ _ conditions _ _ => conditions
  | .insert _ _ => none
  | .erase _ conditions _ => conditions
  | .update _ _ conditions _ => conditions

/-- No list of columns, values, assignments or orders is left empty. -/
def Filled : Statement → Prop
  | .select columns _ _ _ order => columns ≠ [] ∧ order ≠ some []
  | .insert _ values => values ≠ []
  | .erase _ _ _ => True
  | .update _ sets _ _ => sets ≠ []

/-- No list is empty, a clause has a token, and a DELETE has a clause. -/
structure Documented (st : Statement) : Prop where
  wellFormed : st.WellFormed
  filled : st.Filled
  clause_ne_nil : ∀ tokens ∈ st.clause, tokens ≠ []
  clause_of_erase : ∀ tabbleName limit, st ≠ .erase tabbleName none limit

end Statement

/-! The parts that are written as documented. -/

/-- An optional order, at the end of the words. -/
def OrderPart (ws : List Text) : Prop :=
  ∃ order : Option (List OderTypeRaw), order ≠ some [] ∧ ws = orderWords (order.map sortWords)

/-- An optional limit. -/
def LimitPart (ws : List Text) : Prop :=
  ∃ limit, RendersLimit limit ws ∧ ∀ n ∈ limit, n < 2 ^ 64

def IsNumber (w : Text) : Prop := ∃ n < 2 ^ 64, Numeral n w

/-- The tail of a SELECT: a clause with tokens, a limit and an order. -/
def SelectPart (ws : List Text) : Prop :=
  ∃ conditions lws ows, ws = whereWords conditions ++ (lws ++ ows) ∧
    RequestParser.Unended conditions ∧ (∀ tokens ∈ conditions, tokens ≠ []) ∧ LimitPart lws ∧ OrderPart ows

/-- The tail of a DELETE or an UPDATE. -/
def ClausePart (ws : List Text) : Prop :=
  ∃ conditions lws, ws = whereWords conditions ++ lws ∧ RequestParser.UnendedLimit conditions ∧
    (∀ tokens ∈ conditions, tokens ≠ []) ∧ LimitPart lws

/-! And those that are not, yet pass. -/

/-- Words where only an order may stand. -/
inductive OrderMiss : List Text → Prop
  | stray {w : Text} {ws : List Text} : w ≠ str "ORDER" → OrderMiss (w :: ws)
  | noBy {ws : List Text} : (∀ w ∈ ws.head?, w ≠ str "BY") → OrderMiss (str "ORDER" :: ws)
  | empty : OrderMiss [str "ORDER", str "BY"]
  | shared {order : List OderTypeRaw} {column : Text} : order ≠ [] →
      OrderMiss (str "ORDER" :: str "BY" :: (sortWords order ++ [column]))

/-- Words after the `LIMIT` of a SELECT. -/
inductive LimitMiss : List Text → Prop
  | failed {ws : List Text} : (RequestParser.readLimit ws).2.fail = true → LimitMiss ws
  | word {w : Text} {ws left : List Text} : ¬ IsNumber w →
      (RequestParser.readLimit (w :: ws)).2 = ⟨left, false⟩ → OrderPart left ∨ OrderMiss left →
      LimitMiss (w :: ws)
  | after {w : Text} {ws : List Text} : IsNumber w → OrderMiss ws → LimitMiss (w :: ws)

/-- Words after the table of a SELECT. -/
inductive SelectMiss : List Text → Prop
  | stray {w : Text} {ws : List Text} : w ≠ str "WHERE" → w ≠ str "LIMIT" → w ≠ str "ORDER" →
      SelectMiss (w :: ws)
  | emptyClause {ws ws' : List Text} : LimitPart ws → OrderPart ws' →
      SelectMiss (str "WHERE" :: (ws ++ ws'))
  | limit {conditions : Option (List Text)} {ws : List Text} : RequestParser.Unended conditions →
      LimitMiss ws → SelectMiss (whereWords conditions ++ str "LIMIT" :: ws)
  | order {conditions : Option (List Text)} {ws : List Text} : RequestParser.Unended conditions →
      OrderMiss (str "ORDER" :: ws) → SelectMiss (whereWords conditions ++ str "ORDER" :: ws)

/-- Words after the `LIMIT` of a DELETE or an UPDATE. -/
inductive EndMiss : List Text → Prop
  | missing : EndMiss []
  | word {w : Text} {ws : List Text} : ¬ IsNumber w → EndMiss (w :: ws)
  | after {w v : Text} {ws : List Text} : IsNumber w → EndMiss (w :: v :: ws)

/-- Words after the table of a DELETE, or after the assignments. -/
inductive ClauseMiss : List Text → Prop
  | emptyClause {ws : List Text} : LimitPart ws → ClauseMiss (str "WHERE" :: ws)
  | limit {conditions : Option (List Text)} {ws : List Text} :
      RequestParser.UnendedLimit conditions → EndMiss ws →
      ClauseMiss (whereWords conditions ++ str "LIMIT" :: ws)

/-- The columns a SET may name. -/
def Settable (sets : List (Text × Text)) : Prop :=
  ∀ p ∈ sets, p.1 ≠ str "WHERE" ∧ p.1 ≠ str "LIMIT"

/-- The words of a request that is not documented but accepted. -/
inductive NearMiss : List Text → Prop
  | selectTable {columns : List Text} : (∀ c ∈ columns, c ≠ str "FROM") →
      NearMiss (str "SELECT" :: (columns ++ [str "FROM"]))
  | select {columns : List Text} {tabbleName : Text} {ws : List Text} :
      (∀ c ∈ columns, c ≠ str "FROM") → SelectMiss ws →
      NearMiss (str "SELECT" :: (columns ++ str "FROM" :: tabbleName :: ws))
  | noColumns {tabbleName : Text} {ws : List Text} : SelectPart ws →
      NearMiss (str "SELECT" :: str "FROM" :: tabbleName :: ws)
  | insertTable : NearMiss [str "INSERT", str "INTO"]
  | noValues {tabbleName : Text} : NearMiss [str "INSERT", str "INTO", tabbleName]
  | deleteTable : NearMiss [str "DELETE", str "FROM"]
  | noClause {tabbleName : Text} {ws : List Text} : (∀ w ∈ ws.head?, w ≠ str "WHERE") →
      NearMiss (str "DELETE" :: str "FROM" :: tabbleName :: ws)
  | delete {tabbleName : Text} {ws : List Text} : ClauseMiss ws →
      NearMiss (str "DELETE" :: str "FROM" :: tabbleName :: ws)
  | noValue {tabbleName column : Text} {sets : List (Text × Text)} : Settable sets →
      column ≠ str "WHERE" ∧ column ≠ str "LIMIT" →
      NearMiss (str "UPDATE" :: tabbleName :: str "SET" :: (setWords sets ++ [column, str "="]))
  | noAssignments {tabbleName : Text} {ws : List Text} : ClausePart ws →
      NearMiss (str "UPDATE" :: tabbleName :: str "SET" :: ws)
  | update {tabbleName : Text} {sets : List (Text × Text)} {ws : List Text} : Settable sets →
      ClauseMiss ws →
      NearMiss (str "UPDATE" :: tabbleName :: str "SET" :: (setWords sets ++ ws))

/-! A list is cut in one way before the first element a predicate holds of. -/

theorem cut_unique {α : Type} {stop : α → Bool} {pre pre' after after' : List α}
    (h : ∀ a ∈ pre, stop a = false) (h' : ∀ a ∈ pre', stop a = false)
    (hafter : ∀ a ∈ after.head?, stop a = true) (hafter' : ∀ a ∈ after'.head?, stop a = true)
    (heq : pre ++ after = pre' ++ after') : pre = pre' ∧ after = after' := by
  induction pre generalizing pre' with
  | nil =>
      cases pre' with
      | nil => exact ⟨rfl, heq⟩
      | cons a pre' =>
          rw [List.nil_append] at heq
          subst heq
          exact absurd ((hafter a rfl).symm.trans (h' a List.mem_cons_self)) (by decide)
  | cons a pre ih =>
      cases pre' with
      | nil =>
          rw [List.nil_append] at heq
          subst heq
          exact absurd ((hafter' a rfl).symm.trans (h a List.mem_cons_self)) (by decide)
      | cons b pre' =>
          obtain ⟨rfl, hrest⟩ := List.cons.inj heq
          obtain ⟨rfl, rfl⟩ := ih (fun c hc => h c (List.mem_cons_of_mem a hc))
            (fun c hc => h' c (List.mem_cons_of_mem a hc)) hrest
          exact ⟨rfl, rfl⟩

/-- A clause is determined by the words, whatever words end it. -/
theorem where_split_unique {stop : Text → Bool} (hwhere : stop (str "WHERE") = false)
    {conditions conditions' : Option (List Text)} {after after' : List Text}
    (h : ∀ tokens ∈ conditions, ∀ w ∈ tokens, stop w = false)
    (h' : ∀ tokens ∈ conditions', ∀ w ∈ tokens, stop w = false)
    (hafter : ∀ w ∈ after.head?, stop w = true) (hafter' : ∀ w ∈ after'.head?, stop w = true)
    (heq : whereWords conditions ++ after = whereWords conditions' ++ after') :
    conditions = conditions' ∧ after = after' := by
  have hnot : ∀ (tokens rest : List Text), str "WHERE" :: tokens = rest →
      ¬ ∀ w ∈ rest.head?, stop w = true := by
    rintro tokens _ rfl hhead
    exact absurd (hwhere.symm.trans (hhead _ rfl)) (by decide)
  cases conditions with
  | none =>
      cases conditions' with
      | none => exact ⟨rfl, heq⟩
      | some tokens => exact absurd hafter (hnot _ _ heq.symm)
  | some tokens =>
      cases conditions' with
      | none => exact absurd hafter' (hnot _ _ heq)
      | some tokens' =>
          obtain ⟨rfl, rfl⟩ := cut_unique (h tokens rfl) (h' tokens' rfl) hafter hafter'
            (List.cons.inj heq).2
          exact ⟨rfl, rfl⟩

open RequestParser

/-! The order. -/

theorem length_sortWords (order : List OderTypeRaw) :
    (sortWords order).length = 2 * order.length := by
  induction order with
  | nil => rfl
  | cons o order ih =>
      change (sortWords order).length + 2 = 2 * (order.length + 1)
      omega

theorem sortFlag_ok {type : Text} {flag : Bool} (h : sortFlag type = .ok flag) :
    type = sortWord flag := by
  unfold sortFlag at h
  split_ifs at h with hasc hdesc
  · cases h
    exact hasc
  · cases h
    exact hdesc

/-- The loop reads pairs; only a last column may take the sort type of the one before. -/
theorem parseOrder_ok {type : Text} {ws : List Text} {raw : List OderTypeRaw}
    (h : parseOrder type ws = .ok raw) : ws = sortWords raw ∨
      ∃ order column, ws = sortWords order ++ [column] ∧
        (order = [] → ∃ flag, sortFlag type = .ok flag) := by
  induction type, ws using parseOrder.induct generalizing raw with
  | case1 type =>
      cases h
      exact .inl rfl
  | case2 type column =>
      refine .inr ⟨[], column, rfl, fun _ => ?_⟩
      cases hflag : sortFlag type with
      | ok flag => exact ⟨flag, rfl⟩
      | error e =>
          unfold parseOrder at h
          rw [hflag] at h
          cases h
  | case3 first column type ws ih =>
      unfold parseOrder at h
      cases hflag : sortFlag type with
      | error e =>
          rw [hflag] at h
          cases h
      | ok flag =>
          cases hrest : parseOrder type ws with
          | error e =>
              rw [hflag, hrest] at h
              cases h
          | ok rest =>
              rw [hflag, hrest] at h
              cases h
              rw [sortFlag_ok hflag]
              rcases ih hrest with rfl | ⟨order, last, rfl, _⟩
              · exact .inl rfl
              · exact .inr ⟨⟨column, flag⟩ :: order, last, rfl, fun hnil => by cases hnil⟩

theorem parseOrder_shared {order : List OderTypeRaw} {type : Text}
    (h : order ≠ [] ∨ ∃ flag, sortFlag type = .ok flag) (column : Text) :
    ∃ raw, parseOrder type (sortWords order ++ [column]) = .ok raw := by
  induction order generalizing type with
  | nil =>
      obtain ⟨flag, hflag⟩ := h.resolve_left fun hne => hne rfl
      refine ⟨[⟨column, flag⟩], ?_⟩
      change parseOrder type [column] = _
      unfold parseOrder
      rw [hflag]
      rfl
  | cons o order ih =>
      obtain ⟨raw, hraw⟩ := ih (.inr ⟨o.isGreaterSort, sortFlag_sortWord o.isGreaterSort⟩)
      refine ⟨o :: raw, ?_⟩
      change parseOrder type
        (o.rawColumn :: sortWord o.isGreaterSort :: (sortWords order ++ [column])) = _
      unfold parseOrder
      rw [sortFlag_sortWord, hraw]
      rfl

theorem orderPart_nil : OrderPart [] := ⟨none, (fun h => by cases h), rfl⟩

theorem orderAfter_ok {ws : List Text} {raw : List OderTypeRaw} (h : orderAfter ws = .ok raw) :
    OrderPart ws ∨ OrderMiss ws := by
  cases ws with
  | nil => exact .inl orderPart_nil
  | cons w ws =>
      by_cases hw : w = str "ORDER"
      · subst hw
        cases ws with
        | nil => exact .inr (.noBy fun w hw => by cases hw)
        | cons v ws =>
            by_cases hv : v = str "BY"
            · subst hv
              have hparse : parseOrder [] ws = .ok raw := h
              rcases parseOrder_ok hparse with rfl | ⟨order, column, rfl, hflag⟩
              · by_cases hnil : raw = []
                · subst hnil
                  exact .inr .empty
                · exact .inl ⟨some raw, fun h => hnil (Option.some.inj h), rfl⟩
              · refine .inr (.shared fun hnil => ?_)
                obtain ⟨flag, hflag⟩ := hflag hnil
                cases hflag
            · refine .inr (.noBy fun w hw => ?_)
              obtain rfl := Option.some.inj hw
              exact hv
      · exact .inr (.stray hw)

theorem OrderPart.accepted {ws : List Text} (h : OrderPart ws) : ∃ raw, orderAfter ws = .ok raw := by
  obtain ⟨order, -, rfl⟩ := h
  exact ⟨order.getD [], (orderAfter_words _).trans (orderRaw_sortWords order)⟩

theorem OrderMiss.accepted {ws : List Text} (h : OrderMiss ws) :
    ∃ raw, orderAfter ws = .ok raw := by
  cases h with
  | stray hw => exact ⟨[], if_neg hw⟩
  | @noBy ws hby =>
      have hnext : (next (str "ORDER") ws).1 ≠ str "BY" := by
        cases ws with
        | nil => exact by decide
        | cons w ws => exact hby w rfl
      refine ⟨[], ?_⟩
      unfold orderAfter selectOrder
      exact (if_pos rfl).trans (if_neg hnext)
  | empty => exact ⟨[], rfl⟩
  | shared hne => exact parseOrder_shared (.inl hne) _

theorem OrderMiss.not_part {ws : List Text} (h : OrderMiss ws) : ¬ OrderPart ws := by
  rintro ⟨order, hne, rfl⟩
  cases order with
  | none => cases h
  | some order =>
      generalize hws : orderWords ((some order).map sortWords) = ws at h
      cases h with
      | stray hw => exact hw (List.cons.inj hws).1.symm
      | noBy hby =>
          obtain ⟨-, rfl⟩ := List.cons.inj hws
          exact hby _ rfl rfl
      | empty =>
          have hlen := congrArg List.length hws
          change (sortWords order).length + 2 = 2 at hlen
          rw [length_sortWords] at hlen
          exact hne (congrArg some (List.length_eq_zero_iff.mp (by omega)))
      | @shared order' column _ =>
          have hlen := congrArg List.length hws
          change (sortWords order).length + 2 = (sortWords order' ++ [column]).length + 2 at hlen
          rw [List.length_append, length_sortWords, length_sortWords, List.length_singleton] at hlen
          omega

/-! The limit. -/

theorem readLimit_number {w : Text} (h : IsNumber w) (ws : List Text) :
    ∃ n < 2 ^ 64, Numeral n w ∧ readLimit (w :: ws) = (n, ⟨ws, false⟩) := by
  obtain ⟨n, hn, hw⟩ := h
  exact ⟨n, hn, hw, CppText.IStream.size_numeral hw hn ws sizeMax⟩

theorem IsNumber.part {w : Text} (h : IsNumber w) : LimitPart [str "LIMIT", w] := by
  obtain ⟨n, hn, hw⟩ := h
  refine ⟨some n, .present hw, fun m hm => ?_⟩
  obtain rfl := Option.some.inj hm
  exact hn

theorem LimitPart.cases {ws : List Text} (h : LimitPart ws) :
    ws = [] ∨ ∃ w, ws = [str "LIMIT", w] ∧ IsNumber w := by
  obtain ⟨limit, hws, hlt⟩ := h
  cases hws with
  | absent => exact .inl rfl
  | present hw => exact .inr ⟨_, rfl, _, hlt _ rfl, hw⟩

theorem selectAfter_limit_ok {ws : List Text} {r : Nat × List OderTypeRaw}
    (h : selectAfter (str "LIMIT" :: ws) = .ok r) :
    (∃ w rest, ws = w :: rest ∧ IsNumber w ∧ OrderPart rest) ∨ LimitMiss ws := by
  cases hread : readLimit ws with
  | mk n stream =>
      obtain ⟨left, fail⟩ := stream
      cases fail with
      | true => exact .inr (.failed (by rw [hread]))
      | false =>
          have hrest : ∃ raw, orderAfter left = .ok raw := by
            rw [selectAfter_number hread] at h
            cases horder : orderAfter left with
            | ok raw => exact ⟨raw, rfl⟩
            | error e =>
                rw [horder] at h
                cases h
          obtain ⟨raw, hraw⟩ := hrest
          cases ws with
          | nil => cases hread
          | cons w ws =>
              by_cases hw : IsNumber w
              · obtain ⟨m, _, _, hnum⟩ := readLimit_number hw ws
                rw [hread] at hnum
                cases hnum
                rcases orderAfter_ok hraw with hpart | hmiss
                · exact .inl ⟨w, _, rfl, hw, hpart⟩
                · exact .inr (.after hw hmiss)
              · exact .inr (.word hw (by rw [hread]) (orderAfter_ok hraw))

theorem selectAfter_accepted {ws left : List Text} {n : Nat}
    (h : readLimit ws = (n, ⟨left, false⟩)) (hleft : OrderPart left ∨ OrderMiss left) :
    ∃ r, selectAfter (str "LIMIT" :: ws) = .ok r := by
  have hraw : ∃ raw, orderAfter left = .ok raw := hleft.elim OrderPart.accepted OrderMiss.accepted
  obtain ⟨raw, hraw⟩ := hraw
  rw [selectAfter_number h, hraw]
  exact ⟨_, rfl⟩

theorem LimitMiss.accepted {ws : List Text} (h : LimitMiss ws) :
    ∃ r, selectAfter (str "LIMIT" :: ws) = .ok r := by
  cases h with
  | failed hfail =>
      cases hread : readLimit ws with
      | mk n stream =>
          obtain ⟨left, fail⟩ := stream
          rw [hread] at hfail
          cases hfail
          exact ⟨_, selectAfter_failed hread⟩
  | word _ hread hleft => exact selectAfter_accepted (Prod.ext rfl hread) hleft
  | @after w ws hw hmiss =>
      obtain ⟨n, _, _, hread⟩ := readLimit_number hw ws
      exact selectAfter_accepted hread (.inr hmiss)

theorem LimitMiss.not_part {w : Text} {ws : List Text} (h : LimitMiss (w :: ws)) (hw : IsNumber w) :
    ¬ OrderPart ws := by
  obtain ⟨n, _, _, hread⟩ := readLimit_number hw ws
  cases h with
  | failed hfail =>
      rw [hread] at hfail
      cases hfail
  | word hnot _ _ => exact absurd hw hnot
  | after _ hmiss => exact hmiss.not_part

/-! The words after the table of a SELECT. -/

theorem OrderPart.head {ws : List Text} (h : OrderPart ws) : ws = [] ∨ ∃ rest, ws = str "ORDER" :: rest := by
  obtain ⟨order, -, rfl⟩ := h
  cases order with
  | none => exact .inl rfl
  | some order => exact .inr ⟨_, rfl⟩

theorem head_limit_order {lws ows : List Text} (hl : LimitPart lws) (ho : OrderPart ows) :
    ∀ w ∈ (lws ++ ows).head?, w = str "LIMIT" ∨ w = str "ORDER" := by
  intro w hw
  rcases hl.cases with rfl | ⟨v, rfl, _⟩
  · rcases ho.head with rfl | ⟨rest, rfl⟩
    · cases hw
    · exact .inr (Option.some.inj hw).symm
  · exact .inl (Option.some.inj hw).symm

/-- Any tail is a clause and what ends it, or begins with a stray word. -/
theorem select_split (ws : List Text) :
    (∃ conditions after, ws = whereWords conditions ++ after ∧ Unended conditions ∧
      ∀ w ∈ after.head?, w = str "LIMIT" ∨ w = str "ORDER") ∨
    ∃ w rest, ws = w :: rest ∧ w ≠ str "WHERE" ∧ w ≠ str "LIMIT" ∧ w ≠ str "ORDER" := by
  cases ws with
  | nil => exact .inl ⟨none, [], rfl, (fun _ h => by cases h), fun _ h => by cases h⟩
  | cons w ws =>
      by_cases hwhere : w = str "WHERE"
      · subst hwhere
        refine .inl ?_
        rcases stop_or_end (fun w => decide (w = str "LIMIT") || decide (w = str "ORDER")) ws with
          ⟨tokens, s, rest, rfl, htokens, hs⟩ | htokens
        · refine ⟨some tokens, s :: rest, rfl, ?_, ?_⟩
          · rintro _ ⟨⟩ w hw
            simpa using htokens w hw
          · intro w hw
            obtain rfl := Option.some.inj hw
            simpa using hs
        · refine ⟨some ws, [], (List.append_nil _).symm, ?_, fun _ h => by cases h⟩
          rintro _ ⟨⟩ w hw
          simpa using htokens w hw
      · by_cases hend : w = str "LIMIT" ∨ w = str "ORDER"
        · refine .inl ⟨none, w :: ws, rfl, (fun _ h => by cases h), fun v hv => ?_⟩
          obtain rfl := Option.some.inj hv
          exact hend
        · rw [not_or] at hend
          exact .inr ⟨w, ws, rfl, hwhere, hend.1, hend.2⟩

theorem select_split_unique {conditions conditions' : Option (List Text)} {after after' : List Text}
    (h : Unended conditions) (h' : Unended conditions')
    (hafter : ∀ w ∈ after.head?, w = str "LIMIT" ∨ w = str "ORDER")
    (hafter' : ∀ w ∈ after'.head?, w = str "LIMIT" ∨ w = str "ORDER")
    (heq : whereWords conditions ++ after = whereWords conditions' ++ after') :
    conditions = conditions' ∧ after = after' :=
  @where_split_unique (fun w => decide (w = str "LIMIT" ∨ w = str "ORDER")) (by decide) _ _ _ _
    (fun tokens ht w hw => decide_eq_false (not_or.2 (h tokens ht w hw)))
    (fun tokens ht w hw => decide_eq_false (not_or.2 (h' tokens ht w hw)))
    (fun w hw => decide_eq_true (hafter w hw)) (fun w hw => decide_eq_true (hafter' w hw)) heq

theorem after_cases {after : List Text} {r : Nat × List OderTypeRaw}
    (hhead : ∀ w ∈ after.head?, w = str "LIMIT" ∨ w = str "ORDER") (h : selectAfter after = .ok r) :
    (∃ lws ows, after = lws ++ ows ∧ LimitPart lws ∧ OrderPart ows) ∨
      (∃ ws, after = str "LIMIT" :: ws ∧ LimitMiss ws) ∨
      ∃ ws, after = str "ORDER" :: ws ∧ OrderMiss (str "ORDER" :: ws) := by
  have habsent : LimitPart [] := ⟨none, .absent, fun _ h => by cases h⟩
  cases after with
  | nil => exact .inl ⟨[], [], rfl, habsent, orderPart_nil⟩
  | cons w ws =>
      rcases hhead w rfl with rfl | rfl
      · rcases selectAfter_limit_ok h with ⟨w, rest, rfl, hw, hrest⟩ | hmiss
        · exact .inl ⟨[str "LIMIT", w], rest, rfl, hw.part, hrest⟩
        · exact .inr (.inl ⟨ws, rfl, hmiss⟩)
      · rw [selectAfter_order] at h
        cases hraw : orderAfter (str "ORDER" :: ws) with
        | error e =>
            rw [hraw] at h
            cases h
        | ok raw =>
            rcases orderAfter_ok hraw with hpart | hmiss
            · exact .inl ⟨[], _, rfl, habsent, hpart⟩
            · exact .inr (.inr ⟨ws, rfl, hmiss⟩)

theorem selectTail_ok {ws : List Text} {r : List Text × Nat × List OderTypeRaw}
    (h : selectTail ws = .ok r) : SelectPart ws ∨ SelectMiss ws := by
  rcases select_split ws with ⟨conditions, after, rfl, hun, hhead⟩ | ⟨w, rest, rfl, h1, h2, h3⟩
  · have hok : ∃ r, selectAfter after = .ok r := by
      rw [selectTail_where hun hhead] at h
      cases hafter : selectAfter after with
      | ok r => exact ⟨r, rfl⟩
      | error e =>
          rw [hafter] at h
          cases h
    obtain ⟨r, hok⟩ := hok
    rcases after_cases hhead hok with ⟨lws, ows, rfl, hl, ho⟩ | ⟨ws, rfl, hmiss⟩ | ⟨ws, rfl, hmiss⟩
    · by_cases hempty : conditions = some []
      · subst hempty
        refine .inr ?_
        change SelectMiss (str "WHERE" :: (lws ++ ows))
        exact .emptyClause hl ho
      · refine .inl ⟨conditions, lws, ows, rfl, hun, fun tokens htokens hnil => ?_, hl, ho⟩
        rw [hnil] at htokens
        exact hempty htokens
    · exact .inr (.limit hun hmiss)
    · exact .inr (.order hun hmiss)
  · exact .inr (.stray h1 h2 h3)

theorem unended_nil : Unended (some []) := by
  rintro _ ⟨⟩ w hw
  cases hw

/-- A word that ends the clause. -/
theorem head_ends {w : Text} (h : w = str "LIMIT" ∨ w = str "ORDER") (ws : List Text) :
    ∀ v ∈ (w :: ws).head?, v = str "LIMIT" ∨ v = str "ORDER" := by
  rintro _ ⟨⟩
  exact h

theorem selectTail_accepted {conditions : Option (List Text)} {after : List Text}
    (h : Unended conditions) (hhead : ∀ w ∈ after.head?, w = str "LIMIT" ∨ w = str "ORDER")
    (hafter : ∃ r, selectAfter after = .ok r) :
    ∃ r, selectTail (whereWords conditions ++ after) = .ok r := by
  obtain ⟨r, hafter⟩ := hafter
  rw [selectTail_where h hhead, hafter]
  exact ⟨_, rfl⟩

theorem selectAfter_parts {lws ows : List Text} (hl : LimitPart lws) (ho : OrderPart ows) :
    ∃ r, selectAfter (lws ++ ows) = .ok r := by
  rcases hl.cases with rfl | ⟨w, rfl, hw⟩
  · obtain ⟨order, -, rfl⟩ := ho
    rw [← limitWords.eq_1, selectAfter_words, orderRaw_sortWords]
    exact ⟨_, rfl⟩
  · obtain ⟨n, _, _, hread⟩ := readLimit_number hw ows
    exact selectAfter_accepted hread (.inl ho)

theorem SelectPart.accepted {ws : List Text} (h : SelectPart ws) : ∃ r, selectTail ws = .ok r := by
  obtain ⟨conditions, lws, ows, rfl, hun, -, hl, ho⟩ := h
  exact selectTail_accepted hun (head_limit_order hl ho) (selectAfter_parts hl ho)

theorem SelectMiss.accepted {ws : List Text} (h : SelectMiss ws) : ∃ r, selectTail ws = .ok r := by
  cases h with
  | stray h1 h2 h3 => exact ⟨_, selectTail_stray h1 h2 h3 _⟩
  | emptyClause hl ho =>
      exact selectTail_accepted unended_nil (head_limit_order hl ho) (selectAfter_parts hl ho)
  | limit hun hmiss => exact selectTail_accepted hun (head_ends (.inl rfl) _) hmiss.accepted
  | order hun hmiss =>
      obtain ⟨raw, hraw⟩ := hmiss.accepted
      refine selectTail_accepted hun (head_ends (.inr rfl) _) ?_
      rw [selectAfter_order, hraw]
      exact ⟨_, rfl⟩

theorem SelectMiss.not_part {ws : List Text} (h : SelectMiss ws) : ¬ SelectPart ws := by
  rintro ⟨conditions, lws, ows, heq, hun, hne, hl, ho⟩
  have hhead := head_limit_order hl ho
  cases h with
  | stray h1 h2 h3 =>
      cases conditions with
      | none =>
          rcases hhead _ (congrArg List.head? heq).symm with h | h
          · exact h2 h
          · exact h3 h
      | some tokens => exact h1 (List.cons.inj heq).1
  | emptyClause hl' ho' =>
      obtain ⟨hconds, -⟩ := select_split_unique unended_nil hun (head_limit_order hl' ho') hhead heq
      exact hne [] hconds.symm rfl
  | limit hun' hmiss =>
      obtain ⟨-, hafter⟩ := select_split_unique hun' hun (head_ends (.inl rfl) _) hhead heq
      rcases hl.cases with rfl | ⟨w, rfl, hw⟩
      · rcases ho.head with rfl | ⟨rest, rfl⟩
        · cases hafter
        · exact limit_ne_order (List.cons.inj hafter).1
      · obtain ⟨-, rfl⟩ := List.cons.inj hafter
        exact hmiss.not_part hw ho
  | order hun' hmiss =>
      obtain ⟨-, hafter⟩ := select_split_unique hun' hun (head_ends (.inr rfl) _) hhead heq
      rcases hl.cases with rfl | ⟨w, rfl, hw⟩
      · rw [hafter] at hmiss
        exact hmiss.not_part ho
      · exact order_ne_limit (List.cons.inj hafter).1

end SQLid
