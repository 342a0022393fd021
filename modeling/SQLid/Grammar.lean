import SQLid.RequestParser

/-!
# The written requests

The requests the documentation lets a client write, their words, and what the parser
makes of them.
-/
namespace SQLid
open Bytes (Text)
open CppText (str Numeral)

/-- A word that reads as one number. -/
structure Limit where
  word : Text
  value : Nat
  reads : RequestParser.readLimit [word] = (value, ⟨[], false⟩)

def whereWords : Option (List Text) → List Text
  | none => []
  | some tokens => str "WHERE" :: tokens

def limitWords : Option Limit → List Text
  | none => []
  | some limit => [str "LIMIT", limit.word]

/-- How many lines a statement may act on. -/
def limitBound : Option Limit → Nat
  | none => sizeMax
  | some limit => limit.value

def orderWords : Option (List Text) → List Text
  | none => []
  | some ws => str "ORDER" :: str "BY" :: ws

def setWords (sets : List (Text × Text)) : List Text := sets.flatMap fun p => [p.1, str "=", p.2]

def sortWord (isGreaterSort : Bool) : Text := if isGreaterSort then str "ASC" else str "DESC"

def sortWords (order : List OderTypeRaw) : List Text :=
  order.flatMap fun o => [o.rawColumn, sortWord o.isGreaterSort]

/-! The words the parser looks for are different. -/

theorem limit_ne_where : ¬ str "LIMIT" = str "WHERE" := by decide
theorem limit_ne_order : ¬ str "LIMIT" = str "ORDER" := by decide
theorem order_ne_where : ¬ str "ORDER" = str "WHERE" := by decide
theorem order_ne_limit : ¬ str "ORDER" = str "LIMIT" := by decide

namespace RequestParser

theorem readUntil_stop {p : Text → Bool} {ws : List Text} {s : Text}
    (h : ∀ w ∈ ws, p w = false) (hs : p s = true) (buf : Text) (rest : List Text) :
    readUntil p buf (ws ++ s :: rest) = (ws, s, rest) := by
  induction ws generalizing buf with
  | nil => simp [readUntil, hs]
  | cons w ws ih =>
    rw [List.cons_append, readUntil, h w List.mem_cons_self]
    simp only [Bool.false_eq_true, if_false]
    rw [ih fun v hv => h v (List.mem_cons_of_mem w hv)]

theorem readUntil_end {stop : Text → Bool} {ws : List Text} (h : ∀ w ∈ ws, stop w = false)
    (buf : Text) : readUntil stop buf ws = (ws, if ws = [] then buf else [], []) := by
  induction ws generalizing buf with
  | nil => rfl
  | cons w ws ih =>
    rw [readUntil, h w List.mem_cons_self]
    simp only [Bool.false_eq_true, if_false]
    rw [ih fun v hv => h v (List.mem_cons_of_mem w hv)]
    simp

/-- The loop stops at the first word that ends it, or at the end. -/
theorem stop_or_end (stop : Text → Bool) (ws : List Text) :
    (∃ pre s rest, ws = pre ++ s :: rest ∧ (∀ w ∈ pre, stop w = false) ∧ stop s = true) ∨
      ∀ w ∈ ws, stop w = false := by
  induction ws with
  | nil => exact .inr fun w hw => absurd hw List.not_mem_nil
  | cons v ws ih =>
      cases hv : stop v with
      | true => exact .inl ⟨[], v, ws, rfl, fun w hw => absurd hw List.not_mem_nil, hv⟩
      | false =>
          rcases ih with ⟨pre, s, rest, rfl, hpre, hs⟩ | hall
          · refine .inl ⟨v :: pre, s, rest, rfl, fun w hw => ?_, hs⟩
            rcases List.mem_cons.1 hw with rfl | hw
            · exact hv
            · exact hpre w hw
          · refine .inr fun w hw => ?_
            rcases List.mem_cons.1 hw with rfl | hw
            · exact hv
            · exact hall w hw

theorem parseSet_where (buf : Text) (ws : List Text) :
    parseSet buf (str "WHERE" :: ws) = .ok ([], str "WHERE", ws) := by
  unfold parseSet
  rw [decide_eq_true rfl, Bool.true_or, if_pos rfl]

/-- `SET` pairs are read one by one; what follows them decides where the loop ends. -/
theorem parseSet_sets {sets : List (Text × Text)}
    (h : ∀ p ∈ sets, p.1 ≠ str "WHERE" ∧ p.1 ≠ str "LIMIT") (buf : Text) (ws : List Text) :
    parseSet buf (setWords sets ++ ws) =
      (fun r => (sets ++ r.1, r.2)) <$> parseSet (if sets = [] then buf else []) ws := by
  induction sets generalizing buf with
  | nil =>
      change parseSet buf ws = (fun r => ([] ++ r.1, r.2)) <$> parseSet buf ws
      cases parseSet buf ws <;> rfl
  | cons p sets ih =>
      obtain ⟨hwhere, hlimit⟩ := h p List.mem_cons_self
      have hnot : (decide (p.1 = str "WHERE") || decide (p.1 = str "LIMIT")) = false := by
        rw [decide_eq_false hwhere, decide_eq_false hlimit]
        rfl
      have hwords : setWords (p :: sets) ++ ws = p.1 :: str "=" :: p.2 :: (setWords sets ++ ws) := rfl
      have hrest := ih (fun q hq => h q (List.mem_cons_of_mem p hq)) []
      rw [ite_self] at hrest
      rw [hwords]
      conv => lhs; unfold parseSet
      rw [hnot]
      simp only [Bool.false_eq_true, if_false, if_true]
      rw [hrest, if_neg (List.cons_ne_nil p sets)]
      cases parseSet [] ws <;> rfl

theorem sortFlag_sortWord (isGreaterSort : Bool) :
    sortFlag (sortWord isGreaterSort) = .ok isGreaterSort := by
  cases isGreaterSort <;> rfl

theorem parseOrder_sortWords (type : Text) (order : List OderTypeRaw) :
    parseOrder type (sortWords order) = .ok order := by
  induction order generalizing type with
  | nil => rfl
  | cons o order ih =>
      change parseOrder type (o.rawColumn :: sortWord o.isGreaterSort :: sortWords order) = _
      unfold parseOrder
      rw [sortFlag_sortWord, ih]
      rfl

end RequestParser

/-- The number is read off the first word alone. -/
theorem Limit.reads_append (limit : Limit) (ws : List Text) :
    RequestParser.readLimit (limit.word :: ws) = (limit.value, ⟨ws, false⟩) := by
  have h := limit.reads
  unfold RequestParser.readLimit CppText.IStream.size at h ⊢
  simp only [Bool.false_eq_true, if_false] at h ⊢
  split_ifs at h ⊢ with h1 h2
  · simp at h
  · simp at h
  all_goals
    cases hleft : List.dropWhile CppText.isDigit (CppText.splitSign limit.word).2 with
    | nil =>
        rw [hleft] at h
        simp only [Prod.mk.injEq, and_true] at h
        simp only [h]
    | cons b left =>
        rw [hleft] at h
        simp at h

/-- A numeral below `2^64`. -/
def Limit.ofNumeral {n : Nat} {w : Text} (h : Numeral n w) (hn : n < 2 ^ 64) : Limit :=
  ⟨w, n, CppText.IStream.size_numeral h hn [] sizeMax⟩

namespace RequestParser
variable {conditions : Option (List Text)} {limit : Option Limit} {cols : List Text}
  {sets : List (Text × Text)}

def orderRaw : Option (List Text) → Except Fault (List OderTypeRaw)
  | none => .ok []
  | some ws => parseOrder [] ws

/-! The parts of `parseSelect` after the name of the table. -/

def selectWhere (ws : List Text) : List Text × Text × List Text :=
  let (buf, ws) := next [] ws
  if buf = str "WHERE" then readUntil (fun w => w = str "LIMIT" || w = str "ORDER") buf ws
  else ([], buf, ws)

def selectLimit (buf : Text) (ws : List Text) : Nat × Text × CppText.IStream :=
  if buf = str "LIMIT" then
    let (limit, stream) := readLimit ws
    match stream.word with
    | (some w, stream) => (limit, w, stream)
    | (none, stream) => (limit, buf, stream)
  else (sizeMax, buf, ⟨ws, false⟩)

def selectOrder (buf : Text) (stream : CppText.IStream) : Except Fault (List OderTypeRaw) :=
  if buf = str "ORDER" then
    let (buf, ws) := next buf stream.rest
    if buf = str "BY" then parseOrder [] ws else .ok []
  else .ok []

def selectTail (ws : List Text) : Except Fault (List Text × Nat × List OderTypeRaw) := do
  let (rawConditions, buf, ws) := selectWhere ws
  let (limit, buf, stream) := selectLimit buf ws
  return (rawConditions, limit, ← selectOrder buf stream)

theorem parseSelect_from (h : ∀ c ∈ cols, c ≠ str "FROM") (ws : List Text) :
    parseSelect (cols ++ str "FROM" :: ws) =
      (fun r => { tabbleName := (next (str "FROM") ws).1, rawConditions := r.1, limit := r.2.1,
                  columnsRaw := cols, oderColumnsRaw := r.2.2 }) <$>
        selectTail (next (str "FROM") ws).2 := by
  have hread := readUntil_stop (p := fun w => decide (w = str "FROM"))
    (fun c hc => decide_eq_false (h c hc)) (decide_eq_true rfl) [] ws
  unfold parseSelect
  rw [hread]
  simp only [ne_eq, not_true_eq_false, if_false]
  unfold selectTail selectWhere
  generalize next (str "FROM") ws = table
  obtain ⟨name, ws⟩ := table
  dsimp only
  generalize next [] ws = first
  obtain ⟨buf, ws⟩ := first
  dsimp only
  generalize (if buf = str "WHERE" then
    readUntil (fun w => w = str "LIMIT" || w = str "ORDER") buf ws else ([], buf, ws)) = clause
  obtain ⟨rawConditions, buf, ws⟩ := clause
  unfold selectLimit
  dsimp only
  generalize (if buf = str "LIMIT" then
    match (readLimit ws).2.word with
    | (some w, stream) => ((readLimit ws).1, w, stream)
    | (none, stream) => ((readLimit ws).1, buf, stream)
    else (sizeMax, buf, ⟨ws, false⟩)) = number
  obtain ⟨limit, buf, stream⟩ := number
  unfold selectOrder
  dsimp only
  split_ifs
  · cases parseOrder [] (next buf stream.rest).2 <;> rfl
  · rfl
  · rfl

/-- No token ends the clause before its time. -/
def Unended (conditions : Option (List Text)) : Prop :=
  ∀ tokens ∈ conditions, ∀ w ∈ tokens, w ≠ str "LIMIT" ∧ w ≠ str "ORDER"

/-- What `parseSelect` makes of the words after the clause. -/
def selectAfter (ws : List Text) : Except Fault (Nat × List OderTypeRaw) := do
  let (buf, ws) := next [] ws
  let (limit, buf, stream) := selectLimit buf ws
  return (limit, ← selectOrder buf stream)

/-- And of those after the number. -/
def orderAfter (ws : List Text) : Except Fault (List OderTypeRaw) :=
  let (buf, ws) := next [] ws
  selectOrder buf ⟨ws, false⟩

theorem selectTail_eq {ws rest conditions : List Text} {buf : Text}
    (h : selectWhere ws = (conditions, buf, rest)) : selectTail ws =
      (fun r => (conditions, r)) <$> (do
        let (limit, buf, stream) := selectLimit buf rest
        return (limit, ← selectOrder buf stream)) := by
  unfold selectTail
  rw [h]
  dsimp only
  cases selectOrder (selectLimit buf rest).2.1 (selectLimit buf rest).2.2 <;> rfl

theorem selectWhere_where (ws : List Text) : selectWhere (str "WHERE" :: ws) =
    readUntil (fun w => w = str "LIMIT" || w = str "ORDER") (str "WHERE") ws := by
  unfold selectWhere
  exact if_pos rfl

theorem selectWhere_other {ws : List Text} (h : (next [] ws).1 ≠ str "WHERE") :
    selectWhere ws = ([], next [] ws) := by
  unfold selectWhere
  exact if_neg h

/-- A word that is none of the three is read, and nothing after it. -/
theorem selectTail_stray {w : Text} (hwhere : w ≠ str "WHERE") (hlimit : w ≠ str "LIMIT")
    (horder : w ≠ str "ORDER") (ws : List Text) :
    selectTail (w :: ws) = .ok ([], sizeMax, []) := by
  have hread : selectWhere (w :: ws) = ([], w, ws) := selectWhere_other hwhere
  rw [selectTail_eq hread]
  unfold selectLimit selectOrder
  rw [if_neg hlimit]
  dsimp only
  rw [if_neg horder]
  rfl

/-- The clause is read up to `LIMIT`, `ORDER` or the end. -/
theorem selectTail_where (h : Unended conditions) {after : List Text}
    (hafter : ∀ w ∈ after.head?, w = str "LIMIT" ∨ w = str "ORDER") :
    selectTail (whereWords conditions ++ after) =
      (fun r => (conditions.getD [], r)) <$> selectAfter after := by
  cases conditions with
  | none =>
      have hwhere : (next [] after).1 ≠ str "WHERE" := by
        cases after with
        | nil => decide
        | cons w ws =>
            rcases hafter w rfl with rfl | rfl
            · exact limit_ne_where
            · exact order_ne_where
      exact selectTail_eq (selectWhere_other hwhere)
  | some tokens =>
      have hun : ∀ w ∈ tokens, (decide (w = str "LIMIT") || decide (w = str "ORDER")) = false := by
        intro w hw
        obtain ⟨hlimit, horder⟩ := h tokens rfl w hw
        rw [decide_eq_false hlimit, decide_eq_false horder]
        rfl
      cases after with
      | nil =>
          -- the last token has been moved from, or the word is still `WHERE`
          have hread : selectWhere (str "WHERE" :: tokens) = (tokens, _, []) :=
            (selectWhere_where tokens).trans (readUntil_end hun (str "WHERE"))
          rw [whereWords, List.append_nil, selectTail_eq hread]
          by_cases hnil : tokens = []
          · rw [if_pos hnil]
            rfl
          · rw [if_neg hnil]
            rfl
      | cons w ws =>
          have hstop : (decide (w = str "LIMIT") || decide (w = str "ORDER")) = true := by
            rcases hafter w rfl with rfl | rfl <;> decide
          have hread : selectWhere (str "WHERE" :: (tokens ++ w :: ws)) = (tokens, w, ws) :=
            (selectWhere_where _).trans (readUntil_stop hun hstop (str "WHERE") ws)
          exact selectTail_eq hread

theorem selectAfter_order (ws : List Text) :
    selectAfter (str "ORDER" :: ws) = (fun raw => (sizeMax, raw)) <$> orderAfter (str "ORDER" :: ws) := by
  change (selectOrder (str "ORDER") ⟨ws, false⟩ >>= fun raw => pure (sizeMax, raw)) = _
  unfold orderAfter
  dsimp only [next]
  cases selectOrder (str "ORDER") ⟨ws, false⟩ <;> rfl

/-- A number that is not there ends the reading. -/
theorem selectAfter_failed {ws left : List Text} {n : Nat} (h : readLimit ws = (n, ⟨left, true⟩)) :
    selectAfter (str "LIMIT" :: ws) = .ok (n, []) := by
  have hlimit : selectLimit (str "LIMIT") ws = (n, str "LIMIT", ⟨left, true⟩) := by
    unfold selectLimit
    rw [if_pos rfl, h]
    rfl
  unfold selectAfter
  simp only [next, hlimit]
  rfl

/-- After a number the reading goes on with what it left. -/
theorem selectAfter_number {ws left : List Text} {n : Nat}
    (h : readLimit ws = (n, ⟨left, false⟩)) :
    selectAfter (str "LIMIT" :: ws) = (fun raw => (n, raw)) <$> orderAfter left := by
  unfold selectAfter
  cases left with
  | nil =>
      have hlimit : selectLimit (str "LIMIT") ws = (n, str "LIMIT", ⟨[], true⟩) := by
        unfold selectLimit
        rw [if_pos rfl, h]
        rfl
      simp only [next, hlimit]
      rfl
  | cons w left =>
      have hlimit : selectLimit (str "LIMIT") ws = (n, w, ⟨left, false⟩) := by
        unfold selectLimit
        rw [if_pos rfl, h]
        rfl
      simp only [next, hlimit, orderAfter]
      cases selectOrder w ⟨left, false⟩ <;> rfl

theorem orderAfter_words (order : Option (List Text)) :
    orderAfter (orderWords order) = orderRaw order := by
  cases order <;> rfl

theorem selectAfter_words (limit : Option Limit) (order : Option (List Text)) :
    selectAfter (limitWords limit ++ orderWords order) =
      (fun raw => (limitBound limit, raw)) <$> orderRaw order := by
  cases limit with
  | none =>
      cases order with
      | none => rfl
      | some ws => exact selectAfter_order (str "BY" :: ws)
  | some limit =>
      rw [← orderAfter_words]
      exact selectAfter_number (limit.reads_append (orderWords order))

theorem head_after (limit : Option Limit) (order : Option (List Text)) :
    ∀ w ∈ (limitWords limit ++ orderWords order).head?, w = str "LIMIT" ∨ w = str "ORDER" := by
  intro w hw
  cases limit with
  | none =>
      cases order with
      | none => cases hw
      | some ws => exact .inr (Option.some.inj hw).symm
  | some limit => exact .inl (Option.some.inj hw).symm

theorem parseSelect_words {name : Text} (hcols : ∀ c ∈ cols, c ≠ str "FROM")
    (h : Unended conditions) (limit : Option Limit) (order : Option (List Text)) :
    parseSelect (cols ++ str "FROM" :: name ::
        (whereWords conditions ++ (limitWords limit ++ orderWords order))) =
      (fun raw => { tabbleName := name, rawConditions := conditions.getD [],
                    limit := limitBound limit, columnsRaw := cols, oderColumnsRaw := raw }) <$>
        orderRaw order := by
  rw [parseSelect_from hcols]
  simp only [next]
  rw [selectTail_where h (head_after limit order), selectAfter_words]
  cases orderRaw order <;> rfl

/-! The clauses of DELETE and UPDATE end at `LIMIT` alone. -/

def UnendedLimit (conditions : Option (List Text)) : Prop :=
  ∀ tokens ∈ conditions, ∀ w ∈ tokens, w ≠ str "LIMIT"

theorem parseConditionAndLimit_words (h : UnendedLimit conditions) (limit : Option Limit) :
    parseConditionAndLimit (whereWords conditions ++ limitWords limit) =
      (conditions.getD [], limitBound limit) := by
  unfold parseConditionAndLimit
  cases conditions with
  | none =>
      cases limit with
      | none => rfl
      | some limit =>
          simp only [whereWords, limitWords, next, List.nil_append, limit_ne_where, limit.reads,
            if_true, if_false]
          rfl
  | some tokens =>
      have hun : ∀ w ∈ tokens, decide (w = str "LIMIT") = false := fun w hw =>
        decide_eq_false (h tokens rfl w hw)
      cases limit with
      | none =>
          have hend := readUntil_end hun (str "WHERE")
          have hbuf : ¬ (if tokens = [] then str "WHERE" else []) = str "LIMIT" := by
            split <;> decide
          simp only [whereWords, limitWords, next, List.append_nil, hend, hbuf, if_true, if_false]
          rfl
      | some limit =>
          have hstop := readUntil_stop (s := str "LIMIT") hun rfl (str "WHERE") [limit.word]
          simp only [whereWords, limitWords, next, List.cons_append, hstop, limit.reads, if_true]
          rfl

theorem parseDelete_words {name : Text} (h : UnendedLimit conditions) (limit : Option Limit) :
    parseDelete (str "FROM" :: name :: (whereWords conditions ++ limitWords limit)) =
      .ok { tabbleName := name, rawConditions := conditions.getD [], limit := limitBound limit } := by
  unfold parseDelete
  simp only [next, parseConditionAndLimit_words h, ne_eq, not_true_eq_false, if_false]
  rfl

/-- The rest of an UPDATE, once the assignments have been read. -/
theorem parseSet_tail (h : UnendedLimit conditions) (limit : Option Limit) {buf : Text}
    (hbuf : buf ≠ str "LIMIT") :
    ∃ b ws, parseSet buf (whereWords conditions ++ limitWords limit) = .ok ([], b, ws) ∧
      ∃ b' left, (if b = str "LIMIT" then ([], b, ws) else readUntil (· = str "LIMIT") b ws) =
        (conditions.getD [], b', left) ∧
        (if b' = str "LIMIT" then (readLimit left).1 else sizeMax) = limitBound limit := by
  cases conditions with
  | none =>
      cases limit with
      | none => exact ⟨buf, [], rfl, buf, [], if_neg hbuf, if_neg hbuf⟩
      | some limit =>
          refine ⟨str "LIMIT", [limit.word], rfl, str "LIMIT", [limit.word], rfl, ?_⟩
          rw [if_pos rfl, limit.reads]
          rfl
  | some tokens =>
      have hun : ∀ w ∈ tokens, decide (w = str "LIMIT") = false := fun w hw =>
        decide_eq_false (h tokens rfl w hw)
      cases limit with
      | none =>
          refine ⟨str "WHERE", tokens, ?_, _, [],
            (if_neg (by decide)).trans (readUntil_end hun (str "WHERE")), if_neg ?_⟩
          · rw [limitWords, List.append_nil]
            exact parseSet_where buf tokens
          · split <;> decide
      | some limit =>
          refine ⟨str "WHERE", tokens ++ [str "LIMIT", limit.word], parseSet_where buf _,
            str "LIMIT", [limit.word],
            (if_neg (by decide)).trans (readUntil_stop hun rfl (str "WHERE") [limit.word]), ?_⟩
          rw [if_pos rfl, limit.reads]
          rfl

theorem parseUpdate_words {name : Text}
    (hsets : ∀ p ∈ sets, p.1 ≠ str "WHERE" ∧ p.1 ≠ str "LIMIT") (h : UnendedLimit conditions)
    (limit : Option Limit) :
    parseUpdate (name :: str "SET" :: (setWords sets ++ (whereWords conditions ++ limitWords limit))) =
      .ok { tabbleName := name, rawConditions := conditions.getD [], limit := limitBound limit,
            columnsRaw := sets.map Prod.fst, rawValues := sets.map Prod.snd } := by
  have hbuf : (if sets = [] then str "SET" else []) ≠ str "LIMIT" := by split <;> decide
  obtain ⟨b, ws, htail, b', left, hread, hlimit⟩ := parseSet_tail h limit hbuf
  have hset := parseSet_sets hsets (str "SET") (whereWords conditions ++ limitWords limit)
  rw [htail] at hset
  unfold parseUpdate
  simp only [next, hset, ne_eq, not_true_eq_false, if_false]
  change Except.ok _ = Except.ok _
  simp only [hread, hlimit, List.append_nil]

end RequestParser
end SQLid
