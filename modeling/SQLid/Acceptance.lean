import SQLid.NearMisses

/-!
# The parser accepts the documented language and the near misses

Every accepted request is one of the two, and no near miss is documented.
-/
namespace SQLid
open Bytes (Text)
open CppText (str Numeral)
open RequestParser

/-! The clauses of DELETE and UPDATE. -/

theorem LimitPart.head {ws : List Text} (h : LimitPart ws) : ∀ w ∈ ws.head?, w = str "LIMIT" := by
  rintro w hw
  rcases h.cases with rfl | ⟨v, rfl, _⟩
  · cases hw
  · exact (Option.some.inj hw).symm

theorem limit_cases {after : List Text} (h : ∀ w ∈ after.head?, w = str "LIMIT") :
    LimitPart after ∨ ∃ ws, after = str "LIMIT" :: ws ∧ EndMiss ws := by
  cases after with
  | nil => exact .inl ⟨none, .absent, fun _ h => by cases h⟩
  | cons w ws =>
      obtain rfl := h w rfl
      cases ws with
      | nil => exact .inr ⟨[], rfl, .missing⟩
      | cons w ws =>
          by_cases hw : IsNumber w
          · cases ws with
            | nil => exact .inl hw.part
            | cons v ws => exact .inr ⟨_, rfl, .after hw⟩
          · exact .inr ⟨_, rfl, .word hw⟩

theorem clause_cases {ws : List Text} (h : ∀ w ∈ ws.head?, w = str "WHERE" ∨ w = str "LIMIT") :
    ClausePart ws ∨ ClauseMiss ws := by
  have hsplit : ∃ conditions after, ws = whereWords conditions ++ after ∧ UnendedLimit conditions ∧
      ∀ w ∈ after.head?, w = str "LIMIT" := by
    cases ws with
    | nil => exact ⟨none, [], rfl, (fun _ h => by cases h), fun _ h => by cases h⟩
    | cons w ws =>
        rcases h w rfl with rfl | rfl
        · rcases stop_or_end (fun w => decide (w = str "LIMIT")) ws with
            ⟨tokens, s, rest, rfl, htokens, hs⟩ | htokens
          · refine ⟨some tokens, s :: rest, rfl, ?_, ?_⟩
            · rintro _ ⟨⟩ w hw
              exact of_decide_eq_false (htokens w hw)
            · rintro _ ⟨⟩
              exact of_decide_eq_true hs
          · refine ⟨some ws, [], (List.append_nil _).symm, ?_, fun _ h => by cases h⟩
            rintro _ ⟨⟩ w hw
            exact of_decide_eq_false (htokens w hw)
        · refine ⟨none, _, rfl, (fun _ h => by cases h), ?_⟩
          rintro _ ⟨⟩
          rfl
  obtain ⟨conditions, after, rfl, hun, hhead⟩ := hsplit
  rcases limit_cases hhead with hl | ⟨ws, rfl, hmiss⟩
  · by_cases hempty : conditions = some []
    · subst hempty
      exact .inr (.emptyClause hl)
    · refine .inl ⟨conditions, after, rfl, hun, fun tokens htokens hnil => ?_, hl⟩
      rw [hnil] at htokens
      exact hempty htokens
  · exact .inr (.limit hun hmiss)

theorem clause_split_unique {conditions conditions' : Option (List Text)} {after after' : List Text}
    (h : UnendedLimit conditions) (h' : UnendedLimit conditions')
    (hafter : ∀ w ∈ after.head?, w = str "LIMIT") (hafter' : ∀ w ∈ after'.head?, w = str "LIMIT")
    (heq : whereWords conditions ++ after = whereWords conditions' ++ after') :
    conditions = conditions' ∧ after = after' :=
  @where_split_unique (fun w => decide (w = str "LIMIT")) (by decide) _ _ _ _
    (fun tokens ht w hw => decide_eq_false (h tokens ht w hw))
    (fun tokens ht w hw => decide_eq_false (h' tokens ht w hw))
    (fun w hw => decide_eq_true (hafter w hw)) (fun w hw => decide_eq_true (hafter' w hw)) heq

theorem EndMiss.not_part {ws : List Text} (h : EndMiss ws) : ¬ LimitPart (str "LIMIT" :: ws) := by
  intro hpart
  rcases hpart.cases with hnil | ⟨w, heq, hw⟩
  · cases hnil
  · obtain ⟨-, rfl⟩ := List.cons.inj heq
    cases h with
    | word hnot => exact hnot hw

theorem ClauseMiss.not_part {ws : List Text} (h : ClauseMiss ws) : ¬ ClausePart ws := by
  rintro ⟨conditions, lws, heq, hun, hne, hl⟩
  cases h with
  | emptyClause hl' =>
      have hnil : UnendedLimit (some []) := by
        rintro _ ⟨⟩ w hw
        cases hw
      obtain ⟨hconds, -⟩ := clause_split_unique hnil hun hl'.head hl.head heq
      exact hne [] hconds.symm rfl
  | limit hun' hmiss =>
      obtain ⟨-, hafter⟩ := clause_split_unique hun' hun (by rintro _ ⟨⟩; rfl) hl.head heq
      rw [← hafter] at hl
      exact hmiss.not_part hl

theorem ClausePart.head {ws : List Text} (h : ClausePart ws) :
    ∀ w ∈ ws.head?, w = str "WHERE" ∨ w = str "LIMIT" := by
  obtain ⟨conditions, lws, rfl, _, _, hl⟩ := h
  cases conditions with
  | none => exact fun w hw => .inr (hl.head w hw)
  | some tokens =>
      rintro _ ⟨⟩
      exact .inl rfl

theorem ClauseMiss.head {ws : List Text} (h : ClauseMiss ws) :
    ∀ w ∈ ws.head?, w = str "WHERE" ∨ w = str "LIMIT" := by
  cases h with
  | emptyClause _ =>
      rintro _ ⟨⟩
      exact .inl rfl
  | @limit conditions ws _ _ =>
      cases conditions with
      | none =>
          rintro _ ⟨⟩
          exact .inr rfl
      | some tokens =>
          rintro _ ⟨⟩
          exact .inl rfl

/-! The assignments. -/

theorem settable_cons {p : Text × Text} {sets : List (Text × Text)}
    (hp : ¬ (decide (p.1 = str "WHERE") || decide (p.1 = str "LIMIT")) = true)
    (h : Settable sets) : Settable (p :: sets) := by
  intro q hq
  rcases List.mem_cons.1 hq with rfl | hq
  · simpa using hp
  · exact h q hq

theorem parseSet_ok {buf : Text} {ws : List Text} {r : List (Text × Text) × Text × List Text}
    (h : parseSet buf ws = .ok r) : ∃ sets, Settable sets ∧
      ((∃ tail, ws = setWords sets ++ tail ∧ ∀ w ∈ tail.head?, w = str "WHERE" ∨ w = str "LIMIT") ∨
        ∃ column, ws = setWords sets ++ [column, str "="] ∧
          (column ≠ str "WHERE" ∧ column ≠ str "LIMIT")) := by
  have hnil : Settable [] := fun _ h => absurd h List.not_mem_nil
  induction buf, ws using parseSet.induct generalizing r with
  | case1 buf => exact ⟨[], hnil, .inl ⟨[], rfl, fun _ h => by cases h⟩⟩
  | case2 buf w ws hw =>
      refine ⟨[], hnil, .inl ⟨w :: ws, rfl, ?_⟩⟩
      rintro _ ⟨⟩
      simpa using hw
  | case3 buf w hw =>
      unfold parseSet at h
      rw [if_neg hw] at h
      cases h
  | case4 buf w hw => exact ⟨[], hnil, .inr ⟨w, rfl, by simpa using hw⟩⟩
  | case5 buf w hw eq heq =>
      unfold parseSet at h
      simp only [if_neg hw, if_neg heq] at h
      cases h
  | case6 buf w hw value ws ih =>
      unfold parseSet at h
      rw [if_neg hw] at h
      cases hrest : parseSet [] ws with
      | error e =>
          simp only [hrest, if_true] at h
          cases h
      | ok rest =>
          obtain ⟨sets, hsets, ⟨tail, rfl, htail⟩ | ⟨column, rfl, hcolumn⟩⟩ := ih hrest
          · exact ⟨(w, value) :: sets, settable_cons hw hsets, .inl ⟨tail, rfl, htail⟩⟩
          · exact ⟨(w, value) :: sets, settable_cons hw hsets, .inr ⟨column, rfl, hcolumn⟩⟩
  | case7 buf w hw eq value ws heq =>
      unfold parseSet at h
      simp only [if_neg hw, if_neg heq] at h
      cases h

/-- Once the assignments are read, nothing is refused any more. -/
theorem parseUpdate_accepted {name : Text} {ws : List Text}
    (h : ∃ r, parseSet (str "SET") ws = .ok r) :
    ∃ q, parseUpdate (name :: str "SET" :: ws) = .ok q := by
  obtain ⟨r, h⟩ := h
  unfold parseUpdate
  simp only [next, ne_eq, not_true_eq_false, if_false, h]
  exact ⟨_, rfl⟩

theorem parseSet_accepted {sets : List (Text × Text)} (hsets : Settable sets) {buf : Text}
    {ws : List Text} (h : ∀ buf, ∃ r, parseSet buf ws = .ok r) :
    ∃ r, parseSet buf (setWords sets ++ ws) = .ok r := by
  obtain ⟨r, h⟩ := h (if sets = [] then buf else [])
  rw [parseSet_sets hsets, h]
  exact ⟨_, rfl⟩

theorem parseSet_head {ws : List Text} (h : ∀ w ∈ ws.head?, w = str "WHERE" ∨ w = str "LIMIT")
    (buf : Text) : ∃ r, parseSet buf ws = .ok r := by
  cases ws with
  | nil => exact ⟨_, rfl⟩
  | cons w ws =>
      have hw : (decide (w = str "WHERE") || decide (w = str "LIMIT")) = true := by
        simpa using h w rfl
      unfold parseSet
      rw [if_pos hw]
      exact ⟨_, rfl⟩

theorem parseSet_noValue {column : Text} (h : column ≠ str "WHERE" ∧ column ≠ str "LIMIT")
    (buf : Text) : ∃ r, parseSet buf [column, str "="] = .ok r := by
  have hw : ¬ (decide (column = str "WHERE") || decide (column = str "LIMIT")) = true := by
    simpa using h
  unfold parseSet
  rw [if_neg hw]
  exact ⟨_, rfl⟩

/-- The assignments are determined by the words. -/
theorem set_split_unique {sets sets' : List (Text × Text)} {tail tail' : List Text}
    (h : Settable sets) (h' : Settable sets')
    (htail : ∀ w ∈ tail.head?, w = str "WHERE" ∨ w = str "LIMIT")
    (htail' : ∀ w ∈ tail'.head?, w = str "WHERE" ∨ w = str "LIMIT")
    (heq : setWords sets ++ tail = setWords sets' ++ tail') : sets = sets' ∧ tail = tail' := by
  have hnot : ∀ (p : Text × Text) (sets : List (Text × Text)) (rest tail : List Text),
      Settable (p :: sets) → setWords (p :: sets) ++ rest = tail →
      ¬ ∀ w ∈ tail.head?, w = str "WHERE" ∨ w = str "LIMIT" := by
    rintro p sets rest _ hp rfl hhead
    obtain ⟨h1, h2⟩ := hp p List.mem_cons_self
    rcases hhead p.1 rfl with h | h
    · exact h1 h
    · exact h2 h
  induction sets generalizing sets' with
  | nil =>
      cases sets' with
      | nil => exact ⟨rfl, heq⟩
      | cons p sets' => exact absurd htail (hnot p sets' tail' tail h' heq.symm)
  | cons p sets ih =>
      cases sets' with
      | nil => exact absurd htail' (hnot p sets tail tail' h heq)
      | cons q sets' =>
          change p.1 :: str "=" :: p.2 :: (setWords sets ++ tail) =
            q.1 :: str "=" :: q.2 :: (setWords sets' ++ tail') at heq
          simp only [List.cons.injEq, true_and] at heq
          obtain ⟨h1, h2, hrest⟩ := heq
          obtain ⟨rfl, rfl⟩ := ih (fun r hr => h r (List.mem_cons_of_mem p hr))
            (fun r hr => h' r (List.mem_cons_of_mem q hr)) hrest
          exact ⟨congrArg (· :: sets) (Prod.ext h1 h2), rfl⟩

theorem noValue_not_split {sets sets' : List (Text × Text)} {column : Text} {tail : List Text}
    (h : Settable sets) (hcolumn : column ≠ str "WHERE" ∧ column ≠ str "LIMIT")
    (htail : ∀ w ∈ tail.head?, w = str "WHERE" ∨ w = str "LIMIT") :
    setWords sets ++ [column, str "="] ≠ setWords sets' ++ tail := by
  have hnot : ∀ (w : Text) (rest : List Text), w ≠ str "WHERE" ∧ w ≠ str "LIMIT" →
      w :: rest ≠ tail := by
    rintro w rest ⟨h1, h2⟩ rfl
    rcases htail w rfl with h | h
    · exact h1 h
    · exact h2 h
  intro heq
  induction sets generalizing sets' with
  | nil =>
      cases sets' with
      | nil => exact hnot column _ hcolumn heq
      | cons p sets' => simp [setWords] at heq
  | cons p sets ih =>
      cases sets' with
      | nil => exact hnot p.1 _ (h p List.mem_cons_self) heq
      | cons q sets' =>
          change p.1 :: str "=" :: p.2 :: (setWords sets ++ [column, str "="]) =
            q.1 :: str "=" :: q.2 :: (setWords sets' ++ tail) at heq
          simp only [List.cons.injEq, true_and] at heq
          exact ih (fun r hr => h r (List.mem_cons_of_mem p hr)) heq.2.2

/-! The requests. -/

theorem parseSelect_ok {ws : List Text} {q : SelectQuery} (h : parseSelect ws = .ok q) :
    ∃ columns rest, ws = columns ++ str "FROM" :: rest ∧ (∀ c ∈ columns, c ≠ str "FROM") ∧
      ∃ r, selectTail (next (str "FROM") rest).2 = .ok r := by
  rcases stop_or_end (fun w => decide (w = str "FROM")) ws with
    ⟨columns, s, rest, rfl, hcols, hs⟩ | hcols
  · obtain rfl := of_decide_eq_true hs
    have hcols' : ∀ c ∈ columns, c ≠ str "FROM" := fun c hc => of_decide_eq_false (hcols c hc)
    refine ⟨columns, rest, rfl, hcols', ?_⟩
    rw [parseSelect_from hcols'] at h
    cases htail : selectTail (next (str "FROM") rest).2 with
    | ok r => exact ⟨r, rfl⟩
    | error e =>
        rw [htail] at h
        cases h
  · have hend := readUntil_end hcols []
    rw [ite_self] at hend
    unfold parseSelect at h
    rw [hend] at h
    cases h

theorem SelectPart.documented {columns : List Text} {ws : List Text} (hcols : ∀ c ∈ columns, c ≠ str "FROM")
    (hne : columns ≠ []) (h : SelectPart ws) (name : Text) : ∃ st : Statement, st.Documented ∧
      st.Renders (str "SELECT" :: (columns ++ str "FROM" :: name :: ws)) := by
  obtain ⟨conditions, lws, ows, rfl, hun, hclause, ⟨limit, hlws, hlt⟩, order, horder, rfl⟩ := h
  exact ⟨.select columns name conditions limit order,
    ⟨⟨hcols, hun, hlt⟩, ⟨hne, horder⟩, hclause, fun _ _ h => by cases h⟩, .select hlws⟩

theorem ClausePart.documented {sets : List (Text × Text)} {ws : List Text} (hsets : Settable sets)
    (hne : sets ≠ []) (h : ClausePart ws) (name : Text) : ∃ st : Statement, st.Documented ∧
      st.Renders (str "UPDATE" :: name :: str "SET" :: (setWords sets ++ ws)) := by
  obtain ⟨conditions, lws, rfl, hun, hclause, limit, hlws, hlt⟩ := h
  exact ⟨.update name sets conditions limit,
    ⟨⟨hsets, hun, hlt⟩, hne, hclause, fun _ _ h => by cases h⟩, .update hlws⟩

theorem select_cases {ws : List Text} {q : SelectQuery} (h : parseSelect ws = .ok q) :
    (∃ st : Statement, st.Documented ∧ st.Renders (str "SELECT" :: ws)) ∨
      NearMiss (str "SELECT" :: ws) := by
  obtain ⟨columns, rest, rfl, hcols, r, htail⟩ := parseSelect_ok h
  cases rest with
  | nil => exact .inr (.selectTable hcols)
  | cons name rest =>
      rcases selectTail_ok htail with hpart | hmiss
      · by_cases hne : columns = []
        · subst hne
          exact .inr (.noColumns hpart)
        · exact .inl (hpart.documented hcols hne name)
      · exact .inr (.select hcols hmiss)

theorem insert_cases {ws : List Text} {q : InsertQuery} (h : parseInsert ws = .ok q) :
    (∃ st : Statement, st.Documented ∧ st.Renders (str "INSERT" :: ws)) ∨
      NearMiss (str "INSERT" :: ws) := by
  have hinto : (next [] ws).1 = str "INTO" := by
    by_contra hne
    unfold parseInsert at h
    dsimp only at h
    rw [if_pos hne] at h
    cases h
  cases ws with
  | nil => cases hinto
  | cons w ws =>
      obtain rfl : w = str "INTO" := hinto
      cases ws with
      | nil => exact .inr .insertTable
      | cons name values =>
          by_cases hne : values = []
          · subst hne
            exact .inr .noValues
          · exact .inl ⟨.insert name values,
              ⟨trivial, hne, (fun _ h => by cases h), fun _ _ h => by cases h⟩, .insert⟩

theorem delete_cases {ws : List Text} {q : DeleteQuery} (h : parseDelete ws = .ok q) :
    (∃ st : Statement, st.Documented ∧ st.Renders (str "DELETE" :: ws)) ∨
      NearMiss (str "DELETE" :: ws) := by
  have hfrom : (next [] ws).1 = str "FROM" := by
    by_contra hne
    unfold parseDelete at h
    dsimp only at h
    rw [if_pos hne] at h
    cases h
  cases ws with
  | nil => cases hfrom
  | cons w ws =>
      obtain rfl : w = str "FROM" := hfrom
      cases ws with
      | nil => exact .inr .deleteTable
      | cons name ws =>
          by_cases hhead : ∃ rest, ws = str "WHERE" :: rest
          · obtain ⟨rest, rfl⟩ := hhead
            have hwhere : ∀ w ∈ (str "WHERE" :: rest).head?, w = str "WHERE" ∨ w = str "LIMIT" := by
              rintro _ ⟨⟩
              exact .inl rfl
            rcases clause_cases hwhere with
              ⟨conditions, lws, heq, hun, hne, limit, hlws, hlt⟩ | hmiss
            · refine .inl ⟨.erase name conditions limit,
                ⟨⟨hun, hlt⟩, trivial, hne, fun _ _ hnone => ?_⟩, heq ▸ .erase hlws⟩
              -- the clause is there, since the words begin with WHERE
              cases hnone
              cases hlws with
              | absent => cases heq
              | present _ => exact limit_ne_where (List.cons.inj heq).1.symm
            · exact .inr (.delete hmiss)
          · refine .inr (.noClause fun w hw hwhere => hhead ?_)
            cases ws with
            | nil => cases hw
            | cons v ws =>
                obtain rfl := Option.some.inj hw
                exact ⟨ws, congrArg (· :: ws) hwhere⟩

theorem update_cases {ws : List Text} {q : UpdateQuery} (h : parseUpdate ws = .ok q) :
    (∃ st : Statement, st.Documented ∧ st.Renders (str "UPDATE" :: ws)) ∨
      NearMiss (str "UPDATE" :: ws) := by
  have hset : (next [] (next [] ws).2).1 = str "SET" := by
    by_contra hne
    unfold parseUpdate at h
    dsimp only at h
    rw [if_pos hne] at h
    cases h
  cases ws with
  | nil => cases hset
  | cons name ws =>
      cases ws with
      | nil => cases hset
      | cons w ws =>
          obtain rfl : w = str "SET" := hset
          cases hread : parseSet (str "SET") ws with
          | error e =>
              unfold parseUpdate at h
              simp only [next, ne_eq, not_true_eq_false, if_false, hread] at h
              cases h
          | ok r =>
              obtain ⟨sets, hsets, ⟨tail, rfl, htail⟩ | ⟨column, rfl, hcolumn⟩⟩ := parseSet_ok hread
              · rcases clause_cases htail with hpart | hmiss
                · by_cases hne : sets = []
                  · subst hne
                    exact .inr (.noAssignments hpart)
                  · exact .inl (hpart.documented hsets hne name)
                · exact .inr (.update hsets hmiss)
              · exact .inr (.noValue hsets hcolumn)

theorem map_ok {ε α β : Type} {f : α → β} {x : Except ε α} {b : β} (h : f <$> x = .ok b) :
    ∃ a, x = .ok a := by
  cases x with
  | ok a => exact ⟨a, rfl⟩
  | error e => cases h

/-- A request that is accepted is documented or a near miss. -/
theorem accepted_cases {ws : List Text} {q : QueryVariant} (h : parseWords ws = .ok q) :
    (∃ st : Statement, st.Documented ∧ st.Renders ws) ∨ NearMiss ws := by
  cases ws with
  | nil => cases h
  | cons w ws =>
      by_cases hselect : w = str "SELECT"
      · subst hselect
        rw [parseWords_select] at h
        obtain ⟨query, hquery⟩ := map_ok h
        exact select_cases hquery
      by_cases hinsert : w = str "INSERT"
      · subst hinsert
        rw [parseWords_insert] at h
        obtain ⟨query, hquery⟩ := map_ok h
        exact insert_cases hquery
      by_cases hdelete : w = str "DELETE"
      · subst hdelete
        rw [parseWords_delete] at h
        obtain ⟨query, hquery⟩ := map_ok h
        exact delete_cases hquery
      by_cases hupdate : w = str "UPDATE"
      · subst hupdate
        rw [parseWords_update] at h
        obtain ⟨query, hquery⟩ := map_ok h
        exact update_cases hquery
      · unfold parseWords at h
        simp only [next, hselect, hinsert, hdelete, hupdate, if_false] at h
        cases h

/-- The parser takes every near miss. -/
theorem NearMiss.accepted {ws : List Text} (h : NearMiss ws) : ∃ q, parseWords ws = .ok q := by
  cases h with
  | selectTable hcols =>
      rw [parseWords_select, parseSelect_from hcols]
      exact ⟨_, rfl⟩
  | select hcols hmiss =>
      obtain ⟨r, hr⟩ := hmiss.accepted
      rw [parseWords_select, parseSelect_from hcols]
      simp only [next, hr]
      exact ⟨_, rfl⟩
  | noColumns hpart =>
      obtain ⟨r, hr⟩ := hpart.accepted
      have hnone : ∀ c ∈ ([] : List Text), c ≠ str "FROM" := List.forall_mem_nil _
      rw [parseWords_select, ← List.nil_append (str "FROM" :: _), parseSelect_from hnone]
      simp only [next, hr]
      exact ⟨_, rfl⟩
  | insertTable => exact ⟨_, parseWords_insert _⟩
  | noValues => exact ⟨_, parseWords_insert _⟩
  | deleteTable => exact ⟨_, parseWords_delete _⟩
  | noClause _ => exact ⟨_, parseWords_delete _⟩
  | delete _ => exact ⟨_, parseWords_delete _⟩
  | noValue hsets hcolumn =>
      obtain ⟨q, hq⟩ := parseUpdate_accepted
        (parseSet_accepted hsets (parseSet_noValue hcolumn))
      rw [parseWords_update, hq]
      exact ⟨_, rfl⟩
  | noAssignments hpart =>
      obtain ⟨q, hq⟩ := parseUpdate_accepted (parseSet_head hpart.head (str "SET"))
      rw [parseWords_update, hq]
      exact ⟨_, rfl⟩
  | update hsets hmiss =>
      obtain ⟨q, hq⟩ := parseUpdate_accepted (parseSet_accepted hsets (parseSet_head hmiss.head))
      rw [parseWords_update, hq]
      exact ⟨_, rfl⟩

/-! A documented request has the documented parts. -/

theorem Statement.Documented.select_part {st : Statement} (hst : st.Documented) {columns rest : List Text}
    (hcols : ∀ c ∈ columns, c ≠ str "FROM")
    (h : st.Renders (str "SELECT" :: (columns ++ str "FROM" :: rest))) :
    columns ≠ [] ∧ ∃ name ws, rest = name :: ws ∧ SelectPart ws := by
  generalize hwords : str "SELECT" :: (columns ++ str "FROM" :: rest) = words at h
  cases h with
  | @select columns' name conditions limit order lws hlws =>
      obtain ⟨hcols', hun, hlt⟩ := hst.wellFormed
      have hcut := @cut_unique _ (fun w => decide (w = str "FROM")) _ _ _ _
        (fun c hc => decide_eq_false (hcols c hc)) (fun c hc => decide_eq_false (hcols' c hc))
        (by rintro _ ⟨⟩; exact decide_eq_true rfl) (by rintro _ ⟨⟩; exact decide_eq_true rfl)
        (List.cons.inj hwords).2
      obtain ⟨hne, horder⟩ := hst.filled
      exact ⟨hcut.1 ▸ hne, name, _, (List.cons.inj hcut.2).2, conditions, lws, _, rfl, hun,
        hst.clause_ne_nil, ⟨limit, hlws, hlt⟩, order, horder, rfl⟩
  | insert => exact absurd (List.cons.inj hwords).1 (by decide)
  | erase _ => exact absurd (List.cons.inj hwords).1 (by decide)
  | update _ => exact absurd (List.cons.inj hwords).1 (by decide)

theorem Statement.Documented.insert_part {st : Statement} (hst : st.Documented) {rest : List Text}
    (h : st.Renders (str "INSERT" :: str "INTO" :: rest)) :
    ∃ name values, rest = name :: values ∧ values ≠ [] := by
  generalize hwords : str "INSERT" :: str "INTO" :: rest = words at h
  cases h with
  | @insert name values =>
      exact ⟨name, values, (List.cons.inj (List.cons.inj hwords).2).2, hst.filled⟩
  | select _ => exact absurd (List.cons.inj hwords).1 (by decide)
  | erase _ => exact absurd (List.cons.inj hwords).1 (by decide)
  | update _ => exact absurd (List.cons.inj hwords).1 (by decide)

theorem Statement.Documented.delete_part {st : Statement} (hst : st.Documented) {rest : List Text}
    (h : st.Renders (str "DELETE" :: str "FROM" :: rest)) :
    ∃ name ws, rest = name :: str "WHERE" :: ws ∧ ClausePart (str "WHERE" :: ws) := by
  generalize hwords : str "DELETE" :: str "FROM" :: rest = words at h
  cases h with
  | @erase name conditions limit lws hlws =>
      obtain ⟨hun, hlt⟩ := hst.wellFormed
      cases conditions with
      | none => exact absurd rfl (hst.clause_of_erase name limit)
      | some tokens =>
          exact ⟨name, tokens ++ lws, (List.cons.inj (List.cons.inj hwords).2).2, some tokens, lws, rfl,
            hun, hst.clause_ne_nil, limit, hlws, hlt⟩
  | select _ => exact absurd (List.cons.inj hwords).1 (by decide)
  | insert => exact absurd (List.cons.inj hwords).1 (by decide)
  | update _ => exact absurd (List.cons.inj hwords).1 (by decide)

theorem Statement.Documented.update_part {st : Statement} (hst : st.Documented) {name : Text}
    {rest : List Text} (h : st.Renders (str "UPDATE" :: name :: str "SET" :: rest)) :
    ∃ sets ws, rest = setWords sets ++ ws ∧ sets ≠ [] ∧ Settable sets ∧ ClausePart ws := by
  generalize hwords : str "UPDATE" :: name :: str "SET" :: rest = words at h
  cases h with
  | @update name' sets conditions limit lws hlws =>
      obtain ⟨hsets, hun, hlt⟩ := hst.wellFormed
      exact ⟨sets, _, (List.cons.inj (List.cons.inj (List.cons.inj hwords).2).2).2, hst.filled, hsets,
        conditions, lws, rfl, hun, hst.clause_ne_nil, limit, hlws, hlt⟩
  | select _ => exact absurd (List.cons.inj hwords).1 (by decide)
  | insert => exact absurd (List.cons.inj hwords).1 (by decide)
  | erase _ => exact absurd (List.cons.inj hwords).1 (by decide)

/-- No near miss is documented. -/
theorem NearMiss.undocumented {ws : List Text} (h : NearMiss ws) {st : Statement}
    (hst : st.Documented) : ¬ st.Renders ws := by
  intro hr
  cases h with
  | selectTable hcols =>
      obtain ⟨-, name, ws, hnil, -⟩ := hst.select_part hcols hr
      cases hnil
  | select hcols hmiss =>
      obtain ⟨-, name, ws, heq, hpart⟩ := hst.select_part hcols hr
      obtain ⟨-, rfl⟩ := List.cons.inj heq
      exact hmiss.not_part hpart
  | noColumns hpart => exact (hst.select_part (List.forall_mem_nil _) hr).1 rfl
  | insertTable =>
      obtain ⟨name, values, hnil, -⟩ := hst.insert_part hr
      cases hnil
  | noValues =>
      obtain ⟨name, values, heq, hne⟩ := hst.insert_part hr
      exact hne (List.cons.inj heq).2.symm
  | deleteTable =>
      obtain ⟨name, ws, hnil, -⟩ := hst.delete_part hr
      cases hnil
  | noClause hhead =>
      obtain ⟨name, ws, heq, -⟩ := hst.delete_part hr
      obtain ⟨-, rfl⟩ := List.cons.inj heq
      exact hhead _ rfl rfl
  | delete hmiss =>
      obtain ⟨name, ws, heq, hpart⟩ := hst.delete_part hr
      obtain ⟨-, rfl⟩ := List.cons.inj heq
      exact hmiss.not_part hpart
  | noValue hsets hcolumn =>
      obtain ⟨sets', ws, heq, _, _, hpart⟩ := hst.update_part hr
      exact noValue_not_split hsets hcolumn hpart.head heq
  | noAssignments hpart =>
      obtain ⟨sets', ws, heq, hne, hsets', hpart'⟩ := hst.update_part hr
      obtain ⟨hnil, -⟩ := set_split_unique (List.forall_mem_nil _) hsets' hpart.head hpart'.head heq
      exact hne hnil.symm
  | update hsets hmiss =>
      obtain ⟨sets', ws, heq, -, hsets', hpart⟩ := hst.update_part hr
      obtain ⟨-, rfl⟩ := set_split_unique hsets hsets' hmiss.head hpart.head heq
      exact hmiss.not_part hpart

/-- What is accepted is a rendering of the query that is returned, unless the words are
a near miss. -/
theorem accepts_documented_iff (command : Text) :
    (∀ q, parse command = .ok q → ∃ st : Statement, st.Documented ∧
      st.Renders (CppText.words command) ∧ st.query = q) ↔ ¬ NearMiss (CppText.words command) := by
  rw [parse_eq]
  constructor
  · intro h hmiss
    obtain ⟨q, hq⟩ := hmiss.accepted
    obtain ⟨st, hst, hr, -⟩ := h q hq
    exact hmiss.undocumented hst hr
  · intro hmiss q hq
    obtain ⟨st, hst, hr⟩ := (accepted_cases hq).resolve_right hmiss
    refine ⟨st, hst, hr, ?_⟩
    have hparse := parseWords_renders hst.wellFormed hr
    rw [hq] at hparse
    exact (Except.ok.inj hparse).symm

/-- A DELETE whose WHERE is misspelt is taken for one without a clause. -/
theorem delete_without_clause :
    parse (str "DELETE FROM t WHRE id == 1") = .ok (.erase { tabbleName := str "t" }) ∧
      ¬ ∃ st : Statement, st.Documented ∧ st.Renders (CppText.words (str "DELETE FROM t WHRE id == 1")) ∧
        st.query = .erase { tabbleName := str "t" } := by
  have hwords : CppText.words (str "DELETE FROM t WHRE id == 1") =
      [str "DELETE", str "FROM", str "t", str "WHRE", str "id", str "==", str "1"] := by decide +kernel
  refine ⟨by decide +kernel, ?_⟩
  rintro ⟨st, hst, hr, -⟩
  rw [hwords] at hr
  refine (NearMiss.noClause ?_).undocumented hst hr
  rintro _ ⟨⟩
  decide

end SQLid
