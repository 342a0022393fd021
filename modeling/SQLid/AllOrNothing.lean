import SQLid.ReportedIds
import SQLid.Reported

/-!
# INSERT beside a file that does not grow

The rows before the one without a line stay in the file, and the reply says that the
INSERT has succeeded. A batch is all or nothing just where there is room for all of it.
-/
namespace SQLid
open Bytes (Text)
open CppText (str)
open Programs
open Executor (idRow Inserted Stopped)

section
variable {os : Os} {schema : TabbleInfo} {t : Tabble} {command : Text}

/-- What an orderly request leaves of a table in service. -/
theorem request_idle_or_gone (hreg : schema.Regular) (h : Served schema t)
    (ha : ∀ query conds, compile t.info command = .ok query → query.changes = some conds →
      Executor.Aimed t conds) :
    Post (fun _ s => s.table.storage.expanding = false ∨ s.table.Gone)
      (fun e s => e.isException = true → s.table.storage.expanding = false ∨ s.table.Gone)
      (request os command t) := by
  have hidle (t' : Tabble) (h' : Served schema t') : t'.storage.expanding = false ∨ t'.Gone :=
    .inl h'.sound.idle
  unfold request
  cases hc : compile t.info command with
  | error e =>
      rw [run_answer_error hc]
      exact .error fun _ => hidle t h
  | ok query =>
      rw [run_answer hc, run_execute]
      cases query with
      | select query =>
          apply ((Executor.select_keeps (P := Served schema) (fun _ _ h hl => h.logOnly hl)
            query) ⟨t, { isSucces := true }⟩ h).mono
          · exact fun _ _ h => hidle _ h
          · exact fun _ _ h _ => hidle _ h
      | insert query =>
          obtain ⟨raws, hraws⟩ := compile_insert hc
          obtain ⟨hcols, hvalues⟩ := Optimizer.optimizeInsertValues_ok hraws
          apply (Executor.executeInsert_room h.sound os hcols
            (Optimizer.insertRows_fullRows hvalues) { isSucces := true } rfl).mono
          · rintro _ s (⟨⟨done, -, hins, -⟩, -⟩ | hstopped)
            · exact .inl hins.sound.idle
            · exact .inr hstopped.short.1
          · exact fun _ _ h => h.elim
      | erase query =>
          apply ((Executor.delete_served hreg h (ha _ _ hc rfl)) ⟨t, { isSucces := true }⟩ rfl).mono
          · exact fun _ _ h => hidle _ h
          · exact fun _ _ h he => hidle _ (h he)
      | update query =>
          apply ((Executor.update_served os hreg h (ha _ _ hc rfl)) ⟨t, { isSucces := true }⟩ rfl).mono
          · exact fun _ _ h => hidle _ h
          · exact fun _ _ h he => hidle _ (h he)

/-- After an orderly run a table can grow, or its pages are unmapped for good. -/
theorem Reach.idle_or_gone (hreg : schema.Regular) (h : Reach Orderly os schema t) :
    t.storage.expanding = false ∨ t.Gone := by
  cases h with
  | start hopen =>
      have hempty : ByteFile.empty.size = 0 := rfl
      exact .inl (openFile_served hreg (.inl hempty) hopen).sound.idle
  | request command hold hok hrun =>
      rcases (request_idle_or_gone hreg (hold.served hreg hok.idle) hok.aimed).settles hrun with
        ⟨-, h⟩ | ⟨e, he, h⟩
      · exact h
      · exact h (by simpa using he)
  | restart hold hopen =>
      have hkept := hold.kept hreg
      rw [hkept.info] at hopen
      exact .inl (openFile_served hreg (.inr hkept.file) hopen).sound.idle

end

/-- All rows are active and the reply lists their lines, or none is and the reply is an error. -/
def AllRowsOrNone (t t' : Tabble) (rows : Nat) (result : Result) : Prop :=
  (result.isSucces = true ∧ ∃ lines : List Nat, lines.length = rows ∧ lines.Nodup ∧
      result.body = lines.map idRow ∧ (∀ i ∈ lines, t.active i = false) ∧
      ∀ i, t'.active i = (t.active i || decide (i ∈ lines))) ∨
    result.isSucces = false ∧ result.error ≠ [] ∧ t'.active = t.active

/-- The client gets a reply to a command on table `id`, and it is all or nothing. -/
def InsertReplied (os : Os) (command : Text) (base : DataBase) (id : Nat) (t : Tabble) (rows : Nat) :
    Prop :=
  ∃ result base' t', (Operator.execute os command).run base = .ok result base' ∧
    base'.tabbles = base.tabbles.set id t' ∧ AllRowsOrNone t t' rows result

section
variable {os : Os} {t : Tabble} {command : Text} {base : DataBase} {id rows : Nat}
  {raw : InsertQuery} {values : List VariantTypes}

/-- The reply to an INSERT the optimizer accepts. -/
theorem run_operator_insert (htable : base.tabbles[id]? = some t)
    (hparse : RequestParser.parse command = .ok (.insert raw))
    (hid : base.getTabbleId raw.tabbleName = .ok id)
    (hvalues : Optimizer.optimizeInsertValues t.info raw.rawValues = .ok values) :
    (Operator.execute os command).run base =
      match (Executor.executeInsert os { raw with values }).run ⟨t, { isSucces := true }⟩ with
      | .ok _ s => .ok { s.result with isSucces := true } { base with tabbles := base.tabbles.set id s.table }
      | .error e s => if e.isReported
          then .ok { s.result with error := e.what, isSucces := false }
            { base with tabbles := base.tabbles.set id s.table }
          else .error e { base with tabbles := base.tabbles.set id s.table } := by
  have hopt : Optimizer.optimize t.info (.insert raw) = .ok (.insert { raw with values }) := by
    unfold Optimizer.optimize
    dsimp only
    unfold Optimizer.optimizeInsert
    rw [hvalues]
    rfl
  have hprocess : (Operator.process os (.insert raw)).run ⟨t, {}⟩ =
      (Executor.executeInsert os { raw with values }).run ⟨t, { isSucces := true }⟩ := by
    unfold Operator.process
    rw [run_bind_ok (EStateM.run_get _), hopt, run_bind_ok (run_ofExcept_ok _ _)]
    rfl
  have hrun : (Operator.attempt os command).run ⟨base, {}⟩ =
      match (Executor.executeInsert os { raw with values }).run ⟨t, { isSucces := true }⟩ with
      | .ok a s => .ok a ⟨{ base with tabbles := base.tabbles.set id s.table }, s.result⟩
      | .error e s => .error e ⟨{ base with tabbles := base.tabbles.set id s.table }, s.result⟩ := by
    unfold Operator.attempt
    rw [hparse, run_bind_ok (run_ofExcept_ok _ _), run_bind_ok (EStateM.run_get _)]
    change (Programs.ofExcept (base.getTabbleId raw.tabbleName) >>= _).run _ = _
    rw [hid, run_bind_ok (run_ofExcept_ok _ _)]
    unfold Operator.onTabble
    rw [run_bind_ok (EStateM.run_get _)]
    dsimp only
    rw [htable, run_zoom, hprocess]
    cases (Executor.executeInsert os { raw with values }).run ⟨t, { isSucces := true }⟩ with
    | ok a s => rfl
    | error e s => rfl
  change Operator.execute os command base = _
  unfold Operator.execute
  rw [hrun]
  cases (Executor.executeInsert os { raw with values }).run ⟨t, { isSucces := true }⟩ with
  | ok a s => rfl
  | error e s => rfl

/-- Fewer lines than rows in the answer of the executor are reported as a success. -/
theorem not_insertReplied (htable : base.tabbles[id]? = some t)
    (hparse : RequestParser.parse command = .ok (.insert raw))
    (hid : base.getTabbleId raw.tabbleName = .ok id)
    (hvalues : Optimizer.optimizeInsertValues t.info raw.rawValues = .ok values)
    (hshort : Post (fun _ s => s.result.body.length < rows) (fun _ _ => True)
      ((Executor.executeInsert os { raw with values }).run ⟨t, { isSucces := true }⟩)) :
    ¬ InsertReplied os command base id t rows := by
  rintro ⟨result, base', t', hreply, -, hall⟩
  rw [run_operator_insert htable hparse hid hvalues] at hreply
  cases hrun : (Executor.executeInsert os { raw with values }).run ⟨t, { isSucces := true }⟩ with
  | ok a s =>
      rw [hrun] at hreply hshort
      cases hreply
      cases hshort with
      | ok hlt =>
          rcases hall with ⟨-, lines, hlen, -, hbody, -⟩ | ⟨hfailed, -⟩
          · change s.result.body = _ at hbody
            rw [hbody, List.length_map, hlen] at hlt
            exact Nat.lt_irrefl _ hlt
          · cases hfailed
  | error e s =>
      rw [hrun] at hreply
      have he := (Executor.unreported_executeInsert os { raw with values }).error trivial hrun
      dsimp only at hreply
      rw [if_neg (by simp [he])] at hreply
      cases hreply

theorem insertReplied_of_inserted (htable : base.tabbles[id]? = some t)
    (hparse : RequestParser.parse command = .ok (.insert raw))
    (hid : base.getTabbleId raw.tabbleName = .ok id)
    (hvalues : Optimizer.optimizeInsertValues t.info raw.rawValues = .ok values)
    {a : Unit} {s : Execution} {lines : List Nat}
    (hrun : (Executor.executeInsert os { raw with values }).run ⟨t, { isSucces := true }⟩ = .ok a s)
    (hlen : lines.length = rows) (hnodup : lines.Nodup) (hbody : s.result.body = lines.map idRow)
    (hfree : ∀ i ∈ lines, t.active i = false)
    (hactive : ∀ i, s.table.active i = (t.active i || decide (i ∈ lines))) :
    InsertReplied os command base id t rows := by
  refine ⟨{ s.result with isSucces := true }, { base with tabbles := base.tabbles.set id s.table },
    s.table, ?_, rfl, .inl ⟨rfl, lines, hlen, hnodup, hbody, hfree, hactive⟩⟩
  rw [run_operator_insert htable hparse hid hvalues, hrun]

end

/-- On every state an orderly run reaches, an accepted INSERT is all or nothing exactly when
it has no rows, or no growth has failed and every growth its rows need is granted. -/
theorem insert_all_or_nothing_iff {os : Os} {schema : TabbleInfo} {t : Tabble} {command : Text}
    {base : DataBase} {id rows : Nat} {raw : InsertQuery} {values : List VariantTypes}
    (hreg : schema.Regular) (h : Reach Orderly os schema t) (htable : base.tabbles[id]? = some t)
    (hparse : RequestParser.parse command = .ok (.insert raw))
    (hid : base.getTabbleId raw.tabbleName = .ok id)
    (hvalues : Optimizer.optimizeInsertValues schema raw.rawValues = .ok values)
    (hrows : raw.rawValues.length = rows * schema.columns.length) :
    InsertReplied os command base id t rows ↔
      rows = 0 ∨ t.storage.expanding = false ∧ t.spare.Grows os rows := by
  obtain rfl := (h.kept hreg).info
  obtain ⟨hcols, htokens⟩ := Optimizer.optimizeInsertValues_ok hvalues
  rw [hrows, Nat.mul_div_cancel _ hcols] at htokens
  have hfull := Optimizer.insertRows_fullRows htokens
  rcases h.idle_or_gone hreg with hidle | hgone
  · have hs := h.served hreg hidle
    have hpost := @Executor.executeInsert_room _ _ hs.sound os hcols { raw with values }
      hfull { isSucces := true } rfl
    by_cases hgrows : t.spare.Grows os rows
    · refine iff_of_true ?_ (.inr ⟨hidle, hgrows⟩)
      cases hrun : (Executor.executeInsert os { raw with values }).run ⟨t, { isSucces := true }⟩ with
      | error e s =>
          rw [hrun] at hpost
          cases hpost with
          | error hfalse => exact hfalse.elim
      | ok a s =>
          rw [hrun] at hpost
          cases hpost with
          | ok hdone =>
              rcases hdone with ⟨⟨lines, hlen, hins, hbody⟩, -⟩ | hstopped
              · apply insertReplied_of_inserted htable hparse hid hvalues hrun hlen hins.nodup hbody
                · intro i hi
                  rw [← Tabble.rowMap_isSome, hins.free i hi]
                  rfl
                · exact hins.active
              · exact absurd hgrows hstopped.room
    · have hnot : ¬ (rows = 0 ∨ t.storage.expanding = false ∧ t.spare.Grows os rows) := by
        rintro (rfl | ⟨-, hgrows'⟩)
        · exact hgrows (hs.sound.grows_zero os)
        · exact hgrows hgrows'
      refine iff_of_false (not_insertReplied htable hparse hid hvalues ?_) hnot
      refine hpost.mono (fun _ s hdone => ?_) fun _ _ h => h.elim
      rcases hdone with ⟨-, hgrows'⟩ | hstopped
      · exact absurd hgrows' hgrows
      · obtain ⟨-, done, hlt, hbody⟩ := hstopped.short
        rwa [hbody, List.length_map]
  · by_cases hnone : rows = 0
    · refine iff_of_true ?_ (.inl hnone)
      have hnil : values = [] := by
        have hlen := hfull.length
        rw [hnone, Nat.zero_mul] at hlen
        exact List.length_eq_zero_iff.mp hlen
      subst hnil
      have hlength : ([] : List Nat).length = rows := hnone.symm
      apply insertReplied_of_inserted htable hparse hid hvalues rfl hlength List.nodup_nil rfl
        (List.forall_mem_nil _)
      intro i
      simp
    · have hnot : ¬ (rows = 0 ∨ t.storage.expanding = false ∧ t.spare.Grows os rows) := by
        rintro (hzero | ⟨hidle, -⟩)
        · exact hnone hzero
        · rw [hgone.expanding] at hidle
          cases hidle
      refine iff_of_false (not_insertReplied htable hparse hid hvalues ?_) hnot
      have hne : values ≠ [] := by
        rw [ne_eq, ← List.length_eq_zero_iff, hfull.length]
        exact (Nat.mul_pos (Nat.pos_of_ne_zero hnone) hcols).ne'
      have hpost := @Executor.executeInsert_gone _ hgone os { raw with values } hne { isSucces := true } rfl
      refine hpost.mono (fun _ s hbody => ?_) fun _ _ h => h
      rw [hbody]
      exact Nat.pos_of_ne_zero hnone

/-! A table of one number column, in a database of its own. -/

def numbersBase (t : Tabble) : DataBase := ⟨str "/r/shop", str "shop", [t], [(str "t", 0)]⟩

/-- One row into the new table. -/
theorem insert_all_or_nothing_iff_sample :
    InsertReplied .reliable (str "INSERT INTO t 7") (numbersBase Tabble.sampleOpened) 0
      Tabble.sampleOpened 1 := by
  have hvalues : Optimizer.optimizeInsertValues Tabble.sampleInfo [str "7"] = .ok [.int32 7] := by
    decide +kernel
  have hparse : RequestParser.parse (str "INSERT INTO t 7") =
      .ok (.insert { tabbleName := str "t", rawValues := [str "7"] }) := by decide +kernel
  refine (insert_all_or_nothing_iff ⟨Tabble.sampleInfo_layout, by decide, by decide⟩ (.start Tabble.sampleOpened_opens) rfl
    hparse (by decide +kernel) hvalues (by decide +kernel)).mpr (.inr ⟨by decide +kernel, ?_⟩)
  have hspare : Tabble.sampleOpened.spare = ⟨0, 0, 100, 1, 500⟩ := by decide +kernel
  intro m hm
  have hpow : 0 < 2 ^ m := Nat.two_pow_pos m
  rw [hspare] at hm
  dsimp only at hm
  omega

/-- A system that gives a new file its first 100 lines and no more. -/
def Os.once : Os where
  ftruncate n size := n = 0 ∧ size < 2 ^ 63
  mmap n len := if n = 0 ∧ len < 2 ^ 55 then some 4096 else none
  ftruncate_offT _ _ h := (of_decide_eq_true h).2
  mmap_address _ len addr h := by
    split at h
    · cases h
      omega
    · cases h

def onceOpened : Tabble := finalState (Tabble.openFile .once Tabble.sampleInfo .empty 0)

/-- An INSERT of 101 rows. -/
def longInsert : Text := str "INSERT INTO t" ++ (List.replicate 101 (str " 7")).flatten

/-- The last of 101 rows finds no line. The other 100 stay, and the reply is a success. -/
theorem long_insert_reported : ¬ ∀ (os : Os) (schema : TabbleInfo) (t : Tabble) (command : Text)
    (base : DataBase) (id rows : Nat) (raw : InsertQuery) (values : List VariantTypes),
    schema.Regular → Reach (fun _ _ => True) os schema t → base.tabbles[id]? = some t →
    RequestParser.parse command = .ok (.insert raw) → base.getTabbleId raw.tabbleName = .ok id →
    Optimizer.optimizeInsertValues schema raw.rawValues = .ok values →
    raw.rawValues.length = rows * schema.columns.length → InsertReplied os command base id t rows := by
  intro h
  have hreg : Tabble.sampleInfo.Regular := ⟨Tabble.sampleInfo_layout, by decide, by decide⟩
  have hempty : Tabble.openFile .once Tabble.sampleInfo .empty 0 = .ok () onceOpened :=
    eq_ok_of_isOk (by decide +kernel)
  have hserved : Served Tabble.sampleInfo onceOpened := openFile_served hreg (.inl rfl) hempty
  have hraws : (List.replicate 101 (str "7")).length = 101 * Tabble.sampleInfo.columns.length := by
    rw [List.length_replicate]
    rfl
  have hparse : RequestParser.parse longInsert =
      .ok (.insert { tabbleName := str "t", rawValues := List.replicate 101 (str "7") }) := by
    decide +kernel
  have hvalues : Optimizer.optimizeInsertValues Tabble.sampleInfo (List.replicate 101 (str "7")) =
      .ok (List.replicate 101 (.int32 7)) := by decide +kernel
  have hvalues' := hvalues
  rw [← hserved.info] at hvalues'
  have htokens := (Optimizer.optimizeInsertValues_ok hvalues).2
  rw [hraws, Nat.mul_div_cancel _ (by decide), ← hserved.info] at htokens
  have hcols : 0 < onceOpened.info.columns.length := by
    rw [hserved.info]
    decide
  have hreplied := h .once _ onceOpened longInsert (numbersBase onceOpened) 0 101 _ _ hreg (.start hempty)
    rfl hparse rfl hvalues hraws
  refine not_insertReplied rfl hparse rfl hvalues' ?_ hreplied
  refine (Executor.executeInsert_room hserved.sound .once hcols
    (Optimizer.insertRows_fullRows htokens) _ rfl).mono (fun _ s hdone => ?_) fun _ _ h => h.elim
  rcases hdone with ⟨-, hgrows⟩ | hstopped
  · have hspare : onceOpened.spare = ⟨0, 0, 100, 1, 500⟩ := by decide +kernel
    rw [hspare] at hgrows
    have hone := hgrows 0 (by decide)
    exact absurd hone (by decide +kernel)
  · obtain ⟨-, done, hlt, hbody⟩ := hstopped.short
    rwa [hbody, List.length_map]

end SQLid
