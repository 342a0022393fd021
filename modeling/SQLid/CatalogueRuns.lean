import SQLid.CatalogueStarts

/-!
# Runs of the server on a catalogue

Every message is a step of the catalogue, and what is mapped reaches the disk behind it.
Messages of any clients in any order, and starts on what the disk holds, are a run of the
catalogue.
-/
namespace SQLid
open Bytes (Text)
open CppText (str IsWord)
open FileTree (Node Grown look)
open Programs
open CommandsExecutor (onRegistry attached)

/-! The words of a command. -/

/-- The names a command carries, and the words behind it. -/
def CommandsVariant.Each (P : Text → Prop) : CommandsVariant → Prop
  | .attach databaseName | .createDatabase databaseName | .dropDatabase databaseName => P databaseName
  | .createTableForDatabase stream => ∀ w ∈ stream, P w
  | .backupDatabase base backup => P base ∧ P backup
  | .restoreDatabase backup base => P backup ∧ P base
  | .showStructure | .help => True

section words
variable {P : Text → Prop} {buf : Text} {ws : List Text}

theorem next_first (hbuf : P buf) (h : ∀ w ∈ ws, P w) : P (RequestParser.next buf ws).1 := by
  cases ws with
  | nil => exact hbuf
  | cons w ws => exact h w List.mem_cons_self

theorem next_rest (h : ∀ w ∈ ws, P w) : ∀ w ∈ (RequestParser.next buf ws).2, P w := by
  cases ws with
  | nil => exact h
  | cons w ws => exact fun other hin => h other (List.mem_cons_of_mem w hin)

theorem parse_each (hnil : P []) (h : ∀ w ∈ ws, P w) {com : CommandsVariant} (hparse : CommandsParser.parse ws = .ok com) :
    com.Each P := by
  have hfirst : P (RequestParser.next [] ws).1 := next_first hnil h
  have hrest : ∀ w ∈ (RequestParser.next [] ws).2, P w := next_rest h
  simp only [CommandsParser.parse, CommandsParser.unknown] at hparse
  split_ifs at hparse <;> cases hparse
  · exact next_rest (next_rest hrest)
  · exact next_first (next_first hfirst hrest) (next_rest hrest)
  · exact next_first (next_first hfirst hrest) (next_rest hrest)
  · exact ⟨next_first hnil hrest, next_first hnil (next_rest (next_rest hrest))⟩
  · exact ⟨next_first hnil hrest, next_first hnil (next_rest (next_rest hrest))⟩
  · trivial
  · exact next_first (next_first hfirst hrest) (next_rest hrest)
  · trivial

theorem parse_stream (h : ∀ w ∈ ws, P w) {stream : List Text}
    (hparse : CommandsParser.parse ws = .ok (.createTableForDatabase stream)) : ∀ w ∈ stream, P w := by
  simp only [CommandsParser.parse, CommandsParser.unknown] at hparse
  split_ifs at hparse <;> cases hparse
  exact next_rest (next_rest (next_rest h))

end words

/-! Queries. -/

/-- Work on one table shows in that table only. -/
theorem OpenBase.worked {os : Os} {base base' : DataBase} {tables : Tables} (h : OpenBase base tables)
    (hw : Operator.Worked os base base') :
    (∃ name info rows rows', tables name = some (info, rows) ∧
      OpenBase base' (Function.update tables name (some (info, rows')))) ∧
        base'.absoluteWay = base.absoluteWay ∧ base'.dataBaseName = base.dataBaseName := by
  obtain ⟨key, id, t, t', hid, ht, rfl, hkept⟩ := hw
  obtain ⟨name, rfl, hsome⟩ := h.named key id hid
  obtain ⟨⟨info, rows⟩, htable⟩ := Option.isSome_iff_exists.mp hsome
  obtain ⟨id', u, hid', hu, hopen⟩ := h.table name info rows htable
  obtain rfl : id = id' := by
    rw [hid, Option.some.injEq] at hid'
    exact hid'
  obtain rfl : t = u := by
    rw [ht, Option.some.injEq] at hu
    exact hu
  obtain ⟨hinfo, hwhole⟩ := hkept (MemoryMap.Whole info.lineLength) info (MemoryMap.whole_stable os info.lineLength)
    ⟨hopen.info, hopen.whole⟩
  refine ⟨⟨name, info, rows, rowsOf info t'.storage.core.file, htable, fun key id' hid' => ?_,
    fun other info' rows' hother => ?_, h.apart⟩, rfl, rfl⟩
  · obtain ⟨other, hother, hthere⟩ := h.named key id' hid'
    refine ⟨other, hother, ?_⟩
    by_cases heq : other = name
    · rw [heq, Function.update_self]
      rfl
    · rw [Function.update_of_ne heq]
      exact hthere
  · by_cases heq : other = name
    · subst heq
      rw [Function.update_self, Option.some.injEq, Prod.mk.injEq] at hother
      obtain ⟨rfl, rfl⟩ := hother
      exact ⟨id, t', hid, List.getElem?_set_self (h.inside hid), hinfo, hopen.layout, hopen.fits, hwhole, rfl⟩
    · rw [Function.update_of_ne heq] at hother
      obtain ⟨id', u, hid', hu, hopen'⟩ := h.table other info' rows' hother
      refine ⟨id', u, hid', ?_, hopen'⟩
      have hne : id ≠ id' := by
        rintro rfl
        exact heq (FileName.text_injective (h.apart _ _ id hid' hid))
      exact (List.getElem?_set_ne hne).trans hu

section query
variable {cwd R : Loc} {area : FileName} {s : System Disk} {st : Catalogue}

theorem Holds.synced (h : Holds cwd R area s st) : Holds cwd R area (s.synced cwd) st :=
  synced_holds h.memory h.disk (fun _ => rfl) h.root

/-- The database of a slot. -/
theorem InMemory.at_slot {live : FileName → Option Tables} (h : InMemory cwd R s live) {id : Nat} {base : DataBase}
    (hbase : s.bases[id]? = some (some base)) :
    ∃ name tables, s.nameBase.lookup name.text = some id ∧ live name = some tables ∧ OpenBase base tables ∧
      Straight cwd base.absoluteWay (R ++ [name]) ∧ base.dataBaseName = name.text := by
  have hid := h.slots id base hbase
  obtain ⟨name, tables, base', htext, htables, hbase', hopen, hway, hdbName⟩ := h.found hid
  rw [hbase, Option.some.injEq, Option.some.injEq] at hbase'
  subst hbase'
  exact ⟨name, tables, htext ▸ hid, htables, hopen, hway, hdbName⟩

/-- A query of a client changes the rows of a table of its database, or nothing. -/
theorem executeFor_holds (os : Os) (h : Holds cwd R area s st) (client : ClientInfo) (command : Text) :
    ∃ act st', Catalogue.Step act st st' ∧
      Holds cwd R area ((finalState ((Operator.executeFor os client command).run s)).synced cwd) st' ∧
        ∀ name, act.target = some name → s.nameBase.lookup name.text = some client.baseId := by
  have hpass {s' : System Disk} (hs : s' = s) : ∃ act st', Catalogue.Step act st st' ∧
      Holds cwd R area (s'.synced cwd) st' ∧
        ∀ name, Archive.Act.target act = some name → s.nameBase.lookup name.text = some client.baseId :=
    ⟨.pass, st, .pass st, hs ▸ h.synced, fun name hname => by cases hname⟩
  unfold Operator.executeFor
  rw [run_bind_ok (EStateM.run_get s)]
  cases hget : s.getDataBaseById client.baseId with
  | error e =>
      rw [run_bind_error (run_ofExcept_error e s)]
      exact hpass rfl
  | ok base =>
      have hbase : s.bases[client.baseId]? = some (some base) := by
        unfold System.getDataBaseById at hget
        split at hget
        · cases hget
        · cases hget
        · cases hget
          assumption
      rw [run_bind_ok (run_ofExcept_ok base s), run_zoom]
      have hfinal : ∀ base', base' = finalState ((Operator.execute os command).run base) →
          ∃ act st', Catalogue.Step act st st' ∧
            Holds cwd R area (({ s with bases := s.bases.set client.baseId (some base') } : System Disk).synced cwd) st' ∧
              ∀ name, Archive.Act.target act = some name → s.nameBase.lookup name.text = some client.baseId := by
        rintro base' rfl
        rcases Operator.execute_worked os command base with hsame | hworked
        · refine hpass ?_
          rw [hsame]
          have hset : s.bases.set client.baseId (some base) = s.bases := by
            obtain ⟨hlt, hget⟩ := List.getElem?_eq_some_iff.mp hbase
            rw [← hget]
            exact List.set_getElem_self hlt
          rw [hset]
        · obtain ⟨name, tables, hid, htables, hopen, hway, hdbName⟩ := h.memory.at_slot hbase
          obtain ⟨⟨table, info, rows, rows', htable, hopen'⟩, hsameWay, hsameName⟩ := hopen.worked hworked
          have hmemory := h.memory.setSlot hid (hsameName.trans hdbName) hopen' (hsameWay ▸ hway)
          refine ⟨.change name, st.setLive name (some (Function.update tables table (some (info, rows')))),
            .change htables (.inl ⟨table, info, rows, rows', htable, rfl⟩),
            synced_holds hmemory h.disk (fun other => ?_) h.root, fun other hother => ?_⟩
          · -- the rows of a table are no part of the shape
            by_cases heq : other = name
            · subst heq
              rw [htables, Function.update_self, Option.map_some, Option.map_some, Option.some.injEq]
              funext m
              unfold Tables.schemas
              by_cases hm : m = table
              · subst hm
                rw [htable, Function.update_self]
                rfl
              · rw [Function.update_of_ne hm]
            · rw [Function.update_of_ne heq]
          · cases hother
            exact hid
      cases hrun : (Operator.execute os command).run base with
      | ok r base' =>
          refine hfinal base' ?_
          rw [hrun]
          rfl
      | error e base' =>
          refine hfinal base' ?_
          rw [hrun]
          rfl

end query

/-! Commands. -/

/-- The database a command is about. -/
def CommandsVariant.database : CommandsVariant → Option Text
  | .createDatabase databaseName | .dropDatabase databaseName => some databaseName
  | .createTableForDatabase stream => some (RequestParser.next [] stream).1
  | .restoreDatabase _ base => some base
  | .attach _ | .backupDatabase _ _ | .showStructure | .help => none

/-- RESTORE takes its names as they are, and lines are added up without a check. -/
def CommandsVariant.Plain : CommandsVariant → Prop
  | .restoreDatabase backup base => IsFileName backup ∧ IsFileName base ∧ base ≠ System.backUpName
  | .createTableForDatabase stream => ∀ columns,
      DataBase.parseColumns (RequestParser.next [] (RequestParser.next [] stream).2).2 = .ok columns → Spacious columns
  | _ => True

/-- The command is plain, and no table it opens is refused a growth. -/
def Allowed (cwd : Loc) (os : Os) (s : System Disk) (com : CommandsVariant) : Prop :=
  com.Plain ∧ ∀ e s', (onRegistry (Disk.files cwd) os com).run s = .error e s' → ¬ e.IsGrowth

section command
variable {cwd R : Loc} {s : System Disk} {st : Catalogue}

theorem onRegistry_holds (os : Os) (h : Holds cwd R System.areaName s st) {buf : Text} (hzero : 0 ∉ buf)
    {com : CommandsVariant} (hparse : CommandsParser.parse (CppText.words buf) = .ok com)
    (hallowed : Allowed cwd os s com) : ∃ act st', Catalogue.Step act st st' ∧
      Holds cwd R System.areaName (finalState ((onRegistry (Disk.files cwd) os com).run s)) st' ∧
        ∀ name, act.target = some name → com.database = some name.text := by
  have hpass {s' : System Disk} (hs : s' = s) : ∃ act st', Catalogue.Step act st st' ∧
      Holds cwd R System.areaName s' st' ∧ ∀ name, Archive.Act.target act = some name → com.database = some name.text :=
    ⟨.pass, st, .pass st, hs ▸ h, fun name hname => by cases hname⟩
  have hwords : ∀ w ∈ CppText.words buf, 0 ∉ w := fun w hw hin => hzero (CppText.mem_of_mem_word hw hin)
  have hplain := parse_each (P := fun w => 0 ∉ w) List.not_mem_nil hwords hparse
  cases com with
  | attach databaseName => exact hpass rfl
  | showStructure => exact hpass rfl
  | help => exact hpass rfl
  | createDatabase databaseName =>
      change ∃ act st', _ ∧ Holds _ _ _ (finalState ((System.createDataBase (Disk.files cwd) os databaseName).run s)) st' ∧ _
      rcases System.createDataBase_holds os h hplain with ⟨e, hrun⟩ | ⟨name, s', rfl, hrun, hstep, hholds⟩
      · rw [hrun]
        exact hpass rfl
      · rw [hrun]
        exact ⟨_, _, hstep, hholds, fun other hother => by cases hother; rfl⟩
  | createTableForDatabase stream =>
      have hstream := parse_stream (P := IsWord) (fun w hw => CppText.isWord_of_mem hw) hparse
      change ∃ act st', _ ∧ Holds _ _ _ (finalState ((System.createTable (Disk.files cwd) os stream).run s)) st' ∧ _
      rcases System.createTable_holds os h hstream hplain hallowed.1 with
        ⟨e, hrun⟩ | ⟨e, s', hrun, hgrowth⟩ | ⟨name, s', st', htext, hrun, hstep, hholds⟩
      · rw [hrun]
        exact hpass rfl
      · exact absurd hgrowth (hallowed.2 e s' hrun)
      · rw [hrun]
        refine ⟨_, _, hstep, hholds, fun other hother => ?_⟩
        cases hother
        exact congrArg some htext
  | backupDatabase base backup =>
      change ∃ act st', _ ∧ Holds _ _ _ (finalState ((System.backUpDatabase (Disk.files cwd) base backup).run s)) st' ∧ _
      rcases System.backUpDatabase_holds h rfl hplain.2 with ⟨e, hrun⟩ | ⟨name, b, tables, s', -, -, hrun, -, hstep, hholds⟩
      · rw [hrun]
        exact hpass rfl
      · rw [hrun]
        exact ⟨_, _, hstep, hholds, fun other hother => by cases hother⟩
  | restoreDatabase backup base =>
      obtain ⟨⟨hbackup, hbase, harea⟩, hgrows⟩ := hallowed
      obtain ⟨b, rfl⟩ : ∃ b : FileName, backup = b.text := ⟨⟨backup, hbackup⟩, rfl⟩
      obtain ⟨name, rfl⟩ : ∃ name : FileName, base = name.text := ⟨⟨base, hbase⟩, rfl⟩
      have hname : name ≠ System.areaName := fun heq => harea (congrArg FileName.text heq)
      change ∃ act st', _ ∧
        Holds _ _ _ (finalState ((System.restoreDatabase (Disk.files cwd) os b.text name.text).run s)) st' ∧ _
      rcases System.restoreDatabase_holds os h rfl b hname with
        ⟨e, hrun⟩ | ⟨e, s', hrun, hgrowth⟩ | ⟨tables, s', hrun, -, hstep, hholds⟩
      · rw [hrun]
        exact hpass rfl
      · exact absurd hgrowth (hgrows e s' hrun)
      · rw [hrun]
        exact ⟨_, _, hstep, hholds, fun other hother => by cases hother; rfl⟩
  | dropDatabase base =>
      have hfinal : finalState ((onRegistry (Disk.files cwd) os (.dropDatabase base)).run s) =
          finalState ((System.deleteDatabase (Disk.files cwd) base).run s) := by
        unfold onRegistry
        rw [run_map]
        cases (System.deleteDatabase (Disk.files cwd) base).run s <;> rfl
      rw [hfinal]
      rcases System.deleteDatabase_holds h base with ⟨e, hrun⟩ | ⟨name, id, s', rfl, hrun, hstep, hholds⟩
      · rw [hrun]
        exact hpass rfl
      · rw [hrun]
        exact ⟨_, _, hstep, hholds, fun other hother => by cases hother; rfl⟩

end command

/-! Messages. -/

/-- A message without a zero byte, whose command is allowed when it is one. -/
structure Regular (cwd : Loc) (os : Os) (sv : SyncServer Disk) (id : Nat) (buf : Text) : Prop where
  zero : 0 ∉ buf
  allowed : ∀ client com, sv.clients id = some client → client.joinedToDataBase = false →
    CommandsParser.parse (CppText.words buf) = .ok com → Allowed cwd os sv.sys com

/-- The message is a query of a client of the database, or a command about it. -/
def Touched (sv : SyncServer Disk) (id : Nat) (buf : Text) (name : FileName) : Prop :=
  ∃ client, sv.clients id = some client ∧
    (client.joinedToDataBase = true ∧ sv.sys.nameBase.lookup name.text = some client.baseId ∨
      client.joinedToDataBase = false ∧ ∃ com, CommandsParser.parse (CppText.words buf) = .ok com ∧
        com.database = some name.text)

section message
variable {cwd R : Loc} {sv : SyncServer Disk} {st : Catalogue}

theorem message_holds (os : Os) (h : Holds cwd R System.areaName sv.sys st) {id : Nat} {buf : Text}
    (hregular : Regular cwd os sv id buf) : ∃ act st', Catalogue.Step act st st' ∧
      Holds cwd R System.areaName
        ((finalState ((SyncServer.answerMessage (Disk.files cwd) os id buf).run sv)).sys.synced cwd) st' ∧
        ∀ name, act.target = some name → Touched sv id buf name := by
  have hpass {s' : System Disk} (hs : s' = sv.sys) : ∃ act st', Catalogue.Step act st st' ∧
      Holds cwd R System.areaName (s'.synced cwd) st' ∧
        ∀ name, Archive.Act.target act = some name → Touched sv id buf name :=
    ⟨.pass, st, .pass st, hs ▸ h.synced, fun name hname => by cases hname⟩
  have heffect := SyncServer.answerMessage_effect (Disk.files cwd) os sv id buf
  generalize finalState ((SyncServer.answerMessage (Disk.files cwd) os id buf).run sv) = sv' at heffect ⊢
  cases heffect with
  | unknown _ => exact hpass rfl
  | disconnect => exact hpass rfl
  | leave _ => exact hpass rfl
  | rejected _ => exact hpass rfl
  | query hclient hjoined =>
      obtain ⟨act, st', hstep, hholds, habout⟩ := executeFor_holds os h _ buf
      exact ⟨act, st', hstep, hholds, fun name hname => ⟨_, hclient, .inl ⟨hjoined, habout name hname⟩⟩⟩
  | command com hclient hjoined hparse =>
      obtain ⟨act, st', hstep, hholds, habout⟩ := onRegistry_holds os h hregular.zero hparse
        (hregular.allowed _ com hclient hjoined hparse)
      exact ⟨act, st', hstep, hholds.synced, fun name hname => ⟨_, hclient, .inr ⟨hjoined, com, hparse, habout name hname⟩⟩⟩

end message

/-! Runs. -/

/-- Clients come, their messages are answered in any order, and the server is started again
on what the disk holds while there are backups. What is mapped reaches the disk after
each message. -/
inductive Run (cwd : Loc) (os : Os) (ok : SyncServer Disk → Nat → Text → Prop) (sv : SyncServer Disk) :
    SyncServer Disk → Prop
  | refl : Run cwd os ok sv sv
  | step {sv' sv'' : SyncServer Disk} : Run cwd os ok sv sv' →
      SyncServer.Step (Disk.files cwd) os (fun sv id buf => Regular cwd os sv id buf ∧ ok sv id buf) sv' sv'' →
      Run cwd os ok sv { sv'' with sys := sv''.sys.synced cwd }
  | restart {sv' : SyncServer Disk} {sys : System Disk} : Run cwd os ok sv sv' →
      (∃ b : FileName, Disk.node cwd sv'.sys.disk
        (joinPath (joinPath sv'.sys.absolutePath System.backUpName) b.text) = some .dir) →
      System.Growing cwd os sv'.sys.disk sv'.sys.absolutePath →
      (System.construct (Disk.files cwd) os).run (System.blank sv'.sys.absolutePath sv'.sys.disk) = .ok () sys →
      Run cwd os ok sv (.start (sys.synced cwd))

section run
variable {cwd R : Loc} {os : Os} {ok : SyncServer Disk → Nat → Text → Prop} {sv sv' : SyncServer Disk} {st : Catalogue}

theorem Holds.copy_there {s : System Disk} (h : Holds cwd R System.areaName s st) {b : FileName}
    (hb : Disk.node cwd s.disk (joinPath (joinPath s.absolutePath System.backUpName) b.text) = some .dir) :
    (st.archive b).isSome := by
  have hnode := (h.opens.name h.disk.place).node_name b
  have harea : System.areaName.text = System.backUpName := rfl
  rw [harea, hb] at hnode
  exact h.disk.copies b hnode.symm

/-- Every run of the server is one of the catalogue. -/
theorem Run.holds {Q : Archive.Act FileName → Prop}
    (hok : ∀ sv id buf act, ok sv id buf → (∀ name, act.target = some name → Touched sv id buf name) → Q act)
    (h : Run cwd os ok sv sv') (hholds : Holds cwd R System.areaName sv.sys st) :
    ∃ acts st', Archive.Steps Tables.Changed Tables.empty acts st st' ∧ Holds cwd R System.areaName sv'.sys st' ∧
      ∀ act ∈ acts, Q act := by
  have hsnoc {acts : List (Archive.Act FileName)} {act : Archive.Act FileName} (hacts : ∀ act ∈ acts, Q act)
      (hact : Q act) : ∀ a ∈ acts ++ [act], Q a := by
    intro a ha
    rcases List.mem_append.mp ha with ha | ha
    · exact hacts a ha
    · exact List.mem_singleton.mp ha ▸ hact
  induction h with
  | refl => exact ⟨[], st, .nil st, hholds, fun act hact => absurd hact List.not_mem_nil⟩
  | step _ hstep ih =>
      obtain ⟨acts, st', hsteps, hholds', hacts⟩ := ih
      cases hstep with
      | connect => exact ⟨acts, st', hsteps, Holds.synced (s := _) hholds', hacts⟩
      | message id buf _ hregular =>
          obtain ⟨act, st'', hstep, hholds'', habout⟩ := message_holds os hholds' hregular.1
          exact ⟨_, st'', hsteps.snoc hstep, hholds'', hsnoc hacts (hok _ id buf act hregular.2 habout)⟩
  | restart _ hcopy hgrowing hrun ih =>
      obtain ⟨acts, st', hsteps, hholds', hacts⟩ := ih
      obtain ⟨b, hb⟩ := hcopy
      obtain ⟨sys', hrun', hholds''⟩ := System.construct_holds hholds'.root hholds'.disk rfl
        ⟨b, hholds'.copy_there hb⟩ hgrowing
      rw [hrun] at hrun'
      cases hrun'
      exact ⟨acts, st', hsteps, hholds''.synced, hacts⟩

end run
end SQLid
