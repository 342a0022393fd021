import SQLid.Histories

/-!
# What lasts

Every run from an empty root: it is one of the catalogue, a restored backup shows what the
database showed when it was taken, and what no message is about stays as it is, over
restarts too. A new system over the directory shows the same databases as long as there is
a backup.
-/
namespace SQLid
open Bytes (Text)
open CppText (str)
open FileTree (Node Grown look)
open Programs

/-- The database of this name is open, with these tables. -/
def System.Shows {δ : Type} (s : System δ) (name : FileName) (tables : Tables) : Prop :=
  ∃ id base, s.nameBase.lookup name.text = some id ∧ s.bases[id]? = some (some base) ∧ OpenBase base tables

/-- An open database shows one set of tables. -/
theorem OpenBase.unique {base : DataBase} {tables tables' : Tables} (h : OpenBase base tables)
    (h' : OpenBase base tables') : tables = tables' := by
  have hsub {first second : Tables} (h : OpenBase base first) (h' : OpenBase base second) {name : FileName}
      {info : TabbleInfo} {rows : RowMap} (htable : first name = some (info, rows)) :
      second name = some (info, rows) := by
    obtain ⟨id, t, hid, ht, hopen⟩ := h.table name info rows htable
    obtain ⟨other, hother, hsome⟩ := h'.named _ id hid
    obtain rfl := FileName.text_injective hother
    obtain ⟨⟨info', rows'⟩, htable'⟩ := Option.isSome_iff_exists.mp hsome
    obtain ⟨id', t', hid', ht', hopen'⟩ := h'.table name info' rows' htable'
    obtain rfl : t = t' := by
      rw [hid, Option.some.injEq] at hid'
      rw [← hid', ht, Option.some.injEq] at ht'
      exact ht'
    obtain rfl : info = info' := hopen.info.symm.trans hopen'.info
    rw [htable', hopen'.rows.symm.trans hopen.rows]
  funext name
  cases htable : tables name with
  | some entry => exact (hsub h h' htable).symm
  | none =>
      cases htable' : tables' name with
      | none => rfl
      | some entry =>
          rw [hsub h' h htable'] at htable
          cases htable

section
variable {cwd R : Loc} {os : Os} {s : System Disk} {st : Catalogue} {name : FileName} {tables : Tables}

theorem Holds.shows_iff {area : FileName} (h : Holds cwd R area s st) :
    s.Shows name tables ↔ st.live name = some tables := by
  constructor
  · rintro ⟨id, base, hid, hbase, hopen⟩
    obtain ⟨other, tables', base', htext, hlive, hbase', hopen', -, -⟩ := h.memory.found hid
    obtain rfl := FileName.text_injective htext
    rw [hbase, Option.some.injEq, Option.some.injEq] at hbase'
    subst hbase'
    rw [hlive, hopen.unique hopen']
  · intro hlive
    obtain ⟨id, base, hid, hbase, hopen, -⟩ := h.memory.base name tables hlive
    exact ⟨id, base, hid, hbase, hopen⟩

/-- What a table of a database holds in a line. -/
def System.rowAt {δ : Type} (s : System δ) (db table : Text) (i : Nat) : Option Row := do
  let slot ← s.bases[← s.nameBase.lookup db]?
  let base ← slot
  let t ← base.tabbles[← base.tabblesName.lookup table]?
  rowsOf t.info t.storage.core.file i

/-- It is what the database shows. -/
theorem System.Shows.rowAt {δ : Type} {s : System δ} (h : s.Shows name tables) (m : FileName) (i : Nat) :
    s.rowAt name.text m.text i = (tables m).bind fun table => table.2 i := by
  obtain ⟨id, base, hid, hbase, hopen⟩ := h
  simp only [System.rowAt, hid, hbase, Option.bind_eq_bind, Option.bind_some]
  cases htable : tables m with
  | some table =>
      obtain ⟨tid, t, htid, ht, hmapped⟩ := hopen.table m table.1 table.2 htable
      rw [htid, Option.bind_some, ht, Option.bind_some, Option.bind_some, hmapped.info, hmapped.rows]
  | none =>
      cases htid : base.tabblesName.lookup m.text with
      | none => rfl
      | some tid =>
          obtain ⟨other, hother, hsome⟩ := hopen.named _ tid htid
          obtain rfl := FileName.text_injective hother
          rw [htable] at hsome
          cases hsome

/-- Systems that show the same tables for a database hold the same rows in it. -/
theorem System.Shows.rowAt_eq {δ : Type} {s s' : System δ} (h : s.Shows name tables) (h' : s'.Shows name tables)
    (m : FileName) (i : Nat) : s.rowAt name.text m.text i = s'.rowAt name.text m.text i := by
  rw [h.rowAt, h'.rowAt]

/-- A registered database shows some tables. -/
theorem Holds.exists_shows {area : FileName} (h : Holds cwd R area s st)
    (hthere : (s.nameBase.lookup name.text).isSome) : ∃ tables, s.Shows name tables := by
  obtain ⟨id, hid⟩ := Option.isSome_iff_exists.mp hthere
  obtain ⟨other, tables, base, htext, hlive, -, -, -, -⟩ := h.memory.found hid
  obtain rfl := FileName.text_injective htext
  exact ⟨tables, h.shows_iff.mpr hlive⟩

/-- A server started over an empty root. -/
def FreshStart (cwd : Loc) (os : Os) (R : Loc) (sv : SyncServer Disk) : Prop :=
  ∃ path d sys, Grown d ∧ Straight cwd path R ∧ look d R = some .dir ∧ (∀ name, look d (R ++ [name]) = none) ∧
    (System.construct (Disk.files cwd) os).run (System.blank path d) = .ok () sys ∧ sv = .start (sys.synced cwd)

theorem FreshStart.holds {sv : SyncServer Disk} (h : FreshStart cwd os R sv) :
    Holds cwd R System.areaName sv.sys System.fresh := by
  obtain ⟨path, d, sys, hg, hroot, hdir, hempty, hrun, rfl⟩ := h
  obtain ⟨sys', hrun', hholds⟩ := System.construct_fresh os hg hroot hdir hempty
  rw [hrun] at hrun'
  cases hrun'
  exact hholds.synced

/-- Any messages in between. -/
abbrev Runs (cwd : Loc) (os : Os) := Run cwd os fun _ _ _ => True

theorem Runs.holds {sv sv' : SyncServer Disk} (h : Runs cwd os sv sv') (hholds : Holds cwd R System.areaName sv.sys st) :
    ∃ acts st', Archive.Steps Tables.Changed Tables.empty acts st st' ∧ Holds cwd R System.areaName sv'.sys st' := by
  obtain ⟨acts, st', hsteps, hholds', -⟩ := Run.holds (Q := fun _ => True) (fun _ _ _ _ _ _ => trivial) h hholds
  exact ⟨acts, st', hsteps, hholds'⟩

/-- Whatever the clients send and however often the server is started again, its registry
and its disk stand for a catalogue that requests have led to. -/
theorem catalogue_refined {sv₀ sv : SyncServer Disk} (hstart : FreshStart cwd os R sv₀) (hrun : Runs cwd os sv₀ sv) :
    ∃ acts st, Archive.Steps Tables.Changed Tables.empty acts System.fresh st ∧
      Holds cwd R System.areaName sv.sys st := hrun.holds hstart.holds

/-- What a backup took is what a restore gives back, whatever happened in between, and the
other databases stay as they are. -/
theorem restored_as_backed_up {sv₀ sv sv' : SyncServer Disk} {s₁ s₂ : System Disk} {db b : FileName}
    (hstart : FreshStart cwd os R sv₀) (hbefore : Runs cwd os sv₀ sv) (hshows : sv.sys.Shows db tables)
    (hsave : (System.backUpDatabase (Disk.files cwd) db.text b.text).run sv.sys = .ok () s₁)
    (hafter : Runs cwd os { sv with sys := s₁.synced cwd } sv') (hname : name ≠ System.areaName)
    (hload : (System.restoreDatabase (Disk.files cwd) os b.text name.text).run sv'.sys = .ok () s₂) :
    s₂.Shows name tables ∧
      ∀ other shown, other ≠ name → (s₂.Shows other shown ↔ sv'.sys.Shows other shown) := by
  obtain ⟨acts, st, -, hholds⟩ := hbefore.holds hstart.holds
  have hlive := hholds.shows_iff.mp hshows
  rcases System.backUpDatabase_holds hholds rfl b.valid.2.2.2.2 with
    ⟨e, hrefused⟩ | ⟨db', b', tables', s₁', hdb, hb, hrun, hlive', -, hsaved⟩
  · rw [hsave] at hrefused
    cases hrefused
  obtain rfl := FileName.text_injective hdb
  obtain rfl := FileName.text_injective hb
  rw [hlive, Option.some.injEq] at hlive'
  subst hlive'
  rw [hsave] at hrun
  cases hrun
  have hsynced : Holds cwd R System.areaName ({ sv with sys := s₁.synced cwd } : SyncServer Disk).sys
      { st with archive := Function.update st.archive b (some tables) } := hsaved.synced
  obtain ⟨acts', st', hsteps, hholds'⟩ := hafter.holds hsynced
  have hcopy : st'.archive b = some tables := hsteps.archive_kept (Function.update_self ..)
  rcases System.restoreDatabase_holds os hholds' rfl b hname with
    ⟨e, hrefused⟩ | ⟨e, s', hrefused, -⟩ | ⟨shown, s₂', hrun', harchive, -, hholds''⟩
  · rw [hload] at hrefused
    cases hrefused
  · rw [hload] at hrefused
    cases hrefused
  · rw [hload] at hrun'
    cases hrun'
    rw [hcopy, Option.some.injEq] at harchive
    subst harchive
    refine ⟨hholds''.shows_iff.mpr (Archive.Store.live_setLive_self _), fun other shown hother => ?_⟩
    rw [hholds''.shows_iff, hholds'.shows_iff, Archive.Store.live_setLive_other hother]

/-- No message is about the database. -/
abbrev RunsBeside (cwd : Loc) (os : Os) (name : FileName) := Run cwd os fun sv id buf => ¬ Touched sv id buf name

/-- A database no message is about shows the same tables, with the same rows, as long as the
server runs and when it is started again. -/
theorem untouched_kept {sv₀ sv sv' : SyncServer Disk} (hstart : FreshStart cwd os R sv₀) (hbefore : Runs cwd os sv₀ sv)
    (hbeside : RunsBeside cwd os name sv sv') : sv'.sys.Shows name tables ↔ sv.sys.Shows name tables := by
  obtain ⟨acts, st, -, hholds⟩ := hbefore.holds hstart.holds
  have hkept (sv : SyncServer Disk) (id : Nat) (buf : Text) (act : Archive.Act FileName)
      (hbuf : ¬ Touched sv id buf name) (habout : ∀ other, act.target = some other → Touched sv id buf other) :
      act.target ≠ some name := fun htarget => hbuf (habout name htarget)
  obtain ⟨acts', st', hsteps, hholds', hacts⟩ := hbeside.holds hkept hholds
  rw [hholds'.shows_iff, hholds.shows_iff, hsteps.live_kept hacts]

end

/-! Another start. -/

section
variable {δ : Type} {cwd R : Loc} {os : Os} {s s' : System Disk} {st : Catalogue} {live : FileName → Option Tables}

/-- The database of this name is registered, with a table of this one. -/
def System.HasTable (s : System δ) (db table : Text) : Prop :=
  ∃ id base, s.nameBase.lookup db = some id ∧ s.bases[id]? = some (some base) ∧ (base.tabblesName.lookup table).isSome

/-- The same databases are registered, each with the same tables. -/
structure System.SameCatalogue (s s' : System δ) : Prop where
  names : ∀ db, (s.nameBase.lookup db).isSome = (s'.nameBase.lookup db).isSome
  tables : ∀ db table, s.HasTable db table ↔ s'.HasTable db table

theorem InMemory.isSome_iff (h : InMemory cwd R s live) (db : Text) :
    (s.nameBase.lookup db).isSome ↔ ∃ name : FileName, db = name.text ∧ (live name).isSome := by
  constructor
  · intro hsome
    obtain ⟨id, hid⟩ := Option.isSome_iff_exists.mp hsome
    exact h.named db id hid
  · rintro ⟨name, rfl, hsome⟩
    obtain ⟨tables, htables⟩ := Option.isSome_iff_exists.mp hsome
    obtain ⟨id, base, hid, -⟩ := h.base name tables htables
    rw [hid]
    rfl

theorem InMemory.hasTable_iff (h : InMemory cwd R s live) (db table : Text) :
    s.HasTable db table ↔ ∃ (name m : FileName) (tables : Tables),
      db = name.text ∧ table = m.text ∧ live name = some tables ∧ (tables m).isSome := by
  constructor
  · rintro ⟨id, base, hid, hbase, htable⟩
    obtain ⟨name, tables, base', hname, htables, hbase', hopen, -, -⟩ := h.found hid
    rw [hbase, Option.some.injEq, Option.some.injEq] at hbase'
    subst hbase'
    obtain ⟨tid, htid⟩ := Option.isSome_iff_exists.mp htable
    obtain ⟨m, hm, hsome⟩ := hopen.named table tid htid
    exact ⟨name, m, tables, hname, hm, htables, hsome⟩
  · rintro ⟨name, m, tables, rfl, rfl, htables, hsome⟩
    obtain ⟨id, base, hid, hbase, hopen, -⟩ := h.base name tables htables
    obtain ⟨⟨info, rows⟩, hm⟩ := Option.isSome_iff_exists.mp hsome
    obtain ⟨tid, t, htid, -⟩ := hopen.table m info rows hm
    refine ⟨id, base, hid, hbase, ?_⟩
    rw [htid]
    rfl

theorem InMemory.same (h : InMemory cwd R s live) (h' : InMemory cwd R s' live) : s.SameCatalogue s' where
  names db := Bool.eq_iff_iff.mpr ((h.isSome_iff db).trans (h'.isSome_iff db).symm)
  tables db table := (h.hasTable_iff db table).trans (h'.hasTable_iff db table).symm

/-- A new system over the directory shows the catalogue, and one more database as long as there
is no backup. -/
theorem Holds.restarted_iff (h : Holds cwd R System.areaName s st) (hgrowing : System.Growing cwd os s.disk s.absolutePath) :
    ∃ sys, (System.construct (Disk.files cwd) os).run (System.blank s.absolutePath s.disk) = .ok () sys ∧
      (sys.SameCatalogue s ↔ ∃ b : FileName,
        Disk.node cwd s.disk (joinPath (joinPath s.absolutePath System.backUpName) b.text) = some .dir) := by
  by_cases hsaved : ∃ b, (st.archive b).isSome
  · obtain ⟨sys, hrun, hnew⟩ := System.construct_holds h.root h.disk rfl hsaved hgrowing
    refine ⟨sys, hrun, fun _ => ?_, fun _ => hnew.memory.same h.memory⟩
    obtain ⟨b, hb⟩ := hsaved
    obtain ⟨tables, htables⟩ := Option.isSome_iff_exists.mp hb
    have hnode := (h.opens.name h.disk.place).node_name b
    exact ⟨b, hnode.trans (h.disk.copy b tables htables).1⟩
  · have hunsaved (b : FileName) : st.archive b = none := by
      cases hb : st.archive b with
      | none => rfl
      | some tables => exact absurd ⟨b, by rw [hb]; rfl⟩ hsaved
    obtain ⟨sys, hrun, hmem⟩ := System.construct_unsaved h.root h.disk rfl hunsaved hgrowing
    refine ⟨sys, hrun, fun hsame => ?_, fun ⟨b, hb⟩ => absurd ⟨b, h.copy_there hb⟩ hsaved⟩
    have hnew : (sys.nameBase.lookup System.areaName.text).isSome := by
      refine (hmem.isSome_iff _).mpr ⟨System.areaName, rfl, ?_⟩
      rw [Function.update_self]
      rfl
    rw [hsame.names] at hnew
    obtain ⟨name, htext, hlive⟩ := (h.memory.isSome_iff _).mp hnew
    obtain rfl := FileName.text_injective htext
    rw [h.disk.free] at hlive
    cases hlive

/-- After any run, a system started on the directory registers the same databases with the same
tables if and only if a backup is there. -/
theorem catalogue_restarted_iff {sv₀ sv : SyncServer Disk} (hstart : FreshStart cwd os R sv₀) (hrun : Runs cwd os sv₀ sv)
    (hgrowing : System.Growing cwd os sv.sys.disk sv.sys.absolutePath) :
    ∃ sys, (System.construct (Disk.files cwd) os).run (System.blank sv.sys.absolutePath sv.sys.disk) = .ok () sys ∧
      (sys.SameCatalogue sv.sys ↔ ∃ b : FileName,
        Disk.node cwd sv.sys.disk (joinPath (joinPath sv.sys.absolutePath System.backUpName) b.text) = some .dir) := by
  obtain ⟨acts, st, -, hholds⟩ := hrun.holds hstart.holds
  exact hholds.restarted_iff hgrowing

end

/-! A server over an empty root. -/

def rootName : FileName := ⟨str "r", isFileName_r⟩

def emptyRoot : Disk := [([rootName], .dir)]

theorem straight_root : Straight [] (str "/r") [rootName] := by
  refine ⟨by decide, by decide, by decide, fun l hl => ?_⟩
  have hvisited : FileTree.visited (Path.start [] (str "/r")) (Path.moves (str "/r")) = [[], [], [rootName]] := by decide
  rw [hvisited] at hl
  simp only [List.mem_cons, List.not_mem_nil, or_false] at hl
  rcases hl with rfl | rfl | rfl
  · exact List.nil_prefix
  · exact List.nil_prefix
  · exact List.prefix_refl _

theorem grown_emptyRoot : Grown emptyRoot :=
  FileTree.grown_nil.snoc (by decide) rfl .dir

theorem emptyRoot_empty (name : FileName) : look emptyRoot ([rootName] ++ [name]) = none := by
  unfold look emptyRoot
  simp

/-- The system over the empty root, with all that is mapped. -/
def startedSystem : System Disk :=
  (finalState ((System.construct (Disk.files []) .reliable).run (System.blank (str "/r") emptyRoot))).synced []

theorem startedSystem_fresh : FreshStart [] .reliable [rootName] (.start startedSystem) := by
  obtain ⟨sys, hrun, -⟩ := System.construct_fresh .reliable grown_emptyRoot straight_root rfl emptyRoot_empty
  refine ⟨str "/r", emptyRoot, sys, grown_emptyRoot, straight_root, rfl, emptyRoot_empty, hrun, ?_⟩
  unfold startedSystem
  rw [hrun]
  rfl

/-- The first client makes a table with two rows and leaves the database. -/
def shopHistory : List HistoryInput :=
  [.connect, .message 0 (str "CREATE DATABASE shop"), .message 0 (str "CREATE TABLE FOR shop t n INT32"),
    .message 0 (str "ATTACH TO shop"), .message 0 (str "INSERT INTO t 7 8"), .message 0 (str "LEAVE")]

/-- The second row is deleted. -/
def deleteHistory : List HistoryInput :=
  [.message 0 (str "ATTACH TO shop"), .message 0 (str "DELETE FROM t WHERE n > 7"), .message 0 (str "LEAVE")]

def startedServer : SyncServer Disk := .start startedSystem

def replay (sv : SyncServer Disk) (inputs : List HistoryInput) : SyncServer Disk :=
  sv.replayHistory [] .reliable inputs

def shopServer : SyncServer Disk := replay startedServer shopHistory

/-- Any history may be one of a run. -/
theorem replay_runs {sv : SyncServer Disk} {inputs : List HistoryInput} {st : Catalogue}
    (hholds : Holds [] [rootName] System.areaName sv.sys st)
    (h : sv.passes [] [rootName] .reliable (fun _ _ _ => true) inputs = true) :
    Runs [] .reliable sv (replay sv inputs) :=
  Run.replayed (fun _ _ _ _ => trivial) hholds .refl h

theorem shopServer_rows :
    startedServer.passes [] [rootName] .reliable (fun _ _ _ => true) shopHistory = true ∧
      (shopServer.sys.nameBase.lookup (str "shop")).isSome = true ∧
        shopServer.sys.rowAt (str "shop") (str "t") 0 = some [.int32 7] ∧
          shopServer.sys.rowAt (str "shop") (str "t") 1 = some [.int32 8] := by
  decide +kernel

theorem shopServer_runs : Runs [] .reliable startedServer shopServer :=
  replay_runs startedSystem_fresh.holds shopServer_rows.1

theorem shopServer_holds : ∃ st, Holds [] [rootName] System.areaName shopServer.sys st := by
  obtain ⟨acts, st, -, hholds⟩ := shopServer_runs.holds startedSystem_fresh.holds
  exact ⟨st, hholds⟩

theorem shopServer_shows : ∃ tables, shopServer.sys.Shows System.shopName tables := by
  obtain ⟨st, hholds⟩ := shopServer_holds
  exact hholds.exists_shows shopServer_rows.2.1

/-- Two clients, a backup, a restore, a command that fails and a second start. -/
def longHistory : List HistoryInput :=
  shopHistory ++ [.message 0 (str "BACKUP shop AS old")] ++ deleteHistory ++
    [.connect, .message 1 (str "CREATE DATABASE shop"), .message 1 (str "RESTORE old AS shop"),
      .message 0 (str "DISCONNECT"), .restart System.oldName, .connect, .message 0 (str "ATTACH TO shop"),
      .message 0 (str "UPDATE t SET n = 9 WHERE n == 7")]

def longServer : SyncServer Disk := replay startedServer longHistory

theorem longServer_rows :
    startedServer.passes [] [rootName] .reliable (fun _ _ _ => true) longHistory = true ∧
      (longServer.sys.nameBase.lookup (str "shop")).isSome = true ∧
        longServer.sys.rowAt (str "shop") (str "t") 0 = some [.int32 9] ∧
          longServer.sys.rowAt (str "shop") (str "t") 1 = some [.int32 8] := by
  decide +kernel

/-- The catalogue behind the history has the row that was restored and the one that was changed. -/
theorem catalogue_refined_sample : ∃ (acts : List (Archive.Act FileName)) (st : Catalogue) (tables : Tables),
    Archive.Steps Tables.Changed Tables.empty acts System.fresh st ∧
      Holds [] [rootName] System.areaName longServer.sys st ∧ st.live System.shopName = some tables ∧
        ((tables System.tableName).bind fun table => table.2 0) = some [.int32 9] ∧
          ((tables System.tableName).bind fun table => table.2 1) = some [.int32 8] := by
  obtain ⟨hpasses, hthere, hfirst, hsecond⟩ := longServer_rows
  have hrun : Runs [] .reliable startedServer longServer := replay_runs startedSystem_fresh.holds hpasses
  obtain ⟨acts, st, hsteps, hholds⟩ := catalogue_refined startedSystem_fresh hrun
  obtain ⟨tables, hshows⟩ : ∃ tables, longServer.sys.Shows System.shopName tables :=
    hholds.exists_shows hthere
  refine ⟨acts, st, tables, hsteps, hholds, hholds.shows_iff.mp hshows, ?_, ?_⟩
  · rw [← hshows.rowAt]
    exact hfirst
  · rw [← hshows.rowAt]
    exact hsecond

/-- The backup is taken while both rows are there. -/
def savedSystem : System Disk :=
  finalState ((System.backUpDatabase (Disk.files []) (str "shop") (str "old")).run shopServer.sys)

def savedServer : SyncServer Disk := { shopServer with sys := savedSystem.synced [] }

def deletedServer : SyncServer Disk := replay savedServer deleteHistory

def restoredSystem : System Disk :=
  finalState ((System.restoreDatabase (Disk.files []) .reliable (str "old") (str "shop")).run deletedServer.sys)

theorem deleted_and_restored :
    isOk ((System.backUpDatabase (Disk.files []) (str "shop") (str "old")).run shopServer.sys) = true ∧
      savedServer.passes [] [rootName] .reliable (fun _ _ _ => true) deleteHistory = true ∧
      deletedServer.sys.rowAt (str "shop") (str "t") 1 = none ∧
      isOk ((System.restoreDatabase (Disk.files []) .reliable (str "old") (str "shop")).run
        deletedServer.sys) = true := by
  decide +kernel

/-- A server that has just written a backup stands for a catalogue too. -/
theorem savedServer_holds : ∃ st, Holds [] [rootName] System.areaName savedServer.sys st := by
  obtain ⟨st, hholds⟩ := shopServer_holds
  obtain ⟨hsave, -⟩ := deleted_and_restored
  have hzero : 0 ∉ str "old" := by decide
  rcases @System.backUpDatabase_holds [] [rootName] System.areaName shopServer.sys st hholds rfl
      (str "shop") (str "old") hzero with
    ⟨e, hrefused⟩ | ⟨db, b, tables, s, -, -, hrun, -, -, hsaved⟩
  · rw [hrefused] at hsave
    cases hsave
  · have hsame : savedSystem = s := congrArg finalState hrun
    exact ⟨_, hsame ▸ hsaved.synced⟩

/-- The second row is deleted after the backup, and back after the restore. -/
theorem restored_as_backed_up_sample : deletedServer.sys.rowAt (str "shop") (str "t") 1 = none ∧
    restoredSystem.rowAt (str "shop") (str "t") 1 = some [.int32 8] := by
  obtain ⟨hsave, hpasses, hdeleted, hload⟩ := deleted_and_restored
  obtain ⟨tables, hshows⟩ := shopServer_shows
  obtain ⟨st', hholds'⟩ := savedServer_holds
  have hname : System.shopName ≠ System.areaName := fun h => absurd (congrArg FileName.text h) (by decide)
  have hrestored := (restored_as_backed_up (b := System.oldName) startedSystem_fresh shopServer_runs hshows
    (eq_ok_of_isOk hsave) (replay_runs hholds' hpasses) hname (eq_ok_of_isOk hload)).1
  refine ⟨hdeleted, ?_⟩
  exact (hrestored.rowAt_eq hshows System.tableName 1).trans shopServer_rows.2.2.2

/-- A second client works on a database of its own, backs up the first one, and comes again
after a restart. -/
def besideHistory : List HistoryInput :=
  [.connect, .message 1 (str "CREATE DATABASE other"), .message 1 (str "CREATE TABLE FOR other u m INT64"),
    .message 1 (str "ATTACH TO other"), .message 1 (str "INSERT INTO u 5 6"), .message 1 (str "LEAVE"),
    .message 1 (str "BACKUP shop AS old"), .restart System.oldName, .connect,
    .message 0 (str "ATTACH TO other"), .message 0 (str "DELETE FROM u WHERE m > 5")]

def besideServer : SyncServer Disk := replay shopServer besideHistory

theorem besideServer_passes :
    shopServer.passes [] [rootName] .reliable (SyncServer.spares System.shopName) besideHistory = true ∧
      besideServer.sys.rowAt (str "other") (str "u") 1 = none := by
  decide +kernel

/-- The row of the first database is there at the end, that of the other is deleted. -/
theorem untouched_kept_sample : besideServer.sys.rowAt (str "shop") (str "t") 0 = some [.int32 7] ∧
    besideServer.sys.rowAt (str "other") (str "u") 1 = none := by
  obtain ⟨hpasses, hother⟩ := besideServer_passes
  obtain ⟨st, hholds⟩ := shopServer_holds
  obtain ⟨tables, hshows⟩ := shopServer_shows
  have hbeside : RunsBeside [] .reliable System.shopName shopServer besideServer :=
    Run.replayed (fun _ _ _ => SyncServer.spares_sound) hholds .refl hpasses
  have hkept := (untouched_kept startedSystem_fresh shopServer_runs hbeside).mpr hshows
  refine ⟨?_, hother⟩
  exact (hkept.rowAt_eq hshows System.tableName 0).trans shopServer_rows.2.2.1

theorem fresh_bare {R : Loc} {d : Disk} (h : OnDisk R System.areaName d System.fresh) (name m : FileName) :
    look d (R ++ [name] ++ [m]) ≠ some .dir := by
  intro hdir
  by_cases hname : name = System.areaName
  · subst hname
    exact absurd (h.copies m hdir) Bool.false_ne_true
  · have hparent : look d (R ++ [name]) = some .dir := h.grown.ancestor (List.cons_ne_nil m []) hdir
    obtain ⟨tables, htables⟩ := Option.isSome_iff_exists.mp (h.only name hname hparent)
    have hsome := ((h.base name tables htables).2.dirs m).mp hdir
    have hlive : Function.update (fun _ => none) System.defaultName (some Tables.empty) name = some tables := htables
    by_cases hdefault : name = System.defaultName
    · rw [hdefault, Function.update_self, Option.some.injEq] at hlive
      subst hlive
      cases hsome
    · rw [Function.update_of_ne hdefault] at hlive
      cases hlive

theorem FreshStart.growing {cwd R : Loc} {os : Os} {sv : SyncServer Disk} (h : FreshStart cwd os R sv) :
    System.Growing cwd os sv.sys.disk sv.sys.absolutePath :=
  System.growing_bare os h.holds.disk.grown h.holds.opens (fresh_bare h.holds.disk)

def backedHistory : List HistoryInput := shopHistory ++ [.message 0 (str "BACKUP shop AS old")]

def backedServer : SyncServer Disk := replay startedServer backedHistory

/-- The system another start makes of what the disk holds then. -/
def againSystem : System Disk :=
  finalState ((System.construct (Disk.files []) .reliable).run
    (System.blank backedServer.sys.absolutePath backedServer.sys.disk))

theorem backedServer_passes :
    startedServer.passes [] [rootName] .reliable (fun _ _ _ => true) backedHistory = true ∧
      backedServer.restartable [] [rootName] .reliable System.oldName = true ∧
      Disk.node [] backedServer.sys.disk
        (joinPath (joinPath backedServer.sys.absolutePath System.backUpName) (str "old")) = some .dir ∧
      againSystem.rowAt (str "shop") (str "t") 1 = some [.int32 8] := by
  decide +kernel

/-- The database with its table is there again, and no other one. -/
theorem catalogue_restarted_iff_sample : againSystem.SameCatalogue backedServer.sys ∧
    againSystem.rowAt (str "shop") (str "t") 1 = some [.int32 8] := by
  obtain ⟨hpasses, hrestartable, hcopy, hrow⟩ := backedServer_passes
  have hbacked : Runs [] .reliable startedServer backedServer :=
    replay_runs startedSystem_fresh.holds hpasses
  obtain ⟨acts, st, -, hholds⟩ := hbacked.holds startedSystem_fresh.holds
  obtain ⟨sys, hrun, hiff⟩ := catalogue_restarted_iff startedSystem_fresh hbacked (hholds.growing hrestartable)
  have hsame : againSystem = sys := congrArg finalState hrun
  exact ⟨hsame ▸ hiff.mpr ⟨System.oldName, hcopy⟩, hrow⟩

/-- Started again at once, the system has a database `backup`. -/
theorem backups_registered : ¬ ∀ (cwd R : Loc) (os : Os) (sv₀ sv : SyncServer Disk), FreshStart cwd os R sv₀ →
    Runs cwd os sv₀ sv → ∀ sys, (System.construct (Disk.files cwd) os).run
      (System.blank sv.sys.absolutePath sv.sys.disk) = .ok () sys → sys.SameCatalogue sv.sys := by
  intro h
  have hstart := startedSystem_fresh
  obtain ⟨sys, hrun, hiff⟩ := hstart.holds.restarted_iff hstart.growing
  obtain ⟨b, hb⟩ := hiff.mp (h _ _ _ _ _ hstart .refl sys hrun)
  exact absurd (hstart.holds.copy_there hb) Bool.false_ne_true

end SQLid
