import SQLid.CatalogueCommands

/-!
# Starts on a catalogue

The start-up scan opens the databases of the root again, and passes over the backups as
long as there is one. Over an empty root it makes the default database and the place of
the backups.
-/
namespace SQLid
open Bytes (Text)
open CppText (str)
open FileTree (Node Grown look below)
open Programs

/-! The backups are no database. -/

/-- A directory without a schema cannot be opened as a table. -/
theorem Tabble.load_missing {cwd : Loc} {d : Disk} (os : Os) {baseName : Text} {loc : Loc}
    (hfind : Disk.find cwd d (baseName ++ str "_info.db") = some loc) (hfile : ∀ text, look d loc ≠ some (.file text)) :
    ∃ e, (Tabble.load (Disk.files cwd) os baseName).run d = .error e d ∧ e.isException = true := by
  have hread : ((Disk.files cwd).readText (baseName ++ str "_info.db")).run d = .ok none d := by
    change Disk.readText cwd _ d = _
    unfold Disk.readText Disk.node
    rw [hfind, Option.bind_some]
    cases hlook : look d loc with
    | none => rfl
    | some node =>
        cases node with
        | dir => rfl
        | file text => exact absurd hlook (hfile text)
  unfold Tabble.load
  rw [run_bind_ok hread]
  exact ⟨_, rfl, rfl⟩

namespace DataBase
variable {cwd A : Loc} {d : Disk} {way : Text}

theorem openTabbles_refused (os : Os) {entries : List (FileName × Node Text)}
    (hrefused : ∀ name, (name, .dir) ∈ entries → ∃ e,
      (Tabble.load (Disk.files cwd) os (way ++ str "/" ++ name.text ++ str "/" ++ name.text)).run d = .error e d ∧
        e.isException = true)
    (hsome : ∃ name, (name, Node.dir) ∈ entries) {base : DataBase} (hway : base.absoluteWay = way) :
    ∃ e, (openTabbles (Disk.files cwd) os base (listed entries)).run d = .error e d ∧ e.isException = true := by
  induction entries with
  | nil =>
      obtain ⟨name, hin⟩ := hsome
      cases hin
  | cons entry entries ih =>
      obtain ⟨name, node⟩ := entry
      cases node with
      | file text =>
          refine ih (fun name hin => hrefused name (List.mem_cons_of_mem _ hin)) ?_
          obtain ⟨other, hin⟩ := hsome
          exact ⟨other, by simpa using hin⟩
      | dir =>
          obtain ⟨e, hload, he⟩ := hrefused name List.mem_cons_self
          have hone : (openTabble (Disk.files cwd) os base name.text).run d = .error e d := by
            unfold openTabble
            rw [hway]
            exact run_bind_error hload
          have hrun : (openTabbles (Disk.files cwd) os base (listed ((name, .dir) :: entries))).run d =
              (openTabble (Disk.files cwd) os base name.text >>= fun base =>
                openTabbles (Disk.files cwd) os base (listed entries)).run d := rfl
          rw [hrun]
          exact ⟨e, run_bind_error hone, he⟩

theorem run_directoryIterator (hway : Disk.Opens cwd d way A) :
    ((Disk.files cwd).directoryIterator way).run d = .ok (listed (FileTree.children d A)) d := by
  change Disk.directoryIterator cwd way d = _
  unfold Disk.directoryIterator
  rw [hway.find]
  dsimp only
  rw [if_pos (FileTree.isDir_iff.mpr hway.dir)]
  rfl

/-- A directory of databases is not opened as a database. -/
theorem construct_copies (os : Os) (hg : Grown d) (hway : Disk.Opens cwd d way A)
    (hcopies : ∀ b, look d (A ++ [b]) = some .dir → ∀ text, look d (A ++ [b] ++ [b.info]) ≠ some (.file text))
    (hsome : ∃ b, look d (A ++ [b]) = some .dir) (dbName : Text) :
    ∃ e, (construct (Disk.files cwd) os way dbName).run d = .error e d ∧ e.isException = true := by
  unfold construct
  rw [run_bind_ok (run_directoryIterator hway)]
  refine openTabbles_refused os (fun name hin => ?_) ?_ rfl
  · have hdir := hg.mem_children.mp hin
    have hfind : Disk.find cwd d (way ++ str "/" ++ name.text ++ str "/" ++ name.text ++ str "_info.db") =
        some (A ++ [name, name.info]) := by
      rw [List.append_assoc _ name.text]
      exact hway.find_tableFile hdir name.info
    refine Tabble.load_missing os hfind fun text hfile => hcopies name hdir text ?_
    rwa [List.append_assoc]
  · obtain ⟨b, hdir⟩ := hsome
    exact ⟨b, hg.mem_children.mpr hdir⟩

theorem openTabbles_files (os : Os) {entries : List (FileName × Node Text)}
    (hfiles : ∀ name, (name, Node.dir) ∉ entries) (base : DataBase) :
    (openTabbles (Disk.files cwd) os base (listed entries)).run d = .ok base d := by
  induction entries with
  | nil => rfl
  | cons entry entries ih =>
      obtain ⟨name, node⟩ := entry
      cases node with
      | file text => exact ih fun other hin => hfiles other (List.mem_cons_of_mem _ hin)
      | dir => exact absurd List.mem_cons_self (hfiles name)

/-- A directory without directories is opened as a database without tables. -/
theorem construct_bare (os : Os) (hg : Grown d) (hway : Disk.Opens cwd d way A)
    (hbare : ∀ b, look d (A ++ [b]) ≠ some .dir) (dbName : Text) :
    (construct (Disk.files cwd) os way dbName).run d = .ok ⟨way, dbName, [], []⟩ d := by
  unfold construct
  rw [run_bind_ok (run_directoryIterator hway)]
  exact openTabbles_files os (fun name hin => hbare name (hg.mem_children.mp hin)) _

end DataBase

namespace System
variable {cwd R : Loc} {area : FileName} {d : Disk} {st : Catalogue} {path : Text} {os : Os}

theorem inMemory_blank (path : Text) (d : Disk) : InMemory cwd R (blank path d) fun _ => none := by
  refine ⟨fun name id hid => ?_, fun key id hid => ?_, fun name tables htables => ?_, fun id base hbase => ?_⟩
  · cases hid
  · cases hid
  · cases htables
  · cases hbase

/-- No table of a database is refused a growth when the database is opened. -/
def Growing (cwd : Loc) (os : Os) (d : Disk) (path : Text) : Prop :=
  ∀ (name : FileName) (e : Fault) (d' : Disk),
    (DataBase.construct (Disk.files cwd) os (path ++ str "/" ++ name.text) name.text).run d = .error e d' → ¬ e.IsGrowth

/-- The scan tries to open a directory. -/
def tryOpen (cwd : Loc) (os : Os) (path name : Text) : EStateM Fault (System Disk) (Option DataBase) :=
  tryCatch (some <$> onDisk (DataBase.construct (Disk.files cwd) os path name)) fun e =>
    if e.isException then pure none else throw e

theorem run_tryOpen_ok {s : System Disk} {way name : Text} {base : DataBase}
    (h : (DataBase.construct (Disk.files cwd) os way name).run s.disk = .ok base s.disk) :
    (tryOpen cwd os way name).run s = .ok (some base) s := by
  unfold tryOpen
  rw [run_tryCatch, run_map, run_onDisk_ok h]

theorem run_tryOpen_skip {s : System Disk} {way name : Text} {e : Fault}
    (h : (DataBase.construct (Disk.files cwd) os way name).run s.disk = .error e s.disk) (he : e.isException = true) :
    (tryOpen cwd os way name).run s = .ok none s := by
  unfold tryOpen
  rw [run_tryCatch, run_map, run_onDisk_error h]
  dsimp only
  rw [if_pos he]
  rfl

theorem run_openBases_dir (cwd : Loc) (os : Os) (name : Text) (entries : List (Text × Bool)) (s : System Disk) :
    (openBases (Disk.files cwd) os s.bases.length ((name, true) :: entries)).run s =
      (tryOpen cwd os (s.absolutePath ++ str "/" ++ name) name >>= fun opened =>
        match opened with
        | none => openBases (Disk.files cwd) os s.bases.length entries
        | some base => do
            modify fun t =>
              { t with bases := t.bases ++ [some base], nameBase := insertNew t.nameBase name s.bases.length }
            openBases (Disk.files cwd) os (s.bases.length + 1) entries).run s := rfl

/-- What the scan makes of the directories: the databases, and one more without tables in the
place of the backups as long as there is none. -/
structure Shown (area : FileName) (st : Catalogue) (shown : FileName → Option Tables) : Prop where
  live : ∀ name, name ≠ area → shown name = st.live name
  place : shown area = none ∧ (∃ b, (st.archive b).isSome) ∨ shown area = some .empty ∧ ∀ b, st.archive b = none

theorem construct_shown (hroot : Straight cwd path R) (hdisk : OnDisk R area d st) {shown : FileName → Option Tables}
    (hshown : Shown area st shown) (hgrowing : Growing cwd os d path) {name : FileName}
    (hdir : look d (R ++ [name]) = some .dir) :
    (shown name = none ∧ ∃ e, (DataBase.construct (Disk.files cwd) os (path ++ str "/" ++ name.text) name.text).run d =
        .error e d ∧ e.isException = true) ∨
      ∃ base tables, shown name = some tables ∧
        (DataBase.construct (Disk.files cwd) os (path ++ str "/" ++ name.text) name.text).run d = .ok base d ∧
        base.absoluteWay = path ++ str "/" ++ name.text ∧ base.dataBaseName = name.text ∧ OpenBase base tables := by
  have hway := (hroot.opens hdisk.grown hdisk.root).slash_name hdir
  by_cases hname : name = area
  · subst hname
    rcases hshown.place with ⟨hnone, b, hb⟩ | ⟨hempty, hunsaved⟩
    · have hnoTable (b : FileName) (hb : look d (R ++ [name] ++ [b]) = some .dir) (text : Text) :
          look d (R ++ [name] ++ [b] ++ [b.info]) ≠ some (.file text) := by
        obtain ⟨tables, htables⟩ := Option.isSome_iff_exists.mp (hdisk.copies b hb)
        exact (hdisk.copy b tables htables).2.noFiles b.info text
      obtain ⟨tables, htables⟩ := Option.isSome_iff_exists.mp hb
      exact .inl ⟨hnone, DataBase.construct_copies os hdisk.grown hway hnoTable
        ⟨b, (hdisk.copy b tables htables).1⟩ name.text⟩
    · have hbare (b : FileName) : look d (R ++ [name] ++ [b]) ≠ some .dir := fun hb => by
        have hsome := hdisk.copies b hb
        rw [hunsaved] at hsome
        cases hsome
      exact .inr ⟨_, .empty, hempty, DataBase.construct_bare os hdisk.grown hway hbare name.text, rfl, rfl,
        openBase_empty _ _⟩
  · obtain ⟨tables, htables⟩ := Option.isSome_iff_exists.mp (hdisk.only name hname hdir)
    obtain ⟨-, hstored⟩ := hdisk.base name tables htables
    rcases DataBase.construct_stored os hdisk.grown hway hstored name.text with
      ⟨base, hopen, hbaseWay, hdbName, hopened⟩ | ⟨e, hrefused, hgrowth⟩
    · exact .inr ⟨base, tables, (hshown.live name hname).trans htables, hopen, hbaseWay, hdbName, hopened⟩
    · exact absurd hgrowth (hgrowing name e d hrefused)

/-- The scan opens what is listed, the backups apart. -/
theorem openBases_holds (hroot : Straight cwd path R) (hdisk : OnDisk R area d st) {shown : FileName → Option Tables}
    (hshown : Shown area st shown)
    (hgrowing : Growing cwd os d path) {entries : List (FileName × Node Text)} (hnodup : (entries.map Prod.fst).Nodup)
    (hdirs : ∀ name, (name, .dir) ∈ entries → look d (R ++ [name]) = some .dir) {s : System Disk}
    {done : FileName → Option Tables} (hd : s.disk = d) (hpath : s.absolutePath = path) (hmem : InMemory cwd R s done)
    (hdone : ∀ name, (name, .dir) ∈ entries → done name = none) :
    ∃ s', (openBases (Disk.files cwd) os s.bases.length (DataBase.listed entries)).run s = .ok () s' ∧ s'.disk = d ∧
      s'.absolutePath = path ∧ InMemory cwd R s' (DataBase.opening shown done entries) := by
  induction entries generalizing s done with
  | nil =>
      have hsame : DataBase.opening shown done [] = done := funext fun name => if_neg List.not_mem_nil
      refine ⟨s, rfl, hd, hpath, ?_⟩
      rwa [hsame]
  | cons entry entries ih =>
      obtain ⟨name, node⟩ := entry
      rw [List.map_cons, List.nodup_cons] at hnodup
      obtain ⟨hnew, hnodup⟩ := hnodup
      have hlater (other : FileName) (hin : (other, Node.dir) ∈ entries) := hdirs other (List.mem_cons_of_mem _ hin)
      cases node with
      | file text =>
          rw [DataBase.opening_file]
          exact ih hnodup hlater hd hpath hmem fun other hin => hdone other (List.mem_cons_of_mem _ hin)
      | dir =>
          have hnew' : (name, Node.dir) ∉ entries := fun hin => hnew (List.mem_map_of_mem (f := Prod.fst) hin)
          have hfree := hdone name List.mem_cons_self
          have hstart := run_openBases_dir cwd os name.text (DataBase.listed entries) s
          rw [hpath] at hstart
          change ∃ s', (openBases (Disk.files cwd) os s.bases.length ((name.text, true) :: DataBase.listed entries)).run s =
            .ok () s' ∧ _
          rw [hstart, DataBase.opening_dir shown done hnew']
          rcases construct_shown hroot hdisk hshown hgrowing (hdirs name List.mem_cons_self) with
            ⟨hnone, e, hrefused, he⟩ | ⟨base, tables, htables, hopen, hbaseWay, hdbName, hopened⟩
          · rw [← hd] at hrefused
            rw [run_bind_ok (run_tryOpen_skip hrefused he)]
            have hsame : Function.update done name (shown name) = done := by
              rw [hnone, ← hfree]
              exact Function.update_eq_self name done
            rw [hsame]
            exact ih hnodup hlater hd hpath hmem fun other hin => hdone other (List.mem_cons_of_mem _ hin)
          · rw [← hd] at hopen
            rw [run_bind_ok (run_tryOpen_ok hopen), htables]
            have hregistered := hmem.registered hfree hdbName hopened (hbaseWay ▸ hroot.slash name)
            have hlength : (s.registered name.text base).bases.length = s.bases.length + 1 := List.length_append
            rw [← hlength]
            refine ih hnodup hlater hd hpath hregistered fun other hin => ?_
            have hne : other ≠ name := by
              rintro rfl
              exact hnew' hin
            rw [Function.update_of_ne hne]
            exact hdone other (List.mem_cons_of_mem _ hin)

/-- The root holds at least the place of the backups. -/
theorem run_isEmpty (hopens : Disk.Opens cwd d path R) :
    ((Disk.files cwd).isEmpty path).run d = .ok (FileTree.children d R).isEmpty d := by
  change (Disk.files cwd).isEmpty path d = _
  unfold Disk.files
  dsimp only
  rw [hopens.find]
  dsimp only
  rw [hopens.dir]

theorem run_construct (os : Os) (hopens : Disk.Opens cwd d path R) :
    (construct (Disk.files cwd) os).run (blank path d) =
      (loadFoldersAndOpenBases (Disk.files cwd) os).run (blank path d) := by
  have hnode : Disk.node cwd d path = some .dir := by
    unfold Disk.node
    rw [hopens.find]
    exact hopens.dir
  have hexists : (onDisk ((Disk.files cwd).pathExists path)).run (blank path d) = .ok true (blank path d) := by
    refine run_onDisk_ok ?_
    change EStateM.Result.ok (Disk.node cwd d path).isSome d = _
    rw [hnode]
    rfl
  have hdir : (onDisk ((Disk.files cwd).isDirectory path)).run (blank path d) = .ok true (blank path d) := by
    refine run_onDisk_ok ?_
    change EStateM.Result.ok ((Disk.node cwd d path).any Disk.isDirNode) d = _
    rw [hnode]
    rfl
  have hpath : (blank path d).absolutePath = path := rfl
  unfold construct
  rw [run_bind_ok (EStateM.run_get _)]
  dsimp only
  rw [hpath, run_bind_ok hexists, run_bind_ok (run_throwIf_false (by simp) _), run_bind_ok hdir,
    run_bind_ok (run_throwIf_false (by simp) _)]

/-- Started on a disk that stands for a catalogue, the system registers what the scan shows. -/
theorem construct_shows (hroot : Straight cwd path R) (hdisk : OnDisk R area d st) (harea : area.text = backUpName)
    {shown : FileName → Option Tables} (hshown : Shown area st shown) (hgrowing : Growing cwd os d path) :
    ∃ sys, (construct (Disk.files cwd) os).run (blank path d) = .ok () sys ∧ sys.disk = d ∧ sys.absolutePath = path ∧
      InMemory cwd R sys shown := by
  have hopens : Disk.Opens cwd d path R := hroot.opens hdisk.grown hdisk.root
  have hchildren (name : FileName) (node : Node Text) : (name, node) ∈ FileTree.children d R ↔
      look d (R ++ [name]) = some node := hdisk.grown.mem_children
  have hin := (hchildren area .dir).mpr hdisk.place
  obtain ⟨sys, hscan, hd, hpath, hmem⟩ := openBases_holds hroot hdisk hshown hgrowing
    hdisk.grown.children_nodup (fun name hin => (hchildren name .dir).mp hin) rfl rfl (inMemory_blank path d)
    fun _ _ => rfl
  have hall : DataBase.opening shown (fun _ => none) (FileTree.children d R) = shown := by
    funext name
    unfold DataBase.opening
    split_ifs with hthere
    · rfl
    · have hname : name ≠ area := by
        rintro rfl
        exact hthere hin
      rw [hshown.live name hname]
      cases htables : st.live name with
      | none => rfl
      | some tables => exact absurd ((hchildren name .dir).mpr (hdisk.base name tables htables).1) hthere
  have hempty := run_isEmpty hopens
  rw [List.isEmpty_eq_false_iff.mpr (List.ne_nil_of_mem hin)] at hempty
  have hthere : (DataBase.listed (FileTree.children d R)).all
      (fun entry => !(entry.2 && entry.1 = backUpName)) = false := by
    rw [List.all_eq_false]
    refine ⟨(area.text, true), List.mem_map.mpr ⟨_, hin, rfl⟩, ?_⟩
    simp [harea]
  rw [hall] at hmem
  refine ⟨sys, ?_, hd, hpath, hmem⟩
  have hblank : (blank path d).absolutePath = path := rfl
  have hlist : (onDisk ((Disk.files cwd).directoryIterator path)).run (blank path d) =
      .ok (DataBase.listed (FileTree.children d R)) (blank path d) :=
    run_onDisk_ok (DataBase.run_directoryIterator hopens)
  rw [← hd] at hempty
  rw [run_construct os hopens]
  unfold loadFoldersAndOpenBases
  rw [run_bind_ok (EStateM.run_get _)]
  dsimp only
  rw [hblank, run_bind_ok hlist]
  refine (run_bind_ok hscan).trans ?_
  rw [run_bind_ok (run_onDisk_ok hempty), if_neg (by simp), if_neg (Bool.eq_false_iff.mp hthere)]
  rfl

/-- With a backup there, it stands for the catalogue. -/
theorem construct_holds (hroot : Straight cwd path R) (hdisk : OnDisk R area d st) (harea : area.text = backUpName)
    (hsaved : ∃ b, (st.archive b).isSome) (hgrowing : Growing cwd os d path) :
    ∃ sys, (construct (Disk.files cwd) os).run (blank path d) = .ok () sys ∧ Holds cwd R area sys st := by
  obtain ⟨sys, hrun, hd, hpath, hmem⟩ := construct_shows hroot hdisk harea
    ⟨fun _ _ => rfl, .inl ⟨hdisk.free, hsaved⟩⟩ hgrowing
  rw [← hpath] at hroot
  rw [← hd] at hdisk
  exact ⟨sys, hrun, hroot, hmem, hdisk⟩

/-- Without one, their place is a database too. -/
theorem construct_unsaved (hroot : Straight cwd path R) (hdisk : OnDisk R area d st) (harea : area.text = backUpName)
    (hunsaved : ∀ b, st.archive b = none) (hgrowing : Growing cwd os d path) :
    ∃ sys, (construct (Disk.files cwd) os).run (blank path d) = .ok () sys ∧
      InMemory cwd R sys (Function.update st.live area (some .empty)) := by
  obtain ⟨sys, hrun, -, -, hmem⟩ := construct_shows hroot hdisk harea
    ⟨fun _ hname => Function.update_of_ne hname .., .inr ⟨Function.update_self .., hunsaved⟩⟩ hgrowing
  exact ⟨sys, hrun, hmem⟩

/-- A name without a directory is no database. -/
theorem construct_missing (os : Os) (hopens : Disk.Opens cwd d path R) {name : FileName}
    (hdir : look d (R ++ [name]) ≠ some .dir) :
    (DataBase.construct (Disk.files cwd) os (path ++ str "/" ++ name.text) name.text).run d =
      .error (Disk.fault (str "directory iterator: ")) d := by
  have hlist : ((Disk.files cwd).directoryIterator (path ++ str "/" ++ name.text)).run d =
      .error (Disk.fault (str "directory iterator: ")) d := by
    change Disk.directoryIterator cwd _ d = _
    unfold Disk.directoryIterator
    rw [hopens.find_slash_name name]
    dsimp only
    rw [if_neg fun h => hdir (FileTree.isDir_iff.mp h)]
  unfold DataBase.construct
  rw [run_bind_error hlist]

/-- It is enough that the directories of the root can be opened. -/
theorem growing_dirs (os : Os) (hopens : Disk.Opens cwd d path R)
    (hdirs : ∀ name : FileName, look d (R ++ [name]) = some .dir → ∀ e d',
      (DataBase.construct (Disk.files cwd) os (path ++ str "/" ++ name.text) name.text).run d = .error e d' →
        ¬ e.IsGrowth) : Growing cwd os d path := by
  intro name e d' hrun hgrowth
  by_cases hdir : look d (R ++ [name]) = some .dir
  · exact hdirs name hdir e d' hrun hgrowth
  · rw [construct_missing os hopens hdir] at hrun
    cases hrun
    simp [Fault.IsGrowth, Disk.fault] at hgrowth

/-- Where no database has a table, none can be refused a growth. -/
theorem growing_bare (os : Os) (hg : Grown d) (hopens : Disk.Opens cwd d path R)
    (hbare : ∀ name m : FileName, look d (R ++ [name] ++ [m]) ≠ some .dir) : Growing cwd os d path := by
  refine growing_dirs os hopens fun name hdir e d' hrun _ => ?_
  rw [DataBase.construct_bare os hg (hopens.slash_name hdir) (hbare name) name.text] at hrun
  cases hrun

/-! An empty root. -/

theorem isFileName_default : IsFileName (str "default") := by decide

def defaultName : FileName := ⟨str "default", isFileName_default⟩

/-- One database without tables, and no backups. -/
def fresh : Catalogue := ⟨Function.update (fun _ => none) defaultName (some .empty), fun _ => none⟩

theorem createDirectory_slash {d : Disk} (hopens : Disk.Opens cwd d path R) {name : FileName}
    (hnone : look d (R ++ [name]) = none) :
    ((Disk.files cwd).createDirectory (path ++ str "/" ++ name.text)).run d = .ok true (d ++ [(R ++ [name], .dir)]) := by
  have hfind := hopens.find_slash_name name
  have hnode : Disk.node cwd d (path ++ str "/" ++ name.text) = none := by
    unfold Disk.node
    rw [hfind]
    exact hnone
  have hslashless : Disk.slashless (path ++ str "/" ++ name.text) = path ++ str "/" ++ name.text := by
    refine Disk.slashless_append (fun hin => ?_) name
    exact (List.mem_append.mp hin).elim hopens.zero (by decide)
  change Disk.createDirectory cwd _ d = _
  unfold Disk.createDirectory
  rw [hnode]
  dsimp only
  rw [hslashless, hfind]
  dsimp only
  rw [hnone, FileTree.put_absent hnone]

theorem onDisk_fresh (hg : Grown d) (hdir : look d R = some .dir) (hempty : ∀ name, look d (R ++ [name]) = none) :
    OnDisk R areaName (d ++ [(R ++ [defaultName], .dir)] ++ [(R ++ [areaName], .dir)]) fresh := by
  have hne : defaultName ≠ areaName := fun h => absurd (congrArg FileName.text h) (by decide)
  obtain ⟨hg₁, hmade, hbelow, hother⟩ := Disk.made_dir hg hdir (hempty defaultName)
  have hfree : look (d ++ [(R ++ [defaultName], .dir)]) (R ++ [areaName]) = none := by
    rw [hother _ fun h => hne (List.cons.inj (List.append_cancel_left h)).1.symm]
    exact hempty areaName
  have hdir₁ : look (d ++ [(R ++ [defaultName], .dir)]) R = some .dir := FileTree.look_append_left hdir
  obtain ⟨hg₂, hplace, -, hother₂⟩ := Disk.made_dir hg₁ hdir₁ hfree
  have hdefault (rel : Loc) : look (d ++ [(R ++ [defaultName], .dir)] ++ [(R ++ [areaName], .dir)])
      (R ++ [defaultName] ++ rel) = look (d ++ [(R ++ [defaultName], .dir)]) (R ++ [defaultName] ++ rel) := by
    have hout : ¬ R ++ [areaName] <+: R ++ [defaultName] ++ rel := not_below_other hne rel
    exact hother₂ _ fun heq => hout (heq ▸ List.prefix_refl _)
  refine ⟨hg₂, hplace, ?_, fun name tables htables => ?_, fun name harea hthere => ?_, fun b tables hb => ?_,
    fun b hthere => ?_⟩
  · exact Function.update_of_ne (f := fun _ => none) hne.symm (some Tables.empty)
  · have hlive : Function.update (fun _ => none) defaultName (some Tables.empty) name = some tables := htables
    by_cases hname : name = defaultName
    · subst hname
      rw [Function.update_self, Option.some.injEq] at hlive
      subst hlive
      have hself := hdefault []
      rw [List.append_nil] at hself
      exact ⟨hself.trans hmade, (storedBase_empty hg₁ hbelow).congr fun rel _ => hdefault rel⟩
    · rw [Function.update_of_ne hname] at hlive
      cases hlive
  · change (Function.update (fun _ => none) defaultName (some Tables.empty) name).isSome
    by_cases hname : name = defaultName
    · rw [hname, Function.update_self]
      rfl
    · have hapart {other : FileName} (h : name ≠ other) : R ++ [name] ≠ R ++ [other] := fun heq =>
        h (List.cons.inj (List.append_cancel_left heq)).1
      rw [hother₂ _ (hapart harea), hother _ (hapart hname), hempty] at hthere
      cases hthere
  · cases hb
  · rw [hother₂ _ (by simp), hother, List.append_assoc] at hthere
    · have hnone : look d (R ++ [areaName] ++ [b]) = none := Disk.look_below_none hg (hempty areaName)
      rw [List.append_assoc, hthere] at hnone
      cases hnone
    · intro heq
      have hlength := congrArg List.length heq
      simp at hlength

/-- Started over an empty root. -/
theorem construct_fresh (os : Os) (hg : Grown d) (hroot : Straight cwd path R) (hdir : look d R = some .dir)
    (hempty : ∀ name, look d (R ++ [name]) = none) :
    ∃ sys, (construct (Disk.files cwd) os).run (blank path d) = .ok () sys ∧ Holds cwd R areaName sys fresh := by
  have hopens := hroot.opens hg hdir
  have hchildren : FileTree.children d R = [] := by
    rw [List.eq_nil_iff_forall_not_mem]
    rintro ⟨name, node⟩ hin
    have hlook := hg.mem_children.mp hin
    rw [hempty] at hlook
    cases hlook
  have hne : defaultName ≠ areaName := fun h => absurd (congrArg FileName.text h) (by decide)
  obtain ⟨hg₁, hmade, -, hother⟩ := Disk.made_dir hg hdir (hempty defaultName)
  have hfree : look (d ++ [(R ++ [defaultName], .dir)]) (R ++ [areaName]) = none := by
    rw [hother _ fun h => hne (List.cons.inj (List.append_cancel_left h)).1.symm]
    exact hempty areaName
  have hopens₁ : Disk.Opens cwd (d ++ [(R ++ [defaultName], .dir)]) path R :=
    hopens.mono fun l hl => FileTree.look_append_left hl
  have hlist : (onDisk ((Disk.files cwd).directoryIterator path)).run (blank path d) = .ok [] (blank path d) := by
    refine run_onDisk_ok ?_
    have hrun := DataBase.run_directoryIterator hopens
    rw [hchildren] at hrun
    exact hrun
  have hisEmpty : (onDisk ((Disk.files cwd).isEmpty path)).run (blank path d) = .ok true (blank path d) := by
    refine run_onDisk_ok ?_
    have hrun := run_isEmpty hopens
    rw [hchildren] at hrun
    exact hrun
  have hvalid : hasInvalidCharacter defaultName.text = false := by decide
  have hcreate := createDataBase_new (s := blank path d) os hg hopens hvalid (hempty defaultName)
  have hplace := createDirectory_slash hopens₁ hfree
  refine ⟨{ ({ blank path d with disk := d ++ [(R ++ [defaultName], .dir)] } : System Disk).registered defaultName.text
    ⟨path ++ str "/" ++ defaultName.text, defaultName.text, [], []⟩ with
      disk := d ++ [(R ++ [defaultName], .dir)] ++ [(R ++ [areaName], .dir)] }, ?_, hroot, ?_, onDisk_fresh hg hdir hempty⟩
  · have hblank : (blank path d).absolutePath = path := rfl
    rw [run_construct os hopens]
    unfold loadFoldersAndOpenBases
    rw [run_bind_ok (EStateM.run_get _)]
    dsimp only
    rw [hblank, run_bind_ok hlist]
    have hscan : (openBases (Disk.files cwd) os 0 []).run (blank path d) = .ok () (blank path d) := rfl
    rw [run_bind_ok hscan, run_bind_ok hisEmpty, if_pos rfl]
    refine (run_bind_ok hcreate).trans ?_
    rw [if_pos List.all_nil]
    refine (run_bind_ok (run_onDisk_ok (s := ({ blank path d with disk := d ++ [(R ++ [defaultName], .dir)] } :
      System Disk).registered defaultName.text ⟨path ++ str "/" ++ defaultName.text, defaultName.text, [], []⟩) hplace)).trans ?_
    rfl
  · exact (((inMemory_blank path d).onDisk _).registered rfl rfl (openBase_empty _ _) (hroot.slash defaultName)).onDisk _

end System
end SQLid
