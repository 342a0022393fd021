import SQLid.SchemaFile
import SQLid.RestoreTargets
import SQLid.Registry

/-!
# CREATE TABLE on a disk

What `createTable` checks before it touches the disk, what it leaves there when it fails
behind these checks, and the schema of the table when it does not.
-/
namespace SQLid
open Bytes (Text)
open CppText (str IsWord)
open FileTree (Node look put)
open Programs

/-! The checks. -/

/-- The command is refused before the disk is touched. -/
def Refused (base : DataBase) (ws : List Text) : Prop :=
  (RequestParser.next [] ws).1 = [] ∨ hasInvalidCharacter (RequestParser.next [] ws).1 = true ∨
    (base.tabblesName.lookup (RequestParser.next [] ws).1).isSome = true ∨
    ∀ columns, DataBase.parseColumns (RequestParser.next [] ws).2 = .ok columns → columns = []

namespace DataBase

/-- `createTable` behind its checks. -/
def makeTable {δ : Type} (fs : FileSystem δ) (os : Os) (base : DataBase) (tableName : Text)
    (columns : List (Text × ColumnType × Nat)) : EStateM Fault δ DataBase := do
  let tablePath := joinPath base.absoluteWay tableName
  if ← fs.createDirectory tablePath then
    let stem := base.absoluteWay ++ str "/" ++ tableName ++ str "/" ++ tableName
    fs.writeText (stem ++ str "_info.db") (infoText columns)
    fs.writeText (stem ++ str "_storage.db") []
    openTabble fs os base tableName
  else throw (.incorrectInput (str "Failed to create table directory: " ++ tablePath))

variable {δ : Type} {fs : FileSystem δ} {os : Os} {base base' : DataBase} {ws : List Text}

variable (fs os) in
theorem createTable_refused (h : Refused base ws) (d : δ) :
    ∃ e, (createTable fs os base ws).run d = .error e d := by
  unfold createTable
  dsimp only
  by_cases hname : (RequestParser.next [] ws).1 = [] ∨
      hasInvalidCharacter (RequestParser.next [] ws).1 = true
  · rw [if_pos hname]
    exact ⟨_, rfl⟩
  · by_cases hthere : (base.tabblesName.lookup (RequestParser.next [] ws).1).isSome = true
    · rw [if_neg hname, if_pos hthere]
      exact ⟨_, rfl⟩
    · have hcolumns := (or_assoc.mpr h).resolve_left hname |>.resolve_left hthere
      rw [if_neg hname, if_neg hthere]
      cases hparse : parseColumns (RequestParser.next [] ws).2 with
      | error e => exact ⟨e, rfl⟩
      | ok columns =>
          have hrun : (Programs.ofExcept (.ok columns : Except Fault _)).run d = .ok columns d := rfl
          rw [run_bind_ok hrun, if_pos (hcolumns columns hparse)]
          exact ⟨_, rfl⟩

variable (fs os) in
theorem createTable_checked (h : ¬ Refused base ws) :
    ∃ columns, parseColumns (RequestParser.next [] ws).2 = .ok columns ∧ columns ≠ [] ∧
      ∀ d, (createTable fs os base ws).run d =
        (makeTable fs os base (RequestParser.next [] ws).1 columns).run d := by
  unfold Refused at h
  simp only [not_or, not_forall] at h
  obtain ⟨hne, hvalid, hthere, columns, hparse, hcolumns⟩ := h
  refine ⟨columns, hparse, hcolumns, fun d => ?_⟩
  have hrun : (Programs.ofExcept (parseColumns (RequestParser.next [] ws).2)).run d = .ok columns d := by
    rw [hparse]
    rfl
  unfold createTable
  dsimp only
  rw [if_neg (not_or.mpr ⟨hne, hvalid⟩), if_neg hthere, run_bind_ok hrun, if_neg hcolumns]
  rfl

end DataBase

/-! The directory of the table. -/

namespace Disk
variable {cwd : Loc} {t t' : Disk} {path : Text}

/-- Nothing stands at the path, and the directory it would be made in is there. -/
def Room (cwd : Loc) (t : Disk) (path : Text) : Prop :=
  node cwd t path = none ∧ ∃ loc, find cwd t (slashless path) = some loc ∧ look t loc = none

theorem createDirectory_room (h : Room cwd t path) :
    look t (Path.place cwd path) = none ∧
      (createDirectory cwd path).run t = .ok true (put t (Path.place cwd path) .dir) := by
  obtain ⟨hnode, loc, hfind, hnone⟩ := h
  rw [find_slashless hfind] at hnone hfind
  refine ⟨hnone, ?_⟩
  change createDirectory cwd path t = _
  simp only [createDirectory, hnode, hfind, hnone]

theorem createDirectory_noRoom (h : ¬ Room cwd t path) :
    (createDirectory cwd path).run t = .ok false t ∨
      ∃ e, (createDirectory cwd path).run t = .error e t := by
  change createDirectory cwd path t = _ ∨ ∃ e, createDirectory cwd path t = _
  unfold createDirectory
  cases hnode : node cwd t path with
  | some stands => cases stands with
    | dir => exact .inl rfl
    | file text => exact .inr ⟨_, rfl⟩
  | none =>
      dsimp only
      cases hfind : find cwd t (slashless path) with
      | none => exact .inr ⟨_, rfl⟩
      | some loc =>
          dsimp only
          cases hlook : look t loc with
          | none => exact absurd ⟨hnode, loc, hfind, hlook⟩ h
          | some stands => exact .inr ⟨_, rfl⟩

theorem writeText_keeps_dir {loc : Loc} (path text : Text) : Triple (fun t => look t loc = some .dir)
    (writeText cwd path text) (fun _ t => look t loc = some .dir) (fun _ t => look t loc = some .dir) := by
  intro t hdir
  apply post_of_final
  change look (finalState (writeText cwd path text t)) loc = _
  unfold writeText
  split
  · exact hdir
  · rename_i loc' _
    split_ifs with hplace
    · exact hdir
    · have hother : loc ≠ loc' := by
        rintro rfl
        exact hplace (FileTree.isDir_iff.mpr hdir)
      exact (FileTree.look_put_other hother).trans hdir

theorem openStorage_keeps_dir {loc : Loc} (path : Text) : Triple (fun t => look t loc = some .dir)
    (openStorage cwd path) (fun _ t => look t loc = some .dir) (fun _ t => look t loc = some .dir) := by
  intro t hdir
  apply post_of_final
  change look (finalState (openStorage cwd path t)) loc = _
  unfold openStorage
  split
  · exact hdir
  · rename_i loc' _
    split
    · exact hdir
    · exact hdir
    · rename_i hnone
      have hother : loc ≠ loc' := by
        rintro rfl
        rw [hdir] at hnone
        cases hnone
      exact (FileTree.look_put_other hother).trans hdir

theorem load_keeps_dir {loc : Loc} (os : Os) (baseName : Text) : Triple (fun t => look t loc = some .dir)
    (Tabble.load (files cwd) os baseName) (fun _ t => look t loc = some .dir)
    (fun _ t => look t loc = some .dir) := by
  have hread : Triple (fun t => look t loc = some .dir) (readText cwd (baseName ++ str "_info.db"))
      (fun _ t => look t loc = some .dir) (fun _ t => look t loc = some .dir) := by
    intro t hdir
    apply post_of_final
    rwa [readText_final]
  refine Triple.bind hread fun text => ?_
  cases text with
  | none => exact triple_throw fun _ h => h
  | some text =>
      refine (triple_ofExcept (fun _ _ _ h => h) fun _ _ _ h => h).bind fun info => ?_
      refine Triple.bind (openStorage_keeps_dir _) fun opened => ?_
      refine triple_ite (fun _ => triple_throw fun _ h => h) fun _ => ?_
      cases Tabble.openFile os info opened.1 opened.2 with
      | ok _ table => exact triple_pure fun _ h => h
      | error e _ => exact triple_throw fun _ h => h

end Disk

namespace DataBase
variable {os : Os} {base : DataBase} {ws : List Text} {cwd : Loc} {t : Disk}

variable (os) in
theorem makeTable_noRoom {name : Text} (h : ¬ Disk.Room cwd t (joinPath base.absoluteWay name))
    (columns : List (Text × ColumnType × Nat)) :
    ∃ e, (makeTable (Disk.files cwd) os base name columns).run t = .error e t := by
  unfold makeTable
  rcases Disk.createDirectory_noRoom h with hfalse | ⟨e, herr⟩
  · have hrun : ((Disk.files cwd).createDirectory (joinPath base.absoluteWay name)).run t = _ := hfalse
    dsimp only
    rw [run_bind_ok hrun]
    exact ⟨_, rfl⟩
  · have hrun : ((Disk.files cwd).createDirectory (joinPath base.absoluteWay name)).run t = _ := herr
    dsimp only
    rw [run_bind_error hrun]
    exact ⟨_, rfl⟩

variable (os) in
/-- A directory that was made stays, whatever happens behind. -/
theorem makeTable_room {name : Text} (h : Disk.Room cwd t (joinPath base.absoluteWay name))
    (columns : List (Text × ColumnType × Nat)) :
    ∃ loc, look t loc = none ∧
      look (finalState ((makeTable (Disk.files cwd) os base name columns).run t)) loc = some .dir := by
  obtain ⟨hnone, hmade⟩ := Disk.createDirectory_room h
  refine ⟨_, hnone, ?_⟩
  have hroot : Path.place cwd (joinPath base.absoluteWay name) ≠ [] := by
    intro hnil
    rw [hnil] at hnone
    cases hnone
  have hrun : ((Disk.files cwd).createDirectory (joinPath base.absoluteWay name)).run t = _ := hmade
  unfold makeTable
  dsimp only
  rw [run_bind_ok hrun]
  have hrest : Triple (fun t => look t (Path.place cwd (joinPath base.absoluteWay name)) = some .dir)
      (do
        Disk.writeText cwd (base.absoluteWay ++ str "/" ++ name ++ str "/" ++ name ++ str "_info.db")
          (infoText columns)
        Disk.writeText cwd (base.absoluteWay ++ str "/" ++ name ++ str "/" ++ name ++ str "_storage.db") []
        openTabble (Disk.files cwd) os base name)
      (fun _ t => look t (Path.place cwd (joinPath base.absoluteWay name)) = some .dir)
      (fun _ t => look t (Path.place cwd (joinPath base.absoluteWay name)) = some .dir) := by
    refine Triple.bind (Disk.writeText_keeps_dir _ _) fun _ => ?_
    refine Triple.bind (Disk.writeText_keeps_dir _ _) fun _ => ?_
    exact Triple.bind (Disk.load_keeps_dir os _) fun table => triple_pure fun _ h => h
  exact hrest.final (FileTree.look_put_self hroot)

/-- A command that fails leaves the disk as it was only if it stops before the directory. -/
theorem createTable_traceless_iff {e : Fault} {t' : Disk}
    (hrun : (createTable (Disk.files cwd) os base ws).run t = .error e t') :
    (∀ loc, look t' loc = look t loc) ↔
      Refused base ws ∨ ¬ Disk.Room cwd t (joinPath base.absoluteWay (RequestParser.next [] ws).1) := by
  constructor
  · intro hsame
    by_contra hboth
    rw [not_or, not_not] at hboth
    obtain ⟨columns, -, -, hmake⟩ := createTable_checked (Disk.files cwd) os hboth.1
    obtain ⟨loc, hnone, hdir⟩ := makeTable_room os hboth.2 columns
    rw [← hmake, hrun] at hdir
    have hthere : look t' loc = some .dir := hdir
    rw [hsame, hnone] at hthere
    cases hthere
  · rintro (hrefused | hroom) loc
    · obtain ⟨e', hrefuse⟩ := createTable_refused (Disk.files cwd) os hrefused t
      rw [hrun] at hrefuse
      cases hrefuse
      rfl
    · by_cases hrefused : Refused base ws
      · obtain ⟨e', hrefuse⟩ := createTable_refused (Disk.files cwd) os hrefused t
        rw [hrun] at hrefuse
        cases hrefuse
        rfl
      · obtain ⟨columns, -, -, hmake⟩ := createTable_checked (Disk.files cwd) os hrefused
        obtain ⟨e', herr⟩ := makeTable_noRoom os hroom columns
        rw [← hmake, hrun] at herr
        cases herr
        rfl

end DataBase

section
variable {cwd : Loc} {os : Os} {ws : List Text} {s s' : System Disk} {e : Fault}

/-- CREATE TABLE as a whole: the database is looked up, and its slot is filled again when
the table is there. -/
theorem System.createTable_error
    (hrun : (System.createTable (Disk.files cwd) os ws).run s = .error e s') :
    (s' = s ∧ ∀ base, s.getDataBase (RequestParser.next [] ws).1 ≠ .ok base) ∨
      ∃ base d, s.getDataBase (RequestParser.next [] ws).1 = .ok base ∧ s' = { s with disk := d } ∧
        (DataBase.createTable (Disk.files cwd) os base (RequestParser.next [] ws).2).run s.disk =
          .error e d := by
  have hget {α : Type} (f : System Disk → EStateM Fault (System Disk) α) (s : System Disk) :
      (get >>= f).run s = (f s).run s := rfl
  unfold System.createTable at hrun
  dsimp only at hrun
  rw [hget] at hrun
  cases hbase : s.getDataBase (RequestParser.next [] ws).1 with
  | error e' =>
      rw [hbase, run_bind_error (run_ofExcept_error e' s)] at hrun
      cases hrun
      exact .inl ⟨rfl, nofun⟩
  | ok base =>
      obtain ⟨id, hid⟩ : ∃ id, s.getDataBaseId (RequestParser.next [] ws).1 = .ok id := by
        unfold System.getDataBase at hbase
        cases hid : s.getDataBaseId (RequestParser.next [] ws).1 with
        | error e' =>
            rw [hid] at hbase
            cases hbase
        | ok id => exact ⟨id, rfl⟩
      rw [hbase, run_bind_ok (run_ofExcept_ok base s), hget, hid,
        run_bind_ok (run_ofExcept_ok id s)] at hrun
      have hslot := System.getDataBase_slot hbase hid
      refine .inr ⟨base, ?_⟩
      cases hcreate : (DataBase.createTable (Disk.files cwd) os base (RequestParser.next [] ws).2).run
          s.disk with
      | ok base' d =>
          have hdisk : (System.onDisk (DataBase.createTable (Disk.files cwd) os base
              (RequestParser.next [] ws).2)).run s = .ok base' { s with disk := d } := by
            unfold System.onDisk
            rw [run_zoom, hcreate]
          rw [run_bind_ok hdisk] at hrun
          unfold System.setSlot at hrun
          rw [hget, if_pos (List.getElem?_eq_some_iff.mp hslot).1] at hrun
          cases hrun
      | error e' d =>
          have hdisk : (System.onDisk (DataBase.createTable (Disk.files cwd) os base
              (RequestParser.next [] ws).2)).run s = .error e' { s with disk := d } := by
            unfold System.onDisk
            rw [run_zoom, hcreate]
          rw [run_bind_error hdisk] at hrun
          cases hrun
          exact ⟨d, rfl, rfl, rfl⟩

/-- A CREATE TABLE that fails leaves registry and disk as they were only if it stops
before the directory of the table is made. -/
theorem failed_create_traceless_iff
    (hrun : (System.createTable (Disk.files cwd) os ws).run s = .error e s') :
    (s'.bases = s.bases ∧ s'.nameBase = s.nameBase ∧ ∀ loc, look s'.disk loc = look s.disk loc) ↔
      ∀ base, s.getDataBase (RequestParser.next [] ws).1 = .ok base →
        Refused base (RequestParser.next [] ws).2 ∨ ¬ Disk.Room cwd s.disk
          (joinPath base.absoluteWay (RequestParser.next [] (RequestParser.next [] ws).2).1) := by
  rcases System.createTable_error hrun with ⟨rfl, hnone⟩ | ⟨base, d, hbase, rfl, herr⟩
  · constructor
    · intro _ base hbase
      exact absurd hbase (hnone base)
    · intro _
      exact ⟨rfl, rfl, fun _ => rfl⟩
  · have hiff := DataBase.createTable_traceless_iff herr
    constructor
    · intro hsame base' hbase'
      rw [hbase] at hbase'
      cases hbase'
      exact hiff.mp hsame.2.2
    · intro hcond
      exact ⟨rfl, rfl, hiff.mpr (hcond base hbase)⟩

end

theorem isFileName_r : IsFileName (str "r") := by decide

theorem isFileName_shop : IsFileName (str "shop") := by decide

theorem isFileName_t : IsFileName (str "t") := by decide

/-- A disk with one database and no tables, and the registry that goes with it. -/
def shopSystem : System Disk where
  absolutePath := str "/r"
  bases := [some ⟨str "/r/shop", str "shop", [], []⟩]
  nameBase := [(str "shop", 0)]
  disk := [([sampleName "r" isFileName_r], .dir),
    ([sampleName "r" isFileName_r, sampleName "shop" isFileName_shop], .dir)]

/-- `CREATE TABLE FOR shop t x STRING[1000000000000000000]`: lines of this length cannot
be mapped. -/
def hugeTable : List Text := [str "shop", str "t", str "x", str "STRING[1000000000000000000]"]

def shopTable : Loc :=
  [sampleName "r" isFileName_r, sampleName "shop" isFileName_shop, sampleName "t" isFileName_t]

/-- What the failed command leaves. -/
def hugeLeft : System Disk :=
  finalState ((System.createTable (Disk.files []) .reliable hugeTable).run shopSystem)

theorem hugeTable_fails : (System.createTable (Disk.files []) .reliable hugeTable).run shopSystem =
    .error (.runtimeError (str "mmap failed")) hugeLeft :=
  eq_error_of_fault (by decide +kernel)

theorem failed_create_traceless_iff_sample : ¬ (hugeLeft.bases = shopSystem.bases ∧
    hugeLeft.nameBase = shopSystem.nameBase ∧
    ∀ loc, look hugeLeft.disk loc = look shopSystem.disk loc) := by
  rw [failed_create_traceless_iff hugeTable_fails]
  intro h
  have hparse : DataBase.parseColumns [str "x", str "STRING[1000000000000000000]"] =
      .ok [(str "x", .string, 1000000000000000000)] := by decide +kernel
  rcases h ⟨str "/r/shop", str "shop", [], []⟩ rfl with hrefused | hroom
  · rcases hrefused with hname | hname | hthere | hcolumns
    · exact absurd hname (by decide +kernel)
    · exact absurd hname (by decide +kernel)
    · exact absurd hthere (by decide +kernel)
    · exact absurd (hcolumns _ hparse) (List.cons_ne_nil _ _)
  · exact hroom ⟨by decide +kernel, shopTable, by decide +kernel, by decide +kernel⟩

/-- The directory of the table and its two files stay. -/
theorem failed_create_leaves_directory : ¬ ∀ (cwd : Loc) (os : Os) (ws : List Text)
    (s s' : System Disk) (e : Fault), (System.createTable (Disk.files cwd) os ws).run s = .error e s' →
      e.isException = true → s'.bases = s.bases ∧ s'.nameBase = s.nameBase ∧
        ∀ loc, look s'.disk loc = look s.disk loc := by
  intro h
  obtain ⟨-, -, hsame⟩ := h _ _ _ _ _ _ hugeTable_fails rfl
  exact absurd (hsame shopTable) (by decide +kernel)

/-- At the next start the directory is taken for a table, and the database is not opened. -/
example : isOk ((DataBase.construct (Disk.files []) .reliable (str "/r/shop") (str "shop")).run
    hugeLeft.disk) = false := by
  decide +kernel

end SQLid
