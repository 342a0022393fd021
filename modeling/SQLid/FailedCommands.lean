import SQLid.TableCreation

/-!
# RESTORE and DROP that fail

Both commands close the database before the step that can fail. What a failed one has lost
by then, on any file system, whichever of its calls fails.
-/
namespace SQLid
open Bytes (Text)
open CppText (str)
open FileTree (Node)
open Programs

namespace System
variable {δ : Type} {fs : FileSystem δ} {look : δ → Loc → Option (Node Text)} {cwd : Loc}

/-- What the registry has under a name, with the slot and what is in it. -/
def registration (s : System δ) (name : Text) : Option (Nat × Option (Option DataBase)) :=
  (s.nameBase.lookup name).map fun id => (id, s.bases[id]?)

def backupPath (s : System δ) (backupName : Text) : Text :=
  joinPath (joinPath s.absolutePath backUpName) backupName

def databasePath (s : System δ) (dbName : Text) : Text := joinPath s.absolutePath dbName

/-- A database is open under the name. -/
def HasBase (s : System δ) (dbName : Text) : Prop :=
  ∃ id base, s.nameBase.lookup dbName = some id ∧ s.bases[id]? = some (some base)

/-- The contents of a path are as they were. -/
def ContentsKept (look : δ → Loc → Option (Node Text)) (cwd : Loc) (path : Text) (d d' : δ) : Prop :=
  ∀ loc, Path.place cwd path <+: loc → look d' loc = look d loc

structure Kept (look : δ → Loc → Option (Node Text)) (cwd : Loc) (s s' : System δ) (dbName : Text) : Prop where
  registration : s'.registration dbName = s.registration dbName
  contents : ContentsKept look cwd (s.databasePath dbName) s.disk s'.disk

/-- The registration of the target and the contents of target and backup are as they were. -/
structure RestoreKept (look : δ → Loc → Option (Node Text)) (cwd : Loc) (s s' : System δ)
    (backupName dbName : Text) : Prop extends Kept look cwd s s' dbName where
  backup : ContentsKept look cwd (s.backupPath backupName) s.disk s'.disk

/-- The backup is no directory that stands there, as far as one can find out. -/
def NoBackup (fs : FileSystem δ) (s : System δ) (backupName : Text) : Prop :=
  ∀ d, (isExistingDirectory fs (s.backupPath backupName)).run s.disk ≠ .ok true d

/-- The target is new, and an attempt that fails in a call to the file system is removed. -/
structure CleansUp (fs : FileSystem δ) (os : Os) (look : δ → Loc → Option (Node Text)) (cwd : Loc)
    (s : System δ) (backupName dbName : Text) : Prop where
  name : IsFileName dbName
  unregistered : s.nameBase.lookup dbName = none
  absent : ∀ loc, Path.place cwd (s.databasePath dbName) <+: loc → look s.disk loc = none
  removed : ∀ d e d', (isExistingDirectory fs (s.backupPath backupName)).run s.disk = .ok true d →
    (rebuild fs os (s.backupPath backupName) (s.databasePath dbName) dbName).run d = .error e d' →
    (∃ what, e = .filesystemError what) ∧ ∃ d'', (fs.removeAll (s.databasePath dbName)).run d' = .ok () d'' ∧
      ∀ loc, Path.place cwd (s.databasePath dbName) <+: loc → look d'' loc = none

section
variable {os : Os} {s s' : System δ} {backupName dbName : Text} {e : Fault}

/-- `restoreDatabase` behind its check. -/
def restoreChecked (fs : FileSystem δ) (os : Os) (s : System δ) (backupName dbName : Text) :
    EStateM Fault (System δ) Unit :=
  match s.nameBase.lookup dbName with
  | some id => do
      setSlot id none
      catchFilesystem (do
          let base ← onDisk (rebuild fs os (s.backupPath backupName) (s.databasePath dbName) dbName)
          setSlot id (some base)) fun what => do
        onDisk (fs.removeAll (s.databasePath dbName))
        throw (.incorrectInput (str "Restore failed: " ++ what))
  | none =>
      catchFilesystem (do
          let base ← onDisk (rebuild fs os (s.backupPath backupName) (s.databasePath dbName) dbName)
          register dbName base) fun what => do
        onDisk (fs.removeAll (s.databasePath dbName))
        throw (.incorrectInput (str "Restore failed: " ++ what))

theorem run_restoreDatabase : (restoreDatabase fs os backupName dbName).run s =
    (do
      let found ← onDisk (isExistingDirectory fs (s.backupPath backupName))
      throwIf (found = false) (.incorrectInput (str "Backup '" ++ backupName ++ str "' not found"))
      restoreChecked fs os s backupName dbName : EStateM Fault (System δ) Unit).run s := rfl

theorem run_restoreDatabase_checked {d : δ}
    (h : (isExistingDirectory fs (s.backupPath backupName)).run s.disk = .ok true d) :
    (restoreDatabase fs os backupName dbName).run s =
      (restoreChecked fs os s backupName dbName).run { s with disk := d } := by
  rw [run_restoreDatabase, run_bind_ok (run_onDisk_ok h)]
  rfl

theorem isExistingDirectory_quiet (hfs : fs.Local look cwd) (path : Text) (d : δ) (loc : Loc) :
    look (finalState ((isExistingDirectory fs path).run d)) loc = look d loc := by
  have hquiet : Triple (Agree look (fun _ => False) (look d)) (isExistingDirectory fs path)
      (fun _ => Agree look (fun _ => False) (look d)) (fun _ => Agree look (fun _ => False) (look d)) := by
    unfold isExistingDirectory
    refine (hfs.pathExists _).quiet.bind fun found => triple_ite (fun _ => ?_) fun _ => ?_
    · exact (hfs.isDirectory _).quiet
    · exact triple_pure fun _ h => h
  exact hquiet.final (fun _ _ => rfl) loc fun h => h

/-- Without a backup the command ends at its check. -/
theorem restoreDatabase_noBackup (hfs : fs.Local look cwd) (os : Os) (dbName : Text)
    (h : NoBackup fs s backupName) :
    RestoreKept look cwd s (finalState ((restoreDatabase fs os backupName dbName).run s)) backupName dbName := by
  have hquiet := isExistingDirectory_quiet hfs (s.backupPath backupName) s.disk
  cases hrun : (isExistingDirectory fs (s.backupPath backupName)).run s.disk with
  | error e d =>
      rw [hrun] at hquiet
      rw [run_restoreDatabase, run_bind_error (run_onDisk_error hrun)]
      exact ⟨⟨rfl, fun loc _ => hquiet loc⟩, fun loc _ => hquiet loc⟩
  | ok found d =>
      cases found with
      | true => exact absurd hrun (h d)
      | false =>
          rw [hrun] at hquiet
          rw [run_restoreDatabase, run_bind_ok (run_onDisk_ok hrun)]
          exact ⟨⟨rfl, fun loc _ => hquiet loc⟩, fun loc _ => hquiet loc⟩

/-- The database that was open is closed before anything can fail. -/
theorem restoreChecked_closed (fs : FileSystem δ) (os : Os) (backupName : Text) {id : Nat} (hid : s.nameBase.lookup dbName = some id)
    (hlt : id < s.bases.length) :
    Triple (fun t : System δ => t.nameBase = s.nameBase ∧ t.bases = s.bases)
      (restoreChecked fs os s backupName dbName) (fun _ _ => True)
      (fun _ t => t.nameBase = s.nameBase ∧ t.bases[id]? = some none) := by
  have hfree : DiskFree fun t : System δ => t.nameBase = s.nameBase ∧ t.bases[id]? = some none :=
    fun _ _ h => h
  unfold restoreChecked
  rw [hid]
  dsimp only
  refine Triple.bind (Q := fun _ t => t.nameBase = s.nameBase ∧ t.bases[id]? = some none) ?_ fun _ => ?_
  · refine triple_get_eq fun t => triple_ite (fun _ => ?_) fun hge t' h => ?_
    · refine triple_modify fun t' h => ⟨h.1.1, ?_⟩
      change (t'.bases.set id none)[id]? = some none
      rw [h.1.2, List.getElem?_set_self hlt]
    · obtain ⟨h, rfl⟩ := h
      rw [h.2] at hge
      exact absurd hlt hge
  · refine triple_catchFilesystem ((triple_onDisk_true _ hfree).bind fun base => ?_) fun what => ?_
    · refine triple_get fun t _ => triple_ite (fun _ => ?_) fun _ => triple_throw fun _ h => h
      exact triple_modify fun _ _ => trivial
    · exact (triple_onDisk_true _ hfree).bind fun _ => triple_throw fun _ h => h

/-- A failed command with a backup has closed the database. -/
theorem restoreDatabase_lost (hbase : s.HasBase dbName) (hbackup : ¬ NoBackup fs s backupName)
    (hrun : (restoreDatabase fs os backupName dbName).run s = .error e s') :
    s'.registration dbName ≠ s.registration dbName := by
  obtain ⟨id, base, hid, hslot⟩ := hbase
  obtain ⟨d, hfound⟩ : ∃ d, (isExistingDirectory fs (s.backupPath backupName)).run s.disk = .ok true d := by
    simpa [NoBackup] using hbackup
  rw [run_restoreDatabase_checked hfound] at hrun
  have hlt := (List.getElem?_eq_some_iff.mp hslot).1
  have hclosed := restoreChecked_closed fs os backupName hid hlt { s with disk := d } ⟨rfl, rfl⟩
  rw [hrun] at hclosed
  obtain ⟨hnames, hempty⟩ : s'.nameBase = s.nameBase ∧ s'.bases[id]? = some none := by
    cases hclosed with
    | error h => exact h
  unfold registration
  rw [hnames, hid, Option.map_some, Option.map_some, hempty, hslot]
  intro heq
  cases heq

/-- A new target that failed is removed again, and the disk is as it was. -/
theorem restoreDatabase_cleaned (hfs : fs.Local look cwd) (hroot : 0 ∉ s.absolutePath)
    (h : CleansUp fs os look cwd s backupName dbName) (hbackup : ¬ NoBackup fs s backupName)
    (hrun : (restoreDatabase fs os backupName dbName).run s = .error e s') :
    RestoreKept look cwd s s' backupName dbName := by
  have hzero : 0 ∉ joinPath s.absolutePath dbName := fun hmem =>
    (Path.zero_mem_joinPath hmem).elim hroot h.name.2.2.2.2
  have houtside := (restoreDatabase_agree (v := look s.disk) hfs os backupName dbName hzero
    (Path.joinPath_ne_nil s.absolutePath h.name.1)).error (s := s) ⟨rfl, fun _ _ => rfl⟩ hrun
  obtain ⟨d, hfound⟩ : ∃ d, (isExistingDirectory fs (s.backupPath backupName)).run s.disk = .ok true d := by
    simpa [NoBackup] using hbackup
  rw [run_restoreDatabase_checked hfound] at hrun
  unfold restoreChecked at hrun
  rw [h.unregistered] at hrun
  dsimp only at hrun
  unfold catchFilesystem at hrun
  rw [run_tryCatch] at hrun
  cases hbuild : (rebuild fs os (s.backupPath backupName) (s.databasePath dbName) dbName).run d with
  | ok base d' =>
      rw [run_bind_ok (run_onDisk_ok (s := { s with disk := d }) hbuild)] at hrun
      cases hrun
  | error e' d' =>
      obtain ⟨⟨what, rfl⟩, d'', hremoved, hgone⟩ := h.removed d e' d' hfound hbuild
      rw [run_bind_error (run_onDisk_error (s := { s with disk := d }) hbuild)] at hrun
      dsimp only at hrun
      rw [run_bind_ok (run_onDisk_ok (s := { s with disk := d' }) hremoved)] at hrun
      cases hrun
      have hsame (loc : Loc) : look d'' loc = look s.disk loc := by
        by_cases hloc : Path.place cwd (s.databasePath dbName) <+: loc
        · rw [hgone loc hloc, h.absent loc hloc]
        · exact houtside loc hloc
      exact ⟨⟨rfl, fun loc _ => hsame loc⟩, fun loc _ => hsame loc⟩

/-- DROP of a registered name forgets it first. -/
theorem deleteDatabase_error (hexception : e.isException = true)
    (hrun : (deleteDatabase fs dbName).run s = .error e s') :
    (s.nameBase.lookup dbName = none ∧ s' = s) ∨
      (s.nameBase.lookup dbName ≠ none ∧ s'.nameBase.lookup dbName = none) := by
  unfold deleteDatabase at hrun
  rw [run_bind_ok (EStateM.run_get s)] at hrun
  cases hid : s.nameBase.lookup dbName with
  | none =>
      rw [hid] at hrun
      cases hrun
      exact .inl ⟨rfl, rfl⟩
  | some id =>
      rw [hid] at hrun
      dsimp only at hrun
      refine .inr ⟨Option.some_ne_none id, ?_⟩
      have hfree : DiskFree fun t : System δ => t.nameBase.lookup dbName = none := fun _ _ h => h
      have hforgets : Triple (fun t : System δ => t = s) (do
          setSlot id none
          unregister dbName
          let dbPath := joinPath (← get).absolutePath dbName
          catchFilesystem (onDisk do
              if ← isExistingDirectory fs dbPath then fs.removeAll dbPath) fun what =>
            throw (.incorrectInput (str "Failed to delete database directory: " ++ what))
          return id : EStateM Fault (System δ) Nat) (fun _ _ => True)
          (fun e t => e.isException = true → t.nameBase.lookup dbName = none) := by
        refine Triple.bind (Q := fun _ _ => True) ?_ fun _ => ?_
        · refine triple_get fun t _ => triple_ite (fun _ => triple_modify fun _ _ => trivial) fun _ => ?_
          exact triple_throw fun _ _ h => by cases h
        · refine Triple.bind (Q := fun _ t => t.nameBase.lookup dbName = none) (triple_modify fun t _ => ?_) fun _ => ?_
          · exact (lookup_unregister t.nameBase dbName dbName).trans (if_pos rfl)
          · refine triple_get fun t _ => ?_
            refine Triple.bind (Q := fun _ _ => True) ?_ fun _ => triple_pure fun _ _ => trivial
            refine (triple_catchFilesystem (R := fun t => t.nameBase.lookup dbName = none)
              (triple_onDisk_true _ hfree) fun what => triple_throw fun _ h => h).conseq (fun _ h => h)
              (fun _ _ _ => trivial) fun _ _ h _ => h
      exact hforgets.error rfl hrun hexception

end
end System

/-- A failed RESTORE has lost nothing when there is no backup, or when the target was new and
the attempt could be removed. Over an open database it has lost nothing exactly if there is
no backup. A failed DROP has lost nothing exactly if nothing was registered. -/
theorem failed_commands_keep {δ : Type} {fs : FileSystem δ} {look : δ → Loc → Option (Node Text)} {cwd : Loc}
    (hfs : fs.Local look cwd) (os : Os) {s s' : System δ} (hroot : 0 ∉ s.absolutePath) {dbName : Text}
    {e : Fault} (hexception : e.isException = true) :
    (∀ backupName, (System.restoreDatabase fs os backupName dbName).run s = .error e s' →
      (s.HasBase dbName → (System.RestoreKept look cwd s s' backupName dbName ↔ System.NoBackup fs s backupName)) ∧
      (System.NoBackup fs s backupName ∨ System.CleansUp fs os look cwd s backupName dbName →
        System.RestoreKept look cwd s s' backupName dbName)) ∧
    ((System.deleteDatabase fs dbName).run s = .error e s' →
      (System.Kept look cwd s s' dbName ↔ s.nameBase.lookup dbName = none)) := by
  constructor
  · intro backupName hrun
    by_cases hbackup : System.NoBackup fs s backupName
    · have hkept := System.restoreDatabase_noBackup hfs os dbName hbackup
      rw [hrun] at hkept
      exact ⟨fun _ => iff_of_true hkept hbackup, fun _ => hkept⟩
    · constructor
      · intro hbase
        refine iff_of_false (fun hkept => ?_) hbackup
        exact System.restoreDatabase_lost hbase hbackup hrun hkept.registration
      · intro h
        exact System.restoreDatabase_cleaned hfs hroot (h.resolve_left hbackup) hbackup hrun
  · intro hrun
    rcases System.deleteDatabase_error hexception hrun with ⟨hnone, rfl⟩ | ⟨hsome, hnone⟩
    · exact iff_of_true ⟨rfl, fun _ _ => rfl⟩ hnone
    · refine iff_of_false (fun hkept => ?_) hsome
      have hsame := hkept.registration
      unfold System.registration at hsame
      rw [hnone, Option.map_none] at hsame
      exact hsome (Option.map_eq_none_iff.mp hsame.symm)

theorem Disk.look_absent {t : Disk} {top loc : Loc} (htop : top ≠ []) (h : ∀ p ∈ t, ¬ top <+: p.1)
    (hloc : top <+: loc) : FileTree.look t loc = none := by
  by_contra hsome
  obtain ⟨node, hnode⟩ := Option.ne_none_iff_exists'.mp hsome
  rcases FileTree.look_some hnode with ⟨rfl, -⟩ | hmem
  · exact htop (List.prefix_nil.mp hloc)
  · exact h _ hmem hloc

theorem isFileName_spare : IsFileName (str "spare") := by decide

theorem isFileName_backup : IsFileName (str "backup") := by decide

/-- A full disk: directories can be made, files cannot be copied. -/
def fullFiles : FileSystem Disk :=
  { Disk.files [] with copyFile := fun _ _ => throw (.filesystemError (str "cannot copy: ")) }

theorem fullFiles_local : fullFiles.Local FileTree.look [] :=
  { Disk.files_local [] with copyFile := fun _ _ => Disk.touches_quiet (fun _ => rfl) _ }

/-- A backup of one file beside a database. -/
def backedUpSystem : System Disk :=
  { shopSystem with disk :=
    ([sampleName "r" isFileName_r, sampleName "backup" isFileName_backup], .dir) ::
    ([sampleName "r" isFileName_r, sampleName "backup" isFileName_backup, sampleName "t" isFileName_t], .dir) ::
    ([sampleName "r" isFileName_r, sampleName "backup" isFileName_backup, sampleName "t" isFileName_t,
      sampleName "shop" isFileName_shop], .file []) :: shopSystem.disk }

def spareRestored : System Disk :=
  finalState ((System.restoreDatabase fullFiles .reliable (str "t") (str "spare")).run backedUpSystem)

def shopRestored : System Disk :=
  finalState ((System.restoreDatabase fullFiles .reliable (str "t") (str "shop")).run backedUpSystem)

theorem backedUp_found (path : Text) {d : Disk} {found : Bool}
    (h : (System.isExistingDirectory fullFiles path).run backedUpSystem.disk = .ok found d) :
    d = backedUpSystem.disk := by
  have hexists : (fullFiles.pathExists path).run backedUpSystem.disk =
    .ok (Disk.node [] backedUpSystem.disk path).isSome backedUpSystem.disk := rfl
  unfold System.isExistingDirectory at h
  rw [run_bind_ok hexists] at h
  cases hnode : (Disk.node [] backedUpSystem.disk path).isSome with
  | false =>
      rw [hnode] at h
      cases h
      rfl
  | true =>
      rw [hnode] at h
      cases h
      rfl

theorem failed_commands_keep_sample :
    System.RestoreKept FileTree.look [] backedUpSystem spareRestored (str "t") (str "spare") := by
  have hrun : (System.restoreDatabase fullFiles .reliable (str "t") (str "spare")).run backedUpSystem =
      .error (.incorrectInput (str "Restore failed: " ++ str "cannot copy: ")) spareRestored :=
    eq_error_of_fault (by decide +kernel)
  refine ((failed_commands_keep fullFiles_local .reliable (by decide) rfl).1 (str "t") hrun).2 (.inr ?_)
  refine ⟨isFileName_spare, by decide, fun loc hloc => ?_, fun d e d' hfound hbuild => ?_⟩
  · exact Disk.look_absent (by decide +kernel) (by decide +kernel) hloc
  · obtain rfl := backedUp_found _ hfound
    have hfails : (System.rebuild fullFiles .reliable (backedUpSystem.backupPath (str "t"))
        (backedUpSystem.databasePath (str "spare")) (str "spare")).run backedUpSystem.disk =
        .error (.filesystemError (str "cannot copy: ")) _ := eq_error_of_fault (by decide +kernel)
    rw [hfails] at hbuild
    cases hbuild
    refine ⟨⟨_, rfl⟩, _, eq_ok_of_isOk (by decide +kernel), fun loc hloc => ?_⟩
    exact Disk.look_absent (by decide +kernel) (by decide +kernel) hloc

/-- Restoring over an open database on a full disk closes it and removes its directory. -/
theorem failed_restore_loses : ¬ ∀ (fs : FileSystem Disk) (cwd : Loc), fs.Local FileTree.look cwd →
    ∀ (os : Os) (s s' : System Disk) (backupName dbName : Text) (e : Fault), e.isException = true →
      (System.restoreDatabase fs os backupName dbName).run s = .error e s' →
        System.RestoreKept FileTree.look cwd s s' backupName dbName := by
  intro h
  have hrun : (System.restoreDatabase fullFiles .reliable (str "t") (str "shop")).run backedUpSystem =
      .error (.incorrectInput (str "Restore failed: " ++ str "cannot copy: ")) shopRestored :=
    eq_error_of_fault (by decide +kernel)
  have hkept := h _ _ fullFiles_local _ _ _ _ _ _ rfl hrun
  have hgone := hkept.contents [sampleName "r" isFileName_r, sampleName "shop" isFileName_shop] (by decide +kernel)
  exact absurd hgone (by decide +kernel)

end SQLid
