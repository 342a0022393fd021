import Mathlib.Data.Fintype.EquivFin
import SQLid.Restores

/-!
# Targets that reach something else

A target that is not plain is accepted, or what it stands for is removed: there is a
disk with directories along both paths, and a file in the target's place that is gone
afterwards.
-/
namespace SQLid
open Bytes (Text)
open CppText (str)
open FileTree (Node Move look visited)
open Programs

theorem isFileName_marks (n : Nat) : IsFileName (List.replicate (n + 3) 120) := by
  refine ⟨List.cons_ne_nil _ _, fun h => ?_, fun h => ?_, fun h => ?_, fun h => ?_⟩
  · exact absurd (congrArg List.length h) (by simp [str])
  · exact absurd (congrArg List.length h) (by simp [str])
  · exact absurd (List.eq_of_mem_replicate h) (by decide)
  · exact absurd (List.eq_of_mem_replicate h) (by decide)

/-- There is always another name. -/
theorem exists_fresh (names : List FileName) : ∃ name, name ∉ names := by
  have hinj : Function.Injective fun n => (⟨_, isFileName_marks n⟩ : FileName) := by
    intro m n h
    have hlen := congrArg (fun name : FileName => name.text.length) h
    simpa using hlen
  have : Infinite FileName := .of_injective _ hinj
  obtain ⟨name, hname⟩ := Infinite.exists_notMem_finset names.toFinset
  exact ⟨name, fun h => hname (List.mem_toFinset.2 h)⟩

namespace Disk

/-- Only directories, none on a way through `fresh`. -/
def Bare (fresh : FileName) (t : Disk) : Prop := ∀ e ∈ t, e.2 = .dir ∧ fresh ∉ e.1

section Bare
variable {fresh : FileName} {t : Disk} {loc : Loc} {path : Text}

theorem Bare.look (h : Bare fresh t) {node : Node Text} (hlook : look t loc = some node) :
    node = .dir ∧ fresh ∉ loc := by
  rcases FileTree.look_some hlook with ⟨rfl, hnode⟩ | hmem
  · exact ⟨hnode, List.not_mem_nil⟩
  · exact h _ hmem

theorem Bare.put (h : Bare fresh t) (hloc : fresh ∉ loc) : Bare fresh (FileTree.put t loc .dir) := by
  intro e he
  rcases List.mem_append.1 he with he | he
  · exact h e (List.mem_filter.1 he).1
  · rw [List.mem_singleton] at he
    subst he
    exact ⟨rfl, hloc⟩

theorem bare_createAll {names : List FileName} (hnames : fresh ∉ names) (h : Bare fresh t) :
    Bare fresh (finalState ((createAll names).run t)) := by
  induction names with
  | nil => exact h
  | cons name names ih =>
      have hrest := ih fun hmem => hnames (List.mem_cons_of_mem name hmem)
      change Bare fresh (finalState (createAll (name :: names) t))
      simp only [createAll]
      cases FileTree.look t (name :: names).reverse with
      | some node => cases node <;> exact h
      | none =>
          dsimp only
          cases hrun : (createAll names).run t with
          | ok a t' =>
              rw [hrun] at hrest
              change Bare fresh (finalState ((createAll names >>= _).run t))
              rw [run_bind_ok hrun]
              exact hrest.put fun hmem => hnames (List.mem_reverse.1 hmem)
          | error e t' =>
              rw [hrun] at hrest
              change Bare fresh (finalState ((createAll names >>= _).run t))
              rw [run_bind_error hrun]
              exact hrest

theorem fresh_place (hmoves : .down fresh ∉ Path.moves path) : fresh ∉ Path.place [] path := by
  intro h
  have hstart : Path.start [] path = [] := ite_self []
  rcases FileTree.mem_place h with h | h
  · rw [hstart] at h
    cases h
  · exact hmoves h

theorem bare_createDirectory (hmoves : .down fresh ∉ Path.moves path) (h : Bare fresh t) :
    Bare fresh (finalState (((files []).createDirectory path).run t)) := by
  change Bare fresh (finalState ((createDirectory [] path).run t))
  have hfinal : _ ∨ finalState ((createDirectory [] path).run t) = _ := createDirectory_final path t
  rcases hfinal with heq | heq
  · rw [heq]
    exact h
  · rw [heq]
    exact h.put (fresh_place hmoves)

theorem bare_removeAll (h : Bare fresh t) :
    Bare fresh (finalState (((files []).removeAll path).run t)) := by
  change Bare fresh (finalState (removeAll [] path t))
  unfold removeAll
  split
  · exact h
  · split_ifs
    · exact fun e he => h e (List.mem_filter.1 he).1
    · exact fun e he => h e (List.mem_filter.1 he).1

theorem bare_copyEntries {source target : Text} (hmoves : .down fresh ∉ Path.moves target)
    {entries : List (List FileName × Node Text)}
    (hentries : ∀ e ∈ entries, e.1 ≠ [] ∧ e.2 = .dir ∧ fresh ∉ e.1) :
    Triple (Bare fresh) (System.copyEntries (files []) source target
      (entries.map fun e => (Path.relative e.1, isDirNode e.2))) (fun _ => Bare fresh)
      (fun _ => Bare fresh) := by
  induction entries with
  | nil => exact triple_pure fun _ h => h
  | cons e entries ih =>
      obtain ⟨rel, node⟩ := e
      obtain ⟨hrel, rfl, hfresh⟩ := hentries _ List.mem_cons_self
      obtain ⟨name, names, rfl⟩ := List.exists_cons_of_ne_nil hrel
      refine Triple.bind (Q := fun _ => Bare fresh) ?_ fun _ =>
        ih fun e he => hentries e (List.mem_cons_of_mem _ he)
      intro t h
      apply post_of_final
      change Bare fresh (finalState
        ((createAll (Path.place [] (joinPath target (Path.relative (name :: names)))).reverse).run t))
      apply bare_createAll ?_ h
      rw [List.mem_reverse]
      apply fresh_place
      intro hdown
      rcases Path.mem_moves_joinPath hdown with hdown | hdown
      · exact hmoves hdown
      · rw [Path.moves_relative] at hdown
        obtain ⟨name', hmem, hname'⟩ := List.mem_map.1 hdown
        cases hname'
        exact hfresh hmem

theorem bare_copyTree {source target : Text} (hmoves : .down fresh ∉ Path.moves target) :
    Triple (Bare fresh) (System.copyTree (files []) source target) (fun _ => Bare fresh)
      (fun _ => Bare fresh) := by
  intro t h
  have hrun : (System.copyTree (files []) source target).run t =
      ((files []).recursiveDirectoryIterator source >>=
        fun entries => System.copyEntries (files []) source target entries).run t := rfl
  rw [hrun]
  cases hfind : find [] t source with
  | none =>
      have hfail : ((files []).recursiveDirectoryIterator source).run t =
          .error (fault (str "recursive directory iterator: ")) t := by
        change recursiveDirectoryIterator [] source t = _
        simp only [recursiveDirectoryIterator, hfind]
      rw [run_bind_error hfail]
      exact .error h
  | some loc =>
      by_cases hdir : FileTree.isDir t loc = true
      · have hok : ((files []).recursiveDirectoryIterator source).run t =
            .ok ((FileTree.below t loc).map fun e => (Path.relative e.1, isDirNode e.2)) t := by
          change recursiveDirectoryIterator [] source t = _
          simp only [recursiveDirectoryIterator, hfind, hdir, if_true]
        rw [run_bind_ok hok]
        refine bare_copyEntries hmoves ?_ t h
        intro e he
        obtain ⟨hne, hmem⟩ := FileTree.mem_below.1 he
        obtain ⟨hnode, hfresh⟩ := h _ hmem
        exact ⟨hne, hnode, fun hin => hfresh (List.mem_append_right loc hin)⟩
      · have hfail : ((files []).recursiveDirectoryIterator source).run t =
            .error (fault (str "recursive directory iterator: ")) t := by
          change recursiveDirectoryIterator [] source t = _
          simp only [recursiveDirectoryIterator, hfind, hdir, Bool.false_eq_true, if_false]
        rw [run_bind_error hfail]
        exact .error h

/-- No table can be opened where there are no files. -/
theorem bare_construct (os : Os) (absoluteWay dbName : Text) : Triple (Bare fresh)
    (DataBase.construct (files []) os absoluteWay dbName) (fun _ => Bare fresh)
    (fun _ => Bare fresh) := by
  have hload (baseName : Text) : Triple (Bare fresh) (Tabble.load (files []) os baseName)
      (fun _ => Bare fresh) (fun _ => Bare fresh) := by
    intro t h
    have hnone : ((files []).readText (baseName ++ str "_info.db")).run t = .ok none t := by
      change readText [] _ t = _
      unfold readText
      split
      · rename_i text hnode
        obtain ⟨loc, -, hlook⟩ := Option.bind_eq_some_iff.1 hnode
        exact absurd (h.look hlook).1 (by simp)
      · rfl
    unfold Tabble.load
    rw [run_bind_ok hnone]
    exact .error h
  have htables (entries : List (Text × Bool)) (base : DataBase) : Triple (Bare fresh)
      (DataBase.openTabbles (files []) os base entries) (fun _ => Bare fresh)
      (fun _ => Bare fresh) := by
    induction entries generalizing base with
    | nil => exact triple_pure fun _ h => h
    | cons entry entries ih =>
        obtain ⟨name, isDirectory⟩ := entry
        cases isDirectory with
        | false => exact ih base
        | true =>
            refine Triple.bind (Q := fun _ => Bare fresh) ?_ fun base' => ih base'
            exact (hload _).bind fun table => triple_pure fun _ h => h
  have hlist : Triple (Bare fresh) ((files []).directoryIterator absoluteWay) (fun _ => Bare fresh)
      (fun _ => Bare fresh) := by
    intro t h
    apply post_of_final
    change Bare fresh (finalState ((directoryIterator [] absoluteWay).run t))
    rw [directoryIterator_final]
    exact h
  exact hlist.bind fun entries => htables entries _

end Bare

/-- Directories along two paths, and a file where the first one leads. -/
def reached (target source : Text) (fresh : FileName) : Disk :=
  (Path.place [] target ++ [fresh], .file []) ::
    (visited [] (Path.moves target) ++ visited [] (Path.moves source)).map fun l => (l, .dir)

section reached
variable {target source : Text} {fresh : FileName} (htarget : .down fresh ∉ Path.moves target)
  (hsource : .down fresh ∉ Path.moves source)
include htarget hsource

theorem fresh_visited {l : Loc}
    (h : l ∈ visited [] (Path.moves target) ++ visited [] (Path.moves source)) : fresh ∉ l := by
  intro hmem
  rcases List.mem_append.1 h with h | h
  · exact (FileTree.mem_visited h hmem).elim List.not_mem_nil htarget
  · exact (FileTree.mem_visited h hmem).elim List.not_mem_nil hsource

theorem isDir_visited {l : Loc}
    (h : l ∈ visited [] (Path.moves target) ++ visited [] (Path.moves source)) :
    FileTree.isDir (reached target source fresh) l = true := by
  rw [FileTree.isDir_iff]
  unfold look
  split_ifs with hroot
  · rfl
  · have hne : (l == Path.place [] target ++ [fresh]) = false := by
      rw [beq_eq_false_iff_ne]
      rintro rfl
      exact fresh_visited htarget hsource h (List.mem_append_right _ List.mem_cons_self)
    unfold reached
    rw [List.lookup_cons, hne]
    exact FileTree.lookup_dirs h

theorem node_reached {path : Text} (hpath : Path.cString path ≠ [])
    (h : ∀ l ∈ visited [] (Path.moves path),
      l ∈ visited [] (Path.moves target) ++ visited [] (Path.moves source)) :
    find [] (reached target source fresh) path = some (Path.place [] path) ∧
      node [] (reached target source fresh) path = some .dir := by
  have hstart : Path.start [] path = [] := ite_self []
  have hfind : find [] (reached target source fresh) path = some (Path.place [] path) := by
    unfold find Path.place
    rw [if_neg hpath, hstart, FileTree.walk_visited fun l hl => isDir_visited htarget hsource (h l hl)]
  refine ⟨hfind, ?_⟩
  unfold node
  rw [hfind, Option.bind_some, ← FileTree.isDir_iff]
  apply isDir_visited htarget hsource
  apply h
  unfold Path.place
  rw [hstart]
  exact FileTree.place_mem_visited [] _

/-- Removing what the target stands for leaves directories only. -/
theorem bare_remove_reached (hpath : Path.cString target ≠ []) :
    Bare fresh (finalState (((files []).removeAll target).run (reached target source fresh))) := by
  have hfind := (node_reached htarget hsource hpath fun l hl => List.mem_append_left _ hl).1
  have hothers {e : Loc × Node Text} (he : e ∈ reached target source fresh)
      (hne : e.1 ≠ Path.place [] target ++ [fresh]) : e.2 = .dir ∧ fresh ∉ e.1 := by
    rcases List.mem_cons.1 he with rfl | he
    · exact absurd rfl hne
    · obtain ⟨l, hl, rfl⟩ := List.mem_map.1 he
      exact ⟨rfl, fresh_visited htarget hsource hl⟩
  change Bare fresh (finalState (removeAll [] target (reached target source fresh)))
  unfold removeAll
  rw [hfind]
  dsimp only
  split_ifs
  · intro e he
    obtain ⟨hmem, hkept⟩ := List.mem_filter.1 he
    apply hothers hmem
    intro heq
    rw [heq] at hkept
    simp at hkept
  · intro e he
    obtain ⟨hmem, hkept⟩ := List.mem_filter.1 he
    apply hothers hmem
    intro heq
    rw [heq] at hkept
    simp at hkept

theorem rebuild_reached (os : Os) (dbName : Text) (hpath : Path.cString target ≠ []) :
    Triple (· = reached target source fresh) (System.rebuild (files []) os source target dbName)
      (fun _ => Bare fresh) (fun _ => Bare fresh) := by
  rintro t rfl
  have hnode := (node_reached htarget hsource hpath fun l hl => List.mem_append_left _ hl).2
  have hfound : ((files []).pathExists target).run (reached target source fresh) =
      .ok true (reached target source fresh) := by
    change EStateM.Result.ok (node [] (reached target source fresh) target).isSome _ = _
    rw [hnode]
    rfl
  have hrest : Triple (Bare fresh) (do
      let _ ← (files []).createDirectory target
      System.copyTree (files []) source target
      DataBase.construct (files []) os target dbName) (fun _ => Bare fresh) (fun _ => Bare fresh) := by
    refine Triple.bind (Q := fun _ => Bare fresh) ?_ fun made => ?_
    · exact fun t h => post_of_final (bare_createDirectory htarget h)
    · exact (bare_copyTree htarget).bind fun _ => bare_construct os _ _
  have hremove : Triple (· = reached target source fresh) ((files []).removeAll target)
      (fun _ => Bare fresh) (fun _ => Bare fresh) := by
    rintro t rfl
    exact post_of_final (bare_remove_reached htarget hsource hpath)
  unfold System.rebuild
  rw [run_bind_ok hfound]
  exact (hremove.bind fun _ => hrest) _ rfl

end reached
end Disk

open Disk (files reached)

section restore
variable {root backupName dbName : Text} {fresh : FileName} {disk : Disk}
  (htarget : .down fresh ∉ Path.moves (joinPath root dbName))
  (hsource : .down fresh ∉ Path.moves (joinPath (joinPath root System.backUpName) backupName))
  (htargetPath : Path.cString (joinPath root dbName) ≠ [])
  (hsourcePath : Path.cString (joinPath (joinPath root System.backUpName) backupName) ≠ [])
  (hdisk : disk = reached (joinPath root dbName)
    (joinPath (joinPath root System.backUpName) backupName) fresh)
include htarget hsource hsourcePath hdisk

theorem isExistingDirectory_reached :
    (System.isExistingDirectory (files [])
      (joinPath (joinPath root System.backUpName) backupName)).run disk = .ok true disk := by
  have hnode := (Disk.node_reached htarget hsource hsourcePath fun l hl => List.mem_append_right _ hl).2
  rw [← hdisk] at hnode
  have hfound : ((files []).pathExists (joinPath (joinPath root System.backUpName) backupName)).run
      disk = .ok true disk := by
    change EStateM.Result.ok (Disk.node [] disk _).isSome disk = _
    rw [hnode]
    rfl
  unfold System.isExistingDirectory
  rw [run_bind_ok hfound, if_pos rfl]
  change EStateM.Result.ok ((Disk.node [] disk _).any Disk.isDirNode) disk = _
  rw [hnode]
  rfl

include htargetPath

/-- On this disk the file is gone, whatever the answer. -/
theorem restoreDatabase_reached (os : Os) :
    Disk.Bare fresh (finalState ((System.restoreDatabase (files []) os backupName dbName).run
      ⟨root, [], [], disk⟩)).disk := by
  have hfound := isExistingDirectory_reached htarget hsource hsourcePath hdisk
  have hrebuild := Disk.rebuild_reached htarget hsource os dbName htargetPath
  rw [← hdisk] at hrebuild
  have hremove : Triple (Disk.Bare fresh) ((files []).removeAll (joinPath root dbName))
      (fun _ => Disk.Bare fresh) (fun _ => Disk.Bare fresh) :=
    fun t h => post_of_final (Disk.bare_removeAll h)
  have hcatch : Triple (fun s : System Disk => s.disk = disk)
      (System.catchFilesystem (do
          let base ← System.onDisk (System.rebuild (files []) os
            (joinPath (joinPath root System.backUpName) backupName) (joinPath root dbName) dbName)
          System.register dbName base) fun what => do
        System.onDisk ((files []).removeAll (joinPath root dbName))
        throw (.incorrectInput (str "Restore failed: " ++ what)))
      (fun _ s => Disk.Bare fresh s.disk) (fun _ s => Disk.Bare fresh s.disk) := by
    refine System.triple_catchFilesystem (Q := fun _ s => Disk.Bare fresh s.disk)
      (R := fun s => Disk.Bare fresh s.disk) ?_ fun what => ?_
    · refine Triple.bind (Q := fun _ s => Disk.Bare fresh s.disk) ?_ fun base =>
        triple_modify fun _ h => h
      exact triple_zoom fun s hs => hrebuild s.disk hs
    · exact (System.triple_onDisk_disk hremove).bind fun _ => triple_throw fun _ h => h
  have hrun : (System.onDisk (System.isExistingDirectory (files [])
      (joinPath (joinPath root System.backUpName) backupName))).run (⟨root, [], [], disk⟩ : System Disk) =
        .ok true ⟨root, [], [], disk⟩ := by
    unfold System.onDisk
    rw [run_zoom, hfound]
  unfold System.restoreDatabase
  rw [run_bind_ok (EStateM.run_get _), run_bind_ok hrun]
  exact @Triple.final Fault (System Disk) Unit (fun s => s.disk = disk)
    (fun s => Disk.Bare fresh s.disk) _ hcatch ⟨root, [], [], disk⟩ rfl

end restore

/-- A name no part of the paths has leads nowhere along them. -/
theorem exists_new (root backupName dbName : Text) : ∃ fresh : FileName,
    .down fresh ∉ Path.moves (joinPath root dbName) ∧
      .down fresh ∉ Path.moves (joinPath (joinPath root System.backUpName) backupName) ∧
        .down fresh ∉ Path.moves dbName := by
  obtain ⟨fresh, hfresh⟩ := exists_fresh
    ((Path.moves (joinPath root dbName) ++
      (Path.moves (joinPath (joinPath root System.backUpName) backupName) ++
        Path.moves dbName)).filterMap fun
      | .down name => some name
      | _ => none)
  have hnew (h : .down fresh ∈ Path.moves (joinPath root dbName) ++
      (Path.moves (joinPath (joinPath root System.backUpName) backupName) ++ Path.moves dbName)) :
      False := hfresh (List.mem_filterMap.2 ⟨_, h, rfl⟩)
  refine ⟨fresh, fun h => hnew ?_, fun h => hnew ?_, fun h => hnew ?_⟩
  · exact List.mem_append_left _ h
  · exact List.mem_append_right _ (List.mem_append_left _ h)
  · exact List.mem_append_right _ (List.mem_append_right _ h)

/-- What a restore that is contained says of its target. -/
theorem plain_of_restore_contained {root backupName dbName : Text} (hroot : Path.cString root ≠ [])
    (h : RestoreContained root backupName dbName) : 0 ∉ root ∧ IsPlain dbName := by
  obtain ⟨fresh, htarget, hsource, hname⟩ := exists_new root backupName dbName
  obtain ⟨disk, hdisk⟩ : ∃ disk, disk = reached (joinPath root dbName)
    (joinPath (joinPath root System.backUpName) backupName) fresh := ⟨_, rfl⟩
  have htargetPath := Path.cString_joinPath hroot dbName
  have hsourcePath := Path.cString_joinPath (Path.cString_joinPath hroot System.backUpName) backupName
  have hbare := restoreDatabase_reached htarget hsource htargetPath hsourcePath hdisk .reliable
  have hcontained := h Disk (files []) look [] (Disk.files_local []) .reliable
    ⟨root, [], [], disk⟩ rfl ⟨disk, isExistingDirectory_reached htarget hsource hsourcePath hdisk⟩
  have hbefore : look disk (Path.place [] (joinPath root dbName) ++ [fresh]) = some (.file []) := by
    rw [hdisk]
    unfold look reached
    rw [if_neg (by simp), List.lookup_cons_self]
  have hchanged : ¬ look (finalState
      ((System.restoreDatabase (files []) .reliable backupName dbName).run ⟨root, [], [], disk⟩)).disk
        (Path.place [] (joinPath root dbName) ++ [fresh]) =
      look disk (Path.place [] (joinPath root dbName) ++ [fresh]) := by
    intro heq
    rw [hbefore] at heq
    exact absurd (hbare.look heq).1 (by simp)
  rcases hcontained with ⟨-, hsame⟩ | ⟨name, rfl, hplain, hsame⟩
  · exact absurd (hsame _) hchanged
  · refine ⟨fun hzero => hchanged (hsame _ fun hinside => ?_), hplain⟩
    rw [Path.place_joinPath_zero [] hzero (Path.head_fileName name)] at hinside
    obtain rfl : name = fresh := by
      have hsame := List.append_cancel_left (hinside.eq_of_length (by simp))
      exact (List.cons_eq_cons.1 hsame).1
    rw [Path.moves_fileName] at hname
    exact hname List.mem_cons_self

/-- A restore is contained on every disk exactly if its target is plain. -/
theorem restore_contained_iff {root : Text} (hroot : Path.cString root ≠ []) (backupName dbName : Text) :
    RestoreContained root backupName dbName ↔ 0 ∉ root ∧ IsPlain dbName := by
  constructor
  · exact plain_of_restore_contained hroot
  · exact fun h => restore_contained_of_plain h.1 h.2

theorem restore_contained_iff_sample : RestoreContained (str "/r") (str "old") (str "shop") :=
  (restore_contained_iff (by decide +kernel) (str "old") (str "shop")).2 (by decide +kernel)

/-! The name behind `AS` is missing. -/

def sampleName (text : String) (h : IsFileName (str text)) : FileName := ⟨str text, h⟩

/-- A backup, and a database with a file. -/
def sampleDisk : Disk :=
  [([sampleName "r" (by decide)], .dir),
    ([sampleName "r" (by decide), sampleName "backup" (by decide)], .dir),
    ([sampleName "r" (by decide), sampleName "backup" (by decide), sampleName "old" (by decide)], .dir),
    ([sampleName "r" (by decide), sampleName "shop" (by decide)], .dir),
    ([sampleName "r" (by decide), sampleName "shop" (by decide), sampleName "notes" (by decide)],
      .file (str "note"))]

/-- The root directory is emptied and the command fails. -/
theorem restore_empties_root :
    CommandsParser.parse (CppText.words (str "RESTORE old AS")) =
        .ok (.restoreDatabase (str "old") []) ∧
      ¬ RestoreContained (str "/r") (str "old") [] := by
  refine ⟨by decide +kernel, fun h => ?_⟩
  have hcontained := h Disk (files []) look [] (Disk.files_local []) .reliable
    ⟨str "/r", [], [], sampleDisk⟩ rfl ⟨sampleDisk, rfl⟩
  rcases hcontained with ⟨-, hsame⟩ | ⟨name, hname, -, -⟩
  · have hlost := hsame [sampleName "r" (by decide), sampleName "shop" (by decide),
      sampleName "notes" (by decide)]
    exact absurd hlost (by decide +kernel)
  · exact name.valid.1 hname
end SQLid
