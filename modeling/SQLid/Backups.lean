import SQLid.DiskCopies
import SQLid.Registry

/-!
# Backups on a disk

BACKUP either is refused and changes nothing, or leaves a copy of the directory of the
database, file by file, in the backup area and nothing else.
-/
namespace SQLid
open Bytes (Text)
open CppText (str)
open FileTree (Node Tree Grown look put below graft isDir walk)
open Programs

namespace Disk
variable {cwd R : Loc} {t : Disk} {root : Text}

/-- A name below a directory. -/
theorem Opens.find_name (h : Opens cwd t root R) (name : FileName) :
    Disk.find cwd t (joinPath root name.text) = some (R ++ [name]) := by
  rw [h.find_joinPath name.valid.2.2.2.2 name.valid.1 (Path.head_fileName name), Path.moves_fileName]
  simp only [walk, FileTree.Move.apply]
  rw [if_pos (FileTree.isDir_iff.mpr h.dir)]

theorem Opens.name (h : Opens cwd t root R) {name : FileName} (hdir : look t (R ++ [name]) = some .dir) :
    Opens cwd t (joinPath root name.text) (R ++ [name]) :=
  ⟨fun hin => (Path.zero_mem_joinPath hin).elim h.zero name.valid.2.2.2.2,
    Path.joinPath_ne_nil root name.valid.1, h.find_name name, hdir⟩

theorem Opens.node_name (h : Opens cwd t root R) (name : FileName) :
    Disk.node cwd t (joinPath root name.text) = look t (R ++ [name]) := by
  unfold Disk.node
  rw [h.find_name name]
  rfl

/-- What stands in front of a path that does not start over. -/
theorem joinPath_front (root : Text) : ∃ a, ∀ b : Text, b.head? ≠ some 47 → joinPath root b = a ++ b := by
  by_cases hend : (root = [] || root.getLast? = some 47) = true
  · refine ⟨root, fun b hb => ?_⟩
    unfold joinPath
    rw [if_neg hb, if_pos hend]
  · refine ⟨root ++ str "/", fun b hb => ?_⟩
    unfold joinPath
    rw [if_neg hb, if_neg hend]

theorem last_name (name : FileName) : ∃ first last, name.text = first ++ [last] ∧ last ≠ 47 := by
  refine ⟨_, _, (List.dropLast_append_getLast name.valid.1).symm, fun hlast => ?_⟩
  exact name.valid.2.2.2.1 (hlast ▸ List.getLast_mem name.valid.1)

/-- A name has no slash at its end. -/
theorem slashless_append {a : Text} (hzero : 0 ∉ a) (name : FileName) : slashless (a ++ name.text) = a ++ name.text := by
  have hname : 0 ∉ a ++ name.text := fun hin => (List.mem_append.mp hin).elim hzero name.valid.2.2.2.2
  obtain ⟨first, last, htext, hlast⟩ := last_name name
  unfold slashless
  rw [Path.cString_of_not_mem hname, htext, ← List.append_assoc, List.reverse_append, List.reverse_singleton,
    List.singleton_append, List.dropWhile_cons_of_neg (by simpa using hlast), List.reverse_cons, List.reverse_reverse]

theorem slashless_name (hroot : 0 ∉ root) (name : FileName) :
    slashless (joinPath root name.text) = joinPath root name.text := by
  obtain ⟨a, hjoin⟩ := joinPath_front root
  have hfront := hjoin _ (Path.head_fileName name)
  rw [hfront]
  refine slashless_append (fun hin => ?_) name
  have hzero : 0 ∈ joinPath root name.text := by
    rw [hfront]
    exact List.mem_append_left _ hin
  exact (Path.zero_mem_joinPath hzero).elim hroot name.valid.2.2.2.2

/-- Two names joined one after the other. -/
theorem joinPath_joinPath (root : Text) (name name' : FileName) :
    joinPath (joinPath root name.text) name'.text = joinPath root (Path.relative [name, name']) := by
  obtain ⟨first, last, hname, hlast⟩ := last_name name
  obtain ⟨a, hjoin⟩ := joinPath_front root
  have hend : ¬ ((a ++ name.text = [] || (a ++ name.text).getLast? = some 47) = true) := by
    rw [hname, ← List.append_assoc]
    simpa using hlast
  have hrel : Path.relative [name, name'] = name.text ++ str "/" ++ name'.text := by
    simp [Path.relative, List.intercalate]
  rw [hjoin _ (Path.head_relative name [name']), hjoin _ (Path.head_fileName name), hrel]
  unfold joinPath
  rw [if_neg (Path.head_fileName name'), if_neg hend, List.append_assoc, List.append_assoc, List.append_assoc]

/-- Nothing is made where something is. -/
theorem Opens.createDirectory_there (h : Opens cwd t root R) {name : FileName} {node : Node Text}
    (hthere : look t (R ++ [name]) = some node) :
    (createDirectory cwd (joinPath root name.text)).run t = .ok false t ∨
      ∃ e, (createDirectory cwd (joinPath root name.text)).run t = .error e t := by
  have hnode := h.node_name name
  rw [hthere] at hnode
  change createDirectory cwd _ t = _ ∨ ∃ e, createDirectory cwd _ t = _
  unfold createDirectory
  rw [hnode]
  cases node with
  | dir => exact .inl rfl
  | file text => exact .inr ⟨_, rfl⟩

theorem Opens.createDirectory_absent (h : Opens cwd t root R) {name : FileName}
    (habsent : look t (R ++ [name]) = none) :
    (createDirectory cwd (joinPath root name.text)).run t = .ok true (t ++ [(R ++ [name], .dir)]) := by
  have hnode := h.node_name name
  rw [habsent] at hnode
  change createDirectory cwd _ t = _
  unfold createDirectory
  rw [hnode]
  dsimp only
  rw [slashless_name h.zero, h.find_name name]
  dsimp only
  rw [habsent, FileTree.put_absent habsent]

/-- A directory in a directory, unless there is something or nothing to make it in. -/
theorem Opens.createDirectory_inside (h : Opens cwd t root R) (area b : FileName) :
    ((createDirectory cwd (joinPath (joinPath root area.text) b.text)).run t = .ok false t ∨
        ∃ e, (createDirectory cwd (joinPath (joinPath root area.text) b.text)).run t = .error e t) ∨
      look t (R ++ [area]) = some .dir ∧ look t (R ++ [area] ++ [b]) = none ∧
        (createDirectory cwd (joinPath (joinPath root area.text) b.text)).run t =
          .ok true (t ++ [(R ++ [area] ++ [b], .dir)]) := by
  by_cases harea : look t (R ++ [area]) = some .dir
  · have hopens := h.name harea
    cases hthere : look t (R ++ [area] ++ [b]) with
    | some node => exact .inl (hopens.createDirectory_there hthere)
    | none => exact .inr ⟨harea, rfl, hopens.createDirectory_absent hthere⟩
  · have hzero : 0 ∉ joinPath root area.text := fun hin =>
      (Path.zero_mem_joinPath hin).elim h.zero area.valid.2.2.2.2
    have hfind : Disk.find cwd t (joinPath (joinPath root area.text) b.text) = none := by
      rw [joinPath_joinPath, h.find_joinPath (zero_relative _ _) (relative_ne_nil _ _)
        (Path.head_relative _ _), Path.moves_relative]
      change (if isDir t R then if isDir t (R ++ [area]) then some (R ++ [area] ++ [b]) else none else none) = none
      rw [if_pos (FileTree.isDir_iff.mpr h.dir), if_neg fun hd => harea (FileTree.isDir_iff.mp hd)]
    have hnode : Disk.node cwd t (joinPath (joinPath root area.text) b.text) = none := by
      unfold Disk.node
      rw [hfind]
      rfl
    refine .inl (.inr ⟨fault (str "cannot create directory: "), ?_⟩)
    change createDirectory cwd _ t = _
    unfold createDirectory
    rw [hnode]
    dsimp only
    rw [slashless_name hzero, hfind]

/-- The directory that was made is there, empty, and all else is as before. -/
theorem made_dir (hg : Grown t) {name : FileName} (hdir : look t R = some .dir)
    (habsent : look t (R ++ [name]) = none) :
    Grown (t ++ [(R ++ [name], .dir)]) ∧ look (t ++ [(R ++ [name], .dir)]) (R ++ [name]) = some .dir ∧
      below (t ++ [(R ++ [name], .dir)]) (R ++ [name]) = [] ∧
      ∀ loc, loc ≠ R ++ [name] → look (t ++ [(R ++ [name], .dir)]) loc = look t loc := by
  have hgrown : Grown (t ++ [(R ++ [name], .dir)]) := by
    refine hg.snoc habsent ?_ .dir
    rwa [List.dropLast_concat]
  rw [← FileTree.put_absent habsent] at hgrown ⊢
  refine ⟨hgrown, FileTree.look_put_self (by simp), ?_, fun loc hloc => FileTree.look_put_other hloc⟩
  rw [FileTree.put_absent habsent]
  have hold : below t (R ++ [name]) = [] := by
    apply hg.below_nil
    rw [habsent]
    simp
  have hone : below ([(R ++ [name], .dir)] : Disk) (R ++ [name]) = [] := by simp [below]
  rw [below_snoc, hold, hone]
  rfl

end Disk

namespace System
variable {cwd R : Loc} {s : System Disk}

theorem run_isExistingDirectory (cwd : Loc) (t : Disk) (path : Text) :
    ∃ found, (isExistingDirectory (Disk.files cwd) path).run t = .ok found t ∧
      (found = true ↔ Disk.node cwd t path = some .dir) := by
  cases hnode : Disk.node cwd t path with
  | none =>
      have hexists : ((Disk.files cwd).pathExists path).run t = .ok false t := by
        change EStateM.Result.ok (Disk.node cwd t path).isSome t = _
        rw [hnode]
        rfl
      refine ⟨false, run_bind_ok hexists, ?_⟩
      simp
  | some node =>
      have hexists : ((Disk.files cwd).pathExists path).run t = .ok true t := by
        change EStateM.Result.ok (Disk.node cwd t path).isSome t = _
        rw [hnode]
        rfl
      have hdir : ((Disk.files cwd).isDirectory path).run t = .ok (Disk.isDirNode node) t := by
        change EStateM.Result.ok ((Disk.node cwd t path).any Disk.isDirNode) t = _
        rw [hnode]
        rfl
      refine ⟨Disk.isDirNode node, (run_bind_ok hexists).trans hdir, ?_⟩
      cases node <;> simp [Disk.isDirNode]

theorem run_throwIf_false {δ : Type} {c : Prop} [Decidable c] {e : Fault} (h : ¬ c) (s : System δ) :
    (throwIf c e).run s = .ok () s := by
  unfold throwIf
  rw [if_neg h]
  rfl

theorem run_throwIf_true {δ : Type} {c : Prop} [Decidable c] {e : Fault} (h : c) (s : System δ) :
    (throwIf c e).run s = .error e s := by
  unfold throwIf
  rw [if_pos h]
  rfl

theorem isFileName_backUpName : IsFileName backUpName := by decide

/-- The place of the backups. -/
def areaName : FileName := ⟨backUpName, isFileName_backUpName⟩

/-- The copy BACKUP makes: a new directory and all that is below the old one. -/
def backedUp (t : Disk) (source target : Loc) : Disk := graft (t ++ [(target, .dir)]) source target

/-- BACKUP either is refused with nothing changed, or it makes the copy. -/
theorem backUpDatabase_run (hg : Grown s.disk) (hroot : Disk.Opens cwd s.disk s.absolutePath R)
    {area : FileName} (harea : area.text = backUpName) (db b : FileName) :
    (∃ e, (backUpDatabase (Disk.files cwd) db.text b.text).run s = .error e s) ∨
      look s.disk (R ++ [db]) = some .dir ∧ look s.disk (R ++ [area]) = some .dir ∧
      look s.disk (R ++ [area] ++ [b]) = none ∧ Grown (backedUp s.disk (R ++ [db]) (R ++ [area] ++ [b])) ∧
      (backUpDatabase (Disk.files cwd) db.text b.text).run s =
        .ok () { s with disk := backedUp s.disk (R ++ [db]) (R ++ [area] ++ [b]) } := by
  have hstart : (backUpDatabase (Disk.files cwd) db.text b.text).run s = _ :=
    run_bind_ok (EStateM.run_get s)
  rw [hstart]
  by_cases hname : s.nameBase.lookup db.text = none
  · exact .inl ⟨_, run_bind_error (run_throwIf_true hname s)⟩
  rw [run_bind_ok (run_throwIf_false hname s)]
  by_cases hvalid : b.text = [] ∨ hasInvalidCharacter b.text
  · exact .inl ⟨_, run_bind_error (run_throwIf_true hvalid s)⟩
  rw [run_bind_ok (run_throwIf_false hvalid s)]
  obtain ⟨found, hfound, hdir⟩ := run_isExistingDirectory cwd s.disk (joinPath s.absolutePath db.text)
  rw [run_bind_ok (run_onDisk_ok hfound)]
  cases found with
  | false => exact .inl ⟨_, run_bind_error (run_throwIf_true rfl s)⟩
  | true =>
      rw [run_bind_ok (run_throwIf_false (by simp) _)]
      have hsource : look s.disk (R ++ [db]) = some .dir := by
        rw [← hroot.node_name db]
        exact hdir.mp rfl
      rw [← harea]
      rcases hroot.createDirectory_inside area b with hrefused | ⟨hplace, hnew, hmade⟩
      · rcases hrefused with hrefused | ⟨e, hrefused⟩
        · rw [run_bind_ok (run_onDisk_ok (x := (Disk.files cwd).createDirectory _) hrefused)]
          exact .inl ⟨_, run_bind_error (run_throwIf_true rfl _)⟩
        · exact .inl ⟨e, run_bind_error (run_onDisk_error (x := (Disk.files cwd).createDirectory _) hrefused)⟩
      · obtain ⟨hg', hdir', hempty, hother⟩ := Disk.made_dir hg hplace hnew
        have hmono (l : Loc) (hl : look s.disk l = some .dir) :
            look (s.disk ++ [(R ++ [area] ++ [b], .dir)]) l = some .dir := FileTree.look_append_left hl
        have htarget := ((hroot.mono hmono).name (hmono _ hplace)).name hdir'
        obtain ⟨hgrown, hcopy⟩ := Disk.copyTree_run hg' ((hroot.mono hmono).name (hmono _ hsource)) htarget hempty
        refine .inr ⟨hsource, hplace, hnew, hgrown, ?_⟩
        rw [run_bind_ok (run_onDisk_ok (x := (Disk.files cwd).createDirectory _) hmade), run_bind_ok (run_throwIf_false (by simp) _)]
        unfold catchFilesystem
        rw [run_tryCatch, run_onDisk_ok hcopy]
        rfl

section copies
variable {t : Disk} {source target : Loc} {name : FileName}

/-- The copy shows what the directory shows, from the directory itself down. -/
theorem look_backedUp (hg : Grown t) (hdir : look t target = some .dir) (hsource : look t source = some .dir)
    (habsent : look t (target ++ [name]) = none) (hout : ¬ source <+: target ++ [name]) (rel : Loc) :
    look (backedUp t source (target ++ [name])) (target ++ [name] ++ rel) = look t (source ++ rel) := by
  obtain ⟨-, hmade, hempty, hother⟩ := Disk.made_dir hg hdir habsent
  have hne : source ++ rel ≠ target ++ [name] := fun heq => hout ⟨rel, heq⟩
  by_cases hrel : rel = []
  · rw [hrel, List.append_nil, List.append_nil, hsource]
    unfold backedUp
    rw [FileTree.look_graft_other (by simp), hmade]
  · unfold backedUp
    rw [FileTree.look_graft hempty hrel, hother _ hne]

theorem look_backedUp_other {loc : Loc} (hg : Grown t) (hdir : look t target = some .dir)
    (habsent : look t (target ++ [name]) = none) (hloc : ¬ target ++ [name] <+: loc) :
    look (backedUp t source (target ++ [name])) loc = look t loc := by
  obtain ⟨-, -, -, hother⟩ := Disk.made_dir hg hdir habsent
  unfold backedUp
  rw [FileTree.look_graft_other fun h => hloc h.1]
  refine hother loc ?_
  rintro rfl
  exact hloc (List.prefix_refl _)

end copies

/-- Two names in one directory lead apart. -/
theorem names_apart {R : Loc} {name name' : FileName} (h : name ≠ name') (rest rest' : Loc) :
    ¬ R ++ [name] ++ rest <+: R ++ [name'] ++ rest' := by
  rintro ⟨tail, htail⟩
  rw [List.append_assoc, List.append_assoc, List.append_assoc] at htail
  have hcons := List.append_cancel_left htail
  rw [List.singleton_append, List.singleton_append, List.cons.injEq] at hcons
  exact h hcons.1

/-- BACKUP of a database other than the backup area is refused with nothing changed, or puts in
the area a directory that was not there, with a copy of every file of the database; all
else on the disk, and the registry, is as it was. -/
theorem backup_copies (hg : Grown s.disk) (hroot : Disk.Opens cwd s.disk s.absolutePath R)
    {area : FileName} (harea : area.text = backUpName) {db : FileName} (hdb : db ≠ area) (b : FileName) :
    (∃ e, (backUpDatabase (Disk.files cwd) db.text b.text).run s = .error e s) ∨
      ∃ d, (backUpDatabase (Disk.files cwd) db.text b.text).run s = .ok () { s with disk := d } ∧
        Grown d ∧ look s.disk (R ++ [area] ++ [b]) = none ∧ look d (R ++ [area] ++ [b]) = some .dir ∧
        (∀ rel, look d (R ++ [area] ++ [b] ++ rel) = look s.disk (R ++ [db] ++ rel)) ∧
        ∀ loc, ¬ R ++ [area] ++ [b] <+: loc → look d loc = look s.disk loc := by
  rcases backUpDatabase_run hg hroot harea db b with hrefused | ⟨hsource, hplace, hnew, hgrown, hrun⟩
  · exact .inl hrefused
  · have hout : ¬ R ++ [db] <+: R ++ [area] ++ [b] := by
      have hapart := names_apart (R := R) hdb [] [b]
      rwa [List.append_nil] at hapart
    refine .inr ⟨_, hrun, hgrown, hnew, ?_, fun rel => ?_, fun loc hloc => ?_⟩
    · have hself := look_backedUp hg hplace hsource hnew hout []
      rwa [List.append_nil, List.append_nil, hsource] at hself
    · exact look_backedUp hg hplace hsource hnew hout rel
    · exact look_backedUp_other hg hplace hnew hloc

theorem isFileName_shopName : IsFileName (str "shop") := by decide

theorem isFileName_oldName : IsFileName (str "old") := by decide

def shopName : FileName := ⟨str "shop", isFileName_shopName⟩
def oldName : FileName := ⟨str "old", isFileName_oldName⟩

theorem isFileName_tableName : IsFileName (str "t") := by decide

theorem isFileName_infoName : IsFileName (str "t_info.db") := by decide

theorem isFileName_storageName : IsFileName (str "t_storage.db") := by decide

def tableName : FileName := ⟨str "t", isFileName_tableName⟩
def infoName : FileName := ⟨str "t_info.db", isFileName_infoName⟩
def storageName : FileName := ⟨str "t_storage.db", isFileName_storageName⟩

/-- A hundred lines of one number, the first with a row. -/
def storedLines : Text := [1, 7, 0, 0, 0] ++ List.replicate 495 0

def schemaLines : Text := str "5\n1\nn\nINT32\n"

/-- A database with one table, and the place of the backups. -/
def storeDisk : Disk :=
  [([shopName], .dir), ([areaName], .dir), ([shopName, tableName], .dir),
    ([shopName, tableName, infoName], .file schemaLines),
    ([shopName, tableName, storageName], .file storedLines)]

/-- The database has been opened. -/
def storeSystem : System Disk where
  absolutePath := str "/"
  bases := [value ((DataBase.construct (Disk.files []) .reliable (str "/shop") (str "shop")).run storeDisk)]
  nameBase := [(str "shop", 0)]
  disk := storeDisk

theorem storeDisk_grown : Grown storeDisk := by
  have hshop : Grown ([] ++ [([shopName], .dir)] : Disk) := FileTree.grown_nil.snoc (by decide) rfl .dir
  have harea : Grown ([([shopName], .dir)] ++ [([areaName], .dir)] : Disk) :=
    hshop.snoc (by decide) rfl .dir
  have htable : Grown ([([shopName], .dir), ([areaName], .dir)] ++ [([shopName, tableName], .dir)] : Disk) :=
    harea.snoc (by decide) rfl .dir
  have hinfo : Grown ([([shopName], .dir), ([areaName], .dir), ([shopName, tableName], .dir)] ++
      [([shopName, tableName, infoName], .file schemaLines)] : Disk) :=
    htable.snoc (by decide) rfl (.file schemaLines)
  exact hinfo.snoc (by decide) rfl (.file storedLines)

/-- The rows of the table are in the backup, and where they were. -/
theorem backup_copies_sample : ∃ d,
    (backUpDatabase (Disk.files []) shopName.text oldName.text).run storeSystem =
      .ok () { storeSystem with disk := d } ∧
    look d [areaName, oldName, tableName, storageName] = some (.file storedLines) ∧
    look d [shopName, tableName, storageName] = some (.file storedLines) := by
  have hroot : Disk.Opens [] storeSystem.disk storeSystem.absolutePath [] := ⟨by decide, by decide, rfl, rfl⟩
  have hne : shopName ≠ areaName := fun h => absurd (congrArg FileName.text h) (by decide)
  have hstored : look storeDisk [shopName, tableName, storageName] = some (.file storedLines) := by
    decide +kernel
  have hok : isOk ((backUpDatabase (Disk.files []) shopName.text oldName.text).run storeSystem) = true := by
    decide +kernel
  rcases backup_copies storeDisk_grown hroot rfl hne oldName with ⟨e, hrefused⟩ | ⟨d, hrun, -, -, -, hcopy, hother⟩
  · rw [hrefused] at hok
    cases hok
  · refine ⟨d, hrun, (hcopy [tableName, storageName]).trans hstored, (hother _ ?_).trans hstored⟩
    decide

end System
end SQLid
