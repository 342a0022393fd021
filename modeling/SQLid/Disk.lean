import SQLid.Paths

/-!
# Disks

What the calls of a file system without links may change, whatever their outcome, and
a disk that is a tree of files, on which no call fails without a reason of its own.
-/
namespace SQLid
open Bytes (Text)
open CppText (str)
open FileTree (Node Tree look put prune clear isDir)
open Programs

section Local
variable {δ : Type}

/-- Whatever the outcome, what stands elsewhere stays. -/
def Touches {α : Type} (look : δ → Loc → Option (Node Text)) (S : Loc → Prop)
    (x : EStateM Fault δ α) : Prop :=
  ∀ d loc, ¬ S loc → look (finalState (x.run d)) loc = look d loc

/-- A call changes what its path stands for: one place, for a removal with all below it,
and missing directories are made below one that is there. -/
structure FileSystem.Local (fs : FileSystem δ) (look : δ → Loc → Option (Node Text)) (cwd : Loc) :
    Prop where
  pathExists : ∀ path, Touches look (fun _ => False) (fs.pathExists path)
  isDirectory : ∀ path, Touches look (fun _ => False) (fs.isDirectory path)
  isEmpty : ∀ path, Touches look (fun _ => False) (fs.isEmpty path)
  readText : ∀ path, Touches look (fun _ => False) (fs.readText path)
  directoryIterator : ∀ path, Touches look (fun _ => False) (fs.directoryIterator path)
  recursiveDirectoryIterator : ∀ path,
    Touches look (fun _ => False) (fs.recursiveDirectoryIterator path)
  createDirectory : ∀ path, Touches look (· = Path.place cwd path) (fs.createDirectory path)
  copyFile : ∀ source path, Touches look (· = Path.place cwd path) (fs.copyFile source path)
  writeText : ∀ path text, Touches look (· = Path.place cwd path) (fs.writeText path text)
  openStorage : ∀ path, Touches look (· = Path.place cwd path) (fs.openStorage path)
  removeAll : ∀ path, Touches look (Path.place cwd path <+: ·) (fs.removeAll path)
  createDirectories : ∀ path d top, top <+: Path.place cwd path → look d top = some .dir →
    ∀ loc, ¬ (top <+: loc ∧ loc ≠ top) →
      look (finalState ((fs.createDirectories path).run d)) loc = look d loc
  created : ∀ path d made d', (fs.createDirectory path).run d = .ok made d' →
    look d' (Path.place cwd path) = some .dir
  names : ∀ path d entries d', (fs.directoryIterator path).run d = .ok entries d' →
    ∀ e ∈ entries, ∃ name : FileName, e.1 = name.text
  relatives : ∀ path d entries d', (fs.recursiveDirectoryIterator path).run d = .ok entries d' →
    ∀ e ∈ entries, ∃ (name : FileName) (names : List FileName), e.1 = Path.relative (name :: names)

end Local

abbrev Disk := Tree FileName Text

namespace Disk

/-- The place of a path whose directories are there. -/
def find (cwd : Loc) (t : Disk) (path : Text) : Option Loc :=
  if Path.cString path = [] then none
  else FileTree.walk t (Path.start cwd path) (Path.moves path)

def node (cwd : Loc) (t : Disk) (path : Text) : Option (Node Text) := (find cwd t path).bind (look t)

/-- `mkdir` takes a path with slashes at its end. -/
def slashless (path : Text) : Text := ((Path.cString path).reverse.dropWhile (· = 47)).reverse

/-- `rmdir` refuses a path whose last name is `.` or `..`, and the root. -/
def endsInDots (path : Text) : Bool :=
  match ((Path.cString path).splitOn 47).filter (fun part => part ≠ []) |>.getLast? with
  | none => true
  | some part => part = str "." || part = str ".."

def fault (what : Text) : Fault := .filesystemError what

def createDirectory (cwd : Loc) (path : Text) : EStateM Fault Disk Bool := fun t =>
  match node cwd t path with
  | some .dir => .ok false t
  | some (.file _) => .error (fault (str "cannot create directory: ")) t
  | none =>
      match find cwd t (slashless path) with
      | none => .error (fault (str "cannot create directory: ")) t
      | some loc =>
          match look t loc with
          | none => .ok true (put t loc .dir)
          | some _ => .error (fault (str "cannot create directory: ")) t

/-- The missing directories of a path, from its last name back to one that is there;
the names come last first. -/
def createAll : List FileName → EStateM Fault Disk Unit
  | [] => pure ()
  | name :: names => fun t =>
      match look t (name :: names).reverse with
      | some .dir => .ok () t
      | some (.file _) => .error (fault (str "cannot create directories: ")) t
      | none => ((do
          createAll names
          modify fun t => put t (name :: names).reverse .dir) : EStateM Fault Disk Unit) t

def createDirectories (cwd : Loc) (path : Text) : EStateM Fault Disk Unit :=
  createAll (Path.place cwd path).reverse

def copyFile (cwd : Loc) (source path : Text) : EStateM Fault Disk Unit := fun t =>
  match node cwd t source, find cwd t path with
  | some (.file text), some loc =>
      match look t loc with
      | some .dir => .error (fault (str "cannot copy: ")) t
      | _ =>
          if find cwd t source = some loc then .error (fault (str "cannot copy: ")) t
          else .ok () (put t loc (.file text))
  | _, _ => .error (fault (str "cannot copy: ")) t

def removeAll (cwd : Loc) (path : Text) : EStateM Fault Disk Unit := fun t =>
  match find cwd t path with
  | none => .ok () t
  | some loc =>
      if endsInDots path ∨ loc = [] then .error (fault (str "cannot remove all: ")) (clear t loc)
      else .ok () (prune t loc)

def isDirNode : Node Text → Bool
  | .dir => true
  | .file _ => false

def directoryIterator (cwd : Loc) (path : Text) : EStateM Fault Disk (List (Text × Bool)) := fun t =>
  match find cwd t path with
  | none => .error (fault (str "directory iterator: ")) t
  | some loc =>
      if isDir t loc then
        .ok ((FileTree.children t loc).map fun e => (e.1.text, isDirNode e.2)) t
      else .error (fault (str "directory iterator: ")) t

def recursiveDirectoryIterator (cwd : Loc) (path : Text) : EStateM Fault Disk (List (Text × Bool)) :=
  fun t =>
    match find cwd t path with
    | none => .error (fault (str "recursive directory iterator: ")) t
    | some loc =>
        if isDir t loc then
          .ok ((FileTree.below t loc).map fun e => (Path.relative e.1, isDirNode e.2)) t
        else .error (fault (str "recursive directory iterator: ")) t

def readText (cwd : Loc) (path : Text) : EStateM Fault Disk (Option Text) := fun t =>
  match node cwd t path with
  | some (.file text) => .ok (some text) t
  | _ => .ok none t

def writeText (cwd : Loc) (path text : Text) : EStateM Fault Disk Unit := fun t =>
  match find cwd t path with
  | none => .ok () t
  | some loc => if isDir t loc then .ok () t else .ok () (put t loc (.file text))

def fileBytes (text : Text) : ByteFile := ⟨text.length, fun k => text.getD k 0⟩

def openStorage (cwd : Loc) (path : Text) : EStateM Fault Disk (ByteFile × Nat) := fun t =>
  match find cwd t path with
  | none => .error (.runtimeError (str "Cannot open file: " ++ path)) t
  | some loc =>
      match look t loc with
      | some .dir => .error (.runtimeError (str "Cannot open file: " ++ path)) t
      | some (.file text) => .ok (fileBytes text, 0) t
      | none => .ok (.empty, 0) (put t loc (.file []))

/-- The calls on a tree, for a program started in this directory. -/
def files (cwd : Loc) : FileSystem Disk where
  pathExists path := fun t => .ok (node cwd t path).isSome t
  isDirectory path := fun t => .ok ((node cwd t path).any isDirNode) t
  isEmpty path := fun t =>
    match find cwd t path with
    | none => .error (fault (str "cannot check if path is empty: ")) t
    | some loc =>
        match look t loc with
        | none => .error (fault (str "cannot check if path is empty: ")) t
        | some .dir => .ok (FileTree.children t loc).isEmpty t
        | some (.file text) => .ok text.isEmpty t
  createDirectory := createDirectory cwd
  createDirectories := createDirectories cwd
  copyFile := copyFile cwd
  removeAll := removeAll cwd
  directoryIterator := directoryIterator cwd
  recursiveDirectoryIterator := recursiveDirectoryIterator cwd
  readText := readText cwd
  writeText := writeText cwd
  openStorage := openStorage cwd

/-! The laws. -/

variable {cwd : Loc} {t : Disk} {path : Text} {loc : Loc}

theorem find_place (h : find cwd t path = some loc) : loc = Path.place cwd path := by
  unfold find at h
  split_ifs at h with hnil
  exact FileTree.walk_place h

theorem createAll_inside (names : List FileName) {top : Loc} (htop : top <+: names.reverse)
    (hdir : look t top = some .dir) {l : Loc} (hl : ¬ (top <+: l ∧ l ≠ top)) :
    look (finalState ((createAll names).run t)) l = look t l := by
  induction names with
  | nil => rfl
  | cons name names ih =>
      change look (finalState (createAll (name :: names) t)) l = _
      simp only [createAll]
      cases hnode : look t (name :: names).reverse with
      | some node => cases node <;> rfl
      | none =>
          have hne : top ≠ (name :: names).reverse := by
            rintro rfl
            rw [hnode] at hdir
            cases hdir
          have hother : l ≠ (name :: names).reverse := by
            rintro rfl
            exact hl ⟨htop, hne.symm⟩
          have hinit : top <+: names.reverse := by
            rw [List.reverse_cons] at htop hne
            exact (List.prefix_concat_iff.1 htop).resolve_left hne
          have hbefore := ih hinit
          dsimp only
          cases hrun : (createAll names).run t with
          | ok a t' =>
              rw [hrun] at hbefore
              change look (finalState ((createAll names >>= _).run t)) l = _
              rw [run_bind_ok hrun]
              exact (FileTree.look_put_other hother).trans hbefore
          | error e t' =>
              rw [hrun] at hbefore
              change look (finalState ((createAll names >>= _).run t)) l = _
              rw [run_bind_error hrun]
              exact hbefore

theorem place_slashes (loc : Loc) (k : Nat) :
    FileTree.place loc (Path.moves (List.replicate k 47)) = loc := by
  induction k with
  | zero => rfl
  | succ k ih =>
      have hsplit := Path.moves_slash (List.not_mem_nil (a := 0)) (List.replicate k 47)
      rw [List.nil_append] at hsplit
      rw [List.replicate_succ, hsplit, FileTree.place_append, Path.moves_nil]
      exact ih

theorem place_trailing {a : Text} (hzero : 0 ∉ a) (hne : a ≠ []) (k : Nat) :
    Path.place cwd (a ++ List.replicate k 47) = Path.place cwd a := by
  cases k with
  | zero => rw [List.replicate_zero, List.append_nil]
  | succ k =>
      have hstart : Path.start cwd (a ++ List.replicate (k + 1) 47) = Path.start cwd a := by
        cases a with
        | nil => exact absurd rfl hne
        | cons b a => rfl
      unfold Path.place
      rw [hstart, List.replicate_succ, Path.moves_slash hzero, FileTree.place_append, place_slashes]

theorem place_cString : Path.place cwd (Path.cString path) = Path.place cwd path := by
  have hzero : 0 ∉ Path.cString path := fun h => by simpa using List.mem_takeWhile_imp h
  unfold Path.place Path.moves
  rw [Path.cString_of_not_mem hzero]
  have hstart : Path.start cwd (Path.cString path) = Path.start cwd path := by
    unfold Path.start Path.cString
    cases path with
    | nil => rfl
    | cons b path =>
        by_cases hb : b = 0
        · subst hb
          rfl
        · simp [hb]
  rw [hstart]

theorem place_slashless (h : slashless path ≠ []) :
    Path.place cwd (slashless path) = Path.place cwd path := by
  have hall : (Path.cString path).reverse.takeWhile (· = 47) =
      List.replicate ((Path.cString path).reverse.takeWhile (· = 47)).length 47 := by
    apply List.eq_replicate_of_mem
    intro b hb
    simpa using List.mem_takeWhile_imp hb
  have hsplit : Path.cString path = slashless path ++
      List.replicate ((Path.cString path).reverse.takeWhile (· = 47)).length 47 := by
    have hparts := congrArg List.reverse
      (List.takeWhile_append_dropWhile (p := (· = 47)) (l := (Path.cString path).reverse))
    rw [List.reverse_append, List.reverse_reverse, hall, List.reverse_replicate] at hparts
    exact hparts.symm
  have hzero : 0 ∉ slashless path := by
    intro hmem
    have hin : 0 ∈ Path.cString path := by
      rw [hsplit]
      exact List.mem_append_left _ hmem
    simpa using List.mem_takeWhile_imp hin
  have hwhole : Path.place cwd path = Path.place cwd (Path.cString path) := place_cString.symm
  rw [hwhole, hsplit, place_trailing hzero h]

theorem find_slashless (h : find cwd t (slashless path) = some loc) : loc = Path.place cwd path := by
  have hne : slashless path ≠ [] := by
    intro hnil
    rw [hnil] at h
    cases h
  rw [← place_slashless hne]
  exact find_place h

theorem createDirectory_final (path : Text) (t : Disk) :
    finalState ((createDirectory cwd path).run t) = t ∨
      finalState ((createDirectory cwd path).run t) = put t (Path.place cwd path) .dir := by
  change finalState (createDirectory cwd path t) = t ∨ finalState (createDirectory cwd path t) = _
  unfold createDirectory
  split
  · exact .inl rfl
  · exact .inl rfl
  · split
    · exact .inl rfl
    · rename_i hfind
      split
      · rw [find_slashless hfind]
        exact .inr rfl
      · exact .inl rfl

theorem createDirectory_made {made : Bool} {t t' : Disk}
    (h : (createDirectory cwd path).run t = .ok made t') :
    look t' (Path.place cwd path) = some .dir := by
  change createDirectory cwd path t = _ at h
  unfold createDirectory at h
  split at h
  · rename_i hnode
    cases h
    obtain ⟨loc, hfind, hdir⟩ := Option.bind_eq_some_iff.1 hnode
    rw [← find_place hfind, hdir]
  · cases h
  · split at h
    · cases h
    · rename_i hfind
      split at h
      · rename_i hnone
        cases h
        have hroot : Path.place cwd path ≠ [] := by
          rw [← find_slashless hfind]
          rintro rfl
          cases hnone
        rw [find_slashless hfind]
        exact FileTree.look_put_self hroot
      · cases h

theorem touches_quiet {α : Type} {x : EStateM Fault Disk α} (h : ∀ t, finalState (x.run t) = t)
    (S : Loc → Prop) : Touches look S x := by
  intro t loc _
  rw [h t]

theorem touches_put {α : Type} {x : EStateM Fault Disk α} {at' : Loc}
    (h : ∀ t, finalState (x.run t) = t ∨ ∃ node, finalState (x.run t) = put t at' node) :
    Touches look (· = at') x := by
  intro t loc hloc
  rcases h t with h | ⟨node, h⟩
  · rw [h]
  · rw [h, FileTree.look_put_other hloc]

theorem copyFile_final (source path : Text) (t : Disk) :
    finalState ((copyFile cwd source path).run t) = t ∨
      ∃ node, finalState ((copyFile cwd source path).run t) = put t (Path.place cwd path) node := by
  change finalState (copyFile cwd source path t) = t ∨ ∃ node, finalState (copyFile cwd source path t) = _
  unfold copyFile
  split
  · rename_i hfind
    rw [find_place hfind]
    split
    · exact .inl rfl
    · split_ifs
      · exact .inl rfl
      · exact .inr ⟨_, rfl⟩
  · exact .inl rfl

variable (cwd) in
theorem writeText_final (path text : Text) (t : Disk) :
    finalState ((writeText cwd path text).run t) = t ∨
      ∃ node, finalState ((writeText cwd path text).run t) = put t (Path.place cwd path) node := by
  change finalState (writeText cwd path text t) = t ∨ ∃ node, finalState (writeText cwd path text t) = _
  unfold writeText
  split
  · exact .inl rfl
  · rename_i hfind
    rw [find_place hfind]
    split_ifs
    · exact .inl rfl
    · exact .inr ⟨_, rfl⟩

theorem openStorage_final (path : Text) (t : Disk) :
    finalState ((openStorage cwd path).run t) = t ∨
      ∃ node, finalState ((openStorage cwd path).run t) = put t (Path.place cwd path) node := by
  change finalState (openStorage cwd path t) = t ∨ ∃ node, finalState (openStorage cwd path t) = _
  unfold openStorage
  split
  · exact .inl rfl
  · rename_i hfind
    rw [find_place hfind]
    split
    · exact .inl rfl
    · exact .inl rfl
    · exact .inr ⟨_, rfl⟩

theorem touches_removeAll (path : Text) :
    Touches look (Path.place cwd path <+: ·) (removeAll cwd path) := by
  intro t loc hloc
  change look (finalState (removeAll cwd path t)) loc = _
  unfold removeAll
  split
  · rfl
  · rename_i hfind
    rw [find_place hfind]
    split_ifs
    · exact FileTree.look_clear_outside fun h => hloc h.1
    · exact FileTree.look_prune_outside hloc

theorem directoryIterator_final (path : Text) (t : Disk) :
    finalState ((directoryIterator cwd path).run t) = t := by
  change finalState (directoryIterator cwd path t) = t
  unfold directoryIterator
  split
  · rfl
  · split_ifs <;> rfl

theorem recursiveDirectoryIterator_final (path : Text) (t : Disk) :
    finalState ((recursiveDirectoryIterator cwd path).run t) = t := by
  change finalState (recursiveDirectoryIterator cwd path t) = t
  unfold recursiveDirectoryIterator
  split
  · rfl
  · split_ifs <;> rfl

theorem readText_final (path : Text) (t : Disk) : finalState ((readText cwd path).run t) = t := by
  change finalState (readText cwd path t) = t
  unfold readText
  split <;> rfl

theorem isEmpty_final (path : Text) (t : Disk) : finalState (((files cwd).isEmpty path).run t) = t := by
  change finalState ((files cwd).isEmpty path t) = t
  simp only [files]
  split
  · rfl
  · split <;> rfl

theorem directoryIterator_names {entries : List (Text × Bool)} {t t' : Disk}
    (h : (directoryIterator cwd path).run t = .ok entries t') (e : Text × Bool) (he : e ∈ entries) :
    ∃ name : FileName, e.1 = name.text := by
  change directoryIterator cwd path t = _ at h
  unfold directoryIterator at h
  split at h
  · cases h
  · split_ifs at h
    cases h
    obtain ⟨⟨name, node⟩, -, rfl⟩ := List.mem_map.1 he
    exact ⟨name, rfl⟩

theorem recursiveDirectoryIterator_relatives {entries : List (Text × Bool)} {t t' : Disk}
    (h : (recursiveDirectoryIterator cwd path).run t = .ok entries t') (e : Text × Bool)
    (he : e ∈ entries) :
    ∃ (name : FileName) (names : List FileName), e.1 = Path.relative (name :: names) := by
  change recursiveDirectoryIterator cwd path t = _ at h
  unfold recursiveDirectoryIterator at h
  split at h
  · cases h
  · split_ifs at h
    cases h
    obtain ⟨⟨rel, node⟩, hmem, rfl⟩ := List.mem_map.1 he
    obtain ⟨name, names, rfl⟩ := List.exists_cons_of_ne_nil (FileTree.mem_below.1 hmem).1
    exact ⟨name, names, rfl⟩

theorem files_local (cwd : Loc) : (files cwd).Local look cwd where
  pathExists _ := touches_quiet (fun _ => rfl) _
  isDirectory _ := touches_quiet (fun _ => rfl) _
  isEmpty path := touches_quiet (isEmpty_final path) _
  readText path := touches_quiet (readText_final path) _
  directoryIterator path := touches_quiet (directoryIterator_final path) _
  recursiveDirectoryIterator path := touches_quiet (recursiveDirectoryIterator_final path) _
  createDirectory path := touches_put fun t => (createDirectory_final path t).imp_right fun h => ⟨_, h⟩
  copyFile source path := touches_put (copyFile_final source path)
  writeText path text := touches_put (writeText_final cwd path text)
  openStorage path := touches_put (openStorage_final path)
  removeAll := touches_removeAll
  createDirectories path t top htop hdir loc hloc :=
    createAll_inside (Path.place cwd path).reverse (by rwa [List.reverse_reverse]) hdir hloc
  created _ _ _ _ h := createDirectory_made h
  names _ _ _ _ h := directoryIterator_names h
  relatives _ _ _ _ h := recursiveDirectoryIterator_relatives h

end Disk
end SQLid
