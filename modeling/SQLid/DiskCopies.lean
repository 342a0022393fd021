import SQLid.Disk
import SQLid.Library.GrownTree
import SQLid.Restores

/-!
# Copies of directories

`copyTree` on a tree of files: below a new and empty directory it hangs a copy of all
that is below the old one, and nothing else changes.
-/
namespace SQLid
open Bytes (Text)
open CppText (str)
open FileTree (Node Tree Grown look put below graft isDir walk)
open Programs

namespace Disk
variable {cwd loc : Loc} {t : Disk}

/-- The path of a directory that is there. -/
structure Opens (cwd : Loc) (t : Disk) (path : Text) (loc : Loc) : Prop where
  zero : 0 ∉ path
  nonempty : path ≠ []
  find : find cwd t path = some loc
  dir : look t loc = some .dir

theorem Opens.place {path : Text} (h : Opens cwd t path loc) : Path.place cwd path = loc :=
  (find_place h.find).symm

theorem find_of_walk {path : Text} (hzero : 0 ∉ path) (hne : path ≠ []) :
    Disk.find cwd t path = walk t (Path.start cwd path) (Path.moves path) := by
  unfold Disk.find
  rw [if_neg]
  rwa [Path.cString_of_not_mem hzero]

/-- From the directory a path leads to, the names that follow are walked. -/
theorem Opens.find_joinPath {path rest : Text} (h : Opens cwd t path loc) (hzero : 0 ∉ rest)
    (hrest : rest ≠ []) (hhead : rest.head? ≠ some 47) :
    Disk.find cwd t (joinPath path rest) = walk t loc (Path.moves rest) := by
  have hjoin : 0 ∉ joinPath path rest := fun hin => (Path.zero_mem_joinPath hin).elim h.zero hzero
  have hwalk := h.find
  rw [find_of_walk h.zero h.nonempty] at hwalk
  rw [find_of_walk hjoin (Path.joinPath_ne_nil path hrest)]
  unfold joinPath
  rw [if_neg hhead]
  split_ifs with hend
  · simp only [h.nonempty, decide_false, Bool.false_or, decide_eq_true_eq] at hend
    obtain ⟨a, rfl⟩ : ∃ a, path = a ++ [47] := List.getLast?_eq_some_iff.mp hend
    have ha : 0 ∉ a := fun hin => h.zero (List.mem_append_left _ hin)
    have hstart : Path.start cwd (a ++ [47] ++ rest) = Path.start cwd (a ++ [47]) := by
      unfold Path.start
      cases a <;> rfl
    rw [Path.moves_slash ha, Path.moves_nil, FileTree.walk_append] at hwalk
    obtain ⟨l, hl, hstay⟩ := Option.bind_eq_some_iff.mp hwalk
    simp only [walk, FileTree.Move.apply] at hstay
    split_ifs at hstay
    cases hstay
    rw [hstart, List.append_assoc, List.singleton_append, Path.moves_slash ha, FileTree.walk_append, hl]
    rfl
  · rw [Path.slash_append, Path.start_slash cwd h.nonempty, Path.moves_slash h.zero, FileTree.walk_append, hwalk]
    rfl

theorem zero_relative (name : FileName) (names : List FileName) :
    0 ∉ Path.relative (name :: names) := by
  induction names generalizing name with
  | nil =>
      have hone : Path.relative [name] = name.text := by simp [Path.relative]
      rw [hone]
      exact name.valid.2.2.2.2
  | cons other names ih =>
      rw [Path.relative_cons]
      intro hin
      rcases List.mem_append.mp hin with hin | hin
      · exact name.valid.2.2.2.2 hin
      · exact ih other ((List.mem_cons.mp hin).resolve_left (by decide))

theorem relative_ne_nil (name : FileName) (names : List FileName) :
    Path.relative (name :: names) ≠ [] := by
  cases names with
  | nil =>
      have hone : Path.relative [name] = name.text := by simp [Path.relative]
      rw [hone]
      exact name.valid.1
  | cons other names =>
      rw [Path.relative_cons]
      exact List.append_ne_nil_of_right_ne_nil _ (List.cons_ne_nil _ _)

/-- A place below a directory, by the names that lead there. -/
theorem Opens.find_relative {path : Text} (h : Opens cwd t path loc) (hg : Grown t)
    {names : List FileName} (name : FileName) (hdir : look t (loc ++ names) = some .dir) :
    Disk.find cwd t (joinPath path (Path.relative (names ++ [name]))) = some (loc ++ (names ++ [name])) := by
  obtain ⟨first, rest, hnames⟩ := List.exists_cons_of_ne_nil (List.append_ne_nil_of_right_ne_nil names (List.cons_ne_nil name []))
  rw [hnames, h.find_joinPath (zero_relative _ _) (relative_ne_nil _ _) (Path.head_relative _ _),
    Path.moves_relative, ← hnames]
  exact hg.walk_down hdir

theorem Opens.mono {path : Text} {u : Disk} (h : Opens cwd t path loc)
    (hdir : ∀ l, look t l = some .dir → look u l = some .dir) : Opens cwd u path loc := by
  refine ⟨h.zero, h.nonempty, ?_, hdir loc h.dir⟩
  have hwalk := h.find
  rw [find_of_walk h.zero h.nonempty] at hwalk ⊢
  exact FileTree.walk_mono (fun l hl => FileTree.isDir_iff.mpr (hdir l (FileTree.isDir_iff.mp hl))) hwalk

/-- Only the last directory is missing. -/
theorem createAll_new {names : List FileName} {name : FileName}
    (hnew : look t (names ++ [name]) = none) (hdir : look t names = some .dir) :
    (createAll (names ++ [name]).reverse).run t = .ok () (put t (names ++ [name]) .dir) := by
  have hparent : (createAll names.reverse).run t = .ok () t := by
    cases hrev : names.reverse with
    | nil => rfl
    | cons first rest =>
        have hback : (first :: rest).reverse = names := by rw [← hrev, List.reverse_reverse]
        change createAll (first :: rest) t = _
        simp only [createAll]
        rw [hback, hdir]
  have hback : (name :: names.reverse).reverse = names ++ [name] := by
    rw [List.reverse_cons, List.reverse_reverse]
  rw [List.reverse_append, List.reverse_singleton, List.singleton_append]
  change createAll (name :: names.reverse) t = _
  simp only [createAll]
  rw [hback, hnew]
  exact run_bind_ok hparent

/-- An entry that is new in its place goes to the end of the list. -/
theorem copyEntry_run {source target : Text} {S T rel : Loc} {name : FileName} {node : Node Text}
    (hg : Grown t) (hS : Opens cwd t source S) (hT : Opens cwd t target T)
    (hentry : look t (S ++ (rel ++ [name])) = some node) (hdir : look t (T ++ rel) = some .dir)
    (hnew : look t (T ++ (rel ++ [name])) = none) :
    (System.copyEntry (files cwd) source target (Path.relative (rel ++ [name]), isDirNode node)).run t =
      .ok () (t ++ [(T ++ (rel ++ [name]), node)]) := by
  obtain ⟨first, rest, hnames⟩ :=
    List.exists_cons_of_ne_nil (List.append_ne_nil_of_right_ne_nil rel (List.cons_ne_nil name []))
  rw [← FileTree.put_absent hnew]
  cases node with
  | dir =>
      have hplace : Path.place cwd (joinPath target (Path.relative (rel ++ [name]))) = T ++ rel ++ [name] := by
        rw [hnames, Path.place_joinPath_relative cwd hT.zero, ← hnames, hT.place, List.append_assoc]
      change (createAll (Path.place cwd _).reverse).run t = _
      rw [hplace, ← List.append_assoc]
      refine createAll_new ?_ hdir
      rwa [List.append_assoc]
  | file text =>
      have hparent : look t (S ++ rel) = some .dir := by
        have hwhole : look t (S ++ rel ++ [name]) = some (.file text) := by rwa [List.append_assoc]
        exact hg.ancestor (List.cons_ne_nil name []) hwhole
      have hsource := hS.find_relative hg name hparent
      have htarget := hT.find_relative hg name hdir
      have hnode : Disk.node cwd t (joinPath source (Path.relative (rel ++ [name]))) = some (.file text) := by
        unfold Disk.node
        rw [hsource]
        exact hentry
      have hapart : ¬ (some (S ++ (rel ++ [name])) = some (T ++ (rel ++ [name]))) := by
        intro heq
        rw [Option.some.inj heq, hnew] at hentry
        cases hentry
      change copyFile cwd _ _ t = _
      unfold copyFile
      rw [hnode, htarget]
      dsimp only
      rw [hnew, hsource, if_neg hapart]

/-- What has been copied when the first entries of the list have been gone through. -/
def copied (t a : Disk) (S T : Loc) : Disk := t ++ (below a S).map fun e => (T ++ e.1, e.2)

theorem look_copied {a : Disk} {S T : Loc} (hempty : below t T = []) {rel : Loc} (hrel : rel ≠ []) :
    look (copied t a S T) (T ++ rel) = look a (S ++ rel) := by
  have hnone : t.lookup (T ++ rel) = none := by
    rw [← FileTree.lookup_below t T hrel, hempty]
    rfl
  unfold look copied
  rw [if_neg (by simp [hrel]), if_neg (by simp [hrel]), List.lookup_append, hnone,
    FileTree.lookup_shift, FileTree.lookup_below a S hrel]
  rfl

theorem below_snoc (a : Disk) (S : Loc) (e : Loc × Node Text) :
    below (a ++ [e]) S = below a S ++ below [e] S := by
  unfold below
  rw [List.filterMap_append]

theorem copyEntries_run {source target : Text} {S T : Loc} (hg : Grown t) (hS : Opens cwd t source S)
    (hT : Opens cwd t target T) (hempty : below t T = []) {a b : Disk} (hsplit : t = a ++ b)
    (hgrown : Grown (copied t a S T)) :
    Grown (copied t t S T) ∧ (System.copyEntries (files cwd) source target
      ((below b S).map fun e => (Path.relative e.1, isDirNode e.2))).run (copied t a S T) =
        .ok () (copied t t S T) := by
  induction b generalizing a with
  | nil =>
      rw [List.append_nil] at hsplit
      subst hsplit
      exact ⟨hgrown, rfl⟩
  | cons e b ih =>
      have hnext : t = (a ++ [e]) ++ b := by rw [hsplit, List.append_assoc]; rfl
      obtain ⟨key, node⟩ := e
      by_cases hkey : S <+: key ∧ key ≠ S
      · obtain ⟨⟨rel, rfl⟩, hne⟩ := hkey
        have hrel : rel ≠ [] := fun hnil => hne (by rw [hnil, List.append_nil])
        obtain ⟨r, name, rfl⟩ : ∃ r name, rel = r ++ [name] := ⟨_, _, (List.dropLast_append_getLast hrel).symm⟩
        have hmem : (S ++ (r ++ [name]), node) ∈ t := by
          rw [hsplit]
          exact List.mem_append_right a List.mem_cons_self
        have hparent := (hg.parent a _ b hsplit).2
        dsimp only at hparent
        rw [← List.append_assoc, List.dropLast_concat] at hparent
        have hfresh : look a (S ++ (r ++ [name])) = none := by
          have hnodup := hg.nodup
          rw [hsplit, List.map_append, List.map_cons] at hnodup
          refine FileTree.look_none_iff.mpr ⟨by simp, fun hin => ?_⟩
          exact (List.nodup_append.mp hnodup).2.2 _ hin _ List.mem_cons_self rfl
        have hnew : look (copied t a S T) (T ++ (r ++ [name])) = none := by
          rw [look_copied hempty hrel]
          exact hfresh
        have hdir : look (copied t a S T) (T ++ r) = some .dir := by
          by_cases hnil : r = []
          · rw [hnil, List.append_nil]
            exact FileTree.look_append_left hT.dir
          · rw [look_copied hempty hnil]
            exact hparent
        have hone : below [(S ++ (r ++ [name]), node)] S = [(r ++ [name], node)] := by
          simp [below]
        have hcons : below ((S ++ (r ++ [name]), node) :: b) S = (r ++ [name], node) :: below b S := by
          have happend : below ([(S ++ (r ++ [name]), node)] ++ b) S =
              below [(S ++ (r ++ [name]), node)] S ++ below b S := List.filterMap_append
          rw [hone] at happend
          exact happend
        have hmore : copied t (a ++ [(S ++ (r ++ [name]), node)]) S T =
            copied t a S T ++ [(T ++ (r ++ [name]), node)] := by
          unfold copied
          rw [below_snoc, hone, List.map_append, List.append_assoc]
          rfl
        have hgrown' : Grown (copied t (a ++ [(S ++ (r ++ [name]), node)]) S T) := by
          rw [hmore]
          refine hgrown.snoc hnew ?_ node
          rwa [← List.append_assoc, List.dropLast_concat]
        have hmono (l : Loc) (hl : look t l = some .dir) : look (copied t a S T) l = some .dir :=
          FileTree.look_append_left hl
        have hrun := copyEntry_run hgrown (hS.mono hmono) (hT.mono hmono)
          (FileTree.look_append_left (hg.look_of_mem hmem)) hdir hnew
        rw [← hmore] at hrun
        obtain ⟨hlast, hrest⟩ := ih hnext hgrown'
        refine ⟨hlast, ?_⟩
        rw [hcons, List.map_cons]
        exact (run_bind_ok hrun).trans hrest
      · have hnone : below [(key, node)] S = [] := by
          simp [below, hkey]
        have hskip : below ((key, node) :: b) S = below b S := by
          simp [below, hkey]
        have hsame : copied t (a ++ [(key, node)]) S T = copied t a S T := by
          unfold copied
          rw [below_snoc, hnone, List.append_nil]
        rw [← hsame] at hgrown ⊢
        rw [hskip]
        exact ih hnext hgrown

/-- Copying a directory into one that is empty. -/
theorem copyTree_run {source target : Text} {S T : Loc} (hg : Grown t) (hS : Opens cwd t source S)
    (hT : Opens cwd t target T) (hempty : below t T = []) :
    Grown (graft t S T) ∧
      (System.copyTree (files cwd) source target).run t = .ok () (graft t S T) := by
  have hlist : ((files cwd).recursiveDirectoryIterator source).run t =
      .ok ((below t S).map fun e => (Path.relative e.1, isDirNode e.2)) t := by
    change recursiveDirectoryIterator cwd source t = _
    unfold recursiveDirectoryIterator
    rw [hS.find]
    dsimp only
    rw [if_pos (FileTree.isDir_iff.mpr hS.dir)]
  have hstart : copied t [] S T = t := by simp [copied, below]
  obtain ⟨hgrown, hrun⟩ := copyEntries_run (a := []) (b := t) hg hS hT hempty rfl (by rwa [hstart])
  rw [hstart] at hrun
  refine ⟨hgrown, ?_⟩
  unfold System.copyTree
  exact (run_bind_ok hlist).trans hrun

end Disk
end SQLid
