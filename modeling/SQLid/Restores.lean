import SQLid.Disk
import SQLid.Registry

/-!
# What a restore changes on the disk

Restoring a plain name works inside the directory of that name, whatever fails on the
way. Any other target reaches something else.
-/
namespace SQLid
open Bytes (Text)
open CppText (str)
open FileTree (Node)
open Programs

/-- A name `createDataBase` takes, that is no link of a directory and not the backup area. -/
def IsPlain (name : Text) : Prop :=
  IsFileName name ∧ hasInvalidCharacter name = false ∧ name ≠ System.backUpName

instance (name : Text) : Decidable (IsPlain name) :=
  inferInstanceAs (Decidable (_ ∧ _ ∧ _))

/-- An ending of more than two bytes makes a name of any text without slash and zero. -/
theorem isFileName_ending {text tail : Text} (hlength : 3 ≤ tail.length) (hslash : 47 ∉ text ++ tail)
    (hzero : 0 ∉ text ++ tail) : IsFileName (text ++ tail) := by
  have hlong : 3 ≤ (text ++ tail).length := by
    rw [List.length_append]
    exact Nat.le_trans hlength (Nat.le_add_left _ _)
  refine ⟨fun h => ?_, fun h => ?_, fun h => ?_, hslash, hzero⟩
  · rw [h] at hlong
    exact absurd hlong (by decide)
  · rw [h] at hlong
    exact absurd hlong (by decide)
  · rw [h] at hlong
    exact absurd hlong (by decide)

theorem isFileName_storage (name : FileName) : IsFileName (name.text ++ str "_storage.db") := by
  obtain ⟨text, -, -, -, hslash, hzero⟩ := name
  refine isFileName_ending (by decide) (fun h => ?_) fun h => ?_
  · exact (List.mem_append.1 h).elim hslash (by decide)
  · exact (List.mem_append.1 h).elim hzero (by decide)

section Agree
variable {δ : Type} {look : δ → Loc → Option (Node Text)}

/-- What stands outside of a region is as it was. -/
def Agree (look : δ → Loc → Option (Node Text)) (R : Loc → Prop) (v : Loc → Option (Node Text))
    (d : δ) : Prop := ∀ loc, ¬ R loc → look d loc = v loc

variable {R S : Loc → Prop} {v : Loc → Option (Node Text)} {α : Type} {x : EStateM Fault δ α}

theorem Touches.keeps (h : Touches look S x) (hS : ∀ loc, S loc → R loc) :
    Triple (Agree look R v) x (fun _ => Agree look R v) (fun _ => Agree look R v) := by
  intro d hd
  apply post_of_final
  intro loc hloc
  rw [h d loc fun hS' => hloc (hS loc hS'), hd loc hloc]

theorem Touches.quiet (h : Touches look (fun _ => False) x) :
    Triple (Agree look R v) x (fun _ => Agree look R v) (fun _ => Agree look R v) :=
  h.keeps fun _ hfalse => hfalse.elim

end Agree

section Local
variable {δ : Type} {fs : FileSystem δ} {look : δ → Loc → Option (Node Text)} {cwd top : Loc}
  {v : Loc → Option (Node Text)}

/-- The region strictly below a directory. -/
def Below (top loc : Loc) : Prop := top <+: loc ∧ loc ≠ top

/-- The directory is there and what stands outside of it is as it was. -/
abbrev Rebuilt (look : δ → Loc → Option (Node Text)) (top : Loc) (v : Loc → Option (Node Text)) :
    δ → Prop := Agree look (Below top) (Function.update v top (some .dir))

theorem Rebuilt.agree {d : δ} (h : Rebuilt look top v d) : Agree look (top <+: ·) v d := by
  intro loc hloc
  have hne : loc ≠ top := by
    rintro rfl
    exact hloc (List.prefix_refl loc)
  rw [h loc fun hbelow => hloc hbelow.1, Function.update_of_ne hne]

theorem Rebuilt.dir {d : δ} (h : Rebuilt look top v d) : look d top = some .dir := by
  rw [h top fun hbelow => hbelow.2 rfl, Function.update_self]

theorem below_append (top : Loc) (name : FileName) (names : List FileName) :
    Below top (top ++ name :: names) :=
  ⟨List.prefix_append top _, fun h => List.cons_ne_nil name names (List.append_right_eq_self.1 h)⟩

section rebuild
variable (hfs : fs.Local look cwd) {target : Text} (hzero : 0 ∉ target)
  (htop : Path.place cwd target = top)
include hfs htop

theorem createDirectory_rebuilt : Triple (Agree look (top <+: ·) v) (fs.createDirectory target)
    (fun _ => Rebuilt look top v) (fun _ => Agree look (top <+: ·) v) := by
  intro d hd
  have hplace := hfs.createDirectory target d
  rw [htop] at hplace
  have hkept (loc : Loc) (hloc : loc ≠ top) (hout : ¬ top <+: loc) :
      look (finalState ((fs.createDirectory target).run d)) loc = v loc := by
    rw [hplace loc hloc, hd loc hout]
  cases hrun : (fs.createDirectory target).run d with
  | ok made d' =>
      rw [hrun] at hkept
      have hdir := hfs.created target d made d' hrun
      rw [htop] at hdir
      apply Post.ok
      intro loc hloc
      by_cases hat : loc = top
      · rw [hat, hdir, Function.update_self]
      · rw [Function.update_of_ne hat]
        exact hkept loc hat fun hpre => hloc ⟨hpre, hat⟩
  | error e d' =>
      rw [hrun] at hkept
      apply Post.error
      intro loc hloc
      have hat : loc ≠ top := by
        rintro rfl
        exact hloc (List.prefix_refl loc)
      exact hkept loc hat hloc

include hzero

theorem copyEntry_rebuilt (source : Text) {entry : Text × Bool}
    (hentry : ∃ (name : FileName) (names : List FileName), entry.1 = Path.relative (name :: names)) :
    Triple (Rebuilt look top v) (System.copyEntry fs source target entry)
      (fun _ => Rebuilt look top v) (fun _ => Rebuilt look top v) := by
  obtain ⟨name, names, hname⟩ := hentry
  have hplace : Path.place cwd (joinPath target entry.1) = top ++ name :: names := by
    rw [hname, Path.place_joinPath_relative cwd hzero, htop]
  unfold System.copyEntry
  refine triple_ite (fun _ => ?_) fun _ => ?_
  · intro d hd
    apply post_of_final
    intro loc hloc
    rw [hfs.createDirectories _ d top (by rw [hplace]; exact List.prefix_append top _) hd.dir loc hloc,
      hd loc hloc]
  · apply (hfs.copyFile _ _).keeps
    rintro loc rfl
    rw [hplace]
    exact below_append top name names

theorem copyEntries_rebuilt (source : Text) {entries : List (Text × Bool)}
    (hentries : ∀ e ∈ entries, ∃ (name : FileName) (names : List FileName),
      e.1 = Path.relative (name :: names)) :
    Triple (Rebuilt look top v) (System.copyEntries fs source target entries)
      (fun _ => Rebuilt look top v) (fun _ => Rebuilt look top v) := by
  induction entries with
  | nil => exact triple_pure fun _ h => h
  | cons entry entries ih =>
      have hfirst := copyEntry_rebuilt (v := v) hfs hzero htop source (hentries entry List.mem_cons_self)
      exact hfirst.bind fun _ => ih fun e he => hentries e (List.mem_cons_of_mem entry he)

theorem copyTree_rebuilt (source : Text) : Triple (Rebuilt look top v)
    (System.copyTree fs source target) (fun _ => Rebuilt look top v) (fun _ => Rebuilt look top v) := by
  intro d hd
  have hquiet := (hfs.recursiveDirectoryIterator source).quiet d hd
  unfold System.copyTree
  cases hrun : (fs.recursiveDirectoryIterator source).run d with
  | ok entries d' =>
      rw [hrun] at hquiet
      rw [run_bind_ok hrun]
      cases hquiet with
      | ok hd' =>
          exact copyEntries_rebuilt hfs hzero htop source (hfs.relatives source d entries d' hrun) d' hd'
  | error e d' =>
      rw [hrun] at hquiet
      rw [run_bind_error hrun]
      cases hquiet with
      | error hd' => exact .error hd'

end rebuild

section construct
variable (hfs : fs.Local look cwd) (os : Os) {target : Text} (hzero : 0 ∉ target) (hne : target ≠ [])
  (htop : Path.place cwd target = top)
include hfs hzero hne htop

theorem load_rebuilt (name : FileName) : Triple (Rebuilt look top v)
    (Tabble.load fs os (target ++ str "/" ++ name.text ++ str "/" ++ name.text))
    (fun _ => Rebuilt look top v) (fun _ => Rebuilt look top v) := by
  have hplace : Path.place cwd
      (target ++ str "/" ++ name.text ++ str "/" ++ name.text ++ str "_storage.db") =
        top ++ [name, ⟨name.text ++ str "_storage.db", isFileName_storage name⟩] := by
    have hlast := Path.place_slash cwd (Path.zero_slash hzero name.valid.2.2.2.2) (by simp [str])
      ⟨name.text ++ str "_storage.db", isFileName_storage name⟩
    rw [List.append_assoc _ name.text, hlast, Path.place_slash cwd hzero hne, htop, List.append_assoc]
    rfl
  unfold Tabble.load
  refine Triple.bind (hfs.readText _).quiet fun text => ?_
  cases text with
  | none => exact triple_throw fun _ h => h
  | some text =>
      refine (triple_ofExcept (fun _ _ _ h => h) fun _ _ _ h => h).bind fun info => ?_
      have hopen := (hfs.openStorage (target ++ str "/" ++ name.text ++ str "/" ++ name.text ++
        str "_storage.db")).keeps (R := Below top) (v := Function.update v top (some .dir)) (by
          rintro loc rfl
          rw [hplace]
          exact below_append top name _)
      refine hopen.bind fun opened => ?_
      refine triple_ite (fun _ => triple_throw fun _ h => h) fun _ => ?_
      cases Tabble.openFile os info opened.1 opened.2 with
      | ok _ table => exact triple_pure fun _ h => h
      | error e _ => exact triple_throw fun _ h => h

theorem openTabbles_rebuilt {entries : List (Text × Bool)}
    (hentries : ∀ e ∈ entries, ∃ name : FileName, e.1 = name.text) (base : DataBase)
    (hbase : base.absoluteWay = target) : Triple (Rebuilt look top v)
      (DataBase.openTabbles fs os base entries) (fun _ => Rebuilt look top v)
      (fun _ => Rebuilt look top v) := by
  induction entries generalizing base with
  | nil => exact triple_pure fun _ h => h
  | cons entry entries ih =>
      obtain ⟨text, isDirectory⟩ := entry
      obtain ⟨name, rfl⟩ := hentries _ List.mem_cons_self
      have hothers : ∀ e ∈ entries, ∃ name : FileName, e.1 = name.text :=
        fun e he => hentries e (List.mem_cons_of_mem _ he)
      cases isDirectory with
      | false => exact ih hothers base hbase
      | true =>
          unfold DataBase.openTabbles DataBase.openTabble
          refine Triple.bind (Q := fun base' d => base'.absoluteWay = target ∧ Rebuilt look top v d) ?_ ?_
          · have hload := load_rebuilt (v := v) hfs os hzero hne htop name
            rw [hbase]
            exact hload.bind fun table => triple_pure fun _ h => ⟨hbase, h⟩
          · intro base' d h
            exact ih hothers base' h.1 d h.2

theorem construct_rebuilt (dbName : Text) : Triple (Rebuilt look top v)
    (DataBase.construct fs os target dbName) (fun _ => Rebuilt look top v)
    (fun _ => Rebuilt look top v) := by
  intro d hd
  have hquiet := (hfs.directoryIterator target).quiet d hd
  unfold DataBase.construct
  cases hrun : (fs.directoryIterator target).run d with
  | ok entries d' =>
      rw [hrun] at hquiet
      rw [run_bind_ok hrun]
      cases hquiet with
      | ok hd' =>
          exact openTabbles_rebuilt hfs os hzero hne htop (hfs.names target d entries d' hrun) _ rfl d' hd'
  | error e d' =>
      rw [hrun] at hquiet
      rw [run_bind_error hrun]
      cases hquiet with
      | error hd' => exact .error hd'

/-- The work on the disk stays inside, whatever fails. -/
theorem rebuild_agree (source dbName : Text) : Triple (Agree look (top <+: ·) v)
    (System.rebuild fs os source target dbName) (fun _ => Agree look (top <+: ·) v)
    (fun _ => Agree look (top <+: ·) v) := by
  have hrest : Triple (Agree look (top <+: ·) v) (do
      let _ ← fs.createDirectory target
      System.copyTree fs source target
      DataBase.construct fs os target dbName) (fun _ => Agree look (top <+: ·) v)
      (fun _ => Agree look (top <+: ·) v) := by
    refine (createDirectory_rebuilt hfs htop).bind fun made => ?_
    have hcopy := copyTree_rebuilt (v := v) hfs hzero htop source
    have hconstruct := construct_rebuilt (v := v) hfs os hzero hne htop dbName
    refine Triple.conseq (hcopy.bind fun _ => hconstruct) (fun _ h => h) ?_ ?_
    · exact fun _ _ h => Rebuilt.agree h
    · exact fun _ _ h => Rebuilt.agree h
  refine (hfs.pathExists target).quiet.bind fun found => ?_
  have hremove := (hfs.removeAll target).keeps (R := (top <+: ·)) (v := v) fun loc h => by rwa [htop] at h
  cases found with
  | true => exact hremove.bind fun _ => hrest
  | false => exact hrest

end construct
end Local

namespace System
variable {δ : Type} {fs : FileSystem δ} {look : δ → Loc → Option (Node Text)} {cwd : Loc}

theorem triple_onDisk_disk {α : Type} {x : EStateM Fault δ α} {P : δ → Prop}
    (hx : Triple P x (fun _ => P) (fun _ => P)) :
    Triple (fun s : System δ => P s.disk) (onDisk x) (fun _ s => P s.disk) (fun _ s => P s.disk) :=
  triple_zoom fun s hs => hx s.disk hs

theorem triple_setSlot_disk {P : δ → Prop} (id : Nat) (slot : Option DataBase) :
    Triple (fun s : System δ => P s.disk) (setSlot id slot) (fun _ s => P s.disk)
      (fun _ s => P s.disk) := by
  unfold setSlot
  refine triple_get fun s hs => triple_ite (fun _ => ?_) fun _ => triple_throw fun _ h => h
  exact triple_modify fun _ h => h

/-- Whatever happens, a restore changes nothing outside of the place of its target. -/
theorem restoreDatabase_agree (hfs : fs.Local look cwd) (os : Os) (backupName dbName : Text)
    {root : Text} (hzero : 0 ∉ joinPath root dbName) (hne : joinPath root dbName ≠ [])
    {v : Loc → Option (Node Text)} :
    Triple (fun s : System δ => s.absolutePath = root ∧
        Agree look (Path.place cwd (joinPath root dbName) <+: ·) v s.disk)
      (restoreDatabase fs os backupName dbName)
      (fun _ s => Agree look (Path.place cwd (joinPath root dbName) <+: ·) v s.disk)
      (fun _ s => Agree look (Path.place cwd (joinPath root dbName) <+: ·) v s.disk) := by
  have hrebuild (source : Text) := rebuild_agree (v := v) hfs os hzero hne rfl source dbName
  have hremove := (hfs.removeAll (joinPath root dbName)).keeps (v := v)
    (R := (Path.place cwd (joinPath root dbName) <+: ·)) fun _ h => h
  unfold restoreDatabase
  refine triple_get_eq fun s₀ s hs => ?_
  obtain ⟨⟨hroot, hagree⟩, rfl⟩ := hs
  rw [hroot]
  have hfound : Triple (Agree look (Path.place cwd (joinPath root dbName) <+: ·) v)
      (isExistingDirectory fs (joinPath (joinPath root backUpName) backupName))
      (fun _ => Agree look (Path.place cwd (joinPath root dbName) <+: ·) v)
      (fun _ => Agree look (Path.place cwd (joinPath root dbName) <+: ·) v) := by
    unfold isExistingDirectory
    refine (hfs.pathExists _).quiet.bind fun found => triple_ite (fun _ => ?_) fun _ => ?_
    · exact (hfs.isDirectory _).quiet
    · exact triple_pure fun _ h => h
  refine ((triple_onDisk_disk hfound).bind fun found => triple_throwIf.bind fun _ => ?_) s hagree
  cases s.nameBase.lookup dbName with
  | some id =>
      refine (triple_setSlot_disk id none).bind fun _ => triple_catchFilesystem ?_ fun what => ?_
      · exact (triple_onDisk_disk (hrebuild _)).bind fun base => triple_setSlot_disk id _
      · exact (triple_onDisk_disk hremove).bind fun _ => triple_throw fun _ h => h
  | none =>
      refine triple_catchFilesystem ?_ fun what => ?_
      · exact (triple_onDisk_disk (hrebuild _)).bind fun base => triple_modify fun _ h => h
      · exact (triple_onDisk_disk hremove).bind fun _ => triple_throw fun _ h => h

end System

/-- The command is rejected with nothing touched, or its target is plain and what changes
is inside the directory of that name. -/
def Contained {δ : Type} (look : δ → Loc → Option (Node Text)) (cwd : Loc) (root dbName : Text)
    (before : δ) (r : EStateM.Result Fault (System δ) Unit) : Prop :=
  ((∃ message s, r = .error (.incorrectInput message) s) ∧
      ∀ loc, look (finalState r).disk loc = look before loc) ∨
    ∃ name : FileName, name.text = dbName ∧ IsPlain dbName ∧
      ∀ loc, ¬ (Path.place cwd root ++ [name] <+: loc) →
        look (finalState r).disk loc = look before loc

/-- On every disk that has the backup, whatever its calls do within their places. -/
def RestoreContained (root backupName dbName : Text) : Prop :=
  ∀ (δ : Type) (fs : FileSystem δ) (look : δ → Loc → Option (Node Text)) (cwd : Loc),
    fs.Local look cwd → ∀ (os : Os) (s : System δ), s.absolutePath = root →
      (∃ d, (System.isExistingDirectory fs
        (joinPath (joinPath root System.backUpName) backupName)).run s.disk = .ok true d) →
      Contained look cwd root dbName s.disk ((System.restoreDatabase fs os backupName dbName).run s)

theorem restore_contained_of_plain {root backupName dbName : Text} (hroot : 0 ∉ root)
    (hplain : IsPlain dbName) : RestoreContained root backupName dbName := by
  intro δ fs look cwd hfs os s hs _
  have hname : IsFileName dbName := hplain.1
  have hzero : 0 ∉ joinPath root dbName := fun h =>
    (Path.zero_mem_joinPath h).elim hroot hname.2.2.2.2
  have hplace : Path.place cwd (joinPath root dbName) = Path.place cwd root ++ [⟨dbName, hname⟩] := by
    rw [Path.place_joinPath cwd hroot (Path.head_fileName ⟨dbName, hname⟩),
      Path.moves_fileName ⟨dbName, hname⟩]
    rfl
  have hkept := (System.restoreDatabase_agree (v := look s.disk) hfs os backupName dbName hzero
    (Path.joinPath_ne_nil root hname.1)).final (s := s) ⟨hs, fun _ _ => rfl⟩
  rw [hplace] at hkept
  exact .inr ⟨⟨dbName, hname⟩, rfl, hplain, hkept⟩
end SQLid
