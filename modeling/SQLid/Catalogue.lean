import SQLid.SharedFiles
import SQLid.Library.Archive

/-!
# The catalogue

The server as a store of databases with backups, and how its registry and its disk stand
for one: both show the same tables, and the mapped files carry the one into the other.
-/
namespace SQLid
open Bytes (Text)
open CppText (str)
open FileTree (Node Tree Grown look)
open Programs

abbrev Catalogue := Archive.Store FileName Tables

/-- Requests change the rows of a table, or add a table without rows. -/
def Tables.Changed (tables tables' : Tables) : Prop :=
  (∃ name info rows rows', tables name = some (info, rows) ∧
    tables' = Function.update tables name (some (info, rows'))) ∨
  ∃ name info, tables name = none ∧ tables' = Function.update tables name (some (info, fun _ => none))

def Tables.schemas (tables : Tables) (name : FileName) : Option TabbleInfo := (tables name).map Prod.fst

/-! Paths that do not leave the way to their place. -/

structure Straight (cwd : Loc) (path : Text) (loc : Loc) : Prop where
  zero : 0 ∉ path
  nonempty : path ≠ []
  place : Path.place cwd path = loc
  visited : ∀ l ∈ FileTree.visited (Path.start cwd path) (Path.moves path), l <+: loc

section Straight
variable {cwd loc : Loc} {path : Text} {d : Disk}

/-- It leads there on every disk with the directory. -/
theorem Straight.opens (h : Straight cwd path loc) (hg : Grown d) (hdir : look d loc = some .dir) :
    Disk.Opens cwd d path loc := by
  refine ⟨h.zero, h.nonempty, ?_, hdir⟩
  rw [Disk.find_of_walk h.zero h.nonempty, FileTree.walk_visited]
  · exact congrArg some h.place
  · intro l hl
    obtain ⟨rest, rfl⟩ := h.visited l hl
    refine FileTree.isDir_iff.mpr ?_
    by_cases hrest : rest = []
    · rwa [hrest, List.append_nil] at hdir
    · exact hg.ancestor hrest hdir

theorem Straight.slash (h : Straight cwd path loc) (name : FileName) :
    Straight cwd (path ++ str "/" ++ name.text) (loc ++ [name]) := by
  refine ⟨Path.zero_slash h.zero name.valid.2.2.2.2, by simp [str], ?_, fun l hl => ?_⟩
  · rw [Path.place_slash cwd h.zero h.nonempty, h.place]
  · rw [Path.slash_append, Path.start_slash cwd h.nonempty, Path.moves_slash h.zero, Path.moves_fileName] at hl
    rcases FileTree.mem_visited_append hl with hl | hl
    · exact (h.visited l hl).trans (List.prefix_append loc [name])
    · have hplace : FileTree.place (Path.start cwd path) (Path.moves path) = loc := h.place
      rw [hplace] at hl
      rcases List.mem_cons.mp hl with rfl | hl
      · exact List.prefix_append _ [name]
      · rw [List.mem_singleton.mp hl]
        exact List.prefix_refl _

theorem Straight.joinPath (h : Straight cwd path loc) (name : FileName) :
    Straight cwd (SQLid.joinPath path name.text) (loc ++ [name]) := by
  by_cases hend : path.getLast? = some 47
  · obtain ⟨a, rfl⟩ : ∃ a, path = a ++ [47] := List.getLast?_eq_some_iff.mp hend
    have ha : 0 ∉ a := fun hin => h.zero (List.mem_append_left _ hin)
    have hjoin : SQLid.joinPath (a ++ [47]) name.text = a ++ [47] ++ name.text := by
      unfold SQLid.joinPath
      rw [if_neg (Path.head_fileName name), if_pos (by simp)]
    have hstart : Path.start cwd (a ++ [47] ++ name.text) = Path.start cwd (a ++ [47]) := by
      unfold Path.start
      cases a <;> rfl
    have hmoves : Path.moves (a ++ [47]) = Path.moves a ++ [.stay] := by
      rw [Path.moves_slash ha, Path.moves_nil]
    rw [hjoin]
    refine ⟨fun hin => ?_, by simp, ?_, fun l hl => ?_⟩
    · exact (List.mem_append.mp hin).elim h.zero name.valid.2.2.2.2
    · rw [← hjoin, Path.place_joinPath cwd h.zero (Path.head_fileName name), h.place, Path.moves_fileName]
      rfl
    · have hplace : FileTree.place (Path.start cwd (a ++ [47])) (Path.moves a) = loc := by
        have hstay := h.place
        unfold Path.place at hstay
        rw [hmoves, FileTree.place_append] at hstay
        exact hstay
      have hvisited := h.visited
      rw [hmoves] at hvisited
      rw [hstart, List.append_assoc, List.singleton_append, Path.moves_slash ha, Path.moves_fileName] at hl
      rcases FileTree.mem_visited_append hl with hl | hl
      · exact (hvisited l (FileTree.visited_append_left hl)).trans (List.prefix_append loc [name])
      · rw [hplace] at hl
        rcases List.mem_cons.mp hl with rfl | hl
        · exact List.prefix_append _ [name]
        · rw [List.mem_singleton.mp hl]
          exact List.prefix_refl _
  · have hjoin : SQLid.joinPath path name.text = path ++ str "/" ++ name.text := by
      unfold SQLid.joinPath
      rw [if_neg (Path.head_fileName name), if_neg (by simp [h.nonempty, hend])]
    rw [hjoin]
    exact h.slash name

end Straight

/-! The two sides. -/

/-- The registry shows these databases, each in a slot of its own. -/
structure InMemory (cwd R : Loc) (s : System Disk) (live : FileName → Option Tables) : Prop where
  names : s.Live
  named : ∀ key id, s.nameBase.lookup key = some id → ∃ name : FileName, key = name.text ∧ (live name).isSome
  base : ∀ name tables, live name = some tables → ∃ id base, s.nameBase.lookup name.text = some id ∧
    s.bases[id]? = some (some base) ∧ OpenBase base tables ∧ Straight cwd base.absoluteWay (R ++ [name])
  slots : ∀ (id : Nat) (base : DataBase), s.bases[id]? = some (some base) →
    s.nameBase.lookup base.dataBaseName = some id

/-- The directories are those of the databases, next to the one of the backups. -/
structure OnDisk (R : Loc) (area : FileName) (d : Disk) (st : Catalogue) : Prop where
  grown : Grown d
  place : look d (R ++ [area]) = some .dir
  free : st.live area = none
  base : ∀ name tables, st.live name = some tables →
    look d (R ++ [name]) = some .dir ∧ StoredBase d (R ++ [name]) tables
  only : ∀ name, name ≠ area → look d (R ++ [name]) = some .dir → (st.live name).isSome
  copy : ∀ b tables, st.archive b = some tables →
    look d (R ++ [area] ++ [b]) = some .dir ∧ StoredBase d (R ++ [area] ++ [b]) tables
  copies : ∀ b, look d (R ++ [area] ++ [b]) = some .dir → (st.archive b).isSome

theorem OnDisk.root {R : Loc} {area : FileName} {d : Disk} {st : Catalogue} (h : OnDisk R area d st) :
    look d R = some .dir := h.grown.ancestor (List.cons_ne_nil area []) h.place

/-- A system stands for a catalogue. -/
structure Holds (cwd R : Loc) (area : FileName) (s : System Disk) (st : Catalogue) : Prop where
  root : Straight cwd s.absolutePath R
  memory : InMemory cwd R s st.live
  disk : OnDisk R area s.disk st

/-! What is mapped reaches the disk. -/

section synced
variable {cwd R : Loc} {area : FileName} {s : System Disk} {st : Catalogue} {live : FileName → Option Tables}

/-- Where a storage file stands. -/
theorem storage_place_inj {R : Loc} {name name' m m' file file' : FileName}
    (h : R ++ [name] ++ [m, file] = R ++ [name'] ++ [m', file']) : name = name' ∧ m = m' ∧ file = file' := by
  rw [List.append_assoc, List.append_assoc] at h
  have htail := List.append_cancel_left h
  simp only [List.singleton_append, List.cons.injEq, and_true] at htail
  exact htail

/-- A mapped file is that of an open table. -/
theorem InMemory.mappedFile (h : InMemory cwd R s live) {f : Text × Text} (hf : f ∈ s.mappedFiles) :
    ∃ (name : FileName) (tables : Tables) (base : DataBase) (m : FileName) (info : TabbleInfo) (rows : RowMap)
      (t : Tabble), live name = some tables ∧ Straight cwd base.absoluteWay (R ++ [name]) ∧
      tables m = some (info, rows) ∧ OpenTable t info rows ∧
      f = (base.absoluteWay ++ str "/" ++ m.text ++ str "/" ++ m.text ++ str "_storage.db",
        t.storage.core.file.text) := by
  obtain ⟨slot, hslot, hin⟩ := List.mem_flatMap.mp hf
  cases slot with
  | none => exact absurd hin List.not_mem_nil
  | some base =>
      obtain ⟨id, hid⟩ := List.mem_iff_getElem?.mp hslot
      have hlookup := h.slots id base hid
      obtain ⟨name, hname, hsome⟩ := h.named _ id hlookup
      obtain ⟨tables, htables⟩ := Option.isSome_iff_exists.mp hsome
      obtain ⟨id', base', hid', hbase', hopen, hway⟩ := h.base name tables htables
      obtain rfl : base = base' := by
        rw [hname, hid', Option.some.injEq] at hlookup
        rw [hlookup, hid, Option.some.injEq, Option.some.injEq] at hbase'
        exact hbase'
      obtain ⟨entry, -, hentry⟩ := List.mem_filterMap.mp hin
      obtain ⟨tid, htid, hmap⟩ := Option.bind_eq_some_iff.mp hentry
      obtain ⟨t, ht, hmade⟩ := Option.map_eq_some_iff.mp hmap
      obtain ⟨m, hm, hthere⟩ := hopen.named _ tid htid
      obtain ⟨⟨info, rows⟩, htable⟩ := Option.isSome_iff_exists.mp hthere
      obtain ⟨tid', t', htid', ht', hshown⟩ := hopen.table m info rows htable
      obtain rfl : t = t' := by
        rw [hm, htid', Option.some.injEq] at htid
        rw [htid, ht, Option.some.injEq] at ht'
        exact ht'
      rw [hm] at hmade
      exact ⟨name, tables, base, m, info, rows, t, htables, hway, htable, hshown, hmade.symm⟩

theorem mem_of_lookup_text {entries : List (Text × Nat)} {key : Text} {id : Nat} (h : entries.lookup key = some id) :
    (key, id) ∈ entries := by
  induction entries with
  | nil => cases h
  | cons e entries ih =>
      obtain ⟨other, k⟩ := e
      rw [List.lookup_cons] at h
      by_cases heq : key = other
      · subst heq
        simp only [beq_self_eq_true, Option.some.injEq] at h
        subst h
        exact List.mem_cons_self
      · rw [beq_eq_false_iff_ne.mpr heq] at h
        exact List.mem_cons_of_mem _ (ih h)

/-- Every open table has its file mapped. -/
theorem InMemory.file_mapped (h : InMemory cwd R s live) {name m : FileName} {tables : Tables} {info : TabbleInfo}
    {rows : RowMap} (htables : live name = some tables) (htable : tables m = some (info, rows)) :
    ∃ (base : DataBase) (t : Tabble), Straight cwd base.absoluteWay (R ++ [name]) ∧ OpenTable t info rows ∧
      (base.absoluteWay ++ str "/" ++ m.text ++ str "/" ++ m.text ++ str "_storage.db",
        t.storage.core.file.text) ∈ s.mappedFiles := by
  obtain ⟨id, base, -, hbase, hopen, hway⟩ := h.base name tables htables
  obtain ⟨tid, t, htid, ht, hshown⟩ := hopen.table m info rows htable
  refine ⟨base, t, hway, hshown, List.mem_flatMap.mpr ⟨some base, List.mem_of_getElem? hbase, ?_⟩⟩
  refine List.mem_filterMap.mpr ⟨(m.text, tid), mem_of_lookup_text htid, ?_⟩
  dsimp only
  rw [htid, Option.bind_some, ht]
  rfl

/-- The two sides have the same databases with the same tables. -/
def SameShape (live live' : FileName → Option Tables) : Prop :=
  ∀ name, (live name).map Tables.schemas = (live' name).map Tables.schemas

theorem SameShape.some {live' : FileName → Option Tables} (h : SameShape live live') {name : FileName}
    {tables' : Tables} (htables : live' name = some tables') :
    ∃ tables, live name = some tables ∧ tables.schemas = tables'.schemas := by
  have hname := h name
  rw [htables, Option.map_some] at hname
  exact Option.map_eq_some_iff.mp hname

theorem SameShape.table {tables tables' : Tables} (h : tables.schemas = tables'.schemas) {m : FileName}
    {info : TabbleInfo} {rows : RowMap} (htable : tables' m = Option.some (info, rows)) :
    ∃ rows, tables m = Option.some (info, rows) := by
  have hm := congrFun h m
  unfold Tables.schemas at hm
  rw [htable, Option.map_some] at hm
  obtain ⟨⟨info', rows'⟩, hfound, heq⟩ := Option.map_eq_some_iff.mp hm
  cases heq
  exact ⟨rows', hfound⟩

variable (hmem : InMemory cwd R s live) (hdisk : OnDisk R area s.disk st) (hshape : SameShape st.live live)
include hmem hdisk hshape

/-- What the mapped files leave of the disk: the files of the open tables show the tables,
and all else is as it was. -/
theorem look_synced : Grown (s.synced cwd).disk ∧ ∀ loc,
    (∃ name tables m info rows t, live name = some tables ∧ tables m = some (info, rows) ∧ OpenTable t info rows ∧
        loc = R ++ [name] ++ [m, m.storage] ∧ (∃ old, look s.disk loc = some (.file old)) ∧
        look (s.synced cwd).disk loc = some (.file t.storage.core.file.text)) ∨
      (∀ name tables m, live name = some tables → (tables m).isSome → loc ≠ R ++ [name] ++ [m, m.storage]) ∧
        look (s.synced cwd).disk loc = look s.disk loc := by
  have hplace {base : DataBase} {name m : FileName} {tables : Tables} {info : TabbleInfo} {rows : RowMap}
      (htables : live name = some tables) (htable : tables m = some (info, rows))
      (hway : Straight cwd base.absoluteWay (R ++ [name])) :
      Disk.find cwd s.disk (base.absoluteWay ++ str "/" ++ m.text ++ str "/" ++ m.text ++ str "_storage.db") =
        some (R ++ [name] ++ [m, m.storage]) ∧ ∃ old, look s.disk (R ++ [name] ++ [m, m.storage]) = some (.file old) := by
    obtain ⟨before, hbefore, hschemas⟩ := hshape.some htables
    obtain ⟨rows', htable'⟩ := SameShape.table hschemas htable
    obtain ⟨hdir, hstored⟩ := hdisk.base name before hbefore
    have hthere := (hstored.dirs m).mpr (by rw [htable']; rfl)
    obtain ⟨text, htext, -⟩ := (hstored.table m info rows' htable').storage
    refine ⟨?_, text, htext⟩
    rw [List.append_assoc _ m.text (str "_storage.db")]
    exact (hway.opens hdisk.grown hdir).find_tableFile hthere m.storage
  have hfiles : ∀ f ∈ s.mappedFiles, Disk.find cwd s.disk f.1 = some (Path.place cwd f.1) ∧
      ∃ old, look s.disk (Path.place cwd f.1) = some (.file old) := by
    intro f hf
    obtain ⟨name, tables, base, m, info, rows, t, htables, hway, htable, -, rfl⟩ := hmem.mappedFile hf
    obtain ⟨hfind, hold⟩ := hplace htables htable hway
    dsimp only
    rw [← Disk.find_place hfind]
    exact ⟨hfind, hold⟩
  obtain ⟨hgrown, hlook⟩ := Disk.writeFiles_look hdisk.grown hfiles
  refine ⟨hgrown, fun loc => ?_⟩
  rcases hlook loc with ⟨f, hf, rfl, hshown⟩ | ⟨hnone, hsame⟩
  · obtain ⟨-, hold⟩ := hfiles f hf
    obtain ⟨name, tables, base, m, info, rows, t, htables, hway, htable, hopen, rfl⟩ := hmem.mappedFile hf
    obtain ⟨hfind, -⟩ := hplace htables htable hway
    exact .inl ⟨name, tables, m, info, rows, t, htables, htable, hopen, (Disk.find_place hfind).symm, hold, hshown⟩
  · refine .inr ⟨fun name tables m htables hsome heq => ?_, hsame⟩
    obtain ⟨⟨info, rows⟩, htable⟩ := Option.isSome_iff_exists.mp hsome
    obtain ⟨base, t, hway, hopen, hin⟩ := hmem.file_mapped htables htable
    obtain ⟨hfind, -⟩ := hplace htables htable hway
    exact hnone _ hin ((Disk.find_place hfind).symm.trans heq.symm)

theorem dir_synced (loc : Loc) : look (s.synced cwd).disk loc = some .dir ↔ look s.disk loc = some .dir := by
  rcases (look_synced hmem hdisk hshape).2 loc with ⟨_, _, _, _, _, t, -, -, -, -, ⟨old, hold⟩, hnew⟩ | ⟨-, hsame⟩
  · rw [hold, hnew]
    simp
  · rw [hsame]

omit hmem in
theorem area_not_live : live area = none := by
  have harea := hshape area
  rw [hdisk.free, Option.map_none] at harea
  exact Option.map_eq_none_iff.mp harea.symm

/-- The directories of the databases show what the registry shows. -/
theorem StoredBase.synced {name : FileName} {tables : Tables} (htables : live name = some tables) :
    StoredBase (s.synced cwd).disk (R ++ [name]) tables := by
  obtain ⟨before, hbefore, hschemas⟩ := hshape.some htables
  obtain ⟨-, hstored⟩ := hdisk.base name before hbefore
  obtain ⟨-, hlook⟩ := look_synced hmem hdisk hshape
  refine ⟨fun m => ?_, fun m text hfile => ?_, fun m info rows htable => ?_⟩
  · rw [dir_synced hmem hdisk hshape, hstored.dirs]
    have hm := congrArg Option.isSome (congrFun hschemas m)
    unfold Tables.schemas at hm
    rw [Option.isSome_map, Option.isSome_map] at hm
    rw [hm]
  · rcases hlook (R ++ [name] ++ [m]) with ⟨_, _, _, _, _, _, -, -, -, hloc, -, -⟩ | ⟨-, hsame⟩
    · have hlength := congrArg List.length hloc
      simp at hlength
    · rw [hsame] at hfile
      exact hstored.noFiles m text hfile
  · obtain ⟨rows', htable'⟩ := SameShape.table hschemas htable
    have hold := hstored.table m info rows' htable'
    refine ⟨hold.layout, hold.fits, ?_, ?_⟩
    · obtain ⟨text, htext, hload⟩ := hold.schema
      refine ⟨text, ?_, hload⟩
      rcases hlook (R ++ [name] ++ [m, m.info]) with ⟨_, _, m', _, _, _, -, -, -, hloc, -, -⟩ | ⟨-, hsame⟩
      · obtain ⟨-, rfl, hclash⟩ := storage_place_inj hloc
        exact absurd hclash m.info_ne_storage
      · rw [hsame]
        exact htext
    · rcases hlook (R ++ [name] ++ [m, m.storage]) with
        ⟨name', tables', m', info', rows'', t, htables', htable'', hopen, hloc, -, hnew⟩ | ⟨hnone, -⟩
      · obtain ⟨rfl, rfl, -⟩ := storage_place_inj hloc
        rw [htables, Option.some.injEq] at htables'
        subst htables'
        rw [htable, Option.some.injEq, Prod.mk.injEq] at htable''
        obtain ⟨rfl, rfl⟩ := htable''
        exact ⟨_, hnew, storage_text hopen.whole.lines, (rowsOf_text hopen.layout hopen.whole.lines).trans hopen.rows⟩
      · exact absurd rfl (hnone name tables m htables (by rw [htable]; rfl))

/-- Nothing is mapped outside of the directories of the databases. -/
theorem look_synced_copy (b : FileName) (rel : Loc) :
    look (s.synced cwd).disk (R ++ [area] ++ [b] ++ rel) = look s.disk (R ++ [area] ++ [b] ++ rel) := by
  rcases (look_synced hmem hdisk hshape).2 (R ++ [area] ++ [b] ++ rel) with
    ⟨name, _, _, _, _, _, htables, -, -, hloc, -, -⟩ | ⟨-, hsame⟩
  · rw [List.append_assoc, List.append_assoc, List.append_assoc] at hloc
    obtain rfl := (List.cons.inj (List.append_cancel_left hloc)).1
    rw [area_not_live hdisk hshape] at htables
    cases htables
  · exact hsame

/-- Once the mapped files have been carried over, the disk shows what the registry shows. -/
theorem synced_holds (hroot : Straight cwd s.absolutePath R) :
    Holds cwd R area (s.synced cwd) ⟨live, st.archive⟩ := by
  have hdir := dir_synced hmem hdisk hshape
  refine ⟨hroot, ⟨hmem.names, hmem.named, hmem.base, hmem.slots⟩,
    ⟨(look_synced hmem hdisk hshape).1, (hdir _).mpr hdisk.place, area_not_live hdisk hshape, ?_, ?_, ?_, ?_⟩⟩
  · intro name tables htables
    obtain ⟨before, hbefore, -⟩ := hshape.some htables
    exact ⟨(hdir _).mpr (hdisk.base name before hbefore).1, StoredBase.synced hmem hdisk hshape htables⟩
  · intro name hname hthere
    have hsome := hdisk.only name hname ((hdir _).mp hthere)
    have hisSome := congrArg Option.isSome (hshape name)
    rw [Option.isSome_map, Option.isSome_map] at hisSome
    rw [← hisSome]
    exact hsome
  · intro b tables hcopy
    obtain ⟨hthere, hstored⟩ := hdisk.copy b tables hcopy
    exact ⟨(hdir _).mpr hthere, hstored.congr fun rel _ => look_synced_copy hmem hdisk hshape b rel⟩
  · intro b hthere
    exact hdisk.copies b ((hdir _).mp hthere)

end synced
end SQLid
