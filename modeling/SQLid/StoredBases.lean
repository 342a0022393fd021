import SQLid.StoredTables

/-!
# Databases on a disk

What stands in the directory of a database, what the object of an open database shows, and
that the constructor of `DataBase` makes the one from the other.
-/
namespace SQLid
open Bytes (Text)
open CppText (str)
open FileTree (Node Tree Grown look)
open Programs

/-- What a database is for: tables with a schema and rows, by their names. -/
abbrev Tables := FileName → Option (TabbleInfo × RowMap)

def Tables.empty : Tables := fun _ => none

/-- The directory of a database has a directory for each table, and nothing else in it. -/
structure StoredBase (d : Disk) (D : Loc) (tables : Tables) : Prop where
  dirs : ∀ name, look d (D ++ [name]) = some .dir ↔ (tables name).isSome
  noFiles : ∀ name text, look d (D ++ [name]) ≠ some (.file text)
  table : ∀ name info rows, tables name = some (info, rows) → StoredTable d D name info rows

/-- It depends on what is below the directory only. -/
theorem StoredBase.congr {d d' : Disk} {D D' : Loc} {tables : Tables} (h : StoredBase d D tables)
    (hlook : ∀ rel, rel ≠ [] → look d' (D' ++ rel) = look d (D ++ rel)) : StoredBase d' D' tables := by
  refine ⟨fun name => ?_, fun name text => ?_, fun name info rows ht => ?_⟩
  · rw [hlook [name] (List.cons_ne_nil _ _)]
    exact h.dirs name
  · rw [hlook [name] (List.cons_ne_nil _ _)]
    exact h.noFiles name text
  · exact (h.table name info rows ht).congr fun file => hlook _ (List.cons_ne_nil _ _)

/-- An open table. Its file can be opened again also when a growth was refused. -/
structure OpenTable (t : Tabble) (schema : TabbleInfo) (shown : RowMap) : Prop where
  info : t.info = schema
  layout : schema.Layout
  fits : schema.lineLength * 100 < 2 ^ 64
  whole : MemoryMap.Whole schema.lineLength t.storage
  rows : rowsOf schema t.storage.core.file = shown

theorem OpenTable.of_sound {t : Tabble} {info : TabbleInfo} {rows : RowMap} (h : t.Sound) (hinfo : t.info = info)
    (hfits : info.lineLength * 100 < 2 ^ 64) (hrows : rowsOf info t.storage.core.file = rows) :
    OpenTable t info rows :=
  ⟨hinfo, hinfo ▸ h.layout, hfits, .of_live h.idle (h.lineLength.trans (congrArg _ hinfo)) h.live, hrows⟩

/-- An open database: each name leads to a table of its own. -/
structure OpenBase (base : DataBase) (tables : Tables) : Prop where
  named : ∀ key id, base.tabblesName.lookup key = some id → ∃ name : FileName, key = name.text ∧ (tables name).isSome
  table : ∀ name info rows, tables name = some (info, rows) →
    ∃ id t, base.tabblesName.lookup name.text = some id ∧ base.tabbles[id]? = some t ∧ OpenTable t info rows
  apart : ∀ key key' id, base.tabblesName.lookup key = some id → base.tabblesName.lookup key' = some id → key = key'

theorem FileName.text_injective : Function.Injective FileName.text := by
  rintro ⟨text, hvalid⟩ ⟨text', hvalid'⟩ heq
  cases heq
  rfl

section OpenBase
variable {base : DataBase} {tables : Tables} {name : FileName} {info : TabbleInfo} {rows : RowMap}

theorem openBase_empty (way dbName : Text) : OpenBase ⟨way, dbName, [], []⟩ .empty where
  named _ _ h := by cases h
  table _ _ _ h := by cases h
  apart _ _ _ h := by cases h

theorem OpenBase.inside (h : OpenBase base tables) {key : Text} {id : Nat}
    (hid : base.tabblesName.lookup key = some id) : id < base.tabbles.length := by
  obtain ⟨name, rfl, hsome⟩ := h.named key id hid
  obtain ⟨⟨info, rows⟩, htable⟩ := Option.isSome_iff_exists.mp hsome
  obtain ⟨id', t, hid', ht, -⟩ := h.table name info rows htable
  rw [hid, Option.some.injEq] at hid'
  exact hid' ▸ (List.getElem?_eq_some_iff.mp ht).1

theorem OpenBase.lookup_none (h : OpenBase base tables) (hnone : tables name = none) :
    base.tabblesName.lookup name.text = none := by
  cases hid : base.tabblesName.lookup name.text with
  | none => rfl
  | some id =>
      obtain ⟨name', htext, hsome⟩ := h.named _ id hid
      obtain rfl := FileName.text_injective htext
      rw [hnone] at hsome
      cases hsome

/-- A table under a new name. -/
theorem OpenBase.insertTabble (h : OpenBase base tables) (hnone : tables name = none) {t : Tabble}
    (ht : OpenTable t info rows) :
    OpenBase (base.insertTabble t name.text) (Function.update tables name (some (info, rows))) := by
  have hlookup (key : Text) : (base.insertTabble t name.text).tabblesName.lookup key =
      if key = name.text then some base.tabbles.length else base.tabblesName.lookup key := by
    change (insertNew base.tabblesName name.text base.tabbles.length).lookup key = _
    rw [lookup_insertNew]
    split_ifs with hkey
    · rw [hkey, h.lookup_none hnone, Option.none_or]
    · rw [Option.or_none]
  have hold {key : Text} {id : Nat} (hid : base.tabblesName.lookup key = some id) : id ≠ base.tabbles.length :=
    Nat.ne_of_lt (h.inside hid)
  refine ⟨fun key id hid => ?_, fun other info' rows' hother => ?_, fun key key' id hid hid' => ?_⟩
  · rw [hlookup] at hid
    split_ifs at hid with hkey
    · exact ⟨name, hkey, by simp⟩
    · obtain ⟨other, hother, hsome⟩ := h.named key id hid
      refine ⟨other, hother, ?_⟩
      rw [Function.update_of_ne fun heq => hkey (hother.trans (congrArg FileName.text heq))]
      exact hsome
  · by_cases heq : other = name
    · subst heq
      rw [Function.update_self, Option.some.injEq, Prod.mk.injEq] at hother
      obtain ⟨rfl, rfl⟩ := hother
      refine ⟨base.tabbles.length, t, ?_, List.getElem?_concat_length, ht⟩
      rw [hlookup, if_pos rfl]
    · rw [Function.update_of_ne heq] at hother
      obtain ⟨id, t', hid, ht', hopen⟩ := h.table other info' rows' hother
      have htext : other.text ≠ name.text := fun htext => heq (FileName.text_injective htext)
      refine ⟨id, t', ?_, ?_, hopen⟩
      · rw [hlookup, if_neg htext]
        exact hid
      · exact (List.getElem?_append_left (h.inside hid)).trans ht'
  · rw [hlookup] at hid hid'
    split_ifs at hid hid' with hkey hkey' hkey'
    · exact hkey.trans hkey'.symm
    · rw [Option.some.injEq] at hid
      exact absurd hid.symm (hold hid')
    · rw [Option.some.injEq] at hid'
      exact absurd hid'.symm (hold hid)
    · exact h.apart key key' id hid hid'

end OpenBase

/-! The constructor. -/

namespace DataBase
variable {cwd D : Loc} {d : Disk} {way : Text} {tables : Tables}

/-- What is open once the directories of a list have been opened too. -/
def opening {τ : Type} (shown done : FileName → Option τ) (entries : List (FileName × Node Text)) : FileName → Option τ :=
  fun name => if (name, .dir) ∈ entries then shown name else done name

/-- Opening a table that is not open yet. -/
theorem openTabble_stored (os : Os) (hway : Disk.Opens cwd d way D) {name : FileName} {info : TabbleInfo}
    {rows : RowMap} (hdir : look d (D ++ [name]) = some .dir) (hstored : StoredTable d D name info rows)
    {base : DataBase} (hbase : base.absoluteWay = way) {done : Tables} (hopen : OpenBase base done)
    (hfree : done name = none) :
    (∃ t, (openTabble (Disk.files cwd) os base name.text).run d = .ok (base.insertTabble t name.text) d ∧
        OpenBase (base.insertTabble t name.text) (Function.update done name (some (info, rows)))) ∨
      ∃ e, (openTabble (Disk.files cwd) os base name.text).run d = .error e d ∧ e.IsGrowth := by
  unfold openTabble
  rw [hbase]
  rcases Tabble.load_stored os hway hdir hstored with ⟨t, hload, hsound, hinfo, hrows⟩ | ⟨e, hload, hgrowth⟩
  · exact .inl ⟨t, run_bind_ok hload, hopen.insertTabble hfree (.of_sound hsound hinfo hstored.fits hrows)⟩
  · exact .inr ⟨e, run_bind_error hload, hgrowth⟩

theorem opening_file {τ : Type} (shown done : FileName → Option τ) (name : FileName) (text : Text)
    (entries : List (FileName × Node Text)) :
    opening shown done ((name, .file text) :: entries) = opening shown done entries := by
  funext other
  unfold opening
  simp

theorem opening_dir {τ : Type} (shown done : FileName → Option τ) {name : FileName}
    {entries : List (FileName × Node Text)} (hnew : (name, .dir) ∉ entries) :
    opening shown done ((name, .dir) :: entries) = opening shown (Function.update done name (shown name)) entries := by
  funext other
  unfold opening
  by_cases heq : other = name
  · subst heq
    rw [if_pos List.mem_cons_self, if_neg hnew, Function.update_self]
  · have hmem : ((other, Node.dir) ∈ (name, Node.dir) :: entries) ↔ (other, Node.dir) ∈ entries := by
      simp [heq]
    simp only [hmem, Function.update_of_ne heq]

/-- The names and kinds `directoryIterator` lists. -/
def listed (entries : List (FileName × Node Text)) : List (Text × Bool) :=
  entries.map fun e => (e.1.text, Disk.isDirNode e.2)

theorem openTabbles_stored (os : Os) (hway : Disk.Opens cwd d way D)
    {entries : List (FileName × Node Text)} (hnodup : (entries.map Prod.fst).Nodup)
    (hdirs : ∀ name, (name, .dir) ∈ entries → look d (D ++ [name]) = some .dir ∧
      ∃ info rows, tables name = some (info, rows) ∧ StoredTable d D name info rows)
    {base : DataBase} (hbase : base.absoluteWay = way) {done : Tables} (hopen : OpenBase base done)
    (hdone : ∀ name, (name, .dir) ∈ entries → done name = none) :
    (∃ base', (openTabbles (Disk.files cwd) os base (listed entries)).run d = .ok base' d ∧
        base'.absoluteWay = way ∧ base'.dataBaseName = base.dataBaseName ∧
          OpenBase base' (opening tables done entries)) ∨
      ∃ e, (openTabbles (Disk.files cwd) os base (listed entries)).run d = .error e d ∧ e.IsGrowth := by
  induction entries generalizing base done with
  | nil =>
      have hsame : opening tables done [] = done := funext fun name => if_neg List.not_mem_nil
      refine .inl ⟨base, rfl, hbase, rfl, ?_⟩
      rwa [hsame]
  | cons entry entries ih =>
      obtain ⟨name, node⟩ := entry
      rw [List.map_cons, List.nodup_cons] at hnodup
      obtain ⟨hnew, hnodup⟩ := hnodup
      have hlater (other : FileName) (hin : (other, Node.dir) ∈ entries) := hdirs other (List.mem_cons_of_mem _ hin)
      cases node with
      | file text =>
          rw [opening_file]
          exact ih hnodup hlater hbase hopen fun other hin => hdone other (List.mem_cons_of_mem _ hin)
      | dir =>
          have hnew' : (name, Node.dir) ∉ entries := fun hin => hnew (List.mem_map_of_mem (f := Prod.fst) hin)
          obtain ⟨hdir, info, rows, htable, hstored⟩ := hdirs name List.mem_cons_self
          have hrun : (openTabbles (Disk.files cwd) os base (listed ((name, .dir) :: entries))).run d =
              (openTabble (Disk.files cwd) os base name.text >>= fun base =>
                openTabbles (Disk.files cwd) os base (listed entries)).run d := rfl
          rw [hrun, opening_dir tables done hnew', htable]
          rcases openTabble_stored os hway hdir hstored hbase hopen (hdone name List.mem_cons_self) with
            ⟨t, hone, hinserted⟩ | ⟨e, hone, hgrowth⟩
          · rw [run_bind_ok hone]
            have hbase' : (base.insertTabble t name.text).absoluteWay = way := hbase
            refine ih hnodup hlater hbase' hinserted fun other hin => ?_
            have hne : other ≠ name := by
              rintro rfl
              exact hnew' hin
            rw [Function.update_of_ne hne]
            exact hdone other (List.mem_cons_of_mem _ hin)
          · rw [run_bind_error hone]
            exact .inr ⟨e, rfl, hgrowth⟩

/-- Opened again, the database shows the tables of its directory. -/
theorem construct_stored (os : Os) (hg : Grown d) (hway : Disk.Opens cwd d way D) (h : StoredBase d D tables)
    (dbName : Text) :
    (∃ base, (construct (Disk.files cwd) os way dbName).run d = .ok base d ∧ base.absoluteWay = way ∧
        base.dataBaseName = dbName ∧ OpenBase base tables) ∨
      ∃ e, (construct (Disk.files cwd) os way dbName).run d = .error e d ∧ e.IsGrowth := by
  have hlist : ((Disk.files cwd).directoryIterator way).run d =
      .ok (listed (FileTree.children d D)) d := by
    change Disk.directoryIterator cwd way d = _
    unfold Disk.directoryIterator
    rw [hway.find]
    dsimp only
    rw [if_pos (FileTree.isDir_iff.mpr hway.dir)]
    rfl
  have hall : opening tables Tables.empty (FileTree.children d D) = tables := by
    funext name
    unfold opening
    split_ifs with hin
    · rfl
    · rw [hg.mem_children, h.dirs, Bool.not_eq_true, Option.isSome_eq_false_iff, Option.isNone_iff_eq_none] at hin
      exact hin.symm
  unfold construct
  rw [run_bind_ok hlist, ← hall]
  refine openTabbles_stored os hway hg.children_nodup (fun name hin => ?_) rfl (openBase_empty way dbName) fun _ _ => rfl
  have hdir := hg.mem_children.mp hin
  obtain ⟨⟨info, rows⟩, htable⟩ := Option.isSome_iff_exists.mp ((h.dirs name).mp hdir)
  exact ⟨hdir, info, rows, htable, h.table name info rows htable⟩

end DataBase
end SQLid
