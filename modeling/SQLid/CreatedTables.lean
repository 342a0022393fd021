import SQLid.TableCreation

/-!
# Tables that were created

The schema of a table that CREATE TABLE has made, read back from the file it wrote, and
when its lines are laid out soundly.
-/
namespace SQLid
open Bytes (Text)
open CppText (str IsWord)
open FileTree (Node look put)
open Programs

/-! The schema of a table object is the one it was made with. -/

namespace Tabble
variable {info : TabbleInfo}

theorem onStorage_info {α : Type} (x : EStateM Fault MemoryMap α) :
    Triple (fun t : Tabble => t.info = info) (onStorage x) (fun _ t => t.info = info)
      (fun _ t => t.info = info) := by
  apply triple_zoom
  intro t ht
  cases x.run t.storage with
  | ok a m => exact .ok ht
  | error e m => exact .error ht

theorem skipActive_info (n ind : Nat) : Triple (fun t : Tabble => t.info = info) (skipActive n ind)
    (fun _ t => t.info = info) (fun _ t => t.info = info) := by
  induction n generalizing ind with
  | zero => exact triple_pure fun _ h => h
  | succ n ih =>
      exact (onStorage_info _).bind fun active =>
        triple_ite (fun _ => ih (ind + 1)) fun _ => triple_pure fun _ h => h

theorem countActive_info (n i : Nat) : Triple (fun t : Tabble => t.info = info) (countActive n i)
    (fun _ t => t.info = info) (fun _ t => t.info = info) := by
  induction n generalizing i with
  | zero => exact triple_pure fun _ h => h
  | succ n ih =>
      refine (onStorage_info _).bind fun active => ?_
      cases active with
      | false => exact ih (i + 1)
      | true => exact Triple.bind (triple_modify fun _ h => h) fun _ => ih (i + 1)

theorem pushHoles_info (n i : Nat) : Triple (fun t : Tabble => t.info = info) (pushHoles n i)
    (fun _ t => t.info = info) (fun _ t => t.info = info) := by
  induction n generalizing i with
  | zero => exact triple_pure fun _ h => h
  | succ n ih =>
      refine (onStorage_info _).bind fun active => ?_
      cases active with
      | false => exact Triple.bind (triple_modify fun _ h => h) fun _ => ih (i + 1)
      | true => exact ih (i + 1)

theorem construct_info (os : Os) : Triple (fun t : Tabble => t.info = info) (construct os)
    (fun _ t => t.info = info) (fun _ t => t.info = info) := by
  refine (onStorage_info _).bind fun _ => ?_
  refine triple_get fun s _ => (skipActive_info _ _).bind fun ind => ?_
  have hrest : Triple (fun t : Tabble => t.info = info) (do
      countActive (← get).storage.getMaxLines 0
      pushHoles (← get).freeId 0) (fun _ t => t.info = info) (fun _ t => t.info = info) :=
    triple_get fun s _ => (countActive_info _ _).bind fun _ => triple_get fun s _ => pushHoles_info _ _
  by_cases hfull : ind = s.storage.getMaxLines
  · dsimp only
    rw [if_pos hfull]
    exact (onStorage_info _).bind fun _ => hrest
  · dsimp only
    rw [if_neg hfull]
    exact hrest

theorem openFile_info {os : Os} {file : ByteFile} {calls : Nat} {t : Tabble}
    (h : openFile os info file calls = .ok () t) : t.info = info := by
  have hkept : Triple (fun t => t.info = info) (construct os)
      (fun _ t => t.info = info) (fun _ t => t.info = info) := construct_info os
  exact hkept.ok rfl h

end Tabble

namespace Disk
variable {cwd : Loc} {t : Disk} {first second text other : Text}

theorem find_mono {t' : Disk} {path : Text} {loc : Loc}
    (hdir : ∀ l, FileTree.isDir t' l = true → FileTree.isDir t l = true)
    (h : find cwd t' path = some loc) : find cwd t path = some loc := by
  unfold find at h ⊢
  split_ifs at h with hnil
  rw [if_neg hnil]
  exact FileTree.walk_mono hdir h

theorem isDir_writeText {l : Loc}
    (h : FileTree.isDir (finalState ((writeText cwd first text).run t)) l = true) :
    FileTree.isDir t l = true := by
  change FileTree.isDir (finalState (writeText cwd first text t)) l = true at h
  unfold writeText at h
  split at h
  · exact h
  · rename_i loc _
    split_ifs at h with hdir
    · exact h
    · by_cases hl : l = loc
      · subst hl
        have hroot : l ≠ [] := by
          rintro rfl
          exact hdir (FileTree.isDir_iff.mpr (FileTree.look_root t))
        have hfile := FileTree.isDir_iff.mp h
        rw [finalState_ok, FileTree.look_put_self hroot] at hfile
        cases hfile
      · have hother := FileTree.isDir_iff.mp h
        rw [finalState_ok, FileTree.look_put_other hl] at hother
        exact FileTree.isDir_iff.mpr hother

theorem writeText_run (path text : Text) (t : Disk) : (writeText cwd path text).run t =
    .ok () (finalState ((writeText cwd path text).run t)) := by
  change writeText cwd path text t = .ok () (finalState (writeText cwd path text t))
  unfold writeText
  split
  · rfl
  · split_ifs <;> rfl

theorem readText_file {t' : Disk} (h : (readText cwd first).run t = .ok (some text) t') :
    ∃ loc, find cwd t first = some loc ∧ look t loc = some (.file text) := by
  change readText cwd first t = _ at h
  unfold readText at h
  split at h
  · rename_i hnode
    cases h
    exact Option.bind_eq_some_iff.mp hnode
  · cases h

/-- A file that was written, and then another one, is read back. -/
theorem readText_written {t' : Disk} {read : Text} (hne : Path.place cwd first ≠ Path.place cwd second)
    (h : (readText cwd first).run (finalState ((writeText cwd second other).run
      (finalState ((writeText cwd first text).run t)))) = .ok (some read) t') : read = text := by
  obtain ⟨loc, hfind, hlook⟩ := readText_file h
  have hplace := find_place hfind
  -- the second file stands elsewhere
  have hfirst : look (finalState ((writeText cwd first text).run t)) loc = some (.file read) := by
    rcases writeText_final cwd second other (finalState ((writeText cwd first text).run t))
      with hsame | ⟨node, hput⟩
    · rwa [hsame] at hlook
    · rwa [hput, FileTree.look_put_other (by rw [hplace]; exact hne)] at hlook
  have hthere := find_mono (fun l hl => isDir_writeText (isDir_writeText hl)) hfind
  change look (finalState (writeText cwd first text t)) loc = _ at hfirst
  simp only [writeText, hthere] at hfirst
  split_ifs at hfirst with hdir
  · rw [finalState_ok, FileTree.isDir_iff.mp hdir] at hfirst
    cases hfirst
  · have hroot : loc ≠ [] := by
      rintro rfl
      exact hdir (FileTree.isDir_iff.mpr (FileTree.look_root t))
    rw [finalState_ok, FileTree.look_put_self hroot] at hfirst
    cases hfirst
    rfl

end Disk

/-- A constructor that returns has read the schema from a file. -/
theorem Tabble.load_ok {δ : Type} {fs : FileSystem δ} {os : Os} {baseName : Text} {d d' : δ}
    {table : Tabble} (h : (Tabble.load fs os baseName).run d = .ok table d') :
    ∃ text d₁, (fs.readText (baseName ++ str "_info.db")).run d = .ok (some text) d₁ ∧
      InfoLoader.loadFile text = .ok table.info := by
  unfold Tabble.load at h
  cases hread : (fs.readText (baseName ++ str "_info.db")).run d with
  | error e d₁ =>
      rw [run_bind_error hread] at h
      cases h
  | ok found d₁ =>
      rw [run_bind_ok hread] at h
      cases found with
      | none => cases h
      | some text =>
          refine ⟨text, d₁, rfl, ?_⟩
          dsimp only at h
          cases hload : InfoLoader.loadFile text with
          | error e =>
              rw [hload, run_bind_error (run_ofExcept_error e d₁)] at h
              cases h
          | ok info =>
              rw [hload, run_bind_ok (run_ofExcept_ok info d₁)] at h
              cases hopen : (fs.openStorage (baseName ++ str "_storage.db")).run d₁ with
              | error e d₂ =>
                  rw [run_bind_error hopen] at h
                  cases h
              | ok opened d₂ =>
                  rw [run_bind_ok hopen] at h
                  split_ifs at h
                  · cases h
                  · cases hfile : Tabble.openFile os info opened.1 opened.2 with
                    | error e t =>
                        rw [hfile] at h
                        cases h
                    | ok u t =>
                        rw [hfile] at h
                        cases h
                        rw [Tabble.openFile_info hfile]

namespace DataBase
variable {os : Os} {base base' : DataBase} {cwd : Loc} {t t' : Disk} {name : Text}
  {columns : List (Text × ColumnType × Nat)}

/-- The two files of a table stand at different places, unless the paths are cut off
before they differ. -/
theorem table_files_apart (hname : hasInvalidCharacter name = false)
    (hzero : 0 ∉ base.absoluteWay ++ str "/" ++ name) :
    Path.place cwd (base.absoluteWay ++ str "/" ++ name ++ str "/" ++ name ++ str "_info.db") ≠
      Path.place cwd (base.absoluteWay ++ str "/" ++ name ++ str "/" ++ name ++ str "_storage.db") := by
  have hslash : 47 ∉ name := by
    intro hmem
    have hbad : hasInvalidCharacter name = true := List.any_eq_true.mpr ⟨47, hmem, by decide⟩
    rw [hname] at hbad
    cases hbad
  have hends : 0 ∉ name := fun hmem => hzero (List.mem_append_right _ hmem)
  have hne : base.absoluteWay ++ str "/" ++ name ≠ [] := by simp [str]
  have hfile (tail : Text) (hlength : 3 ≤ tail.length) (htail : 47 ∉ tail ∧ 0 ∉ tail) :
      IsFileName (name ++ tail) := by
    refine isFileName_ending hlength (fun hmem => ?_) fun hmem => ?_
    · exact (List.mem_append.mp hmem).elim hslash htail.1
    · exact (List.mem_append.mp hmem).elim hends htail.2
  have hinfo := Path.place_slash cwd hzero hne
    ⟨name ++ str "_info.db", hfile _ (by decide) ⟨by decide, by decide⟩⟩
  have hstorage := Path.place_slash cwd hzero hne
    ⟨name ++ str "_storage.db", hfile _ (by decide) ⟨by decide, by decide⟩⟩
  rw [List.append_assoc _ name (str "_info.db"), List.append_assoc _ name (str "_storage.db"), hinfo,
    hstorage]
  intro heq
  have hlast := List.append_cancel_left heq
  have htext := congrArg FileName.text (List.cons.inj hlast).1
  exact absurd (List.append_cancel_left htext) (by decide)

/-- Opened behind its two files, the table has the schema that was written. -/
theorem openTabble_written (hway : base.absoluteWay ≠ []) (hname : hasInvalidCharacter name = false)
    (hcolumns : ∀ c ∈ columns, Declared c)
    (hdir : look t (Path.place cwd (joinPath base.absoluteWay name)) = some .dir)
    (hrun : (openTabble (Disk.files cwd) os base name).run (finalState ((Disk.writeText cwd
      (base.absoluteWay ++ str "/" ++ name ++ str "/" ++ name ++ str "_storage.db") []).run
        (finalState ((Disk.writeText cwd
          (base.absoluteWay ++ str "/" ++ name ++ str "/" ++ name ++ str "_info.db")
            (infoText columns)).run t)))) = .ok base' t') :
    columns.length ≤ InfoLoader.maxColumns ∧
      ∃ table, base' = base.insertTabble table name ∧ table.info = schemaOf columns := by
  unfold openTabble at hrun
  cases hload : (Tabble.load (Disk.files cwd) os (base.absoluteWay ++ str "/" ++ name ++ str "/" ++
      name)).run (finalState ((Disk.writeText cwd
        (base.absoluteWay ++ str "/" ++ name ++ str "/" ++ name ++ str "_storage.db") []).run
          (finalState ((Disk.writeText cwd
            (base.absoluteWay ++ str "/" ++ name ++ str "/" ++ name ++ str "_info.db")
              (infoText columns)).run t)))) with
  | error e d =>
      rw [run_bind_error hload] at hrun
      cases hrun
  | ok table d =>
      rw [run_bind_ok hload] at hrun
      cases hrun
      obtain ⟨text, d₁, hread, hinfo⟩ := Tabble.load_ok hload
      have hwritten : text = infoText columns := by
        by_cases hzero : 0 ∈ base.absoluteWay ++ str "/" ++ name
        · -- the path of the schema file is cut off at the directory
          have hhead : name.head? ≠ some 47 := by
            intro hslash
            have hbad : hasInvalidCharacter name = true :=
              List.any_eq_true.mpr ⟨47, List.mem_of_head? hslash, by decide⟩
            rw [hname] at hbad
            cases hbad
          obtain ⟨loc, hfind, hfile⟩ := Disk.readText_file hread
          have hplace : loc = Path.place cwd (joinPath base.absoluteWay name) := by
            rw [Disk.find_place hfind, ← Path.place_slash_joinPath cwd hway hhead,
              List.append_assoc _ name, List.append_assoc _ (str "/"), Path.place_append_zero cwd hzero]
          rw [hplace] at hfile
          have hclash := ((Disk.writeText_keeps_dir _ _).final
            ((Disk.writeText_keeps_dir _ _).final hdir)).symm.trans hfile
          cases hclash
        · exact Disk.readText_written (table_files_apart hname hzero) hread
      rw [hwritten, InfoLoader.loadFile_infoText hcolumns] at hinfo
      split_ifs at hinfo with hlength
      exact ⟨hlength, table, rfl, (Except.ok.inj hinfo).symm⟩

theorem makeTable_ok (hway : base.absoluteWay ≠ []) (hname : hasInvalidCharacter name = false)
    (hcolumns : ∀ c ∈ columns, Declared c)
    (hrun : (makeTable (Disk.files cwd) os base name columns).run t = .ok base' t') :
    columns.length ≤ InfoLoader.maxColumns ∧
      ∃ table, base' = base.insertTabble table name ∧ table.info = schemaOf columns := by
  by_cases hroom : Disk.Room cwd t (joinPath base.absoluteWay name)
  · obtain ⟨hnone, hmade⟩ := Disk.createDirectory_room hroom
    have hroot : Path.place cwd (joinPath base.absoluteWay name) ≠ [] := by
      intro hnil
      rw [hnil] at hnone
      cases hnone
    have hdirectory : ((Disk.files cwd).createDirectory (joinPath base.absoluteWay name)).run t = _ := hmade
    unfold makeTable at hrun
    dsimp only at hrun
    rw [run_bind_ok hdirectory, if_pos rfl] at hrun
    have hfirst := (run_bind_ok (Disk.writeText_run _ _ _)).symm.trans hrun
    have hsecond := (run_bind_ok (Disk.writeText_run _ _ _)).symm.trans hfirst
    exact openTabble_written hway hname hcolumns (FileTree.look_put_self hroot) hsecond
  · obtain ⟨e, herr⟩ := makeTable_noRoom os hroom columns
    rw [hrun] at herr
    cases herr

/-- A command that succeeds registers a table with the schema of its columns. -/
theorem createTable_ok {ws : List Text} (hway : base.absoluteWay ≠ []) (hws : ∀ w ∈ ws, IsWord w)
    (hrun : (createTable (Disk.files cwd) os base ws).run t = .ok base' t') :
    ∃ columns, parseColumns (RequestParser.next [] ws).2 = .ok columns ∧
      (∀ c ∈ columns, Declared c) ∧ columns.length ≤ InfoLoader.maxColumns ∧
        ∃ table, base' = base.insertTabble table (RequestParser.next [] ws).1 ∧
          table.info = schemaOf columns := by
  by_cases hrefused : Refused base ws
  · obtain ⟨e, herr⟩ := createTable_refused (Disk.files cwd) os hrefused t
    rw [hrun] at herr
    cases herr
  · obtain ⟨columns, hparse, -, hmake⟩ := createTable_checked (Disk.files cwd) os hrefused
    rw [hmake] at hrun
    have hname : hasInvalidCharacter (RequestParser.next [] ws).1 = false := by
      rw [Bool.eq_false_iff]
      exact fun hbad => hrefused (.inr (.inl hbad))
    have hrest : ∀ w ∈ (RequestParser.next [] ws).2, IsWord w := by
      intro w hw
      apply hws
      cases ws with
      | nil => exact hw
      | cons name ws => exact List.mem_cons_of_mem name hw
    have hcolumns := parseColumns_declared hrest hparse
    exact ⟨columns, hparse, hcolumns, makeTable_ok hway hname hcolumns hrun⟩

end DataBase

/-! The schema file of a table that was created. -/

/-- The schema has these columns, one behind the other. -/
structure ReadBack (columns : List (Text × ColumnType × Nat)) (info : TabbleInfo) : Prop where
  columnsNumber : info.columnsNumber = columns.length
  length : info.columns.length = columns.length
  column : ∀ (i : Nat) (name : Text) (type : ColumnType) (size : Nat),
    columns[i]? = some (name, type, size) → info.columns[i]? =
      some ⟨name, (1 + ((columns.take i).map (·.2.2)).sum) % 2 ^ 64, type, size⟩
  computed : info.lineLength = columns.foldl (fun n c => sizeAdd n c.2.2) 1
  lineLength : info.lineLength = (1 + (columns.map (·.2.2)).sum) % 2 ^ 64
  map : ∀ name, info.columnsMap.lookup name = columns.findIdx? (·.1 = name)

theorem readBack_schemaOf (columns : List (Text × ColumnType × Nat)) :
    ReadBack columns (schemaOf columns) where
  columnsNumber := rfl
  length := length_columnsFrom 1
  column i _ _ _ h := columnsFrom_getElem 1 i h (by decide)
  computed := rfl
  lineLength := lineLength_schemaOf
  map := lookup_schemaOf

section
variable {cwd : Loc} {os : Os} {base base' : DataBase} {ws : List Text} {t t' : Disk}

/-- What a command has written is read back as the columns it named. -/
theorem schema_file_round_trip (hway : base.absoluteWay ≠ []) (hws : ∀ w ∈ ws, IsWord w)
    (hrun : (DataBase.createTable (Disk.files cwd) os base ws).run t = .ok base' t') :
    ∃ columns info, DataBase.parseColumns (RequestParser.next [] ws).2 = .ok columns ∧
      InfoLoader.loadFile (DataBase.infoText columns) = .ok info ∧ ReadBack columns info ∧
        ∃ table, base' = base.insertTabble table (RequestParser.next [] ws).1 ∧ table.info = info := by
  obtain ⟨columns, hparse, hcolumns, hlength, table, hbase, hinfo⟩ :=
    DataBase.createTable_ok hway hws hrun
  refine ⟨columns, schemaOf columns, hparse, ?_, readBack_schemaOf columns, table, hbase, hinfo⟩
  rw [InfoLoader.loadFile_infoText hcolumns, if_pos hlength]

end

/-- The second column is called like a type. -/
def plainTable : List Text :=
  [str "t", str "name", str "STRING[10]", str "STRING", str "INT32"]

def shopBase : DataBase := ⟨str "/r/shop", str "shop", [], []⟩

theorem schema_file_round_trip_sample : ∃ columns info,
    DataBase.parseColumns plainTable.tail = .ok columns ∧
      InfoLoader.loadFile (DataBase.infoText columns) = .ok info ∧ ReadBack columns info := by
  obtain ⟨base', t', hrun⟩ := exists_of_isOk (r := (DataBase.createTable (Disk.files []) .reliable shopBase
    plainTable).run shopSystem.disk) (by decide +kernel)
  obtain ⟨columns, info, hparse, hload, hback, -⟩ :=
    schema_file_round_trip (by decide) (by decide +kernel) hrun
  exact ⟨columns, info, hparse, hload, hback⟩

/-- The table that was created has a sound layout only if its types say so. -/
theorem created_layout_iff {cwd : Loc} {os : Os} {base base' : DataBase} {ws : List Text} {t t' : Disk}
    (hway : base.absoluteWay ≠ []) (hws : ∀ w ∈ ws, IsWord w)
    (hrun : (DataBase.createTable (Disk.files cwd) os base ws).run t = .ok base' t') :
    ∃ table, base' = base.insertTabble table (RequestParser.next [] ws).1 ∧
      (SoundLayout (typeWords (RequestParser.next [] ws).2) table.info ↔
        (∀ word ∈ typeWords (RequestParser.next [] ws).2, SoundType word) ∧
          1 + ((typeWords (RequestParser.next [] ws).2).map writtenSize).sum < 2 ^ 64) := by
  obtain ⟨columns, hparse, -, -, table, hbase, hinfo⟩ := DataBase.createTable_ok hway hws hrun
  refine ⟨table, hbase, ?_⟩
  rw [hinfo]
  exact soundLayout_iff hparse

theorem created_layout_iff_sample : ∃ table : Tabble,
    SoundLayout (typeWords plainTable.tail) table.info := by
  obtain ⟨base', t', hrun⟩ := exists_of_isOk (r := (DataBase.createTable (Disk.files []) .reliable shopBase
    plainTable).run shopSystem.disk) (by decide +kernel)
  obtain ⟨table, -, hiff⟩ := created_layout_iff (by decide) (by decide +kernel) hrun
  refine ⟨table, hiff.mpr ⟨fun word hword => ?_, by decide⟩⟩
  have hword' : word ∈ [str "STRING[10]", str "INT32"] := hword
  rcases List.mem_pair.mp hword' with rfl | rfl
  · exact .inr ⟨str "10", rfl, by decide, by decide +kernel, by decide +kernel⟩
  · exact .inl (by decide)

/-- `t x STRING`: the column has no bytes. -/
theorem created_without_bytes : ¬ ∀ (cwd : Loc) (os : Os) (base base' : DataBase) (ws : List Text)
    (t t' : Disk) (table : Tabble), base.absoluteWay ≠ [] → (∀ w ∈ ws, IsWord w) →
      (DataBase.createTable (Disk.files cwd) os base ws).run t = .ok base' t' →
        base' = base.insertTabble table (RequestParser.next [] ws).1 →
          SoundLayout (typeWords (RequestParser.next [] ws).2) table.info := by
  intro h
  obtain ⟨base', t', hrun⟩ := exists_of_isOk (r := (DataBase.createTable (Disk.files []) .reliable shopBase
    [str "t", str "x", str "STRING"]).run shopSystem.disk) (by decide +kernel)
  obtain ⟨columns, hparse, -, -, table, hbase, hinfo⟩ :=
    DataBase.createTable_ok (by decide) (by decide +kernel) hrun
  have hcolumns : columns = [(str "x", .string, 0)] := by
    have hone : DataBase.parseColumns [str "x", str "STRING"] = .ok [(str "x", .string, 0)] := by
      decide +kernel
    exact Except.ok.inj (hparse.symm.trans hone)
  have layout := h _ _ _ _ _ _ _ table (by decide) (by decide +kernel) hrun hbase
  rw [hinfo, hcolumns] at layout
  exact absurd (layout.sizes _ List.mem_cons_self) (by decide)

end SQLid
