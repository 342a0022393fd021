import SQLid.Catalogue

/-!
# New tables

CREATE TABLE on the directory of a database: it stops before it has made anything, or makes
the directory of a table without rows, unless a growth is refused.
-/
namespace SQLid
open Bytes (Text)
open CppText (str IsWord)
open FileTree (Node Grown look put)
open Programs

/-! Names of directories. -/

theorem fileName_or_dots {name : Text} (hne : name ≠ []) (hvalid : hasInvalidCharacter name = false)
    (hzero : 0 ∉ name) : IsFileName name ∨ name = str "." ∨ name = str ".." := by
  have hslash : 47 ∉ name := by
    intro hmem
    have hbad : hasInvalidCharacter name = true := List.any_eq_true.mpr ⟨47, hmem, by decide⟩
    rw [hvalid] at hbad
    cases hbad
  by_cases hdot : name = str "."
  · exact .inr (.inl hdot)
  · by_cases hdots : name = str ".."
    · exact .inr (.inr hdots)
    · exact .inl ⟨hne, hdot, hdots, hslash, hzero⟩

namespace Disk
variable {cwd R : Loc} {d : Disk} {root : Text}

/-- Nothing can be made where a path ends in a link of its directory. -/
theorem Opens.node_dots (h : Opens cwd d root R) (hg : Grown d) {name : Text} (hname : name = str "." ∨ name = str "..") :
    Disk.node cwd d (joinPath root name) = some .dir := by
  have hparent : look d R.dropLast = some .dir := by
    by_cases hnil : R = []
    · subst hnil
      rfl
    · have hwhole : look d (R.dropLast ++ [R.getLast hnil]) = some .dir := by
        rw [List.dropLast_append_getLast]
        exact h.dir
      exact hg.ancestor (List.cons_ne_nil _ []) hwhole
  have hwalk (move : FileTree.Move FileName) : FileTree.walk d R [move] = some (move.apply R) := by
    simp only [FileTree.walk]
    rw [if_pos (FileTree.isDir_iff.mpr h.dir)]
  unfold Disk.node
  rcases hname with rfl | rfl
  · rw [h.find_joinPath (by decide) (by decide) (by decide), show Path.moves (str ".") = [.stay] by decide, hwalk]
    exact h.dir
  · rw [h.find_joinPath (by decide) (by decide) (by decide), show Path.moves (str "..") = [.up] by decide, hwalk]
    exact hparent

theorem look_below_none (hg : Grown d) {loc rest : Loc} (hnone : look d loc = none) : look d (loc ++ rest) = none := by
  by_cases hrest : rest = []
  · rwa [hrest, List.append_nil]
  · cases hlook : look d (loc ++ rest) with
    | none => rfl
    | some node =>
        rw [hg.ancestor hrest hlook] at hnone
        cases hnone

end Disk

/-! Schemas. -/

theorem layout_columnsFrom {columns : List (Text × ColumnType × Nat)} {offset : Nat}
    (hfit : offset + (columns.map (·.2.2)).sum < 2 ^ 64) : OffsetsFrom offset (columnsFrom offset columns) ∧
      sizeSum (columnsFrom offset columns) = (columns.map (·.2.2)).sum := by
  induction columns generalizing offset with
  | nil => exact ⟨trivial, rfl⟩
  | cons c columns ih =>
      obtain ⟨name, type, size⟩ := c
      rw [List.map_cons, List.sum_cons] at hfit
      dsimp only at hfit
      have hadd : sizeAdd offset size = offset + size := sizeAdd_eq (by omega)
      have hrest : offset + size + (columns.map (·.2.2)).sum < 2 ^ 64 := by omega
      obtain ⟨hoffsets, hsum⟩ := ih hrest
      unfold columnsFrom
      rw [hadd]
      refine ⟨⟨rfl, hoffsets⟩, ?_⟩
      rw [sizeSum_cons, hsum, List.map_cons, List.sum_cons]

/-- Columns whose lines are counted without wrapping, a hundred of them included. -/
structure Spacious (columns : List (Text × ColumnType × Nat)) : Prop where
  fits : (1 + (columns.map (·.2.2)).sum) * 100 < 2 ^ 64
  few : columns.length ≤ InfoLoader.maxColumns

theorem lineLength_spacious {columns : List (Text × ColumnType × Nat)} (h : Spacious columns) :
    (schemaOf columns).lineLength = 1 + (columns.map (·.2.2)).sum := by
  have hfits := h.fits
  rw [lineLength_schemaOf]
  exact Nat.mod_eq_of_lt (by omega)

theorem layout_schemaOf {columns : List (Text × ColumnType × Nat)} (h : Spacious columns)
    (hdeclared : ∀ c ∈ columns, Declared c) : (schemaOf columns).Layout := by
  have hfits := h.fits
  have hfit : 1 + (columns.map (·.2.2)).sum < 2 ^ 64 := by omega
  obtain ⟨hoffsets, hsum⟩ := layout_columnsFrom hfit
  refine ⟨(length_columnsFrom 1).symm, rfl, hoffsets, ?_, fun c hc htype => ?_⟩
  · rw [lineLength_spacious h]
    exact congrArg (1 + ·) hsum.symm
  · obtain ⟨c', hc', htype', hsize'⟩ : ∃ c' ∈ columns, c.type = c'.2.1 ∧ c.size = c'.2.2 := by
      have hmem : c ∈ columnsFrom 1 columns := hc
      clear hc hoffsets hsum
      generalize 1 = offset at hmem
      clear hfits hfit h hdeclared
      induction columns generalizing offset with
      | nil => cases hmem
      | cons c' columns ih =>
          rcases List.mem_cons.mp hmem with rfl | hmem
          · exact ⟨c', List.mem_cons_self, rfl, rfl⟩
          · obtain ⟨c'', hin, htype', hsize'⟩ := ih _ hmem
            exact ⟨c'', List.mem_cons_of_mem c' hin, htype', hsize'⟩
    rw [hsize', htype']
    exact (hdeclared c' hc').size (htype' ▸ htype)

theorem rowsOf_nothing (info : TabbleInfo) : rowsOf info (Disk.fileBytes []) = fun _ => none := by
  funext i
  unfold rowsOf
  rw [if_neg]
  rintro ⟨hlt, -⟩
  exact absurd hlt (Nat.not_lt_zero _)

/-! The directory of a new table. -/

/-- The disk with the two files of a new table. -/
def Disk.withTable (d : Disk) (D : Loc) (name : FileName) (columns : List (Text × ColumnType × Nat)) : Disk :=
  put (put (d ++ [(D ++ [name], .dir)]) (D ++ [name, name.info]) (.file (DataBase.infoText columns)))
    (D ++ [name, name.storage]) (.file [])

section withTable
variable {d : Disk} {D : Loc} {name : FileName} {columns : List (Text × ColumnType × Nat)}

theorem table_files_ne (D : Loc) (name : FileName) : D ++ [name, name.storage] ≠ D ++ [name, name.info] := by
  intro heq
  have htail := List.append_cancel_left heq
  simp only [List.cons.injEq, and_true, true_and] at htail
  exact name.info_ne_storage htail.symm

theorem look_withTable_info (d : Disk) (D : Loc) (name : FileName) (columns : List (Text × ColumnType × Nat)) :
    look (d.withTable D name columns) (D ++ [name, name.info]) = some (.file (DataBase.infoText columns)) := by
  unfold Disk.withTable
  rw [FileTree.look_put_other (table_files_ne D name).symm, FileTree.look_put_self (by simp)]

theorem look_withTable_storage (d : Disk) (D : Loc) (name : FileName) (columns : List (Text × ColumnType × Nat)) :
    look (d.withTable D name columns) (D ++ [name, name.storage]) = some (.file []) :=
  FileTree.look_put_self (by simp)

theorem look_withTable {loc : Loc} (hinfo : loc ≠ D ++ [name, name.info]) (hstorage : loc ≠ D ++ [name, name.storage]) :
    look (d.withTable D name columns) loc = look (d ++ [(D ++ [name], .dir)]) loc := by
  unfold Disk.withTable
  rw [FileTree.look_put_other hstorage, FileTree.look_put_other hinfo]

variable (hg : Grown d) (hdir : look d D = some .dir) (habsent : look d (D ++ [name]) = none)
include hg hdir habsent

theorem withTable_dir : look (d.withTable D name columns) (D ++ [name]) = some .dir := by
  rw [look_withTable (by simp) (by simp)]
  exact (Disk.made_dir hg hdir habsent).2.1

theorem look_withTable_other {loc : Loc} (hloc : ¬ D ++ [name] <+: loc) :
    look (d.withTable D name columns) loc = look d loc := by
  have hfile (file : FileName) : loc ≠ D ++ [name, file] := by
    rintro rfl
    exact hloc ⟨[file], by simp⟩
  rw [look_withTable (hfile _) (hfile _)]
  refine (Disk.made_dir hg hdir habsent).2.2.2 loc ?_
  rintro rfl
  exact hloc (List.prefix_refl _)

/-- Neither file is there yet. -/
theorem table_file_absent (file : FileName) : look (d ++ [(D ++ [name], .dir)]) (D ++ [name, file]) = none := by
  rw [(Disk.made_dir hg hdir habsent).2.2.2 _ (by simp)]
  have hbelow : look d (D ++ [name] ++ [file]) = none := Disk.look_below_none hg habsent
  rwa [List.append_assoc] at hbelow

theorem grown_withTable : Grown (d.withTable D name columns) := by
  obtain ⟨hgrown, hmade, -, -⟩ := Disk.made_dir hg hdir habsent
  have hdrop (file : FileName) : (D ++ [name, file]).dropLast = D ++ [name] := by
    rw [show D ++ [name, file] = D ++ [name] ++ [file] by simp, List.dropLast_concat]
  have hfirst : Grown (put (d ++ [(D ++ [name], .dir)]) (D ++ [name, name.info])
      (.file (DataBase.infoText columns))) := by
    refine hgrown.put ?_ ?_ _
    · rw [table_file_absent hg hdir habsent]
      simp
    · rw [hdrop]
      exact hmade
  refine hfirst.put ?_ ?_ _
  · rw [FileTree.look_put_other (table_files_ne D name), table_file_absent hg hdir habsent]
    simp
  · rw [hdrop, FileTree.look_put_other (by simp)]
    exact hmade

omit hg hdir habsent in
theorem storedTable_withTable (hdeclared : ∀ c ∈ columns, Declared c) (hspace : Spacious columns) :
    StoredTable (d.withTable D name columns) D name (schemaOf columns) fun _ => none := by
  refine ⟨layout_schemaOf hspace hdeclared, ?_, ?_, ?_⟩
  · rw [lineLength_spacious hspace]
    exact hspace.fits
  · refine ⟨_, look_withTable_info d D name columns, ?_⟩
    rw [InfoLoader.loadFile_infoText hdeclared, if_pos hspace.few]
  · exact ⟨_, look_withTable_storage d D name columns, .inl rfl, rowsOf_nothing _⟩

/-- The database has the table and those it had. -/
theorem storedBase_withTable {tables : Tables} (h : StoredBase d D tables) (hdeclared : ∀ c ∈ columns, Declared c)
    (hspace : Spacious columns) : StoredBase (d.withTable D name columns) D
      (Function.update tables name (some (schemaOf columns, fun _ => none))) := by
  have hother {other : FileName} (hne : other ≠ name) (rel : Loc) :
      look (d.withTable D name columns) (D ++ [other] ++ rel) = look d (D ++ [other] ++ rel) := by
    refine look_withTable_other hg hdir habsent fun hin => ?_
    have hapart := System.names_apart (R := D) hne.symm [] rel
    rw [List.append_nil] at hapart
    exact hapart hin
  refine ⟨fun other => ?_, fun other text hfile => ?_, fun other info rows htable => ?_⟩
  · by_cases hne : other = name
    · subst hne
      rw [withTable_dir hg hdir habsent, Function.update_self]
      simp
    · have hself := hother hne []
      rw [List.append_nil] at hself
      rw [hself, Function.update_of_ne hne]
      exact h.dirs other
  · by_cases hne : other = name
    · subst hne
      rw [withTable_dir hg hdir habsent] at hfile
      cases hfile
    · have hself := hother hne []
      rw [List.append_nil] at hself
      rw [hself] at hfile
      exact h.noFiles other text hfile
  · by_cases hne : other = name
    · subst hne
      rw [Function.update_self, Option.some.injEq, Prod.mk.injEq] at htable
      obtain ⟨rfl, rfl⟩ := htable
      exact storedTable_withTable hdeclared hspace
    · rw [Function.update_of_ne hne] at htable
      refine (h.table other info rows htable).congr fun file => ?_
      have hfile := hother hne [file]
      rwa [List.append_assoc] at hfile

end withTable

/-- What CREATE TABLE leaves. -/
structure TableMade (d d' : Disk) (D : Loc) (base base' : DataBase) (tables : Tables) (name : FileName)
    (info : TabbleInfo) : Prop where
  fresh : tables name = none
  grown : Grown d'
  opened : OpenBase base' (Function.update tables name (some (info, fun _ => none)))
  way : base'.absoluteWay = base.absoluteWay
  dbName : base'.dataBaseName = base.dataBaseName
  stored : StoredBase d' D (Function.update tables name (some (info, fun _ => none)))
  elsewhere : ∀ loc, ¬ D ++ [name] <+: loc → look d' loc = look d loc

namespace DataBase
variable {cwd D : Loc} {d : Disk} {base : DataBase} {tables : Tables} {ws : List Text}

theorem makeTable_made (os : Os) (hg : Grown d) (hway : Disk.Opens cwd d base.absoluteWay D)
    (hstored : StoredBase d D tables) (hopen : OpenBase base tables) {name : FileName}
    (habsent : look d (D ++ [name]) = none) {columns : List (Text × ColumnType × Nat)}
    (hdeclared : ∀ c ∈ columns, Declared c) (hspace : Spacious columns) :
    (∃ e d', (makeTable (Disk.files cwd) os base name.text columns).run d = .error e d' ∧ e.IsGrowth) ∨
      ∃ base' d', (makeTable (Disk.files cwd) os base name.text columns).run d = .ok base' d' ∧
        TableMade d d' D base base' tables name (schemaOf columns) := by
  obtain ⟨hgrown, hmade, -, -⟩ := Disk.made_dir hg hway.dir habsent
  have hmono (l : Loc) (hl : look d l = some .dir) : look (d ++ [(D ++ [name], .dir)]) l = some .dir :=
    FileTree.look_append_left hl
  have hfresh : tables name = none := by
    have hdirs := hstored.dirs name
    rw [habsent] at hdirs
    simpa using hdirs
  have hcreate : ((Disk.files cwd).createDirectory (joinPath base.absoluteWay name.text)).run d =
      .ok true (d ++ [(D ++ [name], .dir)]) := hway.createDirectory_absent habsent
  have hfind {d' : Disk} (hdirs : ∀ l, look d l = some .dir → look d' l = some .dir)
      (hthere : look d' (D ++ [name]) = some .dir) (file : FileName) (tail : Text) (htext : file.text = name.text ++ tail) :
      Disk.find cwd d' (base.absoluteWay ++ str "/" ++ name.text ++ str "/" ++ name.text ++ tail) =
        some (D ++ [name, file]) := by
    rw [List.append_assoc _ name.text tail, ← htext]
    exact (hway.mono hdirs).find_tableFile hthere file
  have hinfo := Disk.writeText_put (infoText columns) (hfind hmono hmade name.info _ rfl) (by
    rw [table_file_absent hg hway.dir habsent]
    simp)
  have hdirs' (l : Loc) (hl : look d l = some .dir) : look (put (d ++ [(D ++ [name], .dir)]) (D ++ [name, name.info])
      (.file (infoText columns))) l = some .dir := by
    rw [FileTree.look_put_other]
    · exact hmono l hl
    · rintro rfl
      have hnone := table_file_absent hg hway.dir habsent name.info
      rw [hmono _ hl] at hnone
      cases hnone
  have hmade' : look (put (d ++ [(D ++ [name], .dir)]) (D ++ [name, name.info]) (.file (infoText columns)))
      (D ++ [name]) = some .dir := by
    rw [FileTree.look_put_other (by simp)]
    exact hmade
  have hstorage := Disk.writeText_put [] (hfind hdirs' hmade' name.storage _ rfl) (by
    rw [FileTree.look_put_other (table_files_ne D name), table_file_absent hg hway.dir habsent]
    simp)
  have hgrown' : Grown (d.withTable D name columns) := grown_withTable hg hway.dir habsent
  have hthere : look (d.withTable D name columns) (D ++ [name]) = some .dir := withTable_dir hg hway.dir habsent
  have hway' : Disk.Opens cwd (d.withTable D name columns) base.absoluteWay D := by
    refine hway.mono fun l hl => ?_
    by_cases hin : D ++ [name] <+: l
    · obtain ⟨rest, rfl⟩ := hin
      rw [Disk.look_below_none hg habsent] at hl
      cases hl
    · rw [look_withTable_other hg hway.dir habsent hin]
      exact hl
  have hrun : (makeTable (Disk.files cwd) os base name.text columns).run d =
      (openTabble (Disk.files cwd) os base name.text).run (d.withTable D name columns) := by
    unfold makeTable
    dsimp only
    rw [run_bind_ok hcreate, if_pos rfl]
    exact (run_bind_ok hinfo).trans (run_bind_ok hstorage)
  have htable : StoredTable (d.withTable D name columns) D name (schemaOf columns) fun _ => none :=
    storedTable_withTable hdeclared hspace
  rw [hrun]
  rcases openTabble_stored os hway' hthere htable rfl hopen hfresh with ⟨t, hopened, hbase⟩ | ⟨e, hrefused, hgrowth⟩
  · exact .inr ⟨_, _, hopened, hfresh, hgrown', hbase, rfl, rfl,
      storedBase_withTable hg hway.dir habsent hstored hdeclared hspace,
      fun loc hloc => look_withTable_other hg hway.dir habsent hloc⟩
  · exact .inl ⟨e, _, hrefused, hgrowth⟩

/-- CREATE TABLE is refused with nothing changed, or a growth is refused, or there is a
table without rows under a name that was free. -/
theorem createTable_made (os : Os) (hg : Grown d) (hway : Disk.Opens cwd d base.absoluteWay D)
    (hstored : StoredBase d D tables) (hopen : OpenBase base tables) (hws : ∀ w ∈ ws, IsWord w)
    (hzero : 0 ∉ (RequestParser.next [] ws).1)
    (hspace : ∀ columns, parseColumns (RequestParser.next [] ws).2 = .ok columns → Spacious columns) :
    (∃ e, (createTable (Disk.files cwd) os base ws).run d = .error e d) ∨
      (∃ e d', (createTable (Disk.files cwd) os base ws).run d = .error e d' ∧ e.IsGrowth) ∨
        ∃ base' d' name info, (createTable (Disk.files cwd) os base ws).run d = .ok base' d' ∧
          TableMade d d' D base base' tables name info := by
  by_cases hrefused : Refused base ws
  · exact .inl (createTable_refused (Disk.files cwd) os hrefused d)
  obtain ⟨columns, hparse, -, hmake⟩ := createTable_checked (Disk.files cwd) os hrefused
  rw [hmake]
  have hne : (RequestParser.next [] ws).1 ≠ [] := fun h => hrefused (.inl h)
  have hvalid : hasInvalidCharacter (RequestParser.next [] ws).1 = false := by
    rw [Bool.eq_false_iff]
    exact fun h => hrefused (.inr (.inl h))
  have hrest : ∀ w ∈ (RequestParser.next [] ws).2, IsWord w := by
    intro w hw
    apply hws
    cases ws with
    | nil => exact hw
    | cons first ws => exact List.mem_cons_of_mem first hw
  rcases fileName_or_dots hne hvalid hzero with hname | hdots
  · obtain ⟨name, htext⟩ : ∃ name : FileName, (RequestParser.next [] ws).1 = name.text := ⟨⟨_, hname⟩, rfl⟩
    rw [htext]
    cases hthere : look d (D ++ [name]) with
    | some node =>
        refine .inl (makeTable_noRoom os (fun hroom => ?_) columns)
        have hnode := hway.node_name name
        rw [hroom.1, hthere] at hnode
        cases hnode
    | none =>
        right
        rcases makeTable_made os hg hway hstored hopen hthere (parseColumns_declared hrest hparse)
          (hspace columns hparse) with hgrowth | ⟨base', d', hrun, hmade⟩
        · exact .inl hgrowth
        · exact .inr ⟨base', d', name, schemaOf columns, hrun, hmade⟩
  · refine .inl (makeTable_noRoom os (fun hroom => ?_) columns)
    have hnode := hway.node_dots hg hdots
    rw [hroom.1] at hnode
    cases hnode

end DataBase
end SQLid
