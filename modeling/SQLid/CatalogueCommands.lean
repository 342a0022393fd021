import SQLid.CatalogueUpdates
import SQLid.Sessions

/-!
# Commands on the catalogue

CREATE DATABASE, CREATE TABLE, DROP, BACKUP, RESTORE and the queries: each is refused with
nothing changed, or takes one step of the catalogue with the registry and the disk in
agreement again, unless a table that is opened is refused a growth.
-/
namespace SQLid
open Bytes (Text)
open CppText (str IsWord)
open FileTree (Node Grown look prune below graft)
open Programs

namespace Disk
variable {cwd R : Loc} {d : Disk} {root : Text}

theorem endsInDots_name (hroot : 0 ∉ root) (name : FileName) : endsInDots (joinPath root name.text) = false := by
  have hzero : 0 ∉ joinPath root name.text := fun hin =>
    (Path.zero_mem_joinPath hin).elim hroot name.valid.2.2.2.2
  have hname : name.text.splitOn 47 = [name.text] := List.splitOn_eq_singleton name.valid.2.2.2.1
  have hslash (a : Text) : (a ++ 47 :: name.text).splitOn 47 = a.splitOn 47 ++ [name.text] := by
    rw [List.splitOn_append_cons_of_beq a name.text (beq_self_eq_true 47), hname]
  have hsplit : ∃ front, (joinPath root name.text).splitOn 47 = front ++ [name.text] := by
    unfold joinPath
    rw [if_neg (Path.head_fileName name)]
    by_cases hend : root.getLast? = some 47
    · obtain ⟨a, rfl⟩ : ∃ a, root = a ++ [47] := List.getLast?_eq_some_iff.mp hend
      rw [if_pos (by simp), List.append_assoc, List.singleton_append]
      exact ⟨_, hslash a⟩
    · by_cases hnil : root = []
      · rw [if_pos (by simp [hnil]), hnil, List.nil_append]
        exact ⟨[], hname⟩
      · rw [if_neg (by simp [hnil, hend]), List.append_assoc]
        exact ⟨_, hslash root⟩
  obtain ⟨front, hfront⟩ := hsplit
  have hlast : (((joinPath root name.text).splitOn 47).filter (fun part => part ≠ [])).getLast? = some name.text := by
    rw [hfront, List.filter_append, List.filter_cons_of_pos (by simpa using name.valid.1), List.filter_nil]
    exact List.getLast?_concat
  unfold endsInDots
  rw [Path.cString_of_not_mem hzero, hlast]
  simp [name.valid.2.1, name.valid.2.2.1]

/-- A name below a directory is removed with all that is below it. -/
theorem Opens.removeAll_name (h : Opens cwd d root R) (name : FileName) :
    (removeAll cwd (joinPath root name.text)).run d = .ok () (prune d (R ++ [name])) := by
  change removeAll cwd _ d = _
  unfold removeAll
  rw [h.find_name name]
  dsimp only
  rw [endsInDots_name h.zero name, if_neg (by simp)]

theorem Opens.pathExists_name (h : Opens cwd d root R) (name : FileName) :
    ((files cwd).pathExists (joinPath root name.text)).run d = .ok (look d (R ++ [name])).isSome d := by
  change EStateM.Result.ok (node cwd d (joinPath root name.text)).isSome d = _
  rw [h.node_name name]

end Disk

/-- A database without tables. -/
theorem DataBase.construct_empty {cwd D : Loc} {d : Disk} {way : Text} (os : Os) (hway : Disk.Opens cwd d way D)
    (hempty : below d D = []) (dbName : Text) :
    (construct (Disk.files cwd) os way dbName).run d = .ok ⟨way, dbName, [], []⟩ d := by
  have hlist : ((Disk.files cwd).directoryIterator way).run d = .ok [] d := by
    change Disk.directoryIterator cwd way d = _
    unfold Disk.directoryIterator
    rw [hway.find]
    dsimp only
    rw [if_pos (FileTree.isDir_iff.mpr hway.dir)]
    unfold FileTree.children
    rw [hempty]
    rfl
  unfold construct
  rw [run_bind_ok hlist]
  rfl

theorem storedBase_empty {d : Disk} {D : Loc} (hg : Grown d) (hempty : below d D = []) : StoredBase d D .empty := by
  have hnone (name : FileName) : look d (D ++ [name]) = none := by
    cases hlook : look d (D ++ [name]) with
    | none => rfl
    | some node =>
        have hmem := hg.mem_children.mpr hlook
        unfold FileTree.children at hmem
        rw [hempty] at hmem
        cases hmem
  refine ⟨fun name => ?_, fun name text => ?_, fun name info rows htable => by cases htable⟩
  · rw [hnone]
    simp [Tables.empty]
  · rw [hnone]
    simp

abbrev Catalogue.Step := Archive.Step (ν := FileName) Tables.Changed Tables.empty

section Holds
variable {cwd R : Loc} {area : FileName} {s : System Disk} {st : Catalogue}

theorem Holds.opens (h : Holds cwd R area s st) : Disk.Opens cwd s.disk s.absolutePath R :=
  h.root.opens h.disk.grown h.disk.root

theorem Holds.not_area (h : Holds cwd R area s st) {name : FileName} {tables : Tables}
    (htables : st.live name = some tables) : name ≠ area := by
  rintro rfl
  rw [h.disk.free] at htables
  cases htables

/-- Nothing is live under a name that leads nowhere. -/
theorem Holds.live_none (h : Holds cwd R area s st) {name : FileName} (hnone : look s.disk (R ++ [name]) = none) :
    st.live name = none := by
  cases htables : st.live name with
  | none => rfl
  | some tables =>
      rw [(h.disk.base name tables htables).1] at hnone
      cases hnone

end Holds

namespace System
variable {cwd R : Loc} {area : FileName} {s : System Disk} {st : Catalogue}

/-- A name nothing stands under. -/
theorem createDataBase_new (os : Os) (hg : Grown s.disk) (hroot : Disk.Opens cwd s.disk s.absolutePath R)
    {name : FileName} (hvalid : hasInvalidCharacter name.text = false) (hnone : look s.disk (R ++ [name]) = none) :
    (createDataBase (Disk.files cwd) os name.text).run s =
      .ok () (({ s with disk := s.disk ++ [(R ++ [name], .dir)] } : System Disk).registered name.text
        ⟨s.absolutePath ++ str "/" ++ name.text, name.text, [], []⟩) := by
  obtain ⟨-, hmade, hempty, -⟩ := Disk.made_dir hg hroot.dir hnone
  have hexists := hroot.pathExists_name name
  rw [hnone] at hexists
  have hcreate : ((Disk.files cwd).createDirectory (joinPath s.absolutePath name.text)).run s.disk =
      .ok true (s.disk ++ [(R ++ [name], .dir)]) := hroot.createDirectory_absent hnone
  have hopens : Disk.Opens cwd (s.disk ++ [(R ++ [name], .dir)]) s.absolutePath R :=
    hroot.mono fun l hl => FileTree.look_append_left hl
  have hconstruct := DataBase.construct_empty os (hopens.slash_name hmade) hempty name.text
  unfold createDataBase
  rw [run_bind_ok (run_throwIf_false name.valid.1 s), run_bind_ok (run_throwIf_false (Bool.eq_false_iff.mp hvalid) s),
    run_bind_ok (EStateM.run_get s)]
  dsimp only
  rw [run_bind_ok (run_onDisk_ok hexists), run_bind_ok (run_throwIf_false (by simp) _),
    run_bind_ok (run_onDisk_ok hcreate), run_bind_ok (run_throwIf_false (by simp) _),
    run_bind_ok (run_onDisk_ok hconstruct)]
  rfl

theorem createDataBase_holds (os : Os) (h : Holds cwd R area s st) {text : Text} (hzero : 0 ∉ text) :
    (∃ e, (createDataBase (Disk.files cwd) os text).run s = .error e s) ∨
      ∃ (name : FileName) (s' : System Disk), text = name.text ∧
        (createDataBase (Disk.files cwd) os text).run s = .ok () s' ∧
          Catalogue.Step (.create name) st (st.setLive name (some .empty)) ∧
            Holds cwd R area s' (st.setLive name (some .empty)) := by
  have hroot := h.opens
  have hstart (hnil : text ≠ []) (hinvalid : ¬ hasInvalidCharacter text = true)
      {node : Node Text} (hthere : Disk.node cwd s.disk (joinPath s.absolutePath text) = some node) :
      ∃ e, (createDataBase (Disk.files cwd) os text).run s = .error e s := by
    have hexists : ((Disk.files cwd).pathExists (joinPath s.absolutePath text)).run s.disk = .ok true s.disk := by
      change EStateM.Result.ok (Disk.node cwd s.disk (joinPath s.absolutePath text)).isSome s.disk = _
      rw [hthere]
      rfl
    unfold createDataBase
    rw [run_bind_ok (run_throwIf_false hnil s), run_bind_ok (run_throwIf_false hinvalid s),
      run_bind_ok (EStateM.run_get s)]
    dsimp only
    rw [run_bind_ok (run_onDisk_ok hexists)]
    exact ⟨_, run_bind_error (run_throwIf_true rfl _)⟩
  by_cases hnil : text = []
  · exact .inl ⟨_, run_bind_error (run_throwIf_true hnil s)⟩
  by_cases hinvalid : hasInvalidCharacter text = true
  · exact .inl ⟨_, (run_bind_ok (run_throwIf_false hnil s)).trans (run_bind_error (run_throwIf_true hinvalid s))⟩
  rcases fileName_or_dots hnil (Bool.eq_false_iff.mpr hinvalid) hzero with hname | hdots
  · obtain ⟨name, rfl⟩ : ∃ name : FileName, text = name.text := ⟨⟨text, hname⟩, rfl⟩
    cases hthere : look s.disk (R ++ [name]) with
    | some node => exact .inl (hstart hnil hinvalid ((hroot.node_name name).trans hthere))
    | none =>
        obtain ⟨hgrown, hmade, hempty, hother⟩ := Disk.made_dir h.disk.grown h.disk.root hthere
        have hfree := h.live_none hthere
        have harea : name ≠ area := by
          rintro rfl
          rw [h.disk.place] at hthere
          cases hthere
        refine .inr ⟨name, _, rfl, createDataBase_new os h.disk.grown hroot (Bool.eq_false_iff.mpr hinvalid) hthere,
          .create hfree, h.root, (h.memory.onDisk _).registered hfree rfl (openBase_empty _ _) (h.root.slash name), ?_⟩
        refine h.disk.setLive harea hgrown (fun loc hloc => hother loc ?_) (fun tables heq => ?_) fun _ => rfl
        · rintro rfl
          exact hloc (List.prefix_refl _)
        · cases heq
          exact ⟨hmade, storedBase_empty hgrown hempty⟩
  · exact .inl (hstart hnil hinvalid (hroot.node_dots h.disk.grown hdots))

theorem createTable_holds (os : Os) (h : Holds cwd R area s st) {ws : List Text} (hws : ∀ w ∈ ws, IsWord w)
    (hzero : ∀ w ∈ ws, 0 ∉ w)
    (hspace : ∀ columns, DataBase.parseColumns (RequestParser.next [] (RequestParser.next [] ws).2).2 = .ok columns →
      Spacious columns) :
    (∃ e, (createTable (Disk.files cwd) os ws).run s = .error e s) ∨
      (∃ e s', (createTable (Disk.files cwd) os ws).run s = .error e s' ∧ e.IsGrowth) ∨
        ∃ (name : FileName) (s' : System Disk) (st' : Catalogue), (RequestParser.next [] ws).1 = name.text ∧
          (createTable (Disk.files cwd) os ws).run s = .ok () s' ∧
            Catalogue.Step (.change name) st st' ∧ Holds cwd R area s' st' := by
  unfold createTable
  dsimp only
  rw [run_bind_ok (EStateM.run_get s)]
  cases hid : s.nameBase.lookup (RequestParser.next [] ws).1 with
  | none =>
      have hget : s.getDataBase (RequestParser.next [] ws).1 = .error .outOfRange := by
        unfold getDataBase getDataBaseId
        rw [hid]
        rfl
      rw [hget]
      exact .inl ⟨_, run_bind_error (run_ofExcept_error _ s)⟩
  | some id =>
      obtain ⟨name, tables, base, htext, htables, hbase, hopen, hway, hdbName⟩ := h.memory.found hid
      have hgetId : s.getDataBaseId (RequestParser.next [] ws).1 = .ok id := by
        unfold getDataBaseId
        rw [hid]
      have hget : s.getDataBase (RequestParser.next [] ws).1 = .ok base := by
        unfold getDataBase
        rw [hgetId]
        change s.getDataBaseById id = .ok base
        unfold getDataBaseById
        rw [hbase]
      rw [hget, run_bind_ok (run_ofExcept_ok base s), run_bind_ok (EStateM.run_get s), hgetId,
        run_bind_ok (run_ofExcept_ok id s)]
      obtain ⟨hdir, hstored⟩ := h.disk.base name tables htables
      have hrest : ∀ w ∈ (RequestParser.next [] ws).2, w ∈ ws := by
        intro w hw
        cases ws with
        | nil => exact hw
        | cons first ws => exact List.mem_cons_of_mem first hw
      have hfirst : 0 ∉ (RequestParser.next [] (RequestParser.next [] ws).2).1 := by
        cases hnext : (RequestParser.next [] ws).2 with
        | nil => exact List.not_mem_nil
        | cons first rest => exact hzero first (hrest first (hnext ▸ List.mem_cons_self))
      rcases DataBase.createTable_made os h.disk.grown (hway.opens h.disk.grown hdir) hstored hopen
        (fun w hw => hws w (hrest w hw)) hfirst hspace with
        ⟨e, hrun⟩ | ⟨e, d', hrun, hgrowth⟩ | ⟨base', d', tableName, info, hrun, hmade⟩
      · exact .inl ⟨e, run_bind_error (run_onDisk_error hrun)⟩
      · exact .inr (.inl ⟨e, _, run_bind_error (run_onDisk_error hrun), hgrowth⟩)
      · have hslot := run_setSlot (s := { s with disk := d' }) (h.memory.slot_lt hid) (some base')
        have hid' : s.nameBase.lookup name.text = some id := htext ▸ hid
        have hname := h.not_area htables
        refine .inr (.inr ⟨name, { s with bases := s.bases.set id (some base'), disk := d' },
          st.setLive name (some (Function.update tables tableName (some (info, fun _ => none)))), htext, ?_, .change htables (.inr ⟨tableName, info, hmade.fresh, rfl⟩),
          h.root, (h.memory.setSlot hid' (hmade.dbName.trans hdbName) hmade.opened (hmade.way ▸ hway)).onDisk d', ?_⟩)
        · rw [run_bind_ok (run_onDisk_ok hrun)]
          exact hslot
        · refine h.disk.setLive hname hmade.grown (fun loc hloc => ?_) (fun tables' heq => ?_) fun _ => rfl
          · exact hmade.elsewhere loc fun hin => hloc ((List.prefix_append _ _).trans hin)
          · cases heq
            refine ⟨?_, hmade.stored⟩
            rw [hmade.elsewhere, hdir]
            intro hin
            have hlength := hin.length_le
            simp at hlength

theorem deleteDatabase_holds (h : Holds cwd R area s st) (text : Text) :
    (∃ e, (deleteDatabase (Disk.files cwd) text).run s = .error e s) ∨
      ∃ (name : FileName) (id : Nat) (s' : System Disk), text = name.text ∧
        (deleteDatabase (Disk.files cwd) text).run s = .ok id s' ∧
          Catalogue.Step (.remove name) st (st.setLive name none) ∧ Holds cwd R area s' (st.setLive name none) := by
  unfold deleteDatabase
  rw [run_bind_ok (EStateM.run_get s)]
  cases hid : s.nameBase.lookup text with
  | none => exact .inl ⟨_, rfl⟩
  | some id =>
      obtain ⟨name, tables, base, rfl, htables, -, -, -, -⟩ := h.memory.found hid
      obtain ⟨hdir, -⟩ := h.disk.base name tables htables
      have hslot := run_setSlot (h.memory.slot_lt hid) none
      obtain ⟨found, hfound, hthere⟩ := run_isExistingDirectory cwd s.disk (joinPath s.absolutePath name.text)
      have hremove : ((isExistingDirectory (Disk.files cwd) (joinPath s.absolutePath name.text) >>= fun found =>
          if found then (Disk.files cwd).removeAll (joinPath s.absolutePath name.text) else pure ()) :
            EStateM Fault Disk Unit).run s.disk = .ok () (prune s.disk (R ++ [name])) := by
        rw [h.opens.node_name name] at hthere
        rw [run_bind_ok hfound, hthere.mpr hdir]
        exact h.opens.removeAll_name name
      refine .inr ⟨name, id, { s.dropped name.text id with disk := prune s.disk (R ++ [name]) }, rfl, ?_,
        .remove htables, h.root, (h.memory.dropped hid).onDisk _, ?_⟩
      · dsimp only
        rw [run_bind_ok hslot]
        have hforget : (unregister name.text).run { s with bases := s.bases.set id none } =
            .ok () (s.dropped name.text id) := rfl
        rw [run_bind_ok hforget, run_bind_ok (EStateM.run_get _)]
        have hcatch {handle : Text → EStateM Fault (System Disk) Unit} :
            (catchFilesystem (onDisk (isExistingDirectory (Disk.files cwd) (joinPath s.absolutePath name.text) >>=
              fun found => if found then (Disk.files cwd).removeAll (joinPath s.absolutePath name.text)
                else pure ())) handle).run (s.dropped name.text id) =
              .ok () { s.dropped name.text id with disk := prune s.disk (R ++ [name]) } := by
          unfold catchFilesystem
          rw [run_tryCatch, run_onDisk_ok (s := s.dropped name.text id) hremove]
        exact run_bind_ok hcatch
      · refine h.disk.setLive (h.not_area htables) (h.disk.grown.prune _) (fun loc hloc =>
          FileTree.look_prune_outside hloc) (fun tables heq => by cases heq) fun hgone => ?_
        rw [FileTree.look_prune_inside (by simp) (List.prefix_refl _)] at hgone
        cases hgone

theorem backUpDatabase_holds (h : Holds cwd R area s st) (harea : area.text = backUpName) {text copy : Text}
    (hzero : 0 ∉ copy) :
    (∃ e, (backUpDatabase (Disk.files cwd) text copy).run s = .error e s) ∨
      ∃ (name b : FileName) (tables : Tables) (s' : System Disk), text = name.text ∧ copy = b.text ∧
        (backUpDatabase (Disk.files cwd) text copy).run s = .ok () s' ∧ st.live name = some tables ∧
          Catalogue.Step (.save name b) st { st with archive := Function.update st.archive b (some tables) } ∧
            Holds cwd R area s' { st with archive := Function.update st.archive b (some tables) } := by
  have hstart : (backUpDatabase (Disk.files cwd) text copy).run s = _ := run_bind_ok (EStateM.run_get s)
  cases hid : s.nameBase.lookup text with
  | none =>
      rw [hstart]
      exact .inl ⟨_, run_bind_error (run_throwIf_true hid s)⟩
  | some id =>
      obtain ⟨name, tables, base, rfl, htables, -, -, -, -⟩ := h.memory.found hid
      obtain ⟨hdir, -⟩ := h.disk.base name tables htables
      have hfound : ¬ s.nameBase.lookup name.text = none := by simp [hid]
      by_cases hbad : copy = [] ∨ hasInvalidCharacter copy = true
      · rw [hstart, run_bind_ok (run_throwIf_false hfound s)]
        exact .inl ⟨_, run_bind_error (run_throwIf_true hbad s)⟩
      obtain ⟨hnil, hinvalid⟩ := not_or.mp hbad
      rcases fileName_or_dots hnil (Bool.eq_false_iff.mpr hinvalid) hzero with hname | hdots
      · obtain ⟨b, rfl⟩ : ∃ b : FileName, copy = b.text := ⟨⟨copy, hname⟩, rfl⟩
        rcases backUpDatabase_run h.disk.grown h.opens harea name b with hrefused | ⟨-, -, hnew, hgrown, hrun⟩
        · exact .inl hrefused
        · have hnone : st.archive b = none := by
            cases hb : st.archive b with
            | none => rfl
            | some tables' =>
                rw [(h.disk.copy b tables' hb).1] at hnew
                cases hnew
          have hout : ¬ R ++ [name] <+: R ++ [area] ++ [b] := not_below_other (h.not_area htables).symm [b]
          have hself := look_backedUp h.disk.grown h.disk.place hdir hnew hout []
          rw [List.append_nil, List.append_nil, hdir] at hself
          exact .inr ⟨name, b, tables, _, rfl, rfl, hrun, htables, .save htables hnone, h.root, h.memory.onDisk _,
            h.disk.saved htables hnone hgrown hself (look_backedUp h.disk.grown h.disk.place hdir hnew hout)
              fun loc hloc => look_backedUp_other h.disk.grown h.disk.place hnew hloc⟩
      · -- a link of the backup area is there already
        obtain ⟨found, hsource, hthere⟩ := run_isExistingDirectory cwd s.disk (joinPath s.absolutePath name.text)
        have hopens := h.opens.name h.disk.place
        rw [harea] at hopens
        have hmake : ((Disk.files cwd).createDirectory (joinPath (joinPath s.absolutePath backUpName) copy)).run s.disk =
            .ok false s.disk := by
          change Disk.createDirectory cwd _ s.disk = _
          unfold Disk.createDirectory
          rw [hopens.node_dots h.disk.grown hdots]
        rw [h.opens.node_name name] at hthere
        rw [hthere.mpr hdir] at hsource
        rw [hstart, run_bind_ok (run_throwIf_false hfound s), run_bind_ok (run_throwIf_false hbad s),
          run_bind_ok (run_onDisk_ok hsource), run_bind_ok (run_throwIf_false (by simp) _),
          run_bind_ok (run_onDisk_ok hmake)]
        exact .inl ⟨_, run_bind_error (run_throwIf_true rfl _)⟩

/-! RESTORE. -/

/-- What a restored directory holds. -/
structure Remade (cwd R : Loc) (d d' : Disk) (root : Text) (name : FileName) (base : DataBase) (tables : Tables) :
    Prop where
  grown : Grown d'
  dir : look d' (R ++ [name]) = some .dir
  stored : StoredBase d' (R ++ [name]) tables
  elsewhere : ∀ loc, ¬ R ++ [name] <+: loc → look d' loc = look d loc
  opened : OpenBase base tables
  dbName : base.dataBaseName = name.text
  way : Straight cwd base.absoluteWay (R ++ [name])

/-- Whatever stands under the name is removed first. -/
theorem cleared_name {root : Text} {d : Disk} (hg : Grown d) (hroot : Disk.Opens cwd d root R) (name : FileName) :
    ∃ d', ((do
        if ← (Disk.files cwd).pathExists (joinPath root name.text) then
          (Disk.files cwd).removeAll (joinPath root name.text)) : EStateM Fault Disk Unit).run d = .ok () d' ∧
      Grown d' ∧ look d' (R ++ [name]) = none ∧ ∀ loc, ¬ R ++ [name] <+: loc → look d' loc = look d loc := by
  have hexists := hroot.pathExists_name name
  cases hthere : look d (R ++ [name]) with
  | none =>
      rw [hthere] at hexists
      exact ⟨d, run_bind_ok hexists, hg, hthere, fun _ _ => rfl⟩
  | some node =>
      rw [hthere] at hexists
      refine ⟨prune d (R ++ [name]), (run_bind_ok hexists).trans (hroot.removeAll_name name), hg.prune _,
        FileTree.look_prune_inside (by simp) (List.prefix_refl _), fun loc hloc => FileTree.look_prune_outside hloc⟩

theorem rebuild_made (os : Os) {d : Disk} {root : Text} (hg : Grown d) (hroot : Straight cwd root R)
    (harea : look d (R ++ [area]) = some .dir) {b name : FileName} (hname : name ≠ area)
    (hdir : look d (R ++ [area] ++ [b]) = some .dir) {tables : Tables}
    (hstored : StoredBase d (R ++ [area] ++ [b]) tables) :
    (∃ e d', (rebuild (Disk.files cwd) os (joinPath (joinPath root area.text) b.text) (joinPath root name.text)
        name.text).run d = .error e d' ∧ e.IsGrowth) ∨
      ∃ base d', (rebuild (Disk.files cwd) os (joinPath (joinPath root area.text) b.text) (joinPath root name.text)
        name.text).run d = .ok base d' ∧ Remade cwd R d d' root name base tables := by
  have hR : look d R = some .dir := hg.ancestor (List.cons_ne_nil area []) harea
  obtain ⟨d₁, hclear, hg₁, hgone, helse₁⟩ := cleared_name hg (hroot.opens hg hR) name
  have hR₁ : look d₁ R = some .dir := by
    refine (helse₁ R fun hin => ?_).trans hR
    have hlength := hin.length_le
    simp at hlength
  obtain ⟨hg₂, hmade, hempty, hother⟩ := Disk.made_dir hg₁ hR₁ hgone
  have hsource (rel : Loc) : look (d₁ ++ [(R ++ [name], .dir)]) (R ++ [area] ++ rel) = look d (R ++ [area] ++ rel) := by
    have hout := not_below_other (R := R) hname.symm rel
    rw [hother _ fun heq => hout (heq ▸ List.prefix_refl _), helse₁ _ hout]
  have hareaSelf := hsource []
  rw [List.append_nil, harea] at hareaSelf
  have hfrom : Disk.Opens cwd (d₁ ++ [(R ++ [name], .dir)]) (joinPath (joinPath root area.text) b.text)
      (R ++ [area] ++ [b]) :=
    ((hroot.joinPath area).joinPath b).opens hg₂ ((hsource [b]).trans hdir)
  have hto : Disk.Opens cwd (d₁ ++ [(R ++ [name], .dir)]) (joinPath root name.text) (R ++ [name]) :=
    (hroot.joinPath name).opens hg₂ hmade
  obtain ⟨hg₃, hcopy⟩ := Disk.copyTree_run hg₂ hfrom hto hempty
  have hcreate : ((Disk.files cwd).createDirectory (joinPath root name.text)).run d₁ =
      .ok true (d₁ ++ [(R ++ [name], .dir)]) := (hroot.opens hg₁ hR₁).createDirectory_absent hgone
  have hdir₃ : look (graft (d₁ ++ [(R ++ [name], .dir)]) (R ++ [area] ++ [b]) (R ++ [name])) (R ++ [name]) =
      some .dir := by
    rw [FileTree.look_graft_other (by simp)]
    exact hmade
  have hstored₃ : StoredBase (graft (d₁ ++ [(R ++ [name], .dir)]) (R ++ [area] ++ [b]) (R ++ [name])) (R ++ [name])
      tables := by
    refine hstored.congr fun rel hrel => ?_
    have hrest := hsource ([b] ++ rel)
    rw [← List.append_assoc] at hrest
    rw [FileTree.look_graft hempty hrel, hrest]
  have helse₃ (loc : Loc) (hloc : ¬ R ++ [name] <+: loc) :
      look (graft (d₁ ++ [(R ++ [name], .dir)]) (R ++ [area] ++ [b]) (R ++ [name])) loc = look d loc := by
    rw [FileTree.look_graft_other fun hin => hloc hin.1, hother loc, helse₁ loc hloc]
    rintro rfl
    exact hloc (List.prefix_refl _)
  have hrun : (rebuild (Disk.files cwd) os (joinPath (joinPath root area.text) b.text) (joinPath root name.text)
      name.text).run d = (DataBase.construct (Disk.files cwd) os (joinPath root name.text) name.text).run
        (graft (d₁ ++ [(R ++ [name], .dir)]) (R ++ [area] ++ [b]) (R ++ [name])) := by
    have hfirst : (rebuild (Disk.files cwd) os (joinPath (joinPath root area.text) b.text) (joinPath root name.text)
        name.text) = ((do
          if ← (Disk.files cwd).pathExists (joinPath root name.text) then
            (Disk.files cwd).removeAll (joinPath root name.text)) >>= fun _ => (do
          let _ ← (Disk.files cwd).createDirectory (joinPath root name.text)
          copyTree (Disk.files cwd) (joinPath (joinPath root area.text) b.text) (joinPath root name.text)
          DataBase.construct (Disk.files cwd) os (joinPath root name.text) name.text)) := by
      unfold rebuild
      rw [bind_assoc]
      congr 1
      funext found
      cases found <;> rfl
    rw [hfirst, run_bind_ok hclear, run_bind_ok hcreate, run_bind_ok hcopy]
  rw [hrun]
  rcases DataBase.construct_stored os hg₃ ((hroot.joinPath name).opens hg₃ hdir₃) hstored₃ name.text with
    ⟨base, hopen, hway, hdbName, hopened⟩ | ⟨e, hrefused, hgrowth⟩
  · exact .inr ⟨base, _, hopen, hg₃, hdir₃, hstored₃, helse₃, hopened, hdbName, hway ▸ hroot.joinPath name⟩
  · exact .inl ⟨e, _, hrefused, hgrowth⟩

/-- A refused growth is not caught. -/
theorem catchFilesystem_growth {x : EStateM Fault (System Disk) Unit} {handle : Text → EStateM Fault (System Disk) Unit}
    {s' : System Disk} {e : Fault} (hx : x.run s = .error e s') (he : e.IsGrowth) :
    (catchFilesystem x handle).run s = .error e s' := by
  unfold catchFilesystem
  rw [run_tryCatch, hx]
  rcases he with rfl | rfl <;> rfl

theorem restoreDatabase_holds (os : Os) (h : Holds cwd R area s st) (harea : area.text = backUpName) (b : FileName)
    {name : FileName} (hname : name ≠ area) :
    (∃ e, (restoreDatabase (Disk.files cwd) os b.text name.text).run s = .error e s) ∨
      (∃ e s', (restoreDatabase (Disk.files cwd) os b.text name.text).run s = .error e s' ∧ e.IsGrowth) ∨
        ∃ (tables : Tables) (s' : System Disk),
          (restoreDatabase (Disk.files cwd) os b.text name.text).run s = .ok () s' ∧ st.archive b = some tables ∧
            Catalogue.Step (.load b name) st (st.setLive name (some tables)) ∧
              Holds cwd R area s' (st.setLive name (some tables)) := by
  unfold restoreDatabase
  rw [run_bind_ok (EStateM.run_get s), ← harea]
  dsimp only
  obtain ⟨found, hfound, hthere⟩ := run_isExistingDirectory cwd s.disk (joinPath (joinPath s.absolutePath area.text) b.text)
  rw [run_bind_ok (run_onDisk_ok hfound)]
  rw [(h.opens.name h.disk.place).node_name b] at hthere
  cases found with
  | false => exact .inl ⟨_, run_bind_error (run_throwIf_true rfl s)⟩
  | true =>
      rw [run_bind_ok (run_throwIf_false (by simp) _)]
      obtain ⟨tables, htables⟩ := Option.isSome_iff_exists.mp (h.disk.copies b (hthere.mp rfl))
      obtain ⟨hdir, hstored⟩ := h.disk.copy b tables htables
      right
      have hdisk {base : DataBase} {d' : Disk} (hmade : Remade cwd R s.disk d' s.absolutePath name base tables) :
          OnDisk R area d' (st.setLive name (some tables)) := by
        refine h.disk.setLive hname hmade.grown hmade.elsewhere (fun tables' heq => ?_) fun _ => rfl
        cases heq
        exact ⟨hmade.dir, hmade.stored⟩
      cases hid : s.nameBase.lookup name.text with
      | none =>
          have hfree : st.live name = none := by
            cases hlive : st.live name with
            | none => rfl
            | some tables' =>
                obtain ⟨id, -, hid', -⟩ := h.memory.base name tables' hlive
                rw [hid] at hid'
                cases hid'
          dsimp only
          rcases rebuild_made os h.disk.grown h.root h.disk.place hname hdir hstored with
            ⟨e, d', hrun, hgrowth⟩ | ⟨base, d', hrun, hmade⟩
          · exact .inl ⟨e, _, catchFilesystem_growth (run_bind_error (run_onDisk_error hrun)) hgrowth, hgrowth⟩
          · refine .inr ⟨tables, ({ s with disk := d' } : System Disk).registered name.text base, ?_, htables,
              .load htables, h.root, (h.memory.onDisk d').registered hfree hmade.dbName hmade.opened hmade.way,
              hdisk hmade⟩
            unfold catchFilesystem
            rw [run_tryCatch, run_bind_ok (run_onDisk_ok hrun)]
            rfl
      | some id =>
          dsimp only
          have hlt := h.memory.slot_lt hid
          rw [run_bind_ok (run_setSlot hlt none)]
          rcases rebuild_made os h.disk.grown h.root h.disk.place hname hdir hstored with
            ⟨e, d', hrun, hgrowth⟩ | ⟨base, d', hrun, hmade⟩
          · refine .inl ⟨e, { s with bases := s.bases.set id none, disk := d' },
              catchFilesystem_growth (run_bind_error ?_) hgrowth, hgrowth⟩
            exact run_onDisk_error (s := { s with bases := s.bases.set id none }) hrun
          · have hlt' : id < (s.bases.set id none).length := by
              rw [List.length_set]
              exact hlt
            have hfill := run_setSlot (s := { s with disk := d', bases := s.bases.set id none }) hlt' (some base)
            refine .inr ⟨tables, { s with bases := s.bases.set id (some base), disk := d' }, ?_, htables,
              .load htables, h.root, (h.memory.setSlot hid hmade.dbName hmade.opened hmade.way).onDisk d', hdisk hmade⟩
            unfold catchFilesystem
            rw [run_tryCatch, run_bind_ok (run_onDisk_ok (s := { s with bases := s.bases.set id none }) hrun), hfill]
            dsimp only
            rw [List.set_set]

end System
end SQLid
