import SQLid.CreatedTables
import SQLid.StoredBases

/-!
# Shared mappings

The storage files are mapped shared: what a table holds in memory is what its file on the
disk holds, as soon as anybody looks.
-/
namespace SQLid
open Bytes (Text)
open CppText (str)
open FileTree (Node Grown look put)
open Programs

def ByteFile.text (file : ByteFile) : Text := (List.range file.size).map file.byte

/-- The storage files of the open tables, each with what its table holds. -/
def DataBase.mappedFiles (base : DataBase) : List (Text × Text) :=
  base.tabblesName.filterMap fun entry =>
    (base.tabblesName.lookup entry.1).bind fun id => base.tabbles[id]?.map fun t =>
      (base.absoluteWay ++ str "/" ++ entry.1 ++ str "/" ++ entry.1 ++ str "_storage.db", t.storage.core.file.text)

def System.mappedFiles {δ : Type} (s : System δ) : List (Text × Text) :=
  s.bases.flatMap fun slot => slot.elim [] DataBase.mappedFiles

def Disk.writeFiles (cwd : Loc) : List (Text × Text) → Disk → Disk
  | [], d => d
  | file :: files, d => writeFiles cwd files (finalState ((Disk.writeText cwd file.1 file.2).run d))

/-- The disk with all that is mapped. -/
def System.synced (cwd : Loc) (s : System Disk) : System Disk :=
  { s with disk := Disk.writeFiles cwd s.mappedFiles s.disk }

section text
variable {info : TabbleInfo} {file : ByteFile}

theorem fileBytes_text_size (file : ByteFile) : (Disk.fileBytes file.text).size = file.size := by
  simp [Disk.fileBytes, ByteFile.text]

theorem fileBytes_text_byte {k : Nat} (hk : k < file.size) : (Disk.fileBytes file.text).byte k = file.byte k := by
  simp [Disk.fileBytes, ByteFile.text, List.getD_eq_getElem?_getD, hk]

theorem storage_text {L : Nat} (h : MemoryMapLinux.Lines file L) : Storage (Disk.fileBytes file.text) L := by
  right
  refine ⟨?_, ?_, ?_⟩ <;> rw [fileBytes_text_size]
  · exact h.dvd
  · exact h.hundred
  · exact h.offT

theorem rowsOf_text (hlay : info.Layout) (h : MemoryMapLinux.Lines file info.lineLength) :
    rowsOf info (Disk.fileBytes file.text) = rowsOf info file := by
  refine rowsOf_congr hlay (fun i => ?_) fun i k hi hlow hhigh => ?_
  · rw [rowsOf_isSome, rowsOf_isSome, fileBytes_text_size]
    by_cases hlt : i * info.lineLength < file.size
    · rw [fileBytes_text_byte hlt]
    · simp [hlt]
  · rw [rowsOf_isSome, Bool.and_eq_true, decide_eq_true_eq] at hi
    exact fileBytes_text_byte (h.inside hi.1 hhigh)

end text

namespace Disk
variable {cwd : Loc} {d : Disk}

/-- Writing a file that is new or is written over. -/
theorem writeText_put {path : Text} {loc : Loc} (text : Text) (hfind : Disk.find cwd d path = some loc)
    (hdir : look d loc ≠ some .dir) : (writeText cwd path text).run d = .ok () (put d loc (.file text)) := by
  change writeText cwd path text d = _
  unfold writeText
  rw [hfind]
  dsimp only
  rw [if_neg fun h => hdir (FileTree.isDir_iff.mp h)]

theorem isDir_put_over {loc l : Loc} {old text : Text} (hold : look d loc = some (.file old))
    (hl : FileTree.isDir d l = true) : FileTree.isDir (put d loc (.file text)) l = true := by
  have hdir := FileTree.isDir_iff.mp hl
  refine FileTree.isDir_iff.mpr ?_
  rw [FileTree.look_put_other]
  · exact hdir
  · rintro rfl
    rw [hdir] at hold
    cases hold

/-- Files written over one after the other: each place shows one of the texts written
there, or what it showed before. -/
theorem writeFiles_look (hg : Grown d) {files : List (Text × Text)}
    (h : ∀ f ∈ files, Disk.find cwd d f.1 = some (Path.place cwd f.1) ∧
      ∃ old, look d (Path.place cwd f.1) = some (.file old)) :
    Grown (writeFiles cwd files d) ∧ ∀ loc,
      (∃ f ∈ files, Path.place cwd f.1 = loc ∧ look (writeFiles cwd files d) loc = some (.file f.2)) ∨
        (∀ f ∈ files, Path.place cwd f.1 ≠ loc) ∧ look (writeFiles cwd files d) loc = look d loc := by
  induction files generalizing d with
  | nil => exact ⟨hg, fun loc => .inr ⟨fun f hf => absurd hf List.not_mem_nil, rfl⟩⟩
  | cons f files ih =>
      obtain ⟨hfind, old, hold⟩ := h f List.mem_cons_self
      have hne : Path.place cwd f.1 ≠ [] := by
        intro hnil
        rw [hnil] at hold
        cases hold
      have hparent : look d (Path.place cwd f.1).dropLast = some .dir := by
        have hwhole : look d ((Path.place cwd f.1).dropLast ++ [(Path.place cwd f.1).getLast hne]) = some (.file old) := by
          rwa [List.dropLast_append_getLast]
        exact hg.ancestor (List.cons_ne_nil _ []) hwhole
      have hgrown : Grown (put d (Path.place cwd f.1) (.file f.2)) := by
        refine hg.put ?_ hparent _
        rw [hold]
        simp
      have hrest : ∀ f' ∈ files, Disk.find cwd (put d (Path.place cwd f.1) (.file f.2)) f'.1 = some (Path.place cwd f'.1) ∧
          ∃ old, look (put d (Path.place cwd f.1) (.file f.2)) (Path.place cwd f'.1) = some (.file old) := by
        intro f' hf'
        obtain ⟨hfind', old', hold'⟩ := h f' (List.mem_cons_of_mem f hf')
        refine ⟨find_mono (fun l hl => isDir_put_over hold hl) hfind', ?_⟩
        by_cases heq : Path.place cwd f'.1 = Path.place cwd f.1
        · rw [heq, FileTree.look_put_self hne]
          exact ⟨_, rfl⟩
        · rw [FileTree.look_put_other heq]
          exact ⟨old', hold'⟩
      have hstep : writeFiles cwd (f :: files) d = writeFiles cwd files (put d (Path.place cwd f.1) (.file f.2)) := by
        change writeFiles cwd files (finalState ((writeText cwd f.1 f.2).run d)) = _
        rw [writeText_put f.2 hfind (by simp [hold])]
        rfl
      obtain ⟨hgrown', hlook⟩ := ih hgrown hrest
      rw [hstep]
      refine ⟨hgrown', fun loc => ?_⟩
      rcases hlook loc with ⟨f', hf', hplace, hshown⟩ | ⟨hnone, hshown⟩
      · exact .inl ⟨f', List.mem_cons_of_mem f hf', hplace, hshown⟩
      · by_cases hloc : loc = Path.place cwd f.1
        · refine .inl ⟨f, List.mem_cons_self, hloc.symm, ?_⟩
          rw [hshown, hloc, FileTree.look_put_self hne]
        · refine .inr ⟨fun f' hf' => ?_, ?_⟩
          · rcases List.mem_cons.mp hf' with rfl | hf'
            · exact fun heq => hloc heq.symm
            · exact hnone f' hf'
          · rw [hshown, FileTree.look_put_other hloc]

end Disk
end SQLid
