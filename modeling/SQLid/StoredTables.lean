import SQLid.Backups
import SQLid.RowMap
import SQLid.StorageKeeping

/-!
# Tables on a disk

What the two files of a table hold, and that the constructor of `Tabble` opens it with
exactly the rows of its storage file, or is refused a growth.
-/
namespace SQLid
open Bytes (Text)
open CppText (str)
open FileTree (Node Tree Grown look walk)
open MemoryMapLinux (Lines)
open Programs

/-- The rows of a storage file: the lines whose flag is set, read by the schema. -/
def rowsOf (info : TabbleInfo) (file : ByteFile) : RowMap := fun i =>
  if i * info.lineLength < file.size ∧ file.byte (i * info.lineLength) ≠ 0 then
    some (rowAt info file.byte (i * info.lineLength))
  else none

/-- A storage file that has just been made, or one that holds whole lines. -/
def Storage (file : ByteFile) (lineLength : Nat) : Prop := file.size = 0 ∨ Lines file lineLength

/-- A line that starts in the file ends in it. -/
theorem MemoryMapLinux.Lines.inside {file : ByteFile} {L i k : Nat} (h : Lines file L)
    (hlow : i * L < file.size) (hhigh : k < i * L + L) : k < file.size := by
  obtain ⟨n, hn⟩ := h.dvd
  rw [hn, Nat.mul_comm L n] at hlow ⊢
  have hin : i < n := Nat.lt_of_mul_lt_mul_right hlow
  refine Nat.lt_of_lt_of_le hhigh ?_
  rw [← Nat.succ_mul]
  exact Nat.mul_le_mul_right L hin

section rowsOf
variable {info : TabbleInfo} {file : ByteFile} {t : Tabble}

theorem rowsOf_isSome (i : Nat) : (rowsOf info file i).isSome =
    (decide (i * info.lineLength < file.size) && file.byte (i * info.lineLength) != 0) := by
  unfold rowsOf
  split_ifs with h
  · simp [h.1, h.2]
  · rw [Option.isSome_none, eq_comm, Bool.eq_false_iff]
    intro hactive
    rw [Bool.and_eq_true, decide_eq_true_eq, bne_iff_ne] at hactive
    exact h hactive

/-- A row depends on the bytes of its line only. -/
theorem rowAt_congr (hlay : info.Layout) {f g : Nat → UInt8} {base : Nat}
    (h : ∀ k, base < k → k < base + info.lineLength → f k = g k) : rowAt info f base = rowAt info g base := by
  unfold rowAt
  refine List.map_congr_left fun c hc => ?_
  have hin := hlay.column_inside hc
  rw [Bytes.slice_congr fun k hk hk' => h k (by omega) (by omega)]

/-- Two files with the same flags and the same bytes in the lines that are active. -/
theorem rowsOf_congr (hlay : info.Layout) {file' : ByteFile}
    (hactive : ∀ i, (rowsOf info file' i).isSome = (rowsOf info file i).isSome)
    (hbytes : ∀ i k, (rowsOf info file i).isSome = true → i * info.lineLength < k →
      k < i * info.lineLength + info.lineLength → file'.byte k = file.byte k) :
    rowsOf info file' = rowsOf info file := by
  funext i
  have hi := hactive i
  have hline := hbytes i
  unfold rowsOf at hi hline ⊢
  by_cases h : i * info.lineLength < file.size ∧ file.byte (i * info.lineLength) ≠ 0
  · rw [if_pos h, Option.isSome_some] at hi
    rw [if_pos h] at hline ⊢
    split_ifs at hi ⊢ with h'
    · rw [rowAt_congr hlay fun k hk hk' => hline k rfl hk hk']
    · cases hi
  · rw [if_neg h, Option.isSome_none] at hi
    rw [if_neg h]
    split_ifs at hi ⊢ with h'
    · cases hi
    · rfl

/-- The map a mapped table stands for is the one its file holds. -/
theorem Tabble.Mapped.rowMap_file (h : t.Mapped) : t.rowMap = rowsOf t.info t.storage.core.file := by
  funext i
  have hactive : t.active i = (rowsOf t.info t.storage.core.file i).isSome := by
    rw [rowsOf_isSome]
    have hlt : i < t.maxLines ↔ i * t.info.lineLength < t.storage.core.file.size := by
      rw [h.live.size_eq, ← h.lineLength, Nat.mul_comm, ← Nat.lt_div_iff_mul_lt' h.live.lines]
      rfl
    unfold Tabble.active Tabble.flag MemoryMapLinux.flag
    rw [h.lineLength]
    simp only [hlt]
  unfold Tabble.rowMap
  rw [hactive]
  unfold rowsOf
  split_ifs with hrow hsome hsome
  · rfl
  · exact absurd rfl hsome
  · cases hsome
  · rfl

/-- A table opened from a file has its rows. -/
theorem Tabble.Opened.rows (h : Tabble.Opened info file t) (hfile : Storage file info.lineLength) :
    rowsOf info t.storage.core.file = rowsOf info file := by
  have hlay : info.Layout := h.info ▸ h.sound.layout
  have hactive (i : Nat) : (rowsOf info t.storage.core.file i).isSome = (rowsOf info file i).isSome := by
    have hmap := congrFun h.sound.toMapped.rowMap_file i
    rw [h.info] at hmap
    rw [← hmap, Tabble.rowMap_isSome, h.active, rowsOf_isSome]
  refine rowsOf_congr hlay hactive fun i k hi hlow hhigh => ?_
  rw [rowsOf_isSome, Bool.and_eq_true, decide_eq_true_eq] at hi
  have hlt := hi.1
  rcases hfile with hempty | hlines
  · omega
  · exact h.byte k (hlines.inside hlt hhigh)

end rowsOf

/-! The files of a table. -/

theorem isFileName_info (name : FileName) : IsFileName (name.text ++ str "_info.db") := by
  obtain ⟨text, -, -, -, hslash, hzero⟩ := name
  refine isFileName_ending (by decide) (fun h => ?_) fun h => ?_
  · exact (List.mem_append.1 h).elim hslash (by decide)
  · exact (List.mem_append.1 h).elim hzero (by decide)

namespace FileName

/-- The schema file of a table, in the directory of the table. -/
def info (name : FileName) : FileName := ⟨name.text ++ str "_info.db", isFileName_info name⟩

def storage (name : FileName) : FileName := ⟨name.text ++ str "_storage.db", isFileName_storage name⟩

theorem info_ne_storage (name : FileName) : name.info ≠ name.storage := by
  intro h
  have htext := congrArg FileName.text h
  exact absurd (List.append_cancel_left htext) (by decide)

end FileName

/-- The directory of a table: its schema can be read, and its storage file be opened. -/
structure StoredTable (d : Disk) (D : Loc) (name : FileName) (info : TabbleInfo) (rows : RowMap) : Prop where
  layout : info.Layout
  fits : info.lineLength * 100 < 2 ^ 64
  schema : ∃ text, look d (D ++ [name, name.info]) = some (.file text) ∧ InfoLoader.loadFile text = .ok info
  storage : ∃ text, look d (D ++ [name, name.storage]) = some (.file text) ∧
    Storage (Disk.fileBytes text) info.lineLength ∧ rowsOf info (Disk.fileBytes text) = rows

/-- It depends on what stands in the directory only. -/
theorem StoredTable.congr {d d' : Disk} {D D' : Loc} {name : FileName} {info : TabbleInfo} {rows : RowMap}
    (h : StoredTable d D name info rows)
    (hlook : ∀ file, look d' (D' ++ [name, file]) = look d (D ++ [name, file])) :
    StoredTable d' D' name info rows := by
  refine ⟨h.layout, h.fits, ?_, ?_⟩
  · rw [hlook]
    exact h.schema
  · rw [hlook]
    exact h.storage

namespace Disk
variable {cwd R D : Loc} {d : Disk} {root way : Text}

/-- The same names behind a slash. -/
theorem Opens.find_slash {rest : Text} (h : Opens cwd d root R) (hzero : 0 ∉ rest) :
    Disk.find cwd d (root ++ str "/" ++ rest) = walk d R (Path.moves rest) := by
  have hwalk := h.find
  rw [find_of_walk h.zero h.nonempty] at hwalk
  rw [find_of_walk (Path.zero_slash h.zero hzero) (by simp [str]), Path.slash_append,
    Path.start_slash cwd h.nonempty, Path.moves_slash h.zero, FileTree.walk_append, hwalk]
  rfl

theorem Opens.find_slash_name (h : Opens cwd d root R) (name : FileName) :
    Disk.find cwd d (root ++ str "/" ++ name.text) = some (R ++ [name]) := by
  rw [h.find_slash name.valid.2.2.2.2, Path.moves_fileName]
  simp only [walk, FileTree.Move.apply]
  rw [if_pos (FileTree.isDir_iff.mpr h.dir)]

theorem Opens.slash_name (h : Opens cwd d root R) {name : FileName} (hdir : look d (R ++ [name]) = some .dir) :
    Opens cwd d (root ++ str "/" ++ name.text) (R ++ [name]) := by
  exact ⟨Path.zero_slash h.zero name.valid.2.2.2.2, by simp [str], h.find_slash_name name, hdir⟩

/-- A file of a table, by the path the constructor puts together. -/
theorem Opens.find_tableFile (h : Opens cwd d way D) {name : FileName} (hdir : look d (D ++ [name]) = some .dir)
    (file : FileName) : Disk.find cwd d (way ++ str "/" ++ name.text ++ str "/" ++ file.text) =
      some (D ++ [name, file]) := by
  rw [(h.slash_name hdir).find_slash_name file, List.append_assoc]
  rfl

end Disk

/-- The constructor reads the schema and opens the storage file, and leaves the disk as it
was. -/
theorem Tabble.load_stored {cwd D : Loc} {d : Disk} {way : Text} (os : Os) {name : FileName} {info : TabbleInfo}
    {rows : RowMap} (hway : Disk.Opens cwd d way D) (hdir : look d (D ++ [name]) = some .dir)
    (h : StoredTable d D name info rows) :
    (∃ table, (Tabble.load (Disk.files cwd) os (way ++ str "/" ++ name.text ++ str "/" ++ name.text)).run d =
        .ok table d ∧ table.Sound ∧ table.info = info ∧ rowsOf info table.storage.core.file = rows) ∨
      ∃ e, (Tabble.load (Disk.files cwd) os (way ++ str "/" ++ name.text ++ str "/" ++ name.text)).run d =
        .error e d ∧ e.IsGrowth := by
  obtain ⟨schema, hschema, hload⟩ := h.schema
  obtain ⟨text, hstorage, hfile, hrows⟩ := h.storage
  have hfind (file : FileName) (tail : Text) (hfile : file.text = name.text ++ tail) :
      Disk.find cwd d (way ++ str "/" ++ name.text ++ str "/" ++ name.text ++ tail) = some (D ++ [name, file]) := by
    rw [List.append_assoc _ name.text tail, ← hfile]
    exact hway.find_tableFile hdir file
  have hread : ((Disk.files cwd).readText
      (way ++ str "/" ++ name.text ++ str "/" ++ name.text ++ str "_info.db")).run d = .ok (some schema) d := by
    change Disk.readText cwd _ d = _
    unfold Disk.readText Disk.node
    rw [hfind name.info _ rfl, Option.bind_some, hschema]
  have hopen : ((Disk.files cwd).openStorage
      (way ++ str "/" ++ name.text ++ str "/" ++ name.text ++ str "_storage.db")).run d =
        .ok (Disk.fileBytes text, 0) d := by
    change Disk.openStorage cwd _ d = _
    unfold Disk.openStorage
    rw [hfind name.storage _ rfl]
    dsimp only
    rw [hstorage]
  have hlength : ¬ (info.lineLength = 0 ∧ 0 < (Disk.fileBytes text).size) := by
    have hpos := h.layout.lineLength_pos
    omega
  unfold Tabble.load
  rw [run_bind_ok hread]
  dsimp only
  rw [hload, run_bind_ok (run_ofExcept_ok info d), run_bind_ok hopen, if_neg hlength]
  rcases Tabble.openFile_outcome os 0 h.layout h.fits hfile with ⟨t, hrun, ho⟩ | ⟨e, t, hrun, hgrowth⟩
  · rw [hrun]
    exact .inl ⟨t, rfl, ho.sound, ho.info, (ho.rows hfile).trans hrows⟩
  · rw [hrun]
    exact .inr ⟨e, rfl, hgrowth⟩

end SQLid
