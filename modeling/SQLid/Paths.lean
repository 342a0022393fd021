import SQLid.System
import SQLid.Library.FileTree

/-!
# Paths and places

The place a path stands for on a disk without links, and what a call of the file system
may change: the place of its path, what is below it, or nothing.
-/
namespace SQLid
open Bytes (Text)
open CppText (str)
open FileTree (Node Move place)

/-- The names a directory can hold. -/
def IsFileName (name : Text) : Prop :=
  name ≠ [] ∧ name ≠ str "." ∧ name ≠ str ".." ∧ 47 ∉ name ∧ 0 ∉ name

instance (name : Text) : Decidable (IsFileName name) :=
  inferInstanceAs (Decidable (_ ∧ _ ∧ _ ∧ _ ∧ _))

structure FileName where
  text : Text
  valid : IsFileName text
  deriving DecidableEq

abbrev Loc := List FileName

namespace Path

/-- What a system call gets of a path. -/
def cString (path : Text) : Text := path.takeWhile (· ≠ 0)

def move (part : Text) : Move FileName :=
  if h : IsFileName part then .down ⟨part, h⟩ else if part = str ".." then .up else .stay

def moves (path : Text) : List (Move FileName) := ((cString path).splitOn 47).map move

/-- Where the first move of a path starts. -/
def start (cwd : Loc) (path : Text) : Loc := if path.head? = some 47 then [] else cwd

def place (cwd : Loc) (path : Text) : Loc := FileTree.place (start cwd path) (moves path)

/-- The path that leads through these names. -/
def relative (names : List FileName) : Text := (str "/").intercalate (names.map FileName.text)

theorem cString_of_not_mem {path : Text} (h : 0 ∉ path) : cString path = path := by
  apply List.takeWhile_eq_self_iff.2
  intro b hb
  exact decide_eq_true fun hzero : b = 0 => h (hzero ▸ hb)

theorem cString_append {path : Text} (h : 0 ∈ path) (tail : Text) :
    cString (path ++ tail) = cString path := by
  induction path with
  | nil => cases h
  | cons b path ih =>
      by_cases hb : b = 0
      · subst hb
        rfl
      · have htail : 0 ∈ path := (List.mem_cons.1 h).resolve_left fun hzero => hb hzero.symm
        have hrest := ih htail
        simp only [cString, List.cons_append, List.takeWhile_cons, ne_eq, hb, not_false_eq_true,
          decide_true, if_true] at hrest ⊢
        rw [hrest]

theorem cString_append_of_not_mem {path : Text} (h : 0 ∉ path) (tail : Text) :
    cString (path ++ tail) = path ++ cString tail := by
  apply List.takeWhile_append_of_pos
  intro b hb
  exact decide_eq_true fun hzero : b = 0 => h (hzero ▸ hb)

/-- The moves of a path that goes on behind a slash. -/
theorem moves_slash {a : Text} (h : 0 ∉ a) (b : Text) : moves (a ++ 47 :: b) = moves a ++ moves b := by
  have hcut : cString (47 :: b) = 47 :: cString b := List.takeWhile_cons_of_pos (by decide)
  unfold moves
  rw [cString_append_of_not_mem h, hcut, List.splitOn_append_cons_of_beq a (cString b) (beq_self_eq_true 47),
    List.map_append, cString_of_not_mem h]

theorem moves_nil : moves [] = [.stay] := by decide

theorem moves_fileName (name : FileName) : moves name.text = [.down name] := by
  obtain ⟨text, hvalid⟩ := name
  have hslash : 47 ∉ text := hvalid.2.2.2.1
  unfold moves
  rw [cString_of_not_mem hvalid.2.2.2.2, List.splitOn_eq_singleton hslash, List.map_cons, List.map_nil]
  unfold move
  rw [dif_pos hvalid]

theorem head_fileName (name : FileName) : name.text.head? ≠ some 47 := by
  intro h
  exact name.valid.2.2.2.1 (List.mem_of_head? h)

theorem relative_cons (name other : FileName) (names : List FileName) :
    relative (name :: other :: names) = name.text ++ 47 :: relative (other :: names) := by
  unfold relative
  rw [List.map_cons, List.map_cons, List.intercalate_cons_cons]
  simp [str]

theorem moves_relative (name : FileName) (names : List FileName) :
    moves (relative (name :: names)) = (name :: names).map .down := by
  induction names generalizing name with
  | nil =>
      have hone : relative [name] = name.text := by simp [relative]
      rw [hone, moves_fileName]
      rfl
  | cons other names ih =>
      rw [relative_cons, moves_slash name.valid.2.2.2.2, moves_fileName, ih]
      rfl

theorem head_relative (name : FileName) (names : List FileName) :
    (relative (name :: names)).head? ≠ some 47 := by
  cases names with
  | nil =>
      have hone : relative [name] = name.text := by simp [relative]
      rw [hone]
      exact head_fileName name
  | cons other names =>
      rw [relative_cons]
      obtain ⟨b, text, hb⟩ := List.exists_cons_of_ne_nil name.valid.1
      have hhead := head_fileName name
      rw [hb] at hhead ⊢
      exact hhead

/-- Joining two paths makes up no names. -/
theorem mem_moves_joinPath {a b : Text} {name : FileName} (h : .down name ∈ moves (joinPath a b)) :
    .down name ∈ moves a ∨ .down name ∈ moves b := by
  unfold joinPath at h
  by_cases hzero : 0 ∈ a
  · have hcut (tail : Text) : moves (a ++ tail) = moves a := by
      unfold moves
      rw [cString_append hzero]
    split_ifs at h
    · exact .inr h
    · rw [hcut] at h
      exact .inl h
    · rw [List.append_assoc, hcut] at h
      exact .inl h
  · split_ifs at h with hb hend
    · exact .inr h
    · simp only [Bool.or_eq_true, decide_eq_true_eq] at hend
      rcases hend with rfl | hlast
      · exact .inr h
      · obtain ⟨a, rfl⟩ := List.getLast?_eq_some_iff.1 hlast
        have hzero' : 0 ∉ a := fun h => hzero (List.mem_append_left _ h)
        rw [List.append_assoc, List.singleton_append, moves_slash hzero'] at h
        rw [moves_slash hzero']
        exact (List.mem_append.1 h).imp_left (List.mem_append_left _)
    · have htext : a ++ str "/" ++ b = a ++ 47 :: b := by
        rw [List.append_assoc]
        rfl
      rw [htext, moves_slash hzero] at h
      exact List.mem_append.1 h

theorem cString_joinPath {a : Text} (h : cString a ≠ []) (b : Text) : cString (joinPath a b) ≠ [] := by
  have happend (tail : Text) : cString (a ++ tail) ≠ [] := by
    by_cases hzero : 0 ∈ a
    · rw [cString_append hzero]
      exact h
    · rw [cString_append_of_not_mem hzero]
      rw [cString_of_not_mem hzero] at h
      exact fun hnil => h (List.append_eq_nil_iff.1 hnil).1
  unfold joinPath
  split_ifs with hb
  · intro hnil
    cases b with
    | nil => cases hb
    | cons c b =>
        obtain rfl : c = 47 := Option.some.inj hb
        cases hnil
  · exact happend b
  · rw [List.append_assoc]
    exact happend _

theorem zero_mem_joinPath {a b : Text} (h : 0 ∈ joinPath a b) : 0 ∈ a ∨ 0 ∈ b := by
  unfold joinPath at h
  split_ifs at h
  · exact .inr h
  · exact List.mem_append.1 h
  · rcases List.mem_append.1 h with h | h
    · rcases List.mem_append.1 h with h | h
      · exact .inl h
      · exact absurd h (by decide)
    · exact .inr h

theorem joinPath_ne_nil (a : Text) {b : Text} (hb : b ≠ []) : joinPath a b ≠ [] := by
  unfold joinPath
  split_ifs
  · exact hb
  · exact fun h => hb (List.append_eq_nil_iff.1 h).2
  · exact fun h => hb (List.append_eq_nil_iff.1 h).2

theorem slash_append (a b : Text) : a ++ str "/" ++ b = a ++ 47 :: b := by
  rw [List.append_assoc]
  rfl

/-- What stands before a slash decides where a path starts. -/
theorem start_slash (cwd : Loc) {a : Text} (hne : a ≠ []) (b : Text) : start cwd (a ++ 47 :: b) = start cwd a := by
  cases a with
  | nil => exact absurd rfl hne
  | cons c a => rfl

theorem zero_slash {a b : Text} (ha : 0 ∉ a) (hb : 0 ∉ b) : 0 ∉ a ++ str "/" ++ b := by
  intro hin
  rw [slash_append] at hin
  rcases List.mem_append.mp hin with hin | hin
  · exact ha hin
  · exact hb ((List.mem_cons.mp hin).resolve_left (by decide))

/-- A path that does not start over leads on from the one it is joined to. -/
theorem place_joinPath (cwd : Loc) {a b : Text} (ha : 0 ∉ a) (hb : b.head? ≠ some 47) :
    place cwd (joinPath a b) = FileTree.place (place cwd a) (moves b) := by
  unfold joinPath
  rw [if_neg hb]
  split_ifs with hend
  · simp only [Bool.or_eq_true, decide_eq_true_eq] at hend
    rcases hend with rfl | hlast
    · rw [List.nil_append]
      unfold place start
      rw [if_neg hb, moves_nil]
      rfl
    · obtain ⟨a, rfl⟩ : ∃ a', a = a' ++ [47] := by
        obtain ⟨hne, h⟩ := List.getLast?_eq_some_iff.1 hlast
        exact ⟨hne, h⟩
      have hza : 0 ∉ a := fun h => ha (List.mem_append_left _ h)
      have hstart : start cwd (a ++ [47] ++ b) = start cwd (a ++ [47]) := by
        unfold start
        cases a <;> rfl
      unfold place
      rw [hstart, List.append_assoc, List.singleton_append, moves_slash hza, moves_slash hza,
        FileTree.place_append, FileTree.place_append, moves_nil]
      rfl
  · have hne : a ≠ [] := by
      rintro rfl
      exact hend rfl
    unfold place
    rw [slash_append, start_slash cwd hne, moves_slash ha, FileTree.place_append]

/-- The system sees nothing behind a zero byte. -/
theorem place_append_zero (cwd : Loc) {a : Text} (ha : 0 ∈ a) (tail : Text) :
    place cwd (a ++ tail) = place cwd a := by
  have hstart : start cwd (a ++ tail) = start cwd a := by
    cases a with
    | nil => cases ha
    | cons c a => rfl
  unfold place moves
  rw [hstart, cString_append ha]

theorem place_joinPath_zero (cwd : Loc) {a b : Text} (ha : 0 ∈ a) (hb : b.head? ≠ some 47) :
    place cwd (joinPath a b) = place cwd a := by
  unfold joinPath
  rw [if_neg hb]
  split_ifs
  · exact place_append_zero cwd ha b
  · rw [List.append_assoc]
    exact place_append_zero cwd ha _

theorem place_joinPath_relative (cwd : Loc) {a : Text} (ha : 0 ∉ a) (name : FileName)
    (names : List FileName) :
    place cwd (joinPath a (relative (name :: names))) = place cwd a ++ name :: names := by
  rw [place_joinPath cwd ha (head_relative name names), moves_relative, FileTree.place_downs]

/-- A name behind a slash. -/
theorem place_slash (cwd : Loc) {a : Text} (ha : 0 ∉ a) (hne : a ≠ []) (name : FileName) :
    place cwd (a ++ str "/" ++ name.text) = place cwd a ++ [name] := by
  unfold place
  rw [slash_append, start_slash cwd hne, moves_slash ha, moves_fileName, FileTree.place_append]
  rfl

/-- The two ways the source joins a directory and a name. -/
theorem place_slash_joinPath (cwd : Loc) {a b : Text} (hne : a ≠ []) (hb : b.head? ≠ some 47) :
    place cwd (a ++ str "/" ++ b) = place cwd (joinPath a b) := by
  by_cases ha : 0 ∈ a
  · rw [place_joinPath_zero cwd ha hb, List.append_assoc, place_append_zero cwd ha]
  · rw [place_joinPath cwd ha hb]
    unfold place
    rw [slash_append, start_slash cwd hne, moves_slash ha, FileTree.place_append]

end Path
end SQLid
