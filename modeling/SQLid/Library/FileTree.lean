import Mathlib.Data.List.Basic
import Mathlib.Data.List.Infix
import Mathlib.Tactic.SplitIfs

/-!
# A tree of files

Locations as lists of names from the root, with what stands at each, and paths walked
move by move.
-/
namespace FileTree

inductive Node (β : Type)
  | dir
  | file (content : β)
  deriving DecidableEq, Repr

/-- A step of a path. -/
inductive Move (ν : Type)
  | stay
  | up
  | down (name : ν)
  deriving DecidableEq, Repr

variable {ν β : Type}

def Move.apply (loc : List ν) : Move ν → List ν
  | .stay => loc
  | .up => loc.dropLast
  | .down name => loc ++ [name]

/-- Where the moves lead, whatever stands there. -/
def place (loc : List ν) (moves : List (Move ν)) : List ν := moves.foldl Move.apply loc

theorem place_append (loc : List ν) (moves moves' : List (Move ν)) :
    place loc (moves ++ moves') = place (place loc moves) moves' := List.foldl_append ..

theorem place_downs (loc names : List ν) : place loc (names.map .down) = loc ++ names := by
  induction names generalizing loc with
  | nil => exact (List.append_nil loc).symm
  | cons name names ih =>
      change place (loc ++ [name]) (names.map .down) = _
      rw [ih, List.append_assoc]
      rfl

theorem mem_place {loc : List ν} {moves : List (Move ν)} {name : ν} (h : name ∈ place loc moves) :
    name ∈ loc ∨ .down name ∈ moves := by
  induction moves generalizing loc with
  | nil => exact .inl h
  | cons move moves ih =>
      rcases ih h with h | h
      · cases move with
        | stay => exact .inl h
        | up => exact .inl (List.dropLast_subset loc h)
        | down name' =>
            rcases List.mem_append.1 h with h | h
            · exact .inl h
            · rw [List.mem_singleton] at h
              exact .inr (by rw [h]; exact List.mem_cons_self)
      · exact .inr (List.mem_cons_of_mem move h)

/-- The places a walk goes through. -/
def visited (loc : List ν) : List (Move ν) → List (List ν)
  | [] => [loc]
  | move :: moves => loc :: visited (move.apply loc) moves

theorem place_mem_visited (loc : List ν) (moves : List (Move ν)) :
    place loc moves ∈ visited loc moves := by
  induction moves generalizing loc with
  | nil => exact List.mem_cons_self
  | cons move moves ih => exact List.mem_cons_of_mem _ (ih _)

theorem mem_visited {loc l : List ν} {moves : List (Move ν)} {name : ν} (hl : l ∈ visited loc moves)
    (h : name ∈ l) : name ∈ loc ∨ .down name ∈ moves := by
  induction moves generalizing loc with
  | nil =>
      rw [visited, List.mem_singleton] at hl
      exact .inl (hl ▸ h)
  | cons move moves ih =>
      rcases List.mem_cons.1 hl with rfl | hl
      · exact .inl h
      · rcases ih hl with h | h
        · have hplace : name ∈ place loc [move] := h
          rcases mem_place hplace with h | h
          · exact .inl h
          · exact .inr (List.mem_cons.2 (.inl (List.mem_singleton.1 h)))
        · exact .inr (List.mem_cons_of_mem move h)

abbrev Tree (ν β : Type) := List (List ν × Node β)

variable [DecidableEq ν]

/-- What stands at a location; the root is always a directory. -/
def look (t : Tree ν β) (loc : List ν) : Option (Node β) :=
  if loc = [] then some .dir else t.lookup loc

def isDir (t : Tree ν β) (loc : List ν) : Bool :=
  match look t loc with
  | some .dir => true
  | _ => false

def put (t : Tree ν β) (loc : List ν) (node : Node β) : Tree ν β :=
  t.filter (fun e => e.1 ≠ loc) ++ [(loc, node)]

/-- A location and everything below it removed. -/
def prune (t : Tree ν β) (loc : List ν) : Tree ν β := t.filter fun e => ¬ loc <+: e.1

/-- Everything below a location removed. -/
def clear (t : Tree ν β) (loc : List ν) : Tree ν β :=
  t.filter fun e => ¬ (loc <+: e.1 ∧ e.1 ≠ loc)

/-- What stands below a location, by the names that lead from there. -/
def below (t : Tree ν β) (loc : List ν) : Tree ν β :=
  t.filterMap fun e => if loc <+: e.1 ∧ e.1 ≠ loc then some (e.1.drop loc.length, e.2) else none

/-- The names in a directory. -/
def children (t : Tree ν β) (loc : List ν) : List (ν × Node β) :=
  (below t loc).filterMap fun e =>
    match e.1 with
    | [name] => some (name, e.2)
    | _ => none

/-- Each move starts in a directory. -/
def walk (t : Tree ν β) : List ν → List (Move ν) → Option (List ν)
  | loc, [] => some loc
  | loc, move :: moves => if isDir t loc then walk t (move.apply loc) moves else none

theorem isDir_iff {t : Tree ν β} {loc : List ν} : isDir t loc = true ↔ look t loc = some .dir := by
  unfold isDir
  split <;> simp_all

@[simp] theorem look_root (t : Tree ν β) : look t [] = some .dir := if_pos rfl

theorem lookup_filter {p : List ν → Bool} (t : Tree ν β) (loc : List ν) :
    (t.filter fun e => p e.1).lookup loc = if p loc then t.lookup loc else none := by
  induction t with
  | nil => simp
  | cons e t ih =>
      obtain ⟨key, node⟩ := e
      rw [List.filter_cons, List.lookup_cons]
      by_cases hkey : loc = key
      · subst hkey
        cases hp : p loc <;> simp [hp, ih]
      · have hne : (loc == key) = false := beq_eq_false_iff_ne.2 hkey
        cases hp : p key <;> simp [ih, List.lookup_cons, hne]

section
variable {t : Tree ν β} {loc loc' : List ν}

theorem look_put_self {node : Node β} (h : loc ≠ []) : look (put t loc node) loc = some node := by
  have hnone : (t.filter fun e => e.1 ≠ loc).lookup loc = none := by
    rw [lookup_filter (p := fun l => l ≠ loc)]
    simp
  unfold look put
  rw [if_neg h, List.lookup_append, hnone, List.lookup_cons]
  simp

theorem look_put_other {node : Node β} (h : loc' ≠ loc) : look (put t loc node) loc' = look t loc' := by
  have hne : (loc' == loc) = false := beq_eq_false_iff_ne.2 h
  unfold look put
  split_ifs with hroot
  · rfl
  · rw [List.lookup_append, lookup_filter (p := fun l => l ≠ loc), List.lookup_cons, hne]
    simp [h]

theorem look_prune_outside (h : ¬ loc <+: loc') : look (prune t loc) loc' = look t loc' := by
  unfold look prune
  split_ifs with hroot
  · rfl
  · rw [lookup_filter (p := fun l => ¬ loc <+: l)]
    simp [h]

theorem look_prune_inside (hroot : loc' ≠ []) (h : loc <+: loc') : look (prune t loc) loc' = none := by
  unfold look prune
  rw [if_neg hroot, lookup_filter (p := fun l => ¬ loc <+: l)]
  simp [h]

theorem look_clear_outside (h : ¬ (loc <+: loc' ∧ loc' ≠ loc)) :
    look (clear t loc) loc' = look t loc' := by
  unfold look clear
  split_ifs with hroot
  · rfl
  · rw [lookup_filter (p := fun l => ¬ (loc <+: l ∧ l ≠ loc))]
    simp only [h, not_false_eq_true, decide_true, if_true]

/-- A path that can be walked leads where its moves do. -/
theorem walk_place {moves : List (Move ν)} (h : walk t loc moves = some loc') :
    loc' = place loc moves := by
  induction moves generalizing loc with
  | nil => exact (Option.some.inj h).symm
  | cons move moves ih =>
      simp only [walk] at h
      split_ifs at h with hdir
      exact ih h

theorem walk_visited {moves : List (Move ν)} (h : ∀ l ∈ visited loc moves, isDir t l = true) :
    walk t loc moves = some (place loc moves) := by
  induction moves generalizing loc with
  | nil => rfl
  | cons move moves ih =>
      simp only [walk]
      rw [if_pos (h loc List.mem_cons_self), ih fun l hl => h l (List.mem_cons_of_mem loc hl)]
      rfl

/-- More directories do not stop a walk. -/
theorem walk_mono {moves : List (Move ν)} (hdir : ∀ l, isDir t l = true → isDir t' l = true)
    (h : walk t loc moves = some loc') : walk t' loc moves = some loc' := by
  induction moves generalizing loc with
  | nil => exact h
  | cons move moves ih =>
      simp only [walk] at h ⊢
      split_ifs at h with hthere
      rw [if_pos (hdir loc hthere)]
      exact ih h

theorem mem_of_lookup {node : Node β} (h : t.lookup loc = some node) : (loc, node) ∈ t := by
  induction t with
  | nil => cases h
  | cons e t ih =>
      obtain ⟨key, node'⟩ := e
      rw [List.lookup_cons] at h
      by_cases hkey : loc = key
      · subst hkey
        simp only [beq_self_eq_true] at h
        cases h
        exact List.mem_cons_self
      · have hne : (loc == key) = false := beq_eq_false_iff_ne.2 hkey
        rw [hne] at h
        exact List.mem_cons_of_mem _ (ih h)

theorem look_some {node : Node β} (h : look t loc = some node) :
    loc = [] ∧ node = .dir ∨ (loc, node) ∈ t := by
  unfold look at h
  split_ifs at h with hroot
  · exact .inl ⟨hroot, (Option.some.inj h).symm⟩
  · exact .inr (mem_of_lookup h)

theorem lookup_dirs {locs : List (List ν)} (h : loc ∈ locs) :
    (locs.map fun l => ((l, .dir) : List ν × Node β)).lookup loc = some .dir := by
  induction locs with
  | nil => cases h
  | cons l locs ih =>
      rw [List.map_cons, List.lookup_cons]
      by_cases hl : loc = l
      · subst hl
        simp
      · have hne : (loc == l) = false := beq_eq_false_iff_ne.2 hl
        rw [hne]
        exact ih ((List.mem_cons.1 h).resolve_left hl)

theorem mem_below {rel : List ν} {node : Node β} :
    (rel, node) ∈ below t loc ↔ rel ≠ [] ∧ (loc ++ rel, node) ∈ t := by
  unfold below
  rw [List.mem_filterMap]
  constructor
  · rintro ⟨⟨key, node'⟩, hmem, he⟩
    split_ifs at he with hkey
    obtain ⟨⟨tail, rfl⟩, hne⟩ := hkey
    cases he
    rw [List.drop_left]
    exact ⟨fun hnil => hne (by rw [hnil, List.append_nil]), hmem⟩
  · rintro ⟨hne, hmem⟩
    refine ⟨_, hmem, ?_⟩
    rw [if_pos ⟨List.prefix_append loc rel, fun h => hne (List.append_right_eq_self.1 h)⟩]
    simp

theorem mem_children {name : ν} {node : Node β} :
    (name, node) ∈ children t loc ↔ (loc ++ [name], node) ∈ t := by
  unfold children
  rw [List.mem_filterMap]
  constructor
  · rintro ⟨⟨rel, node'⟩, hmem, he⟩
    obtain ⟨-, hin⟩ := mem_below.1 hmem
    split at he
    · cases he
      simp_all
    · cases he
  · intro hmem
    exact ⟨([name], node), mem_below.2 ⟨List.cons_ne_nil _ _, hmem⟩, rfl⟩

end
end FileTree
