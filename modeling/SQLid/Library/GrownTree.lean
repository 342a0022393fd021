import SQLid.Library.FileTree

/-!
# Trees that grew from their root

Every entry stands in a directory that was there before it. Copying a directory into an
empty one in that order hangs a copy of all that is below it into the tree.
-/
namespace FileTree
variable {ν β : Type} [DecidableEq ν] {t : Tree ν β} {loc : List ν} {node : Node β}

/-- No place is listed twice, and the directory an entry stands in is listed before it. -/
structure Grown (t : Tree ν β) : Prop where
  nodup : (t.map Prod.fst).Nodup
  parent : ∀ a e b, t = a ++ e :: b → e.1 ≠ [] ∧ look a e.1.dropLast = some .dir

theorem look_append_left {t' : Tree ν β} (h : look t loc = some node) :
    look (t ++ t') loc = some node := by
  unfold look at h ⊢
  split_ifs at h ⊢ with hroot
  · exact h
  · rw [List.lookup_append, h]
    rfl

theorem look_append_right {t' : Tree ν β} (h : look t loc = none) : look (t ++ t') loc = look t' loc := by
  unfold look at h ⊢
  split_ifs at h ⊢ with hroot
  rw [List.lookup_append, h]
  rfl

theorem look_none_iff : look t loc = none ↔ loc ≠ [] ∧ loc ∉ t.map Prod.fst := by
  unfold look
  split_ifs with hroot
  · simp [hroot]
  · rw [List.lookup_eq_none_iff]
    simp only [ne_eq, hroot, not_false_eq_true, true_and, List.mem_map, not_exists, not_and]
    constructor
    · rintro h e he rfl
      exact absurd (h e he) (by simp)
    · intro h e he
      exact bne_iff_ne.mpr fun heq => h e he heq.symm

/-- A new place goes to the end of the list. -/
theorem put_absent (h : look t loc = none) : put t loc node = t ++ [(loc, node)] := by
  have hnew := (look_none_iff.mp h).2
  unfold put
  rw [List.filter_eq_self.mpr]
  intro e he
  simp only [ne_eq, decide_eq_true_eq]
  rintro rfl
  exact hnew (List.mem_map_of_mem he)

theorem grown_nil : Grown ([] : Tree ν β) :=
  ⟨List.nodup_nil, fun a e b h => absurd h (by simp)⟩

theorem mem_of_look (hne : loc ≠ []) (hlook : look t loc = some node) : (loc, node) ∈ t :=
  (look_some hlook).resolve_left fun hroot => hne hroot.1

section Grown
variable (h : Grown t)
include h

theorem Grown.parent_dir {e : List ν × Node β} (he : e ∈ t) : look t e.1.dropLast = some .dir := by
  obtain ⟨a, b, rfl⟩ := List.append_of_mem he
  exact look_append_left (h.parent a e b rfl).2

theorem Grown.look_of_mem (he : (loc, node) ∈ t) : look t loc = some node := by
  obtain ⟨a, b, rfl⟩ := List.append_of_mem he
  have hne := (h.parent a _ b rfl).1
  have hnodup := h.nodup
  rw [List.map_append, List.map_cons] at hnodup
  have hnew : look a loc = none := by
    refine look_none_iff.mpr ⟨hne, fun hin => ?_⟩
    exact (List.nodup_append.mp hnodup).2.2 loc hin loc List.mem_cons_self rfl
  rw [look_append_right hnew]
  unfold look
  rw [if_neg hne, List.lookup_cons, beq_self_eq_true]

theorem Grown.mem_children {name : ν} : (name, node) ∈ children t loc ↔ look t (loc ++ [name]) = some node := by
  rw [FileTree.mem_children]
  exact ⟨h.look_of_mem, mem_of_look (by simp)⟩

/-- A directory lists a name once. -/
theorem Grown.children_nodup : ((children t loc).map Prod.fst).Nodup := by
  have hkeys : t.Pairwise fun e e' => e.1 ≠ e'.1 := List.pairwise_map.mp h.nodup
  have hbelow : (below t loc).Pairwise fun e e' => e.1 ≠ e'.1 := by
    refine hkeys.filterMap _ fun e e' hne b hb b' hb' heq => hne ?_
    split_ifs at hb hb' with hkey hkey'
    obtain ⟨⟨rel, hrel⟩, -⟩ := hkey
    obtain ⟨⟨rel', hrel'⟩, -⟩ := hkey'
    cases hb
    cases hb'
    dsimp only at heq
    rw [← hrel, ← hrel', List.drop_left, List.drop_left] at heq
    rw [← hrel, ← hrel', heq]
  refine List.pairwise_map.mpr (hbelow.filterMap _ fun e e' hne b hb b' hb' heq => hne ?_)
  obtain ⟨rel, node⟩ := e
  obtain ⟨rel', node'⟩ := e'
  dsimp only at hb hb' heq ⊢
  split at hb
  · split at hb'
    · cases hb
      cases hb'
      dsimp only at heq
      rw [heq]
    · cases hb'
  · cases hb

/-- All that leads to an entry is directories. -/
theorem Grown.ancestor {l rest : List ν} (hrest : rest ≠ []) (hlook : look t (l ++ rest) = some node) :
    look t l = some .dir := by
  induction rest using List.reverseRecOn generalizing node with
  | nil => exact absurd rfl hrest
  | append_singleton rest name ih =>
      have hne : l ++ (rest ++ [name]) ≠ [] := by simp
      have hparent := h.parent_dir (mem_of_look hne hlook)
      have hdrop : (l ++ (rest ++ [name])).dropLast = l ++ rest := by
        rw [← List.append_assoc, List.dropLast_concat]
      rw [hdrop] at hparent
      by_cases hnil : rest = []
      · rwa [hnil, List.append_nil] at hparent
      · exact ih hnil hparent

/-- Nothing is below a place that is no directory. -/
theorem Grown.below_nil (hdir : look t loc ≠ some .dir) : below t loc = [] := by
  rw [List.eq_nil_iff_forall_not_mem]
  rintro ⟨rel, node⟩ hmem
  obtain ⟨hne, hin⟩ := mem_below.mp hmem
  exact hdir (h.ancestor hne (h.look_of_mem hin))

theorem Grown.snoc (hnew : look t loc = none) (hdir : look t loc.dropLast = some .dir) (node : Node β) :
    Grown (t ++ [(loc, node)]) := by
  obtain ⟨hne, hfresh⟩ := look_none_iff.mp hnew
  constructor
  · rw [List.map_append, List.map_cons, List.map_nil]
    refine List.nodup_append.mpr ⟨h.nodup, List.pairwise_singleton _ _, fun x hx y hy hxy => ?_⟩
    rw [hxy, List.mem_singleton.mp hy] at hx
    exact hfresh hx
  · intro a e b hsplit
    rcases List.eq_nil_or_concat b with rfl | ⟨b', x, rfl⟩
    · rw [show a ++ e :: [] = a ++ [e] from rfl] at hsplit
      obtain ⟨rfl, hlast⟩ := List.append_inj' hsplit rfl
      cases hlast
      exact ⟨hne, hdir⟩
    · rw [List.concat_eq_append, show a ++ e :: (b' ++ [x]) = (a ++ e :: b') ++ [x] by simp] at hsplit
      obtain ⟨hleft, -⟩ := List.append_inj' hsplit rfl
      exact h.parent a e b' hleft

/-- Entries may go if none of those that stay stands in them. -/
theorem Grown.filter {p : List ν → Bool}
    (hp : ∀ e ∈ t, p e.1 = true → e.1.dropLast = [] ∨ p e.1.dropLast = true) :
    Grown (t.filter fun e => p e.1) := by
  constructor
  · exact h.nodup.sublist (List.filter_sublist.map _)
  · intro a e b hsplit
    obtain ⟨a', rest, hsplit', rfl, hrest⟩ := List.filter_eq_append_iff.mp hsplit
    obtain ⟨skip, b', rfl, hskip, hkept, -⟩ := List.filter_eq_cons_iff.mp hrest
    have hwhole : t = (a' ++ skip) ++ e :: b' := by rw [hsplit', List.append_assoc]
    obtain ⟨hne, hdir⟩ := h.parent _ e b' hwhole
    refine ⟨hne, ?_⟩
    have hmem : e ∈ t := by
      rw [hwhole]
      exact List.mem_append_right _ List.mem_cons_self
    have hgone : (skip.filter fun e => p e.1) = [] := List.filter_eq_nil_iff.mpr hskip
    have hfilter : (a'.filter fun e => p e.1) = (a' ++ skip).filter fun e => p e.1 := by
      rw [List.filter_append, hgone, List.append_nil]
    rcases hp e hmem hkept with hroot | hstay
    · rw [hroot]
      exact look_root _
    · rw [hfilter]
      unfold look at hdir ⊢
      split_ifs at hdir ⊢ with hroot
      · rfl
      · rw [lookup_filter, if_pos hstay]
        exact hdir

theorem Grown.prune (loc : List ν) : Grown (prune t loc) := by
  refine h.filter (p := fun l => ¬ loc <+: l) fun e _ hkept => .inr ?_
  simp only [decide_eq_true_eq] at hkept ⊢
  exact fun hin => hkept (hin.trans (List.dropLast_prefix _))

/-- A file is written over, or a new place is filled, in a directory that is there. -/
theorem Grown.put (hold : look t loc ≠ some .dir) (hdir : look t loc.dropLast = some .dir)
    (node : Node β) : Grown (put t loc node) := by
  cases hlook : look t loc with
  | none =>
      rw [put_absent hlook]
      exact h.snoc hlook hdir node
  | some old =>
      have hne : loc ≠ [] := by
        rintro rfl
        exact hold (look_root t)
      have hparent : loc.dropLast ≠ loc := fun heq => by
        have hlen := congrArg List.length heq
        rw [List.length_dropLast] at hlen
        have hpos := List.length_pos_iff.mpr hne
        omega
      have hfilter : Grown (t.filter fun e => e.1 ≠ loc) := by
        refine h.filter (p := fun l => l ≠ loc) fun e he _ => .inr ?_
        simp only [ne_eq, decide_eq_true_eq]
        intro heq
        exact hold (heq ▸ h.parent_dir he)
      refine hfilter.snoc ?_ ?_ node
      · unfold look
        rw [if_neg hne, lookup_filter (p := fun l => l ≠ loc)]
        simp
      · unfold look at hdir ⊢
        split_ifs at hdir ⊢ with hroot
        · rfl
        · rw [lookup_filter (p := fun l => l ≠ loc)]
          simpa [hparent] using hdir

end Grown

theorem walk_append {moves moves' : List (Move ν)} :
    walk t loc (moves ++ moves') = (walk t loc moves).bind fun l => walk t l moves' := by
  induction moves generalizing loc with
  | nil => rfl
  | cons move moves ih =>
      simp only [List.cons_append, walk]
      split_ifs
      · exact ih
      · rfl

omit [DecidableEq ν] in
theorem mem_visited_append {moves moves' : List (Move ν)} {l : List ν} (hl : l ∈ visited loc (moves ++ moves')) :
    l ∈ visited loc moves ∨ l ∈ visited (place loc moves) moves' := by
  induction moves generalizing loc with
  | nil => exact .inr hl
  | cons move moves ih =>
      rcases List.mem_cons.mp hl with rfl | hl
      · exact .inl List.mem_cons_self
      · exact (ih hl).imp_left (List.mem_cons_of_mem loc)

omit [DecidableEq ν] in
theorem visited_append_left {moves moves' : List (Move ν)} {l : List ν} (hl : l ∈ visited loc moves) :
    l ∈ visited loc (moves ++ moves') := by
  induction moves generalizing loc with
  | nil =>
      obtain rfl := List.mem_singleton.mp hl
      cases moves' <;> exact List.mem_cons_self
  | cons move moves ih =>
      rcases List.mem_cons.mp hl with rfl | hl
      · exact List.mem_cons_self
      · exact List.mem_cons_of_mem loc (ih hl)

/-- Names can be followed through the directories that lead to them. -/
theorem Grown.walk_down (h : Grown t) {names : List ν} {name : ν}
    (hdir : look t (loc ++ names) = some .dir) :
    walk t loc ((names ++ [name]).map .down) = some (loc ++ (names ++ [name])) := by
  induction names generalizing loc with
  | nil =>
      rw [List.append_nil] at hdir
      simp only [List.nil_append, List.map_cons, List.map_nil, walk, Move.apply]
      rw [if_pos (isDir_iff.mpr hdir)]
  | cons first names ih =>
      have hhere := h.ancestor (List.cons_ne_nil first names) hdir
      simp only [List.cons_append, List.map_cons, walk, Move.apply]
      rw [if_pos (isDir_iff.mpr hhere)]
      have hrest : walk t (loc ++ [first]) ((names ++ [name]).map .down) = _ := ih (by rwa [List.append_assoc])
      rw [hrest, List.append_assoc]
      rfl

/-! Copies. -/

/-- A copy of all that is below `source`, at the same names below `target`. -/
def graft (t : Tree ν β) (source target : List ν) : Tree ν β :=
  t ++ (below t source).map fun e => (target ++ e.1, e.2)

theorem lookup_shift {s : Tree ν β} (target rel : List ν) :
    (s.map fun e => (target ++ e.1, e.2)).lookup (target ++ rel) = s.lookup rel := by
  induction s with
  | nil => rfl
  | cons e s ih =>
      rw [List.map_cons, List.lookup_cons, List.lookup_cons, ih]
      have hbeq : (target ++ rel == target ++ e.1) = (rel == e.1) := by
        rw [Bool.eq_iff_iff, beq_iff_eq, beq_iff_eq, List.append_right_inj]
      rw [hbeq]

theorem lookup_below (t : Tree ν β) (loc : List ν) {rel : List ν} (h : rel ≠ []) :
    (below t loc).lookup rel = t.lookup (loc ++ rel) := by
  induction t with
  | nil => rfl
  | cons e t ih =>
      obtain ⟨key, node⟩ := e
      unfold below at ih ⊢
      rw [List.filterMap_cons, List.lookup_cons]
      by_cases hkey : loc <+: key ∧ key ≠ loc
      · rw [if_pos hkey]
        obtain ⟨⟨tail, rfl⟩, -⟩ := hkey
        dsimp only
        rw [List.lookup_cons, List.drop_left, ih]
        have hbeq : (loc ++ rel == loc ++ tail) = (rel == tail) := by
          rw [Bool.eq_iff_iff, beq_iff_eq, beq_iff_eq, List.append_right_inj]
        rw [hbeq]
      · rw [if_neg hkey]
        have hne : (loc ++ rel == key) = false := by
          rw [beq_eq_false_iff_ne]
          rintro rfl
          exact hkey ⟨List.prefix_append loc rel, fun heq => h (List.append_right_eq_self.mp heq)⟩
        rw [hne]
        exact ih

section graft
variable {source target : List ν}

/-- The copy shows what the original does. -/
theorem look_graft (hempty : below t target = []) {rel : List ν} (hrel : rel ≠ []) :
    look (graft t source target) (target ++ rel) = look t (source ++ rel) := by
  have hnone : t.lookup (target ++ rel) = none := by
    rw [← lookup_below t target hrel, hempty]
    rfl
  unfold look graft
  rw [if_neg (by simp [hrel]), if_neg (by simp [hrel]), List.lookup_append, hnone,
    lookup_shift, lookup_below t source hrel]
  rfl

theorem look_graft_other (h : ¬ (target <+: loc ∧ loc ≠ target)) :
    look (graft t source target) loc = look t loc := by
  have hnone : ((below t source).map fun e => ((target ++ e.1, e.2) : List ν × Node β)).lookup loc = none := by
    rw [List.lookup_eq_none_iff]
    intro e he
    obtain ⟨⟨rel, node⟩, hmem, rfl⟩ := List.mem_map.mp he
    refine bne_iff_ne.mpr fun heq => h ?_
    rw [heq]
    refine ⟨List.prefix_append target rel, fun hself => (mem_below.mp hmem).1 ?_⟩
    exact List.append_right_eq_self.mp hself
  unfold look graft
  rw [List.lookup_append, hnone, Option.or_none]

end graft
end FileTree
