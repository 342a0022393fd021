import SQLid.Allocation
import SQLid.ScanLaws

/-!
# A scan beside inserts

The threads of the clients with coarser actions: a whole INSERT is one, and so are the
two reads a SELECT starts with and each round of its scan. The scan ends on a number of
places it has read before; what this leaves open is closed by a condition on the rounds.
-/
namespace SQLid
open Interleave Programs
open Tabble (LogOnly)

/-- Conditions that name lines instead of columns. -/
def Condition.isIndex (c : Condition) : Bool :=
  match c.condType with
  | .directIndex | .fromIndex | .toIndex => true
  | _ => false

def Condition.isLogical (c : Condition) : Bool :=
  match c.condType with
  | .logicalAnd | .logicalOr => true
  | _ => false

namespace Executor

/-- Without index conditions a SELECT strips leading connectives and keeps its window. -/
theorem stripSelect_plain {conds : List Condition} (h : ∀ c ∈ conds, c.isIndex = false)
    (i maxLine : Nat) :
    stripSelect i maxLine conds = .ok (i, maxLine, conds.dropWhile Condition.isLogical) := by
  induction conds with
  | nil => rfl
  | cons c conds ih =>
    have hc := h c List.mem_cons_self
    have hrest := ih fun d hd => h d (List.mem_cons_of_mem c hd)
    obtain ⟨kind, id, desired⟩ := c
    unfold stripSelect
    cases kind <;> first | exact hrest | rfl | cases hc

end Executor

namespace Tabble

/-- Rows have been added, and those there were are as they were. -/
structure More (t t' : Tabble) : Prop where
  info : t'.info = t.info
  maxLines : t.maxLines ≤ t'.maxLines
  active : ∀ line, t.active line = true → t'.active line = true
  cells : ∀ line, t.active line = true → ∀ c ∈ t.info.columns, t'.cell line c = t.cell line c

section More
variable {t t' t'' : Tabble}

theorem LogOnly.more (h : LogOnly t t') : More t t' := by
  obtain ⟨l, rfl⟩ := h
  exact ⟨rfl, le_rfl, fun _ h => h, fun _ _ _ _ => rfl⟩

theorem More.refl (t : Tabble) : More t t := (LogOnly.refl t).more

theorem More.trans (h : More t t') (h' : More t' t'') : More t t'' := by
  refine ⟨h'.info.trans h.info, h.maxLines.trans h'.maxLines, fun line hl => h'.active line (h.active line hl),
    fun line hl c hc => ?_⟩
  rw [h'.cells line (h.active line hl) c (by rwa [h.info]), h.cells line hl c hc]

theorem Started.more {cur : Nat} (h : t.Sound) (s : Started t t' cur) : More t t'.addPlace := by
  refine ⟨s.info, s.grown, fun line hl => ?_, fun line hl => ?_⟩
  · change t'.active line = true
    rw [s.active]
    by_cases hcur : line = cur
    · rw [hcur, Function.update_self]
    · rw [Function.update_of_ne hcur]
      exact hl
  · have hcur : line ≠ cur := by
      rintro rfl
      rw [s.free] at hl
      cases hl
    exact cell_congr h.layout s.info (s.bytes line (active_lt_maxLines hl) hcur)

/-- A row that met the conditions still does. -/
theorem More.meets (h : More t t') {conds : List Condition} {line : Nat}
    (hm : t.meets conds line = true) : t'.meets conds line = true := by
  obtain ⟨ha, hs⟩ := meets_iff.mp hm
  have ha' := h.active line ha
  have hflag : t'.flag line = t.flag line :=
    (active_iff.mp ha').2.trans (active_iff.mp ha).2.symm
  rw [meets_iff, rowSelects_congr h.info hflag (h.cells line ha)]
  exact ⟨ha', hs⟩

end More

end Tabble

namespace Scanner
open Thread (atom)

abbrev Row := List VariantTypes

/-- What a thread does next. A round of a scan comes with its conditions, the number of
rows that ends it, the rows found, and the lines behind this one. -/
inductive Round where
  | insert
  | getMaxActiveLine (conds : List Condition)
  | getActivePlaces
  | iteration (conds : List Condition) (count found line rest : Nat)
  | answer (rows : List Row)
  | fail

end Scanner

abbrev Scanner (α : Type) : Type 1 := Thread Fault Tabble Scanner.Round α

namespace Scanner
open Thread (atom)
variable {α : Type}

/-- A stretch of a client's thread that nobody interrupts. -/
def whole (l : Round) (p : Client α) : Scanner α := atom l p.run

def ofExcept : Except Fault α → Scanner α
  | .ok a => pure a
  | .error e => atom .fail (throw e)

def executeInsert (os : Os) (waits : Nat → Bool) (columns : List Column) (query : InsertQuery) :
    Scanner (List Row) := whole .insert (Client.executeInsert os waits columns query)

/-- One round of the scan of a SELECT: the row of the line, if it is selected. -/
def visit (conds : List Condition) (columns : List Column) (ids : List Nat) (line : Nat) :
    Client (Option Row) := do
  if ← Client.selects true conds columns line then do
    let row ← Client.pushRecord line ids columns
    return some row
  else do
    atom (.skip line) (pure ())
    return none

def scanLines (conds : List Condition) (columns : List Column) (ids : List Nat) (count : Nat) :
    Nat → Nat → List Row → Scanner (List Row)
  | 0, _, body => pure body
  | n+1, line, body =>
      if body.length < count then do
        let found ← whole (.iteration conds count body.length line n) (visit conds columns ids line)
        scanLines conds columns ids count n (line + 1) (body ++ found.toList)
      else pure body

def reserveBody (n : Nat) : Scanner Unit :=
  if Executor.maxBody < n then atom .fail (throw .lengthError) else pure ()

/-- A SELECT that looks no line up directly. -/
def executeSelect (columns : List Column) (query : SelectQuery) : Scanner (List Row) := do
  let _ ← ofExcept (Executor.columnHeader columns query.columnsOptimized)
  let freeId ← whole (.getMaxActiveLine (query.conditions.dropWhile Condition.isLogical))
    Client.getMaxActiveLine
  let strip ← ofExcept (Executor.stripSelect 0 freeId query.conditions)
  let count ← whole .getActivePlaces (Client.activeCount query.limit)
  reserveBody count
  let body ← scanLines strip.2.2 columns query.columnsOptimized count (strip.2.1 - strip.1) strip.1 []
  return Client.sorted query body

/-! Alone the coarse thread is the fine one. -/

theorem run_whole (l : Round) (p : Client α) : (whole l p).run = p.run := Thread.run_atom l _

theorem run_ofExcept (x : Except Fault α) : (ofExcept x).run = Programs.ofExcept x := by
  cases x with
  | ok a => rfl
  | error e => exact Thread.run_atom _ _

theorem run_scanLines (conds : List Condition) (columns : List Column) (ids : List Nat) (count n line : Nat)
    (body : List Row) : (scanLines conds columns ids count n line body).run =
      (Client.scanLines true conds columns count (fun line => Client.pushRecord line ids columns)
        n line body).run := by
  induction n generalizing line body with
  | zero => rfl
  | succ n ih =>
    unfold scanLines Client.scanLines
    split_ifs
    · simp only [visit, Thread.run_bind, run_whole, bind_assoc]
      refine bind_congr fun b => ?_
      cases b with
      | true =>
          simp only [if_true, Thread.run_bind, bind_assoc, Thread.run_pure, pure_bind, ih]
          rfl
      | false =>
          simp only [Bool.false_eq_true, if_false, Thread.run_bind, Thread.run_atom, Thread.run_pure,
            pure_bind, ih, Option.toList_none, List.append_nil]
    · rfl

theorem run_executeSelect {columns : List Column} {query : SelectQuery}
    (h : Executor.directIndex query.conditions = none) :
    (executeSelect columns query).run = (Client.executeSelect columns query).run := by
  unfold executeSelect Client.executeSelect
  rw [h]
  simp only [Thread.run_bind, run_whole, run_ofExcept, Client.run_ofExcept, run_scanLines,
    Thread.run_pure]
  refine bind_congr fun _ => bind_congr fun _ => bind_congr fun _ => bind_congr fun count => ?_
  refine congrArg (· >>= _) ?_
  unfold reserveBody Client.reserveBody
  split_ifs
  · exact (Thread.run_atom _ _).trans (Client.run_fail _).symm
  · rfl

/-! What is noted of the scans. -/

/-- The conditions of a scan, and the lines that have met them in every state since. -/
structure Watch where
  conds : List Condition
  lines : Nat → Bool

/-- What the threads watch, and the answers given, each with the lines that met the
conditions throughout. -/
structure Notes where
  watches : Nat → Watch
  answers : List ((Nat → Bool) × List Row)

def Watch.keep (w : Watch) (t : Tabble) : Watch :=
  { w with lines := fun line => w.lines line && t.meets w.conds line }

def Notes.keep (g : Notes) (t : Tabble) : Notes := { g with watches := fun j => (g.watches j).keep t }

def Notes.empty : Notes := ⟨fun _ => ⟨[], fun _ => false⟩, []⟩

def watching (i : Nat) : Round → Tabble → Notes → Notes
  | .getMaxActiveLine conds, t, g =>
      { g.keep t with watches := Function.update (g.keep t).watches i ⟨conds, t.meets conds⟩ }
  | .answer rows, t, g =>
      { g.keep t with answers := (((g.keep t).watches i).lines, rows) :: g.answers }
  | _, t, g => g.keep t

/-- A row of the line. -/
def Shows (rows : List Row) (line : Nat) : Prop := ∃ row ∈ rows, row.head? = some (Executor.idCell line)

/-- Every line that met the conditions throughout is in the answer. -/
def Shown (g : Notes) : Prop := ∀ p ∈ g.answers, ∀ line, p.1 line = true → Shows p.2 line

/-- The lines from this one on that meet the conditions. -/
def ahead (t : Tabble) (conds : List Condition) (line rest : Nat) : List Nat :=
  (List.range' line (rest + 1)).filter (t.meets conds)

/-- No growth of the file has failed, and a round begins with room for all lines ahead
that meet the conditions. -/
def Roomy (_ : Nat) (l : Round) (t : Tabble) (_ : Notes) : Prop :=
  t.storage.expanding = false ∧
    match l with
    | .iteration conds count found line rest => found + (ahead t conds line rest).length ≤ count
    | _ => True

instance (i : Nat) (l : Round) (t : Tabble) (g : Notes) : Decidable (Roomy i l t g) :=
  match l with
  | .iteration conds count found line rest => inferInstanceAs (Decidable (t.storage.expanding = false ∧
      found + (ahead t conds line rest).length ≤ count))
  | .insert | .getMaxActiveLine _ | .getActivePlaces | .answer _ | .fail =>
      inferInstanceAs (Decidable (t.storage.expanding = false ∧ True))

/-- What a client may begin: an INSERT, or a SELECT without LIMIT and index conditions. -/
def Request (os : Os) (schema : TabbleInfo) (p : Scanner Unit) : Prop :=
  ∃ command,
    (∃ query waits, compile schema command = .ok (.insert query) ∧
      p = executeInsert os waits schema.columns query >>= fun _ => pure ()) ∨
    ∃ query, compile schema command = .ok (.select query) ∧ query.limit = sizeMax ∧
      (∀ c ∈ query.conditions, c.isIndex = false) ∧
      p = executeSelect schema.columns query >>= fun rows => atom (.answer rows) (pure ())

def scanners (os : Os) (schema : TabbleInfo) : Interleave.System Fault Tabble Round Notes :=
  ⟨watching, Request os schema⟩

/-- What a thread knows: nothing, the end of its window, or where its scan is. -/
inductive Role where
  | idle
  | bounded (conds : List Condition) (bound : Nat)
  | scanning (conds : List Condition) (count bound line : Nat) (body : List Row)

/-- The lines that have met the conditions all the time are in the window, and found if the
scan is past them; it stops on its count behind the last of them only. -/
def Role.Holds (t : Tabble) (w : Watch) : Role → Prop
  | .idle => True
  | .bounded conds bound => w.conds = conds ∧ bound ≤ t.maxLines ∧
      ∀ j, w.lines j = true → t.meets conds j = true ∧ j < bound
  | .scanning conds count bound line body => w.conds = conds ∧ bound ≤ t.maxLines ∧
      ∀ j, w.lines j = true → t.meets conds j = true ∧ j < bound ∧ (j < line → Shows body j) ∧
        (count ≤ body.length → j < line)

section
variable {os : Os} {schema : TabbleInfo} {i : Nat} {t t' : Tabble} {g g' : Notes} {w : Watch}
  {r : Role} {roles : Nat → Role} {α : Type}

theorem Role.Holds.more (h : r.Holds t w) (hm : Tabble.More t t') : r.Holds t' w := by
  cases r with
  | idle => trivial
  | bounded conds bound =>
      obtain ⟨hw, hb, hl⟩ := h
      exact ⟨hw, hb.trans hm.maxLines, fun j hj => ⟨hm.meets (hl j hj).1, (hl j hj).2⟩⟩
  | scanning conds count bound line body =>
      obtain ⟨hw, hb, hl⟩ := h
      exact ⟨hw, hb.trans hm.maxLines, fun j hj => ⟨hm.meets (hl j hj).1, (hl j hj).2⟩⟩

theorem Role.Holds.keep (h : r.Holds t w) : r.Holds t (w.keep t) := by
  have hlines : ∀ j, (w.keep t).lines j = true → w.lines j = true := fun j hj =>
    (Bool.and_eq_true_iff.mp hj).1
  cases r with
  | idle => trivial
  | bounded conds bound => exact ⟨h.1, h.2.1, fun j hj => h.2.2 j (hlines j hj)⟩
  | scanning conds count bound line body => exact ⟨h.1, h.2.1, fun j hj => h.2.2 j (hlines j hj)⟩

/-- What all threads keep while the table is mapped. -/
structure Held (schema : TabbleInfo) (t : Tabble) (g : Notes) (roles : Nat → Role) : Prop where
  served : Served schema t
  roles : ∀ j, (roles j).Holds t (g.watches j)

structure Watched (schema : TabbleInfo) (t : Tabble) (g : Notes) (roles : Nat → Role) : Prop where
  shown : Shown g
  held : t.storage.expanding = false → Held schema t g roles

abbrev ScanStep (os : Os) (schema : TabbleInfo) (i : Nat) (r : Role) (l : Round)
    (x : EStateM Fault Tabble α) (Q : α → Role → Prop) : Prop :=
  Does (scanners os schema) Roomy (Watched schema) (fun _ => True) i r l x Q

abbrev ScanSafe (os : Os) (schema : TabbleInfo) (i : Nat) (Q : α → Role → Prop) (p : Scanner α)
    (r : Role) : Prop := Safe (scanners os schema) Roomy (Watched schema) (fun _ => True) i Q p r

/-- The other threads keep what they know when rows are added. -/
theorem Held.step (h : Held schema t g roles) (hs : Served schema t') (hm : Tabble.More t t')
    (hothers : ∀ j, j ≠ i → g'.watches j = (g.watches j).keep t)
    (hown : r.Holds t' (g'.watches i)) : Held schema t' g' (Function.update roles i r) := by
  refine ⟨hs, fun j => ?_⟩
  by_cases hj : j = i
  · rw [hj, Function.update_self]
    exact hown
  · rw [Function.update_of_ne hj, hothers j hj]
    exact (h.roles j).keep.more hm

/-- A thread that knows nothing is no obstacle. -/
theorem Held.idle (h : Held schema t g roles) (hs : Served schema t') (hm : Tabble.More t t') (i : Nat) :
    Held schema t' g (Function.update roles i .idle) := by
  refine ⟨hs, fun j => ?_⟩
  by_cases hj : j = i
  · rw [hj, Function.update_self]
    trivial
  · rw [Function.update_of_ne hj]
    exact (h.roles j).more hm

/-- What an action does to a served table is what it does; a fault leaves rows or no table. -/
theorem does_held {l : Round} {x : EStateM Fault Tabble α} {Q : α → Role → Prop}
    (hx : ∀ t g roles, Held schema t g roles → Shown g → (r.Holds t (g.watches i)) → Roomy i l t g →
      Post (fun a t' => Shown (watching i l t g) ∧ Served schema t' ∧ Tabble.More t t' ∧
          (∀ j, j ≠ i → (watching i l t g).watches j = (g.watches j).keep t) ∧
          ∃ r', r'.Holds t' ((watching i l t g).watches i) ∧ Q a r')
        (fun _ t' => t'.storage.expanding = true ∨ Served schema t' ∧ Tabble.More t t') (x.run t)) :
    ScanStep os schema i r l x Q := by
  intro t g roles hW hr hok
  have hH := hW.held hok.1
  have hown := hH.roles i
  rw [hr] at hown
  refine (hx t g roles hH hW.shown hown hok).mono ?_ ?_
  · rintro a t' ⟨hshown, hs, hm, hothers, r', hr', hQ⟩
    exact ⟨r', ⟨hshown, fun _ => hH.step hs hm hothers hr'⟩, hQ⟩
  · rintro e t' hfault
    refine ⟨.idle, ⟨hW.shown, fun he => ?_⟩, trivial⟩
    rcases hfault with hgone | ⟨hs, hm⟩
    · rw [hgone] at he
      cases he
    · exact hH.idle hs hm i

theorem does_fail (e : Fault) (Q : α → Role → Prop) :
    ScanStep os schema i r .fail (throw e : EStateM Fault Tabble α) Q :=
  does_held fun t _ _ hH _ _ _ => .error (.inr ⟨hH.served, .refl t⟩)

theorem safe_ofExcept {x : Except Fault α} {Q : α → Role → Prop} (hx : ∀ a, x = .ok a → Q a r) :
    ScanSafe os schema i Q (ofExcept x) r := by
  cases x with
  | ok a => exact hx a rfl
  | error e => exact safe_atom (does_fail e Q)

/-! INSERT. -/

theorem insertFrom_outcome (os : Os) (hlay : schema.Layout) {values : List VariantTypes} {rows : Nat}
    (hrows : schema.FullRows values rows) (waits : Nat → Bool) (n k : Nat) (body : List Row)
    (hs : Served schema t) :
    Post (fun _ t' => Served schema t' ∧ Tabble.More t t') (fun _ t' => t'.storage.expanding = true)
      ((Client.insertFrom os waits values schema.columns n (k * schema.columns.length) body).run.run t) := by
  induction n generalizing k body t with
  | zero => exact .ok ⟨hs, .refl t⟩
  | succ n ih =>
    unfold Client.insertFrom
    split_ifs with hlt
    · have hk : k < rows := by
        rw [hrows.length] at hlt
        exact Nat.lt_of_mul_lt_mul_right hlt
      obtain rfl := hs.info
      rw [Thread.run_bind, Client.run_insert]
      rcases hs.sound.insert_ok os values (k * t.info.columns.length) (fun _ hc => hc)
        (Executor.fullRows_fit hlay hrows hk) with ⟨cur, t₁, f, s, hok, -⟩ | ⟨-, e, t₁, herr, -, hb⟩
      · rw [run_bind_ok hok]
        have hmore := s.more hs.sound
        have hnext := ih (k + 1) (body ++ [[Executor.idCell cur]]) (hs.started s)
        rw [Nat.succ_mul] at hnext
        exact hnext.mono (fun _ _ h => ⟨h.1, hmore.trans h.2⟩) fun _ _ h => h
      · rw [run_bind_error herr]
        exact .error hb.expanding
    · exact .ok ⟨hs, .refl t⟩

theorem safe_executeInsert (hlay : schema.Layout) {query : InsertQuery} {rows : Nat}
    (hrows : schema.FullRows query.values rows) (waits : Nat → Bool) :
    ScanSafe os schema i (fun _ _ => True) (executeInsert os waits schema.columns query) r := by
  refine safe_atom (does_held fun t g roles hH hshown hown _ => ?_)
  have hrun := insertFrom_outcome os hlay hrows waits query.values.length 0 [] hH.served
  rw [Nat.zero_mul] at hrun
  exact hrun.mono (fun _ t' h => ⟨hshown, h.1, h.2, fun _ _ => rfl, r, hown.keep.more h.2, trivial⟩)
    fun _ _ h => .inl h

/-! SELECT. -/

theorem does_getMaxActiveLine (conds : List Condition) :
    ScanStep os schema i r (.getMaxActiveLine conds) Client.getMaxActiveLine.run
      fun freeId r' => r' = .bounded conds freeId := by
  refine does_held fun t g roles hH hshown _ _ => ?_
  have hown : Function.update (g.keep t).watches i ⟨conds, t.meets conds⟩ i = ⟨conds, t.meets conds⟩ :=
    Function.update_self ..
  refine .ok ⟨hshown, hH.served, .refl t, fun j hj => Function.update_of_ne hj _ _,
    .bounded conds t.freeId, ?_, rfl⟩
  change Role.Holds t (Function.update (g.keep t).watches i ⟨conds, t.meets conds⟩ i) _
  rw [hown]
  exact ⟨rfl, hH.served.sound.freeId_le, fun j hj =>
    ⟨hj, hH.served.sound.active_lt (Tabble.meets_iff.mp hj).1⟩⟩

/-- Where no place is active no line meets conditions. -/
theorem does_activeCount {conds : List Condition} {bound : Nat} :
    ScanStep os schema i (.bounded conds bound) .getActivePlaces (Client.activeCount sizeMax).run
      fun count r' => r' = .scanning conds count bound 0 [] := by
  refine does_held fun t g roles hH hshown hown _ => ?_
  obtain ⟨hconds, hbound, hlines⟩ := hown.keep
  have hrun : (Client.activeCount sizeMax).run.run t =
      .ok (if t.activePlaces < sizeMax then t.activePlaces else sizeMax) t := rfl
  rw [hrun]
  refine .ok ⟨hshown, hH.served, .refl t, fun _ _ => rfl, .scanning conds _ bound 0 [],
    ⟨hconds, hbound, fun j hj => ?_⟩, rfl⟩
  obtain ⟨hmeets, hlt⟩ := hlines j hj
  refine ⟨hmeets, hlt, fun hj => absurd hj (Nat.not_lt_zero j), fun hcount => ?_⟩
  have hplaces : t.activePlaces = 0 := by
    rw [List.length_nil] at hcount
    unfold sizeMax at hcount
    split_ifs at hcount <;> omega
  have hactive := (Tabble.meets_iff.mp hmeets).1
  have hpos : 0 < t.activeCount := by
    rw [Tabble.activeCount_eq]
    exact (Nat.zero_le _).trans_lt
      (Nat.count_strict_mono hactive (Tabble.active_lt_maxLines hactive))
  have hge := hH.served.places_ge
  omega

theorem readRecord_head {line : Nat} {ids : List Nat} {columns : List Column} {row : Row}
    (h : t.peek (Executor.readRecord line ids columns) = .ok row) :
    row.head? = some (Executor.idCell line) := by
  unfold Executor.readRecord at h
  rw [(Executor.reads_readColumns line columns ids).peek_bind fun _ => Tabble.reads_pure _] at h
  obtain ⟨values, -, hrow⟩ := Except_bind_ok h
  cases hrow
  rfl

theorem visit_outcome (hm : t.Mapped) (hfilled : ∀ c ∈ t.info.columns, 0 < c.size) (conds : List Condition)
    (ids : List Nat) {line : Nat} (hi : line < t.maxLines) :
    Post (fun found t' => LogOnly t t' ∧ (t.meets conds line = true → Shows found.toList line) ∧
        (t.meets conds line = false → found = none))
      (fun _ t' => LogOnly t t') ((visit conds t.info.columns ids line).run.run t) := by
  have hvisit : (visit conds t.info.columns ids line).run =
      Executor.selects conds t.info.columns line >>= fun b =>
        if b then some <$> Executor.readRecord line ids t.info.columns else pure none := by
    unfold visit
    rw [Thread.run_bind, Client.run_selects]
    refine bind_congr fun b => ?_
    cases b with
    | true =>
        rw [if_pos rfl, if_pos rfl, Thread.run_bind, Client.run_pushRecord, ← bind_pure_comp]
        rfl
    | false => rfl
  have hrecord := Executor.reads_readRecord line ids t.info.columns
  have hfound (b : Bool) : Tabble.ReadsLine line (if b then
      some <$> Executor.readRecord line ids t.info.columns else pure none) := by
    cases b with
    | true => exact hrecord.map some
    | false => exact Tabble.reads_pure none
  have hselects := Executor.reads_selects conds t.info.columns line
  have hreads := hselects.bind hfound
  have hpeek := hselects.peek_bind (t := t) hfound
  rw [hm.peek_selects hi hfilled] at hpeek
  rw [hvisit]
  have hmeets := @Tabble.meets_of_lt t conds line hi
  cases hsel : t.rowSelects conds line with
  | error e =>
      rw [hsel] at hpeek
      obtain ⟨l, -, hrun⟩ := hreads.run_error hpeek
      rw [hrun]
      exact .error ⟨l, rfl⟩
  | ok b =>
      rw [hsel] at hpeek hmeets
      cases b with
      | false =>
          obtain ⟨l, -, hrun⟩ := hreads.run_ok (a := none) hpeek
          rw [hrun]
          have hnot : ¬ t.meets conds line = true := fun htrue => by cases hmeets.mp htrue
          exact .ok ⟨⟨l, rfl⟩, fun htrue => absurd htrue hnot, fun _ => rfl⟩
      | true =>
          have htrue := hmeets.mpr rfl
          have hsome := hrecord.peek_bind (t := t) fun row => Tabble.reads_pure (some row)
          rw [bind_pure_comp] at hsome
          replace hpeek := hpeek.trans hsome
          cases hrow : t.peek (Executor.readRecord line ids t.info.columns) with
          | error e =>
              rw [hrow] at hpeek
              obtain ⟨l, -, hrun⟩ := hreads.run_error hpeek
              rw [hrun]
              exact .error ⟨l, rfl⟩
          | ok row =>
              rw [hrow] at hpeek
              obtain ⟨l, -, hrun⟩ := hreads.run_ok (a := some row) hpeek
              rw [hrun]
              refine .ok ⟨⟨l, rfl⟩, fun _ => ⟨row, List.mem_singleton_self row, readRecord_head hrow⟩,
                fun hfalse => ?_⟩
              rw [htrue] at hfalse
              cases hfalse

/-- Two lines ahead need room for two. -/
theorem two_ahead {conds : List Condition} {line rest j : Nat} (hline : t.meets conds line = true)
    (hj : t.meets conds j = true) (hlow : line < j) (hhigh : j < line + (rest + 1)) :
    2 ≤ (ahead t conds line rest).length := by
  unfold ahead
  rw [List.range'_succ, List.filter_cons_of_pos hline, List.length_cons]
  have hmem : j ∈ (List.range' (line + 1) rest).filter (t.meets conds) :=
    List.mem_filter.mpr ⟨List.mem_range'_1.mpr (by omega), hj⟩
  have hpos := List.length_pos_of_mem hmem
  omega

theorem Shows.append {rows rows' : List Row} {j : Nat} (h : Shows rows j) : Shows (rows ++ rows') j := by
  obtain ⟨row, hrow, hhead⟩ := h
  exact ⟨row, List.mem_append_left rows' hrow, hhead⟩

theorem does_iteration (hfilled : ∀ c ∈ schema.columns, 0 < c.size) {conds : List Condition}
    {count line rest : Nat} {body : List Row} {ids : List Nat} (hroom : body.length < count) :
    ScanStep os schema i (.scanning conds count (line + (rest + 1)) line body)
      (.iteration conds count body.length line rest) (visit conds schema.columns ids line).run
      fun found r' => r' = .scanning conds count (line + (rest + 1)) (line + 1) (body ++ found.toList) := by
  refine does_held fun t g roles hH hshown hown hok => ?_
  obtain ⟨hconds, hbound, hlines⟩ := hown.keep
  have hahead : body.length + (ahead t conds line rest).length ≤ count := hok.2
  obtain rfl := hH.served.info
  refine (visit_outcome hH.served.sound.toMapped hfilled conds ids (by omega)).mono ?_
    fun _ t' hlog => .inr ⟨hH.served.logOnly hlog, hlog.more⟩
  rintro found t' ⟨hlog, hfound, hnone⟩
  refine ⟨hshown, hH.served.logOnly hlog, hlog.more, fun _ _ => rfl,
    .scanning conds count _ (line + 1) (body ++ found.toList), ⟨hconds, hbound.trans hlog.more.maxLines,
      fun j hj => ?_⟩, rfl⟩
  obtain ⟨hmeets, hlt, hshows, -⟩ := hlines j hj
  refine ⟨hlog.more.meets hmeets, hlt, fun hbehind => ?_, fun hfull => ?_⟩
  · rcases Nat.lt_or_ge j line with hold | hnew
    · exact (hshows hold).append
    · obtain rfl : j = line := by omega
      obtain ⟨row, hrow, hhead⟩ := hfound hmeets
      exact ⟨row, List.mem_append_right body hrow, hhead⟩
  · -- the round has filled the answer, so its line was the last one ahead
    by_contra hahead'
    cases hline : t.meets conds line with
    | false =>
        rw [hnone hline, Option.toList_none, List.append_nil] at hfull
        omega
    | true =>
        have htwo := two_ahead hline hmeets (by omega) hlt
        have hone : found.toList.length ≤ 1 := by cases found <;> simp
        rw [List.length_append] at hfull
        omega

/-- A scan ends behind the last line that has met its conditions all the time. -/
theorem safe_scanLines (hfilled : ∀ c ∈ schema.columns, 0 < c.size) {conds : List Condition}
    {ids : List Nat} {count bound : Nat} (n line : Nat) (body : List Row) (hbound : line + n = bound) :
    ScanSafe os schema i
      (fun rows r' => ∃ line, r' = .scanning conds count bound line rows ∧
        (bound = line ∨ count ≤ rows.length))
      (scanLines conds schema.columns ids count n line body)
      (.scanning conds count bound line body) := by
  induction n generalizing line body with
  | zero => exact ⟨line, rfl, .inl hbound.symm⟩
  | succ n ih =>
    unfold scanLines
    by_cases hroom : body.length < count
    · rw [if_pos hroom]
      subst hbound
      refine safe_atom_bind (does_iteration hfilled hroom) fun found r hr => ?_
      subst hr
      exact ih (line + 1) (body ++ found.toList) (Nat.add_right_comm line 1 n)
    · rw [if_neg hroom]
      exact ⟨line, rfl, .inr (Nat.le_of_not_lt hroom)⟩

theorem shows_sorted (query : SelectQuery) {rows : List Row} {j : Nat} (h : Shows rows j) :
    Shows (Client.sorted query rows) j := by
  obtain ⟨row, hrow, hhead⟩ := h
  refine ⟨row, ?_, hhead⟩
  unfold Client.sorted
  split_ifs
  · exact (List.mergeSort_perm rows _).mem_iff.mpr hrow
  · exact hrow

theorem does_answer {conds : List Condition} {count bound line : Nat} {rows : List Row}
    (hend : bound = line ∨ count ≤ rows.length) (query : SelectQuery) :
    ScanStep os schema i (.scanning conds count bound line rows)
      (.answer (Client.sorted query rows)) (pure ()) fun _ _ => True := by
  refine does_held fun t g roles hH hshown hown _ => ?_
  obtain ⟨-, -, hlines⟩ := hown.keep
  refine .ok ⟨fun p hp => ?_, hH.served, .refl t, fun _ _ => rfl, .idle, trivial, trivial⟩
  rcases List.mem_cons.mp hp with rfl | hp
  · intro j hj
    obtain ⟨-, hlt, hshows, hfull⟩ := hlines j hj
    refine shows_sorted query (hshows ?_)
    rcases hend with rfl | hcount
    · exact hlt
    · exact hfull hcount
  · exact hshown p hp

theorem safe_executeSelect (hfilled : ∀ c ∈ schema.columns, 0 < c.size) {query : SelectQuery}
    (hlimit : query.limit = sizeMax) (hplain : ∀ c ∈ query.conditions, c.isIndex = false) :
    ScanSafe os schema i (fun _ _ => True)
      (executeSelect schema.columns query >>= fun rows => atom (.answer rows) (pure ())) r := by
  have hselect : ScanSafe os schema i (fun rows r' => ∃ found, rows = Client.sorted query found ∧
      ∃ conds count bound line, r' = .scanning conds count bound line found ∧
        (bound = line ∨ count ≤ found.length)) (executeSelect schema.columns query) r := by
    unfold executeSelect
    have hheader : ScanSafe os schema i (fun _ _ => True)
        (ofExcept (Executor.columnHeader schema.columns query.columnsOptimized)) r :=
      safe_ofExcept fun _ _ => trivial
    refine hheader.bind fun _ r _ => ?_
    refine safe_atom_bind (does_getMaxActiveLine _) fun freeId r hr => ?_
    subst hr
    rw [Executor.stripSelect_plain hplain, hlimit]
    refine safe_atom_bind does_activeCount fun count r hr => ?_
    subst hr
    have hreserve : ScanSafe os schema i (fun _ r' => r' =
        .scanning (query.conditions.dropWhile Condition.isLogical) count freeId 0 [])
        (reserveBody count) (.scanning (query.conditions.dropWhile Condition.isLogical) count freeId 0 []) :=
      safe_ite (fun _ => safe_atom (does_fail _ _)) fun _ => rfl
    refine hreserve.bind fun _ r hr => ?_
    subst hr
    refine (safe_scanLines hfilled freeId 0 [] (Nat.zero_add freeId)).bind fun found r hr => ?_
    obtain ⟨line, rfl, hend⟩ := hr
    exact ⟨found, rfl, _, count, freeId, line, rfl, hend⟩
  refine hselect.bind fun rows r hr => ?_
  obtain ⟨found, rfl, conds, count, bound, line, rfl, hend⟩ := hr
  exact safe_atom (does_answer hend query)

theorem safe_request (hreg : schema.Regular) {p : Scanner Unit} (hp : Request os schema p) :
    ScanSafe os schema i (fun _ _ => True) p r := by
  obtain ⟨command, ⟨query, waits, hc, rfl⟩ | ⟨query, -, hlimit, hplain, rfl⟩⟩ := hp
  · obtain ⟨raw, -, hopt⟩ := Except_bind_ok hc
    obtain ⟨raw, hvalues⟩ := optimize_insert hopt
    obtain ⟨rows, hrows⟩ := Optimizer.optimizeInsertValues_fullRows hvalues
    exact (safe_executeInsert hreg.toLayout hrows waits).bind fun _ _ _ => trivial
  · exact safe_executeSelect hreg.filled hlimit hplain

end

/-! Every run. -/

/-- An answer has every line that met the conditions while the SELECT ran. -/
theorem inserts_hide_nothing {os : Os} {t : Tabble} (hreg : t.info.Regular) (hs : Served t.info t)
    {m : Machine Fault Tabble Round Notes} (h : Runs (scanners os t.info) Roomy (.start t .empty) m) :
    Shown m.ghost := by
  have hstart : Watched t.info t .empty fun _ => .idle :=
    ⟨fun _ hp => (List.not_mem_nil hp).elim, fun _ => ⟨hs, fun _ => trivial⟩⟩
  obtain ⟨roles, hW⟩ := h.invariant (fun _ hp i r _ => safe_request hreg hp) trivial hstart
  exact hW.shown

/-! A table with one number whose first line is a hole. -/

def sampleFile : ByteFile := ⟨500, fun k => if k = 5 then 1 else 0⟩

def sampleHole : Tabble := finalState (Tabble.openFile .reliable Tabble.sampleInfo sampleFile 0)

theorem sampleInfo_regular : Tabble.sampleInfo.Regular :=
  ⟨Tabble.sampleInfo_layout, by decide, by decide⟩

theorem sampleHole_served : Served Tabble.sampleInfo sampleHole := by
  have hopen : Tabble.openFile .reliable Tabble.sampleInfo sampleFile 0 = .ok () sampleHole :=
    eq_ok_of_isOk (by decide +kernel)
  exact openFile_served sampleInfo_regular (.inr ⟨by decide, by decide, by decide⟩) hopen

theorem sampleHole_regular : sampleHole.info.Regular := by
  rw [sampleHole_served.info]
  exact sampleInfo_regular

theorem sampleHole_started : Served sampleHole.info sampleHole := by
  rw [sampleHole_served.info]
  exact sampleHole_served

/-- The thread of an INSERT or a SELECT. -/
def sampleScanner (command : String) : Scanner Unit :=
  match compile Tabble.sampleInfo (CppText.str command) with
  | .ok (.insert query) =>
      executeInsert .reliable (fun _ => false) Tabble.sampleInfo.columns query >>= fun _ => pure ()
  | .ok (.select query) =>
      executeSelect Tabble.sampleInfo.columns query >>= fun rows => atom (.answer rows) (pure ())
  | _ => pure ()

def sampleScans (command : String) : Bool :=
  match compile Tabble.sampleInfo (CppText.str command) with
  | .ok (.insert _) => true
  | .ok (.select query) => query.limit = sizeMax && query.conditions.all fun c => c.isIndex = false
  | _ => false

theorem sampleScanner_request {command : String} (h : sampleScans command = true) :
    Request .reliable sampleHole.info (sampleScanner command) := by
  rw [sampleHole_served.info]
  unfold sampleScans at h
  unfold sampleScanner
  cases hc : compile Tabble.sampleInfo (CppText.str command) with
  | error e =>
      rw [hc] at h
      cases h
  | ok query =>
      rw [hc] at h
      cases query with
      | insert query => exact ⟨_, .inl ⟨query, _, hc, rfl⟩⟩
      | select query =>
          obtain ⟨hlimit, hplain⟩ := Bool.and_eq_true_iff.mp h
          exact ⟨_, .inr ⟨query, hc, of_decide_eq_true hlimit,
            fun c hmem => of_decide_eq_true (List.all_eq_true.mp hplain c hmem), rfl⟩⟩
      | erase query => cases h
      | update query => cases h

def sampleScanned (commands : List String) : Machine Fault Tabble Round Notes :=
  (Machine.start sampleHole .empty).begin (commands.map sampleScanner) 0

theorem runs_scanners {guard : Nat → Round → Tabble → Notes → Prop}
    [∀ i l t g, Decidable (guard i l t g)] {commands : List String}
    (h : ∀ c ∈ commands, sampleScans c = true) (schedule : List Nat) :
    Runs (scanners .reliable sampleHole.info) guard (.start sampleHole .empty)
      ((sampleScanned commands).play (scanners .reliable sampleHole.info) guard schedule) := by
  refine Runs.trans (runs_begin (fun p hp => ?_) _ 0 fun _ _ => rfl) (runs_play _ _)
  obtain ⟨c, hc, rfl⟩ := List.mem_map.mp hp
  exact sampleScanner_request (h c hc)

/-- The rows of a line are found in an answer by their ids. -/
theorem Shown.ids {g : Notes} (h : Shown g) (line : Nat) : ∀ p ∈ g.answers, p.1 line = true →
    some (Executor.idCell line) ∈ p.2.map List.head? := by
  intro p hp hline
  obtain ⟨row, hrow, hhead⟩ := h p hp line hline
  exact List.mem_map.mpr ⟨row, hrow, hhead⟩

/-- The hole is filled before the scan has read how many places are active. -/
theorem inserts_hide_nothing_sample : ∃ m : Machine Fault Tabble Round Notes,
    Runs (scanners .reliable sampleHole.info) Roomy (.start sampleHole .empty) m ∧
      m.ghost.answers.map (fun p => p.2) = [[[.int64 0, .int32 7], [.int64 1, .int32 0]]] ∧
      Shown m.ghost := by
  have hrun := @runs_scanners Roomy _ ["SELECT n FROM t", "INSERT INTO t 7"] (by decide +kernel)
    [0, 1, 0, 0, 0, 0]
  exact ⟨_, hrun, by decide +kernel, inserts_hide_nothing sampleHole_regular sampleHole_started hrun⟩

/-- The hole is filled when it has, and the new row stands for the old one. -/
theorem insert_hides_row : ¬ ∀ (os : Os) (t : Tabble), t.info.Regular → Served t.info t →
    ∀ m, Runs (scanners os t.info) (fun _ _ _ _ => True) (.start t .empty) m → Shown m.ghost := by
  intro h
  have hrun := @runs_scanners (fun _ _ _ _ => True) _ ["SELECT n FROM t", "INSERT INTO t 7"]
    (by decide +kernel) [0, 0, 1, 0, 0, 0]
  exact absurd ((h _ _ sampleHole_regular sampleHole_started _ hrun).ids 1) (by decide +kernel)

end Scanner
end SQLid
