import SQLid.Allocation
import SQLid.Library.Versions

/-!
# Rows read while others write them

The bytes of a line behind its flag as the content of a slot, which a request writes and
reads column by column. What the code leaves open is closed by a condition on the steps:
no row is read while it is written, and none is written while it is read.
-/
namespace SQLid
open Bytes (slice blit)
open Interleave Programs
open Tabble (Idles)
open Versions (Role Log Tracked Whole)

namespace Tabble

/-- The bytes of a line behind its flag. -/
def content (t : Tabble) (line k : Nat) : UInt8 :=
  if 1 ≤ k ∧ k < t.info.lineLength then t.byte (line * t.info.lineLength + k) else 0

/-- The value of a column in the bytes of a line. -/
def cellIn (v : Nat → UInt8) (c : Column) : VariantTypes := cellOfBytes (slice v c.offset c.size) c.type

theorem cell_content {t : Tabble} (h : t.info.Layout) (line : Nat) {c : Column}
    (hc : c ∈ t.info.columns) : t.cell line c = cellIn (t.content line) c := by
  have hin := h.column_inside hc
  unfold cell cellIn
  rw [Bytes.slice_shift]
  refine congrArg (cellOfBytes · c.type) (Bytes.slice_congr fun k hk hk' => ?_)
  unfold content
  rw [if_pos (by omega)]

theorem content_congr {t t' : Tabble} (hinfo : t'.info = t.info) {line : Nat}
    (hb : ∀ k, InLine t.info.lineLength line k → t'.byte k = t.byte k) :
    t'.content line = t.content line := by
  funext k
  unfold content
  rw [hinfo]
  split_ifs with hk
  · exact hb _ ⟨by omega, by omega⟩
  · rfl

/-- A flag is not part of a content. -/
theorem Touches.content {t t' : Tabble} {line : Nat}
    (h : Touches (fun k => k = line * t.info.lineLength) t t') : t'.content = t.content := by
  funext j
  refine content_congr h.info fun k hk => h.byte fun hflag => ?_
  rw [hflag] at hk
  exact not_inLine_flag t.info.lineLength j line hk

theorem SameFile.content {t t' : Tabble} (h : SameFile t t') : t'.content = t.content := by
  funext line
  refine content_congr h.info fun k _ => ?_
  unfold byte
  rw [h.core]

/-- A value written to a column of a line. -/
theorem content_blit {t t' : Tabble} {line off : Nat} {bs : Bytes.Text} (hinfo : t'.info = t.info)
    (ho : 1 ≤ off) (hend : off + bs.length ≤ t.info.lineLength)
    (hb : t'.byte = blit t.byte (line * t.info.lineLength + off) bs) :
    t'.content = Function.update t.content line (blit (t.content line) off bs) := by
  funext j
  by_cases hj : j = line
  · subst hj
    rw [Function.update_self]
    funext k
    unfold content
    rw [hinfo, hb, Bytes.blit_shift]
    by_cases hk : off ≤ k ∧ k < off + bs.length
    · rw [if_pos (by omega), Bytes.blit_of_mem hk.1 hk.2, Bytes.blit_of_mem hk.1 hk.2]
    · have hout : k < off ∨ off + bs.length ≤ k := by omega
      rw [Bytes.blit_of_not_mem hout, Bytes.blit_of_not_mem hout]
  · rw [Function.update_of_ne hj]
    refine content_congr hinfo fun k hk => ?_
    rw [hb, Bytes.blit_of_not_mem]
    have hlines := Nat.lt_or_gt_of_ne hj
    obtain ⟨hlow, hhigh⟩ := hk
    rcases hlines with hlt | hgt
    · have hmul := Nat.mul_le_mul_right t.info.lineLength (show j + 1 ≤ line from hlt)
      rw [Nat.succ_mul] at hmul
      omega
    · have hmul := Nat.mul_le_mul_right t.info.lineLength (show line + 1 ≤ j from hgt)
      rw [Nat.succ_mul] at hmul
      omega

theorem Grown.content {w : Option Nat} {t t' : Tabble} (h : Grown w t t') (hm : t.Mapped) {line : Nat}
    (hi : line < t.maxLines) : t'.content line = t.content line := by
  refine content_congr h.info fun k hk => h.byte_old k ?_
  have hend := MemoryMapLinux.line_end_le hi
  rw [hm.lineLength] at hend
  exact hk.2.trans_le hend

end Tabble

namespace Client
open Thread (atom)

/-- A row of an answer, with the columns asked for. -/
structure Answer where
  ids : List Nat
  row : List VariantTypes

/-- The answer is the row these bytes of the line stand for. -/
def Says (schema : TabbleInfo) (line : Nat) (v : Nat → UInt8) (a : Answer) : Prop :=
  a.row = Executor.idCell line :: (schema.pick a.ids).map (Tabble.cellIn v)

abbrev RowLog : Type := Log (Nat → UInt8) Answer

/-- A row is being written from its activation or the first write of an UPDATE to the
last write, and read from the test of its flag to its row in the answer. -/
def versions (i : Nat) : Action → Tabble → RowLog → RowLog
  | .activate line, t, g => g.claim i line (t.content line)
  | .write first line offset value rest, t, g =>
      let g := if first then g.claim i line (t.content line) else g
      let g := g.put line (blit (g.draft line) offset value.bytes)
      if rest = 0 then g.close line else g
  | .isActive true line, t, g => if t.active line then g.look i line else g.leave i
  | .aim line, _, g => g.look i line
  | .skip _, _, g => g.leave i
  | .pushRow line ids row, _, g => (g.answer line ⟨ids, row⟩).leave i
  | _, _, g => g

/-- Nobody reads the line or writes to it. -/
def Free (g : RowLog) (line : Nat) : Prop := (∀ p ∈ g.readers, p.2 ≠ line) ∧ g.writer line = none

instance (g : RowLog) (line : Nat) : Decidable (Free g line) :=
  inferInstanceAs (Decidable ((∀ p ∈ g.readers, p.2 ≠ line) ∧ g.writer line = none))

/-- A row is begun to be written where it is free, and begun to be read where it is not
written and has been written before. The lines are lines of the file. -/
def Apart : Action → Tabble → RowLog → Prop
  | .activate line, t, g => line < t.maxLines ∧ Free g line
  | .write true line _ _ _, t, g => line < t.maxLines ∧ Free g line
  | .deactivate line, t, _ => line < t.maxLines
  | .isActive true line, t, g => line < t.maxLines ∧ (t.active line = true → g.writer line = none)
  | .aim line, _, g => g.writer line = none ∧ (g.had line).length ≠ 0
  | _, _, _ => True

instance (l : Action) (t : Tabble) (g : RowLog) : Decidable (Apart l t g) :=
  match l with
  | .activate line => inferInstanceAs (Decidable (line < t.maxLines ∧ Free g line))
  | .write true line _ _ _ => inferInstanceAs (Decidable (line < t.maxLines ∧ Free g line))
  | .deactivate line => inferInstanceAs (Decidable (line < t.maxLines))
  | .isActive true line => inferInstanceAs
      (Decidable (line < t.maxLines ∧ (t.active line = true → g.writer line = none)))
  | .aim line => inferInstanceAs (Decidable (g.writer line = none ∧ (g.had line).length ≠ 0))
  | .write false _ _ _ _ | .isActive false _ | .pop | .loadFreeId | .getMaxLines | .expand
  | .addPlace | .addFreeId _ | .inserted _ | .push _ | .subPlace | .read _ | .getMaxActiveLine
  | .getActivePlaces | .note _ | .skip _ | .pushRow _ _ _ | .fail => isTrue trivial

/-- No growth of the file has failed, and rows are read and written apart. -/
def Undisturbed (_ : Nat) (l : Action) (t : Tabble) (g : RowLog) : Prop :=
  t.storage.expanding = false ∧ Apart l t g

instance (i : Nat) (l : Action) (t : Tabble) (g : RowLog) : Decidable (Undisturbed i l t g) :=
  inferInstanceAs (Decidable (t.storage.expanding = false ∧ Apart l t g))

/-- What all clients keep of the rows while the table is mapped. -/
structure Held (schema : TabbleInfo) (t : Tabble) (g : RowLog) (roles : Nat → Role (Nat → UInt8)) :
    Prop where
  mapped : t.Mapped
  info : t.info = schema
  tracked : Tracked t.content t.active t.maxLines g roles

theorem Held.same {schema : TabbleInfo} {t t' : Tabble} {g : RowLog} {roles : Nat → Role (Nat → UInt8)}
    (h : Held schema t g roles) (hs : Tabble.SameFile t t') : Held schema t' g roles := by
  refine ⟨hs.mapped h.mapped, hs.info.trans h.info, ?_⟩
  rw [hs.content, hs.active, hs.maxLines]
  exact h.tracked

/-- The answers given are whole, and so will be those that are not. -/
structure Watched (schema : TabbleInfo) (t : Tabble) (g : RowLog)
    (roles : Nat → Role (Nat → UInt8)) : Prop where
  whole : Whole (Says schema) g
  held : t.storage.expanding = false → Held schema t g roles

namespace Watched
variable {os : Os} {schema : TabbleInfo} {i line : Nat} {r : Role (Nat → UInt8)} {t t' : Tabble}
  {g : RowLog} {roles : Nat → Role (Nat → UInt8)} {α : Type}

theorem same (h : Watched schema t g roles) (hs : Tabble.SameFile t t') :
    Watched schema t' g roles :=
  ⟨h.whole, fun he => (h.held (hs.expanding ▸ he)).same hs⟩

theorem idle (h : Watched schema t g roles) (i : Nat) :
    Watched schema t g (Function.update roles i .idle) :=
  ⟨h.whole, fun he => ⟨(h.held he).mapped, (h.held he).info, (h.held he).tracked.idle i⟩⟩

/-- The table changes under a thread that looks at no row. -/
theorem of_held (h : Watched schema t g roles) (hh : Held schema t' g roles) :
    Watched schema t' g roles := ⟨h.whole, fun _ => hh⟩

abbrev RowStep (os : Os) (schema : TabbleInfo) (i : Nat) (r : Role (Nat → UInt8)) (l : Action)
    (x : EStateM Fault Tabble α) (Q : α → Role (Nat → UInt8) → Prop) : Prop :=
  Does (clients os schema versions) Undisturbed (Watched schema) (· = .idle) i r l x Q

abbrev RowSafe (os : Os) (schema : TabbleInfo) (i : Nat) (Q : α → Role (Nat → UInt8) → Prop)
    (p : Client α) (r : Role (Nat → UInt8)) : Prop :=
  Safe (clients os schema versions) Undisturbed (Watched schema) (· = .idle) i Q p r

/-- What an action does to a table that is mapped is what it does. -/
theorem does_held {l : Action} {x : EStateM Fault Tabble α} {Q : α → Role (Nat → UInt8) → Prop}
    (hx : ∀ t g roles, Watched schema t g roles → Held schema t g roles → roles i = r → Apart l t g →
      Post (fun a t' => ∃ r', Watched schema t' (versions i l t g) (Function.update roles i r') ∧ Q a r')
        (fun _ t' => Watched schema t' g (Function.update roles i .idle)) (x.run t)) :
    RowStep os schema i r l x Q := by
  intro t g roles hW hr hok
  exact (hx t g roles hW (hW.held hok.1) hr hok.2).mono (fun _ _ h => h) fun _ t' h => ⟨_, h, rfl⟩

/-- An action that leaves the file alone also leaves the thread its role. -/
theorem does_sameFile {l : Action} {x : EStateM Fault Tabble α}
    (hx : ∀ t, t.Mapped →
      Post (fun _ t' => Tabble.SameFile t t') (fun _ t' => Tabble.SameFile t t') (x.run t))
    (hl : ∀ t g, versions i l t g = g) : RowStep os schema i r l x fun _ r' => r' = r := by
  refine does_held fun t g roles hW hH hr _ => ?_
  refine (hx t hH.mapped).mono (fun _ t' hs => ⟨r, ?_, rfl⟩) fun _ t' hs => (hW.same hs).idle i
  rw [hl, ← hr, Function.update_eq_self]
  exact hW.same hs

theorem does_logOnly {l : Action} {x : EStateM Fault Tabble α} (hx : ∀ t, Idles x t)
    (hl : ∀ t g, versions i l t g = g) : RowStep os schema i r l x fun _ r' => r' = r :=
  does_sameFile (fun t _ => (hx t).mono (fun _ _ h => h.sameFile) fun _ _ h => h.sameFile) hl

/-- A thread may forget what it has in hand. -/
theorem does_forget {l : Action} {x : EStateM Fault Tabble α}
    (h : RowStep os schema i r l x fun _ r' => r' = r) :
    RowStep os schema i r l x fun _ r' => r' = .idle := by
  intro t g roles hW hr hok
  refine (h t g roles hW hr hok).mono ?_ fun _ _ h => h
  rintro a t' ⟨r', hW', -⟩
  refine ⟨.idle, ?_, rfl⟩
  have hidle := hW'.idle i
  rwa [Function.update_idem] at hidle

/-! `allocateId`. -/

theorem does_fail (e : Fault) (Q : α → Role (Nat → UInt8) → Prop) :
    RowStep os schema i r .fail (throw e : EStateM Fault Tabble α) Q :=
  does_held fun _ _ _ hW _ _ _ => .error (hW.idle i)

theorem does_expand {cur : Nat} (waits : Bool) : RowStep os schema i r .expand
    (expandSeen os waits cur) fun _ r' => r' = r := by
  refine does_held fun t g roles hW hH hr _ => ?_
  unfold expandSeen
  rw [run_bind_ok (EStateM.run_get t)]
  by_cases hw : waits = true ∧ cur < t.storage.getMaxLines
  · rw [if_pos hw]
    refine .ok ⟨r, ?_, rfl⟩
    rw [← hr, Function.update_eq_self]
    exact hW
  · rw [if_neg hw]
    rcases hH.mapped.expand_outcome os none with ⟨t', hrun, hgrown⟩ | ⟨e, t', hrun, hlost⟩
    · rw [hrun]
      have hcap := hgrown.maxLines
      have htracked : Tracked t'.content t'.active t'.maxLines g roles := by
        rw [hgrown.active]
        exact hH.tracked.grow (fun line hi => hgrown.content hH.mapped hi) (by omega)
      refine .ok ⟨r, ?_, rfl⟩
      rw [← hr, Function.update_eq_self]
      exact hW.of_held ⟨hgrown.mapped, hgrown.info.trans hH.info, htracked⟩
    · rw [hrun]
      refine .error ⟨hW.whole, fun he => ?_⟩
      rw [hlost.gone.expanding] at he
      cases he

/-- Counters are no part of the file. -/
theorem does_pure {l : Action} {f : Tabble → α} (hl : ∀ t g, versions i l t g = g) :
    RowStep os schema i r l (do return f (← get)) fun _ r' => r' = r :=
  does_sameFile (fun _ _ => .ok ⟨rfl, rfl, rfl⟩) hl

theorem does_modify {l : Action} {f : Tabble → Tabble} (hf : ∀ t, Tabble.SameFile t (f t))
    (hl : ∀ t g, versions i l t g = g) :
    RowStep os schema i r l (modify f : EStateM Fault Tabble Unit) fun _ r' => r' = r :=
  does_sameFile (fun t _ => .ok (hf t)) hl

theorem does_addPlace {l : Action} (hl : ∀ t g, versions i l t g = g) :
    RowStep os schema i r l addPlace fun _ r' => r' = r :=
  does_modify (fun _ => ⟨rfl, rfl, rfl⟩) hl

theorem safe_allocateFresh (waits : Bool) :
    RowSafe os schema i (fun _ r' => r' = r) (allocateFresh os waits) r := by
  refine safe_atom_bind (does_pure fun _ _ => rfl) fun cur r' hr => ?_
  subst hr
  refine safe_atom_bind (does_pure fun _ _ => rfl) fun lines r hr => ?_
  subst hr
  have hroom : RowSafe os schema i (fun _ r' => r' = r) (makeRoom os waits cur lines) r :=
    safe_ite (fun _ => safe_atom (does_expand waits)) fun _ => rfl
  refine hroom.bind fun _ r' hr => ?_
  subst hr
  refine safe_atom_bind (does_addPlace fun _ _ => rfl) fun _ r hr => ?_
  subst hr
  exact safe_atom_bind (does_modify (fun _ => ⟨rfl, rfl, rfl⟩) fun _ _ => rfl) fun _ r' hr => hr

theorem safe_allocateId (waits : Bool) :
    RowSafe os schema i (fun _ r' => r' = r) (allocateId os waits) r := by
  have hpop : RowStep os schema i r .pop popInStack fun _ r' => r' = r := by
    refine does_sameFile (fun t _ => ?_) fun _ _ => rfl
    unfold popInStack
    rw [run_bind_ok (EStateM.run_get t)]
    cases t.stackFreeId with
    | cons line rest => exact .ok ⟨rfl, rfl, rfl⟩
    | nil => exact .ok ⟨rfl, rfl, rfl⟩
  refine safe_atom_bind hpop fun found r' hr => ?_
  subst hr
  cases found with
  | some line => rfl
  | none => exact safe_allocateFresh waits

/-! `update` and `insert`. -/

theorem does_note (op : RowOp) : RowStep os schema i r (.note op) (Tabble.note op) fun _ r' => r' = r :=
  does_modify (fun _ => ⟨rfl, rfl, rfl⟩) fun _ _ => rfl

theorem does_activate : RowStep os schema i .idle (.activate line)
    (Tabble.onStorage (MemoryMap.activate line)) fun _ r' => r' = .writing line := by
  refine does_held fun t g roles hW hH hr hok => ?_
  obtain ⟨hi, hreaders, hwriter⟩ := hok
  obtain ⟨t', hrun, htouch, hactive⟩ := hH.mapped.writeFlag_outcome hi (.activate line) rfl true
  have hclaim := hH.tracked.claim hi hreaders hwriter i
  have htracked := hclaim.activate (Function.update_self i _ roles)
  unfold MemoryMap.activate
  rw [hrun]
  refine .ok ⟨.writing line, ⟨?_, fun _ => ⟨htouch.mapped hH.mapped, htouch.info.trans hH.info, ?_⟩⟩, rfl⟩
  · exact hW.whole.more rfl fun _ _ hc => hc
  · rw [htouch.content, hactive, htouch.maxLines]
    exact htracked

/-- A thread writes to a line where it has begun to, and begins to where the line is free. -/
def Writes (first : Bool) (line : Nat) (r : Role (Nat → UInt8)) : Prop :=
  if first then r = .idle else r = .writing line

theorem does_write {first : Bool} (hr : Writes first line r) {c : Column} (hc : c ∈ schema.columns)
    (value : VariantTypes) (rest : Nat) :
    RowStep os schema i r (.write first line c.offset value rest)
      (Tabble.onStorage (MemoryMap.writeInfo os line c.offset value))
      fun _ r' => r' = if rest = 0 then .idle else .writing line := by
  refine does_held fun t g roles hW hH hroles hok => ?_
  -- the log of the writer, whether it has begun before or begins here
  obtain ⟨g', hg', hhad, hanswers, htracked⟩ : ∃ g', (if first then g.claim i line (t.content line) else g) = g' ∧
      g'.had = g.had ∧ g'.answers = g.answers ∧
      Tracked t.content t.active t.maxLines g' (Function.update roles i (.writing line)) := by
    cases first with
    | true => exact ⟨_, rfl, rfl, rfl, hH.tracked.claim hok.1 hok.2.1 hok.2.2 i⟩
    | false =>
        refine ⟨g, rfl, rfl, rfl, ?_⟩
        have hself : roles i = .writing line := hroles.trans hr
        rw [← hself, Function.update_eq_self]
        exact hH.tracked
  have hwriting : Function.update roles i (.writing line) i = Role.writing line := Function.update_self i _ roles
  obtain ⟨hi, hdraft⟩ := htracked.draft line i (htracked.writing i line hwriting)
  have hin := hH.mapped.layout.column_inside (by rw [hH.info]; exact hc)
  by_cases hend : c.offset + value.bytes.length ≤ t.info.lineLength
  · obtain ⟨t', hrun, htouch, hbyte⟩ := hH.mapped.writeInfo_ok os hi hin.1 hend
    have hflags : ∀ j, ¬ Tabble.InLine t.info.lineLength line (j * t.storage.core.lineLength) := by
      rw [hH.mapped.lineLength]
      exact Tabble.not_inLine_flag _ _
    have hput := htracked.put hwriting (blit (g'.draft line) c.offset value.bytes)
    rw [hdraft, ← Tabble.content_blit htouch.info hin.1 hend hbyte, ← htouch.active hflags,
      ← htouch.maxLines, ← hdraft] at hput
    have hwhole : Whole (Says schema) (g'.put line (blit (g'.draft line) c.offset value.bytes)) :=
      hW.whole.more hanswers fun s v hv => by rw [← hhad] at hv; exact hv
    rw [hrun]
    refine .ok ⟨_, ?_, rfl⟩
    simp only [versions, hg']
    split_ifs
    · have hclose := hput.close hwriting
      rw [Function.update_idem] at hclose
      exact ⟨hwhole.close line, fun _ => ⟨htouch.mapped hH.mapped, htouch.info.trans hH.info, hclose⟩⟩
    · exact ⟨hwhole, fun _ => ⟨htouch.mapped hH.mapped, htouch.info.trans hH.info, hput⟩⟩
  · rw [hH.mapped.writeInfo_error os hi value (by omega) (by omega)]
    have hsame : Tabble.SameFile t (t.logged (Tabble.writeCall line value)) := ⟨rfl, rfl, rfl⟩
    exact .error ((hW.same hsame).idle i)

/-- Behind its last write a thread has let go of the line. -/
theorem safe_updateFrom {values : List VariantTypes} {first : Bool} {columns : List Column}
    (hc : ∀ c ∈ columns, c ∈ schema.columns) (hcolumns : columns ≠ []) (hr : Writes first line r)
    (k : Nat) : RowSafe os schema i (fun _ r' => r' = .idle)
      (updateFrom os values line first k columns) r := by
  induction columns generalizing first k r with
  | nil => exact absurd rfl hcolumns
  | cons c columns ih =>
    unfold updateFrom
    cases values[k]? with
    | none => exact safe_atom (does_fail _ _)
    | some value =>
        refine safe_atom_bind (does_write hr (hc c List.mem_cons_self) value _) fun _ r' hr' => ?_
        subst hr'
        cases columns with
        | nil => rfl
        | cons d columns =>
            exact ih (fun e he => hc e (List.mem_cons_of_mem c he)) (List.cons_ne_nil d columns)
              (show Writes false line (.writing line) from rfl) (k + 1)

theorem safe_insert (waits : Bool) (values : List VariantTypes) (index : Nat) :
    RowSafe os schema i (fun _ r' => r' = .idle)
      (insert os waits values schema.columns index) .idle := by
  refine (safe_allocateId waits).bind fun cur r hr => ?_
  subst hr
  refine safe_atom_bind (does_note _) fun _ r hr => ?_
  subst hr
  refine safe_atom_bind does_activate fun _ r hr => ?_
  subst hr
  -- a row without columns is never written
  have hupdate : RowSafe os schema i (fun _ _ => True)
      (update os values schema.columns false cur index) (.writing cur) := by
    refine safe_atom_bind (does_note _) fun _ r hr => ?_
    subst hr
    by_cases hcolumns : schema.columns = []
    · rw [hcolumns]
      trivial
    · have hwrites : Writes false cur (.writing cur) := rfl
      exact (safe_updateFrom (fun _ hc => hc) hcolumns hwrites index).mono fun _ _ _ => trivial
  refine hupdate.bind fun _ r _ => ?_
  exact safe_atom_bind (does_forget (does_addPlace fun _ _ => rfl)) fun _ r hr => hr

/-! `erase`. -/

theorem safe_erase : RowSafe os schema i (fun _ r' => r' = .idle) (erase line) .idle := by
  have hdeactivate : RowStep os schema i .idle (.deactivate line)
      (Tabble.onStorage (MemoryMap.deactivate line)) fun _ r' => r' = .idle := by
    refine does_held fun t g roles hW hH hr hi => ?_
    obtain ⟨t', hrun, htouch, hactive⟩ := hH.mapped.writeFlag_outcome hi (.deactivate line) rfl false
    unfold MemoryMap.deactivate
    rw [hrun]
    refine .ok ⟨.idle, ?_, rfl⟩
    rw [← hr, Function.update_eq_self]
    refine hW.of_held ⟨htouch.mapped hH.mapped, htouch.info.trans hH.info, ?_⟩
    rw [htouch.content, hactive, htouch.maxLines]
    exact hH.tracked.deactivate line
  refine safe_atom_bind (does_note _) fun _ r hr => ?_
  subst hr
  refine safe_atom_bind hdeactivate fun _ r hr => ?_
  subst hr
  refine safe_atom_bind (does_modify (fun _ => ⟨rfl, rfl, rfl⟩) fun _ _ => rfl) fun _ r hr => ?_
  subst hr
  exact safe_atom_bind (does_modify (fun _ => ⟨rfl, rfl, rfl⟩) fun _ _ => rfl) fun _ r hr => hr

/-! The statements. -/

/-- A SELECT that has found a line reads it; other statements only test its conditions. -/
def Tests (select : Bool) (line : Nat) (r : Role (Nat → UInt8)) : Prop :=
  if select then ∃ v, r = .reading line v else r = .idle

theorem does_isActive (select : Bool) (line : Nat) :
    RowStep os schema i .idle (.isActive select line) (Tabble.onStorage (MemoryMap.isActive line))
      fun b r' => if b then Tests select line r' else r' = .idle := by
  cases select with
  | false =>
      refine (does_logOnly (fun t => (Tabble.reads_isActive line).idles t) fun _ _ => rfl).mono
        fun b r' hr' => ?_
      cases b with
      | false => exact hr'
      | true => exact hr'
  | true =>
      refine does_held fun t g roles hW hH hr hok => ?_
      obtain ⟨hi, hwriter⟩ := hok
      have hsame : Tabble.SameFile t (t.logged (.isActive line)) := ⟨rfl, rfl, rfl⟩
      rw [hH.mapped.isActive hi, ← Tabble.active_of_lt hi]
      cases hactive : t.active line with
      | true =>
          have hhad := (hH.tracked.live line hactive).2 (hwriter hactive)
          have hlook := hH.tracked.look (hwriter hactive) hhad i
          have hnote : versions i (.isActive true line) t g = g.look i line := by
            simp only [versions, hactive, if_true]
          refine .ok ⟨.reading line (t.content line), ?_, ⟨_, rfl⟩⟩
          rw [hnote]
          exact Watched.same ⟨hW.whole.more rfl fun _ _ hc => hc,
            fun _ => ⟨hH.mapped, hH.info, hlook⟩⟩ hsame
      | false =>
          have hnote : versions i (.isActive true line) t g = g.leave i := by
            simp only [versions, hactive, Bool.false_eq_true, if_false]
          refine .ok ⟨.idle, ?_, rfl⟩
          rw [hnote]
          exact Watched.same ⟨hW.whole.more rfl fun _ _ hc => hc,
            fun _ => ⟨hH.mapped, hH.info, hH.tracked.leave i⟩⟩ hsame

theorem does_skip : RowStep os schema i r (.skip line) (pure ()) fun _ r' => r' = .idle :=
  does_held fun _ _ _ hW hH _ _ => .ok ⟨.idle, ⟨hW.whole.more rfl fun _ _ hc => hc,
    fun _ => ⟨hH.mapped, hH.info, hH.tracked.leave i⟩⟩, rfl⟩

theorem does_aim : RowStep os schema i r (.aim line) (pure ()) fun _ r' => Tests true line r' := by
  refine does_held fun t g roles hW hH _ hok => ?_
  obtain ⟨hwriter, hhad⟩ := hok
  have hlook := hH.tracked.look hwriter (List.ne_nil_of_length_pos (Nat.pos_of_ne_zero hhad)) i
  exact .ok ⟨_, ⟨hW.whole.more rfl fun _ _ hc => hc, fun _ => ⟨hH.mapped, hH.info, hlook⟩⟩, ⟨_, rfl⟩⟩

/-- While a thread has a row in hand, a column reads as in that row. -/
theorem does_readColumn (hfilled : ∀ c ∈ schema.columns, 0 < c.size) {v : Nat → UInt8} {c : Column}
    (hc : c ∈ schema.columns) : RowStep os schema i (.reading line v) (.read line)
      (Tabble.readColumn line c) fun value r' => value = Tabble.cellIn v c ∧ r' = .reading line v := by
  refine does_held fun t g roles hW hH hroles _ => ?_
  obtain ⟨hi, hv, -, -⟩ := hH.tracked.reading i line v hroles
  have hmem : c ∈ t.info.columns := by rwa [hH.info]
  obtain ⟨t', hrun, -⟩ := hH.mapped.readColumn hi hmem (hfilled c hc)
  have hidle := (Tabble.reads_readColumn line c).idles t
  unfold Idles at hidle
  rw [hrun] at hidle ⊢
  cases hidle with
  | ok hlog =>
      refine .ok ⟨.reading line v, ?_, ?_, rfl⟩
      · rw [← hroles, Function.update_eq_self]
        exact hW.same hlog.sameFile
      · rw [Tabble.cell_content hH.mapped.layout line hmem, hv]

theorem does_pushRow {v : Nat → UInt8} {ids : List Nat} {row : List VariantTypes}
    (hrow : Says schema line v ⟨ids, row⟩) : RowStep os schema i (.reading line v)
      (.pushRow line ids row) (pure ()) fun _ r' => r' = .idle := by
  refine does_held fun t g roles hW hH hroles _ => ?_
  obtain ⟨-, -, hhad, -⟩ := hH.tracked.reading i line v hroles
  have hwhole := hW.whole.answer hhad hrow
  have hleave := hH.tracked.leave i
  exact .ok ⟨.idle, ⟨hwhole.more rfl fun _ _ hc => hc, fun _ => ⟨hH.mapped, hH.info,
    hleave.answered line _⟩⟩, rfl⟩

theorem safe_pushRecord (hfilled : ∀ c ∈ schema.columns, 0 < c.size) (ids : List Nat)
    (hr : Tests true line r) :
    RowSafe os schema i (fun _ r' => r' = .idle) (pushRecord line ids schema.columns) r := by
  obtain ⟨v, rfl⟩ := hr
  have hread : RowSafe os schema i
      (fun values r' => values = (schema.pick ids).map (Tabble.cellIn v) ∧ r' = .reading line v)
      (readColumns line schema.columns ids) (.reading line v) := by
    induction ids with
    | nil => exact ⟨rfl, rfl⟩
    | cons id ids ih =>
      unfold readColumns
      cases hid : schema.columns[id]? with
      | none => exact safe_atom (does_fail _ _)
      | some c =>
          refine safe_atom_bind (does_readColumn hfilled (List.mem_of_getElem? hid)) fun value r hr => ?_
          obtain ⟨rfl, rfl⟩ := hr
          refine ih.bind fun values r hr => ?_
          obtain ⟨rfl, rfl⟩ := hr
          refine ⟨?_, rfl⟩
          rw [TabbleInfo.pick_cons hid, List.map_cons]
  refine hread.bind fun values r hr => ?_
  obtain ⟨rfl, rfl⟩ := hr
  exact safe_atom_bind (does_pushRow rfl) fun _ r hr => hr

/-- Every client answers with whole rows. -/
theorem row_rules (hfilled : ∀ c ∈ schema.columns, 0 < c.size) (i : Nat) :
    Rules (clients os schema versions) Undisturbed (Watched schema) (· = .idle) os schema.columns
      Tests i where
  fail _ _ e Q := does_fail e Q
  counter r l f hl hr := by
    subst hr
    rcases hl with rfl | rfl
    · exact does_pure fun _ _ => rfl
    · exact does_pure fun _ _ => rfl
  isActive r select line hr := by
    subst hr
    exact does_isActive select line
  read r select line column hr := by
    refine (does_logOnly (fun t => (Tabble.reads_readColumn line column).idles t) fun _ _ => rfl).mono
      fun _ r' hr' => ?_
    subst hr'
    exact hr
  skip _ _ _ _ := does_skip
  aim _ _ _ := does_aim
  pushRecord r line ids hr := safe_pushRecord hfilled ids hr
  erase r line hr := by
    have hidle : r = .idle := hr
    subst hidle
    exact safe_erase
  update r line values updated hc hr := by
    have hidle : r = .idle := hr
    subst hidle
    refine safe_atom_bind (does_note _) fun _ r hr => ?_
    subst hr
    by_cases hcolumns : updated = []
    · rw [hcolumns]
      rfl
    · have hwrites : Writes true line .idle := rfl
      exact safe_updateFrom hc hcolumns hwrites 0
  insert r waits values index hr := by
    subst hr
    exact safe_insert waits values index

/-- A sound table nobody uses yet holds whole rows in its active lines. -/
theorem start {t : Tabble} (h : t.Sound) :
    Watched t.info t (.start t.content t.active) fun _ => .idle :=
  ⟨fun _ hp => (List.not_mem_nil hp).elim, fun _ => ⟨h.toMapped, rfl,
    .start fun _ hline => Tabble.active_lt_maxLines hline⟩⟩

end Watched

/-! Every run of the clients. -/

/-- Every row in an answer is a row its line has had. -/
theorem rows_whole {os : Os} {t : Tabble} (hs : t.Sound) (hfilled : ∀ c ∈ t.info.columns, 0 < c.size)
    {m : Machine Fault Tabble Action RowLog}
    (h : Runs (clients os t.info versions) Undisturbed (.start t (.start t.content t.active)) m) :
    Whole (Says t.info) m.ghost := by
  obtain ⟨roles, hW⟩ := h.invariant (fun _ hp i _ hr => (Watched.row_rules hfilled i).safe_request hp hr)
    rfl (Watched.start hs)
  exact hW.whole

def sampleLog : RowLog := .start Tabble.sampleOpened.content Tabble.sampleOpened.active

theorem sampleOpened_filled : ∀ c ∈ Tabble.sampleOpened.info.columns, 0 < c.size := by
  rw [sampleOpened_served.info]
  decide

/-- A SELECT that comes to the row when an UPDATE is through with it. -/
theorem rows_whole_sample : ∃ m : Machine Fault Tabble Action RowLog,
    Runs (sampleClients versions) Undisturbed (.start Tabble.sampleOpened sampleLog) m ∧
      m.ghost.answers.map (fun p => p.2.row) = [[.int64 0, .int32 8]] ∧
      Whole (Says Tabble.sampleOpened.info) m.ghost := by
  have hrun := @runs_sample _ versions Undisturbed _ sampleLog
    ["INSERT INTO t 7", "SELECT n FROM t", "UPDATE t SET n = 8 WHERE id == 0"]
    (by decide +kernel) (List.replicate 10 0 ++ [1, 1, 2, 2, 2, 1, 1, 1])
  exact ⟨_, hrun, by decide +kernel, rows_whole sampleOpened_served.sound sampleOpened_filled hrun⟩

/-- A SELECT that comes to a row when only its flag has been written. -/
theorem row_torn : ¬ ∀ (os : Os) (t : Tabble), t.Sound → (∀ c ∈ t.info.columns, 0 < c.size) →
    ∀ m, Runs (clients os t.info versions) (fun _ _ _ _ => True)
      (.start t (.start t.content t.active)) m → Whole (Says t.info) m.ghost := by
  intro h
  have hrun := @runs_sample _ versions (fun _ _ _ _ => True) _ sampleLog
    ["INSERT INTO t 7", "SELECT n FROM t"] (by decide +kernel)
    (List.replicate 7 0 ++ List.replicate 5 1)
  exact absurd (h _ _ sampleOpened_served.sound sampleOpened_filled _ hrun).said (by decide +kernel)

end Client
end SQLid
