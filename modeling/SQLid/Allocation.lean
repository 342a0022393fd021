import SQLid.ClientRules
import SQLid.Library.SharedPool

/-!
# Lines shared by clients

The lines of a table as a pool of slots that the clients take from and give back to.
What the code leaves open is closed by a condition on the steps: nobody has moved
`freeId` since it was loaded, and a line is cleared or overwritten only where a line
was found.
-/
namespace SQLid
open Interleave Programs
open SlotPool (Role Ledger Shared)
open Tabble (LogOnly Idles)

/-- The lines of the file as slots; those in use are the active ones. -/
def Tabble.slots (t : Tabble) : SlotPool.Pool := ⟨t.active, t.stackFreeId, t.freeId, t.maxLines⟩

namespace Client
open Thread (atom)

/-- The lines taken, given back and reported, as they are noted from the actions. -/
def ledger (i : Nat) : Action → Tabble → Ledger → Ledger
  | .pop, t, g =>
      match t.stackFreeId with
      | line :: _ => { g with since := Function.update g.since i (g.freed line) }
      | [] => g
  | .addFreeId cur, _, g => { g with since := Function.update g.since i (g.freed cur) }
  | .push line, _, g => { g with freed := Function.update g.freed line (g.freed line + 1) }
  | .inserted line, _, g => { g with returned := (line, g.since i) :: g.returned }
  | _, _, g => g

/-- `freeId` still is what the thread has loaded when it moves it, a flag is cleared only
where it is set, and an UPDATE writes only to lines of the file. -/
def Fresh (_ : Nat) : Action → Tabble → Ledger → Prop
  | .addFreeId cur, t, _ => t.freeId = cur
  | .deactivate line, t, _ => t.active line = true
  | .write true line _ _ _, t, _ => line < t.maxLines
  | _, _, _ => True

instance (i : Nat) (l : Action) (t : Tabble) (g : Ledger) : Decidable (Fresh i l t g) :=
  match l with
  | .addFreeId cur => inferInstanceAs (Decidable (t.freeId = cur))
  | .deactivate line => inferInstanceAs (Decidable (t.active line = true))
  | .write true line _ _ _ => inferInstanceAs (Decidable (line < t.maxLines))
  | .write false _ _ _ _ | .pop | .loadFreeId | .getMaxLines | .expand | .addPlace | .activate _
  | .inserted _ | .push _ | .subPlace | .isActive _ _ | .read _ | .getMaxActiveLine
  | .getActivePlaces | .note _ | .skip _ | .aim _ | .pushRow _ _ _ | .fail => isTrue trivial

/-- What all clients keep of the table. -/
structure Pooled (schema : TabbleInfo) (t : Tabble) (g : Ledger) (roles : Nat → Role) : Prop where
  usable : t.Mapped ∨ t.Gone
  info : t.info = schema
  small : t.maxLines ≤ 2 ^ 56
  shared : Shared t.slots g roles

/-- A thread between two rows has no line in hand. -/
def Resting (r : Role) : Prop := r = .idle ∨ ∃ line, r = .visiting line

section
variable {os : Os} {schema : TabbleInfo} {i line : Nat} {r : Role} {t t' : Tabble} {g : Ledger}
  {roles : Nat → Role} {α : Type}

/-- The same lines in the same hands. -/
structure SameSlots (t t' : Tabble) : Prop extends Tabble.SameFile t t' where
  stack : t'.stackFreeId = t.stackFreeId
  freeId : t'.freeId = t.freeId

theorem SameSlots.of_logOnly (h : LogOnly t t') : SameSlots t t' := by
  obtain ⟨l, rfl⟩ := h
  exact ⟨⟨rfl, rfl, rfl⟩, rfl, rfl⟩

theorem SameSlots.slots (h : SameSlots t t') : t'.slots = t.slots := by
  unfold Tabble.slots
  rw [h.active, h.stack, h.freeId, h.maxLines]

theorem Pooled.same (h : Pooled schema t g roles) (hs : SameSlots t t') :
    Pooled schema t' g roles := by
  refine ⟨h.usable.imp hs.mapped hs.gone, hs.info.trans h.info, ?_, ?_⟩
  · rw [hs.maxLines]
    exact h.small
  · rw [hs.slots]
    exact h.shared

theorem Pooled.idle (h : Pooled schema t g roles) (i : Nat) :
    Pooled schema t g (Function.update roles i .idle) :=
  ⟨h.usable, h.info, h.small, h.shared.idle i⟩

abbrev PoolStep (os : Os) (schema : TabbleInfo) (i : Nat) (r : Role) (l : Action)
    (x : EStateM Fault Tabble α) (Q : α → Role → Prop) : Prop :=
  Does (clients os schema ledger) Fresh (Pooled schema) Resting i r l x Q

abbrev PoolSafe (os : Os) (schema : TabbleInfo) (i : Nat) (Q : α → Role → Prop) (p : Client α)
    (r : Role) : Prop := Safe (clients os schema ledger) Fresh (Pooled schema) Resting i Q p r

/-- An action that leaves the lines alone also leaves the thread its role. -/
theorem does_same {l : Action} {x : EStateM Fault Tabble α}
    (hx : ∀ t, t.Mapped ∨ t.Gone →
      Post (fun _ t' => SameSlots t t') (fun _ t' => SameSlots t t') (x.run t))
    (hl : ∀ t g, ledger i l t g = g) :
    PoolStep os schema i r l x fun _ r' => r' = r := by
  intro t g roles hI hr _
  refine (hx t hI.usable).mono (fun _ t' hs => ⟨r, ?_, rfl⟩) fun _ t' hs => ⟨.idle, ?_, .inl rfl⟩
  · change Pooled schema t' (ledger i l t g) _
    rw [hl, ← hr, Function.update_eq_self]
    exact hI.same hs
  · exact (hI.same hs).idle i

theorem does_idles {l : Action} {x : EStateM Fault Tabble α}
    (hx : ∀ t, t.Mapped ∨ t.Gone → Idles x t) (hl : ∀ t g, ledger i l t g = g) :
    PoolStep os schema i r l x fun _ r' => r' = r :=
  does_same (fun t ht => (hx t ht).mono (fun _ _ h => .of_logOnly h) fun _ _ h => .of_logOnly h) hl

/-! `allocateId`. -/

theorem does_pop (hr : Resting r) : PoolStep os schema i r .pop popInStack
    fun found r' => match found with
      | some line => r' = .taken line
      | none => Resting r' := by
  intro t g roles hI hroles _
  unfold popInStack
  rw [run_bind_ok (EStateM.run_get t)]
  cases hs : t.stackFreeId with
  | cons line rest =>
      refine .ok ⟨.taken line, ?_, rfl⟩
      have hledger : ledger i .pop t g = { g with since := Function.update g.since i (g.freed line) } := by
        simp only [ledger, hs]
      change Pooled schema _ (ledger i .pop t g) _
      rw [hledger]
      refine ⟨hI.usable.imp (fun m => ⟨m.layout, m.lineLength, m.live, m.idle⟩)
        fun d => ⟨d.expanding, d.mapped⟩, hI.info, hI.small, ?_⟩
      exact hI.shared.pop hs i
  | nil =>
      refine .ok ⟨r, ?_, hr⟩
      have hledger : ledger i .pop t g = g := by simp only [ledger, hs]
      change Pooled schema _ (ledger i .pop t g) _
      rw [hledger, ← hroles, Function.update_eq_self]
      exact hI

theorem does_loadFreeId : PoolStep os schema i r .loadFreeId loadFreeId
    fun cur r' => r' = .loaded cur :=
  fun _ _ _ hI _ _ => .ok ⟨_, ⟨hI.usable, hI.info, hI.small, hI.shared.load hI.shared.top_le i⟩, rfl⟩

/-- What the thread learns of its line when it looks at the size of the file. -/
theorem does_getMaxLines {cur : Nat} : PoolStep os schema i (.loaded cur) .getMaxLines loadMaxLines
    fun lines r' => r' = .loaded cur ∧ cur = lines ∨ r' = .ready cur ∧ cur < lines := by
  intro t g roles hI hroles _
  have hle : cur ≤ t.maxLines := hI.shared.loaded i cur hroles
  by_cases hfull : t.maxLines ≤ cur
  · refine .ok ⟨.loaded cur, ?_, ?_⟩
    · rw [← hroles, Function.update_eq_self]
      exact hI
    · exact .inl ⟨rfl, Nat.le_antisymm hle hfull⟩
  · refine .ok ⟨.ready cur, ⟨hI.usable, hI.info, hI.small, ?_⟩, ?_⟩
    · exact hI.shared.reach (.inl rfl) (show cur < t.maxLines by omega) i
    · exact .inr ⟨rfl, Nat.lt_of_not_le hfull⟩

/-- Behind a growth, one's own or another's, the line is in the file. -/
theorem does_expand {cur : Nat} (waits : Bool) : PoolStep os schema i (.loaded cur) .expand
    (expandSeen os waits cur) fun _ r' => r' = .ready cur := by
  intro t g roles hI hroles _
  have hle : cur ≤ t.maxLines := hI.shared.loaded i cur hroles
  unfold expandSeen
  rw [run_bind_ok (EStateM.run_get t)]
  by_cases hw : waits = true ∧ cur < t.storage.getMaxLines
  · rw [if_pos hw]
    exact .ok ⟨.ready cur, ⟨hI.usable, hI.info, hI.small, hI.shared.reach (.inl rfl) hw.2 i⟩, rfl⟩
  · rw [if_neg hw]
    rcases hI.usable with hm | hg
    · have hpos : 0 < t.maxLines := hm.live.getMaxLine_pos
      rcases hm.expand_outcome os none with ⟨t', hrun, hgrown⟩ | ⟨e, t', hrun, hlost⟩
      · rw [hrun]
        have hcap := hgrown.maxLines
        have hslots : t'.slots = { t.slots with cap := t'.maxLines } := by
          unfold Tabble.slots
          rw [hgrown.active, hgrown.stack, hgrown.freeId]
        have hgrow := hI.shared.grow (show t.maxLines ≤ t'.maxLines by omega)
        refine .ok ⟨.ready cur, ⟨.inl hgrown.mapped, hgrown.info.trans hI.info,
          hgrown.mapped.maxLines_le, ?_⟩, rfl⟩
        rw [hslots]
        exact hgrow.reach (.inl rfl) (show cur < t'.maxLines by omega) i
      · rw [hrun]
        refine .error ⟨.idle, ⟨.inr hlost.gone, hlost.info.trans hI.info, ?_, ?_⟩, .inl rfl⟩
        · rw [hlost.maxLines]
          exact hI.small
        · have hslots : t'.slots = t.slots := by
            unfold Tabble.slots
            rw [hlost.active, hlost.stack, hlost.freeId, hlost.maxLines]
          rw [hslots]
          exact hI.shared.idle i
    · rw [Tabble.run_onStorage_error (Tabble.run_expand_hang hg.expanding)]
      have hlog : LogOnly t (t.addLog [(.expand none, t.storage.core)]) := ⟨_, rfl⟩
      exact .error ⟨.idle, (hI.same (.of_logOnly hlog)).idle i, .inl rfl⟩

theorem does_addPlace : PoolStep os schema i r .addPlace addPlace fun _ r' => r' = r :=
  does_same (fun _ _ => .ok ⟨⟨rfl, rfl, rfl⟩, rfl, rfl⟩) fun _ _ => rfl

theorem does_note (op : RowOp) : PoolStep os schema i r (.note op) (Tabble.note op) fun _ r' => r' = r :=
  does_same (fun _ _ => .ok ⟨⟨rfl, rfl, rfl⟩, rfl, rfl⟩) fun _ _ => rfl

theorem does_addFreeId {cur : Nat} : PoolStep os schema i (.ready cur) (.addFreeId cur) addFreeId
    fun _ r' => r' = .taken cur := by
  intro t g roles hI hroles hfresh
  obtain rfl : t.freeId = cur := hfresh
  have hsmall := hI.small
  have htop : t.freeId ≤ t.maxLines := hI.shared.top_le
  refine .ok ⟨.taken t.freeId, ⟨hI.usable.imp (fun m => ⟨m.layout, m.lineLength, m.live, m.idle⟩)
    fun d => ⟨d.expanding, d.mapped⟩, hI.info, hI.small, ?_⟩, rfl⟩
  have hbump := hI.shared.bump (j := i) hroles
  have hnext : sizeAdd t.freeId 1 = t.freeId + 1 := sizeAdd_eq (by omega)
  unfold Tabble.slots
  simp only [hnext]
  exact hbump

theorem safe_allocateFresh (waits : Bool) :
    PoolSafe os schema i (fun cur r' => r' = .taken cur) (allocateFresh os waits) r := by
  refine safe_atom_bind does_loadFreeId fun cur r hr => ?_
  subst hr
  refine safe_atom_bind does_getMaxLines fun lines r hr => ?_
  have hroom : PoolSafe os schema i (fun _ r' => r' = .ready cur) (makeRoom os waits cur lines) r := by
    refine safe_ite (fun hfull => ?_) fun hfull => ?_
    · rcases hr with ⟨rfl, rfl⟩ | ⟨-, hlt⟩
      · exact safe_atom (does_expand waits)
      · omega
    · rcases hr with ⟨-, rfl⟩ | ⟨rfl, -⟩
      · omega
      · exact safe_pure rfl
  refine hroom.bind fun _ r hr => ?_
  subst hr
  refine safe_atom_bind does_addPlace fun _ r hr => ?_
  subst hr
  exact safe_atom_bind does_addFreeId fun _ r hr => hr

theorem safe_allocateId (waits : Bool) (hr : Resting r) :
    PoolSafe os schema i (fun cur r' => r' = .taken cur) (allocateId os waits) r := by
  refine safe_atom_bind (does_pop hr) fun found r hfound => ?_
  cases found with
  | some line => exact hfound
  | none => exact safe_allocateFresh waits

/-! `update` and `insert`. -/

theorem Pooled.touches (h : Pooled schema t g roles) (hm : t.Mapped)
    (ht : Tabble.Touches (Tabble.InLine t.info.lineLength line) t t') : Pooled schema t' g roles := by
  have hflags : ∀ j, ¬ Tabble.InLine t.info.lineLength line (j * t.storage.core.lineLength) := by
    rw [hm.lineLength]
    exact Tabble.not_inLine_flag _ _
  have hslots : t'.slots = t.slots := by
    unfold Tabble.slots
    rw [ht.active hflags, ht.stack, ht.freeId, ht.maxLines]
  refine ⟨.inl (ht.mapped hm), ht.info.trans h.info, ?_, ?_⟩
  · rw [ht.maxLines]
    exact h.small
  · rw [hslots]
    exact h.shared

/-- A write to a line of the file changes no flag, whether the value is stored or not. -/
theorem Pooled.written (h : Pooled schema t g roles) (hi : line < t.maxLines) {c : Column}
    (hc : c ∈ schema.columns) (os : Os) (value : VariantTypes) :
    Post (fun _ t' => Pooled schema t' g roles) (fun _ t' => Pooled schema t' g roles)
      ((Tabble.onStorage (MemoryMap.writeInfo os line c.offset value)).run t) := by
  rcases h.usable with hm | hg
  · have hin := hm.layout.column_inside (by rw [h.info]; exact hc)
    by_cases hend : c.offset + value.bytes.length ≤ t.info.lineLength
    · obtain ⟨t', hrun, htouch, -⟩ := hm.writeInfo_ok os hi hin.1 hend
      rw [hrun]
      exact .ok (h.touches hm htouch)
    · rw [hm.writeInfo_error os hi value (by omega) (by omega)]
      exact .error (h.same (.of_logOnly ⟨[(Tabble.writeCall line value, t.storage.core)], rfl⟩))
  · exact (hg.idles_writeInfo os line c.offset value).mono (fun _ _ hl => h.same (.of_logOnly hl))
      fun _ _ hl => h.same (.of_logOnly hl)

theorem does_write (hr : r.Within line) {c : Column} (hc : c ∈ schema.columns) (value : VariantTypes)
    (rest : Nat) : PoolStep os schema i r (.write false line c.offset value rest)
      (Tabble.onStorage (MemoryMap.writeInfo os line c.offset value)) fun _ r' => r' = r := by
  intro t g roles hI hroles _
  have hi : line < t.maxLines := hI.shared.within i line (by rwa [hroles])
  refine (hI.written hi hc os value).mono (fun _ t' h => ⟨r, ?_, rfl⟩) fun _ t' h =>
    ⟨.idle, h.idle i, .inl rfl⟩
  rw [← hroles, Function.update_eq_self]
  exact h

/-- The first write of an UPDATE. -/
theorem does_firstWrite {c : Column} (hc : c ∈ schema.columns) (value : VariantTypes) (rest : Nat) :
    PoolStep os schema i r (.write true line c.offset value rest)
      (Tabble.onStorage (MemoryMap.writeInfo os line c.offset value))
      fun _ r' => r' = .visiting line := by
  intro t g roles hI hroles hi
  have hvisit : Pooled schema t g (Function.update roles i (.visiting line)) :=
    ⟨hI.usable, hI.info, hI.small, hI.shared.reach (.inr rfl) hi i⟩
  refine (hvisit.written hi hc os value).mono (fun _ t' h => ⟨_, h, rfl⟩) fun _ t' h =>
    ⟨.idle, ?_, .inl rfl⟩
  have hidle := h.idle i
  rwa [Function.update_idem] at hidle

theorem does_fail (e : Fault) (Q : α → Role → Prop) :
    PoolStep os schema i r .fail (throw e : EStateM Fault Tabble α) Q :=
  fun _ _ _ hI _ _ => .error ⟨.idle, hI.idle i, .inl rfl⟩

theorem safe_updateFrom {values : List VariantTypes} {columns : List Column}
    (hc : ∀ c ∈ columns, c ∈ schema.columns) (hr : r.Within line) (k : Nat) :
    PoolSafe os schema i (fun _ r' => r' = r) (updateFrom os values line false k columns) r := by
  induction columns generalizing k with
  | nil => rfl
  | cons c columns ih =>
    unfold updateFrom
    cases values[k]? with
    | none => exact safe_atom (does_fail _ _)
    | some value =>
        refine safe_atom_bind (does_write hr (hc c List.mem_cons_self) value _) fun _ r' hr' => ?_
        subst hr'
        exact ih (fun d hd => hc d (List.mem_cons_of_mem c hd)) (k + 1)

/-- An UPDATE ends where it started, or visiting the line it has written to. -/
theorem safe_firstUpdate {values : List VariantTypes} {columns : List Column}
    (hc : ∀ c ∈ columns, c ∈ schema.columns) (hr : Resting r) (k : Nat) :
    PoolSafe os schema i (fun _ r' => Resting r') (updateFrom os values line true k columns) r := by
  cases columns with
  | nil => exact hr
  | cons c columns =>
    unfold updateFrom
    cases values[k]? with
    | none => exact safe_atom (does_fail _ _)
    | some value =>
        refine safe_atom_bind (does_firstWrite (hc c List.mem_cons_self) value _) fun _ r' hr' => ?_
        subst hr'
        refine (safe_updateFrom (fun d hd => hc d (List.mem_cons_of_mem c hd)) (.inr (.inr rfl))
          (k + 1)).mono fun _ r' hr' => ?_
        exact .inr ⟨line, hr'⟩

theorem does_activate : PoolStep os schema i (.taken line) (.activate line)
    (Tabble.onStorage (MemoryMap.activate line)) fun _ r' => r' = .filling line := by
  intro t g roles hI hroles _
  have hlt : line < t.maxLines :=
    (hI.shared.holds i line (.inl hroles)).1.trans_le hI.shared.top_le
  rcases hI.usable with hm | hg
  · obtain ⟨t', hrun, htouch, hactive⟩ := hm.writeFlag_outcome hlt (.activate line) rfl true
    have hslots : t'.slots = { t.slots with used := Function.update t.slots.used line true } := by
      unfold Tabble.slots
      rw [hactive, htouch.stack, htouch.freeId, htouch.maxLines]
    unfold MemoryMap.activate
    rw [hrun]
    refine .ok ⟨_, ⟨.inl (htouch.mapped hm), htouch.info.trans hI.info, ?_, ?_⟩, rfl⟩
    · rw [htouch.maxLines]
      exact hI.small
    · rw [hslots]
      exact hI.shared.activate hroles
  · obtain ⟨e, t', hrun, hlog⟩ := hg.writeFlag_error (.activate line) line true
    unfold MemoryMap.activate
    rw [hrun]
    exact .error ⟨.idle, (hI.same (.of_logOnly hlog)).idle i, .inl rfl⟩

theorem does_inserted : PoolStep os schema i (.filling line) (.inserted line) addPlace
    fun _ r' => r' = .idle := by
  intro t g roles hI hroles _
  have hsame : SameSlots t { t with activePlaces := sizeAdd t.activePlaces 1 } :=
    ⟨⟨rfl, rfl, rfl⟩, rfl, rfl⟩
  have hkept := hI.same hsame
  exact .ok ⟨.idle, ⟨hkept.usable, hkept.info, hkept.small, hkept.shared.report hroles⟩, rfl⟩

theorem safe_insert (waits : Bool) (values : List VariantTypes) (index : Nat) (hr : Resting r) :
    PoolSafe os schema i (fun _ => Resting) (insert os waits values schema.columns index) r := by
  refine (safe_allocateId waits hr).bind fun cur r hr => ?_
  subst hr
  refine safe_atom_bind (does_note _) fun _ r hr => ?_
  subst hr
  refine safe_atom_bind does_activate fun _ r hr => ?_
  subst hr
  have hupdate : PoolSafe os schema i (fun _ r' => r' = .filling cur)
      (update os values schema.columns false cur index) (.filling cur) := by
    refine safe_atom_bind (does_note _) fun _ r hr => ?_
    subst hr
    exact safe_updateFrom (fun _ hc => hc) (.inr (.inl rfl)) index
  refine hupdate.bind fun _ r hr => ?_
  subst hr
  exact safe_atom_bind does_inserted fun _ r hr => .inl hr

/-! `erase`. -/

theorem does_deactivate : PoolStep os schema i r (.deactivate line)
    (Tabble.onStorage (MemoryMap.deactivate line)) fun _ r' => r' = .released line := by
  intro t g roles hI _ hactive
  have hlt : line < t.maxLines := (Tabble.active_iff.mp hactive).1
  rcases hI.usable with hm | hg
  · obtain ⟨t', hrun, htouch, hactive'⟩ := hm.writeFlag_outcome hlt (.deactivate line) rfl false
    have hslots : t'.slots = { t.slots with used := Function.update t.slots.used line false } := by
      unfold Tabble.slots
      rw [hactive', htouch.stack, htouch.freeId, htouch.maxLines]
    unfold MemoryMap.deactivate
    rw [hrun]
    refine .ok ⟨_, ⟨.inl (htouch.mapped hm), htouch.info.trans hI.info, ?_, ?_⟩, rfl⟩
    · rw [htouch.maxLines]
      exact hI.small
    · rw [hslots]
      exact hI.shared.deactivate hactive i
  · obtain ⟨e, t', hrun, hlog⟩ := hg.writeFlag_error (.deactivate line) line false
    unfold MemoryMap.deactivate
    rw [hrun]
    exact .error ⟨.idle, (hI.same (.of_logOnly hlog)).idle i, .inl rfl⟩

theorem does_push : PoolStep os schema i (.released line) (.push line) (Tabble.pushInStack line)
    fun _ r' => r' = .idle :=
  fun _ _ _ hI hroles _ => .ok ⟨.idle,
    ⟨hI.usable.imp (fun m => ⟨m.layout, m.lineLength, m.live, m.idle⟩)
      fun d => ⟨d.expanding, d.mapped⟩, hI.info, hI.small, hI.shared.push hroles⟩, rfl⟩

theorem does_subPlace : PoolStep os schema i r .subPlace subPlace fun _ r' => r' = r :=
  does_same (fun _ _ => .ok ⟨⟨rfl, rfl, rfl⟩, rfl, rfl⟩) fun _ _ => rfl

theorem safe_erase : PoolSafe os schema i (fun _ => Resting) (erase line) r := by
  refine safe_atom_bind (does_note _) fun _ r hr => ?_
  refine safe_atom_bind does_deactivate fun _ r hr => ?_
  subst hr
  refine safe_atom_bind does_push fun _ r hr => ?_
  subst hr
  exact safe_atom_bind does_subPlace fun _ r hr => .inl hr

/-! The statements. -/

theorem does_pure {l : Action} (hl : ∀ t g, ledger i l t g = g) :
    PoolStep os schema i r l (pure ()) fun _ r' => r' = r :=
  does_same (fun _ _ => .ok ⟨⟨rfl, rfl, rfl⟩, rfl, rfl⟩) hl

theorem does_readColumn (column : Column) : PoolStep os schema i r (.read line)
    (Tabble.readColumn line column) fun _ r' => r' = r :=
  does_idles (fun t _ => (Tabble.reads_readColumn line column).idles t) fun _ _ => rfl

theorem safe_pushRecord (columns : List Column) (ids : List Nat) (hr : Resting r) :
    PoolSafe os schema i (fun _ => Resting) (pushRecord line ids columns) r := by
  have hread : PoolSafe os schema i (fun _ => Resting) (readColumns line columns ids) r := by
    induction ids with
    | nil => exact hr
    | cons id ids ih =>
      unfold readColumns
      cases columns[id]? with
      | none => exact safe_atom (does_fail _ _)
      | some column =>
          refine safe_atom_bind (does_readColumn column) fun value r' hr' => ?_
          subst hr'
          exact ih.bind fun _ _ hr => hr
  refine hread.bind fun values r hr => ?_
  refine safe_atom_bind (does_pure fun _ _ => rfl) fun _ r' hr' => ?_
  subst hr'
  exact hr

/-- Every client keeps the pool of lines. -/
theorem pool_rules (i : Nat) : Rules (clients os schema ledger) Fresh (Pooled schema) Resting os
    schema.columns (fun _ _ => Resting) i where
  fail _ _ e Q := does_fail e Q
  counter r l f hl hr := by
    refine (does_same (r := r) (fun t _ => .ok ⟨⟨rfl, rfl, rfl⟩, rfl, rfl⟩) ?_).mono
      fun _ r' hr' => hr' ▸ hr
    rcases hl with rfl | rfl
    · exact fun _ _ => rfl
    · exact fun _ _ => rfl
  isActive r select line hr := by
    refine (does_idles (fun t _ => (Tabble.reads_isActive line).idles t) fun _ _ => rfl).mono
      fun b r' hr' => ?_
    subst hr'
    cases b with
    | false => exact hr
    | true => exact hr
  read r _ line column hr := (does_readColumn column).mono fun _ r' hr' => hr' ▸ hr
  skip r _ line hr := (does_pure fun _ _ => rfl).mono fun _ r' hr' => hr' ▸ hr.elim id id
  aim r line hr := (does_pure fun _ _ => rfl).mono fun _ r' hr' => hr' ▸ hr
  pushRecord r line ids hr := safe_pushRecord schema.columns ids hr
  erase r line _ := safe_erase
  update r line values updated hc hr := by
    refine safe_atom_bind (does_note _) fun _ r' hr' => ?_
    subst hr'
    exact safe_firstUpdate hc hr 0
  insert r waits values index hr := safe_insert waits values index hr

end

/-- A sound table that nobody uses yet is a pool of lines nobody has in hand. -/
theorem Pooled.start {t : Tabble} (h : t.Sound) : Pooled t.info t .empty fun _ => .idle := by
  have hinv : t.slots.Inv := by
    refine ⟨h.pool.nodup, fun i => ?_, fun i hi hi' => ?_, h.pool.top_le⟩
    · have hmem := h.pool.mem_stack i
      have htop : t.freeId ≤ t.maxLines := h.pool.top_le
      change i ∈ t.stackFreeId ↔ i < t.freeId ∧ t.active i = false
      rw [show i ∈ t.stackFreeId ↔ i < t.freeId ∧ t.flag i = false from hmem]
      refine and_congr_right fun hlt => ?_
      rw [Tabble.active_of_lt (by omega)]
    · exact (Tabble.active_of_lt (t := t) hi').trans (h.pool.above i hi hi')
  refine ⟨.inl h.toMapped, rfl, h.maxLines_le, hinv.shared fun i hi => ?_⟩
  have hnot : ¬ i < t.maxLines := Nat.not_lt.mpr hi
  simp [Tabble.slots, Tabble.active, hnot]

/-! Clients of a table with one column. -/

theorem sampleOpened_served : Served Tabble.sampleInfo Tabble.sampleOpened := by
  have hregular : Tabble.sampleInfo.Regular :=
    ⟨Tabble.sampleInfo_layout, by decide, by decide⟩
  exact openFile_served hregular (.inl rfl) Tabble.sampleOpened_opens

/-- The thread of a request, alone in growing the file. -/
def sampleClient (command : String) : Client Unit :=
  match compile Tabble.sampleInfo (CppText.str command) with
  | .ok query => execute .reliable (fun _ => false) Tabble.sampleInfo.columns query >>= fun _ => pure ()
  | .error _ => pure ()

theorem sampleClient_request {command : String}
    (h : (compile Tabble.sampleInfo (CppText.str command)).isOk = true) :
    Request .reliable Tabble.sampleOpened.info (sampleClient command) := by
  rw [sampleOpened_served.info]
  unfold sampleClient
  cases hc : compile Tabble.sampleInfo (CppText.str command) with
  | ok query => exact ⟨_, query, _, hc, rfl⟩
  | error e =>
      rw [hc] at h
      cases h

abbrev sampleClients {γ : Type} (note : Nat → Action → Tabble → γ → γ) : Interleave.System Fault Tabble Action γ :=
  clients .reliable Tabble.sampleOpened.info note

/-- A new table and the requests its first clients begin. -/
def sampleBegun {γ : Type} (g : γ) (commands : List String) : Machine Fault Tabble Action γ :=
  (Machine.start Tabble.sampleOpened g).begin (commands.map sampleClient) 0

theorem runs_sample {γ : Type} {note : Nat → Action → Tabble → γ → γ}
    {guard : Nat → Action → Tabble → γ → Prop} [∀ i l t g, Decidable (guard i l t g)] {g : γ}
    {commands : List String} (h : ∀ c ∈ commands, (compile Tabble.sampleInfo (CppText.str c)).isOk = true)
    (schedule : List Nat) : Runs (sampleClients note) guard (.start Tabble.sampleOpened g)
      ((sampleBegun g commands).play (sampleClients note) guard schedule) := by
  refine Runs.trans (runs_begin (fun p hp => ?_) _ 0 fun _ _ => rfl) (runs_play _ _)
  obtain ⟨c, hc, rfl⟩ := List.mem_map.mp hp
  exact sampleClient_request (h c hc)

/-! Every run of the clients. -/

/-- The invariant holds in every state of a run. -/
theorem runs_pooled {os : Os} {t : Tabble} (hs : t.Sound) {m : Machine Fault Tabble Action Ledger}
    (h : Runs (clients os t.info ledger) Fresh (.start t .empty) m) :
    ∃ roles, Pooled t.info m.shared m.ghost roles :=
  h.invariant (r := .idle) (fun _ hp i _ hr => (pool_rules i).safe_request hp hr) (.inl rfl)
    (.start hs)

/-- Two inserts that have returned the same line took it with an erase of it in between. -/
theorem inserts_apart {os : Os} {t : Tabble} (hs : t.Sound) {m : Machine Fault Tabble Action Ledger}
    (h : Runs (clients os t.info ledger) Fresh (.start t .empty) m) : m.ghost.returned.Nodup := by
  obtain ⟨roles, hpool⟩ := runs_pooled hs h
  exact hpool.shared.returned

/-- One client inserts while the other has looked for a freed line in vain. -/
theorem inserts_apart_sample : ∃ m : Machine Fault Tabble Action Ledger,
    Runs (sampleClients ledger) Fresh (.start Tabble.sampleOpened .empty) m ∧
      m.ghost.returned = [(1, 0), (0, 0)] ∧ m.ghost.returned.Nodup := by
  have hrun := @runs_sample _ ledger Fresh _ .empty ["INSERT INTO t 7", "INSERT INTO t 8"]
    (by decide +kernel) (1 :: List.replicate 10 0 ++ List.replicate 9 1)
  exact ⟨_, hrun, by decide +kernel, inserts_apart sampleOpened_served.sound hrun⟩

/-- Two clients that load `freeId` one after the other insert into one line. -/
theorem inserts_share_line : ¬ ∀ (os : Os) (t : Tabble), t.Sound →
    ∀ m, Runs (clients os t.info ledger) (fun _ _ _ _ => True) (.start t .empty) m →
      m.ghost.returned.Nodup := by
  intro h
  have hrun := @runs_sample _ ledger (fun _ _ _ _ => True) _ .empty
    ["INSERT INTO t 7", "INSERT INTO t 8"]
    (by decide +kernel) ([0, 0, 1, 1] ++ List.replicate 8 0 ++ List.replicate 8 1)
  exact absurd (h _ _ sampleOpened_served.sound _ hrun) (by decide +kernel)

/-- A line is on the stack once, and never while it is active. -/
theorem freed_once {os : Os} {t : Tabble} (hs : t.Sound) {m : Machine Fault Tabble Action Ledger}
    (h : Runs (clients os t.info ledger) Fresh (.start t .empty) m) :
    m.shared.stackFreeId.Nodup ∧ ∀ line ∈ m.shared.stackFreeId, m.shared.active line = false := by
  obtain ⟨roles, hpool⟩ := runs_pooled hs h
  exact ⟨hpool.shared.nodup, fun line hline => (hpool.shared.stacked line hline).2⟩

/-- One client deletes the row, the other finds the line cleared. -/
theorem freed_once_sample : ∃ m : Machine Fault Tabble Action Ledger,
    Runs (sampleClients ledger) Fresh (.start Tabble.sampleOpened .empty) m ∧ m.shared.stackFreeId = [0] ∧
      m.shared.stackFreeId.Nodup ∧ ∀ line ∈ m.shared.stackFreeId, m.shared.active line = false := by
  have hrun := @runs_sample _ ledger Fresh _ .empty
    ["INSERT INTO t 7", "DELETE FROM t WHERE id == 0", "DELETE FROM t WHERE id == 0"]
    (by decide +kernel) (List.replicate 10 0 ++ [1, 1, 1, 2, 1, 2])
  exact ⟨_, hrun, by decide +kernel, freed_once sampleOpened_served.sound hrun⟩

/-- Two clients that both find the line active both put it on the stack. -/
theorem freed_twice : ¬ ∀ (os : Os) (t : Tabble), t.Sound →
    ∀ m, Runs (clients os t.info ledger) (fun _ _ _ _ => True) (.start t .empty) m →
      m.shared.stackFreeId.Nodup ∧ ∀ line ∈ m.shared.stackFreeId, m.shared.active line = false := by
  intro h
  have hrun := @runs_sample _ ledger (fun _ _ _ _ => True) _ .empty
    ["INSERT INTO t 7", "DELETE FROM t WHERE id == 0", "DELETE FROM t WHERE id == 0"]
    (by decide +kernel) (List.replicate 10 0 ++ [1, 2] ++ List.replicate 4 1 ++ List.replicate 4 2)
  exact absurd (h _ _ sampleOpened_served.sound _ hrun).1 (by decide +kernel)

end Client
end SQLid
