import SQLid.DataBase
import SQLid.OptimizerLaws
import SQLid.Rows

/-!
# Tables in service

What every request leaves of a table whatever its outcome: a file of whole lines,
and, unless a growth has failed, a sound table whose counter of active places
counts every active line at least once.
-/
namespace SQLid
open Bytes (Text)
open Programs

/-- The counter may be above the number of rows, by one for each line used first. -/
structure Served (schema : TabbleInfo) (t : Tabble) : Prop where
  sound : t.Sound
  info : t.info = schema
  places_ge : t.activeCount ≤ t.activePlaces
  places_le : t.activePlaces ≤ t.activeCount + t.freeId

structure Kept (schema : TabbleInfo) (t : Tabble) : Prop where
  info : t.info = schema
  file : MemoryMapLinux.Lines t.storage.core.file schema.lineLength
  served : t.storage.expanding = false → Served schema t

section Served
variable {schema : TabbleInfo} {t t' : Tabble}

theorem Served.kept (h : Served schema t) : Kept schema t := by
  refine ⟨h.info, ?_, fun _ => h⟩
  rw [← h.info, ← h.sound.lineLength]
  exact h.sound.live.fileLines

theorem Tabble.Broken.kept (h : t.Mapped) (hs : t.info = schema) (hb : Tabble.Broken t t') :
    Kept schema t' := by
  refine ⟨hb.info.trans hs, ?_, fun hidle => ?_⟩
  · rw [← hs, ← h.lineLength]
    exact hb.core.lines
  · rw [hb.expanding] at hidle
    cases hidle

theorem Served.logOnly (h : Served schema t) (hl : Tabble.LogOnly t t') : Served schema t' := by
  obtain ⟨l, rfl⟩ := hl
  exact ⟨h.sound.addLog l, h.info, h.places_ge, h.places_le⟩

theorem Served.touches (h : Served schema t) {P : Nat → Prop} (ht : Tabble.Touches P t t')
    (hP : ∀ i, ¬ P (i * t.storage.core.lineLength)) : Served schema t' := by
  have hcount : t'.activeCount = t.activeCount := by
    rw [Tabble.activeCount_eq, Tabble.activeCount_eq, ht.active hP, ht.maxLines]
  refine ⟨ht.sound h.sound hP, ht.info.trans h.info, ?_, ?_⟩
  · rw [hcount, ht.places]
    exact h.places_ge
  · rw [hcount, ht.places, ht.freeId]
    exact h.places_le

/-- A mapped file is far smaller than a counter. -/
theorem Tabble.Mapped.maxLines_le (h : t.Mapped) : t.maxLines ≤ 2 ^ 56 := by
  have htop := h.live.address_top
  exact (Nat.div_le_self _ _).trans (by omega)

theorem Served.places_lt (h : Served schema t) : t.activePlaces ≤ 2 ^ 57 := by
  have h1 : t.activeCount ≤ t.maxLines := Nat.count_le _
  have h2 := h.sound.freeId_le
  have h3 := h.places_le
  have h4 := h.sound.maxLines_le
  omega

theorem Served.erased (h : Served schema t) {i : Nat} (hi : t.active i = true)
    (e : Tabble.Erased t t' i) : Served schema t' := by
  have hlt := (Tabble.active_iff.mp hi).1
  have hcount : t'.activeCount + 1 = t.activeCount := by
    rw [Tabble.activeCount_eq, Tabble.activeCount_eq, e.active, e.maxLines]
    exact SlotPool.count_update_false hlt hi
  have hge := h.places_ge
  have hle := h.places_le
  have hlow := h.places_lt
  have hplaces : t'.activePlaces = t.activePlaces - 1 := by
    rw [e.places]
    exact sizeSub_eq (by omega) (by omega)
  refine ⟨e.sound, e.info.trans h.info, by omega, ?_⟩
  rw [e.freeId]
  omega

theorem Served.started (h : Served schema t) {cur : Nat} (s : Tabble.Started t t' cur) :
    Served schema t'.addPlace := by
  have hcount : t'.activeCount = t.activeCount + 1 := by
    rw [Tabble.activeCount_eq, Tabble.activeCount_eq, s.active,
      SlotPool.count_update_true s.cur_lt s.free,
      SlotPool.count_eq_of_false s.grown fun i hi _ => by simp [Tabble.active]; omega]
  have hge := h.places_ge
  have hle := h.places_le
  have hlow := h.places_lt
  have hplaces : t'.addPlace.activePlaces = sizeAdd t'.activePlaces 1 := rfl
  have hsum : t'.addPlace.activePlaces + t.freeId = t.activePlaces + t'.freeId + 1 := by
    rcases s.counters with ⟨-, hf, hp⟩ | ⟨-, hf, hp⟩
    · rw [hplaces, hp, hf, sizeAdd_eq (by omega)]
      omega
    · rw [hplaces, hp, hf, sizeAdd_eq (a := t.activePlaces) (by omega), sizeAdd_eq (by omega)]
      omega
  have hfree : t.freeId ≤ t'.freeId := by
    rcases s.counters with ⟨-, hf, -⟩ | ⟨-, hf, -⟩ <;> omega
  refine ⟨⟨⟨s.sound.layout, s.sound.lineLength, s.sound.live, s.sound.idle⟩, s.sound.pool⟩,
    s.info.trans h.info, ?_, ?_⟩
  · change t'.activeCount ≤ t'.addPlace.activePlaces
    omega
  · change t'.addPlace.activePlaces ≤ t'.activeCount + t'.freeId
    omega

end Served

/-! The programs of the executor. -/

section Triples
variable {α : Type} {P : Tabble → Prop} {E : Fault → Execution → Prop}

theorem triple_onResult (f : Result → Result) :
    Triple (fun s => P s.table) (Executor.onResult f) (fun _ s => P s.table) E :=
  triple_modify fun _ hs => hs

theorem triple_onTable {x : EStateM Fault Tabble α} {Q : α → Tabble → Prop}
    {E : Fault → Tabble → Prop} (h : Triple P x Q E) :
    Triple (fun s => P s.table) (Executor.onTable x) (fun a s => Q a s.table)
      (fun e s => E e s.table) :=
  triple_zoom fun s hs => h s.table hs

theorem triple_activeCount (limit : Nat) :
    Triple (fun s => P s.table) (Executor.activeCount limit) (fun _ s => P s.table) E :=
  triple_get fun _ _ => triple_pure fun _ h => h

theorem triple_reserveBody (n : Nat) (hE : ∀ s, P s.table → E .lengthError s) :
    Triple (fun s => P s.table) (Executor.reserveBody n) (fun _ s => P s.table) E :=
  triple_ite (fun _ => triple_throw hE) fun _ => triple_pure fun _ h => h

/-- A property the log does not matter to survives reading, also reading that faults. -/
theorem Tabble.ReadsLine.triple {i : Nat} {x : EStateM Fault Tabble α} (h : Tabble.ReadsLine i x)
    (hP : ∀ t t', P t → Tabble.LogOnly t t' → P t') : Triple P x (fun _ => P) (fun _ => P) := by
  intro t ht
  cases hp : t.peek x with
  | ok a =>
      obtain ⟨l, -, hrun⟩ := h.run_ok hp
      rw [hrun]
      exact .ok (hP t _ ht ⟨l, rfl⟩)
  | error e =>
      obtain ⟨l, -, hrun⟩ := h.run_error hp
      rw [hrun]
      exact .error (hP t _ ht ⟨l, rfl⟩)

end Triples

namespace Executor

/-- A SELECT leaves behind nothing but calls in the log. -/
theorem select_keeps {P : Tabble → Prop} (hP : ∀ t t', P t → Tabble.LogOnly t t' → P t')
    (query : SelectQuery) :
    Triple (fun s => P s.table) (executeSelect query) (fun _ s => P s.table)
      (fun _ s => P s.table) := by
  have hexcept {α : Type} (x : Except Fault α) :
      Triple (fun s : Execution => P s.table) (ofExcept x) (fun _ s => P s.table)
        (fun _ s => P s.table) := triple_ofExcept (fun _ _ _ h => h) fun _ _ _ h => h
  have hrecord (i : Nat) (ids : List Nat) (columns : List Column) :
      Triple (fun s : Execution => P s.table) (onTable (readRecord i ids columns))
        (fun _ s => P s.table) (fun _ s => P s.table) :=
    triple_onTable ((reads_readRecord i ids columns).triple hP)
  unfold executeSelect
  refine (triple_onResult _).bind fun _ => triple_get fun s₀ _ => ?_
  refine (hexcept _).bind fun header => (triple_onResult _).bind fun _ => ?_
  split
  · exact (hexcept _).bind fun line => (hrecord _ _ _).bind fun row => triple_onResult _
  · refine triple_get fun s₁ _ => (hexcept _).bind fun window => ?_
    obtain ⟨i, maxLine, conditions⟩ := window
    dsimp only
    refine (triple_activeCount _).bind fun count => ?_
    refine (triple_reserveBody _ fun _ h => h).bind fun _ => ?_
    refine Triple.bind (Q := fun _ s => P s.table) ?_ fun _ => ?_
    · refine (Scan.loop_triple (I := fun _ s => P s.table) (J := fun _ s => P s.table)
        (fun j => ?_) (fun j => ?_) (maxLine - i) i).conseq (fun _ h => h) (fun _ _ ⟨_, h, _⟩ => h)
          fun _ _ h => h
      · refine (triple_onTable ((reads_selects conditions _ j).triple hP)).conseq (fun _ h => h)
          (fun b s h => ?_) fun _ _ h => h
        cases b <;> exact h
      · exact (hrecord _ _ _).bind fun row => triple_onResult _
    · exact triple_ite (fun _ => triple_onResult _) fun _ => triple_pure fun _ h => h

/-! INSERT. -/

theorem fullRows_fit {schema : TabbleInfo} {values : List VariantTypes} {rows r : Nat}
    (hlay : schema.Layout) (h : schema.FullRows values rows) (hr : r < rows) :
    ∀ (j : Nat) c, schema.columns[j]? = some c → ∃ v : VariantTypes,
      values[r * schema.columns.length + j]? = some v ∧
        c.offset + v.bytes.length ≤ schema.lineLength := by
  intro j c hc
  have hj := (List.getElem?_eq_some_iff.mp hc).1
  obtain ⟨d, v, hd, hv, hfit⟩ := h.fits r hr j j (List.getElem?_range hj)
  obtain rfl : d = c := by simpa [hc] using hd.symm
  have hmem := List.mem_of_getElem? hc
  refine ⟨v, hv, ?_⟩
  rw [hlay.fits_length hmem hfit]
  exact (hlay.column_inside hmem).2

theorem insertFrom_kept {schema : TabbleInfo} (os : Os) {values : List VariantTypes} {rows : Nat}
    (hlay : schema.Layout) (hrows : schema.FullRows values rows) (n r : Nat) :
    Triple (fun s => Served schema s.table)
      (insertFrom os values schema.columns n (r * schema.columns.length))
      (fun _ s => Served schema s.table) (fun e s => e.IsGrowth ∧ Kept schema s.table) := by
  induction n generalizing r with
  | zero => exact triple_pure fun _ h => h
  | succ n ih =>
    refine triple_ite (fun hlt => ?_) fun _ => triple_pure fun _ h => h
    have hr : r < rows := by
      rw [hrows.length] at hlt
      exact Nat.lt_of_mul_lt_mul_right hlt
    have hone : Triple (Served schema)
        (Tabble.insert os values schema.columns (r * schema.columns.length))
        (fun _ t => Served schema t) (fun e t => e.IsGrowth ∧ Kept schema t) := by
      intro t h
      obtain rfl := h.info
      rcases h.sound.insert_ok os values (r * t.info.columns.length) (fun _ hc => hc)
        (fullRows_fit hlay hrows hr) with ⟨cur, t', f, s, hok, -⟩ | ⟨-, e, t', herr, hgrowth, hb⟩
      · rw [hok]
        exact .ok (h.started s)
      · rw [herr]
        exact .error ⟨hgrowth, hb.kept h.sound.toMapped rfl⟩
    refine (triple_onTable hone).bind fun id => (triple_onResult (P := Served schema) _).bind
      fun _ => ?_
    have := ih (r + 1)
    rwa [Nat.succ_mul] at this

theorem insert_kept {schema : TabbleInfo} (os : Os) (hlay : schema.Layout) {query : InsertQuery}
    {rows : Nat} (hrows : schema.FullRows query.values rows) :
    Triple (fun s => Served schema s.table) (executeInsert os query)
      (fun _ s => Kept schema s.table) (fun e s => e.isException = true → Kept schema s.table) := by
  unfold executeInsert
  refine (triple_onResult (P := Served schema) _).bind fun _ => triple_get fun s hs => ?_
  have hloop := insertFrom_kept os hlay hrows query.values.length 0
  rw [Nat.zero_mul] at hloop
  rw [hs.info]
  refine triple_tryCatch ((hloop.bind fun _ => triple_onResult _).conseq (fun _ h => h)
    (fun _ _ h => h.kept) fun _ _ h => h) fun e => ?_
  refine triple_ite (fun _ => ?_) fun he => triple_throw fun s h hraise => absurd hraise he
  exact triple_modify fun s h => h.2

/-! DELETE and UPDATE. -/

/-- A statement that goes to one line directly finds it in the file, or not active. -/
def Aimed (t : Tabble) (conditions : List Condition) : Prop :=
  ∀ line, directIndex conditions = some (.int64 line) → line.toNat < t.maxLines ∨
    t.peek (Tabble.onStorage (MemoryMap.isActive line.toNat)) ≠ .ok true

/-- What a scan knows of a table when it has reached line `i`. -/
def Reached (schema : TabbleInfo) (i : Nat) (t : Tabble) : Prop := Served schema t ∧ i ≤ t.maxLines

/-- The line has been tested and is going to be changed. -/
def Chosen (schema : TabbleInfo) (i : Nat) (t : Tabble) : Prop :=
  Served schema t ∧ t.active i = true

theorem Chosen.reached {schema : TabbleInfo} {i : Nat} {t t' : Tabble} (h : Chosen schema i t)
    (hs : Served schema t') (hm : t'.maxLines = t.maxLines) : Reached schema (i + 1) t' := by
  have := (Tabble.active_iff.mp h.2).1
  exact ⟨hs, by omega⟩

/-- The first line past the end of the file cannot be read. -/
theorem peek_isActive_end {t : Tabble} (h : t.Mapped) :
    t.peek (Tabble.onStorage (MemoryMap.isActive t.maxLines)) = .error .undefined := by
  have htop := h.live.address_top
  have hmul : t.maxLines * t.storage.core.lineLength = t.storage.core.fileSize :=
    h.live.getMaxLine_mul
  have hnone := h.live.mapping.findLine_past (i := t.maxLines) le_rfl (by omega)
  have hread : t.storage.core.readNumber t.maxLines 0 1 = .error .undefined := by
    unfold MemoryMapLinux.readNumber MemoryMapLinux.lineStart
    rw [hnone]
    rfl
  have hrun : (MemoryMap.isActive t.maxLines).run t.storage =
      .error .undefined (t.storage.logged (.isActive t.maxLines)) := by
    unfold MemoryMap.isActive
    rw [Programs.run_bind_ok (MemoryMap.run_record _ _), Programs.run_bind_ok (EStateM.run_get _)]
    refine Programs.run_bind_error ?_
    change (Programs.ofExcept (t.storage.core.readNumber t.maxLines 0 1)).run _ = _
    rw [hread]
    rfl
  exact Tabble.peek_of_error (Tabble.run_onStorage_error hrun)

theorem peek_selects_end {t : Tabble} (h : t.Mapped) (conds : List Condition)
    (columns : List Column) : t.peek (selects conds columns t.maxLines) = .error .undefined := by
  unfold selects
  rw [(Tabble.reads_isActive _).peek_bind, peek_isActive_end h]
  · rfl
  · intro b
    cases b with
    | false => exact Tabble.reads_pure _
    | true =>
        rw [if_pos rfl]
        split
        · exact Tabble.reads_pure _
        · exact reads_satisfiesFrom _ columns _ _ _

/-- A scan from the first line cannot leave the file and go on. -/
theorem selects_reached {schema : TabbleInfo} (hreg : schema.Regular) (conds : List Condition)
    (i : Nat) : Triple (Reached schema i) (selects conds schema.columns i)
      (fun b t => if b then Chosen schema i t else Reached schema (i + 1) t)
      (fun e t => e.isException = true → Served schema t) := by
  rintro t ⟨h, hi⟩
  have hreads := reads_selects conds schema.columns i
  rcases Nat.lt_or_eq_of_le hi with hlt | rfl
  · have hpeek := h.sound.peek_selects hlt (by rw [h.info]; exact hreg.filled) conds
    rw [h.info] at hpeek
    cases hsel : t.rowSelects conds i with
    | error e =>
        rw [hsel] at hpeek
        obtain ⟨t', hrun, hq⟩ := hreads.quiet_error hlt hpeek
        rw [hrun]
        exact .error fun _ => h.logOnly hq.logOnly
    | ok b =>
        rw [hsel] at hpeek
        obtain ⟨t', hrun, l, rfl, -⟩ := hreads.quiet hlt hpeek
        rw [hrun]
        have hs : Served schema (t.addLog l) := h.logOnly ⟨l, rfl⟩
        cases b with
        | false => exact .ok ⟨hs, hlt⟩
        | true =>
            refine .ok ⟨hs, Tabble.active_iff.mpr ⟨hlt, ?_⟩⟩
            by_contra hf
            unfold Tabble.rowSelects at hsel
            rw [if_neg (show ¬ t.flag i = true from hf)] at hsel
            cases hsel
  · obtain ⟨l, -, hrun⟩ := hreads.run_error (peek_selects_end h.sound.toMapped conds _)
    rw [hrun]
    exact .error fun he => absurd he (by decide)

/-- The direct test of one line. -/
theorem isActive_aimed {schema : TabbleInfo} {t : Tabble} {i : Nat} (h : Served schema t)
    (ha : i < t.maxLines ∨ t.peek (Tabble.onStorage (MemoryMap.isActive i)) ≠ .ok true) :
    Triple (· = t) (Tabble.onStorage (MemoryMap.isActive i))
      (fun b t' => if b then Chosen schema i t' else Served schema t')
      (fun e t' => e.isException = true → Served schema t') := by
  rintro t' rfl
  have hreads := Tabble.reads_isActive i
  cases hp : t'.peek (Tabble.onStorage (MemoryMap.isActive i)) with
  | error e =>
      obtain ⟨l, -, hrun⟩ := hreads.run_error hp
      rw [hrun]
      exact .error fun _ => h.logOnly ⟨l, rfl⟩
  | ok b =>
      obtain ⟨l, -, hrun⟩ := hreads.run_ok hp
      rw [hrun]
      have hs : Served schema (t'.addLog l) := h.logOnly ⟨l, rfl⟩
      cases b with
      | false => exact .ok hs
      | true =>
          rcases ha with hlt | hne
          · rw [h.sound.peek_isActive hlt] at hp
            exact .ok ⟨hs, Tabble.active_iff.mpr ⟨hlt, Except.ok.inj hp⟩⟩
          · exact absurd hp hne

theorem erase_chosen (schema : TabbleInfo) (i : Nat) :
    Triple (Chosen schema i) (Tabble.erase i) (fun _ t => Reached schema (i + 1) t)
      (fun e t => e.isException = true → Served schema t) := by
  intro t h
  obtain ⟨t', hrun, e⟩ := h.1.sound.erase_ok h.2
  rw [hrun]
  exact .ok (h.reached (h.1.erased h.2 e) e.maxLines)

theorem update_chosen {schema : TabbleInfo} (os : Os) (values : List VariantTypes)
    {columns : List Column} (hc : ∀ c ∈ columns, c ∈ schema.columns) (i : Nat) :
    Triple (Chosen schema i) (Tabble.update os values columns i 0)
      (fun _ t => Reached schema (i + 1) t) (fun e t => e.isException = true → Served schema t) := by
  intro t h
  have hi := (Tabble.active_iff.mp h.2).1
  have hw : Served schema (t.withHistory (t.history ++ [.update i])) :=
    ⟨h.1.sound.withHistory _, h.1.info, h.1.places_ge, h.1.places_le⟩
  obtain ⟨t', htouch, hcases⟩ := hw.sound.updateFrom_outcome os hi values
    (fun c hcm => by rw [hw.info]; exact hc c hcm) 0
  have hs : Served schema t' := by
    refine hw.touches htouch fun j => ?_
    rw [hw.sound.lineLength]
    exact Tabble.not_inLine_flag _ _ _
  rw [Tabble.run_update]
  rcases hcases with hok | ⟨herr, -⟩ | ⟨v, herr⟩
  · rw [hok]
    exact .ok (h.reached hs htouch.maxLines)
  · rw [herr]
    exact .error fun _ => hs
  · rw [herr]
    exact .error fun _ => hs

/-- The scan of DELETE and UPDATE from the first line on. -/
theorem scanLines_served {schema : TabbleInfo} (hreg : schema.Regular) (conds : List Condition)
    (count n : Nat) {act : Nat → EStateM Fault Execution Unit}
    (hact : ∀ i, Triple (fun s => Chosen schema i s.table) (act i)
      (fun _ s => Reached schema (i + 1) s.table)
      (fun e s => e.isException = true → Served schema s.table)) :
    Triple (fun s => Served schema s.table) (scanLines conds schema.columns count act n 0)
      (fun _ s => Served schema s.table)
      (fun e s => e.isException = true → Served schema s.table) := by
  refine (Scan.loop_triple (I := fun i s => Reached schema i s.table)
    (J := fun i s => Chosen schema i s.table) (fun i => ?_) hact n 0).conseq
    (fun _ h => ⟨h, Nat.zero_le _⟩) (fun _ _ ⟨_, h, _⟩ => h.1) fun _ _ h => h
  refine (triple_onTable (selects_reached hreg conds i)).conseq (fun _ h => h) (fun b s h => ?_)
    fun _ _ h => h
  cases b <;> exact h

theorem columnsAt_mem {columns picked : List Column} {ids : List Nat}
    (h : columnsAt columns ids = .ok picked) : ∀ c ∈ picked, c ∈ columns := by
  induction ids generalizing picked with
  | nil =>
      cases h
      exact List.forall_mem_nil _
  | cons id ids ih =>
      unfold columnsAt at h
      split at h
      · cases h
      · rename_i column hcol
        obtain ⟨rest, hrest, h⟩ := Except_bind_ok h
        cases h
        exact List.forall_mem_cons.mpr ⟨List.mem_of_getElem? hcol, ih hrest⟩

theorem directIndex_eq {conds : List Condition} {desired : VariantTypes} {line : BitVec 64}
    (h : directIndex conds = some desired) (hline : desired.getInt64 = .ok line) :
    directIndex conds = some (.int64 line) := by
  cases desired <;> cases hline
  exact h

section
variable {schema : TabbleInfo} {t : Tabble}

theorem triple_onResult_eq (f : Result → Result) {E : Fault → Execution → Prop} :
    Triple (fun s => s.table = t) (onResult f) (fun _ s => s.table = t) E :=
  triple_onResult (P := (· = t)) f

theorem Served.of_eq (h : Served schema t) : ∀ s : Execution, s.table = t → Served schema s.table :=
  fun _ hs => hs ▸ h

theorem delete_served (hreg : schema.Regular) (h : Served schema t) {query : DeleteQuery}
    (ha : Aimed t query.conditions) :
    Triple (fun s => s.table = t) (executeDelete query) (fun _ s => Served schema s.table)
      (fun e s => e.isException = true → Served schema s.table) := by
  unfold executeDelete
  refine (triple_onResult_eq _).bind fun _ => triple_get fun s₀ hs₀ => ?_
  have hcols : s₀.table.info.columns = schema.columns := by rw [hs₀, h.info]
  split
  · rename_i desired hdir
    refine Triple.bind (triple_ofExcept (Q := fun line s => s.table = t ∧ desired.getInt64 = .ok line)
      (fun _ _ hv hs => ⟨hs, hv⟩) fun _ s _ hs _ => Served.of_eq h s hs) fun line => ?_
    intro s hs
    obtain ⟨hs, hline⟩ := hs
    have hact := triple_onTable (isActive_aimed h (ha line (directIndex_eq hdir hline)))
    refine (hact.bind fun b => ?_) s hs
    cases b with
    | false =>
        dsimp only
        rw [if_neg Bool.false_ne_true]
        exact triple_onResult (P := Served schema) _
    | true =>
        dsimp only
        rw [if_pos rfl]
        refine (triple_onTable (erase_chosen schema line.toNat)).bind fun _ => ?_
        refine (triple_onResult (P := Reached schema (line.toNat + 1)) _).bind fun _ => ?_
        exact (triple_onResult (P := Reached schema (line.toNat + 1)) _).conseq (fun _ h => h)
          (fun _ _ h => h.1) fun _ _ h => h
  · rw [hcols]
    refine triple_get fun s₁ _ => ?_
    refine Triple.bind (Q := fun _ s => s.table = t) (triple_ofExcept (fun _ _ _ hs => hs)
      fun _ s _ hs _ => Served.of_eq h s hs) fun maxLine => ?_
    refine Triple.conseq (P := fun s => Served schema s.table) ?_ (Served.of_eq h) (fun _ _ h => h)
      fun _ _ h => h
    refine (triple_activeCount _).bind fun count => ?_
    refine (triple_reserveBody _ fun _ h _ => h).bind fun _ => ?_
    refine (scanLines_served hreg query.conditions count maxLine fun i => ?_).bind fun _ =>
      triple_onResult (P := Served schema) _
    exact (triple_onTable (erase_chosen schema i)).bind fun _ =>
      triple_onResult (P := Reached schema (i + 1)) _

theorem update_served (os : Os) (hreg : schema.Regular) (h : Served schema t) {query : UpdateQuery}
    (ha : Aimed t query.conditions) :
    Triple (fun s => s.table = t) (executeUpdate os query) (fun _ s => Served schema s.table)
      (fun e s => e.isException = true → Served schema s.table) := by
  unfold executeUpdate
  refine (triple_onResult_eq _).bind fun _ => triple_get fun s₀ hs₀ => ?_
  have hcols : s₀.table.info.columns = schema.columns := by rw [hs₀, h.info]
  rw [hcols]
  refine Triple.bind (triple_ofExcept
    (Q := fun picked s => s.table = t ∧ columnsAt schema.columns query.columnsOptimized = .ok picked)
    (fun _ _ hv hs => ⟨hs, hv⟩) fun _ s _ hs _ => Served.of_eq h s hs) fun picked => ?_
  intro s hs
  obtain ⟨hs, hpicked⟩ := hs
  have hmem := columnsAt_mem hpicked
  revert s
  change Triple (fun s : Execution => s.table = t) _ _ _
  split
  · rename_i desired hdir
    refine Triple.bind (triple_ofExcept (Q := fun line s => s.table = t ∧ desired.getInt64 = .ok line)
      (fun _ _ hv hs => ⟨hs, hv⟩) fun _ s _ hs _ => Served.of_eq h s hs) fun line => ?_
    intro s hs
    obtain ⟨hs, hline⟩ := hs
    have hact := triple_onTable (isActive_aimed h (ha line (directIndex_eq hdir hline)))
    refine (hact.bind fun b => ?_) s hs
    cases b with
    | false => exact triple_pure fun _ h => h
    | true =>
        refine (triple_onTable (update_chosen os query.values hmem line.toNat)).bind fun _ => ?_
        refine (triple_onResult (P := Reached schema (line.toNat + 1)) _).bind fun _ => ?_
        exact (triple_onResult (P := Reached schema (line.toNat + 1)) _).conseq (fun _ h => h)
          (fun _ _ h => h.1) fun _ _ h => h
  · refine triple_get fun s₁ _ => ?_
    refine Triple.bind (Q := fun _ s => s.table = t) (triple_ofExcept (fun _ _ _ hs => hs)
      fun _ s _ hs _ => Served.of_eq h s hs) fun maxLine => ?_
    refine Triple.conseq (P := fun s => Served schema s.table) ?_ (Served.of_eq h) (fun _ _ h => h)
      fun _ _ h => h
    refine (triple_activeCount _).bind fun count => ?_
    refine (triple_reserveBody _ fun _ h _ => h).bind fun _ => ?_
    refine scanLines_served hreg query.conditions count maxLine fun i => ?_
    exact (triple_onTable (update_chosen os query.values hmem i)).bind fun _ =>
      triple_onResult (P := Reached schema (i + 1)) _

end

end Executor

end SQLid
