import SQLid.TabbleLaws

/-!
# What the table operations do to a sound table

One outcome lemma for each operation of `Tabble.h`: how the call can end and
how the state it leaves is related to the one before.
-/
namespace SQLid
open Bytes (Text)
open CppText (str)

namespace Tabble

/-! `update`. -/

theorem Touches.cell {P : Nat → Prop} {t t' : Tabble} (h : Touches P t t') {i : Nat} {c : Column}
    (hP : ∀ k, i * t.info.lineLength + c.offset ≤ k →
      k < i * t.info.lineLength + c.offset + c.size → ¬ P k) : t'.cell i c = t.cell i c := by
  unfold Tabble.cell
  rw [h.info, Bytes.slice_congr fun k hk hk' => h.byte (hP k hk hk')]

/-- The bytes after the loop has stored every value. -/
def storeValues (f : Nat → UInt8) (base : Nat) (values : List VariantTypes) :
    Nat → List Column → Nat → UInt8
  | _, [] => f
  | k, c :: columns =>
      storeValues (Bytes.blit f (base + c.offset) (values.getD k (.bool false)).bytes) base values
        (k + 1) columns

/-- The columns up to the first one whose value does not fit behind its offset. -/
def writtenColumns (lineLength : Nat) (values : List VariantTypes) : Nat → List Column → List Column
  | _, [] => []
  | k, c :: columns =>
      if c.offset + (values.getD k (.bool false)).bytes.length ≤ lineLength then
        c :: writtenColumns lineLength values (k + 1) columns
      else []

theorem writtenColumns_all {lineLength : Nat} {values : List VariantTypes} {columns : List Column}
    {k : Nat} (hfit : ∀ j c, columns[j]? = some c → ∃ v, values[k + j]? = some v ∧
      c.offset + v.bytes.length ≤ lineLength) :
    writtenColumns lineLength values k columns = columns := by
  induction columns generalizing k with
  | nil => rfl
  | cons c columns ih =>
    obtain ⟨v, hv, hend⟩ := hfit 0 c rfl
    have hrest : writtenColumns lineLength values (k + 1) columns = columns := by
      apply ih
      intro j d hd
      obtain ⟨w, hw, hwend⟩ := hfit (j + 1) d (by simpa using hd)
      exact ⟨w, by rw [← hw]; congr 1; omega, hwend⟩
    rw [Nat.add_zero] at hv
    unfold writtenColumns
    rw [hrest, List.getD_eq_getElem?_getD, hv, Option.getD_some, if_pos hend]

/-- How the write loop can end on a line of the file: it stores values until one is too
long or missing, and until then has stayed inside the line. -/
theorem Mapped.updateFrom_stores {t : Tabble} {i : Nat} (h : t.Mapped) (os : Os)
    (hi : i < t.maxLines) (values : List VariantTypes) {columns : List Column} (k : Nat)
    (hc : ∀ c ∈ columns, c ∈ t.info.columns) :
    ∃ t', Touches (InLine t.info.lineLength i) t t' ∧
      (k + columns.length ≤ values.length →
        t'.byte = storeValues t.byte (i * t.info.lineLength) values k
          (writtenColumns t.info.lineLength values k columns)) ∧
      ((writtenColumns t.info.lineLength values k columns = columns ∧
          (updateFrom os values i k columns).run t = .ok () t') ∨
        ((updateFrom os values i k columns).run t = .error .undefined t' ∧
          values.length < k + columns.length) ∨
        (writtenColumns t.info.lineLength values k columns ≠ columns ∧
          ∃ v, (updateFrom os values i k columns).run t = .error (.runtimeError (tooLong v)) t')) := by
  induction columns generalizing t k with
  | nil => exact ⟨t, .refl _ t, fun _ => rfl, .inl ⟨rfl, rfl⟩⟩
  | cons c columns ih =>
    have hin := h.layout.column_inside (hc c List.mem_cons_self)
    unfold updateFrom
    cases hv : values[k]? with
    | none =>
        have hlen := List.getElem?_eq_none_iff.mp hv
        rw [List.length_cons]
        exact ⟨t, .refl _ t, fun hle => by omega, .inr (.inl ⟨rfl, by omega⟩)⟩
    | some v =>
        have hget : values.getD k (.bool false) = v := by
          rw [List.getD_eq_getElem?_getD, hv, Option.getD_some]
        unfold writtenColumns
        rw [hget]
        dsimp only
        by_cases hend : c.offset + v.bytes.length ≤ t.info.lineLength
        · obtain ⟨t₁, hrun, htouch, hbyte⟩ := h.writeInfo_ok os hi hin.1 hend
          obtain ⟨t', htouch', hbyte', hcases⟩ := ih (htouch.mapped h) (by rwa [htouch.maxLines])
            (k + 1) (fun d hd => by rw [htouch.info]; exact hc d (List.mem_cons_of_mem c hd))
          rw [htouch.info] at htouch' hbyte' hcases
          rw [if_pos hend, Programs.run_bind_ok hrun]
          refine ⟨t', htouch.trans htouch', ?_, ?_⟩
          · intro hlen
            rw [List.length_cons] at hlen
            rw [hbyte' (by omega), hbyte, storeValues, hget]
          · rcases hcases with ⟨hall, hok⟩ | ⟨hmiss, hlen⟩ | ⟨hsome, herr⟩
            · exact .inl ⟨by rw [hall], hok⟩
            · exact .inr (.inl ⟨hmiss, by rw [List.length_cons]; omega⟩)
            · exact .inr (.inr ⟨fun heq => hsome (List.cons.inj heq).2, herr⟩)
        · have hlong := h.writeInfo_error os hi v (by omega : c.offset ≤ _) (by omega)
          rw [if_neg hend, Programs.run_bind_error hlong]
          exact ⟨_, logged_touches _ (writeCall_line i v) hi, fun _ => rfl,
            .inr (.inr ⟨nofun, v, rfl⟩)⟩

theorem Mapped.updateFrom_outcome {t : Tabble} {i : Nat} (h : t.Mapped) (os : Os)
    (hi : i < t.maxLines) (values : List VariantTypes) {columns : List Column}
    (hc : ∀ c ∈ columns, c ∈ t.info.columns) (k : Nat) :
    ∃ t', Touches (InLine t.info.lineLength i) t t' ∧
      ((updateFrom os values i k columns).run t = .ok () t' ∨
        ((updateFrom os values i k columns).run t = .error .undefined t' ∧
          values.length < k + columns.length) ∨
        ∃ v, (updateFrom os values i k columns).run t = .error (.runtimeError (tooLong v)) t') := by
  obtain ⟨t', htouch, -, hcases⟩ := h.updateFrom_stores os hi values k hc
  refine ⟨t', htouch, ?_⟩
  rcases hcases with ⟨-, hok⟩ | hmiss | ⟨-, hlong⟩
  · exact .inl hok
  · exact .inr (.inl hmiss)
  · exact .inr (.inr hlong)

/-- The loop stores values until one does not fit, and ends well if every one does. -/
theorem Mapped.updateFrom_written {t : Tabble} {i : Nat} (h : t.Mapped) (os : Os)
    (hi : i < t.maxLines) (values : List VariantTypes) {columns : List Column} (k : Nat)
    (hc : ∀ c ∈ columns, c ∈ t.info.columns) (hlen : k + columns.length ≤ values.length) :
    ∃ t', Touches (InLine t.info.lineLength i) t t' ∧
      t'.byte = storeValues t.byte (i * t.info.lineLength) values k
        (writtenColumns t.info.lineLength values k columns) ∧
      ((writtenColumns t.info.lineLength values k columns = columns ∧
          (updateFrom os values i k columns).run t = .ok () t') ∨
        (writtenColumns t.info.lineLength values k columns ≠ columns ∧
          ∃ v, (updateFrom os values i k columns).run t = .error (.runtimeError (tooLong v)) t')) := by
  obtain ⟨t', htouch, hbyte, hcases⟩ := h.updateFrom_stores os hi values k hc
  refine ⟨t', htouch, hbyte hlen, ?_⟩
  rcases hcases with hok | ⟨-, hshort⟩ | hlong
  · exact .inl hok
  · exact absurd hshort (by omega)
  · exact .inr hlong

theorem Mapped.updateFrom_ok {t : Tabble} {i : Nat} (h : t.Mapped) (os : Os)
    (hi : i < t.maxLines) (values : List VariantTypes) {columns : List Column} (k : Nat)
    (hc : ∀ c ∈ columns, c ∈ t.info.columns)
    (hfit : ∀ j c, columns[j]? = some c → ∃ v, values[k + j]? = some v ∧
      c.offset + v.bytes.length ≤ t.info.lineLength) :
    ∃ t', (updateFrom os values i k columns).run t = .ok () t' ∧
      Touches (InLine t.info.lineLength i) t t' ∧
      t'.byte = storeValues t.byte (i * t.info.lineLength) values k columns := by
  have hall := writtenColumns_all hfit
  have hlen : columns = [] ∨ k + columns.length ≤ values.length := by
    rcases columns.eq_nil_or_concat with hnil | ⟨front, c, hlast⟩
    · exact .inl hnil
    · obtain ⟨v, hv, -⟩ := hfit front.length c (by simp [hlast])
      have hlt := (List.getElem?_eq_some_iff.mp hv).1
      exact .inr (by rw [hlast, List.length_concat]; omega)
  rcases hlen with rfl | hlen
  · exact ⟨t, rfl, .refl _ t, rfl⟩
  · obtain ⟨t', htouch, hbyte, ⟨-, hok⟩ | ⟨hsome, -⟩⟩ := h.updateFrom_written os hi values k hc hlen
    · rw [hall] at hbyte
      exact ⟨t', hok, htouch, hbyte⟩
    · exact absurd hall hsome

/-! Growth. -/

/-- The file has doubled, with free lines behind the old ones. -/
structure Grown (w : Option Nat) (t t' : Tabble) : Prop where
  mapped : t'.Mapped
  info : t'.info = t.info
  history : t'.history = t.history
  stack : t'.stackFreeId = t.stackFreeId
  freeId : t'.freeId = t.freeId
  places : t'.activePlaces = t.activePlaces
  maxLines : t'.maxLines = 2 * t.maxLines
  flag_old : ∀ i < t.maxLines, t'.flag i = t.flag i
  flag_new : ∀ i, t.maxLines ≤ i → t'.flag i = false
  byte_old : ∀ k < t.storage.core.fileSize, t'.byte k = t.byte k
  fileSize : t'.storage.core.fileSize = 2 * t.storage.core.fileSize
  calls : t'.storage.core.calls = t.storage.core.calls + 1
  log : t'.storage.log = (.expand w, t.storage.core) :: t.storage.log

theorem Grown.logsInside {t t' : Tabble} (g : Grown none t t')
    (hfull : ∀ i < t.maxLines, t.flag i = true) : LogsInside t t' :=
  .one (e := (.expand none, t.storage.core)) ⟨fun _ => hfull, fun i hi => by cases hi⟩ g.log

theorem Mapped.expand_ok {t : Tabble} (h : t.Mapped) (os : Os) (w : Option Nat)
    (hg : os.grows t.storage.core.calls (2 * t.storage.core.fileSize) = true) :
    ∃ t', (onStorage (MemoryMap.expand os w)).run t = .ok () t' ∧ Grown w t t' := by
  obtain ⟨addr, hrun, hlive⟩ := h.live.expandFile_ok hg
  have hexpand := MemoryMap.run_expand os w h.idle
  rw [hrun] at hexpand
  refine ⟨_, run_onStorage_ok hexpand, ⟨h.layout, h.lineLength, hlive, h.idle⟩, rfl, rfl, rfl, rfl,
    rfl, h.live.getMaxLine_resized addr, fun i hi => h.live.flag_resized hi,
    fun i hi => h.live.flag_resized_new hi, fun k hk => h.live.byte_resized hk, rfl, rfl,
    rfl⟩

/-- The storage after a growth that failed; no line can be reached any more. -/
structure Broken (t t' : Tabble) : Prop where
  info : t'.info = t.info
  expanding : t'.storage.expanding = true
  core : t.storage.core.Broken t'.storage.core

/-- The allocator has no free line and the file does not grow. -/
structure Stuck (os : Os) (t : Tabble) : Prop where
  stack : t.stackFreeId = []
  full : t.maxLines ≤ t.freeId
  fails : os.grows t.storage.core.calls (2 * t.storage.core.fileSize) = false

theorem Mapped.expand_error {t : Tabble} (h : t.Mapped) (os : Os) (w : Option Nat)
    (hg : os.grows t.storage.core.calls (2 * t.storage.core.fileSize) = false) :
    ∃ e t', (onStorage (MemoryMap.expand os w)).run t = .error e t' ∧ e.IsGrowth ∧ Broken t t' := by
  obtain ⟨e, core, hrun, hgrowth, hbroken⟩ := h.live.expandFile_error hg
  have hexpand := MemoryMap.run_expand os w h.idle
  rw [hrun] at hexpand
  exact ⟨e, _, run_onStorage_error hexpand, hgrowth, rfl, rfl, hbroken⟩

theorem Grown.pool {w : Option Nat} {t t' : Tabble} (g : Grown w t t') (h : t.pool.Inv) : t'.pool.Inv := by
  have hgrow := h.grow t'.flag t'.maxLines ?_ g.flag_old fun i hi _ =>
    g.flag_new i hi
  · simpa only [Tabble.pool, g.stack, g.freeId] using hgrow
  · rw [g.maxLines]
    change t.maxLines ≤ _
    omega

theorem Mapped.maxLines_lt {t : Tabble} (h : t.Mapped) : t.maxLines < 2 ^ 63 :=
  lt_of_le_of_lt (Nat.div_le_self _ _) h.live.offT

/-! `allocateId`. -/

/-- `cur` has been taken from the pool but its line is not active yet. A line off
the stack leaves the counters alone, a fresh one moves both. -/
structure Allocated (t t' : Tabble) (cur : Nat) : Prop where
  mapped : t'.Mapped
  info : t'.info = t.info
  history : t'.history = t.history
  cur_lt : cur < t'.maxLines
  cur_free : t'.flag cur = false
  cur_new : cur < t.maxLines → t.flag cur = false
  pool : (SlotPool.Pool.mk (Function.update t'.flag cur true) t'.stackFreeId t'.freeId
    t'.maxLines).Inv
  grown : t.maxLines ≤ t'.maxLines
  flag_old : ∀ i < t.maxLines, t'.flag i = t.flag i
  flag_new : ∀ i, t.maxLines ≤ i → t'.flag i = false ∨ t'.maxLines = t.maxLines
  byte_old : ∀ k < t.storage.core.fileSize, t'.byte k = t.byte k
  counters : (cur < t.freeId ∧ t'.freeId = t.freeId ∧ t'.activePlaces = t.activePlaces) ∨
    (cur = t.freeId ∧ t'.freeId = t.freeId + 1 ∧ t'.activePlaces = sizeAdd t.activePlaces 1)
  log : LogsInside t t'

theorem Sound.allocateId_stack {t : Tabble} (h : t.Sound) (os : Os) {cur : Nat} {rest : List Nat}
    (hs : t.stackFreeId = cur :: rest) :
    ∃ t', (allocateId os).run t = .ok cur t' ∧ Allocated t t' cur := by
  obtain ⟨hlt, hfree, hpool⟩ := h.pool.take hs
  have hcap : t.freeId ≤ t.maxLines := h.pool.top_le
  have hcur : cur < t.freeId := hlt
  refine ⟨{ t with stackFreeId := rest }, ?_, ⟨h.layout, h.lineLength, h.live, h.idle⟩, rfl, rfl,
    by change cur < t.maxLines; omega, hfree, fun _ => hfree, hpool, le_rfl, fun _ _ => rfl,
    fun _ _ => .inr rfl, fun _ _ => rfl, .inl ⟨hcur, rfl, rfl⟩, .refl t⟩
  unfold allocateId
  rw [Programs.run_bind_ok (EStateM.run_get t), hs]
  rfl

/-- The counters move after the file has grown, if it had to. -/
theorem run_allocateId_fresh {os : Os} {t : Tabble} (hs : t.stackFreeId = []) :
    (allocateId os).run t =
      ((if t.storage.getMaxLines ≤ t.freeId then onStorage (MemoryMap.expand os none) else pure ()) >>=
        fun _ => (do
          modify fun t => { t with activePlaces := sizeAdd t.activePlaces 1 }
          modify fun t => { t with freeId := sizeAdd t.freeId 1 }
          return t.freeId : EStateM Fault Tabble Nat)).run t := by
  unfold allocateId
  rw [Programs.run_bind_ok (EStateM.run_get t), hs]
  dsimp only
  split_ifs <;> rfl

theorem Sound.allocateId_fresh {t : Tabble} (h : t.Sound) (os : Os) (t₁ : Tabble) (hs : t.stackFreeId = [])
    (hrun : (if t.storage.getMaxLines ≤ t.freeId then onStorage (MemoryMap.expand os none)
      else pure ()).run t = .ok () t₁)
    (hstep : t₁ = t ∧ t.freeId < t.maxLines ∨ Grown none t t₁ ∧ t.maxLines ≤ t.freeId) :
    ∃ t', (allocateId os).run t = .ok t.freeId t' ∧ Allocated t t' t.freeId := by
  have hcap : t.freeId ≤ t.maxLines := h.pool.top_le
  have hmax := h.maxLines_lt
  have hnext : sizeAdd t.freeId 1 = t.freeId + 1 := sizeAdd_eq (by omega)
  refine ⟨{ t₁ with activePlaces := sizeAdd t₁.activePlaces 1, freeId := sizeAdd t₁.freeId 1 }, ?_, ?_⟩
  · rw [run_allocateId_fresh hs, Programs.run_bind_ok hrun]
    rfl
  · rcases hstep with ⟨rfl, hlt⟩ | ⟨g, hge⟩
    · have hfree := h.pool.above t₁.freeId le_rfl hlt
      have hpool := h.pool.bump hs hlt
      refine ⟨⟨h.layout, h.lineLength, h.live, h.idle⟩, rfl, rfl, hlt, hfree, fun _ => hfree, ?_,
        le_rfl, fun _ _ => rfl, fun _ _ => .inr rfl, fun _ _ => rfl, .inr ⟨rfl, hnext, rfl⟩,
        .refl t₁⟩
      simp only [hnext, hs]
      exact hpool
    · have hpos := h.live.getMaxLine_pos
      have hpos' : 0 < t.maxLines := hpos
      have heq : t.freeId = t.maxLines := by omega
      have hlt : t.freeId < t₁.maxLines := by rw [g.maxLines]; omega
      have hpool := (g.pool h.pool).bump (by rw [← hs]; exact g.stack)
        (by change t₁.freeId < t₁.maxLines; rw [g.freeId]; exact hlt)
      refine ⟨⟨g.mapped.layout, g.mapped.lineLength, g.mapped.live, g.mapped.idle⟩, g.info,
        g.history, hlt, g.flag_new _ hge, fun hlt' => by omega, ?_,
        by change t.maxLines ≤ t₁.maxLines; rw [g.maxLines]; omega, g.flag_old,
        fun i hi => .inl (g.flag_new i hi), g.byte_old,
        .inr ⟨rfl, by simp only [g.freeId, hnext], by simp only [g.places]⟩,
        g.logsInside (h.pool.full hs hge)⟩
      simp only [Tabble.pool, g.freeId] at hpool
      simp only [g.freeId, g.stack, hs, hnext]
      exact hpool

/-- Allocation fails only where the file has no free line and does not grow. -/
theorem Sound.allocateId_outcome {t : Tabble} (h : t.Sound) (os : Os) :
    (∃ cur t', (allocateId os).run t = .ok cur t' ∧ Allocated t t' cur) ∨
      (Stuck os t ∧ ∃ e t', (allocateId os).run t = .error e t' ∧ e.IsGrowth ∧ Broken t t') := by
  cases hs : t.stackFreeId with
  | cons cur rest =>
      obtain ⟨t', hrun, halloc⟩ := h.allocateId_stack os hs
      exact .inl ⟨cur, t', hrun, halloc⟩
  | nil =>
      by_cases hfull : t.storage.getMaxLines ≤ t.freeId
      · cases hg : os.grows t.storage.core.calls (2 * t.storage.core.fileSize) with
        | true =>
            obtain ⟨t₁, hrun, hgrown⟩ := h.expand_ok os none hg
            obtain ⟨t', hrun', halloc⟩ := h.allocateId_fresh os t₁ hs
              (by rw [if_pos hfull]; exact hrun) (.inr ⟨hgrown, hfull⟩)
            exact .inl ⟨t.freeId, t', hrun', halloc⟩
        | false =>
            obtain ⟨e, t', hrun, hgrowth⟩ := h.expand_error os none hg
            refine .inr ⟨⟨hs, hfull, hg⟩, e, t', ?_, hgrowth⟩
            rw [run_allocateId_fresh hs, if_pos hfull, Programs.run_bind_error hrun]
      · obtain ⟨t', hrun, halloc⟩ := h.allocateId_fresh os t hs
          (by rw [if_neg hfull]; rfl) (.inl ⟨rfl, Nat.lt_of_not_le hfull⟩)
        exact .inl ⟨t.freeId, t', hrun, halloc⟩

end Tabble
end SQLid
