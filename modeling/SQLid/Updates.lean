import SQLid.LineWrites
import SQLid.ScanLaws

/-!
# What an UPDATE does

An UPDATE writes its values over every line it is aimed at, or stops on the first one
at a value longer than the rest of the line. Nothing is undone there.
-/
namespace SQLid
open Bytes (Text)
open Programs
open Tabble (Rewritten LogOnly writtenColumns)

/-! The conditions and values the optimizer makes. -/

namespace Condition

inductive Made (columns : List Column) : Condition → Prop
  | connective {kind : ConditionType} : kind = .logicalAnd ∨ kind = .logicalOr →
      Made columns ⟨kind, sizeMax, .int32 0⟩
  | index {kind : ConditionType} (line : BitVec 64) :
      kind = .directIndex ∨ kind = .toIndex ∨ kind = .fromIndex → Made columns ⟨kind, 0, .int64 line⟩
  | column {kind : ConditionType} {id : Nat} {column : Column} {desired : VariantTypes} :
      kind ≠ .directIndex ∧ kind ≠ .toIndex ∧ kind ≠ .fromIndex →
      columns[id]? = some column → desired.hasType column.type = true → Made columns ⟨kind, id, desired⟩

variable {columns : List Column} {c : Condition}

theorem Made.typed (h : c.Made columns) : c.Typed columns := by
  cases h with
  | connective => exact .inl rfl
  | index line hkind => exact .inr (.inl hkind)
  | column hkind hcol htype =>
      refine .inr (.inr fun column hcolumn => ?_)
      rw [hcol] at hcolumn
      cases hcolumn
      exact htype

theorem Made.int64 (h : c.Made columns)
    (hkind : c.condType = .directIndex ∨ c.condType = .toIndex ∨ c.condType = .fromIndex) :
    ∃ line, c.desired.getInt64 = .ok line := by
  cases h with
  | connective hk => rcases hk with rfl | rfl <;> simp at hkind
  | index line => exact ⟨line, rfl⟩
  | column hk =>
      obtain ⟨h1, h2, h3⟩ := hk
      rcases hkind with h | h | h
      · exact absurd h h1
      · exact absurd h h2
      · exact absurd h h3

end Condition

namespace Optimizer
variable {info : TabbleInfo}

theorem connective_made (w : Text) : (connective w).Made info.columns := by
  unfold connective
  split
  · exact .connective (.inl rfl)
  · exact .connective (.inr rfl)

theorem indexKind_index {oper : Text} {kind : ConditionType} (h : indexKind oper = some kind) :
    kind = .directIndex ∨ kind = .toIndex ∨ kind = .fromIndex := by
  unfold indexKind at h
  split_ifs at h <;> cases h <;> simp

theorem conditionMap_kind {oper : Text} {kind : ConditionType} (h : conditionMap.lookup oper = some kind) :
    kind ≠ .directIndex ∧ kind ≠ .toIndex ∧ kind ≠ .fromIndex := by
  obtain ⟨before, after, hmap, -⟩ := List.lookup_eq_some_iff.mp h
  have hall : ∀ p ∈ conditionMap, p.2 ≠ .directIndex ∧ p.2 ≠ .toIndex ∧ p.2 ≠ .fromIndex := by
    decide
  exact hall (oper, kind) (by rw [hmap]; exact List.mem_append_right _ List.mem_cons_self)

theorem optimizeTerm_made {columnName oper valueStr : Text} {conditions made : List Condition}
    (hold : ∀ c ∈ conditions, c.Made info.columns)
    (h : optimizeTerm info columnName oper valueStr conditions = .ok made) :
    ∀ c ∈ made, c.Made info.columns := by
  unfold optimizeTerm at h
  split at h
  · split at h
    · cases h
      exact hold
    · next kind hkind =>
      obtain ⟨value, hvalue, h⟩ := Except_bind_ok h
      cases h
      obtain ⟨n, -, rfl⟩ := Except_map_ok hvalue
      exact List.forall_mem_cons.mpr ⟨.index _ (indexKind_index hkind), hold⟩
  · obtain ⟨c, hc, h⟩ := Except_bind_ok h
    cases h
    have hmade : c.Made info.columns := by
      unfold columnCondition at hc
      split at hc
      · cases hc
      · split at hc
        · cases hc
        · next column hcol =>
          obtain ⟨desired, hdesired, hc⟩ := Except_bind_ok hc
          split at hc
          · cases hc
          · next kind hkind =>
            cases hc
            exact .column (conditionMap_kind hkind) hcol (parseValue_hasType hdesired)
    intro d hd
    rcases List.mem_append.mp hd with hd | hd
    · exact hold d hd
    · rw [List.mem_singleton.mp hd]
      exact hmade

theorem optimizeConditions_made {ws : List Text} {conditions made : List Condition}
    (hold : ∀ c ∈ conditions, c.Made info.columns)
    (h : optimizeConditions info ws conditions = .ok made) : ∀ c ∈ made, c.Made info.columns := by
  fun_induction optimizeConditions info ws conditions with
  | case1 conditions =>
      cases h
      exact hold
  | case2 w ws conditions hw ih =>
      apply ih _ h
      intro c hc
      rcases List.mem_append.mp hc with hc | hc
      · exact hold c hc
      · rw [List.mem_singleton.mp hc]
        exact connective_made w
  | case3 w conditions hw oper valueStr ws ih =>
      obtain ⟨next, hnext, h⟩ := Except_bind_ok h
      exact ih next (optimizeTerm_made hold hnext) h
  | case4 => cases h

/-- The values of an accepted SET list, each parsed for its column. -/
structure SetValues (info : TabbleInfo) (ids : List Nat) (raws : List Text)
    (values : List VariantTypes) : Prop where
  length : values.length = ids.length
  parsed : ∀ (j : Nat) id, ids[j]? = some id → ∃ c raw v, info.columns[id]? = some c ∧
    raws[j]? = some raw ∧ values[j]? = some v ∧ parseValue raw c.type = .ok v

theorem updateValues_set {ids : List Nat} {raws : List Text} {values : List VariantTypes}
    (h : updateValues info ids raws = .ok values) : SetValues info ids raws values := by
  induction ids generalizing raws values with
  | nil =>
      cases h
      exact ⟨rfl, fun j id hj => by simp at hj⟩
  | cons id ids ih =>
      cases raws with
      | nil => cases h
      | cons raw raws =>
          unfold updateValues at h
          split at h
          · cases h
          · next column hcol =>
            obtain ⟨value, hvalue, h⟩ := Except_bind_ok h
            obtain ⟨rest, hrest, h⟩ := Except_bind_ok h
            cases h
            obtain ⟨hlen, hparsed⟩ := ih hrest
            refine ⟨by rw [List.length_cons, List.length_cons, hlen], fun j id' hj => ?_⟩
            cases j with
            | zero =>
                cases hj
                exact ⟨column, raw, value, hcol, rfl, rfl, hvalue⟩
            | succ j => exact hparsed j id' hj

/-- What the optimizer hands to an UPDATE. -/
structure Prepared (info : TabbleInfo) (raw query : UpdateQuery) : Prop where
  limit : query.limit = raw.limit
  made : ∀ c ∈ query.conditions, c.Made info.columns
  set : SetValues info query.columnsOptimized raw.rawValues query.values

theorem optimizeUpdate_prepared {raw query : UpdateQuery}
    (h : optimizeUpdate info raw = .ok query) : Prepared info raw query := by
  obtain ⟨ids, -, h⟩ := Except_bind_ok h
  obtain ⟨conditions, hconditions, h⟩ := Except_bind_ok h
  obtain ⟨values, hvalues, h⟩ := Except_bind_ok h
  cases h
  exact ⟨rfl, optimizeConditions_made (List.forall_mem_nil _) hconditions,
    updateValues_set (orIncorrect_ok hvalues)⟩

/-- The columns of a SET list stand where their numbers do. -/
theorem SetValues.getElem?_pick {ids : List Nat} {raws : List Text} {values : List VariantTypes}
    (h : SetValues info ids raws values) {j id : Nat} {c : Column} (hj : ids[j]? = some id)
    (hc : info.columns[id]? = some c) : (info.pick ids)[j]? = some c := by
  have hids : ∀ id ∈ ids, ∃ c, info.columns[id]? = some c := by
    intro id hid
    obtain ⟨j, hj⟩ := List.mem_iff_getElem?.mp hid
    obtain ⟨c, -, -, hc, -⟩ := h.parsed j id hj
    exact ⟨c, hc⟩
  clear h
  induction ids generalizing j with
  | nil => cases hj
  | cons id' ids ih =>
      obtain ⟨d, hd⟩ := hids id' List.mem_cons_self
      rw [TabbleInfo.pick_cons hd]
      cases j with
      | zero =>
          cases hj
          rw [hd] at hc
          exact hc
      | succ j => exact ih hj fun i hi => hids i (List.mem_cons_of_mem id' hi)

theorem SetValues.columnsAt {ids : List Nat} {raws : List Text} {values : List VariantTypes}
    (h : SetValues info ids raws values) :
    Executor.columnsAt info.columns ids = .ok (info.pick ids) ∧
      (info.pick ids).length = ids.length := by
  have hids : ∀ id ∈ ids, id < info.columns.length := by
    intro id hid
    obtain ⟨j, hj⟩ := List.mem_iff_getElem?.mp hid
    obtain ⟨c, -, -, hc, -⟩ := h.parsed j id hj
    exact (List.getElem?_eq_some_iff.mp hc).1
  clear h
  induction ids with
  | nil => exact ⟨rfl, rfl⟩
  | cons id ids ih =>
      have hcol := List.getElem?_eq_getElem (hids id List.mem_cons_self)
      obtain ⟨hrest, hlen⟩ := ih fun id' hid' => hids id' (List.mem_cons_of_mem id hid')
      unfold Executor.columnsAt
      rw [TabbleInfo.pick_cons hcol, hcol, hrest, List.length_cons, List.length_cons, hlen]
      exact ⟨rfl, rfl⟩

end Optimizer

namespace Tabble

/-- An UPDATE of `lines` as far as it comes: all of them, or the first one in part. -/
structure Advanced (values : List VariantTypes) (picked : List Column) (t : Tabble)
    (done : List Nat) (t' : Tabble) : Prop where
  whole : done = [] ∨ writtenColumns t.info.lineLength values 0 picked = picked
  rewritten : Rewritten values picked t done t'

/-- The first line has got the values before the first one that is too long. -/
structure Halted (values : List VariantTypes) (picked : List Column) (t : Tabble)
    (lines : List Nat) (t' : Tabble) : Prop where
  partly : writtenColumns t.info.lineLength values 0 picked ≠ picked
  first : ∃ i rest, lines = i :: rest ∧
    Rewritten values (writtenColumns t.info.lineLength values 0 picked) t [i] t'

theorem Rewritten.of_nil {values : List VariantTypes} {columns columns' : List Column} {t t' : Tabble}
    (h : Rewritten values columns t [] t') : Rewritten values columns' t [] t' :=
  ⟨h.touches, List.forall_mem_nil _⟩

theorem advanced_follows {t : Tabble} (ht : t.Mapped) (values : List VariantTypes)
    (picked : List Column) (conds : List Condition) : Follows t conds (Advanced values picked t) :=
  have h := rewritten_follows ht values picked conds
  { mapped := fun ha => h.mapped ha.rewritten
    info := fun ha => h.info ha.rewritten
    maxLines := fun ha => h.maxLines ha.rewritten
    rowSelects := fun ha => h.rowSelects ha.rewritten
    quiet := fun ha hq => ⟨ha.whole, h.quiet ha.rewritten hq⟩ }

end Tabble

/-- The answer with its column of ids announced. -/
def Result.idHeader (r : Result) : Result :=
  { r with header := r.header ++ [CppText.str "ID"], types := r.types ++ [CppText.str "INT64"] }

namespace Executor
open Tabble (Advanced Halted)

/-- The answer row of a line that has been changed. -/
def idRow (i : Nat) : List VariantTypes := [idCell i]

section
variable {t : Tabble} {values : List VariantTypes} {picked : List Column} {conds : List Condition}

theorem update_line (ht : t.Mapped) (os : Os) (hc : ∀ c ∈ picked, c ∈ t.info.columns)
    (hlen : picked.length ≤ values.length) {done lines : List Nat} {i : Nat} (hi : t.active i = true)
    (hnew : i ∉ done) (hfirst : done = [] → ∃ rest, lines = i :: rest) (r : Result) :
    Triple (Scanned (Advanced values picked t) idRow r done)
      (do
        onTable (Tabble.update os values picked i 0)
        pushRow [idCell i])
      (fun _ => Scanned (Advanced values picked t) idRow r (done ++ [i]))
      (fun _ s => Halted values picked t lines s.table) := by
  have hupdate : Triple (Advanced values picked t done) (Tabble.update os values picked i 0)
      (fun _ => Advanced values picked t (done ++ [i])) (fun _ => Halted values picked t lines) := by
    intro t' h
    by_cases hwhole : writtenColumns t.info.lineLength values 0 picked = picked
    · obtain ⟨t'', hnext, ⟨-, hrun⟩ | ⟨hpart, -⟩⟩ := h.rewritten.update ht os hi hnew hc hlen hwhole
      · rw [hrun]
        exact .ok ⟨.inr hwhole, hnext⟩
      · exact absurd rfl hpart
    · -- nothing has been written yet, and this line is not written to its end
      have hdone : done = [] := h.whole.resolve_right hwhole
      subst hdone
      obtain ⟨t'', hnext, ⟨hall, -⟩ | ⟨-, v, hrun⟩⟩ := h.rewritten.of_nil.update ht os hi hnew hc hlen rfl
      · exact absurd hall hwhole
      · obtain ⟨rest, hrest⟩ := hfirst rfl
        rw [hrun]
        exact .error ⟨hwhole, i, rest, hrest, hnext⟩
  have hpush := triple_pushRow (P := Advanced values picked t (done ++ [i]))
    (E := fun _ s => Halted values picked t lines s.table) r (done.map idRow) (idRow i)
  have hboth := (triple_onTable_result hupdate (withRows r (done.map idRow))).bind fun _ => hpush
  apply hboth.conseq (fun _ hs => hs) _ fun _ _ he => he
  rintro _ s ⟨hs, hr⟩
  refine ⟨hs, ?_⟩
  rw [hr, List.map_append]
  rfl

theorem update_lines (ht : t.Mapped) (hfill : ∀ c ∈ t.info.columns, 0 < c.size) (os : Os)
    (hmade : ∀ c ∈ conds, c.Made t.info.columns) (hc : ∀ c ∈ picked, c ∈ t.info.columns)
    (hlen : picked.length ≤ values.length) (r : Result) (count n : Nat) :
    Triple (Scanned (Advanced values picked t) idRow r [])
      (scanLines conds t.info.columns count
        (fun line => do
          onTable (Tabble.update os values picked line 0)
          pushRow [idCell line]) n 0)
      (fun _ => Scanned (Advanced values picked t) idRow r (scannedLines t conds count 0 n))
      (fun _ s => Halted values picked t (scannedLines t conds count 0 n) s.table ∨
        (Astray t conds n ∧
          ∃ t', Advanced values picked t (scannedLines t conds count 0 n) t' ∧ LogOnly t' s.table)) := by
  have hstop : Astray t conds n = Astray t conds (0 + n) := by rw [Nat.zero_add]
  rw [hstop]
  apply scanLines_window ht hfill (fun c hc => (hmade c hc).typed)
    (Tabble.advanced_follows ht values picked conds) (Nat.zero_le _)
  intro i hi hlt hin hmeets hcount
  have hactive := (Tabble.meets_iff.mp hmeets).1
  apply update_line ht os hc hlen hactive
  · rw [Scan.mem_passed hi]
    rintro ⟨⟨-, hself⟩, -⟩
    exact Nat.lt_irrefl i hself
  · intro hpassed
    exact Scan.picked_first hi (by omega) hpassed hmeets (by omega)

theorem run_header (t : Tabble) (r : Result) :
    (onResult fun r => { r with header := r.header ++ [CppText.str "ID"],
                                types := r.types ++ [CppText.str "INT64"] }).run ⟨t, r⟩ =
      .ok () ⟨t, r.idHeader⟩ := rfl

/-- The lines of the file a DELETE or UPDATE with these conditions is aimed at. -/
def targetLines (t : Tabble) (conds : List Condition) (limit : Nat) : List Nat :=
  match directIndex conds with
  | some desired =>
      match desired.getInt64 with
      | .ok line => if t.active line.toNat then [line.toNat] else []
      | .error _ => []
  | none =>
      match upperBound t.getMaxActiveLine conds with
      | .ok maxLine =>
          scannedLines t conds (if t.getActivePlaces < limit then t.getActivePlaces else limit) 0 maxLine
      | .error _ => []

theorem targetLines_active {limit i : Nat} (h : i ∈ targetLines t conds limit) : t.active i = true := by
  unfold targetLines at h
  split at h
  · split at h
    · split at h
      · next hactive => rwa [List.mem_singleton.mp h]
      · cases h
    · cases h
  · split at h
    · exact (Tabble.meets_iff.mp (Scan.mem_picked h).2.2).1
    · cases h

theorem targetLines_nodup (t : Tabble) (conds : List Condition) (limit : Nat) :
    (targetLines t conds limit).Nodup := by
  unfold targetLines
  split
  · split
    · split
      · exact List.nodup_singleton _
      · exact .nil
    · exact .nil
  · split
    · exact Scan.picked_nodup _ _ _ _
    · exact .nil

theorem directIndex_made (hmade : ∀ c ∈ conds, c.Made t.info.columns) {desired : VariantTypes}
    (h : directIndex conds = some desired) : ∃ line, desired.getInt64 = .ok line := by
  cases conds with
  | nil => cases h
  | cons c conds =>
    have hc := hmade c List.mem_cons_self
    obtain ⟨kind, id, d⟩ := c
    unfold directIndex at h
    split at h
    · next heq =>
      cases heq
      cases h
      exact hc.int64 (.inl rfl)
    · cases h

theorem upperBound_made (hmade : ∀ c ∈ conds, c.Made t.info.columns) (maxLine : Nat) :
    ∃ n, upperBound maxLine conds = .ok n := by
  induction conds generalizing maxLine with
  | nil => exact ⟨maxLine, rfl⟩
  | cons c conds ih =>
    have hc := hmade c List.mem_cons_self
    have hrest := ih fun d hd => hmade d (List.mem_cons_of_mem c hd)
    unfold upperBound
    cases hkind : c.condType with
    | toIndex =>
        obtain ⟨line, hline⟩ := hc.int64 (.inr (.inl hkind))
        dsimp only
        rw [hline]
        exact hrest line.toNat
    | fromIndex =>
        obtain ⟨line, hline⟩ := hc.int64 (.inr (.inr hkind))
        dsimp only
        rw [hline]
        exact hrest maxLine
    | equal | notEqual | greater | less | and | or | logicalAnd | logicalOr | directIndex =>
        exact ⟨maxLine, rfl⟩

/-- A table that differs from one of these in its log only. -/
def UpToLog (R : Tabble → Prop) (t : Tabble) : Prop := ∃ t', R t' ∧ LogOnly t' t

/-- The test of a line that is in the file or does not read as active. -/
theorem isActive_outcome (ht : t.Mapped) {line : Nat}
    (ha : line < t.maxLines ∨ t.peek (Tabble.onStorage (MemoryMap.isActive line)) ≠ .ok true) :
    (t.active line = true ∧ ∃ t', (Tabble.onStorage (MemoryMap.isActive line)).run t = .ok true t' ∧
        Tabble.Quiet t t') ∨
      (t.active line = false ∧ ∃ t', LogOnly t t' ∧
        ((Tabble.onStorage (MemoryMap.isActive line)).run t = .ok false t' ∨
          ∃ e, (Tabble.onStorage (MemoryMap.isActive line)).run t = .error e t')) := by
  have hreads := Tabble.reads_isActive line
  by_cases hlt : line < t.maxLines
  · have hpeek := ht.peek_isActive hlt
    obtain ⟨t', hrun, hq⟩ := hreads.quiet hlt hpeek
    rw [← Tabble.active_of_lt hlt] at hrun
    cases hactive : t.active line with
    | true =>
        rw [hactive] at hrun
        exact .inl ⟨rfl, t', hrun, hq⟩
    | false =>
        rw [hactive] at hrun
        exact .inr ⟨rfl, t', hq.logOnly, .inl hrun⟩
  · have hne := ha.resolve_left hlt
    have hactive : t.active line = false := by simp [Tabble.active, hlt]
    refine .inr ⟨hactive, ?_⟩
    cases hp : t.peek (Tabble.onStorage (MemoryMap.isActive line)) with
    | error e =>
        obtain ⟨l, -, hrun⟩ := hreads.run_error hp
        exact ⟨_, ⟨l, rfl⟩, .inr ⟨e, hrun⟩⟩
    | ok b =>
        obtain ⟨l, -, hrun⟩ := hreads.run_ok hp
        cases b with
        | true => exact absurd hp hne
        | false => exact ⟨_, ⟨l, rfl⟩, .inl hrun⟩

/-- An UPDATE has written all of `lines` and answers with them. -/
def Updated (values : List VariantTypes) (picked : List Column) (t : Tabble) (lines : List Nat)
    (s : Execution) : Prop :=
  UpToLog (Advanced values picked t lines) s.table ∧ s.result.body = lines.map idRow

/-- A DELETE or UPDATE with these conditions can fault where it reads. -/
def Strays (t : Tabble) (conds : List Condition) : Prop :=
  (∃ line, directIndex conds = some (.int64 line) ∧ t.maxLines ≤ line.toNat) ∨
    ∃ maxLine, upperBound t.getMaxActiveLine conds = .ok maxLine ∧ Astray t conds maxLine

/-- An UPDATE has failed: on its first line, at a read behind its last one, or before it
started. -/
def Interrupted (values : List VariantTypes) (picked : List Column) (t : Tabble)
    (conds : List Condition) (lines : List Nat) (s : Execution) : Prop :=
  Halted values picked t lines s.table ∨
    (Strays t conds ∧ UpToLog (Advanced values picked t lines) s.table) ∨
    (maxBody < t.activePlaces ∧ s.table = t)

section
variable {α : Type} {x : EStateM Fault Tabble α} {t' : Tabble} {r : Result}

theorem run_onTable_ok {a : α} (h : x.run t = .ok a t') : (onTable x).run ⟨t, r⟩ = .ok a ⟨t', r⟩ := by
  unfold onTable
  rw [run_zoom, h]

theorem run_onTable_error {e : Fault} (h : x.run t = .error e t') :
    (onTable x).run ⟨t, r⟩ = .error e ⟨t', r⟩ := by
  unfold onTable
  rw [run_zoom, h]

end

theorem update_direct (ht : t.Mapped) (os : Os) (hc : ∀ c ∈ picked, c ∈ t.info.columns)
    (hlen : picked.length ≤ values.length) {line : Nat}
    (ha : line < t.maxLines ∨ t.peek (Tabble.onStorage (MemoryMap.isActive line)) ≠ .ok true)
    (hstrays : t.maxLines ≤ line → Strays t conds) (r : Result) :
    Triple (fun s => s.table = t ∧ s.result = withRows r [])
      (do
        if ← onTable (Tabble.onStorage (MemoryMap.isActive line)) then
          onTable (Tabble.update os values picked line 0)
          pushRow [idCell line]
          onResult fun r => { r with isSucces := true })
      (fun _ => Updated values picked t (if t.active line then [line] else []))
      (fun _ => Interrupted values picked t conds (if t.active line then [line] else [])) := by
  rintro ⟨t₀, r₀⟩ ⟨htable, hresult⟩
  dsimp only at htable hresult
  subst t₀ r₀
  have hstart : ∀ t', Tabble.Quiet t t' → Advanced values picked t [] t' :=
    fun t' hquiet => ⟨.inl rfl, (Rewritten.refl _ _ t).quiet hquiet⟩
  rcases isActive_outcome ht ha with ⟨hactive, t', hrun, hquiet⟩ | ⟨hactive, t', hlog, hcases⟩
  · rw [run_bind_ok (run_onTable_ok hrun), if_pos hactive, if_pos rfl]
    have hfirst : ([] : List Nat) = [] → ∃ rest, [line] = line :: rest := fun _ => ⟨[], rfl⟩
    have hwrite := update_line ht os hc hlen hactive List.not_mem_nil hfirst r
    have hdone : Triple (Scanned (Advanced values picked t) idRow r ([] ++ [line]))
        (onResult fun r => { r with isSucces := true })
        (fun _ => Updated values picked t [line]) (fun _ s => Halted values picked t [line] s.table) := by
      apply triple_modify
      rintro s ⟨hs, hr⟩
      exact ⟨⟨s.table, hs, .refl _⟩, by rw [hr]; rfl⟩
    have hall := (hwrite.bind fun _ => hdone) ⟨t', withRows r []⟩ ⟨hstart t' hquiet, rfl⟩
    rw [bind_assoc] at hall
    exact hall.mono (fun _ _ h => h) fun _ _ h => .inl h
  · rw [hactive, if_neg Bool.false_ne_true]
    rcases hcases with hrun | ⟨e, hrun⟩
    · rw [run_bind_ok (run_onTable_ok hrun), if_neg Bool.false_ne_true]
      exact .ok ⟨⟨t, hstart t (.refl t), hlog⟩, rfl⟩
    · rw [run_bind_error (run_onTable_error hrun)]
      have hpast : t.maxLines ≤ line := by
        by_contra hlt
        rw [(ht.isActive (by omega))] at hrun
        cases hrun
      exact .error (.inr (.inl ⟨hstrays hpast, t, hstart t (.refl t), hlog⟩))

theorem update_window (ht : t.Mapped) (hfill : ∀ c ∈ t.info.columns, 0 < c.size) (os : Os)
    (hmade : ∀ c ∈ conds, c.Made t.info.columns) (hc : ∀ c ∈ picked, c ∈ t.info.columns)
    (hlen : picked.length ≤ values.length) (r : Result) (limit maxLine : Nat)
    (hmax : upperBound t.getMaxActiveLine conds = .ok maxLine) :
    Triple (fun s => s.table = t ∧ s.result = withRows r [])
      (do
        let count ← activeCount limit
        reserveBody count
        scanLines conds t.info.columns count
          (fun line => do
            onTable (Tabble.update os values picked line 0)
            pushRow [idCell line]) maxLine 0)
      (fun _ => Updated values picked t (scannedLines t conds
        (if t.getActivePlaces < limit then t.getActivePlaces else limit) 0 maxLine))
      (fun _ => Interrupted values picked t conds (scannedLines t conds
        (if t.getActivePlaces < limit then t.getActivePlaces else limit) 0 maxLine)) := by
  rintro ⟨t₀, r₀⟩ ⟨htable, hresult⟩
  dsimp only at htable hresult
  subst t₀ r₀
  generalize hcount : (if t.getActivePlaces < limit then t.getActivePlaces else limit) = count
  have hactive : (activeCount limit).run ⟨t, withRows r []⟩ = .ok count ⟨t, withRows r []⟩ := by
    rw [← hcount]
    rfl
  rw [run_bind_ok hactive]
  unfold reserveBody
  by_cases hbody : maxBody < count
  · have hplaces : count ≤ t.activePlaces := by
      rw [← hcount]
      unfold Tabble.getActivePlaces
      split <;> omega
    rw [if_pos hbody]
    exact .error (.inr (.inr ⟨by omega, rfl⟩))
  · rw [if_neg hbody]
    refine (update_lines ht hfill os hmade hc hlen r count maxLine ⟨t, withRows r []⟩
      ⟨⟨.inl rfl, Rewritten.refl _ _ t⟩, rfl⟩).mono ?_ ?_
    · rintro _ s ⟨hs, hr⟩
      exact ⟨⟨s.table, hs, .refl _⟩, by rw [hr]; rfl⟩
    · rintro _ s (hhalt | ⟨hastray, hdone⟩)
      · exact .inl hhalt
      · exact .inr (.inl ⟨.inr ⟨maxLine, hmax, hastray⟩, hdone⟩)

/-- An UPDATE ends with all its lines written, or halts on the first one; when it fails
otherwise, that has nothing to do with what it writes. -/
theorem executeUpdate_outcome (ht : t.Mapped) (hfill : ∀ c ∈ t.info.columns, 0 < c.size) (os : Os)
    {raw query : UpdateQuery} (hq : Optimizer.Prepared t.info raw query)
    (ha : Aimed t query.conditions) (r : Result) (hr : r.body = []) :
    Post (fun _ => Updated query.values (t.info.pick query.columnsOptimized) t
        (targetLines t query.conditions query.limit))
      (fun _ => Interrupted query.values (t.info.pick query.columnsOptimized) t query.conditions
        (targetLines t query.conditions query.limit))
      ((executeUpdate os query).run ⟨t, r⟩) := by
  obtain ⟨hcolumns, hlen⟩ := hq.set.columnsAt
  have hset : (t.info.pick query.columnsOptimized).length ≤ query.values.length := by
    rw [hlen, hq.set.length]
  have hmem := t.info.pick_subset query.columnsOptimized
  have hbody : r.idHeader = withRows r.idHeader [] := by
    unfold withRows
    rw [← hr]
    rfl
  unfold executeUpdate targetLines
  rw [run_bind_ok (run_header t r), run_bind_ok (EStateM.run_get _)]
  dsimp only
  rw [hcolumns, run_bind_ok (run_ofExcept_ok _ _)]
  cases hdir : directIndex query.conditions with
  | some desired =>
      obtain ⟨line, hline⟩ := directIndex_made hq.made hdir
      dsimp only
      rw [hline, run_bind_ok (run_ofExcept_ok _ _)]
      have hint := directIndex_eq hdir hline
      exact update_direct ht os hmem hset (ha line hint) (fun hpast => .inl ⟨line, hint, hpast⟩)
        r.idHeader ⟨t, r.idHeader⟩ ⟨rfl, hbody⟩
  | none =>
      obtain ⟨maxLine, hmax⟩ := upperBound_made hq.made t.getMaxActiveLine
      dsimp only
      rw [run_bind_ok (EStateM.run_get _), hmax, run_bind_ok (run_ofExcept_ok _ _)]
      exact update_window ht hfill os hq.made hmem hset r.idHeader query.limit maxLine hmax
        ⟨t, r.idHeader⟩ ⟨rfl, hbody⟩

end
end Executor

theorem compile_update {info : TabbleInfo} {command : Text} {query : UpdateQuery}
    (h : compile info command = .ok (.update query)) : ∃ raw, Optimizer.Prepared info raw query := by
  obtain ⟨raw, -, h⟩ := Except_bind_ok h
  rcases Optimizer.optimize_cases h with ⟨r, q, -, heq, -⟩ | ⟨r, q, -, heq, -⟩ | ⟨r, q, -, heq, -⟩ |
    ⟨r, q, -, heq, hq⟩ <;> cases heq
  exact ⟨r, Optimizer.optimizeUpdate_prepared hq⟩

theorem request_update {os : Os} {t : Tabble} {command : Text} {query : UpdateQuery}
    (h : compile t.info command = .ok (.update query)) :
    request os command t = (Executor.executeUpdate os query).run ⟨t, { isSucces := true }⟩ := by
  unfold request
  rw [run_answer h]
  rfl

/-- A request that goes to no line directly is orderly while the storage is idle. -/
theorem orderly_of_undirected {t : Tabble} {command : Text} (hidle : t.storage.expanding = false)
    (h : ∀ query ∈ (compile t.info command).toOption, ∀ conds ∈ query.changes,
      Executor.directIndex conds = none) : Orderly t command := by
  refine ⟨hidle, fun query conds hc hconds line hline => ?_⟩
  rw [h query (by rw [hc]; rfl) conds hconds] at hline
  cases hline

end SQLid
