import SQLid.Inserts
import SQLid.UpdateTexts

/-!
# The rows of an INSERT

What is read of the lines of an INSERT are its tokens: numbers converted, texts cut to
their columns. Every other row reads as before.
-/
namespace SQLid
open Bytes (Text)
open Programs
open Tabble (Inserting)

/-! The tokens of an accepted INSERT. -/

namespace Optimizer
variable {info : TabbleInfo}

/-- What is stored of the value prepared for a column reads as inserted. -/
theorem insertValue_inserted {c : Column} {raw : Text} {v : VariantTypes}
    (h : insertValue c raw = .ok v) : c.inserted raw = .ok v.stored := by
  have hfits := insertValue_fits h
  unfold Column.inserted
  cases htype : c.type.isText with
  | true =>
      obtain rfl := insertValue_text h htype
      rw [if_pos rfl, VariantTypes.stored, Bytes.cutNul_resize]
  | false =>
      rw [if_neg Bool.false_ne_true, insertValue_number h htype, ← cellOfBytes_bytes hfits.1]
      have hnumber := numberOfBytes_bytes hfits.1 htype
      unfold Tabble.cellOfBytes
      rw [hnumber]

/-- Each value of a row is made of the token for its column. -/
theorem insertValues_made {columns : List Column} {raws : List Text} {row : List VariantTypes}
    (h : insertValues info columns raws = .ok row) {m : Nat} {c : Column} (hc : columns[m]? = some c) :
    ∃ raw v, raws[m]? = some raw ∧ row[m]? = some v ∧ insertValue c raw = .ok v := by
  induction columns generalizing raws row m with
  | nil => cases hc
  | cons column columns ih =>
      cases raws with
      | nil => cases h
      | cons raw raws =>
          obtain ⟨v, rest, hv, hrest, rfl⟩ := insertValues_cons h
          cases m with
          | succ m => exact ih hrest hc
          | zero =>
              cases hc
              exact ⟨raw, v, rfl, rfl, hv⟩

theorem insertRows_made {rows : Nat} {raws : List Text} {values : List VariantTypes}
    (h : insertRows info rows raws = .ok values) {r m : Nat} (hr : r < rows) {c : Column}
    (hc : info.columns[m]? = some c) :
    ∃ raw v, raws[r * info.columns.length + m]? = some raw ∧
      values[r * info.columns.length + m]? = some v ∧ insertValue c raw = .ok v := by
  have hm := (List.getElem?_eq_some_iff.mp hc).1
  induction rows generalizing raws values r with
  | zero => exact absurd hr (Nat.not_lt_zero r)
  | succ n ih =>
      obtain ⟨row, hrow, h⟩ := Except_bind_ok h
      obtain ⟨rest, hrest, h⟩ := Except_bind_ok h
      cases h
      have hlen := (insertValues_fit hrow).1
      cases r with
      | zero =>
          obtain ⟨raw, v, hraw, hv, hmade⟩ := insertValues_made hrow hc
          rw [Nat.zero_mul, Nat.zero_add]
          exact ⟨raw, v, hraw, by rw [List.getElem?_append_left (by omega)]; exact hv, hmade⟩
      | succ r =>
          obtain ⟨raw, v, hraw, hv, hmade⟩ := ih hrest (Nat.lt_of_succ_lt_succ hr)
          have hindex : (r + 1) * info.columns.length + m =
              info.columns.length + (r * info.columns.length + m) := by
            rw [Nat.succ_mul]
            omega
          rw [hindex]
          refine ⟨raw, v, ?_, ?_, hmade⟩
          · rwa [List.getElem?_drop] at hraw
          · rw [List.getElem?_append_right (by omega), hlen, Nat.add_sub_cancel_left]
            exact hv

theorem insertRows_tokens {rows : Nat} {raws : List Text} {values : List VariantTypes}
    (h : insertRows info rows raws = .ok values) {r m : Nat} (hr : r < rows) {c : Column}
    (hc : info.columns[m]? = some c) :
    ∃ raw v, raws[r * info.columns.length + m]? = some raw ∧
      values[r * info.columns.length + m]? = some v ∧ c.inserted raw = .ok v.stored := by
  obtain ⟨raw, v, hraw, hv, hmade⟩ := insertRows_made h hr hc
  exact ⟨raw, v, hraw, hv, insertValue_inserted hmade⟩

theorem optimizeInsertValues_ok {raws : List Text} {values : List VariantTypes}
    (h : optimizeInsertValues info raws = .ok values) : 0 < info.columns.length ∧
      insertRows info (raws.length / info.columns.length) raws = .ok values := by
  unfold optimizeInsertValues at h
  split at h
  · cases h
  · next hcols =>
    split at h
    · cases h
    · exact ⟨Nat.pos_of_ne_zero hcols, orIncorrect_ok h⟩

end Optimizer

/-- The lines of an INSERT were free and hold its tokens, row by row; the rows there were
before read as they did. -/
structure ReadsBack (tokens : List Text) (t : Tabble) (lines : List Nat) (t' : Tabble) : Prop where
  nodup : lines.Nodup
  free : ∀ i ∈ lines, t.active i = false
  rows : ∀ (j : Nat) i, lines[j]? = some i → ∃ row,
    t'.peek (Executor.readRecord i (List.range t.info.columns.length) t.info.columns) =
      .ok (Executor.idCell i :: row) ∧
    ∀ (m : Nat) c, t.info.columns[m]? = some c → ∃ raw v,
      tokens[j * t.info.columns.length + m]? = some raw ∧ row[m]? = some v ∧ c.inserted raw = .ok v
  others : ∀ i, t.active i = true →
    t'.peek (Executor.readRecord i (List.range t.info.columns.length) t.info.columns) =
      t.peek (Executor.readRecord i (List.range t.info.columns.length) t.info.columns)

section
variable {schema : TabbleInfo} {t t' : Tabble}

theorem Tabble.Sound.peek_row (h : t.Sound) (hfill : ∀ c ∈ t.info.columns, 0 < c.size) {i : Nat}
    {row : Row} (hi : t.rowMap i = some row) :
    t.peek (Executor.readRecord i (List.range t.info.columns.length) t.info.columns) =
      .ok (Executor.idCell i :: row) := by
  obtain ⟨hactive, rfl⟩ := Tabble.rowMap_some hi
  rw [h.toMapped.peek_readRecord (Tabble.active_lt_maxLines hactive) hfill
    fun id hid => List.mem_range.mp hid]
  unfold Tabble.selectedRow Tabble.row rowAt
  rw [TabbleInfo.pick_range, List.take_length]
  rfl

theorem Tabble.Inserting.readsBack {tokens : List Text} {values : List VariantTypes} {rows : Nat}
    {lines : List Nat} (hfill : ∀ c ∈ t.info.columns, 0 < c.size) (ht : t.Sound)
    (htokens : Optimizer.insertRows t.info rows tokens = .ok values) (hlines : lines.length = rows)
    (h : Inserting values t lines t') : ReadsBack tokens t lines t' := by
  have hfill' : ∀ c ∈ t'.info.columns, 0 < c.size := by
    rw [h.info]
    exact hfill
  have hpeek {i : Nat} {row : Row} (hi : t'.rowMap i = some row) := h.sound.peek_row hfill' hi
  rw [h.info] at hpeek
  refine ⟨h.nodup, fun i hi => ?_, fun j i hj => ⟨_, hpeek (h.stored j i hj), fun m c hc => ?_⟩,
    fun i hi => ?_⟩
  · rw [← Tabble.rowMap_isSome, h.free i hi]
    rfl
  · have hj' := (List.getElem?_eq_some_iff.mp hj).1
    rw [hlines] at hj'
    obtain ⟨raw, v, hraw, hv, hins⟩ := Optimizer.insertRows_tokens htokens hj' hc
    have hm := (List.getElem?_eq_some_iff.mp hc).1
    refine ⟨raw, v.stored, hraw, ?_, hins⟩
    unfold insertedRow
    rw [List.getElem?_map, List.getElem?_take_of_lt hm, List.getElem?_drop, hv]
    rfl
  · obtain ⟨row, hrow⟩ := Option.ne_none_iff_exists'.mp (Tabble.rowMap_ne_none.mpr hi)
    have hnew : i ∉ lines := by
      intro hmem
      rw [h.free i hmem] at hrow
      cases hrow
    have hsame := h.kept i hnew
    rw [hrow] at hsame
    rw [hpeek hsame, ht.peek_row hfill hrow]

/-- On every state an orderly run reaches, an accepted INSERT answers with a line for each of
its rows, and they read back, unless the file has not grown. -/
theorem insert_reads_back {os : Os} (hreg : schema.Regular) (h : Reach Orderly os schema t)
    (hidle : t.storage.expanding = false) {query : InsertQuery} {k : Nat}
    (hk : query.rawValues.length = k * schema.columns.length)
    (hvalues : Optimizer.optimizeInsertValues schema query.rawValues = .ok query.values) :
    ∃ s, (Executor.executeInsert os query).run ⟨t, {}⟩ = .ok () s ∧
      (s.table.storage.expanding = false → ∃ lines, s.result.body = lines.map Executor.idRow ∧
        lines.length = k ∧ ReadsBack query.rawValues t lines s.table) := by
  have hs := h.served hreg hidle
  obtain rfl := hs.info
  obtain ⟨hcols, htokens⟩ := Optimizer.optimizeInsertValues_ok hvalues
  rw [hk, Nat.mul_div_cancel _ hcols] at htokens
  have hpost := Executor.executeInsert_outcome hs.sound os hcols
    (Optimizer.insertRows_fullRows htokens) {} rfl
  cases hrun : (Executor.executeInsert os query).run ⟨t, {}⟩ with
  | error e s =>
      rw [hrun] at hpost
      cases hpost with
      | error hfalse => exact hfalse.elim
  | ok _ s =>
      rw [hrun] at hpost
      refine ⟨s, rfl, fun hopen => ?_⟩
      cases hpost with
      | ok hdone =>
          rcases hdone with ⟨lines, hlen, hins, hbody⟩ | ⟨_, _, _, hbroken, _⟩
          · exact ⟨lines, hbody, hlen, hins.readsBack hreg.filled hs.sound htokens hlen⟩
          · rw [hbroken.expanding] at hopen
            cases hopen

end
/-- Two rows for the table of two texts, one text too short and one too long. -/
def textsRows : InsertQuery where
  rawValues := [CppText.str "pq", CppText.str "rst", CppText.str "uvwxyz", CppText.str "0"]
  values := [.string [112, 113, 0], .string [114, 115, 116], .string [117, 118, 119], .string [48, 0, 0]]

def textsInserted : EStateM.Result Fault Execution Unit :=
  (Executor.executeInsert .reliable textsRows).run ⟨textsFilled, {}⟩

/-- They go behind the row there is. -/
theorem insert_reads_back_sample : ∃ lines,
    (finalState textsInserted).result.body = lines.map Executor.idRow ∧ lines.length = 2 ∧
      ReadsBack textsRows.rawValues textsFilled lines (finalState textsInserted).table := by
  have hvalues : Optimizer.optimizeInsertValues Tabble.textsInfo textsRows.rawValues =
    .ok textsRows.values := by decide +kernel
  obtain ⟨s, hrun, hback⟩ := insert_reads_back (k := 2) textsInfo_regular textsFilled_orderly
    (by decide +kernel) rfl hvalues
  have hs : finalState textsInserted = s := by
    unfold textsInserted
    rw [hrun]
    rfl
  rw [hs]
  apply hback
  rw [← hs]
  decide +kernel

/-! A row whose last byte passes for the flag of a line far behind the file. -/

def aliasedFilled : Tabble :=
  (finalState (request .reliable (CppText.str "INSERT INTO t 16777216") Tabble.sampleOpened)).table

def aliasedErased : Tabble :=
  (finalState (request .reliable (CppText.str "DELETE FROM t WHERE id == 3689348814741910324")
    aliasedFilled)).table

theorem aliasedErased_reach :
    Reach (fun _ _ => True) .reliable Tabble.sampleInfo aliasedErased := by
  have hopen : Reach (fun _ _ => True) .reliable Tabble.sampleInfo Tabble.sampleOpened :=
    .start Tabble.sampleOpened_opens
  have hfilled : Reach (fun _ _ => True) .reliable Tabble.sampleInfo aliasedFilled :=
    .request _ hopen trivial (settles_of_isOk (by decide +kernel))
  exact .request _ hfilled trivial (settles_of_isOk (by decide +kernel))

def aliasedInsert : EStateM.Result Fault Execution Unit :=
  (Executor.executeInsert .reliable ⟨{}, [CppText.str "7"], [.int32 7]⟩).run ⟨aliasedErased, {}⟩

/-- The line far behind the file is free now; inserting into it writes over row 0. -/
theorem insert_writes_over : ¬ ∀ (os : Os) (schema : TabbleInfo) (t : Tabble) (query : InsertQuery)
    (k : Nat), schema.Regular → Reach (fun _ _ => True) os schema t → t.storage.expanding = false →
    query.rawValues.length = k * schema.columns.length →
    Optimizer.optimizeInsertValues schema query.rawValues = .ok query.values →
    ∃ s, (Executor.executeInsert os query).run ⟨t, {}⟩ = .ok () s ∧
      (s.table.storage.expanding = false → ∃ lines, s.result.body = lines.map Executor.idRow ∧
        lines.length = k ∧ ReadsBack query.rawValues t lines s.table) := by
  intro h
  obtain ⟨s, hrun, hback⟩ := h .reliable Tabble.sampleInfo aliasedErased ⟨{}, [CppText.str "7"], [.int32 7]⟩
    1 ⟨Tabble.sampleInfo_layout, by decide, by decide⟩ aliasedErased_reach (by decide +kernel) rfl rfl
  have hs : finalState aliasedInsert = s := by
    unfold aliasedInsert
    rw [hrun]
    rfl
  subst hs
  obtain ⟨lines, -, -, hreads⟩ := hback (by decide +kernel)
  have hsame := hreads.others 0 (by decide +kernel)
  exact absurd hsame (by decide +kernel)

end SQLid
