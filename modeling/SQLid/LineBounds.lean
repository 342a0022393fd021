import SQLid.AccessCosts
import SQLid.StorageKeeping
import SQLid.Agreement

/-!
# Lines inside the file

A SELECT, DELETE or UPDATE addresses lines of the file only, as long as the line it looks up or
the window it scans is inside. An id that a client writes is not compared with the lines there
are.
-/
namespace SQLid
open Bytes (Text)
open CppText (str)
open Programs
open Traces

namespace MemoryMap

/-- Since the log was `old`, each call has found a file of at least `n` lines, and so will the
next. -/
structure Ample (L n : Nat) (old : List LogEntry) (m : MemoryMap) : Prop where
  whole : Whole L m
  lines : n ≤ m.core.getMaxLine
  calls : ∃ new, m.log = new ++ old ∧ ∀ e ∈ new, n ≤ e.2.getMaxLine

section Ample
variable {os : Os} {L n : Nat} {old : List LogEntry} {m : MemoryMap}

theorem Ample.logged (h : Ample L n old m) (c : Call) : Ample L n old (m.logged c) := by
  obtain ⟨new, hlog, hall⟩ := h.calls
  refine ⟨⟨h.whole.lineLength, h.whole.lines, h.whole.live, h.whole.unmapped⟩, h.lines, (c, m.core) :: new, ?_, ?_⟩
  · change (c, m.core) :: m.log = _
    rw [hlog, List.cons_append]
  · intro e he
    rcases List.mem_cons.mp he with rfl | he
    · exact h.lines
    · exact hall e he

/-- A growth doubles the file, or leaves its size. -/
theorem Ample.expand (h : Ample L n old m) (writer : Option Nat) :
    Ample L n old (finalState ((MemoryMap.expand os writer).run m)) := by
  have hwhole : Whole L (finalState ((MemoryMap.expand os writer).run m)) :=
    ((whole_stable os L).expand writer).final h.whole
  have hlogged := h.logged (.expand writer)
  cases hbusy : m.expanding with
  | true =>
      rw [Tabble.run_expand_hang hbusy]
      exact hlogged
  | false =>
      have hlive := h.whole.live hbusy
      have hrun := MemoryMap.run_expand os writer hbusy
      cases hgrows : os.grows m.core.calls (2 * m.core.fileSize) with
      | true =>
          obtain ⟨addr, hgrown, -⟩ := hlive.expandFile_ok hgrows
          rw [hgrown] at hrun
          rw [hrun] at hwhole ⊢
          refine ⟨hwhole, h.lines.trans ?_, hlogged.calls⟩
          change m.core.fileSize / m.core.lineLength ≤ 2 * m.core.fileSize / m.core.lineLength
          exact Nat.div_le_div_right (by omega)
      | false =>
          obtain ⟨e, core, hrefused, -, hbroken⟩ := hlive.expandFile_error hgrows
          rw [hrefused] at hrun
          rw [hrun] at hwhole ⊢
          refine ⟨hwhole, h.lines.trans (le_of_eq ?_), hlogged.calls⟩
          change m.core.fileSize / m.core.lineLength = core.fileSize / core.lineLength
          rw [hbroken.fileSize, hbroken.lineLength]

theorem Ample.put (h : Ample L n old m) (msg : Text) (i off : Nat) (bs : Text) :
    Ample L n old (finalState ((onCore (MemoryMapLinux.writeBytes msg i off bs)).run m)) := by
  have hwhole : Whole L (finalState ((onCore (MemoryMapLinux.writeBytes msg i off bs)).run m)) :=
    ((whole_stable .reliable L).put msg i off bs).final h.whole
  obtain ⟨byte, hbyte⟩ := MemoryMapLinux.writeBytes_final m.core msg i off bs
  cases hrun : (MemoryMapLinux.writeBytes msg i off bs).run m.core with
  | ok a core =>
      rw [hrun, finalState_ok] at hbyte
      rw [run_onCore_ok hrun, hbyte] at hwhole ⊢
      exact ⟨hwhole, h.lines, h.calls⟩
  | error e core =>
      rw [hrun, finalState_error] at hbyte
      rw [run_onCore_error hrun, hbyte] at hwhole ⊢
      exact ⟨hwhole, h.lines, h.calls⟩

theorem ample_stable (os : Os) (L n : Nat) (old : List LogEntry) : Stable os (Ample L n old) where
  logged _ c h := h.logged c
  expand writer _ h := post_of_final (h.expand writer)
  put msg i off bs _ h := post_of_final (h.put msg i off bs)

end Ample
end MemoryMap

section
variable {os : Os} {schema : TabbleInfo} {t : Tabble} {command : Text}

theorem Served.whole (h : Served schema t) : Tabble.Stands schema (MemoryMap.Whole schema.lineLength) t :=
  ⟨h.info, .of_live h.sound.idle (h.sound.lineLength.trans (congrArg _ h.info)) h.sound.live⟩

/-- Whatever the requests of a run do to the rows, the file holds whole lines. -/
theorem Reach.whole {ok : Tabble → Text → Prop} (hreg : schema.Regular) (h : Reach ok os schema t) :
    Tabble.Stands schema (MemoryMap.Whole schema.lineLength) t := by
  induction h with
  | start hopen => exact (openFile_served hreg (.inl rfl) hopen).whole
  | request command _ _ hrun ih =>
      have hkeeps : Keeps (Executor.Holds schema (MemoryMap.Whole schema.lineLength)) (Operator.answer os command) :=
        (keeps_ofExcept _).bind fun query => Operator.keeps_process (MemoryMap.whole_stable os _) query
      rcases (hkeeps ⟨_, {}⟩ ih).settles hrun with ⟨-, hholds⟩ | ⟨-, -, hholds⟩
      · exact hholds
      · exact hholds
  | restart _ hopen ih =>
      rw [ih.1] at hopen
      exact (openFile_served hreg (.inr ih.2.lines) hopen).whole

/-- No call of a request finds fewer lines than there were before it. -/
theorem request_ample {ok : Tabble → Text → Prop} (hreg : schema.Regular) (h : Reach ok os schema t)
    {query : QueryVariant} (hc : compile t.info command = .ok query) :
    MemoryMap.Ample schema.lineLength t.storage.getMaxLines t.storage.log
      (finalState (request os command t)).table.storage := by
  have hstands := h.whole hreg
  have hkeeps : Keeps (Executor.Holds schema
      (MemoryMap.Ample schema.lineLength t.storage.getMaxLines t.storage.log)) (Executor.execute os query) :=
    Executor.keeps_execute (MemoryMap.ample_stable os _ _ _) query
  unfold request
  rw [run_answer hc]
  have hbefore : Executor.Holds schema
      (MemoryMap.Ample schema.lineLength t.storage.getMaxLines t.storage.log) ⟨t, {}⟩ :=
    ⟨hstands.1, hstands.2, le_rfl, [], rfl, fun _ he => absurd he List.not_mem_nil⟩
  exact (hkeeps.final hbefore).2

namespace Executor

/-- The line that is looked up is in the file, and so is every line of a window. -/
def Plan.Fits (plan : Plan) (lines : Nat) : Prop := plan.first < plan.stop → plan.stop ≤ lines

instance (plan : Plan) (lines : Nat) : Decidable (plan.Fits lines) := inferInstanceAs (Decidable (_ → _))

theorem Plan.Fits.line_lt {plan : Plan} {lines : Nat} (h : plan.Fits lines) {c : Call} (hc : plan.Permits c) :
    ∃ i, c.line = some i ∧ i < lines := by
  obtain ⟨i, hi, hfirst, hstop⟩ := hc
  exact ⟨i, hi, lt_of_lt_of_le hstop (h (lt_of_le_of_lt hfirst hstop))⟩

end Executor

/-- The lines a statement asks for are lines of the file. An INSERT asks for none. -/
def QueryVariant.AsksInside (t : Tabble) : QueryVariant → Prop
  | .select query => (Executor.selectPlan query t).Fits t.storage.getMaxLines
  | .erase query => (Executor.changePlan query.toQueryBase 1 t).Fits t.storage.getMaxLines
  | .update query =>
      (Executor.changePlan query.toQueryBase (2 * query.columnsOptimized.length) t).Fits t.storage.getMaxLines
  | .insert _ => True

/-- Whether it looks up an id or scans a window. -/
def QueryVariant.Asks : QueryVariant → Prop
  | .insert _ => False
  | .select _ | .erase _ | .update _ => True

/-- In a run of any requests, each SELECT, DELETE or UPDATE that asks for lines of the file addresses
only lines that the file has at that moment. -/
theorem asked_lines_inside {ok : Tabble → Text → Prop} (hreg : schema.Regular) (h : Reach ok os schema t)
    {query : QueryVariant} (hc : compile t.info command = .ok query) (hasks : query.Asks)
    (hinside : query.AsksInside t) : Tabble.LogsInside t (finalState (request os command t)).table := by
  obtain ⟨new, hlog, hample⟩ := (request_ample hreg h hc).calls
  have hbelow : ∀ e ∈ new, ∃ i, e.1.line = some i ∧ i < t.storage.getMaxLines := by
    have hgrows {P : LogEntry → Prop} {n : Nat}
        (hspent : Grows Executor.log P n ⟨t, {}⟩ (finalState (request os command t))) : ∀ e ∈ new, P e := by
      obtain ⟨new', hlog', -, hall⟩ := hspent
      have hsame : new' ++ t.storage.log = new ++ t.storage.log := hlog'.symm.trans hlog
      rwa [List.append_cancel_right hsame] at hall
    cases query with
    | select query =>
        exact fun e he => hinside.line_lt (hgrows (request_spends hc (Executor.executeSelect_spends query t)) e he).1
    | insert query => exact hasks.elim
    | erase query =>
        exact fun e he => hinside.line_lt (hgrows (request_spends hc (Executor.executeDelete_spends query t)) e he)
    | update query =>
        exact fun e he => hinside.line_lt (hgrows (request_spends hc (Executor.executeUpdate_spends os query t)) e he)
  refine ⟨new, hlog, fun e he => ?_⟩
  obtain ⟨i, hline, hlt⟩ := hbelow e he
  exact callInside_line hline (lt_of_lt_of_le hlt (hample e he))

end

/-- The calls of a log that stayed inside can be checked one after the other. -/
theorem Tabble.LogsInside.all_lt {t t' : Tabble} (h : t.LogsInside t') :
    (t'.storage.log.take (t'.storage.log.length - t.storage.log.length)).all
      (fun e => e.1.line.all fun i => decide (i < e.2.getMaxLine)) = true := by
  obtain ⟨new, hlog, hall⟩ := h
  rw [hlog, List.length_append, Nat.add_sub_cancel, List.take_left, List.all_eq_true]
  intro e he
  cases hline : e.1.line with
  | none => rfl
  | some i => exact decide_eq_true ((hall e he).2 i hline)

/-! The table of one number, with a file of 100 lines. -/

def lookedUp : SelectQuery where
  tabbleName := str "t"
  conditions := [⟨.directIndex, 0, .int64 7⟩]
  rawConditions := [str "id", str "==", str "7"]
  columnsRaw := [str "*"]
  columnsOptimized := [0]

theorem asked_lines_inside_sample : Tabble.LogsInside Tabble.sampleOpened
    (finalState (request .reliable (str "SELECT * FROM t WHERE id == 7") Tabble.sampleOpened)).table :=
  @asked_lines_inside .reliable Tabble.sampleInfo Tabble.sampleOpened _ (fun _ _ => True) sampleInfo_regular
    (sampleOpened_reach _) (.select lookedUp) (by decide +kernel) trivial
    (show (Executor.selectPlan lookedUp Tabble.sampleOpened).Fits Tabble.sampleOpened.storage.getMaxLines by
      decide +kernel)

/-- The line behind the last one is read as any other. -/
theorem line_behind_read : ¬ ∀ (os : Os) (schema : TabbleInfo) (t : Tabble) (command : Text) (query : QueryVariant),
    schema.Regular → Reach (fun _ _ => True) os schema t → compile t.info command = .ok query → query.Asks →
    Tabble.LogsInside t (finalState (request os command t)).table := by
  intro h
  have hcompile : compile Tabble.sampleOpened.info (str "SELECT * FROM t WHERE id == 100") =
      .ok (.select { lookedUp with
        conditions := [⟨.directIndex, 0, .int64 100⟩]
        rawConditions := [str "id", str "==", str "100"] }) := by decide +kernel
  have hinside := h .reliable _ _ _ _ sampleInfo_regular (sampleOpened_reach _) hcompile trivial
  exact absurd hinside.all_lt (by decide +kernel)

end SQLid
