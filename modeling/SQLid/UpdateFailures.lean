import SQLid.Updates

/-!
# UPDATEs that fail half way

A value longer than the rest of its line stops an UPDATE where it stands: the values
before it are in the first line already.
-/
namespace SQLid
open Bytes (Text)
open Programs
open Tabble (Rewritten LogOnly writtenColumns storeValues InLine Advanced Halted)
open Executor (Updated Interrupted UpToLog targetLines)

namespace Tabble
variable {values : List VariantTypes} {picked : List Column}

/-- Every value ends before its line does. -/
def Fitting (lineLength : Nat) (values : List VariantTypes) (picked : List Column) : Prop :=
  ∀ (j : Nat) c v, picked[j]? = some c → values[j]? = some v → c.offset + v.bytes.length ≤ lineLength

theorem writtenColumns_eq_iff {lineLength k : Nat} (hlen : k + picked.length ≤ values.length) :
    writtenColumns lineLength values k picked = picked ↔
      ∀ (j : Nat) c v, picked[j]? = some c → values[k + j]? = some v →
        c.offset + v.bytes.length ≤ lineLength := by
  induction picked generalizing k with
  | nil => simp [writtenColumns]
  | cons c picked ih =>
    rw [List.length_cons] at hlen
    have hk : k < values.length := by omega
    have hv := List.getElem?_eq_getElem hk
    have hget : values.getD k (.bool false) = values[k] := by
      rw [List.getD_eq_getElem?_getD, hv, Option.getD_some]
    have hrest := ih (k := k + 1) (by omega)
    unfold writtenColumns
    rw [hget]
    by_cases hend : c.offset + values[k].bytes.length ≤ lineLength
    · rw [if_pos hend, List.cons.injEq, hrest]
      constructor
      · rintro ⟨-, h⟩ j d v hd hjv
        cases j with
        | zero =>
            cases hd
            rw [Nat.add_zero, hv] at hjv
            cases hjv
            exact hend
        | succ j => exact h j d v hd (by rw [← hjv]; congr 1; omega)
      · intro h
        refine ⟨rfl, fun j d v hd hjv => h (j + 1) d v hd ?_⟩
        rw [← hjv]
        congr 1
        omega
    · rw [if_neg hend]
      constructor
      · intro h
        cases h
      · intro h
        exact absurd (h 0 c values[k] rfl hv) hend

theorem fitting_iff {lineLength : Nat} (hlen : picked.length ≤ values.length) :
    Fitting lineLength values picked ↔ writtenColumns lineLength values 0 picked = picked := by
  rw [writtenColumns_eq_iff (by omega)]
  unfold Fitting
  simp only [Nat.zero_add]

/-- Line `i` of `t'` holds the values, each of them whole. -/
structure Written (values : List VariantTypes) (picked : List Column) (t : Tabble) (i : Nat)
    (t' : Tabble) : Prop where
  fitting : Fitting t.info.lineLength values picked
  stored : ∀ k, InLine t.info.lineLength i k →
    t'.byte k = storeValues t.byte (i * t.info.lineLength) values 0 picked k

/-- The values before the first one that is too long are in the line already. -/
def Repeats (values : List VariantTypes) (picked : List Column) (t : Tabble) (i : Nat) : Prop :=
  ∀ k, InLine t.info.lineLength i k →
    storeValues t.byte (i * t.info.lineLength) values 0
      (writtenColumns t.info.lineLength values 0 picked) k = t.byte k

theorem byte_logOnly {t t' : Tabble} (h : LogOnly t t') : t'.byte = t.byte := by
  obtain ⟨l, rfl⟩ := h
  rfl

theorem file_eq {P : Nat → Prop} {t t' : Tabble} (h : Touches P t t')
    (hb : ∀ k, P k → t'.byte k = t.byte k) : t'.storage.core.file = t.storage.core.file := by
  have hbyte : t'.byte = t.byte := by
    funext k
    by_cases hk : P k
    · exact hb k hk
    · exact h.byte hk
  obtain ⟨b, hcore, -⟩ := h.core
  rw [Tabble.byte, hcore] at hbyte
  rw [hcore]
  exact congrArg (ByteFile.mk _) hbyte

end Tabble

/-- An UPDATE has written every line it is aimed at, or failed with the file as it was. -/
def AllOrNothing (t : Tabble) (query : UpdateQuery) (r : EStateM.Result Fault Execution Unit) : Prop :=
  (∀ i ∈ targetLines t query.conditions query.limit,
      Tabble.Written query.values (t.info.pick query.columnsOptimized) t i (finalState r).table) ∨
    (isOk r = false ∧ (finalState r).table.storage.core.file = t.storage.core.file)

/-- There is no line to write, every value fits, or what the first line gets before the value
that does not fit is what it holds. -/
def Harmless (t : Tabble) (query : UpdateQuery) : Prop :=
  ∀ i ∈ (targetLines t query.conditions query.limit).head?,
    Tabble.Fitting t.info.lineLength query.values (t.info.pick query.columnsOptimized) ∨
      Tabble.Repeats query.values (t.info.pick query.columnsOptimized) t i

section
variable {os : Os} {t : Tabble} {query : UpdateQuery}

theorem Updated.allOrNothing {s : Execution}
    (hlen : (t.info.pick query.columnsOptimized).length ≤ query.values.length)
    (h : UpToLog (Advanced query.values (t.info.pick query.columnsOptimized) t
      (targetLines t query.conditions query.limit)) s.table) :
    (∀ i ∈ targetLines t query.conditions query.limit,
      Tabble.Written query.values (t.info.pick query.columnsOptimized) t i s.table) ∧
      Harmless t query := by
  obtain ⟨t', hadvanced, hlog⟩ := h
  have hbyte := Tabble.byte_logOnly hlog
  rcases hadvanced.whole with hnone | hwhole
  · unfold Harmless
    rw [hnone]
    exact ⟨List.forall_mem_nil _, nofun⟩
  · have hfit := (Tabble.fitting_iff hlen).mpr hwhole
    refine ⟨fun i hi => ⟨hfit, fun k hk => ?_⟩, fun i _ => .inl hfit⟩
    rw [hbyte]
    exact hadvanced.rewritten.stored i hi k hk

theorem Halted.allOrNothing {r : EStateM.Result Fault Execution Unit}
    (hlen : (t.info.pick query.columnsOptimized).length ≤ query.values.length)
    (hfail : isOk r = false)
    (h : Halted query.values (t.info.pick query.columnsOptimized) t
      (targetLines t query.conditions query.limit) (finalState r).table) :
    AllOrNothing t query r ↔ Harmless t query := by
  obtain ⟨i, rest, hlines, hrewritten⟩ := h.first
  have hnot : ¬ Tabble.Fitting t.info.lineLength query.values (t.info.pick query.columnsOptimized) := by
    rw [Tabble.fitting_iff hlen]
    exact h.partly
  unfold AllOrNothing Harmless
  rw [hlines]
  constructor
  · rintro (hall | ⟨-, hfile⟩)
    · exact absurd (hall i List.mem_cons_self).fitting hnot
    · intro j hj
      obtain rfl : i = j := by simpa using hj
      refine .inr fun k hk => ?_
      rw [← hrewritten.stored i List.mem_cons_self k hk]
      exact congrFun (congrArg ByteFile.byte hfile) k
  · intro hharm
    refine .inr ⟨hfail, ?_⟩
    have hrepeats := (hharm i rfl).resolve_left hnot
    apply Tabble.file_eq hrewritten.touches
    rintro k ⟨j, hj, hin⟩
    obtain rfl := List.mem_singleton.mp hj
    rw [hrewritten.stored j List.mem_cons_self k hin]
    exact hrepeats k hin

end

/-- On every state an orderly run reaches, an orderly UPDATE is all or nothing exactly if it
is harmless. -/
theorem update_all_or_nothing {os : Os} {schema : TabbleInfo} (hreg : schema.Regular) {t : Tabble}
    (h : Reach Orderly os schema t) {command : Text} (ho : Orderly t command) {query : UpdateQuery}
    (hc : compile t.info command = .ok (.update query)) :
    AllOrNothing t query (request os command t) ↔ Harmless t query := by
  have hs := h.served hreg ho.idle
  obtain ⟨raw, hprepared⟩ := compile_update hc
  obtain ⟨-, hpick⟩ := hprepared.set.columnsAt
  have hlen : (t.info.pick query.columnsOptimized).length ≤ query.values.length := by
    rw [hpick, hprepared.set.length]
  have hfill : ∀ c ∈ t.info.columns, 0 < c.size := by
    rw [hs.info]
    exact hreg.filled
  have hpost := Executor.executeUpdate_outcome hs.sound.toMapped hfill os hprepared
    (ho.aimed _ _ hc rfl) { isSucces := true } rfl
  rw [request_update hc]
  cases hrun : (Executor.executeUpdate os query).run ⟨t, { isSucces := true }⟩ with
  | ok _ s =>
      rw [hrun] at hpost
      cases hpost with
      | ok hdone =>
          obtain ⟨hall, hharm⟩ := Updated.allOrNothing hlen hdone.1
          exact iff_of_true (.inl hall) hharm
  | error e s =>
      rw [hrun] at hpost
      cases hpost with
      | error hfailed =>
          rcases hfailed with hhalt | ⟨-, hdone⟩ | ⟨hmax, -⟩
          · exact Halted.allOrNothing hlen rfl hhalt
          · obtain ⟨hall, hharm⟩ := Updated.allOrNothing hlen hdone
            exact iff_of_true (.inl hall) hharm
          · have := hs.places_lt
            unfold Executor.maxBody at hmax
            omega

/-! The table of two texts, with one row. -/

theorem textsInfo_regular : Tabble.textsInfo.Regular :=
  ⟨⟨rfl, by decide, ⟨rfl, rfl, trivial⟩, by decide, by decide⟩, by decide, by decide⟩

def textsOpened : Tabble := finalState (Tabble.openFile .reliable Tabble.textsInfo .empty 0)

def textsFilled : Tabble :=
  (finalState (request .reliable (CppText.str "INSERT INTO t abc def") textsOpened)).table

theorem textsFilled_reach {ok : Tabble → Text → Prop}
    (h : ok textsOpened (CppText.str "INSERT INTO t abc def")) :
    Reach ok .reliable Tabble.textsInfo textsFilled := by
  have hempty : Tabble.openFile .reliable Tabble.textsInfo .empty 0 = .ok () textsOpened :=
    eq_ok_of_isOk (by decide +kernel)
  have hopen : Reach ok .reliable Tabble.textsInfo textsOpened := .start hempty
  exact .request _ hopen h (settles_of_isOk (by decide +kernel))

/-- The query of an UPDATE of that table. -/
def textsUpdate (command : String) : Option UpdateQuery :=
  match compile Tabble.textsInfo (CppText.str command) with
  | .ok (.update query) => some query
  | _ => none

theorem textsUpdate_compile {command : String} {query : UpdateQuery}
    (h : textsUpdate command = some query) :
    compile Tabble.textsInfo (CppText.str command) = .ok (.update query) := by
  unfold textsUpdate at h
  split at h
  · next hc =>
    cases h
    exact hc
  · cases h

theorem textsFilled_orderly : Reach Orderly .reliable Tabble.textsInfo textsFilled :=
  textsFilled_reach (orderly_of_undirected (by decide +kernel) (by decide +kernel))

theorem textsFilled_info : textsFilled.info = Tabble.textsInfo := by decide +kernel

/-- Both values fit, and the row gets them. -/
theorem update_all_or_nothing_sample : ∃ query, textsUpdate "UPDATE t SET b = xyz a = tool" = some query ∧
    AllOrNothing textsFilled query
      (request .reliable (CppText.str "UPDATE t SET b = xyz a = tool") textsFilled) := by
  obtain ⟨query, hquery⟩ := Option.isSome_iff_exists.mp
    (by decide +kernel : (textsUpdate "UPDATE t SET b = xyz a = tool").isSome = true)
  have hfacts : ∀ q ∈ textsUpdate "UPDATE t SET b = xyz a = tool",
      (textsFilled.info.pick q.columnsOptimized).length ≤ q.values.length ∧
        writtenColumns textsFilled.info.lineLength q.values 0
          (textsFilled.info.pick q.columnsOptimized) = textsFilled.info.pick q.columnsOptimized := by
    decide +kernel
  obtain ⟨hlen, hall⟩ := hfacts query hquery
  have horderly : Orderly textsFilled (CppText.str "UPDATE t SET b = xyz a = tool") :=
    orderly_of_undirected (by decide +kernel) (by decide +kernel)
  refine ⟨query, hquery, (update_all_or_nothing textsInfo_regular textsFilled_orderly horderly
    (by rw [textsFilled_info]; exact textsUpdate_compile hquery)).mpr fun i _ => .inl ?_⟩
  exact (Tabble.fitting_iff hlen).mpr hall

/-- `b` has been written when the value for `a` turns out too long. -/
theorem update_half_written : ¬ ∀ (os : Os) (schema : TabbleInfo) (t : Tabble) (command : Text)
    (query : UpdateQuery), schema.Regular → Reach (fun _ _ => True) os schema t →
    compile t.info command = .ok (.update query) → AllOrNothing t query (request os command t) := by
  intro h
  obtain ⟨query, hquery⟩ := Option.isSome_iff_exists.mp
    (by decide +kernel : (textsUpdate "UPDATE t SET b = xyz a = toolong").isSome = true)
  have hfacts : ∀ q ∈ textsUpdate "UPDATE t SET b = xyz a = toolong",
      0 ∈ targetLines textsFilled q.conditions q.limit ∧
        (textsFilled.info.pick q.columnsOptimized).length ≤ q.values.length ∧
        writtenColumns textsFilled.info.lineLength q.values 0
          (textsFilled.info.pick q.columnsOptimized) ≠ textsFilled.info.pick q.columnsOptimized := by
    decide +kernel
  obtain ⟨hline, hlen, hpart⟩ := hfacts query hquery
  rcases h .reliable Tabble.textsInfo textsFilled _ query textsInfo_regular (textsFilled_reach trivial)
    (by rw [textsFilled_info]; exact textsUpdate_compile hquery) with hall | ⟨-, hfile⟩
  · exact hpart ((Tabble.fitting_iff hlen).mp (hall 0 hline).fitting)
  · have hbyte := congrFun (congrArg ByteFile.byte hfile) 4
    exact absurd hbyte (by decide +kernel)

end SQLid
