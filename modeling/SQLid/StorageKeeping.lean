import SQLid.Library.Keeping
import SQLid.StorageSteps

/-!
# What no request breaks

A property of the storage of a table that each call on it keeps is kept by every request,
whatever it asks for and however it ends. One such property is that the file holds whole
lines, which is all that opening it again takes.
-/
namespace SQLid
open Bytes (Text)
open CppText (str)
open Programs

/-- Storing changes bytes of the file and nothing else. -/
theorem MemoryMapLinux.writeBytes_final (m : MemoryMapLinux) (msg : Text) (i off : Nat) (bs : Text) :
    ∃ byte, finalState ((writeBytes msg i off bs).run m) = m.withByte byte := by
  by_cases hlong : sizeSub m.lineLength off < bs.length
  · refine ⟨m.file.byte, ?_⟩
    unfold writeBytes
    rw [run_bind_ok (EStateM.run_get m), if_pos hlong]
    rfl
  · unfold writeBytes
    rw [run_bind_ok (EStateM.run_get m), if_neg hlong]
    dsimp only
    unfold store
    rw [run_bind_ok (EStateM.run_get m)]
    cases m.lineStart i off with
    | none =>
        refine ⟨m.file.byte, ?_⟩
        dsimp only
        split_ifs <;> rfl
    | some a =>
        dsimp only
        split_ifs
        · exact ⟨m.file.byte, rfl⟩
        · exact ⟨_, rfl⟩
        · exact ⟨m.file.byte, rfl⟩

namespace MemoryMap

/-- A property of the storage that no call on it breaks, with any arguments. -/
structure Stable (os : Os) (P : MemoryMap → Prop) : Prop where
  logged : ∀ m c, P m → P (m.logged c)
  expand : ∀ writer, Keeps P (expand os writer)
  put : ∀ msg i off bs, Keeps P (onCore (MemoryMapLinux.writeBytes msg i off bs))

section Stable
variable {os : Os} {P : MemoryMap → Prop} (h : Stable os P)
include h

theorem Stable.record (c : Call) : Keeps P (record c) := keeps_modify fun m hm => h.logged m c hm

theorem Stable.isActive (i : Nat) : Keeps P (isActive i) :=
  (h.record _).bind fun _ => keeps_get fun _ _ => (keeps_ofExcept _).bind fun _ => keeps_pure _

theorem Stable.readNumber (i off size : Nat) : Keeps P (readNumber i off size) :=
  (h.record _).bind fun _ => keeps_get fun _ _ => keeps_ofExcept _

theorem Stable.readText (i off size : Nat) : Keeps P (readText i off size) :=
  (h.record _).bind fun _ => keeps_get fun _ _ => keeps_ofExcept _

theorem Stable.writeFlag (c : Call) (i : Nat) (b : Bool) : Keeps P (writeFlag c i b) :=
  (h.record c).bind fun _ => h.put _ i 0 _

theorem Stable.write (c : Call) (msg : Text) (i off : Nat) (bs : Text) :
    Keeps P (write os c i (MemoryMapLinux.writeBytes msg i off bs)) := by
  refine (h.record c).bind fun _ => keeps_get fun m _ => ?_
  exact keeps_ite ((h.expand _).bind fun _ => h.put msg i off bs) (h.put msg i off bs)

theorem Stable.writeInfo (i off : Nat) (v : VariantTypes) : Keeps P (writeInfo os i off v) := by
  rw [Tabble.writeInfo_eq]
  exact h.write _ _ i off _

end Stable

/-- The file holds whole lines, and is mapped as long as no growth has been refused. -/
structure Whole (L : Nat) (m : MemoryMap) : Prop where
  lineLength : m.core.lineLength = L
  lines : MemoryMapLinux.Lines m.core.file L
  live : m.expanding = false → m.core.Live
  unmapped : m.expanding = true → m.core.mapped = 0

section Whole
variable {os : Os} {L : Nat} {m : MemoryMap}

theorem Whole.of_live (hidle : m.expanding = false) (hlength : m.core.lineLength = L) (hlive : m.core.Live) :
    Whole L m := by
  refine ⟨hlength, ?_, fun _ => hlive, fun h => ?_⟩
  · rw [← hlength]
    exact hlive.fileLines
  · rw [hidle] at h
    cases h

theorem Whole.expand (h : Whole L m) (writer : Option Nat) :
    Post (fun _ => Whole L) (fun _ => Whole L) ((MemoryMap.expand os writer).run m) := by
  cases hbusy : m.expanding with
  | true =>
      rw [Tabble.run_expand_hang hbusy]
      exact .error ⟨h.lineLength, h.lines, h.live, h.unmapped⟩
  | false =>
      have hlive := h.live hbusy
      have hrun := MemoryMap.run_expand os writer hbusy
      cases hgrows : os.grows m.core.calls (2 * m.core.fileSize) with
      | true =>
          obtain ⟨addr, hgrown, hlive'⟩ := hlive.expandFile_ok hgrows
          rw [hgrown] at hrun
          rw [hrun]
          exact .ok (.of_live hbusy h.lineLength hlive')
      | false =>
          obtain ⟨e, core, hrefused, -, hbroken⟩ := hlive.expandFile_error hgrows
          have haddress := hlive.address_pos
          have hnone := MemoryMapLinux.expandFile_error_mapped hrefused (by omega)
          rw [hrefused] at hrun
          rw [hrun]
          refine .error ⟨hbroken.lineLength.trans h.lineLength, ?_, fun hidle => ?_, fun _ => hnone⟩
          · rw [← h.lineLength]
            exact hbroken.lines
          · cases hidle

theorem Whole.put (h : Whole L m) (msg : Text) (i off : Nat) (bs : Text) :
    Post (fun _ => Whole L) (fun _ => Whole L) ((onCore (MemoryMapLinux.writeBytes msg i off bs)).run m) := by
  apply post_of_final
  cases hbusy : m.expanding with
  | true =>
      have hunmapped := MemoryMapLinux.writeBytes_unmapped (h.unmapped hbusy) msg i off bs
      rcases hunmapped with ⟨-, hrun⟩ | ⟨e, hrun⟩
      · rw [run_onCore_ok hrun]
        exact h
      · rw [run_onCore_error hrun]
        exact h
  | false =>
      have hlive := h.live hbusy
      have hwhole (byte : Nat → UInt8) : Whole L (m.withCore (m.core.withByte byte)) :=
        .of_live hbusy h.lineLength (hlive.withByte byte)
      obtain ⟨byte, hbyte⟩ := MemoryMapLinux.writeBytes_final m.core msg i off bs
      cases hrun : (MemoryMapLinux.writeBytes msg i off bs).run m.core with
      | ok a core =>
          rw [hrun, finalState_ok] at hbyte
          rw [run_onCore_ok hrun, hbyte]
          exact hwhole byte
      | error e core =>
          rw [hrun, finalState_error] at hbyte
          rw [run_onCore_error hrun, hbyte]
          exact hwhole byte

theorem whole_stable (os : Os) (L : Nat) : Stable os (Whole L) where
  logged _ _ h := ⟨h.lineLength, h.lines, h.live, h.unmapped⟩
  expand writer _ h := h.expand writer
  put msg i off bs _ h := h.put msg i off bs

end Whole
end MemoryMap

namespace Tabble

/-- The schema of a table, and what is known of its storage. -/
def Stands (schema : TabbleInfo) (P : MemoryMap → Prop) (t : Tabble) : Prop :=
  t.info = schema ∧ P t.storage

section Stands
variable {os : Os} {P : MemoryMap → Prop} {schema : TabbleInfo} (h : MemoryMap.Stable os P)

theorem keeps_onStorage {α : Type} {x : EStateM Fault MemoryMap α} (hx : Keeps P x) :
    Keeps (Stands schema P) (onStorage x) :=
  hx.zoom (fun _ ht => ht.2) fun _ _ ht hm => ⟨ht.1, hm⟩

theorem keeps_change {f : Tabble → Tabble} (hinfo : ∀ t, (f t).info = t.info)
    (hstorage : ∀ t, (f t).storage = t.storage) : Keeps (Stands schema P) (modify f : EStateM Fault Tabble PUnit) :=
  keeps_modify fun t ht => ⟨(hinfo t).trans ht.1, (hstorage t).symm ▸ ht.2⟩

include h

theorem keeps_readColumn (i : Nat) (column : Column) : Keeps (Stands schema P) (readColumn i column) := by
  unfold readColumn
  split_ifs
  · apply Keeps.map
    unfold readText
    exact keeps_ite (keeps_onStorage (h.readText i _ _)) (keeps_onStorage (h.readText i _ _))
  · cases column.type with
    | voida | text | string => exact keeps_throw _
    | int32 | int64 | double | float | bool =>
        exact (keeps_onStorage (h.readNumber i _ _)).bind fun _ => keeps_ofExcept _

theorem keeps_updateFrom (values : List VariantTypes) (i : Nat) (columns : List Column) (k : Nat) :
    Keeps (Stands schema P) (updateFrom os values i k columns) := by
  induction columns generalizing k with
  | nil => exact keeps_pure _
  | cons column columns ih =>
      unfold updateFrom
      cases values[k]? with
      | none => exact keeps_throw _
      | some value => exact (keeps_onStorage (h.writeInfo i _ value)).bind fun _ => ih (k + 1)

theorem keeps_update (values : List VariantTypes) (columns : List Column) (i k : Nat) :
    Keeps (Stands schema P) (update os values columns i k) := by
  unfold update note
  exact Keeps.bind (keeps_change (fun _ => rfl) fun _ => rfl) fun _ => keeps_updateFrom h values i columns k

theorem keeps_erase (i : Nat) : Keeps (Stands schema P) (erase i) := by
  unfold erase note pushInStack
  refine Keeps.bind (keeps_change (fun _ => rfl) fun _ => rfl) fun _ => ?_
  refine (keeps_onStorage (h.writeFlag _ i false)).bind fun _ => ?_
  refine Keeps.bind (keeps_change (fun _ => rfl) fun _ => rfl) fun _ => ?_
  exact Keeps.bind (keeps_change (fun _ => rfl) fun _ => rfl) fun _ => keeps_pure _

theorem keeps_allocateId : Keeps (Stands schema P) (allocateId os) := by
  have hcount (cur : Nat) : Keeps (Stands schema P) (do
      modify fun t => { t with activePlaces := sizeAdd t.activePlaces 1 }
      modify fun t => { t with freeId := sizeAdd t.freeId 1 }
      return cur : EStateM Fault Tabble Nat) := by
    refine Keeps.bind (keeps_change (fun _ => rfl) fun _ => rfl) fun _ => ?_
    exact Keeps.bind (keeps_change (fun _ => rfl) fun _ => rfl) fun _ => keeps_pure _
  refine keeps_get fun t ht => ?_
  cases t.stackFreeId with
  | cons id rest =>
      have hpop : Keeps (Stands schema P) (do
          set { t with stackFreeId := rest }
          return id : EStateM Fault Tabble Nat) := fun _ _ => .ok ht
      exact hpop
  | nil => exact keeps_ite ((keeps_onStorage (h.expand none)).bind fun _ => hcount _) (hcount _)

theorem keeps_insert (values : List VariantTypes) (columns : List Column) (index : Nat) :
    Keeps (Stands schema P) (insert os values columns index) := by
  unfold insert note
  refine (keeps_allocateId h).bind fun cur => ?_
  refine Keeps.bind (keeps_change (fun _ => rfl) fun _ => rfl) fun _ => ?_
  refine (keeps_onStorage (h.writeFlag _ cur true)).bind fun _ => ?_
  refine (keeps_update h values columns cur index).bind fun _ => ?_
  exact Keeps.bind (keeps_change (fun _ => rfl) fun _ => rfl) fun _ => keeps_pure _

end Stands
end Tabble

namespace Executor
open Tabble (Stands)
section Stands
variable {os : Os} {P : MemoryMap → Prop} {schema : TabbleInfo} (h : MemoryMap.Stable os P)

abbrev Holds (schema : TabbleInfo) (P : MemoryMap → Prop) (s : Execution) : Prop := Stands schema P s.table

theorem keeps_onTable {α : Type} {x : EStateM Fault Tabble α} (hx : Keeps (Stands schema P) x) :
    Keeps (Holds schema P) (onTable x) :=
  hx.zoom (fun _ hs => hs) fun _ _ _ ht => ht

theorem keeps_onResult (f : Result → Result) : Keeps (Holds schema P) (onResult f) :=
  keeps_modify fun _ hs => hs

theorem keeps_activeCount (limit : Nat) : Keeps (Holds schema P) (activeCount limit) :=
  keeps_get fun _ _ => keeps_pure _

theorem keeps_reserveBody (n : Nat) : Keeps (Holds schema P) (reserveBody n) :=
  keeps_ite (keeps_throw _) (keeps_pure _)

include h

theorem keeps_satisfiesFrom (i : Nat) (columns : List Column) (current : Bool) (logic : ConditionType)
    (conds : List Condition) : Keeps (Stands schema P) (satisfiesFrom i columns current logic conds) := by
  induction conds generalizing current logic with
  | nil => exact keeps_pure _
  | cons cond conds ih =>
      unfold satisfiesFrom
      by_cases hskip : cond.collumnId = sizeMax
      · rw [if_pos hskip]
        exact ih current cond.condType
      · rw [if_neg hskip]
        cases columns[cond.collumnId]? with
        | none => exact keeps_throw _
        | some column =>
            refine (Tabble.keeps_readColumn h i column).bind fun value => ?_
            exact (keeps_ofExcept _).bind fun met => ih _ logic

theorem keeps_selects (conds : List Condition) (columns : List Column) (i : Nat) :
    Keeps (Stands schema P) (selects conds columns i) := by
  refine (Tabble.keeps_onStorage (h.isActive i)).bind fun active => ?_
  refine keeps_ite (keeps_ite (keeps_pure _) ?_) (keeps_pure _)
  exact keeps_satisfiesFrom h i columns _ _ conds

theorem keeps_readColumns (i : Nat) (columns : List Column) (ids : List Nat) :
    Keeps (Stands schema P) (readColumns i columns ids) := by
  induction ids with
  | nil => exact keeps_pure _
  | cons id ids ih =>
      unfold readColumns
      cases columns[id]? with
      | none => exact keeps_throw _
      | some column =>
          exact (Tabble.keeps_readColumn h i column).bind fun value => ih.bind fun _ => keeps_pure _

theorem keeps_readRecord (i : Nat) (ids : List Nat) (columns : List Column) :
    Keeps (Stands schema P) (readRecord i ids columns) :=
  (keeps_readColumns h i columns ids).bind fun _ => keeps_pure _

theorem keeps_scanLines (conds : List Condition) (columns : List Column) (count : Nat)
    {act : Nat → EStateM Fault Execution Unit} (hact : ∀ i, Keeps (Holds schema P) (act i)) (n i : Nat) :
    Keeps (Holds schema P) (scanLines conds columns count act n i) :=
  Scan.keeps_loop (fun i => keeps_onTable (keeps_selects h conds columns i)) hact n i

theorem keeps_executeSelect (query : SelectQuery) : Keeps (Holds schema P) (executeSelect query) := by
  unfold executeSelect
  refine (keeps_onResult _).bind fun _ => keeps_get fun s _ => (keeps_ofExcept _).bind fun header => ?_
  refine (keeps_onResult _).bind fun _ => ?_
  have hrow (i : Nat) : Keeps (Holds schema P)
      (do pushRow (← onTable (readRecord i query.columnsOptimized s.table.info.columns))) :=
    (keeps_onTable (keeps_readRecord h i _ _)).bind fun _ => keeps_onResult _
  cases directIndex query.conditions with
  | some desired => exact (keeps_ofExcept _).bind fun line => hrow line.toNat
  | none =>
      refine keeps_get fun s' _ => (keeps_ofExcept _).bind fun bounds => ?_
      refine (keeps_activeCount _).bind fun count => (keeps_reserveBody _).bind fun _ => ?_
      refine (keeps_scanLines h _ _ count hrow _ _).bind fun _ => ?_
      exact keeps_ite (keeps_onResult _) (keeps_pure _)

theorem keeps_insertFrom (values : List VariantTypes) (columns : List Column) (n i : Nat) :
    Keeps (Holds schema P) (insertFrom os values columns n i) := by
  induction n generalizing i with
  | zero => exact keeps_pure _
  | succ n ih =>
      unfold insertFrom
      refine keeps_ite ?_ (keeps_pure _)
      refine (keeps_onTable (Tabble.keeps_insert h values columns i)).bind fun line => ?_
      exact (keeps_onResult _).bind fun _ => ih _

theorem keeps_executeInsert (query : InsertQuery) : Keeps (Holds schema P) (executeInsert os query) := by
  unfold executeInsert
  refine (keeps_onResult _).bind fun _ => keeps_get fun s _ => ?_
  refine Keeps.tryCatch ((keeps_insertFrom h _ _ _ _).bind fun _ => keeps_onResult _) fun e => ?_
  exact keeps_ite (keeps_onResult _) (keeps_throw _)

theorem keeps_executeDelete (query : DeleteQuery) : Keeps (Holds schema P) (executeDelete query) := by
  unfold executeDelete
  refine (keeps_onResult _).bind fun _ => keeps_get fun s _ => ?_
  cases directIndex query.conditions with
  | some desired =>
      refine (keeps_ofExcept _).bind fun line => ?_
      refine (keeps_onTable (Tabble.keeps_onStorage (h.isActive _))).bind fun active => ?_
      refine keeps_ite ?_ (keeps_onResult _)
      refine (keeps_onTable (Tabble.keeps_erase h _)).bind fun _ => ?_
      exact (keeps_onResult _).bind fun _ => keeps_onResult _
  | none =>
      refine keeps_get fun s' _ => (keeps_ofExcept _).bind fun maxLine => ?_
      refine (keeps_activeCount _).bind fun count => (keeps_reserveBody _).bind fun _ => ?_
      refine (keeps_scanLines h _ _ count (fun i => ?_) _ _).bind fun _ => keeps_onResult _
      exact (keeps_onTable (Tabble.keeps_erase h i)).bind fun _ => keeps_onResult _

theorem keeps_executeUpdate (query : UpdateQuery) : Keeps (Holds schema P) (executeUpdate os query) := by
  unfold executeUpdate
  refine (keeps_onResult _).bind fun _ => keeps_get fun s _ => (keeps_ofExcept _).bind fun picked => ?_
  cases directIndex query.conditions with
  | some desired =>
      refine (keeps_ofExcept _).bind fun line => ?_
      refine (keeps_onTable (Tabble.keeps_onStorage (h.isActive _))).bind fun active => ?_
      refine keeps_ite ?_ (keeps_pure _)
      refine (keeps_onTable (Tabble.keeps_update h _ _ _ _)).bind fun _ => ?_
      exact (keeps_onResult _).bind fun _ => keeps_onResult _
  | none =>
      refine keeps_get fun s' _ => (keeps_ofExcept _).bind fun maxLine => ?_
      refine (keeps_activeCount _).bind fun count => (keeps_reserveBody _).bind fun _ => ?_
      refine keeps_scanLines h _ _ count (fun i => ?_) _ _
      exact (keeps_onTable (Tabble.keeps_update h _ _ i _)).bind fun _ => keeps_onResult _

theorem keeps_execute (query : QueryVariant) : Keeps (Holds schema P) (execute os query) := by
  refine (keeps_onResult _).bind fun _ => ?_
  cases query with
  | select query => exact keeps_executeSelect h query
  | insert query => exact keeps_executeInsert h query
  | erase query => exact keeps_executeDelete h query
  | update query => exact keeps_executeUpdate h query

end Stands
end Executor

namespace Operator

theorem keeps_process {os : Os} {P : MemoryMap → Prop} {schema : TabbleInfo} (h : MemoryMap.Stable os P)
    (query : QueryVariant) : Keeps (Executor.Holds schema P) (process os query) :=
  keeps_get fun _ _ => (keeps_ofExcept _).bind fun query => Executor.keeps_execute h query

/-- One table has been worked on, and keeps what no call on its storage breaks. -/
def Worked (os : Os) (base base' : DataBase) : Prop :=
  ∃ name id t t', base.tabblesName.lookup name = some id ∧ base.tabbles[id]? = some t ∧
    base' = { base with tabbles := base.tabbles.set id t' } ∧
    ∀ P schema, MemoryMap.Stable os P → Tabble.Stands schema P t → Tabble.Stands schema P t'

theorem onTabble_worked (os : Os) (query : QueryVariant) {s : Serving} {name : Text} {id : Nat}
    (hid : s.base.tabblesName.lookup name = some id) :
    (finalState ((onTabble id (process os query)).run s)).base = s.base ∨
      Worked os s.base (finalState ((onTabble id (process os query)).run s)).base := by
  unfold onTabble
  rw [run_bind_ok (EStateM.run_get s)]
  cases htable : s.base.tabbles[id]? with
  | none => exact .inl rfl
  | some t =>
      have hstands (P : MemoryMap → Prop) (schema : TabbleInfo) (h : MemoryMap.Stable os P)
          (ht : Tabble.Stands schema P t) := (keeps_process h query).final (s := ⟨t, s.result⟩) ht
      right
      rw [run_zoom]
      cases hrun : (process os query).run ⟨t, s.result⟩ with
      | ok a e =>
          rw [hrun] at hstands
          exact ⟨name, id, t, e.table, hid, htable, rfl, hstands⟩
      | error err e =>
          rw [hrun] at hstands
          exact ⟨name, id, t, e.table, hid, htable, rfl, hstands⟩

theorem attempt_worked (os : Os) (command : Text) (s : Serving) :
    (finalState ((attempt os command).run s)).base = s.base ∨
      Worked os s.base (finalState ((attempt os command).run s)).base := by
  unfold attempt
  cases RequestParser.parse command with
  | error e => exact .inl rfl
  | ok query =>
      rw [run_bind_ok (run_ofExcept_ok query s), run_bind_ok (EStateM.run_get s)]
      unfold DataBase.getTabbleId
      cases hid : s.base.tabblesName.lookup query.base.tabbleName with
      | none => exact .inl rfl
      | some id => exact onTabble_worked os query hid

/-- A request works on one table of the database or on none, whatever it is and however it
ends. -/
theorem execute_worked (os : Os) (command : Text) (base : DataBase) :
    finalState ((execute os command).run base) = base ∨
      Worked os base (finalState ((execute os command).run base)) := by
  have hworked := attempt_worked os command ⟨base, {}⟩
  change finalState (execute os command base) = base ∨ Worked os base (finalState (execute os command base))
  unfold execute
  cases hrun : (attempt os command).run ⟨base, {}⟩ with
  | ok a s =>
      rw [hrun] at hworked
      exact hworked
  | error e s =>
      rw [hrun] at hworked
      dsimp only
      split_ifs <;> exact hworked

end Operator
end SQLid
