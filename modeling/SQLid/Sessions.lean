import SQLid.Registry

/-!
# Sessions

What one message leaves of the registry and of the clients, and what holds of every
run of messages: which database a slot and a session stand for.
-/
namespace SQLid
open Bytes (Text)
open CppText (str)
open Programs

variable {δ : Type} (fs : FileSystem δ) (os : Os)

namespace CommandsExecutor

/-- What a command does to the system. -/
def onRegistry : CommandsVariant → EStateM Fault (System δ) Unit
  | .createDatabase databaseName => System.createDataBase fs os databaseName
  | .createTableForDatabase stream => System.createTable fs os stream
  | .backupDatabase base backup => System.backUpDatabase fs base backup
  | .restoreDatabase backup base => System.restoreDatabase fs os backup base
  | .dropDatabase base => (fun _ => ()) <$> System.deleteDatabase fs base
  | .attach _ | .showStructure | .help => pure ()

/-- What a command does to the client. -/
def attached (sys : System δ) (client : ClientInfo) : CommandsVariant → ClientInfo
  | .attach databaseName =>
      match sys.nameBase.lookup databaseName with
      | some id => { client with baseId := id, joinedToDataBase := true }
      | none => client
  | _ => client

section attached
variable {sys : System δ} {client : ClientInfo} {name : Text}

theorem attached_none (h : sys.nameBase.lookup name = none) :
    attached sys client (.attach name) = client := by
  simp only [attached, h]

theorem attached_some {id : Nat} (h : sys.nameBase.lookup name = some id) :
    attached sys client (.attach name) = { client with baseId := id, joinedToDataBase := true } := by
  simp only [attached, h]

end attached

theorem finalState_onSystem {α : Type} (x : EStateM Fault (System δ) α)
    (k : α → EStateM Fault (Commanding δ) Unit) (c : Commanding δ)
    (hk : ∀ a c, ∃ r, (k a).run c = .ok () { c with result := r }) :
    ∃ r, finalState ((onSystem x >>= k).run c) =
      { c with sys := finalState (x.run c.sys), result := r } := by
  cases hx : x.run c.sys with
  | ok a s =>
      have hrun : (onSystem x).run c = .ok a { c with sys := s } := by
        unfold onSystem
        rw [run_zoom, hx]
      obtain ⟨r, hr⟩ := hk a { c with sys := s }
      refine ⟨r, ?_⟩
      rw [run_bind_ok hrun, hr]
      rfl
  | error e s =>
      have hrun : (onSystem x).run c = .error e { c with sys := s } := by
        unfold onSystem
        rw [run_zoom, hx]
      refine ⟨c.result, ?_⟩
      rw [run_bind_error hrun]
      rfl

/-- A command changes the system and the client, and nothing else of the answer's state
matters to later messages. -/
theorem execute_final (command : CommandsVariant) (c : Commanding δ) :
    ∃ r, finalState ((execute fs os command).run c) =
      ⟨finalState ((onRegistry fs os command).run c.sys), attached c.sys c.client command, r⟩ := by
  have hsay (m : Text) (c : Commanding δ) :
      ∃ r, (say m >>= fun _ => onResult fun r => { r with isSucces := true }).run c =
        .ok () { c with result := r } := ⟨_, rfl⟩
  cases command with
  | createDatabase name => exact finalState_onSystem _ _ c fun _ c => hsay _ c
  | createTableForDatabase ws => exact finalState_onSystem _ _ c fun _ c => hsay _ c
  | backupDatabase base backup => exact finalState_onSystem _ _ c fun _ c => hsay _ c
  | restoreDatabase backup base => exact finalState_onSystem _ _ c fun _ c => hsay _ c
  | dropDatabase base =>
      obtain ⟨r, hr⟩ := finalState_onSystem (System.deleteDatabase fs base) _ c fun _ c => hsay _ c
      refine ⟨r, hr.trans ?_⟩
      unfold onRegistry
      rw [run_map]
      cases (System.deleteDatabase fs base).run c.sys <;> rfl
  | showStructure => exact ⟨_, rfl⟩
  | help => exact ⟨_, rfl⟩
  | attach name =>
      cases hid : c.sys.nameBase.lookup name with
      | none =>
          have hget : c.sys.getDataBaseId name = .error .outOfRange := by
            unfold System.getDataBaseId
            rw [hid]
          have hrun : (attach name).run c =
              .error (.incorrectInput (str "Unknown database: " ++ name)) c := by
            unfold attach
            rw [run_bind_ok (EStateM.run_get c), hget]
            rfl
          refine ⟨c.result, ?_⟩
          change finalState ((attach name >>= fun _ => _).run c) = _
          rw [run_bind_error hrun, attached_none hid]
          rfl
      | some id =>
          have hget : c.sys.getDataBaseId name = .ok id := by
            unfold System.getDataBaseId
            rw [hid]
          have hrun : ∃ r, (attach name).run c =
              .ok () ⟨c.sys, { c.client with baseId := id, joinedToDataBase := true }, r⟩ := by
            unfold attach
            rw [run_bind_ok (EStateM.run_get c), hget]
            exact ⟨_, rfl⟩
          obtain ⟨r, hrun⟩ := hrun
          refine ⟨{ r with isSucces := true }, ?_⟩
          change finalState ((attach name >>= fun _ => _).run c) = _
          rw [run_bind_ok hrun, attached_some hid]
          rfl

end CommandsExecutor

namespace Operator
open CommandsExecutor (onRegistry attached)

theorem executeCommand_final {command : Text} {com : CommandsVariant}
    (h : CommandsParser.parse (CppText.words command) = .ok com) (sys : System δ)
    (client : ClientInfo) : finalState ((executeCommand fs os command).run (sys, client)) =
      (finalState ((onRegistry fs os com).run sys), attached sys client com) := by
  obtain ⟨r, hr⟩ := CommandsExecutor.execute_final fs os com ⟨sys, client, {}⟩
  have hattempt : (attemptCommand fs os command).run ⟨sys, client, {}⟩ =
      (CommandsExecutor.execute fs os com).run ⟨sys, client, {}⟩ := by
    unfold attemptCommand
    rw [h, run_bind_ok (run_ofExcept_ok com _)]
  change finalState (executeCommand fs os command (sys, client)) = _
  unfold executeCommand
  rw [hattempt]
  cases hrun : (CommandsExecutor.execute fs os com).run ⟨sys, client, {}⟩ with
  | ok a c =>
      rw [hrun] at hr
      cases hr
      rfl
  | error e c =>
      rw [hrun] at hr
      cases hr
      dsimp only
      split <;> rfl

theorem executeCommand_rejected {command : Text} {e : Fault}
    (h : CommandsParser.parse (CppText.words command) = .error e) (sys : System δ)
    (client : ClientInfo) :
    finalState ((executeCommand fs os command).run (sys, client)) = (sys, client) := by
  have hattempt : (attemptCommand fs os command).run ⟨sys, client, {}⟩ =
      .error e ⟨sys, client, {}⟩ := by
    unfold attemptCommand
    rw [h, run_bind_error (run_ofExcept_error e _)]
  change finalState (executeCommand fs os command (sys, client)) = _
  unfold executeCommand
  rw [hattempt]
  dsimp only
  split <;> rfl

end Operator

namespace SyncServer
open CommandsExecutor (onRegistry attached)

/-- Everything one message can do. -/
inductive Effect (sv : SyncServer δ) (id : Nat) (buf : Text) : SyncServer δ → Prop
  | unknown : sv.clients id = none → Effect sv id buf sv
  | disconnect : Effect sv id buf { sv with threads := sv.threads.erase id }
  | leave {client : ClientInfo} : sv.clients id = some client →
      Effect sv id buf (setClient id { client with joinedToDataBase := false } sv)
  | query {client : ClientInfo} : sv.clients id = some client → client.joinedToDataBase = true →
      Effect sv id buf
        { sv with sys := finalState ((Operator.executeFor os client buf).run sv.sys) }
  | rejected {client : ClientInfo} : sv.clients id = some client →
      Effect sv id buf (setClient id client sv)
  | command {client : ClientInfo} (com : CommandsVariant) : sv.clients id = some client →
      client.joinedToDataBase = false → CommandsParser.parse (CppText.words buf) = .ok com →
      Effect sv id buf (setClient id (attached sv.sys client com)
        { sv with sys := finalState ((onRegistry fs os com).run sv.sys) })

theorem answerMessage_effect (sv : SyncServer δ) (id : Nat) (buf : Text) :
    Effect fs os sv id buf (finalState ((answerMessage fs os id buf).run sv)) := by
  unfold answerMessage
  rw [run_bind_ok (EStateM.run_get sv)]
  cases hclient : sv.clients id with
  | none => exact .unknown hclient
  | some client =>
      dsimp only
      split_ifs with hdisconnect hleave hjoined
      · exact .disconnect
      · exact .leave hclient
      · rw [run_zoom]
        have heffect : Effect fs os sv id buf _ := .query hclient hjoined
        cases hrun : (Operator.executeFor os client buf).run sv.sys <;>
          · rw [hrun] at heffect
            exact heffect
      · rw [run_zoom]
        cases hparse : CommandsParser.parse (CppText.words buf) with
        | error e =>
            have hfinal := Operator.executeCommand_rejected fs os hparse sv.sys client
            have heffect : Effect fs os sv id buf _ := .rejected hclient
            cases hrun : (Operator.executeCommand fs os buf).run (sv.sys, client) <;>
              · rw [hrun] at hfinal
                cases hfinal
                exact heffect
        | ok com =>
            have hfinal := Operator.executeCommand_final fs os hparse sv.sys client
            have heffect : Effect fs os sv id buf _ :=
              .command com hclient (Bool.eq_false_iff.mpr hjoined) hparse
            cases hrun : (Operator.executeCommand fs os buf).run (sv.sys, client) <;>
              · rw [hrun] at hfinal
                cases hfinal
                exact heffect

end SyncServer

/-! The messages, one kind after the other. -/

/-- A query works on the tables of its database. -/
theorem Operator.attempt_name (command : Text) (n : Text) :
    Triple (fun s => s.base.dataBaseName = n) (Operator.attempt os command)
      (fun _ s => s.base.dataBaseName = n) (fun _ s => s.base.dataBaseName = n) := by
  unfold Operator.attempt Operator.onTabble
  refine Triple.bind (Q := fun _ s => s.base.dataBaseName = n)
    (triple_ofExcept (fun _ _ _ h => h) fun _ _ _ h => h) fun query => triple_get fun s₀ _ => ?_
  refine Triple.bind (Q := fun _ s => s.base.dataBaseName = n)
    (triple_ofExcept (fun _ _ _ h => h) fun _ _ _ h => h) fun id => triple_get fun s₁ _ => ?_
  cases s₁.base.tabbles[id]? with
  | none => exact triple_throw fun _ h => h
  | some table =>
      refine triple_zoom fun s hs => ?_
      cases (Operator.process os query).run ⟨table, s.result⟩ with
      | ok a e => exact .ok hs
      | error e t => exact .error hs

theorem Operator.execute_name (command : Text) (base : DataBase) :
    (finalState ((Operator.execute os command).run base)).dataBaseName = base.dataBaseName := by
  have hpost := Operator.attempt_name os command base.dataBaseName ⟨base, {}⟩ rfl
  change (finalState (Operator.execute os command base)).dataBaseName = _
  unfold Operator.execute
  cases hrun : (Operator.attempt os command).run ⟨base, {}⟩ with
  | ok a s =>
      rw [hrun] at hpost
      cases hpost with
      | ok h => exact h
  | error e s =>
      rw [hrun] at hpost
      cases hpost with
      | error h =>
          dsimp only
          split <;> exact h

section System
variable {P : System δ → Prop}

/-- A query leaves the database of its client in its slot. -/
theorem executeFor_keeps (client : ClientInfo) (command : Text)
    (hset : ∀ s id base base', P s → s.bases[id]? = some (some base) →
      base'.dataBaseName = base.dataBaseName → P { s with bases := s.bases.set id (some base') }) :
    Triple P (Operator.executeFor os client command) (fun _ => P) (fun _ => P) := by
  unfold Operator.executeFor
  refine triple_get_eq fun s₀ => ?_
  refine Triple.bind (Q := fun base s => P s ∧ s.bases[client.baseId]? = some (some base))
    (triple_ofExcept (fun base s h hs => ?_) fun _ _ _ hs => hs.1) fun base => ?_
  · obtain ⟨hP, rfl⟩ := hs
    refine ⟨hP, ?_⟩
    unfold System.getDataBaseById at h
    split at h
    · cases h
    · cases h
    · cases h
      assumption
  · refine triple_zoom fun s hs => ?_
    have hname := Operator.execute_name os command base
    cases hrun : (Operator.execute os command).run base with
    | ok r b =>
        rw [hrun] at hname
        exact .ok (hset s client.baseId base b hs.1 hs.2 hname)
    | error e b =>
        rw [hrun] at hname
        exact .error (hset s client.baseId base b hs.1 hs.2 hname)

end System

namespace System
open CommandsExecutor (onRegistry)

/-! Slots and names. -/

section OwnedFrom
variable {owners : List Text}

theorem ownedFrom_disk : DiskFree (OwnedFrom (δ := δ) owners) := by
  rintro s d ⟨more, h⟩
  exact ⟨more, h.length, h.names, h.slots⟩

theorem OwnedFrom.registered {s : System δ} (h : OwnedFrom owners s) {name : Text} {base : DataBase}
    (hname : base.dataBaseName = name) : OwnedFrom owners (s.registered name base) := by
  obtain ⟨more, h⟩ := h
  refine ⟨more ++ [name], ?_⟩
  rw [← List.append_assoc]
  exact h.registered hname

theorem OwnedFrom.setBase {s : System δ} (h : OwnedFrom owners s) {id : Nat} {base base' : DataBase}
    (hid : s.bases[id]? = some (some base)) (hname : base'.dataBaseName = base.dataBaseName) :
    OwnedFrom owners { s with bases := s.bases.set id (some base') } := by
  obtain ⟨more, h⟩ := h
  refine ⟨more, h.setSlot fun b hb => ?_⟩
  obtain rfl := Option.some.inj hb
  rw [hname]
  exact h.slots id base hid

theorem onRegistry_owned (com : CommandsVariant) : Triple (OwnedFrom owners)
    (onRegistry fs os com) (fun _ => OwnedFrom owners) (fun _ => OwnedFrom owners) := by
  have hreg (name : Text) (s : System δ) (base : DataBase) (h : OwnedFrom owners s)
      (hname : base.dataBaseName = name) : OwnedFrom owners (s.registered name base) :=
    h.registered hname
  cases com with
  | attach name => exact triple_pure fun _ h => h
  | showStructure => exact triple_pure fun _ h => h
  | help => exact triple_pure fun _ h => h
  | createDatabase name => exact createDataBase_keeps fs os ownedFrom_disk (hreg name)
  | createTableForDatabase ws =>
      exact createTable_keeps fs os ownedFrom_disk ws fun s id base base' h => h.setBase
  | backupDatabase base backup => exact backUpDatabase_keeps fs ownedFrom_disk base backup
  | dropDatabase base =>
      refine triple_map (deleteDatabase_keeps fs ownedFrom_disk base ?_)
      rintro s id ⟨more, h⟩ -
      exact ⟨more, h.dropped⟩
  | restoreDatabase backup base =>
      intro s hs
      cases hid : s.nameBase.lookup base with
      | none => exact restoreDatabase_new fs os ownedFrom_disk hid backup (hreg base) s ⟨hs, rfl⟩
      | some id =>
          refine restoreDatabase_again fs os ownedFrom_disk hid backup ?_ ?_ s ⟨hs, rfl⟩
          · rintro s' id' ⟨more, h⟩ -
            exact ⟨more, h.setSlot fun b hb => by cases hb⟩
          · rintro s' id' b ⟨more, h⟩ hid' hname
            refine ⟨more, h.setSlot fun b' hb' => ?_⟩
            obtain rfl := Option.some.inj hb'
            rw [hname]
            exact h.names base id' hid'

end OwnedFrom

/-! Live names. -/

section Live
variable {s : System δ}

theorem run_setSlot {id : Nat} (h : id < s.bases.length) (slot : Option DataBase) :
    (setSlot id slot).run s = .ok () { s with bases := s.bases.set id slot } := by
  unfold setSlot
  rw [run_bind_ok (EStateM.run_get s), if_pos h]
  rfl

/-- Nothing throws between the moment a restore empties the slot of a registered name
and the moment it fills it again. -/
def RefillSucceeds (s : System δ) (backupName dbName : Text) : Prop :=
  (s.nameBase.lookup dbName).isSome → ∀ d,
    (isExistingDirectory fs (joinPath (joinPath s.absolutePath backUpName) backupName)).run s.disk =
      .ok true d →
    isOk ((rebuild fs os (joinPath (joinPath s.absolutePath backUpName) backupName)
      (joinPath s.absolutePath dbName) dbName).run d) = true

theorem isOk_run {σ α : Type} {x : EStateM Fault σ α} {s : σ} (h : isOk (x.run s) = true) :
    ∃ a s', x.run s = .ok a s' := by
  cases hx : x.run s with
  | ok a s' => exact ⟨a, s', rfl⟩
  | error e s' =>
      rw [hx] at h
      cases h

/-- A restore of a registered name either fails before its slot is emptied or leaves a
database of this name in it. -/
theorem restoreDatabase_refilled {backupName dbName : Text} {id : Nat}
    (hid : s.nameBase.lookup dbName = some id) (hlt : id < s.bases.length)
    (hok : s.RefillSucceeds fs os backupName dbName) :
    (∃ d, finalState ((restoreDatabase fs os backupName dbName).run s) = { s with disk := d }) ∨
      ∃ base d, base.dataBaseName = dbName ∧
        finalState ((restoreDatabase fs os backupName dbName).run s) =
          { s with bases := s.bases.set id (some base), disk := d } := by
  unfold restoreDatabase
  rw [run_bind_ok (EStateM.run_get s), hid]
  cases hfound : (isExistingDirectory fs
      (joinPath (joinPath s.absolutePath backUpName) backupName)).run s.disk with
  | error e d =>
      rw [run_bind_error (run_onDisk_error hfound)]
      exact .inl ⟨d, rfl⟩
  | ok found d =>
      rw [run_bind_ok (run_onDisk_ok hfound)]
      cases found with
      | false => exact .inl ⟨d, rfl⟩
      | true =>
          obtain ⟨base, d', hrebuild⟩ := isOk_run (hok (by rw [hid]; rfl) d hfound)
          have hempty := run_setSlot (s := { s with disk := d }) hlt none
          have hlt' : id < (s.bases.set id none).length := by
            rw [List.length_set]
            exact hlt
          have hfill := run_setSlot (s := { s with disk := d', bases := s.bases.set id none })
            hlt' (some base)
          refine .inr ⟨base, d', (rebuild_name fs os _ _ dbName).ok trivial hrebuild, ?_⟩
          unfold throwIf catchFilesystem
          rw [if_neg (by decide), run_bind_ok (EStateM.run_pure () _), run_bind_ok hempty,
            run_tryCatch, run_bind_ok (run_onDisk_ok hrebuild), hfill]
          dsimp only [finalState]
          rw [List.set_set]

theorem Live.restoreDatabase (h : s.Live) (backupName dbName : Text)
    (hok : s.RefillSucceeds fs os backupName dbName) :
    (finalState ((System.restoreDatabase fs os backupName dbName).run s)).Live := by
  have hdisk : DiskFree (Live (δ := δ)) := fun _ _ h => h
  cases hid : s.nameBase.lookup dbName with
  | none =>
      exact (restoreDatabase_new fs os hdisk hid backupName fun _ _ h hname =>
        h.registered hname).final ⟨h, rfl⟩
  | some id =>
      obtain ⟨base₀, hbase₀, -⟩ := h dbName id hid
      have hlt := (List.getElem?_eq_some_iff.mp hbase₀).1
      rcases restoreDatabase_refilled fs os hid hlt hok with ⟨d, hrun⟩ | ⟨base, d, hname, hrun⟩
      · rw [hrun]
        exact h
      · rw [hrun]
        exact h.setSlot (by rw [hname]; exact hid)

theorem onRegistry_live (com : CommandsVariant) (h : s.Live)
    (hok : ∀ backup base, com = .restoreDatabase backup base → s.RefillSucceeds fs os backup base) :
    (finalState ((onRegistry fs os com).run s)).Live := by
  have hdisk : DiskFree (Live (δ := δ)) := fun _ _ h => h
  cases com with
  | attach name => exact h
  | showStructure => exact h
  | help => exact h
  | createDatabase name =>
      exact (createDataBase_keeps fs os hdisk fun _ _ h hname => h.registered hname).final h
  | createTableForDatabase ws =>
      refine (createTable_keeps fs os hdisk ws fun s id base base' h hid hname => ?_).final h
      exact h.setBase hid hname
  | backupDatabase base backup => exact (backUpDatabase_keeps fs hdisk base backup).final h
  | dropDatabase base =>
      exact (triple_map (deleteDatabase_keeps fs hdisk base fun _ _ h hid => h.dropped hid)).final h
  | restoreDatabase backup base => exact h.restoreDatabase fs os backup base (hok _ _ rfl)

/-- Slots in use survive a command that neither drops them nor fails to restore them. -/
theorem onRegistry_holding {used : Nat → Prop} (com : CommandsVariant) (h : s.Holding used)
    (hdrop : ∀ name, com = .dropDatabase name → ∀ k, s.nameBase.lookup name = some k → ¬ used k)
    (hrestore : ∀ backup name, com = .restoreDatabase backup name →
      ∀ k, s.nameBase.lookup name = some k → used k → s.RefillSucceeds fs os backup name) :
    (finalState ((onRegistry fs os com).run s)).Holding used := by
  have hdisk : DiskFree (Holding (δ := δ) used) := fun _ _ h => h
  cases com with
  | attach name => exact h
  | showStructure => exact h
  | help => exact h
  | createDatabase name =>
      exact (createDataBase_keeps fs os hdisk fun _ base h _ => h.registered name base).final h
  | createTableForDatabase ws =>
      exact (createTable_keeps fs os hdisk ws fun _ _ _ base' h _ _ =>
        h.setSlot fun _ => ⟨base', rfl⟩).final h
  | backupDatabase base backup => exact (backUpDatabase_keeps fs hdisk base backup).final h
  | dropDatabase name =>
      have hkeep : Triple (HoldingBut used name) (onRegistry fs os (.dropDatabase name))
          (fun _ => HoldingBut used name) (fun _ => HoldingBut used name) :=
        triple_map (deleteDatabase_keeps fs (fun _ _ h => h) name fun _ _ h hid => h.dropped hid)
      exact (hkeep.final ⟨h, hdrop name rfl⟩).1
  | restoreDatabase backup name =>
      cases hid : s.nameBase.lookup name with
      | none =>
          exact (restoreDatabase_new fs os hdisk hid backup fun _ base h _ =>
            h.registered name base).final ⟨h, rfl⟩
      | some id =>
          by_cases hused : used id
          · obtain ⟨base₀, hbase₀⟩ := h id hused
            have hlt := (List.getElem?_eq_some_iff.mp hbase₀).1
            rcases restoreDatabase_refilled fs os hid hlt (hrestore backup name rfl id hid hused) with
              ⟨d, hrun⟩ | ⟨base, d, -, hrun⟩
            · exact hrun ▸ h
            · exact hrun ▸ h.setSlot fun _ => ⟨base, rfl⟩
          · have hbut : s.HoldingBut used name :=
              ⟨h, fun k hk => Option.some.inj (hid.symm.trans hk) ▸ hused⟩
            exact ((restoreDatabase_again fs os (fun _ _ h => h) hid backup
              (fun _ _ h hid => h.setSlot hid none)
              fun _ _ base h hid _ => h.setSlot hid (some base)).final ⟨hbut, rfl⟩).1

end Live

end System

namespace SyncServer
open CommandsExecutor (onRegistry attached)

/-- A property of the registry that commands and queries keep survives every message. -/
theorem Step.sys_keeps {P : System δ → Prop} {ok : SyncServer δ → Nat → Text → Prop}
    {sv sv' : SyncServer δ} (h : Step fs os ok sv sv') (hP : P sv.sys)
    (hcommand : ∀ id client buf com, ok sv id buf → sv.clients id = some client →
      client.joinedToDataBase = false → CommandsParser.parse (CppText.words buf) = .ok com →
      P (finalState ((onRegistry fs os com).run sv.sys)))
    (hquery : ∀ client buf, P (finalState ((Operator.executeFor os client buf).run sv.sys))) :
    P sv'.sys := by
  cases h with
  | connect => exact hP
  | message id buf hid hok =>
      have heffect := answerMessage_effect fs os sv id buf
      generalize finalState ((answerMessage fs os id buf).run sv) = sv' at heffect ⊢
      cases heffect with
      | unknown => exact hP
      | disconnect => exact hP
      | leave => exact hP
      | query hclient hjoined => exact hquery _ buf
      | rejected => exact hP
      | command com hclient hjoined hparse => exact hcommand id _ buf com hok hclient hjoined hparse

theorem Steps.owned {owners : List Text} {ok : SyncServer δ → Nat → Text → Prop}
    {sv sv' : SyncServer δ} (h : Steps fs os ok sv sv') (hs : System.OwnedFrom owners sv.sys) :
    System.OwnedFrom owners sv'.sys := by
  induction h with
  | refl => exact hs
  | step _ hstep ih =>
      refine hstep.sys_keeps fs os ih (fun id client buf com _ _ _ _ => ?_) fun client buf => ?_
      · exact (System.onRegistry_owned fs os com).final ih
      · exact (executeFor_keeps os client buf fun s id base base' h => h.setBase).final ih

theorem Started.owned {sv : SyncServer δ} (h : Started fs os sv) : System.OwnedFrom [] sv.sys := by
  obtain ⟨absolutePath, disk, sys, hrun, rfl⟩ := h
  refine (System.construct_keeps fs os System.ownedFrom_disk ?_).ok ⟨⟨[], rfl, ?_, ?_⟩, rfl⟩ hrun
  · exact fun s name base h hname => h.registered hname
  · intro name id h
    cases h
  · intro id base h
    cases h

/-! A disk with one backup. The flag says that copying fails. -/

def sampleFiles : FileSystem Bool where
  pathExists path := pure (path = str "/r" || path = str "/r/backup/old")
  isDirectory _ := pure true
  isEmpty _ := pure false
  createDirectory _ := pure true
  createDirectories _ := pure ()
  copyFile _ _ := do
    if ← get then throw (.filesystemError (str "cannot copy"))
  removeAll _ := pure ()
  directoryIterator _ := pure []
  recursiveDirectoryIterator _ := pure [(str "readme", false)]
  readText _ := pure none
  writeText _ _ := pure ()
  openStorage _ := pure (.empty, 0)

/-- A message and the state after it. -/
def after (sv : SyncServer Bool) (id : Nat) (buf : Text) : SyncServer Bool :=
  finalState ((answerMessage sampleFiles .reliable id buf).run sv)

/-- The server after start-up with two clients. -/
def sampleStart (copyFails : Bool) : SyncServer Bool :=
  start (finalState ((System.construct sampleFiles .reliable).run (.blank (str "/r") copyFails)))

def sampleClients (copyFails : Bool) : SyncServer Bool :=
  (sampleStart copyFails).addNewClient.addNewClient

def sampleCreated (copyFails : Bool) : SyncServer Bool :=
  after (sampleClients copyFails) 0 (str "CREATE DATABASE shop")

def sampleRestored (copyFails : Bool) : SyncServer Bool :=
  after (sampleCreated copyFails) 1 (str "RESTORE old AS shop")

/-- The first client attaches to the database it has created. -/
def sampleAttached : SyncServer Bool := after (sampleCreated false) 0 (str "ATTACH TO shop")

/-- The second one drops it. -/
def sampleDropped : SyncServer Bool := after sampleAttached 1 (str "DROP DATABASE shop")

theorem sampleStart_started (copyFails : Bool) :
    Started sampleFiles .reliable (sampleStart copyFails) := by
  refine ⟨str "/r", copyFails, _, ?_, rfl⟩
  refine eq_ok_of_isOk ?_
  cases copyFails <;> decide +kernel

theorem after_step {ok : SyncServer Bool → Nat → Text → Prop} (sv : SyncServer Bool) (id : Nat)
    (buf : Text) (hid : id ∈ sv.threads) (hok : ok sv id buf) :
    Step sampleFiles .reliable ok sv (after sv id buf) := .message id buf hid hok

theorem sampleClients_steps (ok : SyncServer Bool → Nat → Text → Prop) (copyFails : Bool) :
    Steps sampleFiles .reliable ok (sampleStart copyFails) (sampleClients copyFails) :=
  .step (.step .refl (.connect _)) (.connect _)

/-- Both clients are there before every message of the samples. -/
theorem sample_threads : (∀ copyFails, 0 ∈ (sampleClients copyFails).threads) ∧
    (∀ copyFails, 1 ∈ (sampleCreated copyFails).threads) ∧ 0 ∈ (sampleCreated false).threads ∧
      1 ∈ sampleAttached.threads := by
  decide +kernel

/-- The database that was created has the first slot. It is filled again by a restore, and
empty after one that fails. -/
theorem sample_slots : (sampleCreated false).sys.nameBase.lookup (str "shop") = some 0 ∧
    ((sampleCreated false).sys.bases[0]?).map Option.isSome = some true ∧
    ((sampleRestored false).sys.getDataBaseById 0).toBool = true ∧
    (sampleRestored true).sys.nameBase.lookup (str "shop") = some 0 ∧
    ((sampleRestored true).sys.bases[0]?).map Option.isNone = some true := by
  decide +kernel

example : sampleDropped.sys.nameBase.lookup (str "shop") = none := by decide +kernel

theorem sampleCreated_steps {ok : SyncServer Bool → Nat → Text → Prop} (copyFails : Bool)
    (hok : ok (sampleClients copyFails) 0 (str "CREATE DATABASE shop")) :
    Steps sampleFiles .reliable ok (sampleStart copyFails) (sampleCreated copyFails) := by
  exact .step (sampleClients_steps ok copyFails) (after_step _ 0 _ (sample_threads.1 copyFails) hok)

/-- The id of a name never becomes the slot of a database of another name, whatever
messages follow and however they end. -/
theorem ids_never_reused {sv₀ sv sv' : SyncServer δ} (hstart : Started fs os sv₀)
    (hrun : Steps fs os (fun _ _ _ => True) sv₀ sv) (hlater : Steps fs os (fun _ _ _ => True) sv sv')
    {name : Text} {id : Nat} (hid : sv.sys.getDataBaseId name = .ok id) {base : DataBase}
    (hbase : sv'.sys.getDataBaseById id = .ok base) : base.dataBaseName = name := by
  obtain ⟨owners, h⟩ := hrun.owned fs os (hstart.owned fs os)
  have hfrom : System.OwnedFrom owners sv.sys := ⟨[], by simpa using h⟩
  obtain ⟨more, h'⟩ := hlater.owned fs os hfrom
  have hname : owners[id]? = some name := by
    unfold System.getDataBaseId at hid
    split at hid
    · cases hid
    · cases hid
      exact h.names name id ‹_›
  have hslot : (owners ++ more)[id]? = some base.dataBaseName := by
    unfold System.getDataBaseById at hbase
    split at hbase
    · cases hbase
    · cases hbase
    · cases hbase
      exact h'.slots id base ‹_›
  rw [List.getElem?_append_left (List.getElem?_eq_some_iff.mp hname).1, hname] at hslot
  exact (Option.some.inj hslot).symm

/-- A restore fills the slot of its name again. -/
theorem ids_never_reused_sample : ∃ base,
    (sampleRestored false).sys.getDataBaseById 0 = .ok base ∧ base.dataBaseName = str "shop" := by
  obtain ⟨hid, -, hsome, -⟩ := sample_slots
  cases hbase : (sampleRestored false).sys.getDataBaseById 0 with
  | error e =>
      rw [hbase] at hsome
      cases hsome
  | ok base =>
      refine ⟨base, rfl, ids_never_reused sampleFiles .reliable (sampleStart_started false)
        (sampleCreated_steps false trivial)
        (.step .refl (after_step (sampleCreated false) 1 _ (sample_threads.2.1 false) trivial))
        (by unfold System.getDataBaseId; rw [hid]) hbase⟩

/-- A message does not restore over a registered name when the work on the disk fails. -/
def RestoresSucceed (sv : SyncServer δ) (id : Nat) (buf : Text) : Prop :=
  ∀ client backup base, sv.clients id = some client → client.joinedToDataBase = false →
    CommandsParser.parse (CppText.words buf) = .ok (.restoreDatabase backup base) →
    sv.sys.RefillSucceeds fs os backup base

theorem Started.live {sv : SyncServer δ} (h : Started fs os sv) : sv.sys.Live := by
  obtain ⟨absolutePath, disk, sys, hrun, rfl⟩ := h
  refine (System.construct_keeps (P := System.Live) fs os (fun _ _ h => h) ?_).ok ⟨?_, rfl⟩ hrun
  · exact fun s name base h hname => h.registered hname
  · intro name id h
    cases h

theorem Steps.live {sv sv' : SyncServer δ} (h : Steps fs os (RestoresSucceed fs os) sv sv')
    (hs : sv.sys.Live) : sv'.sys.Live := by
  induction h with
  | refl => exact hs
  | step _ hstep ih =>
      refine hstep.sys_keeps fs os ih (fun id client buf com hok hclient hjoined hparse => ?_)
        fun client buf => ?_
      · refine System.onRegistry_live fs os com ih fun backup base hcom => ?_
        exact hok client backup base hclient hjoined (hcom ▸ hparse)
      · exact (executeFor_keeps os client buf fun s id base base' h hid hname =>
          h.setBase hid hname).final ih

/-- In runs where no restore over a registered name fails, every registered name has its
own database, and looking one up never meets an empty slot. -/
theorem registry_live {sv₀ sv : SyncServer δ} (hstart : Started fs os sv₀)
    (hrun : Steps fs os (RestoresSucceed fs os) sv₀ sv) :
    (∀ name id, sv.sys.nameBase.lookup name = some id → id < sv.sys.bases.length ∧
      ∃ base, sv.sys.bases[id]? = some (some base) ∧ base.dataBaseName = name) ∧
    (∀ name name' id, sv.sys.nameBase.lookup name = some id →
      sv.sys.nameBase.lookup name' = some id → name = name') ∧
    ∀ name id, sv.sys.getDataBaseId name = .ok id →
      ∃ base, sv.sys.getDataBase name = .ok base ∧ base.dataBaseName = name := by
  have h := hrun.live fs os (hstart.live fs os)
  refine ⟨fun name id hid => ?_, fun name name' id hid hid' => h.id_unique hid hid',
    fun name id hid => h.getDataBase hid⟩
  obtain ⟨base, hbase, hname⟩ := h name id hid
  exact ⟨(List.getElem?_eq_some_iff.mp hbase).1, base, hbase, hname⟩

theorem sampleRestored_steps {ok : SyncServer Bool → Nat → Text → Prop} (copyFails : Bool)
    (hcreate : ok (sampleClients copyFails) 0 (str "CREATE DATABASE shop"))
    (hrestore : ok (sampleCreated copyFails) 1 (str "RESTORE old AS shop")) :
    Steps sampleFiles .reliable ok (sampleStart copyFails) (sampleRestored copyFails) := by
  exact .step (sampleCreated_steps copyFails hcreate) (after_step _ 1 _ (sample_threads.2.1 copyFails) hrestore)

theorem registry_live_sample : ∃ base,
    (sampleRestored false).sys.getDataBase (str "shop") = .ok base ∧
      base.dataBaseName = str "shop" := by
  have hcreate : RestoresSucceed sampleFiles .reliable (sampleClients false) 0
      (str "CREATE DATABASE shop") := by
    intro client backup base _ _ hparse
    have hcreate : CommandsParser.parse (CppText.words (str "CREATE DATABASE shop")) =
        .ok (.createDatabase (str "shop")) := by decide
    rw [hcreate] at hparse
    cases hparse
  have hrestore : RestoresSucceed sampleFiles .reliable (sampleCreated false) 1
      (str "RESTORE old AS shop") := by
    intro client backup base _ _ hparse _ d hd
    have hrestore : CommandsParser.parse (CppText.words (str "RESTORE old AS shop")) =
        .ok (.restoreDatabase (str "old") (str "shop")) := by decide
    rw [hrestore] at hparse
    cases hparse
    obtain rfl : false = d := by
      have hfinal := congrArg finalState hd
      rw [finalState_ok] at hfinal
      rw [← hfinal]
      decide +kernel
    decide +kernel
  exact (registry_live sampleFiles .reliable (sampleStart_started false)
    (sampleRestored_steps false hcreate hrestore)).2.2 (str "shop") 0 (by decide +kernel)

/-- A restore that cannot copy leaves the name with an empty slot. -/
theorem registry_not_live : Started sampleFiles .reliable (sampleStart true) ∧
    Steps sampleFiles .reliable (fun _ _ _ => True) (sampleStart true) (sampleRestored true) ∧
    (sampleRestored true).sys.nameBase.lookup (str "shop") = some 0 ∧
    (sampleRestored true).sys.bases[0]? = some none := by
  obtain ⟨-, -, -, hid, hnone⟩ := sample_slots
  refine ⟨sampleStart_started true, sampleRestored_steps true trivial trivial, hid, ?_⟩
  obtain ⟨slot, hslot, hempty⟩ := Option.map_eq_some_iff.mp hnone
  rw [hslot, Option.isNone_iff_eq_none.mp hempty]

/-! Sessions and their databases. -/

/-- The database of every client that has joined one is there. -/
def Attached (sv : SyncServer δ) : Prop :=
  ∀ i client, sv.clients i = some client → client.joinedToDataBase = true →
    ∃ base, sv.sys.bases[client.baseId]? = some (some base)

/-- Some client has joined the database in this slot. -/
def InUse (sv : SyncServer δ) (k : Nat) : Prop :=
  ∃ i client, sv.clients i = some client ∧ client.joinedToDataBase = true ∧ client.baseId = k

/-- A command leaves the databases in use in their slots: none of them is dropped, a
restore over one of them does not fail, and nobody attaches to an empty slot. -/
def Spares (sv : SyncServer δ) : CommandsVariant → Prop
  | .attach name => ∀ k, sv.sys.nameBase.lookup name = some k →
      ∃ base, sv.sys.bases[k]? = some (some base)
  | .dropDatabase name => ∀ k, sv.sys.nameBase.lookup name = some k → ¬ InUse sv k
  | .restoreDatabase backup name => ∀ k, sv.sys.nameBase.lookup name = some k → InUse sv k →
      sv.sys.RefillSucceeds fs os backup name
  | _ => True

def Undisturbed (sv : SyncServer δ) (id : Nat) (buf : Text) : Prop :=
  ∀ client com, sv.clients id = some client → client.joinedToDataBase = false →
    CommandsParser.parse (CppText.words buf) = .ok com → Spares fs os sv com

theorem Attached.setClient {sv : SyncServer δ} (h : Attached sv) (id : Nat) (client : ClientInfo)
    (hclient : client.joinedToDataBase = true →
      ∃ base, sv.sys.bases[client.baseId]? = some (some base)) : Attached (setClient id client sv) := by
  intro i c hc hjoined
  change Function.update sv.clients id (some client) i = some c at hc
  by_cases hi : i = id
  · subst hi
    rw [Function.update_self] at hc
    cases hc
    exact hclient hjoined
  · rw [Function.update_of_ne hi] at hc
    exact h i c hc hjoined

theorem Attached.holding {sv : SyncServer δ} (h : Attached sv) : sv.sys.Holding (InUse sv) := by
  rintro k ⟨i, client, hclient, hjoined, rfl⟩
  exact h i client hclient hjoined

theorem Attached.of_holding {sv : SyncServer δ} {sys : System δ} (h : sys.Holding (InUse sv)) :
    Attached { sv with sys := sys } :=
  fun i client hclient hjoined => h _ ⟨i, client, hclient, hjoined, rfl⟩

theorem Step.attached {sv sv' : SyncServer δ} (h : Step fs os (Undisturbed fs os) sv sv')
    (hs : Attached sv) : Attached sv' := by
  cases h with
  | connect => exact hs.setClient sv.freeId _ fun hjoined => by cases hjoined
  | message id buf hid hok =>
      have heffect := answerMessage_effect fs os sv id buf
      generalize finalState ((answerMessage fs os id buf).run sv) = sv' at heffect ⊢
      cases heffect with
      | unknown => exact hs
      | disconnect => exact hs
      | leave hclient => exact hs.setClient id _ fun hjoined => by cases hjoined
      | query hclient hjoined =>
          refine .of_holding ((executeFor_keeps os _ buf ?_).final hs.holding)
          exact fun s id base base' h _ _ => h.setSlot fun _ => ⟨base', rfl⟩
      | rejected hclient => exact hs.setClient id _ fun hjoined => hs id _ hclient hjoined
      | @command client com hclient hjoined hparse =>
          have hspares := hok client com hclient hjoined hparse
          have hsys := System.onRegistry_holding fs os com hs.holding
            (fun name hcom k hk => by subst hcom; exact hspares k hk)
            (fun backup name hcom k hk => by subst hcom; exact hspares k hk)
          refine (Attached.of_holding hsys).setClient id _ fun hnow => ?_
          cases com with
          | attach name =>
              cases hid : sv.sys.nameBase.lookup name with
              | none =>
                  rw [CommandsExecutor.attached_none hid, hjoined] at hnow
                  cases hnow
              | some k =>
                  rw [CommandsExecutor.attached_some hid]
                  exact hspares k hid
          | _ =>
              change client.joinedToDataBase = true at hnow
              rw [hjoined] at hnow
              cases hnow

theorem Steps.attached {sv sv' : SyncServer δ} (h : Steps fs os (Undisturbed fs os) sv sv')
    (hs : Attached sv) : Attached sv' := by
  induction h with
  | refl => exact hs
  | step _ hstep ih => exact hstep.attached fs os ih

theorem Started.attached {sv : SyncServer δ} (h : Started fs os sv) : Attached sv := by
  obtain ⟨absolutePath, disk, sys, -, rfl⟩ := h
  intro i client hclient
  cases hclient

/-- In runs whose commands leave the databases in use alone, the query of a client that
has joined one runs on the database in its slot. -/
theorem attached_served {sv₀ sv : SyncServer δ} (hstart : Started fs os sv₀)
    (hrun : Steps fs os (Undisturbed fs os) sv₀ sv) {i : Nat} {client : ClientInfo}
    (hclient : sv.clients i = some client) (hjoined : client.joinedToDataBase = true) :
    ∃ base, sv.sys.bases[client.baseId]? = some (some base) ∧
      sv.sys.getDataBaseById client.baseId = .ok base := by
  obtain ⟨base, hbase⟩ := hrun.attached fs os (hstart.attached fs os) i client hclient hjoined
  refine ⟨base, hbase, ?_⟩
  unfold System.getDataBaseById
  rw [hbase]

theorem sampleAttached_steps {ok : SyncServer Bool → Nat → Text → Prop}
    (hcreate : ok (sampleClients false) 0 (str "CREATE DATABASE shop"))
    (hattach : ok (sampleCreated false) 0 (str "ATTACH TO shop")) :
    Steps sampleFiles .reliable ok (sampleStart false) sampleAttached :=
  .step (sampleCreated_steps false hcreate) (after_step _ 0 _ sample_threads.2.2.1 hattach)

theorem attached_served_sample : ∃ base,
    sampleAttached.sys.bases[0]? = some (some base) ∧
      sampleAttached.sys.getDataBaseById 0 = .ok base := by
  have hcreate : Undisturbed sampleFiles .reliable (sampleClients false) 0
      (str "CREATE DATABASE shop") := by
    intro client com _ _ hparse
    have hcreate : CommandsParser.parse (CppText.words (str "CREATE DATABASE shop")) =
        .ok (.createDatabase (str "shop")) := by decide
    rw [hcreate] at hparse
    cases hparse
    trivial
  have hattach : Undisturbed sampleFiles .reliable (sampleCreated false) 0
      (str "ATTACH TO shop") := by
    intro client com _ _ hparse
    have hattach : CommandsParser.parse (CppText.words (str "ATTACH TO shop")) =
        .ok (.attach (str "shop")) := by decide
    rw [hattach] at hparse
    cases hparse
    intro k hk
    obtain ⟨hid, hsome, -⟩ := sample_slots
    rw [hid] at hk
    cases hk
    obtain ⟨slot, hslot, hfull⟩ := Option.map_eq_some_iff.mp hsome
    obtain ⟨base, rfl⟩ := Option.isSome_iff_exists.mp hfull
    exact ⟨base, hslot⟩
  exact attached_served sampleFiles .reliable (sampleStart_started false)
    (sampleAttached_steps hcreate hattach)
    (show sampleAttached.clients 0 = some { id := 0, joinedToDataBase := true, baseId := 0 } by
      decide +kernel) rfl

/-- The next query of the first client dereferences a null pointer. -/
theorem attached_not_served : Started sampleFiles .reliable (sampleStart false) ∧
    Steps sampleFiles .reliable (fun _ _ _ => True) (sampleStart false) sampleDropped ∧
    ∃ client, sampleDropped.clients 0 = some client ∧ client.joinedToDataBase = true ∧
      sampleDropped.sys.bases[client.baseId]? = some none ∧
      sampleDropped.sys.getDataBaseById client.baseId = .error .undefined := by
  refine ⟨sampleStart_started false, .step (sampleAttached_steps trivial trivial)
    (after_step _ 1 _ sample_threads.2.2.2 trivial),
    { id := 0, joinedToDataBase := true, baseId := 0 }, by decide +kernel, rfl, ?_⟩
  have hnone : (sampleDropped.sys.bases[0]?).map Option.isNone = some true := by decide +kernel
  obtain ⟨slot, hslot, hempty⟩ := Option.map_eq_some_iff.mp hnone
  rw [Option.isNone_iff_eq_none.mp hempty] at hslot
  refine ⟨hslot, ?_⟩
  unfold System.getDataBaseById
  rw [hslot]

end SyncServer
end SQLid
