import SQLid.SyncServer

/-!
# What the commands leave of the registry

Every command works on the disk and on a few places of the registry. The lemmas say
which changes of the registry a property must survive for the command to keep it.
-/
namespace SQLid
open Bytes (Text)
open Programs

section construct
variable {δ : Type} (fs : FileSystem δ) (os : Os)

theorem DataBase.openTabbles_name (entries : List (Text × Bool)) (base : DataBase) :
    Triple (fun _ : δ => True) (DataBase.openTabbles fs os base entries)
      (fun b _ => b.dataBaseName = base.dataBaseName) (fun _ _ => True) := by
  induction entries generalizing base with
  | nil => exact triple_pure fun _ _ => rfl
  | cons entry entries ih =>
    obtain ⟨name, isDirectory⟩ := entry
    cases isDirectory with
    | false => exact ih base
    | true =>
        refine Triple.bind (Q := fun b _ => b.dataBaseName = base.dataBaseName) ?_ fun b => ?_
        · exact (triple_true _).bind fun cur => triple_pure fun _ _ => rfl
        · intro d hb
          exact (ih b d trivial).mono (fun _ _ h => h.trans hb) fun _ _ h => h

/-- The constructor gives the database the name it was called with. -/
theorem DataBase.construct_name (absoluteWay name : Text) :
    Triple (fun _ : δ => True) (DataBase.construct fs os absoluteWay name)
      (fun b _ => b.dataBaseName = name) (fun _ _ => True) :=
  (triple_true _).bind fun entries => DataBase.openTabbles_name fs os entries _

theorem DataBase.createTable_name (base : DataBase) (ws : List Text) :
    Triple (fun _ : δ => True) (DataBase.createTable fs os base ws)
      (fun b _ => b.dataBaseName = base.dataBaseName) (fun _ _ => True) := by
  unfold DataBase.createTable
  refine triple_ite (fun _ => triple_throw fun _ _ => trivial) fun _ => ?_
  refine triple_ite (fun _ => triple_throw fun _ _ => trivial) fun _ => ?_
  refine (triple_true _).bind fun columns => ?_
  refine triple_ite (fun _ => triple_throw fun _ _ => trivial) fun _ => ?_
  refine (triple_true _).bind fun created => triple_ite (fun _ => ?_) fun _ => ?_
  · refine (triple_true _).bind fun _ => (triple_true _).bind fun _ => ?_
    exact (triple_true _).bind fun cur => triple_pure fun _ _ => rfl
  · exact triple_throw fun _ _ => trivial

theorem System.rebuild_name (backupPath restorePath dbName : Text) :
    Triple (fun _ : δ => True) (System.rebuild fs os backupPath restorePath dbName)
      (fun b _ => b.dataBaseName = dbName) (fun _ _ => True) := by
  have hrest : Triple (fun _ : δ => True) (do
      let _ ← fs.createDirectory restorePath
      System.copyTree fs backupPath restorePath
      DataBase.construct fs os restorePath dbName) (fun b _ => b.dataBaseName = dbName)
      (fun _ _ => True) :=
    (triple_true _).bind fun _ => (triple_true _).bind fun _ => DataBase.construct_name fs os _ _
  refine (triple_true _).bind fun found => ?_
  cases found with
  | true => exact (triple_true _).bind fun _ => hrest
  | false => exact hrest

end construct

namespace System
variable {δ : Type} {P : System δ → Prop}

/-- The property is one of the registry. -/
def DiskFree (P : System δ → Prop) : Prop := ∀ s d, P s → P { s with disk := d }

/-- The registry after a database has been registered. -/
def registered (s : System δ) (name : Text) (base : DataBase) : System δ :=
  { s with
    nameBase := insertNew s.nameBase name s.bases.length
    bases := s.bases ++ [some base] }

/-- The registry after a slot has been emptied and its name forgotten. -/
def dropped (s : System δ) (name : Text) (id : Nat) : System δ :=
  { s with
    nameBase := s.nameBase.filter fun p => p.1 ≠ name
    bases := s.bases.set id none }

theorem triple_onDisk {α : Type} {x : EStateM Fault δ α} {Q : α → Prop} (hP : DiskFree P)
    (hx : Triple (fun _ => True) x (fun a _ => Q a) (fun _ _ => True)) :
    Triple P (onDisk x) (fun a s => Q a ∧ P s) (fun _ => P) :=
  triple_zoom fun s hs => (hx s.disk trivial).mono (fun _ _ h => ⟨h, hP s _ hs⟩) fun _ _ _ => hP s _ hs

theorem triple_onDisk_true {α : Type} (x : EStateM Fault δ α) (hP : DiskFree P) :
    Triple P (onDisk x) (fun _ => P) (fun _ => P) :=
  (triple_onDisk hP (triple_true x)).conseq (fun _ h => h) (fun _ _ h => h.2) fun _ _ h => h

theorem triple_throwIf {c : Prop} [Decidable c] {e : Fault} :
    Triple P (throwIf c e) (fun _ => P) (fun _ => P) :=
  triple_ite (fun _ => triple_throw fun _ h => h) fun _ => triple_pure fun _ h => h

theorem triple_catchFilesystem {α : Type} {x : EStateM Fault (System δ) α}
    {handle : Text → EStateM Fault (System δ) α} {Q : α → System δ → Prop}
    {R : System δ → Prop} (hx : Triple P x Q (fun _ => R))
    (hh : ∀ what, Triple R (handle what) Q (fun _ => R)) :
    Triple P (catchFilesystem x handle) Q (fun _ => R) := by
  refine triple_tryCatch hx fun e => ?_
  cases e with
  | filesystemError what => exact hh what
  | _ => exact triple_throw fun _ h => h

theorem lookup_unregister (m : List (Text × Nat)) (name n : Text) :
    (m.filter fun p => p.1 ≠ name).lookup n = if n = name then none else m.lookup n := by
  induction m with
  | nil => simp
  | cons p m ih =>
    obtain ⟨k, v⟩ := p
    by_cases hk : k = name
    · rw [List.filter_cons_of_neg (by simpa using hk), ih, List.lookup_cons]
      by_cases hn : n = name
      · rw [if_pos hn, if_pos hn]
      · have hne : (n == k) = false := beq_eq_false_iff_ne.mpr fun h => hn (h.trans hk)
        simp only [hn, hne, if_false]
    · rw [List.filter_cons_of_pos (by simpa using hk), List.lookup_cons, ih, List.lookup_cons]
      by_cases hn : n = k
      · subst hn
        simp [hk]
      · have hne : (n == k) = false := beq_eq_false_iff_ne.mpr hn
        simp only [hne]

theorem getDataBase_slot {s : System δ} {name : Text} {base : DataBase} {id : Nat}
    (h : s.getDataBase name = .ok base) (hid : s.getDataBaseId name = .ok id) :
    s.bases[id]? = some (some base) := by
  unfold getDataBase at h
  rw [hid] at h
  change s.getDataBaseById id = .ok base at h
  unfold getDataBaseById at h
  split at h
  · cases h
  · cases h
  · cases h
    assumption

theorem run_onDisk_ok {s : System δ} {α : Type} {x : EStateM Fault δ α} {a : α} {d : δ} (h : x.run s.disk = .ok a d) :
    (onDisk x).run s = .ok a { s with disk := d } := by
  unfold onDisk
  rw [run_zoom, h]

theorem run_onDisk_error {s : System δ} {α : Type} {x : EStateM Fault δ α} {e : Fault} {d : δ}
    (h : x.run s.disk = .error e d) : (onDisk x).run s = .error e { s with disk := d } := by
  unfold onDisk
  rw [run_zoom, h]

section
variable (fs : FileSystem δ) (os : Os) (hdisk : DiskFree P)
include hdisk

theorem createDataBase_keeps {name : Text}
    (hreg : ∀ s base, P s → base.dataBaseName = name → P (s.registered name base)) :
    Triple P (createDataBase fs os name) (fun _ => P) (fun _ => P) := by
  unfold createDataBase
  refine triple_throwIf.bind fun _ => triple_throwIf.bind fun _ => triple_get fun s₀ _ => ?_
  refine (triple_onDisk_true _ hdisk).bind fun found => triple_throwIf.bind fun _ => ?_
  refine (triple_onDisk_true _ hdisk).bind fun created => triple_throwIf.bind fun _ => ?_
  refine (triple_onDisk hdisk (DataBase.construct_name fs os _ name)).bind fun base => ?_
  exact triple_modify fun s h => hreg s base h.2 h.1

theorem backUpDatabase_keeps (dbName backupName : Text) :
    Triple P (backUpDatabase fs dbName backupName) (fun _ => P) (fun _ => P) := by
  unfold backUpDatabase
  refine triple_get fun s₀ _ => triple_throwIf.bind fun _ => triple_throwIf.bind fun _ => ?_
  refine (triple_onDisk_true _ hdisk).bind fun found => triple_throwIf.bind fun _ => ?_
  refine (triple_onDisk_true _ hdisk).bind fun created => triple_throwIf.bind fun _ => ?_
  refine triple_catchFilesystem (triple_onDisk_true _ hdisk) fun what => ?_
  exact (triple_onDisk_true _ hdisk).bind fun _ => triple_throw fun _ h => h

/-- A table changes the database in its slot. -/
theorem createTable_keeps (ws : List Text)
    (hset : ∀ s id base base', P s → s.bases[id]? = some (some base) →
      base'.dataBaseName = base.dataBaseName → P { s with bases := s.bases.set id (some base') }) :
    Triple P (createTable fs os ws) (fun _ => P) (fun _ => P) := by
  unfold createTable
  refine triple_get_eq fun s₀ => ?_
  refine Triple.bind (Q := fun base s => P s ∧ s.getDataBase (RequestParser.next [] ws).1 = .ok base)
    (triple_ofExcept (fun base s h hs => ⟨hs.1, hs.2 ▸ h⟩) fun _ _ _ hs => hs.1) fun base => ?_
  refine triple_get_eq fun s₁ => ?_
  refine Triple.bind (Q := fun id s => P s ∧ s.bases[id]? = some (some base))
    (triple_ofExcept (fun id s h hs => ?_) fun _ _ _ hs => hs.1.1) fun id => ?_
  · obtain ⟨⟨hP, hbase⟩, rfl⟩ := hs
    exact ⟨hP, getDataBase_slot hbase h⟩
  · have hfree : DiskFree fun s : System δ => P s ∧ s.bases[id]? = some (some base) :=
      fun s d h => ⟨hdisk s d h.1, h.2⟩
    refine ((triple_onDisk hfree (DataBase.createTable_name fs os base _)).conseq (fun _ h => h)
      (fun _ _ h => h) fun _ _ h => h.1).bind fun base' => ?_
    refine triple_get_eq fun s₂ => triple_ite (fun _ => ?_) fun hlt => ?_
    · exact triple_modify fun s h => hset s id base base' h.1.2.1 h.1.2.2 h.1.1
    · exact triple_throw fun s h => h.1.2.1

/-- A drop empties the slot of a registered name. -/
theorem deleteDatabase_keeps (dbName : Text)
    (hdrop : ∀ s id, P s → s.nameBase.lookup dbName = some id → P (s.dropped dbName id)) :
    Triple P (deleteDatabase fs dbName) (fun _ => P) (fun _ => P) := by
  unfold deleteDatabase
  refine triple_get_eq fun s₀ => ?_
  cases hid : s₀.nameBase.lookup dbName with
  | none => exact triple_throw fun _ h => h.1
  | some id =>
      refine Triple.bind (Q := fun _ s => ∃ s', P s' ∧ s'.nameBase.lookup dbName = some id ∧
        s = { s' with bases := s'.bases.set id none }) ?_ fun _ => ?_
      · refine triple_get_eq fun s₁ => triple_ite (fun _ => ?_) fun _ => triple_throw fun _ h => h.1.1
        exact triple_modify fun s h => ⟨s, h.1.1, h.1.2 ▸ hid, rfl⟩
      · refine Triple.bind (Q := fun _ => P) (triple_modify ?_) fun _ => ?_
        · rintro s ⟨s', hP, hlookup, rfl⟩
          exact hdrop s' id hP hlookup
        · refine triple_get fun s₁ _ => ?_
          refine Triple.bind (Q := fun _ => P) ?_ fun _ => triple_pure fun _ h => h
          exact triple_catchFilesystem (triple_onDisk_true _ hdisk) fun what =>
            triple_throw fun _ h => h

/-- A restore of a name that is not registered registers it. -/
theorem restoreDatabase_new {s₀ : System δ} {dbName : Text} (hid : s₀.nameBase.lookup dbName = none)
    (backupName : Text)
    (hreg : ∀ s base, P s → base.dataBaseName = dbName → P (s.registered dbName base)) :
    Triple (fun s => P s ∧ s = s₀) (restoreDatabase fs os backupName dbName) (fun _ => P)
      (fun _ => P) := by
  unfold restoreDatabase
  refine triple_get_eq fun s₁ s hs => ?_
  obtain ⟨⟨hP, rfl⟩, rfl⟩ := hs
  rw [hid]
  dsimp only
  refine ((triple_onDisk_true (P := P) _ hdisk).bind fun found => triple_throwIf.bind fun _ => ?_) s hP
  refine triple_catchFilesystem ?_ fun what =>
    (triple_onDisk_true _ hdisk).bind fun _ => triple_throw fun _ h => h
  refine (triple_onDisk hdisk (rebuild_name fs os _ _ dbName)).bind fun base => ?_
  exact triple_modify fun s h => hreg s base h.2 h.1

/-- A restore of a registered name empties its slot and fills it with a database of
this name, if nothing throws in between. -/
theorem restoreDatabase_again {s₀ : System δ} {dbName : Text} {id : Nat}
    (hid : s₀.nameBase.lookup dbName = some id) (backupName : Text)
    (hempty : ∀ s id, P s → s.nameBase.lookup dbName = some id →
      P { s with bases := s.bases.set id none })
    (hfill : ∀ s id base, P s → s.nameBase.lookup dbName = some id →
      base.dataBaseName = dbName → P { s with bases := s.bases.set id (some base) }) :
    Triple (fun s => P s ∧ s = s₀) (restoreDatabase fs os backupName dbName) (fun _ => P)
      (fun _ => P) := by
  have hfree : DiskFree fun s : System δ => P s ∧ s.nameBase.lookup dbName = some id :=
    fun s d h => ⟨hdisk s d h.1, h.2⟩
  unfold restoreDatabase
  refine triple_get_eq fun s₁ s hs => ?_
  obtain ⟨⟨hP, rfl⟩, rfl⟩ := hs
  rw [hid]
  dsimp only
  refine Triple.bind (P := fun s => P s ∧ s.nameBase.lookup dbName = some id)
    (Q := fun _ s => P s ∧ s.nameBase.lookup dbName = some id)
    ((triple_onDisk_true _ hfree).conseq (fun _ h => h) (fun _ _ h => h) fun _ _ h => h.1)
    (fun found => ?_) s ⟨hP, hid⟩
  refine Triple.bind (Q := fun _ s => P s ∧ s.nameBase.lookup dbName = some id)
    (triple_throwIf.conseq (fun _ h => h) (fun _ _ h => h) fun _ _ h => h.1) fun _ => ?_
  refine Triple.bind (Q := fun _ s => P s ∧ s.nameBase.lookup dbName = some id) ?_ fun _ => ?_
  · refine triple_get_eq fun s₁ => triple_ite (fun _ => ?_) fun _ => triple_throw fun _ h => h.1.1
    exact triple_modify fun s h => ⟨hempty s id h.1.1 h.1.2, h.1.2⟩
  · refine triple_catchFilesystem ?_ fun what =>
      (triple_onDisk_true _ hdisk).bind fun _ => triple_throw fun _ h => h
    refine ((triple_onDisk hfree (rebuild_name fs os _ _ dbName)).conseq (fun _ h => h)
      (fun _ _ h => h) fun _ _ h => h.1).bind fun base => ?_
    refine triple_get_eq fun s₁ => triple_ite (fun _ => ?_) fun _ => triple_throw fun _ h => h.1.2.1
    exact triple_modify fun s h => hfill s id base h.1.2.1 h.1.2.2 h.1.1

/-- Start-up registers one database after the other. `i` is the number of slots. -/
theorem openBases_keeps (entries : List (Text × Bool)) (i : Nat)
    (hreg : ∀ s name base, P s → base.dataBaseName = name → P (s.registered name base)) :
    Triple (fun s => P s ∧ s.bases.length = i) (openBases fs os i entries) (fun _ => P)
      (fun _ => P) := by
  induction entries generalizing i with
  | nil => exact triple_pure fun _ h => h.1
  | cons entry entries ih =>
    obtain ⟨name, isDirectory⟩ := entry
    have hfree : DiskFree fun s : System δ => P s ∧ s.bases.length = i :=
      fun s d h => ⟨hdisk s d h.1, h.2⟩
    cases isDirectory with
    | false => exact ih i
    | true =>
        refine triple_get fun s₀ _ => ?_
        refine Triple.bind (Q := fun opened s => (∀ base ∈ opened, base.dataBaseName = name) ∧
          P s ∧ s.bases.length = i) ?_ fun opened => ?_
        · refine triple_tryCatch (triple_map ((triple_onDisk hfree
            (DataBase.construct_name fs os _ name)).conseq (fun _ h => h) (fun base s h => ?_)
              fun _ _ h => h)) fun e => ?_
          · exact ⟨fun b hb => by cases hb; exact h.1, h.2⟩
          · refine triple_ite (fun _ => triple_pure fun s h => ⟨?_, h⟩) fun _ =>
              triple_throw fun _ h => h.1
            exact fun b hb => by cases hb
        · cases opened with
          | none => exact (ih i).conseq (fun _ h => h.2) (fun _ _ h => h) fun _ _ h => h
          | some base =>
              refine Triple.bind (Q := fun _ s => P s ∧ s.bases.length = i + 1)
                (triple_modify fun s h => ⟨?_, ?_⟩) fun _ => ih (i + 1)
              · have hstate := hreg s name base h.2.1 (h.1 base rfl)
                unfold registered at hstate
                rw [h.2.2] at hstate
                exact hstate
              · rw [List.length_append, h.2.2, List.length_singleton]

theorem construct_keeps
    (hreg : ∀ s name base, P s → base.dataBaseName = name → P (s.registered name base)) :
    Triple (fun s => P s ∧ s.bases.length = 0) (construct fs os) (fun _ => P) (fun _ => P) := by
  have hfree : DiskFree fun s : System δ => P s ∧ s.bases.length = 0 :=
    fun s d h => ⟨hdisk s d h.1, h.2⟩
  have hthrow {c : Prop} [Decidable c] {e : Fault} :
      Triple (fun s : System δ => P s ∧ s.bases.length = 0) (throwIf c e)
        (fun _ s => P s ∧ s.bases.length = 0) (fun _ => P) :=
    triple_throwIf.conseq (fun _ h => h) (fun _ _ h => h) fun _ _ h => h.1
  have hcall {α : Type} (x : EStateM Fault δ α) :
      Triple (fun s : System δ => P s ∧ s.bases.length = 0) (onDisk x)
        (fun _ s => P s ∧ s.bases.length = 0) (fun _ => P) :=
    (triple_onDisk_true x hfree).conseq (fun _ h => h) (fun _ _ h => h) fun _ _ h => h.1
  unfold construct loadFoldersAndOpenBases
  refine triple_get fun s₀ _ => (hcall _).bind fun found => hthrow.bind fun _ => ?_
  refine (hcall _).bind fun isDirectory => hthrow.bind fun _ => triple_get fun s₁ _ => ?_
  refine (hcall _).bind fun entries => (openBases_keeps fs os hdisk entries 0 hreg).bind fun _ => ?_
  refine (triple_onDisk_true _ hdisk).bind fun empty => ?_
  dsimp only
  have hlast (c : Bool) (x : EStateM Fault δ Bool) : Triple P
      (if c then do let _ ← onDisk x else pure ()) (fun _ => P) (fun _ => P) := by
    refine triple_ite (fun _ => ?_) fun _ => triple_pure fun _ h => h
    exact (triple_onDisk_true _ hdisk).bind fun _ => triple_pure fun _ h => h
  refine triple_ite (fun _ => ?_) fun _ => hlast _ _
  refine (createDataBase_keeps fs os hdisk ?_).bind fun _ => hlast _ _
  exact fun s base hP hname => hreg s _ base hP hname

end

/-! Which name a slot stands for. -/

/-- Slot `id` has only ever held databases of the name `owners[id]`. -/
structure Owned (owners : List Text) (s : System δ) : Prop where
  length : owners.length = s.bases.length
  names : ∀ name id, s.nameBase.lookup name = some id → owners[id]? = some name
  slots : ∀ (id : Nat) (base : DataBase), s.bases[id]? = some (some base) →
    owners[id]? = some base.dataBaseName

section Owned
variable {owners : List Text} {s : System δ} {name : Text} {id : Nat} {base : DataBase}

theorem Owned.registered (h : Owned owners s) (hname : base.dataBaseName = name) :
    Owned (owners ++ [name]) (s.registered name base) := by
  refine ⟨?_, fun n k hk => ?_, fun k b hb => ?_⟩
  · change (owners ++ [name]).length = (s.bases ++ [some base]).length
    rw [List.length_append, List.length_append, h.length]
    rfl
  · change (insertNew s.nameBase name s.bases.length).lookup n = some k at hk
    rw [lookup_insertNew] at hk
    cases hn : s.nameBase.lookup n with
    | some k' =>
        rw [hn] at hk
        obtain rfl : k' = k := Option.some.inj hk
        have howner := h.names n k' hn
        rwa [List.getElem?_append_left (List.getElem?_eq_some_iff.mp howner).1]
    | none =>
        rw [hn, Option.none_or] at hk
        split at hk
        · rename_i heq
          cases hk
          rw [← h.length, heq]
          exact List.getElem?_concat_length
        · cases hk
  · change (s.bases ++ [some base])[k]? = some (some b) at hb
    rcases Nat.lt_or_ge k s.bases.length with hlt | hge
    · rw [List.getElem?_append_left hlt] at hb
      rw [List.getElem?_append_left (h.length ▸ hlt)]
      exact h.slots k b hb
    · rw [List.getElem?_append_right hge] at hb
      obtain ⟨hlen, hbase⟩ := List.getElem?_eq_some_iff.mp hb
      have hk : k = owners.length := by
        have := h.length
        simp only [List.length_singleton] at hlen
        omega
      simp only [List.getElem_singleton, Option.some.injEq] at hbase
      subst hk hbase
      rw [hname]
      exact List.getElem?_concat_length

theorem Owned.setSlot (h : Owned owners s) {slot : Option DataBase}
    (hslot : ∀ b ∈ slot, owners[id]? = some b.dataBaseName) :
    Owned owners { s with bases := s.bases.set id slot } := by
  refine ⟨?_, h.names, fun k b hb => ?_⟩
  · rw [List.length_set]
    exact h.length
  · change (s.bases.set id slot)[k]? = some (some b) at hb
    rw [List.getElem?_set] at hb
    split at hb
    · rename_i heq
      subst heq
      split at hb
      · exact hslot b (Option.some.inj hb)
      · cases hb
    · exact h.slots k b hb

theorem Owned.dropped (h : Owned owners s) : Owned owners (s.dropped name id) := by
  have hset : Owned owners { s with bases := s.bases.set id none } :=
    h.setSlot fun b hb => by cases hb
  refine ⟨?_, fun n k hk => ?_, hset.slots⟩
  · change owners.length = (s.bases.set id none).length
    rw [List.length_set]
    exact h.length
  · change (s.nameBase.filter fun p => p.1 ≠ name).lookup n = some k at hk
    rw [lookup_unregister] at hk
    split at hk
    · cases hk
    · exact h.names n k hk

end Owned

/-- Slots are added behind those there are. -/
def OwnedFrom (owners : List Text) (s : System δ) : Prop := ∃ more, Owned (owners ++ more) s

/-! Which slots are alive. -/

/-- Every registered name has its database. -/
def Live (s : System δ) : Prop :=
  ∀ name id, s.nameBase.lookup name = some id →
    ∃ base, s.bases[id]? = some (some base) ∧ base.dataBaseName = name

section Live
variable {s : System δ} {name : Text} {id : Nat} {base : DataBase}

theorem Live.id_unique (h : s.Live) {name' : Text} (hid : s.nameBase.lookup name = some id)
    (hid' : s.nameBase.lookup name' = some id) : name = name' := by
  obtain ⟨b, hb, rfl⟩ := h name id hid
  obtain ⟨b', hb', rfl⟩ := h name' id hid'
  rw [hb] at hb'
  cases hb'
  rfl

theorem Live.getDataBase (h : s.Live) (hid : s.getDataBaseId name = .ok id) :
    ∃ base, s.getDataBase name = .ok base ∧ base.dataBaseName = name := by
  unfold getDataBaseId at hid
  cases hlookup : s.nameBase.lookup name with
  | none =>
      rw [hlookup] at hid
      cases hid
  | some k =>
      obtain ⟨b, hb, hname⟩ := h name k hlookup
      refine ⟨b, ?_, hname⟩
      unfold System.getDataBase getDataBaseId
      rw [hlookup]
      change s.getDataBaseById k = .ok b
      unfold getDataBaseById
      rw [hb]

theorem Live.registered (h : s.Live) (hname : base.dataBaseName = name) :
    (s.registered name base).Live := by
  intro n k hk
  change (insertNew s.nameBase name s.bases.length).lookup n = some k at hk
  rw [lookup_insertNew] at hk
  cases hn : s.nameBase.lookup n with
  | some k' =>
      rw [hn] at hk
      obtain rfl : k' = k := Option.some.inj hk
      obtain ⟨b, hb, hbn⟩ := h n k' hn
      refine ⟨b, ?_, hbn⟩
      change (s.bases ++ [some base])[k']? = some (some b)
      rwa [List.getElem?_append_left (List.getElem?_eq_some_iff.mp hb).1]
  | none =>
      rw [hn, Option.none_or] at hk
      split at hk
      · rename_i heq
        cases hk
        exact ⟨base, List.getElem?_concat_length, hname.trans heq.symm⟩
      · cases hk

/-- A slot may be filled with another database of the name that has it. -/
theorem Live.setSlot (h : s.Live) (hname : s.nameBase.lookup base.dataBaseName = some id) :
    Live { s with bases := s.bases.set id (some base) } := by
  obtain ⟨b₀, hb₀, -⟩ := h _ _ hname
  have hlt := (List.getElem?_eq_some_iff.mp hb₀).1
  intro n k hk
  by_cases hkid : k = id
  · subst hkid
    refine ⟨base, List.getElem?_set_self hlt, h.id_unique hname hk⟩
  · obtain ⟨b, hb, hbn⟩ := h n k hk
    refine ⟨b, ?_, hbn⟩
    change (s.bases.set id (some base))[k]? = some (some b)
    rwa [List.getElem?_set_ne (Ne.symm hkid)]

/-- A slot may also be filled with a changed version of the database in it. -/
theorem Live.setBase (h : s.Live) {base' : DataBase} (hid : s.bases[id]? = some (some base))
    (hname : base'.dataBaseName = base.dataBaseName) :
    Live { s with bases := s.bases.set id (some base') } := by
  intro n k hk
  obtain ⟨b, hb, hbn⟩ := h n k hk
  by_cases hkid : k = id
  · subst hkid
    rw [hid] at hb
    cases hb
    exact ⟨base', List.getElem?_set_self (List.getElem?_eq_some_iff.mp hid).1, hname.trans hbn⟩
  · refine ⟨b, ?_, hbn⟩
    change (s.bases.set id (some base'))[k]? = some (some b)
    rwa [List.getElem?_set_ne (Ne.symm hkid)]

theorem Live.dropped (h : s.Live) (hid : s.nameBase.lookup name = some id) :
    (s.dropped name id).Live := by
  intro n k hk
  change (s.nameBase.filter fun p => p.1 ≠ name).lookup n = some k at hk
  rw [lookup_unregister] at hk
  split at hk
  · cases hk
  · rename_i hne
    obtain ⟨b, hb, hbn⟩ := h n k hk
    refine ⟨b, ?_, hbn⟩
    have hkid : id ≠ k := fun heq => hne (h.id_unique hk (heq ▸ hid))
    change (s.bases.set id none)[k]? = some (some b)
    rwa [List.getElem?_set_ne hkid]

end Live

/-- There are databases in these slots. -/
def Holding (used : Nat → Prop) (s : System δ) : Prop :=
  ∀ k, used k → ∃ base, s.bases[k]? = some (some base)

section Holding
variable {used : Nat → Prop} {s : System δ}

theorem Holding.registered (h : s.Holding used) (name : Text) (base : DataBase) :
    (s.registered name base).Holding used := by
  intro k hk
  obtain ⟨b, hb⟩ := h k hk
  refine ⟨b, ?_⟩
  change (s.bases ++ [some base])[k]? = some (some b)
  rwa [List.getElem?_append_left (List.getElem?_eq_some_iff.mp hb).1]

theorem Holding.setSlot (h : s.Holding used) {id : Nat} {slot : Option DataBase}
    (hslot : used id → ∃ base, slot = some base) :
    Holding used { s with bases := s.bases.set id slot } := by
  intro k hk
  obtain ⟨b, hb⟩ := h k hk
  by_cases hkid : k = id
  · subst hkid
    obtain ⟨base, rfl⟩ := hslot hk
    exact ⟨base, List.getElem?_set_self (List.getElem?_eq_some_iff.mp hb).1⟩
  · refine ⟨b, ?_⟩
    change (s.bases.set id slot)[k]? = some (some b)
    rwa [List.getElem?_set_ne (Ne.symm hkid)]

/-- The slot of this name is none of them. -/
def HoldingBut (used : Nat → Prop) (name : Text) (s : System δ) : Prop :=
  s.Holding used ∧ ∀ k, s.nameBase.lookup name = some k → ¬ used k

theorem HoldingBut.setSlot {name : Text} (h : s.HoldingBut used name) {id : Nat}
    (hid : s.nameBase.lookup name = some id) (slot : Option DataBase) :
    HoldingBut used name { s with bases := s.bases.set id slot } :=
  ⟨h.1.setSlot fun hused => absurd hused (h.2 id hid), h.2⟩

theorem HoldingBut.dropped {name : Text} (h : s.HoldingBut used name) {id : Nat}
    (hid : s.nameBase.lookup name = some id) : (s.dropped name id).HoldingBut used name := by
  refine ⟨(h.setSlot hid none).1, fun k hk => ?_⟩
  change (s.nameBase.filter fun p => p.1 ≠ name).lookup name = some k at hk
  rw [lookup_unregister, if_pos rfl] at hk
  cases hk

end Holding

end System
end SQLid
