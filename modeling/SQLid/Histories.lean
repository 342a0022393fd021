import SQLid.CatalogueRuns

/-!
# Histories

What happens at a server as a list that can be replayed, with a test for each entry. A
history that passes its tests is a run.
-/
namespace SQLid
open Bytes (Text)
open CppText (str)
open FileTree (Node Grown look children)
open Programs
open CommandsExecutor (onRegistry)

/-- A client comes, a message is answered, or the server is started again over a disk with
this backup. -/
inductive HistoryInput
  | connect
  | message (id : Nat) (buf : Text)
  | restart (b : FileName)

/-! What an entry does. -/

def SyncServer.connected (cwd : Loc) (sv : SyncServer Disk) : SyncServer Disk :=
  { sv.addNewClient with sys := sv.addNewClient.sys.synced cwd }

def SyncServer.answered (cwd : Loc) (os : Os) (sv : SyncServer Disk) (id : Nat) (buf : Text) : SyncServer Disk :=
  let sv' := finalState ((answerMessage (Disk.files cwd) os id buf).run sv)
  { sv' with sys := sv'.sys.synced cwd }

def SyncServer.restarted (cwd : Loc) (os : Os) (sv : SyncServer Disk) : SyncServer Disk :=
  .start ((finalState ((System.construct (Disk.files cwd) os).run
    (System.blank sv.sys.absolutePath sv.sys.disk))).synced cwd)

def SyncServer.replayed (cwd : Loc) (os : Os) (sv : SyncServer Disk) : HistoryInput → SyncServer Disk
  | .connect => sv.connected cwd
  | .message id buf => sv.answered cwd os id buf
  | .restart _ => sv.restarted cwd os

/-- The history, oldest entry first. -/
def SyncServer.replayHistory (cwd : Loc) (os : Os) : SyncServer Disk → List HistoryInput → SyncServer Disk
  | sv, [] => sv
  | sv, input :: rest => replayHistory cwd os (sv.replayed cwd os input) rest

/-! The tests. -/

def CommandsVariant.plain : CommandsVariant → Bool
  | .restoreDatabase backup base =>
      decide (IsFileName backup) && decide (IsFileName base) && decide (base ≠ System.backUpName)
  | .createTableForDatabase stream =>
      match DataBase.parseColumns (RequestParser.next [] (RequestParser.next [] stream).2).2 with
      | .ok columns =>
          decide ((1 + (columns.map (·.2.2)).sum) * 100 < 2 ^ 64) &&
            decide (columns.length ≤ InfoLoader.maxColumns)
      | .error _ => true
  | _ => true

theorem CommandsVariant.plain_sound {com : CommandsVariant} (h : com.plain = true) : com.Plain := by
  cases com with
  | restoreDatabase backup base =>
      simp only [plain, Bool.and_eq_true, decide_eq_true_eq] at h
      exact ⟨h.1.1, h.1.2, h.2⟩
  | createTableForDatabase stream =>
      intro columns hcolumns
      simp only [plain, hcolumns, Bool.and_eq_true, decide_eq_true_eq] at h
      exact ⟨h.1, h.2⟩
  | _ => trivial

/-- No growth was refused. -/
def granted {σ α : Type} : EStateM.Result Fault σ α → Bool
  | .ok _ _ => true
  | .error e _ =>
      decide (e ≠ .runtimeError (str "ftruncate failed")) && decide (e ≠ .runtimeError (str "mmap failed"))

theorem granted_sound {σ α : Type} {e : Fault} {s : σ}
    (h : granted (.error e s : EStateM.Result Fault σ α) = true) : ¬ e.IsGrowth := by
  simp only [granted, Bool.and_eq_true, decide_eq_true_eq] at h
  exact fun hgrowth => hgrowth.elim h.1 h.2

/-- A command a client outside of all databases sends is plain, and granted its growths. -/
def SyncServer.admits (cwd : Loc) (os : Os) (sv : SyncServer Disk) (id : Nat) (buf : Text) : Bool :=
  decide (id ∈ sv.threads) && decide (0 ∉ buf) && (sv.clients id).all fun client =>
    client.joinedToDataBase ||
      match CommandsParser.parse (CppText.words buf) with
      | .ok com => com.plain && granted ((onRegistry (Disk.files cwd) os com).run sv.sys)
      | .error _ => true

/-- The message is not about the database. -/
def SyncServer.spares (name : FileName) (sv : SyncServer Disk) (id : Nat) (buf : Text) : Bool :=
  (sv.clients id).all fun client =>
    if client.joinedToDataBase then decide (sv.sys.nameBase.lookup name.text ≠ some client.baseId)
    else
      match CommandsParser.parse (CppText.words buf) with
      | .ok com => decide (com.database ≠ some name.text)
      | .error _ => true

/-- The backup is there, and every directory of the root is granted its growths. -/
def SyncServer.restartable (cwd R : Loc) (os : Os) (sv : SyncServer Disk) (b : FileName) : Bool :=
  decide (Disk.node cwd sv.sys.disk (joinPath (joinPath sv.sys.absolutePath System.backUpName) b.text) = some .dir) &&
    (children sv.sys.disk R).all (fun entry => granted
      ((DataBase.construct (Disk.files cwd) os (sv.sys.absolutePath ++ str "/" ++ entry.1.text) entry.1.text).run
        sv.sys.disk)) &&
    isOk ((System.construct (Disk.files cwd) os).run (System.blank sv.sys.absolutePath sv.sys.disk))

/-- Each entry passes its test, and each message another one too. -/
def SyncServer.passes (cwd R : Loc) (os : Os) (check : SyncServer Disk → Nat → Text → Bool) :
    SyncServer Disk → List HistoryInput → Bool
  | _, [] => true
  | sv, input :: rest =>
      (match input with
        | .connect => true
        | .message id buf => sv.admits cwd os id buf && check sv id buf
        | .restart b => sv.restartable cwd R os b) &&
      passes cwd R os check (sv.replayed cwd os input) rest

section
variable {cwd R : Loc} {os : Os} {sv sv' : SyncServer Disk} {st : Catalogue} {id : Nat} {buf : Text}

theorem SyncServer.admits_sound (h : sv.admits cwd os id buf = true) :
    id ∈ sv.threads ∧ Regular cwd os sv id buf := by
  simp only [admits, Bool.and_eq_true, decide_eq_true_eq] at h
  obtain ⟨⟨hthread, hzero⟩, hall⟩ := h
  refine ⟨hthread, hzero, fun client com hclient hjoined hparse => ?_⟩
  rw [hclient, Option.all_some, hjoined, Bool.false_or, hparse] at hall
  simp only [Bool.and_eq_true] at hall
  refine ⟨CommandsVariant.plain_sound hall.1, fun e s' hrun => ?_⟩
  rw [hrun] at hall
  exact granted_sound hall.2

theorem SyncServer.spares_sound {name : FileName} (h : sv.spares name id buf = true) :
    ¬ Touched sv id buf name := by
  rintro ⟨client, hclient, hcase⟩
  unfold spares at h
  rw [hclient, Option.all_some] at h
  rcases hcase with ⟨hjoined, hlookup⟩ | ⟨hjoined, com, hparse, habout⟩
  · rw [if_pos hjoined] at h
    exact of_decide_eq_true h hlookup
  · rw [if_neg (Bool.eq_false_iff.mp hjoined), hparse] at h
    exact of_decide_eq_true h habout

theorem Holds.growing (hholds : Holds cwd R System.areaName sv.sys st) {b : FileName}
    (h : sv.restartable cwd R os b = true) : System.Growing cwd os sv.sys.disk sv.sys.absolutePath := by
  simp only [SyncServer.restartable, Bool.and_eq_true, List.all_eq_true] at h
  refine System.growing_dirs os hholds.opens fun name hdir e d' hrun => ?_
  have hopen := h.1.2 _ (hholds.disk.grown.mem_children.mpr hdir)
  dsimp only at hopen
  rw [hrun] at hopen
  exact granted_sound hopen

/-- A history that passes its tests is a run. -/
theorem Run.replayed {ok : SyncServer Disk → Nat → Text → Prop} {check : SyncServer Disk → Nat → Text → Bool}
    (hok : ∀ sv id buf, check sv id buf = true → ok sv id buf) {sv₀ : SyncServer Disk}
    (hholds : Holds cwd R System.areaName sv₀.sys st) {inputs : List HistoryInput} (hrun : Run cwd os ok sv₀ sv)
    (h : sv.passes cwd R os check inputs = true) : Run cwd os ok sv₀ (sv.replayHistory cwd os inputs) := by
  induction inputs generalizing sv with
  | nil => exact hrun
  | cons input rest ih =>
      simp only [SyncServer.passes, Bool.and_eq_true] at h
      obtain ⟨hfirst, hrest⟩ := h
      refine ih ?_ hrest
      cases input with
      | connect => exact .step hrun (.connect sv)
      | message id buf =>
          simp only [Bool.and_eq_true] at hfirst
          obtain ⟨hthread, hregular⟩ := SyncServer.admits_sound hfirst.1
          exact .step hrun (.message id buf hthread ⟨hregular, hok sv id buf hfirst.2⟩)
      | restart b =>
          obtain ⟨acts, st', -, hholds', -⟩ := hrun.holds (Q := fun _ => True) (fun _ _ _ _ _ _ => trivial) hholds
          have hgrowing := hholds'.growing hfirst
          simp only [SyncServer.restartable, Bool.and_eq_true, decide_eq_true_eq] at hfirst
          exact .restart hrun ⟨b, hfirst.1.1⟩ hgrowing (eq_ok_of_isOk hfirst.2)

end
end SQLid
