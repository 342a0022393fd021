import SQLid.Connection
import SQLid.Sessions

/-!
# What the server writes

`send_json` and `shutdownAll` on one side of each connection, `readText` and `readJson`
of `SQLid_API` on the other. `boost::json::serialize` is a parameter.
-/
namespace SQLid
open Bytes (Text)
open CppText (str)
open Programs

inductive JsonField where
  | bool (b : Bool)
  | string (s : Text)
  | strings (texts : List Text)
  | rows (body : List (List VariantTypes))
  | size (n : Nat)
  deriving DecidableEq, Repr

abbrev Json := List (Text × JsonField)

/-- `to_json`: the fields of the object in the order they are set. -/
def Result.toJson (r : Result) : Json :=
  (str "success", .bool r.isSucces) ::
    if !r.isSucces then [(str "error", .string r.error)]
    else
      (if r.messeage.isEmpty then [] else [(str "message", .string r.messeage)]) ++
        (if r.header.isEmpty then [] else [(str "headers", .strings r.header)]) ++
        (if r.types.isEmpty then [] else [(str "types", .strings r.types)]) ++
        (if r.body.isEmpty then [] else [(str "data", .rows r.body)]) ++
        [(str "total_rows", .size r.body.length)]

/-- The bytes of `send_json`. -/
def frame (text : Text) : Text := Bytes.leBytes 8 text.length ++ text

namespace SqlidApi

/-- The text `readJson` parses, and what is left of the stream. -/
def readJson (pieces : List Text) : Option (Text × List Text) := do
  let (size, pieces) ← Pieces.readAll 8 pieces
  Pieces.readAll (Bytes.leNat size) pieces

/-- One `read_some` fills `size`, which is zero before. -/
def readText (pieces : List Text) : Option (Text × List Text) := do
  let (size, pieces) ← Pieces.readSome 8 pieces
  Pieces.readAll (Bytes.overwrite 8 0 size) pieces

def readReply (byText : Bool) (pieces : List Text) : Option (Text × List Text) :=
  if byText then readText pieces else readJson pieces

/-- One call after the other, each of `readText` or of `readJson`. -/
def readReplies : List Bool → List Text → Option (List Text)
  | [], _ => some []
  | byText :: calls, pieces => do
      let (text, pieces) ← readReply byText pieces
      return text :: (← readReplies calls pieces)

/-- No `read_some` of `readText` gets a length in part. -/
def Unsplit : List Bool → List Text → Prop
  | [], _ => True
  | byText :: calls, pieces =>
      (byText = true → ∀ size rest, Pieces.readSome 8 pieces = some (size, rest) → size.length = 8) ∧
        ∀ text rest, readReply byText pieces = some (text, rest) → Unsplit calls rest

theorem leNat_header {text header : Text} (hfit : text.length ≤ maxSize)
    (h : header = Bytes.leBytes 8 text.length) : Bytes.leNat header = text.length := by
  rw [h, Bytes.leNat_leBytes]
  apply Nat.mod_eq_of_lt
  simp only [maxSize] at hfit
  omega

theorem overwrite_header {text header : Text} (hfit : text.length ≤ maxSize)
    (h : header = Bytes.leBytes 8 text.length) : Bytes.overwrite 8 0 header = text.length := by
  have hlen : header.length = 8 := by rw [h, Bytes.length_leBytes]
  have hnone : (Bytes.leBytes 8 0).drop header.length = [] := by
    apply List.drop_eq_nil_of_le
    rw [Bytes.length_leBytes, hlen]
  simp only [Bytes.overwrite, hnone, List.append_nil]
  exact leNat_header hfit h

theorem readAll_of_append {xs ys : Text} {pieces : List Text} (h : pieces.flatten = xs ++ ys) :
    ∃ rest, Pieces.readAll xs.length pieces = some (xs, rest) ∧ rest.flatten = ys := by
  have hle : xs.length ≤ pieces.flatten.length := by
    rw [h, List.length_append]
    exact Nat.le_add_right _ _
  obtain ⟨rest, hread, hrest⟩ := Pieces.readAll_of_le hle
  rw [h, List.take_left] at hread
  rw [h, List.drop_left] at hrest
  exact ⟨rest, hread, hrest⟩

section reads
variable {size : Text} {pieces rest : List Text} {r : Option (Text × List Text)}

theorem readJson_of_size (hsize : Pieces.readAll 8 pieces = some (size, rest))
    (hread : Pieces.readAll (Bytes.leNat size) rest = r) : readJson pieces = r := by
  simp only [readJson, hsize, Option.bind_eq_bind, Option.bind_some, hread]

theorem readText_of_size (hsize : Pieces.readSome 8 pieces = some (size, rest))
    (hread : Pieces.readAll (Bytes.overwrite 8 0 size) rest = r) : readText pieces = r := by
  simp only [readText, hsize, Option.bind_eq_bind, Option.bind_some, hread]

end reads

/-- A reader gets the text of a frame, `readText` unless the length comes in parts. -/
theorem readReply_frame {text tail : Text} (hfit : text.length ≤ maxSize) {pieces : List Text}
    (h : pieces.flatten = frame text ++ tail) (byText : Bool)
    (hsize : byText = true → ∀ size rest, Pieces.readSome 8 pieces = some (size, rest) → size.length = 8) :
    ∃ rest, readReply byText pieces = some (text, rest) ∧ rest.flatten = tail := by
  obtain ⟨header, hheader⟩ : ∃ header, header = Bytes.leBytes 8 text.length := ⟨_, rfl⟩
  have hlength : header.length = 8 := by rw [hheader, Bytes.length_leBytes]
  simp only [frame, ← hheader, List.append_assoc] at h
  cases byText with
  | false =>
      obtain ⟨rest, hread, hrest⟩ := readAll_of_append h
      obtain ⟨rest', hread', hrest'⟩ := readAll_of_append hrest
      rw [hlength] at hread
      rw [← leNat_header hfit hheader] at hread'
      exact ⟨rest', readJson_of_size hread hread', hrest'⟩
  | true =>
      cases hsome : Pieces.readSome 8 pieces with
      | none =>
          have hnil := congrArg List.length (Pieces.readSome_none hsome)
          rw [h] at hnil
          simp only [List.length_append, hlength, List.length_nil] at hnil
          omega
      | some found =>
          obtain ⟨size, rest⟩ := found
          have hflat := (Pieces.readSome_some hsome).1
          rw [h] at hflat
          have hlen := hsize rfl size rest hsome
          obtain ⟨rfl, hrest⟩ := List.append_inj hflat (hlength.trans hlen.symm)
          obtain ⟨rest', hread', hrest'⟩ := readAll_of_append hrest.symm
          rw [← overwrite_header hfit hheader] at hread'
          exact ⟨rest', readText_of_size hsome hread', hrest'⟩

/-- Frames are read back one by one. -/
theorem readReplies_frames {texts : List Text} (hfit : ∀ text ∈ texts, text.length ≤ maxSize)
    {calls : List Bool} (hcalls : calls.length ≤ texts.length) {pieces : List Text}
    (h : pieces.flatten = texts.flatMap frame) (hunsplit : Unsplit calls pieces) :
    readReplies calls pieces = some (texts.take calls.length) := by
  induction calls generalizing texts pieces with
  | nil => rfl
  | cons byText calls ih =>
      cases texts with
      | nil => cases hcalls
      | cons text texts =>
          rw [List.flatMap_cons] at h
          obtain ⟨hsize, hnext⟩ := hunsplit
          obtain ⟨rest, hread, hrest⟩ := readReply_frame (hfit text List.mem_cons_self) h byText hsize
          have hothers := ih (fun t ht => hfit t (List.mem_cons_of_mem text ht))
            (Nat.le_of_succ_le_succ hcalls) hrest (hnext text rest hread)
          unfold readReplies
          rw [hread]
          change (readReplies calls rest >>= _) = _
          rw [hothers]
          rfl

end SqlidApi

/-- What a connection takes of a text; a write that fails stops after `cut` bytes. -/
def taken (cut : Option Nat) (text : Text) : Text :=
  match cut with
  | none => text
  | some k => text.take k

/-- The server and its connections. `received` are the messages read from each, `answers`
those with an answer, `written` the bytes that went out. -/
structure Talk (δ : Type) where
  server : SyncServer δ
  accepting : Bool
  received : Nat → List Text
  answers : Nat → List (Text × Result)
  written : Nat → Text

namespace Talk
variable {δ : Type}

def start (server : SyncServer δ) : Talk δ := ⟨server, true, fun _ => [], fun _ => [], fun _ => []⟩

/-- What can happen: a client comes, a message has been read, the server shuts down. Writes
may be cut. -/
inductive Event
  | connect
  | message (id : Nat) (buf : Text) (cut : Option Nat)
  | shutdownAll (cut : Nat → Option Nat)

def push {α : Type} (f : Nat → List α) (id : Nat) (xs : List α) : Nat → List α :=
  Function.update f id (f id ++ xs)

section push
variable {α : Type} {f : Nat → List α} {id : Nat} {xs : List α}

@[simp] theorem push_self : push f id xs id = f id ++ xs := Function.update_self ..

theorem push_other {i : Nat} (h : i ≠ id) : push f id xs i = f i := Function.update_of_ne h ..

end push

variable (fs : FileSystem δ) (os : Os) (serialize : Json → Text)

def reply (result : Result) : Text := frame (serialize result.toJson)

/-- An exception in a thread ends the process; after a write that fails the loop is left
before another message is read. -/
def answer (id : Nat) (buf : Text) (cut : Option Nat) (talk : Talk δ) : Talk δ :=
  match (SyncServer.answerMessage fs os id buf).run talk.server with
  | .error _ server =>
      { talk with
        server := { server with threads := [] }
        accepting := false
        received := push talk.received id [buf] }
  | .ok result server =>
      { talk with
        server := if cut = none then server else { server with threads := server.threads.erase id }
        received := push talk.received id [buf]
        answers := push talk.answers id [(buf, result)]
        written := push talk.written id (taken cut (reply serialize result)) }

/-- `sendText` of `BaseConnection` has no length before the text; connections whose loop
has ended are still among the clients. -/
def shutdownAll (cut : Nat → Option Nat) (talk : Talk δ) : Talk δ :=
  { talk with
    server := { talk.server with clients := fun _ => none, threads := [] }
    accepting := false
    written := fun id =>
      if (talk.server.clients id).isSome then talk.written id ++ taken (cut id) (str "DISCONNECT")
      else talk.written id }

def after (talk : Talk δ) : Event → Talk δ
  | .connect => { talk with server := talk.server.addNewClient }
  | .message id buf cut => talk.answer fs os serialize id buf cut
  | .shutdownAll cut => talk.shutdownAll cut

def Possible (talk : Talk δ) : Event → Prop
  | .connect => talk.accepting = true
  | .message id _ _ => id ∈ talk.server.threads
  | .shutdownAll _ => True

/-- Any events in any order, those that meet `ok`. -/
inductive Run (ok : Talk δ → Event → Prop) (talk : Talk δ) : Talk δ → Prop
  | refl : Run ok talk talk
  | step {talk' : Talk δ} (event : Event) : Run ok talk talk' → Possible talk' event →
      ok talk' event → Run ok talk (talk'.after fs os serialize event)

/-- On one connection each message has its answer, what is written is their frames in
order and at most one more, and the client reads the texts back. -/
def InFrames (talk : Talk δ) (id : Nat) : Prop :=
  talk.received id = (talk.answers id).map Prod.fst ∧
    ∃ notices : List Text, notices.length ≤ 1 ∧
      let texts := (talk.answers id).map (fun a : Text × Result => serialize a.2.toJson) ++ notices
      talk.written id = texts.flatMap frame ∧
        ∀ calls pieces, calls.length ≤ texts.length → pieces.flatten = talk.written id →
          SqlidApi.Unsplit calls pieces →
          SqlidApi.readReplies calls pieces = some (texts.take calls.length)

/-- The executor answers and the connection takes the reply; at the end no connection
takes a byte of the notification. -/
def Answered (talk : Talk δ) : Event → Prop
  | .connect => True
  | .message id buf cut =>
      Programs.isOk ((SyncServer.answerMessage fs os id buf).run talk.server) = true ∧ cut = none
  | .shutdownAll cut => ∀ id, (talk.server.clients id).isSome = true → cut id = some 0

/-- The answers of a connection are framed and nothing else is written. -/
def Written (talk : Talk δ) (id : Nat) : Prop :=
  talk.received id = (talk.answers id).map Prod.fst ∧
    talk.written id = (talk.answers id).flatMap fun a : Text × Result => reply serialize a.2

variable {fs os serialize}

theorem written_answer {talk : Talk δ} {id : Nat} {buf : Text}
    (hok : Programs.isOk ((SyncServer.answerMessage fs os id buf).run talk.server) = true)
    (h : ∀ i, Written serialize talk i) (i : Nat) :
    Written serialize (talk.answer fs os serialize id buf none) i := by
  obtain ⟨hreceived, hwritten⟩ := h i
  simp only [answer]
  cases hrun : (SyncServer.answerMessage fs os id buf).run talk.server with
  | error e server =>
      rw [hrun] at hok
      cases hok
  | ok result server =>
      by_cases hi : i = id
      · subst hi
        constructor
        · simp only [push_self, List.map_append, List.map_cons, List.map_nil, hreceived]
        · simp only [push_self, List.flatMap_append, List.flatMap_cons, List.flatMap_nil,
            List.append_nil, hwritten, taken]
      · constructor
        · simp only [push_other hi, hreceived]
        · simp only [push_other hi, hwritten]

theorem written_shutdownAll {talk : Talk δ} {cut : Nat → Option Nat}
    (hcut : ∀ id, (talk.server.clients id).isSome = true → cut id = some 0) {i : Nat}
    (h : Written serialize talk i) : Written serialize (talk.shutdownAll cut) i := by
  refine ⟨h.1, ?_⟩
  simp only [shutdownAll]
  split_ifs with hclient
  · rw [hcut i hclient, ← h.2]
    simp only [taken, List.take_zero, List.append_nil]
  · exact h.2

theorem written_after {talk : Talk δ} {event : Event} (hok : Answered fs os talk event)
    (h : ∀ i, Written serialize talk i) (i : Nat) :
    Written serialize (talk.after fs os serialize event) i := by
  cases event with
  | connect => exact h i
  | message id buf cut =>
      obtain ⟨hanswered, rfl⟩ := hok
      exact written_answer hanswered h i
  | shutdownAll cut => exact written_shutdownAll hok (h i)

theorem run_written {server : SyncServer δ} {talk : Talk δ}
    (h : Run fs os serialize (Answered fs os) (start server) talk) (i : Nat) :
    Written serialize talk i := by
  induction h generalizing i with
  | refl => exact ⟨rfl, rfl⟩
  | step event _ _ hok ih => exact written_after hok ih i

theorem Written.inFrames (hfits : ∀ json, (serialize json).length ≤ maxSize) {talk : Talk δ} {id : Nat}
    (h : Written serialize talk id) : InFrames serialize talk id := by
  have hwritten : talk.written id =
      ((talk.answers id).map (fun a : Text × Result => serialize a.2.toJson) ++ []).flatMap frame := by
    rw [List.append_nil, List.flatMap_map, h.2]
    rfl
  refine ⟨h.1, [], Nat.zero_le 1, hwritten, fun calls pieces hcalls hflat hunsplit => ?_⟩
  refine SqlidApi.readReplies_frames ?_ hcalls (hflat.trans hwritten) hunsplit
  intro text htext
  rw [List.append_nil] at htext
  obtain ⟨a, -, rfl⟩ := List.mem_map.1 htext
  exact hfits a.2.toJson

end Talk

/-- What is written stays in frames as long as every message is answered, every reply
taken whole and no byte of a notification goes out. -/
theorem replies_in_frames {δ : Type} (fs : FileSystem δ) (os : Os) (serialize : Json → Text)
    (hfits : ∀ json, (serialize json).length ≤ maxSize) {server : SyncServer δ} {talk : Talk δ}
    (h : Talk.Run fs os serialize (Talk.Answered fs os) (Talk.start server) talk) (id : Nat) :
    Talk.InFrames serialize talk id :=
  (Talk.run_written h id).inFrames hfits

namespace Talk

/-- The texts of flags, of strings without escapes and of sizes. -/
def sampleField : JsonField → Text
  | .bool b => if b then str "true" else str "false"
  | .string s => 34 :: s ++ [34]
  | .size n => str (Nat.repr n)
  | .strings _ | .rows _ => str "[]"

def sampleSerialize (json : Json) : Text :=
  let fields := json.map fun (key, field) => (34 :: key) ++ [34, 58] ++ sampleField field
  (123 :: List.intercalate [44] fields ++ [125]).take maxSize

/-- A client before it sends anything. -/
def sampleConnected : Talk Bool :=
  (start (SyncServer.sampleStart false)).after SyncServer.sampleFiles .reliable sampleSerialize .connect

def sampleAnswered : Talk Bool :=
  sampleConnected.after SyncServer.sampleFiles .reliable sampleSerialize
    (.message 0 (str "CREATE DATABASE shop") none)

theorem sampleConnected_run (ok : Talk Bool → Event → Prop)
    (hok : ok (start (SyncServer.sampleStart false)) .connect) :
    Run SyncServer.sampleFiles .reliable sampleSerialize ok (start (SyncServer.sampleStart false))
      sampleConnected := .step .connect .refl rfl hok

end Talk

/-- The client reads that its database was created. -/
theorem replies_in_frames_sample : Talk.InFrames Talk.sampleSerialize Talk.sampleAnswered 0 := by
  refine replies_in_frames SyncServer.sampleFiles .reliable Talk.sampleSerialize
    (fun json => List.length_take_le maxSize _)
    (.step (.message 0 (str "CREATE DATABASE shop") none)
      (Talk.sampleConnected_run (Talk.Answered SyncServer.sampleFiles .reliable) trivial) ?_ ?_) 0
  · change 0 ∈ (SyncServer.sampleStart false).addNewClient.threads
    exact List.mem_cons_self
  · constructor
    · decide +kernel
    · rfl

theorem frame_ne_disconnect {text : Text} (h : frame text = str "DISCONNECT") : False := by
  have hlen := congrArg List.length h
  simp only [frame, List.length_append, Bytes.length_leBytes] at hlen
  have htwo : text.length = 2 := by
    change 8 + text.length = 10 at hlen
    omega
  rw [frame, htwo] at h
  cases h

/-- A client that has sent nothing gets the notification without a length. -/
theorem notification_without_length :
    Talk.Run SyncServer.sampleFiles .reliable Talk.sampleSerialize (fun _ _ => True)
        (Talk.start (SyncServer.sampleStart false)) (Talk.sampleConnected.shutdownAll fun _ => none) ∧
      ¬ Talk.InFrames Talk.sampleSerialize (Talk.sampleConnected.shutdownAll fun _ => none) 0 := by
  constructor
  · exact .step (.shutdownAll fun _ => none) (Talk.sampleConnected_run _ trivial) trivial trivial
  · rintro ⟨-, notices, hone, hwritten, -⟩
    have hnotices : notices.flatMap frame = str "DISCONNECT" := hwritten.symm
    rcases notices with _ | ⟨text, _ | ⟨other, others⟩⟩
    · cases hnotices
    · rw [List.flatMap_cons, List.flatMap_nil, List.append_nil] at hnotices
      exact frame_ne_disconnect hnotices
    · simp only [List.length_cons] at hone
      omega
end SQLid
