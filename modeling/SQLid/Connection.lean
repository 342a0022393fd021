import SQLid.Library.Pieces
import SQLid.Variants

/-!
# Messages on a connection

`SQLid_API::sendText` on the client's side, `BaseConnection` and the loop of
`SyncServer::processQueries` on the other, over a stream of bytes that arrives in
pieces and may end anywhere.
-/
namespace SQLid
open Bytes (Text)
open CppText (str)

/-- One call of `sendText`: the text, and how many bytes of its length `write_some` took. -/
structure Sending where
  text : Text
  written : Nat
  written_pos : 0 < written
  written_le : written ≤ 8
  fits : text.length ≤ maxSize

def Sending.header (m : Sending) : Text := (Bytes.leBytes 8 m.text.length).take m.written

def Sending.bytes (m : Sending) : Text := m.header ++ m.text

def sent (ms : List Sending) : Text := ms.flatMap Sending.bytes

/-- What the loop keeps: the pieces not read yet, the number and the error of the last
turn. `position` counts the bytes read. -/
structure Reading where
  pieces : List Text
  num : Nat := 0
  err : Bool := false
  position : Nat := 0

/-- `read_some` into `num`, its error dropped; what it does not fill stays. -/
def Reading.readNumber (r : Reading) : Reading :=
  match Pieces.readSome 8 r.pieces with
  | none => r
  | some (bs, rest) =>
      { r with pieces := rest, num := Bytes.overwrite 8 r.num bs, position := r.position + bs.length }

/-- A text acted on and where its bytes begin in the stream. -/
abbrev Request := Nat × Text

/-- How one turn of the loop ends. -/
inductive Turn
  | ended
  | crashed
  | last (request : Request)
  | acted (request : Request) (r : Reading)

/-- The body of the loop; `reply` tells whether the answer can be written. -/
def processQuery (reply : Bool) (r : Reading) : Turn :=
  let r := r.readNumber
  if r.err then .ended
  else if maxSize < r.num then .crashed
  else match Pieces.readAll r.num r.pieces with
    | none => .ended
    | some (buf, rest) =>
        let request := (r.position, buf)
        let r := { r with pieces := rest, position := r.position + r.num }
        if buf = str "DISCONNECT" then .last request
        else if buf = str "LEAVE" then .acted request { r with err := !reply }
        else if reply then .acted request { r with err := false }
        else .last request

/-- The loop: what it has acted on when it is left, unless it is not within `fuel` turns
or an exception ends the thread. -/
def processQueries (reply : Nat → Bool) : Nat → Nat → Reading → Option (List Request)
  | 0, _, _ => none
  | fuel + 1, i, r =>
      match processQuery (reply i) r with
      | .ended => some []
      | .crashed => none
      | .last request => some [request]
      | .acted request r => (processQueries reply fuel (i + 1) r).map (request :: ·)

/-! What the loop should act on. -/

/-- The connection is over after this message. -/
def IsLast (reply : Bool) (text : Text) : Prop := text = str "DISCONNECT" ∨ reply = false

instance (reply : Bool) (text : Text) : Decidable (IsLast reply text) :=
  inferInstanceAs (Decidable (text = str "DISCONNECT" ∨ reply = false))

/-- The messages all of whose bytes are among the first `total`, up to the last one of
the connection. -/
def arrived (reply : Nat → Bool) : Nat → Nat → Nat → List Sending → List Request
  | _, _, _, [] => []
  | i, position, total, m :: ms =>
      if m.bytes.length ≤ total then
        (position + m.written, m.text) ::
          if IsLast (reply i) m.text then []
          else arrived reply (i + 1) (position + m.bytes.length) (total - m.bytes.length) ms
      else []

/-! When it does. -/

/-- The number held at the end, its low bytes overwritten by what one read gets of the
rest, is more than what is left after them. -/
def Starved (num : Nat) (pieces : List Text) : Prop :=
  let r := Reading.readNumber { pieces, num }
  r.pieces.flatten.length < r.num ∧ r.num ≤ maxSize

/-- One read gets the length as it was written, and the bytes that were not written are
those of the length before. -/
def Framed (num : Nat) (m : Sending) (pieces rest : List Text) : Prop :=
  Pieces.readSome 8 pieces = some (m.header, rest) ∧
    num / 256 ^ m.written = m.text.length / 256 ^ m.written

/-- Each message that is there is framed, and nothing follows the last one that the loop
could take for another. -/
inductive Delivered (reply : Nat → Bool) : Nat → Nat → List Text → List Sending → Prop
  | rest {i num : Nat} {pieces : List Text} {ms : List Sending} :
      (∀ m ∈ ms.head?, pieces.flatten.length < m.bytes.length) → Starved num pieces →
      Delivered reply i num pieces ms
  | last {i num : Nat} {pieces rest rest' : List Text} {m : Sending} {ms : List Sending} :
      Framed num m pieces rest → Pieces.readAll m.text.length rest = some (m.text, rest') →
      IsLast (reply i) m.text → Delivered reply i num pieces (m :: ms)
  | message {i num : Nat} {pieces rest rest' : List Text} {m : Sending} {ms : List Sending} :
      Framed num m pieces rest → Pieces.readAll m.text.length rest = some (m.text, rest') →
      ¬ IsLast (reply i) m.text → Delivered reply (i + 1) m.text.length rest' ms →
      Delivered reply i num pieces (m :: ms)

/-- The loop is left, and these are what it acted on. -/
def Serves (reply : Nat → Bool) (i : Nat) (r : Reading) (requests : List Request) : Prop :=
  ∃ fuel, processQueries reply fuel i r = some requests

section Turn
variable {reply : Nat → Bool} {i : Nat} {r r' : Reading} {requests : List Request}
  {request : Request}

theorem serves_ended (h : processQuery (reply i) r = .ended) :
    Serves reply i r requests ↔ requests = [] := by
  constructor
  · rintro ⟨fuel, hrun⟩
    cases fuel with
    | zero => cases hrun
    | succ fuel =>
        rw [processQueries, h] at hrun
        exact (Option.some.inj hrun).symm
  · rintro rfl
    exact ⟨1, by rw [processQueries, h]⟩

theorem not_serves_crashed (h : processQuery (reply i) r = .crashed) :
    ¬ Serves reply i r requests := by
  rintro ⟨fuel, hrun⟩
  cases fuel with
  | zero => cases hrun
  | succ fuel =>
      rw [processQueries, h] at hrun
      cases hrun

theorem serves_last (h : processQuery (reply i) r = .last request) :
    Serves reply i r requests ↔ requests = [request] := by
  constructor
  · rintro ⟨fuel, hrun⟩
    cases fuel with
    | zero => cases hrun
    | succ fuel =>
        rw [processQueries, h] at hrun
        exact (Option.some.inj hrun).symm
  · rintro rfl
    exact ⟨1, by rw [processQueries, h]⟩

theorem serves_acted (h : processQuery (reply i) r = .acted request r') :
    Serves reply i r requests ↔
      ∃ others, requests = request :: others ∧ Serves reply (i + 1) r' others := by
  constructor
  · rintro ⟨fuel, hrun⟩
    cases fuel with
    | zero => cases hrun
    | succ fuel =>
        rw [processQueries, h] at hrun
        obtain ⟨others, hothers, rfl⟩ := Option.map_eq_some_iff.1 hrun
        exact ⟨others, rfl, fuel, hothers⟩
  · rintro ⟨others, rfl, fuel, hothers⟩
    refine ⟨fuel + 1, ?_⟩
    rw [processQueries, h]
    exact Option.map_eq_some_iff.2 ⟨others, hothers, rfl⟩

theorem readNumber_err (r : Reading) : r.readNumber.err = r.err := by
  unfold Reading.readNumber
  cases Pieces.readSome 8 r.pieces <;> rfl

theorem readNumber_noErr (h : r.err = false) : ¬ r.readNumber.err = true := by
  rw [readNumber_err, h]
  decide

theorem processQuery_failed {reply : Bool} (h : r.err = true) : processQuery reply r = .ended := by
  have herr : r.readNumber.err = true := (readNumber_err r).trans h
  unfold processQuery
  exact if_pos herr

theorem processQuery_crashed {reply : Bool} (h : r.err = false) (hmax : maxSize < r.readNumber.num) :
    processQuery reply r = .crashed := by
  have herr := readNumber_noErr h
  unfold processQuery
  exact (if_neg herr).trans (if_pos hmax)

theorem processQuery_starved {reply : Bool} (h : r.err = false) (hmax : r.readNumber.num ≤ maxSize)
    (hread : Pieces.readAll r.readNumber.num r.readNumber.pieces = none) :
    processQuery reply r = .ended := by
  have herr := readNumber_noErr h
  unfold processQuery
  dsimp only
  rw [if_neg herr, if_neg (Nat.not_lt.2 hmax), hread]

/-- After the last message of the connection the loop is left, at once or, when the
answer to a LEAVE fails, at the next turn. -/
theorem serves_isLast {buf : Text} {rest : List Text} (h : r.err = false)
    (hmax : r.readNumber.num ≤ maxSize)
    (hread : Pieces.readAll r.readNumber.num r.readNumber.pieces = some (buf, rest))
    (hlast : IsLast (reply i) buf) :
    Serves reply i r requests ↔ requests = [(r.readNumber.position, buf)] := by
  have herr := readNumber_noErr h
  have hturn : processQuery (reply i) r = .last (r.readNumber.position, buf) ∨
      ∃ r', r'.err = true ∧ processQuery (reply i) r = .acted (r.readNumber.position, buf) r' := by
    unfold processQuery
    dsimp only
    rw [if_neg herr, if_neg (Nat.not_lt.2 hmax), hread]
    dsimp only
    rcases hlast with hdis | hreply
    · exact .inl (if_pos hdis)
    · rw [hreply]
      by_cases hdis : buf = str "DISCONNECT"
      · exact .inl (if_pos hdis)
      · rw [if_neg hdis]
        by_cases hleave : buf = str "LEAVE"
        · rw [if_pos hleave]
          exact .inr ⟨_, rfl, rfl⟩
        · rw [if_neg hleave]
          exact .inl rfl
  rcases hturn with hturn | ⟨r', herr', hturn⟩
  · exact serves_last hturn
  · rw [serves_acted hturn]
    constructor
    · rintro ⟨others, rfl, hothers⟩
      rw [(serves_ended (processQuery_failed herr')).1 hothers]
    · rintro rfl
      exact ⟨[], rfl, (serves_ended (processQuery_failed herr')).2 rfl⟩

theorem processQuery_acted {buf : Text} {rest : List Text} (h : r.err = false)
    (hmax : r.readNumber.num ≤ maxSize)
    (hread : Pieces.readAll r.readNumber.num r.readNumber.pieces = some (buf, rest))
    (hlast : ¬ IsLast (reply i) buf) :
    processQuery (reply i) r = .acted (r.readNumber.position, buf)
      { pieces := rest, num := r.readNumber.num,
        position := r.readNumber.position + r.readNumber.num } := by
  have herr := readNumber_noErr h
  obtain ⟨hdis, hreply⟩ := not_or.1 hlast
  rw [Bool.not_eq_false] at hreply
  unfold processQuery
  dsimp only
  rw [if_neg herr, if_neg (Nat.not_lt.2 hmax), hread, hreply]
  dsimp only
  rw [if_neg hdis]
  by_cases hleave : buf = str "LEAVE"
  · rw [if_pos hleave]
    rfl
  · rw [if_neg hleave]
    rfl

end Turn

/-! The two agree turn by turn. -/

theorem Sending.length_header (m : Sending) : m.header.length = m.written := by
  unfold Sending.header
  rw [List.length_take, Bytes.length_leBytes, Nat.min_eq_left m.written_le]

theorem Sending.length_bytes (m : Sending) : m.bytes.length = m.written + m.text.length := by
  unfold Sending.bytes
  rw [List.length_append, m.length_header]

theorem readNumber_some (num position : Nat) {pieces rest : List Text} {bs : Text}
    (h : Pieces.readSome 8 pieces = some (bs, rest)) :
    Reading.readNumber { pieces, num, position } =
      { pieces := rest, num := Bytes.overwrite 8 num bs, position := position + bs.length } := by
  unfold Reading.readNumber
  rw [h]

/-- At the end nothing more is acted on exactly if the loop starves. -/
theorem serves_nil_iff {reply : Nat → Bool} {i num position : Nat} {pieces : List Text} :
    Serves reply i { pieces, num, position } [] ↔ Starved num pieces := by
  have hsame : (Reading.readNumber { pieces, num, position }).num =
      (Reading.readNumber { pieces, num }).num ∧
      (Reading.readNumber { pieces, num, position }).pieces =
      (Reading.readNumber { pieces, num }).pieces := by
    unfold Reading.readNumber
    dsimp only
    cases Pieces.readSome 8 pieces <;> exact ⟨rfl, rfl⟩
  unfold Starved
  dsimp only
  rw [← hsame.1, ← hsame.2]
  by_cases hmax : (Reading.readNumber { pieces, num, position }).num ≤ maxSize
  · cases hread : Pieces.readAll (Reading.readNumber { pieces, num, position }).num
        (Reading.readNumber { pieces, num, position }).pieces with
    | none =>
        rw [serves_ended (processQuery_starved rfl hmax hread)]
        exact ⟨fun _ => ⟨Pieces.readAll_none hread, hmax⟩, fun _ => rfl⟩
    | some found =>
        obtain ⟨buf, rest⟩ := found
        obtain ⟨hflat, hlen⟩ := Pieces.readAll_some hread
        constructor
        · intro hserves
          by_cases hlast : IsLast (reply i) buf
          · cases (serves_isLast rfl hmax hread hlast).1 hserves
          · obtain ⟨others, hnil, -⟩ := (serves_acted (processQuery_acted rfl hmax hread hlast)).1 hserves
            cases hnil
        · rintro ⟨hleft, -⟩
          rw [hflat, List.length_append, hlen] at hleft
          omega
  · exact ⟨fun h => absurd h (not_serves_crashed (processQuery_crashed rfl (Nat.not_le.1 hmax))),
      fun h => absurd h.2 hmax⟩

/-- A message that is there is acted on exactly if it is framed. -/
theorem serves_cons_iff {reply : Nat → Bool} {i num position : Nat} {pieces : List Text}
    {m : Sending} {tail : Text} {requests : List Request} (hnum : num ≤ maxSize)
    (hpieces : pieces.flatten = m.bytes ++ tail) :
    Serves reply i { pieces, num, position } ((position + m.written, m.text) :: requests) ↔
      ∃ rest rest', Framed num m pieces rest ∧
        Pieces.readAll m.text.length rest = some (m.text, rest') ∧ rest'.flatten = tail ∧
        ((IsLast (reply i) m.text ∧ requests = []) ∨ ¬ IsLast (reply i) m.text ∧
          Serves reply (i + 1) (.mk rest' m.text.length false (position + m.bytes.length))
            requests) := by
  have hwidth : maxSize < 256 ^ 8 := by decide
  have hover := Bytes.overwrite_eq_iff m.written_le (Nat.lt_of_le_of_lt hnum hwidth)
    (Nat.lt_of_le_of_lt m.fits hwidth)
  rw [← Sending.header] at hover
  have hheader : ∀ bs rest, Pieces.readSome 8 pieces = some (bs, rest) → bs.length = m.written →
      bs = m.header ∧ rest.flatten = m.text ++ tail := by
    intro bs rest hread hlen
    have hflat := (Pieces.readSome_some hread).1
    rw [hpieces, Sending.bytes, List.append_assoc] at hflat
    obtain ⟨hbs, hrest⟩ := List.append_inj hflat (m.length_header.trans hlen.symm)
    exact ⟨hbs.symm, hrest.symm⟩
  constructor
  · intro hserves
    cases hsome : Pieces.readSome 8 pieces with
    | none =>
        -- a message that is there has a header
        have hnil := Pieces.readSome_none hsome
        have hlen := congrArg List.length (hnil.symm.trans hpieces)
        rw [List.length_append, m.length_bytes] at hlen
        have hpos := m.written_pos
        simp only [List.length_nil] at hlen
        omega
    | some found =>
        obtain ⟨bs, rest⟩ := found
        have hturn := readNumber_some num position hsome
        have hmax : (Reading.readNumber { pieces, num, position }).num ≤ maxSize := by
          by_contra hmax
          exact not_serves_crashed (processQuery_crashed rfl (Nat.not_le.1 hmax)) hserves
        cases hread : Pieces.readAll (Reading.readNumber { pieces, num, position }).num
            (Reading.readNumber { pieces, num, position }).pieces with
        | none => cases (serves_ended (processQuery_starved rfl hmax hread)).1 hserves
        | some found =>
            obtain ⟨buf, rest'⟩ := found
            -- what is acted on is the message only if the header was read as it was written
            have hsame : ∀ {others : List Request},
                (position + m.written, m.text) :: requests =
                  ((Reading.readNumber { pieces, num, position }).position, buf) :: others →
                bs.length = m.written ∧ buf = m.text ∧ requests = others := by
              intro others heq
              rw [hturn] at heq
              obtain ⟨hfirst, hothers⟩ := List.cons.inj heq
              obtain ⟨hpos, hbuf⟩ := Prod.mk.inj hfirst
              exact ⟨(Nat.add_left_cancel hpos).symm, hbuf.symm, hothers⟩
            have hframed : bs.length = m.written → buf = m.text → Framed num m pieces rest ∧
                Pieces.readAll m.text.length rest = some (m.text, rest') ∧ rest'.flatten = tail ∧
                (Reading.readNumber { pieces, num, position }).num = m.text.length ∧
                (Reading.readNumber { pieces, num, position }).position +
                  (Reading.readNumber { pieces, num, position }).num = position + m.bytes.length := by
              rintro hlen rfl
              obtain ⟨rfl, hrest⟩ := hheader bs rest hsome hlen
              obtain ⟨hflat, hnumber⟩ := Pieces.readAll_some hread
              rw [hturn] at hread hflat hnumber ⊢
              dsimp only at hread hflat hnumber ⊢
              rw [← hnumber] at hread ⊢
              rw [hrest] at hflat
              refine ⟨⟨hsome, hover.1 hnumber.symm⟩, hread, (List.append_cancel_left hflat).symm, rfl, ?_⟩
              rw [m.length_header, m.length_bytes, Nat.add_assoc]
            by_cases hlast : IsLast (reply i) buf
            · obtain ⟨hlen, rfl, hothers⟩ := hsame ((serves_isLast rfl hmax hread hlast).1 hserves)
              obtain ⟨hframe, hall, htail, -, -⟩ := hframed hlen rfl
              exact ⟨rest, rest', hframe, hall, htail, .inl ⟨hlast, hothers⟩⟩
            · obtain ⟨others, heq, hothers⟩ :=
                (serves_acted (processQuery_acted rfl hmax hread hlast)).1 hserves
              obtain ⟨hlen, rfl, rfl⟩ := hsame heq
              obtain ⟨hframe, hall, htail, hnumber, hposition⟩ := hframed hlen rfl
              rw [hposition, hnumber] at hothers
              exact ⟨rest, rest', hframe, hall, htail, .inr ⟨hlast, hothers⟩⟩
  · rintro ⟨rest, rest', ⟨hsome, hhigh⟩, hread, htail, hnext⟩
    have hturn := readNumber_some num position hsome
    rw [hover.2 hhigh, m.length_header] at hturn
    have hmax : (Reading.readNumber { pieces, num, position }).num ≤ maxSize := by
      rw [hturn]
      exact m.fits
    have hall : Pieces.readAll (Reading.readNumber { pieces, num, position }).num
        (Reading.readNumber { pieces, num, position }).pieces = some (m.text, rest') := by
      rw [hturn]
      exact hread
    rcases hnext with ⟨hlast, rfl⟩ | ⟨hlast, hserves⟩
    · rw [serves_isLast rfl hmax hall hlast, hturn]
    · rw [serves_acted (processQuery_acted rfl hmax hall hlast), hturn]
      rw [m.length_bytes, ← Nat.add_assoc] at hserves
      exact ⟨requests, rfl, hserves⟩

theorem flatten_of_reads {pieces rest rest' : List Text} {m : Sending}
    (hsome : Pieces.readSome 8 pieces = some (m.header, rest))
    (hall : Pieces.readAll m.text.length rest = some (m.text, rest')) :
    pieces.flatten = m.bytes ++ rest'.flatten := by
  rw [(Pieces.readSome_some hsome).1, (Pieces.readAll_some hall).1, Sending.bytes,
    List.append_assoc]

theorem prefix_of_reads {pieces rest rest' : List Text} {m : Sending}
    (hsome : Pieces.readSome 8 pieces = some (m.header, rest))
    (hall : Pieces.readAll m.text.length rest = some (m.text, rest')) :
    m.bytes.length ≤ pieces.flatten.length := by
  rw [flatten_of_reads hsome hall, List.length_append]
  exact Nat.le_add_right _ _

theorem arrived_nil {reply : Nat → Bool} {i position total : Nat} {ms : List Sending}
    (h : ∀ m ∈ ms.head?, total < m.bytes.length) : arrived reply i position total ms = [] := by
  cases ms with
  | nil => rfl
  | cons m ms => exact if_neg (Nat.not_le.2 (h m rfl))

/-- The loop acts on the messages that have arrived, and on nothing else, exactly if they
are delivered so. -/
theorem served_iff (reply : Nat → Bool) (ms : List Sending) {pieces : List Text}
    (h : pieces.flatten <+: sent ms) :
    Serves reply 0 { pieces } (arrived reply 0 0 pieces.flatten.length ms) ↔
      Delivered reply 0 0 pieces ms := by
  have hgen : ∀ (ms : List Sending) (i num position : Nat) (pieces : List Text), num ≤ maxSize →
      pieces.flatten <+: sent ms →
      (Serves reply i { pieces, num, position }
        (arrived reply i position pieces.flatten.length ms) ↔ Delivered reply i num pieces ms) := by
    intro ms
    induction ms with
    | nil =>
        intro i num position pieces _ _
        have hnone : ∀ m ∈ ([] : List Sending).head?, pieces.flatten.length < m.bytes.length :=
          fun m hm => by cases hm
        rw [arrived_nil hnone, serves_nil_iff]
        constructor
        · exact .rest hnone
        · rintro (⟨_, hstarved⟩ | _ | _)
          exact hstarved
    | cons m ms ih =>
        intro i num position pieces hnum hprefix
        have hsent : sent (m :: ms) = m.bytes ++ sent ms := rfl
        by_cases hthere : m.bytes.length ≤ pieces.flatten.length
        · obtain ⟨tail, hpieces⟩ : m.bytes <+: pieces.flatten :=
            List.prefix_of_prefix_length_le (List.prefix_append _ _) (hsent ▸ hprefix) hthere
          have htail : tail <+: sent ms := by
            rw [← hpieces, hsent] at hprefix
            exact (List.prefix_append_right_inj _).1 hprefix
          have hleft : pieces.flatten.length - m.bytes.length = tail.length := by
            rw [← hpieces, List.length_append]
            omega
          rw [arrived, if_pos hthere, hleft, serves_cons_iff hnum hpieces.symm]
          constructor
          · rintro ⟨rest, rest', hframe, hall, rfl, ⟨hlast, _⟩ | ⟨hlast, hserves⟩⟩
            · exact .last hframe hall hlast
            · rw [if_neg hlast] at hserves
              exact .message hframe hall hlast ((ih _ _ _ _ m.fits htail).1 hserves)
          · intro hdelivered
            cases hdelivered with
            | rest hnone _ => exact absurd hthere (Nat.not_le.2 (hnone m rfl))
            | @last _ _ _ rest rest' _ _ hframe hall hlast =>
                exact ⟨rest, rest', hframe, hall, List.append_cancel_left ((flatten_of_reads hframe.1 hall).symm.trans hpieces.symm),
                  .inl ⟨hlast, if_pos hlast⟩⟩
            | @message _ _ _ rest rest' _ _ hframe hall hlast hnext =>
                have hflat := List.append_cancel_left ((flatten_of_reads hframe.1 hall).symm.trans hpieces.symm)
                refine ⟨rest, rest', hframe, hall, hflat, .inr ⟨hlast, ?_⟩⟩
                rw [if_neg hlast, ← hflat]
                rw [← hflat] at htail
                exact (ih _ _ _ _ m.fits htail).2 hnext
        · have hnone : ∀ n ∈ (m :: ms).head?, pieces.flatten.length < n.bytes.length := by
            rintro _ ⟨⟩
            exact Nat.not_le.1 hthere
          rw [arrived_nil hnone, serves_nil_iff]
          constructor
          · exact .rest hnone
          · intro hdelivered
            cases hdelivered with
            | rest _ hstarved => exact hstarved
            | last hframe hall _ => exact absurd (prefix_of_reads hframe.1 hall) hthere
            | message hframe hall _ _ => exact absurd (prefix_of_reads hframe.1 hall) hthere
  exact hgen ms 0 0 0 pieces (Nat.zero_le maxSize) h

/-- `SHOW`, its length written at once. -/
def sampleSending : Sending := ⟨str "SHOW", 8, by decide, by decide, by decide⟩

def attachSending : Sending := ⟨str "ATTACH TO shop", 8, by decide, by decide, by decide⟩

def selectSending : Sending := ⟨str "SELECT * FROM t", 8, by decide, by decide, by decide⟩

/-- Two messages in three pieces, with a cut inside the text of each. -/
def cutPieces : List Text :=
  let all := sent [attachSending, selectSending]
  [all.take 14, (all.drop 14).take 20, all.drop 34]

theorem served_iff_sample :
    Serves (fun _ => true) 0 { pieces := cutPieces }
      [(8, str "ATTACH TO shop"), (30, str "SELECT * FROM t")] := by
  have hprefix : cutPieces.flatten <+: sent [attachSending, selectSending] := by decide
  refine (served_iff (fun _ => true) [attachSending, selectSending] hprefix).2 ?_
  have hstarved : Starved 15 [[]] := ⟨by decide, by decide⟩
  have hend : Delivered (fun _ => true) 2 selectSending.text.length [[]] [] :=
    .rest (fun m hm => by cases hm) hstarved
  have hselect : Delivered (fun _ => true) 1 attachSending.text.length
      [selectSending.header ++ str "SELE", str "CT * FROM t"] [selectSending] :=
    .message ⟨rfl, rfl⟩ rfl (by decide) hend
  have hattach : Framed 0 attachSending cutPieces
      [str "ATTACH", str " TO shop" ++ selectSending.header ++ str "SELE", str "CT * FROM t"] :=
    ⟨rfl, rfl⟩
  exact .message hattach rfl (by decide) hselect

/-- The same bytes with the length in two pieces: the loop takes four of its zeros for
the text. -/
theorem split_header_misread :
    ¬ Serves (fun _ => true) 0
        { pieces := [sampleSending.bytes.take 4, sampleSending.bytes.drop 4] }
        (arrived (fun _ => true) 0 0 12 [sampleSending]) := by
  have hprefix : [sampleSending.bytes.take 4, sampleSending.bytes.drop 4].flatten <+:
      sent [sampleSending] := List.prefix_rfl
  -- one read gets half of the length
  have hsplit : (Pieces.readSome 8
      [sampleSending.bytes.take 4, sampleSending.bytes.drop 4]).map Prod.fst ≠
      some sampleSending.header := by decide
  intro hserves
  cases (served_iff (fun _ => true) [sampleSending] hprefix).1 hserves with
  | rest hnone _ => exact absurd (hnone sampleSending rfl) (by decide)
  | last hframe _ _ => exact hsplit (congrArg (Option.map Prod.fst) hframe.1)
  | message hframe _ _ _ => exact hsplit (congrArg (Option.map Prod.fst) hframe.1)

end SQLid
