import SQLid.Library.Bytes
import Mathlib.Data.List.TakeWhile

/-!
# C++ text and number conversion

Strings are byte strings. A stream of an in-memory command is the list of
its whitespace-separated words; reading a number may leave the rest of a word
behind, which is then the next word.
-/
namespace CppText
open Bytes (Text)

/-- A string literal of the source as bytes. -/
def str (s : String) : Text := s.toList.map fun c => UInt8.ofNat c.toNat

/-- `std::isspace` in the "C" locale. -/
def isSpace (b : UInt8) : Bool := b == 32 || (9 ≤ b && b ≤ 13)

def isDigit (b : UInt8) : Bool := 48 ≤ b && b ≤ 57

def words (s : Text) : List Text := (s.splitOnP isSpace).filter fun w => !w.isEmpty

def decimal (ds : Text) : Nat := ds.foldl (fun n b => 10 * n + (b.toNat - 48)) 0

/-- An optional sign and the rest; the flag says that the sign was a minus. -/
def splitSign : Text → Bool × Text
  | 45 :: s => (true, s)
  | 43 :: s => (false, s)
  | s => (false, s)

/-- A formatted input stream over a string: the words not read yet and `failbit`. -/
structure IStream where
  rest : List Text
  fail : Bool

def IStream.ofText (s : Text) : IStream := ⟨words s, false⟩

/-- `stream >> word`; at the end the target keeps its value and the stream fails. -/
def IStream.word (s : IStream) : Option Text × IStream :=
  if s.fail then (none, s)
  else match s.rest with
    | [] => (none, { s with fail := true })
    | w :: ws => (some w, { s with rest := ws })

/-- `stream >> n` for a 64-bit unsigned `n` whose value before was `old`. A word
without digits stores zero and fails, an overflow stores the maximum and fails,
and a minus sign negates modulo 2^64. -/
def IStream.size (s : IStream) (old : Nat) : Nat × IStream :=
  if s.fail then (old, s)
  else match s.rest with
    | [] => (old, { s with fail := true })
    | w :: ws =>
        let (minus, body) := splitSign w
        let ds := body.takeWhile isDigit
        if ds = [] then (0, ⟨ws, true⟩)
        else if 2 ^ 64 ≤ decimal ds then (2 ^ 64 - 1, ⟨ws, true⟩)
        else
          let v := if minus then (2 ^ 64 - decimal ds) % 2 ^ 64 else decimal ds
          match body.dropWhile isDigit with
          | [] => (v, ⟨ws, false⟩)
          | left => (v, ⟨left :: ws, false⟩)

/-- What `std::stoi` and its relatives throw. -/
inductive ConvError where
  | invalidArgument
  | outOfRange
  deriving DecidableEq, Repr

/-- Sign and magnitude of the longest decimal prefix, blanks skipped. -/
def integerPrefix (s : Text) : Option (Bool × Nat) :=
  let (minus, body) := splitSign (s.dropWhile isSpace)
  match body.takeWhile isDigit with
  | [] => none
  | ds => some (minus, decimal ds)

/-- A signed conversion of the given width, as a bit pattern. -/
def signedPrefix (w : Nat) (s : Text) : Except ConvError (BitVec w) :=
  match integerPrefix s with
  | none => .error .invalidArgument
  | some (minus, n) =>
      if minus then
        if n ≤ 2 ^ (w - 1) then .ok (-(BitVec.ofNat w n)) else .error .outOfRange
      else
        if n < 2 ^ (w - 1) then .ok (BitVec.ofNat w n) else .error .outOfRange

def stoi (s : Text) : Except ConvError (BitVec 32) := signedPrefix 32 s
def stoll (s : Text) : Except ConvError (BitVec 64) := signedPrefix 64 s

/-- `std::stoul` takes a minus sign and negates modulo 2^64. -/
def stoul (s : Text) : Except ConvError Nat :=
  match integerPrefix s with
  | none => .error .invalidArgument
  | some (minus, n) =>
      if 2 ^ 64 ≤ n then .error .outOfRange
      else .ok (if minus then (2 ^ 64 - n) % 2 ^ 64 else n)

theorem stoul_lt {s : Text} {n : Nat} (h : stoul s = .ok n) : n < 2 ^ 64 := by
  unfold stoul at h
  split at h
  · cases h
  · split at h
    · cases h
    · rename_i minus m hm
      cases h
      split
      · exact Nat.mod_lt _ (by decide)
      · omega

/-! Rendered text: words with blanks between them, and numbers in decimal. -/

/-- What a stream reads as one word. -/
def IsWord (w : Text) : Prop := w ≠ [] ∧ ∀ b ∈ w, isSpace b = false

instance (w : Text) : Decidable (IsWord w) :=
  @instDecidableAnd _ _ _ (List.decidableBAll _ w)

/-- The words in order, at least one blank between each two. -/
inductive Spaced : List Text → Text → Prop
  | nil : Spaced [] []
  | single (w : Text) : Spaced [w] w
  | cons (w gap : Text) {ws : List Text} {s : Text} : gap ≠ [] → (∀ b ∈ gap, isSpace b = true) →
      Spaced ws s → Spaced (w :: ws) (w ++ gap ++ s)

/-- One blank between two words. -/
theorem Spaced.blank (w : Text) {ws : List Text} {s : Text} (h : Spaced ws s) :
    Spaced (w :: ws) (w ++ [32] ++ s) := by
  refine .cons w [32] (List.cons_ne_nil _ _) (fun b hb => ?_) h
  rw [List.mem_singleton.1 hb]
  rfl

theorem words_word {w : Text} (h : IsWord w) : words w = [w] := by
  unfold words
  rw [List.splitOnP_eq_singleton h.2]
  simp [h.1]

/-- The pieces between the blanks are cut out of the text. -/
theorem mem_pieces {s piece : Text} (h : piece ∈ s.splitOnP isSpace) : ∀ b ∈ piece, isSpace b = false ∧ b ∈ s := by
  induction s generalizing piece with
  | nil =>
      rw [List.splitOnP_nil, List.mem_singleton] at h
      simp [h]
  | cons c s ih =>
      rw [List.splitOnP_cons_eq_if_modifyHead] at h
      split_ifs at h with hc
      · rcases List.mem_cons.mp h with rfl | h
        · simp
        · exact fun b hb => ⟨(ih h b hb).1, List.mem_cons_of_mem c (ih h b hb).2⟩
      · cases hsplit : s.splitOnP isSpace with
        | nil => exact absurd hsplit (List.splitOnP_ne_nil isSpace s)
        | cons first rest =>
            rw [hsplit] at h ih
            have hkeep {other : Text} (hin : other ∈ first :: rest) (b : UInt8) (hb : b ∈ other) :
                isSpace b = false ∧ b ∈ c :: s := ⟨(ih hin b hb).1, List.mem_cons_of_mem c (ih hin b hb).2⟩
            rcases List.mem_cons.mp h with rfl | h
            · intro b hb
              rcases List.mem_cons.mp hb with rfl | hb
              · exact ⟨Bool.eq_false_iff.mpr hc, List.mem_cons_self⟩
              · exact hkeep List.mem_cons_self b hb
            · exact hkeep (List.mem_cons_of_mem first h)

theorem isWord_of_mem {s w : Text} (h : w ∈ words s) : IsWord w := by
  obtain ⟨hin, hne⟩ := List.mem_filter.mp h
  exact ⟨by simpa using hne, fun b hb => (mem_pieces hin b hb).1⟩

theorem mem_of_mem_word {s w : Text} (h : w ∈ words s) {b : UInt8} (hb : b ∈ w) : b ∈ s :=
  (mem_pieces (List.mem_filter.mp h).1 b hb).2

theorem words_blanks {gap : Text} (h : ∀ b ∈ gap, isSpace b = true) (s : Text) :
    words (gap ++ s) = words s := by
  induction gap with
  | nil => rfl
  | cons b gap ih =>
      have hfirst := List.splitOnP_append_cons [] (gap ++ s) (h b List.mem_cons_self)
      rw [List.nil_append] at hfirst
      rw [← ih fun c hc => h c (List.mem_cons_of_mem b hc)]
      unfold words
      rw [List.cons_append, hfirst]
      rfl

theorem words_cons {w gap : Text} (hw : IsWord w) (hne : gap ≠ [])
    (h : ∀ b ∈ gap, isSpace b = true) (s : Text) : words (w ++ gap ++ s) = w :: words s := by
  cases gap with
  | nil => exact absurd rfl hne
  | cons b gap =>
      have hrest := words_blanks (fun c hc => h c (List.mem_cons_of_mem b hc)) s
      rw [← hrest, List.append_assoc, List.cons_append]
      unfold words
      rw [List.splitOnP_append_cons_of_forall_mem hw.2 b (h b List.mem_cons_self),
        List.filter_cons_of_pos (by simp [hw.1])]

theorem Spaced.words {ws : List Text} {s : Text} (h : Spaced ws s) (hw : ∀ w ∈ ws, IsWord w) :
    words s = ws := by
  induction h with
  | nil => rfl
  | single w => exact words_word (hw w List.mem_cons_self)
  | cons w gap hne hgap _ ih =>
      rw [words_cons (hw w List.mem_cons_self) hne hgap,
        ih fun v hv => hw v (List.mem_cons_of_mem w hv)]

theorem Spaced.words_append {ws : List Text} {s gap : Text} (h : Spaced ws s)
    (hw : ∀ w ∈ ws, IsWord w) (hne : gap ≠ []) (hgap : ∀ b ∈ gap, isSpace b = true) (rest : Text) :
    CppText.words (s ++ gap ++ rest) = ws ++ CppText.words rest := by
  induction h with
  | nil => exact words_blanks hgap rest
  | single w => exact words_cons (hw w List.mem_cons_self) hne hgap rest
  | cons w gap' hne' hgap' _ ih =>
      have htail := ih fun v hv => hw v (List.mem_cons_of_mem w hv)
      rw [List.append_assoc, List.append_assoc, ← List.append_assoc _ gap rest,
        words_cons (hw w List.mem_cons_self) hne' hgap', htail, List.cons_append]

/-- Texts joined with blanks, to the end of a line. -/
theorem words_line {α : Type} {cs : List α} {text : α → Text} {ws : α → List Text}
    (h : ∀ c ∈ cs, Spaced (ws c) (text c) ∧ ∀ w ∈ ws c, IsWord w) (rest : Text) :
    words ((str " ").intercalate (cs.map text) ++ str "\n" ++ rest) =
      cs.flatMap ws ++ words rest := by
  have hgap (s : String) (hs : str s = [32] ∨ str s = [10]) : ∀ b ∈ str s, isSpace b = true := by
    intro b hb
    rcases hs with hs | hs
    · rw [hs, List.mem_singleton] at hb
      rw [hb]
      rfl
    · rw [hs, List.mem_singleton] at hb
      rw [hb]
      rfl
  induction cs with
  | nil => exact words_blanks (hgap "\n" (.inr rfl)) rest
  | cons c cs ih =>
      have hrest := ih fun d hd => h d (List.mem_cons_of_mem c hd)
      obtain ⟨hspaced, hwords⟩ := h c List.mem_cons_self
      rw [List.flatMap_cons, List.append_assoc (ws c)]
      cases cs with
      | nil =>
          rw [List.map_cons, List.map_nil, List.intercalate_singleton,
            hspaced.words_append hwords (by decide) (hgap "\n" (.inr rfl))]
          rfl
      | cons d cs =>
          rw [List.map_cons, List.map_cons, List.intercalate_cons_cons]
          rw [List.map_cons] at hrest
          rw [← hrest, ← hspaced.words_append hwords (by decide) (hgap " " (.inl rfl))]
          simp only [List.append_assoc]

theorem isDigit_iff {b : UInt8} : isDigit b = true ↔ 48 ≤ b.toNat ∧ b.toNat ≤ 57 := by
  simp only [isDigit, Bool.and_eq_true, decide_eq_true_eq, UInt8.le_iff_toNat_le]
  exact Iff.rfl

/-- Digits, leading zeros allowed, of a number. -/
structure Numeral (n : Nat) (w : Text) : Prop where
  ne_nil : w ≠ []
  digits : ∀ b ∈ w, isDigit b = true
  value : decimal w = n

theorem Numeral.splitSign {n : Nat} {w : Text} (h : Numeral n w) : splitSign w = (false, w) := by
  cases w with
  | nil => exact absurd rfl h.ne_nil
  | cons b w =>
      have hb := h.digits b List.mem_cons_self
      unfold CppText.splitSign
      split
      · cases ‹_ = _›
        exact absurd hb (by decide)
      · cases ‹_ = _›
        exact absurd hb (by decide)
      · rfl

theorem Numeral.isWord {n : Nat} {w : Text} (h : Numeral n w) : IsWord w := by
  refine ⟨h.ne_nil, fun b hb => ?_⟩
  have hlow := (isDigit_iff.1 (h.digits b hb)).1
  simp only [isSpace, Bool.or_eq_false_iff, Bool.and_eq_false_iff, beq_eq_false_iff_ne, ne_eq,
    decide_eq_false_iff_not, UInt8.le_iff_toNat_le]
  refine ⟨fun heq => ?_, .inr fun hle => ?_⟩
  · rw [heq] at hlow
    exact absurd hlow (by decide)
  · exact absurd (Nat.le_trans hlow hle) (by decide)

theorem Numeral.takeWhile {n : Nat} {w : Text} (h : Numeral n w) :
    w.takeWhile isDigit = w ∧ w.dropWhile isDigit = [] :=
  ⟨List.takeWhile_eq_self_iff.2 h.digits, List.dropWhile_eq_nil_iff.2 h.digits⟩

theorem Numeral.integerPrefix {n : Nat} {w : Text} (h : Numeral n w) :
    integerPrefix w = some (false, n) := by
  have hskip : w.dropWhile isSpace = w := by
    cases w with
    | nil => rfl
    | cons b w => exact List.dropWhile_cons_of_neg (by simp [h.isWord.2 b List.mem_cons_self])
  unfold CppText.integerPrefix
  rw [hskip, h.splitSign]
  dsimp only
  rw [h.takeWhile.1]
  cases w with
  | nil => exact absurd rfl h.ne_nil
  | cons b w => exact congrArg (fun m => some (false, m)) h.value

theorem Numeral.stoul {n : Nat} {w : Text} (h : Numeral n w) :
    stoul w = if 2 ^ 64 ≤ n then .error .outOfRange else .ok n := by
  unfold CppText.stoul
  rw [h.integerPrefix]
  rfl

/-- A decimal literal of an integer: digits behind an optional sign. -/
inductive Literal : Text → Int → Prop
  | bare {n : Nat} {w : Text} : Numeral n w → Literal w n
  | plus {n : Nat} {w : Text} : Numeral n w → Literal (43 :: w) n
  | minus {n : Nat} {w : Text} : Numeral n w → Literal (45 :: w) (-n)

/-- A conversion reads all of a literal. -/
theorem Literal.integerPrefix {s : Text} {v : Int} (h : Literal s v) :
    ∃ minus n, integerPrefix s = some (minus, n) ∧ v = if minus then -(n : Int) else n := by
  have hsigned {n : Nat} {w : Text} (h : Numeral n w) (minus : Bool) (sign : UInt8)
      (hsplit : CppText.splitSign (sign :: w) = (minus, w)) (hspace : isSpace sign = false) :
      CppText.integerPrefix (sign :: w) = some (minus, n) := by
    have hskip : (sign :: w).dropWhile isSpace = sign :: w :=
      List.dropWhile_cons_of_neg (by simp [hspace])
    unfold CppText.integerPrefix
    rw [hskip, hsplit]
    dsimp only
    rw [h.takeWhile.1]
    cases w with
    | nil => exact absurd rfl h.ne_nil
    | cons b w => exact congrArg (fun m => some (minus, m)) h.value
  cases h with
  | bare h => exact ⟨false, _, h.integerPrefix, rfl⟩
  | plus h => exact ⟨false, _, hsigned h false 43 rfl rfl, rfl⟩
  | minus h => exact ⟨true, _, hsigned h true 45 rfl rfl, rfl⟩

/-- What a signed conversion makes of a literal is its integer. -/
theorem Literal.signedPrefix {w : Nat} (hw : 0 < w) {s : Text} {v : Int} {b : BitVec w} (h : Literal s v)
    (hread : signedPrefix w s = .ok b) : b.toInt = v := by
  obtain ⟨minus, n, hparts, rfl⟩ := h.integerPrefix
  unfold CppText.signedPrefix at hread
  rw [hparts] at hread
  dsimp only at hread
  cases minus with
  | false =>
      rw [if_neg Bool.false_ne_true] at hread ⊢
      by_cases hlt : n < 2 ^ (w - 1)
      · rw [if_pos hlt] at hread
        cases hread
        have hint : (n : Int) < 2 ^ (w - 1) := by exact_mod_cast hlt
        have hlow : -2 ^ (w - 1) ≤ (n : Int) := by
          have hpos : (0 : Int) ≤ 2 ^ (w - 1) := by positivity
          omega
        exact BitVec.toInt_ofInt_eq_self hw hlow hint
      · rw [if_neg hlt] at hread
        cases hread
  | true =>
      rw [if_pos rfl] at hread ⊢
      by_cases hle : n ≤ 2 ^ (w - 1)
      · rw [if_pos hle] at hread
        cases hread
        have hint : (n : Int) ≤ 2 ^ (w - 1) := by exact_mod_cast hle
        have hpos : (0 : Int) < 2 ^ (w - 1) := by positivity
        rw [← BitVec.ofInt_natCast, ← BitVec.ofInt_neg]
        exact BitVec.toInt_ofInt_eq_self hw (by omega) (by omega)
      · rw [if_neg hle] at hread
        cases hread

theorem Literal.stoul {s : Text} {v : Int} {n : Nat} (h : Literal s v) (hv : 0 ≤ v)
    (hread : stoul s = .ok n) : (n : Int) = v := by
  obtain ⟨minus, m, hparts, rfl⟩ := h.integerPrefix
  unfold CppText.stoul at hread
  rw [hparts] at hread
  dsimp only at hread
  split at hread
  · cases hread
  · cases minus with
    | false =>
        cases hread
        rfl
    | true =>
        cases hread
        have hzero : m = 0 := by
          simp only [if_true] at hv
          omega
        rw [hzero]
        rfl

/-- A numeral below `2^64` is read whole. -/
theorem IStream.size_numeral {n : Nat} {w : Text} (h : Numeral n w) (hn : n < 2 ^ 64)
    (ws : List Text) (old : Nat) : (IStream.mk (w :: ws) false).size old = (n, ⟨ws, false⟩) := by
  obtain ⟨htake, hdrop⟩ := h.takeWhile
  unfold IStream.size
  simp only [Bool.false_eq_true, if_false, h.splitSign, htake, hdrop, h.ne_nil, h.value,
    Nat.not_le.2 hn]

/-- A larger one stores the maximum. -/
theorem IStream.size_overflow {n : Nat} {w : Text} (h : Numeral n w) (hn : 2 ^ 64 ≤ n)
    (ws : List Text) (old : Nat) :
    (IStream.mk (w :: ws) false).size old = (2 ^ 64 - 1, ⟨ws, true⟩) := by
  obtain ⟨htake, -⟩ := h.takeWhile
  unfold IStream.size
  simp only [Bool.false_eq_true, if_false, h.splitSign, htake, h.ne_nil, h.value, hn, if_true]

theorem digitChar_byte {c : Char} (h : c.isDigit = true) :
    (UInt8.ofNat c.toNat).toNat = c.toNat ∧ 48 ≤ c.toNat ∧ c.toNat ≤ 57 := by
  have hrange : 48 ≤ c.toNat ∧ c.toNat ≤ 57 := Char.isDigit_iff_toNat.1 h
  have hsize : UInt8.size = 256 := rfl
  exact ⟨UInt8.toNat_ofNat_of_lt (by omega), hrange⟩

theorem decimal_digitChars {cs : List Char} (h : ∀ c ∈ cs, c.isDigit = true) (m : Nat) :
    (cs.map fun c => UInt8.ofNat c.toNat).foldl (fun n b => 10 * n + (b.toNat - 48)) m =
      Nat.ofDigitChars 10 cs m := by
  induction cs generalizing m with
  | nil => rfl
  | cons c cs ih =>
      rw [List.map_cons, List.foldl_cons, (digitChar_byte (h c List.mem_cons_self)).1,
        Nat.ofDigitChars_cons, ih fun d hd => h d (List.mem_cons_of_mem c hd)]
      rfl

/-- Every number has a numeral. -/
theorem numeral_toString (n : Nat) : Numeral n (str (toString n)) := by
  have hdigit : ∀ c ∈ Nat.toDigits 10 n, c.isDigit = true := fun c hc =>
    Nat.isDigit_of_mem_toDigits (by decide) (by decide) hc
  have hstr : str (toString n) = (Nat.toDigits 10 n).map fun c => UInt8.ofNat c.toNat := by
    rw [Nat.toString_eq_ofList_toDigits, str, String.toList_ofList]
  rw [hstr]
  refine ⟨fun h => Nat.toDigits_ne_nil (List.map_eq_nil_iff.1 h), fun b hb => ?_, ?_⟩
  · obtain ⟨c, hc, rfl⟩ := List.mem_map.1 hb
    obtain ⟨hbyte, hlow, hhigh⟩ := digitChar_byte (hdigit c hc)
    rw [isDigit_iff, hbyte]
    exact ⟨hlow, hhigh⟩
  · rw [decimal, decimal_digitChars hdigit, Nat.ofDigitChars_ten_toDigits]

end CppText
