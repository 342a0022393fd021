import SQLid.Library.CppText

/-!
# IEEE binary floating point on bit patterns

A format is its precision `p` and its width `w`. Comparison works on the
patterns; conversion from text rounds to nearest, ties to even, and reports
what `strtod` reports through `errno`. What C leaves to the implementation
(when a result counts as tiny, what `nan(...)` stands for) is as in glibc on x86.
-/
namespace Ieee
open Bytes (Text)
open CppText (str isDigit isSpace splitSign decimal ConvError)

structure Format where
  width : Nat
  precision : Nat
  /-- The exponent of the least subnormal. -/
  emin : Int

def binary64 : Format := ⟨64, 53, -1074⟩
def binary32 : Format := ⟨32, 24, -149⟩

/-- The pattern of infinity without its sign. -/
def Format.infinity (F : Format) : Nat := 2 ^ (F.width - 1) - 2 ^ (F.precision - 1)

def Format.magnitude (F : Format) (bits : Nat) : Nat := bits % 2 ^ (F.width - 1)

def Format.isNaN (F : Format) (bits : Nat) : Bool := F.infinity < F.magnitude bits

/-- Order embedding of the patterns that are not NaN; both zeros go to 0. -/
def Format.key (F : Format) (bits : Nat) : Int :=
  if bits < 2 ^ (F.width - 1) then F.magnitude bits else -(F.magnitude bits : Int)

def Format.eq (F : Format) (a b : Nat) : Bool :=
  !F.isNaN a && !F.isNaN b && F.key a == F.key b

def Format.lt (F : Format) (a b : Nat) : Bool :=
  !F.isNaN a && !F.isNaN b && F.key a < F.key b

/-- Rounded magnitude of the positive rational `num / den`; `none` is overflow.
The flag says that the result is inexact and tiny: rounded to the precision alone,
it is still below the least normal number. -/
def Format.round (F : Format) (num den : Nat) : Option (Nat × Bool) :=
  let guess : Int := (Nat.log2 num : Int) - Nat.log2 den
  -- floor(log2 (num/den)) is `guess` or one less
  let floorLog : Int :=
    if (if 0 ≤ guess then num < den * 2 ^ guess.toNat else num * 2 ^ (-guess).toNat < den)
    then guess - 1 else guess
  let e : Int := max F.emin (floorLog - (F.precision - 1 : Nat))
  let n := if 0 ≤ e then num else num * 2 ^ (-e).toNat
  let d := if 0 ≤ e then den * 2 ^ e.toNat else den
  let q := n / d
  let r := n % d
  let q' := if d < 2 * r || (2 * r == d && q % 2 == 1) then q + 1 else q
  let bits := (e - F.emin).toNat * 2 ^ (F.precision - 1) + q'
  if F.infinity ≤ bits then none
  else some (bits, 4 * n < (2 ^ (F.precision + 1) - 1) * d && r != 0)

def lower (b : UInt8) : UInt8 := if 65 ≤ b && b ≤ 90 then b + 32 else b

def hexDigit (b : UInt8) : Option Nat :=
  if isDigit b then some (b.toNat - 48)
  else if 97 ≤ lower b && lower b ≤ 102 then some ((lower b).toNat - 87)
  else none

def isHex (b : UInt8) : Bool := (hexDigit b).isSome

def hexadecimal (ds : Text) : Nat := ds.foldl (fun n b => 16 * n + (hexDigit b).getD 0) 0

def isOctal (b : UInt8) : Bool := 48 ≤ b && b ≤ 55

def octal (ds : Text) : Nat := ds.foldl (fun n b => 8 * n + (b.toNat - 48)) 0

/-- `strtoull` with base 0 on a text without signs and blanks: the number and what follows. -/
def prefixNumber (s : Text) : Nat × Text :=
  if (str "0x").isPrefixOf (s.map lower) && (s.drop 2).head?.any isHex then
    (hexadecimal ((s.drop 2).takeWhile isHex), (s.drop 2).dropWhile isHex)
  else if s.head? = some 48 then (octal (s.takeWhile isOctal), s.dropWhile isOctal)
  else (decimal (s.takeWhile isDigit), s.dropWhile isDigit)

def isNameByte (b : UInt8) : Bool := isDigit b || (97 ≤ lower b && lower b ≤ 122) || b == 95

/-- Digits before and after an optional point, and what follows. -/
def splitPoint (digit : UInt8 → Bool) (s : Text) : Text × Text × Text :=
  let whole := s.takeWhile digit
  match s.dropWhile digit with
  | 46 :: s' => (whole, s'.takeWhile digit, s'.dropWhile digit)
  | s' => (whole, [], s')

/-- An exponent after its letter; without digits there is none. -/
def exponent (letter : UInt8) (s : Text) : Int :=
  match s with
  | [] => 0
  | b :: s' =>
      if lower b == letter then
        let (minus, ds) := splitSign s'
        let n := decimal (ds.takeWhile isDigit)
        if minus then -(n : Int) else n
      else 0

/-- Digits without the zeros in front. -/
def significant (ds : Text) : Text := ds.dropWhile (· == 48)

/-- The magnitude `m * base ^ e`, clipped far outside the range of the format; `m` has
this many digits in the base and does not begin with a zero. -/
def Format.scaled (F : Format) (m base : Nat) (e : Int) (digits : Nat) : Option (Nat × Bool) :=
  if m = 0 then some (0, false)
  else if 20000 < e + digits then none
  else if e + digits < -20000 then some (0, true)
  else if 0 ≤ e then F.round (m * base ^ e.toNat) 1
  else F.round m (base ^ (-e).toNat)

/-- The magnitude of `nan`, with the number in the brackets behind it if they hold
nothing else; `none` is a number above 64 bits. -/
def Format.nan (F : Format) (s : Text) : Option (Nat × Bool) :=
  let quiet := F.infinity + 2 ^ (F.precision - 2)
  match s with
  | 40 :: s' =>
      let name := s'.takeWhile isNameByte
      let (number, rest) := prefixNumber name
      if (s'.dropWhile isNameByte).head? ≠ some 41 then some (quiet, false)
      else if 2 ^ 64 ≤ number then none
      else if rest = [] then some (quiet + number % 2 ^ (F.precision - 2), false)
      else some (quiet, false)
  | _ => some (quiet, false)

/-- `strtod` without the sign: `none` when nothing converts, else the rounded
magnitude (`none` for overflow) and the underflow flag. -/
def Format.parseMagnitude (F : Format) (s : Text) : Option (Option (Nat × Bool)) :=
  let low := s.map lower
  if (str "inf").isPrefixOf low then some (some (F.infinity, false))
  else if (str "nan").isPrefixOf low then some (F.nan (s.drop 3))
  else
    let hex := splitPoint isHex (s.drop 2)
    if (str "0x").isPrefixOf low && !(hex.1 ++ hex.2.1).isEmpty then
      let ds := hex.1 ++ hex.2.1
      some (F.scaled (hexadecimal ds) 2 (exponent 112 hex.2.2 - 4 * hex.2.1.length)
        (4 * (significant ds).length))
    else
      let dec := splitPoint isDigit s
      let ds := dec.1 ++ dec.2.1
      if ds.isEmpty then none
      else some (F.scaled (decimal ds) 10 (exponent 101 dec.2.2 - dec.2.1.length) (significant ds).length)

/-- `std::stod` and `std::stof`: `ERANGE` becomes `out_of_range`. -/
def Format.parse (F : Format) (s : Text) : Except ConvError Nat :=
  let (minus, body) := splitSign (s.dropWhile isSpace)
  match F.parseMagnitude body with
  | none => .error .invalidArgument
  | some none => .error .outOfRange
  | some (some (_, true)) => .error .outOfRange
  | some (some (m, false)) => .ok (if minus then 2 ^ (F.width - 1) + m else m)

def stod (s : Text) : Except ConvError (BitVec 64) := (binary64.parse s).map (BitVec.ofNat 64)
def stof (s : Text) : Except ConvError (BitVec 32) := (binary32.parse s).map (BitVec.ofNat 32)

end Ieee
