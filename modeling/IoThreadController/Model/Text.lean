/-
Texts and numbers in them, as the standard library reads them: white space, lines, and the parsers of `usize`, `i32` and
`f64`.
-/
import Mathlib.Data.List.DropRight
import IoThreadController.Model.Base

namespace IoThreadController

/-! ## White space and lines -/

/-- `char::is_whitespace` -/
def isWhitespace (c : Char) : Bool :=
  let n := c.toNat
  9 ≤ n && n ≤ 13 || 8192 ≤ n && n ≤ 8202 || [32, 133, 160, 5760, 8232, 8233, 8239, 8287, 12288].contains n

/-- `s.trim().is_empty()` -/
def isBlank (s : String) : Bool := s.toList.all isWhitespace

/-- `str::trim` -/
def trim (s : List Char) : List Char := (s.dropWhile isWhitespace).rdropWhile isWhitespace

/-- `str::trim_matches` with one character -/
def trimMatches (c : Char) (s : List Char) : List Char := (s.dropWhile (· = c)).rdropWhile (· = c)

/-- a carriage return belongs to the line ending -/
def stripCarriageReturn (line : List Char) : List Char :=
  if line.getLast? = some '\r' then line.dropLast else line

/-- `str::lines`: what follows the last line ending is a line only when it is not empty -/
def lines (body : String) : List (List Char) :=
  let pieces := body.toList.splitOn '\n'
  pieces.dropLast.map stripCarriageReturn ++ (pieces.getLast?.filter (· ≠ [])).toList

/-! ## Numbers -/

/-- the number that a nonempty row of digits writes -/
def parseDigits (s : List Char) : Option ℕ :=
  if s ≠ [] ∧ s.all Char.isDigit then some (s.foldl (fun n c => 10 * n + (c.toNat - '0'.toNat)) 0) else none

/-- digits after an optional sign -/
def parseSigned (s : List Char) : Option ℤ :=
  match s with
  | '-' :: s => (parseDigits s).map fun n => -(n : ℤ)
  | '+' :: s => (parseDigits s).map Int.ofNat
  | s => (parseDigits s).map Int.ofNat

/-- `str::parse::<usize>` -/
def parseUsize (s : List Char) : Option ℕ :=
  let digits := match s with
    | '+' :: s => s
    | s => s
  (parseDigits digits).filter (· ≤ u64Max)

/-- `str::parse::<i32>` -/
def parseI32 (s : List Char) : Option ℤ := (parseSigned s).filter fun n => -2 ^ 31 ≤ n ∧ n < 2 ^ 31

/-- rounding to the nearest integer, ties to the even one -/
def roundHalfEven (x : ℚ) : ℤ :=
  let below := ⌊x⌋
  if x - below < 1 / 2 then below
  else if 1 / 2 < x - below then below + 1
  else if below % 2 = 0 then below else below + 1

/-- the nearest `f64` of a nonnegative number; what is too large for one is left alone, as only saturating casts read it -/
def nearestF64 (x : ℚ) : ℚ :=
  if x = 0 then 0
  else
    let guess : ℤ := (Nat.log2 x.num.natAbs : ℤ) - Nat.log2 x.den
    let exponent := if (2 : ℚ) ^ guess ≤ x then guess else guess - 1
    -- 53 bits of precision, fewer below the smallest normal number
    let unit : ℚ := 2 ^ max (exponent - 52) (-1074)
    roundHalfEven (x / unit) * unit

/-- the nearest `f64` of a number of either sign -/
def roundF64 (x : ℚ) : ℚ := if x < 0 then -nearestF64 (-x) else nearestF64 x

/-- `str::parse::<f64>` of a text without letters other than the `e` of an exponent -/
def parseF64 (s : List Char) : Option ℚ :=
  let (negative, s) := match s with
    | '-' :: s => (true, s)
    | '+' :: s => (false, s)
    | s => (false, s)
  let whole := s.takeWhile Char.isDigit
  let s := s.dropWhile Char.isDigit
  let (fraction, s) := match s with
    | '.' :: s => (s.takeWhile Char.isDigit, s.dropWhile Char.isDigit)
    | s => ([], s)
  let exponent := match s with
    | [] => some 0
    | c :: s => if c = 'e' ∨ c = 'E' then parseSigned s else none
  match parseDigits (whole ++ fraction), exponent with
  | some digits, some exponent =>
    let value := nearestF64 (digits * 10 ^ (exponent - fraction.length))
    some (if negative then -value else value)
  | _, _ => none

/-- `x as u16` of a float -/
def asU16 (x : ℚ) : ℕ := min ⌊x⌋.toNat (2 ^ 16 - 1)

end IoThreadController
