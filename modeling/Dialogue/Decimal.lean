import Dialogue.Text
/-!
Numbers with a fraction: binary floating-point formats in exact arithmetic, how their numbers are spelled,
and how spellings are read. The nonnegative numbers of a format are numbered in rising order from zero to
infinity, and this number, the code, is also their bit pattern: code `c` stands for
`mantissa c * 2 ^ shift c / 2 ^ scale`. Rounding a fraction gives the code of the nearest number.
-/
namespace Dialogue

structure Format where
  fraction : Nat
  exponent : Nat
deriving DecidableEq, Repr

structure Decimal where
  digits : Nat
  exponent : Int
deriving DecidableEq, Repr

def nearestEven (numerator denominator : Nat) : Nat :=
  let low := numerator / denominator
  let rest := numerator % denominator
  if 2 * rest < denominator then low
  else if denominator < 2 * rest then low + 1
  else low + low % 2

namespace Format

def double : Format := ⟨52, 11⟩

def single : Format := ⟨23, 8⟩

variable (format : Format)

def scale : Nat := Nat.pow 2 (format.exponent - 1) - 2 + format.fraction

def span : Nat := Nat.pow 2 format.fraction

def infinity : Nat := (Nat.pow 2 format.exponent - 1) * format.span

def signPlace : Nat := Nat.pow 2 (format.exponent + format.fraction)

def mantissa (code : Nat) : Nat :=
  if code < format.span then code else code % format.span + format.span

def shift (code : Nat) : Nat := code / format.span - 1

def numerator (code : Nat) : Nat := format.mantissa code * Nat.pow 2 (format.shift code)

def denominator : Nat := Nat.pow 2 format.scale

/-- The code nearest to `numerator / denominator`; half-way goes to the even code, and what lies beyond
the largest finite number is infinity. A mantissa that rounds up to the next power of two carries into
the exponent by plain addition. -/
def nearest (numerator denominator : Nat) : Nat :=
  let scaled := numerator * format.denominator
  let shift := (scaled / denominator).log2 - format.fraction
  min (shift * format.span + nearestEven scaled (denominator * Nat.pow 2 shift)) format.infinity

/-- The code nearest to a decimal. Far outside the range of the format the answer is known without
computing the power of ten. -/
def ofDecimal (decimal : Decimal) : Nat :=
  if decimal.digits = 0 then 0
  else if (format.scale : Int) < decimal.exponent then format.infinity
  else if decimal.digits.log2 + 3 * decimal.exponent + format.scale + 2 ≤ 0 then 0
  else if 0 ≤ decimal.exponent then
    format.nearest (decimal.digits * Nat.pow 10 decimal.exponent.toNat) 1
  else format.nearest decimal.digits (Nat.pow 10 (-decimal.exponent).toNat)

end Format

/-!
The shortest decimal that reads back as a given binary number. Grids of ever finer powers of ten are
tried, the two grid points around the value on each; the first that reads back is taken, the nearer one
where both do.
-/

inductive Tie where
  | toEven
  | up
deriving DecidableEq, Repr

namespace Format

variable (format : Format)

def leadingPlace (code : Nat) : Int :=
  let whole := format.numerator code / format.denominator
  if whole = 0 then
    -((Nat.toDigits 10 ((format.denominator - 1) / format.numerator code)).length : Int)
  else ((Nat.toDigits 10 whole).length : Int) - 1

/-- The points of the grid `10 ^ place` below and above a value, the nearer one first. -/
def neighbours (tie : Tie) (code : Nat) (place : Int) : List Decimal :=
  let numerator := format.numerator code * Nat.pow 10 (-place).toNat
  let denominator := format.denominator * Nat.pow 10 place.toNat
  let low := numerator / denominator
  let rest := numerator % denominator
  let upward := if 2 * rest = denominator then tie = .up ∨ low % 2 = 1 else denominator < 2 * rest
  if upward then [⟨low + 1, place⟩, ⟨low, place⟩] else [⟨low, place⟩, ⟨low + 1, place⟩]

def exact (code : Nat) : Decimal :=
  ⟨format.numerator code * Nat.pow 5 format.scale, -(format.scale : Int)⟩

def shortest (tie : Tie) (code : Nat) : Decimal :=
  let grids := (List.range 17).map fun (finer : Nat) => format.leadingPlace code - finer
  let points := grids.flatMap (format.neighbours tie code)
  (points.find? fun point => format.ofDecimal point = code).getD (format.exact code)

end Format

/-!
A style fixes which numbers are written without an exponent, whether a whole number keeps its point, and
what happens half-way between two shortest spellings.
-/

structure Style where
  tie : Tie
  /-- Least and greatest power of ten of the first digit that need no exponent; none: all of them. -/
  plain : Option (Int × Int)
  point : Bool
deriving DecidableEq, Repr

namespace Style

/-- Significant digits without closing zeros, and the power of ten of the first one. -/
def significant (decimal : Decimal) : List Char × Int :=
  let digits := Nat.toDigits 10 decimal.digits
  ((digits.reverse.dropWhile (· == '0')).reverse, decimal.exponent + digits.length - 1)

def positional (point : Bool) (digits : List Char) (lead : Int) : List Char :=
  if lead < 0 then
    '0' :: '.' :: List.replicate (-lead - 1).toNat '0' ++ digits
  else
    let whole := lead.toNat + 1
    let front := digits.take whole ++ List.replicate (whole - digits.length) '0'
    match digits.drop whole with
    | [] => if point then front ++ ['.', '0'] else front
    | rest => front ++ '.' :: rest

def scientific (digits : List Char) (lead : Int) : List Char :=
  let mantissa := match digits with
    | [] => ['0']
    | [digit] => [digit]
    | digit :: rest => digit :: '.' :: rest
  let sign := if lead < 0 then '-' else '+'
  mantissa ++ 'e' :: sign :: Nat.toDigits 10 lead.natAbs

def writeMagnitude (style : Style) (format : Format) (code : Nat) : List Char :=
  if code = 0 then positional style.point ['0'] 0
  else
    let (digits, lead) := significant (format.shortest style.tie code)
    let isPlain := match style.plain with
      | none => true
      | some (least, greatest) => least ≤ lead && lead ≤ greatest
    if isPlain then positional style.point digits lead else scientific digits lead

def write (style : Style) (format : Format) (negative : Bool) (code : Nat) : List Char :=
  if negative then '-' :: style.writeMagnitude format code else style.writeMagnitude format code

end Style

/-!
Numerals: a sign, digits with at most one point among them, an exponent. A digit must stand on one side
of the point at least, and one in the exponent if there is one.
-/

structure Numeral where
  negative : Bool
  whole : List Char
  fraction : List Char
  exponent : Int
deriving DecidableEq, Repr

namespace Numeral

def takeSign : List Char → Bool × List Char
  | '-' :: rest => (true, rest)
  | '+' :: rest => (false, rest)
  | cs => (false, cs)

def sizeUpTo (enough : Nat) (digits : List Char) : Nat :=
  digits.foldl (fun n c => if n < enough then 10 * n + (c.toNat - '0'.toNat) else n) 0

def exponent? (enough : Nat) : List Char → Option Int
  | [] => some 0
  | mark :: rest =>
      if mark = 'e' ∨ mark = 'E' then
        let (negative, digits) := takeSign rest
        if digits ≠ [] ∧ digits.all Char.isDigit then
          let size : Int := sizeUpTo enough digits
          some (if negative then -size else size)
        else none
      else none

def takeFraction : List Char → List Char × List Char
  | '.' :: rest => (rest.takeWhile Char.isDigit, rest.dropWhile Char.isDigit)
  | cs => ([], cs)

def read? (enough : Nat) (cs : List Char) : Option Numeral :=
  let (negative, body) := takeSign cs
  let whole := body.takeWhile Char.isDigit
  let (fraction, rest) := takeFraction (body.dropWhile Char.isDigit)
  if whole = [] ∧ fraction = [] then none
  else (exponent? enough rest).map fun exponent => ⟨negative, whole, fraction, exponent⟩

def exact (numeral : Numeral) : Decimal :=
  ⟨Nat.ofDigitChars 10 (numeral.whole ++ numeral.fraction) 0,
    numeral.exponent - numeral.fraction.length⟩

/-- Appends digits to a number while it fits 64 bits, and gives back the digits left. -/
def extend (n : Nat) : List Char → Nat × List Char
  | [] => (n, [])
  | c :: rest =>
      let longer := 10 * n + (c.toNat - '0'.toNat)
      if longer < UInt64.size then extend longer rest else (n, c :: rest)

/-- The size of the number by the leading digits that fit 64 bits. Of the digits left out, those before
the point still count as places. -/
def leading (numeral : Numeral) : Decimal :=
  let (whole, skipped) := extend 0 numeral.whole
  let (digits, ignored) := extend whole numeral.fraction
  ⟨digits, numeral.exponent + skipped.length - (numeral.fraction.length - ignored.length)⟩

end Numeral

/-!
Decimals turned into doubles by few operations on doubles: the digits become a double, which is then
multiplied or divided by a power of ten. Every step rounds, so the result may be a neighbour of the
nearest double; it is the nearest one where the digits and the power of ten are doubles themselves.
-/

namespace Format

variable (format : Format)

def product (a b : Nat) : Nat :=
  format.nearest (format.numerator a * format.numerator b) (format.denominator * format.denominator)

def quotient (a b : Nat) : Nat :=
  format.nearest (format.numerator a) (format.numerator b)

end Format

namespace Decimal

def greatestPower : Nat := 308

def power (places : Nat) : Nat := Format.double.ofDecimal ⟨1, places⟩

def raise (code places : Nat) : Nat :=
  if code = 0 then 0
  else if places ≤ greatestPower then Format.double.product code (power places)
  else Format.double.infinity

/-- Divides by a power of ten, in two steps where it is out of range. Beyond the range of two steps
nothing is left of a number of 64 bits. -/
def lower (code places : Nat) : Nat :=
  if places ≤ greatestPower then Format.double.quotient code (power places)
  else if places ≤ 2 * greatestPower then
    Format.double.quotient (Format.double.quotient code (power greatestPower))
      (power (places - greatestPower))
  else 0

def stepwise (decimal : Decimal) : Nat :=
  let code := Format.double.nearest decimal.digits 1
  if 0 ≤ decimal.exponent then raise code decimal.exponent.toNat
  else lower code (-decimal.exponent).toNat

end Decimal

end Dialogue

namespace Dialogue.Real

def isNegative (x : Float) : Bool :=
  Format.double.signPlace ≤ x.toBits.toNat

def code (x : Float) : Nat :=
  x.toBits.toNat % Format.double.signPlace

def isFinite (x : Float) : Bool :=
  code x < Format.double.infinity

def isNaN (x : Float) : Bool :=
  Format.double.infinity < code x

def ofCode (negative : Bool) (code : Nat) : Float :=
  Float.ofBits (UInt64.ofNat (if negative then code + Format.double.signPlace else code))

def nan : Float := ofCode false (Format.double.infinity + Nat.pow 2 (Format.double.fraction - 1))

/-- The nearest integer, half-way to the even one, held inside the 64-bit range. No number gives zero. -/
def toWord (x : Float) : Int64 :=
  let size : Int :=
    if isNaN x then 0
    else if isFinite x then
      nearestEven (Format.double.numerator (code x)) Format.double.denominator
    else Nat.pow 2 63
  Int64.ofIntClamp (if isNegative x then -size else size)

def ofWord (n : Int64) : Float :=
  ofCode (n.toInt < 0) (Format.double.nearest n.toInt.natAbs 1)

def read? (cs : List Char) : Option Float :=
  let (negative, body) := Numeral.takeSign cs
  let word := Text.lowered body
  if word = "inf".toList ∨ word = "infinity".toList then
    some (ofCode negative Format.double.infinity)
  else if word = "nan".toList then some nan
  else
    (Numeral.read? UInt16.size cs).map fun numeral =>
      ofCode numeral.negative (Format.double.ofDecimal numeral.exact)

def shown : Style := ⟨.up, none, false⟩

def write (x : Float) : List Char :=
  if isNaN x then "NaN".toList
  else if isFinite x then shown.write Format.double (isNegative x) (code x)
  else if isNegative x then "-inf".toList
  else "inf".toList

def compare? (x y : Float) : Option Ordering :=
  if x < y then some .lt
  else if y < x then some .gt
  else if x == y then some .eq
  else none

end Dialogue.Real

namespace Dialogue.Single

def isNegative (x : Float32) : Bool :=
  Format.single.signPlace ≤ x.toBits.toNat

def code (x : Float32) : Nat :=
  x.toBits.toNat % Format.single.signPlace

def isFinite (x : Float32) : Bool :=
  code x < Format.single.infinity

def ofCode (negative : Bool) (code : Nat) : Float32 :=
  Float32.ofBits (UInt32.ofNat (if negative then code + Format.single.signPlace else code))

def ofInt (n : Int) : Float32 :=
  ofCode (n < 0) (Format.single.nearest n.natAbs 1)

def ofDouble (x : Float) : Float32 :=
  if Real.isNaN x then Float32.ofBits 0x7FC00000
  else if Real.isFinite x then
    ofCode (Real.isNegative x)
      (Format.single.nearest (Format.double.numerator (Real.code x)) Format.double.denominator)
  else ofCode (Real.isNegative x) Format.single.infinity

def toDouble (x : Float32) : Float :=
  if Format.single.infinity < code x then Real.nan
  else if isFinite x then
    Real.ofCode (isNegative x)
      (Format.double.nearest (Format.single.numerator (code x)) Format.single.denominator)
  else Real.ofCode (isNegative x) Format.double.infinity

end Dialogue.Single
