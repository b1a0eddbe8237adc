/-!
Texts: white space as Unicode lists it, lines, and whole numbers. White space is trimmed from both ends
before a number is read, and a name made of nothing else counts as empty.
-/
namespace Dialogue.Text

/-- First and last code point of each run of characters with the Unicode property White_Space. -/
def blankRuns : List (Nat × Nat) :=
  [(0x09, 0x0D), (0x20, 0x20), (0x85, 0x85), (0xA0, 0xA0), (0x1680, 0x1680), (0x2000, 0x200A),
   (0x2028, 0x2029), (0x202F, 0x202F), (0x205F, 0x205F), (0x3000, 0x3000)]

def isBlank (c : Char) : Bool :=
  blankRuns.any fun run => run.1 ≤ c.toNat && c.toNat ≤ run.2

def trim (cs : List Char) : List Char :=
  ((cs.dropWhile isBlank).reverse.dropWhile isBlank).reverse

def allBlank (s : String) : Bool :=
  s.toList.all isBlank

def packed (s : String) : List Char :=
  s.toList.filter fun c => !isBlank c

def lowered (cs : List Char) : List Char :=
  cs.map Char.toLower

/-!
Each line ends with a line feed, which is dropped together with one carriage return before it; whatever
stands after the last line feed is a line too.
-/

def closeLine : List Char → List Char
  | '\r' :: line => line.reverse
  | line => line.reverse

/-- `line` holds the characters of the line that has begun, latest first. -/
def linesFrom : List Char → List Char → List (List Char)
  | [], [] => []
  | line, [] => [line.reverse]
  | line, c :: rest => if c = '\n' then closeLine line :: linesFrom [] rest else linesFrom (c :: line) rest

def lines (s : String) : List String := (linesFrom [] s.toList).map String.ofList

end Dialogue.Text

/-!
Whole numbers are digits of base ten, with a sign where the number has one. Reading accepts leading
zeros and a plus sign, which writing never produces.
-/

namespace Dialogue.Whole

def digits (n : Nat) : List Char :=
  Nat.toDigits 10 n

def write (n : Int) : List Char :=
  if n < 0 then '-' :: digits n.natAbs else digits n.natAbs

def natural? (cs : List Char) : Option Nat :=
  if cs ≠ [] ∧ cs.all Char.isDigit then some (Nat.ofDigitChars 10 cs 0) else none

def unsigned? : List Char → Option Nat
  | '+' :: rest => natural? rest
  | cs => natural? cs

def signed? : List Char → Option Int
  | '-' :: rest => (natural? rest).map fun n => -(n : Int)
  | cs => (unsigned? cs).map fun n => (n : Int)

def word? (n : Int) : Option Int64 :=
  if Int64.minValue.toInt ≤ n ∧ n ≤ Int64.maxValue.toInt then some (Int64.ofInt n) else none

end Dialogue.Whole
