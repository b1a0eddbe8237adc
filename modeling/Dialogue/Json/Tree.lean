/-!
JSON text as tokens, and documents as trees. Strings and numbers stay as they are spelled: what a string
says and whether a number fits is for the reader of a value to decide. The first character that no token
can hold ends the tokens with a fault, so everything before it can still be read.
-/
namespace Dialogue.Json

inductive Token where
  | openArray
  | closeArray
  | openObject
  | closeObject
  | colon
  | comma
  | null
  | boolean (b : Bool)
  | string (lexeme : List Char)
  | number (lexeme : List Char)
  | fault
deriving DecidableEq, Repr

namespace Token

inductive Quote where
  | plain
  | escape
  | hex (left : Nat)
deriving DecidableEq, Repr

inductive Digits where
  | sign
  | zero
  | whole
  | point
  | fraction
  | mark
  | markSign
  | exponent
deriving DecidableEq, Repr

/-- Where the scanner stands. What was read of a lexeme is kept latest first. -/
inductive Mode where
  | between
  | string (lexeme : List Char) (state : Quote)
  | number (lexeme : List Char) (state : Digits)
  | word (left : List Char) (token : Token)
deriving DecidableEq, Repr

def isHex (c : Char) : Bool :=
  c.isDigit || ('a' ≤ c && c ≤ 'f') || ('A' ≤ c && c ≤ 'F')

def Quote.next? : Quote → Char → Option Quote
  | .plain, c =>
      if c = '\\' then some .escape else if c.toNat < 0x20 then none else some .plain
  | .escape, c =>
      if c = 'u' then some (.hex 3)
      else if c ∈ ['"', '\\', '/', 'b', 'f', 'n', 'r', 't'] then some .plain
      else none
  | .hex left, c =>
      if isHex c then some (match left with | 0 => .plain | left + 1 => .hex left) else none

def Digits.first? (c : Char) : Option Digits :=
  if c = '-' then some .sign
  else if c = '0' then some .zero
  else if c.isDigit then some .whole
  else none

def Digits.next? : Digits → Char → Option Digits
  | .sign, c => if c = '0' then some .zero else if c.isDigit then some .whole else none
  | .zero, c =>
      if c = '.' then some .point else if c = 'e' ∨ c = 'E' then some .mark else none
  | .whole, c =>
      if c.isDigit then some .whole
      else if c = '.' then some .point
      else if c = 'e' ∨ c = 'E' then some .mark
      else none
  | .point, c => if c.isDigit then some .fraction else none
  | .fraction, c =>
      if c.isDigit then some .fraction else if c = 'e' ∨ c = 'E' then some .mark else none
  | .mark, c =>
      if c = '+' ∨ c = '-' then some .markSign else if c.isDigit then some .exponent else none
  | .markSign, c => if c.isDigit then some .exponent else none
  | .exponent, c => if c.isDigit then some .exponent else none

def Digits.isComplete : Digits → Bool
  | .zero | .whole | .fraction | .exponent => true
  | _ => false

def start? (c : Char) : Option (List Token × Mode) :=
  match c with
  | ' ' | '\t' | '\n' | '\r' => some ([], .between)
  | '[' => some ([openArray], .between)
  | ']' => some ([closeArray], .between)
  | '{' => some ([openObject], .between)
  | '}' => some ([closeObject], .between)
  | ':' => some ([colon], .between)
  | ',' => some ([comma], .between)
  | '"' => some ([], .string [] .plain)
  | 'n' => some ([], .word ['u', 'l', 'l'] null)
  | 't' => some ([], .word ['r', 'u', 'e'] (boolean true))
  | 'f' => some ([], .word ['a', 'l', 's', 'e'] (boolean false))
  | c => (Digits.first? c).map fun state => ([], .number [c] state)

def step? : Mode → Char → Option (List Token × Mode)
  | .between, c => start? c
  | .string lexeme .plain, '"' => some ([.string lexeme.reverse], .between)
  | .string lexeme state, c => (state.next? c).map fun state => ([], .string (c :: lexeme) state)
  | .number lexeme state, c =>
      match state.next? c with
      | some state => some ([], .number (c :: lexeme) state)
      | none =>
          if state.isComplete then
            (start? c).map fun (tokens, mode) => (.number lexeme.reverse :: tokens, mode)
          else none
  | .word [] _, _ => none
  | .word (wanted :: left) token, c =>
      if c = wanted then
        some (match left with
          | [] => ([token], .between)
          | left => ([], .word left token))
      else none

def finish : Mode → List Token
  | .between => []
  | .number lexeme state => if state.isComplete then [.number lexeme.reverse] else [.fault]
  | .string _ _ | .word _ _ => [.fault]

def scanFrom : Mode → List Token → List Char → List Token
  | mode, done, [] => done.reverse ++ finish mode
  | mode, done, c :: rest =>
      match step? mode c with
      | some (tokens, mode) => scanFrom mode (tokens.reverse ++ done) rest
      | none => (.fault :: done).reverse

def scan (cs : List Char) : List Token := scanFrom .between [] cs

end Token

end Dialogue.Json

/-!
The spelling of a JSON string between its quotes. Reading a lexeme fails where its escapes do not make
up Unicode text; writing escapes only what must be.
-/

namespace Dialogue.Json.Lexeme

def hexDigit? (c : Char) : Option Nat :=
  if c.isDigit then some (c.toNat - '0'.toNat)
  else if 'a' ≤ c ∧ c ≤ 'f' then some (c.toNat - 'a'.toNat + 10)
  else if 'A' ≤ c ∧ c ≤ 'F' then some (c.toNat - 'A'.toNat + 10)
  else none

def hex? (a b c d : Char) : Option Nat := do
  return 4096 * (← hexDigit? a) + 256 * (← hexDigit? b) + 16 * (← hexDigit? c) + (← hexDigit? d)

def short? : Char → Option Char
  | '"' => some '"'
  | '\\' => some '\\'
  | '/' => some '/'
  | 'b' => some '\x08'
  | 'f' => some '\x0c'
  | 'n' => some '\n'
  | 'r' => some '\r'
  | 't' => some '\t'
  | _ => none

def isHigh (unit : Nat) : Bool := 0xD800 ≤ unit && unit < 0xDC00

def isLow (unit : Nat) : Bool := 0xDC00 ≤ unit && unit < 0xE000

/-- The characters of a lexeme. A character beyond the first plane may be two escapes; neither of them
may stand alone. -/
def read? : List Char → Option (List Char)
  | [] => some []
  | '\\' :: 'u' :: a :: b :: c :: d :: rest =>
      match hex? a b c d with
      | none => none
      | some unit =>
          if isLow unit then none
          else if isHigh unit then
            match rest with
            | '\\' :: 'u' :: e :: f :: g :: h :: rest =>
                match hex? e f g h with
                | none => none
                | some low =>
                    if isLow low then
                      (read? rest).map (Char.ofNat (0x10000 + (unit - 0xD800) * 1024 + (low - 0xDC00)) :: ·)
                    else none
            | _ => none
          else (read? rest).map (Char.ofNat unit :: ·)
  | '\\' :: c :: rest =>
      match short? c with
      | none => none
      | some meant => (read? rest).map (meant :: ·)
  | c :: rest => (read? rest).map (c :: ·)

def hexText (n : Nat) : Char := Nat.digitChar n

def escape (c : Char) : List Char :=
  if c = '"' then ['\\', '"']
  else if c = '\\' then ['\\', '\\']
  else if c = '\x08' then ['\\', 'b']
  else if c = '\x0c' then ['\\', 'f']
  else if c = '\n' then ['\\', 'n']
  else if c = '\r' then ['\\', 'r']
  else if c = '\t' then ['\\', 't']
  else if c.toNat < 0x20 then
    ['\\', 'u', '0', '0', hexText (c.toNat / 16), hexText (c.toNat % 16)]
  else [c]

def write (cs : List Char) : List Char := cs.flatMap escape

end Dialogue.Json.Lexeme

/-!
Text that stops being JSON half-way still gives a tree: every container the text leaves open ends in a
broken member, so a reader that goes through a tree in order meets the same first problem as one that
goes through the text.
-/

namespace Dialogue

inductive Json where
  | null
  | boolean (b : Bool)
  /-- A number as it is spelled. -/
  | number (lexeme : List Char)
  /-- A string as it is spelled between its quotes. -/
  | string (lexeme : List Char)
  | array (items : List Json)
  | object (fields : List (List Char × Json))
  | broken

namespace Json

abbrev Field := List Char × Json

/-- An open container around the value being read, with what it holds so far, latest first. -/
inductive Frame where
  | items (done : List Json)
  | field (done : List Field) (key : List Char)

inductive State where
  /-- A value must come. -/
  | value (around : List Frame)
  /-- An array was opened. -/
  | firstItem (around : List Frame)
  /-- An object was opened. -/
  | firstField (around : List Frame)
  /-- A comma stood after a field. -/
  | nextField (done : List Field) (around : List Frame)
  | colon (done : List Field) (key : List Char) (around : List Frame)
  | afterItem (done : List Json) (around : List Frame)
  | afterField (done : List Field) (around : List Frame)
  | whole (root : Json)

namespace State

def settle (value : Json) : List Frame → State
  | [] => .whole value
  | .items done :: around => .afterItem (value :: done) around
  | .field done key :: around => .afterField ((key, value) :: done) around

def scalar? : Token → Option Json
  | .null => some .null
  | .boolean b => some (.boolean b)
  | .number lexeme => some (.number lexeme)
  | .string lexeme => some (.string lexeme)
  | _ => none

def openValue? (around : List Frame) : Token → Option State
  | .openArray => some (.firstItem around)
  | .openObject => some (.firstField around)
  | token => (scalar? token).map fun value => settle value around

def step? : State → Token → Option State
  | value around, token => openValue? around token
  | firstItem around, .closeArray => some (settle (.array []) around)
  | firstItem around, token => openValue? (.items [] :: around) token
  | firstField around, .closeObject => some (settle (.object []) around)
  | firstField around, .string lexeme => some (colon [] lexeme around)
  | nextField done around, .string lexeme => some (colon done lexeme around)
  | colon done key around, .colon => some (value (.field done key :: around))
  | afterItem done around, .comma => some (value (.items done :: around))
  | afterItem done around, .closeArray => some (settle (.array done.reverse) around)
  | afterField done around, .comma => some (nextField done around)
  | afterField done around, .closeObject => some (settle (.object done.reverse) around)
  | _, _ => none

def Frame.broken (value : Json) : Frame → Json
  | .items done => .array (done.reverse ++ [value, .broken])
  | .field done key => .object (done.reverse ++ [(key, value), ([], .broken)])

def plug (value : Json) (around : List Frame) : Json :=
  around.foldl Frame.broken value

def broken : State → Json
  | value around => plug .broken around
  | firstItem around => plug (.array [.broken]) around
  | firstField around => plug (.object [([], .broken)]) around
  | nextField done around => plug (.object (done.reverse ++ [([], .broken)])) around
  | colon done key around => plug (.object (done.reverse ++ [(key, .broken)])) around
  | afterItem done around => plug (.array (done.reverse ++ [.broken])) around
  | afterField done around => plug (.object (done.reverse ++ [([], .broken)])) around
  | whole root => root

end State

/-- Builds one tree and gives back the tokens after it. -/
def build : State → List Token → Json × List Token
  | .whole root, rest => (root, rest)
  | state, [] => (state.broken, [])
  | state, token :: rest =>
      match state.step? token with
      | some state => build state rest
      | none => (state.broken, [])

end Json

structure Document where
  root : Json
  /-- What stands after the value; nothing, in a proper document. -/
  trailing : List Json.Token

def Document.ofText (cs : List Char) : Document :=
  let (root, trailing) := Json.build (.value []) (Json.Token.scan cs)
  ⟨root, trailing⟩

end Dialogue
