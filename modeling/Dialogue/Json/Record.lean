import Dialogue.Decimal
import Dialogue.Json.Tree
/-!
JSON trees as text, on one line without any blanks, or one member to a line with two blanks for each
level; and the shapes that stored data is made of: texts, numbers, lists, records and alternatives.
Nothing reads a broken member, so a reader that succeeds has met no fault of the text.
-/
namespace Dialogue.Json

mutual

def compact : Json → List Char
  | null => "null".toList
  | boolean true => "true".toList
  | boolean false => "false".toList
  | number lexeme => lexeme
  | string lexeme => '"' :: lexeme ++ ['"']
  | array items => '[' :: compactItems items ++ [']']
  | object fields => '{' :: compactFields fields ++ ['}']
  | broken => []

def compactItems : List Json → List Char
  | [] => []
  | [item] => compact item
  | item :: rest => compact item ++ ',' :: compactItems rest

def compactFields : List (List Char × Json) → List Char
  | [] => []
  | [(name, value)] => '"' :: name ++ '"' :: ':' :: compact value
  | (name, value) :: rest => '"' :: name ++ '"' :: ':' :: compact value ++ ',' :: compactFields rest

end

def newline (depth : Nat) : List Char := '\n' :: List.replicate (2 * depth) ' '

mutual

def pretty (depth : Nat) : Json → List Char
  | array (item :: rest) =>
      '[' :: prettyItems (depth + 1) (item :: rest) ++ newline depth ++ [']']
  | object (field :: rest) =>
      '{' :: prettyFields (depth + 1) (field :: rest) ++ newline depth ++ ['}']
  | null => "null".toList
  | boolean true => "true".toList
  | boolean false => "false".toList
  | number lexeme => lexeme
  | string lexeme => '"' :: lexeme ++ ['"']
  | array [] => ['[', ']']
  | object [] => ['{', '}']
  | broken => []

def prettyItems (depth : Nat) : List Json → List Char
  | [] => []
  | [item] => newline depth ++ pretty depth item
  | item :: rest => newline depth ++ pretty depth item ++ ',' :: prettyItems depth rest

def prettyFields (depth : Nat) : List (List Char × Json) → List Char
  | [] => []
  | [(name, value)] => newline depth ++ '"' :: name ++ '"' :: ':' :: ' ' :: pretty depth value
  | (name, value) :: rest =>
      newline depth ++ '"' :: name ++ '"' :: ':' :: ' ' :: pretty depth value ++
        ',' :: prettyFields depth rest

end

def toCompact (json : Json) : String := String.ofList json.compact

def toPretty (json : Json) : String := String.ofList (json.pretty 0)

abbrev Reader (α : Type) := Json → Option α

variable {α : Type}

def text? : Reader String
  | .string lexeme => (Lexeme.read? lexeme).map String.ofList
  | _ => none

def boolean? : Reader Bool
  | .boolean b => some b
  | _ => none

def whole? : List Char → Option Int
  | '-' :: digits => (Whole.natural? digits).bind fun n => if n = 0 then none else some (-(n : Int))
  | digits => (Whole.natural? digits).map fun n => (n : Int)

def natBelow? (bound : Nat) : Reader Nat
  | .number lexeme =>
      (whole? lexeme).bind fun n => if 0 ≤ n ∧ n < bound then some n.toNat else none
  | _ => none

def word? : Reader Int64
  | .number lexeme => (whole? lexeme).bind Whole.word?
  | _ => none

/-- The double that the leading digits come to. A number too large for any is refused. -/
def real? : Reader Float
  | .number lexeme =>
      (Numeral.read? UInt32.size lexeme).bind fun numeral =>
        let code := numeral.leading.stepwise
        if code < Format.double.infinity then some (Real.ofCode numeral.negative code) else none
  | _ => none

/-- Whole numbers of 64 bits are rounded to single precision at once, all others by way of a double. -/
def single? : Reader Float32
  | .number lexeme =>
      match (whole? lexeme).filter fun n => Int64.minValue.toInt ≤ n ∧ n < (UInt64.size : Int) with
      | some n => some (Single.ofInt n)
      | none => (real? (.number lexeme)).map Single.ofDouble
  | _ => none

def optional? (read : Reader α) : Reader (Option α)
  | .null => some none
  | json => (read json).map some

def list? (read : Reader α) : Reader (List α)
  | .array items => items.mapM read
  | _ => none

def isBroken : Json → Bool
  | .broken => true
  | _ => false

def members? : Reader (List (String × Json))
  | .object fields =>
      if fields.any fun field => isBroken field.2 then none
      else fields.mapM fun field => (Lexeme.read? field.1).map fun name => (String.ofList name, field.2)
  | _ => none

/-- A record is an object with some of the names, none of them twice, and possibly others, which do not
count; or an array of the first few of its values. -/
def record? (names : List String) : Reader (List (String × Json))
  | .array items => if items.length ≤ names.length then some (names.zip items) else none
  | json => do
      let members ← members? json
      let known := members.filter fun member => member.1 ∈ names
      if (known.map Prod.fst).Nodup then some known else none

def required (members : List (String × Json)) (name : String) (read : Reader α) : Option α :=
  (members.lookup name).bind read

def defaulted (members : List (String × Json)) (name : String) (default : α) (read : Reader α) :
    Option α :=
  match members.lookup name with
  | none => some default
  | some json => read json

/-- An alternative: a name alone, or an object that gives the one name a content. -/
def tagged? : Reader (String × Option Json)
  | .string lexeme => (Lexeme.read? lexeme).map fun name => (String.ofList name, none)
  | .object [(key, content)] =>
      (Lexeme.read? key).map fun name => (String.ofList name, some content)
  | _ => none

def isBare : Option Json → Bool
  | none | some .null => true
  | _ => false

def oneOf? (alternatives : List (String × α)) : Reader α := fun json =>
  (tagged? json).bind fun (name, content) =>
    if isBare content then alternatives.lookup name else none

def ofText (s : String) : Json := .string (Lexeme.write s.toList)

def ofNat (n : Nat) : Json := .number (Whole.digits n)

def ofInt (n : Int) : Json := .number (Whole.write n)

def realStyle : Style := ⟨.toEven, some (-5, 15), true⟩

def ofReal (x : Float) : Json :=
  if Real.isFinite x then
    .number (realStyle.write Format.double (Real.isNegative x) (Real.code x))
  else .null

def singleStyle : Style := ⟨.toEven, some (-6, 12), true⟩

def ofSingle (x : Float32) : Json :=
  if Single.isFinite x then
    .number (singleStyle.write Format.single (Single.isNegative x) (Single.code x))
  else .null

def ofOption (write : α → Json) : Option α → Json
  | none => .null
  | some a => write a

def ofList (write : α → Json) (items : List α) : Json := .array (items.map write)

def record (members : List (String × Json)) : Json :=
  .object (members.map fun member => (Lexeme.write member.1.toList, member.2))

def tagged (name : String) (content : Json) : Json := record [(name, content)]

end Dialogue.Json
