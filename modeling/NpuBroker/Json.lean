import NpuBroker.Decimal

/-!
# JSON documents

Values as they come and go, with the fields of an object in order, and the printer that puts
each item on a line of its own.
-/
namespace NpuBroker

inductive Json where
  | null
  | bool (b : Bool)
  | int (n : Int)
  /-- `mantissa` with `places` digits after the point; never an integer. -/
  | fraction (mantissa : Int) (places : Nat)
  | str (s : String)
  | arr (items : List Json)
  | obj (fields : List (String × Json))
deriving Inhabited

namespace Json

def ofOption {α : Type} (f : α → Json) : Option α → Json
  | none => .null
  | some a => f a

def ofBounded {n : Nat} (i : Fin n) : Json := .int i.val

/-- The last hexadecimal digit of `n`. -/
def hexDigit (n : Nat) : Char := Nat.digitChar (n % 16)

/-- A character inside a quoted text. -/
def escape (c : Char) : List Char :=
  if c = '"' then ['\\', '"']
  else if c = '\\' then ['\\', '\\']
  else if c = '\n' then ['\\', 'n']
  else if c = '\r' then ['\\', 'r']
  else if c = '\t' then ['\\', 't']
  else if c = '\x08' then ['\\', 'b']
  else if c = '\x0c' then ['\\', 'f']
  else if c.toNat < 0x20 then
    ['\\', 'u', '0', '0', hexDigit (c.toNat / 16), hexDigit c.toNat]
  else [c]

def quoted (s : String) : List Char := '"' :: s.toList.flatMap escape ++ ['"']

/-- `mantissa` with a point before its last `places` digits. -/
def fractionChars (mantissa : Int) (places : Nat) : List Char :=
  let digits := Decimal.digits mantissa.natAbs
  let digits := List.replicate (places + 1 - digits.length) '0' ++ digits
  (if mantissa < 0 then ['-'] else []) ++ digits.take (digits.length - places) ++
    '.' :: digits.drop (digits.length - places)

/-- A new line, indented by `depth` steps. -/
def newline (depth : Nat) : List Char := '\n' :: List.replicate (2 * depth) ' '

mutual

def lines (depth : Nat) : Json → List Char
  | .null => "null".toList
  | .bool b => (if b then "true" else "false").toList
  | .int n => Decimal.signed n
  | .fraction mantissa places => fractionChars mantissa places
  | .str s => quoted s
  | .arr [] => ['[', ']']
  | .arr (item :: items) =>
    '[' :: newline (depth + 1) ++ lines (depth + 1) item ++ moreItems (depth + 1) items ++
      newline depth ++ [']']
  | .obj [] => ['\x7b', '\x7d']
  | .obj ((key, value) :: fields) =>
    '\x7b' :: newline (depth + 1) ++ quoted key ++ [':', ' '] ++ lines (depth + 1) value ++
      moreFields (depth + 1) fields ++ newline depth ++ ['\x7d']

def moreItems (depth : Nat) : List Json → List Char
  | [] => []
  | item :: items => ',' :: newline depth ++ lines depth item ++ moreItems depth items

def moreFields (depth : Nat) : List (String × Json) → List Char
  | [] => []
  | (key, value) :: fields =>
    ',' :: newline depth ++ quoted key ++ [':', ' '] ++ lines depth value ++
      moreFields depth fields

end

/-- The document with two blanks of indent for each level. -/
def pretty (j : Json) : String := String.ofList (lines 0 j)

end Json
end NpuBroker
