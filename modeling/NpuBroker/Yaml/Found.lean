import NpuBroker.Binary64
import NpuBroker.Text.Quoted
import NpuBroker.Yaml.Node

/-!
# What a node holds

A plain scalar may be nothing, a truth value or a number; every other scalar is a text, unless a tag
says what it is. Numbers have no leading zeros, and those in other radixes begin with `0x`, `0o` or
`0b`.
-/
namespace NpuBroker.Yaml

inductive Found where
  | nothing
  | bool (b : Bool)
  /-- A number of 64 bits, with or without a sign. -/
  | integer (n : Int)
  /-- A number of 128 bits. -/
  | wide (n : Int)
  | float (x : Binary64)
  | infinity (negative : Bool)
  | notANumber
  | text (s : String)
  | sequence
  | mapping

namespace Found

def message : Found → String
  | .nothing => "unit value"
  | .bool b => "boolean `" ++ (if b then "true" else "false") ++ "`"
  | .integer n => "integer `" ++ String.ofList (Decimal.signed n) ++ "`"
  | .wide n =>
    "integer `" ++ String.ofList (Decimal.signed n) ++ "` as " ++ if n < 0 then "i128" else "u128"
  | .float x =>
    let digits := x.shortest
    let digits := if '.' ∈ digits then digits else digits ++ ['.', '0']
    "floating point `" ++ String.ofList digits ++ "`"
  | .infinity negative => "floating point `" ++ (if negative then "-inf" else "inf") ++ "`"
  | .notANumber => "floating point `NaN`"
  | .text s => "string " ++ Text.quoted s
  | .sequence => "sequence"
  | .mapping => "map"

/-! ## Plain scalars -/

def isNull (text : String) : Bool := text ∈ ["null", "Null", "NULL", "~"]

def bool? (text : String) : Option Bool :=
  if text ∈ ["true", "True", "TRUE"] then some true
  else if text ∈ ["false", "False", "FALSE"] then some false
  else none

/-- The number that digits of a radix write. -/
def digits? (radix : Nat) (cs : List Char) : Option Nat :=
  if cs = [] then none
  else cs.foldlM (fun n c => ((Scalar.hexValue? c).filter (· < radix)).map (radix * n + ·)) 0

/-- A number without a sign. -/
def magnitude? : List Char → Option Nat
  | '0' :: 'x' :: digits => digits? 16 digits
  | '0' :: 'o' :: digits => digits? 8 digits
  | '0' :: 'b' :: digits => digits? 2 digits
  | ['0'] => some 0
  | '0' :: _ => none
  | digits => digits? 10 digits

/-- A number without a sign or with a plus. -/
def natural? (cs : List Char) : Option Nat :=
  magnitude? (if cs.head? = some '+' then cs.tail else cs)

/-- A number with a minus, without it. -/
def negated? : List Char → Option Nat
  | '-' :: cs => magnitude? cs
  | _ => none

/-- An integer of at most 128 bits. -/
def integer? (cs : List Char) : Option Found :=
  match natural? cs, negated? cs with
  | some n, _ =>
    if n < Nat.pow 2 64 then some (.integer n)
    else if n < Nat.pow 2 128 then some (.wide n) else none
  | none, some n =>
    if n ≤ Nat.pow 2 63 then some (.integer (-n))
    else if n ≤ Nat.pow 2 127 then some (.wide (-n)) else none
  | none, none => none

/-- Whether these are digits that begin with a zero too many. -/
def hasLeadingZero (cs : List Char) : Bool :=
  let cs := if cs.head? = some '-' ∨ cs.head? = some '+' then cs.tail else cs
  1 < cs.length && cs.head? == some '0' && cs.all Char.isDigit

def isSigned (cs : List Char) : Bool := cs.head? == some '-' || cs.head? == some '+'

/-- A number with a point or an exponent, or one of the names of infinity and of no number. -/
def float? (cs : List Char) : Option Found :=
  let bare := if cs.head? = some '+' then cs.tail else cs
  if cs.head? = some '+' ∧ isSigned bare then none
  else if String.ofList bare ∈ [".inf", ".Inf", ".INF"] then some (.infinity false)
  else if String.ofList cs ∈ ["-.inf", "-.Inf", "-.INF"] then some (.infinity true)
  else if String.ofList cs ∈ [".nan", ".NaN", ".NAN"] then some .notANumber
  else (Binary64.ofText? bare).map .float

/-- What a plain scalar without a tag is. -/
def ofPlain (text : String) : Found :=
  let cs := text.toList
  if text = "" ∨ isNull text then .nothing
  else match bool? text with
    | some b => .bool b
    | none =>
      match integer? cs with
      | some n => n
      | none => if hasLeadingZero cs then .text text else (float? cs).getD (.text text)

end Found

/-! ## Misfits -/

/-- Why a node is not what is wanted. -/
inductive Misfit where
  | type (found : Found) (wanted : String)
  | value (found : Found) (wanted : String)
  | repeated (field : String)

def Misfit.message : Misfit → String
  | .type found wanted => "invalid type: " ++ found.message ++ ", expected " ++ wanted
  | .value found wanted => "invalid value: " ++ found.message ++ ", expected " ++ wanted
  | .repeated field => "duplicate field `" ++ field ++ "`"

/-- The full text of a tag of YAML's own. -/
def standardTag (name : String) : TagText := Utf8.encode ("tag:yaml.org,2002:" ++ name).toList

/-- What a scalar is found to be instead of what is wanted. A text that is not of the type that its
tag says does not even suit that. -/
def Misfit.ofScalar (style : Style) (tag : Option TagText) (text wanted : String) : Misfit :=
  let plain := if style = .plain then Found.ofPlain text else .text text
  let orElse (found : Option Found) (typed : String) : Misfit :=
    found.elim (.value (.text text) typed) fun found => .type found wanted
  match tag with
  | none => .type plain wanted
  | some t =>
    if t = standardTag "bool" then orElse ((Found.bool? text).map .bool) "a boolean"
    else if t = standardTag "int" then orElse (Found.integer? text.toList) "an integer"
    else if t = standardTag "float" then orElse (Found.float? text.toList) "a float"
    else if t = standardTag "null" then
      orElse (if Found.isNull text then some .nothing else none) "null"
    else if t.head? = some 0x21 then .type plain wanted
    else .type (.text text) wanted

end NpuBroker.Yaml
