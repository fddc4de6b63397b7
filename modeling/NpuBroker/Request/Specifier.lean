import NpuBroker.Request
import NpuBroker.Text.Digits

/-!
# Specifiers

A request as text. It is either one structured item, `<arch>*<count>` or
`<arch>(<mode>)*<count>`, or selectors with commas between them. A selector is the name of a
unit or its shorthand `<N>`, `<N>:<K>` or `<N>:<A>-<B>`; numbers in a shorthand and counts may
have leading zeros. Blanks around the text and around each selector do not matter.
-/
namespace NpuBroker.Request

/-- The three parts of a structured item as they are written. -/
structure Item where
  arch : List Char
  mode : Option (List Char)
  count : List Char

/-- A count as far as its form goes: digits of any script. -/
def isCount (cs : List Char) : Bool := !cs.isEmpty && cs.all Text.isDecimal

/-- A structured item by its form alone. -/
def item? (cs : List Char) : Option Item :=
  let arch := cs.takeWhile Char.isAlpha
  if arch = [] then none
  else match cs.dropWhile Char.isAlpha with
    | '*' :: count => if isCount count then some ⟨arch, none, count⟩ else none
    | '(' :: rest =>
      let mode := rest.takeWhile Char.isLower
      if mode = [] then none
      else match rest.dropWhile Char.isLower with
        | ')' :: '*' :: count => if isCount count then some ⟨arch, some mode, count⟩ else none
        | _ => none
    | _ => none

/-- What the item `token` asks for. -/
def ofItem (token : List Char) (item : Item) : Except Fault Request := do
  let refuse (cause : SpecifierCause) : Fault := .invalidSpecifier (String.ofList token) cause
  let arch ← (Arch.ofText (String.ofList item.arch)).mapError fun t => refuse (.badArch t)
  let mode ← match item.mode with
    | none => .ok .single
    | some mode => (Mode.ofText (String.ofList mode)).mapError fun t => refuse (.badMode t)
  match (Decimal.nat? item.count).bind (Decimal.below? 256) with
  | none => .error (refuse .countOutOfRange)
  | some count =>
    let request := structured arch mode count
    request.check
    return request

/-- An index with any number of leading zeros. -/
def looseIndex? (cs : List Char) : Option Index := (Decimal.nat? cs).bind (Decimal.below? 256)

/-- `<N>`, `<N>:<K>` or `<N>:<A>-<B>`. -/
def shorthand? (cs : List Char) : Option UnitId := do
  let device ← looseIndex? (cs.takeWhile Char.isDigit)
  match cs.dropWhile Char.isDigit with
  | [] => return ⟨device, none⟩
  | ':' :: rest => return ⟨device, some (← UnitId.spanOf? looseIndex? rest)⟩
  | _ => none

/-- The unit a selector names. -/
def selector (token : List Char) : Except Fault UnitId :=
  if token = [] then .error (.invalidSpecifier "" .emptySelector)
  else match UnitId.ofChars? token <|> shorthand? token with
    | some unit => .ok unit
    | none =>
      .error (.invalidSpecifier (String.ofList token)
        (if (item? token).isSome then .combined else .noUnitName))

/-- The units the selectors name, in order. -/
def ofSelectors (tokens : List (List Char)) : Except Fault Request := do
  let request := explicit (← tokens.mapM selector)
  request.check
  return request

/-- The units with these names. -/
def ofNames (names : List String) : Except Fault Request :=
  ofSelectors (names.map fun name => Text.trim name.toList)

def ofChars (cs : List Char) : Except Fault Request :=
  match Text.trim cs with
  | [] => .error (.invalidSpecifier "" .emptySpecifier)
  | cs =>
    match (cs.splitOn ',').map Text.trim with
    | [token] =>
      match item? token with
      | some item => ofItem token item
      | none => ofSelectors [token]
    | tokens => ofSelectors tokens

/-- The request a specifier stands for. -/
def ofText (s : String) : Except Fault Request := ofChars s.toList

end NpuBroker.Request
