import NpuBroker.Utf8
import NpuBroker.Yaml.Scalar

/-!
# Tokens

A YAML document as tokens. Indentation becomes tokens of its own: a block collection opens where
its first item begins, and closes when a later line begins further left. The key of a block mapping
is seen only at the colon behind it, so its tokens are put in before what was read since. Such a
key is on one line and at most 1024 bytes long.

Tokens are read no further ahead than that takes. A fault therefore hides the tokens from the first
one on that may still turn out to be a key.
-/
namespace NpuBroker.Yaml

/-- Bytes, which need not be text. -/
abbrev TagText := List UInt8

inductive Token where
  | version (major minor : Nat)
  | tagHandle (handle : List Char) (start : TagText)
  | documentStart
  | documentEnd
  | blockSequence
  | blockMapping
  | blockEnd
  | flowSequence
  | flowSequenceEnd
  | flowMapping
  | flowMappingEnd
  | item
  | separator
  | key
  | value
  | alias (name : List Char)
  | anchor (name : List Char)
  | tag (handle : List Char) (suffix : TagText)
  | scalar (style : Style) (text : List Char)
  | streamEnd
deriving DecidableEq

/-- A token and where it begins and ends. -/
structure Lexeme where
  token : Token
  start : Mark
  stop : Mark

/-- The tokens up to the end, or up to a fault. -/
structure Lexed where
  lexemes : List Lexeme
  fault : Option Fault

/-- Where a key may have begun. -/
structure Candidate where
  /-- How many tokens are before it. -/
  place : Nat
  /-- Nothing but a key can stand there. -/
  required : Bool
  offset : Nat
  mark : Mark

structure Lexer where
  cursor : Cursor
  lexemes : List Lexeme
  /-- The columns of the open block collections, innermost first. -/
  indents : List Nat
  candidate : Option Candidate
  /-- The candidates around the open flow collections, innermost first. -/
  outer : List (Option Candidate)
  /-- Whether a key may begin here. -/
  fresh : Bool

namespace Lexer

def start (cs : List Char) : Lexer := ⟨.start cs, [], [], none, [], true⟩

def inFlow (l : Lexer) : Bool := !l.outer.isEmpty

/-- The column at which a plain text inside the innermost block has to be. -/
def least (l : Lexer) : Nat := l.indents.head?.elim 0 (· + 1)

/-- Puts a token behind the others that begins at the position and ends at `p`. -/
def emit (l : Lexer) (t : Token) (p : Cursor) : Lexer :=
  { l with lexemes := l.lexemes ++ [⟨t, l.cursor.mark, p.mark⟩], cursor := p }

/-- A token of `n` characters. -/
def indicator (l : Lexer) (t : Token) (n : Nat) : Lexer := l.emit t (l.cursor.skip n)

/-- The places where keys may have begun. -/
def candidates (l : Lexer) : List Candidate := (l.candidate :: l.outer).filterMap id

/-- How many tokens cannot change any more. -/
def settled (l : Lexer) : Nat := (l.candidates.map Candidate.place).foldl min l.lexemes.length

/-! ## Keys -/

def missedKey (l : Lexer) (k : Candidate) : Fault :=
  ⟨.noColon, l.cursor.mark, some (.simpleKey, k.mark)⟩

/-- Gives up the candidate, which must not be required. -/
def dropKey (l : Lexer) : Except Fault Lexer :=
  match l.candidate with
  | none => .ok l
  | some k => if k.required then .error (l.missedKey k) else .ok { l with candidate := none }

/-- Notes that a key may begin here. -/
def noteKey (l : Lexer) : Except Fault Lexer :=
  if l.fresh then do
    let l ← l.dropKey
    return { l with
      candidate := some {
        place := l.lexemes.length
        required := !l.inFlow && l.indents.head? == some l.cursor.column
        offset := l.cursor.offset
        mark := l.cursor.mark } }
  else .ok l

/-- Whether the position is too far behind `k` for a key. -/
def isStale (l : Lexer) (k : Candidate) : Bool :=
  k.mark.line < l.cursor.mark.line || k.offset + 1024 < l.cursor.offset

/-- Gives up the candidates that are too far back. -/
def dropStale (l : Lexer) : Except Fault Lexer :=
  match l.candidates.reverse.find? fun k => l.isStale k && k.required with
  | some k => .error (l.missedKey k)
  | none =>
    let kept (k : Option Candidate) : Option Candidate := k.filter fun k => !l.isStale k
    .ok { l with candidate := kept l.candidate, outer := l.outer.map kept }

/-! ## Indentation -/

/-- Opens a block collection that begins at `mark`, before the token at `place`, unless one is open
there. -/
def indent (l : Lexer) (mark : Mark) (place : Nat) (t : Token) : Lexer :=
  if l.inFlow then l
  else if l.indents.head?.all (· < mark.column) then
    { l with
      indents := mark.column :: l.indents
      lexemes := l.lexemes.take place ++ ⟨t, mark, mark⟩ :: l.lexemes.drop place }
  else l

/-- Closes the block collections that begin right of `column`, or all of them. -/
def dedent (l : Lexer) (column : Option Nat) : Lexer :=
  if l.inFlow then l
  else
    let inside (n : Nat) : Bool := column.all (· < n)
    let ending : Lexeme := ⟨.blockEnd, l.cursor.mark, l.cursor.mark⟩
    { l with
      indents := l.indents.dropWhile inside
      lexemes := l.lexemes ++ (l.indents.takeWhile inside).map fun _ => ending }

/-! ## Between tokens -/

/-- Behind a byte order mark, which may begin a line. -/
def skipByteOrder (p : Cursor) : Cursor :=
  if p.column == 0 && p.atChar '\uFEFF' then p.next else p

/-- Skips blanks, comments and line breaks. In a block, tabs are no indentation. -/
def skipSpacing : Nat → Lexer → Lexer
  | 0, l => l
  | fuel + 1, l =>
    let p := skipByteOrder l.cursor
    let p := p.skipWhile fun c => c == ' ' || c == '\t' && (l.inFlow || !l.fresh)
    let p := p.skipComment
    if p.rest.head?.any isBreak then
      skipSpacing fuel { l with cursor := p.next, fresh := l.fresh || !l.inFlow }
    else { l with cursor := p }

/-! ## Tags -/

def isUriChar (c : Char) : Bool :=
  isNameChar c || c ∈ ";/?:@&=+$.%!~*'()".toList

/-- How many bytes the character has whose first byte is `b`; none has zero. -/
def lengthOf (b : Nat) : Nat :=
  if b < 0x80 then 1
  else if 0xC0 ≤ b ∧ b < 0xE0 then 2
  else if 0xE0 ≤ b ∧ b < 0xF0 then 3
  else if 0xF0 ≤ b ∧ b < 0xF8 then 4
  else 0

/-- The byte that is escaped at `p`. -/
def escapedByte? (p : Cursor) : Option Nat :=
  match p.rest with
  | '%' :: a :: b :: _ => Scalar.hex? 2 [a, b]
  | _ => none

/-- `n` more escaped bytes of a character. -/
def laterBytes (during : Task × Mark) : Nat → Cursor → Except Fault (TagText × Cursor)
  | 0, p => .ok ([], p)
  | n + 1, p =>
    match escapedByte? p with
    | none => .error ⟨.noEscapedByte, p.mark, some during⟩
    | some b =>
      if 0x80 ≤ b ∧ b < 0xC0 then do
        let (bytes, p) ← laterBytes during n (p.skip 3)
        return (UInt8.ofNat b :: bytes, p)
      else .error ⟨.badLaterByte, p.mark, some during⟩

/-- An escaped character. -/
def escapedChar (during : Task × Mark) (p : Cursor) : Except Fault (TagText × Cursor) :=
  match escapedByte? p with
  | none => .error ⟨.noEscapedByte, p.mark, some during⟩
  | some b =>
    if lengthOf b = 0 then .error ⟨.badFirstByte, p.mark, some during⟩
    else do
      let (bytes, p) ← laterBytes during (lengthOf b - 1) (p.skip 3)
      return (UInt8.ofNat b :: bytes, p)

/-- The part of a tag from `p` on; lists may stand in it only when it is set apart. -/
def tagTextFrom (apart : Bool) (during : Task × Mark) :
    Nat → Cursor → Except Fault (TagText × Cursor)
  | 0, p => .ok ([], p)
  | fuel + 1, p =>
    match p.rest with
    | [] => .ok ([], p)
    | c :: _ => do
      if c = '%' then
        let (bytes, p) ← escapedChar during p
        let (more, p) ← tagTextFrom apart during fuel p
        return (bytes ++ more, p)
      else if isUriChar c || apart && c ∈ [',', '[', ']'] then
        let (more, p) ← tagTextFrom apart during fuel p.next
        return (Utf8.encode [c] ++ more, p)
      else return ([], p)

/-- The part of a tag at `p`, which may be missing only behind a `head`. -/
def tagText (apart : Bool) (during : Task × Mark) (head : List Char) (p : Cursor) :
    Except Fault (TagText × Cursor) := do
  let (bytes, q) ← tagTextFrom apart during (p.rest.length + 1) p
  if head = [] ∧ bytes = [] then throw ⟨.noTagText, q.mark, some during⟩
  return (Utf8.encode head.tail ++ bytes, q)

/-- An exclamation mark at `p` and the name behind it, with the exclamation mark that may end it. -/
def handle (p : Cursor) : List Char × Cursor :=
  let (name, p) := p.next.span isNameChar
  if p.atChar '!' then ('!' :: name ++ ['!'], p.next) else ('!' :: name, p)

def isHandle (cs : List Char) : Bool := 1 < cs.length && cs.getLast? == some '!'

/-- A tag: a text set apart, or a handle and the text behind it. The lone exclamation mark is one
without a handle. -/
def tag (l : Lexer) : Except Fault Lexer := do
  let l ← l.noteKey
  let start := l.cursor.mark
  let (t, p) ←
    if (l.cursor.next).atChar '<' then do
      let (text, p) ← tagText true (.tagText, start) [] (l.cursor.skip 2)
      if !p.atChar '>' then throw ⟨.noTagEnd, p.mark, some (.tag, start)⟩
      pure (Token.tag [] text, p.next)
    else do
      let (name, p) := handle l.cursor
      if isHandle name then
        let (text, p) ← tagText false (.tagText, start) [] p
        pure (Token.tag name text, p)
      else
        let (text, p) ← tagText false (.tagText, start) name p
        pure (if text.head?.all (· == 0) then Token.tag [] (Utf8.encode ['!'])
          else Token.tag ['!'] text, p)
  if !endsWord p.rest && !(l.inFlow && p.atChar ',') then
    throw ⟨.noGapOrBreak, p.mark, some (.tag, start)⟩
  return { l with fresh := false }.emit t p

/-! ## Directives -/

/-- A number of at most nine digits. -/
def versionNumber (start : Mark) (p : Cursor) : Except Fault (Nat × Cursor) :=
  let (digits, q) := p.span Char.isDigit
  if 9 < digits.length then
    .error ⟨.longVersion, (p.skip 9).mark, some (.versionDirective, start)⟩
  else match Decimal.nat? digits with
    | none => .error ⟨.noVersion, q.mark, some (.versionDirective, start)⟩
    | some n => .ok (n, q)

def versionDirective (start : Mark) (p : Cursor) : Except Fault (Token × Cursor) := do
  let (major, p) ← versionNumber start (p.skipWhile isGap)
  if !p.atChar '.' then throw ⟨.noVersionPoint, p.mark, some (.versionDirective, start)⟩
  let (minor, p) ← versionNumber start p.next
  return (.version major minor, p)

def tagDirective (start : Mark) (p : Cursor) : Except Fault (Token × Cursor) := do
  let p := p.skipWhile isGap
  if !p.atChar '!' then throw ⟨.noHandle, p.mark, some (.tagDirectiveHandle, start)⟩
  let (name, p) := handle p
  if name.getLast? ≠ some '!' then throw ⟨.noHandle, p.mark, some (.tagDirectiveName, start)⟩
  if !p.rest.head?.any isGap then throw ⟨.noGap, p.mark, some (.tagDirective, start)⟩
  let (text, p) ← tagText true (.tagDirectiveText, start) [] (p.skipWhile isGap)
  if !endsWord p.rest then throw ⟨.noGapOrBreak, p.mark, some (.tagDirective, start)⟩
  return (.tagHandle name text, p)

/-- A line that begins with a percent sign. -/
def directive (l : Lexer) : Except Fault Lexer := do
  let l ← (l.dedent none).dropKey
  let start := l.cursor.mark
  let (name, p) := l.cursor.next.span isNameChar
  if name = [] then throw ⟨.noDirectiveName, p.mark, some (.directive, start)⟩
  if !endsWord p.rest then throw ⟨.badDirectiveName, p.mark, some (.directive, start)⟩
  let (t, p) ←
    if name = "YAML".toList then versionDirective start p
    else if name = "TAG".toList then tagDirective start p
    else throw ⟨.unknownDirective, p.mark, some (.directive, start)⟩
  let l := { l with fresh := false }.emit t p
  let p := (p.skipWhile isGap).skipComment
  if !p.rest.head?.all isBreak then throw ⟨.noLineEnd, p.mark, some (.directive, start)⟩
  return { l with cursor := p.next }

/-! ## Single tokens -/

def documentMark (l : Lexer) (t : Token) : Except Fault Lexer := do
  let l ← (l.dedent none).dropKey
  return { l with fresh := false }.indicator t 3

def openFlow (l : Lexer) (t : Token) : Except Fault Lexer := do
  let l ← l.noteKey
  return { l with
    outer := l.candidate :: l.outer
    candidate := none
    fresh := true }.indicator t 1

def closeFlow (l : Lexer) (t : Token) : Except Fault Lexer := do
  let l ← l.dropKey
  return { l with
    outer := l.outer.tail
    candidate := l.outer.head?.join
    fresh := false }.indicator t 1

def separator (l : Lexer) : Except Fault Lexer := do
  let l ← l.dropKey
  return { l with fresh := true }.indicator .separator 1

/-- Opens a block collection for an indicator at the position, where there has to be room. -/
def indentHere (l : Lexer) (t : Token) (otherwise : Problem) : Except Fault Lexer :=
  if l.inFlow then .ok l
  else if l.fresh then .ok (l.indent l.cursor.mark l.lexemes.length t)
  else .error ⟨otherwise, l.cursor.mark, none⟩

def item (l : Lexer) : Except Fault Lexer := do
  let l ← (← l.indentHere .blockSequence .itemOutOfPlace).dropKey
  return { l with fresh := true }.indicator .item 1

def key (l : Lexer) : Except Fault Lexer := do
  let l ← (← l.indentHere .blockMapping .keyOutOfPlace).dropKey
  return { l with fresh := !l.inFlow }.indicator .key 1

def value (l : Lexer) : Except Fault Lexer :=
  match l.candidate with
  | some k =>
    let lexemes := l.lexemes.take k.place ++ ⟨.key, k.mark, k.mark⟩ :: l.lexemes.drop k.place
    let l := { l with lexemes := lexemes, candidate := none, fresh := false }
    .ok ((l.indent k.mark k.place .blockMapping).indicator .value 1)
  | none => do
    let l ← l.indentHere .blockMapping .valueOutOfPlace
    return { l with fresh := !l.inFlow }.indicator .value 1

/-- An anchor or an alias. -/
def name (l : Lexer) (task : Task) (t : List Char → Token) : Except Fault Lexer := do
  let l ← l.noteKey
  let (name, p) := l.cursor.next.span isNameChar
  let ends := endsWord p.rest || p.rest.head?.any (· ∈ "?:,]\x7d%@\x60".toList)
  if name = [] ∨ !ends then throw ⟨.noName, p.mark, some (task, l.cursor.mark)⟩
  return { l with fresh := false }.emit (t name) p

def block (l : Lexer) (style : Style) : Except Fault Lexer := do
  let l ← l.dropKey
  let (text, p) ← Scalar.block (style == .folded) l.indents.head? l.cursor
  return { l with fresh := true }.emit (.scalar style text) p

def quoted (l : Lexer) (style : Style) : Except Fault Lexer := do
  let l ← l.noteKey
  let (text, p) ← Scalar.quoted style l.cursor
  return { l with fresh := false }.emit (.scalar style text) p

def plain (l : Lexer) : Except Fault Lexer := do
  let l ← l.noteKey
  let (text, fresh, p) ← Scalar.plain l.inFlow l.least l.cursor
  return { l with fresh := fresh }.emit (.scalar .plain text) p

/-- Whether a plain text may begin with `c`, before `cs`. -/
def startsPlain (l : Lexer) (c : Char) (cs : List Char) : Bool :=
  if c = '-' then !cs.head?.any isGap
  else if c = '?' ∨ c = ':' then !l.inFlow && !endsWord cs
  else !Scalar.isSpacing c && c ∉ ",[]\x7b\x7d#&*!|>'\"%@\x60".toList

/-- Reads the token that begins with `c`, before `cs`. -/
def token (l : Lexer) (c : Char) (cs : List Char) : Except Fault Lexer :=
  let alone := endsWord cs
  if l.cursor.column = 0 ∧ c = '%' then l.directive
  else if l.cursor.atMark '-' then l.documentMark .documentStart
  else if l.cursor.atMark '.' then l.documentMark .documentEnd
  else if c = '[' then l.openFlow .flowSequence
  else if c = '\x7b' then l.openFlow .flowMapping
  else if c = ']' then l.closeFlow .flowSequenceEnd
  else if c = '\x7d' then l.closeFlow .flowMappingEnd
  else if c = ',' then l.separator
  else if c = '-' ∧ alone then l.item
  else if c = '?' ∧ (l.inFlow ∨ alone) then l.key
  else if c = ':' ∧ (l.inFlow ∨ alone) then l.value
  else if c = '*' then l.name .alias .alias
  else if c = '&' then l.name .anchor .anchor
  else if c = '!' then l.tag
  else if c = '|' ∧ !l.inFlow then l.block .literal
  else if c = '>' ∧ !l.inFlow then l.block .folded
  else if c = '\'' then l.quoted .single
  else if c = '"' then l.quoted .double
  else if l.startsPlain c cs then l.plain
  else .error ⟨.noToken, l.cursor.mark, some (.token, l.cursor.mark)⟩

/-- Ends the text, on a line of its own. -/
def finish (l : Lexer) : Except Fault Lexer := do
  let p := l.cursor
  let mark := if p.column = 0 then p.mark else ⟨p.mark.line + 1, 0⟩
  let l ← ({ l with cursor := { p with mark := mark } }.dedent none).dropKey
  return l.indicator .streamEnd 0

/-- Reads to the next token and over it. -/
def step (l : Lexer) : Except Fault Lexer := do
  let l ← (l.skipSpacing (l.cursor.rest.length + 1)).dropStale
  let l := l.dedent (some l.cursor.column)
  let l ← match l.cursor.rest with
    | [] => l.finish
    | c :: cs => l.token c cs
  l.dropStale

/-- Reads to the end. -/
def run : Nat → Lexer → Lexed
  | 0, l => ⟨l.lexemes, none⟩
  | fuel + 1, l =>
    match l.step with
    | .error f => ⟨l.lexemes.take l.settled, some f⟩
    | .ok m =>
      if m.lexemes.getLast?.any (·.token = .streamEnd) then ⟨m.lexemes, none⟩ else run fuel m

end Lexer

/-- The bytes before the first character that no document may hold, if there is one. -/
def forbidden? (cs : List Char) : Option Nat :=
  if cs.all isAllowed then none
  else some ((cs.takeWhile isAllowed).foldl (fun n c => n + c.utf8Size) 0)

/-- The tokens of a text. -/
def Lexed.ofChars (cs : List Char) : Lexed :=
  match forbidden? cs with
  | some n => ⟨[], some ⟨.forbidden n, .origin, none⟩⟩
  | none => Lexer.run (cs.length + 2) (.start (unifyBreaks cs))

end NpuBroker.Yaml
