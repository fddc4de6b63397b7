import NpuBroker.Decimal
import NpuBroker.Yaml.Fault

/-!
# Scalars

The five ways to write a text: plain, in single or double quotes, and as a block of literal or
folded lines. Each reader answers with the text and the position behind it, or refuses.

Within plain and quoted texts a run of blanks and line breaks stands for what `fold` says: blanks
for themselves, one line break for a blank, and more of them for all but the first.
-/
namespace NpuBroker.Yaml

inductive Style where
  | plain
  | single
  | double
  | literal
  | folded
deriving DecidableEq

namespace Scalar

/-- What a run of blanks and line breaks stands for. -/
def fold (run : List Char) : List Char :=
  match run.filter isBreak with
  | [] => run
  | ['\n'] => [' ']
  | '\n' :: more => more
  | breaks => breaks

def isSpacing (c : Char) : Bool := isGap c || isBreak c

/-! ## Plain -/

def isFlowIndicator (c : Char) : Bool := c ∈ [',', '[', ']', '\x7b', '\x7d']

/-- The part of a plain text up to the next blank or indicator, and whether a colon right before an
indicator inside a flow collection ends it, which is refused. -/
def plainWord (flow : Bool) : List Char → List Char × Bool
  | [] => ([], false)
  | c :: cs =>
    if isSpacing c || c == ':' && endsWord cs || flow && isFlowIndicator c then ([], false)
    else if flow && c == ':' && cs.head?.any fun d => isFlowIndicator d || d == '?' then ([], true)
    else
      let (word, refused) := plainWord flow cs
      (c :: word, refused)

/-- The first of `n` characters that is a tab left of column `least`, behind line `line`. -/
def earlyTab? (line least : Nat) : Nat → Cursor → Option Cursor
  | 0, _ => none
  | n + 1, p =>
    if p.atChar '\t' && line < p.mark.line && p.column < least then some p
    else earlyTab? line least n p.next

/-- A plain text that began at `start`, from `p` on, behind `text` and a `run` of blanks, whose
lines are indented by `indent` at least. Also says whether line breaks follow it. -/
def plainFrom (flow : Bool) (indent : Nat) (start : Mark) :
    Nat → List Char → List Char → Cursor → Except Fault (List Char × Bool × Cursor)
  | 0, text, run, p => .ok (text, run.any isBreak, p)
  | fuel + 1, text, run, p =>
    let stop := .ok (text, run.any isBreak, p)
    if p.atDocumentMark || p.atChar '#' then stop
    else
      let (word, refused) := plainWord flow p.rest
      let q := p.skip word.length
      if refused then .error ⟨.colon, q.mark, some (.plain, start)⟩
      else if word = [] then stop
      else
        let text := text ++ fold run ++ word
        let (run, r) := q.span isSpacing
        if run = [] then .ok (text, false, r)
        else match earlyTab? q.mark.line indent run.length q with
          | some t => .error ⟨.tabBeforeText, t.mark, some (.plain, start)⟩
          | none =>
            if !flow && r.column < indent then .ok (text, run.any isBreak, r)
            else plainFrom flow indent start fuel text run r

def plain (flow : Bool) (indent : Nat) (p : Cursor) : Except Fault (List Char × Bool × Cursor) :=
  plainFrom flow indent p.mark (p.rest.length + 1) [] [] p

/-! ## Quoted -/

/-- The character behind a backslash that stands for one. -/
def escape? : Char → Option Char
  | '0' => some '\x00'
  | 'a' => some '\x07'
  | 'b' => some '\x08'
  | 't' | '\t' => some '\t'
  | 'n' => some '\n'
  | 'v' => some '\x0b'
  | 'f' => some '\x0c'
  | 'r' => some '\r'
  | 'e' => some '\x1b'
  | ' ' => some ' '
  | '"' => some '"'
  | '/' => some '/'
  | '\\' => some '\\'
  | 'N' => some '\u0085'
  | '_' => some '\u00a0'
  | 'L' => some '\u2028'
  | 'P' => some '\u2029'
  | _ => none

/-- How many hexadecimal digits an escape is followed by. -/
def escapeLength? : Char → Option Nat
  | 'x' => some 2
  | 'u' => some 4
  | 'U' => some 8
  | _ => none

def hexValue? (c : Char) : Option Nat :=
  if c.isDigit then some (c.toNat - '0'.toNat)
  else if 'a' ≤ c ∧ c ≤ 'f' then some (c.toNat - 'a'.toNat + 10)
  else if 'A' ≤ c ∧ c ≤ 'F' then some (c.toNat - 'A'.toNat + 10)
  else none

/-- The number that `n` hexadecimal digits write. -/
def hex? (n : Nat) (cs : List Char) : Option Nat :=
  if cs.length < n then none
  else (cs.take n).foldlM (fun value c => (hexValue? c).map (16 * value + ·)) 0

/-- The character with this code point. -/
def scalar? (n : Nat) : Option Char := if n.isValidChar then some (Char.ofNat n) else none

/-- A double-quoted text that began at `start`, from `p` on, behind `text`. -/
def doubleFrom (start : Mark) :
    Nat → List Char → Cursor → Except Fault (List Char × Cursor)
  | 0, text, p => .ok (text, p)
  | fuel + 1, text, p =>
    if p.atDocumentMark then .error ⟨.documentMark, p.mark, some (.quoted, start)⟩
    else match p.rest with
      | [] => .error ⟨.unclosed, p.mark, some (.quoted, start)⟩
      | '"' :: _ => .ok (text, p.next)
      | ['\\'] => .error ⟨.unknownEscape, p.mark, some (.escape, start)⟩
      | '\\' :: c :: cs =>
        let q := p.skip 2
        if isBreak c then
          let (run, r) := q.span isSpacing
          doubleFrom start fuel (text ++ run.filter isBreak) r
        else match escape? c, escapeLength? c with
          | some d, _ => doubleFrom start fuel (text ++ [d]) q
          | none, some n =>
            match hex? n cs with
            | none => .error ⟨.noHexDigit, q.mark, some (.escape, start)⟩
            | some value =>
              match scalar? value with
              | none => .error ⟨.noCharacter, q.mark, some (.escape, start)⟩
              | some d => doubleFrom start fuel (text ++ [d]) (q.skip n)
          | none, none => .error ⟨.unknownEscape, p.mark, some (.escape, start)⟩
      | c :: _ =>
        if isSpacing c then
          let (run, r) := p.span isSpacing
          doubleFrom start fuel (text ++ fold run) r
        else doubleFrom start fuel (text ++ [c]) p.next

/-- A single-quoted text that began at `start`, from `p` on, behind `text`; a quote inside it is
written twice. -/
def singleFrom (start : Mark) :
    Nat → List Char → Cursor → Except Fault (List Char × Cursor)
  | 0, text, p => .ok (text, p)
  | fuel + 1, text, p =>
    if p.atDocumentMark then .error ⟨.documentMark, p.mark, some (.quoted, start)⟩
    else match p.rest with
      | [] => .error ⟨.unclosed, p.mark, some (.quoted, start)⟩
      | '\'' :: '\'' :: _ => singleFrom start fuel (text ++ ['\'']) (p.skip 2)
      | '\'' :: _ => .ok (text, p.next)
      | c :: _ =>
        if isSpacing c then
          let (run, r) := p.span isSpacing
          singleFrom start fuel (text ++ fold run) r
        else singleFrom start fuel (text ++ [c]) p.next

/-- A quoted text whose opening quote is at `p`. -/
def quoted (style : Style) (p : Cursor) : Except Fault (List Char × Cursor) :=
  let read := if style = .double then doubleFrom else singleFrom
  read p.mark (p.rest.length + 1) [] p.next

/-! ## Blocks -/

/-- What becomes of the line breaks at the end of a block. -/
inductive Chomping where
  | strip
  | clip
  | keep
deriving DecidableEq

def chompingAt (p : Cursor) : Option Chomping :=
  match p.rest.head? with
  | some '+' => some .keep
  | some '-' => some .strip
  | _ => none

/-- A digit other than zero at `p`. -/
def depthAt (start : Mark) (p : Cursor) : Except Fault (Option Nat × Cursor) :=
  match p.rest.head? with
  | none => .ok (none, p)
  | some c =>
    if c = '0' then .error ⟨.noDepth, p.mark, some (.block, start)⟩
    else if c.isDigit then .ok (some (c.toNat - '0'.toNat), p.next)
    else .ok (none, p)

/-- The header of a block behind its indicator: the chomping, and the depth when it is given. -/
def header (start : Mark) (p : Cursor) : Except Fault (Chomping × Option Nat × Cursor) :=
  match chompingAt p with
  | some chomping => do
    let (depth, p) ← depthAt start p.next
    return (chomping, depth, p)
  | none => do
    let (depth, p) ← depthAt start p
    match depth, chompingAt p with
    | some _, some chomping => return (chomping, depth, p.next)
    | _, _ => return (.clip, depth, p)

/-- The line breaks before the next line of a block, behind `breaks`, and how deep the deepest line
among them is indented. A tab before the indentation is refused. -/
def emptyLines (start : Mark) (indent : Option Nat) :
    Nat → List Char → Nat → Cursor → Except Fault (List Char × Nat × Cursor)
  | 0, breaks, most, p => .ok (breaks, most, p)
  | fuel + 1, breaks, most, p =>
    let blanks := p.rest.takeWhile (· == ' ')
    let p := p.skip (indent.elim blanks.length fun n => min blanks.length (n - p.column))
    let most := max most p.column
    if (indent.all fun n => p.column < n) && p.atChar '\t' then
      .error ⟨.tabInIndentation, p.mark, some (.block, start)⟩
    else match p.rest with
      | [] => .ok (breaks, most, p)
      | c :: _ =>
        if isBreak c then emptyLines start indent fuel (breaks ++ [c]) most p.next
        else .ok (breaks, most, p)

/-- What of a block's line breaks between two lines stays: `pending` ended the first, and `breaks`
are those of empty lines. Folded lines are joined unless one of them begins with a blank. -/
def joined (folded : Bool) (pending breaks : List Char) (blank : Bool) : List Char :=
  if folded && pending.head? == some '\n' && !blank then
    if breaks = [] then [' '] else breaks
  else pending ++ breaks

/-- A block's text with what is left of the line breaks behind it. -/
def chomped (chomping : Chomping) (text pending breaks : List Char) : List Char :=
  match chomping with
  | .strip => text
  | .clip => text ++ pending
  | .keep => text ++ pending ++ breaks

/-- The lines of a block from `p` on, each indented by `indent`, behind `text`. Of the line breaks
between, `pending` ended the line before and `breaks` are those of empty lines. -/
def blockFrom (start : Mark) (folded : Bool) (chomping : Chomping) (indent : Nat) :
    Nat → List Char → List Char → List Char → Bool → Cursor → Except Fault (List Char × Cursor)
  | 0, text, pending, breaks, _, p => .ok (chomped chomping text pending breaks, p)
  | fuel + 1, text, pending, breaks, afterBlank, p =>
    match p.rest with
    | [] => .ok (chomped chomping text pending breaks, p)
    | c :: _ =>
      if p.column = indent then do
        let text := text ++ joined folded pending breaks (afterBlank || isGap c)
        let (line, q) := p.span fun c => !isBreak c
        let pending := q.rest.take 1
        let (breaks, _, r) ← emptyLines start (some indent) (q.rest.length + 1) [] 0 q.next
        blockFrom start folded chomping indent fuel (text ++ line) pending breaks (isGap c) r
      else .ok (chomped chomping text pending breaks, p)

/-- A block whose indicator is at `p`, inside collections whose innermost is at column `outer`. -/
def block (folded : Bool) (outer : Option Nat) (p : Cursor) :
    Except Fault (List Char × Cursor) := do
  let start := p.mark
  let (chomping, depth, p) ← header start p.next
  let p := (p.skipWhile isGap).skipComment
  if !endsWord p.rest then throw ⟨.noLineEnd, p.mark, some (.block, start)⟩
  let p := p.next
  let given := depth.map fun n => outer.getD 0 + n
  let (breaks, most, p) ← emptyLines start given (p.rest.length + 1) [] 0 p
  let indent := given.getD (max (max most (outer.elim 0 (· + 1))) 1)
  blockFrom start folded chomping indent (p.rest.length + 1) [] [] breaks false p

end Scalar
end NpuBroker.Yaml
