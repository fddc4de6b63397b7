/-!
# Reading positions

The characters of a YAML document, and a position among them: what is left to read, and where that
begins. The line breaks `\r\n`, `\r` and U+0085 are one kind of break and are read as `\n`; the
separators U+2028 and U+2029 break lines too, but stay what they are.

* `length_skip`: how far a position moves.
-/
namespace NpuBroker.Yaml

def isBreak (c : Char) : Bool := c == '\n' || c == '\u2028' || c == '\u2029'

def isGap (c : Char) : Bool := c == ' ' || c == '\t'

/-- A gap, a line break or the end. -/
def endsWord : List Char → Bool
  | [] => true
  | c :: _ => isGap c || isBreak c

/-- The characters of names: anchors, directives and the handles of tags. -/
def isNameChar (c : Char) : Bool := c.isAlphanum || c == '_' || c == '-'

/-- The characters a document may hold. -/
def isAllowed (c : Char) : Bool :=
  let n := c.toNat
  n == 0x09 || n == 0x0A || n == 0x0D || (0x20 ≤ n && n ≤ 0x7E) || n == 0x85 ||
    (0xA0 ≤ n && n ≤ 0xFFFD) || 0x10000 ≤ n

/-- `cs` with one kind of line break. -/
def unifyBreaks : List Char → List Char
  | [] => []
  | '\r' :: '\n' :: cs => '\n' :: unifyBreaks cs
  | c :: cs => (if c = '\r' ∨ c = '\u0085' then '\n' else c) :: unifyBreaks cs

/-- A line and a character in it, both counted from zero. -/
structure Mark where
  line : Nat
  column : Nat
deriving DecidableEq

namespace Mark

def origin : Mark := ⟨0, 0⟩

/-- Where something is, for a message. At the origin nothing is said. -/
def suffix (m : Mark) : String :=
  if m = origin then ""
  else " at line " ++ Nat.repr (m.line + 1) ++ " column " ++ Nat.repr (m.column + 1)

end Mark

structure Cursor where
  rest : List Char
  /-- The bytes before it. -/
  offset : Nat
  mark : Mark

namespace Cursor

def start (cs : List Char) : Cursor := ⟨cs, 0, .origin⟩

def column (p : Cursor) : Nat := p.mark.column

/-- Behind the next character. -/
def next (p : Cursor) : Cursor :=
  match p.rest with
  | [] => p
  | c :: cs =>
    if isBreak c then ⟨cs, p.offset + c.utf8Size, ⟨p.mark.line + 1, 0⟩⟩
    else ⟨cs, p.offset + c.utf8Size, ⟨p.mark.line, p.mark.column + 1⟩⟩

def skip (p : Cursor) : Nat → Cursor
  | 0 => p
  | n + 1 => p.next.skip n

/-- The run of characters that satisfy `good`, and the position behind it. -/
def span (p : Cursor) (good : Char → Bool) : List Char × Cursor :=
  let run := p.rest.takeWhile good
  (run, p.skip run.length)

/-- Behind the run of characters that satisfy `good`. -/
def skipWhile (p : Cursor) (good : Char → Bool) : Cursor := (p.span good).2

/-- Behind a comment, if one begins here. -/
def skipComment (p : Cursor) : Cursor :=
  if p.rest.head? = some '#' then p.skipWhile (fun c => !isBreak c) else p

/-- Whether a line begins here with `c` three times and nothing else in that word. -/
def atMark (p : Cursor) (c : Char) : Bool :=
  p.column == 0 && p.rest.take 3 == [c, c, c] && endsWord (p.rest.drop 3)

/-- Whether a document begins or ends here. -/
def atDocumentMark (p : Cursor) : Bool := p.atMark '-' || p.atMark '.'

/-- Whether the next character is `c`. -/
def atChar (p : Cursor) (c : Char) : Bool := p.rest.head? == some c

theorem length_next (p : Cursor) : p.next.rest.length = p.rest.length - 1 := by
  unfold next
  split
  · simp [*]
  · split <;> simp [*]

theorem length_skip (p : Cursor) (n : Nat) : (p.skip n).rest.length = p.rest.length - n := by
  induction n generalizing p with
  | zero => rfl
  | succ n ih => rw [skip, ih, length_next]; omega

end Cursor
end NpuBroker.Yaml
