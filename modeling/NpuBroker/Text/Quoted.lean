import NpuBroker.Text.Hidden

/-!
# Quoted texts

A text between quotes, for messages. Backslashes, double quotes and hidden characters are escaped,
and in a path apostrophes as well.

* `escape_of_plain`: all others stand for themselves.
* `escapeInPath_of_plain`: so they do in a path.
-/
namespace NpuBroker.Text

/-- `c` between quotes. -/
def escape (c : Char) : List Char :=
  if c = '"' ∨ c = '\\' then ['\\', c]
  else if c = '\n' then ['\\', 'n']
  else if c = '\r' then ['\\', 'r']
  else if c = '\t' then ['\\', 't']
  else if c = '\x00' then ['\\', '0']
  else if isHidden c then ['\\', 'u', '\x7b'] ++ Nat.toDigits 16 c.toNat ++ ['\x7d']
  else [c]

def escapeInPath (c : Char) : List Char := if c = '\'' then ['\\', c] else escape c

def quoted (s : String) : String := String.ofList ('"' :: s.toList.flatMap escape ++ ['"'])

def quotedPath (path : String) : String :=
  String.ofList ('"' :: path.toList.flatMap escapeInPath ++ ['"'])

theorem escape_of_plain {c : Char} (hq : c ≠ '"') (hb : c ≠ '\\') (hc : isHidden c = false) :
    escape c = [c] := by
  have other {d : Char} (hd : d.toNat < 0x20) : c ≠ d := fun h => by
    rw [h, isHidden_control (.inl hd)] at hc
    cases hc
  have h1 : c ≠ '\n' := other (by decide)
  have h2 : c ≠ '\r' := other (by decide)
  have h3 : c ≠ '\t' := other (by decide)
  have h4 : c ≠ '\x00' := other (by decide)
  simp [escape, hq, hb, h1, h2, h3, h4, hc]

theorem escapeInPath_of_plain {c : Char} (ha : c ≠ '\'') (hq : c ≠ '"') (hb : c ≠ '\\')
    (hc : isHidden c = false) : escapeInPath c = [c] := by
  rw [escapeInPath, if_neg ha, escape_of_plain hq hb hc]

end NpuBroker.Text
