/-!
# Columns

Texts filled up with blanks to a width, counted in characters. A wider text stays as it is.

* `length_left`, `length_right`: the width that results.
-/
namespace NpuBroker.Text

def blanks (n : Nat) : String := String.ofList (List.replicate n ' ')

/-- `s` with blanks behind it. -/
def left (width : Nat) (s : String) : String := s ++ blanks (width - s.length)

/-- `s` with blanks before it. -/
def right (width : Nat) (s : String) : String := blanks (width - s.length) ++ s

theorem length_left (width : Nat) (s : String) : (left width s).length = max width s.length := by
  simp [left, blanks]
  omega

theorem length_right (width : Nat) (s : String) : (right width s).length = max width s.length := by
  simp [right, blanks]
  omega

end NpuBroker.Text
