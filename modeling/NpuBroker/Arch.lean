import NpuBroker.Text.Blank

/-!
# Architectures and modes

What kinds of device there are, how many PEs each has, and in what size its PEs are handed out.
-/
namespace NpuBroker

inductive Arch where
  | warboy
  | rngd
deriving DecidableEq

namespace Arch

def name : Arch → String
  | .warboy => "warboy"
  | .rngd => "rngd"

/-- A device has the PEs `0` up to this. -/
def peCount : Arch → Nat
  | .warboy => 2
  | .rngd => 8

/-- Blanks around the name and the case of ASCII letters do not matter. Fails with the text
that is no architecture. -/
def ofText (s : String) : Except String Arch :=
  let text := String.ofList ((Text.trim s.toList).map Char.toLower)
  if text = "warboy" then .ok .warboy
  else if text = "rngd" ∨ text = "renegade" then .ok .rngd
  else .error text

/-- What is said of a text that is no architecture. -/
def unrecognized (text : String) : String := "unrecognized architecture '" ++ text ++ "'"

theorem ofText_name (a : Arch) : ofText a.name = .ok a := by
  cases a <;> rfl

end Arch

/-- The size of a unit. -/
inductive Mode where
  | single
  | fused
  | whole
deriving DecidableEq

namespace Mode

def name : Mode → String
  | .single => "single"
  | .fused => "fused"
  | .whole => "whole"

/-- The name in documents. -/
def key : Mode → String
  | .single => "single"
  | .fused => "fusion"
  | .whole => "whole"

def ofText (s : String) : Except String Mode :=
  if s = "single" then .ok .single
  else if s = "fused" ∨ s = "fusion" then .ok .fused
  else if s = "whole" then .ok .whole
  else .error s

/-- What is said of a text that is no mode. -/
def unrecognized (text : String) : String := "unrecognized mode '" ++ text ++ "'"

theorem ofText_name (m : Mode) : ofText m.name = .ok m := by
  cases m <;> rfl

theorem ofText_key (m : Mode) : ofText m.key = .ok m := by
  cases m <;> rfl

end Mode
end NpuBroker
