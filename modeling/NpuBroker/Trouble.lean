import NpuBroker.Fault

/-!
# Troubles

What a user is told when something fails: what failed, and the causes behind it, outermost first.
-/
namespace NpuBroker

structure Trouble where
  message : String
  causes : List String

namespace Trouble

/-- What was being done when `t` happened. -/
def within (context : String) (t : Trouble) : Trouble := ⟨context, t.message :: t.causes⟩

/-- All of it on one line. -/
def line (t : Trouble) : String := ": ".intercalate (t.message :: t.causes)

/-- A text behind a mark, its later lines behind blanks. -/
def indented (mark blanks : String) (s : String) : String :=
  mark ++ ("\n" ++ blanks).intercalate (s.splitOn "\n")

/-- The causes on lines of their own, with numbers if there are several. -/
def causeLines : List String → List String
  | [] => []
  | [cause] => [indented "    " "    " cause]
  | causes =>
    causes.mapIdx fun i cause => indented ("    " ++ Decimal.text i ++ ": ") "       " cause

/-- The lines that a user reads. -/
def lines (t : Trouble) : List String :=
  ("Error: " ++ t.message) ::
    if t.causes = [] then [] else "" :: "Caused by:" :: causeLines t.causes

end Trouble

def Fault.trouble (f : Fault) : Trouble := ⟨f.message, f.source?.toList.map Host.Error.message⟩

end NpuBroker
