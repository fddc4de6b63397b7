import NpuBroker.Host
import NpuBroker.Path

/-!
# Spellings of a path

Two texts are one path when their components agree. They need not be equally good: a slash at
the end asks for a directory, and a long spelling may exceed what a path can have. But where both
lead somewhere, they lead to one place.

* `walk_unique`: walks along names that differ in `.` alone end at one place.
* `openNode_unique`: two spellings of a path that can both be opened open one file.
-/
namespace NpuBroker

namespace Path

/-- The name that a component adds to the way, if any. -/
def Component.move? : Component → Option String
  | .up => some ".."
  | .name text => some text
  | _ => none

/-- The names on the way of a path. -/
def moves (path : String) : List String := (components path).filterMap Component.move?

end Path

namespace Host

/-- Whether a name on the way leads on; `.` does not. -/
def leadsOn (name : String) : Bool := name != "."

theorem leadsOn_pieces (pieces : List (List Char)) :
    ((pieces.filter fun p => !p.isEmpty).map String.ofList).filter leadsOn =
      (pieces.filterMap Path.component?).filterMap Path.Component.move? := by
  induction pieces with
  | nil => rfl
  | cons p ps ih =>
    by_cases h0 : p = []
    · subst h0
      simpa [Path.component?] using ih
    by_cases h1 : p = ['.']
    · subst h1
      simpa [Path.component?, leadsOn] using ih
    have hl : leadsOn (String.ofList p) = true := by simpa [leadsOn, String.ext_iff] using h1
    by_cases h2 : p = ['.', '.']
    · subst h2
      have hl : leadsOn ".." = true := rfl
      simpa [Path.component?, Path.Component.move?, hl] using ih
    · simpa [Path.component?, Path.Component.move?, h0, h1, h2, hl] using ih

theorem names_leadsOn (path : String) : (names path).filter leadsOn = Path.moves path := by
  unfold names Path.moves Path.components
  dsimp only
  rw [List.filterMap_append, ← leadsOn_pieces]
  have hd : leadsOn "." = false := rfl
  split <;> split <;> simp [Path.Component.move?, hd]

/-- Names that lead nowhere leave a walk where it is. -/
theorem walk_dots {h : Host} {links : Nat} {p q : Place} {ns : List String}
    (hn : ns.filter leadsOn = []) (hw : h.walk true links p ns = .ok q) : q = p := by
  induction ns with
  | nil => simpa [walk, eq_comm] using hw
  | cons n ns ih =>
    have hdot : n = "." := by simpa [leadsOn] using (List.filter_eq_nil_iff.1 hn) n
    subst hdot
    rw [walk] at hw
    split at hw
    · simp at hw
    · exact ih hn (by simpa using hw)

/-- A walk passes over the names in front that lead nowhere. -/
theorem walk_skip {h : Host} {links : Nat} {p q : Place} {n : String} {ns ms : List String}
    (hn : leadsOn n = true) (hf : ms.filter leadsOn = n :: ns)
    (hw : h.walk true links p ms = .ok q) :
    ∃ rest, rest.filter leadsOn = ns ∧ h.walk true links p (n :: rest) = .ok q := by
  induction ms with
  | nil => simp at hf
  | cons m ms ih =>
    by_cases hm : leadsOn m = true
    · rw [List.filter_cons_of_pos hm, List.cons.injEq] at hf
      obtain ⟨rfl, hf⟩ := hf
      exact ⟨ms, hf, hw⟩
    · rw [List.filter_cons_of_neg hm] at hf
      have hdot : m = "." := by simpa [leadsOn] using hm
      subst hdot
      rw [walk] at hw
      split at hw
      · simp at hw
      · exact ih hf (by simpa using hw)

/-- Walks along names that differ in `.` alone end at one place. -/
theorem walk_unique {h : Host} {links : Nat} {p q q' : Place} {ns ms : List String}
    (hw : h.walk true links p ns = .ok q) (hf : ms.filter leadsOn = ns.filter leadsOn)
    (hw' : h.walk true links p ms = .ok q') : q' = q := by
  induction links, p, ns using Host.walk.induct h true generalizing ms with
  | case1 links p =>
    have hq : q = p := by simpa [walk, eq_comm] using hw
    rw [hq]
    exact walk_dots hf hw'
  | case2 links p name rest hd => simp [walk, hd] at hw
  | case3 links p rest hd ih =>
    rw [walk, if_neg hd, if_pos rfl] at hw
    exact ih hw (by simpa [leadsOn] using hf) hw'
  | case4 links p rest hd hn ih =>
    have hup : leadsOn ".." = true := rfl
    obtain ⟨rest', hr, hw'⟩ := walk_skip hup (hf.trans (List.filter_cons_of_pos hup)) hw'
    rw [walk, if_neg hd, if_neg hn, if_pos rfl] at hw hw'
    exact ih hw hr hw'
  | case5 links p name rest hd hn hu hl => simp [walk, hd, hn, hu, hl] at hw
  | case6 links p name rest hd hn hu hl he => simp [walk, hd, hn, hu, hl, he] at hw
  | case7 links p name rest hd hn hu hl target he hc => simp at hc
  | case8 p name rest hd hn hu hl target he hc => simp [walk, hd, hn, hu, hl, he] at hw
  | case9 p name rest hd hn hu hl target he hc links ih =>
    have hname : leadsOn name = true := by simpa [leadsOn] using hn
    obtain ⟨rest', hr, hw'⟩ :=
      walk_skip hname (hf.trans (List.filter_cons_of_pos hname)) hw'
    rw [walk] at hw hw'
    simp only [hd, hn, hu, hl, he, if_false, Bool.not_true, Bool.false_eq_true, and_false] at hw hw'
    exact ih hw (by rw [List.filter_append, List.filter_append, hr]) hw'
  | case10 links p name rest hd hn hu hl e hlink he ih =>
    have hname : leadsOn name = true := by simpa [leadsOn] using hn
    obtain ⟨rest', hr, hw'⟩ :=
      walk_skip hname (hf.trans (List.filter_cons_of_pos hname)) hw'
    rw [walk] at hw hw'
    simp only [hd, hn, hu, hl, he, if_false] at hw hw'
    cases e with
    | link target => exact absurd rfl (hlink target)
    | file id => exact ih hw hr hw'
    | directory => exact ih hw hr hw'

/-- A path that leads somewhere is walked from the root. -/
theorem walk_of_at? {h : Host} {path : String} {p : Place} {e : Entry}
    (ha : h.at? path = .ok (p, e)) :
    h.walk true mostLinks [] (names path) = .ok p ∧ h.entry? p = some e := by
  obtain ⟨hlocate, he⟩ := at?_eq_ok_iff.1 ha
  obtain ⟨-, -, -, hwalk⟩ := locate_eq_ok_iff.1 hlocate
  exact ⟨hwalk, he⟩

/-- **One path, one file.** Two spellings of a path that can both be opened open one file. -/
theorem openNode_unique {h : Host} {a b : String} {i j : FileId} (hs : Path.same a b = true)
    (ha : h.openNode a = .ok i) (hb : h.openNode b = .ok j) : i = j := by
  obtain ⟨p, hp⟩ := openNode_eq_ok_iff.1 ha
  obtain ⟨q, hq⟩ := openNode_eq_ok_iff.1 hb
  obtain ⟨hwp, hep⟩ := walk_of_at? hp
  obtain ⟨hwq, heq⟩ := walk_of_at? hq
  have hf : (names a).filter leadsOn = (names b).filter leadsOn := by
    simp only [Path.same, beq_iff_eq] at hs
    rw [names_leadsOn, names_leadsOn, Path.moves, Path.moves, hs]
  have hpq : p = q := walk_unique hwq hf hwp
  subst hpq
  simpa [hep] using heq

end Host
end NpuBroker
