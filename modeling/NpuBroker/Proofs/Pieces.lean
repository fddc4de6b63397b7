import NpuBroker.Text.Blank

/-!
# Blanks around pieces

Blanks at the ends of a text and around its pieces do not matter: cutting them off the text first
makes no difference to the pieces once each is cut.

* `cut_cons_iff`: a run of a class, and the first character behind it, say where a text is cut.
* `trim_trim`, `trim_of_ends`: what is cut stays as it is, and so does what no blank begins or ends.
* `trim_eq_iff`: what is cut is what stands between the blanks at the ends.
* `map_trim_splitOn_trim`: the pieces of a text and those of the cut text.
-/
namespace NpuBroker.Text

/-! ## Runs of characters -/

/-- A run of characters of a class ends where a character of another class stands, or nothing. -/
theorem cut_run {p : Char → Bool} {run : List Char} (rest : List Char)
    (hrun : ∀ c ∈ run, p c = true)
    (hrest : ∀ c, rest.head? = some c → p c = false) :
    (run ++ rest).takeWhile p = run ∧ (run ++ rest).dropWhile p = rest := by
  rw [List.takeWhile_append_of_pos hrun, List.dropWhile_append_of_pos hrun]
  cases rest with
  | nil => simp
  | cons c rest =>
    have hc := hrest c rfl
    simp [hc]

/-- Where a character of another class ends a run, that is the one way to cut the text there. -/
theorem cut_cons_iff {p : Char → Bool} {cs run rest : List Char} {c : Char} :
    cs.takeWhile p = run ∧ cs.dropWhile p = c :: rest ↔
      cs = run ++ c :: rest ∧ (∀ d ∈ run, p d = true) ∧ p c = false := by
  constructor
  · rintro ⟨rfl, hdrop⟩
    have hc := List.head?_dropWhile_not p cs
    rw [hdrop] at hc
    refine ⟨?_, List.all_eq_true.1 List.all_takeWhile, hc⟩
    rw [← hdrop, List.takeWhile_append_dropWhile]
  · rintro ⟨rfl, hrun, hc⟩
    exact cut_run (c :: rest) hrun (by simpa using hc)

/-! ## Cutting -/

variable {bs cs : List Char}

theorem isBlank_of_ascii {c : Char} (hlow : 0x20 < c.toNat) (hhigh : c.toNat < 0x85) :
    isBlank c = false := by
  simp only [isBlank, Bool.or_eq_false_iff, Bool.and_eq_false_iff, decide_eq_false_iff_not,
    beq_eq_false_iff_ne]
  omega

theorem trimEnd_append (hb : ∀ c ∈ bs, isBlank c = true) (cs : List Char) :
    trimEnd (cs ++ bs) = trimEnd cs := by
  have hrev : ∀ c ∈ bs.reverse, isBlank c = true := fun c hc => hb c (List.mem_reverse.1 hc)
  rw [trimEnd, List.reverse_append, List.dropWhile_append_of_pos hrev, trimEnd]

theorem trim_append_left (hb : ∀ c ∈ bs, isBlank c = true) (cs : List Char) :
    trim (bs ++ cs) = trim cs := by
  rw [trim, List.dropWhile_append_of_pos hb, trim]

theorem trim_append_right (hb : ∀ c ∈ bs, isBlank c = true) (cs : List Char) :
    trim (cs ++ bs) = trim cs := by
  rw [trim, trim, List.dropWhile_append]
  split
  · rename_i hnil
    have hbs : bs.dropWhile isBlank = [] := by
      simpa using @List.dropWhile_append_of_pos _ isBlank bs [] hb
    rw [hbs, List.isEmpty_iff.1 hnil]
  · exact trimEnd_append hb _

/-- What is cut off a text are blanks in front of what stays and behind it. -/
theorem exists_eq_append_trim (cs : List Char) :
    ∃ front back, (∀ c ∈ front, isBlank c = true) ∧ (∀ c ∈ back, isBlank c = true) ∧
      cs = front ++ (trim cs ++ back) := by
  refine ⟨cs.takeWhile isBlank, ((cs.dropWhile isBlank).reverse.takeWhile isBlank).reverse,
    List.all_eq_true.1 List.all_takeWhile, fun c hc => ?_, ?_⟩
  · exact List.all_eq_true.1 List.all_takeWhile c (List.mem_reverse.1 hc)
  · rw [trim, trimEnd, ← List.reverse_append, List.takeWhile_append_dropWhile, List.reverse_reverse,
      List.takeWhile_append_dropWhile]

theorem trim_trim (cs : List Char) : trim (trim cs) = trim cs := by
  obtain ⟨front, back, hf, hb, hcs⟩ := exists_eq_append_trim cs
  have := congrArg trim hcs
  rw [trim_append_left hf, trim_append_right hb] at this
  exact this.symm

theorem length_trim_le (cs : List Char) : (trim cs).length ≤ cs.length := by
  obtain ⟨front, back, -, -, hcs⟩ := exists_eq_append_trim cs
  have hlength := congrArg List.length hcs
  simp only [List.length_append] at hlength
  omega

/-- What neither begins nor ends with a blank stays as it is. -/
theorem trim_of_ends (hfirst : ∀ c ∈ cs.head?, isBlank c = false)
    (hlast : ∀ c ∈ cs.getLast?, isBlank c = false) : trim cs = cs := by
  have hfix : ∀ ds : List Char, (∀ c ∈ ds.head?, isBlank c = false) →
      ds.dropWhile isBlank = ds := by
    intro ds hds
    cases ds with
    | nil => rfl
    | cons d ds =>
      have hd := hds d rfl
      simp [hd]
  rw [trim, hfix cs hfirst, trimEnd, hfix cs.reverse (by rwa [List.head?_reverse]),
    List.reverse_reverse]

theorem trim_of_solid (h : ∀ c ∈ cs, isBlank c = false) : trim cs = cs :=
  trim_of_ends (fun c hc => h c (List.mem_of_head? hc)) fun c hc => h c (List.mem_of_getLast? hc)

/-- `ts` is what stands between the blanks at the ends of `cs`. -/
structure TrimsTo (cs ts : List Char) : Prop where
  blanks : ∃ front back, (∀ c ∈ front, isBlank c = true) ∧ (∀ c ∈ back, isBlank c = true) ∧
    cs = front ++ (ts ++ back)
  first : ∀ c ∈ ts.head?, isBlank c = false
  last : ∀ c ∈ ts.getLast?, isBlank c = false

theorem trim_eq_iff {ts : List Char} : trim cs = ts ↔ TrimsTo cs ts := by
  constructor
  · rintro rfl
    -- a blank at an end of what is left could be cut off as well
    have htrim := trim_trim cs
    refine ⟨exists_eq_append_trim cs, fun c hc => ?_, fun c hc => ?_⟩
    · obtain ⟨rest, hrest⟩ := List.head?_eq_some_iff.1 hc
      refine Bool.eq_false_iff.2 fun hblank => ?_
      have hcut := trim_append_left (List.forall_mem_singleton.2 hblank) rest
      rw [List.singleton_append, ← hrest, htrim] at hcut
      have hle := length_trim_le rest
      rw [← hcut, hrest, List.length_cons] at hle
      omega
    · obtain ⟨front, hfront⟩ := List.getLast?_eq_some_iff.1 hc
      refine Bool.eq_false_iff.2 fun hblank => ?_
      have hcut := trim_append_right (List.forall_mem_singleton.2 hblank) front
      rw [← hfront, htrim] at hcut
      have hle := length_trim_le front
      rw [← hcut, hfront, List.length_append, List.length_singleton] at hle
      omega
  · rintro ⟨⟨front, back, hfront, hback, rfl⟩, hfirst, hlast⟩
    rw [trim_append_left hfront, trim_append_right hback, trim_of_ends hfirst hlast]

/-! ## Pieces -/

variable {sep : Char}

theorem not_mem_of_mem_splitOn : ∀ piece ∈ cs.splitOn sep, sep ∉ piece := by
  induction cs with
  | nil => simp
  | cons c cs ih =>
    rw [List.splitOn_cons_eq_if_modifyHead]
    split
    · rw [List.forall_mem_cons]
      exact ⟨List.not_mem_nil, ih⟩
    · rename_i hc
      have hne : sep ≠ c := fun h => hc (beq_iff_eq.2 h.symm)
      obtain ⟨first, rest, hcs⟩ := List.exists_cons_of_ne_nil (List.splitOn_ne_nil sep cs)
      rw [hcs, List.forall_mem_cons] at ih
      rw [hcs, List.modifyHead_cons, List.forall_mem_cons, List.mem_cons, not_or]
      exact ⟨⟨hne, ih.1⟩, ih.2⟩

/-- What stands in front of a text stands in front of its first piece. -/
theorem splitOn_append_left (hb : sep ∉ bs) (cs : List Char) :
    ∃ first rest, cs.splitOn sep = first :: rest ∧
      (bs ++ cs).splitOn sep = (bs ++ first) :: rest := by
  obtain ⟨first, rest, hcs⟩ := List.exists_cons_of_ne_nil (List.splitOn_ne_nil sep cs)
  refine ⟨first, rest, hcs, ?_⟩
  induction bs with
  | nil => exact hcs
  | cons b bs ih =>
    rw [List.mem_cons, not_or] at hb
    have hbsep : (b == sep) = false := by simpa using Ne.symm hb.1
    rw [List.cons_append, List.splitOn_cons_eq_if_modifyHead, hbsep, ih hb.2]
    rfl

/-- What stands behind a text stands behind its last piece. -/
theorem splitOn_append_right (hb : sep ∉ bs) (cs : List Char) :
    ∃ front final, cs.splitOn sep = front ++ [final] ∧
      (cs ++ bs).splitOn sep = front ++ [final ++ bs] := by
  induction cs with
  | nil => exact ⟨[], [], by simp, by simpa using List.splitOn_eq_singleton hb⟩
  | cons c cs ih =>
    obtain ⟨front, final, hcs, hall⟩ := ih
    rw [List.cons_append, List.splitOn_cons_eq_if_modifyHead, List.splitOn_cons_eq_if_modifyHead,
      hcs, hall]
    by_cases hc : (c == sep) = true
    · exact ⟨[] :: front, final, by simp [hc], by simp [hc]⟩
    · cases front with
      | nil => exact ⟨[], c :: final, by simp [hc], by simp [hc]⟩
      | cons f front => exact ⟨(c :: f) :: front, final, by simp [hc], by simp [hc]⟩

/-- The pieces of a text and those of the cut text differ in blanks alone. -/
theorem map_trim_splitOn_trim (hsep : isBlank sep = false) (cs : List Char) :
    ((trim cs).splitOn sep).map trim = (cs.splitOn sep).map trim := by
  obtain ⟨front, back, hf, hb, hcs⟩ := exists_eq_append_trim cs
  have hnot : ∀ ds : List Char, (∀ c ∈ ds, isBlank c = true) → sep ∉ ds := by
    intro ds hds hmem
    rw [hds sep hmem] at hsep
    cases hsep
  obtain ⟨first, rest, h1, h2⟩ := splitOn_append_left (hnot front hf) (trim cs ++ back)
  obtain ⟨ps, final, h3, h4⟩ := splitOn_append_right (hnot back hb) (trim cs)
  calc ((trim cs).splitOn sep).map trim
      = (ps ++ [final ++ back]).map trim := by simp [h3, trim_append_right hb]
    _ = (first :: rest).map trim := by rw [← h4, h1]
    _ = ((front ++ first) :: rest).map trim := by simp [trim_append_left hf]
    _ = (cs.splitOn sep).map trim := by rw [← h2, ← hcs]

end NpuBroker.Text
