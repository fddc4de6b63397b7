import NpuBroker.Proofs.Specifier.Grammar

/-!
# What specifiers mean

A specifier against the grammar, and against the text a request is known by.

* `ofChars_eq_structured_iff`, `ofChars_eq_explicit_iff`: which request a text is read as.
* `ofText_grammar`: the two of them, and that every other text is an invalid specifier.
* `ofText_text`: the requests that are read back from their own text.
-/
namespace NpuBroker.Request

/-! ## Specifiers -/

theorem ofSelectors_eq_ok_iff {tokens : List (List Char)} {r : Request} :
    ofSelectors tokens = .ok r ↔
      ∃ us, r = .explicit us ∧ List.Forall₂ Selects tokens us ∧ r.check = .ok () := by
  simp only [ofSelectors, bind_eq_ok_iff, mapM_eq_ok_iff, selector_eq_ok_iff, pure, Except.pure,
    Except.ok.injEq]
  constructor
  · rintro ⟨us, hus, _, hc, rfl⟩
    exact ⟨us, rfl, hus, hc⟩
  · rintro ⟨us, rfl, hus, hc⟩
    exact ⟨us, hus, (), hc, rfl⟩

/-- Blanks around a text do not matter to its tokens. -/
theorem tokens_trim (cs : List Char) :
    ((Text.trim cs).splitOn ',').map Text.trim = (cs.splitOn ',').map Text.trim :=
  Text.map_trim_splitOn_trim (by decide) cs

/-- How a specifier is read: an empty one not at all, one token that has the form of an item as
such, and everything else as selectors. -/
theorem ofChars_eq (cs : List Char) :
    ofChars cs =
      if Text.trim cs = [] then .error (.invalidSpecifier "" .emptySpecifier)
      else match (cs.splitOn ',').map Text.trim with
        | [token] =>
          match item? token with
          | some i => ofItem token i
          | none => ofSelectors [token]
        | tokens => ofSelectors tokens := by
  rw [← tokens_trim]
  unfold ofChars
  split
  · rename_i hnil
    exact (if_pos hnil).symm
  · rename_i hne
    exact (if_neg hne).symm

/-- A text that is one token is that token, apart from blanks. -/
theorem trim_of_token {cs token : List Char} (h : (cs.splitOn ',').map Text.trim = [token]) :
    Text.trim cs = token := by
  obtain ⟨piece, hpiece, rfl⟩ := List.map_eq_singleton_iff.1 h
  have hcs : [','].intercalate (cs.splitOn ',') = cs := List.intercalate_splitOn ','
  rw [hpiece, List.intercalate_singleton] at hcs
  rw [hcs]

theorem ofChars_eq_structured_iff {cs : List Char} {arch : Arch} {mode : Mode} {count : Index} :
    ofChars cs = .ok (.structured arch mode count) ↔ Asks (Text.trim cs) arch mode count := by
  rw [ofChars_eq]
  constructor
  · intro h
    split at h
    · cases h
    split at h
    · rename_i token htoken
      rw [trim_of_token htoken]
      split at h
      · rename_i i hi
        exact asks_iff.2 ⟨i, hi, h⟩
      · obtain ⟨us, hus, -⟩ := ofSelectors_eq_ok_iff.1 h
        cases hus
    · obtain ⟨us, hus, -⟩ := ofSelectors_eq_ok_iff.1 h
      cases hus
  · intro h
    have hnot : ',' ∉ Text.trim cs := fun hmem => by
      have hno := h.mem_chars ',' hmem
      simp at hno
    obtain ⟨i, hi, hr⟩ := asks_iff.1 h
    have hne : Text.trim cs ≠ [] := fun hnil => by
      rw [hnil] at hi
      cases hi
    rw [if_neg hne, ← tokens_trim, List.splitOn_eq_singleton hnot, List.map_singleton,
      Text.trim_trim]
    simp only [hi]
    exact hr

theorem ofChars_eq_explicit_iff {cs : List Char} {us : List UnitId} :
    ofChars cs = .ok (.explicit us) ↔
      List.Forall₂ Selects ((cs.splitOn ',').map Text.trim) us ∧ us.Nodup ∧
        us.Pairwise fun u v => u.overlaps v = false := by
  have hselectors : ∀ tokens : List (List Char), tokens ≠ [] →
      (ofSelectors tokens = .ok (.explicit us) ↔ List.Forall₂ Selects tokens us ∧ us.Nodup ∧
        us.Pairwise fun u v => u.overlaps v = false) := by
    intro tokens hne
    rw [ofSelectors_eq_ok_iff]
    constructor
    · rintro ⟨_, hus, hall, hc⟩
      cases hus
      exact ⟨hall, (check_explicit.1 hc).2⟩
    · rintro ⟨hall, hc⟩
      refine ⟨us, rfl, hall, check_explicit.2 ⟨?_, hc⟩⟩
      rintro rfl
      exact hne (List.forall₂_nil_right_iff.1 hall)
  have htokens : (cs.splitOn ',').map Text.trim ≠ [] := by simp
  rw [ofChars_eq]
  split
  · rename_i hnil
    -- nothing but blanks is one empty token, which selects nothing
    refine iff_of_false (by simp) fun h => ?_
    have hpieces := tokens_trim cs
    rw [hnil, List.splitOn_nil] at hpieces
    rw [← hpieces] at h
    obtain ⟨u, _, hu, -⟩ := List.forall₂_cons_left_iff.1 h.1
    exact hu.ne_nil rfl
  · split
    · rename_i token htoken
      rw [htoken] at htokens ⊢
      split
      · rename_i i hi
        refine iff_of_false (fun h => ?_) fun h => ?_
        · obtain ⟨_, _, _, hr, -⟩ := ofItem_eq_ok_iff.1 h
          cases hr
        · obtain ⟨u, _, hu, -⟩ := List.forall₂_cons_left_iff.1 h.1
          rw [hu.item?_eq_none] at hi
          cases hi
      · exact hselectors _ htokens
    · exact hselectors _ htokens

/-! ## Refusals -/

/-- A fault that says what is wrong with a specifier. -/
inductive OfSpecifier : Fault → Prop
  | intro (text : String) (cause : SpecifierCause) : OfSpecifier (.invalidSpecifier text cause)

theorem check_eq_error {r : Request} {f : Fault} (h : r.check = .error f) : OfSpecifier f := by
  unfold check at h
  split at h
  · split at h
    · cases h
      exact .intro _ _
    · cases h
  · cases h
    exact .intro _ _
  · split at h
    · cases h
      exact .intro _ _
    · split at h
      · cases h
        exact .intro _ _
      · cases h

/-- A request that is passed on once it is checked fails with its check only. -/
theorem checked_eq_error {r : Request} {f : Fault}
    (h : (do r.check; return r : Except Fault Request) = .error f) : OfSpecifier f := by
  rcases bind_eq_error_iff.1 h with h | ⟨_, -, h⟩
  · exact check_eq_error h
  · cases h

theorem selector_eq_error {token : List Char} {f : Fault} (h : selector token = .error f) :
    OfSpecifier f := by
  unfold selector at h
  split at h
  · cases h
    exact .intro _ _
  · split at h
    · cases h
    · cases h
      exact .intro _ _

theorem ofSelectors_eq_error {tokens : List (List Char)} {f : Fault}
    (h : ofSelectors tokens = .error f) : OfSpecifier f := by
  rcases bind_eq_error_iff.1 h with h | ⟨us, -, h⟩
  · obtain ⟨token, -, h⟩ := mapM_eq_error h
    exact selector_eq_error h
  · exact checked_eq_error h

theorem ofItem_eq_error {token : List Char} {i : Item} {f : Fault}
    (h : ofItem token i = .error f) : OfSpecifier f := by
  rw [ofItem_eq] at h
  rcases bind_eq_error_iff.1 h with h | ⟨arch, -, h⟩
  · obtain ⟨text, -, rfl⟩ := mapError_eq_error_iff.1 h
    exact .intro _ _
  rcases bind_eq_error_iff.1 h with h | ⟨mode, -, h⟩
  · cases hmode : i.mode with
    | none =>
      rw [hmode] at h
      cases h
    | some word =>
      rw [hmode] at h
      obtain ⟨text, -, rfl⟩ := mapError_eq_error_iff.1 h
      exact .intro _ _
  rcases bind_eq_error_iff.1 h with h | ⟨count, -, h⟩
  · cases hcount : looseIndex? i.count with
    | none =>
      rw [hcount] at h
      cases h
      exact .intro _ _
    | some count =>
      rw [hcount] at h
      cases h
  · exact checked_eq_error h

theorem ofChars_eq_error {cs : List Char} {f : Fault} (h : ofChars cs = .error f) :
    OfSpecifier f := by
  unfold ofChars at h
  split at h
  · cases h
    exact .intro _ _
  · split at h
    · split at h
      · exact ofItem_eq_error h
      · exact ofSelectors_eq_error h
    · exact ofSelectors_eq_error h

/-- **The grammar of specifiers.** A text is read as a structured request exactly when, blanks
around it aside, it asks for that; and as an explicit one exactly when its tokens, blanks around
each aside, select those units one by one, and no two of the units are the same or share a PE.
Any other text is an invalid specifier. -/
theorem ofText_grammar (s : String) :
    (∀ arch mode count, ofText s = .ok (.structured arch mode count) ↔
      Asks (Text.trim s.toList) arch mode count) ∧
    (∀ us, ofText s = .ok (.explicit us) ↔
      List.Forall₂ Selects ((s.toList.splitOn ',').map Text.trim) us ∧ us.Nodup ∧
        us.Pairwise fun u v => u.overlaps v = false) ∧
    ((∃ r, ofText s = .ok r) ∨ ∃ text cause, ofText s = .error (.invalidSpecifier text cause)) := by
  refine ⟨fun _ _ _ => ofChars_eq_structured_iff, fun _ => ofChars_eq_explicit_iff, ?_⟩
  cases h : ofText s with
  | ok r => exact .inl ⟨r, rfl⟩
  | error f =>
    obtain ⟨text, cause⟩ := ofChars_eq_error h
    exact .inr ⟨text, cause, rfl⟩

/-- A digit of another script has the form of a count and no value. -/
example : ofText "rngd*٢" = .error (.invalidSpecifier "rngd*٢" .countOutOfRange) := by decide

/-! ## Canonical texts -/

/-- Every range that is asked for ascends. -/
def Proper : Request → Prop
  | .structured _ _ _ => True
  | .explicit us => ∀ u ∈ us, u.Proper

theorem asks_text {arch : Arch} {mode : Mode} {count : Index} (hc : count ≠ 0) :
    Asks (structured arch mode count).chars arch mode count := by
  have ha : String.ofList (arch.name.toList.map Char.toLower) ∈ arch.words := by
    cases arch <;> decide
  have hm : String.ofList mode.name.toList ∈ mode.words := by cases mode <;> decide
  have := Asks.sized ha hm (Decimal.numeral_digits count) hc
  simpa [chars] using this

theorem selects_chars_iff {u : UnitId} : Selects u.chars u ↔ u.Proper := by
  constructor
  · rintro (⟨hp, -⟩ | h)
    · exact hp
    · obtain ⟨c, rest, hchars, hc⟩ := h.head
      have hn : 'n' = c := (List.cons.inj hchars).1
      rw [← hn] at hc
      cases hc
  · exact fun hp => .inl ⟨hp, rfl⟩

theorem solid_of_mem_chars {u : UnitId} {c : Char} (hc : c ∈ u.chars) :
    Text.isBlank c = false ∧ c ≠ ',' := by
  rcases u.mem_chars c hc with hc | rfl
  · refine ⟨isBlank_of_isAlphanum hc, ?_⟩
    rintro rfl
    cases hc
  · decide

/-- The tokens of an explicit text are the names in it. -/
theorem tokens_explicit {us : List UnitId} (hne : us ≠ []) :
    ((explicit us).chars.splitOn ',').map Text.trim = us.map UnitId.chars := by
  have hcomma : ∀ name ∈ us.map UnitId.chars, ',' ∉ name := by
    rintro name hname hmem
    obtain ⟨u, -, rfl⟩ := List.mem_map.1 hname
    exact (solid_of_mem_chars hmem).2 rfl
  rw [chars, List.splitOn_intercalate ',' hcomma (by simpa using hne), List.map_map]
  exact List.map_congr_left fun u _ => Text.trim_of_solid fun c hc => (solid_of_mem_chars hc).1

theorem ofChars_chars_iff {r : Request} :
    ofChars r.chars = .ok r ↔ r.check = .ok () ∧ r.Proper := by
  cases r with
  | structured arch mode count =>
    rw [ofChars_eq_structured_iff, check_structured]
    constructor
    · intro h
      exact ⟨h.count_ne_zero, trivial⟩
    · rintro ⟨hc, -⟩
      have hasks := @asks_text arch mode count hc
      have hsolid : ∀ c ∈ (structured arch mode count).chars, Text.isBlank c = false := by
        intro c hmem
        rcases hasks.mem_chars c hmem with hc | rfl | rfl | rfl
        · exact isBlank_of_isAlphanum hc
        all_goals decide
      rw [Text.trim_of_solid hsolid]
      exact hasks
  | explicit us =>
    rw [ofChars_eq_explicit_iff, check_explicit, Proper]
    by_cases hne : us = []
    · subst hne
      refine iff_of_false (fun h => ?_) fun h => h.1.1 rfl
      simp [chars] at h
    · have hall : List.Forall₂ Selects (us.map UnitId.chars) us ↔ ∀ u ∈ us, u.Proper := by
        rw [List.forall₂_map_left_iff, List.forall₂_same]
        simp only [selects_chars_iff]
      rw [tokens_explicit hne, hall]
      constructor
      · rintro ⟨hp, hc⟩
        exact ⟨⟨hne, hc⟩, hp⟩
      · rintro ⟨⟨-, hc⟩, hp⟩
        exact ⟨hp, hc⟩

theorem proper_of_selects {tokens : List (List Char)} {us : List UnitId}
    (h : List.Forall₂ Selects tokens us) : ∀ u ∈ us, u.Proper := by
  induction h with
  | nil => simp
  | cons hu _ ih =>
    rw [List.forall_mem_cons]
    exact ⟨hu.proper, ih⟩

/-- What is read from a text keeps to everything that a request must, and has proper units. -/
theorem proper_of_ofChars {cs : List Char} {r : Request} (h : ofChars cs = .ok r) :
    r.check = .ok () ∧ r.Proper := by
  cases r with
  | structured arch mode count =>
    have hasks := ofChars_eq_structured_iff.1 h
    exact ⟨check_structured.2 hasks.count_ne_zero, trivial⟩
  | explicit us =>
    obtain ⟨hall, hc⟩ := ofChars_eq_explicit_iff.1 h
    refine ⟨check_explicit.2 ⟨?_, hc⟩, ?_⟩
    · rintro rfl
      simp at hall
    · exact proper_of_selects hall

/-- **Canonical texts.** The text of a request is read as that request exactly when the request
passes its check and its ranges ascend. What is read from any text has a text of this kind. -/
theorem ofText_text :
    (∀ r : Request, ofText r.text = .ok r ↔ r.check = .ok () ∧ r.Proper) ∧
      ∀ s r, ofText s = .ok r → ofText r.text = .ok r := by
  have hiff : ∀ r : Request, ofText r.text = .ok r ↔ r.check = .ok () ∧ r.Proper := fun r => by
    rw [ofText, text, String.toList_ofList]
    exact ofChars_chars_iff
  exact ⟨hiff, fun s r h => (hiff r).2 (proper_of_ofChars h)⟩

/-- Blanks, zeros and a shorthand vanish in the canonical text. -/
theorem ofText_text_loose :
    ofText " 01:0-1, npu0pe3\n" = .ok (.explicit [⟨1, some (.fused 0 1)⟩, ⟨0, some (.single 3)⟩]) ∧
      ofText "npu1pe0-1,npu0pe3" =
        .ok (.explicit [⟨1, some (.fused 0 1)⟩, ⟨0, some (.single 3)⟩]) := by
  have h : ofText " 01:0-1, npu0pe3\n" =
      .ok (.explicit [⟨1, some (.fused 0 1)⟩, ⟨0, some (.single 3)⟩]) := by decide
  exact ⟨h, ofText_text.2 _ _ h⟩

end NpuBroker.Request
