import NpuBroker.Proofs.Specifier.Meaning

/-!
# Names in a list and in one text

The units of a request can be named in a list, or in one text with commas between the names. Names
without commas are read alike in both, except that a text can also ask for so many units.

* `tokens_join`: the tokens of the text are the names, blanks around each aside.
* `ofText_join_explicit_iff`, `ofText_join_structured_iff`: what the text is read as, by the names.
* `ofText_congr`: a text counts by its tokens alone.
* `ofNames_agrees`: where the list and the text agree, and where they do not.
-/
namespace NpuBroker.Request

/-! ## Tokens -/

/-- No name has a comma in it. -/
def NoCommas (names : List String) : Prop := ∀ name ∈ names, ',' ∉ name.toList

instance : DecidablePred NoCommas := fun names =>
  inferInstanceAs (Decidable (∀ name ∈ names, ',' ∉ name.toList))

variable {names : List String}

theorem tokens_join (hne : names ≠ []) (hc : NoCommas names) :
    ((",".intercalate names).toList.splitOn ',').map Text.trim =
      names.map fun name => Text.trim name.toList := by
  have hcomma : ∀ cs ∈ names.map String.toList, ',' ∉ cs := by
    intro cs hcs
    obtain ⟨name, hname, rfl⟩ := List.mem_map.1 hcs
    exact hc name hname
  have hsep : ",".toList = [','] := rfl
  rw [String.toList_intercalate, hsep, List.splitOn_intercalate ',' hcomma (by simpa using hne),
    List.map_map]
  rfl

/-- A text is empty, blanks aside, when its one token is. -/
theorem trim_eq_nil_iff {cs : List Char} :
    Text.trim cs = [] ↔ (cs.splitOn ',').map Text.trim = [[]] := by
  constructor
  · intro hnil
    rw [← tokens_trim, hnil, List.splitOn_nil, List.map_singleton, Text.trim_nil]
  · exact trim_of_token

/-- Texts with the same tokens are read alike, also when they are refused. -/
theorem ofText_congr {s t : String}
    (h : (s.toList.splitOn ',').map Text.trim = (t.toList.splitOn ',').map Text.trim) :
    ofText s = ofText t := by
  rw [ofText, ofText, ofChars_eq, ofChars_eq, h]
  simp only [trim_eq_nil_iff, h]

/-! ## The list and the text -/

theorem ofNames_eq_ok_iff {r : Request} : ofNames names = .ok r ↔ ∃ us, r = .explicit us ∧
    us ≠ [] ∧ List.Forall₂ Selects (names.map fun name => Text.trim name.toList) us ∧ us.Nodup ∧
      us.Pairwise fun u v => u.overlaps v = false := by
  rw [ofNames, ofSelectors_eq_ok_iff]
  constructor
  · rintro ⟨us, rfl, hall, hcheck⟩
    obtain ⟨hne, hrest⟩ := check_explicit.1 hcheck
    exact ⟨us, rfl, hne, hall, hrest⟩
  · rintro ⟨us, rfl, hne, hall, hrest⟩
    exact ⟨us, rfl, hall, check_explicit.2 ⟨hne, hrest⟩⟩

theorem ofText_join_explicit_iff (hc : NoCommas names) {us : List UnitId} :
    ofText (",".intercalate names) = .ok (.explicit us) ↔ ofNames names = .ok (.explicit us) := by
  by_cases hne : names = []
  · subst hne
    have htext : ofText (",".intercalate []) = .error (.invalidSpecifier "" .emptySpecifier) := rfl
    have hlist : ofNames [] = .error (.invalidSpecifier "" .nothingNamed) := rfl
    rw [htext, hlist]
    simp
  rw [ofText, ofChars_eq_explicit_iff, tokens_join hne hc, ofNames_eq_ok_iff]
  constructor
  · rintro ⟨hall, hrest⟩
    refine ⟨us, rfl, ?_, hall, hrest⟩
    rintro rfl
    exact hne (List.map_eq_nil_iff.1 (List.forall₂_nil_right_iff.1 hall))
  · rintro ⟨_, hus, -, hall, hrest⟩
    cases hus
    exact ⟨hall, hrest⟩

theorem ofText_join_structured_iff (hc : NoCommas names) {arch : Arch} {mode : Mode}
    {count : Index} :
    ofText (",".intercalate names) = .ok (.structured arch mode count) ↔
      ∃ name, names = [name] ∧ Asks (Text.trim name.toList) arch mode count := by
  rw [ofText, ofChars_eq_structured_iff]
  constructor
  · intro h
    -- what asks for units has no comma in it, so the text is one token
    have hnot : ',' ∉ Text.trim (",".intercalate names).toList := fun hmem => by
      have hno := h.mem_chars ',' hmem
      simp at hno
    have hne : names ≠ [] := by
      rintro rfl
      obtain ⟨i, hi, -⟩ := asks_iff.1 h
      cases hi
    have htokens := tokens_join hne hc
    rw [← tokens_trim, List.splitOn_eq_singleton hnot, List.map_singleton,
      Text.trim_trim] at htokens
    obtain ⟨name, rfl, hname⟩ := List.map_eq_singleton_iff.1 htokens.symm
    exact ⟨name, rfl, hname ▸ h⟩
  · rintro ⟨name, rfl, h⟩
    exact h

/-! ## Blanks around names -/

/-- The second text is the first one with blanks in front of it and behind it, or none. -/
def Padded (s t : String) : Prop :=
  ∃ front back, (∀ c ∈ front, Text.isBlank c = true) ∧ (∀ c ∈ back, Text.isBlank c = true) ∧
    t.toList = front ++ (s.toList ++ back)

theorem Padded.trim_eq {s t : String} (h : Padded s t) :
    Text.trim t.toList = Text.trim s.toList := by
  obtain ⟨front, back, hfront, hback, ht⟩ := h
  rw [ht, Text.trim_append_left hfront, Text.trim_append_right hback]

theorem map_trim_of_padded {padded : List String} (h : List.Forall₂ Padded names padded) :
    (padded.map fun name => Text.trim name.toList) =
      names.map fun name => Text.trim name.toList := by
  induction h with
  | nil => rfl
  | cons hst _ ih => rw [List.map_cons, List.map_cons, hst.trim_eq, ih]

theorem noCommas_of_padded {padded : List String} (h : List.Forall₂ Padded names padded)
    (hc : NoCommas names) : NoCommas padded := by
  have hblank : ∀ cs : List Char, (∀ c ∈ cs, Text.isBlank c = true) → ',' ∉ cs := by
    intro cs hcs hmem
    cases hcs ',' hmem
  unfold NoCommas at *
  induction h with
  | nil => exact hc
  | @cons s t _ _ hst _ ih =>
    rw [List.forall_mem_cons] at hc ⊢
    obtain ⟨front, back, hfront, hback, ht⟩ := hst
    refine ⟨?_, ih hc.2⟩
    rw [ht, List.mem_append, List.mem_append, not_or, not_or]
    exact ⟨hblank front hfront, hc.1, hblank back hback⟩

/-- **Names in a list and in one text.** Names without commas that make a request as a list make the
same request with commas between them, and a text that names units makes the request that the list
does. A text is read where the list is refused exactly when there is one name only and that asks for
so many units. Blanks around the names make no difference, to the list or to the text. -/
theorem ofNames_agrees (hc : NoCommas names) :
    (∀ r, ofNames names = .ok r → ofText (",".intercalate names) = .ok r) ∧
    (∀ us, ofText (",".intercalate names) = .ok (.explicit us) →
      ofNames names = .ok (.explicit us)) ∧
    (∀ r, (ofText (",".intercalate names) = .ok r ∧ ∃ f, ofNames names = .error f) ↔
      ∃ name arch mode count, names = [name] ∧ Asks (Text.trim name.toList) arch mode count ∧
        r = .structured arch mode count) ∧
    ∀ padded, List.Forall₂ Padded names padded →
      ofNames padded = ofNames names ∧
        ofText (",".intercalate padded) = ofText (",".intercalate names) := by
  refine ⟨fun r hr => ?_, fun us => (ofText_join_explicit_iff hc).1, fun r => ?_,
    fun padded hp => ⟨?_, ?_⟩⟩
  · obtain ⟨us, rfl, -⟩ := ofNames_eq_ok_iff.1 hr
    exact (ofText_join_explicit_iff hc).2 hr
  · constructor
    · rintro ⟨hr, f, hf⟩
      cases r with
      | structured arch mode count =>
        obtain ⟨name, hname, hasks⟩ := (ofText_join_structured_iff hc).1 hr
        exact ⟨name, arch, mode, count, hname, hasks, rfl⟩
      | explicit us =>
        rw [ofText_join_explicit_iff hc, hf] at hr
        cases hr
    · rintro ⟨name, arch, mode, count, hname, hasks, rfl⟩
      have hr := (ofText_join_structured_iff hc).2 ⟨name, hname, hasks⟩
      refine ⟨hr, ?_⟩
      cases hlist : ofNames names with
      | error f => exact ⟨f, rfl⟩
      | ok r =>
        obtain ⟨us, rfl, -⟩ := ofNames_eq_ok_iff.1 hlist
        rw [(ofText_join_explicit_iff hc).2 hlist] at hr
        cases hr
  · rw [ofNames, ofNames, map_trim_of_padded hp]
  · by_cases hne : names = []
    · subst hne
      rw [List.forall₂_nil_left_iff.1 hp]
    have hne' : padded ≠ [] := by
      rintro rfl
      exact hne (List.forall₂_nil_right_iff.1 hp)
    refine ofText_congr ?_
    rw [tokens_join hne' (noCommas_of_padded hp hc), tokens_join hne hc, map_trim_of_padded hp]

/-- A shorthand and a name with blanks around them are one request, as a list and as one text. What
asks for two units is one as a text only. -/
theorem ofNames_agrees_loose :
    NoCommas [" 1:0-1", "npu0pe3\n"] ∧
      ofNames [" 1:0-1", "npu0pe3\n"] =
        .ok (.explicit [⟨1, some (.fused 0 1)⟩, ⟨0, some (.single 3)⟩]) ∧
      ofText " 1:0-1,npu0pe3\n" =
        .ok (.explicit [⟨1, some (.fused 0 1)⟩, ⟨0, some (.single 3)⟩]) ∧
    NoCommas [" rngd*2"] ∧ ofText " rngd*2" = .ok (.structured .rngd .single 2) ∧
      ∃ f, ofNames [" rngd*2"] = .error f := by
  have hc : NoCommas [" 1:0-1", "npu0pe3\n"] := by decide
  have hlist : ofNames [" 1:0-1", "npu0pe3\n"] =
      .ok (.explicit [⟨1, some (.fused 0 1)⟩, ⟨0, some (.single 3)⟩]) := by decide
  have hc' : NoCommas [" rngd*2"] := by decide
  have hasks : Asks (Text.trim " rngd*2".toList) .rngd .single 2 :=
    ofChars_eq_structured_iff.1 (by decide)
  obtain ⟨htext, hrefused⟩ := ((ofNames_agrees hc').2.2.1 _).2 ⟨_, _, _, _, rfl, hasks, rfl⟩
  exact ⟨hc, hlist, (ofNames_agrees hc).1 _ hlist, hc', htext, hrefused⟩

end NpuBroker.Request
