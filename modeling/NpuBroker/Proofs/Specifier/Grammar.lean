import NpuBroker.Proofs.Answers
import NpuBroker.Proofs.Naming
import NpuBroker.Request.Specifier
import Mathlib

/-!
# The grammar of specifiers

What an item and a selector look like and what they stand for, said without the readers: an item
asks for units of an architecture and a size (`Asks`), a selector is the name of a unit or a
shorthand for it (`Selects`).

* `asks_iff`: items are read as what they ask for, and other texts are no items.
* `selector_eq_ok_iff`: selectors are read as what they select.
* `Selects.item?_eq_none`: nothing is both.
-/
namespace NpuBroker

/-- The words for an architecture. -/
def Arch.words : Arch → List String
  | .warboy => ["warboy"]
  | .rngd => ["rngd", "renegade"]

/-- The words for a size. -/
def Mode.words : Mode → List String
  | .single => ["single"]
  | .fused => ["fused", "fusion"]
  | .whole => ["whole"]

namespace Request

/-- `<arch>*<count>` or `<arch>(<mode>)*<count>`. Letters of the architecture may be large or
small, and a count may begin with zeros, but is not zero. -/
inductive Asks : List Char → Arch → Mode → Index → Prop
  | plain {letters number : List Char} {arch : Arch} {count : Index} :
    String.ofList (letters.map Char.toLower) ∈ arch.words → Decimal.Numeral number count →
    count ≠ 0 → Asks (letters ++ '*' :: number) arch .single count
  | sized {letters word number : List Char} {arch : Arch} {mode : Mode} {count : Index} :
    String.ofList (letters.map Char.toLower) ∈ arch.words → String.ofList word ∈ mode.words →
    Decimal.Numeral number count → count ≠ 0 →
    Asks (letters ++ '(' :: (word ++ ')' :: '*' :: number)) arch mode count

/-- `<N>`, `<N>:<K>` or `<N>:<A>-<B>` with `A` below `B`. Numbers may begin with zeros. -/
inductive Shorthand : List Char → UnitId → Prop
  | whole {number : List Char} {device : Index} :
    Decimal.Numeral number device → Shorthand number ⟨device, none⟩
  | part {number rest : List Char} {device : Index} {s : Span} :
    Decimal.Numeral number device → s.Written (fun cs i => Decimal.Numeral cs i) rest →
    Shorthand (number ++ ':' :: rest) ⟨device, some s⟩

/-- The name of the unit, or a shorthand for it. -/
def Selects (token : List Char) (u : UnitId) : Prop :=
  (u.Proper ∧ token = u.chars) ∨ Shorthand token u

end Request

/-! ## Characters -/

theorem isAlphanum_of_isDigit {c : Char} (h : c.isDigit = true) : c.isAlphanum = true := by
  rw [Char.isAlphanum, h, Bool.or_true]

theorem isAlphanum_of_isAlpha {c : Char} (h : c.isAlpha = true) : c.isAlphanum = true := by
  rw [Char.isAlphanum, h, Bool.true_or]

theorem Decimal.Numeral.isAlphanum {cs : List Char} {n : Nat} (h : Decimal.Numeral cs n) :
    ∀ c ∈ cs, c.isAlphanum = true := fun c hc => isAlphanum_of_isDigit (h.isDigit c hc)

theorem isBlank_of_isAlphanum {c : Char} (h : c.isAlphanum = true) : Text.isBlank c = false := by
  have hc : (65 ≤ c.toNat ∧ c.toNat ≤ 90 ∨ 97 ≤ c.toNat ∧ c.toNat ≤ 122) ∨
      48 ≤ c.toNat ∧ c.toNat ≤ 57 := by
    simpa [Char.isAlphanum, Char.isAlpha, Char.isUpper, Char.isLower, Char.isDigit,
      UInt32.le_iff_toNat_le] using h
  exact Text.isBlank_of_ascii (by omega) (by omega)

/-! ## Words -/

theorem Arch.ofText_eq_ok_iff {s : String} {a : Arch} :
    ofText s = .ok a ↔ String.ofList ((Text.trim s.toList).map Char.toLower) ∈ a.words := by
  unfold ofText
  generalize String.ofList ((Text.trim s.toList).map Char.toLower) = text
  dsimp only
  split
  · rename_i h
    subst h
    cases a <;> simp [words]
  · rename_i h
    split
    · rename_i h'
      rcases h' with rfl | rfl <;> cases a <;> simp [words]
    · rename_i h'
      rw [not_or] at h'
      cases a <;> simp [words, h, h']

theorem Mode.ofText_eq_ok_iff {s : String} {m : Mode} : ofText s = .ok m ↔ s ∈ m.words := by
  unfold ofText
  split
  · rename_i h
    subst h
    cases m <;> simp [words]
  · rename_i h
    split
    · rename_i h'
      rcases h' with rfl | rfl <;> cases m <;> simp [words]
    · rename_i h'
      rw [not_or] at h'
      split
      · rename_i h''
        subst h''
        cases m <;> simp [words]
      · rename_i h''
        cases m <;> simp [words, h, h', h'']

/-- Words are small letters. -/
theorem letters_of_word {words : List String}
    (hw : (words.all fun w => !w.toList.isEmpty && w.toList.all Char.isLower) = true)
    {cs : List Char} (h : String.ofList cs ∈ words) :
    cs ≠ [] ∧ ∀ c ∈ cs, c.isLower = true := by
  simpa using List.all_eq_true.1 hw _ h

/-- Letters that make a word for an architecture when they are small. -/
theorem Arch.letters_of_words {letters : List Char} {a : Arch}
    (h : String.ofList (letters.map Char.toLower) ∈ a.words) :
    letters ≠ [] ∧ ∀ c ∈ letters, c.isAlpha = true := by
  obtain ⟨hne, hlower⟩ := letters_of_word (by cases a <;> decide) h
  refine ⟨fun hnil => hne (by rw [hnil]; rfl), fun c hc => ?_⟩
  rw [← Char.isLower_toLower_eq_isAlpha]
  exact hlower _ (List.mem_map_of_mem hc)

theorem Mode.letters_of_words {word : List Char} {m : Mode} (h : String.ofList word ∈ m.words) :
    word ≠ [] ∧ ∀ c ∈ word, c.isLower = true :=
  letters_of_word (by cases m <;> decide) h

/-- Letters have no blanks around them that could be cut off. -/
theorem Arch.ofText_letters {letters : List Char} {a : Arch}
    (hl : ∀ c ∈ letters, c.isAlpha = true) :
    ofText (String.ofList letters) = .ok a ↔
      String.ofList (letters.map Char.toLower) ∈ a.words := by
  have hsolid : ∀ c ∈ letters, Text.isBlank c = false := fun c hc =>
    isBlank_of_isAlphanum (isAlphanum_of_isAlpha (hl c hc))
  rw [ofText_eq_ok_iff, String.toList_ofList, Text.trim_of_solid hsolid]

namespace Request

/-! ## Structured items -/

/-- The text of an item. -/
def Item.chars : Item → List Char
  | ⟨arch, none, count⟩ => arch ++ '*' :: count
  | ⟨arch, some mode, count⟩ => arch ++ '(' :: (mode ++ ')' :: '*' :: count)

/-- What the parts of an item consist of. -/
structure Item.Formed (i : Item) : Prop where
  arch_ne_nil : i.arch ≠ []
  arch : ∀ c ∈ i.arch, c.isAlpha = true
  mode_ne_nil : i.mode ≠ some []
  mode : ∀ m, i.mode = some m → ∀ c ∈ m, c.isLower = true
  count : isCount i.count = true

theorem item?_eq_some_iff {cs : List Char} {i : Item} :
    item? cs = some i ↔ i.Formed ∧ cs = i.chars := by
  constructor
  · intro h
    unfold item? at h
    dsimp only at h
    split at h
    · cases h
    rename_i hne
    split at h
    · rename_i count hstar
      obtain ⟨hcs, halpha, -⟩ := Text.cut_cons_iff.1 ⟨rfl, hstar⟩
      split at h
      · rename_i hcount
        simp only [Option.some.injEq] at h
        subst h
        exact ⟨⟨hne, halpha, by simp, by simp, hcount⟩, hcs⟩
      · cases h
    · rename_i rest hopen
      obtain ⟨hcs, halpha, -⟩ := Text.cut_cons_iff.1 ⟨rfl, hopen⟩
      split at h
      · cases h
      rename_i hmode
      split at h
      · rename_i count hclose
        obtain ⟨hrest, hlower, -⟩ := Text.cut_cons_iff.1 ⟨rfl, hclose⟩
        split at h
        · rename_i hcount
          simp only [Option.some.injEq] at h
          rw [hrest] at hcs
          subst h
          exact ⟨⟨hne, halpha, by simpa using hmode, by simpa using hlower, hcount⟩, hcs⟩
        · cases h
      · cases h
    · cases h
  · rintro ⟨hf, rfl⟩
    obtain ⟨arch, mode, count⟩ := i
    have hstar : Char.isAlpha '*' = false := by decide
    have hopen : Char.isAlpha '(' = false := by decide
    have hclose : Char.isLower ')' = false := by decide
    cases mode with
    | none =>
      obtain ⟨htake, hdrop⟩ := Text.cut_run ('*' :: count) hf.arch (by simp [hstar])
      simp only [item?, Item.chars, htake, hdrop, if_neg hf.arch_ne_nil, hf.count, if_true]
    | some mode =>
      have hne : mode ≠ [] := fun h => hf.mode_ne_nil (congrArg some h)
      obtain ⟨htake, hdrop⟩ := Text.cut_run ('(' :: (mode ++ ')' :: '*' :: count)) hf.arch
        (by simp [hopen])
      obtain ⟨htake', hdrop'⟩ := Text.cut_run (')' :: '*' :: count) (hf.mode mode rfl)
        (by simp [hclose])
      simp only [item?, Item.chars, htake, hdrop, htake', hdrop', if_neg hf.arch_ne_nil,
        if_neg hne, hf.count, if_true]

theorem looseIndex?_eq_some_iff {cs : List Char} {i : Index} :
    looseIndex? cs = some i ↔ Decimal.Numeral cs i := by
  simp [looseIndex?, Option.bind_eq_some_iff, Decimal.nat?_eq_some_iff, Decimal.below?_eq_some_iff]

theorem isCount_of_numeral {cs : List Char} {n : Nat} (h : Decimal.Numeral cs n) :
    isCount cs = true := by
  rw [isCount, Bool.and_eq_true]
  refine ⟨by simpa using h.ne_nil, List.all_eq_true.2 fun c hc => ?_⟩
  exact Text.isDecimal_of_isDigit (h.isDigit c hc)

/-- An item is read part by part: its architecture, its size, its count. -/
theorem ofItem_eq (token : List Char) (i : Item) :
    ofItem token i = do
      let arch ← (Arch.ofText (String.ofList i.arch)).mapError fun t =>
        .invalidSpecifier (String.ofList token) (.badArch t)
      let mode ← i.mode.elim (.ok .single) fun word =>
        (Mode.ofText (String.ofList word)).mapError fun t =>
          .invalidSpecifier (String.ofList token) (.badMode t)
      let count ← (looseIndex? i.count).elim
        (.error (.invalidSpecifier (String.ofList token) .countOutOfRange)) .ok
      (structured arch mode count).check
      return structured arch mode count := by
  have hcount : (Decimal.nat? i.count).bind (Decimal.below? 256) = looseIndex? i.count := rfl
  simp only [ofItem, hcount]
  cases i.mode <;> cases looseIndex? i.count <;> rfl

theorem ofItem_eq_ok_iff {token : List Char} {i : Item} {r : Request} :
    ofItem token i = .ok r ↔ ∃ arch mode count, r = .structured arch mode count ∧
      Arch.ofText (String.ofList i.arch) = .ok arch ∧
      i.mode.elim (.ok .single) (fun word => Mode.ofText (String.ofList word)) = .ok mode ∧
      Decimal.Numeral i.count count ∧ count ≠ 0 := by
  have hmode : ∀ (mode : Mode) (f : String → Fault), i.mode.elim (.ok .single)
      (fun word => (Mode.ofText (String.ofList word)).mapError f) = .ok mode ↔
      i.mode.elim (.ok .single) (fun word => Mode.ofText (String.ofList word)) = .ok mode := by
    intro mode f
    cases i.mode with
    | none => simp
    | some word => exact mapError_eq_ok_iff
  have hcount : ∀ (count : Index) (f : Fault),
      (looseIndex? i.count).elim (Except.error f) Except.ok = Except.ok count ↔
        Decimal.Numeral i.count count := by
    intro count f
    rw [← looseIndex?_eq_some_iff]
    cases looseIndex? i.count <;> simp
  simp only [ofItem_eq, bind_eq_ok_iff, mapError_eq_ok_iff, hmode, hcount, pure, Except.pure,
    Except.ok.injEq]
  constructor
  · rintro ⟨arch, ha, mode, hm, count, hn, _, hc, rfl⟩
    exact ⟨arch, mode, count, rfl, ha, hm, hn, check_structured.1 hc⟩
  · rintro ⟨arch, mode, count, rfl, ha, hm, hn, hc⟩
    exact ⟨arch, ha, mode, hm, count, hn, (), check_structured.2 hc, rfl⟩

theorem asks_iff {token : List Char} {arch : Arch} {mode : Mode} {count : Index} :
    Asks token arch mode count ↔
      ∃ i, item? token = some i ∧ ofItem token i = .ok (.structured arch mode count) := by
  constructor
  · intro h
    cases h with
    | @plain letters number _ _ ha hn hc =>
      obtain ⟨hne, hl⟩ := Arch.letters_of_words ha
      have hf : Item.Formed ⟨letters, none, number⟩ :=
        ⟨hne, hl, by simp, by simp, isCount_of_numeral hn⟩
      exact ⟨_, item?_eq_some_iff.2 ⟨hf, rfl⟩,
        ofItem_eq_ok_iff.2 ⟨_, _, _, rfl, (Arch.ofText_letters hl).2 ha, rfl, hn, hc⟩⟩
    | @sized letters word number _ _ _ ha hm hn hc =>
      obtain ⟨hne, hl⟩ := Arch.letters_of_words ha
      obtain ⟨hne', hl'⟩ := Mode.letters_of_words hm
      have hf : Item.Formed ⟨letters, some word, number⟩ :=
        ⟨hne, hl, by simpa using hne', by simpa using hl', isCount_of_numeral hn⟩
      exact ⟨_, item?_eq_some_iff.2 ⟨hf, rfl⟩, ofItem_eq_ok_iff.2
        ⟨_, _, _, rfl, (Arch.ofText_letters hl).2 ha, Mode.ofText_eq_ok_iff.2 hm, hn, hc⟩⟩
  · rintro ⟨⟨letters, word, number⟩, hi, hr⟩
    obtain ⟨hf, rfl⟩ := item?_eq_some_iff.1 hi
    obtain ⟨_, _, _, hreq, ha, hm, hn, hc⟩ := ofItem_eq_ok_iff.1 hr
    cases hreq
    have ha := (Arch.ofText_letters hf.arch).1 ha
    cases word with
    | none =>
      cases hm
      exact .plain ha hn hc
    | some word => exact .sized ha (Mode.ofText_eq_ok_iff.1 hm) hn hc

theorem Asks.count_ne_zero {token : List Char} {arch : Arch} {mode : Mode} {count : Index}
    (h : Asks token arch mode count) : count ≠ 0 := by
  cases h <;> assumption

theorem Asks.mem_chars {token : List Char} {arch : Arch} {mode : Mode} {count : Index}
    (h : Asks token arch mode count) :
    ∀ c ∈ token, c.isAlphanum = true ∨ c = '(' ∨ c = ')' ∨ c = '*' := by
  cases h with
  | plain ha hn _ =>
    rw [List.forall_mem_append, List.forall_mem_cons]
    exact ⟨fun c hc => .inl (isAlphanum_of_isAlpha ((Arch.letters_of_words ha).2 c hc)), by simp,
      fun c hc => .inl (hn.isAlphanum c hc)⟩
  | sized ha hm hn _ =>
    simp only [List.forall_mem_append, List.forall_mem_cons]
    refine ⟨fun c hc => .inl (isAlphanum_of_isAlpha ((Arch.letters_of_words ha).2 c hc)), by simp,
      fun c hc => .inl (isAlphanum_of_isAlpha ?_), by simp, by simp,
      fun c hc => .inl (hn.isAlphanum c hc)⟩
    rw [Char.isAlpha, (Mode.letters_of_words hm).2 c hc, Bool.or_true]

/-! ## Selectors -/

theorem shorthand?_eq_some_iff {cs : List Char} {u : UnitId} :
    shorthand? cs = some u ↔ Shorthand cs u := by
  have hspan {cs : List Char} {s : Span} :
      UnitId.spanOf? looseIndex? cs = some s ↔ s.Written (fun cs i => Decimal.Numeral cs i) cs :=
    UnitId.spanOf?_eq_some_iff (fun _ _ => looseIndex?_eq_some_iff) fun _ _ h => h.isDigit
  constructor
  · intro h
    have hcs := List.takeWhile_append_dropWhile (p := Char.isDigit) (l := cs)
    simp only [shorthand?, Option.bind_eq_bind, Option.bind_eq_some_iff,
      looseIndex?_eq_some_iff] at h
    obtain ⟨device, hd, h⟩ := h
    split at h
    · rename_i hnil
      simp only [pure, Option.some.injEq] at h
      rw [hnil, List.append_nil] at hcs
      rw [hcs] at hd
      exact h ▸ .whole hd
    · rename_i rest hcolon
      simp only [Option.bind_eq_some_iff, hspan, pure, Option.some.injEq] at h
      obtain ⟨s, hs, rfl⟩ := h
      rw [hcolon] at hcs
      exact hcs ▸ .part hd hs
    · cases h
  · intro h
    cases h with
    | whole hd =>
      obtain ⟨htake, hdrop⟩ := Text.cut_run [] hd.isDigit (by simp)
      rw [List.append_nil] at htake hdrop
      simp [shorthand?, htake, hdrop, looseIndex?_eq_some_iff.2 hd]
    | @part number rest device s hd hs =>
      obtain ⟨htake, hdrop⟩ := Text.cut_run (':' :: rest) hd.isDigit (by simp)
      simp [shorthand?, htake, hdrop, looseIndex?_eq_some_iff.2 hd, hspan.2 hs]

theorem Shorthand.head {token : List Char} {u : UnitId} (h : Shorthand token u) :
    ∃ c rest, token = c :: rest ∧ c.isDigit = true := by
  have hnumber : ∀ {number rest : List Char} {n : Nat}, Decimal.Numeral number n →
      ∃ c cs, number ++ rest = c :: cs ∧ c.isDigit = true := by
    intro number rest n hn
    obtain ⟨c, cs, rfl⟩ := List.exists_cons_of_ne_nil hn.ne_nil
    exact ⟨c, cs ++ rest, rfl, hn.isDigit c List.mem_cons_self⟩
  cases h with
  | whole hd => simpa using @hnumber _ [] _ hd
  | part hd _ => exact hnumber hd

/-- No name is a shorthand: one begins with a letter, the other with a digit. -/
theorem Shorthand.ofChars?_eq_none {token : List Char} {u : UnitId} (h : Shorthand token u) :
    UnitId.ofChars? token = none := by
  obtain ⟨c, rest, rfl, hc⟩ := h.head
  cases hn : UnitId.ofChars? (c :: rest) with
  | none => rfl
  | some v =>
    obtain ⟨-, hv⟩ := UnitId.ofChars?_eq_some_iff.1 hn
    have hchar : c = 'n' := (List.cons.inj hv).1
    rw [hchar] at hc
    cases hc

theorem selects_iff {token : List Char} {u : UnitId} :
    Selects token u ↔ (UnitId.ofChars? token <|> shorthand? token) = some u := by
  rw [Selects, ← UnitId.ofChars?_eq_some_iff, ← shorthand?_eq_some_iff]
  cases hn : UnitId.ofChars? token with
  | none => simp
  | some v =>
    have hs : shorthand? token ≠ some u := fun hs => by
      rw [(shorthand?_eq_some_iff.1 hs).ofChars?_eq_none] at hn
      cases hn
    simp [hs]

theorem Selects.ne_nil {token : List Char} {u : UnitId} (h : Selects token u) : token ≠ [] := by
  rintro rfl
  rcases h with ⟨-, h⟩ | h
  · cases h
  · obtain ⟨c, rest, hnil, -⟩ := h.head
    cases hnil

theorem selector_eq_ok_iff {token : List Char} {u : UnitId} :
    selector token = .ok u ↔ Selects token u := by
  unfold selector
  split
  · rename_i hnil
    exact iff_of_false (by simp) fun h => h.ne_nil hnil
  · rw [selects_iff]
    split
    · rename_i v hv
      simp [hv]
    · rename_i hv
      simp [hv]

theorem Shorthand.proper {token : List Char} {u : UnitId} (h : Shorthand token u) : u.Proper := by
  cases h with
  | whole _ => simp [UnitId.Proper]
  | part _ hs =>
    cases hs with
    | single _ => simp [UnitId.Proper]
    | fused _ _ hlt => simpa [UnitId.Proper] using hlt

theorem Selects.proper {token : List Char} {u : UnitId} (h : Selects token u) : u.Proper := by
  rcases h with ⟨hp, -⟩ | h
  · exact hp
  · exact h.proper

theorem Shorthand.mem_chars {token : List Char} {u : UnitId} (h : Shorthand token u) :
    ∀ c ∈ token, c.isAlphanum = true ∨ c = '-' ∨ c = ':' := by
  cases h with
  | whole hd => exact fun c hc => .inl (hd.isAlphanum c hc)
  | part hd hs =>
    rw [List.forall_mem_append, List.forall_mem_cons]
    refine ⟨fun c hc => .inl (hd.isAlphanum c hc), .inr (.inr rfl), fun c hc => ?_⟩
    rcases hs.isDigit_or (fun _ _ h => h.isDigit) c hc with hc | hc
    · exact .inl (isAlphanum_of_isDigit hc)
    · exact .inr (.inl hc)

theorem Selects.mem_chars {token : List Char} {u : UnitId} (h : Selects token u) :
    ∀ c ∈ token, c.isAlphanum = true ∨ c = '-' ∨ c = ':' := by
  rcases h with ⟨-, rfl⟩ | h
  · intro c hc
    rcases u.mem_chars c hc with hc | hc
    · exact .inl hc
    · exact .inr (.inl hc)
  · exact h.mem_chars

/-- A selector has no star, so it is no structured item. -/
theorem Selects.item?_eq_none {token : List Char} {u : UnitId} (h : Selects token u) :
    item? token = none := by
  cases hi : item? token with
  | none => rfl
  | some i =>
    obtain ⟨-, rfl⟩ := item?_eq_some_iff.1 hi
    have hstar : '*' ∈ i.chars := by
      obtain ⟨letters, word, number⟩ := i
      cases word <;> simp [Item.chars]
    have hno := h.mem_chars '*' hstar
    simp at hno

end Request
end NpuBroker
