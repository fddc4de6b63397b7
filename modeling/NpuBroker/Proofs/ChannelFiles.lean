import NpuBroker.Proofs.Channels
import NpuBroker.Proofs.NodeNames

/-!
# Names of channel files

A file of a channel is called `<type><n>_<item>`. The item may be any text, so underscores and
digits may follow: it is the first underscore that stands between number and item, and the first
digit in front of it that begins the number.

* `CutsTo`: a text cut at these two places, whatever the parts are. There is one way to do it.
* `ofFileName?_eq_some_iff`: a name is read as what is between the cuts.
* `Spelled`: a name put together from a type, digits and an item, which is cut into just these
  (`Spelled.cutsTo`).
* `ofFileName?_iff_spelled`: names are read when they are put together that way, and as their parts.
* `unambiguous_of_unpadded`: with no zeros in front of numbers no two files are the same item.
-/
namespace NpuBroker

/-! ## Types -/

namespace SensorKind

variable {kind : SensorKind} {type : List Char}

/-- What a name begins with, for each kind. -/
def types : List (SensorKind × List Char) :=
  [(.current, "curr".toList), (.voltage, "in".toList), (.power, "power".toList),
    (.temperature, "temp".toList)]

theorem mem_types_iff : (kind, type) ∈ types ↔ type = kind.stem := by
  cases kind <;> simp [types, stem]

theorem mem_stem : ∀ c ∈ kind.stem, c ≠ '_' ∧ c.isDigit = false := by
  have hall : (kind.stem.all fun c => decide (c ≠ '_') && !c.isDigit) = true := by
    cases kind <;> rfl
  simpa using List.all_eq_true.1 hall

theorem ofStem?_eq_some_iff : ofStem? type = some kind ↔ type = kind.stem := by
  constructor
  · intro h
    have hstem := List.find?_some h
    exact (of_decide_eq_true hstem).symm
  · rintro rfl
    cases kind <;> rfl

theorem stem_injective : Function.Injective stem := by
  intro kind kind' h
  have hread : ofStem? kind.stem = some kind' := ofStem?_eq_some_iff.2 h
  rw [ofStem?_eq_some_iff.2 rfl] at hread
  exact Option.some.inj hread

end SensorKind

namespace SensorFile

variable {name type number ds item : List Char} {kind : SensorKind} {n : Nat}

/-! ## Cuts -/

/-- `name` is cut at its first underscore, and what is in front of that at its first digit. -/
structure CutsTo (name type number item : List Char) : Prop where
  name_eq : name = type ++ number ++ '_' :: item
  no_underscore : ∀ c ∈ type ++ number, c ≠ '_'
  no_digit : ∀ c ∈ type, c.isDigit = false
  begins : ∃ c cs, number = c :: cs ∧ c.isDigit = true

theorem CutsTo.at_underscore (h : CutsTo name type number item) :
    name.takeWhile (· ≠ '_') = type ++ number ∧ name.dropWhile (· ≠ '_') = '_' :: item :=
  Text.cut_cons_iff.2 ⟨h.name_eq, fun c hc => decide_eq_true (h.no_underscore c hc), rfl⟩

theorem CutsTo.at_digit (h : CutsTo name type number item) :
    (type ++ number).takeWhile (fun c => !c.isDigit) = type ∧
      (type ++ number).dropWhile (fun c => !c.isDigit) = number := by
  obtain ⟨c, cs, rfl, hc⟩ := h.begins
  exact Text.cut_cons_iff.2 ⟨rfl, by simpa using h.no_digit, by simpa using hc⟩

/-- A text is cut one way only. -/
theorem CutsTo.unique {type' number' item' : List Char} (h : CutsTo name type number item)
    (h' : CutsTo name type' number' item') : type = type' ∧ number = number' ∧ item = item' := by
  obtain ⟨hfront, hback⟩ := h.at_underscore
  obtain ⟨hfront', hback'⟩ := h'.at_underscore
  have hsame : type ++ number = type' ++ number' := hfront.symm.trans hfront'
  obtain ⟨htype, hnumber⟩ := h.at_digit
  obtain ⟨htype', hnumber'⟩ := h'.at_digit
  rw [hsame] at htype hnumber
  rw [hback] at hback'
  exact ⟨htype.symm.trans htype', hnumber.symm.trans hnumber', (List.cons.inj hback').2⟩

/-- Where there is an underscore, and in front of the first one a digit, a text is cut there. -/
theorem cutsTo_of_cut {c d : Char} {cs : List Char} (hback : name.dropWhile (· ≠ '_') = c :: item)
    (hnumber : (name.takeWhile (· ≠ '_')).dropWhile (fun c => !c.isDigit) = d :: cs) :
    CutsTo name ((name.takeWhile (· ≠ '_')).takeWhile fun c => !c.isDigit) (d :: cs) item := by
  obtain ⟨hname, hfront, hc⟩ := Text.cut_cons_iff.1 ⟨rfl, hback⟩
  obtain ⟨hcut, htype, hd⟩ := Text.cut_cons_iff.1 ⟨rfl, hnumber⟩
  obtain rfl : c = '_' := by simpa using hc
  refine ⟨?_, ?_, by simpa using htype, d, cs, rfl, by simpa using hd⟩
  · rw [← hcut]
    exact hname
  · rw [← hcut]
    exact fun c hc => of_decide_eq_true (hfront c hc)

/-- A name is read as what is between the cuts: a type, a number of 32 bits and the item. Numbers
that begin with a digit are read alike whether a sign is let through or not. -/
theorem ofFileName?_eq_some_iff : ofFileName? name = some ⟨kind, n, item⟩ ↔
    ∃ number, CutsTo name kind.stem number item ∧
      ∃ x : Fin (Nat.pow 2 32), Decimal.unsigned? (Nat.pow 2 32) number = some x ∧ x = n := by
  constructor
  · intro h
    simp only [ofFileName?, Option.bind_eq_bind, Option.bind_eq_some_iff,
      SensorKind.ofStem?_eq_some_iff] at h
    obtain ⟨k, hk, x, ⟨m, hm, hx⟩, h⟩ := h
    generalize hnumber : (name.takeWhile (· ≠ '_')).dropWhile (fun c => !c.isDigit) = number at hm
    -- there is a number, so there is a digit to cut at
    obtain ⟨d, cs, rfl⟩ := List.exists_cons_of_ne_nil (Decimal.nat?_eq_some_iff_value.1 hm).1
    split at h
    · cases h
    · rename_i c rest hback
      cases h
      have hcut := cutsTo_of_cut hback hnumber
      rw [hk] at hcut
      obtain ⟨_, _, hds, hd⟩ := hcut.begins
      cases hds
      refine ⟨_, hcut, x, ?_, rfl⟩
      rw [Decimal.unsigned?_of_isDigit hd, hm, Option.bind_some, hx]
  · rintro ⟨number, hcut, x, hx, rfl⟩
    obtain ⟨hfront, hback⟩ := hcut.at_underscore
    obtain ⟨htype, hnumber⟩ := hcut.at_digit
    obtain ⟨d, cs, rfl, hd⟩ := hcut.begins
    rw [Decimal.unsigned?_of_isDigit hd] at hx
    simp only [ofFileName?, hfront, hback, htype, hnumber, hx,
      SensorKind.ofStem?_eq_some_iff.2 rfl, Option.bind_eq_bind, Option.bind_some]

/-! ## Names put together -/

/-- `name` is the type of the kind, digits and, behind an underscore, the item. -/
structure Spelled (name : List Char) (kind : SensorKind) (ds item : List Char) : Prop where
  name_eq : ∃ type, (kind, type) ∈ SensorKind.types ∧ name = type ++ ds ++ '_' :: item
  ne_nil : ds ≠ []
  isDigit : ∀ c ∈ ds, c.isDigit = true

theorem Spelled.name_eq_stem (h : Spelled name kind ds item) :
    name = kind.stem ++ ds ++ '_' :: item := by
  obtain ⟨type, htype, hname⟩ := h.name_eq
  rwa [SensorKind.mem_types_iff.1 htype] at hname

/-- No type has a digit or an underscore, and no digit is one. -/
theorem Spelled.cutsTo (h : Spelled name kind ds item) : CutsTo name kind.stem ds item where
  name_eq := h.name_eq_stem
  no_underscore := by
    rw [List.forall_mem_append]
    refine ⟨fun c hc => (SensorKind.mem_stem c hc).1, ?_⟩
    rintro c hc rfl
    cases h.isDigit _ hc
  no_digit c hc := (SensorKind.mem_stem c hc).2
  begins := by
    obtain ⟨c, cs, rfl⟩ := List.exists_cons_of_ne_nil h.ne_nil
    exact ⟨c, cs, rfl, h.isDigit c List.mem_cons_self⟩

theorem spelled_iff_cutsTo :
    Spelled name kind ds item ↔ CutsTo name kind.stem ds item ∧ ∀ c ∈ ds, c.isDigit = true := by
  constructor
  · exact fun h => ⟨h.cutsTo, h.isDigit⟩
  · rintro ⟨hcut, hd⟩
    obtain ⟨c, cs, rfl, -⟩ := hcut.begins
    exact ⟨⟨_, SensorKind.mem_types_iff.2 rfl, hcut.name_eq⟩, List.cons_ne_nil c cs, hd⟩

theorem Spelled.unique {kind' : SensorKind} {ds' item' : List Char}
    (h : Spelled name kind ds item) (h' : Spelled name kind' ds' item') :
    kind = kind' ∧ ds = ds' ∧ item = item' := by
  obtain ⟨hstem, hds, hitem⟩ := h.cutsTo.unique h'.cutsTo
  exact ⟨SensorKind.stem_injective hstem, hds, hitem⟩

theorem ofFileName?_iff_spelled : ofFileName? name = some ⟨kind, n, item⟩ ↔
    ∃ ds, Spelled name kind ds item ∧ Nat.ofDigitChars 10 ds 0 = n ∧ n < Nat.pow 2 32 := by
  rw [ofFileName?_eq_some_iff]
  refine exists_congr fun ds => ?_
  rw [spelled_iff_cutsTo, and_assoc]
  refine and_congr_right fun hcut => ?_
  obtain ⟨c, cs, rfl, hc⟩ := hcut.begins
  simp only [Decimal.unsigned?_of_isDigit hc, Option.bind_eq_some_iff,
    Decimal.nat?_eq_some_iff_value, Decimal.below?_eq_some_iff]
  constructor
  · rintro ⟨x, ⟨m, ⟨-, hd, hvalue⟩, hx⟩, rfl⟩
    exact ⟨hd, hvalue.trans hx, x.isLt⟩
  · rintro ⟨hd, hvalue, hlt⟩
    exact ⟨⟨n, hlt⟩, ⟨n, ⟨List.cons_ne_nil c cs, hd, hvalue⟩, rfl⟩, rfl⟩

end SensorFile

/-! ## Files of a directory -/

/-- With no zeros in front of numbers no two files are the same item of one channel. -/
theorem Sensor.unambiguous_of_unpadded {names : List String}
    (h : ∀ name ∈ names, ∀ kind ds item, SensorFile.Spelled name.toList kind ds item →
      ds.head? = some '0' → ds = ['0']) : Unambiguous names := by
  -- such digits are those of their number, and the rest of the name is the same anyway
  have hname : ∀ name ∈ names, ∀ f, SensorFile.ofFileName? name.toList = some f →
      name.toList = f.kind.stem ++ Decimal.digits f.channel ++ '_' :: f.item := by
    rintro name hmem ⟨kind, n, item⟩ hf
    obtain ⟨ds, hds, hvalue, -⟩ := SensorFile.ofFileName?_iff_spelled.1 hf
    obtain ⟨c, cs, rfl⟩ := List.exists_cons_of_ne_nil hds.ne_nil
    have hzero : c = '0' → cs = [] := by
      rintro rfl
      exact (List.cons.inj (h name hmem kind _ item hds rfl)).2
    have hdigits := Decimal.canonical_iff.1 ⟨hds.isDigit, ⟨c, cs, rfl, hzero⟩, hvalue⟩
    rw [hds.name_eq_stem, hdigits]
  intro a ha b hb f hfa hfb
  exact String.toList_inj.1 ((hname a ha f hfa).trans (hname b hb f hfb).symm)

/-! ## One grammar -/

namespace SensorFile

/-- **Type, number, underscore, item.** A name is read as a kind, a number and an item exactly when
it is the type of the kind, ASCII digits with the number for their value, of which there is at least
one and which may begin with zeros, an underscore and the item; the number is below `2 ^ 32`, and
the item may be any text. No name is put together like this from two types, two runs of digits or
two items. The parts are found at the first underscore and at the first digit in front of it; the
text between the two places may then be read as a number that can have a sign, and still no other
name is read. -/
theorem ofFileName?_decomposes :
    (∀ (name : String) (kind : SensorKind) (n : Nat) (item : String),
      ofFileName? name.toList = some ⟨kind, n, item.toList⟩ ↔
        ∃ ds, Spelled name.toList kind ds item.toList ∧ Nat.ofDigitChars 10 ds 0 = n ∧
          n < Nat.pow 2 32) ∧
    (∀ (name : String) (kind kind' : SensorKind) (ds ds' item item' : List Char),
      Spelled name.toList kind ds item → Spelled name.toList kind' ds' item' →
        kind = kind' ∧ ds = ds' ∧ item = item') ∧
    ∀ (name : String) (kind : SensorKind) (n : Nat) (item : String),
      ofFileName? name.toList = some ⟨kind, n, item.toList⟩ ↔
        ∃ type number, (kind, type) ∈ SensorKind.types ∧
          CutsTo name.toList type number item.toList ∧
          ∃ x : Fin (Nat.pow 2 32), Decimal.unsigned? (Nat.pow 2 32) number = some x ∧ x = n := by
  refine ⟨fun name kind n item => ofFileName?_iff_spelled,
    fun name kind kind' ds ds' item item' h h' => h.unique h', fun name kind n item => ?_⟩
  simp only [SensorKind.mem_types_iff]
  rw [ofFileName?_eq_some_iff]
  constructor
  · rintro ⟨number, h⟩
    exact ⟨_, number, rfl, h⟩
  · rintro ⟨_, number, rfl, h⟩
    exact ⟨number, h⟩

/-- Zeros in front of the number, and an item with underscores and a digit. -/
theorem ofFileName?_decomposes_padded :
    ofFileName? "power007_in3_max".toList = some ⟨.power, 7, "in3_max".toList⟩ ∧
    Spelled "power007_in3_max".toList .power "007".toList "in3_max".toList ∧
    ∃ ds, Spelled "power007_in3_max".toList .power ds "in3_max".toList ∧
      Nat.ofDigitChars 10 ds 0 = 7 ∧ ds = "007".toList := by
  have hread : ofFileName? "power007_in3_max".toList = some ⟨.power, 7, "in3_max".toList⟩ := by
    decide
  have hspelled : Spelled "power007_in3_max".toList .power "007".toList "in3_max".toList :=
    ⟨⟨"power".toList, by decide, by decide⟩, by decide, List.all_eq_true.1 (by decide)⟩
  obtain ⟨hiff, hunique, -⟩ := ofFileName?_decomposes
  obtain ⟨ds, hds, hvalue, -⟩ := (hiff _ _ _ "in3_max").1 hread
  obtain ⟨-, hsame, -⟩ := hunique _ _ _ _ _ _ _ hds hspelled
  exact ⟨hread, hspelled, ds, hds, hvalue, hsame⟩

end SensorFile
end NpuBroker
