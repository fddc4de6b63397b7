import NpuBroker.Settings
import NpuBroker.Proofs.Encoding
import NpuBroker.Proofs.Specifier.Meaning

/-!
# The first source that holds something

A chain of sources is made call by call, each adding a variable, a text or a fallback. The first
source that is present answers for the chain, also with a refusal; the fallback that was given last
counts only when none is present. Settings that pass their check have a default that can be read,
so what they find is a request whenever it comes from there.

* `ofCalls_chain`, `ofCalls_fallback`: what a chain has after any calls.
* `read?_eq_some_iff`, `read?_eq_none_iff`: what a source answers, and when it is absent.
* `resolve_cases`: whether a source is present or not, and the answer in either case.
* `resolve_first`: the whole of it, and what settings make of it.
-/
namespace NpuBroker.Request.Sources

/-! ## Chains of calls -/

/-- What can be added to a chain. -/
inductive Call where
  | key (name : String)
  | text (given : Option String)
  | fallback (request : Request)
  | standard

namespace Call

/-- The source that the call adds. A text that is not there adds none. -/
def source? : Call → Option Source
  | .key name => some (.variable name)
  | .text given => given.map .literal
  | _ => none

def key? : Call → Option String
  | .key name => some name
  | _ => none

def fallback? : Call → Option Request
  | .fallback request => some request
  | .standard => some Request.standard
  | _ => none

end Call

def after (s : Sources) : Call → Sources
  | .key name => s.orKey name
  | .text given => s.orText given
  | .fallback request => s.orElse request
  | .standard => s.orStandard

/-- A chain that begins with a variable, after some calls. -/
def ofCalls (key : String) (calls : List Call) : Sources := calls.foldl after (ofKey key)

/-- The sources that are asked, in order. -/
def asked (key : String) (calls : List Call) : List Source :=
  .variable key :: calls.filterMap Call.source?

variable {key : String} {calls : List Call}

theorem after_chain (s : Sources) (call : Call) :
    (s.after call).chain = s.chain ++ call.source?.toList := by
  cases call <;> simp [after, orKey, orText, orElse, orStandard, Call.source?]

theorem after_keys (s : Sources) (call : Call) :
    (s.after call).keys = s.keys ++ call.key?.toList := by
  rw [keys, keys, after_chain, List.filterMap_append]
  cases call with
  | text given => cases given <;> rfl
  | _ => rfl

theorem after_fallback (s : Sources) (call : Call) :
    (s.after call).fallback = call.fallback?.or s.fallback := by
  cases call <;> simp [after, orKey, orText, orElse, orStandard, Call.fallback?]

theorem ofCalls_concat (call : Call) :
    ofCalls key (calls ++ [call]) = (ofCalls key calls).after call := List.foldl_concat ..

theorem ofCalls_chain : (ofCalls key calls).chain = asked key calls := by
  induction calls using List.reverseRecOn with
  | nil => rfl
  | append_singleton calls call ih =>
    rw [ofCalls_concat, after_chain, ih, asked, asked, List.filterMap_append, List.cons_append]
    cases h : call.source? <;> simp [h]

theorem ofCalls_keys : (ofCalls key calls).keys = key :: calls.filterMap Call.key? := by
  induction calls using List.reverseRecOn with
  | nil => rfl
  | append_singleton calls call ih =>
    rw [ofCalls_concat, after_keys, ih, List.filterMap_append, List.cons_append]
    cases h : call.key? <;> simp [h]

/-- The fallback of a chain is the last one given. -/
theorem ofCalls_fallback :
    (ofCalls key calls).fallback = calls.reverse.findSome? Call.fallback? := by
  induction calls using List.reverseRecOn with
  | nil => rfl
  | append_singleton calls call ih =>
    rw [ofCalls_concat, after_fallback, ih, List.reverse_concat, List.findSome?_cons]
    cases call.fallback? <;> rfl

/-! ## Sources -/

/-- A variable that is not set. A text that was given is always there. -/
def Absent (env : Environment) : Source → Prop
  | .variable key => env.get? key = none
  | .literal _ => False

/-- What a source that is present answers: what its text is read as, or that it is no text. -/
inductive Answers (env : Environment) : Source → Except Fault Request → Prop
  | literal (text : String) : Answers env (.literal text) (ofText text)
  | text {key : String} {text : String} : env.get? key = some (Utf8.encode text.toList) →
    Answers env (.variable key) (ofText text)
  | bytes {key : String} {value : List UInt8} : env.get? key = some value →
    (∀ cs, value ≠ Utf8.encode cs) → Answers env (.variable key)
      (.error (.invalidSpecifier (String.ofList (Utf8.lossy value)) (.notUnicode key)))

variable {env : Environment} {source : Source} {answer : Except Fault Request}

theorem read?_eq_some_iff : read? env source = some answer ↔ Answers env source answer := by
  rcases source with key | text
  · rw [read?, Option.map_eq_some_iff]
    constructor
    · rintro ⟨value, hvalue, hanswer⟩
      split at hanswer
      · rename_i cs hcs
        subst hanswer
        have htext : env.get? key = some (Utf8.encode (String.ofList cs).toList) := by
          rw [hvalue, Utf8.decode?_eq_some_iff.1 hcs, String.toList_ofList]
        have hread : ofChars cs = ofText (String.ofList cs) := by
          rw [ofText, String.toList_ofList]
        rw [hread]
        exact .text htext
      · rename_i hnone
        subst hanswer
        refine .bytes hvalue fun cs hcs => ?_
        rw [hcs, Utf8.decode?_encode] at hnone
        cases hnone
    · rintro (_ | htext | ⟨hvalue, hbytes⟩)
      · refine ⟨_, htext, ?_⟩
        rw [Utf8.decode?_encode]
        rfl
      · refine ⟨_, hvalue, ?_⟩
        split
        · rename_i cs hcs
          exact absurd (Utf8.decode?_eq_some_iff.1 hcs) (hbytes cs)
        · rfl
  · constructor
    · rintro ⟨⟩
      exact .literal text
    · rintro ⟨⟩
      rfl

theorem read?_eq_none_iff : read? env source = none ↔ Absent env source := by
  cases source <;> simp [read?, Absent]

theorem exists_answers_iff : (∃ answer, Answers env source answer) ↔ ¬ Absent env source := by
  rw [← read?_eq_none_iff, ← Ne, Option.ne_none_iff_exists']
  simp only [read?_eq_some_iff]

/-- An answer is a request that passes its check, or says what is wrong with the specifier. -/
theorem Answers.sound (h : Answers env source answer) :
    (∀ r, answer = .ok r → r.check = .ok ()) ∧ ∀ f, answer = .error f → OfSpecifier f := by
  have hread : ∀ text : String, (∀ r, ofText text = .ok r → r.check = .ok ()) ∧
      ∀ f, ofText text = .error f → OfSpecifier f := fun text =>
    ⟨fun r hr => (proper_of_ofChars hr).1, fun f hf => ofChars_eq_error hf⟩
  cases h with
  | literal text => exact hread text
  | text _ => exact hread _
  | bytes _ _ =>
    refine ⟨nofun, fun f hf => ?_⟩
    cases hf
    exact .intro _ _

/-! ## Resolving -/

theorem resolve_of_answers {before more : List Source}
    (hchain : asked key calls = before ++ source :: more) (hbefore : ∀ s ∈ before, Absent env s)
    (hanswer : Answers env source answer) : (ofCalls key calls).resolve env = answer := by
  have hfirst : (ofCalls key calls).chain.findSome? (read? env) = some answer := by
    rw [ofCalls_chain, List.findSome?_eq_some_iff]
    exact ⟨before, source, more, hchain, read?_eq_some_iff.2 hanswer, fun s hs =>
      read?_eq_none_iff.2 (hbefore s hs)⟩
  rw [resolve, hfirst]

theorem resolve_of_absent (h : ∀ s ∈ asked key calls, Absent env s) :
    (ofCalls key calls).resolve env =
      match calls.reverse.findSome? Call.fallback? with
      | some request => do
        request.check
        return request
      | none => .error (.invalidSpecifier "" (.noSource (key :: calls.filterMap Call.key?))) := by
  have hnone : (ofCalls key calls).chain.findSome? (read? env) = none := by
    rw [ofCalls_chain, List.findSome?_eq_none_iff]
    exact fun s hs => read?_eq_none_iff.2 (h s hs)
  rw [resolve, hnone]
  dsimp only
  rw [ofCalls_fallback, ofCalls_keys]
  cases calls.reverse.findSome? Call.fallback? <;> rfl

/-- A first source is present, or none is. -/
theorem exists_first (env : Environment) (sources : List Source) :
    (∀ s ∈ sources, Absent env s) ∨ ∃ before source more answer,
      sources = before ++ source :: more ∧ (∀ s ∈ before, Absent env s) ∧
        Answers env source answer := by
  cases h : sources.findSome? (read? env) with
  | none => exact .inl fun s hs => read?_eq_none_iff.1 (List.findSome?_eq_none_iff.1 h s hs)
  | some answer =>
    obtain ⟨before, source, more, hsources, hanswer, hbefore⟩ := List.findSome?_eq_some_iff.1 h
    exact .inr ⟨before, source, more, answer, hsources,
      fun s hs => read?_eq_none_iff.1 (hbefore s hs), read?_eq_some_iff.1 hanswer⟩

theorem resolve_sound :
    (∀ r, (ofCalls key calls).resolve env = .ok r → r.check = .ok ()) ∧
      ∀ f, (ofCalls key calls).resolve env = .error f → OfSpecifier f := by
  rcases exists_first env (asked key calls) with
    hnone | ⟨before, source, more, answer, hchain, hbefore, hanswer⟩
  · rw [resolve_of_absent hnone]
    split
    · refine ⟨fun r hr => ?_, fun f => checked_eq_error⟩
      obtain ⟨_, hcheck, hr⟩ := bind_eq_ok_iff.1 hr
      cases hr
      exact hcheck
    · refine ⟨nofun, fun f hf => ?_⟩
      cases hf
      exact .intro _ _
  · rw [resolve_of_answers hchain hbefore hanswer]
    exact hanswer.sound

/-! ## Settings -/

/-- The default of settings that pass their check can be read. -/
theorem ofText_of_check {s : Settings} (h : s.check = .ok ()) {text : String}
    (htext : s.defaultSpecifier = some text) : ∃ r, ofText text = .ok r := by
  unfold Settings.check at h
  rw [htext] at h
  split_ifs at h
  dsimp only at h
  cases hr : ofText text with
  | ok r => exact ⟨r, rfl⟩
  | error f =>
    rw [hr] at h
    cases h

/-- Settings look first at their variable and then at their default. -/
theorem request_none (s : Settings) (env : Environment) : s.request env none =
    ((ofCalls s.specifierKey [.text s.defaultSpecifier]).resolve env).mapError
      (.noSpecifier s.specifierKey) := rfl

/-- **The first source decides.** For every chain that begins with a variable and goes on with
variables, texts and fallbacks in any order, under every environment: the first source that is
present answers, whatever comes after it. If none is, the last fallback that was given is the
answer, wherever it stands in the chain, once it is checked; and without one the specifier is
invalid. So every answer is a request that passes its check, or says what is wrong with the
specifier. Settings that pass their check read a specifier that is given by itself, and where their
variable is not set they have a request if they have a default: the one it is read as. -/
theorem first_source_decides (env : Environment) (key : String) (calls : List Call) :
    (∀ source, (∃ answer, Answers env source answer) ↔ ¬ Absent env source) ∧
    (∀ before source more answer, asked key calls = before ++ source :: more →
      (∀ s ∈ before, Absent env s) → Answers env source answer →
        (ofCalls key calls).resolve env = answer) ∧
    ((∀ s ∈ asked key calls, Absent env s) →
      (∀ earlier call later request, calls = earlier ++ call :: later →
        call.fallback? = some request → (∀ c ∈ later, c.fallback? = none) →
          (request.check = .ok () → (ofCalls key calls).resolve env = .ok request) ∧
          ∀ f, request.check = .error f → (ofCalls key calls).resolve env = .error f) ∧
      ((∀ c ∈ calls, c.fallback? = none) → (ofCalls key calls).resolve env =
        .error (.invalidSpecifier "" (.noSource (key :: calls.filterMap Call.key?))))) ∧
    (∀ r, (ofCalls key calls).resolve env = .ok r → r.check = .ok ()) ∧
    (∀ f, (ofCalls key calls).resolve env = .error f → OfSpecifier f) ∧
    ∀ settings : Settings, settings.check = .ok () →
      (∀ text, settings.request env (some text) = (ofText text).mapError .badSpecifier) ∧
      ∀ text, settings.defaultSpecifier = some text → env.get? settings.specifierKey = none →
        ∃ r, ofText text = .ok r ∧ settings.request env none = .ok r := by
  refine ⟨fun _ => exists_answers_iff, fun _ _ _ _ => resolve_of_answers, fun habsent => ⟨?_, ?_⟩,
    resolve_sound.1, resolve_sound.2, fun settings hcheck => ⟨fun text => rfl, ?_⟩⟩
  · rintro earlier call later request rfl hcall hlater
    have hlast : (earlier ++ call :: later).reverse.findSome? Call.fallback? = some request := by
      rw [List.findSome?_eq_some_iff]
      refine ⟨later.reverse, call, earlier.reverse, by simp, hcall, fun c hc => ?_⟩
      exact hlater c (List.mem_reverse.1 hc)
    rw [resolve_of_absent habsent, hlast]
    refine ⟨fun hok => ?_, fun f hf => ?_⟩
    · dsimp only
      rw [hok]
      rfl
    · dsimp only
      rw [hf]
      rfl
  · intro hnone
    have hlast : calls.reverse.findSome? Call.fallback? = none :=
      List.findSome?_eq_none_iff.2 fun c hc => hnone c (List.mem_reverse.1 hc)
    rw [resolve_of_absent habsent, hlast]
  · intro text htext hunset
    obtain ⟨r, hr⟩ := ofText_of_check hcheck htext
    have hasked : asked settings.specifierKey [.text settings.defaultSpecifier] =
        [.variable settings.specifierKey] ++ .literal text :: [] := by
      rw [htext]
      rfl
    have hbefore : ∀ s ∈ [Source.variable settings.specifierKey], Absent env s :=
      List.forall_mem_singleton.2 hunset
    have hresolve : (ofCalls settings.specifierKey [.text settings.defaultSpecifier]).resolve env =
        .ok r := by
      rw [resolve_of_answers hasked hbefore (.literal text), hr]
    exact ⟨r, hr, by rw [request_none, hresolve]; rfl⟩

/-- A variable that holds no text, before a text that could be read and after a fallback; no source
but a text that is not there, and two fallbacks; and settings with a default. -/
theorem first_source_decides_bytes :
    (ofCalls "NPU_UNSET" [.standard, .key "NPU_DEVNAME", .text (some "npu0pe0")]).resolve
        ⟨[("NPU_DEVNAME", [0xFF])]⟩ =
      .error (.invalidSpecifier (String.ofList (Utf8.lossy [0xFF])) (.notUnicode "NPU_DEVNAME")) ∧
    (ofCalls "NPU_UNSET" [.standard, .text none, .fallback (.structured .rngd .single 2)]).resolve
        ⟨[("NPU_DEVNAME", [0xFF])]⟩ = .ok (.structured .rngd .single 2) ∧
    ({ Settings.standard with defaultSpecifier := some "npu0pe0" }).check = .ok () ∧
    ({ Settings.standard with defaultSpecifier := some "npu0pe0" }).request ⟨[]⟩ none =
      .ok (.explicit [⟨0, some (.single 0)⟩]) := by
  have hbytes : ∀ cs, [0xFF] ≠ Utf8.encode cs := by
    intro cs hcs
    have hnone : Utf8.decode? [0xFF] = none := by
      simp [Utf8.decode?, Utf8.pieces, Utf8.follow?]
    rw [Utf8.decode?_eq_some_iff.2 hcs] at hnone
    cases hnone
  have hunset : ∀ s ∈ [Source.variable "NPU_UNSET"], Absent ⟨[("NPU_DEVNAME", [0xFF])]⟩ s :=
    List.forall_mem_singleton.2 rfl
  have hread : ofText "npu0pe0" = .ok (.explicit [⟨0, some (.single 0)⟩]) := by decide
  have hcheck : ({ Settings.standard with defaultSpecifier := some "npu0pe0" }).check =
      .ok () := rfl
  refine ⟨?_, ?_, hcheck, ?_⟩
  · exact (first_source_decides _ _ _).2.1 _ _ _ _ rfl hunset (.bytes rfl hbytes)
  · exact (((first_source_decides _ "NPU_UNSET" [.standard, .text none, .fallback _]).2.2.1
      hunset).1 [.standard, .text none] _ [] _ rfl rfl (by simp)).1 rfl
  · obtain ⟨r, hr, hrequest⟩ :=
      ((first_source_decides ⟨[]⟩ "" []).2.2.2.2.2 _ hcheck).2 _ rfl rfl
    rw [hread] at hr
    cases hr
    exact hrequest

end NpuBroker.Request.Sources
