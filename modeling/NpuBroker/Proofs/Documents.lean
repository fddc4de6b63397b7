import NpuBroker.Json.Units
import NpuBroker.Proofs.Answers
import NpuBroker.Proofs.RawNodes

/-!
# Units out of documents

A document can spell a unit in many ways: as an object or as a list, with its fields in any order,
with fields that mean nothing, without the field of the span. A text can spell a range in one way
more. Whatever is read has passed the check of its range, and so it is read back when it is written.
A node can only be written when its path is text.

* `Json.Inverse`: what reading and writing have to do with each other, type by type.
* `Json.twoFields_good`, `Json.twoItems_good`: records, from what is read of their fields.
* `RawNode.toJson_eq_ok_iff`: which nodes can be written.
* `ofDocument_toJson_iff`: spans, units and nodes.
-/
namespace NpuBroker

namespace Json

variable {α β : Type}

/-- Whatever is read keeps to `good`, and what keeps to it is read back when it is written. -/
structure Inverse (write : α → Json) (read : Json → Except Misfit α) (good : α → Prop) : Prop where
  good_of_read : ∀ {v x}, read v = .ok x → good x
  read_write : ∀ {x}, good x → read (write x) = .ok x

namespace Inverse

variable {write : α → Json} {read : Json → Except Misfit α} {good : α → Prop}

theorem reread (h : Inverse write read good) {v : Json} {x : α} (hx : read v = .ok x) :
    good x ∧ read (write x) = .ok x :=
  ⟨h.good_of_read hx, h.read_write (h.good_of_read hx)⟩

theorem read_write_iff (h : Inverse write read good) {x : α} :
    read (write x) = .ok x ↔ good x := ⟨h.good_of_read, h.read_write⟩

end Inverse

/-! ## Records of two fields -/

section Record

variable {a b : String} {readA : Json → Except Misfit α} {readB : Json → Except Misfit β}
variable {goodA : α → Prop} {goodB : β → Prop}

/-- One field more: it is read if it is one of the two and was not read before. -/
theorem twoFields_cons (key : String) (value : Json) (fields : List (String × Json))
    (found : Option α × Option β) :
    twoFields a b readA readB ((key, value) :: fields) found =
      if key = a then
        if found.1.isSome then .error .shape
        else readA value >>= fun x => twoFields a b readA readB fields (some x, found.2)
      else if key = b then
        if found.2.isSome then .error .shape
        else readB value >>= fun y => twoFields a b readA readB fields (found.1, some y)
      else twoFields a b readA readB fields found := by
  rw [twoFields]
  split_ifs <;> rfl

theorem twoFields_good (hA : ∀ {v x}, readA v = .ok x → goodA x)
    (hB : ∀ {v y}, readB v = .ok y → goodB y)
    {fields : List (String × Json)} {found out : Option α × Option β}
    (h : twoFields a b readA readB fields found = .ok out)
    (hfound : (∀ x ∈ found.1, goodA x) ∧ ∀ y ∈ found.2, goodB y) :
    (∀ x ∈ out.1, goodA x) ∧ ∀ y ∈ out.2, goodB y := by
  induction fields generalizing found with
  | nil =>
    cases h
    exact hfound
  | cons field fields ih =>
    obtain ⟨key, value⟩ := field
    rw [twoFields_cons] at h
    split_ifs at h
    · obtain ⟨x, hx, h⟩ := bind_eq_ok_iff.1 h
      exact ih h ⟨by simpa using hA hx, hfound.2⟩
    · obtain ⟨y, hy, h⟩ := bind_eq_ok_iff.1 h
      exact ih h ⟨hfound.1, by simpa using hB hy⟩
    · exact ih h hfound

/-- A record as it is written. -/
theorem twoFields_pair (hab : b ≠ a) {v w : Json} {x : α} {y : β} (hx : readA v = .ok x)
    (hy : readB w = .ok y) :
    twoFields a b readA readB [(a, v), (b, w)] (none, none) = .ok (some x, some y) := by
  rw [twoFields_cons, if_pos rfl, if_neg (by simp), hx]
  change twoFields a b readA readB [(b, w)] (some x, none) = _
  rw [twoFields_cons, if_neg hab, if_pos rfl, if_neg (by simp), hy]
  rfl

theorem twoItems_good (hA : ∀ {v x}, readA v = .ok x → goodA x)
    (hB : ∀ {v y}, readB v = .ok y → goodB y) {items : List Json} {out : α × β}
    (h : twoItems readA readB items = .ok out) : goodA out.1 ∧ goodB out.2 := by
  unfold twoItems at h
  split at h
  · cases h
  · obtain ⟨x, -, h⟩ := bind_eq_ok_iff.1 h
    cases h
  · obtain ⟨x, hx, h⟩ := bind_eq_ok_iff.1 h
    obtain ⟨y, hy, h⟩ := bind_eq_ok_iff.1 h
    split at h
    · cases h
      exact ⟨hA hx, hB hy⟩
    · cases h

end Record

theorem index_inverse : Inverse ofBounded index fun _ => True where
  good_of_read _ := trivial
  read_write {i} _ := by
    change (Decimal.below? 256 i.val).elim _ _ = _
    rw [Decimal.below?_eq_some_iff.2 rfl]
    rfl

theorem string_inverse : Inverse Json.str string fun _ => True where
  good_of_read _ := trivial
  read_write _ := rfl

end Json

/-! ## Spans, units and nodes -/

variable {form : Json.Form}

namespace Span

theorem ofBounds_eq_ok_iff {first last : Index} {s : Span} :
    ofBounds first last = .ok s ↔ first < last ∧ s = .fused first last := by
  unfold ofBounds ascending?
  split_ifs with hlt <;> simp [hlt, eq_comm]

theorem inverse : Json.Inverse toJson (ofDocument form)
    fun s => ∀ first last, s = .fused first last → first < last where
  good_of_read {v s} h first last hs := by
    have hbounds : ∀ {a b : Index}, ofBounds a b = .ok s → first < last := by
      intro a b hab
      obtain ⟨hlt, rfl⟩ := ofBounds_eq_ok_iff.1 hab
      cases hs
      exact hlt
    unfold ofDocument at h
    split at h
    · obtain ⟨pe, -, h⟩ := map_eq_ok_iff.1 h
      subst hs
      cases h
    · obtain ⟨found, -, h⟩ := bind_eq_ok_iff.1 h
      split at h
      · exact hbounds h
      · cases h
    · split at h
      · cases h
      · obtain ⟨found, -, h⟩ := bind_eq_ok_iff.1 h
        exact hbounds h
    · cases h
  read_write {s} hs := by
    cases s with
    | single pe =>
      change single <$> Json.index (Json.ofBounded pe) = _
      rw [Json.index_inverse.read_write trivial]
      rfl
    | fused first last =>
      have hfields := Json.twoFields_pair (a := "start") (b := "end") (by decide)
        (Json.index_inverse.read_write (x := first) trivial)
        (Json.index_inverse.read_write (x := last) trivial)
      simp only [toJson, ofDocument, hfields]
      exact ofBounds_eq_ok_iff.2 ⟨hs first last rfl, rfl⟩

end Span

namespace UnitId

theorem span_inverse : Json.Inverse (Json.ofOption Span.toJson) (spanOfDocument form)
    fun span => ∀ first last, span = some (.fused first last) → first < last where
  good_of_read {v span} h first last hspan := by
    subst hspan
    unfold spanOfDocument at h
    split at h
    · cases h
    · obtain ⟨s, hs, h⟩ := map_eq_ok_iff.1 h
      cases h
      exact Span.inverse.good_of_read hs first last rfl
  read_write {span} hspan := by
    cases span with
    | none => rfl
    | some s =>
      have hread : Span.ofDocument form s.toJson = .ok s :=
        Span.inverse.read_write fun first last hs => hspan first last (congrArg some hs)
      have hnull : s.toJson ≠ .null := by cases s <;> simp [Span.toJson]
      rw [Json.ofOption, spanOfDocument, hread]
      · rfl
      · exact hnull

theorem inverse : Json.Inverse toJson (ofDocument form) Proper where
  good_of_read {v u} h := by
    unfold ofDocument at h
    split at h
    · obtain ⟨found, hfound, h⟩ := bind_eq_ok_iff.1 h
      have hgood := Json.twoFields_good (fun _ => trivial) span_inverse.good_of_read hfound
        ⟨nofun, nofun⟩
      split at h
      · cases h
        intro first last hspan
        exact hgood.2 _ (Option.join_eq_some_iff.1 hspan) first last rfl
      · cases h
    · obtain ⟨⟨device, span⟩, hitems, h⟩ := bind_eq_ok_iff.1 h
      cases h
      exact (Json.twoItems_good (fun _ => trivial) span_inverse.good_of_read hitems).2
    · cases h
  read_write {u} hu := by
    have hspan : spanOfDocument form (Json.ofOption Span.toJson u.span) = .ok u.span :=
      span_inverse.read_write hu
    have hfields := Json.twoFields_pair (a := "device_index") (b := "pe") (by decide)
      (Json.index_inverse.read_write (x := u.device) trivial) hspan
    simp only [toJson, ofDocument, hfields]
    rfl

end UnitId

theorem Node.inverse : Json.Inverse toJson (ofDocument form) fun n => n.id.Proper where
  good_of_read {v n} h := by
    unfold ofDocument at h
    split at h
    · obtain ⟨found, hfound, h⟩ := bind_eq_ok_iff.1 h
      have hgood := Json.twoFields_good UnitId.inverse.good_of_read
        Json.string_inverse.good_of_read hfound ⟨nofun, nofun⟩
      split at h
      · cases h
        exact hgood.1 _ rfl
      · cases h
    · obtain ⟨⟨id, path⟩, hitems, h⟩ := bind_eq_ok_iff.1 h
      cases h
      exact (Json.twoItems_good UnitId.inverse.good_of_read
        Json.string_inverse.good_of_read hitems).1
    · cases h
  read_write {n} hn := by
    have hid : UnitId.ofDocument form n.id.toJson = .ok n.id := UnitId.inverse.read_write hn
    have hfields := Json.twoFields_pair (a := "id") (b := "path") (by decide) hid
      (Json.string_inverse.read_write (x := n.path) trivial)
    simp only [toJson, ofDocument, hfields]
    rfl

/-! ## Nodes at any path -/

namespace RawNode

variable {n : RawNode}

/-- A node is written when its path is text, as a node at that text. -/
theorem toJson_eq_ok_iff {v : Json} :
    n.toJson = .ok v ↔ ∃ m : Node, n = m.raw ∧ m.toJson = v := by
  simp only [← node?_eq_some_iff, toJson]
  cases n.node? <;> simp

theorem exists_raw_iff : (∃ m : Node, n = m.raw) ↔ ∃ cs : List Char, n.path = Utf8.encode cs := by
  constructor
  · rintro ⟨m, rfl⟩
    exact ⟨_, rfl⟩
  · rintro ⟨cs, hpath⟩
    refine ⟨⟨n.id, String.ofList cs⟩, ?_⟩
    rw [Node.raw, String.toList_ofList, ← hpath]

/-- Nodes that are read back are the proper ones whose path is text. -/
theorem reread_iff : (∃ w, n.toJson = .ok w ∧ ofDocument form w = .ok n) ↔
    n.id.Proper ∧ ∃ cs : List Char, n.path = Utf8.encode cs := by
  rw [← exists_raw_iff]
  constructor
  · rintro ⟨w, hw, hread⟩
    obtain ⟨m, hm, hid⟩ := map_eq_ok_iff.1 hread
    refine ⟨?_, m, hid.symm⟩
    rw [← hid]
    exact Node.inverse.good_of_read hm
  · rintro ⟨hproper, m, rfl⟩
    refine ⟨m.toJson, toJson_eq_ok_iff.2 ⟨m, rfl, rfl⟩, ?_⟩
    exact map_eq_ok_iff.2 ⟨m, Node.inverse.read_write hproper, rfl⟩

/-- Whatever is read can be written. -/
theorem reread {v : Json} (h : ofDocument form v = .ok n) :
    n.id.Proper ∧ ∃ w, n.toJson = .ok w ∧ ofDocument form w = .ok n := by
  obtain ⟨m, hm, rfl⟩ := map_eq_ok_iff.1 h
  have hproper := Node.inverse.good_of_read hm
  exact ⟨hproper, reread_iff.2 ⟨hproper, exists_raw_iff.1 ⟨m, rfl⟩⟩⟩

end RawNode

/-- **Units out of documents.** Whatever value or text a span, a unit or a node is read out of, its
range ascends if it is one, and it can be written and is read back. Of all of them, also those put
together by hand, the ones that are written and read back are the ones without a range that does
not ascend, and of nodes those among them whose path is text. -/
theorem ofDocument_toJson_iff (form : Json.Form) :
    ((∀ v s, Span.ofDocument form v = .ok s →
        (∀ first last, s = .fused first last → first < last) ∧
          Span.ofDocument form s.toJson = .ok s) ∧
      ∀ s : Span, Span.ofDocument form s.toJson = .ok s ↔
        ¬ ∃ first last, s = .fused first last ∧ last ≤ first) ∧
    ((∀ v u, UnitId.ofDocument form v = .ok u →
        (∀ first last, u.span = some (.fused first last) → first < last) ∧
          UnitId.ofDocument form u.toJson = .ok u) ∧
      ∀ u : UnitId, UnitId.ofDocument form u.toJson = .ok u ↔
        ¬ ∃ first last, u.span = some (.fused first last) ∧ last ≤ first) ∧
    (∀ v n, RawNode.ofDocument form v = .ok n →
        (∀ first last, n.id.span = some (.fused first last) → first < last) ∧
          ∃ w, n.toJson = .ok w ∧ RawNode.ofDocument form w = .ok n) ∧
      ∀ n : RawNode, (∃ w, n.toJson = .ok w ∧ RawNode.ofDocument form w = .ok n) ↔
        (¬ ∃ first last, n.id.span = some (.fused first last) ∧ last ≤ first) ∧
          ∃ cs : List Char, n.path = Utf8.encode cs := by
  -- no range that does not ascend, said the other way round
  have hnone : ∀ p : Index → Index → Prop, (¬ ∃ first last, p first last ∧ last ≤ first) ↔
      ∀ first last, p first last → first < last := by
    intro p
    simp only [not_exists, not_and, Fin.not_le]
  refine ⟨⟨fun v s => Span.inverse.reread, fun s => ?_⟩,
    ⟨fun v u => UnitId.inverse.reread, fun u => ?_⟩,
    fun v n => RawNode.reread, fun n => ?_⟩
  · rw [Span.inverse.read_write_iff, hnone]
  · rw [UnitId.inverse.read_write_iff, UnitId.Proper, hnone]
  · rw [RawNode.reread_iff, UnitId.Proper, hnone]

/-- A node as a list in a text, with its unit's fields in another order and one among them that
means nothing, and the bounds of the range as a list; the same range the other way round, put
together by hand. -/
theorem ofDocument_toJson_iff_loose :
    let n : Node := ⟨⟨2, some (.fused 1 3)⟩, "/dev/npu2pe1-3"⟩
    RawNode.ofDocument .text (.arr [.obj [("pe", .obj [("fused", .arr [.int 1, .int 3])]),
      ("name", .null), ("device_index", .int 2)], .str "/dev/npu2pe1-3"]) = .ok n.raw ∧
    (∃ w, n.raw.toJson = .ok w ∧ RawNode.ofDocument .text w = .ok n.raw) ∧
    UnitId.ofDocument .text (UnitId.toJson ⟨2, some (.fused 3 1)⟩) ≠
      .ok ⟨2, some (.fused 3 1)⟩ := by
  intro n
  have hread : RawNode.ofDocument .text (.arr [.obj [("pe", .obj [("fused",
      .arr [.int 1, .int 3])]), ("name", .null), ("device_index", .int 2)],
      .str "/dev/npu2pe1-3"]) = .ok n.raw := by rfl
  refine ⟨hread, ((ofDocument_toJson_iff .text).2.2.1 _ _ hread).2, ?_⟩
  rw [Ne, (ofDocument_toJson_iff .text).2.1.2, not_not]
  exact ⟨3, 1, rfl, by decide⟩

/-- The node of a whole device in a directory that is no text has no range at all. It cannot be
written, and no document is read as this node. -/
theorem toJson_unwritable :
    let n : RawNode := ⟨⟨0, none⟩, [47, 255, 47, 110, 112, 117, 48]⟩
    RawNode.ofPath? n.path = some n ∧
    (¬ ∃ first last, n.id.span = some (.fused first last) ∧ last ≤ first) ∧
    (∀ w, n.toJson ≠ .ok w) ∧ ∀ form v, RawNode.ofDocument form v ≠ .ok n := by
  intro n
  have hpath : RawNode.ofPath? n.path = some n := by
    have hname : Utf8.encode (UnitId.mk 0 none).chars = [110, 112, 117, 48] := by decide
    have hjoin := RawNode.ofPath?_join (u := ⟨0, none⟩) (by simp [UnitId.Proper]) [47, 255]
    rwa [hname] at hjoin
  have hbytes : ¬ ∃ cs : List Char, n.path = Utf8.encode cs := by
    rintro ⟨cs, hcs⟩
    have hdecoded := Utf8.decode?_eq_some_iff.2 hcs
    simp [n, Utf8.decode?, Utf8.pieces, Utf8.follow?] at hdecoded
  refine ⟨hpath, by simp [n], fun w hw => ?_, fun form v hread => ?_⟩
  · obtain ⟨m, hm, -⟩ := RawNode.toJson_eq_ok_iff.1 hw
    exact hbytes (RawNode.exists_raw_iff.1 ⟨m, hm⟩)
  · obtain ⟨-, w, hw, hreread⟩ := RawNode.reread hread
    exact hbytes (RawNode.reread_iff.1 ⟨w, hw, hreread⟩).2

end NpuBroker
