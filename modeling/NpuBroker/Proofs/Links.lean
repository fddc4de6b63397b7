import NpuBroker.Proofs.Enumeration
import NpuBroker.Proofs.Spelling

/-!
# Links in a directory

What is read of a link by its path is what the directory lists. A path is walked along the names of
the directory first, whatever links these lead through, and then one name further.

* `Host.names_join`: the names on the way to what is joined to a directory.
* `Host.walk_append`: a walk along more names goes on where the walk along the first ones ends.
* `Host.readLink?_eq_some_iff_mem`: a link is read where the directory lists one.
-/
namespace NpuBroker.Host

variable {h : Host}

/-! ## Names on the way -/

/-- A directory that is written without a slash at its end gets one. -/
theorem join_eq {dir name : String} (hend : (dir.toList.splitOn '/').getLast? ≠ some [])
    (hname : IsName name) : Path.join dir name = dir ++ "/" ++ name := by
  have hempty : dir ≠ "" := by
    rintro rfl
    simp at hend
  have hslash : dir.toList.getLast? ≠ some '/' := by
    intro hlast
    obtain ⟨front, hfront⟩ := List.getLast?_eq_some_iff.1 hlast
    rw [hfront, List.splitOn_append_cons_self] at hend
    simp at hend
  have hrelative : Path.isAbsolute name = false := by
    have hhead : name.toList.head? ≠ some '/' := fun hh => hname.solid (List.mem_of_head? hh)
    simpa [Path.isAbsolute] using hhead
  rw [Path.join, hrelative, if_neg Bool.false_ne_true, if_neg (not_or.2 ⟨hempty, hslash⟩)]

/-- Its names are followed by one more. -/
theorem names_join {dir name : String} (hend : (dir.toList.splitOn '/').getLast? ≠ some [])
    (hname : IsName name) : names (Path.join dir name) = names dir ++ [name] := by
  have hpieces : (Path.join dir name).toList.splitOn '/' =
      dir.toList.splitOn '/' ++ [name.toList] := by
    have happend : ("/" ++ name).toList = '/' :: name.toList := String.toList_append
    rw [join_eq hend hname, String.append_assoc, String.toList_append, happend,
      List.splitOn_append_cons_self, List.splitOn_eq_singleton hname.solid]
  have hne : name.toList ≠ [] := fun hnil => hname.ne_empty (String.ext_iff.2 hnil)
  unfold names
  dsimp only
  rw [hpieces]
  simp [hne, hend]

/-! ## Walks -/

/-- A walk along more names goes on where the walk along the first ones ends. -/
theorem walk_append {links : Nat} {p q : Place} {ns : List String}
    (hw : h.walk true links p ns = .ok q) : ∃ links', ∀ follow ms, ms ≠ [] →
      h.walk follow links p (ns ++ ms) = h.walk follow links' q ms := by
  fun_induction h.walk true links p ns with
  | case1 links p =>
    cases hw
    exact ⟨links, fun follow ms _ => rfl⟩
  | case2 links p name rest hp => cases hw
  | case3 links p rest hp ih =>
    obtain ⟨links', hrest⟩ := ih hw
    refine ⟨links', fun follow ms hms => ?_⟩
    rw [List.cons_append, walk, if_neg hp, if_pos rfl, hrest follow ms hms]
  | case4 links p rest hp hdot ih =>
    obtain ⟨links', hrest⟩ := ih hw
    refine ⟨links', fun follow ms hms => ?_⟩
    rw [List.cons_append, walk, if_neg hp, if_neg hdot, if_pos rfl, hrest follow ms hms]
  | case5 links p name rest hp hdot hdots hlong => cases hw
  | case6 links p name rest hp hdot hdots hlong hentry => cases hw
  | case7 links p name rest hp hdot hdots hlong target hentry hend => simp at hend
  | case8 p name rest hp hdot hdots hlong target hentry hend => cases hw
  | case9 p name rest hp hdot hdots hlong target hentry hend links ih =>
    obtain ⟨links', hrest⟩ := ih hw
    refine ⟨links', fun follow ms hms => ?_⟩
    have hmore : ¬ (rest ++ ms = [] ∧ (!follow) = true) := fun hh => by simp [hms] at hh
    rw [List.cons_append, walk, if_neg hp, if_neg hdot, if_neg hdots, if_neg hlong, hentry]
    refine (if_neg hmore).trans ?_
    rw [← List.append_assoc]
    exact hrest follow ms hms
  | case10 links p name rest hp hdot hdots hlong e hlink hentry ih =>
    obtain ⟨links', hrest⟩ := ih hw
    refine ⟨links', fun follow ms hms => ?_⟩
    rw [List.cons_append, walk, if_neg hp, if_neg hdot, if_neg hdots, if_neg hlong, hentry,
      ← hrest follow ms hms]
    cases e with
    | link target => exact absurd rfl (hlink target)
    | file id => rfl
    | directory => rfl

/-! ## Links -/

theorem readLink?_eq_some_iff {path target : String} : h.readLink? path = some target ↔
    ∃ p, h.locate false path = .ok p ∧ h.entry? p = some (.link target) := by
  unfold readLink?
  cases h.locate false path with
  | error e => simp
  | ok p =>
    cases he : h.entry? p with
    | none => simp [he]
    | some e => cases e <;> simp [he]

/-- One name further from a directory is what it has by that name, if it is a link. -/
theorem readLink?_join {dir name target : String} {p : Place}
    (hat : h.at? dir = .ok (p, .directory)) (hend : (dir.toList.splitOn '/').getLast? ≠ some [])
    (hname : IsName name) (hnul : '\x00' ∉ name.toList) (hsize : name.utf8ByteSize ≤ longestName)
    (hlen : (Path.join dir name).utf8ByteSize ≤ longestPath) :
    h.readLink? (Path.join dir name) = some target ↔
      h.entry? (p ++ [name]) = some (.link target) := by
  obtain ⟨hlocate, hp⟩ := at?_eq_ok_iff.1 hat
  obtain ⟨hdirnul, -, habs, hwalk⟩ := locate_eq_ok_iff.1 hlocate
  obtain ⟨links, hmore⟩ := walk_append hwalk
  have hjoinnul : '\x00' ∉ (Path.join dir name).toList := by
    simp [join_eq hend hname, hdirnul, hnul]
  have hjoinabs : isAbsolute (Path.join dir name) = true := by
    obtain ⟨rest, hdir⟩ := List.head?_eq_some_iff.1 (beq_iff_eq.1 habs)
    simp [isAbsolute, join_eq hend hname, hdir]
  -- the walk goes to the directory, and from there to the entry if there is one
  have hstep : h.walk false links p [name] =
      if (h.entry? (p ++ [name])).isSome then .ok (p ++ [name]) else .error .notFound := by
    rw [walk, if_neg (· hp), if_neg hname.ne_here, if_neg hname.ne_up, if_neg (Nat.not_lt.2 hsize)]
    cases h.entry? (p ++ [name]) with
    | none => rfl
    | some e => cases e <;> simp [walk]
  rw [readLink?_eq_some_iff]
  simp only [locate_eq_ok_iff, hjoinnul, hjoinabs, hlen, names_join hend hname,
    hmore false [name] (List.cons_ne_nil _ _), not_false_eq_true, true_and, hstep]
  constructor
  · rintro ⟨q, hq, hlink⟩
    split at hq
    · cases hq
      exact hlink
    · cases hq
  · intro hlink
    exact ⟨p ++ [name], by simp [hlink], hlink⟩

/-- **What is read is what is listed.** A link whose path is not too long is read where the
directory lists one, and with the target that it lists. -/
theorem readLink?_eq_some_iff_mem {dir name target : String} {found : List (String × Entry)}
    (hd : h.Distinct) (hf : h.list dir = .ok found)
    (hend : (dir.toList.splitOn '/').getLast? ≠ some [])
    (hname : IsName name) (hnul : '\x00' ∉ name.toList) (hsize : name.utf8ByteSize ≤ longestName)
    (hlen : (Path.join dir name).utf8ByteSize ≤ longestPath) :
    h.readLink? (Path.join dir name) = some target ↔ (name, .link target) ∈ found := by
  obtain ⟨p, hat, rfl⟩ := list_eq_ok_iff.1 hf
  have hplace : p ++ [name] ≠ [] := by simp
  rw [readLink?_join hat hend hname hnul hsize hlen, entry?, if_neg hplace,
    lookup_eq_some_iff_mem hd, List.mem_filterMap]
  constructor
  · exact fun hmem => ⟨_, hmem, child?_eq_some_iff.2 rfl⟩
  · rintro ⟨x, hx, hchild⟩
    rw [child?_eq_some_iff] at hchild
    exact hchild ▸ hx

end NpuBroker.Host
