import FileProfile.Proofs.ContentType.Counting

/-!
Which handles the intern table finds.

A handle stands in the table from the lookup that creates it until its last reference is given up.
Taking it up again afterwards counts it, but does not put it back, so that another handle of its
name may come to stand beside it. `TypeStore.InternedBut` names the handles that are in use in this
way; every operation keeps it (`kept_internedBut`, `InternedBut.taking`,
`InternedBut.taking_revived`).

`oneHandlePerName_iff` says exactly when handles may be compared in place of names.
-/

namespace FileProfile

namespace TypeStore

theorem exists_internedAs? {s : TypeStore} {name : TypeName} {h : HandleId}
    (stands : (name, h) ∈ s.interned) : ∃ k, s.internedAs? name = some k := by
  have hit : (s.interned.find? fun entry => entry.1 = name).isSome := by
    rw [List.find?_isSome]
    exact ⟨(name, h), stands, by simp⟩
  obtain ⟨entry, found⟩ := Option.isSome_iff_exists.mp hit
  exact ⟨entry.2, by rw [internedAs?, standing?, found, Option.map_some]⟩

/-- Each handle in use stands in the intern table under its name, except those in `revived`; no
name stands there twice. -/
structure InternedBut (s : TypeStore) (revived : List HandleId) : Prop where
  sound : s.Sound
  unique : ∀ name h k, (name, h) ∈ s.interned → (name, k) ∈ s.interned → h = k
  inside : ∀ h ∈ revived, h < s.handles.length
  interned : ∀ h, 0 < s.referencesOf h → ((s.nameOf h, h) ∈ s.interned ↔ h ∉ revived)

namespace InternedBut

variable {s : TypeStore} {revived : List HandleId} {name : TypeName} {h k : HandleId}

theorem internedAs?_eq_some_iff (tidy : s.InternedBut revived) :
    s.internedAs? name = some h ↔ (name, h) ∈ s.interned := by
  refine ⟨mem_of_internedAs?, fun stands => ?_⟩
  obtain ⟨k, found⟩ := exists_internedAs? stands
  have same := tidy.unique name h k stands (mem_of_internedAs? found)
  rw [same]
  exact found

/-- What stands in the table has not been taken up again. -/
theorem not_mem_revived (tidy : s.InternedBut revived) (stands : (name, h) ∈ s.interned) :
    h ∉ revived := by
  obtain ⟨counted, rfl⟩ := tidy.sound.interned name h stands
  exact (tidy.interned h counted).mp stands

/-! ## Taking references -/

theorem taking (tidy : s.InternedBut revived) (counted : 0 < s.referencesOf h) :
    (s.taking h).InternedBut revived where
  sound := (tidy.sound.but h).taking (lt_length_of_counted counted)
  unique := tidy.unique
  inside k taken := by
    rw [TypeStore.taking, length_count]
    exact tidy.inside k taken
  interned k used := by
    rw [nameOf_taking]
    refine tidy.interned k ?_
    rw [referencesOf_taking (lt_length_of_counted counted)] at used
    by_cases same : k = h
    · rw [same]
      exact counted
    · rw [if_neg same] at used
      omega

/-- A handle without references is taken up again outside the table. -/
theorem taking_revived (tidy : s.InternedBut revived) (inside : h < s.handles.length)
    (unused : s.referencesOf h ≤ 0) : (s.taking h).InternedBut (h :: revived) where
  sound := (tidy.sound.but h).taking inside
  unique := tidy.unique
  inside k taken := by
    rw [TypeStore.taking, length_count]
    rcases List.mem_cons.mp taken with rfl | before
    · exact inside
    · exact tidy.inside k before
  interned k used := by
    rw [nameOf_taking]
    by_cases same : k = h
    · subst same
      refine ⟨fun stands => absurd (tidy.sound.interned _ k stands).1 (Int.not_lt.mpr unused), ?_⟩
      intro apart
      exact absurd List.mem_cons_self apart
    · rw [referencesOf_taking inside, if_neg same] at used
      have before := tidy.interned k (by omega)
      rw [List.mem_cons, not_or]
      exact before.trans ⟨fun apart => ⟨same, apart⟩, fun both => both.2⟩

/-- A new handle stands in the table. -/
theorem withHandle_taking (tidy : s.InternedBut revived) (missing : s.internedAs? name = none) :
    ((s.withHandle name).taking s.handles.length).InternedBut revived := by
  have free : ∀ k, (name, k) ∉ s.interned := fun k stands => by
    obtain ⟨y, found⟩ := exists_internedAs? stands
    rw [missing] at found
    cases found
  have larger : (s.withHandle name).handles.length = s.handles.length + 1 := by
    simp [TypeStore.withHandle]
  have inside : s.handles.length < (s.withHandle name).handles.length := by omega
  exact {
    sound := (tidy.sound.withHandle name).taking inside
    unique := fun other h k first second => by
      rcases List.mem_cons.mp first with new | old <;>
        rcases List.mem_cons.mp second with new' | old'
      · exact (Prod.mk.inj new).2.trans (Prod.mk.inj new').2.symm
      · obtain ⟨rfl, rfl⟩ := Prod.mk.inj new
        exact absurd old' (free k)
      · obtain ⟨rfl, rfl⟩ := Prod.mk.inj new'
        exact absurd old (free h)
      · exact tidy.unique other h k old old'
    inside := fun k taken => by
      rw [TypeStore.taking, length_count, larger]
      exact Nat.lt_succ_of_lt (tidy.inside k taken)
    interned := fun k used => by
      rw [nameOf_taking]
      by_cases same : k = s.handles.length
      · subst same
        rw [nameOf_withHandle_self]
        refine ⟨fun _ taken => Nat.lt_irrefl _ (tidy.inside _ taken), fun _ => ?_⟩
        exact List.mem_cons_self
      · rw [referencesOf_taking inside, if_neg same, referencesOf_withHandle] at used
        have counted : 0 < s.referencesOf k := by omega
        rw [nameOf_withHandle name (lt_length_of_counted counted)]
        refine Iff.trans ⟨fun stands => ?_, List.mem_cons_of_mem _⟩ (tidy.interned k counted)
        rcases List.mem_cons.mp stands with new | old
        · exact absurd (Prod.mk.inj new).2 same
        · exact old }

/-! ## Giving references up -/

theorem mem_interned_release (s : TypeStore) (name : TypeName) (h : HandleId) :
    (name, h) ∈ s.release.interned ↔ s.release.references ≠ 0 ∧ (name, h) ∈ s.interned := by
  have left : s.release.references = s.references - 1 := rfl
  rw [left]
  simp only [TypeStore.release]
  split
  · next down => simp [down]
  · next up => simp [up]

/-- Clearing the table with the last reference to the store takes nothing away that is in use. -/
theorem release (tidy : s.InternedBut revived) {t : TypeStore} (sound : t.release.Sound)
    (length : t.handles.length = s.handles.length) (nameOf : ∀ k, t.nameOf k = s.nameOf k)
    (fewer : ∀ k, 0 < t.referencesOf k → 0 < s.referencesOf k)
    (left : ∀ name k, (name, k) ∈ t.interned → (name, k) ∈ s.interned)
    (kept : ∀ name k, (name, k) ∈ s.interned → 0 < t.referencesOf k → (name, k) ∈ t.interned) :
    t.release.InternedBut revived where
  sound := sound
  unique name h k first second :=
    tidy.unique name h k (left _ _ ((mem_interned_release t name h).mp first).2)
      (left _ _ ((mem_interned_release t name k).mp second).2)
  inside k taken := by
    show k < t.handles.length
    rw [length]
    exact tidy.inside k taken
  interned k used := by
    have used : 0 < t.referencesOf k := used
    have named : t.release.nameOf k = s.nameOf k := nameOf k
    have up := sound.references_pos (h := k) used
    rw [mem_interned_release, named]
    refine Iff.trans ⟨fun both => left _ _ both.2, fun stands => ⟨by omega, ?_⟩⟩
      (tidy.interned k (fewer k used))
    exact kept _ _ stands used

theorem unref {t : TypeStore} (tidy : s.InternedBut revived) (dropped : s.unref h = .ok t) :
    t.InternedBut revived := by
  rcases Int.lt_or_le 0 (s.referencesOf h) with counted | unused
  · have sound := sound_unref tidy.sound dropped
    rw [unref_eq counted] at dropped
    obtain rfl := Except.ok.inj dropped
    have referencesOf : ∀ k, (s.uncounted h).referencesOf k =
        s.referencesOf k - if k = h then 1 else 0 := referencesOf_dropping counted
    refine tidy.release sound (length_dropping s h) (nameOf_dropping s h) (fun k used => ?_)
      (fun name k stands => (mem_interned_uncounted.mp stands).1) fun name k stands used => ?_
    · rw [referencesOf] at used
      split at used <;> omega
    · refine mem_interned_uncounted.mpr ⟨stands, ?_⟩
      by_cases same : k = h
      · subst same
        rw [referencesOf, if_pos rfl] at used
        rw [referencesOf_count (lt_length_of_counted counted), if_pos rfl]
        exact .inr (by omega)
      · exact .inl fun equal => same (Prod.mk.inj equal).2
  · rw [unref_released unused] at dropped
    cases dropped

theorem shutdown {t : TypeStore} (tidy : s.InternedBut revived) (ended : s.shutdown = .ok t) :
    t.InternedBut revived := by
  have sound := sound_shutdown tidy.sound ended
  cases shut : s.isShut with
  | true =>
    rw [shutdown_again shut] at ended
    cases ended
  | false =>
    rw [shutdown_eq shut] at ended
    obtain rfl := Except.ok.inj ended
    exact tidy.release sound rfl (fun _ => rfl) (fun _ used => used) (fun _ _ stands => stands)
      fun _ _ stands _ => stands

/-! ## Looking types up -/

theorem lookup {t : TypeStore} (tidy : s.InternedBut revived) (found : s.lookup name = .ok (h, t)) :
    t.InternedBut revived := by
  by_cases opened : s.isOpen
  · cases known : s.rules.canonical name with
    | error e =>
      rw [lookup_of_canonical_error opened known] at found
      cases found
    | ok canonical =>
      cases stands : s.internedAs? canonical with
      | some k =>
        rw [lookup_of_internedAs? opened known stands] at found
        obtain ⟨rfl, rfl⟩ := Prod.mk.inj (Except.ok.inj found)
        exact tidy.taking (tidy.sound.interned _ _ (mem_of_internedAs? stands)).1
      | none =>
        rw [lookup_of_internedAs?_eq_none opened known stands] at found
        obtain ⟨rfl, rfl⟩ := Prod.mk.inj (Except.ok.inj found)
        exact tidy.withHandle_taking stands
  · rw [lookup_closed opened] at found
    cases found

/-- What is no longer in use need not be kept in mind. -/
theorem filter_used (tidy : s.InternedBut revived) :
    s.InternedBut (revived.filter fun h => 0 < s.referencesOf h) where
  sound := tidy.sound
  unique := tidy.unique
  inside h taken := tidy.inside h (List.mem_filter.mp taken).1
  interned h used := by
    rw [tidy.interned h used, List.mem_filter, decide_eq_true used]
    simp

/-! ## Comparing handles in place of names -/

theorem eq_of_nameOf_eq (tidy : s.InternedBut revived) (used : 0 < s.referencesOf h)
    (used' : 0 < s.referencesOf k) (first : h ∉ revived) (second : k ∉ revived)
    (same : s.nameOf h = s.nameOf k) : h = k := by
  have stands := (tidy.interned h used).mpr first
  have stands' := (tidy.interned k used').mpr second
  rw [same] at stands
  exact tidy.unique _ h k stands stands'

/-- A lookup of the name of a handle in use finds it unless it has been taken up again, or its name
is no text or stands for another one. -/
theorem lookup_nameOf_iff (tidy : s.InternedBut revived) (opened : s.isOpen)
    (used : 0 < s.referencesOf h) : (∃ t, s.lookup (s.nameOf h) = .ok (h, t)) ↔
      h ∉ revived ∧ s.rules.canonical (s.nameOf h) = .ok (s.nameOf h) := by
  refine ⟨?_, fun ⟨apart, canonical⟩ => ?_⟩
  · rintro ⟨t, finds⟩
    cases known : s.rules.canonical (s.nameOf h) with
    | error e =>
      rw [lookup_of_canonical_error opened known] at finds
      cases finds
    | ok canonical =>
      cases stands : s.internedAs? canonical with
      | some k =>
        rw [lookup_of_internedAs? opened known stands] at finds
        obtain ⟨rfl, -⟩ := Prod.mk.inj (Except.ok.inj finds)
        have stands := mem_of_internedAs? stands
        rw [(tidy.sound.interned _ _ stands).2]
        exact ⟨tidy.not_mem_revived stands, rfl⟩
      | none =>
        rw [lookup_of_internedAs?_eq_none opened known stands] at finds
        have new := (Prod.mk.inj (Except.ok.inj finds)).1
        exact absurd (lt_length_of_counted used) (new ▸ Nat.lt_irrefl _)
  · have stands := tidy.internedAs?_eq_some_iff.mpr ((tidy.interned h used).mpr apart)
    exact ⟨_, lookup_of_internedAs? opened canonical stands⟩

end InternedBut

/-- Handles in use are the same where their names are, and the name of each finds it as long as
lookups are answered. -/
structure OneHandlePerName (s : TypeStore) : Prop where
  unique : ∀ h k, 0 < s.referencesOf h → 0 < s.referencesOf k → s.nameOf h = s.nameOf k → h = k
  found : s.isOpen → ∀ h, 0 < s.referencesOf h → ∃ t, s.lookup (s.nameOf h) = .ok (h, t)

/-- Handles may be compared in place of names exactly if none that has been taken up again has a
namesake, while no lookup could give it one, and every name in use is a text and no alias. -/
theorem oneHandlePerName_iff {s : TypeStore} {revived : List HandleId}
    (tidy : s.InternedBut revived) (used : ∀ h ∈ revived, 0 < s.referencesOf h) :
    s.OneHandlePerName ↔
      (∀ h ∈ revived, ∀ k, 0 < s.referencesOf k → s.nameOf k = s.nameOf h → k = h) ∧
        (s.isOpen → revived = [] ∧
          ∀ h, 0 < s.referencesOf h → s.rules.canonical (s.nameOf h) = .ok (s.nameOf h)) := by
  refine ⟨fun one => ⟨fun h taken k counted same => ?_, fun opened => ?_⟩, fun ⟨alone, calm⟩ => ?_⟩
  · exact one.unique k h counted (used h taken) same
  · have finds := fun h counted =>
      (tidy.lookup_nameOf_iff opened (h := h) counted).mp (one.found opened h counted)
    refine ⟨List.eq_nil_iff_forall_not_mem.mpr fun h taken => ?_, fun h counted => ?_⟩
    · exact (finds h (used h taken)).1 taken
    · exact (finds h counted).2
  · refine ⟨fun h k counted counted' same => ?_, fun opened h counted => ?_⟩
    · by_cases taken : h ∈ revived
      · exact (alone h taken k counted' same.symm).symm
      · by_cases taken' : k ∈ revived
        · exact alone k taken' h counted same
        · exact tidy.eq_of_nameOf_eq counted counted' taken taken' same
    · obtain ⟨none, canonical⟩ := calm opened
      rw [tidy.lookup_nameOf_iff opened counted, none]
      exact ⟨List.not_mem_nil, canonical h counted⟩

theorem internedBut_new (extensions : Table Text) (rules : Rules) (overrides : Table Text) :
    (new extensions rules overrides).InternedBut [] where
  sound := sound_new extensions rules overrides
  unique name h k stands := absurd stands List.not_mem_nil
  inside h taken := absurd taken List.not_mem_nil
  interned h used := absurd used (by simp [new, referencesOf])

theorem kept_internedBut (revived : List HandleId) : Kept fun s => s.InternedBut revived where
  lookup tidy found := tidy.lookup found
  unref tidy dropped := tidy.unref dropped
  shutdown tidy ended := tidy.shutdown ended

end TypeStore

end FileProfile
