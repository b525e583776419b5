import FileProfile.Descriptor.Rename
import FileProfile.Proofs.Session.Types

/-!
What changing a descriptor and moving its file do to a session.

Each operation has one lemma for every way it can end, which says the whole session that it leaves.
Replacing the handle of a descriptor is the only change of a living descriptor that can fail: a
handle whose references have all been dropped cannot give up another (`runOn_apply_released`).
-/

namespace FileProfile

/-- The descriptor after all parts of a change. -/
def DescriptorChange.applied (c : DescriptorChange) (x : Descriptor) : Descriptor :=
  c.applyMarks { c.applyNames x with contentType := c.contentType.getD x.contentType }

/-- The descriptor after the parts of a change that come before the old handle is given up. -/
def DescriptorChange.begun (c : DescriptorChange) (x : Descriptor) : Descriptor :=
  { c.applyNames x with contentType := c.contentType.getD x.contentType }

namespace Action

variable {s : Session} {d : DescriptorId} {x : Descriptor}

theorem alive_or_gone (s : Session) (d : DescriptorId) :
    (∃ x, s.descriptors[d]? = some x ∧ x.isAlive) ∨
      ∀ x, s.descriptors[d]? = some x → ¬ x.isAlive := by
  by_cases alive : ∃ x, s.descriptors[d]? = some x ∧ x.isAlive
  · exact .inl alive
  · exact .inr fun x found living => alive ⟨x, found, living⟩

/-! ## Changing a descriptor -/

theorem modify_eq_set {l : List Descriptor} (found : l[d]? = some x) (f : Descriptor → Descriptor) :
    l.modify d f = l.set d (f x) := by
  refine List.ext_getElem? fun i => ?_
  rw [List.getElem?_modify, List.getElem?_set]
  by_cases here : d = i
  · subst here
    have inside := (List.getElem?_eq_some_iff.mp found).1
    rw [found, if_pos rfl, if_pos inside]
    simp
  · simp [here]

theorem runOn_apply_keeping (found : s.descriptors[d]? = some x) (living : x.isAlive)
    {c : DescriptorChange} (keeping : c.contentType = none) :
    (apply d c).runOn s = (.ok (), { s with descriptors := s.descriptors.modify d c.applied }) := by
  have whole : c.applyMarks ∘ c.applyNames = c.applied := by
    funext y
    simp only [DescriptorChange.applied, keeping, Option.getD_none]
    rfl
  unfold apply
  rw [runOn_bind_ok (runOn_alive found living), runOn_bind_ok (runOn_change _ _ s)]
  simp only [keeping]
  rw [runOn_change]
  simp only [List.modify_modify_eq, whole]

theorem begun_modify (d : DescriptorId) {c : DescriptorChange} {k : HandleId}
    (replacing : c.contentType = some k) (l : List Descriptor) :
    (l.modify d c.applyNames).modify d (fun y => { y with contentType := k }) =
      l.modify d c.begun := by
  rw [List.modify_modify_eq]
  congr 1
  funext y
  simp only [DescriptorChange.begun, replacing, Option.getD_some, Function.comp_apply]

/-- A new handle is put down before the old one is given up. -/
theorem runOn_apply_begun (found : s.descriptors[d]? = some x) (living : x.isAlive)
    {c : DescriptorChange} {k : HandleId} (replacing : c.contentType = some k) :
    (apply d c).runOn s = (do
      unrefType x.contentType
      change d c.applyMarks).runOn { s with descriptors := s.descriptors.modify d c.begun } := by
  unfold apply
  rw [runOn_bind_ok (runOn_alive found living), runOn_bind_ok (runOn_change _ _ s)]
  simp only [replacing]
  rw [runOn_bind_ok (runOn_change _ _ _)]
  simp only [begun_modify d replacing]

theorem runOn_apply_replacing (sound : s.types.Sound) (found : s.descriptors[d]? = some x)
    (living : x.isAlive) {c : DescriptorChange} {k : HandleId} (replacing : c.contentType = some k)
    (counted : 0 < s.types.referencesOf x.contentType) : ∃ t log, (apply d c).runOn s =
      (.ok (), { s with types := t, descriptors := s.descriptors.modify d c.applied, log }) ∧
      TypeStore.Dropped s.types x.contentType t := by
  obtain ⟨t, log, drops, dropped⟩ := runOn_unrefType
    (s := { s with descriptors := s.descriptors.modify d c.begun }) sound counted
  refine ⟨t, log, ?_, dropped⟩
  rw [runOn_apply_begun found living replacing, runOn_bind_ok drops, runOn_change,
    List.modify_modify_eq]
  rfl

/-- A handle that has been given up too often stops the change half-way. -/
theorem runOn_apply_released (found : s.descriptors[d]? = some x) (living : x.isAlive)
    {c : DescriptorChange} {k : HandleId} (replacing : c.contentType = some k)
    (unused : s.types.referencesOf x.contentType ≤ 0) : (apply d c).runOn s =
      (.error (s.types.released x.contentType),
        { s with descriptors := s.descriptors.modify d c.begun }) := by
  have fails := runOn_unrefType_released
    (s := { s with descriptors := s.descriptors.modify d c.begun }) unused
  rw [runOn_apply_begun found living replacing, runOn_bind_error fails]

/-! ## Counting references to a descriptor -/

theorem runOn_ref (found : s.descriptors[d]? = some x) (living : x.isAlive) :
    (ref d).runOn s = (.ok (), { s with
      descriptors := s.descriptors.set d { x with references := x.references + 1 } }) := by
  unfold ref
  rw [runOn_bind_ok (runOn_alive found living), runOn_change, modify_eq_set found]

theorem runOn_ref_released (gone : ∀ x, s.descriptors[d]? = some x → ¬ x.isAlive) :
    (ref d).runOn s = (.error released, s) := by
  unfold ref
  rw [runOn_bind_error (runOn_alive_released gone)]

theorem runOn_unref_released (gone : ∀ x, s.descriptors[d]? = some x → ¬ x.isAlive) :
    (unref d).runOn s = (.error released, s) := by
  unfold unref
  rw [runOn_bind_error (runOn_alive_released gone)]

/-- A reference among others is only counted. -/
theorem runOn_unref_more (found : s.descriptors[d]? = some x) (living : x.isAlive)
    (more : x.references ≠ 1) : (unref d).runOn s = (.ok (), { s with
      descriptors := s.descriptors.set d { x with references := x.references - 1 } }) := by
  unfold unref
  rw [runOn_bind_ok (runOn_alive found living), runOn_bind_ok (runOn_change _ _ s), if_neg more,
    modify_eq_set found, runOn_pure]

/-- The last reference gives up the handle and the hints. -/
theorem runOn_unref_last (sound : s.types.Sound) (found : s.descriptors[d]? = some x)
    (last : x.references = 1) (counted : 0 < s.types.referencesOf x.contentType) : ∃ t log,
    (unref d).runOn s = (.ok (), { s with
      types := t
      descriptors := s.descriptors.set d { x with references := 0, hints := none }
      log }) ∧
      TypeStore.Dropped s.types x.contentType t := by
  have living : x.isAlive := by
    rw [Descriptor.isAlive, last]
    rfl
  obtain ⟨t, log, drops, dropped⟩ := runOn_unrefType (s := { s with
    descriptors := s.descriptors.modify d fun y => { y with references := y.references - 1 } })
    sound counted
  have emptied : (s.descriptors.modify d fun y => { y with references := y.references - 1 }).modify
      d (fun y => { y with hints := none }) =
        s.descriptors.set d { x with references := 0, hints := none } := by
    rw [List.modify_modify_eq, modify_eq_set found, Function.comp_apply, last]
    rfl
  refine ⟨t, log, ?_, dropped⟩
  unfold unref
  rw [runOn_bind_ok (runOn_alive found living), runOn_bind_ok (runOn_change _ _ s), if_pos last,
    runOn_bind_ok drops, runOn_change, emptied]

/-- The last reference is counted even where the handle has nothing left to give up. -/
theorem runOn_unref_last_released (found : s.descriptors[d]? = some x) (last : x.references = 1)
    (unused : s.types.referencesOf x.contentType ≤ 0) : (unref d).runOn s =
      (.error (s.types.released x.contentType), { s with
        descriptors := s.descriptors.set d { x with references := 0 } }) := by
  have living : x.isAlive := by
    rw [Descriptor.isAlive, last]
    rfl
  have counted : (s.descriptors.modify d fun y => { y with references := y.references - 1 }) =
      s.descriptors.set d { x with references := 0 } := by
    rw [modify_eq_set found, last]
    rfl
  have fails := runOn_unrefType_released (s := { s with
    descriptors := s.descriptors.set d { x with references := 0 } }) unused
  unfold unref
  rw [runOn_bind_ok (runOn_alive found living), runOn_bind_ok (runOn_change _ _ s), if_pos last,
    counted, runOn_bind_error fails]

/-! ## Moving a file -/

theorem runOn_move {source destination : Text} {fs : FileSystem}
    (moves : s.files.rename source destination = .ok fs) : ∃ log,
    (move source destination).runOn s = (.ok (), { s with files := fs, log }) := by
  unfold move
  rw [runOn_bind, runOn_onFiles, moves]
  exact ⟨_, runOn_record _ _ _⟩

theorem runOn_move_error {source destination : Text} {e : SystemError}
    (fails : s.files.rename source destination = .error e) :
    (move source destination).runOn s = (.error (e.failureOn source), s) := by
  unfold move
  rw [runOn_bind, runOn_onFiles, fails]

theorem runOn_requireFree {path : Text} (free : s.files.lstatIfPresent path = .ok none) :
    (requireFree path).runOn s = (.ok (), s) := by
  unfold requireFree
  rw [runOn_bind_ok (runOn_files s), runOn_bind, runOn_ofExcept, free]
  rfl

theorem runOn_requireFree_unseen {path : Text} {c : SystemError}
    (unseen : s.files.lstatIfPresent path = .error c) :
    (requireFree path).runOn s = (.error (c.failureOn path), s) := by
  unfold requireFree
  rw [runOn_bind_ok (runOn_files s), runOn_bind, runOn_ofExcept, unseen]
  rfl

/-- Where a path is taken or cannot be looked at, nothing happens. -/
theorem runOn_requireFree_error {path : Text} (taken : s.files.lstatIfPresent path ≠ .ok none) :
    ∃ e, (requireFree path).runOn s = (.error e, s) ∧
      (e = .alreadyExists path ∨
        ∃ c, s.files.lstatIfPresent path = .error c ∧ e = c.failureOn path) := by
  cases seen : s.files.lstatIfPresent path with
  | error c => exact ⟨_, runOn_requireFree_unseen seen, .inr ⟨c, rfl, rfl⟩⟩
  | ok found =>
    unfold requireFree
    rw [runOn_bind_ok (runOn_files s), runOn_bind, runOn_ofExcept, seen]
    cases found with
    | none => exact absurd seen taken
    | some node => exact ⟨_, rfl, .inl rfl⟩

end Action

end FileProfile
