import FileProfile.Proofs.Session.Balance

/-!
The descriptors that a session has not released.

`Session.Holds` lists them while the store of content types is open. Resolving a path adds a
descriptor to the list, dropping the reference to one takes it off, and neither can fail for a
reason of its own (`Holds.resolve`, `Holds.unref`). Renaming leaves the list as it is, whether it is
done or fails (`Holds.rename`). Once the store is shut down, it is torn down just in case nothing is
held (`Holds.shutdownTypes`).
-/

namespace FileProfile

namespace Session

/-- The store is open, and the descriptors that are not released are those of a list, each with one
reference. -/
structure Holds (s : Session) (ds : List DescriptorId) : Prop where
  sound : s.types.Sound
  balanced : s.Balanced
  unshut : s.types.isShut = false
  nodup : ds.Nodup
  held : ∀ d ∈ ds, ∃ x, s.descriptors[d]? = some x ∧ x.references = 1
  released : ∀ d x, s.descriptors[d]? = some x → d ∉ ds → x.isDisposed

/-- All descriptors are released, and the store of content types is torn down. -/
def Released (s : Session) : Prop :=
  (∀ x ∈ s.descriptors, x.isDisposed) ∧ s.types.references = 0

variable {s t : Session} {ds : List DescriptorId} {d : DescriptorId} {x : Descriptor}
  {context : Context}

theorem holds_new (files : FileSystem) (extensions : Table Text) (rules : Rules)
    (overrides : Table Text) : Holds { files, types := .new extensions rules overrides } [] where
  sound := TypeStore.sound_new extensions rules overrides
  balanced := ⟨fun x among => absurd among List.not_mem_nil, rfl, fun h => rfl⟩
  unshut := rfl
  nodup := List.nodup_nil
  held d among := absurd among List.not_mem_nil
  released d x found := by cases found

theorem isAlive_of_references (one : x.references = 1) : x.isAlive := by
  rw [Descriptor.isAlive, one]
  rfl

namespace Holds

/-- What is logged and printed does not matter. -/
theorem congr (holds : s.Holds ds) (descriptors : t.descriptors = s.descriptors)
    (types : t.types = s.types) : t.Holds ds where
  sound := types ▸ holds.sound
  balanced := holds.balanced.congr descriptors ⟨by rw [types], by rw [types], by simp [types]⟩
  unshut := types ▸ holds.unshut
  nodup := holds.nodup
  held := descriptors ▸ holds.held
  released := descriptors ▸ holds.released

theorem isOpen (holds : s.Holds ds) : s.types.isOpen := by
  have counted := holds.balanced.references
  rw [TypeStore.ownerCount, holds.unshut] at counted
  have up : 0 < s.types.references := by
    simp only [Bool.false_eq_true, if_false] at counted
    omega
  simp [TypeStore.isOpen, TypeStore.isTornDown, holds.unshut, up]

/-- A descriptor that is held takes part in what happens to it. -/
theorem exists_living (holds : s.Holds ds) (among : d ∈ ds) :
    ∃ x, s.descriptors[d]? = some x ∧ x.isAlive := by
  obtain ⟨x, found, one⟩ := holds.held d among
  exact ⟨x, found, isAlive_of_references one⟩

/-- A descriptor that is held is changed but keeps its reference. -/
theorem set (holds : s.Holds ds) (found : s.descriptors[d]? = some x) {y : Descriptor}
    (among : d ∈ ds) (descriptors : t.descriptors = s.descriptors.set d y)
    (references : y.references = x.references) (sound : t.types.Sound) (balanced : t.Balanced)
    (isShut : t.types.isShut = s.types.isShut) : t.Holds ds where
  sound
  balanced
  unshut := isShut.trans holds.unshut
  nodup := holds.nodup
  held k within := by
    obtain ⟨z, there, one⟩ := holds.held k within
    rw [descriptors, List.getElem?_set]
    by_cases same : d = k
    · rw [← same, found] at there
      obtain rfl := Option.some.inj there
      rw [if_pos same, if_pos (List.getElem?_eq_some_iff.mp found).1]
      exact ⟨y, rfl, references.trans one⟩
    · rw [if_neg same]
      exact ⟨z, there, one⟩
  released k z there outside := by
    have apart : d ≠ k := fun same => outside (same ▸ among)
    rw [descriptors, List.getElem?_set_ne apart] at there
    exact holds.released k z there outside

/-! ## Resolving and releasing -/

/-- Resolving adds a descriptor with the attributes that were resolved. -/
theorem resolve (holds : s.Holds ds) (context : Context) {path : Text}
    {resolved : ResolvedAttributes}
    (looked : s.files.resolveAttributes (s.files.absolute path) = .ok resolved)
    (tells : s.types.Tells s.files (s.files.absolute path)
      (Identity.mk (s.files.absolute path)).displayName (Action.kindOf resolved)) :
    ∃ y t, (Action.resolve path context).runOn s = (.ok s.descriptors.length, t) ∧
      t.Holds (ds ++ [s.descriptors.length]) ∧ t.files = s.files ∧ s.types.SameRules t.types ∧
      t.descriptors = s.descriptors ++ [y] ∧ y.attributes = resolved.attributes := by
  have viewed : s.files.resolveAttributes
      (Identity.forPath s.files.workingDirectory path).path = .ok resolved := looked
  obtain ⟨h, types, log, run, took⟩ :=
    Action.runOn_resolve holds.sound holds.isOpen context viewed tells
  have balanced := balanced_after (r := .resolve path context) holds.sound holds.balanced rfl
  rw [after, run] at balanced
  have fresh : s.descriptors.length ∉ ds := fun among => by
    obtain ⟨x, found, -⟩ := holds.held _ among
    rw [List.getElem?_eq_none (Nat.le_refl _)] at found
    cases found
  refine ⟨_, _, run, ?_, rfl, took.toSameRules, rfl, rfl⟩
  exact {
    sound := took.sound
    balanced
    unshut := took.isShut.trans holds.unshut
    nodup := List.nodup_append.mpr ⟨holds.nodup, by simp, fun k among l single same =>
      fresh (List.mem_singleton.mp single ▸ same ▸ among)⟩
    held := fun k among => by
      rcases List.mem_append.mp among with old | new
      · obtain ⟨x, found, one⟩ := holds.held k old
        refine ⟨x, ?_, one⟩
        rw [List.getElem?_append_left (List.getElem?_eq_some_iff.mp found).1]
        exact found
      · rw [List.mem_singleton.mp new, List.getElem?_concat_length]
        exact ⟨_, rfl, rfl⟩
    released := fun k x found outside => by
      rw [List.mem_append, not_or, List.mem_singleton] at outside
      have inside : k < s.descriptors.length := by
        have bound := (List.getElem?_eq_some_iff.mp found).1
        rw [List.length_append, List.length_singleton] at bound
        exact Nat.lt_of_le_of_ne (Nat.le_of_lt_succ bound) outside.2
      rw [List.getElem?_append_left inside] at found
      exact holds.released k x found outside.1 }

/-- A descriptor that is held can be released. -/
theorem unref (holds : s.Holds (d :: ds)) :
    ∃ t, (Action.unref d).runOn s = (.ok (), t) ∧ t.Holds ds := by
  obtain ⟨x, found, one⟩ := holds.held d List.mem_cons_self
  have living := isAlive_of_references one
  obtain ⟨outside, nodup⟩ := List.nodup_cons.mp holds.nodup
  obtain ⟨types, log, run, dropped⟩ := Action.runOn_unref_last holds.sound found one
    (holds.balanced.held found living)
  have balanced := balanced_after (r := .unref d) holds.sound holds.balanced rfl
  rw [after, run] at balanced
  refine ⟨_, run, ?_⟩
  exact {
    sound := dropped.sound
    balanced
    unshut := dropped.isShut.trans holds.unshut
    nodup
    held := fun k among => by
      obtain ⟨z, there, one'⟩ := holds.held k (List.mem_cons_of_mem _ among)
      have apart : d ≠ k := fun same => outside (same ▸ among)
      exact ⟨z, (List.getElem?_set_ne apart).trans there, one'⟩
    released := fun k z there other => by
      by_cases same : d = k
      · rw [← same, List.getElem?_set_self (List.getElem?_eq_some_iff.mp found).1] at there
        rw [← Option.some.inj there]
        rfl
      · rw [List.getElem?_set_ne same] at there
        refine holds.released k z there fun within => ?_
        rcases List.mem_cons.mp within with rfl | later
        · exact same rfl
        · exact other later }

theorem unrefAll (holds : s.Holds ds) :
    ∃ t, (Action.unrefAll ds).runOn s = (.ok (), t) ∧ t.Holds [] := by
  induction ds generalizing s with
  | nil => exact ⟨s, rfl, holds⟩
  | cons d rest ih =>
    obtain ⟨u, drops, others⟩ := holds.unref
    obtain ⟨t, run, none⟩ := ih others
    refine ⟨t, ?_, none⟩
    rw [Action.unrefAll, Action.runOn_bind_ok drops, run]

/-! ## Renaming -/

/-- A renaming takes and gives up handles of content types, but no descriptor. -/
theorem rename (holds : s.Holds ds) (among : d ∈ ds) {name : Text} {answer : Except Failure Unit}
    (run : (Action.rename d name context).runOn s = (answer, t)) : t.Holds ds := by
  have sound : t.types.Sound := by
    have kept := sound_after holds.sound (r := .rename d name context) nofun
    rwa [after, run] at kept
  have balanced := balanced_after (r := .rename d name context) holds.sound holds.balanced rfl
  rw [after, run] at balanced
  cases answer with
  | ok _ =>
    obtain ⟨x, y, renamed⟩ := renamed_of_rename holds.sound run
    refine holds.set renamed.found among renamed.descriptors renamed.references sound balanced ?_
    rcases renamed.types with ⟨same, -⟩ | ⟨type, u, took, dropped⟩
    · rw [same]
    · exact dropped.isShut.trans took.isShut
  | error e =>
    obtain ⟨x, found, one⟩ := holds.held d among
    have unchanged := (ledger_nil_iff.mpr holds.balanced).unchanged_of_rename holds.sound run
    refine holds.set found among ?_ rfl sound balanced unchanged.isShut
    obtain ⟨inside, here⟩ := List.getElem?_eq_some_iff.mp found
    rw [unchanged.descriptors, ← here, List.set_getElem_self]

/-! ## Shutting down -/

theorem shutdownTypes (holds : s.Holds ds) :
    ∃ t, Action.shutdownTypes.runOn s = (.ok (), t) ∧ (t.Released ↔ ds = []) := by
  obtain ⟨log, run⟩ := Action.runOn_shutdownTypes holds.unshut
  refine ⟨_, run, fun released => ?_, fun none => ?_⟩
  · refine List.eq_nil_iff_forall_not_mem.mpr fun d among => ?_
    obtain ⟨x, found, one⟩ := holds.held d among
    have gone := released.1 x (List.mem_of_getElem? found)
    rw [Descriptor.isDisposed, one] at gone
    cases gone
  -- Without living descriptors the store is referenced by its owner alone.
  · have disposed : ∀ x ∈ s.descriptors, x.isDisposed := by
      intro x within
      obtain ⟨d, found⟩ := List.mem_iff_getElem?.mp within
      exact holds.released d x found (by rw [none]; exact List.not_mem_nil)
    have living : s.livingCount = 0 :=
      List.countP_eq_zero.mpr fun x within => by simp [disposed x within]
    have counted := holds.balanced.references
    rw [TypeStore.ownerCount, holds.unshut, living] at counted
    refine ⟨disposed, ?_⟩
    show s.types.references - 1 = 0
    rw [counted]
    rfl

end Holds

end Session

end FileProfile
