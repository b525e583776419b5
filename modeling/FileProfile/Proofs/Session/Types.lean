import FileProfile.Proofs.ContentType.Counting
import FileProfile.Session.Types

/-!
What taking and giving up references to content types does to a session.

Taking a reference to a handle changes nothing besides the store (`runOn_refType`), and nothing at
all where the store refuses (`runOn_refType_error`). Dropping a reference and shutting the store
down change the store and tell in the log whether that tore it down (`runOn_noting`). Where the
store refuses, nothing happens (`runOn_noting_error`).
-/

namespace FileProfile

/-- What is told when the store is torn down. -/
def LogEntry.teardown : LogEntry := ⟨.debug, "Content type database torn down"⟩

namespace Action

variable {s : Session} {h : HandleId}

theorem runOn_refType {t : TypeStore} (taken : s.types.ref h = .ok t) :
    (refType h).runOn s = (.ok (), { s with types := t }) := by
  rw [refType, runOn_onTypes, taken]
  rfl

theorem runOn_refType_error {e : Failure} (refused : s.types.ref h = .error e) :
    (refType h).runOn s = (.error e, s) := by
  rw [refType, runOn_onTypes, refused]
  rfl

theorem runOn_noteTeardown (s : Session) : noteTeardown.runOn s =
    (.ok (), { s with
      log := s.log ++ if s.types.references = 0 then [LogEntry.teardown] else [] }) := by
  unfold noteTeardown
  rw [runOn_bind_ok (runOn_types s)]
  by_cases down : s.types.references = 0
  · rw [if_pos down, if_pos down]
    exact runOn_record _ _ s
  · rw [if_neg down, if_neg down, List.append_nil]
    rfl

/-- Giving something up in the store tells whether that tore it down. -/
theorem runOn_noting {f : TypeStore → Except Failure TypeStore} {t : TypeStore}
    (changes : f s.types = .ok t) :
    (do
      onTypes fun store => (f store).map fun u => ((), u)
      noteTeardown).runOn s = (.ok (), { s with
        types := t
        log := s.log ++ if t.references = 0 then [LogEntry.teardown] else [] }) := by
  have gives : (onTypes fun store => (f store).map fun u => ((), u)).runOn s =
      (.ok (), { s with types := t }) := by
    rw [runOn_onTypes, changes]
    rfl
  rw [runOn_bind_ok gives, runOn_noteTeardown]

theorem runOn_noting_error {f : TypeStore → Except Failure TypeStore} {e : Failure}
    (fails : f s.types = .error e) :
    (do
      onTypes fun store => (f store).map fun u => ((), u)
      noteTeardown).runOn s = (.error e, s) := by
  have refuses : (onTypes fun store => (f store).map fun u => ((), u)).runOn s = (.error e, s) := by
    rw [runOn_onTypes, fails]
    rfl
  rw [runOn_bind_error refuses]

theorem runOn_unrefType (sound : s.types.Sound) (counted : 0 < s.types.referencesOf h) :
    ∃ t log, (unrefType h).runOn s = (.ok (), { s with types := t, log }) ∧
      TypeStore.Dropped s.types h t := by
  obtain ⟨t, drops, dropped⟩ := TypeStore.unref_dropped sound counted
  exact ⟨t, _, runOn_noting (f := fun store => store.unref h) drops, dropped⟩

theorem runOn_unrefType_released (unused : s.types.referencesOf h ≤ 0) :
    (unrefType h).runOn s = (.error (s.types.released h), s) :=
  runOn_noting_error (f := fun store => store.unref h) (TypeStore.unref_released unused)

/-- The owner gives up its reference once. -/
theorem runOn_shutdownTypes (up : s.types.isShut = false) : ∃ log, shutdownTypes.runOn s =
    (.ok (), { s with types := { s.types with isShut := true }.release, log }) :=
  ⟨_, runOn_noting (f := TypeStore.shutdown) (TypeStore.shutdown_eq up)⟩

theorem runOn_shutdownTypes_again (shut : s.types.isShut = true) :
    shutdownTypes.runOn s = (.error TypeStore.closed, s) :=
  runOn_noting_error (f := TypeStore.shutdown) (TypeStore.shutdown_again shut)

end Action

end FileProfile
