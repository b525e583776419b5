import FileProfile.Descriptor.Basic
import FileProfile.Log

/-!
Sessions and the actions on them.

A session holds the files, the content types in use, the descriptors, the log and the output. An
action changes a session and answers or fails; what it changed before it failed stays changed.
`Action.onFiles` and `Action.onTypes` lift operations on one part, so that the others are left
alone.
-/

namespace FileProfile

/-- The number of a descriptor, in the order of creation. -/
abbrev DescriptorId := Nat

structure Session where
  files : FileSystem
  types : TypeStore
  descriptors : List Descriptor := []
  log : List LogEntry := []
  /-- What has been printed. -/
  output : List Text := []
deriving Repr

/-- A computation that changes a session and may fail. -/
abbrev Action := ExceptT Failure (StateM Session)

namespace Action

variable {α β : Type}

/-- The answer or failure of an action, and the session that it leaves. -/
def runOn (a : Action α) (s : Session) : Except Failure α × Session := ExceptT.run a s

theorem runOn_pure (x : α) (s : Session) : (pure x : Action α).runOn s = (.ok x, s) := rfl

theorem runOn_throw (e : Failure) (s : Session) :
    (throw e : Action α).runOn s = (.error e, s) := rfl

theorem runOn_bind (a : Action α) (f : α → Action β) (s : Session) :
    (a >>= f).runOn s =
      match a.runOn s with
      | (.ok x, s') => (f x).runOn s'
      | (.error e, s') => (.error e, s') := by
  simp only [runOn, ExceptT.run, bind, ExceptT.bind, ExceptT.mk, ExceptT.bindCont, StateT.bind]
  rcases a s with ⟨answer, s'⟩
  cases answer <;> rfl

theorem runOn_bind_ok {a : Action α} {f : α → Action β} {s s' : Session} {x : α}
    (h : a.runOn s = (.ok x, s')) : (a >>= f).runOn s = (f x).runOn s' := by
  rw [runOn_bind, h]

theorem runOn_bind_error {a : Action α} {f : α → Action β} {s s' : Session} {e : Failure}
    (h : a.runOn s = (.error e, s')) : (a >>= f).runOn s = (.error e, s') := by
  rw [runOn_bind, h]

/-- A sequence answers where both parts do. -/
theorem runOn_bind_eq_ok {a : Action α} {f : α → Action β} {s t : Session} {y : β} :
    (a >>= f).runOn s = (.ok y, t) ↔
      ∃ x s', a.runOn s = (.ok x, s') ∧ (f x).runOn s' = (.ok y, t) := by
  rw [runOn_bind]
  rcases a.runOn s with ⟨answer, s'⟩
  cases answer with
  | error e => simp
  | ok x =>
    refine ⟨fun run => ⟨x, s', rfl, run⟩, ?_⟩
    rintro ⟨x', t', same, run⟩
    cases same
    exact run

/-- A sequence fails where the first part does, or the second after it. -/
theorem runOn_bind_eq_error {a : Action α} {f : α → Action β} {s t : Session} {e : Failure} :
    (a >>= f).runOn s = (.error e, t) ↔ a.runOn s = (.error e, t) ∨
      ∃ x s', a.runOn s = (.ok x, s') ∧ (f x).runOn s' = (.error e, t) := by
  rw [runOn_bind]
  rcases a.runOn s with ⟨answer, s'⟩
  cases answer with
  | error e' => simp
  | ok x =>
    refine ⟨fun run => .inr ⟨x, s', rfl, run⟩, ?_⟩
    rintro (same | ⟨x', t', same, run⟩)
    · cases same
    · cases same
      exact run

/-- What an action that answers leaves is the second part of its run. -/
theorem runOn_of_toOption {a : Action α} {s : Session} {x : α}
    (answers : (a.runOn s).1.toOption = some x) : a.runOn s = (.ok x, (a.runOn s).2) := by
  generalize a.runOn s = run at answers
  obtain ⟨answer, s'⟩ := run
  cases answer with
  | error e => exact absurd answers (by simp [Except.toOption])
  | ok y =>
    cases answers
    rfl

theorem exists_error_of_toOption {a : Action α} {s : Session}
    (fails : (a.runOn s).1.toOption = none) : ∃ e, a.runOn s = (.error e, (a.runOn s).2) := by
  generalize a.runOn s = run at fails
  obtain ⟨answer, s'⟩ := run
  cases answer with
  | error e => exact ⟨e, rfl⟩
  | ok y => cases fails

theorem runOn_tryCatch (a : Action α) (f : Failure → Action α) (s : Session) :
    (tryCatch a f).runOn s =
      match a.runOn s with
      | (.ok x, s') => (.ok x, s')
      | (.error e, s') => (f e).runOn s' := by
  simp only [runOn, ExceptT.run, tryCatch, tryCatchThe, MonadExceptOf.tryCatch, ExceptT.tryCatch,
    ExceptT.mk, bind, StateT.bind]
  rcases a s with ⟨answer, s'⟩
  cases answer <;> rfl

/-- The answer or failure of an action as an answer. -/
def outcome (a : Action α) : Action (Except Failure α) := fun s =>
  (.ok (a.runOn s).1, (a.runOn s).2)

/-! ## Parts of a session -/

/-- Adds a message to the log. -/
def record (severity : Severity) (message : Text) : Action Unit := fun s =>
  (.ok (), { s with log := s.log ++ [⟨severity, message⟩] })

/-- The answer or failure of a computation that leaves the session alone. -/
def ofExcept (x : Except Failure α) : Action α := fun s => (x, s)

def files : Action FileSystem := fun s => (.ok s.files, s)

/-- Prints a text. -/
def print (t : Text) : Action Unit := fun s => (.ok (), { s with output := s.output ++ [t] })

def types : Action TypeStore := fun s => (.ok s.types, s)

/-- Changes the files, also where the change fails half-way. -/
def onFiles (f : FileSystem → Except Failure α × FileSystem) : Action α := fun s =>
  ((f s.files).1, { s with files := (f s.files).2 })

/-- Changes the content types, which stay as they are where the change fails. -/
def onTypes (f : TypeStore → Except Failure (α × TypeStore)) : Action α := fun s =>
  match f s.types with
  | .ok (x, types) => (.ok x, { s with types })
  | .error e => (.error e, s)

/-- The descriptor with a number, released ones included. -/
def find? (d : DescriptorId) : Action (Option Descriptor) := fun s => (.ok s.descriptors[d]?, s)

/-- The failure of using a descriptor after its release. -/
def released : Failure := .disposed "FileInfo"

/-- The descriptor with a number, which must be alive. -/
def alive (d : DescriptorId) : Action Descriptor := do
  match ← find? d with
  | some x => if x.isAlive then return x else throw released
  | none => throw released

/-- Adds a descriptor. -/
def add (x : Descriptor) : Action DescriptorId := fun s =>
  (.ok s.descriptors.length, { s with descriptors := s.descriptors ++ [x] })

/-- Changes the descriptor with a number. -/
def change (d : DescriptorId) (f : Descriptor → Descriptor) : Action Unit := fun s =>
  (.ok (), { s with descriptors := s.descriptors.modify d f })

/-! ## What the parts answer -/

@[simp] theorem runOn_outcome (a : Action α) (s : Session) :
    (outcome a).runOn s = (.ok (a.runOn s).1, (a.runOn s).2) := rfl

@[simp] theorem runOn_record (severity : Severity) (message : Text) (s : Session) :
    (record severity message).runOn s =
      (.ok (), { s with log := s.log ++ [⟨severity, message⟩] }) := rfl

@[simp] theorem runOn_ofExcept (x : Except Failure α) (s : Session) :
    (ofExcept x).runOn s = (x, s) := rfl

theorem runOn_ofExcept_of_eq {x answer : Except Failure α} (same : x = answer) (s : Session) :
    (ofExcept x).runOn s = (answer, s) := congrArg (·, s) same

@[simp] theorem runOn_files (s : Session) : files.runOn s = (.ok s.files, s) := rfl

@[simp] theorem runOn_types (s : Session) : types.runOn s = (.ok s.types, s) := rfl

@[simp] theorem runOn_onFiles (f : FileSystem → Except Failure α × FileSystem) (s : Session) :
    (onFiles f).runOn s = ((f s.files).1, { s with files := (f s.files).2 }) := rfl

theorem runOn_onTypes (f : TypeStore → Except Failure (α × TypeStore)) (s : Session) :
    (onTypes f).runOn s =
      match f s.types with
      | .ok (x, types) => (.ok x, { s with types })
      | .error e => (.error e, s) := rfl

@[simp] theorem runOn_find? (d : DescriptorId) (s : Session) :
    (find? d).runOn s = (.ok s.descriptors[d]?, s) := rfl

@[simp] theorem runOn_add (x : Descriptor) (s : Session) :
    (add x).runOn s = (.ok s.descriptors.length, { s with descriptors := s.descriptors ++ [x] }) :=
  rfl

@[simp] theorem runOn_change (d : DescriptorId) (f : Descriptor → Descriptor) (s : Session) :
    (change d f).runOn s = (.ok (), { s with descriptors := s.descriptors.modify d f }) := rfl

theorem runOn_alive {d : DescriptorId} {s : Session} {x : Descriptor}
    (found : s.descriptors[d]? = some x) (living : x.isAlive) :
    (alive d).runOn s = (.ok x, s) := by
  rw [alive, runOn_bind, runOn_find?]
  simp only [found, living, if_true]
  rfl

theorem runOn_alive_released {d : DescriptorId} {s : Session}
    (gone : ∀ x, s.descriptors[d]? = some x → ¬ x.isAlive) :
    (alive d).runOn s = (.error released, s) := by
  rw [alive, runOn_bind, runOn_find?]
  cases found : s.descriptors[d]? with
  | none => rfl
  | some x =>
    simp only [gone x found]
    rfl

end Action

end FileProfile
