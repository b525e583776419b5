import FileProfile.Descriptor.Refresh
import FileProfile.Descriptor.Rename
import FileProfile.Launch.Plan
import FileProfile.Proofs.ContentType.Counting

/-!
The sessions that callers can bring about.

A session is reachable when it comes from a new store by any requests in any order, the failing ones
included, while the files may change under it at any time. In every reachable session the store of
content types counts its references rightly (`Reachable.sound`).

Only a caller takes another reference to a handle by its number. What looking types up, giving them
up and shutting the store down keep (`TypeStore.Kept`), every other request keeps (`kept_after`).
-/

namespace FileProfile

namespace Action

variable {α β : Type}

/-! ## Failures -/

/-- The failure of an action, if it fails. -/
def failure? (a : Action α) (s : Session) : Option Failure :=
  match (a.runOn s).1 with
  | .ok _ => none
  | .error e => some e

theorem failure?_ok {a : Action α} {s t : Session} {x : α} (run : a.runOn s = (.ok x, t)) :
    a.failure? s = none := by
  rw [failure?, run]

theorem failure?_error {a : Action α} {s t : Session} {e : Failure}
    (run : a.runOn s = (.error e, t)) : a.failure? s = some e := by
  rw [failure?, run]

variable {P : TypeStore → Prop}

/-- Wherever the store has a property it has it after the action, also where it fails. -/
def Keeps (a : Action α) (P : TypeStore → Prop) : Prop :=
  ∀ s : Session, P s.types → P (a.runOn s).2.types

/-- An action that leaves the store alone keeps what it is like. -/
theorem keeps_of_types_eq {a : Action α} (same : ∀ s, (a.runOn s).2.types = s.types) :
    a.Keeps P := fun s sound => by
  rw [same s]
  exact sound

theorem keeps_pure (x : α) : (pure x : Action α).Keeps P :=
  keeps_of_types_eq fun _ => rfl

theorem keeps_throw (e : Failure) : (throw e : Action α).Keeps P :=
  keeps_of_types_eq fun _ => rfl

theorem keeps_bind {a : Action α} {f : α → Action β} (first : a.Keeps P)
    (rest : ∀ x, (f x).Keeps P) : (a >>= f).Keeps P := by
  intro s sound
  have between := first s sound
  rw [runOn_bind]
  generalize a.runOn s = run at between
  obtain ⟨answer, s'⟩ := run
  cases answer with
  | error e => exact between
  | ok x => exact rest x s' between

theorem keeps_tryCatch {a : Action α} {f : Failure → Action α} (first : a.Keeps P)
    (rest : ∀ e, (f e).Keeps P) : (tryCatch a f).Keeps P := by
  intro s sound
  have between := first s sound
  rw [runOn_tryCatch]
  generalize a.runOn s = run at between
  obtain ⟨answer, s'⟩ := run
  cases answer with
  | error e => exact rest e s' between
  | ok x => exact between

theorem keeps_ofExcept (x : Except Failure α) : (ofExcept x).Keeps P :=
  keeps_of_types_eq fun _ => rfl

theorem keeps_files : files.Keeps P := keeps_of_types_eq fun _ => rfl

theorem keeps_types : types.Keeps P := keeps_of_types_eq fun _ => rfl

theorem keeps_record (severity : Severity) (message : Text) :
    (record severity message).Keeps P := keeps_of_types_eq fun _ => rfl

theorem keeps_onFiles (f : FileSystem → Except Failure α × FileSystem) :
    (onFiles f).Keeps P := keeps_of_types_eq fun _ => rfl

theorem keeps_add (x : Descriptor) : (add x).Keeps P := keeps_of_types_eq fun _ => rfl

theorem keeps_change (d : DescriptorId) (f : Descriptor → Descriptor) :
    (change d f).Keeps P := keeps_of_types_eq fun _ => rfl

theorem keeps_alive (d : DescriptorId) : (alive d).Keeps P := by
  refine keeps_bind (keeps_of_types_eq fun _ => rfl) fun found => ?_
  cases found with
  | none => exact keeps_throw _
  | some x =>
    by_cases living : x.isAlive
    · simp only [living, if_true]
      exact keeps_pure x
    · simp only [living]
      exact keeps_throw _

theorem keeps_onTypes {f : TypeStore → Except Failure (α × TypeStore)}
    (keeps : ∀ t x u, P t → f t = .ok (x, u) → P u) : (onTypes f).Keeps P := by
  intro s holds
  rw [runOn_onTypes]
  cases changed : f s.types with
  | error e => exact holds
  | ok answer => exact keeps s.types answer.1 answer.2 holds changed

/-! ## Actions that leave the store alone -/

theorem keeps_noteTeardown : noteTeardown.Keeps P := by
  refine keeps_bind keeps_types fun store => ?_
  by_cases down : store.references = 0
  · rw [if_pos down]
    exact keeps_record _ _
  · rw [if_neg down]
    exact keeps_pure ()

theorem keeps_typeName (h : HandleId) : (typeName h).Keeps P :=
  keeps_of_types_eq fun _ => rfl

theorem keeps_sniffFile (path : Text) : (sniffFile path).Keeps P := by
  refine keeps_bind keeps_files fun fs => ?_
  cases fs.readStart path ContentType.sniffLength with
  | ok bytes => exact keeps_of_types_eq fun _ => rfl
  | error e => exact keeps_bind (keeps_record _ _) fun _ => keeps_pure _

theorem keeps_isExecutableType (h : HandleId) : (isExecutableType h).Keeps P := by
  refine keeps_bind keeps_types fun store => ?_
  cases store.ancestors (store.nameOf h) with
  | ok names => exact keeps_pure _
  | error e => exact keeps_bind (keeps_record _ _) fun _ => keeps_pure _

theorem keeps_launcherOf (path : Text) (h : HandleId) (locales : List Text) :
    (launcherOf path h locales).Keeps P := by
  refine keeps_bind (keeps_typeName h) fun name => ?_
  by_cases desktop : name = ContentType.desktopEntry
  · simp only [desktop, ne_eq, not_true_eq_false, if_false]
    refine keeps_bind keeps_files fun fs => ?_
    cases DesktopEntry.read fs path with
    | ok entry => exact keeps_pure _
    | error e => exact keeps_bind (keeps_record _ _) fun _ => keeps_pure _
  · simp only [ne_eq, desktop, not_false_eq_true, if_true]
    exact keeps_pure _

theorem keeps_ref (d : DescriptorId) : (ref d).Keeps P :=
  keeps_bind (keeps_alive d) fun _ => keeps_change d _

theorem keeps_plan (d : DescriptorId) (targets : List LaunchTarget) (context : Context) :
    (plan d targets context).Keeps P := by
  refine keeps_bind (keeps_alive d) fun x =>
    keeps_bind (keeps_typeName x.contentType) fun name => ?_
  by_cases desktop : name = ContentType.desktopEntry
  · rw [if_pos desktop]
    exact keeps_bind keeps_files fun _ => keeps_bind (keeps_ofExcept _)
      fun _ => keeps_pure _
  · rw [if_neg desktop]
    exact keeps_bind (keeps_ofExcept _) fun _ => keeps_pure _

theorem keeps_move (source destination : Text) : (move source destination).Keeps P :=
  keeps_bind (keeps_onFiles _) fun _ => keeps_record _ _

theorem keeps_requireFree (path : Text) : (requireFree path).Keeps P := by
  refine keeps_bind keeps_files fun _ => keeps_bind (keeps_ofExcept _)
    fun taken => ?_
  cases taken with
  | none => exact keeps_pure ()
  | some node => exact keeps_throw _

section

variable (kept : TypeStore.Kept P)

include kept

/-! ## Operations on content types -/

theorem keeps_unrefType (h : HandleId) : (unrefType h).Keeps P := by
  refine keeps_bind (keeps_onTypes fun t x u holds changed => ?_)
    fun _ => keeps_noteTeardown
  cases dropped : t.unref h with
  | error e => simp [dropped, Except.map] at changed
  | ok v =>
    have same : v = u := by simpa [dropped, Except.map] using changed
    exact same ▸ kept.unref holds dropped

theorem keeps_shutdownTypes : shutdownTypes.Keeps P := by
  refine keeps_bind (keeps_onTypes fun t x u holds changed => ?_)
    fun _ => keeps_noteTeardown
  cases ended : t.shutdown with
  | error e => simp [ended, Except.map] at changed
  | ok v =>
    have same : v = u := by simpa [ended, Except.map] using changed
    exact same ▸ kept.shutdown holds ended

theorem keeps_lookupType (name : TypeName) : (lookupType name).Keeps P :=
  keeps_onTypes fun _ _ _ holds found => kept.lookup holds found

theorem keeps_lookupForFile (path displayName : Text) :
    (lookupForFile path displayName).Keeps P := by
  refine keeps_bind (keeps_bind keeps_types fun store => ?_) fun _ =>
    keeps_bind keeps_types fun store => ?_
  · cases store.isOpen with
    | true => exact keeps_pure ()
    | false => exact keeps_throw _
  · cases store.typeOfName? displayName with
    | some name => exact keeps_lookupType kept (.text name)
    | none => exact keeps_bind (keeps_sniffFile path) (keeps_lookupType kept)

/-! ## Operations on descriptors -/

theorem keeps_classifyRegular (path displayName : Text) (mode : Int) :
    (classifyRegular path displayName mode).Keeps P := by
  refine keeps_bind (keeps_lookupForFile kept path displayName) fun h =>
    keeps_bind keeps_files fun fs => ?_
  cases fs.isExecutePermitted path mode with
  | false => exact keeps_of_types_eq fun _ => rfl
  | true => exact keeps_bind (keeps_isExecutableType h) fun _ => keeps_pure _

theorem keeps_classify (path displayName : Text) (resolved : ResolvedAttributes) :
    (classify path displayName resolved).Keeps P := by
  unfold classify
  simp only
  cases (kindOf resolved).contentType? with
  | none => exact keeps_classifyRegular kept path displayName _
  | some type => exact keeps_bind (keeps_lookupType kept (.text type)) fun _ => keeps_pure _

theorem keeps_resolve (path : Text) (context : Context) : (resolve path context).Keeps P :=
  keeps_bind keeps_files fun _ => keeps_bind keeps_files fun _ =>
    keeps_bind (keeps_ofExcept _) fun _ =>
      keeps_bind (keeps_classify kept _ _ _) fun _ =>
        keeps_bind (keeps_launcherOf _ _ _) fun _ => keeps_add _

theorem keeps_unref (d : DescriptorId) : (unref d).Keeps P := by
  refine keeps_bind (keeps_alive d) fun x =>
    keeps_bind (keeps_change d _) fun _ => ?_
  by_cases last : x.references = 1
  · rw [if_pos last]
    exact keeps_bind (keeps_unrefType kept _) fun _ => keeps_change d _
  · rw [if_neg last]
    exact keeps_pure ()

theorem keeps_apply (d : DescriptorId) (c : DescriptorChange) : (apply d c).Keeps P := by
  refine keeps_bind (keeps_alive d) fun x =>
    keeps_bind (keeps_change d _) fun _ => ?_
  cases c.contentType with
  | none => exact keeps_bind (keeps_pure ()) fun _ => keeps_change d _
  | some h =>
    exact keeps_bind (keeps_change d _) fun _ =>
      keeps_bind (keeps_unrefType kept _) fun _ => keeps_change d _

theorem keeps_refresh (d : DescriptorId) (context : Context) :
    (refresh d context).Keeps P := by
  refine keeps_bind (keeps_alive d) fun x =>
    keeps_bind (keeps_resolve kept _ _) fun fresh =>
      keeps_bind (keeps_bind (keeps_alive d) fun y =>
        keeps_bind (keeps_alive fresh) fun z => keeps_pure _) fun same => ?_
  cases same with
  | true => exact keeps_bind (keeps_unref kept fresh) fun _ => keeps_pure _
  | false => exact keeps_pure _

/-! ## Renaming -/

theorem keeps_renameEntry (d : DescriptorId) (name : Text) (context : Context) :
    (renameEntry d name context).Keeps P := by
  refine keeps_bind (keeps_alive d) fun x => keeps_bind keeps_files fun _ =>
    keeps_bind (keeps_ofExcept _) fun _ => keeps_bind (keeps_ofExcept _)
      fun _ => keeps_bind (keeps_onFiles _) fun _ =>
        keeps_bind (keeps_record _ _) fun _ => ?_
  cases x.hints with
  | none => exact keeps_pure ()
  | some hints => exact keeps_apply kept d _

theorem keeps_moveRegular (d : DescriptorId) (x : Descriptor) (destination : Identity)
    (name : Text) (classification : Classification) (launcher : Option Launcher) :
    (moveRegular d x destination name classification launcher).Keeps P :=
  keeps_bind (keeps_tryCatch (keeps_move _ _) fun _ =>
    keeps_bind (keeps_unrefType kept _) fun _ => keeps_throw _)
      fun _ => keeps_apply kept d _

theorem keeps_renamePath (d : DescriptorId) (name : Text) (context : Context) :
    (renamePath d name context).Keeps P := by
  refine keeps_bind (keeps_ofExcept _) fun fileName =>
    keeps_bind (keeps_alive d) fun x =>
      keeps_bind (keeps_requireFree _) fun _ => ?_
  by_cases regular : x.kind = .regular
  · rw [if_pos regular]
    exact keeps_bind (keeps_classifyRegular kept _ _ _) fun _ =>
      keeps_bind (keeps_launcherOf _ _ _) fun _ => keeps_moveRegular kept _ _ _ _ _ _
  · rw [if_neg regular]
    exact keeps_bind (keeps_move _ _) fun _ => keeps_apply kept d _

theorem keeps_rename (d : DescriptorId) (name : Text) (context : Context) :
    (rename d name context).Keeps P := by
  refine keeps_bind (keeps_ofExcept _) fun _ => keeps_bind (keeps_alive d)
    fun x => keeps_bind (keeps_typeName _) fun type => ?_
  by_cases desktop : type = ContentType.desktopEntry
  · rw [if_pos desktop]
    exact keeps_renameEntry kept d name context
  · rw [if_neg desktop]
    exact keeps_renamePath kept d name context

end

end Action

namespace Session

/-! ## Requests -/

/-- What a caller may ask of a session. -/
inductive Request where
  | lookupType (name : TypeName)
  | lookupForFile (path displayName : Text)
  | refType (h : HandleId)
  | unrefType (h : HandleId)
  | shutdownTypes
  | resolve (path : Text) (context : Context)
  | create (identity : Identity) (kind : FileKind) (attributes : Attributes) (flags : Int)
      (type : TypeName) (hints : Option Hints)
  | apply (d : DescriptorId) (change : DescriptorChange)
  | refresh (d : DescriptorId) (context : Context)
  | rename (d : DescriptorId) (name : Text) (context : Context)
  | plan (d : DescriptorId) (targets : List LaunchTarget) (context : Context)
  | ref (d : DescriptorId)
  | unref (d : DescriptorId)

/-- A new descriptor with the given fields and a reference to the handle of its type. -/
def create (identity : Identity) (kind : FileKind) (attributes : Attributes) (flags : Int)
    (type : TypeName) (hints : Option Hints) : Action DescriptorId := do
  let h ← Action.lookupType type
  Action.add (.new identity kind attributes flags h hints)

/-- The session after a request, answered or not. -/
def after (s : Session) : Request → Session
  | .lookupType name => ((Action.lookupType name).runOn s).2
  | .lookupForFile path displayName => ((Action.lookupForFile path displayName).runOn s).2
  | .refType h => ((Action.refType h).runOn s).2
  | .unrefType h => ((Action.unrefType h).runOn s).2
  | .shutdownTypes => (Action.shutdownTypes.runOn s).2
  | .resolve path context => ((Action.resolve path context).runOn s).2
  | .create identity kind attributes flags type hints =>
    ((create identity kind attributes flags type hints).runOn s).2
  | .apply d change => ((Action.apply d change).runOn s).2
  | .refresh d context => ((Action.refresh d context).runOn s).2
  | .rename d name context => ((Action.rename d name context).runOn s).2
  | .plan d targets context => ((Action.plan d targets context).runOn s).2
  | .ref d => ((Action.ref d).runOn s).2
  | .unref d => ((Action.unref d).runOn s).2

/-- The failure that a request is answered with, if it fails. -/
def failure? (s : Session) : Request → Option Failure
  | .lookupType name => (Action.lookupType name).failure? s
  | .lookupForFile path displayName => (Action.lookupForFile path displayName).failure? s
  | .refType h => (Action.refType h).failure? s
  | .unrefType h => (Action.unrefType h).failure? s
  | .shutdownTypes => Action.shutdownTypes.failure? s
  | .resolve path context => (Action.resolve path context).failure? s
  | .create identity kind attributes flags type hints =>
    (create identity kind attributes flags type hints).failure? s
  | .apply d change => (Action.apply d change).failure? s
  | .refresh d context => (Action.refresh d context).failure? s
  | .rename d name context => (Action.rename d name context).failure? s
  | .plan d targets context => (Action.plan d targets context).failure? s
  | .ref d => (Action.ref d).failure? s
  | .unref d => (Action.unref d).failure? s

/-- A handle can be taken again once a lookup has given it out. -/
def CanAsk (s : Session) (r : Request) : Prop := ∀ h, r = .refType h → h < s.types.handles.length

/-- The sessions that callers can bring about, the files changing under them. -/
inductive Reachable : Session → Prop where
  | start (files : FileSystem) (extensions : Table Text) (rules : Rules)
      (overrides : Table Text) : Reachable { files, types := .new extensions rules overrides }
  | ask {s : Session} (r : Request) : Reachable s → s.CanAsk r → Reachable (s.after r)
  | touch {s : Session} (files : FileSystem) : Reachable s → Reachable { s with files }

/-- A request other than for a reference to a handle by its number keeps what the store keeps. -/
theorem kept_after {P : TypeStore → Prop} (kept : TypeStore.Kept P) {s : Session}
    (holds : P s.types) {r : Request} (other : ∀ h, r ≠ .refType h) : P (s.after r).types := by
  cases r with
  | lookupType name => exact Action.keeps_lookupType kept name s holds
  | lookupForFile path displayName =>
    exact Action.keeps_lookupForFile kept path displayName s holds
  | refType h => exact absurd rfl (other h)
  | unrefType h => exact Action.keeps_unrefType kept h s holds
  | shutdownTypes => exact Action.keeps_shutdownTypes kept s holds
  | resolve path context => exact Action.keeps_resolve kept path context s holds
  | create identity kind attributes flags type hints =>
    exact Action.keeps_bind (Action.keeps_lookupType kept type)
      (fun _ => Action.keeps_add _) s holds
  | apply d change => exact Action.keeps_apply kept d change s holds
  | refresh d context => exact Action.keeps_refresh kept d context s holds
  | rename d name context => exact Action.keeps_rename kept d name context s holds
  | plan d targets context => exact Action.keeps_plan d targets context s holds
  | ref d => exact Action.keeps_ref d s holds
  | unref d => exact Action.keeps_unref kept d s holds

theorem types_after_refType (s : Session) (h : HandleId) :
    (s.after (.refType h)).types = ((s.types.ref h).toOption.getD s.types) := by
  simp only [after, Action.refType, Action.runOn_onTypes]
  cases s.types.ref h <;> rfl

theorem sound_after {s : Session} (sound : s.types.Sound) {r : Request} (can : s.CanAsk r) :
    (s.after r).types.Sound := by
  by_cases counts : ∃ h, r = .refType h
  · obtain ⟨h, rfl⟩ := counts
    rw [types_after_refType]
    cases taken : s.types.ref h with
    | error e => exact sound
    | ok t => exact TypeStore.sound_ref sound (can h rfl) taken
  · exact kept_after TypeStore.kept_sound sound fun h same => counts ⟨h, same⟩

/-- The counts are right in every session that callers can bring about. -/
theorem Reachable.sound {s : Session} (reachable : s.Reachable) : s.types.Sound := by
  induction reachable with
  | start files extensions rules overrides =>
    exact TypeStore.sound_new extensions rules overrides
  | ask r _ can ih => exact sound_after ih can
  | touch files _ ih => exact ih

/-! ## Sessions of one sort of request -/

/-- The sessions that requests of one sort bring about, the files changing under them. -/
inductive ReachableBy (allowed : Request → Bool) : Session → Prop where
  | start (files : FileSystem) (extensions : Table Text) (rules : Rules)
      (overrides : Table Text) :
      ReachableBy allowed { files, types := .new extensions rules overrides }
  | ask {s : Session} (r : Request) : ReachableBy allowed s → allowed r → s.CanAsk r →
      ReachableBy allowed (s.after r)
  | touch {s : Session} (files : FileSystem) : ReachableBy allowed s →
      ReachableBy allowed { s with files }

theorem ReachableBy.reachable {allowed : Request → Bool} {s : Session}
    (run : s.ReachableBy allowed) : s.Reachable := by
  induction run with
  | start files extensions rules overrides => exact .start files extensions rules overrides
  | ask r _ _ can ih => exact .ask r ih can
  | touch files _ ih => exact .touch files ih

end Session

end FileProfile
