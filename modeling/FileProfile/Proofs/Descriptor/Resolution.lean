import FileProfile.Descriptor.Resolve
import FileProfile.Proofs.ContentType.Counting

/-!
What resolving a path answers.

The content type, the hints and the flags of a file are told by pure functions of the file system
and the rules (`TypeStore.typeOf`, `FileSystem.launcherAt`, `Session.described`). `runOn_resolve`
shows that resolving adds exactly the descriptor that they give, with one reference to the handle of
its type. Apart from the log nothing else changes, and nothing at all where resolving fails
(`resolve_eq_error`). It fails for one of three reasons (`Session.Unresolved`): the path cannot be
looked at, the store is not open, or what the contents of a regular file tell is no text and so not
the name of a type (`TypeStore.Tells`).
-/

namespace FileProfile

/-! ## What files tell -/

namespace FileSystem

/-- The type told by the contents of a file, which may be anything where they cannot be read. -/
def sniffed (fs : FileSystem) (rules : Rules) (path : Text) : TypeName :=
  ((fs.readStart path ContentType.sniffLength).toOption.map (ContentType.sniff rules)).getD
    (.text ContentType.octetStream)

/-- What the entry at a path says about launching, where its type is that of desktop entries. -/
def launcherAt (fs : FileSystem) (path : Text) (type : TypeName) (locales : List Text) :
    Option Launcher :=
  if type = .text ContentType.desktopEntry then
    (DesktopEntry.read fs path).toOption.map fun entry => DesktopEntry.launcher entry locales
  else none

end FileSystem

/-- The name that a type is interned under, as far as it is told by a text. -/
def Rules.internedName (rules : Rules) : TypeName → TypeName
  | .text type => rules.canonicalName type
  | .inherited key => .inherited key

namespace TypeStore

/-- What is told of the type of a regular file, by its name and else by its contents. -/
def told (store : TypeStore) (fs : FileSystem) (path name : Text) : TypeName :=
  match store.typeOfName? name with
  | some type => .text type
  | none => fs.sniffed store.rules path

/-- What is told of the type of a file of a kind is a text, as it has to be to be looked up. -/
def Tells (store : TypeStore) (fs : FileSystem) (path name : Text) (kind : FileKind) : Prop :=
  kind = .regular → (store.told fs path name).isText

instance (store : TypeStore) (fs : FileSystem) (path name : Text) (kind : FileKind) :
    Decidable (store.Tells fs path name kind) :=
  inferInstanceAs (Decidable (_ → _))

/-- The canonical type of a regular file. -/
def typeOfRegular (store : TypeStore) (fs : FileSystem) (path name : Text) : TypeName :=
  store.rules.internedName (store.told fs path name)

/-- The canonical type of a file of a kind. -/
def typeOf (store : TypeStore) (fs : FileSystem) (path name : Text) (kind : FileKind) : TypeName :=
  match kind.contentType? with
  | none => store.typeOfRegular fs path name
  | some type => store.rules.canonicalName type

/-- Whether a type is one of programs, itself or by its ancestors. -/
def isProgram (rules : Rules) (type : TypeName) : Bool :=
  match rules.ancestors type with
  | .ok names => names.any fun name => name ∈ ContentType.executableTypes.map TypeName.text
  | .error _ => false

/-- What is told of a file depends on the rules and tables alone. -/
theorem SameRules.told {s t : TypeStore} (same : s.SameRules t) : t.told = s.told := by
  funext fs path name
  simp only [TypeStore.told, typeOfName?, same.rules, same.overrides, same.extensions]

theorem SameRules.typeOf {s t : TypeStore} (same : s.SameRules t) : t.typeOf = s.typeOf := by
  funext fs path name kind
  simp only [TypeStore.typeOf, typeOfRegular, same.told, same.rules]

theorem SameRules.tells_iff {s t : TypeStore} (same : s.SameRules t) {fs : FileSystem}
    {path name : Text} {kind : FileKind} :
    t.Tells fs path name kind ↔ s.Tells fs path name kind := by
  rw [Tells, Tells, same.told]

/-- A type that is told as a text is looked up under its canonical name. -/
theorem canonical_told {store : TypeStore} {fs : FileSystem} {path name : Text}
    (tells : (store.told fs path name).isText) :
    store.rules.canonical (store.told fs path name) = .ok (store.typeOfRegular fs path name) := by
  unfold typeOfRegular
  cases h : store.told fs path name with
  | text type => rfl
  | inherited key =>
    rw [h] at tells
    cases tells

theorem canonical_told_error {store : TypeStore} {fs : FileSystem} {path name : Text}
    (silent : ¬ (store.told fs path name).isText) :
    store.rules.canonical (store.told fs path name) = .error Rules.unnamed := by
  cases h : store.told fs path name with
  | text type =>
    rw [h] at silent
    exact absurd rfl silent
  | inherited key => rfl

end TypeStore

/-- The descriptor of a regular or other file whose attributes have been resolved, `h` being the
handle of its type. -/
def Session.described (s : Session) (identity : Identity) (locales : List Text)
    (resolved : ResolvedAttributes) (h : HandleId) : Descriptor :=
  let kind := Action.kindOf resolved
  let type := s.types.typeOf s.files identity.path identity.displayName kind
  let permitted := kind = .regular &&
    s.files.isExecutePermitted identity.path resolved.attributes.mode
  let launcher := s.files.launcherAt identity.path type locales
  .new identity kind resolved.attributes
    (computeFlags resolved.link (permitted && TypeStore.isProgram s.types.rules type) permitted
      (launcher.map Launcher.isLaunchable))
    h (launcher.map Launcher.hints)

/-- Only the type of a regular file depends on the file. -/
theorem FileKind.eq_regular_of_contentType? {kind : FileKind} (untyped : kind.contentType? = none) :
    kind = .regular := by
  cases kind <;> simp [FileKind.contentType?] at untyped ⊢

namespace Action

/-! ## Content types -/

theorem runOn_sniffFile (path : Text) (s : Session) : ∃ log,
    (sniffFile path).runOn s = (.ok (s.files.sniffed s.types.rules path), { s with log }) ∧
      (¬ (s.files.sniffed s.types.rules path).isText → log = s.log) := by
  unfold sniffFile FileSystem.sniffed
  rw [runOn_bind_ok (runOn_files s)]
  cases s.files.readStart path ContentType.sniffLength with
  | ok bytes => exact ⟨s.log, rfl, fun _ => rfl⟩
  | error e => exact ⟨_, rfl, fun silent => absurd rfl silent⟩

theorem runOn_lookupType {s : Session} {name : TypeName} {h : HandleId} {t : TypeStore}
    (found : s.types.lookup name = .ok (h, t)) :
    (lookupType name).runOn s = (.ok h, { s with types := t }) := by
  rw [lookupType, runOn_onTypes, found]

theorem runOn_lookupType_error {s : Session} {name : TypeName} {e : Failure}
    (fails : s.types.lookup name = .error e) : (lookupType name).runOn s = (.error e, s) := by
  rw [lookupType, runOn_onTypes, fails]

theorem runOn_lookupType_closed {s : Session} (shut : ¬ s.types.isOpen) (name : TypeName) :
    (lookupType name).runOn s = (.error TypeStore.closed, s) :=
  runOn_lookupType_error (TypeStore.lookup_closed shut name)

theorem runOn_requireOpen {s : Session} (opened : s.types.isOpen) :
    requireOpen.runOn s = (.ok (), s) := by
  unfold requireOpen
  rw [runOn_bind_ok (runOn_types s), opened]
  rfl

theorem runOn_requireOpen_closed {s : Session} (shut : ¬ s.types.isOpen) :
    requireOpen.runOn s = (.error TypeStore.closed, s) := by
  unfold requireOpen
  rw [runOn_bind_ok (runOn_types s), Bool.eq_false_iff.mpr shut]
  rfl

/-- A lookup for a file is one of what is told of its type. -/
theorem runOn_lookupForFile_told {s : Session} (opened : s.types.isOpen) (path name : Text) :
    ∃ log, (lookupForFile path name).runOn s =
        (lookupType (s.types.told s.files path name)).runOn { s with log } ∧
      (¬ (s.types.told s.files path name).isText → log = s.log) := by
  unfold lookupForFile TypeStore.told
  rw [runOn_bind_ok (runOn_requireOpen opened), runOn_bind_ok (runOn_types s)]
  cases s.types.typeOfName? name with
  | some told => exact ⟨s.log, rfl, fun _ => rfl⟩
  | none =>
    obtain ⟨log, sniffs, quiet⟩ := runOn_sniffFile path s
    exact ⟨log, runOn_bind_ok sniffs, quiet⟩

theorem runOn_lookupForFile {s : Session} (sound : s.types.Sound) (opened : s.types.isOpen)
    {path name : Text} (tells : (s.types.told s.files path name).isText) : ∃ h t log,
      (lookupForFile path name).runOn s = (.ok h, { s with types := t, log }) ∧
      TypeStore.Took s.types (s.types.typeOfRegular s.files path name) h t := by
  obtain ⟨log, looks, -⟩ := runOn_lookupForFile_told opened path name
  obtain ⟨h, t, found, took⟩ :=
    TypeStore.lookup_canonical opened sound (TypeStore.canonical_told tells)
  exact ⟨h, t, log, looks.trans (runOn_lookupType (s := { s with log }) found), took⟩

theorem runOn_lookupForFile_unnamed {s : Session} (opened : s.types.isOpen) {path name : Text}
    (silent : ¬ (s.types.told s.files path name).isText) :
    (lookupForFile path name).runOn s = (.error Rules.unnamed, s) := by
  obtain ⟨log, looks, quiet⟩ := runOn_lookupForFile_told opened path name
  obtain rfl := quiet silent
  rw [looks]
  exact runOn_lookupType_error
    (TypeStore.lookup_of_canonical_error opened (TypeStore.canonical_told_error silent))

theorem runOn_lookupForFile_closed {s : Session} (shut : ¬ s.types.isOpen) (path name : Text) :
    (lookupForFile path name).runOn s = (.error TypeStore.closed, s) := by
  unfold lookupForFile
  rw [runOn_bind_error (runOn_requireOpen_closed shut)]

/-- A lookup gives out a handle, or it fails and changes nothing. -/
theorem lookupType_cases {s : Session} (sound : s.types.Sound) (name : TypeName) :
    (∃ canonical h t, (lookupType name).runOn s = (.ok h, { s with types := t }) ∧
      TypeStore.Took s.types canonical h t) ∨
    ∃ e, (lookupType name).runOn s = (.error e, s) := by
  cases found : s.types.lookup name with
  | ok answer =>
    obtain ⟨canonical, -, took⟩ := TypeStore.took_of_lookup sound found
    exact .inl ⟨canonical, _, _, runOn_lookupType found, took⟩
  | error e => exact .inr ⟨e, runOn_lookupType_error found⟩

theorem lookupForFile_cases {s : Session} (sound : s.types.Sound) (path name : Text) :
    (∃ canonical h t log,
      (lookupForFile path name).runOn s = (.ok h, { s with types := t, log }) ∧
      TypeStore.Took s.types canonical h t) ∨
    ∃ e, (lookupForFile path name).runOn s = (.error e, s) := by
  by_cases opened : s.types.isOpen
  · by_cases tells : (s.types.told s.files path name).isText
    · obtain ⟨h, t, log, run, took⟩ := runOn_lookupForFile sound opened tells
      exact .inl ⟨_, h, t, log, run, took⟩
    · exact .inr ⟨_, runOn_lookupForFile_unnamed opened tells⟩
  · exact .inr ⟨_, runOn_lookupForFile_closed opened path name⟩

/-! ## Classifying -/

theorem runOn_isExecutableType (h : HandleId) (s : Session) : ∃ log,
    (isExecutableType h).runOn s =
      (.ok (TypeStore.isProgram s.types.rules (s.types.nameOf h)), { s with log }) := by
  unfold isExecutableType TypeStore.isProgram TypeStore.ancestors
  rw [runOn_bind_ok (runOn_types s)]
  cases s.types.rules.ancestors (s.types.nameOf h) with
  | ok names => exact ⟨s.log, rfl⟩
  | error e => exact ⟨_, rfl⟩

theorem runOn_classifyRegular {s : Session} (sound : s.types.Sound) (opened : s.types.isOpen)
    {path name : Text} (tells : (s.types.told s.files path name).isText) (mode : Int) :
    ∃ h t log,
      (classifyRegular path name mode).runOn s =
        (.ok { kind := .regular, contentType := h
               executePermitted := s.files.isExecutePermitted path mode
               executable := s.files.isExecutePermitted path mode &&
                TypeStore.isProgram s.types.rules (s.types.typeOfRegular s.files path name) },
          { s with types := t, log }) ∧
      TypeStore.Took s.types (s.types.typeOfRegular s.files path name) h t := by
  obtain ⟨h, t, log, looks, took⟩ := runOn_lookupForFile sound opened tells
  obtain ⟨log', executes⟩ := runOn_isExecutableType h { s with types := t, log }
  unfold classifyRegular
  rw [runOn_bind_ok looks, runOn_bind_ok (runOn_files _)]
  simp only
  cases s.files.isExecutePermitted path mode with
  | false => exact ⟨h, t, log, rfl, took⟩
  | true =>
    refine ⟨h, t, log', ?_, took⟩
    rw [if_pos rfl, runOn_bind_ok executes]
    simp only [took.rules, took.nameOf, Bool.true_and]
    rfl

theorem runOn_classifyRegular_unnamed {s : Session} (opened : s.types.isOpen) {path name : Text}
    (silent : ¬ (s.types.told s.files path name).isText) (mode : Int) :
    (classifyRegular path name mode).runOn s = (.error Rules.unnamed, s) := by
  unfold classifyRegular
  rw [runOn_bind_error (runOn_lookupForFile_unnamed opened silent)]

theorem runOn_classifyRegular_closed {s : Session} (shut : ¬ s.types.isOpen) (path name : Text)
    (mode : Int) : (classifyRegular path name mode).runOn s = (.error TypeStore.closed, s) := by
  unfold classifyRegular
  rw [runOn_bind_error (runOn_lookupForFile_closed shut path name)]

theorem runOn_launcherOf (path : Text) (h : HandleId) (locales : List Text) (s : Session) :
    ∃ log, (launcherOf path h locales).runOn s =
      (.ok (s.files.launcherAt path (s.types.nameOf h) locales), { s with log }) := by
  have named : (typeName h).runOn s = (.ok (s.types.nameOf h), s) := rfl
  unfold launcherOf FileSystem.launcherAt
  rw [runOn_bind_ok named]
  by_cases desktop : s.types.nameOf h = ContentType.desktopEntry
  · simp only [desktop, ne_eq, not_true_eq_false, if_false, if_true]
    rw [runOn_bind_ok (runOn_files s)]
    cases DesktopEntry.read s.files path with
    | ok entry => exact ⟨s.log, rfl⟩
    | error e => exact ⟨_, rfl⟩
  · simp only [ne_eq, desktop, not_false_eq_true, if_true, if_false]
    exact ⟨s.log, rfl⟩

theorem runOn_classify {s : Session} (sound : s.types.Sound) (opened : s.types.isOpen)
    {path name : Text} {resolved : ResolvedAttributes}
    (tells : s.types.Tells s.files path name (kindOf resolved)) : ∃ h t log,
      (classify path name resolved).runOn s =
        (.ok { kind := kindOf resolved, contentType := h
               executePermitted := kindOf resolved = .regular &&
                s.files.isExecutePermitted path resolved.attributes.mode
               executable := (kindOf resolved = .regular &&
                s.files.isExecutePermitted path resolved.attributes.mode) &&
                TypeStore.isProgram s.types.rules
                  (s.types.typeOf s.files path name (kindOf resolved)) },
          { s with types := t, log }) ∧
      TypeStore.Took s.types (s.types.typeOf s.files path name (kindOf resolved)) h t := by
  unfold classify TypeStore.typeOf
  cases typed : (kindOf resolved).contentType? with
  | none =>
    have regular := FileKind.eq_regular_of_contentType? typed
    obtain ⟨h, t, log, classifies, took⟩ := runOn_classifyRegular sound opened (tells regular)
      resolved.attributes.mode
    refine ⟨h, t, log, ?_, took⟩
    simp only [typed]
    rw [classifies, regular]
    simp only [decide_true, Bool.true_and]
  | some type =>
    have other : kindOf resolved ≠ .regular := by
      intro regular
      rw [regular, FileKind.contentType?] at typed
      exact absurd typed (by simp)
    obtain ⟨h, t, found, took⟩ := TypeStore.lookup_took sound opened type
    refine ⟨h, t, s.log, ?_, took⟩
    simp only [typed]
    rw [runOn_bind_ok (runOn_lookupType found)]
    simp only [other, decide_false, Bool.false_and]
    rfl

theorem runOn_classify_unnamed {s : Session} (opened : s.types.isOpen) {path name : Text}
    {resolved : ResolvedAttributes} (silent : ¬ s.types.Tells s.files path name (kindOf resolved)) :
    (classify path name resolved).runOn s = (.error Rules.unnamed, s) := by
  obtain ⟨regular, silent⟩ := Classical.not_imp.mp silent
  have typed : (kindOf resolved).contentType? = none := by rw [regular]; rfl
  unfold classify
  simp only [typed]
  exact runOn_classifyRegular_unnamed opened silent _

theorem runOn_classify_closed {s : Session} (shut : ¬ s.types.isOpen) (path name : Text)
    (resolved : ResolvedAttributes) :
    (classify path name resolved).runOn s = (.error TypeStore.closed, s) := by
  unfold classify
  simp only
  cases (kindOf resolved).contentType? with
  | none => exact runOn_classifyRegular_closed shut path name _
  | some type => exact runOn_bind_error (runOn_lookupType_closed shut type)

/-! ## Resolving -/

/-- Resolving a path that can be looked at and whose type is told, in an open store. -/
theorem runOn_resolve {s : Session} (sound : s.types.Sound) (opened : s.types.isOpen)
    {path : Text} (context : Context) {resolved : ResolvedAttributes}
    (looked : s.files.resolveAttributes
      (Identity.forPath s.files.workingDirectory path).path = .ok resolved)
    (tells : s.types.Tells s.files (Identity.forPath s.files.workingDirectory path).path
      (Identity.forPath s.files.workingDirectory path).displayName (kindOf resolved)) :
    let identity := Identity.forPath s.files.workingDirectory path
    ∃ h t log, (resolve path context).runOn s =
        (.ok s.descriptors.length, { s with
          types := t
          descriptors := s.descriptors ++ [s.described identity context.locales resolved h]
          log }) ∧
      TypeStore.Took s.types (s.types.typeOf s.files identity.path identity.displayName
        (kindOf resolved)) h t := by
  intro identity
  obtain ⟨h, t, log, classifies, took⟩ := runOn_classify sound opened tells
  obtain ⟨log', launches⟩ := runOn_launcherOf identity.path h context.locales
    { s with types := t, log }
  refine ⟨h, t, log', ?_, took⟩
  unfold resolve
  rw [runOn_bind_ok (runOn_files s), runOn_bind_ok (runOn_files s),
    runOn_bind_ok (runOn_ofExcept_of_eq looked s), runOn_bind_ok classifies, runOn_bind_ok launches]
  simp only [runOn_add, took.nameOf]
  rfl

/-- A path that cannot be looked at is not resolved, and nothing happens. -/
theorem runOn_resolve_error {s : Session} {path : Text} {e : Failure} (context : Context)
    (fails : s.files.resolveAttributes (Identity.forPath s.files.workingDirectory path).path =
      .error e) : (resolve path context).runOn s = (.error e, s) := by
  unfold resolve
  rw [runOn_bind_ok (runOn_files s), runOn_bind_ok (runOn_files s),
    runOn_bind_error (runOn_ofExcept_of_eq fails s)]

theorem runOn_resolve_closed {s : Session} (shut : ¬ s.types.isOpen) {path : Text}
    (context : Context) {resolved : ResolvedAttributes}
    (looked : s.files.resolveAttributes (Identity.forPath s.files.workingDirectory path).path =
      .ok resolved) : (resolve path context).runOn s = (.error TypeStore.closed, s) := by
  unfold resolve
  rw [runOn_bind_ok (runOn_files s), runOn_bind_ok (runOn_files s),
    runOn_bind_ok (runOn_ofExcept_of_eq looked s),
    runOn_bind_error (runOn_classify_closed shut _ _ resolved)]

theorem runOn_resolve_unnamed {s : Session} (opened : s.types.isOpen) {path : Text}
    (context : Context) {resolved : ResolvedAttributes}
    (looked : s.files.resolveAttributes (Identity.forPath s.files.workingDirectory path).path =
      .ok resolved)
    (silent : ¬ s.types.Tells s.files (Identity.forPath s.files.workingDirectory path).path
      (Identity.forPath s.files.workingDirectory path).displayName (kindOf resolved)) :
    (resolve path context).runOn s = (.error Rules.unnamed, s) := by
  unfold resolve
  rw [runOn_bind_ok (runOn_files s), runOn_bind_ok (runOn_files s),
    runOn_bind_ok (runOn_ofExcept_of_eq looked s),
    runOn_bind_error (runOn_classify_unnamed opened silent)]

end Action

/-- Why a path is not resolved. -/
inductive Session.Unresolved (s : Session) (identity : Identity) : Failure → Prop where
  | unseen {e : Failure} (unseen : s.files.resolveAttributes identity.path = .error e) :
      s.Unresolved identity e
  | closed {resolved : ResolvedAttributes}
      (looked : s.files.resolveAttributes identity.path = .ok resolved)
      (shut : ¬ s.types.isOpen) : s.Unresolved identity TypeStore.closed
  | unnamed {resolved : ResolvedAttributes}
      (looked : s.files.resolveAttributes identity.path = .ok resolved) (opened : s.types.isOpen)
      (silent : ¬ s.types.Tells s.files identity.path identity.displayName
        (Action.kindOf resolved)) : s.Unresolved identity Rules.unnamed

namespace Action

/-- Resolving adds one descriptor, or it fails and changes nothing. -/
theorem resolve_cases {s : Session} (sound : s.types.Sound) (path : Text) (context : Context) :
    let identity := Identity.forPath s.files.workingDirectory path
    (∃ resolved h t log, s.types.isOpen ∧ s.files.resolveAttributes identity.path = .ok resolved ∧
      s.types.Tells s.files identity.path identity.displayName (kindOf resolved) ∧
      (resolve path context).runOn s = (.ok s.descriptors.length, { s with
        types := t
        descriptors := s.descriptors ++ [s.described identity context.locales resolved h]
        log }) ∧
      TypeStore.Took s.types (s.types.typeOf s.files identity.path identity.displayName
        (kindOf resolved)) h t) ∨
    ∃ e, (resolve path context).runOn s = (.error e, s) ∧ s.Unresolved identity e := by
  intro identity
  cases looked : s.files.resolveAttributes identity.path with
  | error e => exact .inr ⟨e, runOn_resolve_error context looked, .unseen looked⟩
  | ok resolved =>
    by_cases opened : s.types.isOpen
    · by_cases tells : s.types.Tells s.files identity.path identity.displayName (kindOf resolved)
      · obtain ⟨h, t, log, resolves, took⟩ := runOn_resolve sound opened context looked tells
        exact .inl ⟨resolved, h, t, log, opened, rfl, tells, resolves, took⟩
      · exact .inr ⟨_, runOn_resolve_unnamed opened context looked tells,
          .unnamed looked opened tells⟩
    · exact .inr ⟨_, runOn_resolve_closed opened context looked, .closed looked opened⟩

/-- Where a path has been resolved, it could be looked at, its type was told and the store was
open. -/
theorem resolve_eq_ok {s s' : Session} (sound : s.types.Sound) {path : Text} {context : Context}
    {d : DescriptorId} (run : (resolve path context).runOn s = (.ok d, s')) :
    let identity := Identity.forPath s.files.workingDirectory path
    ∃ resolved h t log, s.types.isOpen ∧ s.files.resolveAttributes identity.path = .ok resolved ∧
      s.types.Tells s.files identity.path identity.displayName (kindOf resolved) ∧
      d = s.descriptors.length ∧
      s' = { s with
        types := t
        descriptors := s.descriptors ++ [s.described identity context.locales resolved h]
        log } ∧
      TypeStore.Took s.types (s.types.typeOf s.files identity.path identity.displayName
        (kindOf resolved)) h t := by
  intro identity
  rcases resolve_cases sound path context with
    ⟨resolved, h, t, log, opened, looked, tells, resolves, took⟩ | ⟨e, fails, -⟩
  · rw [resolves] at run
    cases run
    exact ⟨resolved, h, t, log, opened, looked, tells, rfl, rfl, took⟩
  · rw [fails] at run
    cases run

/-- Resolving that fails changes nothing. -/
theorem resolve_eq_error {s s' : Session} (sound : s.types.Sound) {path : Text} {context : Context}
    {e : Failure} (run : (resolve path context).runOn s = (.error e, s')) : s' = s := by
  rcases resolve_cases sound path context with ⟨_, _, _, _, _, _, _, resolves, _⟩ | ⟨_, fails, _⟩
  · rw [resolves] at run
    cases run
  · rw [fails] at run
    exact (Prod.mk.inj run).2.symm

end Action

end FileProfile
