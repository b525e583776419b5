import FileProfile.Proofs.ContentType.Unnamed
import FileProfile.Proofs.Descriptor.Renaming
import FileProfile.Proofs.Number.Bits
import FileProfile.Proofs.Path.Normal
import FileProfile.Proofs.Session.Run
import FileProfile.Proofs.Storage.Links

/-!
Renaming a file agrees with resolving it afresh.

What a file tells about itself does not change when it moves within its directory, links being
followed from the same place (`resolveAttributes_moved`, `launcherAt_moved`, `sniffed_moved`), and
renaming asks for the type, the flags and the hints with the new name. So the descriptor that
renaming leaves is the one that the new path resolves to, as long as the new name or the contents
tell a type that can be looked up; where they do not, the renaming fails (`rename_eq_resolve`).
-/

namespace FileProfile

/-! ## What a moved file tells -/

namespace FileSystem

variable {fs : FileSystem} {p q : Text} {node : Node}

theorem isExecutePermitted_permissionBits (fs : FileSystem) (p : Text) (mode : Int) :
    fs.isExecutePermitted p (permissionBits mode) = fs.isExecutePermitted p mode := by
  have read : Word32.land (permissionBits mode) 0o444 = Word32.land mode 0o444 :=
    land_permissionBits (b := 0o444) (by decide) mode
  rw [isExecutePermitted, isExecutePermitted, read]

/-- A desktop entry is read from what stands behind the links at its path. -/
theorem toOption_read (fs : FileSystem) (p : Text) :
    (DesktopEntry.read fs p).toOption = (fs.readFile p).toOption.bind fun bytes =>
      (KeyFile.parse (Utf8.decodeLossy bytes)).toOption := by
  unfold DesktopEntry.read readText
  cases fs.readFile p with
  | error e => rfl
  | ok bytes =>
    simp only [Except.map, Except.toOption, Option.bind_some]
    cases KeyFile.parse (Utf8.decodeLossy bytes) <;> rfl

section

variable (calm : fs.IsFaultFree) (found : fs.find? p = some node) (free : fs.find? q = none)
  (beside : Path.parent q = Path.parent p)

include calm found free beside

theorem resolveAttributes_moved :
    (fs.moved p q node).resolveAttributes q = fs.resolveAttributes p := by
  have stands : (fs.moved p q node).find? q = some node := by simp [find?_moved]
  have behind := (behind_queries_moved calm found free beside).1
  unfold resolveAttributes
  rw [lstat_of_find? (isFaultFree_moved calm p q node) stands, lstat_of_find? calm found]
  simp only
  by_cases link : node.kind = .symlink
  · rw [if_pos link, if_pos link]
    cases before : fs.stat p with
    | ok there =>
      cases after : (fs.moved p q node).stat q with
      | ok there' =>
        have same : there' = there := by simpa [before, after, Except.toOption] using behind
        rw [same]
      | error e => simp [before, after, Except.toOption] at behind
    | error e =>
      cases after : (fs.moved p q node).stat q with
      | ok there' => simp [before, after, Except.toOption] at behind
      | error e' => rfl
  · rw [if_neg link, if_neg link]

theorem isExecutePermitted_moved (mode : Int) :
    (fs.moved p q node).isExecutePermitted q mode = fs.isExecutePermitted p mode := by
  rw [isExecutePermitted, isExecutePermitted,
    (behind_queries_moved calm found free beside).2.1]

theorem sniffed_moved (rules : Rules) :
    (fs.moved p q node).sniffed rules q = fs.sniffed rules p := by
  rw [sniffed, sniffed, (behind_queries_moved calm found free beside).2.2.2]

theorem launcherAt_moved (type : TypeName) (locales : List Text) :
    (fs.moved p q node).launcherAt q type locales = fs.launcherAt p type locales := by
  rw [launcherAt, launcherAt, toOption_read, toOption_read,
    (behind_queries_moved calm found free beside).2.2.1]

end

/-- Only an entry that stands somewhere has attributes. -/
theorem exists_of_resolveAttributes {resolved : ResolvedAttributes}
    (looked : fs.resolveAttributes p = .ok resolved) : ∃ node, fs.find? p = some node := by
  unfold resolveAttributes at looked
  cases seen : fs.lstat p with
  | error e => simp [seen] at looked
  | ok node => exact ⟨node, find?_of_lstat seen⟩

end FileSystem

/-! ## What the descriptor tells -/

section

variable {x : Descriptor} {link : LinkState} {executable permitted : Bool}
  {launchable : Option Bool} (flagged : x.flags = computeFlags link executable permitted launchable)

include flagged

/-- The flags tell whether the path is a link. -/
theorem linkState_eq_none_iff : x.linkState = .none ↔ link = .none := by
  unfold Descriptor.linkState
  rw [flagged, computeFlags]
  by_cases none : link = .none
  · simp only [none, if_true, iff_true]
    split <;> decide
  · simp only [none, if_false, iff_false]
    split <;> decide

/-- Flags depend on a link as far as they tell it. -/
theorem computeFlags_linkState (executable' permitted' : Bool) (launchable' : Option Bool) :
    computeFlags x.linkState executable' permitted' launchable' =
      computeFlags link executable' permitted' launchable' := by
  have linked := linkState_eq_none_iff flagged
  rw [computeFlags, computeFlags]
  by_cases none : link = .none
  · rw [if_pos (linked.mpr none), if_pos none]
  · rw [if_neg (fun same => none (linked.mp same)), if_neg none]

end

/-- A descriptor agrees with itself. -/
theorem Descriptor.agrees_self (x : Descriptor) : x.agrees x = true := by
  simp [Descriptor.agrees, Identity.equals]

theorem FileName.isComponent_of_validate {name : Text} (accepted : FileName.validate name = .ok ())
    (notHere : name ≠ Path.here) (notAbove : name ≠ Path.above) : Path.IsComponent name := by
  unfold FileName.validate at accepted
  split at accepted
  · exact absurd accepted (by simp)
  · next fits =>
    exact ⟨fun h => fits (.inl h), notHere, notAbove, fun h => fits (.inr (.inl h))⟩

/-! ## Descriptors that are up to date -/

/-- The descriptor `x` shows the present state of its file, and holds the handle that a lookup of
its type finds. -/
structure Session.Shows (s : Session) (d : DescriptorId) (x : Descriptor) (locales : List Text)
    (resolved : ResolvedAttributes) : Prop where
  opened : s.types.isOpen
  found : s.descriptors[d]? = some x
  normal : Path.IsNormal x.path
  looked : s.files.resolveAttributes x.path = .ok resolved
  state : x = s.described x.identity locales resolved x.contentType
  counted : 0 < s.types.referencesOf x.contentType
  named : s.types.nameOf x.contentType =
    s.types.typeOf s.files x.path x.identity.displayName (Action.kindOf resolved)
  tells : s.types.Tells s.files x.path x.identity.displayName (Action.kindOf resolved)
  interned : s.types.internedAs?
    (s.types.typeOf s.files x.path x.identity.displayName (Action.kindOf resolved)) =
      some x.contentType

namespace TypeStore

/-- A moved file tells the same of its type under the same name. -/
theorem told_moved {fs : FileSystem} {p q : Text} {node : Node} (calm : fs.IsFaultFree)
    (found : fs.find? p = some node) (free : fs.find? q = none)
    (beside : Path.parent q = Path.parent p) (store : TypeStore) (name : Text) :
    store.told (fs.moved p q node) q name = store.told fs p name := by
  rw [TypeStore.told, TypeStore.told, FileSystem.sniffed_moved calm found free beside]

theorem typeOf_regular (store : TypeStore) (fs : FileSystem) (path name : Text) :
    store.typeOf fs path name .regular = store.typeOfRegular fs path name := rfl

/-- The type of any other file depends on its kind alone. -/
theorem typeOf_of_ne_regular (store : TypeStore) {kind : FileKind} (other : kind ≠ .regular)
    (fs fs' : FileSystem) (path path' name name' : Text) :
    store.typeOf fs' path' name' kind = store.typeOf fs path name kind := by
  unfold typeOf
  cases typed : kind.contentType? with
  | none => exact absurd (FileKind.eq_regular_of_contentType? typed) other
  | some type => rfl

end TypeStore

theorem Session.described_congr {s t : Session} (files : t.files = s.files)
    (same : s.types.SameRules t.types) (identity : Identity) (locales : List Text)
    (resolved : ResolvedAttributes) (h : HandleId) :
    t.described identity locales resolved h = s.described identity locales resolved h := by
  simp only [Session.described, files, same.rules, same.typeOf]

/-- All fields of a descriptor that is resolved. -/
theorem Session.described_eq (s : Session) (identity : Identity) (locales : List Text)
    (resolved : ResolvedAttributes) (h : HandleId) :
    s.described identity locales resolved h =
      let kind := Action.kindOf resolved
      let type := s.types.typeOf s.files identity.path identity.displayName kind
      let permitted := kind = .regular &&
        s.files.isExecutePermitted identity.path resolved.attributes.mode
      let launcher := s.files.launcherAt identity.path type locales
      { references := 1
        identity
        displayName := identity.displayName
        kind
        attributes := resolved.attributes
        flags := computeFlags resolved.link
          (permitted && TypeStore.isProgram s.types.rules type) permitted
          (launcher.map Launcher.isLaunchable)
        contentType := h
        hints := launcher.map Launcher.hints } := rfl

/-- All fields of a descriptor whose regular file has been renamed. -/
theorem applied_regularChange (x : Descriptor) (destination : Identity) (name : Text)
    (link : LinkState) (classification : Classification) (launcher : Option Launcher) :
    (regularChange destination name link classification launcher).applied x =
      { references := x.references
        identity := destination
        displayName := name
        kind := x.kind
        attributes := x.attributes
        flags := computeFlags link classification.executable classification.executePermitted
          (launcher.map Launcher.isLaunchable)
        contentType := classification.contentType
        hints := launcher.map Launcher.hints } := by
  cases launcher <;> rfl

namespace Session.Shows

variable {s : Session} {d : DescriptorId} {x : Descriptor} {resolved : ResolvedAttributes}

theorem living {locales : List Text} (shows : s.Shows d x locales resolved) : x.isAlive := by
  rw [shows.state]
  rfl

theorem kind {locales : List Text} (shows : s.Shows d x locales resolved) :
    x.kind = Action.kindOf resolved := by
  rw [shows.state]
  rfl

theorem attributes {locales : List Text} (shows : s.Shows d x locales resolved) :
    x.attributes = resolved.attributes := by
  rw [shows.state]
  rfl

/-- The flags and the hints are those that the type, the permission bits and the entry tell. -/
theorem flags_hints {locales : List Text} (shows : s.Shows d x locales resolved) :
    let type := s.types.nameOf x.contentType
    let permitted := x.kind = .regular && s.files.isExecutePermitted x.path x.mode
    let launcher := s.files.launcherAt x.path type locales
    x.flags = computeFlags resolved.link (permitted && TypeStore.isProgram s.types.rules type)
        permitted (launcher.map Launcher.isLaunchable) ∧
      x.hints = launcher.map Launcher.hints := by
  intro type permitted launcher
  have told : s.types.typeOf s.files x.identity.path x.identity.displayName
      (Action.kindOf resolved) = type := shows.named.symm
  have mode : s.files.isExecutePermitted x.identity.path resolved.attributes.mode =
      s.files.isExecutePermitted x.path x.mode := by
    rw [Descriptor.mode, FileSystem.isExecutePermitted_permissionBits, shows.attributes]
    rfl
  have state := shows.state
  rw [Session.described_eq] at state
  have flags := congrArg Descriptor.flags state
  have hints := congrArg Descriptor.hints state
  dsimp only at flags hints
  rw [told, mode, ← shows.kind] at flags
  rw [told] at hints
  exact ⟨flags, hints⟩

/-- A descriptor that has just been resolved is up to date. -/
theorem of_resolve {s' : Session} (sound : s.types.Sound) {path : Text} {context : Context}
    (run : (Action.resolve path context).runOn s = (.ok d, s')) :
    ∃ x resolved, x.identity = Identity.forPath s.files.workingDirectory path ∧
      s'.files = s.files ∧ s'.types.Sound ∧ s'.Shows d x context.locales resolved := by
  obtain ⟨resolved, h, t, log, opened, looked, tells, rfl, same, took⟩ :=
    Action.resolve_eq_ok sound run
  have files : s'.files = s.files := by rw [same]
  have types : s'.types = t := by rw [same]
  rw [← types] at took
  have typed := took.toSameRules.typeOf
  have before := sound.nonneg h
  refine ⟨s.described (Identity.forPath s.files.workingDirectory path) context.locales resolved h,
    resolved, rfl, files, took.sound, ?_⟩
  exact {
    opened := by
      rw [took.sound.isOpen_iff, took.isShut, ← sound.isOpen_iff]
      exact opened
    found := by simp [same]
    normal := Path.resolve_normal _ _
    looked := by
      rw [files]
      exact looked
    state := (Session.described_congr files took.toSameRules _ _ _ _).symm
    counted := by
      have counts := took.referencesOf h
      rw [if_pos rfl] at counts
      show 0 < s'.types.referencesOf h
      omega
    named := by
      rw [typed, files]
      exact took.nameOf
    tells := by
      rw [files, took.toSameRules.tells_iff]
      exact tells
    interned := by
      rw [typed, files]
      exact took.interned }

/-- What is up to date is what resolving its path gives. -/
theorem resolves {context : Context} (shows : s.Shows d x context.locales resolved)
    (sound : s.types.Sound) : ∃ s', s'.descriptors = s.descriptors ++ [x] ∧
      (Action.resolve x.path context).runOn s = (.ok s.descriptors.length, s') := by
  have place : Identity.forPath s.files.workingDirectory x.path = x.identity := by
    rw [Identity.forPath, Path.resolve_of_isNormal shows.normal]
    rfl
  have looked : s.files.resolveAttributes
      (Identity.forPath s.files.workingDirectory x.path).path = .ok resolved := by
    rw [place]
    exact shows.looked
  have tells : s.types.Tells s.files
      (Identity.forPath s.files.workingDirectory x.path).path
      (Identity.forPath s.files.workingDirectory x.path).displayName (Action.kindOf resolved) := by
    rw [place]
    exact shows.tells
  obtain ⟨h, t, log, run, took⟩ := Action.runOn_resolve sound shows.opened context looked tells
  rw [place] at run took
  have same : h = x.contentType := took.eq_of_internedAs? shows.interned
  rw [same, ← shows.state] at run
  exact ⟨_, rfl, run⟩

/-! ## Moving what is up to date -/

section

variable {context : Context} {name : Text} {node : Node}

/-- The type that a moved regular file shows is the one that its new name tells before it moves. -/
theorem typeOf_moved {locales : List Text} (shows : s.Shows d x locales resolved)
    (calm : s.files.IsFaultFree) (regular : x.kind = .regular) {destination : Identity}
    (shown : destination.displayName = name) (stands : s.files.find? x.path = some node)
    (free : s.files.find? destination.path = none)
    (beside : Path.parent destination.path = Path.parent x.path) :
    s.types.typeOf (s.files.moved x.path destination.path node) destination.path
      destination.displayName (Action.kindOf resolved) =
        s.types.typeOfRegular s.files x.path name := by
  rw [← shows.kind, regular, shown, TypeStore.typeOf_regular, TypeStore.typeOfRegular,
    TypeStore.told_moved calm stands free beside]
  rfl

/-- The descriptor that renaming leaves is the one that the moved file gives. -/
theorem moved_state (shows : s.Shows d x context.locales resolved) (calm : s.files.IsFaultFree)
    (regular : x.kind = .regular) {destination : Identity} (shown : destination.displayName = name)
    (stands : s.files.find? x.path = some node) (free : s.files.find? destination.path = none)
    (beside : Path.parent destination.path = Path.parent x.path) (h : HandleId) :
    (regularChange destination name x.linkState (s.reclassified x name h)
      (s.files.launcherAt x.path (s.types.typeOfRegular s.files x.path name)
        context.locales)).applied x =
      { s with files := s.files.moved x.path destination.path node }.described destination
        context.locales resolved h := by
  have kind : Action.kindOf resolved = .regular := shows.kind ▸ regular
  have references : x.references = 1 := by
    rw [shows.state]
    rfl
  have type := shows.typeOf_moved calm regular shown stands free beside
  have mode : s.files.isExecutePermitted x.path x.mode =
      (s.files.moved x.path destination.path node).isExecutePermitted destination.path
        resolved.attributes.mode := by
    rw [FileSystem.isExecutePermitted_moved calm stands free beside, Descriptor.mode,
      FileSystem.isExecutePermitted_permissionBits, shows.attributes]
  rw [applied_regularChange, Session.described_eq, Descriptor.mk.injEq]
  refine ⟨references, rfl, shown.symm, shows.kind, shows.attributes, ?_, rfl, ?_⟩
  · have executable : (s.reclassified x name h).executable =
        (s.files.isExecutePermitted x.path x.mode &&
          TypeStore.isProgram s.types.rules (s.types.typeOfRegular s.files x.path name)) := by
      rw [Session.reclassified]
    have permitted : (s.reclassified x name h).executePermitted =
        s.files.isExecutePermitted x.path x.mode := by
      rw [Session.reclassified]
    have here : decide (FileKind.regular = FileKind.regular) = true := rfl
    rw [computeFlags_linkState shows.flags_hints.1, type, kind, ← mode, executable, permitted, here,
      Bool.true_and, FileSystem.launcherAt_moved calm stands free beside]
  · rw [type, FileSystem.launcherAt_moved calm stands free beside]

theorem renames_regular (shows : s.Shows d x context.locales resolved) (sound : s.types.Sound)
    (calm : s.files.IsFaultFree) (regular : x.kind = .regular)
    (component : Path.IsComponent name) (encoded : FileName.encode name = .ok name)
    (tells : s.types.Tells s.files x.path name x.kind)
    (stands : s.files.find? x.path = some node)
    (free : s.files.find? (x.identity.sibling name).path = none) : ∃ s' y,
    (Action.renamePath d name context).runOn s = (.ok (), s') ∧
      s'.files = s.files.moved x.path (x.identity.sibling name).path node ∧
      s'.types.Sound ∧ y.identity = x.identity.sibling name ∧
      s'.Shows d y context.locales resolved := by
  obtain ⟨normal, beside, shown⟩ := Identity.exists_sibling shows.normal component
  have vacant := FileSystem.lstatIfPresent_of_free calm free
  obtain ⟨h, t, log, classifies, took⟩ := Action.runOn_renamePath_regular encoded shows.found
    shows.living vacant context sound shows.opened tells regular
  have counted : 0 < t.referencesOf x.contentType := by
    have before := shows.counted
    have counts := took.referencesOf x.contentType
    split at counts <;> omega
  obtain ⟨u, log', moves, dropped⟩ := Action.runOn_moveRegular (s := { s with types := t, log })
    (s.reclassified x name h)
    (s.files.launcherAt x.path (s.types.typeOfRegular s.files x.path name) context.locales) name
    took.sound shows.found shows.living
    (FileSystem.rename_of_find? calm stands (q := (x.identity.sibling name).path)) counted
  replace dropped : TypeStore.Dropped t x.contentType u := dropped
  have same : s.types.SameRules u := took.toSameRules.trans dropped.toSameRules
  -- The descriptor gives up its old type only after it has taken the new one.
  obtain ⟨opened, kept, named, interned⟩ := took.dropped sound shows.opened shows.counted dropped
  have type : u.typeOf (s.files.moved x.path (x.identity.sibling name).path node)
      (x.identity.sibling name).path (x.identity.sibling name).displayName
      (Action.kindOf resolved) = s.types.typeOfRegular s.files x.path name := by
    rw [same.typeOf]
    exact shows.typeOf_moved calm regular shown stands free beside
  have told : u.Tells (s.files.moved x.path (x.identity.sibling name).path node)
      (x.identity.sibling name).path (x.identity.sibling name).displayName
      (Action.kindOf resolved) := by
    rw [same.tells_iff, TypeStore.Tells, TypeStore.told_moved calm stands free beside, shown,
      ← shows.kind]
    exact tells
  refine ⟨_, (regularChange (x.identity.sibling name) name x.linkState (s.reclassified x name h)
    (s.files.launcherAt x.path (s.types.typeOfRegular s.files x.path name)
      context.locales)).applied x, classifies.trans moves, rfl, dropped.sound, rfl, ?_⟩
  exact {
    opened := opened
    found := by
      show (s.descriptors.modify d _)[d]? = _
      rw [List.getElem?_modify_eq, shows.found]
      rfl
    normal := normal
    looked := by
      show (s.files.moved _ _ _).resolveAttributes _ = _
      rw [← shows.looked]
      exact FileSystem.resolveAttributes_moved calm stands free beside
    state := by
      refine (moved_state shows calm regular shown stands free beside h).trans ?_
      exact (Session.described_congr (s := { s with
        files := s.files.moved x.path (x.identity.sibling name).path node }) (t := { s with
        files := s.files.moved x.path (x.identity.sibling name).path node
        types := u
        descriptors := s.descriptors.modify d _
        log := log' }) rfl same _ _ _ _).symm
    counted := kept
    named := named.trans type.symm
    tells := told
    interned := (congrArg u.internedAs? type).trans interned }

/-- Nothing but its place and its kind tells about a file that is neither regular nor a desktop
entry. -/
theorem described_other (s : Session) (identity : Identity) (locales : List Text) (h : HandleId)
    (other : Action.kindOf resolved ≠ .regular)
    (unlaunched : s.types.typeOf s.files identity.path identity.displayName
      (Action.kindOf resolved) ≠ ContentType.desktopEntry) :
    s.described identity locales resolved h =
      { references := 1
        identity
        displayName := identity.displayName
        kind := Action.kindOf resolved
        attributes := resolved.attributes
        flags := computeFlags resolved.link false false none
        contentType := h
        hints := none } := by
  rw [Session.described_eq]
  dsimp only
  rw [FileSystem.launcherAt, if_neg unlaunched, decide_eq_false other, Bool.false_and,
    Bool.false_and]
  rfl

theorem renames_other (shows : s.Shows d x context.locales resolved) (sound : s.types.Sound)
    (calm : s.files.IsFaultFree) (other : x.kind ≠ .regular)
    (unlaunched : s.types.nameOf x.contentType ≠ ContentType.desktopEntry)
    (component : Path.IsComponent name) (encoded : FileName.encode name = .ok name)
    (stands : s.files.find? x.path = some node)
    (free : s.files.find? (x.identity.sibling name).path = none) : ∃ s' y,
    (Action.renamePath d name context).runOn s = (.ok (), s') ∧
      s'.files = s.files.moved x.path (x.identity.sibling name).path node ∧
      s'.types.Sound ∧ y.identity = x.identity.sibling name ∧
      s'.Shows d y context.locales resolved := by
  obtain ⟨normal, beside, shown⟩ := Identity.exists_sibling shows.normal component
  have vacant := FileSystem.lstatIfPresent_of_free calm free
  obtain ⟨log, moves⟩ := Action.runOn_move (s := s)
    (FileSystem.rename_of_find? calm stands (q := (x.identity.sibling name).path))
  have applies := Action.runOn_apply_keeping (s := { s with
      files := s.files.moved x.path (x.identity.sibling name).path node, log })
    (c := { identity := some (x.identity.sibling name), displayName := some name })
    shows.found shows.living rfl
  have kind : Action.kindOf resolved ≠ .regular := shows.kind ▸ other
  have type : s.types.typeOf (s.files.moved x.path (x.identity.sibling name).path node)
      (x.identity.sibling name).path (x.identity.sibling name).displayName
      (Action.kindOf resolved) =
        s.types.typeOf s.files x.path x.identity.displayName (Action.kindOf resolved) :=
    TypeStore.typeOf_of_ne_regular s.types kind _ _ _ _ _ _
  rw [shows.named] at unlaunched
  have before := shows.state
  rw [described_other s x.identity context.locales x.contentType kind unlaunched] at before
  refine ⟨{ s with
    files := s.files.moved x.path (x.identity.sibling name).path node
    descriptors := s.descriptors.modify d (DescriptorChange.applied
      { identity := some (x.identity.sibling name), displayName := some name })
    log }, { x with identity := x.identity.sibling name, displayName := name },
    ?_, rfl, sound, rfl, ?_⟩
  · rw [Action.runOn_renamePath_other encoded shows.found shows.living vacant other,
      Action.runOn_bind_ok moves, applies]
  · exact {
      opened := shows.opened
      found := by
        show (s.descriptors.modify d _)[d]? = _
        rw [List.getElem?_modify_eq, shows.found]
        rfl
      normal := normal
      looked := by
        show (s.files.moved _ _ _).resolveAttributes _ = _
        rw [← shows.looked]
        exact FileSystem.resolveAttributes_moved calm stands free beside
      state := by
        rw [described_other _ _ _ _ kind (by rw [type]; exact unlaunched), before, shown]
      counted := shows.counted
      named := shows.named.trans type.symm
      tells := fun regular => absurd regular kind
      interned := (congrArg s.types.internedAs? type).trans shows.interned }

/-- A file whose type is not told under the new name stays as it is. -/
theorem rename_unnamed {locales : List Text} (shows : s.Shows d x locales resolved)
    (calm : s.files.IsFaultFree)
    (other : s.types.nameOf x.contentType ≠ ContentType.desktopEntry)
    (accepted : FileName.validate name = .ok ()) (encoded : FileName.encode name = .ok name)
    (free : s.files.find? (x.identity.sibling name).path = none)
    (silent : ¬ s.types.Tells s.files x.path name x.kind) :
    (Action.rename d name context).runOn s = (.error Rules.unnamed, s) := by
  have vacant := FileSystem.lstatIfPresent_of_free calm free
  rw [Action.runOn_rename_path accepted shows.found shows.living other]
  exact Action.runOn_renamePath_unnamed encoded shows.found shows.living vacant shows.opened silent

end

end Session.Shows

/-! ## Renaming and resolving afresh -/

/-- Renaming a file that is no desktop entry moves its one entry to the new name beside it and
leaves the descriptor that the new path then resolves to. It does so exactly if the new name, or the
contents where the name tells nothing, tells a type by a text; else it fails with nothing done. -/
theorem rename_eq_resolve {s s₁ : Session} (reachable : s.Reachable) (calm : s.files.IsFaultFree)
    {path : Text} {context : Context} {d : DescriptorId}
    (resolves : (Action.resolve path context).runOn s = (.ok d, s₁)) {x : Descriptor}
    (found : s₁.descriptors[d]? = some x)
    (other : s₁.types.nameOf x.contentType ≠ ContentType.desktopEntry) {name fileName : Text}
    (accepted : FileName.validate name = .ok ()) (encoded : FileName.encode name = .ok fileName)
    (notHere : name ≠ Path.here) (notAbove : name ≠ Path.above)
    (free : s.files.find? (x.identity.sibling fileName).path = none) :
    (s₁.types.Tells s₁.files x.path fileName x.kind → ∃ node s₂ y fresh s₃ z,
      s.files.find? x.path = some node ∧
      (Action.rename d name context).runOn s₁ = (.ok (), s₂) ∧
      s₂.files = s.files.moved x.path (x.identity.sibling fileName).path node ∧
      s₂.descriptors[d]? = some y ∧ y.identity = x.identity.sibling fileName ∧
      (Action.resolve y.path context).runOn s₂ = (.ok fresh, s₃) ∧
      s₃.descriptors[fresh]? = some z ∧
      (Action.agree d fresh).runOn s₃ = (.ok true, s₃) ∧
      z.displayName = y.displayName ∧ z.hints = y.hints) ∧
    (¬ s₁.types.Tells s₁.files x.path fileName x.kind →
      (Action.rename d name context).runOn s₁ = (.error Rules.unnamed, s₁)) := by
  obtain rfl := Action.encode_eq encoded
  obtain ⟨x', resolved, -, files, sound, shows⟩ :=
    Session.Shows.of_resolve reachable.sound resolves
  obtain rfl : x' = x := Option.some.inj (shows.found.symm.trans found)
  have component := FileName.isComponent_of_validate accepted notHere notAbove
  obtain ⟨node, stands⟩ := FileSystem.exists_of_resolveAttributes shows.looked
  rw [← files] at calm free ⊢
  refine ⟨fun tells => ?_, shows.rename_unnamed calm other accepted encoded free⟩
  -- What renaming leaves is up to date again, so that its path resolves to an equal descriptor.
  have moves : ∃ s₂ y, (Action.renamePath d fileName context).runOn s₁ = (.ok (), s₂) ∧
      s₂.files = s₁.files.moved x'.path (x'.identity.sibling fileName).path node ∧
      s₂.types.Sound ∧ y.identity = x'.identity.sibling fileName ∧
      s₂.Shows d y context.locales resolved := by
    by_cases regular : x'.kind = .regular
    · exact shows.renames_regular sound calm regular component encoded tells stands free
    · exact shows.renames_other sound calm regular other component encoded stands free
  obtain ⟨s₂, y, run, moved, sound₂, place, shows₂⟩ := moves
  obtain ⟨s₃, descriptors, again⟩ := shows₂.resolves sound₂
  have first : s₃.descriptors[d]? = some y := by
    rw [descriptors, List.getElem?_append_left]
    · exact shows₂.found
    · exact (List.getElem?_eq_some_iff.mp shows₂.found).1
  have second : s₃.descriptors[s₂.descriptors.length]? = some y := by simp [descriptors]
  refine ⟨node, s₂, y, s₂.descriptors.length, s₃, y, stands, ?_, moved, shows₂.found, place, again,
    second, ?_, rfl, rfl⟩
  · rw [Action.runOn_rename_path accepted found shows.living other, run]
  · unfold Action.agree
    rw [Action.runOn_bind_ok (Action.runOn_alive first shows₂.living),
      Action.runOn_bind_ok (Action.runOn_alive second shows₂.living), Descriptor.agrees_self]
    rfl

def script : Node := .created ContentType.unnamedScript 0o755

/-- A script that only its suffix tells the type of, and a link to it beside it. -/
def linkedScript : FileSystem where
  workingDirectory := "/work"
  entries := [
    ("/work/run.txt", { script with target := some "tool", mode := 0o120777 }),
    ("/work/tool", script)]

/-- The link is renamed as long as its suffix stays. -/
theorem rename_eq_resolve_linkedScript :
    let s : Session := { files := linkedScript, types := .new [("txt", "text/plain")] {} [] }
    let s₁ := ((Action.resolve "run.txt" {}).runOn s).2
    (∃ node s₂ y fresh s₃ z,
      s.files.find? "/work/run.txt" = some node ∧
      (Action.rename 0 "go.txt" {}).runOn s₁ = (.ok (), s₂) ∧
      s₂.files = s.files.moved "/work/run.txt" "/work/go.txt" node ∧
      s₂.descriptors[0]? = some y ∧ y.identity = ⟨"/work/go.txt"⟩ ∧
      (Action.resolve y.path {}).runOn s₂ = (.ok fresh, s₃) ∧
      s₃.descriptors[fresh]? = some z ∧
      (Action.agree 0 fresh).runOn s₃ = (.ok true, s₃) ∧
      z.displayName = y.displayName ∧ z.hints = y.hints) ∧
    (Action.rename 0 "go" {}).runOn s₁ = (.error Rules.unnamed, s₁) := by
  intro s s₁
  let link : Descriptor :=
    .new ⟨"/work/run.txt"⟩ .regular script.attributes Flag.symlink.bit 0 none
  have beside : link.identity.sibling "go.txt" = ⟨"/work/go.txt"⟩ := by decide +kernel
  have resolves : (Action.resolve "run.txt" {}).runOn s = (.ok 0, s₁) :=
    Action.runOn_of_toOption (by decide +kernel)
  have found : s₁.descriptors[0]? = some link := by decide +kernel
  have started : s.Reachable := .start linkedScript [("txt", "text/plain")] {} []
  have plain : s₁.types.nameOf link.contentType ≠ ContentType.desktopEntry := by decide +kernel
  constructor
  · have valid : FileName.validate "go.txt" = .ok () := rfl
    have agrees := (rename_eq_resolve started (fun _ _ => rfl) resolves found plain valid rfl
      (by decide) (by decide) (by decide +kernel)).1 (by decide +kernel)
    rw [beside] at agrees
    exact agrees
  · have valid : FileName.validate "go" = .ok () := rfl
    exact (rename_eq_resolve started (fun _ _ => rfl) resolves found plain valid rfl
      (by decide) (by decide) (by decide +kernel)).2 (by decide +kernel)

end FileProfile
