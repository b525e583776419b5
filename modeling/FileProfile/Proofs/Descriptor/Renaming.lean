import FileProfile.Descriptor.Rename
import FileProfile.Proofs.Descriptor.Changes
import FileProfile.Proofs.Descriptor.Resolution

/-!
The steps of renaming a file, one that is no desktop entry above all.

A regular file is classified by its new name while it still stands at the old path; that adds one
reference to the handle of its new type (`runOn_renamePath_regular`). Then the file moves, and the
descriptor gives up the handle of its old type: `runOn_moveRegular` where all goes well,
`runOn_moveRegular_stays` where the file cannot move, and `runOn_moveRegular_released` where it has
moved but the old handle has nothing left to give up. `relocates` says the same of files of any
kind, once nothing blocks the renaming, and `renameEnds` how a renaming ends in all cases.
-/

namespace FileProfile

/-- How a renamed regular file is classified, `h` being the handle of its new type. -/
def Session.reclassified (s : Session) (x : Descriptor) (name : Text) (h : HandleId) :
    Classification where
  kind := .regular
  contentType := h
  executePermitted := s.files.isExecutePermitted x.path x.mode
  executable := s.files.isExecutePermitted x.path x.mode &&
    TypeStore.isProgram s.types.rules (s.types.typeOfRegular s.files x.path name)

/-- The new state of the descriptor of a regular file, `link` telling whether its path is a link. -/
def regularChange (destination : Identity) (name : Text) (link : LinkState)
    (classification : Classification) (launcher : Option Launcher) : DescriptorChange where
  identity := some destination
  displayName := some name
  contentType := some classification.contentType
  flags := some (computeFlags link classification.executable classification.executePermitted
    (launcher.map Launcher.isLaunchable))
  hints :=
    match launcher with
    | some l => .replace l.hints
    | none => .clear

/-- Whether the path of a descriptor is a link, as its flags tell. -/
def Descriptor.linkState (x : Descriptor) : LinkState :=
  if Word32.land x.flags Flag.symlink.bit = 0 then .none else .followed

/-- What stops the renaming of a file before it is classified and moved. -/
inductive Session.Blocks (s : Session) (x : Descriptor) (name : Text) : Failure → Prop where
  | unwritable {e : Failure} (refuses : FileName.encode name = .error e) : Blocks s x name e
  | unseen {c : SystemError} (encoded : FileName.encode name = .ok name)
      (fails : s.files.lstatIfPresent (x.identity.sibling name).path = .error c) :
      Blocks s x name (c.failureOn (x.identity.sibling name).path)
  | taken : Blocks s x name (.alreadyExists (x.identity.sibling name).path)
  | closed : Blocks s x name TypeStore.closed
  | unnamed (encoded : FileName.encode name = .ok name)
      (free : s.files.lstatIfPresent (x.identity.sibling name).path = .ok none)
      (opened : s.types.isOpen) (silent : ¬ s.types.Tells s.files x.path name x.kind) :
      Blocks s x name Rules.unnamed

/-- The new state of the descriptor `x` of a regular file that gets another name, `h` being the
handle of its new type. -/
def Session.reclassifiedChange (s : Session) (x : Descriptor) (name : Text) (h : HandleId)
    (locales : List Text) : DescriptorChange :=
  regularChange (x.identity.sibling name) name x.linkState (s.reclassified x name h)
    (s.files.launcherAt x.path (s.types.typeOfRegular s.files x.path name) locales)

/-- What the renaming of a file that is no desktop entry does to its descriptor once nothing blocks
it. A file that cannot be moved stays as it is; any other file only changes its place, while a
regular one is given what its new name tells. -/
inductive Session.Relocates (s : Session) (d : DescriptorId) (x : Descriptor) (name : Text)
    (context : Context) : Except Failure Unit × Session → Prop where
  | stays {c : SystemError} {v : TypeStore} (log : List LogEntry)
      (fails : s.files.rename x.path (x.identity.sibling name).path = .error c)
      (types : v = s.types ∨
        ∃ type h u, TypeStore.Took s.types type h u ∧ TypeStore.Dropped u h v) :
      Relocates s d x name context (.error (c.failureOn x.path), { s with types := v, log })
  | carried {fs : FileSystem} (log : List LogEntry)
      (moves : s.files.rename x.path (x.identity.sibling name).path = .ok fs)
      (other : x.kind ≠ .regular) :
      Relocates s d x name context (.ok (), { s with
        files := fs
        descriptors := s.descriptors.modify d (DescriptorChange.applied
          { identity := some (x.identity.sibling name), displayName := some name })
        log })
  | reclassified {fs : FileSystem} {h : HandleId} {u v : TypeStore} (log : List LogEntry)
      (moves : s.files.rename x.path (x.identity.sibling name).path = .ok fs)
      (regular : x.kind = .regular)
      (took : TypeStore.Took s.types (s.types.typeOfRegular s.files x.path name) h u)
      (dropped : TypeStore.Dropped u x.contentType v) :
      Relocates s d x name context (.ok (), { s with
        files := fs
        types := v
        descriptors := s.descriptors.modify d
          (s.reclassifiedChange x name h context.locales).applied
        log })
  | stranded {fs : FileSystem} {h : HandleId} {u : TypeStore} (log : List LogEntry)
      (moves : s.files.rename x.path (x.identity.sibling name).path = .ok fs)
      (regular : x.kind = .regular)
      (took : TypeStore.Took s.types (s.types.typeOfRegular s.files x.path name) h u)
      (unused : s.types.referencesOf x.contentType ≤ 0) :
      Relocates s d x name context (.error (u.released x.contentType), { s with
        files := fs
        types := u
        descriptors := s.descriptors.modify d
          (s.reclassifiedChange x name h context.locales).begun
        log })

/-- How the renaming of a file that is no desktop entry ends once nothing blocks it. The file stays,
and what has been looked up for it is given up again; or it moves, and the descriptor with it; or it
moves, but the handle of its old type cannot be given up. -/
inductive Session.MoveEnds (s : Session) (d : DescriptorId) (x : Descriptor) (name : Text) :
    Except Failure Unit × Session → Prop where
  | stays {c : SystemError} {v : TypeStore} (log : List LogEntry)
      (fails : s.files.rename x.path (x.identity.sibling name).path = .error c)
      (types : v = s.types ∨
        ∃ type h u, TypeStore.Took s.types type h u ∧ TypeStore.Dropped u h v) :
      MoveEnds s d x name (.error (c.failureOn x.path), { s with types := v, log })
  | moved {fs : FileSystem} {v : TypeStore} {change : DescriptorChange} (log : List LogEntry)
      (moves : s.files.rename x.path (x.identity.sibling name).path = .ok fs)
      (types : (v = s.types ∧ change.contentType = none) ∨
        ∃ type h u, change.contentType = some h ∧ TypeStore.Took s.types type h u ∧
          TypeStore.Dropped u x.contentType v) :
      MoveEnds s d x name (.ok (), { s with
        files := fs
        types := v
        descriptors := s.descriptors.modify d change.applied
        log })
  | stranded {fs : FileSystem} {u : TypeStore} {change : DescriptorChange} (log : List LogEntry)
      (moves : s.files.rename x.path (x.identity.sibling name).path = .ok fs)
      (regular : x.kind = .regular) (references : u.references = s.types.references + 1)
      (unused : s.types.referencesOf x.contentType ≤ 0) :
      MoveEnds s d x name (.error (u.released x.contentType), { s with
        files := fs
        types := u
        descriptors := s.descriptors.modify d change.begun
        log })

theorem Session.Relocates.moveEnds {s : Session} {d : DescriptorId} {x : Descriptor} {name : Text}
    {context : Context} {outcome : Except Failure Unit × Session}
    (relocates : s.Relocates d x name context outcome) : s.MoveEnds d x name outcome := by
  cases relocates with
  | stays log fails types => exact .stays log fails types
  | carried log moves other => exact .moved log moves (.inl ⟨rfl, rfl⟩)
  | reclassified log moves regular took dropped =>
    exact .moved log moves (.inr ⟨_, _, _, rfl, took, dropped⟩)
  | stranded log moves regular took unused =>
    exact .stranded log moves regular took.references unused

/-- The descriptor `x` can be renamed, as far as it and the name tell. -/
structure Session.Accepts (s : Session) (d : DescriptorId) (name : Text) (x : Descriptor) :
    Prop where
  found : s.descriptors[d]? = some x
  living : x.isAlive
  accepted : FileName.validate name = .ok ()

/-- Renaming the descriptor `x` is a matter of what its desktop entry says. -/
structure Session.Edits (s : Session) (d : DescriptorId) (name : Text) (x : Descriptor) :
    Prop extends s.Accepts d name x where
  desktop : s.types.nameOf x.contentType = ContentType.desktopEntry

/-- Renaming the descriptor `x` is a matter of the name of its file. -/
structure Session.Moves (s : Session) (d : DescriptorId) (name : Text) (x : Descriptor) :
    Prop extends s.Accepts d name x where
  encoded : FileName.encode name = .ok name
  other : s.types.nameOf x.contentType ≠ ContentType.desktopEntry

/-- How a renaming ends. It is refused at once, is done in a desktop entry, is blocked before
anything happens, or comes to moving the file. -/
inductive Session.RenameEnds (s : Session) (d : DescriptorId) (name : Text) (context : Context) :
    Except Failure Unit × Session → Prop where
  | refused {e : Failure} (cause : e = .invalidName name ∨ e = Action.released) :
      RenameEnds s d name context (.error e, s)
  | edited {x : Descriptor} {outcome : Except Failure Unit × Session} (edits : s.Edits d name x)
      (run : (Action.renameEntry d name context).runOn s = outcome) :
      RenameEnds s d name context outcome
  | blocked {x : Descriptor} {e : Failure} (accepts : s.Accepts d name x)
      (other : s.types.nameOf x.contentType ≠ ContentType.desktopEntry)
      (blocks : s.Blocks x name e) : RenameEnds s d name context (.error e, s)
  | moved {x : Descriptor} {outcome : Except Failure Unit × Session} (moves : s.Moves d name x)
      (free : s.files.lstatIfPresent (x.identity.sibling name).path = .ok none)
      (opened : x.kind = .regular → s.types.isOpen)
      (tells : s.types.Tells s.files x.path name x.kind) (ends : s.MoveEnds d x name outcome) :
      RenameEnds s d name context outcome

namespace Action

variable {s : Session} {d : DescriptorId} {x : Descriptor} {name : Text} {context : Context}

/-! ## Which steps are taken -/

theorem runOn_rename_invalid (s : Session) (d : DescriptorId) (context : Context)
    (invalid : FileName.validate name ≠ .ok ()) :
    (rename d name context).runOn s = (.error (.invalidName name), s) := by
  have refused : FileName.validate name = .error (.invalidName name) := by
    unfold FileName.validate at invalid ⊢
    split at invalid
    · next misfits => exact if_pos misfits
    · exact absurd rfl invalid
  unfold rename
  exact runOn_bind_error (runOn_ofExcept_of_eq refused s)

theorem runOn_rename_released (context : Context) (valid : FileName.validate name = .ok ())
    (gone : ∀ x, s.descriptors[d]? = some x → ¬ x.isAlive) :
    (rename d name context).runOn s = (.error released, s) := by
  unfold rename
  rw [runOn_bind_ok (runOn_ofExcept_of_eq valid s), runOn_bind_error (runOn_alive_released gone)]

/-- A renaming is refused where the name is no file name or the descriptor has been released. -/
theorem runOn_rename_refused (context : Context) (refused : ¬ (FileName.validate name = .ok () ∧
    ∃ x, s.descriptors[d]? = some x ∧ x.isAlive)) :
    ∃ e, (rename d name context).runOn s = (.error e, s) ∧
      (e = .invalidName name ∨ e = released) := by
  by_cases valid : FileName.validate name = .ok ()
  · have gone : ∀ x, s.descriptors[d]? = some x → ¬ x.isAlive :=
      fun x found living => refused ⟨valid, x, found, living⟩
    exact ⟨released, runOn_rename_released context valid gone, .inr rfl⟩
  · exact ⟨.invalidName name, runOn_rename_invalid s d context valid, .inl rfl⟩

/-- Only a living descriptor can be renamed, and only to a file name. -/
theorem accepted_of_rename {t : Session} (run : (rename d name context).runOn s = (.ok (), t)) :
    FileName.validate name = .ok () ∧ ∃ x, s.descriptors[d]? = some x ∧ x.isAlive := by
  by_contra refused
  obtain ⟨e, fails, -⟩ := runOn_rename_refused context refused
  rw [fails] at run
  cases run

/-- A desktop entry is given a new name inside, any other file a new path. -/
theorem runOn_rename (context : Context) (valid : FileName.validate name = .ok ())
    (found : s.descriptors[d]? = some x) (living : x.isAlive) :
    (rename d name context).runOn s =
      if s.types.nameOf x.contentType = ContentType.desktopEntry then
        (renameEntry d name context).runOn s
      else (renamePath d name context).runOn s := by
  have named : (typeName x.contentType).runOn s = (.ok (s.types.nameOf x.contentType), s) := rfl
  unfold rename
  rw [runOn_bind_ok (runOn_ofExcept_of_eq valid s), runOn_bind_ok (runOn_alive found living),
    runOn_bind_ok named]
  split <;> rfl

theorem runOn_rename_entry (valid : FileName.validate name = .ok ())
    (found : s.descriptors[d]? = some x) (living : x.isAlive)
    (desktop : s.types.nameOf x.contentType = ContentType.desktopEntry) :
    (rename d name context).runOn s = (renameEntry d name context).runOn s :=
  (runOn_rename context valid found living).trans (if_pos desktop)

theorem runOn_rename_path (valid : FileName.validate name = .ok ())
    (found : s.descriptors[d]? = some x) (living : x.isAlive)
    (other : s.types.nameOf x.contentType ≠ ContentType.desktopEntry) :
    (rename d name context).runOn s = (renamePath d name context).runOn s :=
  (runOn_rename context valid found living).trans (if_neg other)

/-- A name that can be written is written as it is. -/
theorem encode_eq {fileName : Text} (encoded : FileName.encode name = .ok fileName) :
    fileName = name := by
  unfold FileName.encode at encoded
  split at encoded
  · exact absurd encoded (by simp)
  · exact (Except.ok.inj encoded).symm

section

variable (encoded : FileName.encode name = .ok name) (found : s.descriptors[d]? = some x)
  (living : x.isAlive) (free : s.files.lstatIfPresent (x.identity.sibling name).path = .ok none)

include encoded found living free

theorem runOn_renamePath_other (other : x.kind ≠ .regular) :
    (renamePath d name context).runOn s = (do
      move x.path (x.identity.sibling name).path
      apply d {
        identity := some (x.identity.sibling name), displayName := some name }).runOn s := by
  unfold renamePath
  rw [runOn_bind_ok (runOn_ofExcept_of_eq encoded s), runOn_bind_ok (runOn_alive found living)]
  simp only
  rw [runOn_bind_ok (runOn_requireFree free), if_neg other]

theorem runOn_renamePath_regular (context : Context) (sound : s.types.Sound)
    (opened : s.types.isOpen) (tells : s.types.Tells s.files x.path name x.kind)
    (regular : x.kind = .regular) : ∃ h t log,
    (renamePath d name context).runOn s =
      (moveRegular d x (x.identity.sibling name) name (s.reclassified x name h)
        (s.files.launcherAt x.path (s.types.typeOfRegular s.files x.path name)
          context.locales)).runOn { s with types := t, log } ∧
      TypeStore.Took s.types (s.types.typeOfRegular s.files x.path name) h t := by
  obtain ⟨h, t, log, classifies, took⟩ := runOn_classifyRegular sound opened (tells regular) x.mode
  obtain ⟨log', launches⟩ := runOn_launcherOf x.path h context.locales
    { s with types := t, log }
  refine ⟨h, t, log', ?_, took⟩
  unfold renamePath
  rw [runOn_bind_ok (runOn_ofExcept_of_eq encoded s), runOn_bind_ok (runOn_alive found living)]
  simp only
  rw [runOn_bind_ok (runOn_requireFree free), if_pos regular, runOn_bind_ok classifies,
    runOn_bind_ok launches]
  simp only [took.nameOf]
  rfl

theorem runOn_renamePath_closed (shut : ¬ s.types.isOpen) (regular : x.kind = .regular) :
    (renamePath d name context).runOn s = (.error TypeStore.closed, s) := by
  unfold renamePath
  rw [runOn_bind_ok (runOn_ofExcept_of_eq encoded s), runOn_bind_ok (runOn_alive found living)]
  simp only
  rw [runOn_bind_ok (runOn_requireFree free), if_pos regular,
    runOn_bind_error (runOn_classifyRegular_closed shut x.path name x.mode)]

theorem runOn_renamePath_unnamed (opened : s.types.isOpen)
    (silent : ¬ s.types.Tells s.files x.path name x.kind) :
    (renamePath d name context).runOn s = (.error Rules.unnamed, s) := by
  obtain ⟨regular, silent⟩ := Classical.not_imp.mp silent
  unfold renamePath
  rw [runOn_bind_ok (runOn_ofExcept_of_eq encoded s), runOn_bind_ok (runOn_alive found living)]
  simp only
  rw [runOn_bind_ok (runOn_requireFree free), if_pos regular,
    runOn_bind_error (runOn_classifyRegular_unnamed opened silent x.mode)]

end

/-- A renaming is stopped before anything happens where the name cannot be written or is taken, or
where the type of the file would have to be looked up in a closed store or is not told. -/
theorem runOn_renamePath_blocked (context : Context) (found : s.descriptors[d]? = some x)
    (living : x.isAlive) (blocked : ¬ (FileName.encode name = .ok name ∧
      s.files.lstatIfPresent (x.identity.sibling name).path = .ok none ∧
      (x.kind = .regular → s.types.isOpen) ∧ s.types.Tells s.files x.path name x.kind)) :
    ∃ e, (renamePath d name context).runOn s = (.error e, s) ∧ s.Blocks x name e := by
  cases encoded : FileName.encode name with
  | error refusal =>
    refine ⟨refusal, ?_, .unwritable encoded⟩
    unfold renamePath
    exact runOn_bind_error (runOn_ofExcept_of_eq encoded s)
  | ok fileName =>
    obtain rfl := encode_eq encoded
    by_cases free : s.files.lstatIfPresent (x.identity.sibling fileName).path = .ok none
    · by_cases opened : x.kind = .regular → s.types.isOpen
      · have silent : ¬ s.types.Tells s.files x.path fileName x.kind := fun tells =>
          blocked ⟨encoded, free, opened, tells⟩
        have opened := opened (Classical.not_imp.mp silent).1
        exact ⟨_, runOn_renamePath_unnamed encoded found living free opened silent,
          .unnamed encoded free opened silent⟩
      · obtain ⟨regular, shut⟩ := Classical.not_imp.mp opened
        exact ⟨_, runOn_renamePath_closed encoded found living free shut regular, .closed⟩
    · obtain ⟨taken, blocks, cause⟩ := runOn_requireFree_error free
      refine ⟨taken, ?_, ?_⟩
      · unfold renamePath
        rw [runOn_bind_ok (runOn_ofExcept_of_eq encoded s),
          runOn_bind_ok (runOn_alive found living)]
        exact runOn_bind_error blocks
      · rcases cause with rfl | ⟨c, unseen, rfl⟩
        · exact .taken
        · exact .unseen encoded unseen

/-! ## Moving a regular file -/

section

variable {destination : Identity} (classification : Classification) (launcher : Option Launcher)

/-- A move that is tried with a way out, where it succeeds. -/
theorem runOn_try_move {fs : FileSystem} (giveUp : Failure → Action Unit)
    (moves : s.files.rename x.path destination.path = .ok fs) : ∃ log,
    (tryCatch (move x.path destination.path) giveUp).runOn s =
      (.ok (), { s with files := fs, log }) := by
  obtain ⟨log, run⟩ := runOn_move moves
  refine ⟨log, ?_⟩
  rw [runOn_tryCatch, run]

theorem runOn_moveRegular (name : Text) {fs : FileSystem} (sound : s.types.Sound)
    (found : s.descriptors[d]? = some x) (living : x.isAlive)
    (moves : s.files.rename x.path destination.path = .ok fs)
    (counted : 0 < s.types.referencesOf x.contentType) : ∃ t log,
    (moveRegular d x destination name classification launcher).runOn s =
      (.ok (), { s with
        files := fs
        types := t
        descriptors := s.descriptors.modify d
          (regularChange destination name x.linkState classification launcher).applied
        log }) ∧
      TypeStore.Dropped s.types x.contentType t := by
  obtain ⟨log, run⟩ := runOn_try_move (fun e => do
    unrefType classification.contentType
    throw e) moves
  obtain ⟨t, log', applies, dropped⟩ := runOn_apply_replacing (s := { s with files := fs, log })
    (c := regularChange destination name x.linkState classification launcher) sound found living
    rfl counted
  refine ⟨t, log', ?_, dropped⟩
  unfold moveRegular
  rw [runOn_bind_ok run]
  exact applies

theorem runOn_moveRegular_released (name : Text) {fs : FileSystem}
    (found : s.descriptors[d]? = some x) (living : x.isAlive)
    (moves : s.files.rename x.path destination.path = .ok fs)
    (unused : s.types.referencesOf x.contentType ≤ 0) : ∃ log,
    (moveRegular d x destination name classification launcher).runOn s =
      (.error (s.types.released x.contentType), { s with
        files := fs
        descriptors := s.descriptors.modify d
          (regularChange destination name x.linkState classification launcher).begun
        log }) := by
  obtain ⟨log, run⟩ := runOn_try_move (fun e => do
    unrefType classification.contentType
    throw e) moves
  refine ⟨log, ?_⟩
  unfold moveRegular
  rw [runOn_bind_ok run]
  exact runOn_apply_released (s := { s with files := fs, log })
    (c := regularChange destination name x.linkState classification launcher) found living rfl
    unused

/-- Where the file cannot move, the handle of its new type is given up again. -/
theorem runOn_moveRegular_stays (name : Text) {e : SystemError} (sound : s.types.Sound)
    (stays : s.files.rename x.path destination.path = .error e)
    (counted : 0 < s.types.referencesOf classification.contentType) : ∃ t log,
    (moveRegular d x destination name classification launcher).runOn s =
      (.error (e.failureOn x.path), { s with types := t, log }) ∧
      TypeStore.Dropped s.types classification.contentType t := by
  obtain ⟨t, log, drops, dropped⟩ := runOn_unrefType sound counted
  have fails : (tryCatch (move x.path destination.path) (fun e => do
      unrefType classification.contentType
      throw e)).runOn s = (.error (e.failureOn x.path), { s with types := t, log }) := by
    rw [runOn_tryCatch, runOn_move_error stays]
    simp only
    rw [runOn_bind_ok drops, runOn_throw]
  refine ⟨t, log, ?_, dropped⟩
  unfold moveRegular
  exact runOn_bind_error fails

end

/-! ## Moving any file -/

section

variable (encoded : FileName.encode name = .ok name) (found : s.descriptors[d]? = some x)
  (living : x.isAlive) (free : s.files.lstatIfPresent (x.identity.sibling name).path = .ok none)

include encoded found living free

theorem relocates_other (context : Context) (other : x.kind ≠ .regular) :
    s.Relocates d x name context ((renamePath d name context).runOn s) := by
  rw [runOn_renamePath_other encoded found living free other]
  cases moves : s.files.rename x.path (x.identity.sibling name).path with
  | error c =>
    rw [runOn_bind_error (runOn_move_error moves)]
    exact .stays s.log moves (.inl rfl)
  | ok fs =>
    obtain ⟨log, run⟩ := runOn_move moves
    have applies := runOn_apply_keeping (s := { s with files := fs, log })
      (c := { identity := some (x.identity.sibling name), displayName := some name }) found living
      rfl
    rw [runOn_bind_ok run, applies]
    exact .carried log moves other

theorem relocates_regular (context : Context) (sound : s.types.Sound) (opened : s.types.isOpen)
    (tells : s.types.Tells s.files x.path name x.kind) (regular : x.kind = .regular) :
    s.Relocates d x name context ((renamePath d name context).runOn s) := by
  obtain ⟨h, u, log, classifies, took⟩ := runOn_renamePath_regular encoded found living free context
    sound opened tells regular
  rw [classifies]
  cases moves : s.files.rename x.path (x.identity.sibling name).path with
  | error c =>
    obtain ⟨v, log', stays, dropped⟩ := runOn_moveRegular_stays (d := d)
      (s := { s with types := u, log }) (s.reclassified x name h)
      (s.files.launcherAt x.path (s.types.typeOfRegular s.files x.path name) context.locales) name
      took.sound moves (took.counted sound)
    rw [stays]
    exact .stays log' moves (.inr ⟨_, h, u, took, dropped⟩)
  | ok fs =>
    by_cases counted : 0 < u.referencesOf x.contentType
    · obtain ⟨v, log', run, dropped⟩ := runOn_moveRegular (s := { s with types := u, log })
        (s.reclassified x name h)
        (s.files.launcherAt x.path (s.types.typeOfRegular s.files x.path name) context.locales) name
        took.sound found living moves counted
      rw [run]
      exact .reclassified log' moves regular took dropped
    · obtain ⟨log', run⟩ := runOn_moveRegular_released (s := { s with types := u, log })
        (s.reclassified x name h)
        (s.files.launcherAt x.path (s.types.typeOfRegular s.files x.path name) context.locales) name
        found living moves (Int.not_lt.mp counted)
      rw [run]
      exact .stranded log' moves regular took
        (Int.not_lt.mp fun held => counted (took.counted_old held))

theorem relocates (context : Context) (sound : s.types.Sound)
    (opened : x.kind = .regular → s.types.isOpen)
    (tells : s.types.Tells s.files x.path name x.kind) :
    s.Relocates d x name context ((renamePath d name context).runOn s) := by
  by_cases regular : x.kind = .regular
  · exact relocates_regular encoded found living free context sound (opened regular) tells
      regular
  · exact relocates_other encoded found living free context regular

theorem moveEnds (context : Context) (sound : s.types.Sound)
    (opened : x.kind = .regular → s.types.isOpen)
    (tells : s.types.Tells s.files x.path name x.kind) :
    s.MoveEnds d x name ((renamePath d name context).runOn s) :=
  (relocates encoded found living free context sound opened tells).moveEnds

end

theorem renameEnds (sound : s.types.Sound) (d : DescriptorId) (name : Text) (context : Context) :
    s.RenameEnds d name context ((rename d name context).runOn s) := by
  by_cases accepts : FileName.validate name = .ok () ∧
      ∃ x, s.descriptors[d]? = some x ∧ x.isAlive
  · obtain ⟨accepted, x, found, living⟩ := accepts
    by_cases desktop : s.types.nameOf x.contentType = ContentType.desktopEntry
    · rw [runOn_rename_entry accepted found living desktop]
      exact .edited ⟨⟨found, living, accepted⟩, desktop⟩ rfl
    · rw [runOn_rename_path accepted found living desktop]
      by_cases way : FileName.encode name = .ok name ∧
          s.files.lstatIfPresent (x.identity.sibling name).path = .ok none ∧
          (x.kind = .regular → s.types.isOpen) ∧ s.types.Tells s.files x.path name x.kind
      · obtain ⟨encoded, free, opened, tells⟩ := way
        exact .moved ⟨⟨found, living, accepted⟩, encoded, desktop⟩ free opened tells
          (moveEnds encoded found living free context sound opened tells)
      · obtain ⟨_, fails, blocks⟩ := runOn_renamePath_blocked context found living way
        rw [fails]
        exact .blocked ⟨found, living, accepted⟩ desktop blocks
  · obtain ⟨_, refuses, cause⟩ := runOn_rename_refused context accepts
    rw [refuses]
    exact .refused cause

end Action

end FileProfile
