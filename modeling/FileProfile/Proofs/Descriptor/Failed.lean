import FileProfile.Proofs.Descriptor.Entry
import FileProfile.Proofs.Session.Run

/-!
What a renaming that fails leaves behind.

`Session.Unchanged` says that the descriptors, all counts of references and every entry but the
temporary one are as before. A failed renaming leaves the session so in all cases but one, and that
one is described exactly by `Session.Stranded`: a regular file that can be moved, and is, while the
handle of its type has been given up so often that it cannot be given up once more.
-/

namespace FileProfile

/-- The session `t` shows what `s` showed, apart from the temporary file beside that of the
descriptor, which the octets `random` mark. -/
structure Session.Unchanged (s : Session) (d : DescriptorId) (random : Octets) (t : Session) :
    Prop where
  descriptors : t.descriptors = s.descriptors
  isShut : t.types.isShut = s.types.isShut
  references : t.types.references = s.types.references
  referencesOf : ∀ h, t.types.referencesOf h = s.types.referencesOf h
  nameOf : ∀ h, h < s.types.handles.length → t.types.nameOf h = s.types.nameOf h
  entries : ∀ p,
    (∀ x, s.descriptors[d]? = some x → p ≠ FileSystem.temporaryPath random x.path) →
    t.files.find? p = s.files.find? p

/-- Everything lets the file of a descriptor be moved, but the handle of its type has no reference
left that it could give up. -/
structure Session.Stranded (s : Session) (d : DescriptorId) (name : Text) (x : Descriptor) :
    Prop where
  found : s.descriptors[d]? = some x
  living : x.isAlive
  accepted : FileName.validate name = .ok ()
  encoded : FileName.encode name = .ok name
  other : s.types.nameOf x.contentType ≠ ContentType.desktopEntry
  regular : x.kind = .regular
  opened : s.types.isOpen
  tells : s.types.Tells s.files x.path name x.kind
  free : s.files.lstatIfPresent (x.identity.sibling name).path = .ok none
  moves : ∃ fs, s.files.rename x.path (x.identity.sibling name).path = .ok fs
  unused : s.types.referencesOf x.contentType ≤ 0

namespace Session

variable {s t : Session} {d : DescriptorId} {x : Descriptor} {name : Text} {context : Context}
  {e : Failure}

/-! ## Leaving everything as it was -/

/-- Only the log tells that something was tried. -/
theorem Unchanged.of_log (s : Session) (d : DescriptorId) (random : Octets)
    (log : List LogEntry) : s.Unchanged d random { s with log } where
  descriptors := rfl
  isShut := rfl
  references := rfl
  referencesOf _ := rfl
  nameOf _ _ := rfl
  entries _ _ := rfl

theorem Unchanged.refl (s : Session) (d : DescriptorId) (random : Octets) :
    s.Unchanged d random s := .of_log s d random s.log

/-- A reference that is taken and given up again leaves no trace. -/
theorem Unchanged.of_took_dropped {type : TypeName} {h : HandleId} {u v : TypeStore}
    (took : TypeStore.Took s.types type h u) (dropped : TypeStore.Dropped u h v) (d : DescriptorId)
    (random : Octets) (log : List LogEntry) :
    s.Unchanged d random { s with types := v, log } where
  descriptors := rfl
  isShut := (took.sameCounts dropped).isShut
  references := (took.sameCounts dropped).references
  referencesOf := (took.sameCounts dropped).referencesOf
  nameOf k inside := (dropped.nameOf k).trans (took.nameOf_old k inside)
  entries _ _ := rfl

/-! ## Desktop entries -/

theorem unchanged_of_renameEntry (found : s.descriptors[d]? = some x) (living : x.isAlive)
    (fails : (Action.renameEntry d name context).runOn s = (.error e, t)) :
    s.Unchanged d context.random t := by
  rcases Action.renameEntry_eq_error found living fails with
    ⟨_, -, -, rfl⟩ | ⟨bytes, -, ⟨-, rfl⟩ | ⟨entry, fs, -, replaces, rfl⟩⟩
  · exact .refl t d _
  · exact .refl t d _
  · exact {
      descriptors := rfl
      isShut := rfl
      references := rfl
      referencesOf := fun _ => rfl
      nameOf := fun _ _ => rfl
      entries := fun p other => FileSystem.find?_replaceContents_error replaces (other x found) }

/-! ## Any files -/

/-- A renaming that fails leaves everything as it was, where it is not stranded. -/
theorem unchanged_of_not_stranded (sound : s.types.Sound)
    (fails : (Action.rename d name context).runOn s = (.error e, t))
    (clear : ∀ x, ¬ s.Stranded d name x) : s.Unchanged d context.random t := by
  have ends := Action.renameEnds sound d name context
  rw [fails] at ends
  cases ends with
  | refused cause => exact .refl s d _
  | edited edits run => exact unchanged_of_renameEntry edits.found edits.living run
  | blocked accepts other blocks => exact .refl s d _
  | @moved x _ moves free opened tells ends =>
    cases ends with
    | stays log unmoved types =>
      rcases types with rfl | ⟨type, h, u, took, dropped⟩
      · exact .of_log s d _ log
      · exact .of_took_dropped took dropped d _ log
    | stranded log goes regular references unused =>
      exact absurd ⟨moves.found, moves.living, moves.accepted, moves.encoded, moves.other, regular,
        opened regular, tells, free, ⟨_, goes⟩, unused⟩ (clear x)

/-! ## The stranded descriptor -/

/-- A stranded renaming that fails keeps the reference to the new type that it has taken. -/
theorem Stranded.taken (sound : s.types.Sound) (stranded : s.Stranded d name x)
    (fails : (Action.rename d name context).runOn s = (.error e, t)) :
    t.types.references = s.types.references + 1 := by
  have ends := Action.moveEnds stranded.encoded stranded.found stranded.living stranded.free context
    sound (fun _ => stranded.opened) stranded.tells
  rw [← Action.runOn_rename_path stranded.accepted stranded.found stranded.living stranded.other,
    fails] at ends
  cases ends with
  | stays log unmoved types =>
    obtain ⟨fs, moves⟩ := stranded.moves
    rw [unmoved] at moves
    cases moves
  | stranded log moves regular references unused => exact references

/-- A renaming that fails leaves everything as it was exactly if it is not stranded. -/
theorem unchanged_iff_of_rename_error (reachable : s.Reachable)
    (fails : (Action.rename d name context).runOn s = (.error e, t)) :
    s.Unchanged d context.random t ↔ ∀ x, ¬ s.Stranded d name x := by
  refine ⟨fun unchanged x stranded => ?_, unchanged_of_not_stranded reachable.sound fails⟩
  have more := stranded.taken reachable.sound fails
  have same := unchanged.references
  omega

/-- A session whose only descriptor has lost the reference to the handle of its type. -/
def stripped : Session :=
  let files : FileSystem := { entries := [("/a", .created (Utf8.encode "text") 0o644)] }
  let opened : Session := { files, types := .new [] {} [] }
  (opened.after (.resolve "a" {})).after (.unrefType 0)

theorem reachable_stripped : stripped.Reachable :=
  .ask (.unrefType 0) (.ask (.resolve "a" {}) (.start _ _ _ _) nofun) nofun

theorem stranded_stripped : stripped.Stranded 0 "b"
    (.new ⟨"/a"⟩ .regular (Node.created (Utf8.encode "text") 0o644).attributes 0 0 none) := by
  have calm : stripped.files.IsFaultFree :=
    FileSystem.isFaultFree_of_faults_eq_nil (by decide +kernel)
  have stands : stripped.files.find? "/a" = some (.created (Utf8.encode "text") 0o644) := by
    decide +kernel
  exact {
    found := by decide +kernel
    living := rfl
    accepted := rfl
    encoded := rfl
    other := by decide +kernel
    regular := rfl
    opened := by decide +kernel
    tells := by decide +kernel
    free := FileSystem.lstatIfPresent_of_free calm (by decide +kernel)
    moves := ⟨_, FileSystem.rename_of_find? calm stands⟩
    unused := by decide +kernel }

theorem not_unchanged_of_stripped : ∃ e t, (Action.rename 0 "b" {}).runOn stripped = (.error e, t) ∧
    ¬ stripped.Unchanged 0 [] t := by
  obtain ⟨e, fails⟩ := Action.exists_error_of_toOption (a := Action.rename 0 "b" {}) (s := stripped)
    (by decide +kernel)
  refine ⟨e, _, fails, fun unchanged => ?_⟩
  exact (unchanged_iff_of_rename_error reachable_stripped fails).mp unchanged _ stranded_stripped

end Session

end FileProfile
