import FileProfile.Proofs.Descriptor.Renaming
import FileProfile.Proofs.KeyFile.Edit
import FileProfile.Proofs.Storage.Replace

/-!
Renaming a desktop entry, where it succeeds and where it fails.

`rename_entry_eq_ok` says the whole session that is left: the contents of the file have been
replaced, and the descriptor has the new name among its hints. `renameEntry_eq_error` says which
step can fail, and that the files alone may have changed then.
-/

namespace FileProfile

/-- The descriptor with another name among its hints, where it has hints. -/
def Descriptor.entitled (x : Descriptor) (name : Text) : Descriptor :=
  { x with hints := x.hints.map fun hints => { hints with name := some name } }

namespace Action

variable {s t : Session} {d : DescriptorId} {x : Descriptor} {name : Text} {context : Context}

theorem entryOf_eq_ok {path : Text} {bytes : Octets} {entry : KeyFile} :
    entryOf path bytes = .ok entry ↔ ∃ text, Utf8.decode? bytes = some text ∧
      KeyFile.parse text = .ok entry ∧ entry.hasGroup DesktopEntry.group = true := by
  unfold entryOf
  cases Utf8.decode? bytes with
  | none => simp
  | some text =>
    simp only [Option.some.injEq, exists_eq_left']
    cases KeyFile.parse text with
    | error e => simp
    | ok f =>
      by_cases grouped : f.hasGroup DesktopEntry.group = true
      · simp only [grouped, if_true, Except.ok.injEq]
        exact ⟨fun same => ⟨same, same ▸ grouped⟩, fun both => both.1⟩
      · simp only [grouped, if_false, Except.ok.injEq, reduceCtorEq, false_iff]
        rintro ⟨rfl, has⟩
        exact grouped has

theorem renameEntry_eq_ok (found : s.descriptors[d]? = some x) (living : x.isAlive)
    (run : (renameEntry d name context).runOn s = (.ok (), t)) : ∃ bytes entry fs log,
    s.files.readFile x.path = .ok bytes ∧ entryOf x.path bytes = .ok entry ∧
      s.files.replaceContents context.random x.path (Utf8.encode (entry.set DesktopEntry.group
        (DesktopEntry.shownNameKey entry context.locales) name).text) = (.ok (), fs) ∧
      t = { s with
        files := fs
        descriptors := s.descriptors.set d (x.entitled name)
        log } := by
  unfold renameEntry at run
  rw [runOn_bind_ok (runOn_alive found living), runOn_bind_ok (runOn_files s),
    runOn_bind_eq_ok] at run
  obtain ⟨bytes, s₁, reads, run⟩ := run
  obtain ⟨read, rfl⟩ := Prod.mk.inj reads
  rw [runOn_bind_eq_ok] at run
  obtain ⟨entry, s₂, parses, run⟩ := run
  obtain ⟨parsed, rfl⟩ := Prod.mk.inj parses
  simp only at run
  rw [runOn_bind_eq_ok] at run
  obtain ⟨_, s₃, replaces, run⟩ := run
  rw [runOn_onFiles] at replaces
  obtain ⟨replaced, rfl⟩ := Prod.mk.inj replaces
  rw [runOn_bind_ok (runOn_record _ _ _)] at run
  have content : s.files.readFile x.path = .ok bytes := by
    cases answer : s.files.readFile x.path with
    | error e =>
      rw [answer] at read
      cases read
    | ok same =>
      rw [answer] at read
      exact congrArg Except.ok (Except.ok.inj read)
  refine ⟨bytes, entry, _, t.log, content, parsed, Prod.ext replaced rfl, ?_⟩
  cases hinted : x.hints with
  | none =>
    have same : x.entitled name = x := by
      unfold Descriptor.entitled
      rw [hinted, Option.map_none, ← hinted]
    have kept : s.descriptors.set d x = s.descriptors := by
      obtain ⟨inside, here⟩ := List.getElem?_eq_some_iff.mp found
      rw [← here, List.set_getElem_self]
    rw [hinted] at run
    rw [same, kept]
    rw [← (Prod.mk.inj run).2]
  | some hints =>
    have applies := fun fs log => runOn_apply_keeping (s := { s with files := fs, log })
      (c := { hints := .replace { hints with name := some name } }) found living rfl
    have changed :
        DescriptorChange.applied { hints := .replace { hints with name := some name } } x =
          x.entitled name := by
      unfold Descriptor.entitled
      rw [hinted]
      rfl
    rw [hinted] at run
    simp only at run
    rw [applies] at run
    rw [← changed, ← modify_eq_set found, ← (Prod.mk.inj run).2]

/-- Renaming a desktop entry fails where the entry cannot be read, is none, or cannot be replaced.
Once its contents are replaced nothing can fail: the descriptor is still alive. -/
theorem renameEntry_eq_error (found : s.descriptors[d]? = some x) (living : x.isAlive)
    {e : Failure} (run : (renameEntry d name context).runOn s = (.error e, t)) :
    (∃ c, s.files.readFile x.path = .error c ∧ e = c.failureOn x.path ∧ t = s) ∨
    ∃ bytes, s.files.readFile x.path = .ok bytes ∧
      ((entryOf x.path bytes = .error e ∧ t = s) ∨
        ∃ entry fs, entryOf x.path bytes = .ok entry ∧
          s.files.replaceContents context.random x.path (Utf8.encode (entry.set DesktopEntry.group
            (DesktopEntry.shownNameKey entry context.locales) name).text) = (.error e, fs) ∧
          t = { s with files := fs }) := by
  unfold renameEntry at run
  rw [runOn_bind_ok (runOn_alive found living), runOn_bind_ok (runOn_files s), runOn_bind,
    runOn_ofExcept] at run
  cases reads : s.files.readFile x.path with
  | error c =>
    rw [reads] at run
    obtain ⟨failed, rfl⟩ := Prod.mk.inj run
    exact .inl ⟨c, rfl, (Except.error.inj failed).symm, rfl⟩
  | ok bytes =>
    refine .inr ⟨bytes, rfl, ?_⟩
    rw [reads] at run
    simp only [Except.mapError] at run
    rw [runOn_bind, runOn_ofExcept] at run
    cases parses : entryOf x.path bytes with
    | error refusal =>
      rw [parses] at run
      obtain ⟨failed, rfl⟩ := Prod.mk.inj run
      exact .inl ⟨congrArg Except.error (Except.error.inj failed), rfl⟩
    | ok entry =>
      rw [parses] at run
      simp only at run
      rw [runOn_bind_eq_error] at run
      rcases run with run | ⟨_, s₁, replaces, run⟩
      · rw [runOn_onFiles] at run
        obtain ⟨failed, rfl⟩ := Prod.mk.inj run
        exact .inr ⟨entry, _, rfl, Prod.ext failed rfl, rfl⟩
      · rw [runOn_onFiles] at replaces
        obtain ⟨-, rfl⟩ := Prod.mk.inj replaces
        rw [runOn_bind_ok (runOn_record _ _ _)] at run
        cases hinted : x.hints with
        | none =>
          rw [hinted] at run
          cases run
        | some hints =>
          rw [hinted] at run
          have applies := fun fs log => runOn_apply_keeping (s := { s with files := fs, log })
            (c := { hints := .replace { hints with name := some name } }) found living rfl
          simp only at run
          rw [applies] at run
          cases run

/-- A desktop entry has been renamed only by replacing its contents. -/
theorem rename_entry_eq_ok (found : s.descriptors[d]? = some x) (living : x.isAlive)
    (desktop : s.types.nameOf x.contentType = ContentType.desktopEntry)
    (run : (rename d name context).runOn s = (.ok (), t)) :
    FileName.validate name = .ok () ∧ ∃ bytes entry fs log,
      s.files.readFile x.path = .ok bytes ∧ entryOf x.path bytes = .ok entry ∧
      s.files.replaceContents context.random x.path (Utf8.encode (entry.set DesktopEntry.group
        (DesktopEntry.shownNameKey entry context.locales) name).text) = (.ok (), fs) ∧
      t = { s with
        files := fs
        descriptors := s.descriptors.set d (x.entitled name)
        log } := by
  have accepted := (accepted_of_rename run).1
  rw [runOn_rename_entry accepted found living desktop] at run
  exact ⟨accepted, renameEntry_eq_ok found living run⟩

end Action

end FileProfile
