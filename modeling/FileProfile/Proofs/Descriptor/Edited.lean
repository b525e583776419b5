import FileProfile.Proofs.Descriptor.Entry
import FileProfile.Proofs.Launch.Entry
import FileProfile.Proofs.Session.Run

/-!
Renaming a desktop entry changes its file and nothing else.

Where the renaming succeeds, no other path is touched and the permission bits stay as they are.
The octets at the path differ in the one line of the displayed name exactly if they do not begin
with a byte order mark and all their lines end alike (`rename_editsOneLine_iff`).
-/

namespace FileProfile

namespace Action

/-- Only a descriptor that is alive can be renamed. -/
theorem isAlive_of_rename {s t : Session} {d : DescriptorId} {x : Descriptor} {name : Text}
    {context : Context} (found : s.descriptors[d]? = some x)
    (run : (rename d name context).runOn s = (.ok (), t)) : x.isAlive := by
  obtain ⟨-, y, same, living⟩ := accepted_of_rename run
  rw [found] at same
  exact Option.some.inj same ▸ living

end Action

/-- What renaming a desktop entry does to the files, and when it edits one line alone. -/
theorem rename_editsOneLine_iff {s t : Session} (calm : s.files.IsFaultFree) {d : DescriptorId}
    {x : Descriptor} (found : s.descriptors[d]? = some x)
    (desktop : s.types.nameOf x.contentType = ContentType.desktopEntry) {name : Text}
    {context : Context} (run : (Action.rename d name context).runOn s = (.ok (), t)) :
    ∃ bytes bytes' text entry before after,
      s.files.readFile x.path = .ok bytes ∧ t.files.readFile x.path = .ok bytes' ∧
      Utf8.decode? bytes = some text ∧ KeyFile.parse text = .ok entry ∧
      (entry.EditsOneLine DesktopEntry.group (DesktopEntry.shownNameKey entry context.locales)
          (KeyLine.ofValue (DesktopEntry.shownNameKey entry context.locales) name).raw
          bytes bytes' ↔
        ¬ Utf8.markOctets <+: bytes ∧ ¬ (Text.hasCrLf text ∧ Text.hasLoneFeed false text)) ∧
      s.files.stat x.path = .ok before ∧ t.files.stat x.path = .ok after ∧
      permissionBits after.mode = permissionBits before.mode ∧
      ∀ q, q ≠ x.path → t.files.find? q = s.files.find? q := by
  have living := Action.isAlive_of_rename found run
  obtain ⟨accepted, bytes, entry, fs, log, reads, entryOf, replaces, rfl⟩ :=
    Action.rename_entry_eq_ok found living desktop run
  obtain ⟨text, decoded, parses, grouped⟩ := Action.entryOf_eq_ok.mp entryOf
  obtain ⟨before, rewritten⟩ := FileSystem.exists_rewritten replaces
  obtain ⟨line, feedless⟩ := DesktopEntry.paired_shownName (Utf8.decode?_cases decoded).1 parses
    context.locales accepted
  exact ⟨bytes, _, text, entry, before, _, reads, rewritten.readFile_after calm, decoded, parses,
    KeyFile.editsOneLine_iff parses grouped decoded line feedless, rewritten.behind,
    rewritten.stat_after calm, FileSystem.permissionBits_replacement _ _, rewritten.others⟩

/-- An entry that begins with a byte order mark. -/
def markedEntry : Octets := Utf8.encode "\uFEFF[Desktop Entry]\nName=Old\n"

def markedFiles : FileSystem where
  workingDirectory := "/work"
  entries := [("/work/x.desktop", .created markedEntry 0o644)]

/-- The mark in front of an entry is lost when the entry is renamed. -/
theorem not_editsOneLine_markedEntry :
    let s : Session := { files := markedFiles, types := .new [] {} [] }
    let s₁ := ((Action.resolve "x.desktop" {}).runOn s).2
    ∃ t bytes' text, ∃ entry : KeyFile, (Action.rename 0 "New" {}).runOn s₁ = (.ok (), t) ∧
      t.files.readFile "/work/x.desktop" = .ok bytes' ∧
      Utf8.decode? markedEntry = some text ∧ KeyFile.parse text = .ok entry ∧
      ¬ entry.EditsOneLine DesktopEntry.group (DesktopEntry.shownNameKey entry [Locale.neutral])
        (KeyLine.ofValue (DesktopEntry.shownNameKey entry [Locale.neutral]) "New").raw
        markedEntry bytes' := by
  intro s s₁
  let x : Descriptor := .new ⟨"/work/x.desktop"⟩ .regular
    (Node.created markedEntry 0o644).attributes 0 0 (some ⟨none, some "Old"⟩)
  have found : s₁.descriptors[0]? = some x := by decide +kernel
  have calm : s₁.files.IsFaultFree := FileSystem.isFaultFree_of_faults_eq_nil (by decide +kernel)
  have run : (Action.rename 0 "New" {}).runOn s₁ =
      (.ok (), ((Action.rename 0 "New" {}).runOn s₁).2) :=
    Action.runOn_of_toOption (by decide +kernel)
  obtain ⟨bytes, bytes', text, entry, -, -, reads, again, decoded, parses, edits, -⟩ :=
    rename_editsOneLine_iff calm found (by decide +kernel) run
  have stands : (s₁.files.readFile x.path).toOption = some markedEntry := by decide +kernel
  have same : bytes = markedEntry := by
    rw [reads] at stands
    exact Option.some.inj stands
  rw [same] at decoded edits
  refine ⟨_, bytes', text, entry, run, again, decoded, parses, fun edited => ?_⟩
  exact (edits.mp edited).1 (by decide +kernel)

end FileProfile
