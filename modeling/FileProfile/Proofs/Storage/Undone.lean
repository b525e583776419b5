import FileProfile.Proofs.Storage.Replace

/-!
Replacing the contents of a file is all or nothing, unless the temporary path is taken.

What a step adds before a later one fails stands at the temporary path alone, so clearing that path
takes it back (`replaceContents_eq_error`). It takes away as well what has stood there before: after
a failure the files are as before exactly when the file could not be looked at or its temporary path
was free (`replaceContents_undone_iff`). The failure is that of the step that failed first
(`Breaks.reports`), unless clearing up fails too (`Breaks.hides`).
-/

namespace FileProfile

namespace FileSystem

variable {fs fs' : FileSystem} {random : Octets} {p : Text}

/-! ## Single calls -/

theorem attempt_of_made {call : Call} {q : Text} {errno : Errno}
    (made : fs.fault? call q = some errno) (subject : Subject) :
    fs.attempt call q subject = .error ⟨errno, call.systemCall, subject⟩ := by
  rw [attempt, made]

theorem createFile_of_free {content : Octets} {mode : Int}
    (passes : fs.fault? .writeFile p = none) (free : fs.find? p = none) :
    fs.createFile p content mode = .ok (fs.insert p (.created content mode)) := by
  rw [createFile, attempt_of_fault? passes, ok_bind, free]
  rfl

theorem chmod_of_end {node : Node} {mode : Int} (passes : fs.fault? .chmod p = none)
    (found : fs.find? p = some node) (isEnd : node.target = none) :
    fs.chmod p mode = .ok (fs.insert p (node.withPermissions mode)) := by
  rw [chmod, attempt_of_fault? passes, ok_bind, follow, followWithin_end found isEnd]
  rfl

theorem erase_eq_self_iff : fs.erase p = fs ↔ fs.find? p = none := by
  refine ⟨fun same => ?_, fun free => ?_⟩
  · rw [← same, find?_erase, if_pos rfl]
  · have apart : ∀ entry ∈ fs.entries, decide (entry.1 ≠ p) = true := by
      intro entry within
      have other := List.find?_eq_none.mp (Option.map_eq_none_iff.mp free) entry within
      simpa using other
    rw [erase, List.filter_eq_self.mpr apart]

/-! ## Clearing up -/

theorem abandon_eq (cleans : fs.fault? .remove (temporaryPath random p) = none)
    (cause : SystemError) :
    fs.abandon random p cause =
      (.error (cause.failureOn p), fs.erase (temporaryPath random p)) := by
  have removes : fs.remove (temporaryPath random p) = .ok (fs.erase (temporaryPath random p)) := by
    rw [remove, attempt_of_fault? cleans]
    rfl
  rw [abandon, removes]

/-- A failure leaves nothing at the temporary path once the file has been looked at, and happens
before any step where it has not. -/
theorem replaceContents_eq_error (cleans : fs.fault? .remove (temporaryPath random p) = none)
    {content : Octets} {e : Failure}
    (fails : fs.replaceContents random p content = (.error e, fs')) :
    (∃ cause, fs.stat p = .error cause ∧ fs' = fs) ∨
      (∃ before, fs.stat p = .ok before) ∧ fs' = fs.erase (temporaryPath random p) := by
  cases fs.replaceEnds random p content with
  | unseen cause unseen stays =>
    exact .inl ⟨cause, unseen, congrArg Prod.snd (fails.symm.trans stays)⟩
  | abandoned before fs₁ cause seen beside faults clears =>
    rw [abandon_eq ((fault?_congr faults _ _).trans cleans), beside] at clears
    exact .inr ⟨⟨before, seen⟩, congrArg Prod.snd (fails.symm.trans clears)⟩
  | replaced before seen can moves => cases fails.symm.trans moves

/-! ## When replacing succeeds -/

theorem CanReplace.replaces (can : fs.CanReplace random p) (content : Octets) :
    ∃ fs', fs.replaceContents random p content = (.ok (), fs') := by
  obtain ⟨before, seen⟩ := can.seen
  have create : fs.fault? .writeFile (temporaryPath random p) = none := can.passes _ (by decide)
  have change : fs.fault? .chmod (temporaryPath random p) = none := can.passes _ (by decide)
  have move : fs.fault? .rename (temporaryPath random p) = none := can.passes _ (by decide)
  let created := fs.insert (temporaryPath random p) (.created content (permissionBits before.mode))
  let ready := fs.prepared random p content before.mode
  have creates : fs.createFile (temporaryPath random p) content (permissionBits before.mode) =
      .ok created := createFile_of_free create can.free
  have changes : created.chmod (temporaryPath random p) (permissionBits before.mode) = .ok ready :=
    chmod_of_end change (stands_insert _ _ _) rfl
  have moves : ready.rename (temporaryPath random p) p =
      .ok (ready.moved (temporaryPath random p) p (replacement content before.mode)) :=
    rename_of_stands move (stands_insert _ _ _)
  refine ⟨ready.moved (temporaryPath random p) p (replacement content before.mode), ?_⟩
  unfold replaceContents
  simp only [seen, creates, changes, moves]

/-! ## Which step fails -/

/-- The file can be looked at, but a later step of replacing its contents fails, the first such step
with the error `c`. -/
inductive Breaks (fs : FileSystem) (random : Octets) (p : Text) (content : Octets)
    (c : SystemError) : Prop where
  | creating (before : Node) (seen : fs.stat p = .ok before)
      (fails : fs.createFile (temporaryPath random p) content (permissionBits before.mode) =
        .error c)
  | setting (before : Node) (created : FileSystem) (seen : fs.stat p = .ok before)
      (creates : fs.createFile (temporaryPath random p) content (permissionBits before.mode) =
        .ok created)
      (fails : created.chmod (temporaryPath random p) (permissionBits before.mode) = .error c)
  | moving (before : Node) (created ready : FileSystem) (seen : fs.stat p = .ok before)
      (creates : fs.createFile (temporaryPath random p) content (permissionBits before.mode) =
        .ok created)
      (changes : created.chmod (temporaryPath random p) (permissionBits before.mode) = .ok ready)
      (fails : ready.rename (temporaryPath random p) p = .error c)

variable {content : Octets} {c : SystemError}

/-- Only the temporary path is cleared after a step that fails. -/
theorem Breaks.abandons (breaks : fs.Breaks random p content c) : ∃ fs₁ : FileSystem,
    fs₁.faults = fs.faults ∧ fs.replaceContents random p content = fs₁.abandon random p c := by
  unfold replaceContents
  cases breaks with
  | creating before seen fails =>
    refine ⟨fs, rfl, ?_⟩
    simp only [seen, fails]
  | setting before created seen creates fails =>
    refine ⟨created, ?_, ?_⟩
    · rw [(createFile_eq_ok creates).2, faults_insert]
    · simp only [seen, creates, fails]
  | moving before created ready seen creates changes fails =>
    refine ⟨ready, ?_, ?_⟩
    · have made := (createFile_eq_ok creates).2
      rw [made] at changes
      rw [chmod_eq_ok (stands_insert _ _ _) rfl changes, faults_insert, faults_insert]
    · simp only [seen, creates, changes, fails]

/-- Where the temporary path cannot be cleared, the failure to do so hides the cause. -/
theorem Breaks.hides (breaks : fs.Breaks random p content c) {errno : Errno}
    (stuck : fs.fault? .remove (temporaryPath random p) = some errno) :
    (fs.replaceContents random p content).1 = .error
      (SystemError.failure ⟨errno, Call.remove.systemCall, .file (temporaryPath random p)⟩) := by
  obtain ⟨fs₁, faults, abandons⟩ := breaks.abandons
  have fails : fs₁.remove (temporaryPath random p) =
      .error ⟨errno, Call.remove.systemCall, .file (temporaryPath random p)⟩ := by
    rw [remove, attempt_of_made ((fault?_congr faults _ _).trans stuck)]
    rfl
  rw [abandons, abandon, fails]

/-! ## All or nothing -/

/-- Where the temporary path can be cleared, replacing the contents of a file either gives the path
a regular file with the new contents and the old permission bits and changes no other entry, or it
fails and leaves everything as it was. Only a temporary path that is taken stands against that: what
stands there is lost. -/
theorem replaceContents_undone_iff (fs : FileSystem) (random : Octets) (p content : Text)
    (cleans : fs.fault? .remove (temporaryPath random p) = none) :
    ((∃ fs', fs.replaceContents random p (Utf8.encode content) = (.ok (), fs')) ↔
      fs.CanReplace random p) ∧
    (∀ e fs', fs.replaceContents random p (Utf8.encode content) = (.error e, fs') →
      (fs' = fs ↔ (∃ cause, fs.stat p = .error cause) ∨ fs.find? (temporaryPath random p) = none) ∧
      ∀ q, q ≠ temporaryPath random p → fs'.find? q = fs.find? q) ∧
    (∀ fs', fs.replaceContents random p (Utf8.encode content) = (.ok (), fs') →
      ∃ before after, fs.stat p = .ok before ∧ fs'.find? p = some after ∧
        after.kind = .regular ∧ after.target = none ∧ after.content = Utf8.encode content ∧
        permissionBits after.mode = permissionBits before.mode ∧
        ∀ q, q ≠ p → fs'.find? q = fs.find? q) := by
  refine ⟨⟨fun ⟨fs', done⟩ => ?_, fun can => can.replaces _⟩,
    fun e fs' fails => ⟨?_, fun q other => find?_replaceContents_error fails other⟩,
    fun fs' done => ?_⟩
  · obtain ⟨before, seen, can, moved⟩ := replaceContents_eq_ok done
    exact can
  · rcases replaceContents_eq_error cleans fails with ⟨cause, unseen, rfl⟩ | ⟨⟨before, seen⟩, rfl⟩
    · exact ⟨fun _ => .inl ⟨cause, unseen⟩, fun _ => rfl⟩
    · rw [erase_eq_self_iff, seen]
      simp
  · obtain ⟨before, rewritten⟩ := exists_rewritten done
    exact ⟨before, _, rewritten.behind, rewritten.stands, kind_replacement _ _, rfl, rfl,
      permissionBits_replacement _ _, rewritten.others⟩

/-- A file, and another one that happens to stand at its temporary path. -/
def crowded : FileSystem where
  entries := [
    ("/a", .created (Utf8.encode "old") 0o644),
    ("/.a.000000000000.tmp", .created (Utf8.encode "other") 0o644)]

/-- Replacing refuses to write over the file at the temporary path, and then removes it. -/
theorem not_undone_crowded : ∃ e fs',
    crowded.replaceContents (List.replicate 6 0) "/a" (Utf8.encode "new") = (.error e, fs') ∧
      fs' ≠ crowded := by
  let random : Octets := List.replicate 6 0
  have cleans : crowded.fault? .remove (temporaryPath random "/a") = none := rfl
  have taken : crowded.find? (temporaryPath random "/a") ≠ none := by decide +kernel
  have seen : crowded.stat "/a" = .ok (.created (Utf8.encode "old") 0o644) := by rfl
  obtain ⟨replaces, fails, -⟩ := replaceContents_undone_iff crowded random "/a" "new" cleans
  cases ran : crowded.replaceContents random "/a" (Utf8.encode "new") with
  | mk answer fs' =>
    cases answer with
    | ok _ => exact absurd (replaces.mp ⟨fs', ran⟩).free taken
    | error e =>
      refine ⟨e, fs', rfl, fun same => ?_⟩
      rcases (fails e fs' ran).1.mp same with ⟨cause, unseen⟩ | free
      · rw [seen] at unseen
        cases unseen
      · exact taken free

end FileSystem

end FileProfile
