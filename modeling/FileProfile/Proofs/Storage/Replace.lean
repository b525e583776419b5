import FileProfile.Proofs.Number.Bits
import FileProfile.Proofs.Path.Normal
import FileProfile.Proofs.Storage.Links
import FileProfile.Storage.Replace

/-!
Replacing the contents of a file changes one entry.

Replacing ends in one of three ways (`replaceEnds`). Where it succeeds, the entry at the path is a
new regular file and every other entry is as it was (`replaceContents_ok`); where it fails, at most
the entry at the temporary path has changed (`find?_replaceContents_error`).
-/

namespace FileProfile

namespace FileSystem

/-! ## Single calls -/

variable {fs fs' : FileSystem} {random : Octets} {p : Text}

theorem ok_of_attempt_bind {α : Type} {call : Call} {subject : Subject}
    {next : Except SystemError α} {a : α}
    (done : (fs.attempt call p subject >>= fun _ => next) = .ok a) : next = .ok a := by
  cases tried : fs.attempt call p subject with
  | error e => simp [tried, bind, Except.bind] at done
  | ok _ => rwa [tried, ok_bind] at done

theorem fault?_of_attempt_bind {α : Type} {call : Call} {subject : Subject}
    {next : Except SystemError α} {a : α}
    (done : (fs.attempt call p subject >>= fun _ => next) = .ok a) : fs.fault? call p = none := by
  cases made : fs.fault? call p with
  | none => rfl
  | some errno => simp [attempt, made, bind, Except.bind] at done

theorem createFile_eq_ok {content : Octets} {mode : Int}
    (done : fs.createFile p content mode = .ok fs') :
    fs.find? p = none ∧ fs' = fs.insert p (.created content mode) := by
  have rest := ok_of_attempt_bind done
  cases found : fs.find? p with
  | some node =>
    rw [found] at rest
    exact absurd rest (by simp [throw, throwThe, MonadExceptOf.throw])
  | none =>
    rw [found] at rest
    exact ⟨rfl, (Except.ok.inj rest).symm⟩

theorem rename_eq_ok {q : Text} (done : fs.rename p q = .ok fs') :
    ∃ node, fs.find? p = some node ∧ fs' = fs.moved p q node := by
  have rest := ok_of_attempt_bind done
  cases found : fs.find? p with
  | none =>
    rw [found] at rest
    exact absurd rest (by simp [throw, throwThe, MonadExceptOf.throw])
  | some node =>
    rw [found] at rest
    exact ⟨node, rfl, (Except.ok.inj rest).symm⟩

theorem stands_insert (fs : FileSystem) (p : Text) (node : Node) :
    (fs.insert p node).find? p = some node := by
  rw [find?_insert, if_pos rfl]

theorem erase_insert (fs : FileSystem) (p : Text) (node : Node) :
    (fs.insert p node).erase p = fs.erase p := by
  simp [erase, insert, List.filter_filter]

/-- Changing the permission bits of a file that is no link changes its own entry. -/
theorem chmod_eq_ok {node : Node} {mode : Int} (found : fs.find? p = some node)
    (isEnd : node.target = none) (done : fs.chmod p mode = .ok fs') :
    fs' = fs.insert p (node.withPermissions mode) := by
  have rest := ok_of_attempt_bind done
  rw [follow, followWithin_end found isEnd] at rest
  exact (Except.ok.inj rest).symm

/-- Clearing up touches the temporary path alone. -/
theorem find?_abandon (fs : FileSystem) (cause : SystemError) {q : Text}
    (other : q ≠ temporaryPath random p) : (fs.abandon random p cause).2.find? q = fs.find? q := by
  unfold abandon remove
  cases tried : fs.attempt .remove (temporaryPath random p) (.file (temporaryPath random p)) with
  | error e => rfl
  | ok _ =>
    rw [ok_bind]
    show (fs.erase (temporaryPath random p)).find? q = _
    rw [find?_erase, if_neg other]

theorem abandon_ne_ok (fs : FileSystem) (cause : SystemError) (a : Unit) :
    (fs.abandon random p cause).1 ≠ .ok a := by
  unfold abandon
  split <;> simp

/-! ## The new file -/

/-- The file that stands at a path after its contents have been replaced. -/
def replacement (content : Octets) (mode : Int) : Node :=
  (Node.created content (permissionBits mode)).withPermissions (permissionBits mode)

theorem mode_replacement (content : Octets) (mode : Int) :
    (replacement content mode).mode = 0o100000 + permissionBits mode := by
  obtain ⟨b, shape⟩ := Int.eq_ofNat_of_zero_le (permissionBits_nonneg mode)
  have below := permissionBits_lt mode
  have size : Word32.modulus = 4294967296 := rfl
  have cleared : ∃ c : Nat, c ≤ b ∧ Word32.land (permissionBits mode) 0o022 = c := by
    refine ⟨b &&& 0o022, Nat.and_le_left, ?_⟩
    rw [shape]
    refine (Word32.land_natCast (b := 0o022) (by decide) _).trans ?_
    rw [Word32.ofInt_natCast (by omega)]
  obtain ⟨c, least, cleared⟩ := cleared
  have again := permissionBits_eq (permissionBits mode)
  have created := permissionBits_eq (0o100000 + (permissionBits (permissionBits mode) - c))
  unfold replacement Node.withPermissions Node.created
  dsimp only
  rw [cleared]
  omega

theorem permissionBits_replacement (content : Octets) (mode : Int) :
    permissionBits (replacement content mode).mode = permissionBits mode := by
  rw [mode_replacement, permissionBits_eq, permissionBits_eq]
  omega

theorem kind_replacement (content : Octets) (mode : Int) :
    (replacement content mode).kind = .regular := by
  rw [Node.kind, mode_replacement, ofMode_regular]

/-- What is written can be read. -/
theorem contentOf_replacement (content : Octets) (mode : Int) :
    contentOf (replacement content mode) = .ok content := by
  have other : FileKind.regular ≠ .directory := by decide
  rw [contentOf, kind_replacement, if_neg other]
  rfl

/-! ## Replacing -/

/-- The file can be looked at, and nothing is in the way of its temporary file. -/
structure CanReplace (fs : FileSystem) (random : Octets) (p : Text) : Prop where
  seen : ∃ before, fs.stat p = .ok before
  free : fs.find? (temporaryPath random p) = none
  passes : ∀ call ∈ [Call.writeFile, .chmod, .rename],
    fs.fault? call (temporaryPath random p) = none

/-- The files once the temporary file has been created and has its permission bits. -/
def prepared (fs : FileSystem) (random : Octets) (p : Text) (content : Octets) (mode : Int) :
    FileSystem :=
  (fs.insert (temporaryPath random p) (.created content (permissionBits mode))).insert
    (temporaryPath random p) (replacement content mode)

/-- How replacing the contents of a file ends: without a change where the file cannot be looked at,
with the temporary path cleared where a later step fails, else with a new file at the path. -/
inductive ReplaceEnds (fs : FileSystem) (random : Octets) (p : Text) (content : Octets)
    (outcome : Except Failure Unit × FileSystem) : Prop where
  | unseen (cause : SystemError) (unseen : fs.stat p = .error cause)
      (stays : outcome = (.error (cause.failureOn p), fs))
  | abandoned (before : Node) (fs₁ : FileSystem) (cause : SystemError)
      (seen : fs.stat p = .ok before)
      (beside : fs₁.erase (temporaryPath random p) = fs.erase (temporaryPath random p))
      (faults : fs₁.faults = fs.faults) (clears : outcome = fs₁.abandon random p cause)
  | replaced (before : Node) (seen : fs.stat p = .ok before) (can : fs.CanReplace random p)
      (moves : outcome = (.ok (), (fs.prepared random p content before.mode).moved
        (temporaryPath random p) p (replacement content before.mode)))

theorem replaceEnds (fs : FileSystem) (random : Octets) (p : Text) (content : Octets) :
    fs.ReplaceEnds random p content (fs.replaceContents random p content) := by
  unfold replaceContents
  split
  · next cause unseen => exact .unseen cause unseen rfl
  · next before seen =>
    simp only
    split
    · next cause _ => exact .abandoned before fs cause seen rfl rfl rfl
    · next created creates =>
      have create := fault?_of_attempt_bind creates
      obtain ⟨free, rfl⟩ := createFile_eq_ok creates
      split
      · next cause _ => exact .abandoned before _ cause seen (erase_insert _ _ _) rfl rfl
      · next ready changes =>
        have change := fault?_of_attempt_bind changes
        obtain rfl := chmod_eq_ok (stands_insert _ _ _) rfl changes
        split
        · next cause _ =>
          have beside : (fs.prepared random p content before.mode).erase (temporaryPath random p) =
              fs.erase (temporaryPath random p) :=
            (erase_insert _ _ _).trans (erase_insert _ _ _)
          exact .abandoned before _ cause seen beside rfl rfl
        · next after moves =>
          have move := fault?_of_attempt_bind moves
          obtain ⟨last, found, rfl⟩ := rename_eq_ok moves
          obtain rfl := Option.some.inj ((stands_insert _ _ _).symm.trans found)
          refine .replaced before seen ⟨⟨before, seen⟩, free, fun call within => ?_⟩ rfl
          simp only [List.mem_cons, List.not_mem_nil, or_false] at within
          rcases within with rfl | rfl | rfl
          · exact create
          · exact change
          · exact move

theorem find?_replaceContents_error {content : Octets} {e : Failure}
    (fails : fs.replaceContents random p content = (.error e, fs')) {q : Text}
    (other : q ≠ temporaryPath random p) : fs'.find? q = fs.find? q := by
  cases fs.replaceEnds random p content with
  | unseen cause unseen stays =>
    cases fails.symm.trans stays
    rfl
  | abandoned before fs₁ cause seen beside faults clears =>
    have ended : fs' = (fs₁.abandon random p cause).2 := congrArg Prod.snd (fails.symm.trans clears)
    have same := congrArg (find? · q) beside
    simp only [find?_erase, if_neg other] at same
    rw [ended, find?_abandon _ _ other, same]
  | replaced before seen can moves => cases fails.symm.trans moves

theorem replaceContents_eq_ok {content : Octets}
    (done : fs.replaceContents random p content = (.ok (), fs')) :
    ∃ before, fs.stat p = .ok before ∧ fs.CanReplace random p ∧
      fs' = (fs.prepared random p content before.mode).moved (temporaryPath random p) p
        (replacement content before.mode) := by
  cases fs.replaceEnds random p content with
  | unseen cause unseen stays => cases done.symm.trans stays
  | abandoned before fs₁ cause seen beside faults clears =>
    exact absurd (congrArg Prod.fst (done.symm.trans clears)).symm (abandon_ne_ok _ _ _)
  | replaced before seen can moves =>
    exact ⟨before, seen, can, congrArg Prod.snd (done.symm.trans moves)⟩

theorem replaceContents_ok {content : Octets}
    (done : fs.replaceContents random p content = (.ok (), fs')) :
    ∃ node, fs.stat p = .ok node ∧ fs'.find? p = some (replacement content node.mode) ∧
      (∀ q, q ≠ p → fs'.find? q = fs.find? q) ∧ fs'.faults = fs.faults ∧
      fs'.workingDirectory = fs.workingDirectory := by
  obtain ⟨before, seen, can, rfl⟩ := replaceContents_eq_ok done
  refine ⟨before, seen, ?_, fun q other => ?_, rfl, rfl⟩
  · rw [find?_moved, if_pos rfl]
  · rw [find?_moved, if_neg other]
    by_cases temporary : q = temporaryPath random p
    · rw [if_pos temporary, temporary, can.free]
    · rw [if_neg temporary, prepared, find?_insert, if_neg temporary, find?_insert,
        if_neg temporary]

/-- The file system after the contents of a file have been replaced, `before` being the node that
stood behind its path. -/
structure Rewritten (fs : FileSystem) (p : Text) (before : Node) (content : Octets)
    (fs' : FileSystem) : Prop where
  behind : fs.stat p = .ok before
  stands : fs'.find? p = some (replacement content before.mode)
  others : ∀ q, q ≠ p → fs'.find? q = fs.find? q
  faults : fs'.faults = fs.faults
  workingDirectory : fs'.workingDirectory = fs.workingDirectory

theorem exists_rewritten {content : Octets}
    (done : fs.replaceContents random p content = (.ok (), fs')) :
    ∃ before, fs.Rewritten p before content fs' := by
  obtain ⟨before, stat, stands, others, faults, workingDirectory⟩ := replaceContents_ok done
  exact ⟨before, stat, stands, others, faults, workingDirectory⟩

namespace Rewritten

variable {before : Node} {content : Octets}

theorem calm_after (rewritten : fs.Rewritten p before content fs') (calm : fs.IsFaultFree) :
    fs'.IsFaultFree :=
  calm.of_faults_eq rewritten.faults

theorem follow_after (rewritten : fs.Rewritten p before content fs') (call : Call) :
    fs'.follow call p = .ok (p, replacement content before.mode) := by
  rw [follow, followWithin_end rewritten.stands rfl]

theorem behind?_after (rewritten : fs.Rewritten p before content fs') :
    fs'.behind? p = some (replacement content before.mode) := by
  rw [← toOption_follow fs' .stat p, rewritten.follow_after]
  rfl

theorem readFile_after (rewritten : fs.Rewritten p before content fs') (calm : fs.IsFaultFree) :
    fs'.readFile p = .ok content := by
  unfold readFile
  rw [attempt_of_isFaultFree (rewritten.calm_after calm), ok_bind, rewritten.follow_after, ok_bind]
  exact contentOf_replacement content before.mode

theorem stat_after (rewritten : fs.Rewritten p before content fs') (calm : fs.IsFaultFree) :
    fs'.stat p = .ok (replacement content before.mode) := by
  unfold stat
  rw [attempt_of_isFaultFree (rewritten.calm_after calm), ok_bind, rewritten.follow_after, ok_bind]
  rfl

end Rewritten

end FileSystem

end FileProfile
