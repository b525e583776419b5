import FileProfile.Proofs.Descriptor.Resolution
import FileProfile.Proofs.Session.Run
import FileProfile.Proofs.Session.Types

/-!
The accounts of the store of content types over whole runs.

A request to the store is either refused because something has been released, or because it looks up
what is no text, and then changes nothing; or it is done while the store is still referenced
(`Session.Handled`, `handled`). So the store is torn down once, by the request that gives up its
last reference, and from then on every request is refused (`accounts_of_run`).
-/

namespace FileProfile

/-- How often the store has been told to be torn down. -/
def Session.teardowns (s : Session) : Nat := s.log.count LogEntry.teardown

namespace Action

variable {s : Session}

/-! ## What the log tells -/

theorem log_lookupType (name : TypeName) (s : Session) :
    ((lookupType name).runOn s).2.log = s.log := by
  rw [lookupType, runOn_onTypes]
  cases s.types.lookup name <;> rfl

/-- That a file cannot be looked into is told in other words than a teardown. -/
theorem teardowns_sniffFile (path : Text) (s : Session) :
    ((sniffFile path).runOn s).2.teardowns = s.teardowns := by
  unfold sniffFile
  rw [runOn_bind_ok (runOn_files s)]
  cases s.files.readStart path ContentType.sniffLength with
  | ok bytes => rfl
  | error e =>
    let told : LogEntry := ⟨.debug, "Cannot sniff " ++ path ++ ": " ++ e.message⟩
    have absent : LogEntry.teardown ∉ [told] := fun among => by
      have second : (some 0x6F : Option CodeUnit) = some 0x61 :=
        congrArg (fun entry => entry.message[1]?) (List.mem_singleton.mp among)
      exact absurd second (by decide)
    show (s.log ++ [told]).count LogEntry.teardown = s.log.count LogEntry.teardown
    rw [List.count_append, List.count_eq_zero_of_not_mem absent, Nat.add_zero]

theorem teardowns_lookupForFile (path displayName : Text) (s : Session) :
    ((lookupForFile path displayName).runOn s).2.teardowns = s.teardowns := by
  by_cases opened : s.types.isOpen
  · unfold lookupForFile
    rw [runOn_bind_ok (runOn_requireOpen opened), runOn_bind_ok (runOn_types s)]
    cases s.types.typeOfName? displayName with
    | some name => exact congrArg (List.count LogEntry.teardown) (log_lookupType (.text name) s)
    | none =>
      have before := teardowns_sniffFile path s
      obtain ⟨log, sniffs, -⟩ := runOn_sniffFile path s
      rw [sniffs] at before
      simp only
      rw [runOn_bind_ok sniffs]
      exact (congrArg (List.count LogEntry.teardown) (log_lookupType _ _)).trans before
  · rw [runOn_lookupForFile_closed opened]

end Action

namespace Session

variable {s : Session} {r : Request}

/-! ## How the store handles a request -/

/-- Requests to the store of content types itself. -/
def Request.isOnTypes : Request → Bool
  | .lookupType _ | .lookupForFile .. | .refType _ | .unrefType _ | .shutdownTypes => true
  | _ => false

/-- What a request to the store adds to its references when it is done. -/
def Request.countChange : Request → Int
  | .unrefType _ | .shutdownTypes => -1
  | _ => 1

/-- Whether the store can do what it is asked for: lookups and shutting down need its owner's
reference, a handle to be taken anyone's, and one to be given up its own. What is looked up has to
be a text. -/
def CanDo (s : Session) : Request → Prop
  | .lookupType name => s.types.isShut = false ∧ name.isText
  | .lookupForFile path displayName =>
    s.types.isShut = false ∧ (s.types.told s.files path displayName).isText
  | .unrefType h => 0 < s.types.referencesOf h
  | .refType _ => 0 < s.types.references
  | _ => s.types.isShut = false

/-- A request is refused because something has been released or what it looks up is no text, or done
while the store is up. -/
inductive Handled (s : Session) (r : Request) : Prop where
  | refused (what : Text) (fails : s.failure? r = some (.disposed what)) (same : s.after r = s)
      (cannot : ¬ s.CanDo r)
  | unnamed (fails : s.failure? r = some Rules.unnamed) (same : s.after r = s)
      (cannot : ¬ s.CanDo r) (up : 0 < s.types.references)
  | done (answers : s.failure? r = none) (can : s.CanDo r) (up : 0 < s.types.references)
      (counted : (s.after r).types.references = s.types.references + r.countChange)
      (told : (s.after r).teardowns =
        s.teardowns + if (s.after r).types.references = 0 then 1 else 0)
      (shut : (s.after r).types.isShut = true ↔ s.types.isShut = true ∨ r = .shutdownTypes)

theorem teardowns_append_farewell (s : Session) (t : TypeStore) :
    (s.log ++ if t.references = 0 then [LogEntry.teardown] else []).count LogEntry.teardown =
      s.teardowns + if t.references = 0 then 1 else 0 := by
  rw [List.count_append]
  by_cases down : t.references = 0
  · rw [if_pos down, if_pos down]
    rfl
  · rw [if_neg down, if_neg down]
    rfl

/-- Dropping a reference or shutting down, where the store lets it. -/
theorem Handled.of_noting {f : TypeStore → Except Failure TypeStore} {t : TypeStore}
    (changes : f s.types = .ok t) (can : s.CanDo r) (up : 0 < s.types.references)
    (counted : t.references = s.types.references + r.countChange)
    (shut : t.isShut = true ↔ s.types.isShut = true ∨ r = .shutdownTypes)
    (answers : s.failure? r = (do
      Action.onTypes fun store => (f store).map fun u => ((), u)
      Action.noteTeardown).failure? s)
    (leaves : s.after r = ((do
      Action.onTypes fun store => (f store).map fun u => ((), u)
      Action.noteTeardown).runOn s).2) : s.Handled r := by
  have run := Action.runOn_noting changes
  rw [run] at leaves
  refine .done (answers.trans (Action.failure?_ok run)) can up ?_ ?_ ?_
  · rw [leaves]
    exact counted
  · rw [leaves]
    exact teardowns_append_farewell s t
  · rw [leaves]
    exact shut

theorem handled_unrefType (sound : s.types.Sound) (h : HandleId) : s.Handled (.unrefType h) := by
  rcases Int.lt_or_le 0 (s.types.referencesOf h) with counted | unused
  · obtain ⟨t, drops, dropped⟩ := TypeStore.unref_dropped sound counted
    refine .of_noting (f := fun store => store.unref h) drops counted
      (sound.references_pos counted) dropped.references ?_ rfl rfl
    rw [dropped.isShut]
    simp
  · have run := Action.runOn_noting_error (f := fun store => store.unref h)
      (TypeStore.unref_released unused)
    exact .refused _ (Action.failure?_error run) (congrArg Prod.snd run) (Int.not_lt.mpr unused)

theorem handled_shutdownTypes (sound : s.types.Sound) : s.Handled .shutdownTypes := by
  cases shut : s.types.isShut with
  | true =>
    have run := Action.runOn_noting_error (f := TypeStore.shutdown)
      (TypeStore.shutdown_again shut)
    refine .refused _ (Action.failure?_error run) (congrArg Prod.snd run) fun can => ?_
    have up : s.types.isShut = false := can
    rw [shut] at up
    cases up
  | false =>
    have up : 0 < s.types.references := by
      have total := sound.total
      have counts := sound.totalCount_nonneg
      rw [TypeStore.ownerCount, shut, if_neg (by decide)] at total
      omega
    refine .of_noting (f := TypeStore.shutdown) (TypeStore.shutdown_eq shut) shut up rfl ?_ rfl rfl
    simp [TypeStore.release]

/-- A reference that is taken leaves the store up. -/
theorem Handled.of_taken (answers : s.failure? r = none) (can : s.CanDo r)
    (up : 0 < s.types.references) (takes : r.countChange = 1)
    (more : (s.after r).types.references = s.types.references + 1)
    (isShut : (s.after r).types.isShut = s.types.isShut)
    (quiet : (s.after r).teardowns = s.teardowns) (other : r ≠ .shutdownTypes) : s.Handled r := by
  refine .done answers can up (by rw [takes]; exact more) ?_ ?_
  · rw [if_neg (by omega), quiet, Nat.add_zero]
  · rw [isShut]
    exact ⟨.inl, fun either => either.resolve_right other⟩

theorem handled_refType (sound : s.types.Sound) (h : HandleId) : s.Handled (.refType h) := by
  by_cases usable : 0 < s.types.referencesOf h ∨ ¬ s.types.isTornDown
  · have run := Action.runOn_refType (TypeStore.ref_eq usable)
    have after : s.after (.refType h) = { s with types := s.types.taking h } :=
      congrArg Prod.snd run
    have up : 0 < s.types.references := by
      rcases usable with used | up
      · exact sound.references_pos used
      · simp only [TypeStore.isTornDown, decide_eq_true_eq] at up
        omega
    exact .of_taken (Action.failure?_ok run) up up rfl (by rw [after]; rfl) (by rw [after]; rfl)
      (by rw [after]; rfl) (by rintro ⟨⟩)
  · obtain ⟨unused, down⟩ := not_or.mp usable
    have run := Action.runOn_refType_error
      (TypeStore.ref_released (Int.not_lt.mp unused) (not_not.mp down))
    refine .refused _ (Action.failure?_error run) (congrArg Prod.snd run) (Int.not_lt.mpr ?_)
    exact of_decide_eq_true (not_not.mp down)

theorem handled_lookupType (sound : s.types.Sound) (name : TypeName) :
    s.Handled (.lookupType name) := by
  by_cases opened : s.types.isOpen
  · cases name with
    | text name =>
      obtain ⟨h, t, found, took⟩ := TypeStore.lookup_took sound opened name
      have run := Action.runOn_lookupType (s := s) found
      have after : s.after (.lookupType (.text name)) = { s with types := t } :=
        congrArg Prod.snd run
      exact .of_taken (Action.failure?_ok run) ⟨sound.isOpen_iff_isShut.mp opened, rfl⟩
        (TypeStore.references_pos_of_isOpen opened) rfl
        (by rw [after]; exact took.references) (by rw [after]; exact took.isShut)
        (by rw [after]; rfl) nofun
    | inherited key =>
      have run := Action.runOn_lookupType_error (s := s)
        (TypeStore.lookup_of_canonical_error opened (Rules.canonical_inherited _ key))
      exact .unnamed (Action.failure?_error run) (congrArg Prod.snd run)
        (fun can => Bool.false_ne_true can.2) (TypeStore.references_pos_of_isOpen opened)
  · have run := Action.runOn_lookupType_closed opened name
    exact .refused _ (Action.failure?_error run) (congrArg Prod.snd run)
      fun can => opened (sound.isOpen_iff_isShut.mpr can.1)

theorem handled_lookupForFile (sound : s.types.Sound) (path displayName : Text) :
    s.Handled (.lookupForFile path displayName) := by
  by_cases opened : s.types.isOpen
  · by_cases tells : (s.types.told s.files path displayName).isText
    · obtain ⟨h, t, log, run, took⟩ := Action.runOn_lookupForFile sound opened tells
      have after : s.after (.lookupForFile path displayName) = { s with types := t, log } :=
        congrArg Prod.snd run
      exact .of_taken (Action.failure?_ok run) ⟨sound.isOpen_iff_isShut.mp opened, tells⟩
        (TypeStore.references_pos_of_isOpen opened) rfl
        (by rw [after]; exact took.references) (by rw [after]; exact took.isShut)
        (Action.teardowns_lookupForFile path displayName s) nofun
    · have run := Action.runOn_lookupForFile_unnamed opened tells
      exact .unnamed (Action.failure?_error run) (congrArg Prod.snd run)
        (fun can => tells can.2) (TypeStore.references_pos_of_isOpen opened)
  · have run := Action.runOn_lookupForFile_closed opened path displayName
    exact .refused _ (Action.failure?_error run) (congrArg Prod.snd run)
      fun can => opened (sound.isOpen_iff_isShut.mpr can.1)

/-! ## Whole runs -/

theorem handled (sound : s.types.Sound) (allowed : r.isOnTypes) : s.Handled r := by
  cases r with
  | lookupType name => exact handled_lookupType sound name
  | lookupForFile path displayName => exact handled_lookupForFile sound path displayName
  | refType h => exact handled_refType sound h
  | unrefType h => exact handled_unrefType sound h
  | shutdownTypes => exact handled_shutdownTypes sound
  | _ => cases allowed

/-- The accounts of the store: it is referenced by its owner until that shuts it down and once for
every reference to a handle, and a teardown has been told if nothing refers to it any more. -/
structure Accounted (s : Session) : Prop where
  total : s.types.references = s.types.ownerCount + s.types.totalCount
  nonneg : 0 ≤ s.types.references
  nonneg_handle : ∀ h, 0 ≤ s.types.referencesOf h
  told : s.teardowns = if s.types.references = 0 then 1 else 0
  cleared : s.types.references = 0 → s.types.interned = []

/-- What a request adds to the accounts. -/
structure Answered (s : Session) (r : Request) : Prop where
  /-- What the store can do it does. -/
  done : s.failure? r = none ↔ s.CanDo r
  /-- What is done is counted. -/
  counted : s.failure? r = none → (s.after r).types.references = s.types.references + r.countChange
  /-- What fails changes nothing. -/
  unchanged : ∀ e, s.failure? r = some e → s.after r = s
  /-- Only shutting down gives up the owner's reference. -/
  shut : (s.after r).types.isShut = true ↔
    s.types.isShut = true ∨ (r = .shutdownTypes ∧ s.failure? r = none)
  /-- A teardown is told by the request that gives up the last reference. -/
  told : (s.after r).teardowns = s.teardowns +
    if s.types.references ≠ 0 ∧ (s.after r).types.references = 0 then 1 else 0
  /-- A store that is torn down refuses everything. -/
  final : s.types.references = 0 → ∃ what, s.failure? r = some (.disposed what)

/-- A request that fails with nothing done. -/
theorem Answered.of_same {e : Failure} (fails : s.failure? r = some e) (same : s.after r = s)
    (cannot : ¬ s.CanDo r) (final : s.types.references = 0 → ∃ what, e = .disposed what) :
    s.Answered r := by
  have quiet : ¬ (s.types.references ≠ 0 ∧ (s.after r).types.references = 0) := by
    rw [same]
    exact fun both => both.1 both.2
  refine ⟨?_, ?_, fun _ _ => same, ?_, ?_, fun down => ?_⟩
  · rw [fails]
    exact ⟨nofun, fun can => absurd can cannot⟩
  · rw [fails]
    exact nofun
  · rw [same, fails]
    simp
  · rw [if_neg quiet, same, Nat.add_zero]
  · obtain ⟨what, rfl⟩ := final down
    exact ⟨what, fails⟩

theorem Handled.answered (handled : s.Handled r) : s.Answered r := by
  cases handled with
  | refused what fails same cannot => exact .of_same fails same cannot fun _ => ⟨what, rfl⟩
  | unnamed fails same cannot up =>
    exact .of_same fails same cannot fun down => absurd down (Int.ne_of_gt up)
  | done answers can up counted told shut =>
    refine ⟨⟨fun _ => can, fun _ => answers⟩, fun _ => counted, fun e fails => ?_, ?_, ?_,
      fun down => ?_⟩
    · rw [answers] at fails
      cases fails
    · rw [shut, answers]
      simp
    · rw [told]
      by_cases down : (s.after r).types.references = 0
      · rw [if_pos down, if_pos ⟨by omega, down⟩]
      · rw [if_neg down, if_neg fun both => down both.2]
    · omega

theorem teardowns_of_run (run : s.ReachableBy Request.isOnTypes) :
    s.teardowns = if s.types.references = 0 then 1 else 0 := by
  induction run with
  | start files extensions rules overrides => rfl
  | touch files _ ih => exact ih
  | @ask s r run allowed can ih =>
    cases handled run.reachable.sound allowed with
    | refused what fails same cannot => rw [same, ih]
    | unnamed fails same cannot up => rw [same, ih]
    | done answers can up counted told shut => rw [told, ih, if_neg (by omega), Nat.zero_add]

/-- In every run of requests to the store its accounts are right, and so is what any further
request adds to them. -/
theorem accounts_of_run (run : s.ReachableBy Request.isOnTypes) :
    s.Accounted ∧ ∀ r, r.isOnTypes → s.Answered r := by
  have sound := run.reachable.sound
  refine ⟨?_, fun r allowed => (handled sound allowed).answered⟩
  exact {
    total := sound.total
    nonneg := sound.references_nonneg
    nonneg_handle := sound.nonneg
    told := teardowns_of_run run
    cleared := fun down => by
      refine List.eq_nil_iff_forall_not_mem.mpr fun ⟨name, h⟩ stands => ?_
      have up := sound.references_pos (sound.interned name h stands).1
      omega }

/-- A session whose owner has shut the store down while a handle was in use, which has been given
up since. -/
def retired : Session :=
  let opened : Session := { files := {}, types := .new [] {} [] }
  let used := (opened.after (.lookupType (.text "text/plain"))).after (.refType 0)
  ((used.after .shutdownTypes).after (.unrefType 0)).after (.unrefType 0)

theorem accounts_retired : retired.teardowns = 1 ∧ retired.types.interned = [] ∧
    ∃ what, retired.failure? (.refType 0) = some (.disposed what) := by
  have taken : ReachableBy Request.isOnTypes
      ((({ files := {}, types := .new [] {} [] } : Session).after
        (.lookupType (.text "text/plain"))).after (.refType 0)) :=
    .ask (.refType 0) (.ask (.lookupType (.text "text/plain")) (.start _ _ _ _) rfl nofun) rfl
      fun h same => by
        cases same
        decide +kernel
  have run : retired.ReachableBy Request.isOnTypes :=
    .ask (.unrefType 0) (.ask (.unrefType 0) (.ask .shutdownTypes taken rfl nofun) rfl nofun) rfl
      nofun
  have down : retired.types.references = 0 := by decide +kernel
  obtain ⟨accounted, answered⟩ := accounts_of_run run
  refine ⟨?_, accounted.cleared down, (answered (.refType 0) rfl).final down⟩
  rw [accounted.told, if_pos down]

end Session

end FileProfile
