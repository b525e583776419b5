import FileProfile.Proofs.Session.Balance
import FileProfile.Proofs.Session.Revival

/-!
Comparing descriptors, and detecting that a file has changed.

Descriptors are compared by the handles of their types. Where callers use the store through
descriptors alone, every handle in use is the only one of its name, so that this is a comparison of
what the descriptors show (`Session.Observation`, `agrees_iff_observe_eq`). Looking again at a file
therefore answers a new descriptor exactly if it shows something else, and leaves no trace otherwise
(`detects_of_run`).
-/

namespace FileProfile

/-- What is compared of a file. -/
structure Observation where
  kind : FileKind
  mode : Int
  flags : Int
  uid : Int
  gid : Int
  size : Int
  atime : Int
  mtime : Int
  ctime : Int
  inode : Int
  device : Int
  typeName : TypeName
  uri : Text
deriving DecidableEq, Repr

namespace Session

/-- What a descriptor shows of its file. -/
def observe (s : Session) (x : Descriptor) : Observation where
  kind := x.kind
  mode := x.mode
  flags := x.flags
  uid := x.attributes.uid
  gid := x.attributes.gid
  size := x.attributes.size
  atime := x.attributes.atime
  mtime := x.attributes.mtime
  ctime := x.attributes.ctime
  inode := x.attributes.inode
  device := x.attributes.device
  typeName := s.types.nameOf x.contentType
  uri := x.identity.uri

/-- A descriptor that may be used, by its number. -/
def IsLiving (s : Session) (d : DescriptorId) : Prop := ∃ x, s.descriptors[d]? = some x ∧ x.isAlive

variable {s t u : Session} {d k : DescriptorId} {x y : Descriptor} {context : Context}

/-! ## Comparing -/

theorem agrees_iff (one : s.types.nameOf x.contentType = s.types.nameOf y.contentType →
    x.contentType = y.contentType) : x.agrees y ↔ s.observe x = s.observe y := by
  have named : x.contentType = y.contentType ↔
      s.types.nameOf x.contentType = s.types.nameOf y.contentType := ⟨congrArg _, one⟩
  simp only [Descriptor.agrees, Identity.equals, Bool.and_eq_true, decide_eq_true_eq, observe,
    Observation.mk.injEq, named, and_assoc]

/-- The types of living descriptors are the same where their names are. -/
theorem agrees_iff_observe_eq (run : s.ReachableBy Request.isOnDescriptors)
    (found : s.descriptors[d]? = some x) (living : x.isAlive) (found' : s.descriptors[k]? = some y)
    (living' : y.isAlive) : x.agrees y ↔ s.observe x = s.observe y := by
  have tidy := (run.revives_nil fun _ => rfl).internedBut
  exact agrees_iff (tidy.eq_of_nameOf_eq (run.balanced.held found living)
    (run.balanced.held found' living') List.not_mem_nil List.not_mem_nil)

/-- Comparing two living descriptors says whether they show the same. -/
theorem runOn_agree_of_run (run : s.ReachableBy Request.isOnDescriptors)
    (found : s.descriptors[d]? = some x) (living : x.isAlive) (found' : s.descriptors[k]? = some y)
    (living' : y.isAlive) :
    (Action.agree d k).runOn s = (.ok (decide (s.observe x = s.observe y)), s) := by
  have same : x.agrees y = decide (s.observe x = s.observe y) := by
    rw [Bool.eq_iff_iff, decide_eq_true_iff]
    exact agrees_iff_observe_eq run found living found' living'
  rw [Action.runOn_agree found living found' living', same]

theorem agree_iff (run : s.ReachableBy Request.isOnDescriptors)
    (found : s.descriptors[d]? = some x) (living : x.isAlive) (found' : s.descriptors[k]? = some y)
    (living' : y.isAlive) :
    (Action.agree d k).runOn s = (.ok true, s) ↔ s.observe x = s.observe y := by
  rw [runOn_agree_of_run run found living found' living']
  simp

theorem equivalence_agree (run : s.ReachableBy Request.isOnDescriptors) :
    Equivalence fun a b : { d // s.IsLiving d } =>
      (Action.agree a.1 b.1).runOn s = (.ok true, s) where
  refl := fun ⟨_, _, found, living⟩ => (agree_iff run found living found living).mpr rfl
  symm := fun {a b} same => by
    obtain ⟨x, found, living⟩ := a.2
    obtain ⟨y, found', living'⟩ := b.2
    rw [agree_iff run found living found' living'] at same
    exact (agree_iff run found' living' found living).mpr same.symm
  trans := fun {a b c} first second => by
    obtain ⟨x, found, living⟩ := a.2
    obtain ⟨y, found', living'⟩ := b.2
    obtain ⟨z, found'', living''⟩ := c.2
    rw [agree_iff run found living found' living'] at first
    rw [agree_iff run found' living' found'' living''] at second
    exact (agree_iff run found living found'' living'').mpr (first.trans second)

/-! ## Detecting changes -/

/-- Looking again at the file of the descriptor `x`, while its path resolves to `y` in the session
`u`, has answered `r` and left the session `t`. -/
structure Detects (s : Session) (d : DescriptorId) (x y : Descriptor) (u : Session) (r : Refreshed)
    (t : Session) : Prop where
  /-- A change is told exactly if the path shows something else now. -/
  exact : r.changed = false ↔ s.observe x = u.observe y
  /-- Without a change the descriptor itself is answered, and all references are as before. -/
  unchanged : r.changed = false → r.descriptor = d ∧ s.types.SameCounts t.types
  /-- With a change a new descriptor is answered that has one reference, and one to its type. -/
  changed : r.changed = true → s.descriptors[r.descriptor]? = none ∧
    t.descriptors[r.descriptor]? = some y ∧ y.references = 1 ∧
    t.types.references = s.types.references + 1 ∧
    ∀ h, t.types.referencesOf h = s.types.referencesOf h + if h = y.contentType then 1 else 0
  /-- Descriptors that there were before are not modified. -/
  kept : ∀ (k : DescriptorId) z, s.descriptors[k]? = some z → t.descriptors[k]? = some z

/-- What a descriptor shows is the same after another path has been resolved. -/
theorem observe_of_resolves {path : Text} (resolves : s.Resolves path context y u)
    (balanced : s.Balanced) (found : s.descriptors[d]? = some x) (living : x.isAlive) :
    u.observe x = s.observe x := by
  obtain ⟨_, took⟩ := resolves.took
  have inside := TypeStore.lt_length_of_counted (balanced.held found living)
  simp only [observe, took.nameOf_old _ inside]

/-- The descriptors are compared once the path is resolved, which is another reachable session. -/
theorem agrees_iff_of_resolves (run : s.ReachableBy Request.isOnDescriptors)
    (found : s.descriptors[d]? = some x) (living : x.isAlive)
    (resolves : s.Resolves x.path context y u) : x.agrees y ↔ s.observe x = u.observe y := by
  have next : (s.after (.resolve x.path context)).ReachableBy Request.isOnDescriptors :=
    .ask (.resolve x.path context) run rfl nofun
  have after : s.after (.resolve x.path context) = u := congrArg Prod.snd resolves.run
  rw [after] at next
  have inside := (List.getElem?_eq_some_iff.mp found).1
  rw [← observe_of_resolves resolves run.balanced found living]
  exact agrees_iff_observe_eq next ((resolves.descriptors_old inside).trans found) living
    resolves.found resolves.living

/-- Looking again adds one descriptor, released or not, behind the others. -/
theorem Refreshes.exists_descriptors {r : Refreshed} (refreshes : s.Refreshes d x context r t) :
    ∃ z, t.descriptors = s.descriptors ++ [z] := by
  cases refreshes with
  | changed resolves differs => exact ⟨_, resolves.descriptors⟩
  | unchanged resolves same counts descriptors => exact ⟨_, descriptors⟩

theorem Refreshes.kept {r : Refreshed} (refreshes : s.Refreshes d x context r t) {z : Descriptor}
    (stands : s.descriptors[k]? = some z) : t.descriptors[k]? = some z := by
  obtain ⟨w, descriptors⟩ := refreshes.exists_descriptors
  rw [descriptors, List.getElem?_append_left (List.getElem?_eq_some_iff.mp stands).1]
  exact stands

theorem Refreshes.detects {r : Refreshed} (run : s.ReachableBy Request.isOnDescriptors)
    (found : s.descriptors[d]? = some x) (living : x.isAlive)
    (refreshes : s.Refreshes d x context r t) :
    ∃ y u, (Action.resolve x.path context).runOn s = (.ok s.descriptors.length, u) ∧
      u.descriptors[s.descriptors.length]? = some y ∧ s.Detects d x y u r t := by
  have kept := fun k z stands => refreshes.kept (k := k) (z := z) stands
  cases refreshes with
  | @changed y _ resolves differs =>
    have compares := agrees_iff_of_resolves run found living resolves
    obtain ⟨_, took⟩ := resolves.took
    refine ⟨y, t, resolves.run, resolves.found, ?_⟩
    exact {
      exact := ⟨nofun, fun same => absurd (compares.mpr same) differs⟩
      unchanged := nofun
      changed := fun _ => ⟨List.getElem?_eq_none (Nat.le_refl _), resolves.found,
        resolves.references, took.references, took.referencesOf⟩
      kept }
  | @unchanged y u _ resolves same counts descriptors =>
    have compares := agrees_iff_of_resolves run found living resolves
    refine ⟨y, u, resolves.run, resolves.found, ?_⟩
    exact {
      exact := ⟨fun _ => compares.mp same, fun _ => rfl⟩
      unchanged := fun _ => ⟨rfl, counts⟩
      changed := nofun
      kept }

/-- In every run of requests on descriptors, comparing two of them compares what they show, an
equivalence, and looking again at the file of one answers as its path resolves and tells a change
exactly if what it shows has changed. -/
theorem detects_of_run (run : s.ReachableBy Request.isOnDescriptors) :
    (∀ (a b : DescriptorId) x y, s.descriptors[a]? = some x → x.isAlive →
      s.descriptors[b]? = some y → y.isAlive →
        (Action.agree a b).runOn s = (.ok (decide (s.observe x = s.observe y)), s)) ∧
    (Equivalence fun a b : { d // s.IsLiving d } =>
      (Action.agree a.1 b.1).runOn s = (.ok true, s)) ∧
    ∀ (d : DescriptorId) x context, s.descriptors[d]? = some x → x.isAlive →
      (∀ e u, (Action.resolve x.path context).runOn s = (.error e, u) →
        (Action.refresh d context).runOn s = (.error e, s)) ∧
      ∀ fresh u, (Action.resolve x.path context).runOn s = (.ok fresh, u) →
        ∃ y r t, u.descriptors[fresh]? = some y ∧
          (Action.refresh d context).runOn s = (.ok r, t) ∧ s.Detects d x y u r t := by
  have sound := run.reachable.sound
  refine ⟨fun a b x y found living found' living' =>
    runOn_agree_of_run run found living found' living', equivalence_agree run,
    fun d x context found living => ⟨fun e u fails => ?_, fun fresh u again => ?_⟩⟩
  · obtain rfl := Action.resolve_eq_error sound fails
    exact Action.runOn_refresh_error found living fails
  · obtain ⟨rfl, y, resolves⟩ := Resolves.of_run sound again
    obtain ⟨r, t, answers, refreshes⟩ :=
      Action.refreshes_of_resolves found living sound resolves
    obtain ⟨y', u', again', found', detects⟩ := refreshes.detects run found living
    rw [again] at again'
    cases again'
    exact ⟨y', r, t, found', answers, detects⟩

/-- Two descriptors of one file agree after it has changed, and looking again tells the change. -/
theorem detects_resolvedTwice :
    let s : Session := { resolvedTwice with files := textFiles "newer" }
    (Action.agree 0 1).runOn s = (.ok true, s) ∧
      ∃ r t, (Action.refresh 0 {}).runOn s = (.ok r, t) ∧ r.changed = true ∧
        t.types.references = s.types.references + 1 := by
  intro s
  let x : Descriptor := .new ⟨"/a"⟩ .regular (Node.created (Utf8.encode "old") 0o644).attributes 0 0
    none
  let y : Descriptor := .new ⟨"/a"⟩ .regular (Node.created (Utf8.encode "newer") 0o644).attributes
    0 0 none
  have run : s.ReachableBy Request.isOnDescriptors := .touch _ reachableBy_resolvedTwice
  have found : s.descriptors[0]? = some x := by decide +kernel
  have found' : s.descriptors[1]? = some x := by decide +kernel
  have again : (Action.resolve x.path {}).runOn s =
      (.ok 2, ((Action.resolve x.path {}).runOn s).2) :=
    Action.runOn_of_toOption (by decide +kernel)
  have shows : ((Action.resolve x.path {}).runOn s).2.descriptors[2]? = some y := by decide +kernel
  obtain ⟨compares, -, looks⟩ := detects_of_run run
  obtain ⟨-, answers⟩ := looks 0 x {} found rfl
  obtain ⟨z, r, t, here, refreshes, detects⟩ := answers 2 _ again
  obtain rfl := Option.some.inj (shows.symm.trans here)
  have differs : s.observe x ≠ ((Action.resolve x.path {}).runOn s).2.observe y := by decide +kernel
  have changed : r.changed = true := by
    rw [← Bool.not_eq_false]
    exact fun same => differs (detects.exact.mp same)
  refine ⟨?_, r, t, refreshes, changed, (detects.changed changed).2.2.2.1⟩
  rw [compares 0 1 x x found rfl found' rfl, decide_eq_true rfl]

end Session

end FileProfile
