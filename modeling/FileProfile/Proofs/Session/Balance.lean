import FileProfile.Proofs.Descriptor.Failed
import FileProfile.Proofs.Descriptor.Refreshing
import FileProfile.Proofs.Descriptor.Renamed
import Mathlib.Algebra.Ring.Int.Defs

/-!
The balance of descriptors against the store of content types.

Where callers use the store through descriptors alone, it is referenced by its owner and once for
each descriptor that has not been released, and each handle once for each such descriptor whose type
it is (`Session.Balanced`). Where callers own references to handles as well, these are counted in
addition (`Session.Ledger`). No request on descriptors upsets either, whether it is answered or
fails and however far it gets before it fails (`Ledger.after_onDescriptors`, `balanced_after`).
-/

namespace FileProfile

/-! ## What a descriptor counts for -/

namespace Descriptor

/-- Whether a descriptor that has not been released has a handle as its type. -/
def holds (x : Descriptor) (h : HandleId) : Bool := !x.isDisposed && x.contentType = h

/-- What a descriptor adds to the references of the store. -/
def weight (x : Descriptor) : Int := if !x.isDisposed then 1 else 0

/-- What a descriptor adds to the references of a handle. -/
def weightOn (x : Descriptor) (h : HandleId) : Int := if x.holds h then 1 else 0

variable {x : Descriptor}

theorem isDisposed_of_isAlive (living : x.isAlive) : x.isDisposed = false := by
  have counted := of_decide_eq_true living
  exact decide_eq_false (by omega)

theorem weight_of_isAlive (living : x.isAlive) : x.weight = 1 := by
  rw [weight, isDisposed_of_isAlive living]
  rfl

theorem weightOn_of_isAlive (living : x.isAlive) (h : HandleId) :
    x.weightOn h = if h = x.contentType then 1 else 0 := by
  rw [weightOn, holds, isDisposed_of_isAlive living]
  by_cases same : h = x.contentType
  · simp [same]
  · simp [same, Ne.symm same]

theorem weight_of_isDisposed (gone : x.isDisposed) : x.weight = 0 := by
  rw [weight, gone]
  rfl

theorem weightOn_of_isDisposed (gone : x.isDisposed) (h : HandleId) : x.weightOn h = 0 := by
  rw [weightOn, holds, gone]
  rfl

end Descriptor

namespace Session

/-- The number of descriptors that have not been released. -/
def livingCount (s : Session) : Nat := s.descriptors.countP fun x => !x.isDisposed

/-- The number of descriptors not released whose type is a handle. -/
def holderCount (s : Session) (h : HandleId) : Nat := s.descriptors.countP fun x => x.holds h

/-- The store is referenced by its owner and each descriptor that has not been released, and each
handle by those whose type it is. -/
structure Balanced (s : Session) : Prop where
  nonneg : ∀ x ∈ s.descriptors, 0 ≤ x.references
  references : s.types.references = s.types.ownerCount + s.livingCount
  referencesOf : ∀ h, s.types.referencesOf h = s.holderCount h

variable {s t : Session} {d : DescriptorId} {x y : Descriptor}

/-- A count of descriptors moves by what takes the place of one of them. -/
theorem countP_set {l : List Descriptor} (found : l[d]? = some x) (y : Descriptor)
    (p : Descriptor → Bool) :
    ((l.set d y).countP p : Int) + (if p x then 1 else 0) = l.countP p + if p y then 1 else 0 := by
  obtain ⟨inside, here⟩ := List.getElem?_eq_some_iff.mp found
  have counted := List.boole_getElem_le_countP (p := p) inside
  have moves : (l.set d y).countP p + (if p x then 1 else 0) =
      l.countP p + if p y then 1 else 0 := by
    rw [List.countP_set inside]
    rw [here] at counted ⊢
    omega
  exact_mod_cast moves

theorem countP_concat (l : List Descriptor) (y : Descriptor) (p : Descriptor → Bool) :
    ((l ++ [y]).countP p : Int) = l.countP p + if p y then 1 else 0 := by
  rw [List.countP_append, List.countP_singleton]
  push_cast
  rfl

theorem livingCount_set (found : s.descriptors[d]? = some x)
    (descriptors : t.descriptors = s.descriptors.set d y) :
    t.livingCount + x.weight = s.livingCount + y.weight := by
  rw [livingCount, descriptors]
  exact countP_set found y fun z => !z.isDisposed

theorem holderCount_set (found : s.descriptors[d]? = some x)
    (descriptors : t.descriptors = s.descriptors.set d y) (h : HandleId) :
    t.holderCount h + x.weightOn h = s.holderCount h + y.weightOn h := by
  rw [holderCount, descriptors]
  exact countP_set found y fun z => z.holds h

/-- The accounts of a session in which callers own references to handles as well: `own` lists a
handle once for each reference to it that is theirs. -/
structure Ledger (s : Session) (own : List HandleId) : Prop where
  nonneg : ∀ x ∈ s.descriptors, 0 ≤ x.references
  references : s.types.references = s.types.ownerCount + s.livingCount + own.length
  referencesOf : ∀ h, s.types.referencesOf h = s.holderCount h + own.count h

/-- Where callers own no references the accounts are balanced between descriptors and store. -/
theorem ledger_nil_iff : s.Ledger [] ↔ s.Balanced := by
  constructor
  · exact fun ledger => ⟨ledger.nonneg, by simpa using ledger.references, ledger.referencesOf⟩
  · exact fun balanced => ⟨balanced.nonneg, by simpa using balanced.references,
      balanced.referencesOf⟩

namespace Ledger

variable {own own' : List HandleId}

/-- A living descriptor keeps the handle of its type in use. -/
theorem held (ledger : s.Ledger own) (found : s.descriptors[d]? = some x) (living : x.isAlive) :
    0 < s.types.referencesOf x.contentType := by
  have holds : x.holds x.contentType := by
    rw [Descriptor.holds, Descriptor.isDisposed_of_isAlive living]
    simp
  have counted : 0 < s.holderCount x.contentType :=
    List.countP_pos_iff.mpr ⟨x, List.mem_of_getElem? found, holds⟩
  rw [ledger.referencesOf]
  omega

/-- References that callers take or give up are counted. -/
theorem exchange (ledger : s.Ledger own) (descriptors : t.descriptors = s.descriptors)
    (isShut : t.types.isShut = s.types.isShut)
    (references : t.types.references + own.length = s.types.references + own'.length)
    (referencesOf : ∀ h, t.types.referencesOf h + own.count h =
      s.types.referencesOf h + own'.count h) : t.Ledger own' where
  nonneg := by
    rw [descriptors]
    exact ledger.nonneg
  references := by
    have before := ledger.references
    rw [TypeStore.ownerCount, isShut, livingCount, descriptors]
    rw [TypeStore.ownerCount, livingCount] at before
    omega
  referencesOf h := by
    have before := ledger.referencesOf h
    have counts := referencesOf h
    rw [holderCount, descriptors]
    rw [holderCount] at before
    omega

/-- A change of other things than descriptors and counts of references. -/
theorem congr (ledger : s.Ledger own) (descriptors : t.descriptors = s.descriptors)
    (counts : s.types.SameCounts t.types) : t.Ledger own :=
  ledger.exchange descriptors counts.isShut (by rw [counts.references])
    fun h => by rw [counts.referencesOf]

/-- A descriptor is changed and the counts of references with it. -/
theorem set (ledger : s.Ledger own) (found : s.descriptors[d]? = some x)
    (descriptors : t.descriptors = s.descriptors.set d y) (nonneg : 0 ≤ y.references)
    (isShut : t.types.isShut = s.types.isShut)
    (references : t.types.references + x.weight + own.length =
      s.types.references + y.weight + own'.length)
    (referencesOf : ∀ h, t.types.referencesOf h + x.weightOn h + own.count h =
      s.types.referencesOf h + y.weightOn h + own'.count h) : t.Ledger own' where
  nonneg z among := by
    rw [descriptors] at among
    rcases List.mem_or_eq_of_mem_set among with old | rfl
    · exact ledger.nonneg z old
    · exact nonneg
  references := by
    have before := ledger.references
    have moved := livingCount_set found descriptors
    rw [TypeStore.ownerCount, isShut, ← TypeStore.ownerCount]
    omega
  referencesOf h := by
    have before := ledger.referencesOf h
    have moved := holderCount_set found descriptors h
    have counts := referencesOf h
    omega

/-- A descriptor is added and the counts of references rise with it. -/
theorem append (ledger : s.Ledger own) (descriptors : t.descriptors = s.descriptors ++ [y])
    (nonneg : 0 ≤ y.references) (isShut : t.types.isShut = s.types.isShut)
    (references : t.types.references = s.types.references + y.weight)
    (referencesOf : ∀ h, t.types.referencesOf h = s.types.referencesOf h + y.weightOn h) :
    t.Ledger own where
  nonneg z among := by
    rw [descriptors] at among
    rcases List.mem_append.mp among with old | new
    · exact ledger.nonneg z old
    · exact List.mem_singleton.mp new ▸ nonneg
  references := by
    have before := ledger.references
    have more : t.livingCount = s.livingCount + y.weight := by
      rw [livingCount, descriptors]
      exact countP_concat s.descriptors y fun z => !z.isDisposed
    rw [TypeStore.ownerCount, isShut, ← TypeStore.ownerCount]
    omega
  referencesOf h := by
    have before := ledger.referencesOf h
    have more : t.holderCount h = s.holderCount h + y.weightOn h := by
      rw [holderCount, descriptors]
      exact countP_concat s.descriptors y fun z => z.holds h
    have counts := referencesOf h
    omega

/-! ## What requests do to the accounts -/

/-- A descriptor stays alive and keeps its handle. -/
theorem set_living (ledger : s.Ledger own) (found : s.descriptors[d]? = some x) (living : x.isAlive)
    (descriptors : t.descriptors = s.descriptors.set d y) (living' : y.isAlive)
    (same : y.contentType = x.contentType) (types : t.types = s.types) : t.Ledger own := by
  have positive := of_decide_eq_true living'
  refine ledger.set found descriptors (by omega) (by rw [types]) ?_ fun h => ?_
  · rw [types, Descriptor.weight_of_isAlive living, Descriptor.weight_of_isAlive living']
  · rw [types, Descriptor.weightOn_of_isAlive living, Descriptor.weightOn_of_isAlive living', same]

/-- A descriptor stays alive and has its handle replaced by one that has been looked up. -/
theorem set_replaced (ledger : s.Ledger own) (found : s.descriptors[d]? = some x)
    (living : x.isAlive) (descriptors : t.descriptors = s.descriptors.set d y)
    (living' : y.isAlive) {type : TypeName} {u : TypeStore}
    (took : TypeStore.Took s.types type y.contentType u)
    (dropped : TypeStore.Dropped u x.contentType t.types) : t.Ledger own := by
  have positive := of_decide_eq_true living'
  refine ledger.set found descriptors (by omega) (dropped.isShut.trans took.isShut) ?_ fun h => ?_
  · have taken := took.references
    have given := dropped.references
    rw [Descriptor.weight_of_isAlive living, Descriptor.weight_of_isAlive living']
    omega
  · have taken := took.referencesOf h
    have given := dropped.referencesOf h
    rw [Descriptor.weightOn_of_isAlive living, Descriptor.weightOn_of_isAlive living']
    omega

/-- A descriptor is released, and gives up its handle. -/
theorem set_released (ledger : s.Ledger own) (found : s.descriptors[d]? = some x)
    (living : x.isAlive) (descriptors : t.descriptors = s.descriptors.set d y)
    (gone : y.references = 0) (dropped : TypeStore.Dropped s.types x.contentType t.types) :
    t.Ledger own := by
  have disposed : y.isDisposed := decide_eq_true gone
  refine ledger.set found descriptors (by omega) dropped.isShut ?_ fun h => ?_
  · have given := dropped.references
    rw [Descriptor.weight_of_isAlive living, Descriptor.weight_of_isDisposed disposed]
    omega
  · have given := dropped.referencesOf h
    rw [Descriptor.weightOn_of_isAlive living, Descriptor.weightOn_of_isDisposed disposed]
    omega

/-- A descriptor is added with a handle that has been looked up. -/
theorem append_living (ledger : s.Ledger own) (descriptors : t.descriptors = s.descriptors ++ [y])
    (living : y.isAlive) {type : TypeName}
    (took : TypeStore.Took s.types type y.contentType t.types) : t.Ledger own := by
  have positive := of_decide_eq_true living
  refine ledger.append descriptors (by omega) took.isShut ?_ fun h => ?_
  · rw [took.references, Descriptor.weight_of_isAlive living]
  · rw [took.referencesOf, Descriptor.weightOn_of_isAlive living]

theorem resolved {path : Text} {context : Context} (ledger : s.Ledger own)
    (resolves : s.Resolves path context y t) : t.Ledger own := by
  obtain ⟨type, took⟩ := resolves.took
  exact ledger.append_living resolves.descriptors resolves.living took

theorem after_resolve (ledger : s.Ledger own) (sound : s.types.Sound) (path : Text)
    (context : Context) : (s.after (.resolve path context)).Ledger own := by
  show ((Action.resolve path context).runOn s).2.Ledger own
  rcases run : (Action.resolve path context).runOn s with ⟨answer, u⟩
  cases answer with
  | error e => exact Action.resolve_eq_error sound run ▸ ledger
  | ok fresh =>
    obtain ⟨-, y, resolves⟩ := Resolves.of_run sound run
    exact ledger.resolved resolves

/-- The new descriptor is counted where it is answered, and not where it is released again. -/
theorem after_refresh (ledger : s.Ledger own) (sound : s.types.Sound) (d : DescriptorId)
    (context : Context) : (s.after (.refresh d context)).Ledger own := by
  show ((Action.refresh d context).runOn s).2.Ledger own
  rcases run : (Action.refresh d context).runOn s with ⟨answer, t⟩
  cases answer with
  | error e => exact Action.refresh_eq_error sound run ▸ ledger
  | ok r =>
    obtain ⟨x, -, -, refreshes⟩ := Action.refresh_eq_ok sound run
    cases refreshes with
    | changed resolves differs => exact ledger.resolved resolves
    | unchanged resolves same counts descriptors =>
      refine ledger.append descriptors (Int.le_refl 0) counts.isShut ?_ fun h => ?_
      · rw [Descriptor.weight_of_isDisposed rfl, Int.add_zero]
        exact counts.references
      · rw [Descriptor.weightOn_of_isDisposed rfl, Int.add_zero]
        exact counts.referencesOf h

/-- A renaming that fails leaves the descriptors and all counts as they were. -/
theorem unchanged_of_rename (ledger : s.Ledger own) (sound : s.types.Sound) {name : Text}
    {context : Context} {e : Failure}
    (fails : (Action.rename d name context).runOn s = (.error e, t)) :
    s.Unchanged d context.random t := by
  -- The handle of a living descriptor is in use, so that it can be given up.
  refine unchanged_of_not_stranded sound fails fun x stranded => ?_
  exact Int.not_lt.mpr stranded.unused (ledger.held stranded.found stranded.living)

theorem after_rename (ledger : s.Ledger own) (sound : s.types.Sound) (d : DescriptorId)
    (name : Text) (context : Context) : (s.after (.rename d name context)).Ledger own := by
  show ((Action.rename d name context).runOn s).2.Ledger own
  rcases run : (Action.rename d name context).runOn s with ⟨answer, t⟩
  cases answer with
  | error e =>
    have unchanged := ledger.unchanged_of_rename sound run
    exact ledger.congr unchanged.descriptors
      ⟨unchanged.isShut, unchanged.references, unchanged.referencesOf⟩
  | ok _ =>
    obtain ⟨x, y, renamed⟩ := renamed_of_rename sound run
    have living' : y.isAlive := by
      rw [Descriptor.isAlive, renamed.references]
      exact renamed.living
    rcases renamed.types with ⟨types, same⟩ | ⟨type, u, took, dropped⟩
    · exact ledger.set_living renamed.found renamed.living renamed.descriptors living' same types
    · exact ledger.set_replaced renamed.found renamed.living renamed.descriptors living' took
        dropped

theorem after_ref (ledger : s.Ledger own) (d : DescriptorId) : (s.after (.ref d)).Ledger own := by
  show ((Action.ref d).runOn s).2.Ledger own
  rcases Action.alive_or_gone s d with ⟨x, found, living⟩ | gone
  · have counted := of_decide_eq_true living
    have more : 0 < x.references + 1 := by omega
    rw [Action.runOn_ref found living]
    exact ledger.set_living found living rfl (decide_eq_true more) rfl rfl
  · rw [Action.runOn_ref_released gone]
    exact ledger

theorem after_unref (ledger : s.Ledger own) (sound : s.types.Sound) (d : DescriptorId) :
    (s.after (.unref d)).Ledger own := by
  show ((Action.unref d).runOn s).2.Ledger own
  rcases Action.alive_or_gone s d with ⟨x, found, living⟩ | gone
  · have counted := of_decide_eq_true living
    by_cases last : x.references = 1
    · obtain ⟨t, log, drops, dropped⟩ := Action.runOn_unref_last sound found last
        (ledger.held found living)
      rw [drops]
      exact ledger.set_released found living rfl rfl dropped
    · have left : 0 < x.references - 1 := by omega
      rw [Action.runOn_unref_more found living last]
      exact ledger.set_living found living rfl (decide_eq_true left) rfl rfl
  · rw [Action.runOn_unref_released gone]
    exact ledger

theorem after_shutdownTypes (ledger : s.Ledger own) : (s.after .shutdownTypes).Ledger own := by
  show (Action.shutdownTypes.runOn s).2.Ledger own
  cases shut : s.types.isShut with
  | true =>
    rw [Action.runOn_shutdownTypes_again shut]
    exact ledger
  | false =>
    obtain ⟨log, ends⟩ := Action.runOn_shutdownTypes shut
    have before := ledger.references
    rw [TypeStore.ownerCount, shut] at before
    rw [ends]
    refine ⟨ledger.nonneg, ?_, ledger.referencesOf⟩
    show s.types.references - 1 = 0 + s.livingCount + own.length
    simp only [Bool.false_eq_true, if_false] at before
    omega

end Ledger

/-- Planning a launch leaves the session alone. -/
theorem after_plan (s : Session) (d : DescriptorId) (targets : List LaunchTarget)
    (context : Context) : s.after (.plan d targets context) = s := by
  show ((Action.plan d targets context).runOn s).2 = s
  unfold Action.plan
  rcases Action.alive_or_gone s d with ⟨x, found, living⟩ | gone
  · have named : (Action.typeName x.contentType).runOn s =
      (.ok (s.types.nameOf x.contentType), s) := rfl
    rw [Action.runOn_bind_ok (Action.runOn_alive found living), Action.runOn_bind_ok named]
    by_cases desktop : s.types.nameOf x.contentType = ContentType.desktopEntry
    · rw [if_pos desktop, Action.runOn_bind_ok (Action.runOn_files s), Action.runOn_bind,
        Action.runOn_ofExcept]
      cases LaunchPlan.entryArgv s.files x.path targets context <;> rfl
    · rw [if_neg desktop, Action.runOn_bind, Action.runOn_ofExcept]
      cases LaunchPlan.directArgv x.path targets <;> rfl
  · rw [Action.runOn_bind_error (Action.runOn_alive_released gone)]

/-! ## Whole runs -/

/-- Requests on descriptors, and the one to shut the store down. -/
def Request.isOnDescriptors : Request → Bool
  | .resolve .. | .refresh .. | .rename .. | .plan .. | .ref _ | .unref _ | .shutdownTypes => true
  | _ => false

/-- No request on descriptors has to do with the references that callers own. -/
theorem Ledger.after_onDescriptors {own : List HandleId} {r : Request} (ledger : s.Ledger own)
    (sound : s.types.Sound) (allowed : r.isOnDescriptors) : (s.after r).Ledger own := by
  cases r with
  | resolve path context => exact ledger.after_resolve sound path context
  | refresh d context => exact ledger.after_refresh sound d context
  | rename d name context => exact ledger.after_rename sound d name context
  | plan d targets context =>
    rw [after_plan]
    exact ledger
  | ref d => exact ledger.after_ref d
  | unref d => exact ledger.after_unref sound d
  | shutdownTypes => exact ledger.after_shutdownTypes
  | _ => cases allowed

theorem balanced_after {r : Request} (sound : s.types.Sound) (balanced : s.Balanced)
    (allowed : r.isOnDescriptors) : (s.after r).Balanced :=
  ledger_nil_iff.mp ((ledger_nil_iff.mpr balanced).after_onDescriptors sound allowed)

namespace Balanced

theorem held (balanced : s.Balanced) (found : s.descriptors[d]? = some x) (living : x.isAlive) :
    0 < s.types.referencesOf x.contentType :=
  (ledger_nil_iff.mpr balanced).held found living

theorem congr (balanced : s.Balanced) (descriptors : t.descriptors = s.descriptors)
    (counts : s.types.SameCounts t.types) : t.Balanced :=
  ledger_nil_iff.mp ((ledger_nil_iff.mpr balanced).congr descriptors counts)

end Balanced

theorem ReachableBy.balanced (run : s.ReachableBy Request.isOnDescriptors) : s.Balanced := by
  induction run with
  | start files rules overrides =>
    exact ⟨fun x among => absurd among List.not_mem_nil, rfl, fun h => rfl⟩
  | ask r run allowed _ ih => exact balanced_after run.reachable.sound ih allowed
  | touch files _ ih => exact ⟨ih.nonneg, ih.references, ih.referencesOf⟩

theorem Resolves.livingCount {path : Text} (resolves : s.Resolves path context y t) :
    t.livingCount = s.livingCount + 1 := by
  rw [Session.livingCount, resolves.descriptors, List.countP_append, List.countP_singleton,
    Descriptor.isDisposed_of_isAlive resolves.living]
  rfl

theorem Refreshes.livingCount {r : Refreshed} (refreshes : s.Refreshes d x context r t) :
    t.livingCount = s.livingCount + if r.changed then 1 else 0 := by
  cases refreshes with
  | changed resolves differs => exact resolves.livingCount
  | unchanged resolves same counts descriptors =>
    rw [Session.livingCount, descriptors, List.countP_append, List.countP_singleton]
    rfl

/-- In every run of requests on descriptors the counts of references are balanced and no handle is
released early. Resolving a path adds a descriptor to count, and looking again at a file does so
only where it answers a new one. -/
theorem balanced_of_run (run : s.ReachableBy Request.isOnDescriptors) :
    s.Balanced ∧
      (∀ (d : DescriptorId) x, s.descriptors[d]? = some x → ¬ x.isDisposed →
        0 < s.types.referencesOf x.contentType) ∧
      (∀ path context d t, (Action.resolve path context).runOn s = (.ok d, t) →
        t.livingCount = s.livingCount + 1) ∧
      ∀ d context r t, (Action.refresh d context).runOn s = (.ok r, t) →
        t.livingCount = s.livingCount + if r.changed then 1 else 0 := by
  have balanced := run.balanced
  have sound := run.reachable.sound
  refine ⟨balanced, fun d x found counted => ?_, fun path context d t resolves => ?_,
    fun d context r t refreshes => ?_⟩
  · have bound := balanced.nonneg x (List.mem_of_getElem? found)
    have used : x.references ≠ 0 := fun none => counted (decide_eq_true none)
    exact balanced.held found (decide_eq_true (by omega))
  · obtain ⟨-, y, adds⟩ := Resolves.of_run sound resolves
    exact adds.livingCount
  · obtain ⟨x, -, -, answered⟩ := Action.refresh_eq_ok sound refreshes
    exact answered.livingCount

/-- A directory with one text file. -/
def textFiles (text : Text) : FileSystem where
  entries := [("/a", .created (Utf8.encode text) 0o644)]

/-- A session in which a file has been resolved twice. -/
def resolvedTwice : Session :=
  let opened : Session := { files := textFiles "old", types := .new [] {} [] }
  (opened.after (.resolve "a" {})).after (.resolve "a" {})

theorem reachableBy_resolvedTwice : resolvedTwice.ReachableBy Request.isOnDescriptors :=
  .ask (.resolve "a" {}) (.ask (.resolve "a" {}) (.start _ _ _ _) rfl nofun) rfl nofun

/-- A session in which a file that has been resolved twice is looked at again after a change, and
which its owner leaves with one of the old descriptors released. -/
def abandoned : Session :=
  let changed : Session := { resolvedTwice with files := textFiles "newer" }
  ((changed.after (.refresh 0 {})).after .shutdownTypes).after (.unref 0)

theorem balanced_abandoned :
    abandoned.types.references = 2 ∧ abandoned.types.referencesOf 0 = 2 := by
  have run : abandoned.ReachableBy Request.isOnDescriptors :=
    .ask (.unref 0) (.ask .shutdownTypes (.ask (.refresh 0 {}) (.touch _ reachableBy_resolvedTwice)
      rfl nofun) rfl nofun) rfl nofun
  obtain ⟨balanced, -⟩ := balanced_of_run run
  have shut : abandoned.types.ownerCount = 0 := by decide +kernel
  have living : abandoned.livingCount = 2 := by decide +kernel
  have holders : abandoned.holderCount 0 = 2 := by decide +kernel
  rw [balanced.references, balanced.referencesOf, shut, living, holders]
  exact ⟨rfl, rfl⟩

end Session

end FileProfile
