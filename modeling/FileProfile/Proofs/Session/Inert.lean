import FileProfile.Proofs.Session.Custody

/-!
Descriptors before and after their release.

A descriptor that has references left keeps its handle in use, and gives it up once: when another
takes its place, or with the last reference (`Session.Serves`). A descriptor without references
stays as it is whatever happens, and all that is asked of it fails and changes nothing
(`Session.Inert`). `custody_of_run` says both of every run in which callers use up only what they
own.
-/

namespace FileProfile

namespace Session

/-- What can be done with a descriptor that has references left, and what that does to the store.
Neither reading nor planning changes anything. -/
structure Serves (s : Session) (own : List HandleId) (d : DescriptorId) (x : Descriptor) :
    Prop where
  held : 0 < s.types.referencesOf x.contentType
  read : (Action.alive d).runOn s = (.ok x, s)
  snapshot : ((Action.snapshot d).runOn s).2 = s
  agree : ∀ k, ((Action.agree d k).runOn s).2 = s ∧ ((Action.agree k d).runOn s).2 = s
  plan : ∀ targets context, ((Action.plan d targets context).runOn s).2 = s
  ref : (Action.ref d).runOn s = (.ok (), { s with
    descriptors := s.descriptors.set d { x with references := x.references + 1 } })
  unref : x.references ≠ 1 → (Action.unref d).runOn s = (.ok (), { s with
    descriptors := s.descriptors.set d { x with references := x.references - 1 } })
  /-- The last reference gives up the handle. -/
  unref_last : x.references = 1 → ∃ types log,
    (Action.unref d).runOn s = (.ok (), { s with
      types
      descriptors := s.descriptors.set d { x with references := 0, hints := none }
      log }) ∧
    TypeStore.Dropped s.types x.contentType types
  apply_keeping : ∀ change : DescriptorChange, change.contentType = none →
    (Action.apply d change).runOn s = (.ok (), { s with
      descriptors := s.descriptors.set d (change.applied x) })
  /-- A handle that is passed on takes the place of the old one, even where both are one. -/
  apply_replacing : ∀ (change : DescriptorChange) (h : HandleId), change.contentType = some h →
    h ∈ own → ∃ types log,
      (Action.apply d change).runOn s = (.ok (), { s with
        types
        descriptors := s.descriptors.set d (change.applied x)
        log }) ∧
      TypeStore.Dropped s.types x.contentType types
  /-- Looking again at the file changes no descriptor and counts the one that it may answer. -/
  refresh : ∀ context, ∃ added : List Descriptor,
    (s.after (.refresh d context)).descriptors = s.descriptors ++ added ∧
    ∀ h, (s.after (.refresh d context)).types.referencesOf h =
      s.types.referencesOf h + added.countP fun y => y.holds h
  /-- A renaming that fails changes no descriptor and no count of references. -/
  rename_error : ∀ name context e t, (Action.rename d name context).runOn s = (.error e, t) →
    t.descriptors = s.descriptors ∧ s.types.SameCounts t.types
  rename_ok : ∀ name context t, (Action.rename d name context).runOn s = (.ok (), t) →
    ∃ y, s.Renamed d x y t
  /-- Requests about other things leave the descriptor alone. -/
  apart : ∀ r : Request, r.subject? ≠ some d → (s.after r).descriptors[d]? = some x

/-- Nothing can be done with a descriptor that has been released: whatever reads it or acts on it
fails, and leaves the session as it is. -/
structure Inert (s : Session) (d : DescriptorId) : Prop where
  read : ∀ {β : Type} (f : Descriptor → Action β),
    (Action.alive d >>= f).runOn s = (.error Action.released, s)
  snapshot : (Action.snapshot d).runOn s = (.error Action.released, s)
  agree_left : ∀ k, (Action.agree d k).runOn s = (.error Action.released, s)
  agree_right : ∀ k, (Action.agree k d).runOn s = (.error Action.released, s)
  plan : ∀ targets context,
    (Action.plan d targets context).runOn s = (.error Action.released, s)
  ref : (Action.ref d).runOn s = (.error Action.released, s)
  unref : (Action.unref d).runOn s = (.error Action.released, s)
  apply : ∀ change, (Action.apply d change).runOn s = (.error Action.released, s)
  refresh : ∀ context, (Action.refresh d context).runOn s = (.error Action.released, s)
  /-- The name is looked at first. -/
  rename : ∀ name context, (Action.rename d name context).runOn s = (.error
    (if FileName.validate name = .ok () then Action.released else .invalidName name), s)

variable {s t : Session} {own : List HandleId} {d : DescriptorId} {x : Descriptor} {r : Request}

/-! ## Descriptors that are used -/

namespace Ledger

variable (ledger : s.Ledger own)

include ledger

/-- Where descriptors are added, their handles are counted. -/
theorem counted_added (ledger' : t.Ledger own) {added : List Descriptor}
    (descriptors : t.descriptors = s.descriptors ++ added) (h : HandleId) :
    t.types.referencesOf h = s.types.referencesOf h + added.countP fun y => y.holds h := by
  have more : t.holderCount h = s.holderCount h + added.countP fun y => y.holds h := by
    rw [holderCount, descriptors, List.countP_append]
    rfl
  rw [ledger.referencesOf, ledger'.referencesOf, more, Int.natCast_add]
  omega

theorem serves (sound : s.types.Sound) (found : s.descriptors[d]? = some x) (living : x.isAlive) :
    s.Serves own d x where
  held := ledger.held found living
  read := Action.runOn_alive found living
  snapshot := by
    have named : (Action.typeName x.contentType).runOn s =
      (.ok (s.types.nameOf x.contentType), s) := rfl
    rw [Action.snapshot, Action.runOn_bind_ok (Action.runOn_alive found living),
      Action.runOn_bind_ok named, Action.runOn_ofExcept]
  agree k := by
    unfold Action.agree
    rw [Action.runOn_bind_ok (Action.runOn_alive found living)]
    rcases Action.alive_or_gone s k with ⟨y, found', living'⟩ | gone
    · rw [Action.runOn_bind_ok (Action.runOn_alive found' living'),
        Action.runOn_bind_ok (Action.runOn_alive found' living'),
        Action.runOn_bind_ok (Action.runOn_alive found living)]
      exact ⟨rfl, rfl⟩
    · rw [Action.runOn_bind_error (Action.runOn_alive_released gone),
        Action.runOn_bind_error (Action.runOn_alive_released gone)]
      exact ⟨rfl, rfl⟩
  plan targets context := after_plan s d targets context
  ref := Action.runOn_ref found living
  unref more := Action.runOn_unref_more found living more
  unref_last last := Action.runOn_unref_last sound found last (ledger.held found living)
  apply_keeping change keeping := by
    rw [Action.runOn_apply_keeping found living keeping, Action.modify_eq_set found]
  apply_replacing change h replacing _ := by
    rw [← Action.modify_eq_set found]
    exact Action.runOn_apply_replacing sound found living replacing (ledger.held found living)
  refresh context := by
    obtain ⟨added, descriptors⟩ := exists_added (r := .refresh d context) sound rfl
    exact ⟨added, descriptors,
      ledger.counted_added (ledger.after_refresh sound d context) descriptors⟩
  rename_error name context e t fails := by
    have unchanged := ledger.unchanged_of_rename sound fails
    exact ⟨unchanged.descriptors,
      unchanged.isShut, unchanged.references, unchanged.referencesOf⟩
  rename_ok name context t run := by
    obtain ⟨z, y, renamed⟩ := renamed_of_rename sound run
    obtain rfl : z = x := Option.some.inj (renamed.found.symm.trans found)
    exact ⟨y, renamed⟩
  apart r other := descriptor_after_of_ne sound found other

end Ledger

/-! ## Descriptors that have been released -/

theorem inert_of_gone (gone : ∀ x, s.descriptors[d]? = some x → ¬ x.isAlive) : s.Inert d := by
  have read : ∀ {β : Type} (f : Descriptor → Action β),
      (Action.alive d >>= f).runOn s = (.error Action.released, s) :=
    fun f => Action.runOn_bind_error (Action.runOn_alive_released gone)
  exact {
    read
    snapshot := read _
    agree_left := fun k => read _
    agree_right := fun k => by
      unfold Action.agree
      rcases Action.alive_or_gone s k with ⟨y, found, living⟩ | absent
      · rw [Action.runOn_bind_ok (Action.runOn_alive found living), read]
      · rw [Action.runOn_bind_error (Action.runOn_alive_released absent)]
    plan := fun targets context => read _
    ref := read _
    unref := read _
    apply := fun change => read _
    refresh := fun context => read _
    rename := fun name context => by
      by_cases valid : FileName.validate name = .ok ()
      · rw [if_pos valid, Action.runOn_rename_released context valid gone]
      · rw [if_neg valid, Action.runOn_rename_invalid s d context valid] }

/-- No request on a descriptor that has been released changes anything. -/
theorem Inert.after (inert : s.Inert d) (about : r.subject? = some d) : s.after r = s := by
  cases r with
  | apply k change =>
    cases about
    exact congrArg Prod.snd (inert.apply change)
  | rename k name context =>
    cases about
    exact congrArg Prod.snd (inert.rename name context)
  | ref k =>
    cases about
    exact congrArg Prod.snd inert.ref
  | unref k =>
    cases about
    exact congrArg Prod.snd inert.unref
  | _ => cases about

/-- The sessions that any requests lead to, the files changing in between. -/
inductive LeadsTo (s : Session) : Session → Prop where
  | refl : LeadsTo s s
  | ask {t : Session} (r : Request) : LeadsTo s t → t.CanAsk r → LeadsTo s (t.after r)
  | touch {t : Session} (files : FileSystem) : LeadsTo s t → LeadsTo s { t with files }

/-- A descriptor that has been released stays as it is for good. -/
theorem LeadsTo.stays (run : s.LeadsTo t) (sound : s.types.Sound)
    (found : s.descriptors[d]? = some x) (gone : ¬ x.isAlive) :
    t.types.Sound ∧ t.descriptors[d]? = some x := by
  induction run with
  | refl => exact ⟨sound, found⟩
  | touch files _ ih => exact ih
  | @ask t r _ can ih =>
    obtain ⟨sound, found⟩ := ih
    refine ⟨sound_after sound can, ?_⟩
    by_cases about : r.subject? = some d
    · have inert : t.Inert d := inert_of_gone fun y found' living =>
        gone (Option.some.inj (found.symm.trans found') ▸ living)
      rw [inert.after about]
      exact found
    · exact descriptor_after_of_ne sound found about

/-! ## Whole runs -/

/-- In every run of requests that use up no reference but those of their callers, all references to
handles are accounted for by descriptors that have not been released and by what callers own. Such a
descriptor does what it is asked and gives up its handle once. One that has been released stays as
it is, whatever is asked from then on, and everything that is asked of it fails and changes
nothing. -/
theorem custody_of_run (run : s.Entrusted own) :
    s.Ledger own ∧ ∀ d x, s.descriptors[d]? = some x →
      (¬ x.isDisposed → s.Serves own d x) ∧
      (x.isDisposed → ∀ t, s.LeadsTo t → t.descriptors[d]? = some x ∧ t.Inert d) := by
  have ledger := run.ledger
  have sound := run.reachable.sound
  refine ⟨ledger, fun d x found => ⟨fun used => ?_, fun released t leads => ?_⟩⟩
  · have bound := ledger.nonneg x (List.mem_of_getElem? found)
    have counted : x.references ≠ 0 := fun none => used (decide_eq_true none)
    exact ledger.serves sound found (decide_eq_true (by omega))
  · have gone : ¬ x.isAlive := fun living => by
      rw [Descriptor.isDisposed_of_isAlive living] at released
      cases released
    obtain ⟨-, stays⟩ := leads.stays sound found gone
    refine ⟨stays, inert_of_gone fun y found' living => ?_⟩
    exact gone (Option.some.inj (stays.symm.trans found') ▸ living)

/-- A session in which a file has been resolved and its type looked up. -/
def lookedUp : Session :=
  let opened : Session := { files := textFiles "old", types := .new [] {} [] }
  (opened.after (.resolve "a" {})).after (.lookupType (.text "text/plain"))

theorem entrusted_lookedUp : lookedUp.Entrusted [0] := by
  let opened : Session := { files := textFiles "old", types := .new [] {} [] }
  have start : opened.Entrusted [] := .start _ _ _ _
  have resolved : (opened.after (.resolve "a" {})).Entrusted [] := start.ask_any nofun rfl rfl
  have owns : (opened.after (.resolve "a" {})).ownAfter (.lookupType (.text "text/plain")) [] =
      [0] := by decide +kernel
  have run := Entrusted.ask (.lookupType (.text "text/plain")) resolved nofun nofun
  rwa [owns] at run

/-- The session in which the descriptor has been passed the handle that it already had. -/
def swapped : Session := lookedUp.after (.apply 0 { contentType := some 0 })

theorem entrusted_swapped : swapped.Entrusted [] := by
  have owns : lookedUp.ownAfter (.apply 0 { contentType := some 0 }) [0] = [] := by decide +kernel
  have run := Entrusted.ask (.apply 0 { contentType := some 0 }) entrusted_lookedUp nofun
    fun h offered => by
      cases offered
      exact List.mem_cons_self
  rwa [owns] at run

/-- A descriptor that has been passed the handle that it had gives it up once. After its release it
cannot be renamed, whether the name is accepted or not. -/
theorem custody_swapped :
    let s := swapped.after (.unref 0)
    swapped.types.referencesOf 0 = 1 ∧ s.types.referencesOf 0 = 0 ∧
      (Action.rename 0 "b" {}).runOn s = (.error Action.released, s) ∧
      (Action.rename 0 "a/b" {}).runOn s = (.error (.invalidName "a/b"), s) := by
  intro s
  have run : s.Entrusted [] := entrusted_swapped.ask_any nofun rfl rfl
  obtain ⟨ledger, -⟩ := custody_of_run entrusted_swapped
  obtain ⟨ledger', custody⟩ := custody_of_run run
  have holders : swapped.holderCount 0 = 1 := by decide +kernel
  have holders' : s.holderCount 0 = 0 := by decide +kernel
  obtain ⟨x, found, released⟩ : ∃ x, s.descriptors[0]? = some x ∧ x.isDisposed := by
    refine ⟨_, List.getElem?_eq_getElem (by decide +kernel), ?_⟩
    decide +kernel
  obtain ⟨-, inert⟩ := (custody 0 x found).2 released s .refl
  refine ⟨?_, ?_, inert.rename "b" {}, inert.rename "a/b" {}⟩
  · rw [ledger.referencesOf, holders]
    rfl
  · rw [ledger'.referencesOf, holders']
    rfl

end Session

end FileProfile
