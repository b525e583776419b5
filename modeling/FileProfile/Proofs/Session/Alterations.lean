import FileProfile.Proofs.Session.Accounts
import FileProfile.Proofs.Session.Balance

/-!
What requests make of one descriptor.

`Session.Alters` says once in which ways a descriptor can come out of a request that does not
replace its fields outright, and `alters_after` that there are no others: a request on another
descriptor leaves it as it is, and so does whatever is asked of the store alone. Handles keep their
names meanwhile (`nameOf_after`).
-/

namespace FileProfile

/-! ## Names of handles -/

/-- No request takes a handle away or gives it another name. -/
theorem TypeStore.kept_nameOf (h : HandleId) (name : TypeName) :
    Kept fun s => s.Sound ∧ h < s.handles.length ∧ s.nameOf h = name where
  lookup := by
    rintro s t other k ⟨sound, inside, named⟩ found
    obtain ⟨_, -, took⟩ := took_of_lookup sound found
    exact ⟨took.sound, Nat.lt_of_lt_of_le inside took.length,
      (took.nameOf_old h inside).trans named⟩
  unref := by
    rintro s t k ⟨sound, inside, named⟩ given
    have dropped := dropped_of_unref sound given
    exact ⟨dropped.sound, dropped.length ▸ inside, (dropped.nameOf h).trans named⟩
  shutdown := by
    rintro s t ⟨sound, inside, named⟩ ended
    refine ⟨sound_shutdown sound ended, ?_⟩
    unfold shutdown at ended
    split at ended
    · cases ended
    · rw [← Except.ok.inj ended]
      exact ⟨inside, named⟩

namespace Session

variable {s t : Session} {d : DescriptorId} {x : Descriptor} {r : Request}

theorem nameOf_after (sound : s.types.Sound) (can : s.CanAsk r) {h : HandleId}
    (inside : h < s.types.handles.length) :
    h < (s.after r).types.handles.length ∧ (s.after r).types.nameOf h = s.types.nameOf h := by
  by_cases counts : ∃ k, r = .refType k
  · obtain ⟨k, rfl⟩ := counts
    rw [types_after_refType]
    cases taken : s.types.ref k with
    | error e => exact ⟨inside, rfl⟩
    | ok t =>
      rw [Except.toOption, Option.getD_some, TypeStore.eq_taking_of_ref taken]
      exact ⟨(TypeStore.length_count s.types k 1).symm ▸ inside,
        TypeStore.nameOf_count s.types k h 1⟩
  · exact (kept_after (TypeStore.kept_nameOf h _) ⟨sound, inside, rfl⟩
      fun k same => counts ⟨k, same⟩).2

/-! ## Ways of altering a descriptor -/

/-- The descriptor `y` is what a request can make of `x`, the session having been `s` before it and
the store being `types` after it. -/
inductive Alters (s : Session) (types : TypeStore) (x : Descriptor) : Descriptor → Prop where
  | counted (references : Int) : Alters s types x { x with references }
  | released : Alters s types x { x with references := 0, hints := none }
  /-- The desktop entry of the descriptor has got another name. -/
  | entitled (name : Text) (desktop : s.types.nameOf x.contentType = ContentType.desktopEntry) :
      Alters s types x (x.entitled name)
  /-- A file that is no regular one has got another place. -/
  | carried (identity : Identity) (displayName : Text) (other : x.kind ≠ .regular) :
      Alters s types x { x with identity, displayName }
  /-- A regular file has got another place, and what its new name tells. -/
  | reclassified (name : Text) (locales : List Text) {h : HandleId} (regular : x.kind = .regular)
      (inside : h < types.handles.length)
      (named : types.nameOf h = s.types.typeOfRegular s.files x.path name) :
      Alters s types x ((s.reclassifiedChange x name h locales).applied x)
  /-- A regular file has got another place and type, but nothing else. -/
  | stranded (name : Text) (locales : List Text) {h : HandleId} (regular : x.kind = .regular)
      (other : s.types.nameOf x.contentType ≠ ContentType.desktopEntry)
      (inside : h < types.handles.length) :
      Alters s types x ((s.reclassifiedChange x name h locales).begun x)

/-- At most the descriptor with a number has been altered. -/
def AltersAt (s : Session) (d : DescriptorId) (t : Session) : Prop :=
  t.descriptors = s.descriptors ∨ ∃ x y, s.descriptors[d]? = some x ∧
    t.descriptors = s.descriptors.set d y ∧ s.Alters t.types x y

theorem AltersAt.of_set {y : Descriptor} (found : s.descriptors[d]? = some x)
    (descriptors : t.descriptors = s.descriptors.set d y) (alters : s.Alters t.types x y) :
    s.AltersAt d t := .inr ⟨x, y, found, descriptors, alters⟩

/-- A descriptor that is not altered comes out as it was. -/
theorem Alters.same (s : Session) (types : TypeStore) (x : Descriptor) : s.Alters types x x :=
  .counted x.references

theorem AltersAt.apart {k : DescriptorId} (alters : s.AltersAt k t) (apart : k ≠ d) :
    t.descriptors[d]? = s.descriptors[d]? := by
  rcases alters with same | ⟨z, y, -, descriptors, -⟩
  · rw [same]
  · rw [descriptors, List.getElem?_set_ne apart]

/-- Whatever is done to one descriptor, another one comes out as it was. -/
theorem AltersAt.alters {k : DescriptorId} (alters : s.AltersAt k t)
    (found : s.descriptors[d]? = some x) :
    ∃ y, t.descriptors[d]? = some y ∧ s.Alters t.types x y := by
  by_cases here : k = d
  · subst here
    rcases alters with same | ⟨z, y, stands, descriptors, changes⟩
    · exact ⟨x, same ▸ found, .same s t.types x⟩
    · obtain rfl := Option.some.inj (stands.symm.trans found)
      rw [descriptors, List.getElem?_set_self (List.getElem?_eq_some_iff.mp found).1]
      exact ⟨y, rfl, changes⟩
  · exact ⟨x, (alters.apart here).trans found, .same s t.types x⟩

/-! ## Requests on one descriptor -/

theorem altersAt_ref (s : Session) (d : DescriptorId) : s.AltersAt d (s.after (.ref d)) := by
  show s.AltersAt d ((Action.ref d).runOn s).2
  rcases Action.alive_or_gone s d with ⟨x, found, living⟩ | gone
  · rw [Action.runOn_ref found living]
    exact .of_set found rfl (.counted _)
  · rw [Action.runOn_ref_released gone]
    exact .inl rfl

theorem altersAt_unref (sound : s.types.Sound) (d : DescriptorId) :
    s.AltersAt d (s.after (.unref d)) := by
  show s.AltersAt d ((Action.unref d).runOn s).2
  rcases Action.alive_or_gone s d with ⟨x, found, living⟩ | gone
  · by_cases last : x.references = 1
    · rcases Int.lt_or_le 0 (s.types.referencesOf x.contentType) with counted | unused
      · obtain ⟨t, log, drops, -⟩ := Action.runOn_unref_last sound found last counted
        rw [drops]
        exact .of_set found rfl .released
      · rw [Action.runOn_unref_last_released found last unused]
        exact .of_set found rfl (.counted 0)
    · rw [Action.runOn_unref_more found living last]
      exact .of_set found rfl (.counted _)
  · rw [Action.runOn_unref_released gone]
    exact .inl rfl

theorem altersAt_rename (sound : s.types.Sound) (d : DescriptorId) (name : Text)
    (context : Context) : s.AltersAt d (s.after (.rename d name context)) := by
  show s.AltersAt d ((Action.rename d name context).runOn s).2
  have ends := Action.renameEnds sound d name context
  generalize run : (Action.rename d name context).runOn s = outcome at ends ⊢
  cases ends with
  | refused cause => exact .inl rfl
  | blocked accepts other blocks => exact .inl rfl
  | edited edits edited =>
    rcases outcome with ⟨answer, t⟩
    cases answer with
    | error e => exact .inl (unchanged_of_renameEntry edits.found edits.living edited).descriptors
    | ok _ =>
      obtain ⟨_, _, fs, log, -, -, -, rfl⟩ :=
        Action.renameEntry_eq_ok edits.found edits.living edited
      exact .of_set edits.found rfl (.entitled name edits.desktop)
  | @moved x _ moves free opened tells ends =>
    rw [Action.runOn_rename_path moves.accepted moves.found moves.living moves.other] at run
    have relocates := Action.relocates moves.encoded moves.found moves.living free context sound
      opened tells
    rw [run] at relocates
    cases relocates with
    | stays log fails types => exact .inl rfl
    | carried log goes other =>
      exact .of_set moves.found (Action.modify_eq_set moves.found _) (.carried _ _ other)
    | @reclassified _ h u v log goes regular took dropped =>
      have inside : h < v.handles.length := by
        rw [dropped.length]
        exact TypeStore.lt_length_of_counted (took.counted sound)
      exact .of_set moves.found (Action.modify_eq_set moves.found _)
        (.reclassified name context.locales regular inside ((dropped.nameOf h).trans took.nameOf))
    | stranded log goes regular took unused =>
      exact .of_set moves.found (Action.modify_eq_set moves.found _)
        (.stranded name context.locales regular moves.other
          (TypeStore.lt_length_of_counted (took.counted sound)))

/-! ## Requests on other things -/

/-- What is asked of the store alone leaves the descriptors alone. -/
theorem descriptors_after_onTypes (sound : s.types.Sound) (onTypes : r.isOnTypes) :
    (s.after r).descriptors = s.descriptors := by
  have noting : ∀ f : TypeStore → Except Failure TypeStore, ((do
      Action.onTypes fun store => (f store).map fun u => ((), u)
      Action.noteTeardown).runOn s).2.descriptors = s.descriptors := by
    intro f
    cases changes : f s.types with
    | ok t => rw [Action.runOn_noting changes]
    | error e => rw [Action.runOn_noting_error changes]
  cases r with
  | lookupType name =>
    show ((Action.onTypes _).runOn s).2.descriptors = s.descriptors
    rw [Action.runOn_onTypes]
    split <;> rfl
  | lookupForFile path displayName =>
    show ((Action.lookupForFile path displayName).runOn s).2.descriptors = s.descriptors
    rcases Action.lookupForFile_cases sound path displayName with
      ⟨_, h, t, log, run, -⟩ | ⟨e, run⟩ <;> rw [run]
  | refType h =>
    show ((Action.onTypes _).runOn s).2.descriptors = s.descriptors
    rw [Action.runOn_onTypes]
    split <;> rfl
  | unrefType h => exact noting fun store => store.unref h
  | shutdownTypes => exact noting TypeStore.shutdown
  | _ => cases onTypes

/-- Requests that create descriptors. -/
def Request.creates : Request → Bool
  | .resolve .. | .create .. | .refresh .. => true
  | _ => false

/-- A descriptor that is created stands behind the others. -/
theorem exists_added (sound : s.types.Sound) (creates : r.creates) :
    ∃ added, (s.after r).descriptors = s.descriptors ++ added := by
  have none : s.descriptors = s.descriptors ++ [] := (List.append_nil _).symm
  cases r with
  | resolve path context =>
    show ∃ added, ((Action.resolve path context).runOn s).2.descriptors = s.descriptors ++ added
    rcases run : (Action.resolve path context).runOn s with ⟨answer, u⟩
    cases answer with
    | error e => exact ⟨[], Action.resolve_eq_error sound run ▸ none⟩
    | ok fresh =>
      obtain ⟨-, y, resolves⟩ := Resolves.of_run sound run
      exact ⟨[y], resolves.descriptors⟩
  | create identity kind attributes flags type hints =>
    show ∃ added, ((create identity kind attributes flags type hints).runOn s).2.descriptors =
      s.descriptors ++ added
    unfold create
    rcases Action.lookupType_cases sound type with ⟨_, h, t, finds, -⟩ | ⟨e, fails⟩
    · rw [Action.runOn_bind_ok finds]
      exact ⟨_, rfl⟩
    · rw [Action.runOn_bind_error fails]
      exact ⟨[], none⟩
  | refresh d context =>
    show ∃ added, ((Action.refresh d context).runOn s).2.descriptors = s.descriptors ++ added
    rcases run : (Action.refresh d context).runOn s with ⟨answer, t⟩
    cases answer with
    | error e => exact ⟨[], Action.refresh_eq_error sound run ▸ none⟩
    | ok refreshed =>
      obtain ⟨x, -, -, refreshes⟩ := Action.refresh_eq_ok sound run
      cases refreshes with
      | changed resolves differs => exact ⟨_, resolves.descriptors⟩
      | unchanged resolves same counts descriptors => exact ⟨_, descriptors⟩
  | _ => cases creates

/-- Replacing fields of one descriptor leaves the others alone. -/
theorem descriptors_after_apply (sound : s.types.Sound) {k : DescriptorId} (apart : k ≠ d)
    (change : DescriptorChange) :
    (s.after (.apply k change)).descriptors[d]? = s.descriptors[d]? := by
  show ((Action.apply k change).runOn s).2.descriptors[d]? = s.descriptors[d]?
  have modified : ∀ f, (s.descriptors.modify k f)[d]? = s.descriptors[d]? :=
    fun f => List.getElem?_modify_ne f _ apart
  rcases Action.alive_or_gone s k with ⟨x, found, living⟩ | gone
  · cases replacing : change.contentType with
    | none =>
      rw [Action.runOn_apply_keeping found living replacing]
      exact modified _
    | some h =>
      rcases Int.lt_or_le 0 (s.types.referencesOf x.contentType) with counted | unused
      · obtain ⟨t, log, run, -⟩ := Action.runOn_apply_replacing sound found living replacing counted
        rw [run]
        exact modified _
      · rw [Action.runOn_apply_released found living replacing unused]
        exact modified _
  · unfold Action.apply
    rw [Action.runOn_bind_error (Action.runOn_alive_released gone)]

/-- The descriptor of which a request changes the fields, if it does. -/
def Request.subject? : Request → Option DescriptorId
  | .apply d _ | .rename d .. | .ref d | .unref d => some d
  | _ => none

/-- A request that is about something else leaves a descriptor as it is. -/
theorem descriptor_after_of_ne (sound : s.types.Sound) (found : s.descriptors[d]? = some x)
    (other : r.subject? ≠ some d) : (s.after r).descriptors[d]? = some x := by
  have onTypes : r.isOnTypes → (s.after r).descriptors[d]? = some x := fun asked => by
    rw [descriptors_after_onTypes sound asked, found]
  have creating : r.creates → (s.after r).descriptors[d]? = some x := by
    intro asked
    obtain ⟨added, descriptors⟩ := exists_added sound asked
    rw [descriptors, List.getElem?_append_left (List.getElem?_eq_some_iff.mp found).1, found]
  cases r with
  | lookupType name => exact onTypes rfl
  | lookupForFile path displayName => exact onTypes rfl
  | refType h => exact onTypes rfl
  | unrefType h => exact onTypes rfl
  | shutdownTypes => exact onTypes rfl
  | resolve path context => exact creating rfl
  | create identity kind attributes flags type hints => exact creating rfl
  | refresh k context => exact creating rfl
  | plan k targets context => rw [after_plan, found]
  | apply k change =>
    have apart : k ≠ d := fun same => other (congrArg some same)
    exact (descriptors_after_apply sound apart change).trans found
  | rename k name context =>
    have apart : k ≠ d := fun same => other (congrArg some same)
    exact ((altersAt_rename sound k name context).apart apart).trans found
  | ref k =>
    have apart : k ≠ d := fun same => other (congrArg some same)
    exact ((altersAt_ref s k).apart apart).trans found
  | unref k =>
    have apart : k ≠ d := fun same => other (congrArg some same)
    exact ((altersAt_unref sound k).apart apart).trans found

/-- Every request but one to replace its fields alters a descriptor in one of the ways told. -/
theorem alters_after (sound : s.types.Sound) (found : s.descriptors[d]? = some x)
    (given : ∀ change, r ≠ .apply d change) :
    ∃ y, (s.after r).descriptors[d]? = some y ∧ s.Alters (s.after r).types x y := by
  by_cases about : r.subject? = some d
  · cases r with
    | apply k change => exact absurd (by rw [Option.some.inj about]) (given change)
    | rename k name context => exact (altersAt_rename sound k name context).alters found
    | ref k => exact (altersAt_ref s k).alters found
    | unref k => exact (altersAt_unref sound k).alters found
    | _ => cases about
  · exact ⟨x, descriptor_after_of_ne sound found about, .same s _ x⟩

end Session

end FileProfile
