import FileProfile.Proofs.Descriptor.Moved
import FileProfile.Proofs.Descriptor.Specified
import FileProfile.Proofs.Session.Alterations

/-!
What stays true of a descriptor as long as it exists.

`Descriptor.Steady` compares a descriptor with what it was when its path was resolved. What has just
been resolved is steady (`steady_described`), no alteration changes that (`Steady.alters`), and so
it holds after any requests, answered or failing, while the files change in whatever way
(`steady_of_follows`).
-/

namespace FileProfile

/-- The descriptor `x`, with the store `types`, against the descriptor `x₀` that it was when it was
created, with the store `types₀`. -/
structure Descriptor.Steady (types₀ : TypeStore) (x₀ : Descriptor) (types : TypeStore)
    (x : Descriptor) : Prop where
  kind : x.kind = x₀.kind
  attributes : x.attributes = x₀.attributes
  symlink : Flag.isSet x.flags .symlink = Flag.isSet x₀.flags .symlink
  /-- Nothing but flags is set. -/
  bits : x.flags = ((Flag.all.filter (Flag.isSet x.flags)).map Flag.bit).sum
  executable : Flag.isSet x.flags .executable → x.kind = .regular ∧ Word32.land x.mode 0o444 ≠ 0
  hints : x.hints.isSome → types.nameOf x.contentType = ContentType.desktopEntry
  contentType : x.kind ≠ .regular → x.contentType = x₀.contentType ∧
    types.nameOf x.contentType = types₀.nameOf x₀.contentType
  inside : x.contentType < types.handles.length

/-! ## Flags -/

theorem bits_computeFlags (link : LinkState) (executable permitted : Bool)
    (launchable : Option Bool) :
    let flags := computeFlags link executable permitted launchable
    flags = ((Flag.all.filter (Flag.isSet flags)).map Flag.bit).sum := by
  unfold computeFlags
  split <;> split <;> decide

/-- Where nothing but flags is set, that of links tells whether the path is one. -/
theorem isSet_symlink_iff {x : Descriptor}
    (bits : x.flags = ((Flag.all.filter (Flag.isSet x.flags)).map Flag.bit).sum) :
    Flag.isSet x.flags .symlink ↔ x.linkState ≠ .none := by
  obtain ⟨p, sum⟩ : ∃ p : Flag → Bool, x.flags = ((Flag.all.filter p).map Flag.bit).sum := ⟨_, bits⟩
  unfold Descriptor.linkState
  cases linked : p .symlink <;> cases marked : p .executable
  all_goals
    simp only [Flag.all, List.filter, linked, marked] at sum
    rw [sum]
    decide

/-- Only what someone may read may be executed. -/
theorem FileSystem.land_of_isExecutePermitted {fs : FileSystem} {p : Text} {mode : Int}
    (permitted : fs.isExecutePermitted p mode = true) : Word32.land mode 0o444 ≠ 0 := by
  rw [isExecutePermitted, Bool.and_eq_true] at permitted
  exact of_decide_eq_true permitted.1

/-- Only desktop entries say anything about launching. -/
theorem FileSystem.desktop_of_launcherAt {fs : FileSystem} {p : Text} {type : TypeName}
    {locales : List Text} (told : (fs.launcherAt p type locales).isSome) :
    type = ContentType.desktopEntry := by
  obtain ⟨_, read⟩ := Option.isSome_iff_exists.mp told
  exact (launcherAt_eq_some.mp read).1

/-! ## What has been resolved -/

/-- A descriptor with the handle of the type that its file tells is steady. -/
theorem Session.steady_described (s : Session) (identity : Identity) (locales : List Text)
    (resolved : ResolvedAttributes) {h : HandleId} {types : TypeStore}
    (inside : h < types.handles.length) (named : types.nameOf h =
      s.types.typeOf s.files identity.path identity.displayName (Action.kindOf resolved)) :
    Descriptor.Steady types (s.described identity locales resolved h) types
      (s.described identity locales resolved h) := by
  rw [Session.described_eq]
  exact {
    kind := rfl
    attributes := rfl
    symlink := rfl
    bits := bits_computeFlags _ _ _ _
    executable := fun set => by
      have permitted : (decide (Action.kindOf resolved = .regular) &&
          s.files.isExecutePermitted identity.path resolved.attributes.mode) = true := by
        rcases (isSet_computeFlags_executable _ _ _ _).mp set with program | ⟨permitted, -⟩
        · exact (Bool.and_eq_true_iff.mp program).1
        · exact permitted
      rw [Bool.and_eq_true, decide_eq_true_iff,
        ← FileSystem.isExecutePermitted_permissionBits] at permitted
      exact ⟨permitted.1, FileSystem.land_of_isExecutePermitted permitted.2⟩
    hints := fun hinted => by
      dsimp only at hinted
      rw [Option.isSome_map] at hinted
      exact named.trans (FileSystem.desktop_of_launcherAt hinted)
    contentType := fun _ => ⟨rfl, rfl⟩
    inside }

namespace Descriptor.Steady

variable {s : Session} {types₀ types : TypeStore} {x₀ x y : Descriptor}

/-- A regular file that has been classified again keeps what is steady of it. -/
theorem reclassified (steady : Steady types₀ x₀ s.types x) (name : Text) (locales : List Text)
    {h : HandleId} (regular : x.kind = .regular) (inside : h < types.handles.length)
    (named : types.nameOf h = s.types.typeOfRegular s.files x.path name) :
    Steady types₀ x₀ types ((s.reclassifiedChange x name h locales).applied x) := by
  rw [Session.reclassifiedChange, applied_regularChange]
  exact {
    kind := steady.kind
    attributes := steady.attributes
    symlink := by
      rw [← steady.symlink, Bool.eq_iff_iff]
      exact (isSet_computeFlags_symlink _ _ _ _).trans (isSet_symlink_iff steady.bits).symm
    bits := bits_computeFlags _ _ _ _
    executable := fun set => by
      dsimp only [Session.reclassified] at set
      have permitted : s.files.isExecutePermitted x.path x.mode = true := by
        rcases (isSet_computeFlags_executable _ _ _ _).mp set with program | ⟨permitted, -⟩
        · exact (Bool.and_eq_true_iff.mp program).1
        · exact permitted
      exact ⟨regular, FileSystem.land_of_isExecutePermitted permitted⟩
    hints := fun hinted => by
      dsimp only at hinted
      rw [Option.isSome_map] at hinted
      exact named.trans (FileSystem.desktop_of_launcherAt hinted)
    contentType := fun other => absurd regular other
    inside }

/-- No alteration of a descriptor changes what is steady of it. -/
theorem alters (steady : Steady types₀ x₀ s.types x)
    (names : ∀ h, h < s.types.handles.length →
      h < types.handles.length ∧ types.nameOf h = s.types.nameOf h)
    (alters : s.Alters types x y) : Steady types₀ x₀ types y := by
  obtain ⟨inside, named⟩ := names x.contentType steady.inside
  have hints : x.hints.isSome → types.nameOf x.contentType = ContentType.desktopEntry :=
    fun hinted => named.trans (steady.hints hinted)
  have contentType : x.kind ≠ .regular → x.contentType = x₀.contentType ∧
      types.nameOf x.contentType = types₀.nameOf x₀.contentType := fun other =>
    ⟨(steady.contentType other).1, named.trans (steady.contentType other).2⟩
  cases alters with
  | counted references => exact { steady with hints, contentType, inside }
  | released => exact { steady with hints := nofun, contentType, inside }
  | entitled name desktop =>
    exact { steady with hints := fun _ => named.trans desktop, contentType, inside }
  | carried identity displayName other => exact { steady with hints, contentType, inside }
  | reclassified name locales regular inside named =>
    exact steady.reclassified name locales regular inside named
  | stranded name locales regular other inside =>
    -- What is no desktop entry has no hints that could outlast the change of its type.
    exact { steady with
      hints := fun hinted => absurd (steady.hints hinted) other
      contentType := fun irregular => absurd regular irregular
      inside }

end Descriptor.Steady

/-! ## Whole runs -/

namespace Session

/-- The sessions that come after `s` by any requests but those to replace fields of the descriptor
`d`, the files changing in between. -/
inductive Follows (s : Session) (d : DescriptorId) : Session → Prop where
  | refl : Follows s d s
  | ask {t : Session} (r : Request) : Follows s d t → t.CanAsk r → (∀ change, r ≠ .apply d change) →
      Follows s d (t.after r)
  | touch {t : Session} (files : FileSystem) : Follows s d t → Follows s d { t with files }

variable {s s₁ t : Session} {d : DescriptorId}

theorem Follows.steady (run : s.Follows d t) (sound : s.types.Sound) {x₀ : Descriptor}
    (found : s.descriptors[d]? = some x₀) (steady : Descriptor.Steady s.types x₀ s.types x₀) :
    t.types.Sound ∧ ∃ x, t.descriptors[d]? = some x ∧
      Descriptor.Steady s.types x₀ t.types x := by
  induction run with
  | refl => exact ⟨sound, x₀, found, steady⟩
  | ask r _ can given ih =>
    obtain ⟨sound, x, found, steady⟩ := ih
    obtain ⟨y, found', alters⟩ := alters_after sound found given
    exact ⟨sound_after sound can, y, found',
      steady.alters (fun _ inside => nameOf_after sound can inside) alters⟩
  | touch files _ ih => exact ih

/-- Whatever is asked and however the files change after a path has been resolved, its descriptor
shows the kind and the attributes that it was created with, and its flags, hints and content type
belong together. -/
theorem steady_of_follows (reachable : s.Reachable) {path : Text} {context : Context}
    (resolves : (Action.resolve path context).runOn s = (.ok d, s₁)) (run : s₁.Follows d t) :
    ∃ x₀ x, s₁.descriptors[d]? = some x₀ ∧ t.descriptors[d]? = some x ∧
      Descriptor.Steady s₁.types x₀ t.types x := by
  obtain ⟨resolved, h, types, log, -, -, -, rfl, rfl, took⟩ :=
    Action.resolve_eq_ok reachable.sound resolves
  have inside := TypeStore.lt_length_of_counted (took.counted reachable.sound)
  have steady := s.steady_described (Identity.forPath s.files.workingDirectory path)
    context.locales resolved inside took.nameOf
  obtain ⟨-, x, found, kept⟩ := run.steady took.sound (by simp) steady
  exact ⟨_, x, by simp, found, kept⟩

/-- A desktop entry whose name tells another type. -/
def misnamedApplication : FileSystem where
  workingDirectory := "/work"
  entries := [("/work/app.txt", application)]

theorem steady_of_follows_misnamedApplication :
    let s : Session :=
      { files := misnamedApplication, types := .new [("txt", "text/plain")] {} [] }
    let s₁ := ((Action.resolve "app.txt" {}).runOn s).2
    let s₂ := s₁.after (.rename 0 "app.desktop" {})
    let t := Session.after { s₂ with files := {} } (.rename 0 "App" {})
    ∃ x₀ x, s₁.descriptors[0]? = some x₀ ∧ t.descriptors[0]? = some x ∧
      x₀.flags = 0 ∧ x₀.hints = none ∧ Flag.isSet x.flags .executable ∧ x.hints.isSome ∧
      Descriptor.Steady s₁.types x₀ t.types x := by
  intro s s₁ s₂ t
  have resolves : (Action.resolve "app.txt" {}).runOn s = (.ok 0, s₁) :=
    Action.runOn_of_toOption (by decide +kernel)
  have run : s₁.Follows 0 t :=
    .ask (.rename 0 "App" {}) (.touch {} (.ask (.rename 0 "app.desktop" {}) .refl nofun nofun))
      nofun nofun
  obtain ⟨x₀, x, first, last, steady⟩ :=
    steady_of_follows (.start misnamedApplication [("txt", "text/plain")] {} []) resolves run
  have plain : s₁.descriptors[0]?.map (fun x => (x.flags, x.hints)) = some (0, none) := by
    decide +kernel
  have marked : t.descriptors[0]?.map (fun x => (Flag.isSet x.flags .executable, x.hints.isSome)) =
      some (true, true) := by
    decide +kernel
  rw [first, Option.map_some, Option.some.injEq, Prod.mk.injEq] at plain
  rw [last, Option.map_some, Option.some.injEq, Prod.mk.injEq] at marked
  exact ⟨x₀, x, first, last, plain.1, plain.2, marked.1, marked.2, steady⟩

end Session

end FileProfile
