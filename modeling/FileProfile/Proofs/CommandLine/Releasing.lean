import FileProfile.Proofs.CommandLine.Showing
import FileProfile.Proofs.Session.Holding
import Mathlib.Data.List.Forall2

/-!
What a run of a command line has released at its end.

A command hands the descriptors that it has resolved over to be released, or releases them itself
where it fails, with one exception: `info` leaves them where one of them cannot be shown
(`Command.Leaks`). A run that has opened a session leaves everything released just in case its
command does not leak (`run_released_iff`).
-/

namespace FileProfile

/-- A path resolves to attributes, and a type is told of what stands there. -/
structure FileSystem.ResolvesTo (files : FileSystem) (types : TypeStore) (path : Text)
    (r : ResolvedAttributes) : Prop where
  looked : files.resolveAttributes (files.absolute path) = .ok r
  tells : types.Tells files (files.absolute path) (Identity.mk (files.absolute path)).displayName
    (Action.kindOf r)

/-- All paths resolve, but the attributes of one of the files cannot be shown. -/
def Command.Leaks (types : TypeStore) (files : FileSystem) : Command → Prop
  | .info json paths =>
    (∀ path ∈ paths, ∃ r, files.ResolvesTo types path r) ∧
      ∃ path ∈ paths, ∃ r, files.ResolvesTo types path r ∧ r.attributes.Undated json
  | .rename .. | .plan .. => False

/-- The attributes of a descriptor are those that a path resolves to. -/
def Session.Describes (s : Session) (types : TypeStore) (d : DescriptorId) (path : Text) : Prop :=
  ∃ x r, s.descriptors[d]? = some x ∧ s.files.ResolvesTo types path r ∧
    x.attributes = r.attributes

namespace CommandLine

variable {s t : Session} {types : TypeStore} {ds : List DescriptorId} {d : DescriptorId}
  {context : Context}

/-- What a command leaves: the descriptors that it hands over, or those that it has neither handed
over nor released. -/
inductive Leaves (leaks : Prop) : Except Failure (List DescriptorId) × Session → Prop where
  | done {ds : List DescriptorId} {t : Session} : t.Holds ds → ¬ leaks → Leaves leaks (.ok ds, t)
  | failed {e : Failure} {ds : List DescriptorId} {t : Session} : t.Holds ds →
      (ds = [] ↔ ¬ leaks) → Leaves leaks (.error e, t)

/-! ## Resolving many paths -/

/-- What resolving paths behind others leaves. -/
inductive ResolvesAll (s : Session) (types : TypeStore) (paths : List Text) :
    Except Failure (List DescriptorId) × Session → Prop where
  | all {ds : List DescriptorId} {t : Session} : t.Holds ds →
      List.Forall₂ (t.Describes types) ds paths → t.files = s.files →
      ResolvesAll s types paths (.ok ds, t)
  | refused {e : Failure} {path : Text} {t : Session} : t.Holds [] → path ∈ paths →
      (∀ r, ¬ s.files.ResolvesTo types path r) → ResolvesAll s types paths (.error e, t)

/-- A path resolves, or nothing happens. -/
theorem resolve_or_refused (holds : s.Holds ds) (same : types.SameRules s.types)
    (context : Context) (path : Text) :
    (∃ r y t, s.files.ResolvesTo types path r ∧
      (Action.resolve path context).runOn s = (.ok s.descriptors.length, t) ∧
      t.Holds (ds ++ [s.descriptors.length]) ∧ t.files = s.files ∧ types.SameRules t.types ∧
      t.descriptors = s.descriptors ++ [y] ∧ y.attributes = r.attributes) ∨
    ∃ e, (Action.resolve path context).runOn s = (.error e, s) ∧
      ∀ r, ¬ s.files.ResolvesTo types path r := by
  cases looked : s.files.resolveAttributes (s.files.absolute path) with
  | error e =>
    refine .inr ⟨e, Action.runOn_resolve_error context looked, fun r resolves => ?_⟩
    cases looked.symm.trans resolves.looked
  | ok r =>
    by_cases tells : s.types.Tells s.files (s.files.absolute path)
        (Identity.mk (s.files.absolute path)).displayName (Action.kindOf r)
    · obtain ⟨y, t, run, held, files, alike, descriptors, attributes⟩ :=
        holds.resolve context looked tells
      exact .inl ⟨r, y, t, ⟨looked, same.tells_iff.mp tells⟩, run, held, files, same.trans alike,
        descriptors, attributes⟩
    · refine .inr ⟨_, Action.runOn_resolve_unnamed holds.isOpen context looked tells,
        fun r' resolves => tells ?_⟩
      obtain rfl : r = r' := Except.ok.inj (looked.symm.trans resolves.looked)
      exact same.tells_iff.mpr resolves.tells

/-- The induction is on the paths that are left, `done` being those of the descriptors so far. -/
theorem resolvesAll (holds : s.Holds ds) (same : types.SameRules s.types) {done : List Text}
    (described : List.Forall₂ (s.Describes types) ds done) (context : Context)
    (paths : List Text) :
    ResolvesAll s types (done ++ paths) ((resolveAll context ds paths).runOn s) := by
  induction paths generalizing s ds done with
  | nil =>
    rw [List.append_nil]
    exact .all holds described rfl
  | cons path rest ih =>
    rw [resolveAll]
    rcases resolve_or_refused holds same context path with
      ⟨r, y, u, told, run, more, files, same', descriptors, attributes⟩ | ⟨e, run, refuses⟩
    · have resolves : (tryCatch (Action.resolve path context) fun e => do
          Action.unrefAll ds
          throw e).runOn s = (.ok s.descriptors.length, u) := by
        rw [Action.runOn_tryCatch, run]
      have described' : List.Forall₂ (u.Describes types) (ds ++ [s.descriptors.length])
          (done ++ [path]) := by
        refine List.rel_append (described.imp fun d old told => ?_) (.cons ?_ .nil)
        · obtain ⟨x, r, found, told, same⟩ := told
          refine ⟨x, r, ?_, files ▸ told, same⟩
          rw [descriptors, List.getElem?_append_left (List.getElem?_eq_some_iff.mp found).1]
          exact found
        · exact ⟨y, r, by rw [descriptors, List.getElem?_concat_length], files ▸ told, attributes⟩
      have others := ih more same' described'
      rw [List.append_assoc, List.singleton_append] at others
      rw [Action.runOn_bind_ok resolves]
      generalize (resolveAll context (ds ++ [s.descriptors.length]) rest).runOn u = outcome
        at others
      cases others with
      | all holds' described'' there => exact .all holds' described'' (there.trans files)
      | refused none among fails => exact .refused none among (files ▸ fails)
    · obtain ⟨t, drops, none⟩ := holds.unrefAll
      have fails : (tryCatch (Action.resolve path context) fun e => do
          Action.unrefAll ds
          throw e).runOn s = (.error e, t) := by
        rw [Action.runOn_tryCatch, run]
        simp only
        rw [Action.runOn_bind_ok drops, Action.runOn_throw]
      rw [Action.runOn_bind_error fails]
      exact .refused none (List.mem_append_right _ List.mem_cons_self) refuses

theorem resolvesTo_of_described {paths : List Text}
    (described : List.Forall₂ (t.Describes types) ds paths) :
    ∀ path ∈ paths, ∃ r, t.files.ResolvesTo types path r := by
  induction described with
  | nil => exact fun path among => absurd among List.not_mem_nil
  | cons told _ ih =>
    obtain ⟨_, r, _, resolves, _⟩ := told
    exact List.forall_mem_cons.mpr ⟨⟨r, resolves⟩, ih⟩

theorem undated_iff_unshowable {json : Bool} {paths : List Text}
    (described : List.Forall₂ (t.Describes types) ds paths) :
    (∃ path ∈ paths, ∃ r, t.files.ResolvesTo types path r ∧ r.attributes.Undated json) ↔
      ∃ d ∈ ds, t.Unshowable json d := by
  induction described with
  | nil => simp
  | cons told _ ih =>
    obtain ⟨x, r, found, resolves, same⟩ := told
    rw [List.exists_mem_cons_iff, List.exists_mem_cons_iff, ih]
    refine or_congr_left ⟨fun ⟨r', resolves', undated⟩ => ?_, fun ⟨x', found', undated⟩ => ?_⟩
    · obtain rfl : r = r' := Except.ok.inj (resolves.looked.symm.trans resolves'.looked)
      exact ⟨x, found, same ▸ undated⟩
    · obtain rfl : x = x' := Option.some.inj (found.symm.trans found')
      exact ⟨r, resolves, same ▸ undated⟩

/-! ## Commands -/

/-- Commands that show descriptors leave them where they fail. -/
theorem leaves_of_shows {α : Type} {json : Bool} {paths : List Text} {a : Action α}
    (holds : t.Holds ds) (described : List.Forall₂ (t.Describes types) ds paths)
    (shown : a.Shows t (∃ d ∈ ds, t.Unshowable json d)) :
    Leaves ((Command.info json paths).Leaks types t.files)
      ((a >>= fun _ => pure ds).runOn t) := by
  have leaks : (Command.info json paths).Leaks types t.files ↔ ∃ d ∈ ds, t.Unshowable json d := by
    rw [← undated_iff_unshowable described]
    exact and_iff_right (resolvesTo_of_described described)
  obtain ⟨dates, output, left⟩ := shown
  rcases run : a.runOn t with ⟨answer, u⟩
  rw [run] at dates left
  obtain rfl : u = { t with output } := left
  have holds' : Session.Holds { t with output } ds := holds.congr rfl rfl
  cases answer with
  | ok x =>
    rw [Action.runOn_bind_ok run]
    exact .done holds' (leaks.not.mpr dates)
  -- Showing fails only where there is a descriptor to show, and that is not released.
  | error e =>
    rw [Action.runOn_bind_error run]
    refine .failed holds' (iff_of_false ?_ (not_not_intro (leaks.mpr dates.1)))
    obtain ⟨d, among, -⟩ := dates.1
    exact List.ne_nil_of_mem among

theorem leaves_info (holds : s.Holds []) (context : Context) (json : Bool) (paths : List Text) :
    Leaves ((Command.info json paths).Leaks s.types s.files)
      ((perform context (.info json paths)).runOn s) := by
  have resolved := resolvesAll holds (.refl s.types) .nil context paths
  rw [List.nil_append] at resolved
  unfold perform
  rcases run : (resolveAll context [] paths).runOn s with ⟨answer, t⟩
  rw [run] at resolved
  cases resolved with
  | @all ds t held described there =>
    rw [Action.runOn_bind_ok run, ← there]
    have living := fun d among => held.exists_living (d := d) among
    cases json with
    | true =>
      have shown : (Action.jsonText ds >>= Action.print).Shows t (∃ d ∈ ds, t.Unshowable true d) :=
        .congr (.bind (Action.shows_jsonText living) fun text _ => Action.shows_print text)
          (or_iff_left id)
      have leaves := leaves_of_shows held described shown
      rw [bind_assoc] at leaves
      exact leaves
    | false => exact leaves_of_shows held described (Action.shows_printPanels living)
  | refused none among fails =>
    rw [Action.runOn_bind_error run]
    refine .failed none (iff_of_true rfl fun leaks => ?_)
    obtain ⟨r, resolves⟩ := leaks.1 _ among
    exact fails r resolves

/-- A descriptor is released where what is done with it fails. -/
theorem runOn_guarded_error {body : Action Unit} {e : Failure} (held : t.Holds [d])
    (fails : body.runOn s = (.error e, t)) :
    ∃ u, (guarded d body).runOn s = (.error e, u) ∧ u.Holds [] := by
  obtain ⟨u, drops, none⟩ := held.unref
  refine ⟨u, ?_, none⟩
  unfold guarded
  rw [Action.runOn_tryCatch, fails]
  simp only
  rw [Action.runOn_bind_ok drops, Action.runOn_throw]

theorem runOn_guarded {body : Action Unit} (run : body.runOn s = (.ok (), t)) :
    (guarded d body).runOn s = (.ok (), t) := by
  unfold guarded
  rw [Action.runOn_tryCatch, run]

/-- What a command leaves that resolves one path and goes on with the descriptor. -/
theorem leaves_of_resolve (holds : s.Holds []) {path : Text}
    {rest : DescriptorId → Action (List DescriptorId)}
    (goes : ∀ d t, t.Holds [d] → Leaves False ((rest d).runOn t)) :
    Leaves False ((Action.resolve path context >>= rest).runOn s) := by
  rcases resolve_or_refused holds (.refl s.types) context path with
    ⟨r, y, t, -, run, held, -⟩ | ⟨e, run, -⟩
  · rw [Action.runOn_bind_ok run]
    exact goes _ t held
  · rw [Action.runOn_bind_error run]
    exact .failed holds (iff_of_true rfl id)

theorem leaves_printPath (held : t.Holds [d]) : Leaves False ((do
    Action.print (← Action.alive d).path
    return [d]).runOn t) := by
  obtain ⟨x, found, living⟩ := held.exists_living List.mem_cons_self
  rw [Action.runOn_bind_ok (Action.runOn_alive found living)]
  exact .done (held.congr rfl rfl) id

theorem leaves_rename (holds : s.Holds []) (context : Context) (path name : Text) :
    Leaves False ((perform context (.rename path name)).runOn s) := by
  refine leaves_of_resolve holds fun d t held => ?_
  rcases run : (Action.rename d name context).runOn t with ⟨answer, u⟩
  have held' := held.rename List.mem_cons_self run
  cases answer with
  | error e =>
    obtain ⟨v, fails, none⟩ := runOn_guarded_error held' run
    rw [Action.runOn_bind_error fails]
    exact .failed none (iff_of_true rfl id)
  | ok _ =>
    rw [Action.runOn_bind_ok (runOn_guarded run), Action.runOn_bind_ok (Action.runOn_record _ _ _)]
    exact leaves_printPath (held'.congr rfl rfl)

/-- Planning a launch leaves the descriptor as it is. -/
theorem leaves_plan (holds : s.Holds []) (context : Context) (path : Text) (targets : List Text) :
    Leaves False ((perform context (.plan path targets)).runOn s) := by
  refine leaves_of_resolve holds fun d t held => ?_
  rw [Action.runOn_bind_ok (Action.runOn_files t)]
  simp only
  generalize (targets.map _ : List LaunchTarget) = opened
  have same := Session.after_plan t d opened context
  rw [Session.after] at same
  rcases run : (Action.plan d opened context).runOn t with ⟨answer, u⟩
  rw [run] at same
  obtain rfl : u = t := same
  cases answer with
  | error e =>
    obtain ⟨v, fails, none⟩ := runOn_guarded_error held (Action.runOn_bind_error run)
    rw [Action.runOn_bind_error fails]
    exact .failed none (iff_of_true rfl id)
  | ok plan =>
    have prints : (Action.plan d opened context >>= fun p => Action.print p.toJsonText).runOn u =
        (.ok (), { u with output := u.output ++ [plan.toJsonText] }) := Action.runOn_bind_ok run
    rw [Action.runOn_bind_ok (runOn_guarded prints)]
    exact .done (held.congr rfl rfl) id

/-! ## Whole runs -/

theorem leaves_perform (holds : s.Holds []) (context : Context) (command : Command) :
    Leaves (command.Leaks s.types s.files) ((perform context command).runOn s) := by
  cases command with
  | info json paths => exact leaves_info holds context json paths
  | rename path name => exact leaves_rename holds context path name
  | plan path targets => exact leaves_plan holds context path targets

/-- The store is shut down in any case, and torn down where nothing is left. -/
theorem supervise_released_iff (holds : s.Holds []) (context : Context) (command : Command) :
    ((supervise context command).runOn s).2.Released ↔ ¬ command.Leaks s.types s.files := by
  unfold supervise
  rw [Action.runOn_bind_ok (Action.runOn_record _ _ _)]
  generalize log : s.log ++ _ = entries
  have opened : Session.Holds { s with log := entries } [] := holds.congr rfl rfl
  have leaves := leaves_perform opened context command
  have outcome := Action.runOn_outcome (perform context command) { s with log := entries }
  rcases run : (perform context command).runOn { s with log := entries } with ⟨answer, t⟩
  rw [run] at leaves outcome
  rw [Action.runOn_bind_ok outcome]
  cases leaves with
  | done held released =>
    obtain ⟨u, drops, none⟩ := held.unrefAll
    obtain ⟨v, ends, down⟩ := none.shutdownTypes
    simp only
    rw [Action.runOn_bind_ok drops, ends]
    exact iff_of_true (down.mpr rfl) released
  -- Nothing is handed over here, so what the command has left stays alive.
  | failed held left =>
    obtain ⟨v, ends, down⟩ := held.shutdownTypes
    simp only
    rw [Action.runOn_bind_ok ends, Action.runOn_throw]
    exact down.trans left

theorem runUnder_released_iff (settings : Settings) (files : FileSystem) (host : Host)
    (command : Command) : ∃ s, (runUnder settings files host command).session = some s ∧
      (s.Released ↔ ¬ command.Leaks (settings.session host.extensions files).types files) := by
  have holds : (settings.session host.extensions files).Holds [] := Session.holds_new files _ _ _
  have ends := supervise_released_iff holds (settings.context host.random) command
  refine ⟨_, ?_, ends⟩
  unfold runUnder
  rcases (supervise (settings.context host.random) command).runOn
    (settings.session host.extensions files) with ⟨answer, t⟩
  cases answer <;> rfl

/-- A run that has opened a session leaves all descriptors released and the content types torn
down, unless its command leaks. -/
theorem run_released_iff {args : List Text} {files : FileSystem} {environment : Environment}
    {host : Host} (opened : (run args files environment host).session = some s) :
    s.Released ↔ ∀ invocation config, parse args = .ok invocation →
      loadConfig files invocation.options = .ok config →
      ¬ invocation.command.Leaks
        ((invocation.settings config environment).session host.extensions files).types files := by
  unfold run at opened
  cases parsed : parse args with
  | error refusal =>
    rw [parsed] at opened
    cases refusal <;> cases opened
  | ok invocation =>
    rw [parsed] at opened
    simp only at opened
    cases loaded : loadConfig files invocation.options with
    | error e =>
      rw [loaded] at opened
      cases opened
    | ok config =>
      rw [loaded] at opened
      obtain ⟨t, same, released⟩ := runUnder_released_iff
        (invocation.settings config environment) files host invocation.command
      obtain rfl := Option.some.inj (same.symm.trans opened)
      refine released.trans ⟨fun safe _ _ asked given => ?_, fun safe => safe _ _ rfl loaded⟩
      cases asked
      cases loaded.symm.trans given
      exact safe

/-- A file that was last changed when no calendar date is left. -/
def undatedNode : Node := { Node.created (Utf8.encode "text") 0o644 with mtime := 8640000000000001 }

def undatedFiles : FileSystem where
  entries := [("/a", undatedNode)]

theorem leaks_undatedFiles (settings : Settings) (extensions : Table Text) :
    (Command.info false ["a"]).Leaks (settings.session extensions undatedFiles).types
      undatedFiles := by
  have place : undatedFiles.absolute "a" = "/a" := by decide +kernel
  have stands : undatedFiles.lstat "/a" = .ok undatedNode := by rfl
  have looked : undatedFiles.resolveAttributes (undatedFiles.absolute "a") =
      .ok ⟨undatedNode.attributes, .none⟩ := by
    have regular : undatedNode.kind ≠ .symlink := by decide +kernel
    rw [place, FileSystem.resolveAttributes, stands]
    exact if_neg regular
  have sniffed : undatedFiles.sniffed Rules.bundled "/a" = ContentType.plainText := by
    decide +kernel
  have told : (settings.session extensions undatedFiles).types.told undatedFiles "/a" "a" =
      ContentType.plainText := by
    have plain : Path.extension "a" = [] := by decide +kernel
    rw [TypeStore.told, TypeStore.typeOfName?, ContentType.ofName?, plain]
    exact sniffed
  have resolves : undatedFiles.ResolvesTo (settings.session extensions undatedFiles).types "a"
      ⟨undatedNode.attributes, .none⟩ := by
    have shown : (Identity.mk "/a").displayName = "a" := by decide +kernel
    refine ⟨looked, fun _ => ?_⟩
    rw [place, shown, told]
    rfl
  have undated : undatedNode.attributes.Undated false := by decide +kernel
  refine ⟨fun path among => ?_, "a", List.mem_singleton_self _, _, resolves, undated⟩
  rw [List.mem_singleton.mp among]
  exact ⟨_, resolves⟩

theorem not_released_undatedFiles : ∃ s,
    (run ["info", "a"] undatedFiles {} {}).session = some s ∧ ¬ s.Released := by
  have parsed : parse ["info", "a"] = .ok ⟨{}, .info false ["a"]⟩ := by decide +kernel
  obtain ⟨config, loaded⟩ : ∃ config, loadConfig undatedFiles {} = .ok config := by
    have given : (loadConfig undatedFiles {}).isOk := by decide +kernel
    cases loaded : loadConfig undatedFiles {} with
    | error e =>
      rw [loaded] at given
      cases given
    | ok config => exact ⟨config, rfl⟩
  obtain ⟨s, opened⟩ : ∃ s, (run ["info", "a"] undatedFiles {} {}).session = some s := by
    obtain ⟨s, opened, -⟩ := runUnder_released_iff
      (Invocation.settings ⟨{}, .info false ["a"]⟩ config {}) undatedFiles {} (.info false ["a"])
    refine ⟨s, ?_⟩
    rw [run, parsed]
    simp only
    rw [loaded]
    exact opened
  refine ⟨s, opened, fun released => ?_⟩
  exact (run_released_iff opened).mp released _ _ parsed loaded (leaks_undatedFiles _ _)

end CommandLine

end FileProfile
