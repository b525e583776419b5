import FileProfile.Descriptor.Refresh
import FileProfile.Proofs.Descriptor.Changes
import FileProfile.Proofs.Descriptor.Resolution

/-!
The steps of looking again at the file of a descriptor.

The path is resolved into a new descriptor (`Session.Resolves`). Where that agrees with the old one
it is released again at once, and its handle with it; otherwise it is answered
(`Session.Refreshes`). Where the path cannot be resolved nothing happens (`refresh_eq_error`).
-/

namespace FileProfile

/-- Resolving a path leaves the session `u`, in which `y` is a new descriptor with a reference to
the handle of its type. -/
structure Session.Resolves (s : Session) (path : Text) (context : Context) (y : Descriptor)
    (u : Session) : Prop where
  run : (Action.resolve path context).runOn s = (.ok s.descriptors.length, u)
  descriptors : u.descriptors = s.descriptors ++ [y]
  references : y.references = 1
  took : ∃ type, TypeStore.Took s.types type y.contentType u.types

namespace Session.Resolves

variable {s u : Session} {path : Text} {context : Context} {y : Descriptor}

theorem of_run (sound : s.types.Sound) {d : DescriptorId}
    (run : (Action.resolve path context).runOn s = (.ok d, u)) :
    d = s.descriptors.length ∧ ∃ y, s.Resolves path context y u := by
  obtain ⟨resolved, h, t, log, -, -, -, rfl, rfl, took⟩ := Action.resolve_eq_ok sound run
  exact ⟨rfl, _, run, rfl, rfl, _, took⟩

theorem found (resolves : s.Resolves path context y u) :
    u.descriptors[s.descriptors.length]? = some y := by
  rw [resolves.descriptors, List.getElem?_append_right (Nat.le_refl _), Nat.sub_self]
  rfl

theorem living (resolves : s.Resolves path context y u) : y.isAlive := by
  rw [Descriptor.isAlive, resolves.references]
  rfl

theorem descriptors_old (resolves : s.Resolves path context y u) {d : DescriptorId}
    (old : d < s.descriptors.length) : u.descriptors[d]? = s.descriptors[d]? := by
  rw [resolves.descriptors, List.getElem?_append_left old]

theorem counted (resolves : s.Resolves path context y u) (sound : s.types.Sound) :
    0 < u.types.referencesOf y.contentType := by
  obtain ⟨_, took⟩ := resolves.took
  exact took.counted sound

end Session.Resolves

/-- What looking again at the file of the descriptor `x` answers, and the session that it leaves. -/
inductive Session.Refreshes (s : Session) (d : DescriptorId) (x : Descriptor) (context : Context) :
    Refreshed → Session → Prop where
  | changed {y : Descriptor} {u : Session} (resolves : s.Resolves x.path context y u)
      (differs : ¬ x.agrees y) : Refreshes s d x context ⟨true, s.descriptors.length⟩ u
  | unchanged {y : Descriptor} {u t : Session} (resolves : s.Resolves x.path context y u)
      (same : x.agrees y) (counts : s.types.SameCounts t.types)
      (descriptors : t.descriptors = s.descriptors ++ [{ y with references := 0, hints := none }]) :
      Refreshes s d x context ⟨false, d⟩ t

namespace Action

variable {s u : Session} {d : DescriptorId} {x y : Descriptor} {context : Context}

theorem runOn_agree {k : DescriptorId} (found : s.descriptors[d]? = some x) (living : x.isAlive)
    (found' : s.descriptors[k]? = some y) (living' : y.isAlive) :
    (agree d k).runOn s = (.ok (x.agrees y), s) := by
  unfold agree
  rw [runOn_bind_ok (runOn_alive found living), runOn_bind_ok (runOn_alive found' living'),
    runOn_pure]

theorem runOn_refresh_released (gone : ∀ x, s.descriptors[d]? = some x → ¬ x.isAlive) :
    (refresh d context).runOn s = (.error released, s) := by
  unfold refresh
  rw [runOn_bind_error (runOn_alive_released gone)]

section

variable (found : s.descriptors[d]? = some x) (living : x.isAlive)

include found living

theorem runOn_refresh_error {e : Failure}
    (fails : (resolve x.path context).runOn s = (.error e, u)) :
    (refresh d context).runOn s = (.error e, u) := by
  unfold refresh
  rw [runOn_bind_ok (runOn_alive found living), runOn_bind_error fails]

/-- The new descriptor is compared with the old one. -/
theorem runOn_refresh (resolves : s.Resolves x.path context y u) :
    (refresh d context).runOn s = (if x.agrees y then do
      unref s.descriptors.length
      return (⟨false, d⟩ : Refreshed)
    else return ⟨true, s.descriptors.length⟩).runOn u := by
  have stays : u.descriptors[d]? = some x := by
    rw [resolves.descriptors_old (List.getElem?_eq_some_iff.mp found).1]
    exact found
  unfold refresh
  rw [runOn_bind_ok (runOn_alive found living), runOn_bind_ok resolves.run,
    runOn_bind_ok (runOn_agree stays living resolves.found resolves.living)]

theorem refreshes_of_resolves (sound : s.types.Sound) (resolves : s.Resolves x.path context y u) :
    ∃ r t, (refresh d context).runOn s = (.ok r, t) ∧ s.Refreshes d x context r t := by
  by_cases same : x.agrees y
  · obtain ⟨_, took⟩ := resolves.took
    obtain ⟨t, log, drops, dropped⟩ := runOn_unref_last took.sound resolves.found
      resolves.references (resolves.counted sound)
    let z : Descriptor := { y with references := 0, hints := none }
    have refreshes : (refresh d context).runOn s = (.ok ⟨false, d⟩, { u with
        types := t
        descriptors := u.descriptors.set s.descriptors.length z
        log }) := by
      rw [runOn_refresh found living resolves, if_pos same, runOn_bind_ok drops, runOn_pure]
    have released : u.descriptors.set s.descriptors.length z = s.descriptors ++ [z] := by
      rw [resolves.descriptors, List.set_append_right _ _ (Nat.le_refl _), Nat.sub_self,
        List.set_cons_zero]
    exact ⟨_, _, refreshes, .unchanged resolves same (took.sameCounts dropped) released⟩
  · refine ⟨⟨true, s.descriptors.length⟩, u, ?_, .changed resolves same⟩
    rw [runOn_refresh found living resolves, if_neg same, runOn_pure]

end

/-- Looking again is answered, or it fails and changes nothing: for a released descriptor, and where
the path does not resolve. -/
theorem refresh_cases (sound : s.types.Sound) (d : DescriptorId) (context : Context) :
    (∃ x r t, s.descriptors[d]? = some x ∧ x.isAlive ∧
      (refresh d context).runOn s = (.ok r, t) ∧ s.Refreshes d x context r t) ∨
    ∃ e, (refresh d context).runOn s = (.error e, s) ∧ (e = released ∨
      ∃ x, s.descriptors[d]? = some x ∧ x.isAlive ∧
        (resolve x.path context).runOn s = (.error e, s)) := by
  rcases alive_or_gone s d with ⟨x, found, living⟩ | gone
  · rcases again : (resolve x.path context).runOn s with ⟨answer, u⟩
    cases answer with
    | error e =>
      obtain rfl := resolve_eq_error sound again
      exact .inr ⟨e, runOn_refresh_error found living again, .inr ⟨x, found, living, again⟩⟩
    | ok fresh =>
      obtain ⟨-, y, resolves⟩ := Session.Resolves.of_run sound again
      obtain ⟨r, t, refreshes, answered⟩ := refreshes_of_resolves found living sound resolves
      exact .inl ⟨x, r, t, found, living, refreshes, answered⟩
  · exact .inr ⟨released, runOn_refresh_released gone, .inl rfl⟩

/-- Looking again is answered only for a living descriptor whose path resolves. -/
theorem refresh_eq_ok {t : Session} {r : Refreshed} (sound : s.types.Sound)
    (run : (refresh d context).runOn s = (.ok r, t)) :
    ∃ x, s.descriptors[d]? = some x ∧ x.isAlive ∧ s.Refreshes d x context r t := by
  rcases refresh_cases sound d context with
    ⟨x, r', t', found, living, refreshes, answered⟩ | ⟨e, fails, -⟩
  · rw [refreshes] at run
    cases run
    exact ⟨x, found, living, answered⟩
  · rw [fails] at run
    cases run

/-- Looking again that fails changes nothing. -/
theorem refresh_eq_error {t : Session} {e : Failure} (sound : s.types.Sound)
    (run : (refresh d context).runOn s = (.error e, t)) : t = s := by
  rcases refresh_cases sound d context with ⟨_, _, _, _, _, refreshes, _⟩ | ⟨_, fails, _⟩
  · rw [refreshes] at run
    cases run
  · rw [fails] at run
    exact (Prod.mk.inj run).2.symm

end Action

end FileProfile
