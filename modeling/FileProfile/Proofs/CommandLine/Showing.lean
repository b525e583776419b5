import FileProfile.CommandLine.Run
import FileProfile.Proofs.Descriptor.Changes

/-!
When descriptors can be shown.

A time that lies too far from 1970 has no calendar form. Showing a descriptor fails just in case one
of the times that are shown is of this kind (`shows_panel`, `shows_snapshot`), and changes nothing
of a session but what has been printed. The same is told of lists of descriptors
(`shows_printPanels`, `shows_jsonText`).
-/

namespace FileProfile

/-! ## Times -/

/-- The times that are shown: as JSON all, in a panel the last change of the contents. -/
def Attributes.shownTimes (json : Bool) (a : Attributes) : List Int :=
  if json then [a.atime, a.ctime, a.mtime] else [a.mtime]

/-- A time that is shown has no calendar form. -/
def Attributes.Undated (json : Bool) (a : Attributes) : Prop :=
  ∃ time ∈ a.shownTimes json, Timestamp.limit < time.natAbs

instance (json : Bool) (a : Attributes) : Decidable (a.Undated json) :=
  inferInstanceAs (Decidable (∃ time ∈ a.shownTimes json, Timestamp.limit < time.natAbs))

/-- An answer that is missing just where a time has no calendar form. -/
def Dates {α : Type} (undated : Prop) : Except Failure α → Prop
  | .ok _ => ¬ undated
  | .error e => undated ∧ e = .invalidTime

section

variable {α β : Type} {p q : Prop}

theorem Dates.congr {x : Except Failure α} (dates : Dates p x) (same : p ↔ q) : Dates q x :=
  propext same ▸ dates

theorem Dates.bind {x : Except Failure α} {f : α → Except Failure β} (first : Dates p x)
    (rest : ∀ y, Dates q (f y)) : Dates (p ∨ q) (x >>= f) := by
  cases x with
  | error e => exact ⟨.inl first.1, first.2⟩
  | ok y =>
    have missing : ¬ p := first
    exact (rest y).congr (or_iff_right missing).symm

theorem dates_ok (x : α) : Dates False (.ok x : Except Failure α) := id

theorem dates_calendarText (time : Int) :
    Dates (Timestamp.limit < time.natAbs) (calendarText time) := by
  rw [calendarText, Timestamp.text?]
  by_cases far : Timestamp.limit < time.natAbs
  · rw [if_pos far]
    exact ⟨far, rfl⟩
  · rw [if_neg far]
    exact far

end

namespace Descriptor

theorem dates_rows (x : Descriptor) (typeName : TypeName) :
    Dates (x.attributes.Undated false) (x.rows typeName) := by
  refine ((dates_calendarText x.attributes.mtime).bind fun _ => dates_ok _).congr ?_
  simp [Attributes.Undated, Attributes.shownTimes]

theorem dates_snapshot (x : Descriptor) (typeName : TypeName) :
    Dates (x.attributes.Undated true) (x.snapshot typeName) := by
  refine ((dates_calendarText x.attributes.atime).bind fun _ =>
    (dates_calendarText x.attributes.ctime).bind fun _ =>
      (dates_calendarText x.attributes.mtime).bind fun _ => dates_ok _).congr ?_
  simp [Attributes.Undated, Attributes.shownTimes]

end Descriptor

/-- A descriptor whose file has a time that cannot be shown. -/
def Session.Unshowable (s : Session) (json : Bool) (d : DescriptorId) : Prop :=
  ∃ x, s.descriptors[d]? = some x ∧ x.attributes.Undated json

/-! ## Actions that show something -/

namespace Action

variable {α β : Type} {s : Session} {p q : Prop}

/-- An action that changes what has been printed only, and fails just where a time has no calendar
form. -/
structure Shows (a : Action α) (s : Session) (undated : Prop) : Prop where
  dates : Dates undated (a.runOn s).1
  session : ∃ output, (a.runOn s).2 = { s with output }

theorem Shows.congr {a : Action α} (shown : a.Shows s p) (same : p ↔ q) : a.Shows s q :=
  propext same ▸ shown

theorem Shows.bind {a : Action α} {f : α → Action β} (first : a.Shows s p)
    (rest : ∀ x output, (f x).Shows { s with output } q) : (a >>= f).Shows s (p ∨ q) := by
  obtain ⟨dates, output, left⟩ := first
  rcases run : a.runOn s with ⟨answer, t⟩
  rw [run] at dates left
  obtain rfl : t = { s with output } := left
  cases answer with
  | error e =>
    have fails := runOn_bind_error (f := f) run
    exact ⟨by rw [fails]; exact ⟨.inl dates.1, dates.2⟩, output, by rw [fails]⟩
  | ok x =>
    have goes := runOn_bind_ok (f := f) run
    obtain ⟨behind, output', left'⟩ := rest x output
    have missing : ¬ p := dates
    exact ⟨by rw [goes]; exact behind.congr (or_iff_right missing).symm, output',
      by rw [goes, left']⟩

theorem Shows.after {a : Action α} {f : α → Action β} {x : α} (run : a.runOn s = (.ok x, s))
    (rest : (f x).Shows s p) : (a >>= f).Shows s p := by
  have goes := runOn_bind_ok (f := f) run
  exact ⟨by rw [goes]; exact rest.dates, by rw [goes]; exact rest.session⟩

theorem shows_pure (x : α) : (pure x : Action α).Shows s False := ⟨id, s.output, rfl⟩

theorem shows_ofExcept {x : Except Failure α} (dates : Dates p x) : (ofExcept x).Shows s p :=
  ⟨dates, s.output, rfl⟩

theorem shows_print (t : Text) : (print t).Shows s False := ⟨id, s.output ++ [t], rfl⟩

/-! ## Descriptors -/

variable {d : DescriptorId} {ds : List DescriptorId}

section

variable (living : ∃ x, s.descriptors[d]? = some x ∧ x.isAlive)

include living

theorem shows_panel : (panel d).Shows s (s.Unshowable false d) := by
  obtain ⟨x, found, living⟩ := living
  have described : (describe d).Shows s (x.attributes.Undated false) :=
    .after (runOn_alive found living) (.after rfl (shows_ofExcept (x.dates_rows _)))
  refine .congr (.after (runOn_alive found living) (.bind described fun _ _ => shows_pure _)) ?_
  simp [Session.Unshowable, found]

theorem shows_snapshot : (snapshot d).Shows s (s.Unshowable true d) := by
  obtain ⟨x, found, living⟩ := living
  refine .congr (.after (runOn_alive found living) (.after rfl
    (shows_ofExcept (x.dates_snapshot _)))) ?_
  simp [Session.Unshowable, found]

end

theorem shows_snapshots (living : ∀ d ∈ ds, ∃ x, s.descriptors[d]? = some x ∧ x.isAlive) :
    (snapshots ds).Shows s (∃ d ∈ ds, s.Unshowable true d) := by
  induction ds generalizing s with
  | nil => exact (shows_pure []).congr (by simp)
  | cons d rest ih =>
    have others : ∀ output, (snapshots rest).Shows { s with output }
        (∃ k ∈ rest, s.Unshowable true k) := fun output =>
      ih (s := { s with output }) fun k among => living k (List.mem_cons_of_mem _ among)
    refine .congr (.bind (shows_snapshot (living d List.mem_cons_self)) fun _ output =>
      .bind (others output) fun _ _ => shows_pure _) ?_
    rw [or_false, List.exists_mem_cons_iff]

theorem shows_jsonText (living : ∀ d ∈ ds, ∃ x, s.descriptors[d]? = some x ∧ x.isAlive) :
    (jsonText ds).Shows s (∃ d ∈ ds, s.Unshowable true d) :=
  .congr (.bind (shows_snapshots living) fun _ _ => shows_pure _) (or_iff_left id)

theorem shows_printPanels (living : ∀ d ∈ ds, ∃ x, s.descriptors[d]? = some x ∧ x.isAlive) :
    (CommandLine.printPanels ds).Shows s (∃ d ∈ ds, s.Unshowable false d) := by
  induction ds generalizing s with
  | nil => exact (shows_pure ()).congr (by simp)
  | cons d rest ih =>
    have others : ∀ output, (CommandLine.printPanels rest).Shows { s with output }
        (∃ k ∈ rest, s.Unshowable false k) := fun output =>
      ih (s := { s with output }) fun k among => living k (List.mem_cons_of_mem _ among)
    refine .congr (.bind (shows_panel (living d List.mem_cons_self)) fun text _ =>
      .bind (shows_print text) fun _ => others) ?_
    rw [false_or, List.exists_mem_cons_iff]

end Action

end FileProfile
