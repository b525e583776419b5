import FileProfile.KeyFile.Escape
import FileProfile.Proofs.Text.Trimming
import Mathlib.Logic.Function.Basic

/-!
Escaped values come back as they were.

`unescape_escape` is the round trip, and `escape_lossless` adds that an escaped value stays on its
line behind the equals sign, so that values are told apart by what is written. What a reader takes
off in front of a value is no part of an escaped one unless the value begins with a blank that has
no escape (`escapesFirst`): such a value comes back shorter (`unescape_trimStart_escape`).
-/

namespace FileProfile

namespace KeyFile

open Text (carriageReturn lineFeed)

/-- The first unit of a value is no blank, or one with an escape. -/
def escapesFirst (t : Text) : Prop :=
  ∀ u ∈ t.head?, u.isBlank → u ∈ ([0x20, 0x0A, 0x09, 0x0D] : Text)

instance (t : Text) : Decidable (escapesFirst t) :=
  inferInstanceAs (Decidable (∀ u ∈ t.head?, u.isBlank → u ∈ ([0x20, 0x0A, 0x09, 0x0D] : Text)))

/-! ## The round trip -/

theorem unescape_cons {u : CodeUnit} (plain : u ≠ backslash) (t : Text) :
    unescape (u :: t) = u :: unescape t := by
  cases t with
  | nil => rfl
  | cons v rest => rw [unescape, if_neg plain]

theorem unescape_letter {letter image : CodeUnit} (known : escapedUnit? letter = some image)
    (t : Text) : unescape (backslash :: letter :: t) = image :: unescape t := by
  rw [unescape, if_pos rfl, known]

/-- How a unit is written behind the leading spaces: as itself, or as an escape. -/
theorem escapeUnit_cases (u : CodeUnit) :
    (∃ letter, escapeUnit u = [backslash, letter] ∧ escapedUnit? letter = some u) ∨
      (escapeUnit u = [u] ∧ u ≠ backslash ∧ u ∉ ([0x0A, 0x09, 0x0D] : Text)) := by
  unfold escapeUnit
  by_cases slash : u = backslash
  · rw [if_pos slash, slash]
    exact .inl ⟨'\\', by decide, by decide⟩
  rw [if_neg slash]
  by_cases feed : u = 0x0A
  · rw [if_pos feed, feed]
    exact .inl ⟨'n', by decide, by decide⟩
  rw [if_neg feed]
  by_cases tab : u = 0x09
  · rw [if_pos tab, tab]
    exact .inl ⟨'t', by decide, by decide⟩
  rw [if_neg tab]
  by_cases back : u = 0x0D
  · rw [if_pos back, back]
    exact .inl ⟨'r', by decide, by decide⟩
  rw [if_neg back]
  exact .inr ⟨rfl, slash, by simp [feed, tab, back]⟩

theorem unescape_flatMap_escapeUnit (t : Text) : unescape (t.flatMap escapeUnit) = t := by
  induction t with
  | nil => rfl
  | cons u rest ih =>
    rw [List.flatMap_cons]
    rcases escapeUnit_cases u with ⟨letter, shape, known⟩ | ⟨shape, plain, -⟩
    · rw [shape, List.cons_append, List.cons_append, List.nil_append, unescape_letter known, ih]
    · rw [shape, List.cons_append, List.nil_append, unescape_cons plain, ih]

theorem unescape_escape (t : Text) : unescape (escape t) = t := by
  induction t with
  | nil => rfl
  | cons u rest ih =>
    rw [escape]
    by_cases space : u = 0x20
    · have known : escapedUnit? 's' = some 0x20 := by decide
      rw [if_pos space, space]
      exact (unescape_letter known _).trans (congrArg (0x20 :: ·) ih)
    · rw [if_neg space, unescape_flatMap_escapeUnit]

/-- An escaped value stays on its line. -/
theorem not_mem_escape {u : CodeUnit} (control : u ∈ ([0x0A, 0x09, 0x0D] : Text)) (t : Text) :
    u ∉ escape t := by
  have letters : ∀ t ∈ (["\\\\", "\\n", "\\t", "\\r", "\\s"] : List Text),
      t.all fun w => w ∉ ([0x0A, 0x09, 0x0D] : Text) := by
    decide
  have apart : ∀ t ∈ (["\\\\", "\\n", "\\t", "\\r", "\\s"] : List Text), u ∉ t :=
    fun t known within => of_decide_eq_true (List.all_eq_true.mp (letters t known) u within) control
  have outside : ∀ v, u ∉ escapeUnit v := by
    intro v
    unfold escapeUnit
    split
    · exact apart _ (by decide)
    split
    · exact apart _ (by decide)
    split
    · exact apart _ (by decide)
    split
    · exact apart _ (by decide)
    next slash feed tab back =>
      intro within
      rw [List.mem_singleton.mp within] at control
      simp [feed, tab, back] at control
  induction t with
  | nil => exact List.not_mem_nil
  | cons v rest ih =>
    rw [escape]
    split
    · intro within
      rcases List.mem_append.mp within with here | later
      · exact apart _ (by decide) here
      · exact ih later
    · intro within
      obtain ⟨w, -, here⟩ := List.mem_flatMap.mp within
      exact outside w here

/-! ## Behind the equals sign -/

/-- The first unit of an escaped value. -/
theorem head?_escape (u : CodeUnit) (rest : Text) :
    (escape (u :: rest)).head? =
      some (if u ∈ ([0x20, 0x0A, 0x09, 0x0D] : Text) then backslash else u) := by
  rw [escape]
  by_cases space : u = 0x20
  · rw [if_pos space, space]
    rfl
  rw [if_neg space, List.flatMap_cons]
  rcases escapeUnit_cases u with ⟨letter, shape, known⟩ | ⟨shape, plain, outside⟩
  · rw [shape]
    split
    · rfl
    next other =>
      -- The unit is a backslash: no other unit with an escape is left.
      have image : escapeLetters.all fun pair =>
          pair.2 ∉ ([0x20, 0x0A, 0x09, 0x0D] : Text) → pair.2 = backslash := by
        decide
      unfold escapedUnit? at known
      obtain ⟨pair, found, rfl⟩ := Option.map_eq_some_iff.mp known
      have told := List.all_eq_true.mp image pair (List.mem_of_find?_eq_some found)
      rw [of_decide_eq_true told other]
      rfl
  · have other : u ∉ ([0x20, 0x0A, 0x09, 0x0D] : Text) := by
      intro within
      rcases List.mem_cons.mp within with here | later
      · exact space here
      · exact outside later
    rw [shape, if_neg other]
    rfl

theorem head?_escape_ne_space (t : Text) : (escape t).head? ≠ some 0x20 := by
  cases t with
  | nil => decide
  | cons u rest =>
    rw [head?_escape]
    split
    · decide
    next plain =>
      intro space
      rw [Option.some.inj space] at plain
      exact plain List.mem_cons_self

/-- Whatever a value holds, escaping loses nothing of it and leaves no line feed, no carriage return
and no tab in it and no space in front of it. -/
theorem escape_lossless : (∀ t : Text, unescape (escape t) = t ∧ lineFeed ∉ escape t ∧
      carriageReturn ∉ escape t ∧ 0x09 ∉ escape t ∧ (escape t).head? ≠ some 0x20) ∧
    Function.Injective escape := by
  have inverse : Function.LeftInverse unescape escape := unescape_escape
  refine ⟨fun t => ⟨unescape_escape t, ?_, ?_, ?_, head?_escape_ne_space t⟩, inverse.injective⟩
  · exact not_mem_escape (by decide) t
  · exact not_mem_escape (by decide) t
  · exact not_mem_escape (by decide) t

example : unescape (escape (0xD800 :: " \\\\s\\n \\")) = 0xD800 :: " \\\\s\\n \\" := by decide

theorem ne_backslash_of_isBlank {u : CodeUnit} (blank : u.isBlank) : u ≠ backslash := by
  rintro rfl
  exact absurd blank (by decide)

theorem trimStart_escape {t : Text} (escapes : escapesFirst t) :
    Text.trimStart (escape t) = escape t := by
  refine Text.trimStart_eq_self fun v first blank => ?_
  cases t with
  | nil => cases first
  | cons u rest =>
    have same := Option.some.inj ((head?_escape u rest).symm.trans first)
    split at same
    · exact ne_backslash_of_isBlank blank same.symm
    · next other =>
      subst same
      exact other (escapes u rfl blank)

theorem length_unescape_trimStart_le (w : Text) :
    (unescape (Text.trimStart w)).length ≤ (unescape w).length := by
  induction w with
  | nil => exact Nat.le_refl _
  | cons v more ih =>
    by_cases blank : v.isBlank
    · rw [Text.trimStart_cons blank, unescape_cons (ne_backslash_of_isBlank blank)]
      exact Nat.le_succ_of_le ih
    · refine Nat.le_of_eq (congrArg _ (congrArg unescape (Text.trimStart_eq_self ?_)))
      rintro _ ⟨⟩
      exact blank

/-- A value that begins with a blank without escape loses it. -/
theorem unescape_trimStart_escape {t : Text} (bare : ¬ escapesFirst t) :
    unescape (Text.trimStart (escape t)) ≠ t := by
  cases t with
  | nil => exact absurd (fun u within => absurd within (by simp)) bare
  | cons u rest =>
    have first : u.isBlank = true ∧ u ∉ ([0x20, 0x0A, 0x09, 0x0D] : Text) := by
      refine Decidable.byContradiction fun other => bare fun v within blank => ?_
      rw [Option.mem_def, List.head?_cons, Option.some.injEq] at within
      subst within
      exact Decidable.byContradiction fun outside => other ⟨blank, outside⟩
    have front := head?_escape u rest
    rw [if_neg first.2] at front
    obtain ⟨more, shape⟩ := List.head?_eq_some_iff.mp front
    have whole := unescape_escape (u :: rest)
    rw [shape, unescape_cons (ne_backslash_of_isBlank first.1)] at whole
    intro same
    -- What is left behind the blank unescapes to the rest of the value, which is shorter.
    have bound := length_unescape_trimStart_le more
    rw [(List.cons.inj whole).2, ← Text.trimStart_cons first.1, ← shape, same,
      List.length_cons] at bound
    omega

/-- A carriage return behind a value is part of no escape. -/
theorem unescape_append_return (w : Text) :
    unescape (w ++ [carriageReturn]) = unescape w ++ [carriageReturn] := by
  induction hlen : w.length using Nat.strongRecOn generalizing w with
  | ind n ih =>
    cases w with
    | nil => rfl
    | cons u more =>
      rw [List.length_cons] at hlen
      by_cases slash : u = backslash
      · subst slash
        cases more with
        | nil => decide
        | cons v rest =>
          rw [List.length_cons] at hlen
          have behind := ih rest.length (by omega) rest rfl
          simp only [List.cons_append]
          rw [unescape, if_pos rfl, unescape, if_pos rfl]
          cases escapedUnit? v with
          | some image => exact congrArg (image :: ·) behind
          | none => exact congrArg (fun t => backslash :: v :: t) behind
      · rw [List.cons_append, unescape_cons slash, unescape_cons slash,
          ih more.length (by omega) more rfl]
        rfl

end KeyFile

end FileProfile
