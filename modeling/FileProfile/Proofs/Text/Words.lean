import FileProfile.Proofs.Text.Cutting
import FileProfile.Proofs.Text.Trimming

/-!
The words of a text.

Words are cut at every blank (`words_append_blank`), and all that is shown of them here follows from
that. Blanks around a text do not matter (`words_trim`). A text has a first word exactly if it
consists of blanks, the word, and a rest that is empty or begins with a blank and has the other
words (`words_eq_cons_iff`).
-/

namespace FileProfile

namespace Text

/-! ## Gaps and words -/

/-- All units are blank. -/
def IsGap (t : Text) : Prop := ∀ u ∈ t, u.isBlank

/-- No unit is blank. -/
def IsSolid (t : Text) : Prop := ∀ u ∈ t, ¬ u.isBlank

/-- Whether a text can be a word among others. -/
def IsWord (t : Text) : Prop := t ≠ [] ∧ IsSolid t

/-- A word in front of the text goes on no further: the text is empty or begins with a blank. -/
def EndsWord (t : Text) : Prop := ∀ u ∈ t.head?, u.isBlank

-- The units of the text are looked through. The instance that would be found looks through all
-- units that there are.
instance (t : Text) : Decidable (IsGap t) := List.decidableBAll _ t

instance (t : Text) : Decidable (IsSolid t) := List.decidableBAll _ t

instance (t : Text) : Decidable (EndsWord t) := Option.decidableForallMem t.head?

theorem IsSolid.append {a b : Text} (front : IsSolid a) (back : IsSolid b) : IsSolid (a ++ b) :=
  fun u within => (List.mem_append.mp within).elim (front u) (back u)

theorem IsSolid.of_append {a b : Text} (whole : IsSolid (a ++ b)) : IsSolid a ∧ IsSolid b :=
  ⟨fun u within => whole u (List.mem_append_left b within),
    fun u within => whole u (List.mem_append_right a within)⟩

/-- A gap is empty or begins with a blank. -/
theorem IsGap.endsWord {gap : Text} (blank : IsGap gap) : EndsWord gap :=
  fun u first => blank u (List.mem_of_mem_head? first)

/-- A gap ends a word whatever stands behind it. -/
theorem IsGap.endsWord_append {gap : Text} (blank : IsGap gap) (given : gap ≠ []) (t : Text) :
    EndsWord (gap ++ t) := by
  obtain ⟨u, rest, rfl⟩ := List.exists_cons_of_ne_nil given
  rintro _ ⟨⟩
  exact blank u List.mem_cons_self

theorem EndsWord.append {a b : Text} (front : EndsWord a) (back : EndsWord b) :
    EndsWord (a ++ b) := by
  cases a with
  | nil => exact back
  | cons u rest => exact front

/-- A word is not part of a text that ends words: it stands behind a gap. -/
theorem EndsWord.gap_ne_nil {gap word rest : Text} (ends : EndsWord (gap ++ word ++ rest))
    (solid : IsWord word) : gap ≠ [] := by
  rintro rfl
  obtain ⟨u, more, rfl⟩ := List.exists_cons_of_ne_nil solid.1
  exact solid.2 u List.mem_cons_self (ends u rfl)

theorem isGap_takeWhile (t : Text) : IsGap (t.takeWhile CodeUnit.isBlank) :=
  fun _ within => List.mem_takeWhile_imp within

theorem isSolid_takeWhile (t : Text) : IsSolid (t.takeWhile fun u => !u.isBlank) := by
  intro u within
  simpa using List.mem_takeWhile_imp within

theorem endsWord_dropWhile (t : Text) : EndsWord (t.dropWhile fun u => !u.isBlank) := by
  intro u first
  simpa using not_of_head?_dropWhile first

/-! ## Cutting -/

theorem blankPieces_eq_splitOnP (t : Text) : blankPieces t = t.splitOnP CodeUnit.isBlank := by
  induction t with
  | nil => simp [blankPieces]
  | cons u rest ih =>
    rw [List.splitOnP_cons_eq_if_modifyHead, blankPieces, ih,
      push_eq_modifyHead u (List.splitOnP_ne_nil CodeUnit.isBlank rest)]

/-- A blank ends the words in front of it. -/
theorem words_append_blank {u : CodeUnit} (blank : u.isBlank) (a b : Text) :
    words (a ++ u :: b) = words a ++ words b := by
  simp only [words, blankPieces_eq_splitOnP]
  rw [List.splitOnP_append_cons a b blank, List.filter_append]

theorem words_nil : words [] = [] := by
  decide

theorem words_cons_blank {u : CodeUnit} (blank : u.isBlank) (t : Text) : words (u :: t) = words t :=
  words_append_blank blank [] t

theorem words_gap_append {gap : Text} (blank : IsGap gap) (t : Text) :
    words (gap ++ t) = words t := by
  induction gap with
  | nil => rfl
  | cons u gap ih =>
    have others : IsGap gap := fun v within => blank v (List.mem_cons_of_mem u within)
    rw [List.cons_append, words_cons_blank (blank u List.mem_cons_self), ih others]

theorem words_of_isGap {gap : Text} (blank : IsGap gap) : words gap = [] := by
  rw [← List.append_nil gap, words_gap_append blank, words_nil]

theorem words_of_isWord {word : Text} (solid : IsWord word) : words word = [word] := by
  have unbroken : ∀ u ∈ word, CodeUnit.isBlank u = false := fun u within =>
    Bool.of_not_eq_true (solid.2 u within)
  rw [words, blankPieces_eq_splitOnP, List.splitOnP_eq_singleton unbroken]
  exact List.filter_cons_of_pos (decide_eq_true solid.1)

theorem words_append {rest : Text} (ends : EndsWord rest) (t : Text) :
    words (t ++ rest) = words t ++ words rest := by
  cases rest with
  | nil => rw [words_nil, List.append_nil, List.append_nil]
  | cons u rest =>
    have blank := ends u rfl
    rw [words_append_blank blank, words_cons_blank blank]

/-- Blanks at either end of a text belong to no word. -/
theorem words_trim (t : Text) : words (trim t) = words t := by
  obtain ⟨blanks, shape, behind⟩ := exists_trimEnd (trimStart t)
  calc words (trim t) = words (trim t ++ blanks) := by
        rw [words_append (IsGap.endsWord behind), words_of_isGap behind, List.append_nil]
    _ = words (trimStart t) := by rw [trim, ← shape]
    _ = words (t.takeWhile CodeUnit.isBlank ++ trimStart t) :=
        (words_gap_append (isGap_takeWhile t) _).symm
    _ = words t := by rw [trimStart, List.takeWhile_append_dropWhile]

/-! ## The first word -/

/-- What is not blank begins with a word, behind a gap. -/
theorem isGap_or_exists_isWord (t : Text) : IsGap t ∨ ∃ gap word rest,
    t = gap ++ word ++ rest ∧ IsGap gap ∧ IsWord word ∧ EndsWord rest := by
  have cut : t.takeWhile CodeUnit.isBlank ++ trimStart t = t := List.takeWhile_append_dropWhile
  cases visible : trimStart t with
  | nil =>
    rw [visible, List.append_nil] at cut
    exact .inl (cut ▸ isGap_takeWhile t)
  | cons u behind =>
    have begins : ¬ u.isBlank := head?_trimStart t u (by rw [visible]; rfl)
    have word : (u :: behind).takeWhile (fun v => !v.isBlank) ≠ [] := by
      rw [List.takeWhile_cons_of_pos (by simpa using begins)]
      exact List.cons_ne_nil u _
    refine .inr ⟨_, _, _, ?_, isGap_takeWhile t, ⟨word, isSolid_takeWhile _⟩,
      endsWord_dropWhile (u :: behind)⟩
    rw [List.append_assoc, List.takeWhile_append_dropWhile, ← visible, cut]

theorem words_of_first {gap word rest : Text} (blank : IsGap gap) (solid : IsWord word)
    (ends : EndsWord rest) : words (gap ++ word ++ rest) = word :: words rest := by
  rw [List.append_assoc, words_gap_append blank, words_append ends, words_of_isWord solid]
  rfl

/-- The first word of a text stands behind a gap and in front of the other words. -/
theorem words_eq_cons_iff {t word : Text} {others : List Text} : words t = word :: others ↔
    ∃ gap rest, t = gap ++ word ++ rest ∧ IsGap gap ∧ IsWord word ∧ EndsWord rest ∧
      words rest = others := by
  constructor
  · intro cut
    rcases isGap_or_exists_isWord t with blank | ⟨gap, first, rest, rfl, blank, solid, ends⟩
    · rw [words_of_isGap blank] at cut
      cases cut
    · rw [words_of_first blank solid ends] at cut
      obtain ⟨rfl, rfl⟩ := List.cons.inj cut
      exact ⟨gap, rest, rfl, blank, solid, ends, rfl⟩
  · rintro ⟨gap, rest, rfl, blank, solid, ends, rfl⟩
    exact words_of_first blank solid ends

theorem isWord_of_mem_words {t word : Text} (within : word ∈ words t) : IsWord word := by
  generalize cut : words t = all at within
  induction all generalizing t with
  | nil => cases within
  | cons first others ih =>
    obtain ⟨gap, rest, -, -, solid, -, behind⟩ := words_eq_cons_iff.mp cut
    rcases List.mem_cons.mp within with rfl | later
    · exact solid
    · exact ih behind later

end Text

end FileProfile
