import FileProfile.Proofs.Text.Cutting
import FileProfile.Text.Blank

/-!
What trimming takes off.

Trimming leaves a text that neither begins nor ends in a blank (`head?_trim`, `getLast?_trim`) and
leaves such a text alone (`trim_eq_self`). Blanks at either end do not matter to it.
-/

namespace FileProfile

namespace Text

/-- What trimming leaves, and the blanks behind it. -/
theorem exists_trimEnd (t : Text) : ∃ blanks : Text, t = trimEnd t ++ blanks ∧
    ∀ u ∈ blanks, u.isBlank := by
  refine ⟨(t.reverse.takeWhile CodeUnit.isBlank).reverse, ?_, fun u within => ?_⟩
  · rw [trimEnd, ← List.reverse_append, List.takeWhile_append_dropWhile, List.reverse_reverse]
  · exact List.mem_takeWhile_imp (List.mem_reverse.mp within)

theorem mem_of_mem_trim {u : CodeUnit} {t : Text} (within : u ∈ trim t) : u ∈ t := by
  obtain ⟨blanks, shape, -⟩ := exists_trimEnd (trimStart t)
  have inside : u ∈ trimStart t := by
    rw [shape]
    exact List.mem_append_left _ within
  exact (List.dropWhile_suffix _).subset inside

/-! ## Blanks at the ends -/

theorem trimStart_cons {u : CodeUnit} (blank : u.isBlank) (t : Text) :
    trimStart (u :: t) = trimStart t := by
  rw [trimStart, List.dropWhile_cons, if_pos blank]
  rfl

theorem trim_cons {u : CodeUnit} (blank : u.isBlank) (t : Text) : trim (u :: t) = trim t := by
  rw [trim, trimStart_cons blank]
  rfl

theorem trimEnd_concat {u : CodeUnit} (blank : u.isBlank) (t : Text) :
    trimEnd (t ++ [u]) = trimEnd t := by
  rw [trimEnd, List.reverse_append, List.reverse_singleton, List.singleton_append,
    List.dropWhile_cons, if_pos blank]
  rfl

/-- What stands behind a text stays when blanks in front of the text are taken off, unless the text
is blank. -/
theorem trimStart_append {t : Text} (some : trimStart t ≠ []) (rest : Text) :
    trimStart (t ++ rest) = trimStart t ++ rest := by
  unfold trimStart at some ⊢
  rw [List.dropWhile_append]
  have visible : (t.dropWhile CodeUnit.isBlank).isEmpty = false := by simpa using some
  rw [visible]
  rfl

theorem trimStart_append_of_eq_nil {t : Text} (none : trimStart t = []) (rest : Text) :
    trimStart (t ++ rest) = trimStart rest := by
  unfold trimStart at none ⊢
  rw [List.dropWhile_append, none]
  rfl

theorem trim_concat {u : CodeUnit} (blank : u.isBlank) (t : Text) : trim (t ++ [u]) = trim t := by
  unfold trim
  by_cases none : trimStart t = []
  · have single : trimStart [u] = [] := trimStart_cons blank []
    rw [trimStart_append_of_eq_nil none, single, none]
  · rw [trimStart_append none, trimEnd_concat blank]

/-! ## Trimmed texts -/

theorem head?_trimStart (t : Text) : ∀ u ∈ (trimStart t).head?, ¬ u.isBlank :=
  fun _ first => not_of_head?_dropWhile first

theorem head?_of_trim {t : Text} {u : CodeUnit} (first : u ∈ (trim t).head?) :
    u ∈ (trimStart t).head? := by
  obtain ⟨blanks, shape, -⟩ := exists_trimEnd (trimStart t)
  rw [shape, Option.mem_def, List.head?_append]
  exact Option.or_eq_some_iff.mpr (.inl first)

theorem head?_trim_eq {t : Text} (some : trim t ≠ []) : (trim t).head? = (trimStart t).head? := by
  obtain ⟨u, rest, shape⟩ := List.exists_cons_of_ne_nil some
  have first := head?_of_trim (t := t) (u := u) (by rw [shape]; rfl)
  rw [shape, Option.mem_def.mp first]
  rfl

theorem head?_trim (t : Text) : ∀ u ∈ (trim t).head?, ¬ u.isBlank :=
  fun u first => head?_trimStart t u (head?_of_trim first)

theorem getLast?_trim (t : Text) : ∀ u ∈ (trim t).getLast?, ¬ u.isBlank := by
  intro u last
  rw [trim, trimEnd, List.getLast?_reverse] at last
  exact not_of_head?_dropWhile last

theorem trimStart_eq_self {t : Text} (first : ∀ u ∈ t.head?, ¬ u.isBlank) : trimStart t = t :=
  dropWhile_eq_self first

theorem trimEnd_eq_self {t : Text} (last : ∀ u ∈ t.getLast?, ¬ u.isBlank) : trimEnd t = t := by
  have front : ∀ u ∈ t.reverse.head?, ¬ u.isBlank := by
    rw [List.head?_reverse]
    exact last
  have same := trimStart_eq_self front
  unfold trimStart at same
  rw [trimEnd, same, List.reverse_reverse]

theorem trim_eq_self {t : Text} (first : ∀ u ∈ t.head?, ¬ u.isBlank)
    (last : ∀ u ∈ t.getLast?, ¬ u.isBlank) : trim t = t := by
  rw [trim, trimStart_eq_self first, trimEnd_eq_self last]

theorem trim_trim (t : Text) : trim (trim t) = trim t :=
  trim_eq_self (head?_trim t) (getLast?_trim t)

/-- A text that begins with a unit that is no blank begins with it once it is trimmed. -/
theorem exists_trim_cons {u : CodeUnit} (visible : ¬ u.isBlank) (t : Text) :
    ∃ rest, trim (u :: t) = u :: rest := by
  have whole : trimStart (u :: t) = u :: t := by
    refine trimStart_eq_self fun v first => ?_
    rw [← Option.some.inj first]
    exact visible
  obtain ⟨blanks, shape, all⟩ := exists_trimEnd (u :: t)
  rw [trim, whole]
  cases cut : trimEnd (u :: t) with
  | nil =>
    rw [cut, List.nil_append] at shape
    exact absurd (all u (shape ▸ List.mem_cons_self)) visible
  | cons v rest =>
    rw [cut, List.cons_append] at shape
    exact ⟨rest, by rw [(List.cons.inj shape).1]⟩

end Text

end FileProfile
