import FileProfile.Text.Basic
import Mathlib.Data.List.TakeWhile

/-!
Cutting a text.

A text is cut at its first unit that does not meet a condition, which is told by what stands on both
sides (`cut_at_stop`): so at the first place where a unit stands, or at the last if it is read from
its end (`cut_at_first`, `cut_at_last`). Split at each place where a unit stands, it gives the
pieces of what is in front of any of them and then of what is behind (`splitAt_append_cons`).
-/

namespace FileProfile

namespace Text

/-! ## At one place -/

section Stops

variable {p : CodeUnit → Bool} {part rest : Text}

/-- A part whose units meet a condition is taken off in front of one that does not. -/
theorem cut_at_stop (inside : ∀ u ∈ part, p u) (ends : ∀ u ∈ rest.head?, ¬ p u) :
    (part ++ rest).takeWhile p = part ∧ (part ++ rest).dropWhile p = rest := by
  rw [List.takeWhile_append_of_pos inside, List.dropWhile_append_of_pos inside]
  cases rest with
  | nil => exact ⟨List.append_nil part, rfl⟩
  | cons u more =>
    have stop : ¬ p u := ends u rfl
    rw [List.takeWhile_cons_of_neg stop, List.dropWhile_cons_of_neg stop, List.append_nil]
    exact ⟨rfl, rfl⟩

theorem dropWhile_eq_self (ends : ∀ u ∈ rest.head?, ¬ p u) : rest.dropWhile p = rest :=
  (cut_at_stop (List.forall_mem_nil _) ends).2

theorem not_of_head?_dropWhile {u : CodeUnit} (first : u ∈ (part.dropWhile p).head?) : ¬ p u := by
  have stop := List.head?_dropWhile_not p part
  rw [Option.mem_def.mp first] at stop
  exact Bool.eq_false_iff.mp stop

end Stops

section Separators

variable {sep : CodeUnit} {t : Text}

theorem ne_of_not_mem (absent : sep ∉ t) : ∀ u ∈ t, decide (u ≠ sep) = true :=
  fun _ within => decide_eq_true fun same => absent (same ▸ within)

theorem not_mem_takeWhile (sep : CodeUnit) (t : Text) : sep ∉ t.takeWhile fun u => u ≠ sep := by
  intro within
  have other := List.mem_takeWhile_imp within
  simp at other

/-- A text is cut at the first place where a unit stands. -/
theorem cut_at_first {front : Text} (apart : sep ∉ front) (back : Text) :
    (front ++ sep :: back).takeWhile (fun u => u ≠ sep) = front ∧
      (front ++ sep :: back).dropWhile (fun u => u ≠ sep) = sep :: back := by
  refine cut_at_stop (ne_of_not_mem apart) fun u first other => ?_
  exact of_decide_eq_true other (Option.some.inj first).symm

/-- Read from its end, a text is cut at the last place where a unit stands. -/
theorem cut_at_last (front : Text) {after : Text} (apart : sep ∉ after) :
    (front ++ sep :: after).reverse.takeWhile (fun u => u ≠ sep) = after.reverse ∧
      (front ++ sep :: after).reverse.dropWhile (fun u => u ≠ sep) = sep :: front.reverse := by
  rw [List.reverse_append, List.reverse_cons, List.append_assoc, List.singleton_append]
  exact cut_at_first (mt List.mem_reverse.mp apart) front.reverse

theorem exists_last_cut (stands : sep ∈ t) : ∃ front after, t = front ++ sep :: after ∧
    sep ∉ after := by
  obtain ⟨after, front, cut, apart⟩ := List.eq_append_cons_of_mem (List.mem_reverse.mpr stands)
  refine ⟨front.reverse, after.reverse, ?_, mt List.mem_reverse.mp apart⟩
  rw [← List.reverse_reverse t, cut, List.reverse_append, List.reverse_cons, List.append_assoc]
  rfl

/-! ## At each place -/

theorem push_eq_modifyHead (u : CodeUnit) {pieces : List Text} (some : pieces ≠ []) :
    push u pieces = pieces.modifyHead (u :: ·) := by
  obtain ⟨piece, more, rfl⟩ := List.exists_cons_of_ne_nil some
  rfl

theorem splitAt_eq_splitOn (sep : CodeUnit) (t : Text) : splitAt sep t = t.splitOn sep := by
  induction t with
  | nil => exact (List.splitOn_nil sep).symm
  | cons u rest ih =>
    simp only [List.splitOn_cons_eq_if_modifyHead, beq_iff_eq]
    rw [splitAt, ih, push_eq_modifyHead u (List.splitOn_ne_nil sep rest)]

theorem splitAt_append_cons (sep : CodeUnit) (a b : Text) :
    splitAt sep (a ++ sep :: b) = splitAt sep a ++ splitAt sep b := by
  simp only [splitAt_eq_splitOn]
  exact List.splitOn_append_cons_self a b

theorem splitAt_of_not_mem (absent : sep ∉ t) : splitAt sep t = [t] := by
  rw [splitAt_eq_splitOn]
  exact List.splitOn_eq_singleton absent

theorem not_mem_of_mem_splitAt {piece : Text} (found : piece ∈ splitAt sep t) : sep ∉ piece := by
  induction t generalizing piece with
  | nil =>
    have blank : piece = [] := by simpa [splitAt] using found
    simp [blank]
  | cons u rest ih =>
    unfold splitAt at found
    split at found
    · rcases List.mem_cons.mp found with rfl | later
      · exact List.not_mem_nil
      · exact ih later
    · next apart =>
      cases pieces : splitAt sep rest with
      | nil => exact absurd pieces (splitAt_ne_nil sep rest)
      | cons first more =>
        rw [pieces] at found ih
        rcases List.mem_cons.mp found with rfl | later
        · intro stands
          rcases List.mem_cons.mp stands with same | within
          · exact apart same.symm
          · exact ih List.mem_cons_self within
        · exact ih (List.mem_cons_of_mem _ later)

end Separators

end Text

end FileProfile
