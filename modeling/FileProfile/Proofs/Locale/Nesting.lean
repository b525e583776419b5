import FileProfile.Proofs.Locale.Expansion

/-!
Locale names without their codesets.

The first variant of a name is the name itself, less the codeset (`withoutCodeset_spelled`). The
other variants drop further parts, so that the variants of a variant are among those of the name
(`expand_nests`).
-/

namespace FileProfile

namespace Locale

/-- The name without its codeset: what stands from the first dot in front of any at sign up to that
at sign, or to the end. -/
def withoutCodeset (name : Text) : Text :=
  (name.takeWhile fun u => u ≠ atSign).takeWhile (fun u => u ≠ dot) ++
    name.dropWhile fun u => u ≠ atSign

/-! ## The marks of a name -/

/-- A unit stands in a part or is its mark. -/
theorem mem_marked {mark u : CodeUnit} {part : Option Text} :
    u ∈ marked mark part ↔ ∃ p ∈ part, u = mark ∨ u ∈ p := by
  cases part <;> simp [marked]

namespace Proper

variable {l : Locale} (proper : l.Proper) {u : CodeUnit}

include proper

theorem ne_of_mem_language (inside : u ∈ l.language) : u ≠ dot ∧ u ≠ atSign := by
  have plain := proper.language u inside
  simp only [isMark, Bool.or_eq_false_iff, decide_eq_false_iff_not] at plain
  exact ⟨plain.1.2, plain.2⟩

theorem ne_of_mem_territory (inside : u ∈ marked underscore l.territory) :
    u ≠ dot ∧ u ≠ atSign := by
  obtain ⟨t, here, rfl | within⟩ := mem_marked.mp inside
  · decide
  · have plain := (proper.territory t here).2 u within
    simpa only [Bool.or_eq_false_iff, decide_eq_false_iff_not] using plain

/-- Neither a dot nor an at sign stands in front of the codeset. -/
theorem ne_of_mem_front (inside : u ∈ l.language ++ marked underscore l.territory) :
    u ≠ dot ∧ u ≠ atSign :=
  (List.mem_append.mp inside).elim proper.ne_of_mem_language proper.ne_of_mem_territory

end Proper

theorem ne_atSign_of_mem_codeset {codeset : Option Text} (proper : IsCodeset codeset) {u : CodeUnit}
    (inside : u ∈ marked dot codeset) : u ≠ atSign := by
  obtain ⟨c, here, rfl | within⟩ := mem_marked.mp inside
  · decide
  · exact of_decide_eq_false ((proper c here).2 u within)

/-- What is left of a name is the text of the locale that it is read as. -/
theorem withoutCodeset_spelled {l : Locale} (proper : l.Proper) {codeset : Option Text}
    (proper' : IsCodeset codeset) : withoutCodeset (l.spelled codeset) = l.text := by
  let front := l.language ++ marked underscore l.territory
  have spread : l.spelled codeset = (front ++ marked dot codeset) ++ marked atSign l.modifier := by
    simp only [spelled, front, List.append_assoc]
  have unmodified : ∀ u ∈ front ++ marked dot codeset, decide (u = atSign) = false := by
    intro u inside
    rcases List.mem_append.mp inside with here | here
    · exact decide_eq_false (proper.ne_of_mem_front here).2
    · exact decide_eq_false (ne_atSign_of_mem_codeset proper' here)
  have uncoded : ∀ u ∈ front, decide (u = dot) = false := fun u inside =>
    decide_eq_false (proper.ne_of_mem_front inside).1
  -- The modifier may hold dots and at signs, so the first at sign is looked for before any dot.
  have modified : ∀ u ∈ (marked atSign l.modifier).head?, decide (u = atSign) = true :=
    forall_head?_last rfl
  have coded : ∀ u ∈ (marked dot codeset).head?, decide (u = dot) = true := forall_head?_last rfl
  obtain ⟨before, behind⟩ := cut_at_stop unmodified modified
  obtain ⟨kept, -⟩ := cut_at_stop uncoded coded
  simp only [withoutCodeset, ne_eq, decide_not, spread]
  rw [before, behind, kept, text]

/-! ## Variants -/

theorem expand_ne_nil_iff {name : Text} : expand name ≠ [] ↔
    ∃ l codeset, Proper l ∧ IsCodeset codeset ∧ name = l.spelled codeset := by
  constructor
  · intro some
    obtain ⟨v, within⟩ := List.exists_mem_of_ne_nil _ some
    obtain ⟨l, read, -⟩ := mem_expand.mp within
    obtain ⟨proper, codeset, proper', same⟩ := exists_spelled read
    exact ⟨l, codeset, proper, proper', same⟩
  · rintro ⟨l, codeset, proper, proper', rfl⟩ none
    have first : (expand (l.spelled codeset)).head? = some l.text := by
      rw [expand_of_parse? (parse?_spelled proper proper'), List.head?_map, head?_general]
      rfl
    rw [none] at first
    cases first

theorem head?_expand {name : Text} (some : expand name ≠ []) :
    (expand name).head? = .some (withoutCodeset name) := by
  obtain ⟨l, codeset, proper, proper', rfl⟩ := expand_ne_nil_iff.mp some
  rw [expand_of_parse? (parse?_spelled proper proper'), List.head?_map, head?_general,
    withoutCodeset_spelled proper proper']
  rfl

/-- A name has variants exactly if it is put together of proper parts. They differ from each other,
the first one is the name without its codeset, and each of them is the first of its own variants,
which are some of those of the name in the same order. -/
theorem expand_nests (name : Text) :
    (expand name ≠ [] ↔ ∃ l codeset, Proper l ∧ IsCodeset codeset ∧ name = l.spelled codeset) ∧
      (expand name).Nodup ∧
      (expand name ≠ [] → (expand name).head? = some (withoutCodeset name)) ∧
      ∀ v ∈ expand name, (expand v).head? = some v ∧ (expand v).Sublist (expand name) := by
  refine ⟨expand_ne_nil_iff, nodup_expand name, head?_expand, fun v within => ?_⟩
  exact ⟨head?_expand_of_mem within, expand_sublist_of_mem within⟩

/-- A name whose territory has an underscore, and whose modifier a dot and an at sign. -/
theorem expand_nests_marked : (expand "ca_ES_x.UTF-8@a.b@c").head? = some "ca_ES_x@a.b@c" ∧
    (expand "ca@a.b@c").head? = some "ca@a.b@c" ∧
    (expand "ca@a.b@c").Sublist (expand "ca_ES_x.UTF-8@a.b@c") := by
  obtain ⟨-, -, first, nested⟩ := expand_nests "ca_ES_x.UTF-8@a.b@c"
  exact ⟨first (by decide), nested "ca@a.b@c" (by decide)⟩

end Locale

end FileProfile
