import FileProfile.Locale
import FileProfile.Proofs.Text.Cutting
import Mathlib.Data.List.Basic
import Mathlib.Data.List.Nodup
import Mathlib.Data.List.TakeWhile
import Mathlib.Data.Option.Basic

/-!
The variants of a locale name.

A name is read as a locale exactly if it is put together of proper parts (`parse?_eq_some`), and a
locale is read from its own text (`parse?_text`). So the variants of a name are the texts of
different locales, of its own and of the more general ones. A variant is the first variant of itself
(`head?_expand_of_mem`), and its variants are some of those of the name, in the same order
(`expand_sublist_of_mem`).
-/

namespace FileProfile

namespace Locale

/-! ## Locales and their texts -/

/-- A part behind its mark, where there is one. -/
def marked (mark : CodeUnit) : Option Text → Text
  | none => []
  | some part => mark :: part

/-- The name of a locale. -/
def text (l : Locale) : Text :=
  l.language ++ marked underscore l.territory ++ marked atSign l.modifier

/-- A unit that ends the language. -/
def isMark (u : CodeUnit) : Bool := u = underscore || u = dot || u = atSign

/-- The parts are those that a name can have. -/
structure Proper (l : Locale) : Prop where
  language_ne : l.language ≠ []
  language : ∀ u ∈ l.language, isMark u = false
  territory : ∀ t ∈ l.territory, t ≠ [] ∧ ∀ u ∈ t, (u = dot || u = atSign) = false
  modifier : ∀ m ∈ l.modifier, m ≠ [] ∧ ∀ u ∈ m, u.isLineTerminator = false

/-- The locale and the more general ones, most specific first. -/
def general (l : Locale) : List Locale :=
  let withModifier (territory : Option Text) :=
    l.modifier.toList.map fun m => ⟨l.language, territory, some m⟩
  (l.territory.toList.flatMap fun t => withModifier (some t) ++ [⟨l.language, some t, none⟩]) ++
    withModifier none ++ [⟨l.language, none, none⟩]

theorem variants_eq (l : Locale) : l.variants = l.general.map text := by
  obtain ⟨language, territory, modifier⟩ := l
  cases territory <;> cases modifier <;> simp [variants, general, text, marked]

theorem head?_general (l : Locale) : l.general.head? = some l := by
  obtain ⟨language, territory, modifier⟩ := l
  cases territory <;> cases modifier <;> rfl

theorem nodup_general (l : Locale) : l.general.Nodup := by
  obtain ⟨language, territory, modifier⟩ := l
  cases territory <;> cases modifier <;> simp [general]

theorem mem_general {k l : Locale} : k ∈ l.general ↔ k.language = l.language ∧
    (k.territory = l.territory ∨ k.territory = none) ∧
    (k.modifier = l.modifier ∨ k.modifier = none) := by
  obtain ⟨language, territory, modifier⟩ := k
  obtain ⟨language', territory', modifier'⟩ := l
  cases territory' <;> cases modifier' <;> simp [general] <;> grind

/-- The locales that are more general than a more general one. -/
theorem general_sublist {k l : Locale} (within : k ∈ l.general) : k.general.Sublist l.general := by
  obtain ⟨same, territory, modifier⟩ := mem_general.mp within
  obtain ⟨language, own, own'⟩ := k
  obtain ⟨language', territory', modifier'⟩ := l
  simp only at same territory modifier
  subst same
  rcases territory with rfl | rfl <;> rcases modifier with rfl | rfl
  · exact List.Sublist.refl _
  · cases own <;> cases modifier' <;> simp [general]
  · cases territory' <;> cases own' <;> simp [general]
  · cases territory' <;> cases modifier' <;> simp [general]

theorem Proper.general {k l : Locale} (proper : l.Proper) (within : k ∈ l.general) : k.Proper := by
  obtain ⟨same, territory, modifier⟩ := mem_general.mp within
  refine ⟨?_, ?_, ?_, ?_⟩
  · rw [same]
    exact proper.language_ne
  · rw [same]
    exact proper.language
  · rcases territory with own | none
    · rw [own]
      exact proper.territory
    · rw [none]
      exact fun t absent => by cases absent
  · rcases modifier with own | none
    · rw [own]
      exact proper.modifier
    · rw [none]
      exact fun m absent => by cases absent

/-! ## Reading a name -/

/-- Units up to a stop are taken off in front of it. -/
theorem cut_at_stop {stop : CodeUnit → Bool} {part rest : Text}
    (inside : ∀ u ∈ part, stop u = false) (ends : ∀ u ∈ rest.head?, stop u = true) :
    (part ++ rest).takeWhile (fun u => !stop u) = part ∧
      (part ++ rest).dropWhile (fun u => !stop u) = rest := by
  refine Text.cut_at_stop (fun u within => ?_) fun u first => ?_
  · rw [inside u within]
    rfl
  · rw [ends u first]
    exact Bool.false_ne_true

/-- A part behind its mark is read up to a stop. -/
theorem part?_marked {mark : CodeUnit} {stop : CodeUnit → Bool} {part : Option Text} {rest : Text}
    (proper : ∀ p ∈ part, p ≠ [] ∧ ∀ u ∈ p, stop u = false)
    (ends : ∀ u ∈ rest.head?, stop u = true ∧ u ≠ mark) :
    part? mark stop (marked mark part ++ rest) = some (part, rest) := by
  cases part with
  | none =>
    cases rest with
    | nil => rfl
    | cons u more => exact if_neg (ends u rfl).2
  | some p =>
    obtain ⟨given, inside⟩ := proper p rfl
    obtain ⟨front, back⟩ := cut_at_stop inside fun u first => (ends u first).1
    rw [marked, List.cons_append, part?, if_pos rfl, front, back]
    cases p with
    | nil => exact absurd rfl given
    | cons u more => rfl

/-- What stands in front is the mark of the part, or what stands behind it where it is absent. -/
theorem forall_head?_marked {P : CodeUnit → Prop} {mark : CodeUnit} {part : Option Text}
    {rest : Text} (here : P mark) (behind : ∀ u ∈ rest.head?, P u) :
    ∀ u ∈ (marked mark part ++ rest).head?, P u := by
  intro u first
  cases part with
  | none => exact behind u first
  | some p =>
    rw [← Option.some.inj first]
    exact here

theorem forall_head?_last {P : CodeUnit → Prop} {mark : CodeUnit} {part : Option Text}
    (here : P mark) : ∀ u ∈ (marked mark part).head?, P u := by
  rw [← List.append_nil (marked mark part)]
  exact forall_head?_marked here fun u none => by cases none

theorem part?_eq_some {mark : CodeUnit} {stop : CodeUnit → Bool} {t rest : Text}
    {part : Option Text} (read : part? mark stop t = some (part, rest)) :
    t = marked mark part ++ rest ∧ ∀ p ∈ part, p ≠ [] ∧ ∀ u ∈ p, stop u = false := by
  cases t with
  | nil =>
    cases read
    exact ⟨rfl, fun _ absent => by cases absent⟩
  | cons u t =>
    rw [part?] at read
    split at read
    case isFalse =>
      cases read
      exact ⟨rfl, fun _ absent => by cases absent⟩
    case isTrue here =>
      split at read
      case h_1 => cases read
      case h_2 p given =>
        cases read
        refine ⟨by rw [marked, here, List.cons_append, List.takeWhile_append_dropWhile], ?_⟩
        intro q same
        cases same
        refine ⟨given, fun v inside => ?_⟩
        simpa using List.mem_takeWhile_imp inside

/-- A name with all its parts, the codeset included. -/
def spelled (l : Locale) (codeset : Option Text) : Text :=
  l.language ++ (marked underscore l.territory ++ (marked dot codeset ++ marked atSign l.modifier))

theorem spelled_none (l : Locale) : l.spelled none = l.text := by
  rw [spelled, text, List.append_assoc]
  rfl

/-- A codeset stands in front of the modifier. -/
def IsCodeset (codeset : Option Text) : Prop :=
  ∀ c ∈ codeset, c ≠ [] ∧ ∀ u ∈ c, decide (u = atSign) = false

/-- The parts as the parser takes them off one after another. -/
theorem parse?_eq_some_iff_parts {name : Text} {l : Locale} : parse? name = some l ↔
    name.takeWhile (fun u => !isMark u) = l.language ∧ l.language ≠ [] ∧ ∃ rest codeset rest',
      part? underscore (fun u => u = dot || u = atSign) (name.dropWhile fun u => !isMark u) =
        some (l.territory, rest) ∧
      part? dot (fun u => u = atSign) rest = some (codeset, rest') ∧
      part? atSign CodeUnit.isLineTerminator rest' = some (l.modifier, []) := by
  obtain ⟨language, territory, modifier⟩ := l
  have unfolded : parse? name =
      (guard (name.takeWhile (fun u => !isMark u) ≠ []) : Option Unit).bind fun _ =>
      (part? underscore (fun u => u = dot || u = atSign) (name.dropWhile fun u => !isMark u)).bind
      fun territory => (part? dot (fun u => u = atSign) territory.2).bind fun codeset =>
      (part? atSign CodeUnit.isLineTerminator codeset.2).bind fun modifier =>
      (guard (modifier.2 = []) : Option Unit).bind fun _ =>
        some ⟨name.takeWhile (fun u => !isMark u), territory.1, modifier.1⟩ := rfl
  rw [unfolded]
  simp only [Option.bind_eq_some_iff, Prod.exists, Option.some.injEq, mk.injEq,
    Option.guard_eq_some']
  constructor
  · rintro ⟨-, given, _, rest, first, codeset, rest', middle, _, _, last, -, rfl, rfl, rfl, rfl⟩
    exact ⟨rfl, given, rest, codeset, rest', first, middle, last⟩
  · rintro ⟨rfl, given, rest, codeset, rest', first, middle, last⟩
    exact ⟨(), given, territory, rest, first, codeset, rest', middle, modifier, [], last, (), rfl,
      rfl, rfl, rfl⟩

/-- A name that is read is put together of proper parts. -/
theorem exists_spelled {name : Text} {l : Locale} (read : parse? name = some l) :
    l.Proper ∧ ∃ codeset, IsCodeset codeset ∧ name = l.spelled codeset := by
  obtain ⟨cut, given, rest, codeset, rest', first, middle, last⟩ :=
    parse?_eq_some_iff_parts.mp read
  obtain ⟨behind, territory⟩ := part?_eq_some first
  obtain ⟨behind', proper⟩ := part?_eq_some middle
  obtain ⟨behind'', modifier⟩ := part?_eq_some last
  have language : ∀ u ∈ l.language, isMark u = false := by
    intro u inside
    rw [← cut] at inside
    simpa using List.mem_takeWhile_imp inside
  refine ⟨⟨given, language, territory, modifier⟩, codeset, proper, ?_⟩
  rw [List.append_nil] at behind''
  rw [spelled, ← behind'', ← behind', ← behind, ← cut, List.takeWhile_append_dropWhile]

/-- The marks tell the parts apart. -/
theorem parse?_spelled {l : Locale} (proper : l.Proper) {codeset : Option Text}
    (proper' : IsCodeset codeset) : parse? (l.spelled codeset) = some l := by
  have ends : ∀ u ∈ (marked underscore l.territory ++
      (marked dot codeset ++ marked atSign l.modifier)).head?, isMark u = true :=
    forall_head?_marked rfl (forall_head?_marked rfl (forall_head?_last rfl))
  obtain ⟨front, back⟩ := cut_at_stop proper.language ends
  refine parse?_eq_some_iff_parts.mpr ⟨front, proper.language_ne,
    marked dot codeset ++ marked atSign l.modifier, codeset, marked atSign l.modifier, ?_, ?_, ?_⟩
  · rw [spelled, back]
    exact part?_marked proper.territory
      (forall_head?_marked (by decide) (forall_head?_last (by decide)))
  · exact part?_marked proper' (forall_head?_last (by decide))
  · have last : part? atSign _ (marked atSign l.modifier ++ []) = some (l.modifier, []) :=
      part?_marked proper.modifier fun u none => by cases none
    rwa [List.append_nil] at last

/-- The names that are read are those that are put together of proper parts, with a codeset or
without one. -/
theorem parse?_eq_some {name : Text} {l : Locale} :
    parse? name = some l ↔ l.Proper ∧ ∃ codeset, IsCodeset codeset ∧ name = l.spelled codeset := by
  refine ⟨exists_spelled, ?_⟩
  rintro ⟨proper, codeset, proper', rfl⟩
  exact parse?_spelled proper proper'

/-- A proper locale is read from its own text. -/
theorem parse?_text {l : Locale} (proper : l.Proper) : parse? l.text = some l := by
  have plain : IsCodeset none := fun _ absent => by cases absent
  rw [← spelled_none]
  exact parse?_spelled proper plain

theorem Proper.of_parse? {name : Text} {l : Locale} (read : parse? name = some l) : l.Proper :=
  (exists_spelled read).1

/-- Different locales have different texts. -/
theorem Proper.text_inj {k l : Locale} (proper : k.Proper) (proper' : l.Proper)
    (same : k.text = l.text) : k = l := by
  have read := parse?_text proper
  rw [same, parse?_text proper'] at read
  exact (Option.some.inj read).symm

/-! ## Variants of variants -/

theorem expand_of_parse? {name : Text} {l : Locale} (read : parse? name = some l) :
    expand name = l.general.map text := by
  rw [expand, read]
  exact variants_eq l

theorem expand_text {l : Locale} (proper : l.Proper) : expand l.text = l.general.map text :=
  expand_of_parse? (parse?_text proper)

theorem mem_expand {name v : Text} :
    v ∈ expand name ↔ ∃ l, parse? name = some l ∧ ∃ k ∈ l.general, k.text = v := by
  constructor
  · intro within
    cases read : parse? name with
    | none =>
      rw [expand, read] at within
      cases within
    | some l =>
      rw [expand_of_parse? read] at within
      exact ⟨l, rfl, List.mem_map.mp within⟩
  · rintro ⟨l, read, within⟩
    rw [expand_of_parse? read]
    exact List.mem_map.mpr within

/-- A variant is the first one of itself. -/
theorem head?_expand_of_mem {name v : Text} (within : v ∈ expand name) :
    (expand v).head? = some v := by
  obtain ⟨l, read, k, general, rfl⟩ := mem_expand.mp within
  rw [expand_text ((Proper.of_parse? read).general general), List.head?_map, head?_general]
  rfl

/-- The variants of a variant are some of those of the name, in the same order. -/
theorem expand_sublist_of_mem {name v : Text} (within : v ∈ expand name) :
    (expand v).Sublist (expand name) := by
  obtain ⟨l, read, k, general, rfl⟩ := mem_expand.mp within
  rw [expand_text ((Proper.of_parse? read).general general), expand_of_parse? read]
  exact (general_sublist general).map text

/-- The first variant has all the variants of the name. -/
theorem expand_of_head? {name v : Text} (first : (expand name).head? = some v) :
    expand v = expand name := by
  cases read : parse? name with
  | none =>
    rw [expand, read] at first
    cases first
  | some l =>
    rw [expand_of_parse? read, List.head?_map, head?_general] at first
    cases first
    rw [expand_of_parse? read, expand_text (Proper.of_parse? read)]

theorem nodup_expand (name : Text) : (expand name).Nodup := by
  cases read : parse? name with
  | none =>
    rw [expand, read]
    exact List.nodup_nil
  | some l =>
    have proper := Proper.of_parse? read
    rw [expand_of_parse? read]
    refine l.nodup_general.map_on fun k general k' general' same => ?_
    exact (proper.general general).text_inj (proper.general general') same

section Language

variable {name language : Text} (plain : parse? language = some ⟨language, none, none⟩)

include plain

/-- A language is a variant of the names that have it. -/
theorem language_mem_expand : language ∈ expand name ↔
    ∃ l, parse? name = some l ∧ l.language = language := by
  rw [mem_expand]
  constructor
  · rintro ⟨l, read, k, general, same⟩
    have own := parse?_text ((Proper.of_parse? read).general general)
    rw [same, plain] at own
    cases own
    exact ⟨l, read, (mem_general.mp general).1.symm⟩
  · rintro ⟨l, read, rfl⟩
    refine ⟨l, read, ⟨l.language, none, none⟩, mem_general.mpr ⟨rfl, .inr rfl, .inr rfl⟩, ?_⟩
    simp [text, marked]

/-- A language is the only variant of the names that have nothing else but a codeset. -/
theorem expand_eq_language :
    expand name = [language] ↔ parse? name = some ⟨language, none, none⟩ := by
  constructor
  · intro only
    obtain ⟨l, read, -⟩ := mem_expand.mp (by rw [only]; exact List.mem_singleton_self language)
    have first : (expand name).head? = some language := by rw [only]; rfl
    rw [expand_of_parse? read, List.head?_map, head?_general] at first
    have own := parse?_text (Proper.of_parse? read)
    rw [Option.some.inj first, plain] at own
    rw [read, ← own]
  · intro read
    rw [expand_of_parse? read]
    simp [general, text, marked]

end Language

end Locale

end FileProfile
