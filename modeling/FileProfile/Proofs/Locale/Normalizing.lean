import FileProfile.Proofs.KeyFile.Outline
import FileProfile.Proofs.Locale.Expansion

/-!
What normalizing a list of locale names gives, and when normalizing it again changes nothing.

The list holds the variants of the requested names, each where it occurs first, and with a variant
all variants of that one (`mem_listed_of_mem_expand`). A name that adds anything adds its first
variant, which has the same variants, so the names that are listed list themselves
(`listed_listed`). Not so `POSIX`: it is left out where it is requested, not where it is a variant,
and a list that owes it to a codeset loses it when it is normalized again (`listed_listed_ne`).
-/

namespace FileProfile

namespace Locale

/-! ## Adding variants -/

theorem addVariant_of_mem {seen : List Text} {v : Text} (old : v = neutral ∨ v ∈ seen) :
    addVariant seen v = seen := if_pos old

theorem addVariant_of_not_mem {seen : List Text} {v : Text} (other : v ≠ neutral)
    (new : v ∉ seen) : addVariant seen v = seen ++ [v] :=
  if_neg fun old => old.elim other new

/-- Variants that are there already add nothing. -/
theorem addVariants_of_mem {seen : List Text} (variants : List Text)
    (old : ∀ v ∈ variants, v = neutral ∨ v ∈ seen) : variants.foldl addVariant seen = seen := by
  induction variants with
  | nil => rfl
  | cons v variants ih =>
    rw [List.foldl_cons, addVariant_of_mem (old v List.mem_cons_self)]
    exact ih fun w within => old w (List.mem_cons_of_mem v within)

/-- Variants are added behind those that are there. -/
theorem exists_addVariants (variants seen : List Text) :
    ∃ more, variants.foldl addVariant seen = seen ++ more ∧ ∀ v ∈ more, v ∈ variants := by
  induction variants generalizing seen with
  | nil => exact ⟨[], (List.append_nil seen).symm, fun _ within => within⟩
  | cons v variants ih =>
    obtain ⟨more, added, own⟩ := ih (addVariant seen v)
    by_cases old : v = neutral ∨ v ∈ seen
    · rw [addVariant_of_mem old] at added
      refine ⟨more, ?_, fun w within => List.mem_cons_of_mem v (own w within)⟩
      rw [List.foldl_cons, addVariant_of_mem old, added]
    · obtain ⟨other, new⟩ := not_or.mp old
      rw [addVariant_of_not_mem other new] at added
      refine ⟨v :: more, ?_, ?_⟩
      · rw [List.foldl_cons, addVariant_of_not_mem other new, added, List.append_assoc]
        rfl
      · intro w within
        rcases List.mem_cons.mp within with rfl | within
        · exact List.mem_cons_self
        · exact List.mem_cons_of_mem v (own w within)

/-- Variants are added where they occur first. -/
theorem addVariants_nil (variants : List Text) :
    variants.foldl addVariant [] = (variants.filter (· ≠ neutral)).eraseDups := by
  induction variants using List.reverseRecOn with
  | nil => rfl
  | append_singleton variants v ih =>
    rw [List.foldl_concat, ih, List.filter_append]
    by_cases plain : v = neutral
    · have none : [v].filter (· ≠ neutral) = [] := by simp [plain]
      rw [addVariant_of_mem (.inl plain), none, List.append_nil]
    · have single : [v].filter (· ≠ neutral) = [v] := by simp [plain]
      rw [single, eraseDups_concat, insertKey, addVariant]
      simp only [plain, false_or]

theorem nodup_addVariants (variants : List Text) {seen : List Text} (once : seen.Nodup) :
    (variants.foldl addVariant seen).Nodup := by
  induction variants generalizing seen with
  | nil => exact once
  | cons v variants ih =>
    rw [List.foldl_cons]
    by_cases old : v = neutral ∨ v ∈ seen
    · rw [addVariant_of_mem old]
      exact ih once
    · obtain ⟨other, new⟩ := not_or.mp old
      rw [addVariant_of_not_mem other new]
      exact ih (List.nodup_append.mpr ⟨once, List.nodup_singleton v, fun w within u same => by
        rw [List.mem_singleton.mp same]
        exact fun equal => new (equal ▸ within)⟩)

/-! ## The variants of the requested names -/

/-- The names that are no pseudo-locales. -/
def requested (names : List Text) : List Text :=
  names.filter fun name => name ≠ neutral ∧ name ≠ posix

/-- What is listed in front of the neutral locale. -/
def listed (names : List Text) : List Text :=
  ((requested names).flatMap expand).foldl addVariant []

theorem normalize_eq (names : List Text) : normalize names = listed names ++ [neutral] := rfl

theorem listed_eq (names : List Text) :
    listed names = (((requested names).flatMap expand).filter (· ≠ neutral)).eraseDups :=
  addVariants_nil _

theorem listed_append (names more : List Text) :
    listed (names ++ more) = ((requested more).flatMap expand).foldl addVariant (listed names) := by
  rw [listed, requested, List.filter_append, List.flatMap_append, List.foldl_append]
  rfl

theorem listed_concat {name : Text} (names : List Text) (other : name ≠ neutral)
    (other' : name ≠ posix) :
    listed (names ++ [name]) = (expand name).foldl addVariant (listed names) := by
  have single : requested [name] = [name] := by simp [requested, other, other']
  rw [listed_append, single, List.flatMap_singleton]

theorem listed_concat_pseudo {name : Text} (names : List Text)
    (pseudo : name = neutral ∨ name = posix) : listed (names ++ [name]) = listed names := by
  have none : requested [name] = [] := by rcases pseudo with rfl | rfl <;> decide
  rw [listed_append, none]
  rfl

theorem nodup_listed (names : List Text) : (listed names).Nodup :=
  nodup_addVariants _ List.nodup_nil

theorem mem_listed {names : List Text} {v : Text} : v ∈ listed names ↔
    v ≠ neutral ∧ ∃ name ∈ names, (name ≠ neutral ∧ name ≠ posix) ∧ v ∈ expand name := by
  rw [listed_eq, List.mem_eraseDups, List.mem_filter, List.mem_flatMap]
  simp only [requested, List.mem_filter, decide_eq_true_eq, and_assoc]
  exact and_comm

/-- With a variant its own variants are listed. -/
theorem mem_listed_of_mem_expand {names : List Text} {v w : Text} (within : v ∈ listed names)
    (own : w ∈ expand v) : w = neutral ∨ w ∈ listed names := by
  obtain ⟨-, name, given, request, within⟩ := mem_listed.mp within
  by_cases plain : w = neutral
  · exact .inl plain
  · exact .inr (mem_listed.mpr
      ⟨plain, name, given, request, (expand_sublist_of_mem within).subset own⟩)

/-- What is listed is the first of its own variants. -/
theorem head?_expand_of_mem_listed {names : List Text} {v : Text} (within : v ∈ listed names) :
    (expand v).head? = some v := by
  obtain ⟨-, name, -, -, within⟩ := mem_listed.mp within
  exact head?_expand_of_mem within

/-- A name adds nothing, or its first variant, which has the same variants, and some of those
behind it. -/
theorem adds (names : List Text) (name : Text) :
    (expand name).foldl addVariant (listed names) = listed names ∨
      ∃ first more, (expand name).foldl addVariant (listed names) = listed names ++ first :: more ∧
        first ≠ neutral ∧ first ∉ listed names ∧ expand first = expand name ∧
        ∀ v ∈ more, v ∈ expand name := by
  cases variants : expand name with
  | nil => exact .inl rfl
  | cons first rest =>
    have same : expand first = expand name := expand_of_head? (by rw [variants]; rfl)
    by_cases plain : first = neutral
    · refine .inl (addVariants_of_mem _ fun v within => .inl ?_)
      have only : expand neutral = [neutral] := by decide
      rw [← variants, ← same, plain, only] at within
      exact List.mem_singleton.mp within
    · by_cases old : first ∈ listed names
      · refine .inl (addVariants_of_mem _ fun v within => ?_)
        rw [← variants, ← same] at within
        exact mem_listed_of_mem_expand old within
      · obtain ⟨more, added, own⟩ := exists_addVariants rest (listed names ++ [first])
        refine .inr ⟨first, more, ?_, plain, old, by rw [same, variants], fun v within => ?_⟩
        · rw [List.foldl_cons, addVariant_of_not_mem plain old, added, List.append_assoc]
          rfl
        · exact List.mem_cons_of_mem first (own v within)

/-! ## Listing again -/

theorem language_posix : parse? posix = some ⟨posix, none, none⟩ := by decide

/-- No requested name is `POSIX` with a codeset, unless `POSIX` is listed in front of it. -/
def OwesNoPosix (names : List Text) : Prop :=
  ∀ front name back, names = front ++ name :: back → name ≠ posix → expand name = [posix] →
    posix ∈ listed front

theorem OwesNoPosix.of_append {names more : List Text} (owes : OwesNoPosix (names ++ more)) :
    OwesNoPosix names := by
  intro front name back cut
  refine owes front name (back ++ more) ?_
  rw [cut, List.append_assoc]
  rfl

/-- Names that are listed list themselves. -/
theorem listed_listed {names : List Text} (owes : OwesNoPosix names) :
    listed (listed names) = listed names := by
  induction names using List.reverseRecOn with
  | nil => rfl
  | append_singleton names name ih =>
    have kept := ih owes.of_append
    by_cases pseudo : name = neutral ∨ name = posix
    · rw [listed_concat_pseudo names pseudo]
      exact kept
    · obtain ⟨other, other'⟩ := not_or.mp pseudo
      have step := listed_concat names other other'
      rcases adds names name with nothing | ⟨first, more, added, plain, new, same, own⟩
      · rw [step, nothing]
        exact kept
      · have notPosix : first ≠ posix := by
          rintro rfl
          have only : expand posix = [posix] := by decide
          exact new (owes names name [] rfl other' (by rw [← same, only]))
        -- the first variant brings all that the name has brought, the others nothing more
        have again : listed (listed names ++ [first]) = listed (names ++ [name]) := by
          rw [listed_concat _ plain notPosix, kept, same, step]
        have whole : listed (names ++ [name]) = (listed names ++ [first]) ++ more := by
          rw [step, added, List.append_assoc]
          rfl
        calc
          listed (listed (names ++ [name])) = listed ((listed names ++ [first]) ++ more) := by
            rw [whole]
          _ = ((requested more).flatMap expand).foldl addVariant (listed (names ++ [name])) := by
            rw [listed_append, again]
          _ = listed (names ++ [name]) := by
            refine addVariants_of_mem _ fun v within => ?_
            obtain ⟨w, request, within⟩ := List.mem_flatMap.mp within
            refine mem_listed_of_mem_expand ?_ within
            rw [whole]
            exact List.mem_append_right _ (List.mem_of_mem_filter request)

theorem posix_mem_listed {names : List Text} :
    posix ∈ listed names ↔ ∃ name ∈ names, name ≠ posix ∧ posix ∈ expand name := by
  rw [mem_listed]
  constructor
  · rintro ⟨-, name, given, ⟨-, other⟩, within⟩
    exact ⟨name, given, other, within⟩
  · rintro ⟨name, given, other, within⟩
    refine ⟨by decide, name, given, ⟨?_, other⟩, within⟩
    rintro rfl
    exact absurd within (by decide)

theorem OwesNoPosix.of_not_mem {names : List Text} (absent : posix ∉ listed names) :
    OwesNoPosix names := by
  rintro front name back rfl other only
  refine absurd (posix_mem_listed.mpr ⟨name, ?_, other, ?_⟩) absent
  · exact List.mem_append_right front List.mem_cons_self
  · rw [only]
    exact List.mem_singleton_self posix

/-- Names behind a list that holds no first variant of theirs add the first of them next. -/
theorem exists_listed_append {names others : List Text} {v : Text} {rest : List Text}
    (first : requested others = v :: rest) (own : (expand v).head? = some v) (plain : v ≠ neutral)
    (new : v ∉ listed names) : ∃ more, listed (names ++ others) = listed names ++ v :: more := by
  obtain ⟨behind, cut⟩ := List.head?_eq_some_iff.mp own
  obtain ⟨more, added, -⟩ :=
    exists_addVariants (behind ++ rest.flatMap expand) (listed names ++ [v])
  refine ⟨more, ?_⟩
  rw [listed_append, first, List.flatMap_cons, cut, List.cons_append, List.foldl_cons,
    addVariant_of_not_mem plain new, added, List.append_assoc]
  rfl

/-- `POSIX` that is owed to a codeset is not in its place when the names are listed again. -/
theorem listed_listed_ne {front back : List Text} {name : Text} (other : name ≠ posix)
    (only : expand name = [posix]) (new : posix ∉ listed front) :
    listed (listed (front ++ name :: back)) ≠ listed (front ++ name :: back) := by
  intro fixed
  have other' : name ≠ neutral := by
    rintro rfl
    exact absurd only (by decide)
  have step : listed (front ++ [name]) = listed front ++ [posix] := by
    rw [listed_concat _ other' other, only]
    exact addVariant_of_not_mem (by decide) new
  obtain ⟨more, added, -⟩ :=
    exists_addVariants ((requested back).flatMap expand) (listed (front ++ [name]))
  have whole : listed (front ++ name :: back) = listed front ++ posix :: more := by
    rw [List.append_cons, listed_append, added, step, List.append_assoc]
    rfl
  have kept := listed_listed (OwesNoPosix.of_not_mem new)
  have skipped : requested (posix :: more) = requested more := by
    simp [requested]
  rw [whole] at fixed
  cases request : requested (posix :: more) with
  | nil =>
    rw [listed_append, request, kept] at fixed
    simp at fixed
  | cons v rest =>
    have given : v ∈ requested more := by
      rw [← skipped, request]
      exact List.mem_cons_self
    obtain ⟨given, named⟩ := List.mem_filter.mp given
    have within : v ∈ listed (front ++ name :: back) := by
      rw [whole]
      exact List.mem_append_right _ (List.mem_cons_of_mem _ given)
    have apart : v ∉ listed front := by
      have once := nodup_listed (front ++ name :: back)
      rw [whole] at once
      intro old
      exact (List.nodup_append.mp once).2.2 v old v (List.mem_cons_of_mem _ given) rfl
    obtain ⟨more', next⟩ := exists_listed_append request (head?_expand_of_mem_listed within)
      (mem_listed.mp within).1 (by rwa [kept])
    rw [next, kept] at fixed
    have same : v = posix := (List.cons.inj (List.append_cancel_left fixed)).1
    simp [same] at named

/-- Names that are listed list themselves exactly if they owe `POSIX` to no codeset. -/
theorem listed_listed_iff (names : List Text) :
    listed (listed names) = listed names ↔ OwesNoPosix names := by
  constructor
  · rintro fixed front name back rfl other only
    by_contra new
    exact listed_listed_ne other only new fixed
  · exact listed_listed

theorem normalize_normalize (names : List Text) :
    normalize (normalize names) = listed (listed names) ++ [neutral] := by
  rw [normalize_eq, normalize_eq, listed_concat_pseudo _ (.inl rfl)]

/-- A list of names is normalized to the variants of those that are no pseudo-locales, once each
and where they occur first, with the neutral locale behind them. `POSIX` is among them exactly if
its language is that of a name other than itself. To normalize the result changes nothing exactly
if no name is `POSIX` with a codeset that brings `POSIX` in. -/
theorem normalize_normal_iff (names : List Text) :
    normalize names =
        (((requested names).flatMap expand).filter (· ≠ neutral)).eraseDups ++ [neutral] ∧
      (normalize names).Nodup ∧
      (posix ∈ normalize names ↔
        ∃ name ∈ names, name ≠ posix ∧ ∃ l, parse? name = some l ∧ l.language = posix) ∧
      (normalize (normalize names) = normalize names ↔ ∀ front name back,
        names = front ++ name :: back → name ≠ posix → parse? name = some ⟨posix, none, none⟩ →
          posix ∈ normalize front) := by
  have listing : ∀ given, posix ∈ normalize given ↔ posix ∈ listed given := by
    intro given
    rw [normalize_eq, List.mem_append, or_iff_left (by decide)]
  refine ⟨by rw [normalize_eq, listed_eq], ?_, ?_, ?_⟩
  · rw [normalize_eq]
    refine List.nodup_append.mpr ⟨nodup_listed names, List.nodup_singleton _, ?_⟩
    intro v within w single same
    rw [List.mem_singleton.mp single] at same
    exact (mem_listed.mp within).1 same
  · simp only [listing, posix_mem_listed, language_mem_expand language_posix]
  · rw [normalize_normalize, normalize_eq, List.append_left_inj, listed_listed_iff]
    simp only [OwesNoPosix, listing, expand_eq_language language_posix]

/-- A codeset brings `POSIX` in, and it is gone when the names are normalized again. -/
theorem not_normal_posix_codeset :
    posix ∈ normalize ["POSIX.UTF-8"] ∧
      normalize (normalize ["POSIX.UTF-8"]) ≠ normalize ["POSIX.UTF-8"] := by
  obtain ⟨-, -, listing, again⟩ := normalize_normal_iff ["POSIX.UTF-8"]
  have read : parse? "POSIX.UTF-8" = some ⟨posix, none, none⟩ := by decide
  refine ⟨listing.mpr ⟨_, List.mem_singleton_self _, by decide, _, read, rfl⟩, fun fixed => ?_⟩
  have early : posix ∈ normalize [] := again.mp fixed [] _ [] rfl (by decide) read
  exact absurd early (by decide)

end Locale

end FileProfile
