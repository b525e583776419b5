import FileProfile.Identity
import FileProfile.Proofs.Text.Cutting

/-!
Absolute paths in normal form.

A normal path is `ofComponents cs` where every component is one: not empty, neither of the two dots,
and without a slash. Resolving always gives a normal path (`resolve_normal`) and leaves one alone
(`resolve_of_isNormal`). The entry called `name` beside a normal path is again normal, and its last
component is `name` (`Identity.exists_sibling`, `baseName_ofComponents`).
-/

namespace FileProfile

namespace Path

/-! ## Components -/

/-- A name that can stand between two slashes of a normal path. -/
structure IsComponent (c : Text) : Prop where
  nonempty : c ≠ []
  notHere : c ≠ here
  notAbove : c ≠ above
  noSeparator : separator ∉ c

theorem components_append (a b : Text) :
    components (a ++ separator :: b) = components a ++ components b := by
  unfold components
  rw [Text.splitAt_append_cons, List.filter_append]

theorem components_nil : components [] = [] := by decide

theorem components_of_isComponent {c : Text} (h : IsComponent c) : components c = [c] := by
  unfold components
  rw [Text.splitAt_of_not_mem h.noSeparator]
  simp [h.nonempty, h.notHere]

theorem components_join {cs : List Text} (all : ∀ c ∈ cs, IsComponent c) :
    components (Text.join [separator] cs) = cs := by
  induction cs with
  | nil => exact components_nil
  | cons c rest ih =>
    have first := components_of_isComponent (all c List.mem_cons_self)
    cases rest with
    | nil => simpa [Text.join] using first
    | cons d more =>
      have others := ih fun c h => all c (List.mem_cons_of_mem _ h)
      have spread : Text.join [separator] (c :: d :: more) =
          c ++ separator :: Text.join [separator] (d :: more) := by
        simp [Text.join, List.intercalate_cons_cons]
      rw [spread, components_append, first, others]
      rfl

theorem components_ofComponents {cs : List Text} (all : ∀ c ∈ cs, IsComponent c) :
    components (ofComponents cs) = cs := by
  have spread : ofComponents cs = [] ++ separator :: Text.join [separator] cs := rfl
  rw [spread, components_append, components_nil, components_join all]
  rfl

theorem foldl_pushComponent {cs : List Text} (all : ∀ c ∈ cs, IsComponent c) (mayClimb : Bool)
    (stack : List Text) : cs.foldl (pushComponent mayClimb) stack = cs.reverse ++ stack := by
  induction cs generalizing stack with
  | nil => rfl
  | cons c rest ih =>
    have pushed : pushComponent mayClimb stack c = c :: stack := by
      unfold pushComponent
      rw [if_neg (all c List.mem_cons_self).notAbove]
    rw [List.foldl_cons, pushed, ih fun c h => all c (List.mem_cons_of_mem _ h)]
    simp

theorem normalComponents_of_components {p : Text} {cs : List Text} (all : ∀ c ∈ cs, IsComponent c)
    (h : components p = cs) (mayClimb : Bool) : normalComponents mayClimb p = cs := by
  rw [normalComponents, h, foldl_pushComponent all]
  simp

/-- Where a path must not climb, a step of normalising keeps the stack free of dots. -/
theorem pushComponent_isComponent {stack : List Text} (all : ∀ c ∈ stack, IsComponent c) {c : Text}
    (counts : c ≠ [] ∧ c ≠ here) (noSeparator : separator ∉ c) :
    ∀ d ∈ pushComponent false stack c, IsComponent d := by
  intro d stands
  unfold pushComponent at stands
  split at stands
  · cases stack with
    | nil => exact absurd stands List.not_mem_nil
    | cons top rest =>
      have settled := (all top List.mem_cons_self).notAbove
      simp only [settled, if_false] at stands
      exact all d (List.mem_cons_of_mem _ stands)
  · next proper =>
    rcases List.mem_cons.mp stands with rfl | below
    · exact ⟨counts.1, counts.2, proper, noSeparator⟩
    · exact all d below

theorem normalComponents_isComponent (p : Text) :
    ∀ c ∈ normalComponents false p, IsComponent c := by
  have fold : ∀ (cs stack : List Text),
      (∀ c ∈ cs, (c ≠ [] ∧ c ≠ here) ∧ separator ∉ c) → (∀ c ∈ stack, IsComponent c) →
      ∀ c ∈ cs.foldl (pushComponent false) stack, IsComponent c := by
    intro cs
    induction cs with
    | nil => exact fun stack _ all => all
    | cons c rest ih =>
      intro stack parts all
      have first := parts c List.mem_cons_self
      exact ih _ (fun d h => parts d (List.mem_cons_of_mem _ h))
        (pushComponent_isComponent all first.1 first.2)
  intro c stands
  rw [normalComponents, List.mem_reverse] at stands
  refine fold _ [] (fun d h => ?_) (fun d h => absurd h List.not_mem_nil) c stands
  rw [components, List.mem_filter] at h
  exact ⟨by simpa using h.2, Text.not_mem_of_mem_splitAt h.1⟩

/-! ## Resolving -/

/-- A path in the form that resolving gives. -/
def IsNormal (p : Text) : Prop := ∃ cs, (∀ c ∈ cs, IsComponent c) ∧ p = ofComponents cs

theorem resolve_normal (base p : Text) : IsNormal (resolve base p) :=
  ⟨_, normalComponents_isComponent _, rfl⟩

/-- A normal path resolves to itself, wherever relative paths start. -/
theorem resolve_of_isNormal {p : Text} (normal : IsNormal p) (base : Text) :
    resolve base p = p := by
  obtain ⟨cs, all, rfl⟩ := normal
  have absolute : isAbsolute (ofComponents cs) = true := by simp [isAbsolute, ofComponents]
  rw [resolve, if_pos absolute,
    normalComponents_of_components all (components_ofComponents all)]

/-! ## The last component -/

/-- A path that ends in a component, and what stands before it. -/
theorem ofComponents_concat (cs : List Text) (c : Text) :
    ofComponents (cs ++ [c]) = (if cs = [] then [] else ofComponents cs) ++ separator :: c := by
  induction cs with
  | nil => simp [ofComponents, Text.join]
  | cons d rest ih =>
    cases rest with
    | nil => simp [ofComponents, Text.join, List.intercalate_cons_cons]
    | cons e more =>
      simp only [ofComponents, Text.join, List.cons_append, List.intercalate_cons_cons,
        reduceCtorEq, if_false] at ih ⊢
      simp [ih]

theorem IsComponent.unclosed {c : Text} (h : IsComponent c) : c.getLast? ≠ some separator :=
  fun last => h.noSeparator (List.mem_of_getLast? last)

theorem getLast?_ne_separator {c : Text} (h : IsComponent c) (before : Text) :
    (before ++ separator :: c).getLast? ≠ some separator := by
  intro closing
  rw [List.append_cons, List.getLast?_append, Option.or_eq_some_iff] at closing
  rcases closing with last | ⟨none, -⟩
  · exact h.unclosed last
  · exact h.nonempty (List.getLast?_eq_none_iff.mp none)

theorem dropWhile_reverse {p : Text} (unclosed : p.getLast? ≠ some separator) :
    (p.reverse.dropWhile fun u => u = separator) = p.reverse := by
  refine Text.dropWhile_eq_self fun u first same => unclosed ?_
  rw [List.head?_reverse] at first
  rw [Option.mem_def.mp first, of_decide_eq_true same]

theorem baseName_append {c : Text} (h : IsComponent c) (before : Text) :
    baseName (before ++ separator :: c) = c := by
  rw [baseName, dropWhile_reverse (getLast?_ne_separator h before),
    (Text.cut_at_last before h.noSeparator).1, List.reverse_reverse]

theorem throughLastSlash_append {c : Text} (h : IsComponent c) (before : Text) :
    throughLastSlash (before ++ separator :: c) = before ++ [separator] := by
  rw [throughLastSlash, dropWhile_reverse (getLast?_ne_separator h before),
    (Text.cut_at_last before h.noSeparator).2, List.reverse_cons, List.reverse_reverse]

theorem baseName_ofComponents (cs : List Text) {c : Text} (h : IsComponent c) :
    baseName (ofComponents (cs ++ [c])) = c := by
  rw [ofComponents_concat, baseName_append h]

theorem two_le_length_ofComponents {cs : List Text} (all : ∀ c ∈ cs, IsComponent c)
    (some : cs ≠ []) : 2 ≤ (ofComponents cs).length := by
  cases cs with
  | nil => exact absurd rfl some
  | cons c rest =>
    have long : 0 < c.length := List.length_pos_iff.mpr (all c List.mem_cons_self).nonempty
    cases rest with
    | nil =>
      simp only [ofComponents, Text.join, List.intercalate_singleton, List.length_cons]
      omega
    | cons d more =>
      simp only [ofComponents, Text.join, List.intercalate_cons_cons, List.length_cons,
        List.length_append]
      omega

theorem parent_ofComponents {cs : List Text} (all : ∀ c ∈ cs, IsComponent c) {c : Text}
    (h : IsComponent c) : parent (ofComponents (cs ++ [c])) = ofComponents cs := by
  have through := throughLastSlash_append h (if cs = [] then [] else ofComponents cs)
  rw [← ofComponents_concat] at through
  unfold parent
  rw [through]
  by_cases top : cs = []
  · subst top
    simp [isAbsolute, ofComponents, Text.join]
  · have long := two_le_length_ofComponents all top
    rw [if_neg top]
    simp only [List.length_append, List.length_singleton]
    rw [if_neg (by omega), if_neg (by omega), List.dropLast_concat]

theorem parent_root : parent (ofComponents []) = ofComponents [] := by decide

/-! ## Entries of a directory -/

/-- The entry called `name` of a directory. -/
theorem join_ofComponents {cs : List Text} (all : ∀ c ∈ cs, IsComponent c) {name : Text}
    (h : IsComponent name) : join (ofComponents cs) name = ofComponents (cs ++ [name]) := by
  have given : ofComponents cs ≠ [] := by simp [ofComponents]
  have extended : ∀ c ∈ cs ++ [name], IsComponent c := by
    intro c stands
    rcases List.mem_append.mp stands with old | new
    · exact all c old
    · rw [List.mem_singleton.mp new]
      exact h
  have parts : components (ofComponents cs ++ separator :: name) = cs ++ [name] := by
    rw [components_append, components_ofComponents all, components_of_isComponent h]
  have absolute : isAbsolute (ofComponents cs ++ separator :: name) = true := by
    simp [isAbsolute, ofComponents]
  have unclosed := getLast?_ne_separator h (ofComponents cs)
  rw [join, if_neg given, if_neg h.nonempty, normalize]
  simp only [absolute, if_neg unclosed, normalComponents_of_components extended parts]
  cases shape : cs ++ [name] with
  | nil => simp at shape
  | cons c rest => simp

theorem baseName_of_isComponent {c : Text} (h : IsComponent c) : baseName c = c := by
  have plain := Text.ne_of_not_mem (mt List.mem_reverse.mp h.noSeparator)
  rw [baseName, dropWhile_reverse h.unclosed, List.takeWhile_eq_self_iff.mpr plain,
    List.reverse_reverse]

/-- Every path in normal form but the root is that of an entry of a directory. -/
theorem IsNormal.exists_entry {p : Text} (normal : IsNormal p) (below : p ≠ [separator]) :
    ∃ cs c, (∀ d ∈ cs, IsComponent d) ∧ IsComponent c ∧ p = ofComponents (cs ++ [c]) := by
  obtain ⟨cs, all, rfl⟩ := normal
  rcases List.eq_nil_or_concat cs with rfl | ⟨ds, c, rfl⟩
  · exact absurd rfl below
  · rw [List.concat_eq_append] at all ⊢
    exact ⟨ds, c, fun d stands => all d (by simp [stands]), all c (by simp), rfl⟩

theorem IsNormal.isComponent_baseName {p : Text} (normal : IsNormal p) (below : p ≠ [separator]) :
    IsComponent (baseName p) := by
  obtain ⟨cs, c, -, own, rfl⟩ := normal.exists_entry below
  rw [baseName_ofComponents cs own]
  exact own

end Path

/-- The sibling of an identity in normal form called `name`: a normal path with the same parent and
`name` as its last component. -/
theorem Identity.exists_sibling {i : Identity} (normal : Path.IsNormal i.path) {name : Text}
    (h : Path.IsComponent name) : Path.IsNormal (i.sibling name).path ∧
      Path.parent (i.sibling name).path = Path.parent i.path ∧
      (i.sibling name).displayName = name := by
  obtain ⟨cs, all, shape⟩ := normal
  have inside : ∃ ds, (∀ c ∈ ds, Path.IsComponent c) ∧
      Path.parent i.path = Path.ofComponents ds := by
    rcases List.eq_nil_or_concat cs with rfl | ⟨ds, c, rfl⟩
    · exact ⟨[], all, by rw [shape, Path.parent_root]⟩
    · refine ⟨ds, fun d hd => all d (by simp [hd]), ?_⟩
      rw [shape, List.concat_eq_append,
        Path.parent_ofComponents (fun d hd => all d (by simp [hd])) (all c (by simp))]
  obtain ⟨ds, within, directory⟩ := inside
  have path : (i.sibling name).path = Path.ofComponents (ds ++ [name]) := by
    rw [Identity.sibling, directory, Path.join_ofComponents within h]
  refine ⟨⟨_, ?_, path⟩, ?_, ?_⟩
  · intro c stands
    rcases List.mem_append.mp stands with old | new
    · exact within c old
    · rw [List.mem_singleton.mp new]
      exact h
  · rw [path, Path.parent_ofComponents within h, directory]
  · rw [Identity.displayName, path, Path.baseName_ofComponents ds h]
    simp [h.nonempty]

/-- A sibling has the identity itself as its sibling of that name. -/
theorem Identity.sibling_sibling {i : Identity} (normal : Path.IsNormal i.path)
    (below : i.path ≠ [Path.separator]) {name : Text} (h : Path.IsComponent name) :
    (i.sibling name).sibling (Path.baseName i.path) = i := by
  obtain ⟨cs, c, all, own, shape⟩ := normal.exists_entry below
  obtain ⟨-, beside, -⟩ := exists_sibling normal h
  have back : Path.join (Path.parent i.path) (Path.baseName i.path) = i.path := by
    rw [shape, Path.parent_ofComponents all own, Path.baseName_ofComponents cs own,
      Path.join_ofComponents all own]
  rw [Identity.sibling, beside, back]

end FileProfile
