import FileProfile.ContentType.Ancestry
import Mathlib.Logic.Relation
import Mathlib.Order.Lattice.Nat

/-!
The ancestors of a content type.

Whatever the rules say, be they cyclic or not, the search for the ancestors of a type ends. It lists
all types that are reached in any number of steps, each once and the nearest first, exactly if none
of them has the key of something that every record inherits (`listsAncestors_ancestors`). The front
of the queue is looked at like a level (`search_append`): what has been found after `n` levels is
what is reached in `n` steps (`Climbed`), and a level that adds nothing is the last one.
-/

namespace FileProfile

namespace Rules

/-! ## Names not seen before -/

theorem mem_of_mem_fresh {name : TypeName} {seen names : List TypeName}
    (h : name ∈ fresh seen names) : name ∈ names ∧ name ∉ seen := by
  induction names generalizing seen with
  | nil => exact absurd h List.not_mem_nil
  | cons first rest ih =>
    unfold fresh at h
    split at h
    · exact ⟨List.mem_cons_of_mem _ (ih h).1, (ih h).2⟩
    · next unseen =>
      rcases List.mem_cons.mp h with rfl | later
      · exact ⟨List.mem_cons_self, unseen⟩
      · exact ⟨List.mem_cons_of_mem _ (ih later).1,
          fun h => (ih later).2 (List.mem_cons_of_mem _ h)⟩

theorem mem_fresh_iff {name : TypeName} {seen names : List TypeName} :
    name ∈ fresh seen names ↔ name ∈ names ∧ name ∉ seen := by
  refine ⟨mem_of_mem_fresh, ?_⟩
  rintro ⟨among, unseen⟩
  induction names generalizing seen with
  | nil => exact absurd among List.not_mem_nil
  | cons first rest ih =>
    unfold fresh
    split
    · next known =>
      have later : name ∈ rest := by
        rcases List.mem_cons.mp among with rfl | later
        · exact absurd known unseen
        · exact later
      exact ih later unseen
    · by_cases same : name = first
      · rw [same]
        exact List.mem_cons_self
      · refine List.mem_cons_of_mem _ (ih (List.mem_of_ne_of_mem same among) ?_)
        intro known
        exact unseen (List.mem_of_ne_of_mem same known)

theorem nodup_fresh (seen names : List TypeName) : (fresh seen names).Nodup := by
  induction names generalizing seen with
  | nil => exact List.nodup_nil
  | cons first rest ih =>
    unfold fresh
    split
    · exact ih seen
    · refine List.nodup_cons.mpr ⟨?_, ih (first :: seen)⟩
      intro again
      exact (mem_fresh_iff.mp again).2 List.mem_cons_self

/-- Only what is among the names seen counts, not how they are listed. -/
theorem fresh_congr {seen seen' : List TypeName} (same : ∀ x, x ∈ seen ↔ x ∈ seen')
    (names : List TypeName) : fresh seen names = fresh seen' names := by
  induction names generalizing seen seen' with
  | nil => rfl
  | cons first rest ih =>
    have more : ∀ x, x ∈ first :: seen ↔ x ∈ first :: seen' := fun x => by
      rw [List.mem_cons, List.mem_cons, same]
    unfold fresh
    rw [ih same, ih more, if_congr (same first) rfl rfl]

theorem fresh_append (seen a b : List TypeName) :
    fresh seen (a ++ b) = fresh seen a ++ fresh (seen ++ fresh seen a) b := by
  induction a generalizing seen with
  | nil => rw [List.nil_append, fresh, List.append_nil, List.nil_append]
  | cons first rest ih =>
    rw [List.cons_append, fresh, fresh]
    split
    · exact ih seen
    · have moved : ∀ x, x ∈ first :: seen ++ fresh (first :: seen) rest ↔
          x ∈ seen ++ first :: fresh (first :: seen) rest := fun x => by
        simp only [List.cons_append, List.mem_cons, List.mem_append]
        exact or_left_comm
      rw [ih, fresh_congr moved, List.cons_append]

/-! ## Distances -/

/-- What the rules say of a type and one that it is a special case of. -/
inductive IsParent (r : Rules) : TypeName → TypeName → Prop where
  | listed {child : TypeName} {p : Text} {ps : List Text} :
      r.subclasses.get? child.spelled = some ps → p ∈ ps → IsParent r child (.text p)
  | text {child : Text} : r.subclasses.get? child = none → ("text/" : Text) <+: child →
      child ≠ ContentType.plainText → IsParent r (.text child) (.text ContentType.plainText)

/-- The direct parents of a type, none where the rules have something else than a list. -/
def knownParents (r : Rules) (name : TypeName) : List TypeName := (r.parents name).toOption.getD []

theorem not_prefix_of_mem_inheritedKeys {key : Text} (known : key ∈ inheritedKeys) :
    ¬ ("text/" : Text) <+: key := by
  have none : ∀ k ∈ inheritedKeys, ("text/" : Text).isPrefixOf k = false := by decide
  intro begins
  rw [← List.isPrefixOf_iff_prefix, none key known] at begins
  cases begins

theorem mem_knownParents_iff {r : Rules} {child p : TypeName} :
    p ∈ r.knownParents child ↔ r.IsParent child p := by
  unfold knownParents parents
  constructor
  · intro parent
    split at parent
    · next ps found =>
      obtain ⟨t, among, rfl⟩ := List.mem_map.mp parent
      exact .listed (Table.property_eq_listed.mp found) among
    · exact absurd parent List.not_mem_nil
    · next missing =>
      cases child with
      | inherited key => exact absurd parent List.not_mem_nil
      | text t =>
        have unlisted := Table.get?_eq_none_of_missing missing
        dsimp only at parent
        split at parent
        · next applies =>
          rw [List.mem_singleton.mp parent]
          exact .text unlisted (List.isPrefixOf_iff_prefix.mp applies.1) applies.2
        · exact absurd parent List.not_mem_nil
  · rintro (⟨found, among⟩ | ⟨unlisted, begins, other⟩)
    · rw [Table.property_eq_listed.mpr found]
      exact List.mem_map_of_mem among
    · rw [TypeName.spelled_text, Table.property_of_unknown unlisted fun known =>
        not_prefix_of_mem_inheritedKeys known begins]
      simp only [if_pos (show _ ∧ _ from ⟨List.isPrefixOf_iff_prefix.mpr begins, other⟩)]
      exact List.mem_singleton.mpr rfl

/-- The parents of a text cannot be listed exactly if the rules inherit something in their place. -/
theorem parents_eq_error_iff {r : Rules} {t : Text} {e : Failure} :
    r.parents (.text t) = .error e ↔ r.subclasses.Inherits t ∧ e = parentless := by
  unfold parents
  rw [TypeName.spelled_text]
  split
  · next ps found =>
    refine ⟨nofun, fun ⟨⟨unlisted, _⟩, _⟩ => ?_⟩
    rw [Table.property_eq_listed.mp found] at unlisted
    cases unlisted
  · next key found =>
    have inherits := Table.inherits_of_property found
    exact ⟨fun same => ⟨inherits, (Except.error.inj same).symm⟩, fun ⟨_, same⟩ => by rw [same]⟩
  · next missing =>
    refine ⟨fun fails => ?_, fun ⟨inherits, _⟩ => ?_⟩
    · dsimp only at fails
      split at fails <;> cases fails
    · rw [Table.property_of_inherits inherits] at missing
      cases missing

/-- A type is reached from another in a number of steps. -/
inductive Ascends (r : Rules) (a : TypeName) : Nat → TypeName → Prop where
  | here : Ascends r a 0 a
  | step {n : Nat} {b c : TypeName} : Ascends r a n b → r.IsParent b c → Ascends r a (n + 1) c

theorem reflTransGen_iff {r : Rules} {a b : TypeName} :
    Relation.ReflTransGen r.IsParent a b ↔ ∃ n, r.Ascends a n b := by
  constructor
  · intro reached
    induction reached with
    | refl => exact ⟨0, .here⟩
    | tail _ parent ih =>
      obtain ⟨n, ascends⟩ := ih
      exact ⟨n + 1, ascends.step parent⟩
  · rintro ⟨n, ascends⟩
    induction ascends with
    | here => exact .refl
    | step _ parent ih => exact ih.tail parent

/-- The number of steps of a shortest way. -/
noncomputable def distance (r : Rules) (a b : TypeName) : Nat := sInf {n | r.Ascends a n b}

section

variable {r : Rules} {a b c : TypeName} {n : Nat}

theorem Ascends.distance_le (ascends : r.Ascends a n b) : r.distance a b ≤ n := Nat.sInf_le ascends

theorem Ascends.shortest (ascends : r.Ascends a n b) : r.Ascends a (r.distance a b) b :=
  Nat.sInf_mem (s := {n | r.Ascends a n b}) ⟨n, ascends⟩

theorem Ascends.of_distance {m : Nat} (ascends : r.Ascends a m b) (far : r.distance a b = n) :
    r.Ascends a n b := by
  rw [← far]
  exact ascends.shortest

theorem distance_self : r.distance a a = 0 := Nat.le_zero.mp Ascends.here.distance_le

/-- A shortest way to a type leads over a parent's shortest way. -/
theorem Ascends.exists_before (ascends : r.Ascends a (n + 1) c) (far : r.distance a c = n + 1) :
    ∃ b, r.Ascends a n b ∧ r.distance a b = n ∧ r.IsParent b c := by
  cases ascends with
  | @step _ b _ before parent =>
    refine ⟨b, before, Nat.le_antisymm before.distance_le ?_, parent⟩
    have shorter := (before.shortest.step parent).distance_le
    rw [far] at shorter
    exact Nat.le_of_succ_le_succ shorter

end

/-- What is reached from a text is a text. -/
theorem exists_text_of_reached {r : Rules} {a : Text} {b : TypeName}
    (reached : Relation.ReflTransGen r.IsParent (.text a) b) : ∃ t : Text, b = .text t := by
  induction reached with
  | refl => exact ⟨a, rfl⟩
  | tail _ parent _ => cases parent with
    | listed found among => exact ⟨_, rfl⟩
    | text unlisted begins other => exact ⟨_, rfl⟩

/-! ## Levels -/

/-- The parents of the names in `frontier` that are not among `seen`, each once. -/
def nextLevel (r : Rules) (seen frontier : List TypeName) : List TypeName :=
  fresh seen (frontier.flatMap r.knownParents)

theorem unseenCount_nextLevel_lt {r : Rules} {seen frontier : List TypeName}
    (more : r.nextLevel seen frontier ≠ []) :
    r.unseenCount (seen ++ r.nextLevel seen frontier) < r.unseenCount seen := by
  have parents : ∀ p ∈ frontier.flatMap r.knownParents, p ∈ r.parentNames := by
    intro p among
    obtain ⟨child, _, parent⟩ := List.mem_flatMap.mp among
    unfold knownParents at parent
    cases told : r.parents child with
    | ok ps =>
      rw [told] at parent
      exact mem_parentNames told parent
    | error e =>
      rw [told] at parent
      exact absurd parent List.not_mem_nil
  have bound := r.unseenCount_append_fresh_le seen parents
  have some := List.length_pos_of_ne_nil more
  unfold nextLevel at some ⊢
  omega

/-- After `n` levels `seen` holds what is reached in up to `n` steps, and `frontier` what is reached
in no fewer. -/
structure Climbed (r : Rules) (start : TypeName) (n : Nat) (seen frontier : List TypeName) :
    Prop where
  head : seen.head? = some start
  nodup : seen.Nodup
  seen_iff : ∀ b, b ∈ seen ↔ ∃ m, m ≤ n ∧ r.Ascends start m b
  frontier_iff : ∀ b, b ∈ frontier ↔ r.Ascends start n b ∧ r.distance start b = n
  nearest_first : seen.Pairwise fun b c => r.distance start b ≤ r.distance start c

namespace Climbed

variable {r : Rules} {start : TypeName} {n : Nat} {seen frontier : List TypeName}

theorem init : Climbed r start 0 [start] [start] where
  head := rfl
  nodup := List.nodup_singleton start
  seen_iff b := by
    rw [List.mem_singleton]
    constructor
    · rintro rfl
      exact ⟨0, Nat.le_refl 0, .here⟩
    · rintro ⟨m, none, ascends⟩
      obtain rfl := Nat.le_zero.mp none
      cases ascends
      rfl
  frontier_iff b := by
    rw [List.mem_singleton]
    constructor
    · rintro rfl
      exact ⟨.here, distance_self⟩
    · rintro ⟨ascends, -⟩
      cases ascends
      rfl
  nearest_first := List.pairwise_singleton _ _

theorem distance_le (climbed : Climbed r start n seen frontier) {b : TypeName} (among : b ∈ seen) :
    r.distance start b ≤ n := by
  obtain ⟨m, bound, ascends⟩ := (climbed.seen_iff b).mp among
  exact Nat.le_trans ascends.distance_le bound

/-- What the next level adds is one step further away. -/
theorem mem_nextLevel_iff (climbed : Climbed r start n seen frontier) (c : TypeName) :
    c ∈ r.nextLevel seen frontier ↔ r.Ascends start (n + 1) c ∧ r.distance start c = n + 1 := by
  rw [nextLevel, mem_fresh_iff, List.mem_flatMap]
  constructor
  · rintro ⟨⟨b, last, parent⟩, unseen⟩
    have ascends := ((climbed.frontier_iff b).mp last).1.step (mem_knownParents_iff.mp parent)
    refine ⟨ascends, Nat.le_antisymm ascends.distance_le (Nat.lt_of_not_le ?_)⟩
    intro near
    exact unseen ((climbed.seen_iff c).mpr ⟨_, near, ascends.shortest⟩)
  · rintro ⟨ascends, far⟩
    obtain ⟨b, before, own, parent⟩ := ascends.exists_before far
    refine ⟨⟨b, (climbed.frontier_iff b).mpr ⟨before, own⟩, mem_knownParents_iff.mpr parent⟩, ?_⟩
    intro among
    have near := climbed.distance_le among
    rw [far] at near
    exact Nat.not_succ_le_self n near

theorem next (climbed : Climbed r start n seen frontier) :
    Climbed r start (n + 1) (seen ++ r.nextLevel seen frontier) (r.nextLevel seen frontier) where
  head := by rw [List.head?_append, climbed.head, Option.some_or]
  nodup := by
    refine List.nodup_append.mpr ⟨climbed.nodup, nodup_fresh _ _, ?_⟩
    rintro b among _ added rfl
    exact (mem_fresh_iff.mp added).2 among
  seen_iff b := by
    rw [List.mem_append, climbed.mem_nextLevel_iff, climbed.seen_iff]
    constructor
    · rintro (⟨m, bound, ascends⟩ | ⟨ascends, -⟩)
      · exact ⟨m, Nat.le_succ_of_le bound, ascends⟩
      · exact ⟨n + 1, Nat.le_refl _, ascends⟩
    · rintro ⟨m, bound, ascends⟩
      rcases Nat.lt_or_eq_of_le (Nat.le_trans ascends.distance_le bound) with near | far
      · exact .inl ⟨_, Nat.le_of_lt_succ near, ascends.shortest⟩
      · exact .inr ⟨ascends.of_distance far, far⟩
  frontier_iff := climbed.mem_nextLevel_iff
  nearest_first := by
    refine List.pairwise_append.mpr ⟨climbed.nearest_first, ?_, ?_⟩
    · refine List.pairwise_of_forall_mem_list fun b first c second => ?_
      rw [((climbed.mem_nextLevel_iff b).mp first).2, ((climbed.mem_nextLevel_iff c).mp second).2]
    · intro b among c added
      rw [((climbed.mem_nextLevel_iff c).mp added).2]
      exact Nat.le_succ_of_le (climbed.distance_le among)

/-- Where a level adds nothing, all that is reached has been seen. -/
theorem mem_seen_iff (climbed : Climbed r start n seen frontier)
    (ended : r.nextLevel seen frontier = []) (b : TypeName) :
    b ∈ seen ↔ Relation.ReflTransGen r.IsParent start b := by
  constructor
  · intro among
    obtain ⟨m, -, ascends⟩ := (climbed.seen_iff b).mp among
    exact reflTransGen_iff.mpr ⟨m, ascends⟩
  · intro reached
    induction reached with
    | refl => exact (climbed.seen_iff start).mpr ⟨0, Nat.zero_le n, .here⟩
    | @tail b c _ parent ih =>
      obtain ⟨m, bound, ascends⟩ := (climbed.seen_iff b).mp ih
      have after := ascends.step parent
      rcases Nat.lt_or_eq_of_le (Nat.le_trans after.distance_le (Nat.succ_le_succ bound)) with
        near | far
      · exact (climbed.seen_iff c).mpr ⟨_, Nat.le_of_lt_succ near, after.shortest⟩
      · have added := (climbed.mem_nextLevel_iff c).mpr ⟨after.of_distance far, far⟩
        rw [ended] at added
        exact absurd added List.not_mem_nil

end Climbed

/-- All types that are reached from `start`, each once, `start` first and nearer ones first. -/
structure ListsAncestors (r : Rules) (start : TypeName) (names : List TypeName) : Prop where
  head : names.head? = some start
  nodup : names.Nodup
  mem_iff : ∀ b, b ∈ names ↔ Relation.ReflTransGen r.IsParent start b
  nearest_first : names.Pairwise fun b c => r.distance start b ≤ r.distance start c

/-! ## The queue -/

section

variable {r : Rules}

/-- The front of a queue is looked at like a level, where the parents of all its types are known. -/
theorem search_append {found a : List TypeName} (b : List TypeName)
    (known : ∀ x ∈ a, ∃ ps, r.parents x = .ok ps) : r.search found (a ++ b) =
      r.search (found ++ r.nextLevel found a) (b ++ r.nextLevel found a) := by
  induction a generalizing found b with
  | nil =>
    rw [nextLevel, List.flatMap_nil, fresh, List.append_nil, List.append_nil, List.nil_append]
  | cons current rest ih =>
    obtain ⟨⟨ps, told⟩, later⟩ := List.forall_mem_cons.mp known
    have parents : r.knownParents current = ps := by rw [knownParents, told]; rfl
    have level : r.nextLevel found (current :: rest) =
        fresh found ps ++ r.nextLevel (found ++ fresh found ps) rest := by
      rw [nextLevel, List.flatMap_cons, fresh_append, parents]
      rfl
    rw [List.cons_append, search_cons told, List.append_assoc, ih _ later, level,
      List.append_assoc, List.append_assoc]

/-- The search ends with the first type in the queue whose parents are not known. -/
theorem search_unknown {found a : List TypeName} (b : List TypeName)
    (unknown : ¬ ∀ x ∈ a, ∃ ps, r.parents x = .ok ps) :
    ∃ x ∈ a, ∃ e, r.parents x = .error e ∧ r.search found (a ++ b) = .error e := by
  induction a generalizing found b with
  | nil => exact absurd (fun x absent => absurd absent List.not_mem_nil) unknown
  | cons current rest ih =>
    cases told : r.parents current with
    | error e => exact ⟨current, List.mem_cons_self, e, told, search_cons_error told⟩
    | ok ps =>
      have later : ¬ ∀ x ∈ rest, ∃ ps, r.parents x = .ok ps := fun known =>
        unknown (List.forall_mem_cons.mpr ⟨⟨ps, told⟩, known⟩)
      rw [List.cons_append, search_cons told, List.append_assoc]
      obtain ⟨x, among, e, fails, ends⟩ := @ih (found ++ fresh found ps) (b ++ fresh found ps) later
      exact ⟨x, List.mem_cons_of_mem _ among, e, fails, ends⟩

/-- From a level on, the search lists all that is reached, or comes to a type whose parents are not
known. -/
theorem Climbed.search_cases {start : TypeName} {n : Nat} {seen frontier : List TypeName}
    (climbed : Climbed r start n seen frontier)
    (known : ∀ b, r.Ascends start (r.distance start b) b → r.distance start b < n →
      ∃ ps, r.parents b = .ok ps) :
    (∃ names, r.search seen frontier = .ok names ∧ r.ListsAncestors start names ∧
      ∀ b ∈ names, ∃ ps, r.parents b = .ok ps) ∨
    ∃ b e, Relation.ReflTransGen r.IsParent start b ∧ r.parents b = .error e ∧
      r.search seen frontier = .error e := by
  -- With each level but the last there are fewer parent names that have not been seen.
  induction left : r.unseenCount seen using Nat.strongRecOn generalizing n seen frontier with
  | ind left ih =>
    subst left
    by_cases all : ∀ x ∈ frontier, ∃ ps, r.parents x = .ok ps
    · have level := @search_append r seen frontier [] all
      rw [List.append_nil, List.nil_append] at level
      have known' : ∀ b, r.Ascends start (r.distance start b) b → r.distance start b < n + 1 →
          ∃ ps, r.parents b = .ok ps := fun b ascends near => by
        rcases Nat.lt_or_eq_of_le (Nat.le_of_lt_succ near) with nearer | last
        · exact known b ascends nearer
        · exact all b ((climbed.frontier_iff b).mpr ⟨last ▸ ascends, last⟩)
      by_cases ended : r.nextLevel seen frontier = []
      · refine .inl ⟨seen, ?_, ⟨climbed.head, climbed.nodup, climbed.mem_seen_iff ended,
          climbed.nearest_first⟩, fun b among => ?_⟩
        · rw [level, ended, List.append_nil, search]
        · obtain ⟨m, -, ascends⟩ := (climbed.seen_iff b).mp among
          exact known' b ascends.shortest (Nat.lt_succ_of_le (climbed.distance_le among))
      · rw [level]
        exact ih _ (unseenCount_nextLevel_lt ended) climbed.next known' rfl
    · obtain ⟨b, among, e, fails, ends⟩ := @search_unknown r seen frontier [] all
      rw [List.append_nil] at ends
      have reached := reflTransGen_iff.mpr ⟨n, ((climbed.frontier_iff b).mp among).1⟩
      exact .inr ⟨b, e, reached, fails, ends⟩

end

/-- The ancestors of a type under its canonical name are listed exactly if the rules inherit nothing
in place of the parents of a type that is reached. Otherwise there is no list at all. -/
theorem listsAncestors_ancestors (r : Rules) {name : Text}
    (canonical : r.canonicalName name = .text name) :
    ((∃ names, r.ancestors name = .ok names ∧ r.ListsAncestors name names) ↔
      ∀ t : Text, Relation.ReflTransGen r.IsParent (.text name) (.text t) →
        ¬ r.subclasses.Inherits t) ∧
    ((∃ t : Text, Relation.ReflTransGen r.IsParent (.text name) (.text t) ∧
      r.subclasses.Inherits t) → r.ancestors name = .error parentless) := by
  have searches : r.ancestors name = r.search [.text name] [.text name] := by
    rw [ancestors, canonical_text, canonical]
    simp only [if_true]
  rw [searches]
  have first : Climbed r (.text name) 0 [.text name] [.text name] := .init
  rcases first.search_cases fun _ _ near => absurd near (Nat.not_lt_zero _) with
    ⟨names, finds, lists, known⟩ | ⟨b, e, reached, fails, ends⟩
  · have apart : ∀ t : Text, Relation.ReflTransGen r.IsParent (.text name) (.text t) →
        ¬ r.subclasses.Inherits t := by
      intro t reached inherits
      obtain ⟨ps, told⟩ := known _ ((lists.mem_iff _).mpr reached)
      rw [parents_eq_error_iff.mpr ⟨inherits, rfl⟩] at told
      cases told
    exact ⟨⟨fun _ => apart, fun _ => ⟨names, finds, lists⟩⟩,
      fun ⟨t, reached, inherits⟩ => absurd inherits (apart t reached)⟩
  · obtain ⟨t, rfl⟩ := exists_text_of_reached reached
    obtain ⟨inherits, rfl⟩ := parents_eq_error_iff.mp fails
    refine ⟨⟨fun ⟨names, finds, _⟩ => ?_, fun apart => absurd inherits (apart t reached)⟩,
      fun _ => ends⟩
    rw [ends] at finds
    cases finds

/-- Rules that go round in a circle, two ways of the same length leading to one type. -/
def circular : Rules where
  subclasses := [("text/a", ["text/a", "text/b", "text/c"]), ("text/b", ["text/d"]),
    ("text/c", ["text/d", "text/e"]), ("text/d", ["text/a"])]

example : circular.ancestors (.text "text/a") = .ok
    (["text/a", "text/b", "text/c", "text/d", "text/e", "text/plain"].map TypeName.text) := by
  decide +kernel

/-- Rules that name a parent like the function that makes records. -/
def constructed : Rules where
  subclasses := [("x/a", [constructorKey])]

/-- The parents of that parent are no list, and so no ancestors are listed. -/
theorem not_listsAncestors_constructed : constructed.canonicalName "x/a" = .text "x/a" ∧
    ¬ ∃ names, constructed.ancestors (.text "x/a") = .ok names ∧
      constructed.ListsAncestors (.text "x/a") names := by
  have canonical : constructed.canonicalName "x/a" = .text "x/a" := by decide
  have listed : constructed.subclasses.get? "x/a" = some [constructorKey] := by decide
  have parent : constructed.IsParent (.text "x/a") (.text constructorKey) :=
    .listed listed List.mem_cons_self
  refine ⟨canonical, fun lists => ?_⟩
  exact (listsAncestors_ancestors constructed canonical).1.mp lists constructorKey (.single parent)
    ⟨by decide, by decide⟩

end Rules

end FileProfile
