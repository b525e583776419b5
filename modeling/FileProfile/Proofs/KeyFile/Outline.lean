import FileProfile.Proofs.KeyFile.Content
import Mathlib.Data.List.Induction

/-!
What setting a key changes.

The outline of a key file is its groups with their keys, and all that the keys of a group depend on
(`keys_eq`). Setting a key puts the key into the first group of the name, or into a group behind all
others where there is none (`outline_set`); the value has no part in it. Looking a key up gives what
was set last and is the same as before for every other key (`stored?_set`).
-/

namespace FileProfile

/-- Keys with one more behind them, unless it is among them. -/
def insertKey (key : Text) (keys : List Text) : List Text :=
  if key ∈ keys then keys else keys ++ [key]

theorem insertKey_of_mem {key : Text} {keys : List Text} (within : key ∈ keys) :
    insertKey key keys = keys := if_pos within

theorem insertKey_of_not_mem {key : Text} {keys : List Text} (new : key ∉ keys) :
    insertKey key keys = keys ++ [key] := if_neg new

theorem eraseDups_concat (keys : List Text) (key : Text) :
    (keys ++ [key]).eraseDups = insertKey key keys.eraseDups := by
  rw [List.eraseDups_append, insertKey]
  simp only [List.mem_eraseDups]
  by_cases within : key ∈ keys <;> simp [List.removeAll, List.eraseDups_cons, within]

theorem eraseDups_insertKey (key : Text) (keys : List Text) :
    (insertKey key keys).eraseDups = insertKey key keys.eraseDups := by
  by_cases within : key ∈ keys
  · rw [insertKey_of_mem within, insertKey_of_mem (List.mem_eraseDups.mpr within)]
  · rw [insertKey_of_not_mem within, eraseDups_concat]

theorem KeyLine.key?_eq (l : KeyLine) : l.key? = l.pair?.map Prod.fst := by
  cases l <;> rfl

namespace KeyGroup

theorem isFor_iff_key? {key : Text} {l : KeyLine} : l.isFor key ↔ l.key? = some key := by
  rw [KeyLine.isFor, decide_eq_true_eq]

theorem key?_eq_none {l : KeyLine} (other : ¬ l.isEntry) : l.key? = none := by
  cases l with
  | blank raw => rfl
  | comment raw => rfl
  | entry raw key value => exact absurd rfl other

theorem filterMap_key?_eq_nil {ls : List KeyLine} (others : ∀ l ∈ ls, ¬ l.isEntry) :
    ls.filterMap KeyLine.key? = [] :=
  List.filterMap_eq_nil_iff.mpr fun l within => key?_eq_none (others l within)

theorem not_mem_keys {key : Text} {ls : List KeyLine} (others : ∀ l ∈ ls, ¬ l.isFor key) :
    key ∉ ls.filterMap KeyLine.key? := by
  intro within
  obtain ⟨l, inside, own⟩ := List.mem_filterMap.mp within
  exact others l inside (isFor_iff_key?.mpr own)

/-- The keys of a group are those of its entries, each where it stands first. -/
theorem keys_eq (g : KeyGroup) : g.keys = (g.body.filterMap KeyLine.key?).eraseDups := by
  unfold keys
  induction g.body.filterMap KeyLine.key? using List.reverseRecOn with
  | nil => rfl
  | append_singleton keys key ih =>
    rw [List.foldl_append, ih, eraseDups_concat]
    rfl

/-- The keys of a group after one has been set, repeated as its entries repeat them. -/
theorem keys_set (g : KeyGroup) (key value : Text) :
    (g.set key value).body.filterMap KeyLine.key? =
      insertKey key (g.body.filterMap KeyLine.key?) := by
  obtain ⟨before, old, after, sets⟩ := exists_setsAt key g.body
  rw [body_set sets value]
  have own : (KeyLine.ofValue key value).key? = some key := rfl
  generalize g.body = body at sets
  unfold insertKey
  cases sets with
  | @upon before after old stands others =>
    have same : old.key? = some key := isFor_iff_key?.mp stands
    have keys : (before ++ old :: after).filterMap KeyLine.key? =
        before.filterMap KeyLine.key? ++ key :: after.filterMap KeyLine.key? := by
      rw [List.filterMap_append, List.filterMap_cons, same]
    rw [List.filterMap_append, List.filterMap_cons, own, keys, if_pos (by simp)]
  | @behind before after last none stands others =>
    have keys : (before ++ last :: after).filterMap KeyLine.key? =
        (before ++ [last]).filterMap KeyLine.key? := by
      rw [← List.singleton_append, ← List.append_assoc, List.filterMap_append,
        filterMap_key?_eq_nil others, List.append_nil]
    rw [if_neg (not_mem_keys none), keys, List.filterMap_append, List.filterMap_cons, own,
      filterMap_key?_eq_nil others]
  | first others =>
    rw [List.nil_append, List.filterMap_cons, own, filterMap_key?_eq_nil others]
    rfl

end KeyGroup

namespace KeyFile

variable {f : KeyFile} {group key : Text}

/-! ## Outlines -/

/-- The names of the groups, each with the keys of its entries. -/
def outline (f : KeyFile) : List (Text × List Text) :=
  f.groups.map fun g => (g.name, g.body.filterMap KeyLine.key?)

/-- An outline with a key in the first group of a name. -/
def addKey (group key : Text) : List (Text × List Text) → List (Text × List Text)
  | [] => [(group, [key])]
  | g :: rest =>
    if g.1 = group then (g.1, insertKey key g.2) :: rest else g :: addKey group key rest

theorem groupNames_eq (f : KeyFile) : f.groupNames = f.outline.map Prod.fst := by
  rw [outline, List.map_map]
  rfl

/-- The keys that an outline gives the first group of a name, repeated as entries repeat them. -/
def keysIn (group : Text) : List (Text × List Text) → List Text
  | [] => []
  | g :: rest => if g.1 = group then g.2 else keysIn group rest

theorem keysIn_cons_of_eq {name : Text} (named : name = group) (keys : List Text)
    (rest : List (Text × List Text)) : keysIn group ((name, keys) :: rest) = keys := if_pos named

theorem keysIn_cons_of_ne {name : Text} (other : name ≠ group) (keys : List Text)
    (rest : List (Text × List Text)) : keysIn group ((name, keys) :: rest) = keysIn group rest :=
  if_neg other

theorem keys_eq (f : KeyFile) (group : Text) :
    f.keys group = (keysIn group f.outline).eraseDups := by
  unfold keys group? outline
  induction f.groups with
  | nil => rfl
  | cons g rest ih =>
    rw [List.map_cons, List.find?_cons]
    by_cases named : g.name = group
    · rw [keysIn_cons_of_eq named, decide_eq_true named]
      exact g.keys_eq
    · rw [keysIn_cons_of_ne named, decide_eq_false named]
      exact ih

theorem keys_congr {f g : KeyFile} (same : f.outline = g.outline) (group : Text) :
    f.keys group = g.keys group := by
  rw [keys_eq, keys_eq, same]

theorem outline_eq (f : KeyFile) :
    f.outline = f.content.map fun g => (g.1, g.2.map Prod.fst) := by
  rw [outline, content, List.map_map]
  refine List.map_congr_left fun g _ => ?_
  rw [Function.comp_apply, List.map_filterMap, ← funext KeyLine.key?_eq]

theorem hasGroup_eq (f : KeyFile) (group : Text) :
    f.hasGroup group = f.outline.any fun g => g.1 = group := by
  rw [hasGroup, group?, List.isSome_find?, outline, List.any_map]
  rfl

theorem outline_updateFirst {groups : List KeyGroup} (value : Text)
    (some : groups.any (fun g => g.name = group) = true) :
    (updateFirst group (KeyGroup.set key value) groups).map
        (fun g => (g.name, g.body.filterMap KeyLine.key?)) =
      addKey group key (groups.map fun g => (g.name, g.body.filterMap KeyLine.key?)) := by
  induction groups with
  | nil => cases some
  | cons g rest ih =>
    rw [updateFirst, List.map_cons, addKey]
    by_cases named : g.name = group
    · rw [if_pos named, if_pos named, List.map_cons, KeyGroup.keys_set]
      rfl
    · rw [if_neg named, if_neg named, List.map_cons, ih]
      simpa [named] using some

theorem addKey_of_not_any {o : List (Text × List Text)}
    (none : (o.any fun g => g.1 = group) = false) : addKey group key o = o ++ [(group, [key])] := by
  induction o with
  | nil => rfl
  | cons g rest ih =>
    rw [List.any_cons, Bool.or_eq_false_iff] at none
    rw [addKey, if_neg (of_decide_eq_false none.1), ih none.2]
    rfl

theorem keysIn_addKey (h : Text) (o : List (Text × List Text)) : keysIn h (addKey group key o) =
    if h = group then insertKey key (keysIn group o) else keysIn h o := by
  induction o with
  | nil =>
    by_cases own : h = group
    · rw [if_pos own, own]
      exact if_pos rfl
    · rw [if_neg own]
      exact if_neg fun same => own same.symm
  | cons g rest ih =>
    obtain ⟨name, keys⟩ := g
    rw [addKey]
    by_cases named : name = group
    · rw [if_pos named]
      by_cases own : h = group
      · rw [if_pos own, own, keysIn_cons_of_eq named, keysIn_cons_of_eq named]
      · have other : name ≠ h := fun same => own (same.symm.trans named)
        rw [if_neg own, keysIn_cons_of_ne other, keysIn_cons_of_ne other]
    · rw [if_neg named, keysIn_cons_of_ne named]
      by_cases here : name = h
      · have own : h ≠ group := fun same => named (here.trans same)
        rw [keysIn_cons_of_eq here, if_neg own, keysIn_cons_of_eq here]
      · rw [keysIn_cons_of_ne here, keysIn_cons_of_ne here, ih]

theorem map_fst_addKey (group key : Text) (o : List (Text × List Text)) :
    (addKey group key o).map Prod.fst = insertKey group (o.map Prod.fst) := by
  induction o with
  | nil => rfl
  | cons g rest ih =>
    rw [addKey, List.map_cons]
    by_cases named : g.1 = group
    · rw [if_pos named, List.map_cons, insertKey_of_mem (List.mem_cons.mpr (.inl named.symm))]
    · have other : group ≠ g.1 := fun same => named same.symm
      rw [if_neg named, List.map_cons, ih]
      by_cases later : group ∈ rest.map Prod.fst
      · rw [insertKey_of_mem later, insertKey_of_mem (List.mem_cons_of_mem _ later)]
      · rw [insertKey_of_not_mem later, insertKey_of_not_mem (by simp [other, later])]
        rfl

/-! ## Groups behind the others -/

theorem pairs_separated (ls : List KeyLine) :
    (separated ls).filterMap KeyLine.pair? = ls.filterMap KeyLine.pair? := by
  unfold separated
  split
  · rfl
  split
  · rfl
  · rw [List.filterMap_append]
    exact List.append_nil _

theorem content_separateLast (groups : List KeyGroup) :
    (separateLast groups).map (fun g => (g.name, g.body.filterMap KeyLine.pair?)) =
      groups.map fun g => (g.name, g.body.filterMap KeyLine.pair?) := by
  induction groups with
  | nil => rfl
  | cons g rest ih =>
    cases rest with
    | nil =>
      by_cases bare : g.body = []
      · simp [separateLast, bare, KeyLine.pair?]
      · simp [separateLast, bare, pairs_separated g.body]
    | cons next more =>
      have step : separateLast (g :: next :: more) = g :: separateLast (next :: more) := rfl
      rw [step, List.map_cons, ih]
      rfl

/-- A separating line says nothing. -/
theorem content_addGroup (f : KeyFile) (group key value : Text) :
    (f.addGroup group key value).content = f.content ++ [(group, [(key, escape value)])] := by
  unfold content addGroup
  rw [List.map_append, content_separateLast]
  rfl

/-- A group with a key stands where there was one of its name, or behind all others. -/
theorem outline_set (f : KeyFile) (group key value : Text) :
    (f.set group key value).outline = addKey group key f.outline := by
  by_cases grouped : f.hasGroup group = true
  · have updated : f.set group key value =
        { f with groups := updateFirst group (KeyGroup.set key value) f.groups } := if_pos grouped
    rw [hasGroup, group?, List.isSome_find?] at grouped
    rw [updated]
    exact outline_updateFirst value grouped
  · have added : f.set group key value = f.addGroup group key value := if_neg grouped
    rw [hasGroup_eq, Bool.not_eq_true] at grouped
    rw [added, outline_eq, content_addGroup, List.map_append, ← outline_eq,
      addKey_of_not_any grouped]
    rfl

/-! ## Looking a key up -/

theorem stored?_addGroup (ungrouped : f.hasGroup group = false) (value g k : Text) :
    (f.addGroup group key value).stored? g k =
      if g = group ∧ k = key then some (escape value) else f.stored? g k := by
  rw [stored?_eq, stored?_eq, content_addGroup, List.find?_append]
  by_cases own : g = group
  · have none : f.content.find? (fun e => e.1 = group) = none := by
      rw [hasGroup_eq, outline_eq, List.any_map, List.any_eq_false] at ungrouped
      exact List.find?_eq_none.mpr ungrouped
    rw [own, none, Option.none_or, List.find?_cons_of_pos (by simp), Option.bind_some]
    by_cases same : k = key
    · simp [same]
    · have other : key ≠ k := fun same' => same same'.symm
      simp [same, other]
  · have other : group ≠ g := fun same => own same.symm
    rw [if_neg fun both => own both.1, List.find?_cons_of_neg (by simpa using other),
      List.find?_nil, Option.or_none]

/-- The groups of other names are looked up where they were. -/
theorem group?_fileWith_other (p : f.Place group key) (body : List KeyLine) {g : Text}
    (other : g ≠ group) : (p.fileWith body).group? g = f.group? g := by
  have own : ¬ p.own.name = g := fun same => other (same.symm.trans p.name_own)
  have shape := congrArg (List.find? fun o : KeyGroup => o.name = g) p.groups_eq
  unfold group?
  rw [shape, Place.fileWith, List.find?_append, List.find?_append,
    List.find?_cons_of_neg (by simpa using own), List.find?_cons_of_neg (by simpa using own)]

/-- Setting a key changes what is looked up for it and for no other. -/
theorem stored?_set (f : KeyFile) (group key value g k : Text) :
    (f.set group key value).stored? g k =
      if g = group ∧ k = key then some (escape value) else f.stored? g k := by
  by_cases grouped : f.hasGroup group = true
  · obtain ⟨p⟩ := exists_place key grouped
    rw [p.set_eq value]
    by_cases own : g = group
    · rw [own]
      by_cases same : k = key
      · rw [if_pos ⟨rfl, same⟩, same]
        exact stored?_fileWith_own p _ _ _
      · rw [if_neg fun both => same both.2]
        refine stored?_fileWith_other p (fun own => ?_) same
        obtain ⟨_, _, shape⟩ := KeyLine.isFor_iff.mp own
        cases shape
        exact same rfl
    · rw [if_neg fun both => own both.1, stored?, group?_fileWith_other p _ own]
      rfl
  · have added : f.set group key value = f.addGroup group key value := if_neg grouped
    rw [added, stored?_addGroup (Bool.not_eq_true _ ▸ grouped)]

end KeyFile

end FileProfile
