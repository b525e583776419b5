import FileProfile.Proofs.KeyFile.Escaping
import FileProfile.Proofs.KeyFile.Outline

/-!
A key file in memory as a map.

Setting a key is an update (`set_updates`): the key has the value, every other key has the value it
had, and a group or a key that is new stands behind the others. A key that is set twice is a key
that is set to the second value alone (`set_set`).
-/

namespace FileProfile

namespace KeyFile

variable {f : KeyFile} {group key : Text}

/-! ## Groups and keys -/

theorem hasGroup_iff : f.hasGroup group ↔ group ∈ f.groupNames := by
  rw [hasGroup_eq, groupNames_eq]
  simp

theorem hasKey_iff : f.hasKey group key ↔ key ∈ f.keys group := by
  unfold hasKey keys
  cases f.group? group with
  | none => simp
  | some g => simp [KeyGroup.keys_eq, KeyGroup.hasKey, KeyGroup.isFor_iff_key?]

theorem groupNames_set (f : KeyFile) (group key value : Text) :
    (f.set group key value).groupNames = insertKey group f.groupNames := by
  rw [groupNames_eq, outline_set, map_fst_addKey, groupNames_eq]

theorem keys_set (f : KeyFile) (group key value h : Text) : (f.set group key value).keys h =
    if h = group then insertKey key (f.keys group) else f.keys h := by
  rw [keys_eq, outline_set, keysIn_addKey, keys_eq, keys_eq]
  split
  · exact eraseDups_insertKey key _
  · rfl

theorem get?_set (f : KeyFile) (group key value h k : Text) : (f.set group key value).get? h k =
    if h = group ∧ k = key then some value else f.get? h k := by
  rw [get?_eq_stored?, get?_eq_stored?, stored?_set]
  split
  · exact congrArg some (unescape_escape value)
  · rfl

/-! ## Setting a key again -/

theorem isFor_ofValue (key value : Text) : (KeyLine.ofValue key value).isFor key :=
  KeyLine.isFor_iff.mpr ⟨_, _, rfl⟩

/-- The place of a key that has been set: its line stands there. -/
def Place.again (p : f.Place group key) (value : Text) :
    (p.fileWith (p.before ++ .ofValue key value :: p.after)).Place group key where
  others := p.others
  own := { p.own with body := p.before ++ .ofValue key value :: p.after }
  rest := p.rest
  before := p.before
  old := some (.ofValue key value)
  after := p.after
  groups_eq := rfl
  name_others := p.name_others
  name_own := p.name_own
  sets := .upon (isFor_ofValue key value) (after_place p)

theorem not_named_separateLast (ungrouped : ¬ f.hasGroup group) :
    ∀ o ∈ separateLast f.groups, o.name ≠ group := by
  have names : (separateLast f.groups).map KeyGroup.name = f.groupNames := by
    have same := congrArg (List.map Prod.fst) (content_separateLast f.groups)
    rwa [List.map_map, List.map_map] at same
  intro o within named
  refine ungrouped (hasGroup_iff.mpr ?_)
  rw [← names, ← named]
  exact List.mem_map_of_mem within

/-- The place of the key of a group that has been appended: the one line of the group. -/
def placeAdded (ungrouped : ¬ f.hasGroup group) (key value : Text) :
    (f.addGroup group key value).Place group key where
  others := separateLast f.groups
  own := ⟨"[" ++ group ++ "]", group, [.ofValue key value]⟩
  rest := []
  before := []
  old := some (.ofValue key value)
  after := []
  groups_eq := rfl
  name_others := not_named_separateLast ungrouped
  name_own := rfl
  sets := @KeyGroup.SetsAt.upon key [] [] _ (isFor_ofValue key value) (by simp)

/-- Of two values that are set for one key the second remains, as if it had been set alone. -/
theorem set_set (f : KeyFile) (group key value other : Text) :
    (f.set group key value).set group key other = f.set group key other := by
  by_cases grouped : f.hasGroup group = true
  · obtain ⟨p⟩ := exists_place key grouped
    rw [p.set_eq value, (p.again value).set_eq other, p.set_eq other]
    rfl
  · have added : ∀ v, f.set group key v = f.addGroup group key v := fun v => if_neg grouped
    rw [added value, (placeAdded grouped key value).set_eq other, added other]
    rfl

/-! ## Updates -/

/-- `g` is `f` with `value` for a key, and with nothing else changed. -/
structure Updates (f : KeyFile) (group key value : Text) (g : KeyFile) : Prop where
  get? : ∀ h k, g.get? h k = if h = group ∧ k = key then some value else f.get? h k
  /-- A group that is new stands behind the others. -/
  groupNames : g.groupNames =
    if f.hasGroup group then f.groupNames else f.groupNames ++ [group]
  /-- A key that is new stands behind the others of its group. -/
  keys : ∀ h, g.keys h =
    if h = group ∧ f.hasKey group key = false then f.keys group ++ [key] else f.keys h

/-- A key file behaves as a map in which the value that is set last counts. -/
theorem set_updates (f : KeyFile) (group key value : Text) :
    Updates f group key value (f.set group key value) ∧
      ∀ other, ((f.set group key value).set group key other).text =
        (f.set group key other).text := by
  refine ⟨⟨get?_set f group key value, ?_, fun h => ?_⟩, fun other => ?_⟩
  · rw [groupNames_set]
    exact if_congr hasGroup_iff.symm rfl rfl
  · rw [keys_set]
    by_cases own : h = group
    · rw [if_pos own, own]
      by_cases keyed : key ∈ f.keys group
      · rw [insertKey_of_mem keyed, hasKey_iff.mpr keyed, if_neg (by simp)]
      · have missing := Bool.eq_false_iff.mpr fun has => keyed (hasKey_iff.mp has)
        rw [insertKey_of_not_mem keyed, if_pos ⟨rfl, missing⟩]
    · rw [if_neg own, if_neg fun both => own both.1]
  · rw [set_set]

end KeyFile

end FileProfile
