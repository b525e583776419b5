import FileProfile.ContentType.Store
import Mathlib.Algebra.Order.BigOperators.Group.List
import Mathlib.Algebra.Order.Group.Int
import Mathlib.Algebra.Ring.Int.Defs

/-!
The bookkeeping of the store of content types.

`TypeStore.Sound` says what every order of operations keeps: no count is negative, the store is
referenced by its owner and once for each reference to a handle, and a handle in the intern table is
referenced and stands under its own name.

* `lookup_took`: a lookup in an open store takes one reference to the interned handle of the name.
* `unref_dropped`: dropping a counted reference succeeds and leaves the other counts alone.
* `sound_new`, `sound_lookup`, `sound_ref`, `sound_unref`, `sound_shutdown`: no operation breaks the
  bookkeeping.
* `Kept`: what looking types up, giving them up and shutting down keep, the bookkeeping among it
  (`kept_sound`).
-/

namespace FileProfile

namespace TypeStore

/-! ## Counts and names of handles -/

theorem nameOf_count (s : TypeStore) (h k : HandleId) (change : Int) :
    (s.count h change).nameOf k = s.nameOf k := by
  unfold nameOf count
  rw [List.getElem?_modify]
  by_cases same : h = k
  · subst same
    cases s.handles[h]? <;> simp
  · simp [same]

theorem length_count (s : TypeStore) (h : HandleId) (change : Int) :
    (s.count h change).handles.length = s.handles.length := by
  simp [count]

theorem referencesOf_eq_zero {s : TypeStore} {h : HandleId} (outside : s.handles.length ≤ h) :
    s.referencesOf h = 0 := by
  simp [referencesOf, List.getElem?_eq_none outside]

theorem lt_length_of_counted {s : TypeStore} {h : HandleId} (counted : 0 < s.referencesOf h) :
    h < s.handles.length := by
  rcases Nat.lt_or_ge h s.handles.length with inside | outside
  · exact inside
  · rw [referencesOf_eq_zero outside] at counted
    exact absurd counted (by decide)

theorem referencesOf_count {s : TypeStore} {h : HandleId} (inside : h < s.handles.length)
    (k : HandleId) (change : Int) :
    (s.count h change).referencesOf k = s.referencesOf k + if k = h then change else 0 := by
  unfold referencesOf count
  rw [List.getElem?_modify]
  by_cases same : h = k
  · subst same
    simp [inside]
  · rw [if_neg (fun e => same e.symm)]
    simp [same]

/-- The references to all handles. -/
def totalCount (s : TypeStore) : Int := (s.handles.map Handle.references).sum

theorem sum_references_modify {handles : List Handle} {h : Nat} (inside : h < handles.length)
    (change : Int) :
    ((handles.modify h fun x => { x with references := x.references + change }).map
      Handle.references).sum = (handles.map Handle.references).sum + change := by
  induction handles generalizing h with
  | nil => exact absurd inside (Nat.not_lt_zero _)
  | cons x rest ih =>
    cases h with
    | zero =>
      simp only [List.modify_zero_cons, List.map_cons, List.sum_cons]
      omega
    | succ h =>
      have deeper := ih (h := h) (by simpa using inside)
      simp only [List.modify_succ_cons, List.map_cons, List.sum_cons]
      omega

theorem totalCount_count {s : TypeStore} {h : HandleId} (inside : h < s.handles.length)
    (change : Int) : (s.count h change).totalCount = s.totalCount + change :=
  sum_references_modify inside change

/-! ## The bookkeeping -/

/-- The handle that stands under a name in an intern table. -/
def standing? (table : List (TypeName × HandleId)) (name : TypeName) : Option HandleId :=
  (table.find? fun entry => entry.1 = name).map Prod.snd

theorem standing?_cons (table : List (TypeName × HandleId)) (name other : TypeName)
    (h : HandleId) : standing? ((name, h) :: table) other =
      if name = other then some h else standing? table other := by
  by_cases same : name = other
  · simp [standing?, same]
  · simp [standing?, same]

theorem standing?_filter {table : List (TypeName × HandleId)} {name : TypeName} {h : HandleId}
    (p : TypeName × HandleId → Bool) (stands : standing? table name = some h)
    (kept : p (name, h) = true) : standing? (table.filter p) name = some h := by
  induction table with
  | nil => cases stands
  | cons entry rest ih =>
    obtain ⟨other, k⟩ := entry
    rw [standing?_cons] at stands
    by_cases same : other = name
    · rw [if_pos same, Option.some.injEq] at stands
      subst same stands
      rw [List.filter_cons_of_pos kept, standing?_cons, if_pos rfl]
    · rw [if_neg same] at stands
      by_cases keeps : p (other, k) = true
      · rw [List.filter_cons_of_pos keeps, standing?_cons, if_neg same]
        exact ih stands
      · rw [List.filter_cons_of_neg keeps]
        exact ih stands

/-- The handle that a name is interned under. -/
def internedAs? (s : TypeStore) (name : TypeName) : Option HandleId := standing? s.interned name

/-- Whether the creator still holds a reference, as a count. -/
def ownerCount (s : TypeStore) : Int := if s.isShut then 0 else 1

/-- What every operation keeps. -/
structure Sound (s : TypeStore) : Prop where
  nonneg : ∀ h, 0 ≤ s.referencesOf h
  total : s.references = s.ownerCount + s.totalCount
  interned : ∀ name h, (name, h) ∈ s.interned → 0 < s.referencesOf h ∧ s.nameOf h = name

theorem Sound.nonneg_of_mem {s : TypeStore} (sound : s.Sound) :
    ∀ n ∈ s.handles.map Handle.references, 0 ≤ n := by
  intro n counts
  obtain ⟨x, hx, rfl⟩ := List.mem_map.mp counts
  obtain ⟨h, inside, rfl⟩ := List.getElem_of_mem hx
  have := sound.nonneg h
  simpa [referencesOf, inside] using this

theorem Sound.totalCount_nonneg {s : TypeStore} (sound : s.Sound) : 0 ≤ s.totalCount :=
  List.sum_nonneg sound.nonneg_of_mem

theorem ownerCount_nonneg (s : TypeStore) : 0 ≤ s.ownerCount := by
  unfold ownerCount
  split <;> decide

theorem Sound.references_nonneg {s : TypeStore} (sound : s.Sound) : 0 ≤ s.references := by
  have owner := ownerCount_nonneg s
  have counts := sound.totalCount_nonneg
  have total := sound.total
  omega

/-- While a handle is in use the store is referenced. -/
theorem Sound.references_pos {s : TypeStore} (sound : s.Sound) {h : HandleId}
    (counted : 0 < s.referencesOf h) : 0 < s.references := by
  have inside := lt_length_of_counted counted
  have listed : s.referencesOf h ∈ s.handles.map Handle.references := by
    rw [List.mem_map]
    exact ⟨s.handles[h], List.getElem_mem inside, by simp [referencesOf, inside]⟩
  have among : s.referencesOf h ≤ s.totalCount :=
    List.single_le_sum sound.nonneg_of_mem _ listed
  have owner := ownerCount_nonneg s
  have total := sound.total
  omega

/-- A store that has not been shut down is not torn down. -/
theorem Sound.isOpen_iff {s : TypeStore} (sound : s.Sound) : s.isOpen = !s.isShut := by
  have bound := sound.totalCount_nonneg
  have total := sound.total
  cases shut : s.isShut with
  | true => simp [isOpen, shut]
  | false =>
    have alive : ¬ s.references ≤ 0 := by
      rw [ownerCount, shut] at total
      simp only [Bool.false_eq_true, if_false] at total
      omega
    simp [isOpen, shut, isTornDown, alive]

theorem Sound.isOpen_iff_isShut {s : TypeStore} (sound : s.Sound) :
    s.isOpen ↔ s.isShut = false := by
  rw [sound.isOpen_iff, Bool.not_eq_true']

theorem mem_of_internedAs? {s : TypeStore} {name : TypeName} {h : HandleId}
    (found : s.internedAs? name = some h) : (name, h) ∈ s.interned := by
  unfold internedAs? standing? at found
  obtain ⟨⟨key, k⟩, hit, rfl⟩ := Option.map_eq_some_iff.mp found
  have same : key = name := by simpa using List.find?_some hit
  subst same
  exact List.mem_of_find?_eq_some hit

/-! ## Taking references -/

/-- The store after a handle has been given another reference. -/
def taking (s : TypeStore) (h : HandleId) : TypeStore :=
  { s.count h 1 with references := s.references + 1 }

/-- What every operation keeps, except that the handle `h` may be interned without references. -/
structure SoundBut (s : TypeStore) (h : HandleId) : Prop where
  nonneg : ∀ k, 0 ≤ s.referencesOf k
  total : s.references = s.ownerCount + s.totalCount
  interned : ∀ name k, (name, k) ∈ s.interned → (k = h ∨ 0 < s.referencesOf k) ∧ s.nameOf k = name

theorem Sound.but {s : TypeStore} (sound : s.Sound) (h : HandleId) : s.SoundBut h where
  nonneg := sound.nonneg
  total := sound.total
  interned := fun name k stands =>
    ⟨Or.inr (sound.interned name k stands).1, (sound.interned name k stands).2⟩

theorem referencesOf_taking {s : TypeStore} {h : HandleId} (inside : h < s.handles.length)
    (k : HandleId) :
    (s.taking h).referencesOf k = s.referencesOf k + if k = h then 1 else 0 :=
  referencesOf_count inside k 1

theorem nameOf_taking (s : TypeStore) (h k : HandleId) : (s.taking h).nameOf k = s.nameOf k :=
  nameOf_count s h k 1

theorem SoundBut.taking {s : TypeStore} {h : HandleId} (sound : s.SoundBut h)
    (inside : h < s.handles.length) : (s.taking h).Sound where
  nonneg := fun k => by
    have before := sound.nonneg k
    rw [referencesOf_taking inside]
    split <;> omega
  total := by
    have before := sound.total
    have counted : (s.taking h).totalCount = s.totalCount + 1 := totalCount_count inside 1
    have owner : (s.taking h).ownerCount = s.ownerCount := rfl
    have stored : (s.taking h).references = s.references + 1 := rfl
    omega
  interned := fun name k stands => by
    obtain ⟨counted, named⟩ := sound.interned name k stands
    have before := sound.nonneg k
    refine ⟨?_, by rw [nameOf_taking]; exact named⟩
    rw [referencesOf_taking inside]
    rcases counted with same | counted
    · rw [if_pos same]
      omega
    · split <;> omega

theorem ref_eq {s : TypeStore} {h : HandleId} (usable : 0 < s.referencesOf h ∨ ¬ s.isTornDown) :
    s.ref h = .ok (s.taking h) := by
  unfold ref
  rw [if_neg]
  · rfl
  · rintro ⟨unused, down⟩
    rcases usable with used | up
    · omega
    · exact up down

/-- A released handle stays released once the store is torn down. -/
theorem ref_released {s : TypeStore} {h : HandleId} (unused : s.referencesOf h ≤ 0)
    (down : s.isTornDown) : s.ref h = .error (s.released h) := by
  rw [ref, if_pos ⟨unused, down⟩]

theorem eq_taking_of_ref {s t : TypeStore} {h : HandleId} (taken : s.ref h = .ok t) :
    t = s.taking h := by
  unfold ref at taken
  split at taken
  · cases taken
  · exact (Except.ok.inj taken).symm

/-! ## Interning -/

theorem intern_of_internedAs? {s : TypeStore} {name : TypeName} {h : HandleId}
    (found : s.internedAs? name = some h) : s.intern name = (h, s) := by
  unfold internedAs? standing? at found
  obtain ⟨⟨key, k⟩, hit, rfl⟩ := Option.map_eq_some_iff.mp found
  simp [intern, hit]

/-- The store with a new handle for `name`, interned without references. -/
def withHandle (s : TypeStore) (name : TypeName) : TypeStore :=
  { s with
    handles := s.handles ++ [⟨name, 0⟩]
    interned := (name, s.handles.length) :: s.interned }

theorem intern_of_internedAs?_eq_none {s : TypeStore} {name : TypeName}
    (missing : s.internedAs? name = none) :
    s.intern name = (s.handles.length, s.withHandle name) := by
  unfold internedAs? standing? at missing
  rw [Option.map_eq_none_iff] at missing
  simp [intern, missing, withHandle]

theorem nameOf_withHandle {s : TypeStore} {k : HandleId} (name : TypeName)
    (inside : k < s.handles.length) : (s.withHandle name).nameOf k = s.nameOf k := by
  simp [nameOf, withHandle, List.getElem?_append_left inside]

theorem nameOf_withHandle_self (s : TypeStore) (name : TypeName) :
    (s.withHandle name).nameOf s.handles.length = name := by
  simp [nameOf, withHandle]

theorem referencesOf_withHandle (s : TypeStore) (name : TypeName) (k : HandleId) :
    (s.withHandle name).referencesOf k = s.referencesOf k := by
  unfold referencesOf withHandle
  rcases Nat.lt_trichotomy k s.handles.length with inside | same | outside
  · simp [List.getElem?_append_left inside]
  · simp [same]
  · have beyond : s.handles.length ≤ k := by omega
    have beyondAll : (s.handles ++ [(⟨name, 0⟩ : Handle)]).length ≤ k := by
      rw [List.length_append]
      exact outside
    simp [List.getElem?_eq_none beyond, List.getElem?_eq_none beyondAll]

theorem Sound.withHandle {s : TypeStore} (sound : s.Sound) (name : TypeName) :
    (s.withHandle name).SoundBut s.handles.length where
  nonneg := fun k => by
    rw [referencesOf_withHandle]
    exact sound.nonneg k
  total := by
    have counted : (s.withHandle name).totalCount = s.totalCount := by
      simp [TypeStore.withHandle, totalCount]
    rw [counted]
    exact sound.total
  interned := fun key k stands => by
    rcases List.mem_cons.mp stands with new | old
    · cases new
      exact ⟨Or.inl rfl, nameOf_withHandle_self s name⟩
    · obtain ⟨counted, named⟩ := sound.interned key k old
      have inside := lt_length_of_counted counted
      refine ⟨Or.inr ?_, ?_⟩
      · rwa [referencesOf_withHandle]
      · rwa [nameOf_withHandle name inside]

/-! ## Lookups -/

/-- The store `t` looks types up as `s` does. -/
structure SameRules (s t : TypeStore) : Prop where
  rules : t.rules = s.rules
  overrides : t.overrides = s.overrides
  extensions : t.extensions = s.extensions

theorem SameRules.refl (s : TypeStore) : s.SameRules s := ⟨rfl, rfl, rfl⟩

theorem SameRules.trans {s t u : TypeStore} (first : s.SameRules t) (second : t.SameRules u) :
    s.SameRules u where
  rules := second.rules.trans first.rules
  overrides := second.overrides.trans first.overrides
  extensions := second.extensions.trans first.extensions

/-- The store `t` is `s` with one more reference, to the handle `h` of the type `name`. -/
structure Took (s : TypeStore) (name : TypeName) (h : HandleId) (t : TypeStore) : Prop
    extends SameRules s t where
  sound : t.Sound
  isShut : t.isShut = s.isShut
  references : t.references = s.references + 1
  referencesOf : ∀ k, t.referencesOf k = s.referencesOf k + if k = h then 1 else 0
  nameOf : t.nameOf h = name
  nameOf_old : ∀ k, k < s.handles.length → t.nameOf k = s.nameOf k
  length : s.handles.length ≤ t.handles.length
  interned : t.internedAs? name = some h
  interned_old : ∀ other k, s.internedAs? other = some k → t.internedAs? other = some k

/-- A lookup finds the handle that stands in the intern table. -/
theorem Took.eq_of_internedAs? {s t : TypeStore} {name : TypeName} {h k : HandleId}
    (took : Took s name h t) (stands : s.internedAs? name = some k) : h = k :=
  Option.some.inj (took.interned.symm.trans (took.interned_old name k stands))

theorem Took.counted {s t : TypeStore} {name : TypeName} {h : HandleId} (took : Took s name h t)
    (sound : s.Sound) : 0 < t.referencesOf h := by
  have before := sound.nonneg h
  have after := took.referencesOf h
  rw [if_pos rfl] at after
  omega

/-- What was in use before a lookup is in use after it. -/
theorem Took.counted_old {s t : TypeStore} {name : TypeName} {h k : HandleId}
    (took : Took s name h t) (counted : 0 < s.referencesOf k) : 0 < t.referencesOf k := by
  have after := took.referencesOf k
  split at after <;> omega

theorem took_of_internedAs? {s : TypeStore} (sound : s.Sound) {name : TypeName} {h : HandleId}
    (found : s.internedAs? name = some h) : Took s name h (s.taking h) := by
  obtain ⟨counted, named⟩ := sound.interned name h (mem_of_internedAs? found)
  have inside := lt_length_of_counted counted
  exact {
    sound := (sound.but h).taking inside
    toSameRules := ⟨rfl, rfl, rfl⟩
    isShut := rfl
    references := rfl
    referencesOf := referencesOf_taking inside
    nameOf := by rw [nameOf_taking]; exact named
    nameOf_old := fun k _ => nameOf_taking s h k
    length := Nat.le_of_eq (length_count s h 1).symm
    interned := found
    interned_old := fun _ _ stands => stands }

theorem took_of_internedAs?_eq_none {s : TypeStore} (sound : s.Sound) {name : TypeName}
    (missing : s.internedAs? name = none) :
    Took s name s.handles.length ((s.withHandle name).taking s.handles.length) := by
  have inside : s.handles.length < (s.withHandle name).handles.length := by
    simp [withHandle]
  have asBefore : ∀ other, ((s.withHandle name).taking s.handles.length).internedAs? other =
      if name = other then some s.handles.length else s.internedAs? other :=
    fun other => standing?_cons s.interned name other s.handles.length
  exact {
    sound := (sound.withHandle name).taking inside
    toSameRules := ⟨rfl, rfl, rfl⟩
    isShut := rfl
    references := rfl
    referencesOf := fun k => by
      rw [referencesOf_taking inside, referencesOf_withHandle]
    nameOf := by rw [nameOf_taking, nameOf_withHandle_self]
    nameOf_old := fun k old => by rw [nameOf_taking, nameOf_withHandle name old]
    length := by
      rw [taking, length_count]
      exact Nat.le_of_lt inside
    interned := by rw [asBefore, if_pos rfl]
    interned_old := fun other k stands => by
      rw [asBefore, if_neg]
      · exact stands
      · intro same
        rw [← same, missing] at stands
        exact absurd stands (by simp) }

theorem not_isTornDown_of_isOpen {s : TypeStore} (opened : s.isOpen) : ¬ s.isTornDown := by
  intro down
  simp [isOpen, down] at opened

theorem references_pos_of_isOpen {s : TypeStore} (opened : s.isOpen) : 0 < s.references := by
  have up := not_isTornDown_of_isOpen opened
  simp only [isTornDown, decide_eq_true_eq] at up
  omega

theorem lookup_closed {s : TypeStore} (shut : ¬ s.isOpen) (name : TypeName) :
    s.lookup name = .error closed := by
  rw [lookup, if_neg shut]

section

variable {s : TypeStore} (opened : s.isOpen) {name canonical : TypeName}

include opened

theorem lookup_of_internedAs? {h : HandleId} (known : s.rules.canonical name = .ok canonical)
    (found : s.internedAs? canonical = some h) : s.lookup name = .ok (h, s.taking h) := by
  rw [lookup, if_pos opened, known]
  simp only [intern_of_internedAs? found, ref_eq (Or.inr (not_isTornDown_of_isOpen opened)),
    Except.map]

theorem lookup_of_internedAs?_eq_none (known : s.rules.canonical name = .ok canonical)
    (missing : s.internedAs? canonical = none) :
    s.lookup name =
      .ok (s.handles.length, (s.withHandle canonical).taking s.handles.length) := by
  have up : ¬ (s.withHandle canonical).isTornDown := not_isTornDown_of_isOpen opened
  rw [lookup, if_pos opened, known]
  simp only [intern_of_internedAs?_eq_none missing, ref_eq (Or.inr up), Except.map]

theorem lookup_of_canonical_error {e : Failure} (unknown : s.rules.canonical name = .error e) :
    s.lookup name = .error e := by
  rw [lookup, if_pos opened, unknown]

/-- A lookup in an open store answers with the interned handle of the canonical name. -/
theorem lookup_canonical (sound : s.Sound) (known : s.rules.canonical name = .ok canonical) :
    ∃ h t, s.lookup name = .ok (h, t) ∧ Took s canonical h t := by
  cases found : s.internedAs? canonical with
  | some h =>
    exact ⟨h, _, lookup_of_internedAs? opened known found, took_of_internedAs? sound found⟩
  | none =>
    exact ⟨_, _, lookup_of_internedAs?_eq_none opened known found,
      took_of_internedAs?_eq_none sound found⟩

end

/-- What a lookup answers is the handle of a canonical name. -/
theorem took_of_lookup {s t : TypeStore} (sound : s.Sound) {name : TypeName} {h : HandleId}
    (found : s.lookup name = .ok (h, t)) :
    ∃ canonical, s.rules.canonical name = .ok canonical ∧ Took s canonical h t := by
  by_cases opened : s.isOpen
  · cases known : s.rules.canonical name with
    | ok canonical =>
      obtain ⟨k, u, answer, took⟩ := lookup_canonical opened sound known
      rw [answer] at found
      cases found
      exact ⟨canonical, rfl, took⟩
    | error e =>
      rw [lookup_of_canonical_error opened known] at found
      cases found
  · rw [lookup_closed opened] at found
    cases found

/-- A text is always looked up. -/
theorem lookup_took {s : TypeStore} (sound : s.Sound) (opened : s.isOpen) (name : Text) :
    ∃ h t, s.lookup name = .ok (h, t) ∧ Took s (s.rules.canonicalName name) h t :=
  lookup_canonical opened sound (Rules.canonical_text s.rules name)

/-! ## Dropping references -/

/-- The store `t` is `s` without one of the references to the handle `h`. -/
structure Dropped (s : TypeStore) (h : HandleId) (t : TypeStore) : Prop
    extends SameRules s t where
  sound : t.Sound
  isShut : t.isShut = s.isShut
  references : t.references = s.references - 1
  referencesOf : ∀ k, t.referencesOf k = s.referencesOf k - if k = h then 1 else 0
  nameOf : ∀ k, t.nameOf k = s.nameOf k
  length : t.handles.length = s.handles.length
  interned : ∀ name k, s.internedAs? name = some k → k ≠ h ∨ 1 < s.referencesOf h →
    t.references ≠ 0 → t.internedAs? name = some k

/-- The store without one reference to `h`, the count of the store itself left alone. -/
def uncounted (s : TypeStore) (h : HandleId) : TypeStore :=
  if (s.count h (-1)).referencesOf h = 0 then (s.count h (-1)).forget h else s.count h (-1)

/-- The store without one of the references to `h`. -/
def dropping (s : TypeStore) (h : HandleId) : TypeStore := (s.uncounted h).release

theorem unref_eq {s : TypeStore} {h : HandleId} (counted : 0 < s.referencesOf h) :
    s.unref h = .ok (s.dropping h) := by
  rw [unref, if_neg (by omega)]
  rfl

theorem unref_released {s : TypeStore} {h : HandleId} (unused : s.referencesOf h ≤ 0) :
    s.unref h = .error (s.released h) := by
  rw [unref, if_pos unused]

theorem mem_interned_uncounted {s : TypeStore} {h : HandleId} {name : TypeName} {k : HandleId} :
    (name, k) ∈ (s.uncounted h).interned ↔ (name, k) ∈ s.interned ∧
      ((name, k) ≠ (s.nameOf h, h) ∨ (s.count h (-1)).referencesOf h ≠ 0) := by
  unfold uncounted
  split
  · next unused =>
    simp only [forget, nameOf_count, List.mem_filter, decide_eq_true_eq, unused, ne_eq,
      not_true_eq_false, or_false]
    rfl
  · next counted => exact ⟨fun stands => ⟨stands, .inr counted⟩, fun both => both.1⟩

theorem internedAs?_uncounted {s : TypeStore} {h : HandleId} {name : TypeName} {k : HandleId}
    (stands : s.internedAs? name = some k) (kept : k ≠ h ∨ (s.count h (-1)).referencesOf h ≠ 0) :
    (s.uncounted h).internedAs? name = some k := by
  unfold uncounted
  split
  · next unused =>
    have other : k ≠ h := kept.resolve_right (fun counted => counted unused)
    refine standing?_filter _ stands ?_
    simp [other]
  · exact stands

theorem handles_dropping (s : TypeStore) (h : HandleId) :
    (s.dropping h).handles = (s.count h (-1)).handles := by
  unfold dropping uncounted
  split <;> rfl

theorem length_dropping (s : TypeStore) (h : HandleId) :
    (s.dropping h).handles.length = s.handles.length := by
  rw [handles_dropping, length_count]

theorem isShut_dropping (s : TypeStore) (h : HandleId) : (s.dropping h).isShut = s.isShut := by
  unfold dropping uncounted
  split <;> rfl

theorem references_dropping (s : TypeStore) (h : HandleId) :
    (s.dropping h).references = s.references - 1 := by
  unfold dropping uncounted
  split <;> rfl

theorem nameOf_dropping (s : TypeStore) (h k : HandleId) :
    (s.dropping h).nameOf k = s.nameOf k := by
  rw [nameOf, handles_dropping]
  exact nameOf_count s h k (-1)

theorem interned_dropping (s : TypeStore) (h : HandleId) : (s.dropping h).interned =
    if (s.dropping h).references = 0 then [] else (s.uncounted h).interned := rfl

section

variable {s : TypeStore} {h : HandleId} (counted : 0 < s.referencesOf h)

include counted

theorem referencesOf_dropping (k : HandleId) :
    (s.dropping h).referencesOf k = s.referencesOf k - if k = h then 1 else 0 := by
  have same : (s.dropping h).referencesOf k = (s.count h (-1)).referencesOf k := by
    rw [referencesOf, referencesOf, handles_dropping]
  rw [same, referencesOf_count (lt_length_of_counted counted)]
  split <;> omega

theorem totalCount_dropping : (s.dropping h).totalCount = s.totalCount + -1 := by
  rw [totalCount, handles_dropping]
  exact totalCount_count (lt_length_of_counted counted) (-1)

/-- What is still interned keeps a reference. -/
theorem counted_of_mem_interned_dropping (sound : s.Sound) {name : TypeName} {k : HandleId}
    (stands : (name, k) ∈ (s.dropping h).interned) :
    0 < (s.dropping h).referencesOf k ∧ s.nameOf k = name := by
  rw [interned_dropping] at stands
  split at stands
  · exact absurd stands List.not_mem_nil
  · obtain ⟨old, kept⟩ := mem_interned_uncounted.mp stands
    obtain ⟨positive, named⟩ := sound.interned name k old
    rw [referencesOf_dropping counted]
    refine ⟨?_, named⟩
    -- Where the handle itself still stands in the table, it has a reference left.
    by_cases same : k = h
    · subst same
      have apart : (s.count k (-1)).referencesOf k ≠ 0 :=
        kept.resolve_left fun differs => differs (by rw [named])
      rw [referencesOf_count (lt_length_of_counted counted), if_pos rfl] at apart
      rw [if_pos rfl]
      omega
    · rw [if_neg same]
      omega

theorem Sound.dropping (sound : s.Sound) : (s.dropping h).Sound where
  nonneg := fun k => by
    have before := sound.nonneg k
    rw [referencesOf_dropping counted]
    split
    · next same =>
      subst same
      omega
    · omega
  total := by
    have before := sound.total
    have owner : (s.dropping h).ownerCount = s.ownerCount := by
      rw [ownerCount, isShut_dropping, ownerCount]
    rw [references_dropping, owner, totalCount_dropping counted]
    omega
  interned := fun name k stands => by
    rw [nameOf_dropping]
    exact counted_of_mem_interned_dropping counted sound stands

end

/-- Dropping a counted reference succeeds. -/
theorem unref_dropped {s : TypeStore} (sound : s.Sound) {h : HandleId}
    (counted : 0 < s.referencesOf h) : ∃ t, s.unref h = .ok t ∧ Dropped s h t := by
  refine ⟨_, unref_eq counted, ?_⟩
  exact {
    sound := sound.dropping counted
    toSameRules := by
      unfold dropping uncounted
      split <;> exact ⟨rfl, rfl, rfl⟩
    isShut := isShut_dropping s h
    references := references_dropping s h
    referencesOf := referencesOf_dropping counted
    nameOf := nameOf_dropping s h
    length := length_dropping s h
    interned := fun name k stands kept more => by
      rw [TypeStore.internedAs?, interned_dropping, if_neg more]
      refine internedAs?_uncounted stands (kept.imp id ?_)
      rw [referencesOf_count (lt_length_of_counted counted), if_pos rfl]
      intro twice
      omega }

/-- Only a counted reference is dropped. -/
theorem dropped_of_unref {s t : TypeStore} (sound : s.Sound) {h : HandleId}
    (found : s.unref h = .ok t) : Dropped s h t := by
  rcases Int.lt_or_le 0 (s.referencesOf h) with counted | unused
  · obtain ⟨u, answer, dropped⟩ := unref_dropped sound counted
    rw [answer] at found
    cases found
    exact dropped
  · rw [unref_released unused] at found
    cases found

/-- All references are counted alike. -/
structure SameCounts (s t : TypeStore) : Prop where
  isShut : t.isShut = s.isShut
  references : t.references = s.references
  referencesOf : ∀ h, t.referencesOf h = s.referencesOf h

/-- A reference that is taken and dropped again leaves the counts as they were. -/
theorem Took.sameCounts {s t u : TypeStore} {name : TypeName} {h : HandleId}
    (took : Took s name h t) (dropped : Dropped t h u) : s.SameCounts u where
  isShut := dropped.isShut.trans took.isShut
  references := by
    have taken := took.references
    have given := dropped.references
    omega
  referencesOf k := by
    have taken := took.referencesOf k
    have given := dropped.referencesOf k
    omega

/-- A type that has been looked up stays in use when the one that it takes the place of is given
up, even where both are the same. -/
theorem Took.dropped {s t u : TypeStore} (sound : s.Sound) (opened : s.isOpen) {name : TypeName}
    {h k : HandleId} (took : Took s name h t) (held : 0 < s.referencesOf k)
    (dropped : Dropped t k u) :
    u.isOpen ∧ 0 < u.referencesOf h ∧ u.nameOf h = name ∧ u.internedAs? name = some h := by
  have before := sound.nonneg h
  have atH := took.referencesOf h
  have atK := took.referencesOf k
  have after := dropped.referencesOf h
  rw [if_pos rfl] at atH
  refine ⟨?_, ?_, (dropped.nameOf h).trans took.nameOf, dropped.interned _ _ took.interned ?_ ?_⟩
  · rw [dropped.sound.isOpen_iff, dropped.isShut, took.isShut, ← sound.isOpen_iff]
    exact opened
  -- Where both handles are one, the reference that was taken makes up for the one given up.
  · split at after
    · next same =>
      rw [same] at after atH ⊢
      omega
    · omega
  · by_cases same : h = k
    · right
      rw [if_pos same.symm] at atK
      omega
    · exact .inl same
  · have up := references_pos_of_isOpen opened
    have fewer := dropped.references
    have more := took.references
    omega

/-! ## Every operation keeps the bookkeeping -/

theorem sound_new (extensions : Table Text) (rules : Rules) (overrides : Table Text) :
    (new extensions rules overrides).Sound where
  nonneg := fun h => by simp [new, referencesOf]
  total := by simp [new, ownerCount, totalCount]
  interned := fun name h stands => by simp [new] at stands

theorem sound_lookup {s t : TypeStore} (sound : s.Sound) {name : TypeName} {h : HandleId}
    (found : s.lookup name = .ok (h, t)) : t.Sound := by
  obtain ⟨_, -, took⟩ := took_of_lookup sound found
  exact took.sound

theorem sound_ref {s t : TypeStore} (sound : s.Sound) {h : HandleId}
    (inside : h < s.handles.length) (found : s.ref h = .ok t) : t.Sound := by
  rw [eq_taking_of_ref found]
  exact (sound.but h).taking inside

theorem sound_unref {s t : TypeStore} (sound : s.Sound) {h : HandleId}
    (found : s.unref h = .ok t) : t.Sound :=
  (dropped_of_unref sound found).sound

theorem shutdown_eq {s : TypeStore} (up : s.isShut = false) :
    s.shutdown = .ok { s with isShut := true }.release := by
  simp [shutdown, up]

theorem shutdown_again {s : TypeStore} (shut : s.isShut = true) : s.shutdown = .error closed := by
  simp [shutdown, shut]

theorem sound_shutdown {s t : TypeStore} (sound : s.Sound) (found : s.shutdown = .ok t) :
    t.Sound := by
  cases shut : s.isShut with
  | true => simp [shutdown_again shut] at found
  | false =>
    rw [shutdown_eq shut] at found
    obtain rfl := Except.ok.inj found
    have total := sound.total
    rw [ownerCount, shut] at total
    exact {
      nonneg := sound.nonneg
      total := by
        have owner : ({ s with isShut := true } : TypeStore).release.ownerCount = 0 := rfl
        have stored : ({ s with isShut := true } : TypeStore).release.references =
          s.references - 1 := rfl
        have counts : ({ s with isShut := true } : TypeStore).release.totalCount =
          s.totalCount := rfl
        simp only [Bool.false_eq_true, if_false] at total
        omega
      interned := fun name h stands => by
        simp only [release] at stands
        split at stands
        · exact absurd stands List.not_mem_nil
        · exact sound.interned name h stands }

/-- A property of the store that looking types up, giving them up and shutting down keep. -/
structure Kept (P : TypeStore → Prop) : Prop where
  lookup : ∀ {s t : TypeStore} {name : TypeName} {h : HandleId}, P s →
    s.lookup name = .ok (h, t) → P t
  unref : ∀ {s t : TypeStore} {h : HandleId}, P s → s.unref h = .ok t → P t
  shutdown : ∀ {s t : TypeStore}, P s → s.shutdown = .ok t → P t

theorem kept_sound : Kept Sound where
  lookup sound found := sound_lookup sound found
  unref sound dropped := sound_unref sound dropped
  shutdown sound ended := sound_shutdown sound ended

end TypeStore

end FileProfile
