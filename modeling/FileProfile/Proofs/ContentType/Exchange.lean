import FileProfile.Proofs.ContentType.Counting

/-!
One reference to a handle in exchange for one to another.

This is what the renaming of a descriptor does to the store of content types: the handle of the new
type is taken and that of the old one given up (`Exchanged.of_took_dropped`). Exchanges add up
(`Exchanged.trans`), and one handle in exchange for another of the same type leaves the types in use
as they were (`Exchanged.isLive_iff`).
-/

namespace FileProfile

namespace TypeStore

/-- The store `t` is `s` with one reference to the handle `k` more and one to `h` less. -/
structure Exchanged (s : TypeStore) (h k : HandleId) (t : TypeStore) : Prop
    extends SameRules s t where
  references : t.references = s.references
  length : s.handles.length ≤ t.handles.length
  nameOf : ∀ l, l < s.handles.length → t.nameOf l = s.nameOf l
  referencesOf : ∀ l, t.referencesOf l + (if l = h then 1 else 0) =
    s.referencesOf l + if l = k then 1 else 0

/-- A type is in use while one of its handles is referenced. -/
def IsLive (s : TypeStore) (type : TypeName) : Prop := ∃ h, 0 < s.referencesOf h ∧ s.nameOf h = type

namespace Exchanged

variable {s t u : TypeStore} {h k l : HandleId}

theorem refl (s : TypeStore) (h : HandleId) : s.Exchanged h h s where
  toSameRules := .refl s
  references := rfl
  length := Nat.le_refl _
  nameOf _ _ := rfl
  referencesOf _ := rfl

theorem of_took_dropped {type : TypeName} (took : Took s type k t) (dropped : Dropped t h u) :
    s.Exchanged h k u where
  toSameRules := took.toSameRules.trans dropped.toSameRules
  references := by
    have taken := took.references
    have given := dropped.references
    omega
  length := by
    rw [dropped.length]
    exact took.length
  nameOf l inside := (dropped.nameOf l).trans (took.nameOf_old l inside)
  referencesOf l := by
    have taken := took.referencesOf l
    have given := dropped.referencesOf l
    omega

theorem trans (first : s.Exchanged h k t) (second : t.Exchanged k l u) : s.Exchanged h l u where
  toSameRules := first.toSameRules.trans second.toSameRules
  references := second.references.trans first.references
  length := Nat.le_trans first.length second.length
  nameOf a inside :=
    (second.nameOf a (Nat.lt_of_lt_of_le inside first.length)).trans (first.nameOf a inside)
  referencesOf a := by
    have before := first.referencesOf a
    have after := second.referencesOf a
    omega

/-- Where a reference is exchanged for one to a handle of the same type, the same types are in
use. -/
theorem isLive_iff (exchanged : s.Exchanged h k t) (held : 0 < s.referencesOf h)
    (taken : 0 < t.referencesOf k) (named : t.nameOf k = s.nameOf h) (type : TypeName) :
    t.IsLive type ↔ s.IsLive type := by
  constructor
  · rintro ⟨a, used, rfl⟩
    by_cases same : a = k
    · exact ⟨h, held, by rw [same, named]⟩
    · have counts := exchanged.referencesOf a
      rw [if_neg same] at counts
      have before : 0 < s.referencesOf a := by
        split at counts <;> omega
      exact ⟨a, before, (exchanged.nameOf a (lt_length_of_counted before)).symm⟩
  · rintro ⟨a, used, rfl⟩
    by_cases same : a = h
    · exact ⟨k, taken, by rw [same, named]⟩
    · have counts := exchanged.referencesOf a
      rw [if_neg same] at counts
      have after : 0 < t.referencesOf a := by
        split at counts <;> omega
      exact ⟨a, after, exchanged.nameOf a (lt_length_of_counted used)⟩

end Exchanged

end TypeStore

end FileProfile
