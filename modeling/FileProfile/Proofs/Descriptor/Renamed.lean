import FileProfile.Proofs.Descriptor.Entry

/-!
What a renaming that succeeds makes of the descriptor.

A desktop entry and a file that is no regular one keep the handle of their type. A regular file gets
the handle of its new type, which has been looked up, in place of the old one, which is given up
(`Session.renamed_of_rename`).
-/

namespace FileProfile

/-- Renaming has made `y` of the descriptor `x`, which has as many references as before. It holds
the same handle, or in its place one that has been looked up. -/
structure Session.Renamed (s : Session) (d : DescriptorId) (x y : Descriptor) (t : Session) :
    Prop where
  found : s.descriptors[d]? = some x
  living : x.isAlive
  descriptors : t.descriptors = s.descriptors.set d y
  references : y.references = x.references
  types : (t.types = s.types ∧ y.contentType = x.contentType) ∨
    ∃ type u, TypeStore.Took s.types type y.contentType u ∧
      TypeStore.Dropped u x.contentType t.types

namespace Session

variable {s t : Session} {d : DescriptorId} {x : Descriptor} {name : Text} {context : Context}

/-- What has been moved holds the handle of its old type, or the one that has been looked up. -/
theorem renamed_of_moveEnds (found : s.descriptors[d]? = some x) (living : x.isAlive)
    (ends : s.MoveEnds d x name (.ok (), t)) : ∃ y, s.Renamed d x y t := by
  cases ends with
  | @moved fs v change log moves types =>
    refine ⟨change.applied x, found, living, Action.modify_eq_set found _, rfl, ?_⟩
    have handle : (change.applied x).contentType = change.contentType.getD x.contentType := rfl
    rcases types with ⟨same, keeping⟩ | ⟨type, h, u, replacing, took, dropped⟩
    · exact .inl ⟨same, by rw [handle, keeping]; rfl⟩
    · refine .inr ⟨type, u, ?_, dropped⟩
      rw [handle, replacing]
      exact took

theorem renamed_of_rename (sound : s.types.Sound)
    (run : (Action.rename d name context).runOn s = (.ok (), t)) : ∃ x y, s.Renamed d x y t := by
  have ends := Action.renameEnds sound d name context
  rw [run] at ends
  cases ends with
  | @edited x _ edits run =>
    obtain ⟨_, _, fs, log, -, -, -, rfl⟩ := Action.renameEntry_eq_ok edits.found edits.living run
    exact ⟨x, x.entitled name, edits.found, edits.living, rfl, rfl, .inl ⟨rfl, rfl⟩⟩
  | @moved x _ moves free opened tells ends =>
    exact ⟨x, renamed_of_moveEnds moves.found moves.living ends⟩

end Session

end FileProfile
