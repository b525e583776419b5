import FileProfile.Proofs.ContentType.Interning
import FileProfile.Proofs.Session.Run

/-!
Handles that are taken up again after their last reference has been given up.

`Session.Revives` follows a run and keeps in mind which handles are in use only because they have
been taken up again. These are the handles in use that no lookup finds (`Revives.internedBut`). In a
run that takes none up again every name has one handle; where some are in use, a name may have two
(`oneHandlePerName_iff_of_revives`).
-/

namespace FileProfile

namespace Session

variable {s : Session} {revived : List HandleId} {r : Request}

/-- The handle without references that a request takes up again. -/
def takenUp (s : Session) : Request → List HandleId
  | .refType h => if s.types.referencesOf h ≤ 0 then [h] else []
  | _ => []

/-- The handles that have been taken up again and are in use after a request. -/
def revivedAfter (s : Session) (r : Request) (revived : List HandleId) : List HandleId :=
  (s.takenUp r ++ revived).filter fun h => 0 < (s.after r).types.referencesOf h

/-- The session comes about by requests, the files changing under them, and `revived` are the
handles in use that have been taken up again since they were last without references. -/
inductive Revives : Session → List HandleId → Prop where
  | start (files : FileSystem) (extensions : Table Text) (rules : Rules) (overrides : Table Text) :
      Revives { files, types := .new extensions rules overrides } []
  | ask {s : Session} {revived : List HandleId} (r : Request) : Revives s revived → s.CanAsk r →
      Revives (s.after r) (s.revivedAfter r revived)
  | touch {s : Session} {revived : List HandleId} (files : FileSystem) : Revives s revived →
      Revives { s with files } revived

theorem takenUp_of_ne (other : ∀ h, r ≠ .refType h) : s.takenUp r = [] := by
  cases r with
  | refType h => exact absurd rfl (other h)
  | _ => rfl

theorem internedBut_refType (tidy : s.types.InternedBut revived) {h : HandleId}
    (inside : h < s.types.handles.length) :
    (s.after (.refType h)).types.InternedBut (s.revivedAfter (.refType h) revived) := by
  have taken : s.takenUp (.refType h) = if s.types.referencesOf h ≤ 0 then [h] else [] := rfl
  rw [revivedAfter, taken, types_after_refType]
  by_cases usable : 0 < s.types.referencesOf h ∨ ¬ s.types.isTornDown
  · rw [TypeStore.ref_eq usable]
    show (s.types.taking h).InternedBut _
    by_cases unused : s.types.referencesOf h ≤ 0
    · rw [if_pos unused]
      exact (tidy.taking_revived inside unused).filter_used
    · rw [if_neg unused]
      exact (tidy.taking (Int.not_le.mp unused)).filter_used
  -- A handle that cannot be taken up again stays without references.
  · obtain ⟨unused, down⟩ := not_or.mp usable
    have fails := TypeStore.ref_released (Int.not_lt.mp unused) (not_not.mp down)
    rw [fails, if_pos (Int.not_lt.mp unused)]
    show s.types.InternedBut ((h :: revived).filter fun k => 0 < s.types.referencesOf k)
    rw [List.filter_cons_of_neg (by simpa using unused)]
    exact tidy.filter_used

theorem internedBut_after (tidy : s.types.InternedBut revived) (can : s.CanAsk r) :
    (s.after r).types.InternedBut (s.revivedAfter r revived) := by
  by_cases counts : ∃ h, r = .refType h
  · obtain ⟨h, rfl⟩ := counts
    exact internedBut_refType tidy (can h rfl)
  · have other : ∀ h, r ≠ .refType h := fun h same => counts ⟨h, same⟩
    rw [revivedAfter, takenUp_of_ne other, List.nil_append]
    exact (kept_after (TypeStore.kept_internedBut revived) tidy other).filter_used

namespace Revives

/-- The handles in use that have been taken up again are those that the intern table lacks. -/
theorem internedBut (run : s.Revives revived) : s.types.InternedBut revived := by
  induction run with
  | start files extensions rules overrides =>
    exact TypeStore.internedBut_new extensions rules overrides
  | ask r _ can ih => exact internedBut_after ih can
  | touch files _ ih => exact ih

theorem used (run : s.Revives revived) : ∀ h ∈ revived, 0 < s.types.referencesOf h := by
  induction run with
  | start files extensions rules overrides => exact fun h taken => absurd taken List.not_mem_nil
  | ask r _ _ _ => exact fun h taken => of_decide_eq_true (List.mem_filter.mp taken).2
  | touch files _ ih => exact ih

end Revives

/-- Where no request takes another reference to a handle by its number, none is taken up again. -/
theorem ReachableBy.revives_nil {allowed : Request → Bool}
    (none : ∀ h, allowed (.refType h) = false) (run : s.ReachableBy allowed) : s.Revives [] := by
  induction run with
  | start files extensions rules overrides => exact .start files extensions rules overrides
  | touch files _ ih => exact .touch files ih
  | @ask s r _ permitted can ih =>
    have other : ∀ h, r ≠ .refType h := fun h same => by
      rw [same, none h] at permitted
      cases permitted
    have step := Revives.ask r ih can
    rw [revivedAfter, takenUp_of_ne other] at step
    exact step

/-- Handles may be compared in place of names exactly if none that has been taken up again has a
namesake, while no lookup could give it one, and every name in use is a text and no alias. -/
theorem oneHandlePerName_iff_of_revives (run : s.Revives revived) :
    s.types.OneHandlePerName ↔
      (∀ h ∈ revived, ∀ k, 0 < s.types.referencesOf k → s.types.nameOf k = s.types.nameOf h →
        k = h) ∧
      (s.types.isOpen → revived = [] ∧ ∀ h, 0 < s.types.referencesOf h →
        s.types.rules.canonical (s.types.nameOf h) = .ok (s.types.nameOf h)) :=
  TypeStore.oneHandlePerName_iff run.internedBut run.used

/-- A session in which a handle has been given up and another one of its name is in use. -/
def replaced : Session :=
  let opened : Session := { files := {}, types := .new [] {} [] }
  let lookup : Request := .lookupType (.text "text/plain")
  ((opened.after lookup).after (.unrefType 0)).after lookup

theorem revives_replaced : (replaced.after (.refType 0)).Revives [0] := by
  have run : replaced.Revives [] :=
    .ask (.lookupType (.text "text/plain")) (.ask (.unrefType 0)
      (.ask (.lookupType (.text "text/plain")) (.start _ _ _ _) nofun) nofun) nofun
  have marks : replaced.revivedAfter (.refType 0) [] = [0] := by decide +kernel
  rw [← marks]
  exact .ask (.refType 0) run fun h same => by
    cases same
    decide +kernel

theorem not_oneHandlePerName_replaced : ¬ (replaced.after (.refType 0)).types.OneHandlePerName := by
  rw [oneHandlePerName_iff_of_revives revives_replaced]
  rintro ⟨alone, -⟩
  have same := alone 0 List.mem_cons_self 1 (by decide +kernel) (by decide +kernel)
  exact absurd same (by decide)

end Session

end FileProfile
