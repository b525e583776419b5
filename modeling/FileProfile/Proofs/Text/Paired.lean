import FileProfile.FileName
import FileProfile.KeyFile.Escape
import FileProfile.Proofs.Text.Trimming

/-!
Texts whose surrogates stand in pairs.

`Text.Paired` builds such texts from units that are no surrogates and from pairs. Two of them can be
put together, and one can be cut at any unit that is no surrogate (`Paired.append`, `Paired.cut`).
Names that are accepted and values that are escaped from them are paired.
-/

namespace FileProfile

namespace CodeUnit

/-- Half of a surrogate pair. -/
def IsSurrogate (u : CodeUnit) : Prop := u.isHighSurrogate ∨ u.isLowSurrogate

instance (u : CodeUnit) : Decidable u.IsSurrogate := inferInstanceAs (Decidable (_ ∨ _))

theorem isHighSurrogate_iff {u : CodeUnit} :
    u.isHighSurrogate ↔ 0xD800 ≤ u.toNat ∧ u.toNat ≤ 0xDBFF := by
  simp [isHighSurrogate, UInt16.le_iff_toNat_le]

theorem isLowSurrogate_iff {u : CodeUnit} :
    u.isLowSurrogate ↔ 0xDC00 ≤ u.toNat ∧ u.toNat ≤ 0xDFFF := by
  simp [isLowSurrogate, UInt16.le_iff_toNat_le]

theorem isSurrogate_iff {u : CodeUnit} : u.IsSurrogate ↔ 0xD800 ≤ u.toNat ∧ u.toNat ≤ 0xDFFF := by
  unfold IsSurrogate
  rw [isHighSurrogate_iff, isLowSurrogate_iff]
  omega

theorem not_isHighSurrogate_of_isLowSurrogate {u : CodeUnit} (low : u.isLowSurrogate) :
    ¬ u.isHighSurrogate := by
  rw [isHighSurrogate_iff]
  rw [isLowSurrogate_iff] at low
  omega

theorem not_isSurrogate_of_isBlank {u : CodeUnit} (blank : u.isBlank) : ¬ u.IsSurrogate := by
  rw [isSurrogate_iff]
  simp only [isBlank, Bool.or_eq_true, Bool.and_eq_true, decide_eq_true_eq,
    UInt16.le_iff_toNat_le, ← UInt16.toNat_inj] at blank
  have := blank
  simp only [UInt16.reduceToNat] at this
  omega

end CodeUnit

namespace Text

/-- Every surrogate is half of a pair. -/
inductive Paired : Text → Prop where
  | nil : Paired []
  | unit {u : CodeUnit} {t : Text} : ¬ u.IsSurrogate → Paired t → Paired (u :: t)
  | pair {u v : CodeUnit} {t : Text} : u.isHighSurrogate → v.isLowSurrogate → Paired t →
      Paired (u :: v :: t)

theorem Paired.append {a b : Text} (first : Paired a) (second : Paired b) : Paired (a ++ b) := by
  induction first with
  | nil => exact second
  | unit plain _ ih => exact .unit plain ih
  | pair high low _ ih => exact .pair high low ih

/-- A paired text may be cut at any unit that is no surrogate. -/
theorem Paired.cut {a b : Text} {u : CodeUnit} (plain : ¬ u.IsSurrogate)
    (whole : Paired (a ++ u :: b)) : Paired a ∧ Paired b := by
  generalize shape : a ++ u :: b = t at whole
  induction whole generalizing a with
  | nil => simp at shape
  | @unit v t' other rest ih =>
    cases a with
    | nil =>
      obtain ⟨-, rfl⟩ := List.cons.inj shape
      exact ⟨.nil, rest⟩
    | cons w a' =>
      obtain ⟨rfl, tail⟩ := List.cons.inj shape
      obtain ⟨before, behind⟩ := ih tail
      exact ⟨.unit other before, behind⟩
  | @pair h l t' high low rest ih =>
    cases a with
    | nil =>
      obtain ⟨rfl, -⟩ := List.cons.inj shape
      exact absurd (.inl high) plain
    | cons w a' =>
      obtain ⟨rfl, tail⟩ := List.cons.inj shape
      cases a' with
      | nil =>
        obtain ⟨rfl, -⟩ := List.cons.inj tail
        exact absurd (.inr low) plain
      | cons w' a'' =>
        obtain ⟨rfl, behind⟩ := List.cons.inj tail
        obtain ⟨before, behind⟩ := ih behind
        exact ⟨.pair high low before, behind⟩

theorem paired_of_all_plain {t : Text} (plain : ∀ u ∈ t, ¬ u.IsSurrogate) : Paired t := by
  induction t with
  | nil => exact .nil
  | cons u rest ih =>
    exact .unit (plain u List.mem_cons_self) (ih fun v h => plain v (List.mem_cons_of_mem _ h))

/-- For a text that is given, where `plain` is decided. -/
theorem paired_of_all {t : Text} (plain : t.all fun u => ¬ u.IsSurrogate) : Paired t :=
  paired_of_all_plain fun u within => of_decide_eq_true (List.all_eq_true.mp plain u within)

theorem Paired.trimStart {t : Text} (paired : Paired t) : Paired (trimStart t) := by
  induction t with
  | nil => exact paired
  | cons u rest ih =>
    unfold Text.trimStart
    rw [List.dropWhile_cons]
    split
    · next blank =>
      have cut : Paired ([] : Text) ∧ Paired rest :=
        Paired.cut (CodeUnit.not_isSurrogate_of_isBlank blank) (a := []) paired
      exact ih cut.2
    · exact paired

theorem Paired.trimEnd {t : Text} (paired : Paired t) : Paired (trimEnd t) := by
  obtain ⟨blanks, whole, all⟩ := exists_trimEnd t
  cases blanks with
  | nil =>
    rw [List.append_nil] at whole
    rw [← whole]
    exact paired
  | cons u rest =>
    rw [whole] at paired
    exact (paired.cut (CodeUnit.not_isSurrogate_of_isBlank (all u List.mem_cons_self))).1

theorem Paired.trim {t : Text} (paired : Paired t) : Paired (trim t) := paired.trimStart.trimEnd

/-- What stands in front of the first of a unit that is no surrogate. -/
theorem Paired.takeWhile_ne {t : Text} (paired : Paired t) {u : CodeUnit}
    (plain : ¬ u.IsSurrogate) : Paired (t.takeWhile fun v => v ≠ u) := by
  have whole : t.takeWhile (fun v => v ≠ u) ++ t.dropWhile (fun v => v ≠ u) = t :=
    List.takeWhile_append_dropWhile
  have first : ∀ v ∈ (t.dropWhile fun v => v ≠ u).head?, ¬ decide (v ≠ u) := fun _ stands =>
    not_of_head?_dropWhile stands
  cases rest : t.dropWhile (fun v => v ≠ u) with
  | nil =>
    rw [rest, List.append_nil] at whole
    rw [whole]
    exact paired
  | cons v more =>
    rw [rest] at whole first
    have same : v = u := by simpa using first v rfl
    rw [← whole, same] at paired
    exact (paired.cut plain).1

end Text

/-! ## Names and values -/

/-- A name without lone surrogates is paired. The induction is over names behind a unit that is no
high surrogate, so that a low one cannot begin them. -/
theorem FileName.paired_of_hasUnpaired {t : Text} {before : Option CodeUnit}
    (noHigh : before.any CodeUnit.isHighSurrogate = false)
    (fits : FileName.hasUnpaired before t = false) : Text.Paired t := by
  induction hlen : t.length using Nat.strongRecOn generalizing t before with
  | ind n ih =>
    cases t with
    | nil => exact .nil
    | cons u rest =>
      simp only [hasUnpaired, isUnpaired, Bool.or_eq_false_iff, Bool.and_eq_false_iff,
        Bool.not_eq_false', noHigh] at fits
      obtain ⟨⟨high, low⟩, others⟩ := fits
      rw [List.length_cons] at hlen
      cases upper : u.isHighSurrogate with
      | true =>
        have follows : rest.head?.any CodeUnit.isLowSurrogate = true := by simpa [upper] using high
        cases rest with
        | nil => simp at follows
        | cons v more =>
          have lower : v.isLowSurrogate = true := by simpa using follows
          have apart := CodeUnit.not_isHighSurrogate_of_isLowSurrogate lower
          simp only [hasUnpaired, Bool.or_eq_false_iff] at others
          rw [List.length_cons] at hlen
          exact .pair upper lower
            (ih more.length (by omega) (by simpa using apart) others.2 rfl)
      | false =>
        have lower : u.isLowSurrogate = false := by simpa using low
        have plain : ¬ u.IsSurrogate := by simp [CodeUnit.IsSurrogate, upper, lower]
        exact .unit plain (ih rest.length (by omega) (by simpa using upper) others rfl)

theorem FileName.paired_of_validate {name : Text} (accepted : FileName.validate name = .ok ()) :
    Text.Paired name := by
  unfold FileName.validate at accepted
  split at accepted
  · exact absurd accepted (by simp)
  · next fits =>
    have start : (none : Option CodeUnit).any CodeUnit.isHighSurrogate = false := rfl
    refine FileName.paired_of_hasUnpaired start ?_
    cases unpaired : FileName.hasUnpaired none name with
    | false => rfl
    | true => exact absurd (.inr (.inr unpaired)) fits

namespace KeyFile

theorem escapeUnit_of_isSurrogate {u : CodeUnit} (half : u.IsSurrogate) : escapeUnit u = [u] := by
  rw [CodeUnit.isSurrogate_iff] at half
  have apart : ∀ v : CodeUnit, v.toNat < 0xD800 → u ≠ v := fun v small same => by
    rw [same] at half
    omega
  unfold escapeUnit
  rw [if_neg (apart backslash (by decide)), if_neg (apart 0x0A (by decide)),
    if_neg (apart 0x09 (by decide)), if_neg (apart 0x0D (by decide))]

theorem paired_escapeUnit {u : CodeUnit} (plain : ¬ u.IsSurrogate) :
    Text.Paired (escapeUnit u) := by
  unfold escapeUnit
  split
  · exact Text.paired_of_all (by decide)
  split
  · exact Text.paired_of_all (by decide)
  split
  · exact Text.paired_of_all (by decide)
  split
  · exact Text.paired_of_all (by decide)
  · exact .unit plain .nil

theorem paired_flatMap_escapeUnit {t : Text} (paired : Text.Paired t) :
    Text.Paired (t.flatMap escapeUnit) := by
  induction paired with
  | nil => exact .nil
  | unit plain _ ih =>
    rw [List.flatMap_cons]
    exact (paired_escapeUnit plain).append ih
  | pair high low _ ih =>
    rw [List.flatMap_cons, List.flatMap_cons, escapeUnit_of_isSurrogate (.inl high),
      escapeUnit_of_isSurrogate (.inr low)]
    exact .pair high low ih

/-- Escaping leaves the pairs together. -/
theorem paired_escape {t : Text} (paired : Text.Paired t) : Text.Paired (escape t) := by
  induction t with
  | nil => exact .nil
  | cons u rest ih =>
    rw [escape]
    split
    · next space =>
      subst space
      have behind : Text.Paired rest := (Text.Paired.cut (a := []) (by decide) paired).2
      exact .unit (by decide) (.unit (by decide) (ih behind))
    · exact paired_flatMap_escapeUnit paired

end KeyFile

end FileProfile
