import FileProfile.ContentType.Bundled
import FileProfile.ContentType.Sniff
import FileProfile.Proofs.Text.Opening

/-!
Content types of texts of which only a part is read.

The octets of a text may be cut off anywhere. Where no signature tells their type, they tell the
type that the whole characters among them tell, or plain text where there is none (`sniff_cut`). So
a text does not become binary because a character of it is cut.
-/

namespace FileProfile

open Text (Paired)

open Utf8 (encode dropMark scan IsBoundary)

namespace ContentType

/-- The first octets are neither those of an object file nor those of a signature. -/
def Unmarked (rules : Rules) (bytes : Octets) : Prop :=
  hasAt 0 elfMark bytes = false ∧ ∀ s ∈ rules.signatures, hasAt s.offset s.octets bytes = false

instance (rules : Rules) (bytes : Octets) : Decidable (Unmarked rules bytes) :=
  inferInstanceAs (Decidable (_ ∧ _))

/-- A signature that stands in a part stands in the whole. -/
theorem hasAt_append {offset : Nat} {signature bytes : Octets}
    (found : hasAt offset signature bytes = true) (rest : Octets) :
    hasAt offset signature (bytes ++ rest) = true := by
  rw [hasAt, Bool.and_eq_true, List.isPrefixOf_iff_prefix, decide_eq_true_eq] at found ⊢
  obtain ⟨⟨behind, whole⟩, fits⟩ := found
  refine ⟨?_, ?_⟩
  · rw [List.drop_append_of_le_length (by omega), ← whole, List.append_assoc]
    exact List.prefix_append _ _
  · rw [List.length_append]
    omega

theorem Unmarked.of_append {rules : Rules} {bytes rest : Octets}
    (unmarked : Unmarked rules (bytes ++ rest)) : Unmarked rules bytes := by
  have absent : ∀ {offset signature}, hasAt offset signature (bytes ++ rest) = false →
      hasAt offset signature bytes = false := fun none =>
    Bool.eq_false_of_not_eq_true fun found => by
      rw [hasAt_append found rest] at none
      cases none
  exact ⟨absent unmarked.1, fun s listed => absent (unmarked.2 s listed)⟩

/-! ## Zeros -/

theorem zero_mem_encodePoint {p : Nat} (zero : 0 ∈ Utf8.encodePoint p) (scalar : Utf8.Scalar p) :
    p = 0 := by
  rw [Utf8.scalar_iff] at scalar
  have value : ∀ {n : Nat}, n < 256 → (0 : UInt8) = n.toUInt8 → n = 0 := fun small same => by
    rw [← Utf8.toUInt8_toNat small, ← same]
    rfl
  -- The octets of a longer form are all at least 0x80.
  unfold Utf8.encodePoint at zero
  split at zero
  · exact value (by omega) (List.mem_singleton.mp zero)
  split at zero
  · simp only [List.mem_cons, List.not_mem_nil, or_false] at zero
    rcases zero with same | same <;> have := value (by omega) same <;> omega
  split at zero
  · simp only [List.mem_cons, List.not_mem_nil, or_false] at zero
    rcases zero with same | same | same <;> have := value (by omega) same <;> omega
  · simp only [List.mem_cons, List.not_mem_nil, or_false] at zero
    rcases zero with same | same | same | same <;> have := value (by omega) same <;> omega

theorem zero_mem_codePoints {t : Text} (paired : Paired t) (zero : 0 ∈ t.codePoints) : 0 ∈ t := by
  have back := (Utf8.codePoints_of_paired paired).2
  rw [← back]
  exact List.mem_flatMap.mpr ⟨0, zero, List.mem_singleton.mpr rfl⟩

/-- A text without a zero is written without one. -/
theorem zero_not_mem_encode {t : Text} (paired : Paired t) (zeroless : 0 ∉ t) : 0 ∉ encode t := by
  have scalars := (Utf8.codePoints_of_paired paired).1
  rw [Utf8.encode_of_scalars scalars]
  intro zero
  obtain ⟨p, among, within⟩ := List.mem_flatMap.mp zero
  obtain rfl := zero_mem_encodePoint within (scalars p among)
  exact zeroless (zero_mem_codePoints paired among)

/-! ## Texts that are cut off -/

/-- What is told of the opening of a text, if no signature stands there. -/
theorem sniff_of_openingText {rules : Rules} {bytes : Octets} {text : Text} (given : bytes ≠ [])
    (unmarked : Unmarked rules bytes) (opens : openingText? bytes = some text) :
    sniff rules bytes = ofText rules text := by
  have none : rules.signatures.find? (fun s => hasAt s.offset s.octets bytes) = none :=
    List.find?_eq_none.mpr fun s listed => by
      rw [unmarked.2 s listed]
      exact Bool.false_ne_true
  rw [sniff, if_neg given, unmarked.1, if_neg Bool.false_ne_true, none]
  simp only [opens]

theorem ofText_nil (rules : Rules) : ofText rules [] = plainText := by
  rw [ofText, if_neg (by decide), if_neg (by decide)]

/-- The opening of a text is that of its whole characters. -/
theorem openingText?_append {a : Text} (paired : Paired a) {begun : Octets}
    (silent : (scan none begun).1 = []) (zeroless : 0 ∉ encode a ++ begun) :
    openingText? (encode a ++ begun) = some (dropMark a) := by
  have none : (encode a ++ begun).contains 0 = false := by
    rw [List.contains_eq_mem, decide_eq_false_iff_not]
    exact zeroless
  rw [openingText?, none, if_neg Bool.false_ne_true]
  exact Utf8.decodeOpening?_append paired silent

/-- What is told of whole characters alone. -/
theorem sniff_encode {rules : Rules} {a : Text} (paired : Paired a) (given : a ≠ [])
    (zeroless : 0 ∉ encode a) (unmarked : Unmarked rules (encode a)) :
    sniff rules (encode a) = ofText rules (dropMark a) := by
  have opens : 0 ∉ encode a ++ [] → openingText? (encode a ++ []) = some (dropMark a) :=
    openingText?_append paired rfl
  rw [List.append_nil] at opens
  refine sniff_of_openingText ?_ unmarked (opens zeroless)
  intro none
  exact given (Utf8.encode_injective paired .nil none)

/-- A text without zeros that is cut off at any octet is read as a text, and has the type that its
whole characters have: that of the octets up to the last boundary, or plain text where that is the
start. -/
theorem sniff_cut (rules : Rules) {t : Text} (paired : Paired t) (zeroless : 0 ∉ t)
    (given : t ≠ []) {n : Nat} (positive : 0 < n)
    (unmarked : Unmarked rules ((encode t).take n)) :
    ∃ k, IsGreatest {k | IsBoundary t k ∧ k ≤ n} k ∧
      (∃ text, openingText? ((encode t).take n) = some text) ∧
      sniff rules ((encode t).take n) =
        if k = 0 then .text plainText else sniff rules ((encode t).take k) := by
  obtain ⟨a, begun, ⟨rest, whole⟩, front, cut, silent, greatest⟩ := Utf8.exists_opening paired n
  have zeros : 0 ∉ (encode t).take n := by
    intro zero
    exact zero_not_mem_encode paired zeroless (List.mem_of_mem_take zero)
  have some : (encode t).take n ≠ [] := by
    rw [ne_eq, List.take_eq_nil_iff]
    rintro (none | none)
    · exact absurd none (Nat.ne_of_gt positive)
    · exact given (Utf8.encode_injective paired .nil none)
  have shorter : (encode t).take (encode a).length = encode a := by
    rw [← whole, Utf8.encode_append front, List.take_left']
    rfl
  rw [cut] at zeros some unmarked
  have opens := openingText?_append front silent zeros
  refine ⟨(encode a).length, greatest, ⟨dropMark a, by rw [cut, opens]⟩, ?_⟩
  rw [cut, shorter, sniff_of_openingText some unmarked opens]
  split
  · next none =>
    obtain rfl : a = [] := Utf8.encode_injective front .nil (List.length_eq_zero_iff.mp none)
    exact ofText_nil rules
  · next more =>
    have given' : a ≠ [] := by
      rintro rfl
      exact more rfl
    have zeros' : 0 ∉ encode a := fun zero => zeros (List.mem_append_left begun zero)
    exact (sniff_encode front given' zeros' unmarked.of_append).symm

/-- The last character of a script is cut in the middle. -/
theorem sniff_cut_script : ∃ k, IsGreatest {k | IsBoundary "#!/bin/sh\né" k ∧ k ≤ 11} k ∧
    (∃ text, openingText? ((encode "#!/bin/sh\né").take 11) = some text) ∧
    sniff Rules.bundled ((encode "#!/bin/sh\né").take 11) =
      if k = 0 then .text plainText else sniff Rules.bundled ((encode "#!/bin/sh\né").take k) :=
  sniff_cut Rules.bundled (Text.paired_of_all (by decide)) (by decide) (by decide) (by decide)
    (by decide)

end ContentType

end FileProfile
