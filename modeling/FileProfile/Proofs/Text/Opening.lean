import FileProfile.Proofs.Text.Utf8
import Mathlib.Order.Bounds.Basic

/-!
UTF-8 cut off anywhere.

However many octets are taken of a text, they are those of whole characters and of one that is begun
(`exists_opening`). Of a character that is begun nothing is reported (`scan_begun`), so that a
reader of openings gives the whole characters and no malformed run (`decodeOpening?_append`).
-/

namespace FileProfile

open Text (Paired)

namespace Utf8

/-! ## Reading in parts -/

theorem scan_append (s : Option Pending) (a b : Octets) :
    scan s (a ++ b) = ((scan s a).1 ++ (scan (scan s a).2 b).1, (scan (scan s a).2 b).2) := by
  induction a generalizing s with
  | nil => rfl
  | cons u rest ih => rw [List.cons_append, scan_cons, scan_cons, ih, List.append_assoc]

/-- An octet that leaves no character under way has been reported on. -/
theorem step_reports {s : Option Pending} {b : UInt8} (whole : (step s b).2 = none) :
    (step s b).1 ≠ [] := by
  have starts : (start b).2 = none → (start b).1 ≠ [] := by
    unfold start
    split
    · simp
    split
    · simp
    split
    · simp
    split <;> simp
  cases s with
  | none => exact starts whole
  | some pending =>
    rw [step] at whole ⊢
    split at whole
    · split at whole
      · next within last =>
        rw [if_pos within, if_pos last]
        simp
      · cases whole
    · next outside =>
      rw [if_neg outside]
      simp

theorem scan_reports {s : Option Pending} {bytes : Octets} (given : bytes ≠ [])
    (whole : (scan s bytes).2 = none) : (scan s bytes).1 ≠ [] := by
  induction bytes generalizing s with
  | nil => exact absurd rfl given
  | cons b rest ih =>
    rw [scan_cons] at whole ⊢
    cases rest with
    | nil => simpa [scan] using step_reports whole
    | cons c more => exact List.append_ne_nil_of_right_ne_nil _ (ih (List.cons_ne_nil c more) whole)

/-- Of a character that is cut off nothing is reported. -/
theorem scan_begun {p : Nat} (scalar : Scalar p) {begun missing : Octets}
    (octets : encodePoint p = begun ++ missing) (open' : missing ≠ []) :
    (scan none begun).1 = [] := by
  have all := scan_encodePoint scalar []
  rw [List.append_nil, octets, scan_append] at all
  obtain ⟨items, whole⟩ := Prod.mk.inj all
  -- What is missing ends the character, so the one report of it comes from there.
  have later := scan_reports open' whole
  rcases List.append_eq_singleton_iff.mp items with ⟨none, -⟩ | ⟨-, none⟩
  · exact none
  · exact absurd none later

/-! ## Boundaries of characters -/

/-- The first `k` octets of a text are those of whole characters. -/
def IsBoundary (t : Text) (k : Nat) : Prop := ∃ a, a <+: t ∧ Paired a ∧ (encode a).length = k

/-- The octets of the first `j` of some code points. -/
def octetsOf (ps : List Nat) (j : Nat) : Octets := (ps.take j).flatMap encodePoint

theorem octetsOf_succ (p : Nat) (rest : List Nat) (j : Nat) :
    octetsOf (p :: rest) (j + 1) = encodePoint p ++ octetsOf rest j := rfl

/-- The first `n` octets of some characters are those of as many whole ones as fit, and the
beginning of the next. -/
theorem exists_octetsOf {ps : List Nat} (scalars : ∀ p ∈ ps, Scalar p) (n : Nat) :
    ∃ j begun, (ps.flatMap encodePoint).take n = octetsOf ps j ++ begun ∧
      (scan none begun).1 = [] ∧ (octetsOf ps j).length ≤ n ∧
      ∀ i, (octetsOf ps i).length ≤ n → (octetsOf ps i).length ≤ (octetsOf ps j).length := by
  induction ps generalizing n with
  | nil => exact ⟨0, [], by simp [octetsOf], rfl, by simp [octetsOf], fun i _ => by simp [octetsOf]⟩
  | cons p rest ih =>
    rw [List.flatMap_cons, List.take_append]
    rcases Nat.lt_or_ge n (encodePoint p).length with short | fits
    · have missing : (encodePoint p).drop n ≠ [] := by
        rw [ne_eq, List.drop_eq_nil_iff]
        exact Nat.not_le.mpr short
      have silent := scan_begun (scalars p List.mem_cons_self)
        (List.take_append_drop n (encodePoint p)).symm missing
      refine ⟨0, (encodePoint p).take n, ?_, silent, Nat.zero_le n, fun i inside => ?_⟩
      · rw [Nat.sub_eq_zero_of_le (Nat.le_of_lt short), List.take_zero, List.append_nil]
        rfl
      · cases i with
        | zero => exact Nat.le_refl _
        | succ i =>
          rw [octetsOf_succ, List.length_append] at inside
          omega
    · obtain ⟨j, begun, cut, silent, bound, greatest⟩ :=
        ih (fun q within => scalars q (List.mem_cons_of_mem _ within)) (n - (encodePoint p).length)
      refine ⟨j + 1, begun, ?_, silent, ?_, fun i inside => ?_⟩
      · rw [List.take_of_length_le fits, cut, octetsOf_succ, List.append_assoc]
      · rw [octetsOf_succ, List.length_append]
        omega
      · cases i with
        | zero => exact Nat.zero_le _
        | succ i =>
          rw [octetsOf_succ, List.length_append] at inside ⊢
          rw [octetsOf_succ, List.length_append]
          have before := greatest i (by omega)
          omega

theorem octetsOf_codePoints {t a b : Text} (front : Paired a) (whole : t = a ++ b) :
    encode a = octetsOf t.codePoints a.codePoints.length := by
  have points := codePoints_append front b
  rw [encode_of_scalars (codePoints_of_paired front).1, octetsOf, whole, points, List.take_left']
  rfl

/-- A text up to one of its code points. -/
theorem exists_front {t : Text} (paired : Paired t) (j : Nat) :
    ∃ a, a <+: t ∧ Paired a ∧ encode a = octetsOf t.codePoints j := by
  obtain ⟨scalars, back⟩ := codePoints_of_paired paired
  have among : ∀ p ∈ t.codePoints.take j, Scalar p := fun p within =>
    scalars p (List.mem_of_mem_take within)
  obtain ⟨front, points⟩ := ofCodePoints_spec among
  refine ⟨Text.ofCodePoints (t.codePoints.take j), ⟨Text.ofCodePoints (t.codePoints.drop j), ?_⟩,
    front, ?_⟩
  · rw [Text.ofCodePoints, Text.ofCodePoints, ← List.flatMap_append, List.take_append_drop]
    exact back
  · rw [encode_of_scalars (by rw [points]; exact among), points, octetsOf]

/-- The first `n` octets of a text are those of `a`, its longest front of whole characters that
fits, and the beginning of the next character. -/
theorem exists_opening {t : Text} (paired : Paired t) (n : Nat) :
    ∃ a begun, a <+: t ∧ Paired a ∧ (encode t).take n = encode a ++ begun ∧
      (scan none begun).1 = [] ∧ IsGreatest {k | IsBoundary t k ∧ k ≤ n} (encode a).length := by
  have scalars := (codePoints_of_paired paired).1
  obtain ⟨j, begun, cut, silent, bound, greatest⟩ := exists_octetsOf scalars n
  obtain ⟨a, inside, front, octets⟩ := exists_front paired j
  refine ⟨a, begun, inside, front, ?_, silent, ⟨⟨a, inside, front, rfl⟩, ?_⟩, ?_⟩
  · rw [encode_of_scalars scalars, cut, octets]
  · rw [octets]
    exact bound
  · rintro _ ⟨⟨b, ⟨rest, whole⟩, other, rfl⟩, fits⟩
    rw [octetsOf_codePoints other whole.symm] at fits ⊢
    rw [octets]
    exact greatest _ fits

/-! ## Reading openings -/

/-- A reader of openings gives the whole characters, whatever is begun behind them. -/
theorem decodeOpening?_append {a : Text} (paired : Paired a) {begun : Octets}
    (silent : (scan none begun).1 = []) :
    decodeOpening? (encode a ++ begun) = some (dropMark a) := by
  rw [decodeOpening?, scan_append, scan_encode paired]
  simp only [silent, List.append_nil, points?_map_point, Option.map_some]
  rw [(codePoints_of_paired paired).2]

end Utf8

end FileProfile
