import FileProfile.Proofs.Text.Paired
import FileProfile.Text.Utf8

/-!
UTF-8 read back.

Paired texts and the octets that a strict reader accepts are two forms of the same thing: reading
what was written gives the text again (`decodeLossy_encode`), and writing what was read gives the
octets again, the byte order mark apart (`decode?_eq_some`). The reader of any octets gives a paired
text as well (`paired_decodeLossy`).
-/

namespace FileProfile

open Text (Paired)

namespace Utf8

/-- A code point that encodes a character. -/
def Scalar (p : Nat) : Prop := p < 0x110000 ∧ isSurrogatePoint p = false

theorem scalar_iff {p : Nat} : Scalar p ↔ p < 0xD800 ∨ 0xDFFF < p ∧ p < 0x110000 := by
  simp only [Scalar, isSurrogatePoint, Bool.and_eq_false_iff, decide_eq_false_iff_not]
  omega

/-! ## Writing -/

theorem toNat_lt (u : CodeUnit) : u.toNat < 0x10000 := u.toNat_lt

theorem scalar_of_not_isSurrogate {u : CodeUnit} (plain : ¬ u.IsSurrogate) : Scalar u.toNat := by
  have small := toNat_lt u
  rw [CodeUnit.isSurrogate_iff] at plain
  rw [scalar_iff]
  omega

theorem pairPoint_bounds {u v : CodeUnit} (high : u.isHighSurrogate) (low : v.isLowSurrogate) :
    0x10000 ≤ Text.pairPoint u v ∧ Text.pairPoint u v < 0x110000 := by
  rw [CodeUnit.isHighSurrogate_iff] at high
  rw [CodeUnit.isLowSurrogate_iff] at low
  unfold Text.pairPoint
  omega

theorem scalar_pairPoint {u v : CodeUnit} (high : u.isHighSurrogate) (low : v.isLowSurrogate) :
    Scalar (Text.pairPoint u v) := by
  have bounds := pairPoint_bounds high low
  rw [scalar_iff]
  omega

theorem codePoints_unit {u : CodeUnit} (plain : ¬ u.IsSurrogate) (t : Text) :
    Text.codePoints (u :: t) = u.toNat :: Text.codePoints t := by
  have noHigh : u.isHighSurrogate = false := by
    cases high : u.isHighSurrogate with
    | false => rfl
    | true => exact absurd (.inl high) plain
  cases t with
  | nil => rfl
  | cons v rest =>
    rw [Text.codePoints, noHigh, Bool.false_and]
    rfl

theorem codePoints_pair {u v : CodeUnit} (high : u.isHighSurrogate) (low : v.isLowSurrogate)
    (t : Text) : Text.codePoints (u :: v :: t) = Text.pairPoint u v :: Text.codePoints t := by
  rw [Text.codePoints, high, low]
  rfl

theorem ofCodePoint_toNat (u : CodeUnit) : Text.ofCodePoint u.toNat = [u] := by
  rw [Text.ofCodePoint, if_pos (toNat_lt u)]
  simp

theorem ofCodePoint_pairPoint {u v : CodeUnit} (high : u.isHighSurrogate)
    (low : v.isLowSurrogate) : Text.ofCodePoint (Text.pairPoint u v) = [u, v] := by
  have bounds := pairPoint_bounds high low
  rw [CodeUnit.isHighSurrogate_iff] at high
  rw [CodeUnit.isLowSurrogate_iff] at low
  rw [Text.ofCodePoint, if_neg (by omega)]
  have first : 0xD800 + (Text.pairPoint u v - 0x10000) / 0x400 = u.toNat := by
    unfold Text.pairPoint
    omega
  have second : 0xDC00 + (Text.pairPoint u v - 0x10000) % 0x400 = v.toNat := by
    unfold Text.pairPoint
    omega
  rw [first, second]
  simp

/-- The code points of a paired text encode characters, and give the text back. -/
theorem codePoints_of_paired {t : Text} (paired : Paired t) :
    (∀ p ∈ t.codePoints, Scalar p) ∧ Text.ofCodePoints t.codePoints = t := by
  induction paired with
  | nil => exact ⟨fun p h => absurd h List.not_mem_nil, rfl⟩
  | @unit u t plain _ ih =>
    rw [codePoints_unit plain]
    refine ⟨fun p h => ?_, ?_⟩
    · rcases List.mem_cons.mp h with rfl | later
      · exact scalar_of_not_isSurrogate plain
      · exact ih.1 p later
    · rw [Text.ofCodePoints, List.flatMap_cons, ofCodePoint_toNat, ← Text.ofCodePoints, ih.2]
      rfl
  | @pair u v t high low _ ih =>
    rw [codePoints_pair high low]
    refine ⟨fun p h => ?_, ?_⟩
    · rcases List.mem_cons.mp h with same | later
      · rw [same]
        exact scalar_pairPoint high low
      · exact ih.1 p later
    · rw [Text.ofCodePoints, List.flatMap_cons, ofCodePoint_pairPoint high low,
        ← Text.ofCodePoints, ih.2]
      rfl

theorem codePoints_append {a : Text} (paired : Paired a) (b : Text) :
    (a ++ b).codePoints = a.codePoints ++ b.codePoints := by
  induction paired with
  | nil => rfl
  | unit plain _ ih => rw [List.cons_append, codePoints_unit plain, codePoints_unit plain, ih]; rfl
  | pair high low _ ih =>
    rw [List.cons_append, List.cons_append, codePoints_pair high low, codePoints_pair high low, ih]
    rfl

theorem encode_append {a : Text} (paired : Paired a) (b : Text) :
    encode (a ++ b) = encode a ++ encode b := by
  rw [encode, codePoints_append paired, List.flatMap_append]
  rfl

theorem encode_of_scalars {t : Text} (scalars : ∀ p ∈ t.codePoints, Scalar p) :
    encode t = t.codePoints.flatMap encodePoint := by
  have same : ∀ p ∈ t.codePoints,
      encodePoint (if isSurrogatePoint p then replacement else p) = encodePoint p := fun p h => by
    rw [(scalars p h).2, if_neg (by simp)]
  rw [encode, List.flatMap_def, List.flatMap_def, List.map_congr_left same]

/-! ## Reading what was written -/

theorem toUInt8_toNat {n : Nat} (small : n < 256) : n.toUInt8.toNat = n := by
  rw [Nat.toUInt8, UInt8.toNat_ofNat']
  omega

theorem scan_cons (s : Option Pending) (b : UInt8) (rest : Octets) :
    scan s (b :: rest) = ((step s b).1 ++ (scan (step s b).2 rest).1, (scan (step s b).2 rest).2) :=
  rfl

/-! ### Single steps -/

theorem start_ascii {b : UInt8} (small : b.toNat < 0x80) : start b = ([.point b.toNat], none) := by
  unfold start
  rw [if_pos (UInt8.lt_iff_toNat_lt.mpr small)]

theorem start_two {b : UInt8} (low : 0xC2 ≤ b.toNat) (high : b.toNat ≤ 0xDF) :
    start b = ([], some ⟨1, 0x80, 0xBF, b.toNat - 0xC0⟩) := by
  unfold start
  simp only [UInt8.lt_iff_toNat_lt, UInt8.le_iff_toNat_le, UInt8.reduceToNat]
  rw [if_neg (by omega), if_pos ⟨low, high⟩]

theorem start_three {b : UInt8} (low : 0xE0 ≤ b.toNat) (high : b.toNat ≤ 0xEF) :
    start b = ([], some ⟨2, if b.toNat = 0xE0 then 0xA0 else 0x80,
      if b.toNat = 0xED then 0x9F else 0xBF, b.toNat - 0xE0⟩) := by
  unfold start
  simp only [UInt8.lt_iff_toNat_lt, UInt8.le_iff_toNat_le, ← UInt8.toNat_inj, UInt8.reduceToNat]
  rw [if_neg (by omega), if_neg (by omega), if_pos ⟨low, high⟩]

theorem start_four {b : UInt8} (low : 0xF0 ≤ b.toNat) (high : b.toNat ≤ 0xF4) :
    start b = ([], some ⟨3, if b.toNat = 0xF0 then 0x90 else 0x80,
      if b.toNat = 0xF4 then 0x8F else 0xBF, b.toNat - 0xF0⟩) := by
  unfold start
  simp only [UInt8.lt_iff_toNat_lt, UInt8.le_iff_toNat_le, ← UInt8.toNat_inj, UInt8.reduceToNat]
  rw [if_neg (by omega), if_neg (by omega), if_neg (by omega), if_pos ⟨low, high⟩]

theorem start_other {b : UInt8} (other : ¬ b.toNat < 0x80 ∧ ¬ (0xC2 ≤ b.toNat ∧ b.toNat ≤ 0xDF) ∧
    ¬ (0xE0 ≤ b.toNat ∧ b.toNat ≤ 0xEF) ∧ ¬ (0xF0 ≤ b.toNat ∧ b.toNat ≤ 0xF4)) :
    start b = ([.broken], none) := by
  unfold start
  simp only [UInt8.lt_iff_toNat_lt, UInt8.le_iff_toNat_le, UInt8.reduceToNat]
  rw [if_neg other.1, if_neg other.2.1, if_neg other.2.2.1, if_neg other.2.2.2]

/-- The first octet of a character of several. -/
theorem scan_lead {b : UInt8} {s : Pending} (leads : start b = ([], some s)) (rest : Octets) :
    scan none (b :: rest) = scan (some s) rest := by
  rw [scan_cons, step, leads]
  rfl

/-- The last octet of a character. -/
theorem scan_last {low high b : UInt8} {bits : Nat} (least : low.toNat ≤ b.toNat)
    (most : b.toNat ≤ high.toNat) (rest : Octets) :
    scan (some ⟨1, low, high, bits⟩) (b :: rest) =
      (.point (bits * 0x40 + (b.toNat - 0x80)) :: (scan none rest).1, (scan none rest).2) := by
  have within : low ≤ b ∧ b ≤ high :=
    ⟨UInt8.le_iff_toNat_le.mpr least, UInt8.le_iff_toNat_le.mpr most⟩
  rw [scan_cons, step]
  simp only [if_pos within, if_true]
  rfl

/-- An octet in the middle of a character. -/
theorem scan_middle {n : Nat} {low high b : UInt8} {bits : Nat} (least : low.toNat ≤ b.toNat)
    (most : b.toNat ≤ high.toNat) (rest : Octets) :
    scan (some ⟨n + 2, low, high, bits⟩) (b :: rest) =
      scan (some ⟨n + 1, 0x80, 0xBF, bits * 0x40 + (b.toNat - 0x80)⟩) rest := by
  have within : low ≤ b ∧ b ≤ high :=
    ⟨UInt8.le_iff_toNat_le.mpr least, UInt8.le_iff_toNat_le.mpr most⟩
  have more : ¬ n + 2 = 1 := by omega
  rw [scan_cons, step]
  simp only [if_pos within, if_neg more]
  rfl

/-! ### Characters -/

/-- The bounds of continuing octets as numbers. -/
theorem toNat_bounds : (0x80 : UInt8).toNat = 0x80 ∧ (0xBF : UInt8).toNat = 0xBF ∧
    (0xA0 : UInt8).toNat = 0xA0 ∧ (0x9F : UInt8).toNat = 0x9F ∧ (0x90 : UInt8).toNat = 0x90 ∧
    (0x8F : UInt8).toNat = 0x8F := by
  decide

theorem scan_encodePoint {p : Nat} (scalar : Scalar p) (rest : Octets) :
    scan none (encodePoint p ++ rest) =
      (.point p :: (scan none rest).1, (scan none rest).2) := by
  have bounds := toNat_bounds
  rw [scalar_iff] at scalar
  unfold encodePoint
  split
  · next one =>
    have value := toUInt8_toNat (n := p) (by omega)
    rw [List.singleton_append, scan_cons, step, start_ascii (by rw [value]; exact one), value]
    rfl
  have v₀ := toUInt8_toNat (n := 0x80 + p % 0x40) (by omega)
  split
  · next two =>
    have v₁ := toUInt8_toNat (n := 0xC0 + p / 0x40) (by omega)
    rw [List.cons_append, scan_lead (start_two (by omega) (by omega)), List.singleton_append,
      scan_last (by omega) (by omega), v₀, v₁]
    have value : (0xC0 + p / 0x40 - 0xC0) * 0x40 + (0x80 + p % 0x40 - 0x80) = p := by omega
    rw [value]
  split
  · next three =>
    have v₁ := toUInt8_toNat (n := 0x80 + p / 0x40 % 0x40) (by omega)
    have v₂ := toUInt8_toNat (n := 0xE0 + p / 0x1000) (by omega)
    rw [List.cons_append, scan_lead (start_three (by omega) (by omega)), List.cons_append,
      scan_middle (n := 0), List.singleton_append,
      scan_last (by omega) (by omega), v₀, v₁, v₂]
    · have value : ((0xE0 + p / 0x1000 - 0xE0) * 0x40 + (0x80 + p / 0x40 % 0x40 - 0x80)) * 0x40 +
          (0x80 + p % 0x40 - 0x80) = p := by omega
      rw [value]
    · split <;> omega
    · split <;> omega
  · next four =>
    have v₁ := toUInt8_toNat (n := 0x80 + p / 0x40 % 0x40) (by omega)
    have v₂ := toUInt8_toNat (n := 0x80 + p / 0x1000 % 0x40) (by omega)
    have v₃ := toUInt8_toNat (n := 0xF0 + p / 0x40000) (by omega)
    rw [List.cons_append, scan_lead (start_four (by omega) (by omega)), List.cons_append,
      scan_middle (n := 1), List.cons_append, scan_middle (n := 0), List.singleton_append,
      scan_last (by omega) (by omega), v₀, v₁, v₂, v₃]
    · have value : (((0xF0 + p / 0x40000 - 0xF0) * 0x40 + (0x80 + p / 0x1000 % 0x40 - 0x80)) * 0x40
          + (0x80 + p / 0x40 % 0x40 - 0x80)) * 0x40 + (0x80 + p % 0x40 - 0x80) = p := by omega
      rw [value]
    · omega
    · omega
    · split <;> omega
    · split <;> omega

theorem scan_flatMap_encodePoint {ps : List Nat} (scalars : ∀ p ∈ ps, Scalar p) :
    scan none (ps.flatMap encodePoint) = (ps.map .point, none) := by
  induction ps with
  | nil => rfl
  | cons p rest ih =>
    rw [List.flatMap_cons, scan_encodePoint (scalars p List.mem_cons_self),
      ih fun q h => scalars q (List.mem_cons_of_mem _ h)]
    rfl

theorem points?_map_point (ps : List Nat) : points? (ps.map .point) = some ps := by
  induction ps with
  | nil => rfl
  | cons p rest ih =>
    rw [List.map_cons, points?, ih]
    rfl

theorem scan_encode {t : Text} (paired : Paired t) :
    scan none (encode t) = (t.codePoints.map .point, none) := by
  have scalars := (codePoints_of_paired paired).1
  rw [encode_of_scalars scalars, scan_flatMap_encodePoint scalars]

/-- Any reader gives the text that was written. -/
theorem decodeLossy_encode {t : Text} (paired : Paired t) : decodeLossy (encode t) = t := by
  rw [decodeLossy, scan_encode paired]
  simp only [Option.isSome_none, if_false, Bool.false_eq_true, List.map_map]
  have same := congrArg Text.ofCodePoints (List.map_id t.codePoints)
  exact same.trans (codePoints_of_paired paired).2

/-! ## Writing what was read -/

/-- Whatever completes the character under way, the octets read so far begin it. -/
def Owes : Nat → UInt8 → UInt8 → Nat → Octets → Prop
  | 0, _, _, _, _ => True
  | 1, low, high, bits, done => ∀ b : UInt8, low.toNat ≤ b.toNat → b.toNat ≤ high.toNat →
    Scalar (bits * 0x40 + (b.toNat - 0x80)) ∧
      encodePoint (bits * 0x40 + (b.toNat - 0x80)) = done ++ [b]
  | n + 2, low, high, bits, done => ∀ b : UInt8, low.toNat ≤ b.toNat → b.toNat ≤ high.toNat →
    Owes (n + 1) 0x80 0xBF (bits * 0x40 + (b.toNat - 0x80)) (done ++ [b])

/-- An octet that does not continue a character makes a malformed run. -/
theorem points?_of_out_of_range {s : Pending} {b : UInt8}
    (out : ¬ (s.low.toNat ≤ b.toNat ∧ b.toNat ≤ s.high.toNat)) (rest : Octets) :
    points? (scan (some s) (b :: rest)).1 = none := by
  have within : ¬ (s.low ≤ b ∧ b ≤ s.high) := by
    simp only [UInt8.le_iff_toNat_le]
    exact out
  rw [scan_cons, step]
  simp only [if_neg within, List.cons_append, points?]

/-- A well-formed input in the middle of a character completes it and goes on well-formed. -/
theorem exists_of_scan_some {n : Nat} {low high : UInt8} {bits : Nat} {done bytes : Octets}
    {ps : List Nat} (owes : Owes (n + 1) low high bits done)
    (whole : (scan (some ⟨n + 1, low, high, bits⟩) bytes).2 = none)
    (points : points? (scan (some ⟨n + 1, low, high, bits⟩) bytes).1 = some ps) :
    ∃ p ps' rest, ps = p :: ps' ∧ Scalar p ∧ done ++ bytes = encodePoint p ++ rest ∧
      rest.length < bytes.length ∧ (scan none rest).2 = none ∧
      points? (scan none rest).1 = some ps' := by
  induction n generalizing low high bits done bytes with
  | zero =>
    cases bytes with
    | nil => simp [scan] at whole
    | cons b rest =>
      by_cases within : low.toNat ≤ b.toNat ∧ b.toNat ≤ high.toNat
      · obtain ⟨scalar, written⟩ := owes b within.1 within.2
        rw [scan_last within.1 within.2] at whole points
        obtain ⟨ps', points', rfl⟩ := Option.map_eq_some_iff.mp points
        refine ⟨_, ps', rest, rfl, scalar, ?_, by simp, whole, points'⟩
        rw [written, List.append_assoc, List.singleton_append]
      · rw [points?_of_out_of_range within] at points
        cases points
  | succ n ih =>
    cases bytes with
    | nil => simp [scan] at whole
    | cons b rest =>
      by_cases within : low.toNat ≤ b.toNat ∧ b.toNat ≤ high.toNat
      · rw [scan_middle within.1 within.2] at whole points
        obtain ⟨p, ps', rest', shape, scalar, written, shorter, others⟩ :=
          ih (owes b within.1 within.2) whole points
        refine ⟨p, ps', rest', shape, scalar, ?_, ?_, others⟩
        · rw [← written, List.append_assoc, List.singleton_append]
        · rw [List.length_cons]
          omega
      · rw [points?_of_out_of_range within] at points
        cases points

theorem toUInt8_eq {n : Nat} {b : UInt8} (same : n = b.toNat) : n.toUInt8 = b := by
  rw [same]
  simp

/-- A leading octet begins what it promises. -/
theorem owes_of_start {b : UInt8} {s : Pending} (leads : start b = ([], some s)) :
    ∃ n, s.owed = n + 1 ∧ Owes (n + 1) s.low s.high s.bits [b] := by
  have bounds := toNat_bounds
  by_cases one : b.toNat < 0x80
  · rw [start_ascii one] at leads
    cases leads
  by_cases two : 0xC2 ≤ b.toNat ∧ b.toNat ≤ 0xDF
  · rw [start_two two.1 two.2] at leads
    cases leads
    refine ⟨0, rfl, fun c least most => ?_⟩
    simp only at least most ⊢
    refine ⟨scalar_iff.mpr (by omega), ?_⟩
    rw [encodePoint, if_neg (by omega), if_pos (by omega), toUInt8_eq (b := b) (by omega),
      toUInt8_eq (b := c) (by omega)]
    rfl
  by_cases three : 0xE0 ≤ b.toNat ∧ b.toNat ≤ 0xEF
  · rw [start_three three.1 three.2] at leads
    cases leads
    refine ⟨1, rfl, fun c least most d least' most' => ?_⟩
    simp only at least most least' most' ⊢
    have range : 0x80 ≤ c.toNat ∧ c.toNat ≤ 0xBF :=
      ⟨by split at least <;> omega, by split at most <;> omega⟩
    -- The bounds of the second octet leave out longer forms than needed and the surrogates.
    have notOverlong : b.toNat = 0xE0 → 0xA0 ≤ c.toNat := fun lead => by
      rw [if_pos lead] at least
      omega
    have notSurrogate : b.toNat = 0xED → c.toNat ≤ 0x9F := fun lead => by
      rw [if_pos lead] at most
      omega
    refine ⟨scalar_iff.mpr (by omega), ?_⟩
    rw [encodePoint, if_neg (by omega), if_neg (by omega), if_pos (by omega),
      toUInt8_eq (b := b) (by omega), toUInt8_eq (b := c) (by omega),
      toUInt8_eq (b := d) (by omega)]
    rfl
  by_cases four : 0xF0 ≤ b.toNat ∧ b.toNat ≤ 0xF4
  · rw [start_four four.1 four.2] at leads
    cases leads
    refine ⟨2, rfl, fun c least most d least' most' e least'' most'' => ?_⟩
    simp only at least most least' most' least'' most'' ⊢
    have range : 0x80 ≤ c.toNat ∧ c.toNat ≤ 0xBF :=
      ⟨by split at least <;> omega, by split at most <;> omega⟩
    -- Here they leave out longer forms than needed and what is no code point.
    have notOverlong : b.toNat = 0xF0 → 0x90 ≤ c.toNat := fun lead => by
      rw [if_pos lead] at least
      omega
    have notBeyond : b.toNat = 0xF4 → c.toNat ≤ 0x8F := fun lead => by
      rw [if_pos lead] at most
      omega
    refine ⟨scalar_iff.mpr (by omega), ?_⟩
    rw [encodePoint, if_neg (by omega), if_neg (by omega), if_neg (by omega),
      toUInt8_eq (b := b) (by omega), toUInt8_eq (b := c) (by omega),
      toUInt8_eq (b := d) (by omega), toUInt8_eq (b := e) (by omega)]
    rfl
  · rw [start_other ⟨one, two, three, four⟩] at leads
    cases leads

/-- An octet that is no character begins one or is malformed. -/
theorem start_cases {b : UInt8} (many : ¬ b.toNat < 0x80) :
    (∃ s, start b = ([], some s)) ∨ start b = ([.broken], none) := by
  by_cases two : 0xC2 ≤ b.toNat ∧ b.toNat ≤ 0xDF
  · exact .inl ⟨_, start_two two.1 two.2⟩
  by_cases three : 0xE0 ≤ b.toNat ∧ b.toNat ≤ 0xEF
  · exact .inl ⟨_, start_three three.1 three.2⟩
  by_cases four : 0xF0 ≤ b.toNat ∧ b.toNat ≤ 0xF4
  · exact .inl ⟨_, start_four four.1 four.2⟩
  · exact .inr (start_other ⟨many, two, three, four⟩)

/-- Well-formed octets are those of the code points read. -/
theorem flatMap_encodePoint_of_scan {bytes : Octets} {ps : List Nat}
    (whole : (scan none bytes).2 = none) (points : points? (scan none bytes).1 = some ps) :
    ps.flatMap encodePoint = bytes ∧ ∀ p ∈ ps, Scalar p := by
  induction hlen : bytes.length using Nat.strongRecOn generalizing bytes ps with
  | ind n ih =>
    cases bytes with
    | nil =>
      cases points
      exact ⟨rfl, fun p h => absurd h List.not_mem_nil⟩
    | cons b rest =>
      rw [List.length_cons] at hlen
      by_cases one : b.toNat < 0x80
      · rw [scan_cons, step, start_ascii one] at whole points
        obtain ⟨ps', points', rfl⟩ := Option.map_eq_some_iff.mp points
        obtain ⟨written, scalars⟩ := ih rest.length (by omega) whole points' rfl
        refine ⟨?_, fun p h => ?_⟩
        · rw [List.flatMap_cons, written, encodePoint, if_pos one, toUInt8_eq rfl]
          rfl
        · rcases List.mem_cons.mp h with rfl | later
          · exact scalar_iff.mpr (by omega)
          · exact scalars p later
      · rcases start_cases one with ⟨s, leads⟩ | broken
        · obtain ⟨n, owed, owes⟩ := owes_of_start leads
          obtain ⟨_, low, high, bits⟩ := s
          obtain rfl : _ = n + 1 := owed
          rw [scan_lead leads] at whole points
          obtain ⟨p, ps', rest', rfl, scalar, written, shorter, whole', points'⟩ :=
            exists_of_scan_some owes whole points
          obtain ⟨others, scalars⟩ := ih rest'.length (by omega) whole' points' rfl
          refine ⟨?_, fun q h => ?_⟩
          · rw [List.flatMap_cons, others, ← written]
            rfl
          · rcases List.mem_cons.mp h with rfl | later
            · exact scalar
            · exact scalars q later
        · rw [scan_cons, step, broken] at points
          cases points

/-- The text of a code point that encodes a character has that code point alone. -/
theorem ofCodePoint_spec {p : Nat} (scalar : Scalar p) :
    Paired (Text.ofCodePoint p) ∧ (Text.ofCodePoint p).codePoints = [p] := by
  rw [scalar_iff] at scalar
  unfold Text.ofCodePoint
  split
  · next small =>
    have value : p.toUInt16.toNat = p := by
      rw [Nat.toUInt16, UInt16.toNat_ofNat']
      omega
    have plain : ¬ CodeUnit.IsSurrogate p.toUInt16 := by
      rw [CodeUnit.isSurrogate_iff, value]
      omega
    refine ⟨.unit plain .nil, ?_⟩
    rw [codePoints_unit plain, value]
    rfl
  · next large =>
    have first : (0xD800 + (p - 0x10000) / 0x400).toUInt16.toNat =
        0xD800 + (p - 0x10000) / 0x400 := by
      rw [Nat.toUInt16, UInt16.toNat_ofNat']
      omega
    have second : (0xDC00 + (p - 0x10000) % 0x400).toUInt16.toNat =
        0xDC00 + (p - 0x10000) % 0x400 := by
      rw [Nat.toUInt16, UInt16.toNat_ofNat']
      omega
    have high : CodeUnit.isHighSurrogate (0xD800 + (p - 0x10000) / 0x400).toUInt16 := by
      rw [CodeUnit.isHighSurrogate_iff, first]
      omega
    have low : CodeUnit.isLowSurrogate (0xDC00 + (p - 0x10000) % 0x400).toUInt16 := by
      rw [CodeUnit.isLowSurrogate_iff, second]
      omega
    have value : Text.pairPoint (0xD800 + (p - 0x10000) / 0x400).toUInt16
        (0xDC00 + (p - 0x10000) % 0x400).toUInt16 = p := by
      unfold Text.pairPoint
      omega
    refine ⟨.pair high low .nil, ?_⟩
    rw [codePoints_pair high low, value]
    rfl

theorem ofCodePoints_spec {ps : List Nat} (scalars : ∀ p ∈ ps, Scalar p) :
    Paired (Text.ofCodePoints ps) ∧ (Text.ofCodePoints ps).codePoints = ps := by
  induction ps with
  | nil => exact ⟨.nil, rfl⟩
  | cons p rest ih =>
    obtain ⟨one, points⟩ := ofCodePoint_spec (scalars p List.mem_cons_self)
    obtain ⟨others, points'⟩ := ih fun q h => scalars q (List.mem_cons_of_mem _ h)
    have spread : Text.ofCodePoints (p :: rest) = Text.ofCodePoint p ++ Text.ofCodePoints rest :=
      List.flatMap_cons
    rw [spread]
    refine ⟨one.append others, ?_⟩
    rw [codePoints_append one, points, points']
    rfl

/-- What a strict reader accepts is a paired text as it is written, from which it drops one byte
order mark. -/
theorem decode?_eq_some {bytes : Octets} {t : Text} (decoded : decode? bytes = some t) :
    ∃ whole, Paired whole ∧ encode whole = bytes ∧ t = dropMark whole := by
  unfold decode? at decoded
  split at decoded
  · next items ended =>
    obtain ⟨ps, points, rfl⟩ := Option.map_eq_some_iff.mp decoded
    have read : points? (scan none bytes).1 = some ps := by
      rw [ended]
      exact points
    obtain ⟨written, scalars⟩ := flatMap_encodePoint_of_scan (by rw [ended]) read
    obtain ⟨paired, same⟩ := ofCodePoints_spec scalars
    refine ⟨_, paired, ?_, rfl⟩
    rw [encode_of_scalars (codePoints_of_paired paired).1, same, written]
  · cases decoded

/-- Texts without lone surrogates are written differently. -/
theorem encode_injective {a b : Text} (first : Paired a) (second : Paired b)
    (same : encode a = encode b) : a = b := by
  rw [← decodeLossy_encode first, ← decodeLossy_encode second, same]

/-! ## Reading any octets -/

/-- Whatever completes a character under way makes it the code point of one. -/
def Pending.Promises (s : Pending) : Prop :=
  ∃ n done, s.owed = n + 1 ∧ Owes (n + 1) s.low s.high s.bits done

/-- Reports of code points of characters, and a character that is under way to be one. -/
structure Reports (report : List Item × Option Pending) : Prop where
  scalar : ∀ p, .point p ∈ report.1 → Scalar p
  promises : ∀ s, report.2 = some s → s.Promises

theorem reports_start (b : UInt8) : Reports (start b) := by
  by_cases one : b.toNat < 0x80
  · rw [start_ascii one]
    refine ⟨fun p among => ?_, nofun⟩
    cases List.mem_singleton.mp among
    exact scalar_iff.mpr (.inl (Nat.lt_trans one (by decide)))
  · rcases start_cases one with ⟨s, leads⟩ | broken
    · rw [leads]
      refine ⟨fun p among => absurd among List.not_mem_nil, fun s' under => ?_⟩
      obtain rfl := Option.some.inj under
      obtain ⟨n, owed, owes⟩ := owes_of_start leads
      exact ⟨n, [b], owed, owes⟩
    · rw [broken]
      exact ⟨fun p among => absurd (List.mem_singleton.mp among) nofun, nofun⟩

/-- One octet keeps the promise of what is under way, or ends it with a malformed run. -/
theorem reports_step {s : Option Pending} (promises : ∀ s', s = some s' → s'.Promises) (b : UInt8) :
    Reports (step s b) := by
  cases s with
  | none => exact reports_start b
  | some s =>
    obtain ⟨n, done, owed, owes⟩ := promises s rfl
    rw [step]
    by_cases within : s.low ≤ b ∧ b ≤ s.high
    · have least := UInt8.le_iff_toNat_le.mp within.1
      have most := UInt8.le_iff_toNat_le.mp within.2
      rw [if_pos within]
      cases n with
      | zero =>
        rw [if_pos owed]
        refine ⟨fun p among => ?_, nofun⟩
        simp only [List.mem_singleton, Item.point.injEq] at among
        rw [among]
        exact (owes b least most).1
      | succ n =>
        rw [if_neg (by omega)]
        refine ⟨fun p among => absurd among List.not_mem_nil, fun s' under => ?_⟩
        obtain rfl := Option.some.inj under
        exact ⟨n, done ++ [b], by rw [owed, Nat.add_sub_cancel], owes b least most⟩
    · obtain ⟨scalar, begun⟩ := reports_start b
      rw [if_neg within]
      refine ⟨fun p among => ?_, begun⟩
      rcases List.mem_cons.mp among with broken | later
      · cases broken
      · exact scalar p later

theorem scalar_of_scan {s : Option Pending} (promises : ∀ s', s = some s' → s'.Promises)
    (bytes : Octets) : ∀ p, .point p ∈ (scan s bytes).1 → Scalar p := by
  induction bytes generalizing s with
  | nil => exact fun p among => absurd among List.not_mem_nil
  | cons b rest ih =>
    obtain ⟨scalar, begun⟩ := reports_step promises b
    intro p among
    rw [scan_cons] at among
    rcases List.mem_append.mp among with here | later
    · exact scalar p here
    · exact ih begun p later

/-- What any octets are read as has no lone surrogate. -/
theorem paired_decodeLossy (bytes : Octets) : Paired (decodeLossy bytes) := by
  have replaced : Scalar replacement := scalar_iff.mpr (by decide)
  have points : ∀ f : Item → Nat, (∀ q, f (.point q) = q) → f .broken = replacement →
      ∀ p ∈ (scan none bytes).1.map f, Scalar p := by
    intro f kept mends p among
    obtain ⟨item, reported, rfl⟩ := List.mem_map.mp among
    cases item with
    | point q =>
      rw [kept]
      exact scalar_of_scan (fun s' none => by cases none) bytes q reported
    | broken => exact mends ▸ replaced
  unfold decodeLossy
  refine (ofCodePoints_spec ?_).1
  split
  · exact List.forall_mem_append.mpr
      ⟨points _ (fun _ => rfl) rfl, List.forall_mem_singleton.mpr replaced⟩
  · exact points _ (fun _ => rfl) rfl

/-! ## The byte order mark -/

/-- The octets of a byte order mark. -/
def markOctets : Octets := [0xEF, 0xBB, 0xBF]

theorem encode_mark (t : Text) : encode (byteOrderMark :: t) = markOctets ++ encode t := by
  have plain : ¬ CodeUnit.IsSurrogate byteOrderMark := by decide
  have single : Paired [byteOrderMark] := .unit plain .nil
  have octets : encode [byteOrderMark] = markOctets := by decide
  rw [← octets]
  exact encode_append single t

/-- A text that is written with the octets of a mark in front begins with a mark. -/
theorem exists_of_mark_prefix {t : Text} (paired : Paired t) (marked : markOctets <+: encode t) :
    ∃ rest, t = byteOrderMark :: rest := by
  obtain ⟨rest, shape⟩ := marked
  have point : scan none (markOctets ++ rest) =
      (.point 0xFEFF :: (scan none rest).1, (scan none rest).2) := rfl
  have back := decodeLossy_encode paired
  rw [← shape, decodeLossy, point] at back
  simp only [List.map_cons] at back
  have first : ∀ ps : List Nat, Text.ofCodePoints (0xFEFF :: ps) =
      byteOrderMark :: Text.ofCodePoints ps := fun _ => rfl
  split at back
  · rw [List.cons_append, first] at back
    exact ⟨_, back.symm⟩
  · rw [first] at back
    exact ⟨_, back.symm⟩

/-- What a strict reader accepts: a text as it is written, behind a byte order mark or not. -/
theorem decode?_cases {bytes : Octets} {t : Text} (decoded : decode? bytes = some t) :
    Paired t ∧ ((¬ markOctets <+: bytes ∧ bytes = encode t) ∨
      (markOctets <+: bytes ∧ bytes = markOctets ++ encode t)) := by
  obtain ⟨whole, paired, rfl, rfl⟩ := decode?_eq_some decoded
  by_cases marked : markOctets <+: encode whole
  · obtain ⟨rest, rfl⟩ := exists_of_mark_prefix paired marked
    have plain : ¬ CodeUnit.IsSurrogate byteOrderMark := by decide
    have behind : Paired rest := (Paired.cut plain (a := []) paired).2
    rw [dropMark, if_pos rfl]
    exact ⟨behind, .inr ⟨marked, encode_mark rest⟩⟩
  · have same : dropMark whole = whole := by
      cases whole with
      | nil => rfl
      | cons u rest =>
        rw [dropMark, if_neg]
        rintro rfl
        exact marked ⟨encode rest, (encode_mark rest).symm⟩
    rw [same]
    exact ⟨paired, .inl ⟨marked, rfl⟩⟩

end Utf8

end FileProfile
