import FileProfile.Proofs.Text.Utf8

/-!
Names that UTF-8 can carry.

`Text.lone` finds the surrogates without a partner by a scan from the left, which takes a high
surrogate together with a low one right behind it. Looking at the two neighbours of a unit tells the
same (`marks_eq_lone`): a low surrogate that the scan has taken stands behind a high one, and a high
one is never taken by the unit in front of it.

Writing a text and reading it back gives the text with each of these surrogates replaced
(`decodeLossy_encode_eq`). So the names that are accepted are those that come back as they are
(`validate_iff_carried`).
-/

namespace FileProfile

open Text (Paired)

namespace Text

/-- For each unit whether it is a surrogate that a scan from the left finds without its partner. -/
def lone : Text → List Bool
  | [] => []
  | [u] => [decide u.IsSurrogate]
  | u :: v :: rest =>
    if u.isHighSurrogate && v.isLowSurrogate then false :: false :: lone rest
    else decide u.IsSurrogate :: lone (v :: rest)

/-- The text with U+FFFD in place of each surrogate without partner. -/
def mended (t : Text) : Text :=
  List.zipWith (fun u alone => if alone then Utf8.replacement.toUInt16 else u) t (lone t)

/-! ## Scanning from the left -/

/-- The scan does not take `u` and the first unit of `rest` together. -/
def Apart (u : CodeUnit) (rest : Text) : Prop :=
  u.isHighSurrogate = true → rest.head?.any CodeUnit.isLowSurrogate = false

/-- The induction that follows the scan: over a pair, and over a unit that the scan takes alone. -/
theorem scanInduction {motive : Text → Prop} (nil : motive [])
    (pair : ∀ u v rest, u.isHighSurrogate → v.isLowSurrogate → motive rest →
      motive (u :: v :: rest))
    (unit : ∀ u rest, Apart u rest → motive rest → motive (u :: rest)) (t : Text) : motive t := by
  induction hlen : t.length using Nat.strongRecOn generalizing t with
  | ind n ih =>
    cases t with
    | nil => exact nil
    | cons u rest =>
      rw [List.length_cons] at hlen
      by_cases taken : u.isHighSurrogate = true ∧ rest.head?.any CodeUnit.isLowSurrogate = true
      · obtain ⟨high, low⟩ := taken
        cases rest with
        | nil => cases low
        | cons v more =>
          rw [List.length_cons] at hlen
          exact pair u v more high low (ih more.length (by omega) more rfl)
      · have apart : Apart u rest := fun high =>
          Bool.eq_false_iff.mpr fun low => taken ⟨high, low⟩
        exact unit u rest apart (ih rest.length (by omega) rest rfl)

variable {u v : CodeUnit} {rest : Text}

theorem Apart.and_eq_false (apart : Apart u (v :: rest)) :
    (u.isHighSurrogate && v.isLowSurrogate) = false := by
  cases high : u.isHighSurrogate with
  | false => rfl
  | true => simpa using apart high

theorem lone_pair (high : u.isHighSurrogate) (low : v.isLowSurrogate) (rest : Text) :
    lone (u :: v :: rest) = false :: false :: lone rest := by
  rw [lone, high, low]
  rfl

theorem lone_unit (apart : Apart u rest) :
    lone (u :: rest) = decide u.IsSurrogate :: lone rest := by
  cases rest with
  | nil => rfl
  | cons v more => rw [lone, apart.and_eq_false, if_neg Bool.false_ne_true]

theorem codePoints_apart (apart : Apart u rest) :
    codePoints (u :: rest) = u.toNat :: codePoints rest := by
  cases rest with
  | nil => rfl
  | cons v more => rw [codePoints, apart.and_eq_false, if_neg Bool.false_ne_true]

theorem mended_pair (high : u.isHighSurrogate) (low : v.isLowSurrogate) (rest : Text) :
    mended (u :: v :: rest) = u :: v :: mended rest := by
  rw [mended, lone_pair high low]
  rfl

theorem mended_unit (apart : Apart u rest) : mended (u :: rest) =
    (if u.IsSurrogate then Utf8.replacement.toUInt16 else u) :: mended rest := by
  rw [mended, lone_unit apart, List.zipWith_cons_cons]
  simp only [decide_eq_true_eq]
  rfl

/-! ## Mended texts -/

theorem paired_mended (t : Text) : Paired (mended t) := by
  induction t using scanInduction with
  | nil => exact .nil
  | pair u v rest high low ih =>
    rw [mended_pair high low]
    exact .pair high low ih
  | unit u rest apart ih =>
    rw [mended_unit apart]
    split
    · exact .unit (by decide) ih
    · next plain => exact .unit plain ih

theorem isSurrogatePoint_toNat (u : CodeUnit) :
    isSurrogatePoint u.toNat = decide u.IsSurrogate := by
  rw [isSurrogatePoint, ← Bool.decide_and]
  exact decide_eq_decide.mpr CodeUnit.isSurrogate_iff.symm

theorem encode_apart (apart : Apart u rest) : Utf8.encode (u :: rest) =
    Utf8.encodePoint (if u.IsSurrogate then Utf8.replacement else u.toNat) ++
      Utf8.encode rest := by
  rw [Utf8.encode, codePoints_apart apart, List.flatMap_cons, isSurrogatePoint_toNat]
  simp only [decide_eq_true_eq]
  rfl

/-- A text is written as its mended form is. -/
theorem encode_mended (t : Text) : Utf8.encode (mended t) = Utf8.encode t := by
  induction t using scanInduction with
  | nil => rfl
  | pair u v rest high low ih =>
    have front : Paired [u, v] := .pair high low .nil
    have split := Utf8.encode_append front
    rw [mended_pair high low]
    exact (split _).trans ((congrArg _ ih).trans (split rest).symm)
  | unit u rest apart ih =>
    rw [mended_unit apart, encode_apart apart]
    split
    · rw [encode_apart fun high => absurd high (by decide), if_neg (by decide), ih]
      rfl
    · next plain => rw [encode_apart fun high => absurd (.inl high) plain, if_neg plain, ih]

/-- Reading what was written replaces the surrogates without partner and nothing else. -/
theorem decodeLossy_encode_eq (t : Text) : Utf8.decodeLossy (Utf8.encode t) = mended t := by
  rw [← encode_mended, Utf8.decodeLossy_encode (paired_mended t)]

/-! ## Texts without lone surrogates -/

theorem mended_eq_self_iff {t : Text} : mended t = t ↔ true ∉ lone t := by
  induction t using scanInduction with
  | nil => exact ⟨fun _ => List.not_mem_nil, fun _ => rfl⟩
  | pair u v rest high low ih =>
    rw [mended_pair high low, lone_pair high low]
    simpa using ih
  | unit u rest apart ih =>
    rw [mended_unit apart, lone_unit apart, List.cons.injEq, ih, List.mem_cons, not_or]
    refine and_congr_left fun _ => ?_
    by_cases half : u.IsSurrogate
    · rw [if_pos half, decide_eq_true half]
      refine ⟨fun same => ?_, fun other => absurd rfl other⟩
      rw [← same] at half
      exact absurd half (by decide)
    · rw [if_neg half, decide_eq_false half]
      simp

theorem wellFormed_iff_lone {t : Text} : t.wellFormed = true ↔ true ∉ lone t := by
  induction t using scanInduction with
  | nil => exact ⟨fun _ => List.not_mem_nil, fun _ => rfl⟩
  | pair u v rest high low ih =>
    rw [wellFormed, Utf8.codePoints_pair high low, lone_pair high low, List.all_cons,
      (Utf8.scalar_pairPoint high low).2]
    simpa [wellFormed] using ih
  | unit u rest apart ih =>
    rw [wellFormed, codePoints_apart apart, lone_unit apart, List.all_cons,
      isSurrogatePoint_toNat]
    simpa [wellFormed] using fun _ => ih

end Text

namespace FileName

/-- For each unit of a text behind `before` whether its two neighbours tell that it is a surrogate
without partner. -/
def marks (before : Option CodeUnit) : Text → List Bool
  | [] => []
  | u :: rest => isUnpaired before u rest.head? :: marks (some u) rest

theorem hasUnpaired_iff_marks {before : Option CodeUnit} {t : Text} :
    hasUnpaired before t = true ↔ true ∈ marks before t := by
  induction t generalizing before with
  | nil => simp [hasUnpaired, marks]
  | cons u rest ih => rw [hasUnpaired, marks, Bool.or_eq_true, ih, List.mem_cons, eq_comm]

theorem getElem?_marks (before : Option CodeUnit) (front : Text) (u : CodeUnit) (back : Text) :
    (marks before (front ++ u :: back))[front.length]? =
      some (isUnpaired (front.getLast?.or before) u back.head?) := by
  induction front generalizing before with
  | nil => rfl
  | cons v front ih =>
    have last : (v :: front).getLast?.or before = front.getLast?.or (some v) := by
      rw [List.getLast?_cons]
      cases front.getLast? <;> rfl
    rw [last, ← ih (some v)]
    rfl

/-- The two units of a pair have their partners. -/
theorem isUnpaired_of_pair {u v : CodeUnit} (high : u.isHighSurrogate) (low : v.isLowSurrogate)
    (before behind : Option CodeUnit) :
    isUnpaired before u (some v) = false ∧ isUnpaired (some u) v behind = false := by
  have first : u.isLowSurrogate = false := Bool.eq_false_iff.mpr fun lower =>
    CodeUnit.not_isHighSurrogate_of_isLowSurrogate lower high
  have second : v.isHighSurrogate = false := Bool.eq_false_iff.mpr
    (CodeUnit.not_isHighSurrogate_of_isLowSurrogate low)
  simp [isUnpaired, high, low, first, second]

/-- A surrogate that goes with neither neighbour has no partner. -/
theorem isUnpaired_of_apart {before : Option CodeUnit} {u : CodeUnit} {rest : Text}
    (front : ∀ w ∈ before, Text.Apart w (u :: rest)) (apart : Text.Apart u rest) :
    isUnpaired before u rest.head? = decide u.IsSurrogate := by
  have noHigh : u.isLowSurrogate = true → before.any CodeUnit.isHighSurrogate = false := by
    intro low
    cases before with
    | none => rfl
    | some w =>
      refine Bool.eq_false_iff.mpr fun high => ?_
      exact Bool.eq_false_iff.mp (front w rfl high) low
  rw [Bool.eq_iff_iff, decide_eq_true_eq]
  cases high : u.isHighSurrogate with
  | true => simp [isUnpaired, CodeUnit.IsSurrogate, high, apart high]
  | false =>
    cases low : u.isLowSurrogate with
    | true => simp [isUnpaired, CodeUnit.IsSurrogate, high, low, noHigh low]
    | false => simp [isUnpaired, CodeUnit.IsSurrogate, high, low]

/-- The neighbours of a unit tell what a scan from the left finds, where that scan starts with a
unit that is not taken together with the one in front of it. -/
theorem marks_eq_lone (t : Text) {before : Option CodeUnit}
    (front : ∀ w ∈ before, Text.Apart w t) : marks before t = Text.lone t := by
  induction t using Text.scanInduction generalizing before with
  | nil => rfl
  | pair u v rest high low ih =>
    obtain ⟨first, second⟩ := isUnpaired_of_pair high low before rest.head?
    -- A low surrogate is taken together with nothing behind it.
    have behind : ∀ w ∈ some v, Text.Apart w rest := by
      rintro w own other
      rw [← Option.some.inj own] at other
      exact absurd other (CodeUnit.not_isHighSurrogate_of_isLowSurrogate low)
    rw [Text.lone_pair high low, marks, marks, List.head?_cons, first, second, ih behind]
  | unit u rest apart ih =>
    rw [Text.lone_unit apart, marks, isUnpaired_of_apart front apart,
      ih fun w own => Option.some.inj own ▸ apart]

theorem validate_eq_ok {name : Text} : validate name = .ok () ↔
    name ≠ [] ∧ slash ∉ name ∧ hasUnpaired none name = false := by
  unfold validate
  split
  · next refused =>
    refine ⟨fun accepted => ?_, fun ⟨given, one, paired⟩ => ?_⟩
    · cases accepted
    · rw [paired] at refused
      rcases refused with blank | many | other
      · exact absurd blank given
      · exact absurd many one
      · exact absurd other Bool.false_ne_true
  · next fits =>
    rw [not_or, not_or, Bool.not_eq_true] at fits
    exact ⟨fun _ => fits, fun _ => rfl⟩

/-- A name is accepted just in case it is not empty, holds no slash, and comes back as it is when it
is written in UTF-8 and read again, which replaces the surrogates without partner. The names that
come back are the well-formed ones, and the neighbours of a unit tell whether a scan from the left
finds it without its partner. -/
theorem validate_iff_carried (name : Text) :
    (validate name = .ok () ↔
      name ≠ [] ∧ slash ∉ name ∧ Utf8.decodeLossy (Utf8.encode name) = name) ∧
    (Utf8.decodeLossy (Utf8.encode name) = name ↔ name.wellFormed = true) ∧
    Utf8.decodeLossy (Utf8.encode name) = name.mended ∧
    ∀ front u back, name = front ++ u :: back →
      (Text.lone name)[front.length]? = some (isUnpaired front.getLast? u back.head?) := by
  have same : marks none name = Text.lone name := marks_eq_lone name fun w none => by cases none
  have carried : Utf8.decodeLossy (Utf8.encode name) = name ↔ true ∉ Text.lone name := by
    rw [Text.decodeLossy_encode_eq, Text.mended_eq_self_iff]
  refine ⟨?_, ?_, Text.decodeLossy_encode_eq name, ?_⟩
  · rw [validate_eq_ok, carried, ← same, ← hasUnpaired_iff_marks, Bool.not_eq_true]
  · rw [carried, Text.wellFormed_iff_lone]
  · rintro front u back shape
    rw [← same, shape, getElem?_marks, Option.or_none]

/-- Of two high surrogates and two low ones behind them the inner ones are a pair. -/
example : Text.lone [0xD83D, 0xD83D, 0xDE00, 0xDE00] = [true, false, false, true] := by decide

end FileName

end FileProfile
