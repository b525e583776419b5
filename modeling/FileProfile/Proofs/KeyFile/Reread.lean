import FileProfile.Proofs.KeyFile.Content
import FileProfile.Proofs.KeyFile.Edit

/-!
Reading a key file again after a key has been set.
-/

namespace FileProfile

namespace KeyFile

open Text (Line Paired WellCut carriageReturn lineFeed terminateWith terminatedLines written)

/-! ## Lines of entries -/

/-- What the line of an entry can give as its key. -/
structure IsKey (key : Text) : Prop where
  nonempty : key ≠ []
  trimmed : Text.trim key = key
  apart : equalsSign ∉ key
  noComment : key.head? ≠ some hash
  noHeader : key.head? ≠ some openBracket

instance (key : Text) : Decidable (IsKey key) :=
  decidable_of_iff (key ≠ [] ∧ Text.trim key = key ∧ equalsSign ∉ key ∧ key.head? ≠ some hash ∧
      key.head? ≠ some openBracket)
    ⟨fun ⟨nonempty, trimmed, apart, noComment, noHeader⟩ =>
        ⟨nonempty, trimmed, apart, noComment, noHeader⟩,
      fun isKey => ⟨isKey.nonempty, isKey.trimmed, isKey.apart, isKey.noComment, isKey.noHeader⟩⟩

theorem IsKey.raw_ne_nil {key : Text} (isKey : IsKey key) (value : Text) :
    (KeyLine.ofValue key value).raw ≠ [] := by
  intro none
  exact isKey.nonempty (List.append_eq_nil_iff.mp (List.append_eq_nil_iff.mp none).1).1

/-- What stands behind a line does not change where its first equals sign is. -/
theorem split_append {c : Text} (present : equalsSign ∈ c) (rest : Text) :
    (c ++ rest).takeWhile (fun v => v ≠ equalsSign) = c.takeWhile (fun v => v ≠ equalsSign) ∧
      (c ++ rest).dropWhile (fun v => v ≠ equalsSign) =
        c.dropWhile (fun v => v ≠ equalsSign) ++ rest ∧
      c.dropWhile (fun v => v ≠ equalsSign) ≠ [] := by
  obtain ⟨front, back, rfl, apart⟩ := List.eq_append_cons_of_mem present
  obtain ⟨before, behind⟩ := Text.cut_at_first apart back
  obtain ⟨before', behind'⟩ := Text.cut_at_first apart (back ++ rest)
  rw [List.append_assoc, List.cons_append, before, behind, before', behind']
  exact ⟨rfl, rfl, List.cons_ne_nil _ _⟩

/-- What the line of an entry shows of itself: its key and, behind blanks, no mark of another kind
of line. -/
theorem visible_of_readRow {inGroup : Bool} {raw key value : Text}
    (reads : readRow inGroup raw = .ok (.line (.entry raw key value))) :
    key ≠ [] ∧ Text.trim raw ≠ [] ∧ (Text.trim raw).head? ≠ some hash ∧
      (Text.trim raw).head? ≠ some openBracket := by
  unfold readRow at reads
  generalize Text.trim raw = trimmed at reads ⊢
  cases trimmed with
  | nil => cases reads
  | cons u more =>
    simp only at reads
    split at reads
    · cases reads
    next noComment =>
      split at reads
      · split at reads <;> cases reads
      next noHeader =>
        split at reads
        · cases reads
        split at reads
        · cases reads
        split at reads
        · cases reads
        next nonempty =>
          cases reads
          exact ⟨nonempty, List.cons_ne_nil u more, by simpa using noComment,
            by simpa using noHeader⟩

/-- The key begins where the trimmed line begins. -/
theorem head?_of_readRow {inGroup : Bool} {raw key value : Text}
    (reads : readRow inGroup raw = .ok (.line (.entry raw key value))) :
    key.head? = (Text.trim raw).head? := by
  obtain ⟨-, key_eq, -⟩ := key_eq_of_readRow reads
  obtain ⟨nonempty, visible, -, -⟩ := visible_of_readRow reads
  have whole : raw.takeWhile (fun v => v ≠ equalsSign) ++ raw.dropWhile (fun v => v ≠ equalsSign) =
      raw := List.takeWhile_append_dropWhile
  have keyed : Text.trim (raw.takeWhile fun v => v ≠ equalsSign) ≠ [] := by
    rw [← key_eq]
    exact nonempty
  have start := Text.head?_trim_eq keyed
  have front : Text.trimStart (raw.takeWhile fun v => v ≠ equalsSign) ≠ [] := by
    intro none
    rw [none, List.head?_nil, List.head?_eq_none_iff] at start
    exact keyed start
  have behind := Text.trimStart_append front (raw.dropWhile fun v => v ≠ equalsSign)
  rw [whole] at behind
  obtain ⟨u, rest, own⟩ := List.exists_cons_of_ne_nil front
  rw [Text.head?_trim_eq visible, key_eq, start, behind, own]
  rfl

/-- The key of an entry that has been read can be written in front of any value. -/
theorem isKey_of_readRow {inGroup : Bool} {raw key value : Text}
    (reads : readRow inGroup raw = .ok (.line (.entry raw key value))) : IsKey key := by
  obtain ⟨-, key_eq, -⟩ := key_eq_of_readRow reads
  obtain ⟨nonempty, -, noComment, noHeader⟩ := visible_of_readRow reads
  have first := head?_of_readRow reads
  exact {
    nonempty
    trimmed := by rw [key_eq, Text.trim_trim]
    apart := by
      rw [key_eq]
      intro within
      exact Text.not_mem_takeWhile equalsSign raw (Text.mem_of_mem_trim within)
    noComment := by
      rw [first]
      exact noComment
    noHeader := by
      rw [first]
      exact noHeader }

theorem readRow_ofKey {key : Text} (isKey : IsKey key) (value : Text) :
    readRow true (key ++ "=" ++ value) =
      .ok (.line (.entry (key ++ "=" ++ value) key (Text.trimStart value))) := by
  obtain ⟨u, rest, own⟩ := List.exists_cons_of_ne_nil isKey.nonempty
  have visible : ¬ u.isBlank := by
    refine Text.head?_trim key u ?_
    rw [isKey.trimmed, own]
    rfl
  have whole : key ++ "=" ++ value = key ++ equalsSign :: value := List.append_assoc _ _ _
  have noComment : u ≠ hash := by simpa [own] using isKey.noComment
  have noHeader : u ≠ openBracket := by simpa [own] using isKey.noHeader
  obtain ⟨more, trimmed⟩ : ∃ more, Text.trim (key ++ equalsSign :: value) = u :: more := by
    rw [own, List.cons_append]
    exact Text.exists_trim_cons visible _
  have present : equalsSign ∈ key ++ equalsSign :: value := by simp
  obtain ⟨front, back⟩ := Text.cut_at_first isKey.apart value
  rw [whole]
  unfold readRow
  rw [trimmed]
  simp only
  rw [if_neg noComment, if_neg noHeader, if_neg (not_not_intro present), front, back,
    isKey.trimmed, if_neg (by decide), if_neg isKey.nonempty]
  rfl

/-! ## A carriage return at the end of a line -/

/-- A value without the carriage return at its end. -/
def stripReturn (value : Text) : Text :=
  if value.getLast? = some carriageReturn then value.dropLast else value

theorem stripReturn_eq_self {value : Text} (other : value.getLast? ≠ some carriageReturn) :
    stripReturn value = value := by
  rw [stripReturn, if_neg other]

/-- A value that ends in a carriage return is the end of its line. -/
theorem getLast?_of_readRow {b : Bool} {raw k value : Text}
    (reads : readRow b raw = .ok (.line (.entry raw k value)))
    (returned : value.getLast? = some carriageReturn) : raw.getLast? = some carriageReturn := by
  obtain ⟨-, -, value_eq⟩ := key_eq_of_readRow reads
  have behind : value <:+ raw := by
    rw [value_eq]
    exact ((List.dropWhile_suffix _).trans (List.drop_suffix 1 _)).trans (List.dropWhile_suffix _)
  obtain ⟨front, rfl⟩ := behind
  have some : value ≠ [] := by
    rintro rfl
    cases returned
  rw [Text.getLast?_append_of_ne_nil front some, returned]

/-- The row that is read where a carriage return at the end of a line belongs to the terminator. -/
def Row.withoutReturn : Row → Row
  | .header raw name => .header raw.dropLast name
  | .line (.blank raw) => .line (.blank raw.dropLast)
  | .line (.comment raw) => .line (.comment raw.dropLast)
  | .line (.entry raw key value) => .line (.entry raw.dropLast key (stripReturn value))

theorem stripReturn_trimStart (t : Text) :
    stripReturn (Text.trimStart (t ++ [carriageReturn])) = Text.trimStart t := by
  have blank : carriageReturn.isBlank = true := by decide
  by_cases none : Text.trimStart t = []
  · have single : Text.trimStart [carriageReturn] = [] := Text.trimStart_cons blank []
    rw [Text.trimStart_append_of_eq_nil none, single, none]
    rfl
  · rw [Text.trimStart_append none, stripReturn, List.getLast?_concat, if_pos rfl,
      List.dropLast_concat]

theorem readRow_withoutReturn {b : Bool} {c : Text} {r : Row}
    (reads : readRow b (c ++ [carriageReturn]) = .ok r) : readRow b c = .ok r.withoutReturn := by
  have apart : equalsSign ≠ carriageReturn := by decide
  have present : equalsSign ∈ c ++ [carriageReturn] ↔ equalsSign ∈ c := by simp [apart]
  unfold readRow at reads ⊢
  rw [Text.trim_concat (by decide)] at reads
  simp only [present] at reads ⊢
  generalize Text.trim c = trimmed at reads ⊢
  cases trimmed with
  | nil =>
    cases reads
    simp [Row.withoutReturn]
  | cons u more =>
    simp only at reads ⊢
    split at reads
    next comment =>
      cases reads
      simp [comment, Row.withoutReturn]
    next noComment =>
      rw [if_neg noComment]
      split at reads
      next header =>
        rw [if_pos header]
        cases named : headerName? (u :: more) with
        | none =>
          rw [named] at reads
          cases reads
        | some name =>
          rw [named] at reads
          cases reads
          simp [Row.withoutReturn]
      next noHeader =>
        rw [if_neg noHeader]
        split at reads
        · cases reads
        next equals =>
          rw [if_neg equals]
          obtain ⟨front, back, some⟩ :=
            split_append (Decidable.not_not.mp equals) [carriageReturn]
          rw [front, back, List.drop_append_of_le_length
            (Nat.succ_le_of_lt (List.length_pos_iff.mpr some))] at reads
          split at reads
          · cases reads
          next grouped =>
            rw [if_neg grouped]
            split at reads
            · cases reads
            next keyed =>
              rw [if_neg keyed]
              cases reads
              rw [Row.withoutReturn, stripReturn_trimStart, List.dropLast_concat]

/-! ## A byte order mark in front -/

/-- In front of the first header a byte order mark is a blank among others. -/
theorem readRow_mark {raw : Text} {r : Row} (reads : readRow false raw = .ok r) : ∃ r',
    readRow false (Utf8.byteOrderMark :: raw) = .ok r' ∧ r'.meaning = r.meaning ∧
      r'.isHeader = r.isHeader := by
  unfold readRow at reads ⊢
  rw [Text.trim_cons (by decide)]
  simp only at reads ⊢
  generalize Text.trim raw = trimmed at reads ⊢
  cases trimmed with
  | nil =>
    cases reads
    exact ⟨_, rfl, rfl, rfl⟩
  | cons u more =>
    simp only at reads ⊢
    split at reads
    next comment =>
      rw [if_pos comment]
      cases reads
      exact ⟨_, rfl, rfl, rfl⟩
    next noComment =>
      rw [if_neg noComment]
      split at reads
      next header =>
        rw [if_pos header]
        cases named : headerName? (u :: more) with
        | none =>
          rw [named] at reads
          cases reads
        | some name =>
          rw [named] at reads
          cases reads
          exact ⟨_, rfl, rfl, rfl⟩
      next noHeader =>
        split at reads
        · cases reads
        · cases reads

/-! ## Whole files -/

theorem exists_parse {t : Text} {rs : List Row} (reads : readRows 1 false (fileLines t) = .ok rs) :
    ∃ g, parse t = .ok g ∧ g.rows = rs := by
  have whole : (KeyFile.mk (assemble rs).1 (assemble rs).2 (Text.usualTerminator t)
      (isTerminated t)).rows = rs := rows_of_assemble rs
  exact ⟨_, parse_eq_ok.mpr ⟨by rw [whole]; exact reads, rfl, rfl⟩, whole⟩

theorem fileLines_written {ls : List Line} (cut : WellCut ls) (some : ls ≠ []) :
    fileLines (written ls) = ls.map Line.content := by
  rw [Text.fileLines_eq (cut.written_ne_nil some), Text.terminatedLines_written cut]

/-- A byte order mark in front of a file does not change what it says. -/
theorem parse_mark {t : Text} {f : KeyFile} (parses : parse t = .ok f) (some : t ≠ []) :
    ∃ g, parse (Utf8.byteOrderMark :: t) = .ok g ∧ g.content = f.content := by
  have reads := (parse_eq_ok.mp parses).1
  have other : Utf8.byteOrderMark ≠ Text.lineFeed := by decide
  have apart : Utf8.byteOrderMark ≠ Text.carriageReturn := by decide
  have marked := @Text.terminatedLines_unit _ t other fun both => apart both.1
  obtain ⟨l, ls, cut⟩ := Text.exists_terminatedLines some
  rw [Text.fileLines_eq some, cut, List.map_cons] at reads
  obtain ⟨r, behind, first, others, shape⟩ := readRows_cons.mp reads
  obtain ⟨r', again, meaning, header⟩ := readRow_mark first
  have reads' : readRows 1 false (fileLines (Utf8.byteOrderMark :: t)) = .ok (r' :: behind) := by
    rw [Text.fileLines_eq (List.cons_ne_nil _ _), marked, cut, List.map_cons]
    refine readRows_cons.mpr ⟨r', behind, again, ?_, rfl⟩
    rw [header]
    exact others
  obtain ⟨g, parses', rows⟩ := exists_parse reads'
  refine ⟨g, parses', content_of_meanings ?_⟩
  rw [rows, shape, List.map_cons, List.map_cons, meaning]

/-- Rows that have been read together can be read apart. -/
theorem readRows_split {n : Nat} {inGroup : Bool} {first second : List Row}
    (reads : readRows n inGroup ((first ++ second).map Row.raw) = .ok (first ++ second)) :
    readRows n inGroup (first.map Row.raw) = .ok first ∧
      readRows (n + first.length) (inGroup || first.any Row.isHeader) (second.map Row.raw) =
        .ok second := by
  rw [List.map_append, readRows_append] at reads
  obtain ⟨x, y, before, after, same⟩ := reads
  have lengths : first.length = x.length := by
    have raws := congrArg List.length (map_raw_of_readRows before)
    simpa using raws.symm
  obtain ⟨rfl, rfl⟩ := List.append_inj same lengths
  rw [List.length_map] at after
  exact ⟨before, after⟩

end KeyFile

end FileProfile
