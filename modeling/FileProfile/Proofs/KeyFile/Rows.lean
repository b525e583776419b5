import FileProfile.Proofs.Text.Terminators

/-!
A key file as the rows that it was read from.

`parse_eq_ok` says what a key file is that has been read: its rows are those of the lines, and how
they end is told by the text. Its rows hold the lines as they were read (`map_raw_of_readRows`), so
writing it gives the same text just in case the terminators do not differ (`text_eq`).
-/

namespace FileProfile

namespace KeyFile

/-- The line that a row was read from. -/
def Row.raw : Row → Text
  | .header raw _ => raw
  | .line l => l.raw

/-- The header of a group and its lines. -/
def groupRows (g : KeyGroup) : List Row := .header g.header g.name :: g.body.map .line

/-- All headers and lines in file order. -/
def rows (f : KeyFile) : List Row := f.preamble.map .line ++ f.groups.flatMap groupRows

theorem rawLines_eq (f : KeyFile) : f.rawLines = f.rows.map Row.raw := by
  have group : ∀ g : KeyGroup, g.rawLines = (groupRows g).map Row.raw := by
    intro g
    simp only [KeyGroup.rawLines, groupRows, List.map_cons, List.map_map]
    rfl
  unfold rawLines rows
  rw [List.map_append, List.map_flatMap, List.map_map, funext group]
  rfl

section

variable {f : KeyFile} {g : KeyGroup} (member : g ∈ f.groups)

include member

theorem header_mem_rows : .header g.header g.name ∈ f.rows :=
  List.mem_append_right _ (List.mem_flatMap_of_mem member List.mem_cons_self)

theorem line_mem_rows {l : KeyLine} (within : l ∈ g.body) : .line l ∈ f.rows :=
  List.mem_append_right _ (List.mem_flatMap_of_mem member
    (List.mem_cons_of_mem _ (List.mem_map_of_mem within)))

end

/-! ## Putting rows together -/

theorem assemble_line (ls : List KeyLine) (rest : List Row) :
    assemble (ls.map .line ++ rest) = (ls ++ (assemble rest).1, (assemble rest).2) := by
  induction ls with
  | nil => rfl
  | cons l ls ih =>
    rw [List.map_cons, List.cons_append, assemble, ih]
    rfl

theorem assemble_groups (groups : List KeyGroup) :
    assemble (groups.flatMap groupRows) = ([], groups) := by
  induction groups with
  | nil => rfl
  | cons g rest ih =>
    rw [List.flatMap_cons, groupRows, List.cons_append, assemble, assemble_line, ih]
    simp

theorem assemble_rows (f : KeyFile) : assemble f.rows = (f.preamble, f.groups) := by
  unfold rows
  rw [assemble_line, assemble_groups]
  simp

/-- Putting rows together loses none of them. -/
theorem rows_of_assemble (rs : List Row) :
    (assemble rs).1.map .line ++ (assemble rs).2.flatMap groupRows = rs := by
  induction rs with
  | nil => rfl
  | cons r rest ih =>
    cases r with
    | header raw name =>
      rw [assemble, List.flatMap_cons, groupRows, List.cons_append, ih]
      rfl
    | line l =>
      rw [assemble, List.map_cons, List.cons_append, ih]

/-! ## Reading rows -/

theorem raw_of_readRow {inGroup : Bool} {raw : Text} {r : Row}
    (reads : readRow inGroup raw = .ok r) : r.raw = raw := by
  unfold readRow at reads
  simp only at reads
  split at reads
  · rw [← Except.ok.inj reads]
    rfl
  split at reads
  · rw [← Except.ok.inj reads]
    rfl
  split at reads
  · split at reads
    · rw [← Except.ok.inj reads]
      rfl
    · cases reads
  split at reads
  · cases reads
  split at reads
  · cases reads
  split at reads
  · cases reads
  · rw [← Except.ok.inj reads]
    rfl

theorem readRows_cons {n : Nat} {inGroup : Bool} {raw : Text} {rest : List Text} {rs : List Row} :
    readRows n inGroup (raw :: rest) = .ok rs ↔ ∃ r behind, readRow inGroup raw = .ok r ∧
      readRows (n + 1) (inGroup || r.isHeader) rest = .ok behind ∧ rs = r :: behind := by
  rw [readRows]
  cases readRow inGroup raw with
  | error fault => simp
  | ok r =>
    simp only [Except.ok.injEq, exists_and_left, exists_eq_left']
    cases readRows (n + 1) (inGroup || r.isHeader) rest with
    | error e => simp [Except.map]
    | ok behind => simp [Except.map, eq_comm]

/-- Lines are read one after another; those behind a header are read as lines of a group. -/
theorem readRows_append {n : Nat} {inGroup : Bool} {front back : List Text} {rs : List Row} :
    readRows n inGroup (front ++ back) = .ok rs ↔ ∃ first second,
      readRows n inGroup front = .ok first ∧
      readRows (n + front.length) (inGroup || first.any Row.isHeader) back = .ok second ∧
      rs = first ++ second := by
  induction front generalizing n inGroup rs with
  | nil => simp [readRows]
  | cons raw front ih =>
    rw [List.cons_append, readRows_cons]
    constructor
    · rintro ⟨r, behind, reads, others, rfl⟩
      obtain ⟨first, second, before, after, rfl⟩ := ih.mp others
      refine ⟨r :: first, second, readRows_cons.mpr ⟨r, first, reads, before, rfl⟩, ?_, rfl⟩
      rw [List.length_cons, List.any_cons, ← Bool.or_assoc,
        show n + (front.length + 1) = n + 1 + front.length by omega]
      exact after
    · rintro ⟨first, second, before, after, rfl⟩
      obtain ⟨r, behind, reads, others, rfl⟩ := readRows_cons.mp before
      refine ⟨r, behind ++ second, reads, ih.mpr ⟨behind, second, others, ?_, rfl⟩, rfl⟩
      rw [List.length_cons, List.any_cons, ← Bool.or_assoc,
        show n + (front.length + 1) = n + 1 + front.length by omega] at after
      exact after

/-- Line numbers only tell where a fault is. -/
theorem readRows_renumber {n : Nat} (m : Nat) {inGroup : Bool} {raws : List Text} {rs : List Row}
    (reads : readRows n inGroup raws = .ok rs) : readRows m inGroup raws = .ok rs := by
  induction raws generalizing n m inGroup rs with
  | nil => exact reads
  | cons raw rest ih =>
    obtain ⟨r, behind, first, others, rfl⟩ := readRows_cons.mp reads
    exact readRows_cons.mpr ⟨r, behind, first, ih (m + 1) others, rfl⟩

theorem map_raw_of_readRows {n : Nat} {inGroup : Bool} {raws : List Text} {rs : List Row}
    (reads : readRows n inGroup raws = .ok rs) : rs.map Row.raw = raws := by
  induction raws generalizing n inGroup rs with
  | nil =>
    rw [← Except.ok.inj reads]
    rfl
  | cons raw rest ih =>
    obtain ⟨r, behind, first, others, rfl⟩ := readRows_cons.mp reads
    rw [List.map_cons, raw_of_readRow first, ih others]

/-- Each row is read from its own line. -/
theorem exists_readRow_of_mem {n : Nat} {inGroup : Bool} {raws : List Text} {rs : List Row}
    (reads : readRows n inGroup raws = .ok rs) {r : Row} (within : r ∈ rs) :
    r.raw ∈ raws ∧ ∃ b, readRow b r.raw = .ok r := by
  induction raws generalizing n inGroup rs with
  | nil =>
    rw [← Except.ok.inj reads] at within
    cases within
  | cons raw rest ih =>
    obtain ⟨first, behind, here, others, rfl⟩ := readRows_cons.mp reads
    rcases List.mem_cons.mp within with same | later
    · rw [same, raw_of_readRow here]
      exact ⟨List.mem_cons_self, inGroup, here⟩
    · obtain ⟨inside, again⟩ := ih others later
      exact ⟨List.mem_cons_of_mem _ inside, again⟩

/-! ## Whole files -/

theorem parse_eq_ok {t : Text} {f : KeyFile} : parse t = .ok f ↔
    readRows 1 false (fileLines t) = .ok f.rows ∧ f.terminator = Text.usualTerminator t ∧
      f.endsTerminated = isTerminated t := by
  have terminators : (if Text.hasCrLf t then ("\r\n" : Text) else "\n") =
      Text.usualTerminator t := by
    unfold Text.usualTerminator
    split <;> decide
  unfold parse
  cases reads : readRows 1 false (fileLines t) with
  | error e => simp
  | ok rs =>
    simp only [Except.ok.injEq, terminators]
    constructor
    · rintro rfl
      exact ⟨(rows_of_assemble rs).symm, rfl, rfl⟩
    · rintro ⟨rfl, term, ended⟩
      rw [assemble_rows, ← term, ← ended]

/-- A key file is written line by line with its terminator. -/
theorem text_eq (f : KeyFile) :
    f.text = Text.written (Text.terminateWith f.terminator f.endsTerminated f.rawLines) := by
  unfold text
  by_cases none : f.rawLines = []
  · rw [none]
    simp [Text.join, Text.terminateWith, Text.written]
  · rw [Text.written_terminateWith _ _ none]
    simp [none]

variable {t : Text} {f : KeyFile}

theorem rawLines_of_parse (parses : parse t = .ok f) : f.rawLines = fileLines t := by
  rw [rawLines_eq, map_raw_of_readRows (parse_eq_ok.mp parses).1]

/-- A file with a group has been read from some text. -/
theorem ne_nil_of_hasGroup {group : Text} (parses : parse t = .ok f)
    (grouped : f.hasGroup group = true) : t ≠ [] := by
  rintro rfl
  have single : readRows 1 false (fileLines []) = .ok [.line (.blank [])] := rfl
  have shape := assemble_rows f
  rw [← Except.ok.inj (single.symm.trans (parse_eq_ok.mp parses).1)] at shape
  have none : f.groups = [] := (congrArg Prod.snd shape).symm
  rw [hasGroup, group?, none] at grouped
  cases grouped

end KeyFile

end FileProfile
