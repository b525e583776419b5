import FileProfile.Proofs.KeyFile.Rows

/-!
Writing a key file that has been read and not changed.

`Text.withTerminators` replaces the terminators of a text and keeps every other unit. A key file is
written as the text it was read from with such a replacement (`text_of_parse`), since the lines that
are joined again are those between the terminators (`written_terminateWith_contents`).
-/

namespace FileProfile

namespace Text

/-- A text with `term` in place of each terminator. -/
def withTerminators (term : Text) : Text → Text
  | [] => []
  | u :: rest =>
    if u = lineFeed then term ++ withTerminators term rest
    else if u = carriageReturn ∧ rest.head? = some lineFeed then withTerminators term rest
    else u :: withTerminators term rest

variable (term : Text)

theorem withTerminators_feed (rest : Text) :
    withTerminators term (lineFeed :: rest) = term ++ withTerminators term rest := by
  rw [withTerminators, if_pos rfl]

theorem withTerminators_returned (rest : Text) :
    withTerminators term (carriageReturn :: lineFeed :: rest) =
      withTerminators term (lineFeed :: rest) := by
  have apart : carriageReturn ≠ lineFeed := by decide
  rw [withTerminators, if_neg apart, if_pos ⟨rfl, rfl⟩]

theorem withTerminators_unit {u : CodeUnit} {rest : Text} (inside : u ≠ lineFeed)
    (notReturned : ¬ (u = carriageReturn ∧ rest.head? = some lineFeed)) :
    withTerminators term (u :: rest) = u :: withTerminators term rest := by
  rw [withTerminators, if_neg inside, if_neg notReturned]

/-- Joining the lines of a text again replaces its terminators. -/
theorem written_terminateWith_contents (t : Text) :
    written (terminateWith term (KeyFile.isTerminated t) ((terminatedLines t).map Line.content)) =
      withTerminators term t := by
  induction t using cutInduction with
  | nil => rfl
  | feed rest ih =>
    rw [withTerminators_feed, terminatedLines_feed, ← ih]
    cases rest with
    | nil => rfl
    | cons v more =>
      have some : (terminatedLines (v :: more)).map Line.content ≠ [] := fun none =>
        List.cons_ne_nil v more (terminatedLines_eq_nil.mp (List.map_eq_nil_iff.mp none))
      rw [isTerminated_cons lineFeed (List.cons_ne_nil v more), List.map_cons,
        terminateWith_cons [] some, written_cons]
      rfl
  | returned rest ih =>
    rw [withTerminators_returned, ← ih, terminatedLines_returned, terminatedLines_feed,
      isTerminated_cons carriageReturn (List.cons_ne_nil lineFeed rest)]
    rfl
  | unit u rest inside notReturned ih =>
    rw [withTerminators_unit term inside notReturned, ← ih, terminatedLines_unit inside notReturned]
    cases rest with
    | nil =>
      rw [isTerminated_singleton inside]
      rfl
    | cons v more =>
      obtain ⟨l, ls, cut⟩ := exists_terminatedLines (List.cons_ne_nil v more)
      obtain ⟨terminator, shape⟩ :=
        exists_terminateWith_cons term (KeyFile.isTerminated (v :: more)) (ls.map Line.content)
      rw [isTerminated_cons u (List.cons_ne_nil v more), cut, List.map_cons, List.map_cons, shape,
        shape, written_cons, written_cons]
      rfl

section

variable {term} (closing : term.getLast? = some lineFeed)

include closing

theorem withTerminators_ne_nil {t : Text} (some : t ≠ []) : withTerminators term t ≠ [] := by
  induction t using cutInduction with
  | nil => exact absurd rfl some
  | feed rest _ =>
    rw [withTerminators_feed]
    intro none
    rw [(List.append_eq_nil_iff.mp none).1] at closing
    cases closing
  | returned rest ih =>
    rw [withTerminators_returned]
    exact ih (List.cons_ne_nil lineFeed rest)
  | unit u rest inside notReturned _ =>
    rw [withTerminators_unit _ inside notReturned]
    exact List.cons_ne_nil u _

theorem isTerminated_withTerminators (t : Text) :
    KeyFile.isTerminated (withTerminators term t) = KeyFile.isTerminated t := by
  induction t using cutInduction with
  | nil => rfl
  | feed rest ih =>
    rw [withTerminators_feed]
    cases rest with
    | nil =>
      rw [withTerminators, List.append_nil]
      exact decide_eq_true closing
    | cons v more =>
      have some : v :: more ≠ [] := List.cons_ne_nil v more
      rw [isTerminated_append term (withTerminators_ne_nil closing some), ih,
        isTerminated_cons lineFeed some]
  | returned rest ih =>
    rw [withTerminators_returned, ih,
      isTerminated_cons carriageReturn (List.cons_ne_nil lineFeed rest)]
  | unit u rest inside notReturned ih =>
    rw [withTerminators_unit _ inside notReturned]
    cases rest with
    | nil => rfl
    | cons v more =>
      have some : v :: more ≠ [] := List.cons_ne_nil v more
      rw [isTerminated_cons u (withTerminators_ne_nil closing some), ih,
        isTerminated_cons u some]

end

/-- The lines of a text terminated as they are when the text is a key file. -/
theorem wellCut_usualTerminator (t : Text) :
    WellCut (terminateWith (usualTerminator t) (KeyFile.isTerminated t)
      ((terminatedLines t).map Line.content)) := by
  have cut := wellCut_terminatedLines t
  by_cases alike : hasCrLf t ∧ hasLoneFeed false t
  · rw [usualTerminator, if_pos alike.1]
    refine wellCut_returned ?_ fun open_ c last => ?_
    · intro c within
      obtain ⟨l, inside, rfl⟩ := List.mem_map.mp within
      exact (cut.not_mem_content inside).1
    · rw [List.getLast?_map] at last
      obtain ⟨l, ends, rfl⟩ := Option.map_eq_some_iff.mp last
      exact content_ne_nil_of_open open_ ends
  · rw [← terminatedLines_eq_terminateWith alike]
    exact cut

end Text

namespace KeyFile

open Text (hasCrLf hasLoneFeed terminatedLines usualTerminator withTerminators)

variable {t : Text} {f : KeyFile}

theorem text_eq_withTerminators (parses : parse t = .ok f) :
    f.text = withTerminators (usualTerminator t) t := by
  obtain ⟨-, term, ended⟩ := parse_eq_ok.mp parses
  rw [text_eq, rawLines_of_parse parses, term, ended]
  by_cases blank : t = []
  · rw [blank]
    rfl
  · rw [Text.fileLines_eq blank, Text.written_terminateWith_contents]

/-- The lines stay as they are when their terminators are replaced by the usual one. -/
theorem fileLines_withTerminators (t : Text) :
    fileLines (withTerminators (usualTerminator t) t) = fileLines t := by
  have closing := Text.getLast?_usualTerminator t
  by_cases blank : t = []
  · rw [blank]
    rfl
  rw [Text.fileLines_eq (Text.withTerminators_ne_nil closing blank), Text.fileLines_eq blank,
    ← Text.written_terminateWith_contents,
    Text.terminatedLines_written (Text.wellCut_usualTerminator t), Text.map_content_terminateWith]

/-- Only a text with terminators of both kinds is changed by giving it the usual one throughout. -/
theorem withTerminators_eq_self_iff (t : Text) :
    withTerminators (usualTerminator t) t = t ↔ ¬ (hasCrLf t ∧ hasLoneFeed false t) := by
  have whole := Text.written_terminateWith_contents (usualTerminator t) t
  constructor
  · rintro same ⟨returned, alone⟩
    have inside : ∀ c ∈ (terminatedLines t).map Text.Line.content, Text.lineFeed ∉ c := by
      intro c within
      obtain ⟨l, here, rfl⟩ := List.mem_map.mp within
      exact ((Text.wellCut_terminatedLines t).not_mem_content here).1
    rw [same, usualTerminator, if_pos returned] at whole
    rw [← whole, Text.hasLoneFeed_terminateWith inside] at alone
    cases alone
  · intro alike
    rw [← whole, ← Text.terminatedLines_eq_terminateWith alike, Text.written_terminatedLines]

/-- A key file that is written as it was read is the text with one terminator throughout: the lines
are kept whatever stands in them, and so is the text itself unless its terminators differ. -/
theorem text_of_parse (parses : parse t = .ok f) :
    f.text = withTerminators (if hasCrLf t then "\r\n" else "\n") t ∧
      fileLines f.text = fileLines t ∧ isTerminated f.text = isTerminated t ∧
      (f.text = t ↔ ¬ (hasCrLf t ∧ hasLoneFeed false t)) := by
  have usual : (if hasCrLf t then ("\r\n" : Text) else "\n") = usualTerminator t := by
    unfold Text.usualTerminator
    split <;> decide
  have ends := Text.isTerminated_withTerminators (Text.getLast?_usualTerminator t) t
  rw [usual, text_eq_withTerminators parses]
  exact ⟨rfl, fileLines_withTerminators t, ends, withTerminators_eq_self_iff t⟩

/-- Terminators of both kinds around a carriage return in a line, a group and a key that are
repeated, and blank lines at the end. -/
def mixedText : Text := "# c\r\n [a] \n k = 1\rx\r\n[a]\n\tk=\nk=2 \r\n\n  \n"

theorem text_of_parse_mixedText : ∃ f, parse mixedText = .ok f ∧
    f.text = "# c\r\n [a] \r\n k = 1\rx\r\n[a]\r\n\tk=\r\nk=2 \r\n\r\n  \r\n" ∧
      f.text ≠ mixedText := by
  have accepted : (parse mixedText).isOk = true := by decide +kernel
  cases parses : parse mixedText with
  | error e =>
    rw [parses] at accepted
    cases accepted
  | ok f =>
    obtain ⟨whole, -, -, same⟩ := text_of_parse parses
    exact ⟨f, rfl, whole.trans (by decide +kernel), fun kept => same.mp kept (by decide +kernel)⟩

end KeyFile

end FileProfile
