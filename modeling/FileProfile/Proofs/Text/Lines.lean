import FileProfile.KeyFile.Basic

/-!
Lines together with their terminators.

`Text.terminatedLines` cuts a text behind every terminator and loses nothing
(`written_terminatedLines`). The lists that it gives are exactly those that satisfy `WellCut`
(`wellCut_terminatedLines`, `terminatedLines_written`), and what the key-file reader asks of a text,
its lines and which terminators it uses, can be told from them.
-/

namespace FileProfile

namespace Text

/-- A line of a text with the terminator behind it, which only the last line may lack. -/
structure Line where
  content : Text
  terminator : Text
deriving DecidableEq, Repr

/-- A line as it stands in the text. -/
def Line.whole (l : Line) : Text := l.content ++ l.terminator

def written (ls : List Line) : Text := ls.flatMap Line.whole

/-- The lines of a text with their terminators; a final terminator makes no line of its own. -/
def terminatedLines : Text → List Line
  | [] => []
  | u :: rest =>
    if u = lineFeed then ⟨[], [u]⟩ :: terminatedLines rest
    else
      match terminatedLines rest with
      | [] => [⟨[u], []⟩]
      | l :: ls =>
        if u = carriageReturn ∧ rest.head? = some lineFeed then ⟨[], u :: l.terminator⟩ :: ls
        else ⟨u :: l.content, l.terminator⟩ :: ls

/-- Whether some line ends in a line feed alone; `afterReturn` tells whether a carriage return
stands in front of the text. -/
def hasLoneFeed (afterReturn : Bool) : Text → Bool
  | [] => false
  | u :: rest => (u = lineFeed && !afterReturn) || hasLoneFeed (u = carriageReturn) rest

/-- The lines that a text can be cut into. -/
inductive WellCut : List Line → Prop where
  | nil : WellCut []
  | last {content : Text} : content ≠ [] → lineFeed ∉ content → WellCut [⟨content, []⟩]
  | feed {content : Text} {ls : List Line} : lineFeed ∉ content →
      content.getLast? ≠ some carriageReturn → WellCut ls → WellCut (⟨content, [lineFeed]⟩ :: ls)
  | returned {content : Text} {ls : List Line} : lineFeed ∉ content → WellCut ls →
      WellCut (⟨content, [carriageReturn, lineFeed]⟩ :: ls)

theorem written_cons (l : Line) (ls : List Line) : written (l :: ls) = l.whole ++ written ls :=
  List.flatMap_cons

theorem written_append (ls ms : List Line) : written (ls ++ ms) = written ls ++ written ms :=
  List.flatMap_append

/-! ## Cutting -/

/-- The induction that follows the cuts: at a line feed, at a carriage return in front of one, and
inside a line. -/
theorem cutInduction {motive : Text → Prop} (nil : motive [])
    (feed : ∀ rest, motive rest → motive (lineFeed :: rest))
    (returned : ∀ rest, motive (lineFeed :: rest) → motive (carriageReturn :: lineFeed :: rest))
    (unit : ∀ u rest, u ≠ lineFeed → ¬ (u = carriageReturn ∧ rest.head? = some lineFeed) →
      motive rest → motive (u :: rest)) (t : Text) : motive t := by
  induction t with
  | nil => exact nil
  | cons u rest ih =>
    by_cases isFeed : u = lineFeed
    · rw [isFeed]
      exact feed rest ih
    by_cases isReturn : u = carriageReturn ∧ rest.head? = some lineFeed
    · obtain ⟨rfl, ahead⟩ := isReturn
      cases rest with
      | nil => cases ahead
      | cons v more =>
        rw [Option.some.inj ahead] at ih ⊢
        exact returned more ih
    · exact unit u rest isFeed isReturn ih

theorem terminatedLines_feed (rest : Text) :
    terminatedLines (lineFeed :: rest) = ⟨[], [lineFeed]⟩ :: terminatedLines rest := by
  rw [terminatedLines, if_pos rfl]

theorem terminatedLines_returned (rest : Text) :
    terminatedLines (carriageReturn :: lineFeed :: rest) =
      ⟨[], [carriageReturn, lineFeed]⟩ :: terminatedLines rest := by
  have apart : carriageReturn ≠ lineFeed := by decide
  rw [terminatedLines, if_neg apart, terminatedLines_feed]
  simp

/-- A unit that is no part of a terminator belongs to the first line behind it. -/
theorem terminatedLines_unit {u : CodeUnit} {rest : Text} (inside : u ≠ lineFeed)
    (notReturned : ¬ (u = carriageReturn ∧ rest.head? = some lineFeed)) :
    terminatedLines (u :: rest) =
      match terminatedLines rest with
      | [] => [⟨[u], []⟩]
      | l :: ls => ⟨u :: l.content, l.terminator⟩ :: ls := by
  rw [terminatedLines, if_neg inside]
  cases terminatedLines rest with
  | nil => rfl
  | cons l ls => simp only [if_neg notReturned]

theorem written_terminatedLines (t : Text) : written (terminatedLines t) = t := by
  induction t using cutInduction with
  | nil => rfl
  | feed rest ih =>
    rw [terminatedLines_feed, written_cons, ih]
    rfl
  | returned rest ih =>
    rw [terminatedLines_feed, written_cons] at ih
    rw [terminatedLines_returned, written_cons]
    exact congrArg (carriageReturn :: ·) ih
  | unit u rest inside notReturned ih =>
    rw [terminatedLines_unit inside notReturned]
    cases cut : terminatedLines rest with
    | nil =>
      rw [cut] at ih
      rw [← ih]
      rfl
    | cons l ls =>
      rw [cut, written_cons] at ih
      rw [← ih]
      rfl

theorem terminatedLines_eq_nil {t : Text} : terminatedLines t = [] ↔ t = [] := by
  refine ⟨fun none => ?_, fun blank => by rw [blank]; rfl⟩
  have whole := written_terminatedLines t
  rw [none] at whole
  exact whole.symm

theorem exists_terminatedLines {t : Text} (some : t ≠ []) :
    ∃ l ls, terminatedLines t = l :: ls :=
  List.exists_cons_of_ne_nil (mt terminatedLines_eq_nil.mp some)

/-- Only what can be cut so is cut so. -/
theorem wellCut_terminatedLines (t : Text) : WellCut (terminatedLines t) := by
  induction t using cutInduction with
  | nil => exact .nil
  | feed rest ih =>
    rw [terminatedLines_feed]
    exact .feed List.not_mem_nil (by simp) ih
  | returned rest ih =>
    -- The rest is cut behind its line feed, which the carriage return now joins.
    rw [terminatedLines_feed] at ih
    rw [terminatedLines_returned]
    cases ih with
    | feed _ _ others => exact .returned List.not_mem_nil others
  | unit u rest notFeed notReturned ih =>
    have apart : lineFeed ≠ u := fun same => notFeed same.symm
    rw [terminatedLines_unit notFeed notReturned]
    cases cut : terminatedLines rest with
    | nil => exact .last (by simp) (by simp [apart])
    | cons l ls =>
      have whole := written_terminatedLines rest
      rw [cut] at ih whole
      -- Any other unit goes to the front of the first line of the rest.
      cases ih with
      | last some inside => exact .last (by simp) (by simp [apart, inside])
      | @feed content _ inside ends others =>
        refine .feed (by simp [apart, inside]) ?_ others
        cases content with
        | nil =>
          -- The line feed ends the line right behind `u`, so `u` is no carriage return.
          intro closing
          refine notReturned ⟨by simpa using closing, ?_⟩
          rw [← whole]
          rfl
        | cons v more => simpa using ends
      | returned inside others => exact .returned (by simp [apart, inside]) others

/-- Units of a line in front of a cut text belong to its first line. -/
theorem terminatedLines_append {content rest : Text} (inside : lineFeed ∉ content) {l : Line}
    {ls : List Line} (cut : terminatedLines rest = l :: ls)
    (apart : content.getLast? = some carriageReturn → rest.head? ≠ some lineFeed) :
    terminatedLines (content ++ rest) = ⟨content ++ l.content, l.terminator⟩ :: ls := by
  induction content with
  | nil => exact cut
  | cons u more ih =>
    have others : lineFeed ∉ more := fun h => inside (List.mem_cons_of_mem _ h)
    have first : u ≠ lineFeed := fun same => inside (same ▸ List.mem_cons_self)
    have apart' : more.getLast? = some carriageReturn → rest.head? ≠ some lineFeed := by
      intro closing
      refine apart ?_
      cases more with
      | nil => cases closing
      | cons v more' => simpa using closing
    have notReturned : ¬ (u = carriageReturn ∧ (more ++ rest).head? = some lineFeed) := by
      rintro ⟨rfl, ahead⟩
      cases more with
      | nil => exact apart rfl ahead
      | cons v more' =>
        have same : v = lineFeed := by simpa using ahead
        exact others (same ▸ List.mem_cons_self)
    rw [List.cons_append, terminatedLines_unit first notReturned, ih others apart']
    rfl

/-- Cutting what has been written gives the lines again. -/
theorem terminatedLines_written {ls : List Line} (cut : WellCut ls) :
    terminatedLines (written ls) = ls := by
  induction cut with
  | nil => rfl
  | @last content some inside =>
    obtain ⟨before, u, rfl⟩ : ∃ before u, content = before ++ [u] :=
      ⟨content.dropLast, content.getLast some, (List.dropLast_concat_getLast some).symm⟩
    have notFeed : u ≠ lineFeed := fun same => inside (by simp [same])
    have single : terminatedLines [u] = [⟨[u], []⟩] :=
      terminatedLines_unit notFeed (fun both => by cases both.2)
    have whole : written [⟨before ++ [u], []⟩] = before ++ [u] := by
      simp [written, Line.whole]
    rw [whole, terminatedLines_append (fun h => inside (by simp [h])) single]
    intro _ ahead
    exact notFeed (Option.some.inj ahead)
  | @feed content ls inside ends _ ih =>
    have single := terminatedLines_feed (written ls)
    rw [ih] at single
    have whole : written (⟨content, [lineFeed]⟩ :: ls) = content ++ lineFeed :: written ls := by
      simp [written, Line.whole]
    rw [whole, terminatedLines_append inside single (fun closing => absurd closing ends),
      List.append_nil]
  | @returned content ls inside _ ih =>
    have single := terminatedLines_returned (written ls)
    rw [ih] at single
    have whole : written (⟨content, [carriageReturn, lineFeed]⟩ :: ls) =
        content ++ carriageReturn :: lineFeed :: written ls := by
      simp [written, Line.whole]
    have apart : carriageReturn ≠ lineFeed := by decide
    rw [whole, terminatedLines_append inside single
      (fun _ ahead => apart (Option.some.inj ahead)), List.append_nil]

/-! ## What the reader asks -/

/-- The last line of a text is terminated. -/
theorem isTerminated_cons (u : CodeUnit) {rest : Text} (more : rest ≠ []) :
    KeyFile.isTerminated (u :: rest) = KeyFile.isTerminated rest := by
  unfold KeyFile.isTerminated
  rw [List.getLast?_cons, List.getLast?_eq_some_getLast more]
  rfl

theorem isTerminated_singleton {u : CodeUnit} (inside : u ≠ lineFeed) :
    KeyFile.isTerminated [u] = false := by
  simp [KeyFile.isTerminated, inside]

theorem lines_feed (rest : Text) : lines (lineFeed :: rest) = [] :: lines rest := by
  rw [lines, if_pos rfl]

theorem lines_returned (rest : Text) :
    lines (carriageReturn :: lineFeed :: rest) = lines (lineFeed :: rest) := by
  have apart : carriageReturn ≠ lineFeed := by decide
  rw [lines, if_neg apart, if_pos ⟨rfl, rfl⟩]

theorem lines_unit {u : CodeUnit} {rest : Text} (inside : u ≠ lineFeed)
    (notReturned : ¬ (u = carriageReturn ∧ rest.head? = some lineFeed)) :
    lines (u :: rest) = push u (lines rest) := by
  rw [lines, if_neg inside, if_neg notReturned]

theorem lines_eq (t : Text) : lines t = (terminatedLines t).map Line.content ++
    if KeyFile.isTerminated t ∨ t = [] then [[]] else [] := by
  induction t using cutInduction with
  | nil => rfl
  | feed rest ih =>
    rw [lines_feed, ih, terminatedLines_feed]
    cases rest with
    | nil => rfl
    | cons v more =>
      rw [isTerminated_cons lineFeed (List.cons_ne_nil v more)]
      simp
  | returned rest ih =>
    rw [lines_returned, ih, terminatedLines_feed, terminatedLines_returned,
      isTerminated_cons carriageReturn (List.cons_ne_nil _ _)]
    simp
  | unit u rest inside notReturned ih =>
    rw [lines_unit inside notReturned, ih, terminatedLines_unit inside notReturned]
    cases rest with
    | nil =>
      rw [isTerminated_singleton inside]
      rfl
    | cons v more =>
      obtain ⟨l, ls, cut⟩ := exists_terminatedLines (List.cons_ne_nil v more)
      rw [isTerminated_cons u (List.cons_ne_nil v more), cut]
      simp [push]

/-- The lines that a key file is read from are those with their terminators taken off. -/
theorem fileLines_eq {t : Text} (some : t ≠ []) :
    KeyFile.fileLines t = (terminatedLines t).map Line.content := by
  unfold KeyFile.fileLines
  rw [lines_eq]
  cases KeyFile.isTerminated t with
  | true => simp
  | false => simp [some]

theorem hasCrLf_eq (t : Text) : hasCrLf t =
    (terminatedLines t).any fun l => l.terminator = [carriageReturn, lineFeed] := by
  induction t using cutInduction with
  | nil => rfl
  | feed rest ih =>
    rw [hasCrLf, ih, terminatedLines_feed]
    simp [show lineFeed ≠ carriageReturn by decide]
  | returned rest ih =>
    rw [hasCrLf, terminatedLines_returned]
    simp
  | unit u rest inside notReturned ih =>
    rw [hasCrLf, ih, terminatedLines_unit inside notReturned]
    have here : (decide (u = carriageReturn) && decide (rest.head? = some lineFeed)) = false := by
      rw [← Bool.decide_and, decide_eq_false notReturned]
    cases cut : terminatedLines rest with
    | nil => simp [here]
    | cons l ls => simp [here]

theorem hasLoneFeed_eq (t : Text) : ∀ afterReturn, hasLoneFeed afterReturn t =
    ((terminatedLines t).drop (if afterReturn ∧ t.head? = some lineFeed then 1 else 0)).any
      fun l => l.terminator = [lineFeed] := by
  induction t using cutInduction with
  | nil => simp [hasLoneFeed, terminatedLines]
  | feed rest ih =>
    intro afterReturn
    rw [hasLoneFeed, ih, terminatedLines_feed]
    have apart : lineFeed ≠ carriageReturn := by decide
    cases afterReturn <;> simp [apart]
  | returned rest ih =>
    intro afterReturn
    rw [hasLoneFeed, ih, terminatedLines_feed, terminatedLines_returned]
    have apart : carriageReturn ≠ lineFeed := by decide
    simp [apart]
  | unit u rest inside notReturned ih =>
    intro afterReturn
    rw [hasLoneFeed, ih, terminatedLines_unit inside notReturned]
    have kept : (if decide (u = carriageReturn) = true ∧ rest.head? = some lineFeed then 1 else 0)
        = 0 := if_neg (by simpa using notReturned)
    rw [kept]
    cases cut : terminatedLines rest with
    | nil => simp [inside]
    | cons l ls => simp [inside]

theorem hasLoneFeed_false (t : Text) : hasLoneFeed false t =
    (terminatedLines t).any fun l => l.terminator = [lineFeed] := by
  rw [hasLoneFeed_eq]
  simp

end Text

end FileProfile
