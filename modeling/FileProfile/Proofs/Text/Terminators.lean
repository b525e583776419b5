import FileProfile.Proofs.Text.Lines
import FileProfile.Proofs.Text.Paired
import Mathlib.Algebra.GroupWithZero.Nat

/-!
Lines that all end alike.

A key file is written with one terminator (`terminateWith`, `KeyFile.text_eq`). A text is a writing
of its own lines in this way just in case its terminators do not differ
(`terminatedLines_eq_terminateWith`), and a text whose lines end in carriage returns and line feeds
holds no line feed alone (`hasLoneFeed_terminateWith`).
-/

namespace FileProfile

namespace Text

/-- Lines that all end in `term`, the last one only where `ended` says so. -/
def terminateWith (term : Text) (ended : Bool) : List Text → List Line
  | [] => []
  | [content] => [⟨content, if ended then term else []⟩]
  | content :: next :: more => ⟨content, term⟩ :: terminateWith term ended (next :: more)

variable {term : Text} {ended : Bool}

theorem terminateWith_cons (content : Text) {more : List Text} (some : more ≠ []) :
    terminateWith term ended (content :: more) =
      ⟨content, term⟩ :: terminateWith term ended more := by
  cases more with
  | nil => exact absurd rfl some
  | cons next more => rfl

theorem terminateWith_append (front : List Text) {back : List Text} (some : back ≠ []) :
    terminateWith term ended (front ++ back) =
      front.map (fun content => ⟨content, term⟩) ++ terminateWith term ended back := by
  induction front with
  | nil => rfl
  | cons content front ih =>
    rw [List.cons_append, terminateWith_cons content (by simp [some]), ih]
    rfl

/-- Lines that are all terminated are terminated alike. -/
theorem terminateWith_ended (contents : List Text) :
    terminateWith term true contents = contents.map fun content => ⟨content, term⟩ := by
  induction contents with
  | nil => rfl
  | cons content more ih =>
    cases more with
    | nil => rfl
    | cons next more =>
      rw [terminateWith_cons content (List.cons_ne_nil _ _), ih]
      rfl

/-- The terminator of a line does not depend on what the line holds. -/
theorem exists_terminateWith_cons (term : Text) (ended : Bool) (back : List Text) :
    ∃ terminator, ∀ content, terminateWith term ended (content :: back) =
      ⟨content, terminator⟩ :: terminateWith term ended back := by
  cases back with
  | nil => exact ⟨_, fun _ => rfl⟩
  | cons next more => exact ⟨term, fun _ => rfl⟩

@[simp] theorem map_content_terminateWith (contents : List Text) :
    (terminateWith term ended contents).map Line.content = contents := by
  induction contents with
  | nil => rfl
  | cons content more ih =>
    obtain ⟨terminator, shape⟩ := exists_terminateWith_cons term ended more
    rw [shape, List.map_cons, ih]

theorem terminator_of_mem_terminateWith {contents : List Text} {l : Line}
    (within : l ∈ terminateWith term ended contents) : l.terminator = term ∨ l.terminator = [] := by
  induction contents with
  | nil => cases within
  | cons content more ih =>
    cases more with
    | nil =>
      rw [List.mem_singleton.mp within]
      cases ended with
      | true => exact .inl rfl
      | false => exact .inr rfl
    | cons next more =>
      rcases List.mem_cons.mp within with here | later
      · rw [here]
        exact .inl rfl
      · exact ih later

theorem join_cons (sep piece : Text) {pieces : List Text} (some : pieces ≠ []) :
    join sep (piece :: pieces) = piece ++ sep ++ join sep pieces := by
  cases pieces with
  | nil => exact absurd rfl some
  | cons next more => simp [join, List.intercalate, List.intersperse]

/-- Writing the lines joins them and puts one more terminator behind them where they are ended. -/
theorem written_terminateWith (term : Text) (ended : Bool) {contents : List Text}
    (some : contents ≠ []) : written (terminateWith term ended contents) =
      if ended then join term contents ++ term else join term contents := by
  induction contents with
  | nil => exact absurd rfl some
  | cons content more ih =>
    cases more with
    | nil => cases ended <;> simp [terminateWith, written, Line.whole, join, List.intercalate]
    | cons next more =>
      have others : next :: more ≠ [] := List.cons_ne_nil _ _
      rw [terminateWith_cons content others, written_cons, ih others, join_cons term content others]
      cases ended <;> simp [Line.whole]

theorem getLast?_append_of_ne_nil {α : Type} (a : List α) {b : List α} (some : b ≠ []) :
    (a ++ b).getLast? = b.getLast? := by
  rw [List.getLast?_append, List.getLast?_eq_some_getLast some, Option.some_or]

theorem isTerminated_append (a : Text) {b : Text} (some : b ≠ []) :
    KeyFile.isTerminated (a ++ b) = KeyFile.isTerminated b := by
  unfold KeyFile.isTerminated
  rw [getLast?_append_of_ne_nil a some]

theorem WellCut.written_ne_nil {ls : List Line} (cut : WellCut ls) (some : ls ≠ []) :
    written ls ≠ [] := by
  intro blank
  have again := terminatedLines_written cut
  rw [blank] at again
  exact some again.symm

/-- A line that is terminated like those behind it. -/
theorem WellCut.terminateWith_cons {ls : List Line} (cut : WellCut ls) (content : Text)
    (feeds : term.getLast? = some lineFeed)
    (behind : ls = terminateWith term (KeyFile.isTerminated (written ls)) (ls.map Line.content)) :
    (⟨content, term⟩ :: ls : List Line) = terminateWith term
      (KeyFile.isTerminated (written (⟨content, term⟩ :: ls)))
      (content :: ls.map Line.content) := by
  have more : term ≠ [] := by
    rintro rfl
    cases feeds
  cases ls with
  | nil =>
    have ends : KeyFile.isTerminated (written [⟨content, term⟩]) = true := by
      simp only [written, Line.whole, List.flatMap_cons, List.flatMap_nil, List.append_nil]
      rw [isTerminated_append content more]
      exact decide_eq_true feeds
    rw [ends, List.map_nil, terminateWith, if_pos rfl]
  | cons l ls =>
    have others : l :: ls ≠ [] := List.cons_ne_nil l ls
    rw [written_cons, isTerminated_append _ (cut.written_ne_nil others),
      Text.terminateWith_cons content (by simp), ← behind]

/-- A text whose terminators do not differ is the writing of its lines with one terminator. The
induction is on how the text is cut, so only the last line can lack its terminator. -/
theorem WellCut.eq_terminateWith {ls : List Line} (cut : WellCut ls)
    (alike : ∀ l ∈ ls, l.terminator = term ∨ l.terminator = []) :
    ls = terminateWith term (KeyFile.isTerminated (written ls)) (ls.map Line.content) := by
  induction cut with
  | nil => rfl
  | @last content some inside =>
    have open_ : KeyFile.isTerminated (written [⟨content, []⟩]) = false := by
      simp only [written, Line.whole, List.flatMap_cons, List.flatMap_nil, List.append_nil]
      refine decide_eq_false fun closing => inside ?_
      exact List.mem_of_getLast? closing
    rw [open_]
    rfl
  | @feed content ls _ _ others ih =>
    have here : [lineFeed] = term := by simpa using alike _ List.mem_cons_self
    subst here
    exact others.terminateWith_cons content rfl
      (ih fun l within => alike l (List.mem_cons_of_mem _ within))
  | @returned content ls _ others ih =>
    have here : [carriageReturn, lineFeed] = term := by simpa using alike _ List.mem_cons_self
    subst here
    exact others.terminateWith_cons content rfl
      (ih fun l within => alike l (List.mem_cons_of_mem _ within))

/-- What the lines of a text may be. -/
theorem WellCut.line_cases {ls : List Line} (cut : WellCut ls) {l : Line} (within : l ∈ ls) :
    (l.terminator = [] ∧ l.content ≠ [] ∧ lineFeed ∉ l.content) ∨
      (l.terminator = [lineFeed] ∧ lineFeed ∉ l.content ∧
        l.content.getLast? ≠ some carriageReturn) ∨
      (l.terminator = [carriageReturn, lineFeed] ∧ lineFeed ∉ l.content) := by
  induction cut with
  | nil => cases within
  | last some inside =>
    rw [List.mem_singleton.mp within]
    exact .inl ⟨rfl, some, inside⟩
  | feed inside ends others ih =>
    rcases List.mem_cons.mp within with here | later
    · rw [here]
      exact .inr (.inl ⟨rfl, inside, ends⟩)
    · exact ih later
  | returned inside others ih =>
    rcases List.mem_cons.mp within with here | later
    · rw [here]
      exact .inr (.inr ⟨rfl, inside⟩)
    · exact ih later

/-- The terminators that the lines of a text may have. -/
theorem WellCut.terminator_cases {ls : List Line} (cut : WellCut ls) {l : Line} (within : l ∈ ls) :
    l.terminator = [carriageReturn, lineFeed] ∨ l.terminator = [lineFeed] ∨ l.terminator = [] := by
  rcases cut.line_cases within with ⟨none, -⟩ | ⟨feed, -⟩ | ⟨returned, -⟩
  · exact .inr (.inr none)
  · exact .inr (.inl feed)
  · exact .inl returned

/-- Every line but the last is terminated. -/
theorem WellCut.getLast?_terminator {ls : List Line} (cut : WellCut ls) {l : Line}
    (within : l ∈ ls.dropLast) : l.terminator.getLast? = some lineFeed := by
  induction cut with
  | nil => cases within
  | last some inside => cases within
  | @feed content ls _ _ _ ih =>
    cases ls with
    | nil => cases within
    | cons k ls =>
      rcases List.mem_cons.mp within with here | later
      · rw [here]
        rfl
      · exact ih later
  | @returned content ls _ _ ih =>
    cases ls with
    | nil => cases within
    | cons k ls =>
      rcases List.mem_cons.mp within with here | later
      · rw [here]
        rfl
      · exact ih later

theorem WellCut.content_ne_nil {ls : List Line} (cut : WellCut ls) {l : Line} (within : l ∈ ls)
    (open_ : l.terminator = []) : l.content ≠ [] := by
  rcases cut.line_cases within with ⟨-, some, -⟩ | ⟨feed, -⟩ | ⟨returned, -⟩
  · exact some
  · rw [feed] at open_
    cases open_
  · rw [returned] at open_
    cases open_

theorem WellCut.not_mem_content {ls : List Line} (cut : WellCut ls) {l : Line} (within : l ∈ ls) :
    lineFeed ∉ l.content ∧
      (l.terminator = [lineFeed] → l.content.getLast? ≠ some carriageReturn) := by
  rcases cut.line_cases within with ⟨none, -, inside⟩ | ⟨-, inside, ends⟩ | ⟨returned, inside⟩
  · exact ⟨inside, fun same => by rw [none] at same; cases same⟩
  · exact ⟨inside, fun _ => ends⟩
  · refine ⟨inside, fun same => ?_⟩
    rw [returned] at same
    exact absurd same (by decide)

/-- The terminator that a key file is written with when it has been read from a text. -/
def usualTerminator (t : Text) : Text :=
  if hasCrLf t then [carriageReturn, lineFeed] else [lineFeed]

theorem getLast?_usualTerminator (t : Text) : (usualTerminator t).getLast? = some lineFeed := by
  unfold usualTerminator
  split <;> rfl

theorem terminatedLines_eq_terminateWith {t : Text} (alike : ¬ (hasCrLf t ∧ hasLoneFeed false t)) :
    terminatedLines t = terminateWith (usualTerminator t) (KeyFile.isTerminated t)
      ((terminatedLines t).map Line.content) := by
  have cut := wellCut_terminatedLines t
  have whole := written_terminatedLines t
  rw [hasLoneFeed_false, hasCrLf_eq] at alike
  have same : ∀ l ∈ terminatedLines t, l.terminator = usualTerminator t ∨ l.terminator = [] := by
    intro l within
    unfold usualTerminator
    rw [hasCrLf_eq]
    rcases cut.terminator_cases within with returned | feed | none
    · have some : (terminatedLines t).any
          (fun l => l.terminator = [carriageReturn, lineFeed]) = true :=
        List.any_eq_true.mpr ⟨l, within, decide_eq_true returned⟩
      rw [if_pos some]
      exact .inl returned
    · have some : (terminatedLines t).any (fun l => l.terminator = [lineFeed]) = true :=
        List.any_eq_true.mpr ⟨l, within, decide_eq_true feed⟩
      rw [if_neg fun other => alike ⟨other, some⟩]
      exact .inl feed
    · exact .inr none
  have shape := cut.eq_terminateWith same
  rwa [whole] at shape

/-- The last line of a text that is not terminated holds something. -/
theorem content_ne_nil_of_open {t : Text} (open_ : KeyFile.isTerminated t = false) {l : Line}
    (last : l ∈ (terminatedLines t).getLast?) : l.content ≠ [] := by
  obtain ⟨front, shape⟩ := List.getLast?_eq_some_iff.mp last
  have cut := wellCut_terminatedLines t
  have within : l ∈ terminatedLines t := List.mem_of_getLast? last
  have whole := written_terminatedLines t
  rw [shape, written_append] at whole
  have ends : written [l] = l.content ++ l.terminator := List.append_nil _
  have feeds : ∀ term : Text, l.terminator = term → term.getLast? = some lineFeed → False := by
    intro term same closing
    rw [← whole, ends, same, ← List.append_assoc, KeyFile.isTerminated, List.getLast?_append,
      closing] at open_
    simp at open_
  rcases cut.terminator_cases within with returned | feed | none
  · exact absurd rfl (feeds _ returned)
  · exact absurd rfl (feeds _ feed)
  · exact cut.content_ne_nil within none

/-- A writing of lines is terminated if they are ended, or if the last of them is itself. -/
theorem isTerminated_terminateWith {contents : List Text} {last : Text}
    (closing : term.getLast? = some lineFeed) (ends : contents.getLast? = some last)
    (filled : ended = false → last ≠ []) :
    KeyFile.isTerminated (written (terminateWith term ended contents)) =
      (ended || KeyFile.isTerminated last) := by
  obtain ⟨front, rfl⟩ := List.getLast?_eq_some_iff.mp ends
  have single : written (terminateWith term ended [last]) =
      last ++ if ended then term else [] := List.append_nil _
  rw [terminateWith_append front (List.cons_ne_nil last []), written_append, single]
  cases ended with
  | true =>
    have terminates : term ≠ [] := by
      rintro rfl
      cases closing
    rw [if_pos rfl, ← List.append_assoc, isTerminated_append _ terminates, Bool.true_or]
    exact decide_eq_true closing
  | false =>
    rw [if_neg Bool.false_ne_true, List.append_nil, isTerminated_append _ (filled rfl),
      Bool.false_or]

/-! ## Lines that can be cut so again -/

/-- Lines that are terminated alike in front of others. -/
theorem wellCut_map_append {front : List Text} {ls : List Line}
    (known : term = [lineFeed] ∨ term = [carriageReturn, lineFeed]) :
    WellCut (front.map (fun content => ⟨content, term⟩) ++ ls) ↔
      (∀ c ∈ front, lineFeed ∉ c ∧ (term = [lineFeed] → c.getLast? ≠ some carriageReturn)) ∧
        WellCut ls := by
  have longer : [carriageReturn, lineFeed] ≠ [lineFeed] := by decide
  induction front with
  | nil => simp
  | cons c front ih =>
    rw [List.map_cons, List.cons_append, List.forall_mem_cons, and_assoc]
    refine Iff.trans ?_ (and_congr_right fun _ => ih)
    rcases known with rfl | rfl
    · constructor
      · intro cut
        cases cut with
        | feed inside ends others => exact ⟨⟨inside, fun _ => ends⟩, others⟩
      · rintro ⟨⟨inside, ends⟩, others⟩
        exact .feed inside (ends rfl) others
    · constructor
      · intro cut
        cases cut with
        | returned inside others => exact ⟨⟨inside, fun same => absurd same longer⟩, others⟩
      · rintro ⟨⟨inside, -⟩, others⟩
        exact .returned inside others

theorem wellCut_returned {contents : List Text} (inside : ∀ c ∈ contents, lineFeed ∉ c)
    (closing : ended = false → ∀ c ∈ contents.getLast?, c ≠ []) :
    WellCut (terminateWith [carriageReturn, lineFeed] ended contents) := by
  induction contents with
  | nil => exact .nil
  | cons content more ih =>
    have here := inside content List.mem_cons_self
    have others := fun c within => inside c (List.mem_cons_of_mem _ within)
    cases more with
    | nil =>
      cases ended with
      | true => exact .returned here .nil
      | false => exact .last (closing rfl content rfl) here
    | cons next more =>
      rw [terminateWith_cons content (List.cons_ne_nil next more)]
      refine .returned here (ih others fun open_ c last => closing open_ c ?_)
      rwa [List.getLast?_cons_cons]

/-- A line may take the place of another one that is terminated as it is. -/
theorem WellCut.replace {content content' terminator : Text} {ls : List Line}
    (cut : WellCut (⟨content, terminator⟩ :: ls)) (nonempty : content' ≠ [])
    (inside : lineFeed ∉ content') (ends : content'.getLast? ≠ some carriageReturn) :
    WellCut (⟨content', terminator⟩ :: ls) := by
  cases cut with
  | last _ _ => exact .last nonempty inside
  | feed _ _ others => exact .feed inside ends others
  | returned _ others => exact .returned inside others

/-! ## Line feeds that stand alone -/

/-- Units without line feed in front of a text only tell whether a carriage return stands there. -/
theorem hasLoneFeed_append {content : Text} (inside : lineFeed ∉ content) (afterReturn : Bool)
    (rest : Text) : hasLoneFeed afterReturn (content ++ rest) =
      hasLoneFeed ((content.getLast?.map fun u => decide (u = carriageReturn)).getD afterReturn)
        rest := by
  induction content generalizing afterReturn with
  | nil => rfl
  | cons u more ih =>
    have first : u ≠ lineFeed := fun same => inside (same ▸ List.mem_cons_self)
    rw [List.cons_append, hasLoneFeed, ih fun h => inside (List.mem_cons_of_mem _ h)]
    cases more with
    | nil => simp [first]
    | cons v more =>
      have last : (v :: more).getLast? = some ((v :: more).getLast (List.cons_ne_nil _ _)) :=
        List.getLast?_eq_some_getLast _
      rw [List.getLast?_cons_cons, last]
      simp [first]

theorem hasLoneFeed_returned (afterReturn : Bool) (rest : Text) :
    hasLoneFeed afterReturn (carriageReturn :: lineFeed :: rest) = hasLoneFeed false rest := by
  rw [hasLoneFeed, hasLoneFeed]
  have apart : carriageReturn ≠ lineFeed := by decide
  simp [apart, apart.symm]

/-- No line feed stands alone where lines end in a carriage return and a line feed. -/
theorem hasLoneFeed_terminateWith {contents : List Text} (inside : ∀ c ∈ contents, lineFeed ∉ c)
    (ended afterReturn : Bool) : hasLoneFeed afterReturn
      (written (terminateWith [carriageReturn, lineFeed] ended contents)) = false := by
  induction contents generalizing afterReturn with
  | nil => rfl
  | cons content more ih =>
    have first := inside content List.mem_cons_self
    cases more with
    | nil =>
      simp only [terminateWith, written, Line.whole, List.flatMap_cons, List.flatMap_nil,
        List.append_nil]
      rw [hasLoneFeed_append first]
      cases ended with
      | true => exact hasLoneFeed_returned _ []
      | false => rfl
    | cons next more =>
      have behind := ih (fun c within => inside c (List.mem_cons_of_mem _ within)) false
      rw [terminateWith_cons content (List.cons_ne_nil _ _), written_cons]
      simp only [Line.whole, List.append_assoc]
      rw [hasLoneFeed_append first]
      exact (hasLoneFeed_returned _ _).trans behind

/-- A line feed stands alone where no carriage return stands in front of it. -/
theorem hasLoneFeed_of_append {before : Text} (behind : Text)
    (apart : before.getLast? ≠ some carriageReturn) :
    hasLoneFeed false (before ++ lineFeed :: behind) = true := by
  have inside : ∀ (b : Bool) (t : Text), (t = [] → b = false) → t.getLast? ≠ some carriageReturn →
      hasLoneFeed b (t ++ lineFeed :: behind) = true := by
    intro b t
    induction t generalizing b with
    | nil =>
      intro start _
      rw [start rfl, List.nil_append, hasLoneFeed]
      rfl
    | cons u rest ih =>
      intro _ closing
      rw [List.cons_append, hasLoneFeed, ih, Bool.or_true]
      · rintro rfl
        have other : u ≠ carriageReturn := by simpa using closing
        exact decide_eq_false other
      · cases rest with
        | nil => simp
        | cons v more => simpa using closing
  exact inside false before (fun _ => rfl) apart

/-- A line that ends in a line feed alone stays so in whatever else is written around it. -/
theorem hasLoneFeed_written {before : List Line} {content : Text} (after : List Line)
    (ended : ∀ l ∈ before, l.terminator.getLast? = some lineFeed)
    (apart : content.getLast? ≠ some carriageReturn) :
    hasLoneFeed false (written (before ++ ⟨content, [lineFeed]⟩ :: after)) = true := by
  have whole : written (before ++ ⟨content, [lineFeed]⟩ :: after) =
      (written before ++ content) ++ lineFeed :: written after := by
    simp [written, Line.whole]
  rw [whole]
  refine hasLoneFeed_of_append _ fun closing => ?_
  have notFeed : lineFeed ≠ carriageReturn := by decide
  by_cases blank : content = []
  · rw [blank, List.append_nil] at closing
    rcases List.eq_nil_or_concat before with none | ⟨front, l, rfl⟩
    · rw [none] at closing
      cases closing
    · have feeds := ended l (by simp)
      have single : written [l] = l.content ++ l.terminator := List.append_nil _
      rw [List.concat_eq_append, written_append, single, ← List.append_assoc,
        List.getLast?_append, feeds, Option.some_or] at closing
      exact notFeed (Option.some.inj closing)
  · rw [getLast?_append_of_ne_nil _ blank] at closing
    exact apart closing

/-- A line that ends in a line feed alone, among lines that are all terminated but the last. -/
theorem hasLoneFeed_of_mem {ls : List Line}
    (ended : ∀ l ∈ ls.dropLast, l.terminator.getLast? = some lineFeed) {l : Line} (within : l ∈ ls)
    (feed : l.terminator = [lineFeed]) (apart : l.content.getLast? ≠ some carriageReturn) :
    hasLoneFeed false (written ls) = true := by
  obtain ⟨before, after, rfl⟩ := List.append_of_mem within
  have front : ∀ k ∈ before, k.terminator.getLast? = some lineFeed := by
    intro k inside
    refine ended k ?_
    rw [List.dropLast_append_cons]
    exact List.mem_append_left _ inside
  have own : l = ⟨l.content, [lineFeed]⟩ := by rw [← feed]
  rw [own]
  exact hasLoneFeed_written after front apart

/-! ## Pairs and counts -/

theorem paired_written {ls : List Line} (contents : ∀ l ∈ ls, Paired l.content)
    (terminators : ∀ l ∈ ls, ∀ u ∈ l.terminator, ¬ u.IsSurrogate) : Paired (written ls) := by
  induction ls with
  | nil => exact .nil
  | cons l ls ih =>
    have ends := paired_of_all_plain (terminators l List.mem_cons_self)
    rw [written_cons]
    exact ((contents l List.mem_cons_self).append ends).append
      (ih (fun l h => contents l (List.mem_cons_of_mem _ h))
        (fun l h => terminators l (List.mem_cons_of_mem _ h)))

/-- Lines hold whole pairs where their text does, since no terminator holds half of one. -/
theorem WellCut.paired_content {ls : List Line} (cut : WellCut ls) (whole : Paired (written ls))
    {l : Line} (within : l ∈ ls) : Paired l.content := by
  have feed : ¬ CodeUnit.IsSurrogate lineFeed := by decide
  have back : ¬ CodeUnit.IsSurrogate carriageReturn := by decide
  induction cut with
  | nil => cases within
  | last some inside =>
    rw [List.mem_singleton.mp within]
    simpa [written, Line.whole] using whole
  | @feed content ls _ _ _ ih =>
    have cut : Paired (content ++ lineFeed :: written ls) := by
      simpa [written, Line.whole] using whole
    rcases List.mem_cons.mp within with here | later
    · rw [here]
      exact (cut.cut feed).1
    · exact ih (cut.cut feed).2 later
  | @returned content ls _ _ ih =>
    have cut : Paired (content ++ carriageReturn :: lineFeed :: written ls) := by
      simpa [written, Line.whole] using whole
    rcases List.mem_cons.mp within with here | later
    · rw [here]
      exact (cut.cut back).1
    · have rest := (cut.cut back).2
      exact ih (Paired.cut feed (a := []) rest).2 later

/-- A unit that no terminator holds is counted in the lines. -/
theorem count_written {ls : List Line} {u : CodeUnit} (apart : ∀ l ∈ ls, u ∉ l.terminator) :
    (written ls).count u = ((ls.map Line.content).map (List.count u)).sum := by
  induction ls with
  | nil => rfl
  | cons l ls ih =>
    rw [written_cons, List.count_append, Line.whole, List.count_append,
      List.count_eq_zero_of_not_mem (apart l List.mem_cons_self),
      ih fun l h => apart l (List.mem_cons_of_mem _ h)]
    rfl

end Text

end FileProfile
