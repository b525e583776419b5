import FileProfile.Proofs.KeyFile.Reread

/-!
Carriage returns in front of line feeds.

Lines that have been written with line feeds are cut again as they are, except that a carriage
return at the end of a terminated line becomes part of its terminator (`wellCut_settled`). A line
that can be read can also be read without that carriage return, and only a value at its end is read
differently (`readRows_stripped`, `meaning_stripped`).
-/

namespace FileProfile

open Text (Line WellCut carriageReturn lineFeed terminateWith written)

/-- A line as it is cut: a carriage return in front of a line feed is part of the terminator. -/
def Text.Line.settled (l : Line) : Line :=
  if l.terminator = [lineFeed] ∧ l.content.getLast? = some carriageReturn then
    ⟨l.content.dropLast, [carriageReturn, lineFeed]⟩
  else l

namespace Text

theorem Line.whole_settled (l : Line) : l.settled.whole = l.whole := by
  unfold Line.settled
  split
  next ends =>
    obtain ⟨feed, returned⟩ := ends
    obtain ⟨c, shape⟩ := List.getLast?_eq_some_iff.mp returned
    rw [Line.whole, Line.whole, shape, feed, List.dropLast_concat, List.append_assoc]
    rfl
  · rfl

theorem written_settled (ls : List Line) : written (ls.map Line.settled) = written ls := by
  rw [written, written, List.flatMap_map]
  exact congrArg (ls.flatMap ·) (funext Line.whole_settled)

/-- A line that is terminated, in front of lines that have been settled. -/
theorem WellCut.settled_cons {ls : List Line} {content term : Text} (cut : WellCut ls)
    (known : term ∈ KeyFile.terminators) (inside : lineFeed ∉ content) :
    WellCut ((⟨content, term⟩ : Line).settled :: ls) := by
  have cases : term = [lineFeed] ∨ term = [carriageReturn, lineFeed] := by
    simpa [KeyFile.terminators] using known
  unfold Line.settled
  split
  · exact .returned (fun within => inside (List.dropLast_subset content within)) cut
  next other =>
    rcases cases with rfl | rfl
    · exact .feed inside (fun returned => other ⟨rfl, returned⟩) cut
    · exact .returned inside cut

theorem wellCut_settled {term : Text} {ended : Bool} {contents : List Text}
    (known : term ∈ KeyFile.terminators) (inside : ∀ c ∈ contents, lineFeed ∉ c)
    (closing : ended = false → ∀ c ∈ contents.getLast?, c ≠ []) :
    WellCut ((terminateWith term ended contents).map Line.settled) := by
  induction contents with
  | nil => exact .nil
  | cons content more ih =>
    have here := inside content List.mem_cons_self
    cases more with
    | nil =>
      cases ended with
      | true => exact WellCut.nil.settled_cons known here
      | false =>
        have open_ : (⟨content, []⟩ : Line).settled = ⟨content, []⟩ := if_neg fun both => by
          cases both.1
        rw [terminateWith, List.map_singleton, if_neg Bool.false_ne_true, open_]
        exact .last (closing rfl content rfl) here
    | cons next more =>
      rw [terminateWith_cons content (List.cons_ne_nil next more), List.map_cons]
      refine (ih (fun c within => inside c (List.mem_cons_of_mem _ within)) ?_).settled_cons
        known here
      intro open_ c last
      exact closing open_ c (by rwa [List.getLast?_cons_cons])

theorem content_settled_feed (content : Text) :
    (⟨content, [lineFeed]⟩ : Line).settled.content = KeyFile.stripReturn content := by
  unfold Line.settled KeyFile.stripReturn
  split
  next ends => rw [if_pos ends.2]
  next other => rw [if_neg fun returned => other ⟨rfl, returned⟩]

theorem settled_of_ne {l : Line} (other : l.terminator ≠ [lineFeed]) : l.settled = l :=
  if_neg fun both => other both.1

/-- Lines in front of the last one that end in line feeds. -/
theorem contents_settled_feed (ended : Bool) (front : List Text) (last : Text) :
    ((terminateWith [lineFeed] ended (front ++ [last])).map Line.settled).map Line.content =
      front.map KeyFile.stripReturn ++ [if ended then KeyFile.stripReturn last else last] := by
  rw [terminateWith_append _ (List.cons_ne_nil last []), List.map_append, List.map_append,
    List.map_map, List.map_map]
  congr 1
  · exact congrArg (front.map ·) (funext content_settled_feed)
  · cases ended with
    | true => exact congrArg ([·]) (content_settled_feed last)
    | false =>
      have open_ : (⟨last, []⟩ : Line).settled = ⟨last, []⟩ :=
        settled_of_ne (List.cons_ne_nil _ _).symm
      exact congrArg (fun l : Line => [l.content]) open_

/-- Lines that end in carriage returns and line feeds keep what they hold. -/
theorem contents_settled_returned (ended : Bool) (contents : List Text) :
    ((terminateWith [carriageReturn, lineFeed] ended contents).map Line.settled).map Line.content =
      contents := by
  have kept : ∀ l ∈ terminateWith [carriageReturn, lineFeed] ended contents, l.settled = l := by
    intro l within
    refine settled_of_ne ?_
    rcases terminator_of_mem_terminateWith within with returned | none
    · rw [returned]
      decide
    · rw [none]
      decide
  rw [List.map_congr_left kept, List.map_id', map_content_terminateWith]

end Text

/-- The same line with another value in place of the value that it has. -/
def KeyLine.withValue (change : Text → Text) : KeyLine → KeyLine
  | .entry raw key value => .entry raw key (change value)
  | l => l

namespace KeyFile

/-! ## Reading without the carriage return -/

/-- The same row with another value in place of the value that it has. -/
def Row.withValue (change : Text → Text) : Row → Row
  | .line l => .line (l.withValue change)
  | r => r

/-- A row as it is read without the carriage return at the end of its line, if there is one. -/
def Row.stripped (r : Row) : Row :=
  if r.raw.getLast? = some carriageReturn then r.withoutReturn else r

theorem readRow_stripped {b : Bool} {raw : Text} {r : Row} (reads : readRow b raw = .ok r) :
    readRow b (stripReturn raw) = .ok r.stripped := by
  unfold stripReturn Row.stripped
  rw [raw_of_readRow reads]
  split
  next returned =>
    obtain ⟨c, rfl⟩ := List.getLast?_eq_some_iff.mp returned
    rw [List.dropLast_concat]
    exact readRow_withoutReturn reads
  · exact reads

theorem isHeader_stripped (r : Row) : r.stripped.isHeader = r.isHeader := by
  unfold Row.stripped
  split
  · cases r with
    | header raw name => rfl
    | line l => cases l <;> rfl
  · rfl

theorem readRows_stripped {n : Nat} {inGroup : Bool} {raws : List Text} {rs : List Row}
    (reads : readRows n inGroup raws = .ok rs) :
    readRows n inGroup (raws.map stripReturn) = .ok (rs.map Row.stripped) := by
  induction raws generalizing n inGroup rs with
  | nil =>
    rw [← Except.ok.inj reads]
    rfl
  | cons raw rest ih =>
    obtain ⟨r, behind, here, others, rfl⟩ := readRows_cons.mp reads
    refine readRows_cons.mpr ⟨_, _, readRow_stripped here, ?_, rfl⟩
    rw [isHeader_stripped]
    exact ih others

theorem meaning_stripped {b : Bool} {raw : Text} {r : Row} (reads : readRow b raw = .ok r) :
    r.stripped.meaning = (r.withValue stripReturn).meaning := by
  have same := raw_of_readRow reads
  cases r with
  | header own name =>
    unfold Row.stripped
    split <;> rfl
  | line l =>
    cases l with
    | blank own =>
      unfold Row.stripped
      split <;> rfl
    | comment own =>
      unfold Row.stripped
      split <;> rfl
    | entry own key value =>
      obtain rfl : own = raw := same
      unfold Row.stripped
      split
      · rfl
      next other =>
        have kept : value.getLast? ≠ some carriageReturn :=
          fun returned => other (getLast?_of_readRow reads returned)
        rw [Row.withValue, KeyLine.withValue, stripReturn_eq_self kept]

end KeyFile

end FileProfile
