import FileProfile.Proofs.KeyFile.Reread

/-!
What a key file says after a key has been set and the file has been written and read again.
-/

namespace FileProfile

namespace KeyFile

open Text (Line Paired WellCut carriageReturn lineFeed terminateWith terminatedLines written)

variable {f : KeyFile} {group key : Text}

/-- The line of the key is put behind a last line that no terminator ends, in a file whose lines end
in line feeds alone. -/
structure Place.EndsFile (p : f.Place group key) : Prop where
  vacant : p.old = none
  last : p.back = []
  feeds : f.terminator = [lineFeed]
  unended : f.endsTerminated = false

/-- The line feed that is written in front of the line of the key ends, together with a carriage
return there, the entry whose value `value` and that carriage return have been. -/
structure Place.Strips (p : f.Place group key) (k value : Text) : Prop extends p.EndsFile where
  entry : ∃ raw, p.before.getLast? = some (.entry raw k (value ++ [carriageReturn]))

/-! ## How the changed file is cut -/

section

variable {t : Text} (parses : parse t = .ok f) (grouped : f.hasGroup group = true)
  (p : f.Place group key) {line : Text}

include parses grouped

/-- Lines that end in line feeds alone are those that the file was read from. -/
theorem wellCut_of_feeds (feeds : ¬ Text.hasCrLf t) : WellCut (terminateWith [lineFeed]
    (isTerminated t) (p.front.map Row.raw ++ ((p.old.map KeyLine.raw).toList ++
      p.back.map Row.raw))) := by
  have alike : ¬ (Text.hasCrLf t ∧ Text.hasLoneFeed false t) := fun both => feeds both.1
  have cut := Text.wellCut_terminatedLines t
  rw [Text.terminatedLines_eq_terminateWith alike, contents_eq parses grouped p,
    Text.usualTerminator, if_neg feeds, List.append_assoc] at cut
  exact cut

theorem wellCut_set_returned (returned : Text.hasCrLf t) (nonempty : line ≠ [])
    (inside : ∀ c ∈ p.front.map Row.raw ++ line :: p.back.map Row.raw, lineFeed ∉ c) :
    WellCut (terminateWith (Text.usualTerminator t) (isTerminated t)
      (p.front.map Row.raw ++ line :: p.back.map Row.raw)) := by
  rw [Text.usualTerminator, if_pos returned]
  refine Text.wellCut_returned inside fun open_ c last => ?_
  cases back : p.back with
  | nil =>
    rw [back, List.map_nil, List.getLast?_concat] at last
    rw [← Option.some.inj last]
    exact nonempty
  | cons r back' =>
    have contents := contents_eq parses grouped p
    rw [back] at contents last
    have final : ((terminatedLines t).map Line.content).getLast? = some c := by
      rw [contents, Text.getLast?_append_of_ne_nil _ (by simp)]
      rw [Text.getLast?_append_of_ne_nil _ (List.cons_ne_nil _ _), List.map_cons,
        List.getLast?_cons_cons] at last
      exact last
    rw [List.getLast?_map] at final
    obtain ⟨l, end_, rfl⟩ := Option.map_eq_some_iff.mp final
    exact Text.content_ne_nil_of_open open_ end_

theorem wellCut_set_feeds (feeds : ¬ Text.hasCrLf t) (nonempty : line ≠ [])
    (inside : lineFeed ∉ line) (ends : line.getLast? ≠ some carriageReturn)
    (apart : p.EndsFile → ∀ r ∈ p.front.getLast?, r.raw.getLast? ≠ some carriageReturn) :
    WellCut (terminateWith (Text.usualTerminator t) (isTerminated t)
      (p.front.map Row.raw ++ line :: p.back.map Row.raw)) := by
  have cut := wellCut_of_feeds parses grouped p feeds
  have known : [lineFeed] = [lineFeed] ∨ [lineFeed] = [carriageReturn, lineFeed] := .inl rfl
  rw [Text.usualTerminator, if_neg feeds, Text.terminateWith_append _ (List.cons_ne_nil _ _),
    Text.wellCut_map_append known]
  cases old : p.old with
  -- The line takes the place of another one and keeps its terminator.
  | some l =>
    obtain ⟨terminator, shape⟩ := Text.exists_terminateWith_cons [lineFeed] (isTerminated t)
      (p.back.map Row.raw)
    rw [old, Option.map_some, Option.toList_some, List.singleton_append,
      Text.terminateWith_append _ (List.cons_ne_nil _ _), Text.wellCut_map_append known, shape]
      at cut
    rw [shape]
    exact ⟨cut.1, cut.2.replace nonempty inside ends⟩
  | none =>
    rw [old, Option.map_none, Option.toList_none, List.nil_append] at cut
    cases back : p.back.map Row.raw with
    -- Another line stands behind the new one.
    | cons c back' =>
      rw [back, Text.terminateWith_append _ (List.cons_ne_nil _ _), Text.wellCut_map_append known]
        at cut
      rw [Text.terminateWith_cons line (List.cons_ne_nil _ _)]
      exact ⟨cut.1, .feed inside ends cut.2⟩
    | nil =>
      rw [back, List.append_nil] at cut
      cases ended : isTerminated t with
      | true =>
        rw [ended, Text.terminateWith_ended, ← List.append_nil (List.map _ _),
          Text.wellCut_map_append known] at cut
        exact ⟨cut.1, .feed inside ends .nil⟩
      -- The last line had no end and gets one: only here is the line in front changed.
      | false =>
        obtain ⟨term, feeding⟩ := (parse_eq_ok.mp parses).2
        rw [Text.usualTerminator, if_neg feeds] at term
        have ends_file : p.EndsFile :=
          ⟨old, List.map_eq_nil_iff.mp back, term, feeding.trans ended⟩
        have some : p.front ≠ [] := by simp [Place.front]
        obtain ⟨others, r, front⟩ : ∃ others r, p.front = others ++ [r] :=
          ⟨p.front.dropLast, p.front.getLast some, (List.dropLast_concat_getLast some).symm⟩
        have final := apart ends_file r (by rw [front, List.getLast?_concat]; rfl)
        rw [ended, front, List.map_append, List.map_singleton,
          Text.terminateWith_append _ (List.cons_ne_nil _ _), Text.wellCut_map_append known] at cut
        rw [front, List.map_append, List.map_singleton]
        refine ⟨fun c within => ?_, .last nonempty inside⟩
        rcases List.mem_append.mp within with here | later
        · exact cut.1 c here
        · rw [List.mem_singleton.mp later]
          exact ⟨(cut.2.not_mem_content List.mem_cons_self).1, fun _ => final⟩

end

/-! ## How the changed file is read -/

/-- The entry that is read from the line of a set key: the blanks in front of the value are gone. -/
def reread (key value : Text) : KeyLine :=
  .entry (KeyLine.ofValue key value).raw key (Text.trimStart (escape value))

theorem readRow_reread (isKey : IsKey key) (value : Text) :
    readRow true (KeyLine.ofValue key value).raw = .ok (.line (reread key value)) :=
  readRow_ofKey isKey (escape value)

theorem any_isHeader_front (p : f.Place group key) : p.front.any Row.isHeader = true := by
  simp [Place.front, Row.isHeader]

section

variable {t : Text} (parses : parse t = .ok f) (grouped : f.hasGroup group = true)
  (p : f.Place group key)

include parses

/-- The rows around the place are read as they have been, whatever stands at the place. -/
theorem reads_around : readRows 1 false (p.front.map Row.raw) = .ok p.front ∧
    ∀ n, readRows n true (p.back.map Row.raw) = .ok p.back := by
  have reads := (parse_eq_ok.mp parses).1
  rw [← rawLines_of_parse parses, rawLines_eq, p.rows_eq, List.append_assoc] at reads
  obtain ⟨front, behind⟩ := readRows_split reads
  rw [any_isHeader_front, Bool.false_or] at behind
  have back := (readRows_split behind).2
  rw [Bool.true_or] at back
  exact ⟨front, fun n => readRows_renumber n back⟩

theorem reads_set (isKey : IsKey key) (value : Text) :
    readRows 1 false (p.front.map Row.raw ++ (KeyLine.ofValue key value).raw ::
      p.back.map Row.raw) = .ok (p.front ++ .line (reread key value) :: p.back) := by
  obtain ⟨front, back⟩ := reads_around parses p
  refine readRows_append.mpr ⟨_, _, front, ?_, rfl⟩
  rw [any_isHeader_front, Bool.or_true]
  refine readRows_cons.mpr ⟨_, _, readRow_reread isKey value, ?_, rfl⟩
  exact back _

/-- Where the line of the key takes a carriage return off the line in front of it, that line is read
without it. -/
theorem reads_set_joined (isKey : IsKey key) (value : Text) {others : List Row} {r : Row} {c : Text}
    (front : p.front = others ++ [r]) (returned : r.raw = c ++ [carriageReturn]) :
    readRows 1 false (others.map Row.raw ++ [c, (KeyLine.ofValue key value).raw]) =
      .ok (others ++ [r.withoutReturn, .line (reread key value)]) := by
  have reads := (reads_around parses p).1
  rw [front] at reads
  obtain ⟨before, single⟩ := readRows_split reads
  obtain ⟨r', behind, here, -, same⟩ := readRows_cons.mp single
  obtain ⟨rfl, -⟩ := List.cons.inj same
  rw [returned] at here
  have header : (false || others.any Row.isHeader || r.withoutReturn.isHeader) = true := by
    have any := any_isHeader_front p
    have kept : r.withoutReturn.isHeader = r.isHeader := by
      rcases r with - | (- | - | -) <;> rfl
    rw [front, List.any_append, List.any_cons, List.any_nil, Bool.or_false] at any
    rw [kept, Bool.false_or, any]
  refine readRows_append.mpr ⟨_, _, before, ?_, rfl⟩
  refine readRows_cons.mpr ⟨_, _, readRow_withoutReturn here, ?_, rfl⟩
  rw [header]
  exact readRows_cons.mpr ⟨_, [], readRow_reread isKey value, rfl, rfl⟩

include grouped

/-- The changed file is cut at the end of its last line where that ends in a carriage return. -/
theorem wellCut_set_joined {line : Text} (nonempty : line ≠ []) (inside : lineFeed ∉ line)
    {others : List Row} {r : Row} {c : Text} (front : p.front = others ++ [r])
    (returned : r.raw = c ++ [carriageReturn]) (ends : p.EndsFile) :
    WellCut ((others.map Row.raw).map (fun content => ⟨content, [lineFeed]⟩) ++
      [⟨c, [carriageReturn, lineFeed]⟩, ⟨line, []⟩]) := by
  obtain ⟨-, term, ended⟩ := parse_eq_ok.mp parses
  have known : [lineFeed] = [lineFeed] ∨ [lineFeed] = [carriageReturn, lineFeed] := .inl rfl
  have feeds : ¬ Text.hasCrLf t := by
    intro mixed
    rw [ends.feeds, Text.usualTerminator, if_pos mixed] at term
    exact absurd term (by decide)
  have cut := wellCut_of_feeds parses grouped p feeds
  rw [ends.vacant, ends.last, Option.map_none, Option.toList_none, List.map_nil, List.append_nil,
    List.append_nil, ← ended, ends.unended, front, List.map_append, List.map_singleton,
    Text.terminateWith_append _ (List.cons_ne_nil _ _), Text.wellCut_map_append known] at cut
  have last := (cut.2.not_mem_content List.mem_cons_self).1
  rw [Text.wellCut_map_append known]
  refine ⟨cut.1, .returned (fun within => last ?_) (.last nonempty inside)⟩
  rw [returned]
  exact List.mem_append_left _ within

/-- Reading a file again where the line feed in front of the key's line ends, with a carriage return
there, the last line of the file before. -/
theorem parse_set_joined (isKey : IsKey key) {value : Text} (feedless : lineFeed ∉ key)
    (closes : p.EndsFile) {others : List Row} {r : Row} {c : Text}
    (front : p.front = others ++ [r]) (returned : r.raw = c ++ [carriageReturn]) :
    ∃ g, parse (f.set group key value).text = .ok g ∧
      g.rows = others ++ [r.withoutReturn, .line (reread key value)] := by
  obtain ⟨-, term, ended⟩ := parse_eq_ok.mp parses
  have cut := wellCut_set_joined parses grouped p (isKey.raw_ne_nil value)
    (raw_ofValue feedless value).1 front returned closes
  have same : (f.set group key value).text = written
      ((others.map Row.raw).map (fun content => ⟨content, [lineFeed]⟩) ++
        [⟨c, [carriageReturn, lineFeed]⟩, ⟨(KeyLine.ofValue key value).raw, []⟩]) := by
    rw [text_set parses p value, ← term, closes.feeds, ← ended, closes.unended, closes.last, front,
      List.map_nil, Text.terminateWith_append _ (List.cons_ne_nil _ _), List.map_append,
      List.map_append, List.map_singleton, List.map_singleton, returned, Text.written_append,
      Text.written_append, Text.written_append]
    simp [written, Line.whole, terminateWith]
  have contents : ((others.map Row.raw).map fun content => (⟨content, [lineFeed]⟩ : Line)).map
      Line.content = others.map Row.raw := by
    rw [List.map_map]
    exact List.map_id _
  refine exists_parse ?_
  rw [same, fileLines_written cut (by simp), List.map_append, contents]
  exact reads_set_joined parses p isKey value front returned

/-- Reading a file again where the lines in front of the key's line keep their ends. -/
theorem parse_set_apart (paired : Paired t) (isKey : IsKey key) {value : Text}
    (line : Paired (KeyLine.ofValue key value).raw) (feedless : lineFeed ∉ key)
    (apart : p.EndsFile → ∀ r ∈ p.front.getLast?, r.raw.getLast? ≠ some carriageReturn) :
    ∃ g, parse (f.set group key value).text = .ok g ∧
      g.rows = p.front ++ .line (reread key value) :: p.back := by
  obtain ⟨inside, ends⟩ := raw_ofValue feedless value
  have cut : WellCut (terminateWith (Text.usualTerminator t) (isTerminated t)
      (p.front.map Row.raw ++ (KeyLine.ofValue key value).raw :: p.back.map Row.raw)) := by
    by_cases returned : Text.hasCrLf t
    · exact wellCut_set_returned parses grouped p returned (isKey.raw_ne_nil value)
        fun c within => (content_set parses grouped paired p ⟨line, inside⟩ within).2
    · exact wellCut_set_feeds parses grouped p returned (isKey.raw_ne_nil value) inside ends apart
  have some : terminateWith (Text.usualTerminator t) (isTerminated t)
      (p.front.map Row.raw ++ (KeyLine.ofValue key value).raw :: p.back.map Row.raw) ≠ [] := by
    intro none
    have contents := congrArg (List.map Line.content) none
    rw [Text.map_content_terminateWith] at contents
    simp at contents
  refine exists_parse ?_
  rw [text_set parses p value, fileLines_written cut some, Text.map_content_terminateWith]
  exact reads_set parses p isKey value

end

/-! ## What the changed file says -/

/-- The last line in front of a vacant place is an entry for another key. -/
theorem before_of_vacant (p : f.Place group key) (vacant : p.old = none) :
    (∀ l ∈ p.before, ¬ l.isFor key) ∧ ∀ l ∈ p.before.getLast?, l.isEntry := by
  have sets := p.sets
  rw [vacant] at sets
  generalize p.own.body = body at sets
  generalize p.before = before at sets
  generalize p.after = after at sets
  cases sets with
  | behind none own others =>
    refine ⟨fun l within => none l ?_, fun l last => ?_⟩
    · rcases List.mem_append.mp within with here | later
      · exact List.mem_append_left _ here
      · exact List.mem_append_right _ (List.mem_singleton.mp later ▸ List.mem_cons_self)
    · rw [List.getLast?_concat] at last
      rw [← Option.some.inj last]
      exact own
  | first none =>
    exact ⟨fun l within => absurd within List.not_mem_nil, fun l last => by cases last⟩

theorem Place.EndsFile.nothing_behind {p : f.Place group key} (ends : p.EndsFile) :
    p.after = [] ∧ p.rest = [] := by
  obtain ⟨after, rest⟩ := List.append_eq_nil_iff.mp ends.last
  refine ⟨List.map_eq_nil_iff.mp after, ?_⟩
  cases others : p.rest with
  | nil => rfl
  | cons g more =>
    rw [others] at rest
    cases rest

theorem Place.EndsFile.body_eq {p : f.Place group key} (ends : p.EndsFile) :
    p.own.body = p.before := by
  rw [p.sets.body_eq, ends.vacant, ends.nothing_behind.1]
  simp

/-- The rows of a file that ends with the lines at the place. -/
theorem Place.EndsFile.rows_fileWith {p : f.Place group key} (ends : p.EndsFile)
    (body : List KeyLine) : (p.fileWith body).rows = f.preamble.map .line ++
      p.others.flatMap groupRows ++ .header p.own.header p.own.name :: body.map .line := by
  simp [rows, Place.fileWith, groupRows, ends.nothing_behind.2]

/-- What the values of a file are once a key has been set in it: the key has its value, and an entry
that is stripped loses the carriage return at the end of its value. -/
structure Resets (p : f.Place group key) (value : Text) (g : KeyFile) : Prop where
  own : g.get? group key = some (unescape (Text.trimStart (escape value)))
  stripped : ∀ k w, p.Strips k w → k ≠ key ∧
    f.get? group k = some (unescape w ++ [carriageReturn]) ∧ g.get? group k = some (unescape w)
  others : ∀ k, k ≠ key → (∀ w, ¬ p.Strips k w) → g.get? group k = f.get? group k

theorem not_isFor_reread {k : Text} (apart : k ≠ key) (value : Text) :
    ¬ (reread key value).isFor k := by
  intro own
  obtain ⟨_, _, same⟩ := KeyLine.isFor_iff.mp own
  cases same
  exact apart rfl

/-- Nothing is lost where no entry is stripped. -/
theorem resets_of_content {p : f.Place group key} {value : Text} {g : KeyFile}
    (same : g.content = (p.fileWith (p.before ++ reread key value :: p.after)).content)
    (kept : ∀ k w, ¬ p.Strips k w) : Resets p value g where
  own := by
    rw [get?_congr same]
    exact get?_fileWith_own p _ _ _
  stripped k w strips := absurd strips (kept k w)
  others k apart _ := by
    rw [get?_congr same, get?_fileWith_other p (not_isFor_reread apart value) apart]

/-- One value is lost in part where the last line in front of the place is stripped. -/
theorem resets_of_strips {p : f.Place group key} {value : Text} {g : KeyFile} {b : List KeyLine}
    {raw raw' k w : Text} (strips : p.Strips k w)
    (before : p.before = b ++ [.entry raw k (w ++ [carriageReturn])])
    (same : g.content = (p.fileWith (b ++ [.entry raw' k w, reread key value])).content) :
    Resets p value g := by
  have old : ∀ k', f.get? group k' =
      (((KeyLine.entry raw k (w ++ [carriageReturn])).valueFor? k').or (lastOf k' b)).map
        unescape := by
    intro k'
    rw [get?_place p, strips.body_eq, before, lastOf_append, lastOf_cons]
    rfl
  have new : ∀ k', g.get? group k' =
      ((((reread key value).valueFor? k').or ((KeyLine.entry raw' k w).valueFor? k')).or
        (lastOf k' b)).map unescape := by
    intro k'
    rw [get?_congr same, get?_fileWith, lastOf_append, lastOf_cons, lastOf_cons]
    rfl
  have skips : ∀ {k'}, k' ≠ key → (reread key value).valueFor? k' = none :=
    fun apart => KeyLine.valueFor?_eq_none (not_isFor_reread apart value)
  have apart : k ≠ key := by
    rintro rfl
    refine (before_of_vacant p strips.vacant).1 (.entry raw k (w ++ [carriageReturn])) ?_
      (KeyLine.isFor_iff.mpr ⟨_, _, rfl⟩)
    rw [before]
    exact List.mem_append_right _ List.mem_cons_self
  exact {
    own := by
      rw [new, reread, KeyLine.valueFor?, if_pos rfl]
      rfl
    stripped := by
      intro k' w' strips'
      obtain ⟨_, entry⟩ := strips'.entry
      rw [before, List.getLast?_concat] at entry
      obtain ⟨-, rfl, values⟩ := KeyLine.entry.inj (Option.some.inj entry)
      obtain rfl := List.append_cancel_right values
      refine ⟨apart, ?_, ?_⟩
      · rw [old, KeyLine.valueFor?, if_pos rfl, Option.some_or, Option.map_some,
          unescape_append_return]
      · rw [new, skips apart, Option.none_or, KeyLine.valueFor?, if_pos rfl]
        rfl
    others := by
      intro k' other kept
      have different : k ≠ k' := by
        rintro rfl
        exact kept w strips
      rw [old, new, skips other, Option.none_or, KeyLine.valueFor?, KeyLine.valueFor?,
        if_neg different, if_neg different] }

/-- Where the line in front of the place loses its end, it is the only one that is read
differently. -/
theorem resets_of_joined {p : f.Place group key} {value : Text} {g : KeyFile} (ends : p.EndsFile)
    {others : List Row} {r : Row} (front : p.front = others ++ [r])
    (rows : g.rows = others ++ [r.withoutReturn, .line (reread key value)]) :
    Resets p value g := by
  -- The line that loses its end is the header of the group or the last line in front of the place.
  rcases List.eq_nil_or_concat p.before with none | ⟨b, l, before⟩
  · have shape : f.preamble.map .line ++ p.others.flatMap groupRows ++
        [.header p.own.header p.own.name] = others ++ [r] := by
      rw [← front, Place.front, none]
      rfl
    obtain ⟨rfl, own⟩ := List.append_inj' shape rfl
    obtain rfl := List.singleton_inj.mp own
    refine resets_of_content (content_of_meanings ?_) fun k w strips => ?_
    · rw [rows, ends.rows_fileWith, none, ends.nothing_behind.1]
      simp [Row.withoutReturn, Row.meaning]
    · obtain ⟨raw, entry⟩ := strips.entry
      rw [none] at entry
      cases entry
  · rw [List.concat_eq_append] at before
    have shape : (f.preamble.map .line ++ p.others.flatMap groupRows ++
        .header p.own.header p.own.name :: b.map .line) ++ [.line l] = others ++ [r] := by
      rw [← front, Place.front, before, List.map_append, ← List.cons_append, ← List.append_assoc]
      rfl
    obtain ⟨rfl, own⟩ := List.append_inj' shape rfl
    obtain rfl := List.singleton_inj.mp own
    have isEntry := (before_of_vacant p ends.vacant).2 l (by rw [before, List.getLast?_concat]; rfl)
    cases l with
    | blank raw => cases isEntry
    | comment raw => cases isEntry
    | entry raw k v =>
      by_cases returned : v.getLast? = some carriageReturn
      · obtain ⟨w, rfl⟩ := List.getLast?_eq_some_iff.mp returned
        have strips : p.Strips k w := ⟨ends, raw, by rw [before, List.getLast?_concat]⟩
        have same : g.content =
            (p.fileWith (b ++ [.entry raw.dropLast k w, reread key value])).content := by
          refine content_of_meanings ?_
          rw [rows, ends.rows_fileWith, Row.withoutReturn, stripReturn, if_pos returned,
            List.dropLast_concat]
          simp
        exact resets_of_strips strips before same
      · refine resets_of_content (content_of_meanings ?_) fun k' w strips => ?_
        · rw [rows, ends.rows_fileWith, before, ends.nothing_behind.1, Row.withoutReturn,
            stripReturn_eq_self returned]
          simp [Row.meaning, KeyLine.pair?]
        · obtain ⟨raw', entry⟩ := strips.entry
          rw [before, List.getLast?_concat] at entry
          obtain ⟨-, -, values⟩ := KeyLine.entry.inj (Option.some.inj entry)
          rw [values] at returned
          exact returned List.getLast?_concat

section

variable {t : Text} (parses : parse t = .ok f) (p : f.Place group key) {value : Text} {g : KeyFile}

include parses

/-- Where the line in front of the place keeps its end, no entry is stripped. -/
theorem resets_of_apart
    (apart : p.EndsFile → ∀ r ∈ p.front.getLast?, r.raw.getLast? ≠ some carriageReturn)
    (rows : g.rows = p.front ++ .line (reread key value) :: p.back) : Resets p value g := by
  refine resets_of_content (content_of_meanings ?_) fun k w strips => ?_
  · have whole := p.rows_fileWith [reread key value]
    rw [List.append_assoc, List.append_assoc] at whole
    rw [rows]
    exact congrArg (List.map Row.meaning) whole.symm
  · obtain ⟨raw, entry⟩ := strips.entry
    obtain ⟨b, before⟩ := List.getLast?_eq_some_iff.mp entry
    have last : p.front.getLast? = some (.line (.entry raw k (w ++ [carriageReturn]))) := by
      rw [Place.front, before, List.map_append, ← List.cons_append, ← List.append_assoc]
      exact List.getLast?_concat
    have within : .line (.entry raw k (w ++ [carriageReturn])) ∈ f.rows := by
      rw [p.rows_eq, List.append_assoc]
      exact List.mem_append_left _ (List.mem_of_getLast? last)
    obtain ⟨-, b', reads⟩ := exists_readRow_of_mem (parse_eq_ok.mp parses).1 within
    exact apart strips.toEndsFile _ last (getLast?_of_readRow reads List.getLast?_concat)

end

/-- A file in which a key has been set can be read again. -/
theorem exists_resets {t : Text} (paired : Paired t) (parses : parse t = .ok f)
    (grouped : f.hasGroup group = true) (p : f.Place group key) (isKey : IsKey key) {value : Text}
    (line : Paired (KeyLine.ofValue key value).raw) (feedless : lineFeed ∉ key) :
    ∃ g, parse (f.set group key value).text = .ok g ∧ Resets p value g := by
  by_cases joined : p.EndsFile ∧ ∃ r ∈ p.front.getLast?, r.raw.getLast? = some carriageReturn
  · obtain ⟨ends, r, last, returned⟩ := joined
    obtain ⟨others, front⟩ := List.getLast?_eq_some_iff.mp last
    obtain ⟨c, returned⟩ := List.getLast?_eq_some_iff.mp returned
    obtain ⟨g, again, rows⟩ :=
      parse_set_joined parses grouped p isKey feedless ends front returned
    exact ⟨g, again, resets_of_joined ends front rows⟩
  · have apart : p.EndsFile → ∀ r ∈ p.front.getLast?, r.raw.getLast? ≠ some carriageReturn :=
      fun ends r last returned => joined ⟨ends, r, last, returned⟩
    obtain ⟨g, again, rows⟩ := parse_set_apart parses grouped p paired isKey line feedless apart
    exact ⟨g, again, resets_of_apart parses p apart rows⟩

end KeyFile

end FileProfile
