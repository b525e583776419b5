import FileProfile.Proofs.KeyFile.Settled

/-!
Key files that are read again as they are.

The lines of a `Legible` key file are read as its rows, up to the blanks in front of values. Files
that have been read and the file without lines are legible (`legible_of_parse`, `legible_empty`),
and setting a key in any group keeps a file legible (`Legible.set`).

A legible file that is written and read again says the same (`Legible.exists_parse`): its groups and
keys are what they are, and a value loses the blanks in front of it and at most one carriage return
behind it.
-/

namespace FileProfile

namespace KeyFile

open Text (Line WellCut carriageReturn lineFeed terminateWith written)

variable {f : KeyFile} {group key : Text}

/-! ## Rows with other values -/

@[simp] theorem Row.raw_withValue (change : Text → Text) (r : Row) :
    (r.withValue change).raw = r.raw := by
  cases r with
  | header raw name => rfl
  | line l => cases l <;> rfl

@[simp] theorem Row.isHeader_withValue (change : Text → Text) (r : Row) :
    (r.withValue change).isHeader = r.isHeader := by
  cases r with
  | header raw name => rfl
  | line l => cases l <;> rfl

theorem Row.withValue_withValue (first second : Text → Text) (r : Row) :
    (r.withValue first).withValue second = r.withValue (second ∘ first) := by
  cases r with
  | header raw name => rfl
  | line l => cases l <;> rfl

/-- The lines of these rows are read as the rows, up to the blanks in front of values. -/
def ReadsBack (inGroup : Bool) (rs : List Row) : Prop :=
  ∀ n, readRows n inGroup (rs.map Row.raw) = .ok (rs.map (Row.withValue Text.trimStart))

theorem readsBack_append {inGroup : Bool} {front back : List Row} :
    ReadsBack inGroup (front ++ back) ↔
      ReadsBack inGroup front ∧ ReadsBack (inGroup || front.any Row.isHeader) back := by
  have raws : ∀ rs : List Row, (rs.map (Row.withValue Text.trimStart)).map Row.raw =
      rs.map Row.raw := fun rs => by
    rw [List.map_map]
    exact congrArg (rs.map ·) (funext (Row.raw_withValue _))
  have headers : (front.map (Row.withValue Text.trimStart)).any Row.isHeader =
      front.any Row.isHeader := by
    rw [List.any_map]
    exact congrArg front.any (funext (Row.isHeader_withValue _))
  constructor
  · intro whole
    have split : ∀ n, readRows n inGroup (front.map Row.raw) =
          .ok (front.map (Row.withValue Text.trimStart)) ∧
        readRows (n + (front.map (Row.withValue Text.trimStart)).length)
          (inGroup || front.any Row.isHeader) (back.map Row.raw) =
          .ok (back.map (Row.withValue Text.trimStart)) := by
      intro n
      rw [← raws front, ← raws back, ← headers]
      refine readRows_split ?_
      rw [← List.map_append, raws]
      exact whole n
    exact ⟨fun n => (split n).1, fun n => readRows_renumber n (split n).2⟩
  · rintro ⟨first, second⟩ n
    rw [List.map_append, List.map_append, readRows_append]
    refine ⟨_, _, first n, ?_, rfl⟩
    rw [headers]
    exact second _

theorem readsBack_singleton {inGroup : Bool} {r : Row}
    (reads : readRow inGroup r.raw = .ok (r.withValue Text.trimStart)) :
    ReadsBack inGroup [r] :=
  fun _ => readRows_cons.mpr ⟨_, [], reads, rfl, rfl⟩

/-! ## Legible files -/

/-- The line of a row ends in a carriage return. -/
def Row.returned (r : Row) : Bool := r.raw.getLast? = some carriageReturn

/-- A key file whose lines are read as its rows wherever they are cut. -/
structure Legible (f : KeyFile) : Prop where
  reads : ReadsBack false f.rows
  feedless : ∀ r ∈ f.rows, lineFeed ∉ r.raw
  known : f.terminator ∈ terminators
  closed : f.endsTerminated = false → f.rows.map Row.raw = [[]] ∨ ∃ r ∈ f.rows.getLast?, r.raw ≠ []
  returns : f.terminator = [lineFeed] →
    f.rows.countP Row.returned ≤ if f.endsTerminated then 0 else 1

theorem legible_empty : Legible empty where
  reads _ := rfl
  feedless _ within := by cases within
  known := by decide
  closed ended := by cases ended
  returns _ := Nat.zero_le _

/-- No blanks stand in front of a value that has been read. -/
theorem withValue_trimStart_of_readRow {b : Bool} {raw : Text} {r : Row}
    (reads : readRow b raw = .ok r) : r.withValue Text.trimStart = r := by
  have same := raw_of_readRow reads
  cases r with
  | header own name => rfl
  | line l =>
    cases l with
    | blank own => rfl
    | comment own => rfl
    | entry own k value =>
      obtain rfl : own = raw := same
      obtain ⟨-, -, shape⟩ := key_eq_of_readRow reads
      rw [Row.withValue, KeyLine.withValue, Text.trimStart_eq_self]
      rw [shape]
      exact Text.head?_trimStart _

theorem map_withValue_trimStart_of_readRows {n : Nat} {b : Bool} {raws : List Text} {rs : List Row}
    (reads : readRows n b raws = .ok rs) : rs.map (Row.withValue Text.trimStart) = rs := by
  refine (List.map_congr_left fun r within => ?_).trans (List.map_id rs)
  obtain ⟨-, _, own⟩ := exists_readRow_of_mem reads within
  exact withValue_trimStart_of_readRow own

/-- A line of a text whose lines end in line feeds ends in a carriage return only where it is the
last one and not terminated. -/
theorem countP_returned_of_feeds {ls : List Line} (cut : WellCut ls)
    (feeds : ∀ l ∈ ls, l.terminator ≠ [carriageReturn, lineFeed]) :
    (ls.map Line.content).countP (fun c => c.getLast? = some carriageReturn) ≤
      if isTerminated (written ls) then 0 else 1 := by
  induction cut with
  | nil => exact Nat.zero_le _
  | @last content some inside =>
    have whole : written [⟨content, []⟩] = content := by simp [written, Line.whole]
    have open_ : isTerminated content = false :=
      decide_eq_false fun closing => inside (List.mem_of_getLast? closing)
    rw [whole, open_]
    exact List.countP_le_length
  | @feed content ls inside ends others ih =>
    have behind := ih fun l within => feeds l (List.mem_cons_of_mem _ within)
    rw [List.map_cons, List.countP_cons_of_neg (by simpa using ends)]
    cases ls with
    | nil => exact Nat.zero_le _
    | cons l ls =>
      rw [Text.written_cons,
        Text.isTerminated_append _ (others.written_ne_nil (List.cons_ne_nil _ _))]
      exact behind
  | @returned content ls _ _ _ => exact absurd rfl (feeds _ List.mem_cons_self)

section

variable {t : Text} (parses : parse t = .ok f)

include parses

theorem not_mem_raw_of_parse {r : Row} (within : r ∈ f.rows) : lineFeed ∉ r.raw := by
  have raws := map_raw_of_readRows (parse_eq_ok.mp parses).1
  have own : r.raw ∈ f.rows.map Row.raw := List.mem_map_of_mem within
  by_cases blank : t = []
  · rw [raws, blank] at own
    rw [List.mem_singleton.mp own]
    exact List.not_mem_nil
  · rw [raws, Text.fileLines_eq blank] at own
    obtain ⟨l, inside, same⟩ := List.mem_map.mp own
    rw [← same]
    exact ((Text.wellCut_terminatedLines t).not_mem_content inside).1

/-- The last line of a text that is not terminated is not empty, unless the text is. -/
theorem getLast?_raw_of_parse (open_ : f.endsTerminated = false) :
    f.rows.map Row.raw = [[]] ∨ ∃ r ∈ f.rows.getLast?, r.raw ≠ [] := by
  obtain ⟨reads, -, ended⟩ := parse_eq_ok.mp parses
  have raws := map_raw_of_readRows reads
  by_cases blank : t = []
  · rw [raws, blank]
    exact .inl rfl
  · rw [Text.fileLines_eq blank] at raws
    obtain ⟨front, l, shape⟩ : ∃ front l, Text.terminatedLines t = front ++ [l] :=
      ⟨_, _, (List.dropLast_concat_getLast (blank ∘ Text.terminatedLines_eq_nil.mp)).symm⟩
    have last := congrArg List.getLast? raws
    rw [shape, List.map_append, List.map_singleton, List.getLast?_concat, List.getLast?_map] at last
    obtain ⟨r, within, same⟩ := Option.map_eq_some_iff.mp last
    refine .inr ⟨r, within, ?_⟩
    rw [same]
    exact Text.content_ne_nil_of_open (ended.symm.trans open_)
      (by rw [shape, List.getLast?_concat]; rfl)

theorem countP_returned_of_parse (feeds : f.terminator = [lineFeed]) :
    f.rows.countP Row.returned ≤ if f.endsTerminated then 0 else 1 := by
  obtain ⟨reads, term, ended⟩ := parse_eq_ok.mp parses
  have alike : Text.hasCrLf t = false := by
    rw [term, Text.usualTerminator] at feeds
    cases mixed : Text.hasCrLf t with
    | false => rfl
    | true =>
      rw [mixed] at feeds
      exact absurd feeds (by decide)
  have counted : f.rows.countP Row.returned =
      (f.rows.map Row.raw).countP (fun c => c.getLast? = some carriageReturn) := by
    rw [List.countP_map]
    rfl
  rw [counted, map_raw_of_readRows reads, ended]
  by_cases blank : t = []
  · rw [blank]
    decide
  · rw [Text.fileLines_eq blank]
    rw [Text.hasCrLf_eq] at alike
    have bound := countP_returned_of_feeds (Text.wellCut_terminatedLines t) fun l within same =>
      List.any_eq_false.mp alike l within (decide_eq_true same)
    rwa [Text.written_terminatedLines] at bound

theorem legible_of_parse : Legible f := by
  obtain ⟨reads, term, -⟩ := parse_eq_ok.mp parses
  exact {
    reads := fun n => by
      rw [map_raw_of_readRows reads, map_withValue_trimStart_of_readRows reads]
      exact readRows_renumber n reads
    feedless := fun r within => not_mem_raw_of_parse parses within
    known := by
      rw [term]
      exact usualTerminator_mem t
    closed := getLast?_raw_of_parse parses
    returns := countP_returned_of_parse parses }

end

/-! ## Setting a key -/

/-- The last row is that of the new rows, or the one that has been the last. -/
theorem closed_splice {front old mid back : List Row} (last : ∃ r ∈ mid.getLast?, r.raw ≠ [])
    (grouped : back = [] ∨ front.any Row.isHeader = true)
    (closed : (front ++ (old ++ back)).map Row.raw = [[]] ∨
      ∃ r ∈ (front ++ (old ++ back)).getLast?, r.raw ≠ []) :
    ∃ r ∈ (front ++ (mid ++ back)).getLast?, r.raw ≠ [] := by
  have some : mid ≠ [] := by
    rintro rfl
    obtain ⟨r, within, -⟩ := last
    cases within
  rw [← List.append_assoc]
  by_cases none : back = []
  · rw [none, List.append_nil, Text.getLast?_append_of_ne_nil _ some]
    exact last
  · rw [← List.append_assoc, Text.getLast?_append_of_ne_nil _ none] at closed
    rw [Text.getLast?_append_of_ne_nil _ none]
    -- A header in front of the last row leaves no room for a file of one empty line.
    refine closed.resolve_left fun single => ?_
    obtain ⟨r, within, -⟩ := List.any_eq_true.mp (grouped.resolve_left none)
    have lengths := congrArg List.length single
    have front_pos := List.length_pos_of_mem within
    have back_pos := List.length_pos_iff.mpr none
    rw [List.length_map, List.length_append, List.length_append, List.length_singleton] at lengths
    omega

/-- Other rows in place of some keep a file legible, if they are read back themselves, end in no
carriage return, and their last line is not empty. -/
theorem Legible.splice (legible : Legible f) {f' : KeyFile} {front old mid back : List Row}
    (rows : f.rows = front ++ (old ++ back)) (rows' : f'.rows = front ++ (mid ++ back))
    (term : f'.terminator = f.terminator) (ended : f'.endsTerminated = f.endsTerminated)
    (reads : ReadsBack (front.any Row.isHeader) mid)
    (grouped : back = [] ∨ front.any Row.isHeader = true)
    (plain : ∀ r ∈ mid, lineFeed ∉ r.raw ∧ ¬ r.returned)
    (last : ∃ r ∈ mid.getLast?, r.raw ≠ []) : Legible f' := by
  have whole := legible.reads
  rw [rows, readsBack_append, readsBack_append, Bool.false_or] at whole
  exact {
    reads := by
      rw [rows', readsBack_append, readsBack_append, Bool.false_or]
      refine ⟨whole.1, reads, ?_⟩
      rcases grouped with none | header
      · rw [none]
        exact fun _ => rfl
      · have behind := whole.2.2
        rw [header, Bool.true_or] at behind ⊢
        exact behind
    feedless := fun r within => by
      have around : r ∈ front ∨ r ∈ back → lineFeed ∉ r.raw := fun inside => by
        refine legible.feedless r ?_
        rw [rows, List.mem_append, List.mem_append]
        exact inside.imp_right .inr
      rw [rows', List.mem_append, List.mem_append] at within
      rcases within with here | new | later
      · exact around (.inl here)
      · exact (plain r new).1
      · exact around (.inr later)
    known := term ▸ legible.known
    closed := by
      rw [ended, rows']
      exact fun open_ => .inr (closed_splice last grouped (rows ▸ legible.closed open_))
    returns := by
      rw [term, ended]
      intro feeds
      have bound := legible.returns feeds
      have new : mid.countP Row.returned = 0 :=
        List.countP_eq_zero.mpr fun r within => (plain r within).2
      rw [rows, List.countP_append, List.countP_append] at bound
      rw [rows', List.countP_append, List.countP_append, new]
      omega }

theorem not_returned_ofValue (feedless : lineFeed ∉ key) (value : Text) :
    ¬ (Row.line (.ofValue key value)).returned :=
  fun returned => (raw_ofValue feedless value).2 (of_decide_eq_true returned)

theorem readsBack_ofValue (isKey : IsKey key) (value : Text) :
    ReadsBack true [.line (.ofValue key value)] :=
  readsBack_singleton (readRow_ofKey isKey (escape value))

theorem Legible.set_of_hasGroup (legible : Legible f) (grouped : f.hasGroup group = true)
    (isKey : IsKey key) (feedless : lineFeed ∉ key) (value : Text) :
    Legible (f.set group key value) := by
  obtain ⟨p⟩ := exists_place key grouped
  have rows := p.rows_eq
  have rows' := p.rows_set value
  rw [List.append_assoc] at rows
  rw [← List.singleton_append] at rows'
  have headed : p.front.any Row.isHeader = true := by simp [Place.front, Row.isHeader]
  have same := p.set_eq value
  refine legible.splice rows rows' (by rw [same]; rfl) (by rw [same]; rfl) ?_ (.inr headed) ?_ ?_
  · rw [headed]
    exact readsBack_ofValue isKey value
  · intro r within
    rw [List.mem_singleton.mp within]
    exact ⟨(raw_ofValue feedless value).1, not_returned_ofValue feedless value⟩
  · exact ⟨_, rfl, isKey.raw_ne_nil value⟩

/-! ## Adding a group -/

/-- What can be the name of a group. -/
structure IsGroup (name : Text) : Prop where
  nonempty : name ≠ []
  opens : openBracket ∉ name
  closes : closeBracket ∉ name

instance (name : Text) : Decidable (IsGroup name) :=
  decidable_of_iff (name ≠ [] ∧ openBracket ∉ name ∧ closeBracket ∉ name)
    ⟨fun ⟨nonempty, opens, closes⟩ => ⟨nonempty, opens, closes⟩,
      fun isGroup => ⟨isGroup.nonempty, isGroup.opens, isGroup.closes⟩⟩

/-- A name is read where it stands between brackets that are all there are. -/
theorem headerName?_eq_some {trimmed name : Text} : headerName? trimmed = some name ↔
    IsGroup name ∧ trimmed = "[" ++ name ++ "]" := by
  have shape : ("[" ++ name ++ "]" : Text) = openBracket :: (name ++ [closeBracket]) := rfl
  rw [shape]
  unfold headerName?
  constructor
  · intro named
    simp only [Option.ite_none_right_eq_some] at named
    obtain ⟨⟨first, last, nonempty, opens, closes⟩, same⟩ := named
    rw [← Option.some.inj same]
    refine ⟨⟨nonempty, opens, closes⟩, ?_⟩
    cases trimmed with
    | nil => cases first
    | cons u rest =>
      rw [List.tail_cons] at last ⊢
      obtain ⟨front, rfl⟩ := List.getLast?_eq_some_iff.mp last
      rw [Option.some.inj first, List.dropLast_concat]
  · rintro ⟨isGroup, rfl⟩
    simp only [List.tail_cons, List.dropLast_concat, List.getLast?_concat]
    exact if_pos ⟨rfl, trivial, isGroup.nonempty, isGroup.opens, isGroup.closes⟩

theorem readRow_header {name : Text} (isGroup : IsGroup name) (b : Bool) :
    readRow b ("[" ++ name ++ "]") = .ok (.header ("[" ++ name ++ "]") name) := by
  have shape : ("[" ++ name ++ "]" : Text) = openBracket :: (name ++ [closeBracket]) := rfl
  have trimmed : Text.trim (openBracket :: (name ++ [closeBracket])) =
      openBracket :: (name ++ [closeBracket]) := by
    refine Text.trim_eq_self (fun u first => ?_) fun u last => ?_
    · rw [← Option.some.inj first]
      decide
    · rw [← List.cons_append, List.getLast?_concat] at last
      rw [← Option.some.inj last]
      decide
  have named := headerName?_eq_some.mpr ⟨isGroup, shape.symm⟩
  rw [shape]
  unfold readRow
  rw [trimmed]
  simp only
  rw [if_neg (by decide), if_pos trivial, named]

theorem readsBack_rowGap (rs : List Row) (b : Bool) : ReadsBack b (rowGap rs) := by
  unfold rowGap
  split
  · exact fun _ => rfl
  · exact readsBack_singleton rfl

theorem raw_of_mem_rowGap {rs : List Row} {r : Row} (within : r ∈ rowGap rs) : r.raw = [] := by
  unfold rowGap at within
  split at within
  · cases within
  · rw [List.mem_singleton.mp within]
    rfl

theorem Legible.addGroup (legible : Legible f) (isGroup : IsGroup group) (named : lineFeed ∉ group)
    (isKey : IsKey key) (feedless : lineFeed ∉ key) (value : Text) :
    Legible (f.addGroup group key value) := by
  have rows' := rows_addGroup f group key value
  have rows : f.rows = f.rows ++ ([] ++ []) := by simp
  rw [List.append_assoc, ← List.append_nil (rowGap f.rows ++ _)] at rows'
  refine legible.splice rows rows' rfl rfl ?_ (.inl rfl) ?_ ?_
  · rw [readsBack_append]
    refine ⟨readsBack_rowGap f.rows _, ?_⟩
    rw [← List.singleton_append, readsBack_append]
    refine ⟨readsBack_singleton (readRow_header isGroup _), ?_⟩
    rw [show [Row.header ("[" ++ group ++ "]") group].any Row.isHeader = true from rfl,
      Bool.or_true]
    exact readsBack_ofValue isKey value
  · intro r within
    rcases List.mem_append.mp within with separates | later
    · rw [Row.returned, raw_of_mem_rowGap separates]
      exact ⟨List.not_mem_nil, by decide⟩
    rcases List.mem_cons.mp later with header | line
    · rw [header]
      have shape : ("[" ++ group ++ "]" : Text) = openBracket :: (group ++ [closeBracket]) := rfl
      constructor
      · rw [Row.raw, shape, List.mem_cons, List.mem_append, List.mem_singleton]
        rintro (first | inside | last)
        · exact absurd first (by decide)
        · exact named inside
        · exact absurd last (by decide)
      · rw [Row.returned, Row.raw, shape, ← List.cons_append, List.getLast?_concat]
        decide
    · rw [List.mem_singleton.mp line]
      exact ⟨(raw_ofValue feedless value).1, not_returned_ofValue feedless value⟩
  · refine ⟨.line (.ofValue key value), ?_, isKey.raw_ne_nil value⟩
    rw [Text.getLast?_append_of_ne_nil _ (List.cons_ne_nil _ _)]
    rfl

theorem Legible.set (legible : Legible f) (isGroup : IsGroup group) (named : lineFeed ∉ group)
    (isKey : IsKey key) (feedless : lineFeed ∉ key) (value : Text) :
    Legible (f.set group key value) := by
  by_cases grouped : f.hasGroup group = true
  · exact legible.set_of_hasGroup grouped isKey feedless value
  · have added : f.set group key value = f.addGroup group key value := if_neg grouped
    rw [added]
    exact legible.addGroup isGroup named isKey feedless value

/-! ## Reading again -/

/-- The same file with other values. -/
def withValues (change : Text → Text) (f : KeyFile) : KeyFile :=
  { f with
    preamble := f.preamble.map (KeyLine.withValue change)
    groups := f.groups.map fun g => { g with body := g.body.map (KeyLine.withValue change) } }

theorem rows_withValues (change : Text → Text) (f : KeyFile) :
    (f.withValues change).rows = f.rows.map (Row.withValue change) := by
  simp only [rows, withValues, groupRows, List.map_append, List.map_map, List.map_flatMap,
    List.flatMap_map, List.map_cons, Row.withValue]
  rfl

/-- The last line ends in no carriage return, and line feeds alone are written behind the lines. -/
def TakesReturns (f : KeyFile) : Prop :=
  f.terminator = [lineFeed] ∧ ∀ r ∈ f.rows.getLast?, r.returned = false

instance (f : KeyFile) : Decidable f.TakesReturns :=
  inferInstanceAs (Decidable (_ ∧ ∀ r ∈ f.rows.getLast?, r.returned = false))

/-- What is kept of a line, or of a value at its end, when the file is written and read again. -/
def keeps (f : KeyFile) (t : Text) : Text := if f.TakesReturns then stripReturn t else t

/-- What is read of the lines of a file once they are cut. Where the last line ends in a carriage
return, it is the only one, and no terminator stands behind it. -/
theorem Legible.contents_settled (legible : Legible f) (filled : f.rows ≠ []) :
    ((terminateWith f.terminator f.endsTerminated (f.rows.map Row.raw)).map Line.settled).map
      Line.content = (f.rows.map Row.raw).map f.keeps := by
  have known : f.terminator = [lineFeed] ∨ f.terminator = [carriageReturn, lineFeed] := by
    simpa [terminators] using legible.known
  rcases known with feeds | returns
  · obtain ⟨front, r, shape⟩ : ∃ front r, f.rows = front ++ [r] :=
      ⟨_, _, (List.dropLast_concat_getLast filled).symm⟩
    have last : f.rows.getLast? = some r := by rw [shape, List.getLast?_concat]
    have bound := legible.returns feeds
    rw [shape, List.countP_append, List.countP_singleton] at bound
    rw [feeds, shape, List.map_append, List.map_singleton, Text.contents_settled_feed,
      List.map_append, List.map_singleton]
    -- The bound leaves room for one carriage return: that of the last line, or none at all.
    by_cases returned : r.returned = true
    · have apart : ¬ f.TakesReturns := fun takes =>
        absurd returned (Bool.eq_false_iff.mp (takes.2 r last))
      have kept : f.keeps = id := funext fun t => if_neg apart
      rw [if_pos returned] at bound
      have open_ : f.endsTerminated = false := by
        cases ended : f.endsTerminated with
        | false => rfl
        | true =>
          rw [ended, if_pos rfl] at bound
          omega
      have none : front.countP Row.returned = 0 := by
        rw [open_, if_neg Bool.false_ne_true] at bound
        omega
      have others : ∀ c ∈ front.map Row.raw, stripReturn c = c := by
        intro c within
        obtain ⟨k, inside, rfl⟩ := List.mem_map.mp within
        have plain := List.countP_eq_zero.mp none k inside
        exact stripReturn_eq_self (by simpa [Row.returned] using plain)
      rw [kept, open_, if_neg Bool.false_ne_true, List.map_id, List.map_congr_left others,
        List.map_id']
      rfl
    · have other : r.raw.getLast? ≠ some carriageReturn := by
        simpa [Row.returned] using returned
      have takes : f.TakesReturns := by
        refine ⟨feeds, fun k final => ?_⟩
        rw [last] at final
        rw [← Option.some.inj final]
        exact Bool.eq_false_iff.mpr returned
      have kept : f.keeps = stripReturn := funext fun t => if_pos takes
      rw [kept, stripReturn_eq_self other, ite_self]
  · have apart : ¬ f.TakesReturns := fun takes =>
      absurd (returns.symm.trans takes.1) (by decide)
    have kept : f.keeps = id := funext fun t => if_neg apart
    rw [returns, Text.contents_settled_returned, kept, List.map_id]

theorem Legible.fileLines_text (legible : Legible f) (filled : f.rows ≠ []) :
    fileLines f.text = (f.rows.map Row.raw).map f.keeps := by
  have same : f.text = written ((terminateWith f.terminator f.endsTerminated
      (f.rows.map Row.raw)).map Line.settled) := by
    rw [text_eq, rawLines_eq, Text.written_settled]
  by_cases blank : f.endsTerminated = false ∧ f.rows.map Row.raw = [[]]
  · rw [same, blank.1, blank.2]
    unfold keeps
    split <;> rfl
  · have cut : WellCut ((terminateWith f.terminator f.endsTerminated
        (f.rows.map Row.raw)).map Line.settled) := by
      refine Text.wellCut_settled legible.known (fun c within => ?_) fun open_ c last => ?_
      · obtain ⟨r, inside, rfl⟩ := List.mem_map.mp within
        exact legible.feedless r inside
      · obtain ⟨r, final, visible⟩ := (legible.closed open_).resolve_left fun none =>
          blank ⟨open_, none⟩
        rw [List.getLast?_map, Option.mem_def.mp final] at last
        rw [← Option.some.inj last]
        exact visible
    have lines : (terminateWith f.terminator f.endsTerminated (f.rows.map Row.raw)).map
        Line.settled ≠ [] := by
      intro none
      have contents := legible.contents_settled filled
      rw [none, List.map_nil, eq_comm, List.map_eq_nil_iff, List.map_eq_nil_iff] at contents
      exact filled contents
    rw [same, fileLines_written cut lines, legible.contents_settled filled]

/-- A file without headers says nothing. -/
theorem content_eq_nil (bare : ∀ r ∈ f.rows, r.isHeader = false) : f.content = [] := by
  unfold content
  rw [List.map_eq_nil_iff, List.eq_nil_iff_forall_not_mem]
  intro g within
  exact absurd (bare _ (header_mem_rows within)) (by simp [Row.isHeader])

/-- A legible file that is written can be read again, and then says the same, but for what its
values lose. -/
theorem Legible.exists_parse (legible : Legible f) : ∃ g, parse f.text = .ok g ∧
    g.content = (f.withValues (f.keeps ∘ Text.trimStart)).content := by
  by_cases none : f.rows = []
  · have blank : f.text = [] := by
      rw [text_eq, rawLines_eq, none]
      rfl
    have reads : readRows 1 false (fileLines f.text) = .ok [.line (.blank [])] := by
      rw [blank]
      rfl
    obtain ⟨g, parses, rows⟩ := KeyFile.exists_parse reads
    refine ⟨g, parses, ?_⟩
    rw [content_eq_nil (f := g) (by simp [rows, Row.isHeader]),
      content_eq_nil (by simp [rows_withValues, none])]
  · have reads : readRows 1 false (fileLines f.text) = .ok (if f.TakesReturns then
        (f.rows.map (Row.withValue Text.trimStart)).map Row.stripped
        else f.rows.map (Row.withValue Text.trimStart)) := by
      rw [legible.fileLines_text none]
      have whole := legible.reads 1
      unfold keeps
      split
      · exact readRows_stripped whole
      · rw [List.map_id']
        exact whole
    obtain ⟨g, parses, rows⟩ := KeyFile.exists_parse reads
    refine ⟨g, parses, content_of_meanings ?_⟩
    rw [rows, rows_withValues]
    unfold keeps
    split
    · rw [List.map_map, List.map_map, List.map_map]
      refine List.map_congr_left fun r within => ?_
      obtain ⟨-, _, own⟩ := exists_readRow_of_mem (legible.reads 1) (List.mem_map_of_mem within)
      exact (meaning_stripped own).trans (congrArg Row.meaning (Row.withValue_withValue _ _ r))
    · rfl

end KeyFile

end FileProfile
