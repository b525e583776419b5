import FileProfile.Proofs.KeyFile.Legible

/-!
The line that is edited when a key is set.

`SetsLine` tells from the lines of a text alone what they become when a key is set: one line is
replaced, or inserted into the first group of the name, or a group is appended. It leaves no choice
(`SetsLine.unique`), and setting a key in a key file that has been read is this edit of its lines
(`setsLine_iff_of_parse`).
-/

namespace FileProfile

namespace KeyFile

open Text (hasCrLf lineFeed terminateWith usualTerminator written)

/-- A line that begins a group. -/
def IsHeader (name raw : Text) : Prop := readRow true raw = .ok (.header raw name)

/-- A line that holds an entry. -/
def IsEntry (key raw : Text) : Prop :=
  ∃ value, readRow true raw = .ok (.line (.entry raw key value))

/-- The first group of a name among lines: its header, its own lines, and those around them. -/
structure FirstGroup (group : Text) (lines before : List Text) (header : Text)
    (own rest : List Text) : Prop where
  whole : lines = before ++ header :: (own ++ rest)
  first : ∀ l ∈ before, ¬ IsHeader group l
  named : IsHeader group header
  inner : ∀ l ∈ own, ¬ ∃ name, IsHeader name l
  ends : ∀ l ∈ rest.head?, ∃ name, IsHeader name l

/-- The empty line in front of a group that is appended, unless the last line is blank. -/
def gap (lines : List Text) : List Text :=
  if ∀ l ∈ lines.getLast?, Text.trim l = [] then [] else [[]]

/-- What lines become when `line` is set for a key of a group. -/
inductive SetsLine (group key line : Text) (lines : List Text) : List Text → Prop where
  /-- The last entry for the key in the first group of the name is replaced. -/
  | replaced {before front back rest : List Text} {header old : Text} :
      FirstGroup group lines before header (front ++ old :: back) rest → IsEntry key old →
      (∀ l ∈ back, ¬ IsEntry key l) →
      SetsLine group key line lines (before ++ header :: (front ++ line :: (back ++ rest)))
  /-- Where the group has none, the line is inserted behind its last entry, or behind its header. -/
  | inserted {before front back rest : List Text} {header : Text} :
      FirstGroup group lines before header (front ++ back) rest →
      (∀ l ∈ front ++ back, ¬ IsEntry key l) → (∀ l ∈ front.getLast?, ∃ k, IsEntry k l) →
      (∀ l ∈ back, ¬ ∃ k, IsEntry k l) →
      SetsLine group key line lines (before ++ header :: (front ++ line :: (back ++ rest)))
  /-- Where there is no such group, one is appended. -/
  | appended : (∀ l ∈ lines, ¬ IsHeader group l) →
      SetsLine group key line lines (lines ++ gap lines ++ ["[" ++ group ++ "]", line])

/-! ## One way of cutting -/

section

variable {α : Type} {P : α → Prop} {a b a' b' : List α} (same : a ++ b = a' ++ b')

include same

/-- A list is cut in one way in front of the first member with a property. -/
theorem cut_unique (front : ∀ x ∈ a, ¬ P x) (back : ∀ x ∈ b.head?, P x)
    (front' : ∀ x ∈ a', ¬ P x) (back' : ∀ x ∈ b'.head?, P x) : a = a' ∧ b = b' := by
  have none : ∀ {c d : List α}, (∀ x ∈ c, ¬ P x) → (∀ x ∈ (c ++ d).head?, P x) →
      c = [] := by
    intro c d others some
    cases c with
    | nil => rfl
    | cons x c => exact absurd (some x rfl) (others x List.mem_cons_self)
  rcases List.append_eq_append_iff.mp same with ⟨c, rfl, rfl⟩ | ⟨c, rfl, rfl⟩
  · obtain rfl := none (fun x within => front' x (List.mem_append_right _ within)) back
    exact ⟨(List.append_nil a).symm, rfl⟩
  · obtain rfl := none (fun x within => front x (List.mem_append_right _ within)) back'
    exact ⟨List.append_nil a', rfl⟩

/-- A list is cut in one way behind the last member with a property. -/
theorem cutLast_unique (front : ∀ x ∈ a.getLast?, P x) (back : ∀ x ∈ b, ¬ P x)
    (front' : ∀ x ∈ a'.getLast?, P x) (back' : ∀ x ∈ b', ¬ P x) : a = a' ∧ b = b' := by
  have reversed : b.reverse ++ a.reverse = b'.reverse ++ a'.reverse := by
    rw [← List.reverse_append, ← List.reverse_append, same]
  obtain ⟨backs, fronts⟩ := cut_unique (P := P) reversed
    (fun x within => back x (List.mem_reverse.mp within)) (by rwa [List.head?_reverse])
    (fun x within => back' x (List.mem_reverse.mp within)) (by rwa [List.head?_reverse])
  exact ⟨List.reverse_inj.mp fronts, List.reverse_inj.mp backs⟩

end

section

variable {group key line : Text} {lines before before' own own' rest rest' : List Text}
  {header header' : Text}

theorem FirstGroup.mem (first : FirstGroup group lines before header own rest) :
    header ∈ lines := by
  rw [first.whole]
  exact List.mem_append_right _ List.mem_cons_self

theorem FirstGroup.unique (first : FirstGroup group lines before header own rest)
    (first' : FirstGroup group lines before' header' own' rest') :
    before = before' ∧ header = header' ∧ own = own' ∧ rest = rest' := by
  obtain ⟨befores, behind⟩ := cut_unique (P := IsHeader group)
    (first.whole.symm.trans first'.whole) first.first
    (fun l here => Option.some.inj here ▸ first.named) first'.first
    (fun l here => Option.some.inj here ▸ first'.named)
  obtain ⟨headers, inside⟩ := List.cons.inj behind
  obtain ⟨owns, rests⟩ := cut_unique inside first.inner first.ends first'.inner first'.ends
  exact ⟨befores, headers, owns, rests⟩

theorem SetsLine.ne_nil {ls : List Text} (sets : SetsLine group key line lines ls) : ls ≠ [] := by
  cases sets <;> simp

/-- Lines are edited in one way. -/
theorem SetsLine.unique {ls ls' : List Text} (sets : SetsLine group key line lines ls)
    (sets' : SetsLine group key line lines ls') : ls = ls' := by
  cases sets with
  | @replaced _ front back _ _ old first here none =>
    cases sets' with
    | @replaced _ front' back' _ _ old' first' here' none' =>
      obtain ⟨rfl, rfl, owns, rfl⟩ := first.unique first'
      have same : (front ++ [old]) ++ back = (front' ++ [old']) ++ back' := by simpa using owns
      have last : ∀ {ls : List Text} {old : Text}, IsEntry key old →
          ∀ l ∈ (ls ++ [old]).getLast?, IsEntry key l := fun here l ends => by
        rw [List.getLast?_concat] at ends
        exact Option.some.inj ends ▸ here
      obtain ⟨fronts, rfl⟩ := cutLast_unique same (last here) none (last here') none'
      rw [(List.append_inj' fronts rfl).1]
    | inserted first' none' _ _ =>
      obtain ⟨-, -, owns, -⟩ := first.unique first'
      exact absurd here (none' old (owns ▸ by simp))
    | appended none' => exact absurd first.named (none' _ first.mem)
  | inserted first none last others =>
    cases sets' with
    | @replaced _ _ _ _ _ old first' here' _ =>
      obtain ⟨-, -, owns, -⟩ := first'.unique first
      exact absurd here' (none old (owns ▸ by simp))
    | inserted first' _ last' others' =>
      obtain ⟨rfl, rfl, owns, rfl⟩ := first.unique first'
      obtain ⟨rfl, rfl⟩ := cutLast_unique owns last others last' others'
      rfl
    | appended none' => exact absurd first.named (none' _ first.mem)
  | appended none =>
    cases sets' with
    | replaced first' _ _ => exact absurd first'.named (none _ first'.mem)
    | inserted first' _ _ _ => exact absurd first'.named (none _ first'.mem)
    | appended _ => rfl

end

/-! ## Lines that have been read -/

/-- Whether a header stands in front only matters to lines that are refused without one. -/
theorem readRow_inGroup {b : Bool} {raw : Text} {r : Row} (reads : readRow b raw = .ok r) :
    readRow true raw = .ok r := by
  cases b with
  | true => exact reads
  | false =>
    unfold readRow at reads ⊢
    simp only at reads ⊢
    split at reads
    · exact reads
    split at reads
    next comment => rwa [if_pos comment]
    next notComment =>
      rw [if_neg notComment]
      split at reads
      next opens => rwa [if_pos opens]
      next notOpen =>
        rw [if_neg notOpen]
        split at reads
        · cases reads
        next equals =>
          -- Where no header stands in front, an entry is refused.
          rw [if_pos Bool.not_false] at reads
          cases reads

theorem isEntry_iff_isFor {l : KeyLine} : l.isEntry ↔ ∃ key, l.isFor key := by
  cases l <;> simp [KeyLine.isFor, KeyLine.key?, KeyLine.isEntry]

/-- An edit of the lines of a group that have been read is an edit of all lines. -/
theorem FirstGroup.setsLine {group key line header : Text} {lines before rest : List Text}
    {body front back : List KeyLine} {old : Option KeyLine}
    (first : FirstGroup group lines before header (body.map KeyLine.raw) rest)
    (sets : KeyGroup.SetsAt key body front old back)
    (reads : ∀ l ∈ body, ∀ k, IsEntry k l.raw ↔ l.isFor k) :
    SetsLine group key line lines
      (before ++ header :: (front.map KeyLine.raw ++ line :: (back.map KeyLine.raw ++ rest))) := by
  have others : ∀ {k : Text} {ls : List KeyLine}, ls ⊆ body → (∀ l ∈ ls, ¬ l.isFor k) →
      ∀ c ∈ ls.map KeyLine.raw, ¬ IsEntry k c := by
    rintro k ls part none c here entry
    obtain ⟨l, within, rfl⟩ := List.mem_map.mp here
    exact none l within ((reads l (part within) k).mp entry)
  have noEntry : ∀ {ls : List KeyLine}, ls ⊆ body → (∀ l ∈ ls, ¬ l.isEntry) →
      ∀ c ∈ ls.map KeyLine.raw, ¬ ∃ k, IsEntry k c := by
    rintro ls part none c here ⟨k, entry⟩
    refine others part (fun l within own => ?_) c here entry
    exact none l within (KeyLine.isEntry_of_isFor own)
  cases sets with
  | @upon _ _ old own none =>
    have part : back ⊆ front ++ old :: back := fun l within => by simp [within]
    rw [List.map_append, List.map_cons] at first
    exact .replaced first ((reads old (by simp) key).mpr own) (others part none)
  | @behind front _ last none own ends =>
    have part : back ⊆ front ++ last :: back := fun l within => by simp [within]
    have cut : (front ++ last :: back).map KeyLine.raw =
        (front ++ [last]).map KeyLine.raw ++ back.map KeyLine.raw := by simp
    have unkeyed := others (List.Subset.refl _) none
    rw [cut] at first unkeyed
    refine .inserted first unkeyed ?_ (noEntry part ends)
    intro c here
    rw [List.map_append, List.map_singleton, List.getLast?_concat] at here
    obtain ⟨k, entry⟩ := isEntry_iff_isFor.mp own
    exact ⟨k, Option.some.inj here ▸ (reads last (by simp) k).mpr entry⟩
  | first none =>
    have bare := noEntry (List.Subset.refl _) none
    have unkeyed := fun c here entry => bare c here ⟨key, entry⟩
    have whole : FirstGroup group lines before header ([] ++ body.map KeyLine.raw) rest := first
    exact .inserted whole unkeyed (fun c here => by cases here) bare

/-- A header stands in front of a group of its name. -/
theorem exists_group_of_mem {ls : List KeyLine} {groups : List KeyGroup} {raw name : Text}
    (within : Row.header raw name ∈ ls.map Row.line ++ groups.flatMap groupRows) :
    ∃ g ∈ groups, g.name = name := by
  rcases List.mem_append.mp within with preamble | grouped
  · obtain ⟨l, -, other⟩ := List.mem_map.mp preamble
    cases other
  obtain ⟨g, member, own⟩ := List.mem_flatMap.mp grouped
  rcases List.mem_cons.mp own with header | body
  · exact ⟨g, member, (Row.header.inj header).2.symm⟩
  · obtain ⟨l, -, other⟩ := List.mem_map.mp body
    cases other

section

variable {t : Text} {f : KeyFile} (parses : parse t = .ok f)

include parses

theorem readRow_raw_of_mem {r : Row} (within : r ∈ f.rows) : readRow true r.raw = .ok r := by
  obtain ⟨-, b, reads⟩ := exists_readRow_of_mem (parse_eq_ok.mp parses).1 within
  exact readRow_inGroup reads

theorem isHeader_raw_iff {r : Row} (within : r ∈ f.rows) {name : Text} :
    IsHeader name r.raw ↔ r = .header r.raw name := by
  rw [IsHeader, readRow_raw_of_mem parses within, Except.ok.injEq]

theorem isEntry_raw_iff {l : KeyLine} (within : .line l ∈ f.rows) {key : Text} :
    IsEntry key l.raw ↔ l.isFor key := by
  have reads : readRow true l.raw = .ok (.line l) := readRow_raw_of_mem parses within
  unfold IsEntry
  rw [reads, KeyLine.isFor_iff]
  simp only [Except.ok.injEq, Row.line.injEq]
  constructor
  · rintro ⟨value, same⟩
    exact ⟨_, value, same⟩
  · rintro ⟨raw, value, rfl⟩
    exact ⟨value, rfl⟩

variable {group key : Text}

/-- The group of a place is the first of its name among the lines. -/
theorem firstGroup_of_place (p : f.Place group key) : FirstGroup group (fileLines t)
    ((f.preamble.map Row.line ++ p.others.flatMap groupRows).map Row.raw) p.own.header
    (p.own.body.map KeyLine.raw) ((p.rest.flatMap groupRows).map Row.raw) := by
  have rows : f.rows = f.preamble.map .line ++ p.others.flatMap groupRows ++
      .header p.own.header p.own.name :: (p.own.body.map .line ++ p.rest.flatMap groupRows) := by
    rw [KeyFile.rows, p.groups_eq, List.flatMap_append, List.flatMap_cons, groupRows]
    simp only [List.append_assoc, List.cons_append]
  have within : ∀ {r : Row}, r ∈ f.rows → ∀ {name : Text},
      IsHeader name r.raw → r = .header r.raw name :=
    fun inside _ named => (isHeader_raw_iff parses inside).mp named
  exact {
    whole := by
      rw [← rawLines_of_parse parses, rawLines_eq, rows]
      simp only [List.map_append, List.map_cons, List.map_map]
      rfl
    first := by
      intro l here named
      obtain ⟨r, inside, rfl⟩ := List.mem_map.mp here
      rw [within (rows ▸ List.mem_append_left _ inside) named] at inside
      obtain ⟨o, member, same⟩ := exists_group_of_mem inside
      exact p.name_others o member same
    named := by
      refine (isHeader_raw_iff parses (header_mem_rows p.own_mem)).mpr ?_
      rw [p.name_own]
      rfl
    inner := by
      rintro l here ⟨name, named⟩
      obtain ⟨k, inside, rfl⟩ := List.mem_map.mp here
      cases within (line_mem_rows p.own_mem inside) named
    ends := by
      intro l here
      cases shape : p.rest with
      | nil =>
        rw [shape] at here
        cases here
      | cons g rest =>
        rw [shape, List.flatMap_cons, groupRows] at here
        obtain rfl : g.header = l := Option.some.inj here
        have member : g ∈ f.groups := by
          rw [p.groups_eq, shape]
          simp
        exact ⟨g.name, (isHeader_raw_iff parses (header_mem_rows member)).mpr rfl⟩ }

theorem setsLine_of_place (p : f.Place group key) (value : Text) :
    SetsLine group key (KeyLine.ofValue key value).raw (fileLines t)
      (f.set group key value).rawLines := by
  have lines : (f.set group key value).rawLines =
      (f.preamble.map Row.line ++ p.others.flatMap groupRows).map Row.raw ++ p.own.header ::
        (p.before.map KeyLine.raw ++ (KeyLine.ofValue key value).raw ::
          (p.after.map KeyLine.raw ++ (p.rest.flatMap groupRows).map Row.raw)) := by
    rw [rawLines_eq, p.rows_set]
    simp only [Place.front, Place.back, List.map_append, List.map_cons, List.map_map,
      List.append_assoc, List.cons_append]
    rfl
  rw [lines]
  exact (firstGroup_of_place parses p).setsLine p.sets fun l here _ =>
    isEntry_raw_iff parses (line_mem_rows p.own_mem here)

end

/-! ## Appending a group -/

/-- A row is blank if nothing but blanks stands in its line. -/
theorem isBlank_iff {b : Bool} {raw : Text} {r : Row} (reads : readRow b raw = .ok r) :
    r.isBlank ↔ Text.trim raw = [] := by
  unfold readRow at reads
  simp only at reads
  split at reads
  next blank =>
    rw [← Except.ok.inj reads]
    exact iff_of_true rfl blank
  next u rest starts =>
    refine iff_of_false ?_ (starts ▸ List.cons_ne_nil u rest)
    have other : ∀ {q : Row}, q.isBlank = false → Except.ok (ε := Fault) q = .ok r →
        ¬ r.isBlank = true := by
      rintro q none same blank
      rw [← Except.ok.inj same, none] at blank
      cases blank
    split at reads
    · exact other rfl reads
    split at reads
    · split at reads
      · exact other rfl reads
      · cases reads
    split at reads
    · cases reads
    split at reads
    · cases reads
    split at reads
    · cases reads
    · exact other rfl reads

/-- The line of an entry is not empty and ends in no terminator. -/
theorem isTerminated_ofValue (key value : Text) :
    (KeyLine.ofValue key value).raw ≠ [] ∧
      isTerminated (KeyLine.ofValue key value).raw = false := by
  have some : (KeyLine.ofValue [] value).raw ≠ [] := List.cons_ne_nil _ _
  have whole : (KeyLine.ofValue key value).raw = key ++ (KeyLine.ofValue [] value).raw :=
    List.append_assoc _ _ _
  rw [whole, Text.isTerminated_append key some]
  refine ⟨List.append_ne_nil_of_right_ne_nil key some, decide_eq_false fun last => ?_⟩
  exact (raw_ofValue List.not_mem_nil value).1 (List.mem_of_getLast? last)

theorem kept_set (f : KeyFile) (group key value : Text) :
    (f.set group key value).terminator = f.terminator ∧
      (f.set group key value).endsTerminated = f.endsTerminated := by
  unfold set
  split <;> exact ⟨rfl, rfl⟩

section

variable {t : Text} {f : KeyFile} (parses : parse t = .ok f) {group key : Text}

include parses

/-- The row in front of an appended group is the empty line that the lines ask for. -/
theorem map_raw_rowGap : (rowGap f.rows).map Row.raw = gap (fileLines t) := by
  have blank : f.rows.getLast?.all Row.isBlank = true ↔
      ∀ l ∈ (fileLines t).getLast?, Text.trim l = [] := by
    rw [← rawLines_of_parse parses, rawLines_eq, List.getLast?_map]
    cases last : f.rows.getLast? with
    | none => simp
    | some r =>
      have reads := readRow_raw_of_mem parses (List.mem_of_getLast? last)
      simpa using isBlank_iff reads
  unfold rowGap gap
  simp only [blank]
  split <;> rfl

theorem not_isHeader_of_not_hasGroup (ungrouped : f.hasGroup group = false) :
    ∀ l ∈ fileLines t, ¬ IsHeader group l := by
  intro l within named
  rw [← rawLines_of_parse parses, rawLines_eq] at within
  obtain ⟨r, inside, rfl⟩ := List.mem_map.mp within
  rw [(isHeader_raw_iff parses inside).mp named] at inside
  obtain ⟨g, member, same⟩ := exists_group_of_mem inside
  have some : f.hasGroup group = true :=
    List.find?_isSome.mpr ⟨g, member, decide_eq_true same⟩
  rw [ungrouped] at some
  cases some

theorem setsLine_of_not_hasGroup (ungrouped : f.hasGroup group = false) (value : Text) :
    SetsLine group key (KeyLine.ofValue key value).raw (fileLines t)
      (f.set group key value).rawLines := by
  have added : f.set group key value = f.addGroup group key value := by
    rw [set, ungrouped]
    rfl
  have lines : (f.set group key value).rawLines = fileLines t ++ gap (fileLines t) ++
      ["[" ++ group ++ "]", (KeyLine.ofValue key value).raw] := by
    rw [added, rawLines_eq, rows_addGroup, List.map_append, List.map_append, ← rawLines_eq,
      rawLines_of_parse parses, map_raw_rowGap parses]
    rfl
  rw [lines]
  exact .appended (not_isHeader_of_not_hasGroup parses ungrouped)

/-- The last line of a changed file is the line that was set, or has been the last before. -/
theorem getLast?_rawLines_set (value : Text) :
    (f.set group key value).rawLines.getLast? = some (KeyLine.ofValue key value).raw ∨
      t ≠ [] ∧ (f.set group key value).rawLines.getLast? = (fileLines t).getLast? := by
  cases grouped : f.hasGroup group with
  | true =>
    obtain ⟨p⟩ := exists_place key grouped
    rw [← rawLines_of_parse parses, rawLines_eq, rawLines_eq, p.rows_set, p.rows_eq,
      List.getLast?_map, List.getLast?_map]
    by_cases bare : p.back = []
    · left
      rw [bare, List.getLast?_concat]
      rfl
    · right
      refine ⟨ne_nil_of_hasGroup parses grouped, ?_⟩
      rw [← List.singleton_append, ← List.append_assoc, Text.getLast?_append_of_ne_nil _ bare,
        Text.getLast?_append_of_ne_nil _ bare]
  | false =>
    left
    have added : f.set group key value = f.addGroup group key value := by
      rw [set, grouped]
      rfl
    rw [added, rawLines_eq, rows_addGroup, List.getLast?_map,
      Text.getLast?_append_of_ne_nil _ (List.cons_ne_nil _ _)]
    rfl

/-- A changed file ends in a terminator if the text does. -/
theorem isTerminated_text_set (value : Text) :
    isTerminated (f.set group key value).text = isTerminated t := by
  obtain ⟨-, term, ended⟩ := parse_eq_ok.mp parses
  have kept := kept_set f group key value
  have closing := Text.getLast?_usualTerminator t
  rw [text_eq, kept.1, kept.2, term, ended]
  rcases getLast?_rawLines_set parses value with own | ⟨some, same⟩
  · obtain ⟨filled, open_⟩ := isTerminated_ofValue key value
    rw [Text.isTerminated_terminateWith closing own fun _ => filled, open_, Bool.or_false]
  · have cut := Text.wellCut_terminatedLines t
    have lines : Text.terminatedLines t ≠ [] := Text.terminatedLines_eq_nil.not.mpr some
    have last := List.getLast?_eq_some_getLast lines
    rw [Text.fileLines_eq some, List.getLast?_map, last] at same
    have filled := fun open_ : isTerminated t = false => Text.content_ne_nil_of_open open_ last
    have inside := (cut.not_mem_content (List.getLast_mem lines)).1
    have open_ : isTerminated ((Text.terminatedLines t).getLast lines).content = false :=
      decide_eq_false fun ends => inside (List.mem_of_getLast? ends)
    rw [Text.isTerminated_terminateWith closing same filled, open_, Bool.or_false]

/-- Setting a key in a key file that has been read edits one of its lines, and how the last line
ends stays as it is. -/
theorem setsLine_iff_of_parse (group key value : Text) :
    (∀ lines, SetsLine group key (key ++ "=" ++ escape value) (fileLines t) lines ↔
        (f.set group key value).rawLines = lines) ∧
      (f.set group key value).text =
        Text.join (usualTerminator t) (f.set group key value).rawLines ++
          (if isTerminated t then usualTerminator t else []) ∧
      isTerminated (f.set group key value).text = isTerminated t := by
  have sets : SetsLine group key (key ++ "=" ++ escape value) (fileLines t)
      (f.set group key value).rawLines := by
    cases grouped : f.hasGroup group with
    | true =>
      obtain ⟨p⟩ := exists_place key grouped
      exact setsLine_of_place parses p value
    | false => exact setsLine_of_not_hasGroup parses grouped value
  refine ⟨fun lines => ⟨sets.unique, fun same => same ▸ sets⟩, ?_,
    isTerminated_text_set parses value⟩
  have kept := kept_set f group key value
  obtain ⟨-, term, ended⟩ := parse_eq_ok.mp parses
  unfold text
  rw [kept.1, kept.2, term, ended]
  simp only [sets.ne_nil, ne_eq, not_false_eq_true, and_true]
  split
  · rfl
  · exact (List.append_nil _).symm

end

/-- A group and a key that are repeated, with lines behind the entries that are none. -/
def repeatedText : Text := "[a]\nk=1\n k = 2\r\n# end\n\n[b]\n[a]\nk=3"

/-- A key is replaced where it stands last in the first group of the name, another one is inserted
behind that line, and a group is appended behind an empty line. -/
theorem setsLine_repeatedText : ∃ f, parse repeatedText = .ok f ∧
    SetsLine "a" "k" "k=x" (fileLines repeatedText)
      ["[a]", "k=1", "k=x", "# end", "", "[b]", "[a]", "k=3"] ∧
    SetsLine "a" "m" "m=x" (fileLines repeatedText)
      ["[a]", "k=1", " k = 2", "m=x", "# end", "", "[b]", "[a]", "k=3"] ∧
    SetsLine "c" "k" "k=x" (fileLines repeatedText)
      ["[a]", "k=1", " k = 2", "# end", "", "[b]", "[a]", "k=3", "", "[c]", "k=x"] := by
  have told : ((parse repeatedText).toOption.map fun f => [(f.set "a" "k" "x").rawLines,
      (f.set "a" "m" "x").rawLines, (f.set "c" "k" "x").rawLines]) = some (
        [["[a]", "k=1", "k=x", "# end", "", "[b]", "[a]", "k=3"],
          ["[a]", "k=1", " k = 2", "m=x", "# end", "", "[b]", "[a]", "k=3"],
          ["[a]", "k=1", " k = 2", "# end", "", "[b]", "[a]", "k=3", "", "[c]", "k=x"]] :
          List (List Text)) := by
    decide +kernel
  cases parses : parse repeatedText with
  | error e =>
    rw [parses] at told
    cases told
  | ok f =>
    rw [parses] at told
    obtain ⟨replaced, behind⟩ := List.cons.inj (Option.some.inj told)
    obtain ⟨inserted, behind⟩ := List.cons.inj behind
    obtain ⟨appended, -⟩ := List.cons.inj behind
    exact ⟨f, rfl, ((setsLine_iff_of_parse parses "a" "k" "x").1 _).mpr replaced,
      ((setsLine_iff_of_parse parses "a" "m" "x").1 _).mpr inserted,
      ((setsLine_iff_of_parse parses "c" "k" "x").1 _).mpr appended⟩

end KeyFile

end FileProfile
