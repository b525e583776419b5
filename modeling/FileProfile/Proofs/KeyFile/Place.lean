import FileProfile.Proofs.KeyFile.Rows

/-!
Where a key is set in a key file.

A `KeyFile.Place` is the place of a key in the first group of a name: over the last entry for the
key, or behind the last entry of the group where it has none for the key, or behind the header where
it has no entry at all. There is always one (`exists_place`), and setting the key puts its line
there and leaves all other rows as they are (`rows_set`).
-/

namespace FileProfile

/-- The lines of a group in front of the place of a key, the line that stands there, and the lines
behind. -/
inductive KeyGroup.SetsAt (key : Text) :
    List KeyLine → List KeyLine → Option KeyLine → List KeyLine → Prop where
  /-- The last entry for the key. -/
  | upon {before after : List KeyLine} {old : KeyLine} : old.isFor key →
      (∀ l ∈ after, ¬ l.isFor key) → SetsAt key (before ++ old :: after) before (some old) after
  /-- Behind the last of the entries, none of which is for the key. -/
  | behind {before after : List KeyLine} {last : KeyLine} :
      (∀ l ∈ before ++ last :: after, ¬ l.isFor key) → last.isEntry → (∀ l ∈ after, ¬ l.isEntry) →
      SetsAt key (before ++ last :: after) (before ++ [last]) none after
  /-- In front of lines that are no entries. -/
  | first {body : List KeyLine} : (∀ l ∈ body, ¬ l.isEntry) → SetsAt key body [] none body

/-- The place of a key in the first group of a name. -/
structure KeyFile.Place (f : KeyFile) (group key : Text) where
  others : List KeyGroup
  own : KeyGroup
  rest : List KeyGroup
  before : List KeyLine
  old : Option KeyLine
  after : List KeyLine
  groups_eq : f.groups = others ++ own :: rest
  name_others : ∀ o ∈ others, o.name ≠ group
  name_own : own.name = group
  sets : KeyGroup.SetsAt key own.body before old after

namespace KeyLine

theorem isEntry_of_isFor {l : KeyLine} {key : Text} (own : l.isFor key) : l.isEntry := by
  cases l with
  | blank raw => simp [isFor, key?] at own
  | comment raw => simp [isFor, key?] at own
  | entry raw k value => rfl

theorem isFor_iff {l : KeyLine} {key : Text} :
    l.isFor key ↔ ∃ raw value, l = .entry raw key value := by
  cases l with
  | blank raw => simp [isFor, key?]
  | comment raw => simp [isFor, key?]
  | entry raw k value => simp [isFor, key?]

theorem valueFor?_eq_none {l : KeyLine} {key : Text} (other : ¬ l.isFor key) :
    l.valueFor? key = none := by
  cases l with
  | blank raw => rfl
  | comment raw => rfl
  | entry raw k value =>
    rw [valueFor?, if_neg]
    rintro rfl
    exact other (isFor_iff.mpr ⟨raw, value, rfl⟩)

theorem isFor_other {l : KeyLine} {key other : Text} (apart : other ≠ key) (own : l.isFor key) :
    ¬ l.isFor other := by
  obtain ⟨raw, value, rfl⟩ := isFor_iff.mp own
  intro both
  obtain ⟨_, _, same⟩ := isFor_iff.mp both
  cases same
  exact apart rfl

end KeyLine

/-! ## In a group -/

namespace KeyGroup

variable {key : Text} {body before after : List KeyLine} {old : Option KeyLine}

/-- The last of the members that have a property. -/
theorem exists_last {α : Type} {holds : α → Bool} {l : List α} (some : l.any holds = true) :
    ∃ before x after, l = before ++ x :: after ∧ holds x ∧ ∀ y ∈ after, ¬ holds y := by
  induction l with
  | nil => cases some
  | cons x rest ih =>
    by_cases later : rest.any holds = true
    · obtain ⟨before, y, after, rfl, own, others⟩ := ih later
      exact ⟨x :: before, y, after, rfl, own, others⟩
    · have none : ∀ y ∈ rest, ¬ holds y := by simpa using later
      have own : holds x = true := by
        rw [List.any_cons, Bool.or_eq_true] at some
        exact some.resolve_right later
      exact ⟨[], x, rest, rfl, own, none⟩

theorem exists_setsAt (key : Text) (body : List KeyLine) :
    ∃ before old after, SetsAt key body before old after := by
  by_cases keyed : body.any (KeyLine.isFor key) = true
  · obtain ⟨before, old, after, rfl, own, others⟩ := exists_last keyed
    exact ⟨before, some old, after, .upon own others⟩
  have unkeyed : ∀ l ∈ body, ¬ l.isFor key := by simpa using keyed
  by_cases entries : body.any KeyLine.isEntry = true
  · obtain ⟨before, last, after, rfl, own, others⟩ := exists_last entries
    exact ⟨before ++ [last], none, after, .behind unkeyed own others⟩
  · exact ⟨[], none, body, .first (by simpa using entries)⟩

theorem SetsAt.body_eq (sets : SetsAt key body before old after) :
    body = before ++ old.toList ++ after := by
  cases sets <;> simp

theorem replaceLast_append (line : KeyLine) {old : KeyLine} (before : List KeyLine)
    (own : old.isFor key) (others : ∀ l ∈ after, ¬ l.isFor key) :
    replaceLast key line (before ++ old :: after) = before ++ line :: after := by
  induction before with
  | nil =>
    have none : after.any (KeyLine.isFor key) = false := by simpa using others
    rw [List.nil_append, replaceLast, none, own]
    rfl
  | cons l before ih =>
    have some : (before ++ old :: after).any (KeyLine.isFor key) = true := by simp [own]
    rw [List.cons_append, replaceLast, some, ih]
    rfl

theorem insertAfterEntries_append (line : KeyLine) {last : KeyLine} (before : List KeyLine)
    (own : last.isEntry) (others : ∀ l ∈ after, ¬ l.isEntry) :
    insertAfterEntries line (before ++ last :: after) = before ++ last :: line :: after := by
  induction before with
  | nil =>
    have none : after.any KeyLine.isEntry = false := by simpa using others
    rw [List.nil_append, insertAfterEntries, none, own]
    rfl
  | cons l before ih =>
    have some : (before ++ last :: after).any KeyLine.isEntry = true := by simp [own]
    rw [List.cons_append, insertAfterEntries, some, ih]
    rfl

theorem insertAfterEntries_front (line : KeyLine) (none : ∀ l ∈ body, ¬ l.isEntry) :
    insertAfterEntries line body = line :: body := by
  cases body with
  | nil => rfl
  | cons l rest =>
    have here : l.isEntry = false := by simpa using none l List.mem_cons_self
    have behind : rest.any KeyLine.isEntry = false := by
      simpa using fun k within => none k (List.mem_cons_of_mem _ within)
    rw [insertAfterEntries, behind, here]
    rfl

/-- Setting a key puts its line at the place of the key. -/
theorem body_set {g : KeyGroup} (sets : SetsAt key g.body before old after) (value : Text) :
    (g.set key value).body = before ++ .ofValue key value :: after := by
  have unkeyed : ∀ {l : List KeyLine}, (∀ k ∈ l, ¬ k.isFor key) →
      l.any (KeyLine.isFor key) = false := fun none => by simpa using none
  unfold set hasKey
  generalize g.body = whole at sets
  cases sets with
  | @upon before after current own others =>
    have keyed : (before ++ current :: after).any (KeyLine.isFor key) = true := by
      rw [List.any_append, List.any_cons, own, Bool.true_or, Bool.or_true]
    rw [keyed]
    exact replaceLast_append _ _ own others
  | @behind before after last none own others =>
    rw [unkeyed none]
    exact (insertAfterEntries_append _ _ own others).trans (by simp)
  | first none =>
    have other : ∀ l ∈ after, ¬ l.isFor key := fun l within own =>
      none l within (KeyLine.isEntry_of_isFor own)
    rw [unkeyed other]
    exact insertAfterEntries_front _ none

end KeyGroup

namespace KeyFile

variable {f : KeyFile} {group key : Text}

theorem exists_place (key : Text) (grouped : f.hasGroup group = true) :
    Nonempty (f.Place group key) := by
  unfold hasGroup group? at grouped
  obtain ⟨own, found⟩ := Option.isSome_iff_exists.mp grouped
  obtain ⟨named, others, rest, shape, before⟩ := List.find?_eq_some_iff_append.mp found
  obtain ⟨front, old, after, sets⟩ := KeyGroup.exists_setsAt key own.body
  exact ⟨{
    others, own, rest, before := front, old, after
    groups_eq := shape
    name_others := fun o within => by simpa using before o within
    name_own := by simpa using named
    sets }⟩

namespace Place

theorem own_mem (p : f.Place group key) : p.own ∈ f.groups := by
  rw [p.groups_eq]
  exact List.mem_append_right _ List.mem_cons_self

/-- The rows in front of the place. -/
def front (p : f.Place group key) : List Row :=
  f.preamble.map .line ++ p.others.flatMap groupRows ++
    .header p.own.header p.own.name :: p.before.map .line

/-- The rows behind the place. -/
def back (p : f.Place group key) : List Row := p.after.map .line ++ p.rest.flatMap groupRows

/-- The file with other lines in the group of the place. -/
def fileWith (p : f.Place group key) (body : List KeyLine) : KeyFile :=
  { f with groups := p.others ++ { p.own with body } :: p.rest }

theorem fileWith_body (p : f.Place group key) : p.fileWith p.own.body = f := by
  unfold fileWith
  rw [← p.groups_eq]

theorem rows_fileWith (p : f.Place group key) (ls : List KeyLine) :
    (p.fileWith (p.before ++ ls ++ p.after)).rows = p.front ++ ls.map .line ++ p.back := by
  simp [rows, fileWith, groupRows, front, back]

theorem rows_eq (p : f.Place group key) :
    f.rows = p.front ++ p.old.toList.map .line ++ p.back := by
  rw [← p.rows_fileWith, ← p.sets.body_eq, p.fileWith_body]

theorem updateFirst_append (change : KeyGroup → KeyGroup) {others : List KeyGroup} {own : KeyGroup}
    (rest : List KeyGroup) (apart : ∀ o ∈ others, o.name ≠ group) (named : own.name = group) :
    updateFirst group change (others ++ own :: rest) = others ++ change own :: rest := by
  induction others with
  | nil => rw [List.nil_append, updateFirst, if_pos named, List.nil_append]
  | cons o others ih =>
    rw [List.cons_append, updateFirst, if_neg (apart o List.mem_cons_self),
      ih fun k within => apart k (List.mem_cons_of_mem _ within)]
    rfl

/-- The group of the place is the first of its name, whatever its lines are. -/
theorem group?_fileWith (p : f.Place group key) (body : List KeyLine) :
    (p.fileWith body).group? group = some { p.own with body } := by
  have none : p.others.find? (fun g => g.name = group) = none :=
    List.find?_eq_none.mpr fun o within => by simpa using p.name_others o within
  unfold group? fileWith
  rw [List.find?_append, none, Option.none_or]
  exact List.find?_cons_of_pos (decide_eq_true p.name_own)

theorem group?_eq (p : f.Place group key) : f.group? group = some p.own := by
  have found := p.group?_fileWith p.own.body
  rwa [p.fileWith_body] at found

/-- Setting the key puts its line at the place. -/
theorem set_eq (p : f.Place group key) (value : Text) :
    f.set group key value = p.fileWith (p.before ++ .ofValue key value :: p.after) := by
  have grouped : f.hasGroup group = true := by
    rw [hasGroup, p.group?_eq]
    rfl
  have own : p.own.set key value = { p.own with body := (p.own.set key value).body } := rfl
  unfold set
  rw [if_pos grouped, p.groups_eq, updateFirst_append _ _ p.name_others p.name_own, own,
    KeyGroup.body_set p.sets value]
  rfl

theorem rows_set (p : f.Place group key) (value : Text) :
    (f.set group key value).rows = p.front ++ .line (.ofValue key value) :: p.back := by
  have rows := p.rows_fileWith [.ofValue key value]
  rw [List.append_assoc] at rows
  rw [p.set_eq]
  exact rows.trans (List.append_assoc _ _ _)

end Place

/-! ## Behind all groups -/

def Row.isBlank : Row → Bool
  | .header .. => false
  | .line l => l.isBlank

/-- The row in front of a group that is appended. -/
def rowGap (rs : List Row) : List Row :=
  if rs.getLast?.all Row.isBlank then [] else [.line (.blank [])]

theorem rowGap_append (front : List Row) {back : List Row} (some : back ≠ []) :
    rowGap (front ++ back) = rowGap back := by
  rw [rowGap, Text.getLast?_append_of_ne_nil front some, rowGap]

theorem map_separated (ls : List KeyLine) :
    (separated ls).map Row.line = ls.map Row.line ++ rowGap (ls.map Row.line) := by
  unfold separated rowGap
  rw [List.getLast?_map]
  cases ls.getLast? with
  | none => simp
  | some l => cases blank : l.isBlank <;> simp [Row.isBlank, blank]

theorem flatMap_separateLast {groups : List KeyGroup} (some : groups ≠ []) :
    (separateLast groups).flatMap groupRows =
      groups.flatMap groupRows ++ rowGap (groups.flatMap groupRows) := by
  induction groups with
  | nil => exact absurd rfl some
  | cons g rest ih =>
    cases rest with
    | nil =>
      by_cases bare : g.body = []
      · simp [separateLast, groupRows, bare, rowGap, Row.isBlank]
      · have some' : g.body.map Row.line ≠ [] := fun none => bare (List.map_eq_nil_iff.mp none)
        simp only [separateLast, List.flatMap_cons, List.flatMap_nil, List.append_nil, groupRows,
          if_neg bare, map_separated, List.cons_append]
        have behind : rowGap (.header g.header g.name :: g.body.map Row.line) =
            rowGap (g.body.map Row.line) := rowGap_append [.header g.header g.name] some'
        rw [behind]
    | cons next more =>
      have step : separateLast (g :: next :: more) = g :: separateLast (next :: more) := rfl
      have behind : (next :: more).flatMap groupRows ≠ [] := List.cons_ne_nil _ _
      rw [step, List.flatMap_cons, ih (List.cons_ne_nil next more), ← List.append_assoc,
        ← rowGap_append (groupRows g) behind]
      rfl

/-- A group is appended behind all rows, with one row in front of it unless the last is blank. -/
theorem rows_addGroup (f : KeyFile) (group key value : Text) :
    (f.addGroup group key value).rows = f.rows ++ rowGap f.rows ++
      [.header ("[" ++ group ++ "]") group, .line (.ofValue key value)] := by
  by_cases none : f.groups = []
  · simp [rows, addGroup, none, map_separated, separateLast, groupRows]
  · have some : f.groups.flatMap groupRows ≠ [] := by
      obtain ⟨g, rest, shape⟩ := List.exists_cons_of_ne_nil none
      rw [shape]
      exact List.cons_ne_nil _ _
    have last := rowGap_append (f.preamble.map .line) some
    simp [rows, addGroup, none, flatMap_separateLast none, groupRows, last]

end KeyFile

end FileProfile
