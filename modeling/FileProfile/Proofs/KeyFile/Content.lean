import FileProfile.Proofs.KeyFile.Place

/-!
What a key file says, apart from how it is written.

The values of a key file depend on the names of its groups and on the keys and values of their
entries alone (`KeyFile.content`, `get?_congr`), and these depend on what each row means
(`content_of_meanings`). Putting an entry at the place of its key changes the value of that key and
of no other (`get?_fileWith_own`, `get?_fileWith_other`).
-/

namespace FileProfile

/-- The key and the value of an entry. -/
def KeyLine.pair? : KeyLine → Option (Text × Text)
  | .entry _ key value => some (key, value)
  | _ => none

namespace KeyFile

/-- What a row says: the name of a group or an entry, if anything. -/
def Row.meaning : Row → Option (Text ⊕ Text × Text)
  | .header _ name => some (.inl name)
  | .line l => l.pair?.map .inr

/-- The names of the groups and their entries. -/
def content (f : KeyFile) : List (Text × List (Text × Text)) :=
  f.groups.map fun g => (g.name, g.body.filterMap KeyLine.pair?)

/-! ## Rows that mean the same -/

theorem pairs_of_meanings {rs rs' : List Row} (same : rs.map Row.meaning = rs'.map Row.meaning) :
    (assemble rs).1.filterMap KeyLine.pair? = (assemble rs').1.filterMap KeyLine.pair? ∧
      (assemble rs).2.map (fun g => (g.name, g.body.filterMap KeyLine.pair?)) =
        (assemble rs').2.map fun g => (g.name, g.body.filterMap KeyLine.pair?) := by
  induction rs generalizing rs' with
  | nil =>
    rw [List.map_nil, eq_comm, List.map_eq_nil_iff] at same
    rw [same]
    exact ⟨rfl, rfl⟩
  | cons r rs ih =>
    cases rs' with
    | nil => cases same
    | cons r' rs' =>
      obtain ⟨here, behind⟩ := List.cons.inj same
      obtain ⟨lines, groups⟩ := ih behind
      cases r with
      | header raw name =>
        cases r' with
        | header raw' name' =>
          have named : name = name' := Sum.inl.inj (Option.some.inj here)
          simp only [assemble, List.map_cons, List.filterMap_nil, named, lines, groups, and_self]
        | line l' =>
          cases paired : l'.pair? <;> simp [Row.meaning, paired] at here
      | line l =>
        cases r' with
        | header raw' name' =>
          cases paired : l.pair? <;> simp [Row.meaning, paired] at here
        | line l' =>
          have paired : l.pair? = l'.pair? := by
            cases first : l.pair? <;> cases second : l'.pair? <;>
              simp_all [Row.meaning]
          simp only [assemble, List.filterMap_cons, paired, lines, groups, and_self]

theorem content_of_meanings {f g : KeyFile}
    (same : f.rows.map Row.meaning = g.rows.map Row.meaning) : f.content = g.content := by
  have pairs := (pairs_of_meanings same).2
  rw [assemble_rows, assemble_rows] at pairs
  exact pairs

/-! ## Lookups -/

theorem lastValue?_eq (g : KeyGroup) (key : Text) : g.lastValue? key =
    ((g.body.filterMap KeyLine.pair?).reverse.find? fun pair => pair.1 = key).map Prod.snd := by
  have onList : ∀ l : List KeyLine, l.findSome? (KeyLine.valueFor? key) =
      ((l.filterMap KeyLine.pair?).find? fun pair => pair.1 = key).map Prod.snd := by
    intro l
    induction l with
    | nil => rfl
    | cons k l ih =>
      cases k with
      | blank raw => exact ih
      | comment raw => exact ih
      | entry raw own value =>
        by_cases here : own = key
        · simp [KeyLine.valueFor?, KeyLine.pair?, here]
        · simp [KeyLine.valueFor?, KeyLine.pair?, here, ih]
  unfold KeyGroup.lastValue?
  rw [onList, List.filterMap_reverse]

/-- The value of a key as it is written, with its escapes. -/
def stored? (f : KeyFile) (group key : Text) : Option Text :=
  (f.group? group).bind (KeyGroup.lastValue? key)

theorem get?_eq_stored? (f : KeyFile) (group key : Text) :
    f.get? group key = (f.stored? group key).map unescape := rfl

theorem stored?_eq (f : KeyFile) (group key : Text) : f.stored? group key =
    (f.content.find? fun g => g.1 = group).bind fun g =>
      (g.2.reverse.find? fun pair => pair.1 = key).map Prod.snd := by
  unfold stored? group? content
  rw [List.find?_map, Option.bind_map]
  congr 1
  funext g
  exact lastValue?_eq g key

theorem stored?_congr {f g : KeyFile} (same : f.content = g.content) (group key : Text) :
    f.stored? group key = g.stored? group key := by
  rw [stored?_eq, stored?_eq, same]

theorem get?_congr {f g : KeyFile} (same : f.content = g.content) (group key : Text) :
    f.get? group key = g.get? group key :=
  congrArg (Option.map unescape) (stored?_congr same group key)

/-- A group has a key where it has a value for it. -/
theorem hasKey_eq (f : KeyFile) (group key : Text) :
    f.hasKey group key = (f.get? group key).isSome := by
  have onList : ∀ l : List KeyLine, l.any (KeyLine.isFor key) =
      (l.findSome? (KeyLine.valueFor? key)).isSome := by
    intro l
    induction l with
    | nil => rfl
    | cons k l ih =>
      cases k with
      | blank raw => exact ih
      | comment raw => exact ih
      | entry raw own value =>
        by_cases here : own = key
        · simp [KeyLine.isFor, KeyLine.key?, KeyLine.valueFor?, here]
        · simp [KeyLine.isFor, KeyLine.key?, KeyLine.valueFor?, here, ih]
  unfold hasKey get?
  cases f.group? group with
  | none => rfl
  | some g =>
    simp only [Option.any_some, Option.bind_some, Option.isSome_map]
    rw [KeyGroup.hasKey, KeyGroup.lastValue?, ← onList, List.any_reverse]

/-! ## Entries at the place of a key -/

/-- The value of the last entry for a key. -/
def lastOf (k : Text) (body : List KeyLine) : Option Text :=
  body.reverse.findSome? (KeyLine.valueFor? k)

theorem lastOf_append (k : Text) (a b : List KeyLine) :
    lastOf k (a ++ b) = (lastOf k b).or (lastOf k a) := by
  rw [lastOf, List.reverse_append, List.findSome?_append]
  rfl

theorem lastOf_cons (k : Text) (l : KeyLine) (body : List KeyLine) :
    lastOf k (l :: body) = (lastOf k body).or (l.valueFor? k) := by
  have single : lastOf k [l] = l.valueFor? k := by
    unfold lastOf
    cases told : l.valueFor? k <;> simp [told]
  rw [← single]
  exact lastOf_append k [l] body

theorem lastOf_eq_none {k : Text} {body : List KeyLine} (others : ∀ l ∈ body, ¬ l.isFor k) :
    lastOf k body = none :=
  List.findSome?_eq_none_iff.mpr fun l within =>
    KeyLine.valueFor?_eq_none (others l (List.mem_reverse.mp within))

variable {f : KeyFile} {group key : Text}

theorem stored?_fileWith (p : f.Place group key) (body : List KeyLine) (k : Text) :
    (p.fileWith body).stored? group k = lastOf k body := by
  unfold stored?
  rw [p.group?_fileWith]
  rfl

theorem stored?_place (p : f.Place group key) (k : Text) :
    f.stored? group k = lastOf k p.own.body := by
  rw [← stored?_fileWith p, p.fileWith_body]

theorem get?_fileWith (p : f.Place group key) (body : List KeyLine) (k : Text) :
    (p.fileWith body).get? group k = (lastOf k body).map unescape :=
  congrArg (Option.map unescape) (stored?_fileWith p body k)

theorem get?_place (p : f.Place group key) (k : Text) :
    f.get? group k = (lastOf k p.own.body).map unescape :=
  congrArg (Option.map unescape) (stored?_place p k)

/-- No line behind the place is for the key. -/
theorem after_place (p : f.Place group key) : ∀ l ∈ p.after, ¬ l.isFor key := by
  have sets := p.sets
  generalize p.after = after at sets
  generalize p.before = before at sets
  generalize p.old = old at sets
  generalize p.own.body = body at sets
  intro l within
  cases sets with
  | upon own others => exact others l within
  | behind none own others =>
    exact fun here => others l within (KeyLine.isEntry_of_isFor here)
  | first none => exact fun here => none l within (KeyLine.isEntry_of_isFor here)

theorem old_place (p : f.Place group key) {l : KeyLine} (stands : p.old = some l) :
    l.isFor key := by
  have sets := p.sets
  rw [stands] at sets
  generalize p.own.body = body at sets
  generalize p.before = before at sets
  generalize p.after = after at sets
  cases sets with
  | upon own others => exact own

/-- The line of the key is the last one for it. -/
theorem stored?_fileWith_own (p : f.Place group key) (before : List KeyLine) (raw value : Text) :
    (p.fileWith (before ++ .entry raw key value :: p.after)).stored? group key = some value := by
  rw [stored?_fileWith, lastOf_append, lastOf_cons, lastOf_eq_none (after_place p), Option.none_or,
    KeyLine.valueFor?, if_pos rfl]
  rfl

theorem get?_fileWith_own (p : f.Place group key) (before : List KeyLine) (raw value : Text) :
    (p.fileWith (before ++ .entry raw key value :: p.after)).get? group key =
      some (unescape value) :=
  congrArg (Option.map unescape) (stored?_fileWith_own p before raw value)

/-- A line that is not for a key does not tell its value. -/
theorem stored?_fileWith_other (p : f.Place group key) {k : Text} {l : KeyLine}
    (other : ¬ l.isFor k) (apart : k ≠ key) :
    (p.fileWith (p.before ++ l :: p.after)).stored? group k = f.stored? group k := by
  have old : lastOf k p.old.toList = none := lastOf_eq_none fun l within =>
    KeyLine.isFor_other apart (old_place p (Option.mem_toList.mp within))
  rw [stored?_fileWith, stored?_place p, p.sets.body_eq, lastOf_append, lastOf_cons,
    KeyLine.valueFor?_eq_none other, Option.or_none, lastOf_append, lastOf_append, old,
    Option.none_or]

theorem get?_fileWith_other (p : f.Place group key) {k : Text} {l : KeyLine}
    (other : ¬ l.isFor k) (apart : k ≠ key) :
    (p.fileWith (p.before ++ l :: p.after)).get? group k = f.get? group k :=
  congrArg (Option.map unescape) (stored?_fileWith_other p other apart)

end KeyFile

end FileProfile
