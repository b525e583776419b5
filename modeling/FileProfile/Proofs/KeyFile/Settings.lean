import FileProfile.Proofs.KeyFile.Legible
import FileProfile.Proofs.KeyFile.Outline

/-!
What is read of a key file in which any number of keys has been set.

`parse_setAll_keeps_outline`: the file that is written can be read, and has the groups and keys that
were set, whatever the values are. `parse_setAll_get?_iff`: a value that was set is read again just
in case it does not begin with a blank that has no escape, and any other value unless a line feed
that has been written behind it takes the carriage return at its end.
-/

namespace FileProfile

namespace KeyFile

open Text (carriageReturn lineFeed)

/-- A key file that no key has been set in: one that has been read, or the one without lines. -/
inductive Made : KeyFile → Prop where
  | read {t : Text} {f : KeyFile} : parse t = .ok f → Made f
  | empty : Made .empty

/-- A value to be set. -/
structure Setting where
  group : Text
  key : Text
  value : Text

namespace Setting

/-- Where the value goes. -/
def target (s : Setting) : Text × Text := (s.group, s.key)

/-- The group and the key stay on their lines and show what they are; the value may be anything. -/
structure IsValid (s : Setting) : Prop where
  isGroup : IsGroup s.group
  group_feedless : lineFeed ∉ s.group
  isKey : IsKey s.key
  key_feedless : lineFeed ∉ s.key

instance (s : Setting) : Decidable s.IsValid :=
  decidable_of_iff (IsGroup s.group ∧ lineFeed ∉ s.group ∧ IsKey s.key ∧ lineFeed ∉ s.key)
    ⟨fun ⟨isGroup, named, isKey, keyed⟩ => ⟨isGroup, named, isKey, keyed⟩,
      fun valid => ⟨valid.isGroup, valid.group_feedless, valid.isKey, valid.key_feedless⟩⟩

end Setting

/-- Sets one value after another. -/
def setAll (f : KeyFile) (ss : List Setting) : KeyFile :=
  ss.foldl (fun f s => f.set s.group s.key s.value) f

/-- The value that is set last for a key. -/
def lastSet? (ss : List Setting) (group key : Text) : Option Text :=
  (ss.reverse.find? fun s => s.target = (group, key)).map Setting.value

/-- The value of a key ends in a carriage return, and so does its line, which a line feed is written
behind. -/
def LosesReturn (f : KeyFile) (group key : Text) : Prop :=
  f.TakesReturns ∧ ∃ w, f.stored? group key = some (w ++ [carriageReturn])

variable {f : KeyFile} {ss : List Setting}

/-! ## What setting keeps -/

theorem Made.legible (made : Made f) : Legible f := by
  cases made with
  | read parses => exact legible_of_parse parses
  | empty => exact legible_empty

theorem Legible.setAll (legible : Legible f) (valid : ∀ s ∈ ss, s.IsValid) :
    Legible (f.setAll ss) := by
  induction ss generalizing f with
  | nil => exact legible
  | cons s rest ih =>
    have own := valid s List.mem_cons_self
    exact ih (legible.set own.isGroup own.group_feedless own.isKey own.key_feedless s.value)
      fun s' within => valid s' (List.mem_cons_of_mem _ within)

theorem lastSet?_cons (s : Setting) (rest : List Setting) (group key : Text) :
    lastSet? (s :: rest) group key =
      (lastSet? rest group key).or (if s.target = (group, key) then some s.value else none) := by
  unfold lastSet?
  rw [List.reverse_cons, List.find?_append, Option.map_or]
  congr 1
  by_cases own : s.target = (group, key) <;> simp [own]

/-- The value of a key is what was set last, or what it was before. -/
theorem stored?_setAll (f : KeyFile) (ss : List Setting) (group key : Text) :
    (f.setAll ss).stored? group key =
      ((lastSet? ss group key).map escape).or (f.stored? group key) := by
  induction ss generalizing f with
  | nil => rfl
  | cons s rest ih =>
    have step : f.setAll (s :: rest) = (f.set s.group s.key s.value).setAll rest := rfl
    have same : (group = s.group ∧ key = s.key) ↔ s.target = (group, key) := by
      rw [Setting.target, Prod.mk.injEq, eq_comm, eq_comm (a := key)]
    rw [step, ih, stored?_set, lastSet?_cons, Option.map_or, Option.or_assoc]
    simp only [same]
    congr 1
    split <;> rfl

theorem get?_setAll (f : KeyFile) (ss : List Setting) (group key : Text) :
    (f.setAll ss).get? group key = (lastSet? ss group key).or (f.get? group key) := by
  rw [get?_eq_stored?, stored?_setAll, Option.map_or, Option.map_map]
  have undone : unescape ∘ escape = id := funext unescape_escape
  rw [undone, Option.map_id_fun, id]
  rfl

/-- Values have no part in which groups and keys there are. -/
theorem outline_setAll (f : KeyFile) (ss : List Setting) : (f.setAll ss).outline =
    (ss.map Setting.target).foldl (fun o p => addKey p.1 p.2 o) f.outline := by
  induction ss generalizing f with
  | nil => rfl
  | cons s rest ih =>
    have step : f.setAll (s :: rest) = (f.set s.group s.key s.value).setAll rest := rfl
    rw [step, ih, outline_set]
    rfl

/-! ## Other values -/

theorem content_withValues (change : Text → Text) (f : KeyFile) :
    (f.withValues change).content =
      f.content.map fun g => (g.1, g.2.map fun p => (p.1, change p.2)) := by
  have pair : ∀ l : KeyLine, (l.withValue change).pair? =
      l.pair?.map fun p => (p.1, change p.2) := fun l => by cases l <;> rfl
  unfold content withValues
  rw [List.map_map, List.map_map]
  refine List.map_congr_left fun g _ => ?_
  simp only [Function.comp_apply, List.filterMap_map, List.map_filterMap]
  exact congrArg (fun told => (g.name, g.body.filterMap told)) (funext pair)

theorem outline_withValues (change : Text → Text) (f : KeyFile) :
    (f.withValues change).outline = f.outline := by
  rw [outline_eq, outline_eq, content_withValues, List.map_map]
  refine List.map_congr_left fun g _ => ?_
  rw [Function.comp_apply, List.map_map]
  rfl

theorem stored?_withValues (change : Text → Text) (f : KeyFile) (group key : Text) :
    (f.withValues change).stored? group key = (f.stored? group key).map change := by
  rw [stored?_eq, stored?_eq, content_withValues, List.find?_map, Option.bind_map,
    Option.map_bind]
  congr 1
  funext g
  simp only [Function.comp_apply, ← List.map_reverse, List.find?_map, Option.map_map]
  rfl

/-! ## Groups and keys -/

/-- Values cannot inject structure: what has been set can be read again with the groups and the keys
that it has in memory, and these are the same for all values. -/
theorem parse_setAll_keeps_outline (made : Made f) (valid : ∀ s ∈ ss, s.IsValid) :
    (∃ g, parse (f.setAll ss).text = .ok g ∧ g.groupNames = (f.setAll ss).groupNames ∧
      ∀ group, g.keys group = (f.setAll ss).keys group) ∧
    ∀ ss', ss'.map Setting.target = ss.map Setting.target →
      (f.setAll ss').groupNames = (f.setAll ss).groupNames ∧
        ∀ group, (f.setAll ss').keys group = (f.setAll ss).keys group := by
  have told : ∀ {f g : KeyFile}, f.outline = g.outline → f.groupNames = g.groupNames ∧
      ∀ group, f.keys group = g.keys group := fun same =>
    ⟨by rw [groupNames_eq, groupNames_eq, same], keys_congr same⟩
  constructor
  · obtain ⟨g, parses, same⟩ := (made.legible.setAll valid).exists_parse
    refine ⟨g, parses, told ?_⟩
    rw [outline_eq, same, ← outline_eq, outline_withValues]
  · intro ss' alike
    refine told ?_
    rw [outline_setAll, outline_setAll, alike]

/-- Values that look like lines of a key file. -/
def intruders : List Setting := [⟨"G", "K", "\n[H]\nX=1\r\n#"⟩, ⟨"G", "L", "]\r"⟩]

theorem parse_setAll_keeps_outline_lineBreaks :
    Made empty ∧ (∀ s ∈ intruders, s.IsValid) ∧ ∃ g, parse (empty.setAll intruders).text = .ok g ∧
      g.groupNames = (["G"] : List Text) ∧ g.keys "G" = (["K", "L"] : List Text) := by
  have valid : ∀ s ∈ intruders, s.IsValid := by decide
  obtain ⟨⟨g, parses, names, keys⟩, -⟩ := parse_setAll_keeps_outline .empty valid
  refine ⟨.empty, valid, g, parses, names.trans ?_, (keys "G").trans ?_⟩ <;> decide +kernel

/-! ## Values -/

/-- No blanks stand in front of a value that has not been set. -/
theorem Made.trimStart_stored? (made : Made f) {group key w : Text}
    (stored : f.stored? group key = some w) : Text.trimStart w = w := by
  cases made with
  | empty => cases stored
  | read parses =>
    obtain ⟨g, found, told⟩ := Option.bind_eq_some_iff.mp stored
    obtain ⟨l, within, value⟩ := List.exists_of_findSome?_eq_some told
    obtain ⟨raw, rfl⟩ : ∃ raw, l = .entry raw key w := by
      cases l with
      | blank raw => cases value
      | comment raw => cases value
      | entry raw k v =>
        rw [KeyLine.valueFor?] at value
        split at value
        next same => exact ⟨raw, by rw [same, Option.some.inj value]⟩
        · cases value
    have inside := line_mem_rows (List.mem_of_find?_eq_some found) (List.mem_reverse.mp within)
    obtain ⟨-, b, reads⟩ := exists_readRow_of_mem (parse_eq_ok.mp parses).1 inside
    have same := withValue_trimStart_of_readRow reads
    rw [Row.withValue, KeyLine.withValue, Row.line.injEq, KeyLine.entry.injEq] at same
    exact same.2.2

/-- An escaped value ends in no carriage return, whatever is taken off in front of it. -/
theorem keeps_trimStart_escape (f : KeyFile) (value : Text) :
    f.keeps (Text.trimStart (escape value)) = Text.trimStart (escape value) := by
  have none : carriageReturn ∉ escape value := not_mem_escape (by decide) value
  unfold keeps
  split
  · refine stripReturn_eq_self fun returned => none ?_
    exact (List.dropWhile_suffix _).subset (List.mem_of_getLast? returned)
  · rfl

theorem unescape_keeps_iff (f : KeyFile) (w : Text) :
    unescape (f.keeps w) = unescape w ↔ ¬ (f.TakesReturns ∧ ∃ v, w = v ++ [carriageReturn]) := by
  unfold keeps
  by_cases takes : f.TakesReturns
  · rw [if_pos takes]
    by_cases returned : w.getLast? = some carriageReturn
    · obtain ⟨v, rfl⟩ := List.getLast?_eq_some_iff.mp returned
      rw [stripReturn, if_pos returned, List.dropLast_concat, unescape_append_return]
      simp [takes]
    · rw [stripReturn_eq_self returned]
      refine iff_of_true rfl ?_
      rintro ⟨-, v, rfl⟩
      exact returned List.getLast?_concat
  · rw [if_neg takes]
    exact iff_of_true rfl fun both => takes both.1

/-- What was set is what a reader of the written file gets, but for values that begin with a blank
without escape and for a carriage return that a line feed has come to stand behind. -/
theorem parse_setAll_get?_iff (made : Made f) (valid : ∀ s ∈ ss, s.IsValid) :
    ∃ g, parse (f.setAll ss).text = .ok g ∧ ∀ group key,
      (f.setAll ss).get? group key = (lastSet? ss group key).or (f.get? group key) ∧
      (g.get? group key = (f.setAll ss).get? group key ↔
        match lastSet? ss group key with
        | some value => escapesFirst value
        | none => ¬ (f.setAll ss).LosesReturn group key) := by
  obtain ⟨g, parses, same⟩ := (made.legible.setAll valid).exists_parse
  refine ⟨g, parses, fun group key => ⟨get?_setAll f ss group key, ?_⟩⟩
  have stored := stored?_setAll f ss group key
  rw [get?_eq_stored?, get?_eq_stored?, stored?_congr same, stored?_withValues, Option.map_map]
  cases set : lastSet? ss group key with
  | some value =>
    rw [set, Option.map_some, Option.some_or] at stored
    -- What was set ends in no carriage return, so only the blanks in front of it can be lost.
    rw [stored, Option.map_some, Option.map_some, Option.some.injEq, Function.comp_apply,
      Function.comp_apply, keeps_trimStart_escape, unescape_escape]
    refine ⟨fun back => Decidable.byContradiction fun bare => ?_, fun escapes => ?_⟩
    · exact unescape_trimStart_escape bare back
    · rw [trimStart_escape escapes, unescape_escape]
  | none =>
    rw [set, Option.map_none, Option.none_or] at stored
    unfold LosesReturn
    rw [stored]
    cases old : f.stored? group key with
    | none => simp
    | some w =>
      rw [Option.map_some, Option.map_some, Option.some.injEq, Function.comp_apply,
        Function.comp_apply, made.trimStart_stored? old, unescape_keeps_iff]
      simp only [Option.some.injEq]

/-- A no-break space in front of a value is lost. -/
theorem parse_setAll_get?_noBreakSpace : Made empty ∧
    (∀ s ∈ ([⟨"G", "K", 0xA0 :: "x"⟩] : List Setting), s.IsValid) ∧
    ∃ g, parse (empty.setAll [⟨"G", "K", 0xA0 :: "x"⟩]).text = .ok g ∧
      g.get? "G" "K" ≠ (empty.setAll [⟨"G", "K", 0xA0 :: "x"⟩]).get? "G" "K" := by
  have valid : ∀ s ∈ ([⟨"G", "K", 0xA0 :: "x"⟩] : List Setting), s.IsValid := by decide
  obtain ⟨g, parses, told⟩ := parse_setAll_get?_iff .empty valid
  refine ⟨.empty, valid, g, parses, fun back => ?_⟩
  have escapes : escapesFirst (0xA0 :: "x") := (told "G" "K").2.mp back
  exact absurd escapes (by decide +kernel)

end KeyFile

end FileProfile
