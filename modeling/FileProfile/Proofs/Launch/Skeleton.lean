import FileProfile.Launch.Plan

/-!
Values cannot inject arguments.

What an expanded template looks like is told by the template and by which values there are
(`LaunchShape`), not by what they say: its arguments are rows of slots, each a text of the template
or the place of one value (`Argument.skeleton`). Expanding is filling the slots with the values as
they stand (`Argument.expand_eq_fill`), so that two choices of values of one shape give the same
failure, or the same arguments up to what stands in the slots (`argvOf_skeleton`).
-/

namespace FileProfile

/-- Which values there are for the field codes of a template, and the terminal to run in. -/
structure LaunchShape where
  targetCount : Nat
  hasIcon : Bool
  hasName : Bool
  hasDesktopFile : Bool
  terminal : Bool
  terminalCommand : Option (List Text)
deriving DecidableEq, Repr

/-- The command in front of the arguments, where there is one. -/
def LaunchShape.terminalPart (shape : LaunchShape) : List Text :=
  if shape.terminal then shape.terminalCommand.getD defaultTerminalCommand else []

/-- Whether a value is present and not empty. -/
def LaunchValues.isGiven (value : Option Text) : Bool := value.any fun v => v ≠ []

def LaunchValues.shape (values : LaunchValues) : LaunchShape where
  targetCount := values.targets.length
  hasIcon := isGiven values.icon
  hasName := isGiven values.name
  hasDesktopFile := isGiven values.desktopFile
  terminal := values.terminal
  terminalCommand := values.terminalCommand

namespace Template

/-! ## Slots -/

/-- A part of an expanded argument: a text of the template, or the place of a value. -/
inductive Slot where
  | literal (text : Text)
  | targetPath (i : Nat)
  | targetUri (i : Nat)
  | icon
  | name
  | desktopFile
deriving DecidableEq, Repr

/-- Whether values of a shape have one for the slot. -/
def Slot.IsGiven (shape : LaunchShape) : Slot → Prop
  | .literal _ => True
  | .targetPath i | .targetUri i => i < shape.targetCount
  | .icon => shape.hasIcon
  | .name => shape.hasName
  | .desktopFile => shape.hasDesktopFile

/-- What stands in a slot: a value as it is. -/
def Slot.fill (values : LaunchValues) : Slot → Text
  | .literal text => text
  | .targetPath i => ((values.targets[i]?).map LaunchTarget.path).getD []
  | .targetUri i => ((values.targets[i]?).map LaunchTarget.uri).getD []
  | .icon => values.icon.getD []
  | .name => values.name.getD []
  | .desktopFile => values.desktopFile.getD []

/-- The argument that a row of slots stands for. -/
def fill (values : LaunchValues) (slots : List Slot) : Text := slots.flatMap (Slot.fill values)

/-- The arguments of a field code alone, one row of slots each. -/
def FieldCode.skeleton (shape : LaunchShape) : FieldCode → List (List Slot)
  | .path => ((List.range shape.targetCount).map fun i => [.targetPath i]).take 1
  | .paths => (List.range shape.targetCount).map fun i => [.targetPath i]
  | .uri => ((List.range shape.targetCount).map fun i => [.targetUri i]).take 1
  | .uris => (List.range shape.targetCount).map fun i => [.targetUri i]
  | .icon => if shape.hasIcon then [[.literal "--icon"], [.icon]] else []
  | .name => if shape.hasName then [[.name]] else []
  | .desktopFile => if shape.hasDesktopFile then [[.desktopFile]] else []
  | .deprecated => []

/-- The slots of a part of an argument. -/
def Piece.slots (shape : LaunchShape) : Piece → List Slot
  | .unit u => [.literal [u]]
  | .field code => List.intercalate [.literal " "] (code.skeleton shape)

/-- The arguments that an argument of a template expands to, one row of slots each. -/
def Argument.skeleton (shape : LaunchShape) : Argument → List (List Slot)
  | .alone code => code.skeleton shape
  | .pieces ps => [ps.flatMap (Piece.slots shape)]

/-! ## Filling -/

variable {values : LaunchValues} {shape : LaunchShape}

theorem fill_singleton (values : LaunchValues) (slot : Slot) :
    fill values [slot] = slot.fill values := by
  simp [fill]

theorem fill_intercalate (values : LaunchValues) (gap : Text) (rows : List (List Slot)) :
    fill values (List.intercalate [.literal gap] rows) =
      Text.join gap (rows.map (fill values)) := by
  unfold Text.join
  induction rows with
  | nil => rfl
  | cons row rows ih =>
    cases rows with
    | nil => simp
    | cons next rows =>
      rw [List.intercalate_cons_cons, List.map_cons, List.map_cons, List.intercalate_cons_cons,
        ← List.map_cons, ← ih]
      simp [fill, Slot.fill]

/-- The values of a list, each filled into a slot of its own. -/
theorem map_eq_fill {α : Type} (values : LaunchValues) (xs : List α) (f : α → Text)
    (slot : Nat → Slot) (fills : ∀ i, (slot i).fill values = ((xs[i]?).map f).getD []) :
    xs.map f = ((List.range xs.length).map fun i => [slot i]).map (fill values) := by
  refine List.ext_getElem (by simp) fun i inside _ => ?_
  have bound : i < xs.length := by simpa using inside
  simp [fill_singleton, fills, bound]

theorem whenGiven_eq_fill (value : Option Text) (arguments : Text → List Text)
    (rows : List (List Slot)) (fills : arguments (value.getD []) = rows.map (fill values)) :
    whenGiven value arguments =
      (if LaunchValues.isGiven value then rows else []).map (fill values) := by
  cases value with
  | none => rfl
  | some v =>
    by_cases blank : v = []
    · simp [whenGiven, LaunchValues.isGiven, blank]
    · simpa [whenGiven, LaunchValues.isGiven, blank] using fills

theorem FieldCode.arguments_eq_fill (values : LaunchValues) (code : FieldCode) :
    code.arguments values = (code.skeleton values.shape).map (fill values) := by
  have paths := map_eq_fill values values.targets LaunchTarget.path .targetPath
    fun _ => rfl
  have uris := map_eq_fill values values.targets LaunchTarget.uri .targetUri
    fun _ => rfl
  have first (f : LaunchTarget → Text) :
      (values.targets.head?.map f).toList = (values.targets.map f).take 1 := by
    cases values.targets <;> rfl
  cases code with
  | path => rw [arguments, first, paths, ← List.map_take]; rfl
  | paths => exact paths
  | uri => rw [arguments, first, uris, ← List.map_take]; rfl
  | uris => exact uris
  | icon =>
    exact whenGiven_eq_fill values.icon _ [[.literal "--icon"], [.icon]]
      (by simp [fill_singleton, Slot.fill])
  | name => exact whenGiven_eq_fill values.name _ [[.name]] (by simp [fill_singleton, Slot.fill])
  | desktopFile =>
    exact whenGiven_eq_fill values.desktopFile _ [[.desktopFile]]
      (by simp [fill_singleton, Slot.fill])
  | deprecated => rfl

theorem Piece.expand_eq_fill (values : LaunchValues) (piece : Piece) :
    piece.expand values = fill values (piece.slots values.shape) := by
  cases piece with
  | unit u => rfl
  | field code =>
    rw [expand, FieldCode.text, FieldCode.arguments_eq_fill, slots, fill_intercalate]

theorem Argument.expand_eq_fill (values : LaunchValues) (argument : Argument) :
    argument.expand values = (argument.skeleton values.shape).map (fill values) := by
  cases argument with
  | alone code => exact FieldCode.arguments_eq_fill values code
  | pieces ps =>
    have parts : ps.flatMap (Piece.expand values) =
        fill values (ps.flatMap (Piece.slots values.shape)) := by
      rw [fill, List.flatMap_assoc]
      exact congrArg (ps.flatMap ·) (funext (Piece.expand_eq_fill values))
    rw [expand, skeleton, parts, List.map_singleton]

/-! ## Slots are for values that there are -/

theorem FieldCode.isGiven_of_mem_skeleton {code : FieldCode} {row : List Slot} {slot : Slot}
    (listed : row ∈ code.skeleton shape) (within : slot ∈ row) : slot.IsGiven shape := by
  have ranged {slotAt : Nat → Slot}
      (listed : row ∈ (List.range shape.targetCount).map fun i => [slotAt i]) :
      ∃ i, i < shape.targetCount ∧ slot = slotAt i := by
    obtain ⟨i, inside, rfl⟩ := List.mem_map.mp listed
    exact ⟨i, List.mem_range.mp inside, List.mem_singleton.mp within⟩
  cases code with
  | path =>
    obtain ⟨i, inside, rfl⟩ := ranged (List.mem_of_mem_take listed)
    exact inside
  | paths =>
    obtain ⟨i, inside, rfl⟩ := ranged listed
    exact inside
  | uri =>
    obtain ⟨i, inside, rfl⟩ := ranged (List.mem_of_mem_take listed)
    exact inside
  | uris =>
    obtain ⟨i, inside, rfl⟩ := ranged listed
    exact inside
  | icon =>
    obtain ⟨given, listed⟩ := List.mem_ite_nil_right.mp listed
    rcases List.mem_cons.mp listed with rfl | rest
    · rw [List.mem_singleton.mp within]
      trivial
    · rw [List.mem_singleton.mp rest] at within
      rw [List.mem_singleton.mp within]
      exact given
  | name =>
    obtain ⟨given, listed⟩ := List.mem_ite_nil_right.mp listed
    rw [List.mem_singleton.mp listed] at within
    rw [List.mem_singleton.mp within]
    exact given
  | desktopFile =>
    obtain ⟨given, listed⟩ := List.mem_ite_nil_right.mp listed
    rw [List.mem_singleton.mp listed] at within
    rw [List.mem_singleton.mp within]
    exact given
  | deprecated => exact absurd listed List.not_mem_nil

theorem mem_intercalate {gap slot : Slot} {rows : List (List Slot)}
    (within : slot ∈ List.intercalate [gap] rows) : slot = gap ∨ ∃ row ∈ rows, slot ∈ row := by
  induction rows with
  | nil => exact absurd within (by simp)
  | cons row rows ih =>
    cases rows with
    | nil => exact .inr ⟨row, List.mem_cons_self, by simpa using within⟩
    | cons next rows =>
      rw [List.intercalate_cons_cons, List.append_assoc] at within
      rcases List.mem_append.mp within with here | rest
      · exact .inr ⟨row, List.mem_cons_self, here⟩
      · rcases List.mem_append.mp rest with between | later
        · exact .inl (List.mem_singleton.mp between)
        · rcases ih later with between | ⟨other, listed, inside⟩
          · exact .inl between
          · exact .inr ⟨other, List.mem_cons_of_mem _ listed, inside⟩

theorem Argument.isGiven_of_mem_skeleton {argument : Argument} {row : List Slot} {slot : Slot}
    (listed : row ∈ argument.skeleton shape) (within : slot ∈ row) : slot.IsGiven shape := by
  cases argument with
  | alone code => exact FieldCode.isGiven_of_mem_skeleton listed within
  | pieces ps =>
    rw [List.mem_singleton.mp listed, List.mem_flatMap] at within
    obtain ⟨piece, -, inside⟩ := within
    cases piece with
    | unit u =>
      rw [List.mem_singleton.mp inside]
      trivial
    | field code =>
      rcases mem_intercalate inside with rfl | ⟨other, listed, inside⟩
      · trivial
      · exact FieldCode.isGiven_of_mem_skeleton listed inside

/-! ## Templates -/

/-- Expanding a template that parses fails only where nothing is left. -/
theorem expand_of_parse {template : Text} {arguments : List Argument}
    (parses : parse template = .ok arguments) (values : LaunchValues) :
    expand template values =
      if arguments.flatMap (Argument.expand values) = [] then .error .emptyCommand
      else .ok (terminalPart values ++ arguments.flatMap (Argument.expand values)) := by
  unfold expand
  rw [parses]
  simp only [bind, Except.bind]
  split <;> rfl

/-- Expanding fills the skeleton of the template. -/
theorem expand_eq_fill {template : Text} {arguments : List Argument}
    (parses : parse template = .ok arguments) (values : LaunchValues) :
    let rows := arguments.flatMap (Argument.skeleton values.shape)
    expand template values = if rows = [] then .error .emptyCommand
      else .ok (values.shape.terminalPart ++ rows.map (fill values)) := by
  intro rows
  have filled : arguments.flatMap (Argument.expand values) = rows.map (fill values) := by
    rw [List.map_flatMap]
    exact congrArg (arguments.flatMap ·) (funext (Argument.expand_eq_fill values))
  rw [expand_of_parse parses, filled]
  by_cases none : rows = []
  · simp [none]
  · rw [if_neg none, if_neg (by simpa using none)]
    rfl

/-- For values of one shape a template either always fails, with one message, or always expands to
the same rows of slots, each filled with the value that it is for. -/
theorem argvOf_skeleton (template : Text) (shape : LaunchShape) :
    (∃ message, ∀ values : LaunchValues, values.shape = shape →
      LaunchPlan.argvOf template values = .error (.template message template)) ∨
    (∃ rows : List (List Slot), (∀ row ∈ rows, ∀ slot ∈ row, slot.IsGiven shape) ∧
      ∀ values : LaunchValues, values.shape = shape →
        LaunchPlan.argvOf template values =
          .ok (shape.terminalPart ++ rows.map (fill values))) := by
  cases parses : parse template with
  | error fault =>
    refine .inl ⟨fault.message, fun values _ => ?_⟩
    have fails : expand template values = .error fault := by
      rw [expand, parses]
      rfl
    rw [LaunchPlan.argvOf, fails]
    rfl
  | ok arguments =>
    by_cases none : arguments.flatMap (Argument.skeleton shape) = []
    · refine .inl ⟨Fault.emptyCommand.message, fun values same => ?_⟩
      rw [LaunchPlan.argvOf, expand_eq_fill parses, same, if_pos none]
      rfl
    · refine .inr ⟨arguments.flatMap (Argument.skeleton shape), fun row listed slot within => ?_,
        fun values same => ?_⟩
      · obtain ⟨argument, -, listed⟩ := List.mem_flatMap.mp listed
        exact Argument.isGiven_of_mem_skeleton listed within
      · rw [LaunchPlan.argvOf, expand_eq_fill parses, same, if_neg none]
        rfl

/-- A file to open under a title. -/
def titled (title : Text) : LaunchValues where
  targets := [⟨"/a", "file:///a"⟩]
  name := some title

/-- A title that quotes, escapes and names field codes fills the same slots as any other. -/
theorem argvOf_skeleton_title : ∃ rows : List (List Slot),
    LaunchPlan.argvOf "app --title=%c %F" (titled "A") = .ok (rows.map (fill (titled "A"))) ∧
    LaunchPlan.argvOf "app --title=%c %F" (titled "A' \"%F\\") =
      .ok (rows.map (fill (titled "A' \"%F\\"))) := by
  have expands : LaunchPlan.argvOf "app --title=%c %F" (titled "A") =
    .ok ["app", "--title=A", "/a"] := by rfl
  rcases argvOf_skeleton "app --title=%c %F" (titled "A").shape with
    ⟨message, fails⟩ | ⟨rows, -, fills⟩
  · rw [fails _ rfl] at expands
    cases expands
  · exact ⟨rows, fills _ rfl, fills _ rfl⟩

end Template

end FileProfile
