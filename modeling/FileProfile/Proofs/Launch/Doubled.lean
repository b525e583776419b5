import FileProfile.Launch.Template

/-!
Texts with doubled percent signs.

A word of a template whose percent signs are doubled holds no field code. It is read as the units of
the text, and is the only word that is (`pieces_eq_units_iff`), so that it expands to the text
itself whatever the values are, and leaves the words around it as they are (`expand_doubled`).
-/

namespace FileProfile

namespace Template

/-! ## Doubled percent signs -/

/-- A text with its percent signs doubled. -/
def doubled (t : Text) : Text := Text.replaceUnit percent "%%" t

theorem doubled_append (a b : Text) : doubled (a ++ b) = doubled a ++ doubled b :=
  List.flatMap_append

theorem doubled_percent (t : Text) :
    doubled (percent :: t) = percent :: percent :: doubled t := by
  simp only [doubled, Text.replaceUnit, List.flatMap_cons, if_pos]
  rfl

theorem doubled_other {u : CodeUnit} (other : u ≠ percent) (t : Text) :
    doubled (u :: t) = u :: doubled t := by
  simp [doubled, Text.replaceUnit, other]

theorem doubled_concat {u : CodeUnit} (other : u ≠ percent) (t : Text) :
    doubled (t ++ [u]) = doubled t ++ [u] := by
  rw [doubled_append, doubled_other other]
  rfl

theorem head?_doubled (t : Text) : (doubled t).head? = t.head? := by
  cases t with
  | nil => rfl
  | cons u t =>
    by_cases sign : u = percent
    · rw [sign, doubled_percent]
      rfl
    · rw [doubled_other sign]
      rfl

/-! ## Expanding -/

theorem pieces_cons {u : CodeUnit} (other : u ≠ percent) (t : Text) :
    pieces (u :: t) = (pieces t).map (.unit u :: ·) := by
  cases t with
  | nil => simp [pieces, other, Except.map]
  | cons v t => rw [pieces, if_neg other]

/-- The pieces of a text with doubled percent signs are the units of the text. -/
theorem pieces_doubled (t : Text) : pieces (doubled t) = .ok (t.map .unit) := by
  induction t with
  | nil => rfl
  | cons u t ih =>
    by_cases sign : u = percent
    · rw [sign, doubled_percent, pieces, if_pos rfl, if_pos rfl, ih]
      rfl
    · rw [doubled_other sign, pieces_cons sign, ih]
      rfl

theorem standalone?_doubled (t : Text) : standalone? (doubled t) = none := by
  cases t with
  | nil => rfl
  | cons u t =>
    by_cases sign : u = percent
    · rw [sign, doubled_percent]
      cases doubled t with
      | nil => decide
      | cons v t => rfl
    · rw [doubled_other sign]
      match doubled t with
      | [] => rfl
      | [v] => exact if_neg sign
      | _ :: _ :: _ => rfl

theorem argument_doubled (t : Text) : argument (doubled t) = .ok (.pieces (t.map .unit)) := by
  rw [argument, standalone?_doubled, pieces_doubled]
  rfl

theorem expand_units (t : Text) (values : LaunchValues) :
    (Argument.pieces (t.map .unit)).expand values = [t] := by
  simp [Argument.expand, List.flatMap_map, Piece.expand]

/-- Pieces that are all units begin with the unit that was read first. -/
theorem exists_of_map_eq_units {u : CodeUnit} {t : Text} {read : Except Fault (List Piece)}
    (units : read.map (.unit u :: ·) = .ok (t.map .unit)) :
    ∃ rest, t = u :: rest ∧ read = .ok (rest.map .unit) := by
  cases read with
  | error fault => cases units
  | ok ps =>
    cases t with
    | nil => cases units
    | cons v rest =>
      obtain ⟨first, others⟩ := List.cons.inj (Except.ok.inj units)
      obtain rfl := Piece.unit.inj first
      exact ⟨rest, rfl, by rw [others]⟩

/-- The only word that is read as the units of a text is the text with doubled percent signs. -/
theorem pieces_eq_units_iff {word t : Text} :
    pieces word = .ok (t.map .unit) ↔ word = doubled t := by
  refine ⟨fun units => ?_, fun own => own ▸ pieces_doubled t⟩
  fun_induction pieces word generalizing t with
  | case1 =>
    cases t with
    | nil => rfl
    | cons v rest => cases units
  | case2 => cases units
  | case3 u other =>
    obtain ⟨rest, rfl, none⟩ := @exists_of_map_eq_units u t (.ok []) units
    obtain rfl := List.map_eq_nil_iff.mp (Except.ok.inj none).symm
    exact (doubled_other other []).symm
  | case4 rest ih =>
    obtain ⟨t, rfl, read⟩ := exists_of_map_eq_units units
    rw [doubled_percent, ← ih read]
  | case5 _ rest =>
    -- A field code is no unit.
    cases read : pieces rest with
    | error fault =>
      rw [read] at units
      cases units
    | ok ps =>
      rw [read] at units
      cases t with
      | nil => cases units
      | cons v more => cases (List.cons.inj (Except.ok.inj units)).1
  | case6 => cases units
  | case7 u v rest other ih =>
    obtain ⟨t, rfl, read⟩ := exists_of_map_eq_units units
    rw [doubled_other other, ← ih read]

/-! ## Words of a template -/

/-- What words expand to, one after the other. -/
def expandWords (values : LaunchValues) (words : List Text) : Except Fault (List Text) :=
  (arguments words).map fun parts => parts.flatMap (Argument.expand values)

theorem expandWords_nil (values : LaunchValues) : expandWords values [] = .ok [] := rfl

theorem expandWords_cons (values : LaunchValues) (word : Text) (others : List Text) :
    expandWords values (word :: others) = do
      let first ← (argument word).map (Argument.expand values)
      let rest ← expandWords values others
      return first ++ rest := by
  unfold expandWords
  rw [arguments]
  cases argument word with
  | error fault => rfl
  | ok first => cases arguments others <;> rfl

theorem expandWords_append (values : LaunchValues) (front back : List Text) :
    expandWords values (front ++ back) = do
      let first ← expandWords values front
      let rest ← expandWords values back
      return first ++ rest := by
  induction front with
  | nil =>
    rw [List.nil_append, expandWords_nil]
    cases expandWords values back <;> rfl
  | cons word front ih =>
    rw [List.cons_append, expandWords_cons, expandWords_cons, ih]
    cases argument word with
    | error fault => rfl
    | ok argument =>
      cases expandWords values front with
      | error fault => rfl
      | ok first =>
        cases expandWords values back with
        | error fault => rfl
        | ok rest => exact congrArg Except.ok (List.append_assoc ..).symm

theorem expand_of_split {template : Text} {words : List Text}
    (splits : Words.split template = .ok words) (values : LaunchValues) :
    expand template values = do
      let argv ← expandWords values words
      if argv = [] then throw .emptyCommand
      return terminalPart values ++ argv := by
  have parses : parse template = arguments words := by rw [parse, splits]
  rw [expand, parses]
  unfold expandWords
  cases arguments words with
  | error fault => rfl
  | ok parts => rfl

/-- A word whose percent signs are doubled holds no field code, alone or inside. It expands to the
text itself, which stands between what the words in front of it and behind it expand to. -/
theorem expand_doubled (t : Text) (values : LaunchValues) :
    standalone? (doubled t) = none ∧
    (∀ word, pieces word = .ok (t.map .unit) ↔ word = doubled t) ∧
    (argument (doubled t)).map (Argument.expand values) = .ok [t] ∧
    ∀ (template : Text) (front back : List Text),
      Words.split template = .ok (front ++ doubled t :: back) →
      expand template values = do
        let first ← expandWords values front
        let rest ← expandWords values back
        return terminalPart values ++ (first ++ t :: rest) := by
  have alone : (argument (doubled t)).map (Argument.expand values) = .ok [t] := by
    rw [argument_doubled]
    exact congrArg Except.ok (expand_units t values)
  refine ⟨standalone?_doubled t, fun word => pieces_eq_units_iff, alone, ?_⟩
  intro template front back splits
  rw [expand_of_split splits, expandWords_append, expandWords_cons, alone]
  cases expandWords values front with
  | error fault => rfl
  | ok first =>
    cases expandWords values back with
    | error fault => rfl
    | ok rest => exact if_neg (List.append_ne_nil_of_right_ne_nil first (List.cons_ne_nil t rest))

/-- A field code, quoted and with its percent sign doubled, stands among others. -/
theorem expand_doubled_quoted : Words.split "app '%%F' %F" = .ok ["app", doubled "%F", "%F"] ∧
    expand "app '%%F' %F" { targets := [⟨"/a", "file:///a"⟩] } = .ok ["app", "%F", "/a"] := by
  have splits : Words.split "app '%%F' %F" = .ok ["app", doubled "%F", "%F"] := by rfl
  obtain ⟨-, -, -, between⟩ := expand_doubled "%F" { targets := [⟨"/a", "file:///a"⟩] }
  exact ⟨splits, between _ ["app"] ["%F"] splits⟩

end Template

end FileProfile
