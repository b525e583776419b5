import FileProfile.Launch.Words

/-!
How the scanner of command templates gets from state to state.

`Scanner.Leads` says that a text takes the scanner from one state to another and ends no word on the
way, whatever comes behind it. Texts are read unit by unit (`leads_of_step`) and put together by
`Leads.trans`: units that mean nothing special are kept (`leads_plain`, `leads_within`), a mark
opens a quotation and the same mark closes it (`leads_open`, `leads_close`). Closing a double
quotation resolves the escapes of the whole word, also of what stands before the quotation; it takes
a unit away for each (`length_resolveDoubled_lt`) and leaves a word without escapes as it is
(`resolveDoubled_eq_self`).
-/

namespace FileProfile

namespace Words

/-! ## Escapes of double quotations -/

/-- Units that a backslash makes literal in a double quotation. -/
def IsEscaped (u : CodeUnit) : Prop := u = backslash ∨ u = doubleQuote

instance (u : CodeUnit) : Decidable (IsEscaped u) := inferInstanceAs (Decidable (_ ∨ _))

/-- Whether a backslash stands before a unit that it makes literal. -/
def HasEscape (t : Text) : Prop := ∃ front u back, t = front ++ backslash :: u :: back ∧ IsEscaped u

theorem HasEscape.append {t : Text} (escape : HasEscape t) (more : Text) :
    HasEscape (t ++ more) := by
  obtain ⟨front, u, back, rfl, escaped⟩ := escape
  exact ⟨front, u, back ++ more, by simp, escaped⟩

theorem hasEscape_cons {u : CodeUnit} {t : Text} : HasEscape (u :: t) ↔
    (u = backslash ∧ ∃ v rest, t = v :: rest ∧ IsEscaped v) ∨ HasEscape t := by
  constructor
  · rintro ⟨front, v, back, shape, escaped⟩
    cases front with
    | nil =>
      obtain ⟨rfl, rfl⟩ := List.cons.inj shape
      exact .inl ⟨rfl, v, back, rfl, escaped⟩
    | cons w front =>
      obtain ⟨rfl, rfl⟩ := List.cons.inj shape
      exact .inr ⟨front, v, back, rfl, escaped⟩
  · rintro (⟨rfl, v, rest, rfl, escaped⟩ | ⟨front, v, back, rfl, escaped⟩)
    · exact ⟨[], v, rest, rfl, escaped⟩
    · exact ⟨u :: front, v, back, rfl, escaped⟩

theorem resolveDoubled_cons {u : CodeUnit} {t : Text}
    (other : ¬ (u = backslash ∧ ∃ v rest, t = v :: rest ∧ IsEscaped v)) :
    resolveDoubled (u :: t) = u :: resolveDoubled t := by
  cases t with
  | nil => rfl
  | cons v rest =>
    rw [resolveDoubled, if_neg]
    exact fun ⟨here, escaped⟩ => other ⟨here, v, rest, rfl, escaped⟩

theorem resolveDoubled_escape {v : CodeUnit} (escaped : IsEscaped v) (t : Text) :
    resolveDoubled (backslash :: v :: t) = v :: resolveDoubled t := by
  rw [resolveDoubled, if_pos ⟨rfl, escaped⟩]

theorem resolveDoubled_eq_self {t : Text} (none : ¬ HasEscape t) : resolveDoubled t = t := by
  induction t with
  | nil => rfl
  | cons u t ih =>
    rw [hasEscape_cons, not_or] at none
    rw [resolveDoubled_cons none.1, ih none.2]

theorem length_resolveDoubled_le (t : Text) : (resolveDoubled t).length ≤ t.length := by
  fun_induction resolveDoubled t with
  | case1 => exact Nat.le_refl _
  | case2 u => exact Nat.le_refl _
  | case3 u v rest escape ih =>
    simp only [List.length_cons]
    omega
  | case4 u v rest other ih =>
    simp only [List.length_cons] at ih ⊢
    omega

theorem length_resolveDoubled_lt {t : Text} (escape : HasEscape t) :
    (resolveDoubled t).length < t.length := by
  induction t with
  | nil =>
    obtain ⟨front, u, back, shape, -⟩ := escape
    exact absurd shape (by simp)
  | cons u t ih =>
    by_cases here : u = backslash ∧ ∃ v rest, t = v :: rest ∧ IsEscaped v
    · obtain ⟨rfl, v, rest, rfl, escaped⟩ := here
      have bound := length_resolveDoubled_le rest
      rw [resolveDoubled_escape escaped]
      simp only [List.length_cons]
      omega
    · have deeper := ih ((hasEscape_cons.mp escape).resolve_left here)
      rw [resolveDoubled_cons here]
      simp only [List.length_cons]
      omega

namespace Scanner

/-! ## Ways between states -/

/-- A text takes the scanner from one state to another and ends no word. -/
def Leads (s : Scanner) (t : Text) (s' : Scanner) : Prop :=
  ∀ rest, s.run (t ++ rest) = s'.run rest

theorem Leads.refl (s : Scanner) : s.Leads [] s := fun _ => rfl

theorem Leads.trans {s s' s'' : Scanner} {a b : Text} (first : s.Leads a s')
    (second : s'.Leads b s'') : s.Leads (a ++ b) s'' := by
  intro rest
  rw [List.append_assoc, first, second]

theorem leads_of_step {s s' : Scanner} {u : CodeUnit} (step : s.step u = (none, s')) :
    s.Leads [u] s' := by
  intro rest
  show Scanner.run s (u :: rest) = _
  rw [run, step]
  cases s'.run rest <;> rfl

/-! ## Outside quotations -/

/-- Outside quotations, a word being under way or not. -/
def outside (word : Option Text) : Scanner := { word }

/-- Units that mean nothing special outside quotations. -/
def IsPlain (u : CodeUnit) : Prop :=
  u ≠ backslash ∧ u ≠ singleQuote ∧ u ≠ doubleQuote ∧ u ≠ dollar ∧ isSeparator u = false

theorem leads_plain_unit {u : CodeUnit} (plain : IsPlain u) (word : Option Text) :
    (outside word).Leads [u] (outside (some (word.getD [] ++ [u]))) := by
  obtain ⟨noBackslash, noSingle, noDouble, noDollar, noSeparator⟩ := plain
  refine leads_of_step ?_
  simp [step, outside, add, noBackslash, noSingle, noDouble, noDollar, noSeparator]

theorem leads_plain {t : Text} (plain : ∀ u ∈ t, IsPlain u) (word : Text) :
    (outside (some word)).Leads t (outside (some (word ++ t))) := by
  induction t generalizing word with
  | nil => rw [List.append_nil]; exact Leads.refl _
  | cons u t ih =>
    have first := leads_plain_unit (plain u List.mem_cons_self) (some word)
    have others := ih (fun v within => plain v (List.mem_cons_of_mem _ within)) (word ++ [u])
    rw [List.append_assoc, List.singleton_append] at others
    exact first.trans others

/-- A separator ends the word. -/
theorem run_separator {u : CodeUnit} (separates : isSeparator u = true) (word rest : Text) :
    run (outside (some word)) (u :: rest) = (run {} rest).map (word :: ·) := by
  have special : u ≠ backslash ∧ u ≠ singleQuote ∧ u ≠ doubleQuote := by
    refine ⟨?_, ?_, ?_⟩ <;> rintro rfl <;> exact absurd separates (by decide)
  have ends : (outside (some word)).step u = (some word, {}) := by
    simp [step, outside, special, separates]
  rw [run, ends]
  cases run {} rest <;> rfl

/-! ## Inside quotations -/

/-- Inside a quotation that no dollar sign stands before. -/
def inside (mark : CodeUnit) (word : Text) : Scanner :=
  { word := some word, quotation := some ⟨mark, false⟩ }

theorem leads_open {mark : CodeUnit} (quotes : mark = singleQuote ∨ mark = doubleQuote)
    (word : Option Text) : (outside word).Leads [mark] (inside mark (word.getD [])) := by
  have other : mark ≠ backslash := by rcases quotes with rfl | rfl <;> decide
  refine leads_of_step ?_
  simp [step, outside, inside, other, quotes]

theorem leads_close {mark : CodeUnit} (quotes : mark = singleQuote ∨ mark = doubleQuote)
    (word : Text) : (inside mark word).Leads [mark]
      (outside (some (if mark = doubleQuote then resolveDoubled word else word))) := by
  refine leads_of_step ?_
  rcases quotes with rfl | rfl
  · rfl
  · rfl

/-- Other units are kept, a backslash in a double quotation apart. -/
theorem leads_within {mark u : CodeUnit} (other : u ≠ mark)
    (plain : mark = doubleQuote → u ≠ backslash) (word : Text) :
    (inside mark word).Leads [u] (inside mark (word ++ [u])) := by
  have goesOn : ¬ (u = backslash ∧ mark = doubleQuote) := fun ⟨here, double⟩ => plain double here
  refine leads_of_step ?_
  simp [step, inside, add, other, goesOn]

end Scanner

end Words

end FileProfile
