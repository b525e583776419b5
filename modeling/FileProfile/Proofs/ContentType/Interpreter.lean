import FileProfile.ContentType.Sniff
import FileProfile.Path
import FileProfile.Proofs.Text.Words
import Mathlib.Data.Option.Basic

/-!
The interpreters that script lines name.

A line runs a program at once, or by way of `env`, which may be given options and settings of
variables in front of the program (`Runs`). The interpreter that is read from a line is the name of
the program that it runs, without directory and version, and none where the line runs no program
(`interpreter?_eq_some_iff_runs`).
-/

namespace FileProfile

open Text (IsGap IsSolid IsWord EndsWord)

namespace ContentType

/-! ## Programs -/

/-- What may stand in front of the name of a program: nothing, or a text without blanks that ends in
a slash. -/
structure IsDirectory (d : Text) : Prop where
  solid : IsSolid d
  closed : d = [] ∨ d.getLast? = some Path.separator

/-- A word that runs a program: its directory, the letters of its name, and what stands behind them,
such as a version. -/
structure Program where
  directory : Text
  letters : Text
  version : Text
  isDirectory : IsDirectory directory
  named : letters ≠ []
  lettered : ∀ u ∈ letters, u.isLetter
  solid : IsSolid version
  slashless : Path.separator ∉ version
  unlettered : ∀ u ∈ version.head?, ¬ u.isLetter

namespace Program

variable (p : Program)

/-- The word without its directory. -/
def base : Text := p.letters ++ p.version

def word : Text := p.directory ++ p.base

/-- The name by which the program is looked up as an interpreter. -/
def name : Text := Text.lowerAscii p.letters

end Program

/-! ## Lines -/

/-- An argument of `env` that is no program: an option, or the setting of a variable. -/
def IsEnvOption (word : Text) : Prop := word.head? = some ('-' : CodeUnit) ∨ ('=' : CodeUnit) ∈ word

instance (word : Text) : Decidable (IsEnvOption word) := inferInstanceAs (Decidable (_ ∨ _))

/-- Options one behind the other, each with a gap in front of it. -/
inductive EnvOptions : Text → Prop where
  | none : EnvOptions []
  | more {gap word others : Text} : IsGap gap → gap ≠ [] → IsSolid word → IsEnvOption word →
      EnvOptions others → EnvOptions (gap ++ word ++ others)

/-- What stands behind the mark of a script line that runs a program. -/
inductive Runs : Text → Program → Prop where
  | atOnce {gap rest : Text} {p : Program} : IsGap gap → p.base ≠ "env" → EndsWord rest →
      Runs (gap ++ p.word ++ rest) p
  | byEnv {gap directory options gap' rest : Text} {p : Program} : IsGap gap →
      IsDirectory directory → EnvOptions options → IsGap gap' → gap' ≠ [] → ¬ IsEnvOption p.word →
      EndsWord rest →
      Runs (gap ++ (directory ++ "env") ++ (options ++ (gap' ++ p.word ++ rest))) p

/-! ## Words of programs -/

theorem isEnvOption_iff {word : Text} : isEnvOption word = true ↔ IsEnvOption word := by
  rw [isEnvOption, Bool.or_eq_true, decide_eq_true_eq, List.contains_iff_mem]
  rfl

theorem IsEnvOption.ne_nil {word : Text} (option : IsEnvOption word) : word ≠ [] := by
  rintro rfl
  rcases option with first | within
  · cases first
  · cases within

theorem lastPiece_append {directory base : Text} (isDirectory : IsDirectory directory)
    (plain : Path.separator ∉ base) : lastPiece (directory ++ base) = base := by
  have single := Text.splitAt_of_not_mem plain
  rcases isDirectory.closed with rfl | closed
  · show (Text.splitAt Path.separator base).getLastD [] = base
    rw [single]
    rfl
  · obtain ⟨front, rfl⟩ := List.getLast?_eq_some_iff.mp closed
    show (Text.splitAt Path.separator (front ++ [Path.separator] ++ base)).getLastD [] = base
    rw [List.append_assoc, List.singleton_append, Text.splitAt_append_cons, single,
      List.getLastD_concat]

/-- A word is its last piece, in a directory or alone. -/
theorem exists_directory {word : Text} (solid : IsSolid word) :
    ∃ directory, word = directory ++ lastPiece word ∧ IsDirectory directory ∧
      Path.separator ∉ lastPiece word := by
  have cut : ∃ directory base, word = directory ++ base ∧ Path.separator ∉ base ∧
      (directory = [] ∨ directory.getLast? = some Path.separator) := by
    by_cases slashed : Path.separator ∈ word
    · obtain ⟨front, base, rfl, plain⟩ := Text.exists_last_cut slashed
      refine ⟨front ++ [Path.separator], base, ?_, plain, .inr List.getLast?_concat⟩
      rw [List.append_assoc, List.singleton_append]
    · exact ⟨[], word, rfl, slashed, .inl rfl⟩
  obtain ⟨directory, base, rfl, plain, closed⟩ := cut
  have isDirectory : IsDirectory directory := ⟨solid.of_append.1, closed⟩
  rw [lastPiece_append isDirectory plain]
  exact ⟨directory, rfl, isDirectory, plain⟩

theorem not_isBlank_of_isLetter {u : CodeUnit} (letter : u.isLetter) : ¬ u.isBlank := by
  intro blank
  simp only [CodeUnit.isBlank, CodeUnit.isLetter, Bool.or_eq_true, Bool.and_eq_true,
    decide_eq_true_eq, UInt16.le_iff_toNat_le, ← UInt16.toNat_inj] at blank letter
  simp only [UInt16.reduceToNat] at blank letter
  omega

namespace Program

variable (p : Program)

theorem isSolid_letters : IsSolid p.letters := fun u within =>
  not_isBlank_of_isLetter (p.lettered u within)

theorem separator_not_mem_base : Path.separator ∉ p.base := by
  intro within
  rcases List.mem_append.mp within with letter | behind
  · exact absurd (p.lettered _ letter) (by decide)
  · exact p.slashless behind

theorem isWord_word : IsWord p.word := by
  refine ⟨?_, p.isDirectory.solid.append (p.isSolid_letters.append p.solid)⟩
  exact List.append_ne_nil_of_right_ne_nil _ (List.append_ne_nil_of_left_ne_nil p.named _)

theorem lastPiece_word : lastPiece p.word = p.base :=
  lastPiece_append p.isDirectory p.separator_not_mem_base

theorem takeWhile_base : p.base.takeWhile CodeUnit.isLetter = p.letters :=
  (Text.cut_at_stop p.lettered p.unlettered).1

end Program

/-- A word whose last piece begins with a letter runs a program. -/
theorem exists_program {word : Text} (solid : IsSolid word)
    (named : (lastPiece word).takeWhile CodeUnit.isLetter ≠ []) :
    ∃ p : Program, p.word = word ∧ p.letters = (lastPiece word).takeWhile CodeUnit.isLetter := by
  obtain ⟨directory, shape, isDirectory, plain⟩ := exists_directory solid
  have cut : (lastPiece word).takeWhile CodeUnit.isLetter ++
      (lastPiece word).dropWhile CodeUnit.isLetter = lastPiece word :=
    List.takeWhile_append_dropWhile
  have behind := List.dropWhile_suffix (l := lastPiece word) CodeUnit.isLetter
  rw [shape] at solid
  let p : Program := {
    directory
    letters := (lastPiece word).takeWhile CodeUnit.isLetter
    version := (lastPiece word).dropWhile CodeUnit.isLetter
    isDirectory
    named
    lettered := fun _ within => List.mem_takeWhile_imp within
    solid := fun u within => solid.of_append.2 u (behind.subset within)
    slashless := fun within => plain (behind.subset within)
    unlettered := fun _ first => Text.not_of_head?_dropWhile first }
  refine ⟨p, ?_, rfl⟩
  show directory ++ (_ ++ _) = word
  rw [cut, ← shape]

/-- The name of the program that a word runs. -/
def programName? (word : Text) : Option Text := do
  let letters := (lastPiece word).takeWhile CodeUnit.isLetter
  guard (letters ≠ [])
  return Text.lowerAscii letters

theorem programName?_eq_some_iff {word name : Text} (solid : IsSolid word) :
    programName? word = some name ↔ ∃ p : Program, p.word = word ∧ p.name = name := by
  have reads : programName? word = some name ↔
      (lastPiece word).takeWhile CodeUnit.isLetter ≠ [] ∧
        Text.lowerAscii ((lastPiece word).takeWhile CodeUnit.isLetter) = name := by
    simp [programName?, Option.bind_eq_some_iff, Option.guard_eq_some']
  rw [reads]
  constructor
  · rintro ⟨named, rfl⟩
    obtain ⟨p, own, letters⟩ := exists_program solid named
    exact ⟨p, own, by rw [Program.name, letters]⟩
  · rintro ⟨p, rfl, rfl⟩
    rw [p.lastPiece_word, p.takeWhile_base]
    exact ⟨p.named, rfl⟩

/-! ## Options -/

theorem EnvOptions.endsWord {options : Text} (many : EnvOptions options) : EndsWord options := by
  cases many with
  | none => exact fun u first => by cases first
  | more blank given _ _ _ =>
    rw [List.append_assoc]
    exact blank.endsWord_append given _

theorem EnvOptions.isEnvOption {options : Text} (many : EnvOptions options) :
    ∀ word ∈ Text.words options, IsEnvOption word := by
  induction many with
  | none => exact fun word within => by cases within
  | more blank _ solid option others ih =>
    rw [Text.words_of_first blank ⟨option.ne_nil, solid⟩ others.endsWord]
    intro word within
    rcases List.mem_cons.mp within with rfl | later
    · exact option
    · exact ih word later

/-- Words that are options are spelled by options in front of the other words. -/
theorem exists_envOptions {t : Text} {front others : List Text} (ends : EndsWord t)
    (cut : Text.words t = front ++ others) (all : ∀ word ∈ front, IsEnvOption word) :
    ∃ options rest, t = options ++ rest ∧ EnvOptions options ∧ EndsWord rest ∧
      Text.words rest = others := by
  induction front generalizing t with
  | nil => exact ⟨[], t, rfl, .none, ends, cut⟩
  | cons word front ih =>
    obtain ⟨gap, behind, rfl, blank, solid, ends', cut'⟩ := Text.words_eq_cons_iff.mp cut
    obtain ⟨options, rest, rfl, many, stops, read⟩ :=
      ih ends' cut' fun other within => all other (List.mem_cons_of_mem _ within)
    refine ⟨gap ++ word ++ options, rest, (List.append_assoc ..).symm, ?_, stops, read⟩
    exact .more blank (ends.gap_ne_nil solid) solid.2 (all word List.mem_cons_self) many

/-! ## Reading a line -/

/-- The word of a line that runs a program. -/
def programWord? : List Text → Option Text
  | [] => none
  | first :: others =>
    if lastPiece first = "env" then others.find? fun word => !isEnvOption word else some first

theorem interpreter?_eq (body : Text) :
    interpreter? ("#!" ++ body) = (programWord? (Text.words body)).bind programName? := by
  have mark : (("#!" : Text) ++ body).drop 2 = body := rfl
  simp only [interpreter?, mark, Text.words_trim]
  cases Text.words body with
  | nil => rfl
  | cons first others =>
    rw [programWord?]
    by_cases env : lastPiece first = "env"
    · rw [if_pos env]
      exact if_pos env
    · rw [if_neg env]
      exact if_neg env

theorem mem_of_programWord? {words : List Text} {word : Text}
    (told : programWord? words = some word) : word ∈ words := by
  cases words with
  | nil => cases told
  | cons first others =>
    rw [programWord?] at told
    split at told
    · exact List.mem_cons_of_mem _ (List.mem_of_find?_eq_some told)
    · cases told
      exact List.mem_cons_self

theorem programWord?_of_runs {body : Text} {p : Program} (runs : Runs body p) :
    programWord? (Text.words body) = some p.word := by
  cases runs with
  | atOnce blank other ends =>
    rw [Text.words_of_first blank p.isWord_word ends, programWord?, p.lastPiece_word, if_neg other]
  | @byEnv gap directory options gap' rest _ blank isDirectory many blank' given plain ends =>
    have env : IsWord (directory ++ "env") :=
      ⟨List.append_ne_nil_of_right_ne_nil _ (by decide), isDirectory.solid.append (by decide)⟩
    have stops : EndsWord (gap' ++ p.word ++ rest) := by
      rw [List.append_assoc]
      exact blank'.endsWord_append given _
    have skips : (Text.words options).find? (fun word => !isEnvOption word) = none := by
      refine List.find?_eq_none.mpr fun word within => ?_
      rw [isEnvOption_iff.mpr (many.isEnvOption word within)]
      exact Bool.false_ne_true
    have takes : (!isEnvOption p.word) = true := by
      rw [Bool.not_eq_true', ← Bool.not_eq_true, isEnvOption_iff]
      exact plain
    rw [Text.words_of_first blank env (many.endsWord.append stops), programWord?,
      lastPiece_append isDirectory (by decide), if_pos rfl, Text.words_append stops,
      Text.words_of_first blank' p.isWord_word ends, List.find?_append, skips, Option.none_or]
    exact List.find?_cons_of_pos takes

theorem runs_of_programWord? {body : Text} {p : Program}
    (told : programWord? (Text.words body) = some p.word) : Runs body p := by
  cases cut : Text.words body with
  | nil =>
    rw [cut] at told
    cases told
  | cons first others =>
    obtain ⟨gap, rest, rfl, blank, solid, ends, behind⟩ := Text.words_eq_cons_iff.mp cut
    rw [cut, programWord?] at told
    split at told
    · next env =>
      obtain ⟨directory, shape, isDirectory, -⟩ := exists_directory solid.2
      obtain ⟨plain, front, more, split, skipped⟩ := List.find?_eq_some_iff_append.mp told
      obtain ⟨options, t, rfl, many, stops, read⟩ :=
        exists_envOptions ends (behind.trans split) fun word within =>
          isEnvOption_iff.mp (by simpa using skipped word within)
      obtain ⟨gap', rest, rfl, blank', solid', ends', -⟩ := Text.words_eq_cons_iff.mp read
      rw [shape, env]
      refine .byEnv blank isDirectory many blank' (stops.gap_ne_nil solid') ?_ ends'
      rw [← isEnvOption_iff]
      simpa using plain
    · next other =>
      obtain rfl := Option.some.inj told
      rw [p.lastPiece_word] at other
      exact .atOnce blank other ends

/-- A script line names an interpreter exactly if it runs a program, at once or by way of `env`:
the name of the program in lower case. -/
theorem interpreter?_eq_some_iff_runs (body name : Text) :
    interpreter? ("#!" ++ body) = some name ↔ ∃ p : Program, Runs body p ∧ p.name = name := by
  rw [interpreter?_eq, Option.bind_eq_some_iff]
  constructor
  · rintro ⟨word, told, named⟩
    have solid := (Text.isWord_of_mem_words (mem_of_programWord? told)).2
    obtain ⟨p, rfl, own⟩ := (programName?_eq_some_iff solid).mp named
    exact ⟨p, runs_of_programWord? told, own⟩
  · rintro ⟨p, runs, own⟩
    exact ⟨p.word, programWord?_of_runs runs,
      (programName?_eq_some_iff p.isWord_word.2).mpr ⟨p, rfl, own⟩⟩

/-- A program with a version, in a directory. -/
def versioned : Program where
  directory := "/opt/bin/"
  letters := "Python"
  version := "3.11-dbg"
  isDirectory := ⟨by decide, by decide⟩
  named := by decide
  lettered := List.all_eq_true.mp (by decide)
  solid := by decide
  slashless := by decide
  unlettered := by
    rintro _ ⟨⟩
    decide

/-- An option and the setting of a variable stand in front of the program, and an option behind
it. -/
theorem interpreter?_versioned :
    interpreter? "#! /usr/bin/env -S\tLANG=C  /opt/bin/Python3.11-dbg -u" = some "python" := by
  have setting : EnvOptions "\tLANG=C" :=
    @EnvOptions.more "\t" "LANG=C" [] (by decide) (by decide) (by decide) (by decide) .none
  have options : EnvOptions " -S\tLANG=C" :=
    @EnvOptions.more " " "-S" "\tLANG=C" (by decide) (by decide) (by decide) (by decide) setting
  have runs : Runs " /usr/bin/env -S\tLANG=C  /opt/bin/Python3.11-dbg -u" versioned :=
    @Runs.byEnv " " "/usr/bin/" " -S\tLANG=C" "  " " -u" versioned (by decide)
      ⟨by decide, by decide⟩ options (by decide) (by decide) (by decide) (by decide)
  exact (interpreter?_eq_some_iff_runs _ _).mpr ⟨versioned, runs, by decide⟩

end ContentType

end FileProfile
