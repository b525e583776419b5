import FileProfile.Proofs.Launch.Doubled
import FileProfile.Proofs.Launch.Quoted
import FileProfile.Proofs.Launch.Skeleton
import FileProfile.Proofs.Session.Run

/-!
The first argument of a file that is run itself.

The path is put into the template with its percent signs doubled and quoted as one word. Expanding
the template undoes the doubling whatever the path is (`argument_doubled`). Reading back the quoted
word may lose backslashes, but no percent sign (`survivor_doubled`), so the first argument is the
path exactly if the path survives its quotation (`literal_iff_survives`); the paths of the files to
open follow it in any case.
-/

namespace FileProfile

open Words (IsEscaped backslash resolveDoubled)

namespace Quoted

open Template (percent doubled doubled_append doubled_concat doubled_percent doubled_other
  head?_doubled)

/-! ## Reading back a path -/

theorem resolveDoubled_doubled (t : Text) :
    resolveDoubled (doubled t) = doubled (resolveDoubled t) := by
  fun_induction resolveDoubled t with
  | case1 => rfl
  | case2 u =>
    by_cases sign : u = percent
    · rw [sign]
      decide
    · rw [doubled_other sign]
      rfl
  | case3 u v rest escape ih =>
    obtain ⟨rfl, escaped⟩ := escape
    have other : v ≠ percent := by rcases escaped with rfl | rfl <;> decide
    rw [doubled_other (by decide), doubled_other other, doubled_other other,
      Words.resolveDoubled_escape escaped, ih]
  | case4 u v rest plain ih =>
    by_cases sign : u = percent
    · have apart : ∀ t, resolveDoubled (percent :: t) = percent :: resolveDoubled t := fun t =>
        Words.resolveDoubled_cons fun both => absurd both.1 (by decide)
      rw [sign, doubled_percent, doubled_percent, apart, apart, ih]
    · have kept : ¬ (u = backslash ∧ ∃ w more, doubled (v :: rest) = w :: more ∧ IsEscaped w) := by
        rintro ⟨here, w, more, shape, escaped⟩
        have same := head?_doubled (v :: rest)
        rw [shape] at same
        cases same
        exact plain ⟨here, escaped⟩
      rw [doubled_other sign, doubled_other sign, Words.resolveDoubled_cons kept, ih]

namespace Reading

/-- What has been read of a word with doubled percent signs. -/
def doubledWord (r : Reading) : Reading := ⟨r.inRun, doubled r.word⟩

theorem settled_doubled (r : Reading) : r.doubledWord.settled = doubled r.settled := by
  unfold settled doubledWord
  cases r.inRun with
  | true => exact resolveDoubled_doubled r.word
  | false => rfl

theorem next_doubled (r : Reading) {u : CodeUnit} (other : u ≠ percent) :
    r.doubledWord.next u = (r.next u).doubledWord := by
  by_cases quote : u = Words.singleQuote
  · rw [quote] at other ⊢
    rw [next_quote, next_quote, doubledWord, doubledWord, doubled_concat other]
  · rw [next_other _ quote, next_other _ quote, settled_doubled, doubledWord, doubled_concat other]

/-- The second of two percent signs is read after a word that is settled. -/
theorem next_doubled_percent (r : Reading) :
    (r.doubledWord.next percent).next percent = (r.next percent).doubledWord := by
  have apart : percent ≠ Words.singleQuote := by decide
  have signs : doubled (r.settled ++ [percent]) = doubled r.settled ++ [percent] ++ [percent] := by
    rw [doubled_append, doubled_percent, List.append_assoc]
    rfl
  rw [next_other _ apart, next_other _ apart, next_other _ apart, settled_doubled, doubledWord,
    signs]
  rfl

theorem after_doubled (r : Reading) (t : Text) :
    r.doubledWord.after (doubled t) = (r.after t).doubledWord := by
  induction t generalizing r with
  | nil => rfl
  | cons u t ih =>
    by_cases sign : u = percent
    · rw [sign, doubled_percent, after_cons, after_cons, next_doubled_percent, ih, after_cons]
    · rw [doubled_other sign, after_cons, next_doubled r sign, ih, after_cons]

end Reading

/-- Reading back loses no percent sign. -/
theorem survivor_doubled (p : Text) : survivor (doubled p) = doubled (survivor p) := by
  have all := Reading.after_doubled ⟨false, []⟩ p
  have start : (Reading.mk false []).doubledWord = ⟨false, []⟩ := rfl
  rw [start] at all
  rw [survivor, all, Reading.settled_doubled]
  rfl

/-- A quoted word and a field code behind it are two words. -/
theorem split_word (w : Text) : Words.split (word w ++ " %F") = .ok [survivor w, "%F"] := by
  show Words.Scanner.run (.outside none) (word w ++ " %F") = _
  rw [leads_word w]
  show Words.Scanner.run (.outside (some (survivor w))) (0x20 :: "%F") = _
  rw [Words.Scanner.run_separator (by decide)]
  rfl

end Quoted

namespace LaunchPlan

/-! ## Files that are run themselves -/

theorem parse_directTemplate (p : Text) : Template.parse (directTemplate p) =
    .ok [.pieces ((Quoted.survivor p).map .unit), .alone .paths] := by
  have quoted : directTemplate p = Quoted.word (Template.doubled p) ++ " %F" := rfl
  have paths : Template.argument "%F" = .ok (.alone .paths) := by rfl
  rw [quoted, Template.parse, Quoted.split_word, Quoted.survivor_doubled]
  simp only [Template.arguments, Template.argument_doubled, paths]
  rfl

theorem expand_directTemplate (p : Text) (targets : List LaunchTarget) :
    Template.expand (directTemplate p) { targets } =
      .ok (Quoted.survivor p :: targets.map LaunchTarget.path) := by
  have argv : [Template.Argument.pieces ((Quoted.survivor p).map .unit), .alone .paths].flatMap
      (Template.Argument.expand { targets }) =
        Quoted.survivor p :: targets.map LaunchTarget.path := by
    rw [List.flatMap_cons, Template.expand_units, List.flatMap_singleton]
    rfl
  rw [Template.expand_of_parse (parse_directTemplate p), argv, if_neg (List.cons_ne_nil _ _)]
  rfl

theorem runOn_plan {s : Session} {d : DescriptorId} {x : Descriptor}
    (found : s.descriptors[d]? = some x) (living : x.isAlive)
    (other : s.types.nameOf x.contentType ≠ ContentType.desktopEntry)
    (targets : List LaunchTarget) (context : Context) :
    ∃ plan, (Action.plan d targets context).runOn s = (.ok plan, s) ∧
      plan.argv = Quoted.survivor x.path :: targets.map LaunchTarget.path := by
  have direct : directArgv x.path targets =
      .ok (Quoted.survivor x.path :: targets.map LaunchTarget.path) := by
    rw [directArgv, argvOf, expand_directTemplate]
    rfl
  rw [Action.runOn_plan found living, if_neg other, direct]
  exact ⟨_, rfl, rfl⟩

/-- A file that is run itself is always given the paths of the files to open behind one argument.
That argument is the path of the file exactly if no backslash in it stands before another one or a
double quote anywhere in front of a single quote. -/
theorem literal_iff_survives (p : Text) (targets : List LaunchTarget) :
    (∃ first, Template.expand (Template.quoteArgument p ++ " %F") { targets } =
      .ok (first :: targets.map LaunchTarget.path) ∧ (first = p ↔ Quoted.Survives p)) ∧
    (∀ (s : Session) (d : DescriptorId) (x : Descriptor) (context : Context),
      s.descriptors[d]? = some x → x.path = p → x.isAlive →
      s.types.nameOf x.contentType ≠ ContentType.desktopEntry →
      ∃ plan first, (Action.plan d targets context).runOn s = (.ok plan, s) ∧
        plan.argv = first :: targets.map LaunchTarget.path ∧ (first = p ↔ Quoted.Survives p)) := by
  have literal := Quoted.survivor_eq_self_iff p
  refine ⟨⟨_, expand_directTemplate p targets, literal⟩,
    fun s d x context found own living other => ?_⟩
  subst own
  obtain ⟨plan, run, argv⟩ := runOn_plan found living other targets context
  exact ⟨plan, _, run, argv, literal⟩

/-- A session with a descriptor of a file named by two backslashes and a single quote. -/
def backslashed : Session :=
  let files : FileSystem := { entries := [("/\\\\'", .created (Utf8.encode "text") 0o755)] }
  let opened : Session := { files, types := .new [] {} [] }
  opened.after (.resolve "\\\\'" {})

/-- The file is not given its own path. -/
theorem not_literal_backslashed : ∃ plan first, (Action.plan 0 [] {}).runOn backslashed =
    (.ok plan, backslashed) ∧ plan.argv = [first] ∧ first ≠ "/\\\\'" := by
  let x : Descriptor := .new ⟨"/\\\\'"⟩ .regular
    (Node.created (Utf8.encode "text") 0o755).attributes 0 0 none
  have found : backslashed.descriptors[0]? = some x := by decide +kernel
  have other : backslashed.types.nameOf x.contentType ≠ ContentType.desktopEntry := by
    decide +kernel
  obtain ⟨plan, first, run, argv, literal⟩ :=
    (literal_iff_survives "/\\\\'" []).2 backslashed 0 x {} found rfl rfl other
  have lost : ¬ Quoted.Survives "/\\\\'" := by decide
  exact ⟨plan, first, run, argv, fun same => lost (literal.mp same)⟩

end LaunchPlan

end FileProfile
