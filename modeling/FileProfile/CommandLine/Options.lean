import FileProfile.Text.Basic
import FileProfile.Text.EditDistance

/-!
Options on a command line.

`Options.scan` reads arguments from left to right into items: options with their values, operands,
and what is not known at this level. Everything behind the first unknown option counts as unknown
too, known options apart, so that a command can scan it again with options of its own.
-/

namespace FileProfile

/-- An option of a command. -/
structure OptionSpec where
  short : Option Text
  long : Text
  /-- The option as it is shown in messages. -/
  flags : Text
  takesValue : Bool := false
  /-- Whether arguments that follow the value are values too, up to the next option. -/
  takesMore : Bool := false
deriving DecidableEq, Repr

namespace OptionSpec

def isFor (o : OptionSpec) (arg : Text) : Bool := o.short = some arg || o.long = arg

end OptionSpec

/-- A part of a command line. -/
inductive Item where
  | option (spec : OptionSpec) (value : Option Text)
  /-- An option at the end of the line that lacks its value. -/
  | missing (spec : OptionSpec)
  | operand (arg : Text)
  | unknown (arg : Text)
deriving DecidableEq, Repr

namespace Options

def dash : CodeUnit := '-'

def equalsSign : CodeUnit := '='

/-- The argument behind which no options stand. -/
def terminator : Text := "--"

/-- Whether an argument looks like an option. -/
def isOptionLike (arg : Text) : Bool := 1 < arg.length && arg.head? = some dash

/-- A known option behind one dash and the rest of the argument. -/
def cluster? (specs : List OptionSpec) (arg : Text) : Option (OptionSpec × Text) :=
  match arg with
  | d :: u :: rest =>
    if d = dash ∧ u ≠ dash ∧ rest ≠ [] then
      (specs.find? fun o => o.short = some [dash, u]).map fun o => (o, rest)
    else none
  | _ => none

/-- A known option that takes a value, and the value behind an equals sign. -/
def assignment? (specs : List OptionSpec) (arg : Text) : Option (OptionSpec × Text) :=
  let name := arg.takeWhile fun u => u ≠ equalsSign
  let rest := arg.dropWhile fun u => u ≠ equalsSign
  if terminator.isPrefixOf name ∧ 2 < name.length ∧ rest ≠ [] then
    (specs.find? fun o => o.isFor name && o.takesValue).map fun o => (o, rest.drop 1)
  else none

/-- An argument that is no option of this level. -/
def other (inUnknown : Bool) (arg : Text) : Item :=
  if inUnknown then .unknown arg else .operand arg

/-- How many units a list of arguments holds, each argument counting one more. -/
def size (args : List Text) : Nat := args.foldr (fun arg n => arg.length + 1 + n) 0

theorem size_cons (arg : Text) (rest : List Text) :
    size (arg :: rest) = arg.length + 1 + size rest := by
  simp [size]

theorem length_of_cluster? {specs : List OptionSpec} {arg rest : Text} {o : OptionSpec}
    (h : cluster? specs arg = some (o, rest)) : arg.length = rest.length + 2 := by
  unfold cluster? at h
  split at h
  · split at h
    · obtain ⟨_, _, same⟩ := Option.map_eq_some_iff.mp h
      cases same
      rfl
    · cases h
  · cases h

/-- Scans arguments; `active` is an option that takes more values, and `inUnknown` tells whether an
unknown option stands before. -/
def scanFrom (specs : List OptionSpec) (active : Option OptionSpec) (inUnknown : Bool) :
    List Text → List Item
  | [] => []
  | arg :: rest =>
    if arg = terminator then
      (if inUnknown then [.unknown arg] else []) ++ rest.map (other inUnknown)
    else
      match if isOptionLike arg then none else active with
      | some spec => .option spec (some arg) :: scanFrom specs active inUnknown rest
      | none =>
        match if isOptionLike arg then specs.find? fun o => o.isFor arg else none with
        | some spec =>
          if spec.takesValue then
            match rest with
            | [] => [.missing spec]
            | value :: rest =>
              .option spec (some value)
                :: scanFrom specs (if spec.takesMore then some spec else none) inUnknown rest
          else .option spec none :: scanFrom specs none inUnknown rest
        | none =>
          match _found : cluster? specs arg with
          | some (spec, tail) =>
            if spec.takesValue then
              .option spec (some tail) :: scanFrom specs none inUnknown rest
            else .option spec none :: scanFrom specs none inUnknown ((dash :: tail) :: rest)
          | none =>
            match assignment? specs arg with
            | some (spec, value) =>
              .option spec (some value) :: scanFrom specs none inUnknown rest
            | none =>
              let inUnknown := inUnknown || isOptionLike arg
              other inUnknown arg :: scanFrom specs none inUnknown rest
termination_by args => size args
decreasing_by
  all_goals simp only [size_cons]
  all_goals try omega
  have := length_of_cluster? _found
  simp only [List.length_cons]
  omega

/-- Scans the arguments of a level with its options. -/
def scan (specs : List OptionSpec) (args : List Text) : List Item := scanFrom specs none false args

def operands (items : List Item) : List Text :=
  items.filterMap fun
    | .operand arg => some arg
    | _ => none

def unknowns (items : List Item) : List Text :=
  items.filterMap fun
    | .unknown arg => some arg
    | _ => none

/-! ## Suggestions -/

/-- Distances above this are too far for a suggestion. -/
def farthest : Nat := 3

/-- The distance between two words, or the longer length where the lengths alone are too far
apart. -/
def distance (a b : Text) : Nat :=
  if farthest < max (a.length - b.length) (b.length - a.length) then max a.length b.length
  else EditDistance.between a b

/-- Whether two words have more than four parts in ten alike. -/
def isSimilar (a b : Text) : Bool :=
  2 * max a.length b.length < 5 * (max a.length b.length - distance a b)

/-- The candidates that are nearest to a word, in order. -/
def nearest (word : Text) (candidates : List Text) : List Text :=
  let close := candidates.eraseDups.filter fun c =>
    1 < c.length && isSimilar word c && distance word c ≤ farthest
  let best := (close.map (distance word)).foldl min farthest
  (close.filter fun c => distance word c = best).mergeSort Text.before

/-- The question behind an error about an unknown word, where candidates are near. -/
def suggestion (word : Text) (candidates : List Text) : Text :=
  let isLong := terminator.isPrefixOf word
  let near :=
    if isLong then (nearest (word.drop 2) (candidates.map (List.drop 2))).map (terminator ++ ·)
    else nearest word candidates
  match near with
  | [] => []
  | [one] => "\n(Did you mean " ++ one ++ "?)"
  | several => "\n(Did you mean one of " ++ Text.join ", " several ++ "?)"

end Options

end FileProfile
