import FileProfile.ContentType.Rules
import FileProfile.ContentType.TypeName
import FileProfile.Failure
import FileProfile.Text.LowerCase

/-!
Canonical names of content types, and the types that a type is a special case of.

`Rules.ancestors` looks at one type after the other in the order in which they are found, and adds
those of its parents that have not been found yet (`Rules.search`), so that nearer ancestors come
first. Every name that it adds stands in the rules, which bounds the search. It fails where it comes
to a type for which the rules have something else than a list of parents.
-/

namespace FileProfile

namespace ContentType

def octetStream : Text := "application/octet-stream"

def plainText : Text := "text/plain"

/-- The type of an empty file. -/
def zeroSize : Text := "application/x-zerosize"

def desktopEntry : Text := "application/x-desktop"

/-- Types whose files may be marked executable when their permissions allow it. -/
def executableTypes : List Text := ["application/x-executable", "application/x-shellscript"]

end ContentType

namespace Rules

/-- The name that a text is interned under: in lower case and without its alias. -/
def canonicalName (r : Rules) (name : Text) : TypeName :=
  r.aliases.nameAt (Text.lowerCase name) (Text.lowerCase name)

/-- The failure of putting a name in lower case that is no text. -/
def unnamed : Failure := .mistyped "name.toLowerCase is not a function"

/-- The name that a name is interned under. -/
def canonical (r : Rules) : TypeName → Except Failure TypeName
  | .text t => .ok (r.canonicalName t)
  | .inherited _ => .error unnamed

@[simp] theorem canonical_text (r : Rules) (t : Text) :
    r.canonical (.text t) = .ok (r.canonicalName t) := rfl

@[simp] theorem canonical_inherited (r : Rules) (key : InheritedKey) :
    r.canonical (.inherited key) = .error unnamed := rfl

/-- The failure of going through parents that are no list. -/
def parentless : Failure :=
  .mistyped "this.parentsOf is not a function or its return value is not iterable"

/-- The direct parents of a type. A text type without parents of its own is plain text. -/
def parents (r : Rules) (name : TypeName) : Except Failure (List TypeName) :=
  match r.subclasses.property name.spelled with
  | .listed ps => .ok (ps.map .text)
  | .inherited _ => .error parentless
  | .missing =>
    match name with
    | .text t =>
      if ("text/" : Text).isPrefixOf t ∧ t ≠ ContentType.plainText then .ok [ContentType.plainText]
      else .ok []
    | .inherited _ => .error (.mistyped "name.startsWith is not a function")

/-- Every name that is a parent of some type. -/
def parentNames (r : Rules) : List TypeName :=
  ContentType.plainText :: (r.subclasses.flatMap Prod.snd).map TypeName.text

theorem mem_parentNames {r : Rules} {name p : TypeName} {ps : List TypeName}
    (told : r.parents name = .ok ps) (h : p ∈ ps) : p ∈ r.parentNames := by
  unfold parents at told
  split at told
  · next texts found =>
    cases told
    obtain ⟨t, among, rfl⟩ := List.mem_map.mp h
    obtain ⟨entry, hit, rfl⟩ := Option.map_eq_some_iff.mp (Table.property_eq_listed.mp found)
    exact List.mem_cons_of_mem _ (List.mem_map_of_mem
      (List.mem_flatMap.mpr ⟨entry, List.mem_of_find?_eq_some hit, among⟩))
  · cases told
  · split at told
    · split at told
      · cases told
        rw [List.mem_singleton.mp h]
        exact List.mem_cons_self
      · cases told
        exact absurd h List.not_mem_nil
    · cases told

/-- The names of a list that are not among `seen`, each once. -/
def fresh (seen : List TypeName) : List TypeName → List TypeName
  | [] => []
  | name :: rest =>
    if name ∈ seen then fresh seen rest else name :: fresh (name :: seen) rest

/-- How many parent names are not among `seen`. -/
def unseenCount (r : Rules) (seen : List TypeName) : Nat :=
  r.parentNames.countP fun name => name ∉ seen

/-- Only what is among the names seen counts, not how they are listed. -/
theorem unseenCount_congr (r : Rules) {seen seen' : List TypeName}
    (same : ∀ x, x ∈ seen ↔ x ∈ seen') : r.unseenCount seen = r.unseenCount seen' := by
  unfold unseenCount
  congr 1
  funext x
  simp only [same]

/-- A parent that has been found is no longer counted. -/
theorem unseenCount_cons_lt (r : Rules) {seen : List TypeName} {p : TypeName}
    (parent : p ∈ r.parentNames) (unseen : p ∉ seen) :
    r.unseenCount (p :: seen) < r.unseenCount seen := by
  unfold unseenCount
  generalize r.parentNames = names at parent
  have fewer : ∀ x ∈ names, decide (x ∉ p :: seen) = true → decide (x ∉ seen) = true := by
    intro x _ outside
    rw [decide_eq_true_eq] at outside ⊢
    exact fun among => outside (List.mem_cons_of_mem _ among)
  obtain ⟨front, back, rfl⟩ := List.append_of_mem parent
  rw [List.countP_append, List.countP_append, List.countP_cons_of_neg (by simp),
    List.countP_cons_of_pos (by simpa using unseen)]
  have before : front.countP (fun x => x ∉ p :: seen) ≤ front.countP fun x => x ∉ seen :=
    List.countP_mono_left fun x among => fewer x (List.mem_append_left _ among)
  have behind : back.countP (fun x => x ∉ p :: seen) ≤ back.countP fun x => x ∉ seen :=
    List.countP_mono_left fun x among =>
      fewer x (List.mem_append_right _ (List.mem_cons_of_mem _ among))
  omega

/-- What is added to the names seen is taken from those not seen yet. -/
theorem unseenCount_append_fresh_le (r : Rules) (seen : List TypeName) {names : List TypeName}
    (parents : ∀ p ∈ names, p ∈ r.parentNames) :
    r.unseenCount (seen ++ fresh seen names) + (fresh seen names).length ≤ r.unseenCount seen := by
  induction names generalizing seen with
  | nil => simp [fresh]
  | cons first rest ih =>
    have later : ∀ p ∈ rest, p ∈ r.parentNames := fun p among =>
      parents p (List.mem_cons_of_mem _ among)
    unfold fresh
    split
    · exact ih seen later
    · next unseen =>
      have fewer := r.unseenCount_cons_lt (parents first List.mem_cons_self) unseen
      have more := ih (first :: seen) later
      have moved : r.unseenCount (seen ++ first :: fresh (first :: seen) rest) =
          r.unseenCount (first :: seen ++ fresh (first :: seen) rest) := by
        refine r.unseenCount_congr fun x => ?_
        simp only [List.cons_append, List.mem_cons, List.mem_append]
        exact or_left_comm
      rw [moved, List.length_cons]
      omega

/-- The names found, and those found from the ones in the queue, which come behind them. -/
def search (r : Rules) (found : List TypeName) : List TypeName → Except Failure (List TypeName)
  | [] => .ok found
  | current :: rest =>
    match _told : r.parents current with
    | .error e => .error e
    | .ok ps => r.search (found ++ fresh found ps) (rest ++ fresh found ps)
termination_by queue => r.unseenCount found + queue.length
decreasing_by
  have bound := r.unseenCount_append_fresh_le found fun p among => mem_parentNames _told among
  rw [List.length_append, List.length_cons]
  omega

theorem search_cons {r : Rules} {found rest ps : List TypeName} {current : TypeName}
    (told : r.parents current = .ok ps) : r.search found (current :: rest) =
      r.search (found ++ fresh found ps) (rest ++ fresh found ps) := by
  rw [search]
  split
  · next fails => cases told.symm.trans fails
  · next tells =>
    cases told.symm.trans tells
    rfl

theorem search_cons_error {r : Rules} {found rest : List TypeName} {current : TypeName}
    {e : Failure} (fails : r.parents current = .error e) :
    r.search found (current :: rest) = .error e := by
  rw [search]
  split
  · next same => exact same.symm.trans fails
  · next tells => cases fails.symm.trans tells

/-- A type's name, its canonical name, and all its ancestors, nearest first. -/
def ancestors (r : Rules) (name : TypeName) : Except Failure (List TypeName) :=
  match r.canonical name with
  | .error e => .error e
  | .ok start => r.search (if start = name then [name] else [name, start]) [start]

end Rules

end FileProfile
