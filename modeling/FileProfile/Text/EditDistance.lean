import FileProfile.Text.Basic

/-!
The number of edits between two words: insertions, deletions, replacements, and exchanges of
neighbours, no part being edited twice.

The distances between the beginnings of two words form a table, which is computed row by row, one
row for each unit of the first word.
-/

namespace FileProfile

namespace EditDistance

/-- Continues a row for the unit `u` of the first word, which follows `u'`. `left` is the entry
before this one, `above` is the row before from the entry over `left` on, and `beyond` is the row
before that from two entries before this one on, once there is one. -/
def continueRow (u : CodeUnit) (u' v' : Option CodeUnit) (left : Nat) (above beyond : List Nat) :
    Text → List Nat
  | [] => []
  | v :: rest =>
    match above with
    | corner :: up :: above =>
      let edited := min (min (up + 1) (left + 1)) (corner + if u = v then 0 else 1)
      let here :=
        match beyond with
        | start :: _ =>
          if u' = some v ∧ v' = some u then min edited (start + 1) else edited
        | [] => edited
      let beyond := if v'.isSome then beyond.tail else beyond
      here :: continueRow u u' (some v) here (up :: above) beyond rest
    | _ => []

/-- The last entry of the table, its rows being computed one after another. -/
def lastEntry (b : Text) (row : Nat) (u' : Option CodeUnit) (above beyond : List Nat) : Text → Nat
  | [] => above.getLastD 0
  | u :: rest =>
    let current := row :: continueRow u u' none row above beyond b
    lastEntry b (row + 1) (some u) current above rest

/-- The number of edits from one word to the other. -/
def between (a b : Text) : Nat := lastEntry b 1 none (List.range (b.length + 1)) [] a

example : between "inof" "info" = 1 ∧ between "" "plan" = 4 ∧ between "jsno" "--json" = 3 := by
  decide

end EditDistance

end FileProfile
