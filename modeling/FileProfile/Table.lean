import FileProfile.Text.Basic

/-!
Tables by text, as maps and as records.

A map has the entries that are listed and no others (`Table.get?`). A record has more: under a few
keys it has what it inherits from the record of all records, listed or not (`Table.property`). What
is inherited is never what the table lists, a text or a list of texts.
-/

namespace FileProfile

/-- A finite table; the first entry of a key counts. -/
abbrev Table (α : Type) := List (Text × α)

/-- The key of the record that all others inherit from. -/
def prototypeKey : Text := "__proto__"

/-- The key of the function that makes records. -/
def constructorKey : Text := "constructor"

/-- The keys under which every record has a value. -/
def inheritedKeys : List Text :=
  [constructorKey, prototypeKey, "__defineGetter__", "__defineSetter__", "__lookupGetter__",
   "__lookupSetter__", "hasOwnProperty", "isPrototypeOf", "propertyIsEnumerable", "toLocaleString",
   "toString", "valueOf"]

/-- A key under which every record has a value. -/
abbrev InheritedKey := { key : Text // key ∈ inheritedKeys }

/-- What a record has under a key. -/
inductive Property (α : Type) where
  | listed (x : α)
  | inherited (key : InheritedKey)
  | missing
deriving DecidableEq, Repr

namespace Table

variable {α : Type}

/-- The entry of a key. -/
def get? (t : Table α) (key : Text) : Option α :=
  (t.find? fun entry => entry.1 = key).map Prod.snd

/-- What the table has under a key as a record; an entry hides what is inherited. -/
def property (t : Table α) (key : Text) : Property α :=
  match t.get? key with
  | some x => .listed x
  | none => if known : key ∈ inheritedKeys then .inherited ⟨key, known⟩ else .missing

/-- A record inherits what it does not list. -/
structure Inherits (t : Table α) (key : Text) : Prop where
  unlisted : t.get? key = none
  known : key ∈ inheritedKeys

theorem property_eq_listed {t : Table α} {key : Text} {x : α} :
    t.property key = .listed x ↔ t.get? key = some x := by
  unfold property
  split
  · next y listed => rw [listed, Property.listed.injEq, Option.some.injEq]
  · next unlisted =>
    rw [unlisted]
    split <;> simp

theorem property_of_inherits {t : Table α} {key : Text} (inherits : t.Inherits key) :
    t.property key = .inherited ⟨key, inherits.known⟩ := by
  obtain ⟨unlisted, known⟩ := inherits
  rw [property, unlisted]
  exact dif_pos known

theorem inherits_of_property {t : Table α} {key : Text} {value : InheritedKey}
    (found : t.property key = .inherited value) : t.Inherits key := by
  unfold property at found
  split at found
  · cases found
  · next unlisted =>
    split at found
    · next known => exact ⟨unlisted, known⟩
    · cases found

theorem get?_eq_none_of_missing {t : Table α} {key : Text} (missing : t.property key = .missing) :
    t.get? key = none := by
  unfold property at missing
  split at missing
  · cases missing
  · assumption

theorem property_of_unknown {t : Table α} {key : Text} (unlisted : t.get? key = none)
    (unknown : key ∉ inheritedKeys) : t.property key = .missing := by
  rw [property, unlisted]
  exact dif_neg unknown

end Table

end FileProfile
