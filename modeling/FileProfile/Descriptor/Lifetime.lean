import FileProfile.Session.Types

/-!
The life of a descriptor: creation, counted references, changes and release.

A descriptor owns one reference to the handle of its content type, which it gives up when the handle
is replaced or with its own last reference.
-/

namespace FileProfile

namespace Action

/-- Takes another reference to a descriptor. -/
def ref (d : DescriptorId) : Action Unit := do
  let _ ← alive d
  change d fun x => { x with references := x.references + 1 }

/-- Drops a reference to a descriptor. The last one releases its content type and its hints. -/
def unref (d : DescriptorId) : Action Unit := do
  let x ← alive d
  change d fun x => { x with references := x.references - 1 }
  if x.references = 1 then
    unrefType x.contentType
    change d fun x => { x with hints := none }

/-- Drops a reference to each descriptor of a list, up to the first that fails. -/
def unrefAll : List DescriptorId → Action Unit
  | [] => pure ()
  | d :: rest => do
    unref d
    unrefAll rest

/-- Replaces fields of a descriptor, which takes over the reference to a new content type and drops
the one to the old. -/
def apply (d : DescriptorId) (c : DescriptorChange) : Action Unit := do
  let x ← alive d
  change d c.applyNames
  match c.contentType with
  | some h =>
    change d fun x => { x with contentType := h }
    unrefType x.contentType
  | none => pure ()
  change d c.applyMarks

/-- Whether two descriptors, which must be alive, show the same state of the same file. -/
def agree (a b : DescriptorId) : Action Bool := do
  let x ← alive a
  let y ← alive b
  return x.agrees y

end Action

end FileProfile
