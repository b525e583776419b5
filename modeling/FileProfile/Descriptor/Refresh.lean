import FileProfile.Descriptor.Resolve

/-!
Looking again at the file of a descriptor.
-/

namespace FileProfile

/-- The descriptor that shows the present state of a file, and whether it is a new one. -/
structure Refreshed where
  changed : Bool
  descriptor : DescriptorId
deriving DecidableEq, Repr

namespace Action

/-- Resolves the path of a descriptor again. Where nothing that is compared has changed, the
descriptor stays and the new one is released; otherwise the new one is answered. -/
def refresh (d : DescriptorId) (context : Context) : Action Refreshed := do
  let x ← alive d
  let fresh ← resolve x.path context
  if ← agree d fresh then
    unref fresh
    return ⟨false, d⟩
  else return ⟨true, fresh⟩

end Action

end FileProfile
