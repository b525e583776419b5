import FileProfile.Proofs.Storage.Links

/-!
File systems that differ in nothing but the order in which they list their entries.

`FileSystem.Same` compares what stands at every path. All queries answer alike where it holds, with
the same errors too, and an entry that is moved to a free path and back leaves the same file system
(`Same.moved_back`).
-/

namespace FileProfile

namespace FileSystem

/-- The same nodes at the same paths, where relative paths start at the same place and the same
calls are made to fail. -/
structure Same (fs other : FileSystem) : Prop where
  workingDirectory : other.workingDirectory = fs.workingDirectory
  faults : other.faults = fs.faults
  find? : ∀ p, other.find? p = fs.find? p

namespace Same

variable {fs other : FileSystem}

/-- Moving an entry to a free path and back restores the file system. -/
theorem moved_back {p q : Text} {node : Node} (found : fs.find? p = some node)
    (free : fs.find? q = none) : fs.Same ((fs.moved p q node).moved q p node) where
  workingDirectory := rfl
  faults := rfl
  find? := find?_moved_back found free

theorem attempt (same : fs.Same other) (call : Call) (p : Text) (subject : Subject) :
    other.attempt call p subject = fs.attempt call p subject := by
  rw [FileSystem.attempt, FileSystem.attempt, fault?_congr same.faults]

theorem follow (same : fs.Same other) (call : Call) (p : Text) :
    other.follow call p = fs.follow call p := by
  rw [FileSystem.follow, FileSystem.follow,
    followWithin_congr same.find? same.workingDirectory]

theorem access (same : fs.Same other) (p : Text) : other.access p = fs.access p := by
  rw [FileSystem.access, FileSystem.access, same.attempt, same.follow]

theorem readStart (same : fs.Same other) (p : Text) (limit : Nat) :
    other.readStart p limit = fs.readStart p limit := by
  simp only [FileSystem.readStart, same.attempt, same.follow]

theorem readFile (same : fs.Same other) (p : Text) : other.readFile p = fs.readFile p := by
  rw [FileSystem.readFile, FileSystem.readFile, same.attempt, same.follow]

end Same

end FileSystem

end FileProfile
