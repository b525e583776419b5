import FileProfile.Proofs.ContentType.Interpreter
import FileProfile.Proofs.ContentType.Sniffing

/-!
Octets that tell no name of a type.

What octets tell is a text, unless the record of interpreters has something else under the name that
a script line gives. Of all names that can be read from such a line that is so for one
(`inherits_interpreter_iff`): the octets are those of a script that runs `constructor`, without any
mark in front that tells more (`not_isText_sniff_iff`).
-/

namespace FileProfile

namespace ContentType

/-- The octets of such a script. -/
def unnamedScript : Octets := Utf8.encode "#!/usr/bin/constructor"

example : sniff Rules.bundled unnamedScript = .inherited ⟨constructorKey, by decide⟩ := by
  decide +kernel

end ContentType

end FileProfile
