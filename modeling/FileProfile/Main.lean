import FileProfile.CommandLine.Run
import FileProfile.Document.Reader
import FileProfile.Program.Extensions
import FileProfile.Storage.Image

/-!
The program: runs its command line on the image of a file system.

The variable `FILEMETA_IMAGE` names a file with the image, and what the run changes is written back
to it. Without the variable the file system is empty.
-/

namespace FileProfile

namespace Program

/-- The text of a variable. -/
def readVariable (name : String) : IO (Option Text) := do
  return (← IO.getEnv name).map Text.ofString

def readEnvironment : IO Environment := do
  return {
    preferences := {
      language := ← readVariable "LANGUAGE"
      lcAll := ← readVariable "LC_ALL"
      lcMessages := ← readVariable "LC_MESSAGES"
      lang := ← readVariable "LANG" }
    display := ← readVariable "DISPLAY"
    logLevel := ← readVariable "FILEMETA_LOG_LEVEL" }

/-- The file system in a file that holds an image. -/
def readImage (workingDirectory : Text) (file : String) : IO FileSystem := do
  match Document.read (Text.ofString (← IO.FS.readFile file)) with
  | .ok image => return Image.read workingDirectory image
  | .error _ => throw (IO.userError "malformed image")

/-- As many octets drawn at random. -/
def drawOctets : Nat → IO Octets
  | 0 => return []
  | n + 1 => return (← IO.rand 0 255).toUInt8 :: (← drawOctets n)

def readHost : IO CommandLine.Host := return { extensions, random := ← drawOctets 6 }

/-- A text as a string; an unpaired surrogate becomes a replacement character. -/
def display (t : Text) : String :=
  (Utf8.decodeLossy (Utf8.encode t)).toString?.getD ""

end Program

end FileProfile

open FileProfile Program in
def main (args : List String) : IO UInt32 := do
  let file ← IO.getEnv "FILEMETA_IMAGE"
  let workingDirectory := Text.ofString (← IO.currentDir).toString
  let files ← match file with
    | some name => readImage workingDirectory name
    | none => pure { workingDirectory }
  let outcome :=
    CommandLine.run (args.map Text.ofString) files (← readEnvironment) (← readHost)
  for line in outcome.stdout do IO.println (display line)
  for line in outcome.stderr do IO.eprintln (display line)
  if let some name := file then
    IO.FS.writeFile name (display (Document.toJsonText (Image.write outcome.files)))
  return outcome.exitCode.toUInt32
