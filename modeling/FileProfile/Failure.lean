import FileProfile.Document.Checked

/-!
Everything that can go wrong, by cause.

Each failure has a name, a message, a stable code and a wording for users; `Failure.toIo?` turns
the failure of a system call into one that names the file.
-/

namespace FileProfile

/-- The cause of a failure. -/
inductive Failure where
  /-- A system call failed on a file. -/
  | io (osCode message : Text) (path : Option Text) (errno : Option Int)
  /-- The name cannot name an entry of a directory. -/
  | invalidName (name : Text)
  /-- The name cannot be written in the encoding of the file system. -/
  | encoding (message : Text) (path : Option Text)
  /-- The destination of a rename is occupied. -/
  | alreadyExists (path : Text)
  /-- A desktop entry lacks its main group or is no text. -/
  | invalidFormat (message : Text) (path : Option Text)
  /-- A desktop entry has no command. -/
  | missingCommand (path : Text)
  /-- A desktop entry cannot be read for launching. -/
  | unreadableLauncher (path : Text) (reason : Option Text)
  /-- A command template cannot be expanded. -/
  | template (message source : Text)
  /-- A key file has a malformed line. -/
  | keyFile (message : Text) (line : Int)
  /-- Something released is used. -/
  | disposed (what : Text)
  /-- A failure of this kind without a cause of its own. -/
  | coded (code message : Text) (path : Option Text)
  /-- A system call failed, as the system reports it. -/
  | system (osCode message : Text) (errno : Option Int)
  /-- A configuration file does not fit its schema. -/
  | invalidConfig (path : Text) (issues : List Issue)
  /-- A configuration file has a fault of syntax. -/
  | documentSyntax (message : Text)
  /-- A time has no calendar form. -/
  | invalidTime
  /-- A kind of file without a content type of its own. -/
  | unhandledKind (kind : Text)
  /-- A value stands where one of another sort is needed. -/
  | mistyped (message : Text)
  /-- A failure of another component, known by its message. -/
  | general (message : Text)
deriving DecidableEq, Repr

namespace Failure

/-- A path in a message, which may be missing. -/
def pathText (path : Option Text) : Text := path.getD "undefined"

/-- The line of an issue in the message about a configuration file. -/
def issueLine (i : Issue) : Text :=
  "  - " ++ (if i.place = [] then ("(root)" : Text) else i.place) ++ ": " ++ i.message

def message : Failure → Text
  | .io _ message _ _ => message
  | .invalidName name => "Invalid file name: \"" ++ name ++ "\""
  | .encoding message _ => message
  | .alreadyExists path => "File already exists: " ++ path
  | .invalidFormat message _ => message
  | .missingCommand path => "No Exec field specified in " ++ path
  | .unreadableLauncher path reason =>
    "Unable to parse file " ++ path ++
      (match reason with
      | none | some [] => []
      | some r => ": " ++ r)
  | .template message _ => message
  | .keyFile message line => "Line " ++ Binary64.text line ++ ": " ++ message
  | .disposed what => what ++ " has already been released"
  | .coded _ message _ => message
  | .system _ message _ => message
  | .invalidConfig path issues =>
    "Invalid config in " ++ path ++ ":\n" ++ Text.join "\n" (issues.map issueLine)
  | .documentSyntax message => message
  | .invalidTime => "Invalid time value"
  | .unhandledKind kind => "Unhandled file kind: " ++ kind
  | .mistyped message => message
  | .general message => message

/-- The stable code of a failure that has one. -/
def code? : Failure → Option Text
  | .io .. => some "IO_ERROR"
  | .invalidName _ => some "INVALID_NAME"
  | .encoding .. => some "ENCODING_ERROR"
  | .alreadyExists _ => some "ALREADY_EXISTS"
  | .invalidFormat .. => some "INVALID_FORMAT"
  | .missingCommand _ => some "MISSING_EXEC_FIELD"
  | .unreadableLauncher .. => some "UNREADABLE_LAUNCHER"
  | .template .. => some "TEMPLATE_PARSE_ERROR"
  | .keyFile .. => some "KEY_FILE_PARSE_ERROR"
  | .disposed _ => some "DISPOSED"
  | .coded code _ _ => some code
  | .system .. | .invalidConfig .. | .documentSyntax _ | .invalidTime | .unhandledKind _
  | .mistyped _ | .general _ => none

/-- The file that the failure is about. -/
def path? : Failure → Option Text
  | .io _ _ path _ | .encoding _ path | .invalidFormat _ path | .coded _ _ path => path
  | .alreadyExists path | .missingCommand path | .unreadableLauncher path _ => some path
  | _ => none

/-- The wording for users. -/
def userMessage (f : Failure) : Text :=
  match f with
  | .io osCode message path _ =>
    if osCode = "ENOENT" then "No such file or directory: " ++ pathText path
    else if osCode = "EACCES" ∨ osCode = "EPERM" then "Permission denied: " ++ pathText path
    else if osCode = "EXDEV" then "Cannot move " ++ pathText path ++ " across filesystems"
    else message
  | .invalidName name =>
    if name = [] then "The file name must not be empty."
    else "\"" ++ name ++ "\" is not a valid file name."
  | .alreadyExists path => "The name is already in use: " ++ path
  | .invalidFormat message path =>
    "Invalid desktop file" ++
      (match path with
      | none | some [] => []
      | some p => " " ++ p) ++ ": " ++ message
  | .template message source => "Cannot parse command \"" ++ source ++ "\": " ++ message
  | f => f.message

/-- A failed system call as a failure on `path`; one that names its file already stays. Failures of
other causes have no such form. -/
def toIo? (path : Text) : Failure → Option Failure
  | .io osCode message p errno => some (.io osCode message p errno)
  | .system osCode message errno =>
    if osCode = [] then none else some (.io osCode message (some path) errno)
  | _ => none

end Failure

end FileProfile
