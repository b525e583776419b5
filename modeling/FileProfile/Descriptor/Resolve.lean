import FileProfile.Descriptor.Lifetime
import FileProfile.Launch.Entry
import FileProfile.Launch.Template
import FileProfile.Locale

/-!
Resolving a path into a descriptor: its attributes, then its kind and content type, then what a
desktop entry says about itself.

Links are followed where something stands behind them. Only the first look at the path can fail; a
file that cannot be looked into is classified by what is known.
-/

namespace FileProfile

/-- Where the attributes of a path come from. -/
inductive LinkState where
  /-- The path is no link. -/
  | none
  /-- The path is a link, and the attributes are those of the file behind it. -/
  | followed
  /-- The path is a link, and the attributes are its own. -/
  | dangling
deriving DecidableEq, Repr

namespace LinkState

def all : List LinkState := [.none, .followed, .dangling]

def name : LinkState → Text
  | .none => "none"
  | .followed => "followed"
  | .dangling => "dangling"

def ofName? (name : Text) : Option LinkState := all.find? fun l => l.name = name

end LinkState

structure ResolvedAttributes where
  attributes : Attributes
  link : LinkState
deriving DecidableEq, Repr

/-- The attributes of a path, those of the file behind a link where there is one. -/
def FileSystem.resolveAttributes (fs : FileSystem) (path : Text) :
    Except Failure ResolvedAttributes :=
  match fs.lstat path with
  | .error e => .error (e.failureOn path)
  | .ok node =>
    if node.kind = .symlink then
      match fs.stat path with
      | .ok behind => .ok ⟨behind.attributes, .followed⟩
      | .error _ => .ok ⟨node.attributes, .dangling⟩
    else .ok ⟨node.attributes, .none⟩

/-- Whether a file may be read by someone and executed. -/
def FileSystem.isExecutePermitted (fs : FileSystem) (path : Text) (mode : Int) : Bool :=
  Word32.land mode 0o444 ≠ 0 && (fs.access path).toBool

/-- The kind of a file, a reference to its content type, and whether it may be executed. -/
structure Classification where
  kind : FileKind
  contentType : HandleId
  /-- The permissions allow execution. -/
  executePermitted : Bool
  /-- The permissions allow execution and the type is one of programs. -/
  executable : Bool
deriving DecidableEq, Repr

/-- The flags of a file. A launchable desktop entry counts as executable where the permissions allow
execution. -/
def computeFlags (link : LinkState) (executable executePermitted : Bool)
    (launchable : Option Bool) : Int :=
  (if link = .none then 0 else Flag.symlink.bit)
    + (if executable || (executePermitted && launchable = some true) then Flag.executable.bit
      else 0)

/-- The surroundings of the operations on descriptors. -/
structure Context where
  /-- The locales of displayed names, the preferred first. -/
  locales : List Text := [Locale.neutral]
  /-- The command in front of a program that runs in a terminal. -/
  terminalCommand : List Text := defaultTerminalCommand
  /-- The display that launched programs appear on. -/
  display : Option Text := none
  /-- Octets drawn at random, for the name of a temporary file. -/
  random : Octets := []
deriving DecidableEq, Repr

namespace Action

/-- Whether one of the names of a type and its ancestors is a type of programs. Names that cannot be
listed count as none. -/
def isExecutableAmong (name : TypeName) (ancestry : Except Failure (List TypeName)) :
    Action Bool :=
  match ancestry with
  | .ok names => return names.any fun n => n ∈ ContentType.executableTypes.map TypeName.text
  | .error e => do
    record .debug ("Cannot list parents of " ++ name.spelled ++ ": " ++ e.message)
    return false

/-- Whether a content type is one of programs. -/
def isExecutableType (h : HandleId) : Action Bool := do
  let store ← types
  isExecutableAmong (store.nameOf h) (store.ancestors (store.nameOf h))

/-- Classifies a regular file by its name and contents. -/
def classifyRegular (path displayName : Text) (mode : Int) : Action Classification := do
  let contentType ← lookupForFile path displayName
  let executePermitted := (← files).isExecutePermitted path mode
  let executable ← if executePermitted then isExecutableType contentType else pure false
  return { kind := .regular, contentType, executePermitted, executable }

/-- The kind that resolved attributes tell. -/
def kindOf (resolved : ResolvedAttributes) : FileKind :=
  if resolved.link = .dangling then .symlink else FileKind.ofMode resolved.attributes.mode

/-- Classifies a file: a regular one by its name and contents, any other by its kind. -/
def classify (path displayName : Text) (resolved : ResolvedAttributes) : Action Classification := do
  let kind := kindOf resolved
  match kind.contentType? with
  | none => classifyRegular path displayName resolved.attributes.mode
  | some type =>
    let contentType ← lookupType type
    return { kind, contentType, executePermitted := false, executable := false }

/-- What a desktop entry says about launching; nothing where the type is another one or the file
cannot be read. -/
def launcherOf (path : Text) (contentType : HandleId) (locales : List Text) :
    Action (Option Launcher) := do
  if (← typeName contentType) ≠ ContentType.desktopEntry then return none
  match DesktopEntry.read (← files) path with
  | .ok entry => return some (DesktopEntry.launcher entry locales)
  | .error e =>
    record .debug ("Ignoring desktop entry " ++ path ++ ": " ++ e.message)
    return none

/-- A new descriptor of a path. -/
def resolve (path : Text) (context : Context) : Action DescriptorId := do
  let identity := Identity.forPath (← files).workingDirectory path
  let resolved ← ofExcept ((← files).resolveAttributes identity.path)
  let classification ← classify identity.path identity.displayName resolved
  let launcher ← launcherOf identity.path classification.contentType context.locales
  add (.new identity classification.kind resolved.attributes
    (computeFlags resolved.link classification.executable classification.executePermitted
      (launcher.map Launcher.isLaunchable))
    classification.contentType (launcher.map Launcher.hints))

end Action

end FileProfile
