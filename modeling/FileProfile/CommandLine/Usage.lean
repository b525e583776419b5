import FileProfile.Text.Basic

/-!
What the program prints about itself.
-/

namespace FileProfile

namespace Usage

def version : Text := "0.1.0"

def programLines : List String :=
  ["Usage: filemeta [options] [command]",
   "",
   "Inspect file metadata, rename files and plan launches",
   "",
   "Options:",
   "  -V, --version              output the version number",
   "  -c, --config <path>        Config file (default: nearest",
   "                             filemeta.config.yaml)",
   "  -l, --locale <locale...>   Preferred locales for translated names",
   "  -v, --log-level <level>    Log level: silent, warn, info, debug",
   "  -h, --help                 display help for command",
   "",
   "Commands:",
   "  info [options] <paths...>  Show the attributes, type and hints of files",
   "  rename <path> <name>       Rename a file, or change the display name of a",
   "                             desktop entry",
   "  plan <path> [targets...]   Print the command that would launch a file",
   "  help [command]             display help for command"]

def infoLines : List String :=
  ["Usage: filemeta info [options] <paths...>",
   "",
   "Show the attributes, type and hints of files",
   "",
   "Arguments:",
   "  paths       Files to describe",
   "",
   "Options:",
   "  --json      Print JSON instead of panels",
   "  -h, --help  display help for command"]

def renameLines : List String :=
  ["Usage: filemeta rename [options] <path> <name>",
   "",
   "Rename a file, or change the display name of a desktop entry",
   "",
   "Arguments:",
   "  path        File to rename",
   "  name        New name",
   "",
   "Options:",
   "  -h, --help  display help for command"]

def planLines : List String :=
  ["Usage: filemeta plan [options] <path> [targets...]",
   "",
   "Print the command that would launch a file",
   "",
   "Arguments:",
   "  path        Executable or desktop entry",
   "  targets     Files to pass to it",
   "",
   "Options:",
   "  -h, --help  display help for command"]

/-- A page of lines. -/
def page (lines : List String) : Text := Text.join "\n" (lines.map Text.ofString)

end Usage

end FileProfile
