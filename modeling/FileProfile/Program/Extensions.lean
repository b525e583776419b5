import FileProfile.Table

/-!
The well-known extensions that the program is run with.
-/

namespace FileProfile

namespace Program

/-- Well-known extensions, written without their dot, and their types. -/
def extensionTypes : List (String × String) :=
  [("png", "image/png"), ("jpg", "image/jpeg"), ("jpeg", "image/jpeg"), ("gif", "image/gif"),
   ("txt", "text/plain"), ("html", "text/html"), ("htm", "text/html"), ("css", "text/css"),
   ("json", "application/json"), ("xml", "application/xml"), ("csv", "text/csv"),
   ("tsv", "text/tab-separated-values"), ("js", "application/javascript"),
   ("mjs", "application/javascript"), ("cjs", "application/node"), ("md", "text/markdown"),
   ("ts", "video/mp2t"), ("pdf", "application/pdf"), ("zip", "application/zip"),
   ("gz", "application/gzip"), ("tar", "application/x-tar"), ("mp3", "audio/mpeg"),
   ("mp4", "video/mp4"), ("wav", "audio/wave"), ("exe", "application/x-msdos-program"),
   ("deb", "application/x-debian-package"), ("rpm", "application/x-redhat-package-manager"),
   ("jar", "application/java-archive"), ("class", "application/java-vm"), ("c", "text/x-c"),
   ("h", "text/x-c"), ("cpp", "text/x-c"), ("java", "text/x-java-source"), ("yaml", "text/yaml"),
   ("yml", "text/yaml"), ("toml", "application/toml"), ("ini", "text/plain"),
   ("conf", "text/plain"), ("log", "text/plain"), ("svg", "image/svg+xml"), ("webp", "image/webp"),
   ("ics", "text/calendar"), ("rtf", "application/rtf"), ("doc", "application/msword"),
   ("docx", "application/vnd.openxmlformats-officedocument.wordprocessingml.document"),
   ("sh", "application/x-sh"), ("bin", "application/octet-stream"),
   ("iso", "application/x-iso9660-image"), ("dll", "application/x-msdownload"),
   ("so", "application/octet-stream"), ("pl", "application/x-perl"), ("csh", "application/x-csh"),
   ("lua", "text/x-lua"), ("php", "application/x-httpd-php"), ("text", "text/plain")]

/-- The well-known extensions as a table. -/
def extensions : Table Text :=
  extensionTypes.map fun entry => (Text.ofString entry.1, Text.ofString entry.2)

end Program

end FileProfile
