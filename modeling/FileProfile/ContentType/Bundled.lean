import FileProfile.ContentType.Rules

/-!
The bundled rules.
-/

namespace FileProfile

namespace Rules

/-- The rules of a database for which none are given. -/
def bundled : Rules where
  suffixes :=
    [(".desktop", "application/x-desktop"), (".kdelnk", "application/x-desktop"),
     (".sh", "application/x-shellscript"), (".bash", "application/x-shellscript"),
     (".ksh", "application/x-shellscript"), (".zsh", "application/x-zsh"),
     (".csh", "application/x-csh"), (".tcsh", "application/x-csh"), (".py", "text/x-python"),
     (".pyw", "text/x-python"), (".pl", "application/x-perl"), (".pm", "application/x-perl"),
     (".rb", "application/x-ruby"), (".AppImage", "application/x-executable"),
     (".so", "application/x-sharedlib"), (".o", "application/x-object"), (".md", "text/markdown"),
     (".ts", "text/x-typescript")]
  aliases :=
    [("application/x-sh", "application/x-shellscript"), ("text/x-sh", "application/x-shellscript"),
     ("text/x-shellscript", "application/x-shellscript"),
     ("application/x-bash", "application/x-shellscript"),
     ("application/x-elf", "application/x-executable"), ("application/x-python", "text/x-python"),
     ("text/x-script.python", "text/x-python"), ("text/x-perl", "application/x-perl"),
     ("application/x-ruby-script", "application/x-ruby"), ("text/x-markdown", "text/markdown"),
     ("application/x-javascript", "application/javascript"),
     ("text/javascript", "application/javascript")]
  subclasses :=
    [("application/x-shellscript", ["text/plain"]),
     ("application/x-zsh", ["application/x-shellscript"]),
     ("application/x-csh", ["application/x-shellscript"]),
     ("text/x-python", ["application/x-executable", "text/plain"]),
     ("application/x-perl", ["application/x-executable", "text/plain"]),
     ("application/x-ruby", ["application/x-executable", "text/plain"]),
     ("application/x-desktop", ["text/plain"]),
     ("application/x-executable", ["application/octet-stream"]),
     ("application/x-sharedlib", ["application/octet-stream"]),
     ("application/x-object", ["application/octet-stream"]),
     ("application/x-core", ["application/octet-stream"]),
     ("application/javascript", ["text/plain"]), ("application/json", ["application/javascript"]),
     ("application/xml", ["text/plain"]), ("text/markdown", ["text/plain"]),
     ("text/x-typescript", ["text/plain"]), ("text/plain", ["application/octet-stream"])]
  interpreters :=
    [("sh", "application/x-shellscript"), ("bash", "application/x-shellscript"),
     ("dash", "application/x-shellscript"), ("ksh", "application/x-shellscript"),
     ("zsh", "application/x-zsh"), ("csh", "application/x-csh"), ("tcsh", "application/x-csh"),
     ("python", "text/x-python"), ("perl", "application/x-perl"), ("ruby", "application/x-ruby"),
     ("node", "application/javascript")]
  signatures :=
    [⟨0, [0x89, 0x50, 0x4E, 0x47, 0x0D, 0x0A, 0x1A, 0x0A], "image/png"⟩,
     ⟨0, [0xFF, 0xD8, 0xFF], "image/jpeg"⟩, ⟨0, [0x47, 0x49, 0x46, 0x38], "image/gif"⟩,
     ⟨0, [0x25, 0x50, 0x44, 0x46, 0x2D], "application/pdf"⟩, ⟨0, [0x1F, 0x8B], "application/gzip"⟩,
     ⟨0, [0x50, 0x4B, 0x03, 0x04], "application/zip"⟩]

end Rules

end FileProfile
