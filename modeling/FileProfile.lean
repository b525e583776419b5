import FileProfile.CommandLine.Arguments
import FileProfile.CommandLine.Options
import FileProfile.CommandLine.Run
import FileProfile.CommandLine.Usage
import FileProfile.ContentType.Ancestry
import FileProfile.ContentType.Bundled
import FileProfile.ContentType.Naming
import FileProfile.ContentType.Rules
import FileProfile.ContentType.Sniff
import FileProfile.ContentType.Store
import FileProfile.ContentType.TypeName
import FileProfile.Descriptor.Basic
import FileProfile.Descriptor.Lifetime
import FileProfile.Descriptor.Refresh
import FileProfile.Descriptor.Rename
import FileProfile.Descriptor.Resolve
import FileProfile.Document.Basic
import FileProfile.Document.Checked
import FileProfile.Document.Cursor
import FileProfile.Document.Folded
import FileProfile.Document.Key
import FileProfile.Document.Reader
import FileProfile.Document.Scalar
import FileProfile.Document.SyntaxFault
import FileProfile.Document.Writer
import FileProfile.Failure
import FileProfile.FileKind
import FileProfile.FileName
import FileProfile.FileUri
import FileProfile.Identity
import FileProfile.KeyFile.Basic
import FileProfile.KeyFile.Escape
import FileProfile.Launch.Entry
import FileProfile.Launch.Plan
import FileProfile.Launch.Quoted
import FileProfile.Launch.Template
import FileProfile.Launch.Words
import FileProfile.Locale
import FileProfile.Log
import FileProfile.Main
import FileProfile.Number.Binary64
import FileProfile.Number.Fraction
import FileProfile.Number.Numeral
import FileProfile.Number.Timestamp
import FileProfile.Number.Word32
import FileProfile.Path
import FileProfile.Program.Extensions
import FileProfile.Report
import FileProfile.Session.Basic
import FileProfile.Session.Types
import FileProfile.Settings.Basic
import FileProfile.Settings.Config
import FileProfile.Settings.Search
import FileProfile.Storage.FileSystem
import FileProfile.Storage.Image
import FileProfile.Storage.Replace
import FileProfile.Storage.SystemError
import FileProfile.Table
import FileProfile.Text.Basic
import FileProfile.Text.Blank
import FileProfile.Text.ControlSequence
import FileProfile.Text.DisplayWidth
import FileProfile.Text.EditDistance
import FileProfile.Text.Emoji
import FileProfile.Text.Emoji.Table
import FileProfile.Text.LowerCase
import FileProfile.Text.LowerCase.Table
import FileProfile.Text.Utf8
import FileProfile.Text.Wrap
import FileProfile.Proofs.ContentType.Counting
import FileProfile.Proofs.Text.Cutting
import FileProfile.Proofs.Path.Normal
import FileProfile.Proofs.Storage.Links
import FileProfile.Proofs.Descriptor.Resolution
import FileProfile.Proofs.Descriptor.Changes
import FileProfile.Proofs.Descriptor.Renaming
import FileProfile.Proofs.Number.Bits
import FileProfile.Proofs.Session.Run
import FileProfile.Proofs.Descriptor.Moved
import FileProfile.Proofs.Storage.Replace
import FileProfile.Proofs.Descriptor.Failed
import FileProfile.Proofs.Text.Paired
import FileProfile.Proofs.Text.Utf8
import FileProfile.Proofs.Text.Lines
import FileProfile.Proofs.Text.Terminators
import FileProfile.Proofs.KeyFile.Escaping
import FileProfile.Proofs.KeyFile.Rows
import FileProfile.Proofs.KeyFile.Place
import FileProfile.Proofs.KeyFile.Edit
import FileProfile.Proofs.Descriptor.Entry
import FileProfile.Proofs.Descriptor.Edited
import FileProfile.Proofs.KeyFile.Content
import FileProfile.Proofs.KeyFile.Reread
import FileProfile.Proofs.KeyFile.Resetting
import FileProfile.Proofs.Launch.Entry
import FileProfile.Proofs.Descriptor.Retitled
import FileProfile.Proofs.Session.Types
import FileProfile.Proofs.ContentType.Interning
import FileProfile.Proofs.Session.Accounts
import FileProfile.Proofs.Session.Revival
import FileProfile.Proofs.Descriptor.Refreshing
import FileProfile.Proofs.Descriptor.Renamed
import FileProfile.Proofs.Session.Balance
import FileProfile.Proofs.Session.Comparison
import FileProfile.Proofs.Descriptor.Specified
import FileProfile.Proofs.Launch.Quoted
import FileProfile.Proofs.Launch.Skeleton
import FileProfile.Proofs.Storage.Undone
import FileProfile.Proofs.Launch.Doubled
import FileProfile.Proofs.Launch.Literal
import FileProfile.Proofs.KeyFile.Settled
import FileProfile.Proofs.KeyFile.Legible
import FileProfile.Proofs.KeyFile.Outline
import FileProfile.Proofs.KeyFile.Settings
import FileProfile.Proofs.Session.Holding
import FileProfile.Proofs.CommandLine.Showing
import FileProfile.Proofs.CommandLine.Releasing
import FileProfile.Proofs.Session.Causes
import FileProfile.Proofs.KeyFile.Rewritten
import FileProfile.Proofs.KeyFile.SetLine
import FileProfile.Proofs.Session.Alterations
import FileProfile.Proofs.Descriptor.Steady
import FileProfile.Proofs.Storage.Same
import FileProfile.Proofs.ContentType.Exchange
import FileProfile.Proofs.Descriptor.Restored
import FileProfile.Proofs.KeyFile.Mapping
import FileProfile.Proofs.KeyFile.Grammar
import FileProfile.Proofs.KeyFile.Localized
import FileProfile.Proofs.Text.Opening
import FileProfile.Proofs.ContentType.Sniffing
import FileProfile.Proofs.ContentType.Ancestry
import FileProfile.Proofs.Launch.Agreement
import FileProfile.Proofs.Settings.Accepted
import FileProfile.Proofs.Settings.Overrides
import FileProfile.Proofs.FileName.Carried
import FileProfile.Proofs.Descriptor.Beside
import FileProfile.Proofs.Locale.Expansion
import FileProfile.Proofs.Locale.Normalizing
import FileProfile.Proofs.ContentType.Recognition
import FileProfile.Proofs.Identity.Distinct
import FileProfile.Proofs.Locale.Nesting
import FileProfile.Proofs.Settings.Nearest
import FileProfile.Proofs.Session.Custody
import FileProfile.Proofs.Session.Inert
import FileProfile.Proofs.ContentType.Interpreter
