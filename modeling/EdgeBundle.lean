import EdgeBundle.Build
import EdgeBundle.Bundle.Assemble
import EdgeBundle.Cli.Run
import EdgeBundle.Files.Disk
import EdgeBundle.Json.Parser
import EdgeBundle.Link
import EdgeBundle.Main
import EdgeBundle.Module.Linked
import EdgeBundle.Patch
import EdgeBundle.Proofs.Link.Account
import EdgeBundle.Proofs.Link.Embedding
import EdgeBundle.Proofs.Link.Groups
import EdgeBundle.Proofs.Link.Strictness
import EdgeBundle.Proofs.Module.Declaration
import EdgeBundle.Proofs.Module.Registry
import EdgeBundle.Proofs.Module.StaticImport
import EdgeBundle.Proofs.Patch.Default
import EdgeBundle.Proofs.Token.Template
import EdgeBundle.Proofs.Vfs.Literal
import EdgeBundle.Token.Lexer
import EdgeBundle.Vfs.Draft
import EdgeBundle.Vfs.Lookup
import EdgeBundle.Proofs.Link.Collection
import EdgeBundle.Proofs.Bundle.Frame
import EdgeBundle.Proofs.Token.Locality
import EdgeBundle.Proofs.Token.Layout
import EdgeBundle.Proofs.Text.Utf16
import EdgeBundle.Proofs.Vfs.Request
import EdgeBundle.Proofs.Vfs.Runtime
import EdgeBundle.Proofs.Vfs.Agreement
import EdgeBundle.Proofs.Vfs.Specificity
import EdgeBundle.Proofs.Module.Separator
import EdgeBundle.Proofs.Patch.Spared
import EdgeBundle.Proofs.Patch.Nesting
import EdgeBundle.Proofs.Module.Builtin
import EdgeBundle.Proofs.Module.DefaultExport
import EdgeBundle.Proofs.Module.Binding
import EdgeBundle.Proofs.Token.Slash
import EdgeBundle.Proofs.Module.References
import EdgeBundle.Proofs.Token.Enclosed
import EdgeBundle.Proofs.Module.Wrapper
import EdgeBundle.Proofs.Link.Findings
import EdgeBundle.Proofs.Module.Reading
import EdgeBundle.Proofs.Token.LineEnding
import EdgeBundle.Proofs.Module.LineEnding
import EdgeBundle.Proofs.Token.LeadingWord
import EdgeBundle.Proofs.Module.ByteOrderMark
import EdgeBundle.Proofs.Token.Regex
import EdgeBundle.Proofs.Module.Change
import EdgeBundle.Proofs.Module.DefaultRegex
import EdgeBundle.Proofs.Vfs.Insertion
import EdgeBundle.Proofs.Vfs.Spelling
import EdgeBundle.Proofs.Patch.Outcome
import EdgeBundle.Proofs.Path.Resolution
import EdgeBundle.Proofs.Path.Canonical
import EdgeBundle.Proofs.Files.Collection
import EdgeBundle.Proofs.Link.Entry
import EdgeBundle.Proofs.Link.Build
import EdgeBundle.Proofs.Files.Spared
import EdgeBundle.Proofs.Token.Fault
import EdgeBundle.Proofs.Output.Format
