import WasmSourceMap.Bytes
import WasmSourceMap.Bytes.Lemmas
import WasmSourceMap.Leb128
import WasmSourceMap.Vlq
import WasmSourceMap.Text.Digits
import WasmSourceMap.Text.Hexadecimal
import WasmSourceMap.Text.Printable
import WasmSourceMap.Text.Quoted
import WasmSourceMap.Text.Split
import WasmSourceMap.Text.Utf8
import WasmSourceMap.Text.Wide
import WasmSourceMap.Reader
import WasmSourceMap.Reader.Progress
import WasmSourceMap.ByteStream
import WasmSourceMap.Container.Fault
import WasmSourceMap.Container.Section
import WasmSourceMap.Container.Contents
import WasmSourceMap.Container.Symbol
import WasmSourceMap.Container.Relocation
import WasmSourceMap.Container.Module
import WasmSourceMap.Relocation.Map
import WasmSourceMap.Relocation.Resolve
import WasmSourceMap.Dwarf.Fault
import WasmSourceMap.Dwarf.Form
import WasmSourceMap.Dwarf.Sections
import WasmSourceMap.Dwarf.UnitHeader
import WasmSourceMap.Dwarf.Abbreviation
import WasmSourceMap.Dwarf.UnitEntry
import WasmSourceMap.Dwarf.LineHeader
import WasmSourceMap.Dwarf.LineProgram
import WasmSourceMap.Dwarf.LineTable
import WasmSourceMap.Dwarf.Summary
import WasmSourceMap.Json.Value
import WasmSourceMap.Json.Token
import WasmSourceMap.Json.Parser
import WasmSourceMap.Json.Escape
import WasmSourceMap.Json.Printer
import WasmSourceMap.SourcePath
import WasmSourceMap.FilePath
import WasmSourceMap.FileSystem
import WasmSourceMap.Position.Table
import WasmSourceMap.SourceMap.Artifact
import WasmSourceMap.SourceMap.Encode
import WasmSourceMap.SourceMap.Mapping
import WasmSourceMap.Notice
import WasmSourceMap.Position.Build
import WasmSourceMap.Fault
import WasmSourceMap.UrlSection
import WasmSourceMap.Patcher
import WasmSourceMap.Config
import WasmSourceMap.Session
import WasmSourceMap.CommandLine.Arguments
import WasmSourceMap.CommandLine.Run
import WasmSourceMap.CommandLine.Inputs
import WasmSourceMap.Main
import WasmSourceMap.Proofs.Results
import WasmSourceMap.Proofs.Text.Utf8
import WasmSourceMap.Proofs.Leb128
import WasmSourceMap.Proofs.Reader.Extension
import WasmSourceMap.Proofs.Reader.Written
import WasmSourceMap.Proofs.Leb128.Numeral
import WasmSourceMap.Proofs.Container.Stability
import WasmSourceMap.Proofs.Container.Appending
import WasmSourceMap.Proofs.Vlq.RoundTrip
import WasmSourceMap.Proofs.Position.LastWrite
import WasmSourceMap.Proofs.Position.KnownPaths
import WasmSourceMap.Proofs.Position.DecodedRows
import WasmSourceMap.Proofs.SourceMap.RoundTrip
import WasmSourceMap.Proofs.SourceMap.Rows
import WasmSourceMap.Proofs.Session.Appending
import WasmSourceMap.Proofs.Text.Wide
import WasmSourceMap.Proofs.FileSystem.Walks
import WasmSourceMap.Proofs.FileSystem
import WasmSourceMap.Proofs.Json.Words
import WasmSourceMap.Proofs.Json.Scanning
import WasmSourceMap.Proofs.Json.RoundTrip
import WasmSourceMap.Proofs.Patching.Sessions
import WasmSourceMap.Proofs.Container.Layout
import WasmSourceMap.Proofs.Container.Reporting
import WasmSourceMap.Proofs.Relocation.Fields
import WasmSourceMap.Proofs.Dwarf.RelocatedSections
import WasmSourceMap.Proofs.Patching.Failures
import WasmSourceMap.Proofs.Dwarf.Recall
import WasmSourceMap.Proofs.Position.Outcomes
import WasmSourceMap.Proofs.Position.UnitRows
import WasmSourceMap.Proofs.Dwarf.LineRun
import WasmSourceMap.Proofs.Position.Skipping
import WasmSourceMap.Proofs.Position.Encodable
import WasmSourceMap.Proofs.SourcePath.Joining
import WasmSourceMap.Proofs.Position.FileVersions
import WasmSourceMap.Proofs.Position.Translation
import WasmSourceMap.Proofs.Dwarf.ReadFaults
import WasmSourceMap.Proofs.Dwarf.Causes
import WasmSourceMap.Proofs.Position.Endings
import WasmSourceMap.Proofs.SourceMap.Text
import WasmSourceMap.Proofs.SourcePath.Schemes
import WasmSourceMap.Proofs.FileSystem.Writing
import WasmSourceMap.Proofs.CommandLine.Drafts
import WasmSourceMap.Proofs.CommandLine.Effects
import WasmSourceMap.Proofs.CommandLine.BesideModule
import WasmSourceMap.Proofs.Container.Truncation
import WasmSourceMap.Proofs.Container.Written.Contents
import WasmSourceMap.Proofs.Container.Written.Modules
import WasmSourceMap.Proofs.Container.Written.Payloads
import WasmSourceMap.Proofs.Container.Written.Functions
import WasmSourceMap.Proofs.Container.Written.Tables
import WasmSourceMap.Proofs.Reader.Refusing
import WasmSourceMap.Proofs.Container.Written.Relocations
import WasmSourceMap.Proofs.Container.Written.RelocatedModules
import WasmSourceMap.Proofs.Relocation.Insertions
import WasmSourceMap.Proofs.Relocation.Writing
import WasmSourceMap.Proofs.Relocation.Resolving
import WasmSourceMap.Proofs.Relocation.History
import WasmSourceMap.Proofs.Dictionary
import WasmSourceMap.Proofs.Relocation.Dictionaries
import WasmSourceMap.Proofs.SourceMap.WriteOrder
import WasmSourceMap.Proofs.SourceMap.SourceNumbers
import WasmSourceMap.Proofs.SourceMap.Segments
import WasmSourceMap.Proofs.SourceMap.GeneratedLines
import WasmSourceMap.Proofs.GroupCode
import WasmSourceMap.Proofs.Vlq.Spelling
import WasmSourceMap.Proofs.Vlq.Acceptance
import WasmSourceMap.Proofs.Text.Runs
import WasmSourceMap.Proofs.SourceMap.Marks
import WasmSourceMap.Proofs.SourceMap.Grammar
import WasmSourceMap.Proofs.Leb128.Agreement
import WasmSourceMap.Proofs.Leb128.TwosComplement
import WasmSourceMap.Proofs.SourcePath.Absolute
import WasmSourceMap.Proofs.SourcePath.Places
import WasmSourceMap.Proofs.SourcePath.Respelling
import WasmSourceMap.Proofs.SourceMap.Bundling
import WasmSourceMap.Proofs.Json.Indented
import WasmSourceMap.Proofs.Config.Members
import WasmSourceMap.Proofs.Config.Saving
import WasmSourceMap.Proofs.Container.Stretches
import WasmSourceMap.Proofs.Dwarf.SplitSections
import WasmSourceMap.Proofs.Reader.Locality
import WasmSourceMap.Proofs.Reader.Rounds
import WasmSourceMap.Proofs.Container.Counts
