import PortablePdb.Container.ContentId
import PortablePdb.Decompiled.Values
import PortablePdb.Document.Name
import PortablePdb.Document.Source
import PortablePdb.Document.VirtualPath
import PortablePdb.Heap.Guids
import PortablePdb.Heap.Strings
import PortablePdb.Imports.Blob
import PortablePdb.Json.Parser
import PortablePdb.Json.Printer
import PortablePdb.SequencePoints.Blob
import PortablePdb.Metadata.Rows.TypeSystem
import PortablePdb.Metadata.Rows.Debug
import PortablePdb.Metadata.Root
import PortablePdb.Metadata.TablesStream
import PortablePdb.Metadata.ClrHeader
import PortablePdb.Metadata.MethodBody
import PortablePdb.Module.Build
import PortablePdb.Module.Load
import PortablePdb.Decompiled.Manifest
import PortablePdb.Scopes.Collect
import PortablePdb.StateMachine
import PortablePdb.Container.Builder
import PortablePdb.Container.History
import PortablePdb.Container.Read
import PortablePdb.Metadata.Rows.Json
import PortablePdb.Module.Json
import PortablePdb.Generation.Generate
import PortablePdb.CommandLine.Files
import PortablePdb.Main
import PortablePdb.Proofs.Compressed
import PortablePdb.Proofs.SequencePoints
import PortablePdb.Proofs.Indices
import PortablePdb.Proofs.Rows
import PortablePdb.Proofs.TablesStream
import PortablePdb.Proofs.Related
import PortablePdb.Proofs.Root
import PortablePdb.Proofs.Container
import PortablePdb.Proofs.Heaps
import PortablePdb.Proofs.Names
import PortablePdb.Proofs.Deflate
import PortablePdb.Proofs.CustomInfo
import PortablePdb.Proofs.Contents
import PortablePdb.Proofs.Builder
import PortablePdb.Proofs.Merge
import PortablePdb.Proofs.References
import PortablePdb.Proofs.Numbering
import PortablePdb.Proofs.Finish
import PortablePdb.Proofs.Order
import PortablePdb.Proofs.Outcomes
import PortablePdb.Proofs.Patch
import PortablePdb.Proofs.Generation
import PortablePdb.Proofs.Minting
import PortablePdb.Proofs.Submissions
import PortablePdb.Proofs.FirstSubmission
import PortablePdb.Proofs.Growth
import PortablePdb.Proofs.Operations
import PortablePdb.Proofs.Failures
import PortablePdb.Proofs.Additions
import PortablePdb.Proofs.Tabulation
import PortablePdb.Proofs.Completeness
import PortablePdb.Proofs.Entries
import PortablePdb.Proofs.Modules
import PortablePdb.Proofs.Namespaces
import PortablePdb.Proofs.ImportChains
import PortablePdb.Proofs.Documents
import PortablePdb.Proofs.Generated
import PortablePdb.Proofs.LexicalImports
import PortablePdb.Proofs.Closure
import PortablePdb.Proofs.LostPoints
import PortablePdb.Proofs.Fitting
import PortablePdb.Proofs.Answers
import PortablePdb.Proofs.Writing
import PortablePdb.Proofs.Owners
import PortablePdb.Proofs.Room
import PortablePdb.Proofs.Limits
import PortablePdb.Proofs.Walk
import PortablePdb.Proofs.Finishing
import PortablePdb.Proofs.Resilience
import PortablePdb.Proofs.Checked.Words
import PortablePdb.Proofs.Checked.Reader
import PortablePdb.Proofs.Checked.Heaps
import PortablePdb.Proofs.Checked.Root
import PortablePdb.Proofs.Checked.Layout
import PortablePdb.Proofs.Checked.Tables
import PortablePdb.Proofs.Checked.Contents
import PortablePdb.Proofs.Checked.Container
import PortablePdb.Proofs.Checked.Image
import PortablePdb.Proofs.Checked.Module
import PortablePdb.Proofs.Interning
import PortablePdb.Proofs.CanonicalPoints
import PortablePdb.Proofs.LocalScopes
import PortablePdb.Proofs.EmbeddedSources
import PortablePdb.Proofs.Visits
import PortablePdb.Proofs.Nesting
import PortablePdb.Proofs.Collecting
import PortablePdb.Proofs.PlacedScopes
import PortablePdb.Proofs.ScopeLengths
import PortablePdb.Proofs.PatchFrame
import PortablePdb.Proofs.SharedNames
import PortablePdb.Proofs.CodedIndices
import PortablePdb.Proofs.Columns
import PortablePdb.Proofs.Directory
import PortablePdb.Proofs.Stepping
import PortablePdb.Proofs.Schema
import PortablePdb.Proofs.Segments
import PortablePdb.Proofs.VirtualPaths
import PortablePdb.Proofs.LoadedRows
import PortablePdb.Proofs.MethodRuns
import PortablePdb.Proofs.Grouping
import PortablePdb.Proofs.Banners
import PortablePdb.Proofs.Addresses
import PortablePdb.Proofs.ShortestForms
import PortablePdb.Proofs.BlobEntries
import PortablePdb.Proofs.Arrangements
import PortablePdb.Proofs.Numerals
import PortablePdb.Proofs.Manifests
import PortablePdb.Proofs.Locations
