import ObjectSync.Notice
import ObjectSync.Bytes.Basic
import ObjectSync.Identity.Guid
import ObjectSync.Identity.ObjectType
import ObjectSync.Geometry
import ObjectSync.Blocks.Span
import ObjectSync.Blocks.Strip
import ObjectSync.Blocks.Mask
import ObjectSync.Text.Quoted
import ObjectSync.Settings.Document
import ObjectSync.Declaration.SharedCatalog
import ObjectSync.State.Record
import ObjectSync.Message
import ObjectSync.Entity.Composite
import ObjectSync.Entity.Entries
import ObjectSync.Entity.Powers
import ObjectSync.Main
import ObjectSync.Proofs.Bytes.Reader
import ObjectSync.Proofs.Identity.Guid
import ObjectSync.Proofs.Identity.PackedForm
import ObjectSync.Proofs.Lists
import ObjectSync.Proofs.Runs
import ObjectSync.Proofs.Motion.FlagSet
import ObjectSync.Proofs.Motion.Living
import ObjectSync.Proofs.Motion.Movement
import ObjectSync.Proofs.Declaration.Arrangement
import ObjectSync.Proofs.Declaration.Slots
import ObjectSync.Proofs.Motion.Reading
import ObjectSync.Proofs.Motion.History
import ObjectSync.Proofs.Blocks.Mask
import ObjectSync.Proofs.Blocks.Marking
import ObjectSync.Proofs.Blocks.Number
import ObjectSync.Proofs.Blocks.Patches
import ObjectSync.Proofs.State.ValuesBlock
import ObjectSync.Proofs.State.DirtySet
import ObjectSync.Proofs.State.Record
import ObjectSync.Proofs.State.Decoding
import ObjectSync.Proofs.State.Parts
import ObjectSync.Proofs.State.Lossless
import ObjectSync.Proofs.State.Replica
import ObjectSync.Proofs.Declaration.Append
import ObjectSync.Proofs.State.Joined
import ObjectSync.Proofs.State.Composite
import ObjectSync.Proofs.Declaration.Verdict
import ObjectSync.Proofs.Declaration.Tiling
import ObjectSync.Proofs.Declaration.Layout
import ObjectSync.Proofs.Declaration.Alignment
import ObjectSync.Proofs.Declaration.Homes
import ObjectSync.Proofs.Declaration.Catalog
import ObjectSync.Proofs.Declaration.SharedCatalog
import ObjectSync.Proofs.Declaration.Lookup
import ObjectSync.Proofs.State.Changes
import ObjectSync.Proofs.State.Flagging
import ObjectSync.Proofs.State.LastWrite
import ObjectSync.Proofs.State.FlagRuns
import ObjectSync.Proofs.State.Elements
import ObjectSync.Proofs.State.Pushes
import ObjectSync.Proofs.State.Bounds
import ObjectSync.Proofs.State.FieldNames
import ObjectSync.Proofs.State.Words
import ObjectSync.Proofs.Entity.Fields
import ObjectSync.Proofs.Entity.Setters
import ObjectSync.Proofs.Entity.Entries
import ObjectSync.Proofs.Entity.Access
import ObjectSync.Proofs.Message
