import HostFleet.Command.Arguments
import HostFleet.Command.Basic
import HostFleet.Command.Program
import HostFleet.Decimal.Binary64
import HostFleet.Decimal.Shortest
import HostFleet.FileSystem.Basic
import HostFleet.FileSystem.Path
import HostFleet.FileSystem.Snapshot
import HostFleet.FileSystem.Tree
import HostFleet.Fleet.Definition
import HostFleet.Fleet.Fault
import HostFleet.Fleet.Output
import HostFleet.Fleet.Report
import HostFleet.Fleet.Resolution
import HostFleet.Fleet.Run
import HostFleet.Fleet.Settings
import HostFleet.Fleet.Validation
import HostFleet.Json
import HostFleet.Log.Directive
import HostFleet.Log.Event
import HostFleet.Log.FieldCondition
import HostFleet.Log.Filter
import HostFleet.Log.Logged
import HostFleet.Main
import HostFleet.NameMap
import HostFleet.Overlay.Basic
import HostFleet.Overlay.Formula
import HostFleet.Overlay.Recipe
import HostFleet.Overlay.Solver
import HostFleet.Package.Artifact
import HostFleet.Package.Catalog
import HostFleet.Package.OverlayFile
import HostFleet.Package.Override
import HostFleet.Package.Set
import HostFleet.Package.Supply
import HostFleet.Pattern.Basic
import HostFleet.Pattern.Reader
import HostFleet.Pattern.Support
import HostFleet.Platform
import HostFleet.Proofs.Command.Agreement
import HostFleet.Proofs.Composition
import HostFleet.Proofs.FileSystem.Path
import HostFleet.Proofs.FileSystem.Tree
import HostFleet.Proofs.Fleet.Call
import HostFleet.Proofs.Fleet.History
import HostFleet.Proofs.Fleet.Loading
import HostFleet.Proofs.Fleet.Platforms
import HostFleet.Proofs.Fleet.RepeatedImports
import HostFleet.Proofs.Fleet.Resolution
import HostFleet.Proofs.Fleet.Run
import HostFleet.Proofs.Fleet.Separation
import HostFleet.Proofs.List
import HostFleet.Proofs.NameMap
import HostFleet.Proofs.Outcome
import HostFleet.Proofs.Overlay.Anew
import HostFleet.Proofs.Overlay.Balance
import HostFleet.Proofs.Overlay.Blame
import HostFleet.Proofs.Overlay.Call
import HostFleet.Proofs.Overlay.Correspondence
import HostFleet.Proofs.Overlay.Course
import HostFleet.Proofs.Overlay.Cycle
import HostFleet.Proofs.Overlay.Discipline
import HostFleet.Proofs.Overlay.Evaluation
import HostFleet.Proofs.Overlay.Fixpoint
import HostFleet.Proofs.Overlay.Grouping
import HostFleet.Proofs.Overlay.Growth
import HostFleet.Proofs.Overlay.Guard
import HostFleet.Proofs.Overlay.Memo
import HostFleet.Proofs.Overlay.Once
import HostFleet.Proofs.Overlay.Order
import HostFleet.Proofs.Overlay.Relay
import HostFleet.Proofs.Overlay.Settling
import HostFleet.Proofs.Overlay.Value
import HostFleet.Proofs.Overlay.Visibility
import HostFleet.Proofs.Package.Build
import HostFleet.Proofs.Package.Bundle
import HostFleet.Proofs.Package.ClosedForm
import HostFleet.Proofs.Package.Column
import HostFleet.Proofs.Package.Confusion
import HostFleet.Proofs.Package.Declared
import HostFleet.Proofs.Package.Demand
import HostFleet.Proofs.Package.Digest
import HostFleet.Proofs.Package.Replacement
import HostFleet.Proofs.Registry
import HostFleet.Proofs.Registry.Discovery
import HostFleet.Proofs.Registry.Ignored
import HostFleet.Proofs.Registry.Reference
import HostFleet.Proofs.Registry.Roster
import HostFleet.Proofs.Text.Utf8
import HostFleet.Registry
import HostFleet.Registry.Discovery
import HostFleet.Sha256
import HostFleet.Text.Character
import HostFleet.Text.Quoted
import HostFleet.Text.Utf8
import HostFleet.Toml.Decode
import HostFleet.Toml.Draft
import HostFleet.Toml.Number
import HostFleet.Toml.Reader
import HostFleet.Toml.Scan
import HostFleet.Toml.Value
