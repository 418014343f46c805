import RunnerKit.Binary64.Nearest
import RunnerKit.Path.Basic
import RunnerKit.Identity
import RunnerKit.Log
import RunnerKit.Match.Wire
import RunnerKit.Template.Context
import RunnerKit.Template.Basic
import RunnerKit.Template.Store
import RunnerKit.Project.Render
import RunnerKit.Storage.Memory
import RunnerKit.Storage.Disk
import RunnerKit.Storage.Recorder
import RunnerKit.Project.Scaffold
import RunnerKit.Output.LineWriter
import RunnerKit.Runner.Greeter
import RunnerKit.Runner.Scripted
import RunnerKit.Bus.Interface
import RunnerKit.Bus.Registration
import RunnerKit.Command.Error
import RunnerKit.CommandLine.Parser
import RunnerKit.Settings.Key
import RunnerKit.Settings.Json
import RunnerKit.Settings.Toml.Document
import RunnerKit.Settings.Toml.Reader
import RunnerKit.Settings.Basic
import RunnerKit.Settings.Environment
import RunnerKit.Settings.Load
import RunnerKit.Log.Filter
import RunnerKit.Settings.Toml.Writer
import RunnerKit.Command.Console
import RunnerKit.Command.Host
import RunnerKit.Command.Init
import RunnerKit.Command.Inspect
import RunnerKit.Command.New
import RunnerKit.Command.Serve
import RunnerKit.Command.Machine
import RunnerKit.Command.Run
import RunnerKit.Main
import RunnerKit.Proofs.Path.Components
import RunnerKit.Proofs.Path.Names
import RunnerKit.Proofs.Path.Order
import RunnerKit.Proofs.Path.Parent
import RunnerKit.Proofs.Path.Stretches
import RunnerKit.Proofs.Project.Outcome
import RunnerKit.Proofs.Project.Render
import RunnerKit.Proofs.Project.Runner
import RunnerKit.Proofs.Scaffold.Atomicity
import RunnerKit.Proofs.Scaffold.Commutation
import RunnerKit.Proofs.Scaffold.Course
import RunnerKit.Proofs.Scaffold.Generation
import RunnerKit.Proofs.Storage.Confined
import RunnerKit.Proofs.Storage.History
import RunnerKit.Proofs.Storage.Independent
import RunnerKit.Proofs.Storage.Memory
import RunnerKit.Proofs.Storage.Reachable
import RunnerKit.Proofs.Storage.Replay
import RunnerKit.Proofs.Storage.Sequence
import RunnerKit.Proofs.Storage.Spelling
import RunnerKit.Proofs.Storage.Transcript
import RunnerKit.Proofs.Output.LineWriter
import RunnerKit.Proofs.Text.Bytes
import RunnerKit.Proofs.Template.Concatenation
import RunnerKit.Proofs.Template.Cut
import RunnerKit.Proofs.Template.Rendering
import RunnerKit.Proofs.Template.Scan
import RunnerKit.Proofs.Template.Slice
import RunnerKit.Proofs.Scaffold.ReadBack
import RunnerKit.Proofs.Path.Walk
import RunnerKit.Proofs.Scaffold.Containment
import RunnerKit.Proofs.Template.Builtin
import RunnerKit.Proofs.Settings.Layers
import RunnerKit.Proofs.Settings.Load
import RunnerKit.Proofs.Storage.Disk
import RunnerKit.Proofs.Command.Checks
import RunnerKit.Proofs.Command.Init
import RunnerKit.Proofs.Command.New
import RunnerKit.Proofs.Command.Observed
import RunnerKit.Proofs.Identity
import RunnerKit.Proofs.Values
import RunnerKit.Proofs.Text.Order
import RunnerKit.Proofs.Template.Store
import RunnerKit.Proofs.Match.Property
import RunnerKit.Proofs.Match.Wire
import RunnerKit.Proofs.Bus.Interface
import RunnerKit.Proofs.Bus.Scripted
import RunnerKit.Proofs.Bus.Session
import RunnerKit.Proofs.Template.Acceptance
import RunnerKit.Proofs.Template.Install
import RunnerKit.Proofs.Storage.Tree
import RunnerKit.Proofs.Settings.Literals
import RunnerKit.Proofs.Settings.Variables
import RunnerKit.Proofs.Template.Seam
import RunnerKit.Proofs.Match.Building
import RunnerKit.Proofs.Binary64.Order
import RunnerKit.Proofs.Match.Relevance
import RunnerKit.Proofs.CommandLine.Variable
import RunnerKit.Proofs.CommandLine.Flag
import RunnerKit.Proofs.Command.Colour
import RunnerKit.Proofs.Output.Lines
import RunnerKit.Proofs.Text.Reader
import RunnerKit.Proofs.Settings.Toml.Keys
import RunnerKit.Proofs.Settings.Toml.Strings
import RunnerKit.Proofs.Settings.NamedFile
import RunnerKit.Proofs.Template.Manifest
import RunnerKit.Proofs.CommandLine.Quiet
import RunnerKit.Proofs.Command.Pairs
import RunnerKit.Proofs.Command.Quiet
import RunnerKit.Proofs.Command.Report
import RunnerKit.Proofs.Template.Table
