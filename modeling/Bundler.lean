import Bundler.Artifact
import Bundler.Attempt
import Bundler.Command.Arguments
import Bundler.Command.Handlers
import Bundler.Compiler.Basic
import Bundler.Compiler.Bundle
import Bundler.Compiler.Install
import Bundler.Compiler.Run
import Bundler.Config.Basic
import Bundler.Config.Entry
import Bundler.Config.Mistake
import Bundler.Config.Settings
import Bundler.Config.Validate
import Bundler.Console.Basic
import Bundler.Console.Vocabulary
import Bundler.Console.Markup
import Bundler.Console.Table
import Bundler.Console.Wrap
import Bundler.Data.Decimal
import Bundler.Data.Integer
import Bundler.Data.Json
import Bundler.Data.Toml
import Bundler.Data.Value
import Bundler.Fault.Basic
import Bundler.Fault.Report
import Bundler.Files.Links
import Bundler.Files.Tree
import Bundler.Grammar.Module
import Bundler.Grammar.Pattern
import Bundler.Grammar.Rules
import Bundler.Grammar.Tree
import Bundler.Graph.Basic
import Bundler.Hook.Basic
import Bundler.Hook.Phase
import Bundler.Identity
import Bundler.Library.Basic
import Bundler.Library.Standard
import Bundler.Load.Call
import Bundler.Load.Retarget
import Bundler.Load.Shape
import Bundler.Main
import Bundler.Path.Basic
import Bundler.Path.Lexical
import Bundler.Pipeline
import Bundler.Plugin
import Bundler.Processing
import Bundler.Proofs.Agreement
import Bundler.Proofs.Artifact.Boundary
import Bundler.Proofs.Artifact.Lines
import Bundler.Proofs.Artifact.OneLine
import Bundler.Proofs.Artifact.Reading
import Bundler.Proofs.Artifact.Recovery
import Bundler.Proofs.Artifact.Words
import Bundler.Proofs.Attempt
import Bundler.Proofs.Command.Graph
import Bundler.Proofs.Compiler.Again
import Bundler.Proofs.Compiler.Build
import Bundler.Proofs.Compiler.Callbacks
import Bundler.Proofs.Compiler.Effects
import Bundler.Proofs.Compiler.Elsewhere
import Bundler.Proofs.Compiler.Events
import Bundler.Proofs.Compiler.Frame
import Bundler.Proofs.Compiler.Levels
import Bundler.Proofs.Compiler.Lifecycle
import Bundler.Proofs.Compiler.Located
import Bundler.Proofs.Compiler.Making
import Bundler.Proofs.Compiler.Modules
import Bundler.Proofs.Config.Anchoring
import Bundler.Proofs.Config.Arguments
import Bundler.Proofs.Config.Checking
import Bundler.Proofs.Config.Loading
import Bundler.Proofs.Config.Merging
import Bundler.Proofs.Config.Names
import Bundler.Proofs.Config.Overriding
import Bundler.Proofs.Config.Refusals
import Bundler.Proofs.Console.Cells
import Bundler.Proofs.Console.Literal
import Bundler.Proofs.Console.Logging
import Bundler.Proofs.Console.Markup
import Bundler.Proofs.Console.Messages
import Bundler.Proofs.Data.Documents
import Bundler.Proofs.Files.Again
import Bundler.Proofs.Files.Elsewhere
import Bundler.Proofs.Files.Links
import Bundler.Proofs.Files.Places
import Bundler.Proofs.Files.Writing
import Bundler.Proofs.Grammar.Alike
import Bundler.Proofs.Grammar.Apart
import Bundler.Proofs.Grammar.Called
import Bundler.Proofs.Grammar.Carried
import Bundler.Proofs.Grammar.Cases
import Bundler.Proofs.Grammar.Depth
import Bundler.Proofs.Grammar.Enclosed
import Bundler.Proofs.Grammar.Ending
import Bundler.Proofs.Grammar.First
import Bundler.Proofs.Grammar.Forms
import Bundler.Proofs.Grammar.InLine
import Bundler.Proofs.Grammar.Plain
import Bundler.Proofs.Grammar.Reads
import Bundler.Proofs.Grammar.Signed
import Bundler.Proofs.Grammar.Standing
import Bundler.Proofs.Grammar.Statements
import Bundler.Proofs.Grammar.Tables
import Bundler.Proofs.Grammar.Tandem
import Bundler.Proofs.Grammar.Turned
import Bundler.Proofs.Grammar.Varied
import Bundler.Proofs.Graph.Again
import Bundler.Proofs.Graph.Elsewhere
import Bundler.Proofs.Graph.Entries
import Bundler.Proofs.Graph.Evidence
import Bundler.Proofs.Graph.Expansions
import Bundler.Proofs.Graph.Exploration
import Bundler.Proofs.Graph.Reachability
import Bundler.Proofs.Graph.Registry
import Bundler.Proofs.Graph.Requests
import Bundler.Proofs.Graph.Tally
import Bundler.Proofs.Graph.Verdict
import Bundler.Proofs.Hook.Spelling
import Bundler.Proofs.Load.Again
import Bundler.Proofs.Load.Bare
import Bundler.Proofs.Load.Calls
import Bundler.Proofs.Load.Edits
import Bundler.Proofs.Load.Exchange
import Bundler.Proofs.Load.Inert
import Bundler.Proofs.Load.Literal
import Bundler.Proofs.Load.Meaning
import Bundler.Proofs.Load.Refusals
import Bundler.Proofs.Load.Renewed
import Bundler.Proofs.Load.Shapes
import Bundler.Proofs.Load.Targets
import Bundler.Proofs.Path.Again
import Bundler.Proofs.Path.Destination
import Bundler.Proofs.Path.Spelling
import Bundler.Proofs.Path.Target
import Bundler.Proofs.Path.Trail
import Bundler.Proofs.Path.Written
import Bundler.Proofs.Processing
import Bundler.Proofs.Processing.Calls
import Bundler.Proofs.Processing.Elsewhere
import Bundler.Proofs.Processing.Entries
import Bundler.Proofs.Processing.Evidence
import Bundler.Proofs.Processing.Faults
import Bundler.Proofs.Processing.History
import Bundler.Proofs.Processing.Steps
import Bundler.Proofs.Processing.Termination
import Bundler.Proofs.Processing.TextFile
import Bundler.Proofs.Source.Anew
import Bundler.Proofs.Source.Dropped
import Bundler.Proofs.Source.Gaps
import Bundler.Proofs.Source.Kept
import Bundler.Proofs.Source.Layout
import Bundler.Proofs.Source.Lexemes
import Bundler.Proofs.Source.Lines
import Bundler.Proofs.Source.Modes
import Bundler.Proofs.Source.Number
import Bundler.Proofs.Source.Parts
import Bundler.Proofs.Source.Reach
import Bundler.Proofs.Source.Recast
import Bundler.Proofs.Source.Replaced
import Bundler.Proofs.Source.Scanning
import Bundler.Proofs.Source.Straight
import Bundler.Proofs.Source.Strings
import Bundler.Proofs.Source.Words
import Bundler.Proofs.Template.Standard
import Bundler.Proofs.Text.Case
import Bundler.Proofs.Text.Pieces
import Bundler.Proofs.Text.Quoted
import Bundler.Proofs.Transform.Composition
import Bundler.Proofs.Transform.Holding
import Bundler.Proofs.Transform.References
import Bundler.Proofs.Transform.Registration
import Bundler.Regex.Match
import Bundler.Regex.Parse
import Bundler.Regex.Syntax
import Bundler.Source.Layout
import Bundler.Source.Lexer
import Bundler.Source.Literal
import Bundler.Source.Token
import Bundler.Template.Parse
import Bundler.Template.Render
import Bundler.Template.Token
import Bundler.Text.Blank
import Bundler.Text.Case
import Bundler.Text.Cells
import Bundler.Text.CharacterName
import Bundler.Text.Identifier
import Bundler.Text.Pieces
import Bundler.Text.Place
import Bundler.Text.Printable
import Bundler.Text.Quoted
import Bundler.Text.Ranges
import Bundler.Text.Utf8
import Bundler.Text.Word
import Bundler.Transform.Basic
import Bundler.Transform.Builtin
import Bundler.Transform.Registry
import Bundler.World
