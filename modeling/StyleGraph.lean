import StyleGraph.Compile.Builtin
import StyleGraph.Compile.Peer
import StyleGraph.Compile.Style
import StyleGraph.Config.Basic
import StyleGraph.Config.Discovery
import StyleGraph.Config.Environment
import StyleGraph.Config.Setting
import StyleGraph.Css.Selector.Printer
import StyleGraph.Css.Selector.Reader
import StyleGraph.Css.Sheet.Exports
import StyleGraph.Css.Sheet.Printer
import StyleGraph.Css.Sheet.Reader
import StyleGraph.Css.Tokenizer
import StyleGraph.Emit.Bridge
import StyleGraph.Emit.Combined
import StyleGraph.Emit.Default
import StyleGraph.Extract.Basic
import StyleGraph.Extract.Options
import StyleGraph.Fault
import StyleGraph.Finish
import StyleGraph.Hash.Blake3
import StyleGraph.Json.Reader
import StyleGraph.Loader.Basic
import StyleGraph.Loader.Options
import StyleGraph.Loader.Resource
import StyleGraph.LogLevel
import StyleGraph.Number.Binary64
import StyleGraph.Number.Power
import StyleGraph.Pattern.Reader
import StyleGraph.Proofs.Compile.Tracking
import StyleGraph.Proofs.Css.Selector.Matching
import StyleGraph.Proofs.Css.Selector.Same
import StyleGraph.Proofs.Extract.Tracking
import StyleGraph.Proofs.FileTree
import StyleGraph.Proofs.Marks
import StyleGraph.Proofs.Path.Names
import StyleGraph.Proofs.Stable.Conservative
import StyleGraph.Proofs.Stable.Effect
import StyleGraph.Proofs.Stable.Rewrite
import StyleGraph.Proofs.Static.Order
import StyleGraph.Proofs.Static.Reading
import StyleGraph.Proofs.Text.Blank
import StyleGraph.Proofs.Text.Cut
import StyleGraph.Proofs.Walk.Reach
import StyleGraph.Proofs.Walk.Visit
import StyleGraph.Resolve.Resolver
import StyleGraph.Sass.Braces
import StyleGraph.Sass.Indented
import StyleGraph.Sass.Module
import StyleGraph.Sass.Selector
import StyleGraph.Sass.Statement
import StyleGraph.Sass.Value
import StyleGraph.Script.Imports
import StyleGraph.Specifier
import StyleGraph.Stable.Literal
import StyleGraph.Stable.Token
import StyleGraph.Static.Project
import StyleGraph.Toml.Document
import StyleGraph.Toml.Literal
import StyleGraph.Toml.Reader
import StyleGraph.Walk.Basic
import StyleGraph.Proofs.Css.Selector.Places
import StyleGraph.Proofs.Css.Selector.Written
import StyleGraph.Proofs.Stable.Replacement
import StyleGraph.Proofs.Stable.Token
import StyleGraph.Proofs.Css.Rule
import StyleGraph.Proofs.Stable.Idempotent
import StyleGraph.Proofs.Stable.Twin
import StyleGraph.Proofs.Text.Utf8
import StyleGraph.Proofs.Request.Query
import StyleGraph.Proofs.Request.Proxy
import StyleGraph.Proofs.Emit.Linkage
import StyleGraph.Proofs.Loader.Payload
import StyleGraph.Proofs.Request.Styles
import StyleGraph.Proofs.Loader.Bridge
import StyleGraph.Proofs.Stable.Composition
import StyleGraph.Proofs.Css.Composes
import StyleGraph.Proofs.Stable.Single
import StyleGraph.Proofs.Finish.Split
import StyleGraph.Proofs.Finish.Boost
import StyleGraph.Proofs.Path.Extension
import StyleGraph.Proofs.Resolve.Candidate
import StyleGraph.Proofs.Loader.Entry
import StyleGraph.Proofs.Static.Denotation
import StyleGraph.Proofs.Static.Resolution
import StyleGraph.Proofs.Walk.Evaluated
import StyleGraph.Proofs.Static.Form
import StyleGraph.Proofs.Static.Recording
import StyleGraph.Proofs.Static.Follow
import StyleGraph.Proofs.Static.Missing
import StyleGraph.Proofs.Walk.Filter
import StyleGraph.Proofs.Stable.Collection
import StyleGraph.Proofs.Emit.Layout
import StyleGraph.Proofs.Loader.Types
import StyleGraph.Proofs.Emit.Bindings
import StyleGraph.Proofs.Loader.Bindings
import StyleGraph.Proofs.Request.Sanitized
import StyleGraph.Proofs.Config.RoundTrip
import StyleGraph.Proofs.Walk.Order
import StyleGraph.Proofs.Config.Layers
import StyleGraph.Proofs.Css.Selector.Subject
import StyleGraph.Proofs.Stable.Boosted
import StyleGraph.Proofs.Finish.Exports
import StyleGraph.Proofs.Resolve.Exact
import StyleGraph.Proofs.Request.Relative
import StyleGraph.Proofs.Static.Exports
import StyleGraph.Proofs.Static.Reference
import StyleGraph.Proofs.Stable.Pipeline
import StyleGraph.Proofs.Static.Tree
import StyleGraph.Proofs.Static.Flatten
import StyleGraph.Proofs.Static.Naming
import StyleGraph.Proofs.Static.Contract
import StyleGraph.Proofs.Static.Theme
import StyleGraph.Proofs.Static.Minting
import StyleGraph.Proofs.Firsts
import StyleGraph.Proofs.Stable.ClassMap
import StyleGraph.Proofs.Css.Selector.Atoms
import StyleGraph.Proofs.Stable.Completeness
import StyleGraph.Proofs.Script.Imports
import StyleGraph.Proofs.Json.Written
import StyleGraph.Proofs.Stable.Literal
import StyleGraph.Proofs.Request.Flags
import StyleGraph.Proofs.Request.Marker
import StyleGraph.Proofs.Script.Defaults
import StyleGraph.Proofs.Emit.Helper
import StyleGraph.Proofs.Extract.Room
import StyleGraph.Proofs.Path.Below
import StyleGraph.Proofs.Static.Fresh
import StyleGraph.Proofs.Static.Placement
import StyleGraph.Proofs.Static.Emission
import StyleGraph.Proofs.Static.Unit
