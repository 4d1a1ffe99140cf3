import StyleGraph.Compile.Builtin
import StyleGraph.Config.Basic
import StyleGraph.Finish
import StyleGraph.Pattern.Reader
import StyleGraph.Walk.Basic

/-!
# Options of an extraction

How specifiers are resolved, which files add their CSS, and how the whole sheet is finished.
-/

set_option autoImplicit false

namespace StyleGraph

open Resolve (AliasMode Resolution Resolver)
open Stable (AutoStable Boost)

/-- The options of an extraction. -/
structure ExtractOptions where
  /-- The directory that entries are relative to. -/
  cwd : String
  /-- Whether a file adds its CSS. -/
  accepts : String → Bool := fun _ => true
  /-- What specifiers stand for, if that is not found in the files: a function of the specifier and
  the file that imports it. -/
  resolve : Option (String → String → Resolution) := none
  /-- The installed peers, if they are not those that come along. -/
  peer : Option (String → Option Compile.Peer) := none
  stable : AutoStable := .disabled
  /-- How the sheet is finished. Without it the sheet is finished only for stable variants or
  boosting. -/
  finish : Option FinishOptions := none
  boost : Option Boost := none
  /-- The extensions that are tried; none are the default ones. -/
  extensions : List String := []
  aliases : AliasMode := .off

namespace ExtractOptions

/-- Whether the sheet is finished. -/
def needsFinish (options : ExtractOptions) : Bool :=
  options.finish.isSome || options.stable.isEnabled || options.boost.isSome

/-- A pattern with a source. -/
def pattern (source : String) : Except Fault Pattern :=
  (Pattern.parse source).mapError fun _ => .badPattern source

/-- The pattern with a source, if there is a source. -/
def pattern? (source : Option String) : Except Fault (Option Pattern) :=
  match source with
  | none => .ok none
  | some source => (pattern source).map some

/-- The stable variants that a configuration asks for. -/
def stableOf (settings : Config.StableSettings) : Except Fault AutoStable :=
  if settings.enabled then do
    let included ← pattern? settings.included
    let excluded ← pattern? settings.excluded
    .ok (.custom settings.space included excluded)
  else .ok .disabled

/-- The boosting that a configuration asks for. -/
def boostOf (settings : Config.BoostSettings) : Except Fault Boost := do
  let patterns ← settings.patterns.mapM pattern
  .ok { times := settings.times, patterns }

/-- The options that a configuration asks for; `cwd` is the directory if it sets none. -/
def ofConfig (config : Config) (cwd : String) : Except Fault ExtractOptions := do
  let stable ← stableOf config.stable
  let boost ←
    match config.boost with
    | none => .ok none
    | some settings => (boostOf settings).map some
  .ok {
    cwd := config.cwd.getD cwd
    stable
    finish :=
      if config.finish.enabled then
        some { minify := config.finish.minify, modules := config.finish.modules }
      else none
    boost
    extensions := config.extensions
    aliases := config.aliases }

end ExtractOptions

end StyleGraph
