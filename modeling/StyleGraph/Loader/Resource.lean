import StyleGraph.Fault
import StyleGraph.Loader.Options
import StyleGraph.Request.Query
import StyleGraph.Script.Flavor
import StyleGraph.Stable.Literal

/-!
# Resources

What a loader is asked for, and which of the four kinds of module answers it. A combined module
gives the exports of the original and the styles; a bridge module leaves class names to another
pipeline; the plain answer is the original with the styles added.
-/

set_option autoImplicit false

namespace StyleGraph

/-- A resource that a loader is asked for. -/
structure Resource where
  path : String
  /-- The query with its leading `?`, or nothing. -/
  query : String := ""
  source : String := ""
  /-- The request as it was written, if it is known. -/
  rawRequest : Option String := none
  /-- The directory that generated requests lead from. -/
  rootDirectory : String
  deriving DecidableEq, Repr, Inhabited

/-- Why a resource could not be loaded. -/
inductive LoadFault
  /-- The path of the resource is not absolute. -/
  | relativePath (resource : String)
  /-- The sheet could not be extracted. -/
  | extraction (fault : Fault)
  deriving DecidableEq, Repr

namespace LoadFault

/-- The code of a fault. -/
def code : LoadFault → String
  | .relativePath _ => "knighted_css_loader::invalid_request"
  | .extraction fault => fault.code

/-- What the user can do about a fault. -/
def help? : LoadFault → Option String
  | .relativePath _ => none
  | .extraction fault => fault.help?

/-- The wording of a fault. -/
def message : LoadFault → String
  | .relativePath resource =>
    "Invalid knighted-css request for " ++ resource ++ ": resource path must be absolute"
  | .extraction fault => fault.message

end LoadFault

namespace Resource

/-- The flavour of the script that the resource is, if it is one. -/
def flavor? (resource : Resource) : Option Script.Flavor := Script.Flavor.ofPath? resource.path

/-- Whether the resource is a script. -/
def isScript (resource : Resource) : Bool := resource.flavor?.isSome

/-- The language of what is added to the resource. -/
def scriptKind (resource : Resource) : Stable.ScriptKind :=
  if resource.flavor?.any Script.Flavor.types then .typed else .plain

/-- What the query asks for. -/
def flags (resource : Resource) : Request.Flags := Request.Flags.ofQuery resource.query

end Resource

namespace Loader

/-- The kind of module that answers a request. -/
inductive Route
  /-- The original with the styles added. -/
  | standard
  /-- The exports of the original and the styles. -/
  | combined
  /-- The exports of a script and the styles that it imports. -/
  | bridgeScript
  /-- A style, with the class map of another pipeline. -/
  | bridgeStyle
  deriving DecidableEq, Repr, Inhabited

/-- The route of a resource. In bridge mode a style is always answered as one; a script that is not
combined is answered as in standard mode. -/
def Route.ofResource (mode : Config.LoaderMode) (resource : Resource) : Route :=
  match mode, resource.isScript, resource.flags.combined with
  | .bridge, false, _ => .bridgeStyle
  | .bridge, true, true => .bridgeScript
  | .standard, _, true => .combined
  | _, _, false => .standard

end Loader

end StyleGraph
