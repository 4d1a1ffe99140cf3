import StyleGraph.Text.Case

/-!
# Log levels

How much a run reports. Levels are read without regard to letter case, two of them under two
names, and written under one.
-/

set_option autoImplicit false

namespace StyleGraph

/-- How much is reported. -/
inductive LogLevel
  | silent
  | error
  /-- Degraded paths, such as an empty namespace. -/
  | warn
  /-- One summary line for each run. -/
  | info
  /-- Every resolved and compiled file. -/
  | debug
  deriving DecidableEq, Repr

namespace LogLevel

instance : Inhabited LogLevel := ⟨.info⟩

/-- The written name. -/
def text : LogLevel → String
  | .silent => "off"
  | .error => "error"
  | .warn => "warn"
  | .info => "info"
  | .debug => "debug"

/-- A name that stands for no level, in lower case. -/
structure Unknown where
  name : String
  deriving DecidableEq, Repr

/-- The wording of the refusal. -/
def Unknown.message (unknown : Unknown) : String := "Invalid log level: " ++ unknown.name

/-- Reads a level. -/
def parse (source : String) : Except Unknown LogLevel :=
  match Text.lower source with
  | "silent" | "off" => .ok .silent
  | "error" => .ok .error
  | "warn" | "warning" => .ok .warn
  | "info" => .ok .info
  | "debug" => .ok .debug
  | other => .error ⟨other⟩

end LogLevel

end StyleGraph
