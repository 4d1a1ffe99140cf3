import StyleGraph.Dialect

/-!
# Default exports

Whether a combined module has a default export. It has none when the request says so, none for a
CSS-in-TS module, and otherwise one unless the original module certainly has none.
-/

set_option autoImplicit false

namespace StyleGraph.Emit

/-- What is known of a module's default export. -/
inductive DefaultSignal
  /-- The source could not be read, or is not written as a module. -/
  | unknown
  | present
  | absent
  deriving DecidableEq, Repr, Inhabited

/-- Whether a combined module has a default export. -/
def emitsDefault (requestPath : String) (skip : Bool) (signal : DefaultSignal) : Bool :=
  !skip && !Dialect.isVanillaName (String.ofList (Text.cutQuery requestPath.toList).1) &&
    signal != .absent

end StyleGraph.Emit
