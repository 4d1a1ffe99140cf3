import StyleGraph.Dialect
import StyleGraph.FileTree
import StyleGraph.Static.Project

/-!
# Faults

What can go wrong while the style sheet of an entry is put together. Every fault has a code and a
message, and some have a hint for the user.
-/

set_option autoImplicit false

namespace StyleGraph

/-- Why a sheet could not be put together. -/
inductive Fault
  /-- A specifier that stands for nothing. -/
  | unresolvedImport (specifier importer : String)
  /-- An entry that stands for nothing. -/
  | unresolvedEntry (entry cwd : String)
  /-- The peer for a dialect is not installed. -/
  | missingPeer (peer : String) (dialect : Dialect)
  /-- The peer has none of the entry points that are needed. -/
  | unsupportedPeer (peer expected : String)
  /-- The compiler of a file failed, with the compiler's own message if there is one. -/
  | compiler (path : String) (message : Option String)
  /-- A compiler ended without a result. -/
  | callbackDropped (peer path : String)
  | unread (path : String) (cause : ReadFault)
  /-- A file is not a script. -/
  | unreadableScript (path : String)
  /-- A CSS-in-TS module cannot be evaluated. -/
  | static (path : String) (cause : Static.Fault)
  /-- The text that was put together is not a sheet, or it composes where it must not. -/
  | sheet
  /-- The source of a pattern is not one. -/
  | badPattern (source : String)
  deriving DecidableEq, Repr

namespace Fault

/-- The fault that one of a CSS-in-TS module is. -/
def ofProject : Static.ProjectFault → Fault
  | .unread path cause => .unread path cause
  | .unreadable path => .unreadableScript path
  | .faulty path cause => .static path cause

/-- The code of a fault. -/
def code (fault : Fault) : String :=
  let name :=
    match fault with
    | .unresolvedImport _ _ => "unresolved_import"
    | .unresolvedEntry _ _ => "unresolved_entry"
    | .missingPeer _ _ => "missing_peer"
    | .unsupportedPeer _ _ => "unsupported_peer_api"
    | .compiler _ _ => "compiler"
    | .callbackDropped _ _ => "callback_dropped"
    | .unread _ _ => "read"
    | .unreadableScript _ => "script_parse"
    | .static _ _ => "vanilla"
    | .sheet => "stylesheet"
    | .badPattern _ => "invalid_pattern"
  "knighted_css::" ++ name

/-- What the user can do about a fault. -/
def help? : Fault → Option String
  | .unresolvedImport _ _ =>
    some "Check the import path, configured extensions, and tsconfig paths"
  | .missingPeer peer _ =>
    some ("Install the '" ++ peer ++ "' package, or provide a custom peer resolver")
  | .static _ _ =>
    some ("Only literal style objects and bindings from this file or imported CSS-in-TS modules " ++
      "are supported")
  | .sheet =>
    some "The compiled CSS must be valid for selector stabilization and minification"
  | _ => none

/-- The wording of a fault. -/
def message : Fault → String
  | .unresolvedImport specifier importer =>
    "Unable to resolve '" ++ specifier ++ "' imported from " ++ importer
  | .unresolvedEntry entry cwd => "Unable to resolve entry '" ++ entry ++ "' from " ++ cwd
  | .missingPeer peer dialect =>
    "Missing " ++ peer ++ " peer: install '" ++ peer ++ "' to compile " ++ dialect.name ++ " files"
  | .unsupportedPeer peer expected => peer ++ " peer does not expose " ++ expected ++ " APIs"
  | .compiler _ message => message.getD ""
  | .callbackDropped peer path =>
    peer ++ " render callback for " ++ path ++ " was dropped without a result"
  | .unread path cause => "Failed to read " ++ path ++ ": " ++ cause.message
  | .unreadableScript path => "Failed to parse " ++ path
  | .static path cause => "Cannot evaluate " ++ path ++ ": " ++ cause.message
  | .sheet => "The stylesheet is not valid"
  | .badPattern source => "Invalid pattern '" ++ source ++ "'"

end Fault

end StyleGraph
