import StyleGraph.Sass.Module

/-!
# Peer compilers

Sass and Less are compiled by peers, modules that are looked up by name when they are needed. A
peer has a main set of entry points and perhaps a default one; the default set is used if it has
any entry point at all. What a peer does is a function of what it is asked.
-/

set_option autoImplicit false

namespace StyleGraph.Compile

/-- The entry points of a peer: the two ways to compile Sass, and the way to compile Less. -/
structure PeerExports (Modern Legacy Less : Type) where
  modern : Option Modern := none
  legacy : Option Legacy := none
  less : Option Less := none
  deriving Repr, Inhabited

/-- A peer module. -/
structure PeerModule (Modern Legacy Less : Type) where
  default : Option (PeerExports Modern Legacy Less) := none
  main : PeerExports Modern Legacy Less := {}
  deriving Repr, Inhabited

section

variable {Modern Legacy Less : Type}

/-- Whether there is no entry point at all. -/
def PeerExports.isEmpty (exports : PeerExports Modern Legacy Less) : Bool :=
  exports.modern.isNone && exports.legacy.isNone && exports.less.isNone

/-- The entry points that count. -/
def PeerModule.exports (module : PeerModule Modern Legacy Less) : PeerExports Modern Legacy Less :=
  match module.default with
  | some default => if default.isEmpty then module.main else default
  | none => module.main

end

/-- The way a peer compiles Sass. -/
inductive SassApi (Modern Legacy : Type)
  | modern (entry : Modern)
  | legacy (entry : Legacy)
  | unsupported
  deriving Repr, Inhabited

/-- The modern way wins over the legacy one. -/
def SassApi.ofModule {Modern Legacy Less : Type} (module : PeerModule Modern Legacy Less) :
    SassApi Modern Legacy :=
  match module.exports.modern, module.exports.legacy with
  | some entry, _ => .modern entry
  | none, some entry => .legacy entry
  | none, none => .unsupported

/-- The directories that Sass looks in: that of the file, the working directory, and the packages
of the working directory. -/
def loadPaths (file cwd : String) : List String :=
  (Path.parent? file).toList ++ [cwd, Path.join cwd "node_modules"]

/-- A compiled style file, and the other files that its compiler read. -/
structure Compiled where
  css : String
  loaded : List String := []
  deriving DecidableEq, Repr, Inhabited

/-- What Sass is asked. -/
structure SassRequest where
  path : String
  loadPaths : List String
  /-- Whether the file is written with indentation. -/
  isIndented : Bool
  deriving DecidableEq, Repr, Inhabited

/-- What Less is asked. -/
structure LessRequest where
  source : String
  path : String
  loadPaths : List String
  deriving DecidableEq, Repr, Inhabited

/-- Why a peer has no result. -/
inductive PeerFault
  /-- What the peer said. -/
  | said (message : String)
  /-- The sheet was refused. -/
  | refused (cause : Sass.Refusal)
  deriving DecidableEq, Repr

/-- How the legacy way to compile Sass ends. -/
inductive LegacyOutcome
  | finished (css : Option (List UInt8))
  | failed (message : String)
  /-- It never said anything. -/
  | dropped
  deriving DecidableEq, Repr, Inhabited

/-- The modern way to compile Sass. -/
abbrev ModernSass := SassRequest → Except PeerFault Compiled

/-- The legacy way to compile Sass. -/
abbrev LegacySass := SassRequest → LegacyOutcome

/-- The way to compile Less. -/
abbrev LessRender := LessRequest → Except PeerFault Compiled

/-- A peer that can be called. -/
abbrev Peer := PeerModule ModernSass LegacySass LessRender

/-- A call of a peer. -/
inductive PeerCall
  | modern (request : SassRequest)
  | legacy (request : SassRequest)
  | less (request : LessRequest)
  deriving DecidableEq, Repr, Inhabited

end StyleGraph.Compile
