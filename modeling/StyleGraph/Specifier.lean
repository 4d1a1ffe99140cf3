import StyleGraph.Path.Basic
import StyleGraph.Path.FileUrl

/-!
# Module specifiers

What kind of module a specifier names. A scheme before a colon wins over every other reading,
except a single letter, which names a drive. Of the rest, `./` and `../` make a specifier
relative, a slash makes it absolute, and anything else names a package or an alias.
-/

set_option autoImplicit false

namespace StyleGraph

/-- The kind of a specifier. -/
inductive Specifier.Kind
  /-- A `file:` address and the path it stands for. -/
  | fileUrl (path : String)
  /-- Any other scheme, or a `file:` address without a path here. -/
  | foreignScheme
  | absolute
  | relative
  /-- A package name, a package-internal name or a path alias. -/
  | bare
  deriving DecidableEq, Repr, Inhabited

namespace Specifier

/-- A specifier's path, and its query with the leading `?`. -/
def splitQuery (specifier : String) : String × String :=
  let (path, query) := Text.cutQuery specifier.toList
  (String.ofList path, String.ofList query)

/-- A character of a scheme after the first. -/
def isSchemeChar (c : Char) : Bool := c.isAlphanum || c == '+' || c == '-' || c == '.'

/-- The scheme of a specifier and what follows the colon. -/
def scheme? (cs : List Char) : Option (List Char × List Char) :=
  match Text.cutFirst ':' cs with
  | (scheme, some rest) =>
    match scheme with
    | first :: more =>
      if first.isAlpha && more.all isSchemeChar && !more.isEmpty then some (scheme, rest)
      else none
    | [] => none
  | (_, none) => none

/-- Whether a specifier is relative to the file that contains it. -/
def isRelative (cs : List Char) : Bool :=
  Text.startsWith ['.', '/'] cs || Text.startsWith ['.', '.', '/'] cs ||
    cs == ['.'] || cs == ['.', '.']

/-- The kind of a specifier. -/
def classify (specifier : String) : Kind :=
  let cs := specifier.toList
  match scheme? cs with
  | some (scheme, rest) =>
    if scheme.map Char.toLower == "file".toList then
      match Path.FileUrl.toPath? rest with
      | some path => .fileUrl (String.ofList path)
      | none => .foreignScheme
    else .foreignScheme
  | none =>
    if isRelative cs then .relative
    else if Path.isAbsolute specifier then .absolute
    else .bare

end Specifier

end StyleGraph
