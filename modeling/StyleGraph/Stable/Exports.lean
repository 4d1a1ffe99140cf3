import StyleGraph.Stable.Auto

/-!
# Exported classes with their stable variants

What a sheet exports for a class is a list of class names with blanks between them: the local name
of the class, then the classes that it is composed of, every name once. With stable variants, each
name is followed by the stable class of what it stands for.
-/

set_option autoImplicit false

namespace StyleGraph.Stable

open Css

/-- The beginning of all local names. -/
def localScope : String := "Mum5jG"

/-- A name made local. -/
def localName (name : String) : String := localScope ++ "_" ++ name

/-- A class that a sheet exports, once the sheet is written. A class of the sheet that it is composed
of goes by its written name. -/
structure WrittenExport where
  /-- The name of the class in the text of the sheet. -/
  token : String
  /-- The name that the class is written by. -/
  name : String
  composed : List ComposedClass := []
  deriving DecidableEq, Repr, Inhabited

/-- The name of a composed class. -/
def composedName : ComposedClass → String
  | .sheet name => name
  | .global name => name
  | .file name _ => name

/-- A composed class by its written name. -/
def writtenReference : ComposedClass → ComposedClass
  | .sheet name => .sheet (localName name)
  | reference => reference

/-- An export of a sheet by the names that are written. -/
def writtenExport (item : Export) : WrittenExport :=
  { token := item.name
    name := localName item.name
    composed := item.composed.map writtenReference }

/-- The names that an export stands for. -/
def plainNames (item : WrittenExport) : List String :=
  (item.name :: item.composed.map composedName).eraseDups

/-- What the stable class of a composed class is made from: its name in the text, if the sheet
exports the class, and else the name that it has. Of several classes with one written name, the
last one counts. -/
def sourceToken (exports : List WrittenExport) : ComposedClass → String
  | .sheet name =>
    match exports.reverse.find? fun item => item.name == name with
    | some item => item.token
    | none => name
  | .global name => name
  | .file name _ => name

/-- The names that an export stands for, each with its stable class. -/
def Scheme.names (scheme : Scheme) (exports : List WrittenExport) (item : WrittenExport) :
    List String :=
  let own := item.name :: (scheme.stableFor? item.token).toList
  let composed := item.composed.flatMap fun reference =>
    composedName reference :: (scheme.stableFor? (sourceToken exports reference)).toList
  (own ++ composed).eraseDups

/-- The names that an export stands for, each with its stable class if there is a scheme for
them. -/
def namesOf (scheme : Option Scheme) (exports : List WrittenExport) (item : WrittenExport) :
    List String :=
  match scheme with
  | some scheme => scheme.names exports item
  | none => plainNames item

/-- The class map of exports, ordered by their names in the text: each name and the class names that
it stands for. -/
def classMap (scheme : Option Scheme) (exports : List WrittenExport) : List (String × String) :=
  (exports.mergeSort fun a b => decide (a.token ≤ b.token)).map fun item =>
    (item.token, String.intercalate " " (namesOf scheme exports item))

/-- What a sheet exports, ordered by name: each name and the class names that it stands for. -/
def exportedNames (scheme : Option Scheme) (exports : List Export) : List (String × String) :=
  classMap scheme (exports.map writtenExport)

end StyleGraph.Stable
