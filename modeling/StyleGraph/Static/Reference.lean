import StyleGraph.Text.Cut

/-!
# Class names in selectors

Selectors of a CSS-in-TS module name its classes without the dot. The dot is put in where a name is
not part of a longer one.
-/

set_option autoImplicit false

namespace StyleGraph.Static

/-- Letters, digits, hyphen and underscore. -/
def isNameChar (c : Char) : Bool := c = '-' || c = '_' || c.isAlphanum

/-- Whether a name may begin after a character. -/
def beginsAfter : Option Char → Bool
  | some c => !(c = '.' || isNameChar c)
  | none => true

/-- Whether a name may end before a character. -/
def endsBefore : Option Char → Bool
  | some c => !isNameChar c
  | none => true

/-- Puts a dot before the occurrences of a name. `copied` counts the characters of an occurrence
that are still to be copied; the character before a place is only known after the last occurrence. -/
def dotName (name : List Char) : Nat → Option Char → List Char → List Char
  | _, _, [] => []
  | copied + 1, _, c :: rest => c :: dotName name copied none rest
  | 0, before, c :: rest =>
    match Text.stripStart? name (c :: rest) with
    | some after =>
      let dot := if beginsAfter before && endsBefore after.head? then ['.'] else []
      dot ++ c :: dotName name (name.length - 1) none rest
    | none => c :: dotName name 0 (some c) rest

/-- Puts dots before class names, one name after the other. -/
def dotNames (names : List String) (selector : String) : String :=
  String.ofList (names.foldl (fun text name => dotName name.toList 0 none text) selector.toList)

/-- Puts a selector in place of every `&`. -/
def fillParent (selector around : String) : String :=
  String.ofList (selector.toList.flatMap fun c => if c = '&' then around.toList else [c])

end StyleGraph.Static
