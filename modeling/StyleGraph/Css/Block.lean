import StyleGraph.Css.Declaration

/-!
# Short blocks

A block without the declarations that later ones make void. A custom property or a color keeps its
place and takes the later value. Properties that belong together, such as the sides of a margin,
are held back and written at the end, all four sides as one property where possible.
-/

set_option autoImplicit false

namespace StyleGraph.Css

/-- Properties that are held back until the end: their names in the order of writing, and the
property that sets all four of them. -/
structure PropertyGroup where
  members : List String
  shorthand : Option String := none
  deriving DecidableEq, Repr, Inhabited

namespace PropertyGroup

/-- The groups in the order of writing. -/
def all : List PropertyGroup :=
  [⟨["width", "height", "min-width", "min-height", "max-width", "max-height"], none⟩,
   ⟨["margin-top", "margin-bottom", "margin-left", "margin-right"], some "margin"⟩,
   ⟨["padding-top", "padding-bottom", "padding-left", "padding-right"], some "padding"⟩,
   ⟨["font-family", "font-size"], none⟩,
   ⟨["animation-name"], none⟩,
   ⟨["display"], none⟩,
   ⟨["position"], none⟩,
   ⟨["top", "bottom", "left", "right"], some "inset"⟩,
   ⟨["overflow"], none⟩]

/-- Whether a property belongs to a group. -/
def has (group : PropertyGroup) (property : String) : Bool :=
  group.members.contains property || group.shorthand == some property

/-- A declaration as declarations of the members of its group. -/
def spell (group : PropertyGroup) (declaration : Declaration) : List Declaration :=
  match declaration.value, group.members with
  | .sides top right bottom left, [first, second, third, fourth] =>
    [⟨first, .items [top]⟩, ⟨second, .items [bottom]⟩, ⟨third, .items [left]⟩,
      ⟨fourth, .items [right]⟩]
  | _, _ => [declaration]

/-- The declarations of a group that are held back, as they are written. -/
def settle (group : PropertyGroup) (pending : List Declaration) : List Declaration :=
  let members := group.members.filterMap fun member =>
    pending.find? fun declaration => declaration.property == member
  match group.shorthand, members.map Declaration.value with
  | some shorthand, [.items [top], .items [bottom], .items [left], .items [right]] =>
    [⟨shorthand, .sides top right bottom left⟩]
  | _, _ => members

end PropertyGroup

namespace Block

/-- Properties whose later value takes the place of the earlier one. -/
def replacedInPlace : List String :=
  ["color", "text-shadow", "filter", "backdrop-filter", "fill", "stroke", "caret-color", "caret"]

/-- Declarations that are settled, and those held back. -/
structure Draft where
  settled : List Declaration := []
  pending : List Declaration := []
  deriving Repr, Inhabited

/-- Puts a declaration in place of the one of the same property, or at the end. -/
def put (declaration : Declaration) (declarations : List Declaration) : List Declaration :=
  if declarations.any fun other => other.property == declaration.property then
    declarations.map fun other =>
      if other.property == declaration.property then declaration else other
  else declarations ++ [declaration]

/-- Takes one more declaration into a draft. -/
def Draft.add (draft : Draft) (declaration : Declaration) : Draft :=
  let property := declaration.property
  if property.startsWith "--" || replacedInPlace.contains property then
    { draft with settled := put declaration draft.settled }
  else
    match PropertyGroup.all.find? fun group => group.has property, declaration.value with
    | some group, .unfit _ =>
      { settled := draft.settled ++ group.settle draft.pending ++ [declaration]
        pending := draft.pending.filter fun other => !group.has other.property }
    | some group, _ =>
      { draft with pending := (group.spell declaration).foldl (fun all d => put d all) draft.pending }
    | none, _ => { draft with settled := draft.settled ++ [declaration] }

/-- Declarations without those that later ones make void. -/
def shorten (declarations : List Declaration) : List Declaration :=
  let draft := declarations.foldl Draft.add {}
  draft.settled ++ PropertyGroup.all.flatMap fun group => group.settle draft.pending

/-- A block without the declarations that later ones make void. -/
def minify (block : Block) : Block := ⟨shorten block.normal, shorten block.important⟩

end Block

end StyleGraph.Css
