/-!
# Lookups

A lookup finds something, finds nothing and lets the next way be tried, or is refused, which ends
the search.
-/

set_option autoImplicit false

namespace StyleGraph.Resolve

/-- The result of one way to look something up. -/
inductive Lookup (α : Type)
  | found (value : α)
  | absent
  | refused
  deriving DecidableEq, Repr

namespace Lookup

variable {α β : Type}

/-- The result, or that of another way when nothing was found. -/
def orElse (first : Lookup α) (second : Unit → Lookup α) : Lookup α :=
  match first with
  | absent => second ()
  | other => other

/-- Goes on with what was found. -/
def bind (first : Lookup α) (next : α → Lookup β) : Lookup β :=
  match first with
  | found value => next value
  | absent => absent
  | refused => refused

/-- What was found, if anything. -/
def toOption : Lookup α → Option α
  | found value => some value
  | _ => none

/-- A lookup that is never refused. -/
def ofOption : Option α → Lookup α
  | some value => found value
  | none => absent

/-- A refusal instead of finding nothing. -/
def orRefuse (first : Lookup α) : Lookup α := first.orElse fun _ => refused

/-- The result of the first item for which there is one. -/
def firstOf (items : List β) (f : β → Lookup α) : Lookup α :=
  match items with
  | [] => absent
  | item :: rest => (f item).orElse fun _ => firstOf rest f

end Lookup

end StyleGraph.Resolve
