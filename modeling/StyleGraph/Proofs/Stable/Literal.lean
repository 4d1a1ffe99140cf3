import StyleGraph.Proofs.Json.Written
import StyleGraph.Proofs.Stable.Completeness
import StyleGraph.Proofs.Text.Blank

/-!
# Stable classes as an object

The text that a script exports for a map of stable classes has an object in it, written by hand.
`parse_objectText` reads it back: whatever characters names and classes have, it is JSON, and its
members are the entries of the map, in their order.
-/

set_option autoImplicit false

namespace StyleGraph.Stable

open Json.Reader (membersChars memberChars isSpace)

/-- What stands in the parentheses of `Object.freeze(…)`, less an assertion at its end. -/
def frozenText? (text : String) : Option String := do
  let rest ← Text.stripStart? "export const stableSelectors = Object.freeze(".toList text.toList
  let inner ← Text.stripEnd? ");".toList rest
  some (String.ofList ((Text.stripEnd? " as const".toList inner).getD inner))

/-- The object of a map. -/
def objectText (map : StableMap) : String :=
  if map.isEmpty then "\x7b\x7d"
  else "\x7b" ++ String.intercalate "," (map.map fun entry =>
    "\n  " ++ Text.quote entry.1 ++ ": " ++ Text.quote entry.2) ++ "\n\x7d"

/-- What stands behind the object. -/
def assertion : ScriptKind → String
  | .typed => " as const"
  | .plain => ""

/-- The text is the object between a fixed head and a tail that depends on the kind of script only.
-/
theorem literalText_eq (map : StableMap) (kind : ScriptKind) :
    literalText map kind = "export const stableSelectors = Object.freeze(" ++ objectText map ++
      assertion kind ++ ");" := by
  cases kind <;> rfl

/-- The object is its members in braces. Each member stands on a line of its own, as it does in
indented JSON. -/
theorem toList_objectText (map : StableMap) :
    (objectText map).toList =
      '\x7b' :: (membersChars "\n  ".toList [' '] map ++
        ((if map.isEmpty then [] else ['\n']) ++ ['\x7d'])) := by
  have entries : (map.map fun entry =>
        "\n  " ++ Text.quote entry.1 ++ ": " ++ Text.quote entry.2).map String.toList =
      map.map (memberChars "\n  ".toList [' ']) := by
    rw [List.map_map]
    refine List.map_congr_left fun entry _ => ?_
    simp [memberChars, Text.quote]
  cases map with
  | nil => rfl
  | cons entry map =>
    simp only [objectText, List.isEmpty_cons, Bool.false_eq_true, if_false, String.toList_append,
      Text.toList_intercalate, entries]
    rfl

/-- An assertion is taken off behind the object, and nothing where there is none. -/
theorem getD_stripEnd?_assertion (map : StableMap) (kind : ScriptKind) :
    (Text.stripEnd? " as const".toList ((objectText map).toList ++ (assertion kind).toList)).getD
      ((objectText map).toList ++ (assertion kind).toList) = (objectText map).toList := by
  cases kind with
  | typed =>
    have asserted : Text.stripEnd? " as const".toList
        ((objectText map).toList ++ (assertion .typed).toList) = some (objectText map).toList :=
      Text.stripEnd?_eq_some_iff.mpr rfl
    rw [asserted, Option.getD_some]
  | plain =>
    -- The object ends in a brace, and the assertion does not.
    have unasserted : Text.stripEnd? " as const".toList (objectText map).toList = none := by
      rw [Option.eq_none_iff_forall_ne_some]
      intro stem ends
      have last := congrArg List.getLast? (Text.stripEnd?_eq_some_iff.mp ends)
      rw [toList_objectText, ← List.append_assoc, ← List.cons_append, List.getLast?_concat] at last
      simp at last
    rw [assertion, String.toList_empty, List.append_nil, unasserted, Option.getD_none]

/-- The object stands in the parentheses. The text around it is fixed, but for an assertion that
depends on the kind of script. -/
theorem frozenText?_literalText (map : StableMap) (kind : ScriptKind) :
    frozenText? (literalText map kind) = some (objectText map) := by
  have opened : Text.stripStart? "export const stableSelectors = Object.freeze(".toList
      (literalText map kind).toList =
        some ((objectText map).toList ++ (assertion kind).toList ++ ");".toList) := by
    rw [literalText_eq, String.toList_append, String.toList_append, String.toList_append,
      List.append_assoc, List.append_assoc, Text.stripStart?_append, List.append_assoc]
  have closed : Text.stripEnd? ");".toList
      ((objectText map).toList ++ (assertion kind).toList ++ ");".toList) =
        some ((objectText map).toList ++ (assertion kind).toList) :=
    Text.stripEnd?_eq_some_iff.mpr rfl
  have bare := getD_stripEnd?_assertion map kind
  rw [frozenText?, opened, Option.bind_eq_bind, Option.bind_some, closed, Option.bind_some, bare,
    String.ofList_toList]

/-- **The object is parsed as the map**: its members are the entries, in their order. -/
theorem parse_objectText (map : StableMap) :
    Json.parse (objectText map) =
      .ok (.obj (map.map fun entry => (entry.1, .str entry.2))) := by
  have lead : ∀ c ∈ "\n  ".toList, isSpace c = true := List.all_eq_true.mp rfl
  have gap : ∀ c ∈ [' '], isSpace c = true := List.forall_mem_singleton.mpr rfl
  have close : ∀ c ∈ (if map.isEmpty then [] else ['\n']), isSpace c = true := by
    cases map with
    | nil => exact List.forall_mem_nil _
    | cons entry map => exact List.forall_mem_singleton.mpr rfl
  rw [← String.ofList_toList (s := objectText map), toList_objectText]
  exact Json.parse_written lead gap close map

/-- A blank namespace has no stable classes. -/
theorem stableMap_of_blank {space : String} (blank : Text.isBlankString space = true)
    (css : String) : stableMap css space = [] := by
  have trimmed : (Text.trimmed space).isEmpty = true := by
    rw [(Text.trimmed_eq_empty_iff space).mpr blank]
    rfl
  rw [stableMap, if_pos trimmed]

/-! ## The theorem -/

/-- **The exported object is the map.** For every text, namespace, resource and language, what
stands in the parentheses is parsed as an object that has the entries of the map as members, in
their order, and no key twice. There is one warning, and the map is empty, if the namespace is
blank; else there is none. -/
theorem stableLiteral_encodes (css space resource : String) (kind : ScriptKind) :
    let literal := stableLiteral css space resource kind
    literal.map = stableMap css space ∧
    (frozenText? literal.text).map Json.parse =
      some (.ok (.obj (literal.map.map fun entry => (entry.1, .str entry.2)))) ∧
    (literal.map.map Prod.fst).Nodup ∧
    (Text.isBlankString space = true ∧ literal.map = [] ∧
        literal.warnings = [blankSpaceWarning resource] ∨
      Text.isBlankString space = false ∧ literal.warnings = []) := by
  dsimp only [stableLiteral]
  refine ⟨rfl, ?_, nodup_keys_stableMap css space, ?_⟩
  · rw [frozenText?_literalText, Option.map_some, parse_objectText]
  · cases blank : Text.isBlankString space with
    | true => exact .inl ⟨rfl, stableMap_of_blank blank css, if_pos rfl⟩
    | false => exact .inr ⟨rfl, if_neg Bool.false_ne_true⟩

end StyleGraph.Stable
