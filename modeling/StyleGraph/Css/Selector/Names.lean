/-!
# Names of pseudo-classes and pseudo-elements

The pseudo-classes and pseudo-elements whose meaning is known, by their names in lower case, and
what each may be joined with.
-/

set_option autoImplicit false

namespace StyleGraph.Css

namespace PseudoClass

/-- What a user does to an element; these may follow a pseudo-element. -/
def userActions : List String := ["hover", "active", "focus", "focus-within", "focus-visible"]

/-- The parts and states of a scrollbar. -/
def scrollbar : List String :=
  ["horizontal", "vertical", "decrement", "increment", "start", "end", "double-button",
   "single-button", "no-button", "corner-present", "window-inactive"]

/-- All other known names of pseudo-classes without a function. -/
def states : List String :=
  ["current", "past", "future", "playing", "paused", "seeking", "buffering", "stalled", "muted",
   "volume-locked", "fullscreen", "-webkit-full-screen", "-moz-full-screen", "-ms-fullscreen",
   "open", "closed", "modal", "picture-in-picture", "popover-open", "defined", "any-link",
   "-webkit-any-link", "-moz-any-link", "link", "local-link", "target", "target-within", "visited",
   "enabled", "disabled", "read-only", "-moz-read-only", "read-write", "-moz-read-write",
   "placeholder-shown", "-moz-placeholder-shown", "-ms-input-placeholder", "default", "checked",
   "indeterminate", "blank", "valid", "invalid", "in-range", "out-of-range", "required",
   "optional", "user-valid", "user-invalid", "autofill", "-webkit-autofill", "-o-autofill",
   "active-view-transition"]

/-- Whether a name is known. -/
def isKnown (name : String) : Bool :=
  userActions.contains name || states.contains name || scrollbar.contains name

/-- The pseudo-classes that are too new to rely on. -/
def experimental : List String :=
  ["current", "past", "future", "playing", "paused", "seeking", "buffering", "stalled", "muted",
   "volume-locked", "open", "closed", "modal", "picture-in-picture", "popover-open", "defined",
   "local-link", "target-within", "blank", "user-valid", "user-invalid", "active-view-transition"]

/-- Whether every reader of style sheets understands a known pseudo-class. -/
def isPlain (name : String) : Bool :=
  !(name.startsWith "-") && !experimental.contains name && !scrollbar.contains name

end PseudoClass

namespace PseudoElement

/-- The pseudo-elements that may follow `::slotted(…)`. -/
def afterSlotted : List String :=
  ["before", "after", "marker", "placeholder", "file-selector-button"]

/-- The parts of a scrollbar. -/
def scrollbar : List String :=
  ["-webkit-scrollbar", "-webkit-scrollbar-button", "-webkit-scrollbar-track",
   "-webkit-scrollbar-track-piece", "-webkit-scrollbar-thumb", "-webkit-scrollbar-corner",
   "-webkit-resizer"]

/-- Those that every reader of style sheets understands. -/
def plain : List String :=
  ["after", "before", "first-line", "first-letter", "selection", "placeholder", "marker",
   "backdrop", "cue"]

/-- All other known names of pseudo-elements without a function. -/
def others : List String :=
  ["cue-region", "-moz-selection", "-webkit-input-placeholder", "-moz-placeholder",
   "-ms-input-placeholder", "-webkit-backdrop", "file-selector-button",
   "-webkit-file-upload-button", "-ms-browse", "view-transition", "target-text"]

/-- Whether a name is known. -/
def isKnown (name : String) : Bool :=
  plain.contains name || others.contains name || scrollbar.contains name

/-- The known functions of one name. -/
def functions : List String :=
  ["view-transition-group", "view-transition-image-pair", "view-transition-old",
   "view-transition-new"]

end PseudoElement

end StyleGraph.Css
