import StyleGraph.Text.Blank
import StyleGraph.Text.Cut
import StyleGraph.Text.Percent

/-!
# Resource queries

A query is a `?` and tokens joined by `&`, each a key or a key and a value joined by `=`. Keys are
compared after their percent escapes are resolved. Sanitizing removes the tokens whose key this
library recognizes and keeps all others character for character, in order.
-/

set_option autoImplicit false

namespace StyleGraph.Request

/-- A key that this library gives a meaning to. -/
inductive Key
  /-- Routes the request to this library. -/
  | marker
  | combined
  | namedOnly
  | noDefault
  | types
  | stableNamespace
  | exportName
  deriving DecidableEq, Repr

namespace Key

/-- All recognized keys. -/
def all : List Key :=
  [.marker, .combined, .namedOnly, .noDefault, .types, .stableNamespace, .exportName]

/-- How a key is written. -/
def text : Key → String
  | .marker => "knighted-css"
  | .combined => "combined"
  | .namedOnly => "named-only"
  | .noDefault => "no-default"
  | .types => "types"
  | .stableNamespace => "stableNamespace"
  | .exportName => "exportName"

/-- The recognized key with a given text. -/
def ofText? (text : List Char) : Option Key := all.find? fun key => key.text.toList = text

end Key

namespace Query

/-- The nonempty tokens of a query. One leading `?` does not count. -/
def tokens (query : List Char) : List (List Char) :=
  let body := (Text.stripStart? ['?'] query).getD query
  (Text.cutAll '&' body).filter fun token => !token.isEmpty

/-- The key of a token, decoded. -/
def tokenKey (token : List Char) : List Char := Text.Percent.decode (Text.cutFirst '=' token).1

/-- The value of a token, decoded, if it has one. -/
def tokenValue? (token : List Char) : Option (List Char) :=
  (Text.cutFirst '=' token).2.map Text.Percent.decode

/-- The recognized key of a token. -/
def recognized? (token : List Char) : Option Key := Key.ofText? (tokenKey token)

/-- The query of the given tokens; no token gives no query. -/
def ofTokens (tokens : List (List Char)) : List Char :=
  match tokens with
  | [] => []
  | tokens => '?' :: Text.joinWith ['&'] tokens

/-- The query without its recognized tokens. -/
def sanitizeChars (query : List Char) : List Char :=
  ofTokens ((tokens query).filter fun token => (recognized? token).isNone)

/-- The query without its recognized tokens. -/
def sanitize (query : String) : String := String.ofList (sanitizeChars query.toList)

/-- Adds tokens to a query that may be empty. -/
def append (query extra : String) : String :=
  if extra.isEmpty then query
  else if query.isEmpty then "?" ++ extra
  else query ++ "&" ++ extra

end Query

/-- What a query asks for. -/
structure Flags where
  /-- The request is routed to this library. -/
  marker : Bool := false
  combined : Bool := false
  /-- No default export is to be made up. -/
  skipSyntheticDefault : Bool := false
  typesRequested : Bool := false
  stableNamespace : Option String := none
  exportName : Option String := none
  /-- The query without the recognized tokens. -/
  sanitized : String := ""
  deriving DecidableEq, Repr, Inhabited

namespace Flags

/-- Selectors are wanted when types are, or when a namespace is given. -/
def stableRequested (flags : Flags) : Bool :=
  flags.typesRequested || flags.stableNamespace.isSome

/-- What one token adds. A blank namespace and an empty export name add nothing. -/
def addToken (flags : Flags) (token : List Char) : Flags :=
  match Query.recognized? token with
  | none => flags
  | some .marker => { flags with marker := true }
  | some .combined => { flags with combined := true }
  | some .namedOnly | some .noDefault => { flags with skipSyntheticDefault := true }
  | some .types => { flags with typesRequested := true }
  | some .stableNamespace =>
    match Query.tokenValue? token with
    | some value =>
      if value.all Text.isBlank then flags
      else { flags with stableNamespace := some (String.ofList value) }
    | none => flags
  | some .exportName =>
    match Query.tokenValue? token with
    | some value =>
      if value.isEmpty then flags else { flags with exportName := some (String.ofList value) }
    | none => flags

/-- Reads a query. Flags may repeat; of two values the later one counts. -/
def ofQuery (query : String) : Flags :=
  (Query.tokens query.toList).foldl addToken { sanitized := Query.sanitize query }

end Flags

end StyleGraph.Request
