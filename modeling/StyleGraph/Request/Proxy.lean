import StyleGraph.Path.Basic
import StyleGraph.Request.Query

/-!
# Requests for other resources

The requests that generated modules make: the original resource without this library's flags, and
the compiled text of a style.
-/

set_option autoImplicit false

namespace StyleGraph.Request

/-- The path that leads from a directory to a resource, beginning with `./` unless it leaves the
directory first. -/
def relativePath (directory resource : String) : String :=
  let route := Path.routeParts (Path.parts (Path.clean directory)) (Path.parts (Path.clean resource))
  let joined := String.intercalate "/" (route.map Path.Part.text)
  if Text.startsWith ['.', '.'] joined.toList then joined else "./" ++ joined

/-- A request as it was written, with the recognized tokens of its query removed. What stands
before the last `!` is a chain of other processors and stays. -/
def sanitizeRequest (raw : String) : String :=
  let (chain, request) := Text.cutAfterLast '!' raw.toList
  let (path, query) := Text.cutQuery request
  String.ofList (chain ++ path ++ Query.sanitizeChars query)

/-- The request for a resource without this library's flags. The written request is preferred;
without one the path from the root directory is used. -/
def proxyRequest (resource : String) (rawRequest : Option String) (rootDirectory query : String) :
    String :=
  match rawRequest with
  | some raw =>
    if raw.isEmpty then relativePath rootDirectory resource ++ Query.sanitize query
    else sanitizeRequest raw
  | none => relativePath rootDirectory resource ++ Query.sanitize query

/-- Whether a query has a token with the given key, as it is written. -/
def hasKey (query : List Char) (key : Key) : Bool :=
  (Text.cutAll '&' (query.dropWhile (· == '?'))).any fun token =>
    (Text.cutFirst '=' token).1 == key.text.toList

/-- The request for the compiled text of a style, exported under a given name if there is one. A
key that the request has already is not added again. -/
def cssRequest (specifier : String) (exportName : Option String) : String :=
  let (path, query) := Text.cutQuery specifier.toList
  let marker := if hasKey query .marker then [] else [Key.marker.text]
  let name := match exportName with
    | some name => if hasKey query .exportName then [] else [Key.exportName.text ++ "=" ++ name]
    | none => []
  match marker ++ name with
  | [] => specifier
  | extra =>
    String.ofList path ++ Query.append (String.ofList query) (String.intercalate "&" extra)

/-- A request cut before the last `?`, where its query begins. A `?` in the chain of other processors
begins no query. -/
def cutLastQuery (request : List Char) : List Char × List Char :=
  let (lead, query) := Text.cutAfterLast '?' request
  if lead.isEmpty || query.contains '!' then (request, []) else (lead.dropLast, '?' :: query)

/-- The tokens that a request for the style text of a resource needs, when the resource itself was
asked for with the given flags. -/
def payloadTokens (flags : Flags) (exportName : String) : List String :=
  [Key.marker.text] ++
  (if flags.typesRequested then [Key.types.text] else []) ++
  (match flags.stableNamespace with
    | some space =>
      [Key.stableNamespace.text ++ "=" ++ String.ofList (Text.Percent.encode space.toList)]
    | none => []) ++
  (if flags.exportName.isSome then [Key.exportName.text ++ "=" ++ exportName] else [])

/-- The request for the style text of a resource, made from the request for the resource. -/
def payloadRequest (source : String) (flags : Flags) (exportName : String) : String :=
  let (path, query) := cutLastQuery source.toList
  String.ofList path ++
    Query.append (String.ofList query) (String.intercalate "&" (payloadTokens flags exportName))

end StyleGraph.Request
