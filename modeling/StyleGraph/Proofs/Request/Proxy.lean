import StyleGraph.Proofs.Path.Names
import StyleGraph.Proofs.Request.Query
import StyleGraph.Request.Proxy

/-!
# Requests in parts

A request is a chain of other processors up to the last `!`, a path up to the next `?`, and a query.
The request for the original of a resource has the sanitized query, and the request for its style
text has the same chain and path, with more tokens behind that query
(`payloadRequest_sanitized`): reading it gives the flags that the tokens were written for
(`ofQuery_queryOf_payloadRequest`).

The original's query is cut at its first `?` when it is sanitized, and at its last one when tokens
are added. A token may hold a `?`, so these can be two places; adding at the end of the query is the
same for both.
-/

set_option autoImplicit false

namespace StyleGraph.Request

/-- A request in its parts. -/
structure Parts where
  /-- Other processors, each with a `!` behind it. -/
  chain : List Char
  path : List Char
  /-- The query with its leading `?`, or nothing. -/
  query : List Char
  chain_closed : chain = [] ∨ ∃ before, chain = before ++ ['!']
  path_plain : '!' ∉ path ∧ '?' ∉ path
  query_begins : query = [] ∨ ∃ body, query = '?' :: body
  query_plain : '!' ∉ query

/-- The chain of a request: other processors, up to the last `!`. -/
def chainOf (request : String) : String := String.ofList (Text.cutAfterLast '!' request.toList).1

/-- The path of a request, between its chain and its query. -/
def pathOf (request : String) : String :=
  String.ofList (Text.cutQuery (Text.cutAfterLast '!' request.toList).2).1

/-- The query of a request: what begins at the first `?` behind the chain. -/
def queryOf (request : String) : String :=
  String.ofList (Text.cutQuery (Text.cutAfterLast '!' request.toList).2).2

namespace Parts

/-- The request. -/
def text (parts : Parts) : List Char := parts.chain ++ (parts.path ++ parts.query)

/-- The request with another query. -/
def withTokens (parts : Parts) (found : List (List Char)) (plain : ∀ token ∈ found, '!' ∉ token) :
    Parts :=
  { parts with
    query := Query.ofTokens found
    query_begins := Query.ofTokens_begins found
    query_plain := Query.not_mem_ofTokens (by decide) (by decide) plain }

/-- The request without the recognized tokens of its query. -/
def sanitized (parts : Parts) : Parts :=
  parts.withTokens (Query.residual parts.query) fun _ mem =>
    Query.not_mem_of_mem_residual mem parts.query_plain

/-- Sanitizing a request keeps its chain and its path. -/
theorem text_sanitized (parts : Parts) : parts.sanitized.text =
    parts.chain ++ (parts.path ++ Query.sanitizeChars parts.query) :=
  rfl

/-- **Every request has parts.** It is cut at its last `!`, and then at the first `?` behind that.
-/
theorem exists_text_eq (request : List Char) : ∃ parts : Parts, parts.text = request := by
  obtain ⟨chain, rest, joined, closed, plain⟩ : ∃ chain rest, request = chain ++ rest ∧
      (chain = [] ∨ ∃ before, chain = before ++ ['!']) ∧ '!' ∉ rest := by
    by_cases chained : '!' ∈ request
    · obtain ⟨before, after, rfl, absent⟩ := Text.exists_append_cons_of_mem chained
      exact ⟨before ++ ['!'], after, by simp, .inr ⟨before, rfl⟩, absent⟩
    · exact ⟨[], request, rfl, .inl rfl, chained⟩
  by_cases asked : '?' ∈ rest
  · obtain ⟨path, body, rfl, absent⟩ := List.eq_append_cons_of_mem asked
    rw [List.mem_append, not_or] at plain
    exact ⟨⟨chain, path, '?' :: body, closed, ⟨plain.1, absent⟩, .inr ⟨body, rfl⟩, plain.2⟩,
      joined.symm⟩
  · refine ⟨⟨chain, rest, [], closed, ⟨plain, asked⟩, .inl rfl, List.not_mem_nil⟩, ?_⟩
    rw [text, List.append_nil, joined]

/-- A path and a query alone are the sanitized request of parts. What stands before the last `!` of
the path is their chain. -/
theorem exists_text_sanitized_eq {path query : List Char} (pathPlain : '?' ∉ path)
    (queryPlain : '!' ∉ query) : ∃ parts : Parts, parts.chain ++ parts.path = path ∧
      parts.sanitized.text = path ++ Query.sanitizeChars query ∧
      parts.sanitized.query = Query.sanitizeChars query := by
  obtain ⟨parts, rfl⟩ := exists_text_eq path
  have unasked : parts.query = [] := by
    rcases parts.query_begins with empty | ⟨body, begun⟩
    · exact empty
    · exact absurd (by simp [text, begun]) pathPlain
  let asked := parts.withTokens (Query.residual query) fun _ mem =>
    Query.not_mem_of_mem_residual mem queryPlain
  have kept : asked.sanitized.query = Query.sanitizeChars query :=
    Query.sanitizeChars_sanitizeChars query
  refine ⟨asked, by simp [text, unasked, asked, withTokens], ?_, kept⟩
  rw [text, kept, text, unasked, List.append_nil, List.append_assoc]
  rfl

/-- The chain of a request ends with its last exclamation mark. -/
theorem cutAfterLast_text (parts : Parts) :
    Text.cutAfterLast '!' parts.text = (parts.chain, parts.path ++ parts.query) := by
  have plain : '!' ∉ parts.path ++ parts.query := by
    rw [List.mem_append, not_or]
    exact ⟨parts.path_plain.1, parts.query_plain⟩
  rcases parts.chain_closed with empty | ⟨before, closed⟩
  · rw [text, empty, List.nil_append, Text.cutAfterLast_of_not_mem plain]
  · rw [text, closed, List.append_assoc, List.singleton_append,
      Text.cutAfterLast_append_cons plain]

/-- The query of a request begins with its first question mark behind the chain. -/
theorem cutQuery_text (parts : Parts) :
    Text.cutQuery (parts.path ++ parts.query) = (parts.path, parts.query) :=
  Text.cutQuery_append parts.path_plain.2 parts.query_begins

/-- The chain is read back from the text of the request. -/
theorem chainOf_text (parts : Parts) :
    chainOf (String.ofList parts.text) = String.ofList parts.chain := by
  rw [chainOf, String.toList_ofList, cutAfterLast_text]

/-- So is the path. -/
theorem pathOf_text (parts : Parts) :
    pathOf (String.ofList parts.text) = String.ofList parts.path := by
  rw [pathOf, String.toList_ofList, cutAfterLast_text, cutQuery_text]

/-- The query of a request that is written from its parts. -/
theorem queryOf_text (parts : Parts) :
    queryOf (String.ofList parts.text) = String.ofList parts.query := by
  rw [queryOf, String.toList_ofList, cutAfterLast_text, cutQuery_text]

/-- Sanitizing a request sanitizes its query. -/
theorem sanitizeRequest_text (parts : Parts) :
    sanitizeRequest (String.ofList parts.text) = String.ofList parts.sanitized.text := by
  simp only [sanitizeRequest, String.toList_ofList, cutAfterLast_text, cutQuery_text,
    List.append_assoc, text_sanitized]

end Parts

/-! ## Cutting at the last `?` -/

/-- The two parts of a request are all of it. -/
theorem cutLastQuery_append (request : List Char) :
    (cutLastQuery request).1 ++ (cutLastQuery request).2 = request := by
  unfold cutLastQuery
  by_cases asked : '?' ∈ request
  · obtain ⟨before, after, rfl, absent⟩ := Text.exists_append_cons_of_mem asked
    rw [Text.cutAfterLast_append_cons absent]
    simp only
    split
    · rw [List.append_nil]
    · rw [List.dropLast_concat]
  · rw [Text.cutAfterLast_of_not_mem asked]
    simp

/-- A request is cut if it has a query; a `?` in the chain does not count. The chain ends before the
last separator, so the last `?` behind it is that of the request itself. -/
theorem cutLastQuery_text_eq_nil_iff (parts : Parts) :
    (cutLastQuery parts.text).2 = [] ↔ parts.query = [] := by
  unfold cutLastQuery
  rcases parts.query_begins with empty | ⟨body, begun⟩
  · simp only [empty, iff_true]
    by_cases asked : '?' ∈ parts.text
    · have inChain : '?' ∈ parts.chain := by
        rw [Parts.text, empty, List.append_nil, List.mem_append] at asked
        exact asked.resolve_right parts.path_plain.2
      obtain ⟨lead, closed⟩ := parts.chain_closed.resolve_left (List.ne_nil_of_mem inChain)
      have inLead : '?' ∈ lead := by simpa [closed] using inChain
      -- Behind the last `?` of the chain is the `!` that closes it.
      obtain ⟨before, after, rfl, absent⟩ := Text.exists_append_cons_of_mem inLead
      have written : parts.text = before ++ '?' :: (after ++ '!' :: parts.path) := by
        rw [Parts.text, closed, empty]
        simp
      have last : '?' ∉ after ++ '!' :: parts.path := by
        simp [absent, parts.path_plain.2]
      rw [written, Text.cutAfterLast_append_cons last]
      simp
    · rw [Text.cutAfterLast_of_not_mem asked]
      simp
  · simp only [begun, List.cons_ne_nil, iff_false]
    have asked : '?' ∈ parts.query := begun ▸ List.mem_cons_self
    obtain ⟨before, after, cut, absent⟩ := Text.exists_append_cons_of_mem asked
    have plain : '!' ∉ after := fun mem => parts.query_plain (by simp [cut, mem])
    have written : parts.text = (parts.chain ++ (parts.path ++ before)) ++ '?' :: after := by
      rw [Parts.text, cut]
      simp
    rw [written, Text.cutAfterLast_append_cons absent]
    simp [plain]

/-! ## The request for the original -/

/-- **The way to a resource holds slashes, dots and what the path of the resource holds**, whatever
directory it leads from. -/
theorem not_mem_relativePath {c : Char} (slash : c ≠ '/') (dot : c ≠ '.') {resource : String}
    (absent : c ∉ resource.toList) (directory : String) :
    c ∉ (relativePath directory resource).toList := by
  have cleanAbsent := Path.not_mem_clean slash dot absent
  have each : ∀ part ∈ Path.routeParts (Path.parts (Path.clean directory))
      (Path.parts (Path.clean resource)), c ∉ part.text.toList := by
    intro part mem
    rcases List.mem_append.mp mem with leave | enter
    · rw [List.eq_of_mem_replicate leave]
      simpa [Path.Part.text] using dot
    · exact Path.not_mem_text slash dot (List.mem_of_mem_drop enter) cleanAbsent
  unfold relativePath
  generalize Path.routeParts _ _ = route at each
  have joined : c ∉ (String.intercalate "/" (route.map Path.Part.text)).toList := by
    rw [Text.toList_intercalate]
    refine Text.not_mem_joinWith (by simpa using slash) fun piece listed => ?_
    simp only [List.map_map, List.mem_map, Function.comp_apply] at listed
    obtain ⟨part, listed, rfl⟩ := listed
    exact each part listed
  simp only
  split
  · exact joined
  · rw [String.toList_append, List.mem_append, not_or]
    exact ⟨by simp [slash, dot], joined⟩

/-- The request for the original of a resource has a sanitized query. A written request has its own
query; without one, the query of the resource is taken. -/
theorem exists_proxyRequest_text (resource : String) (rawRequest : Option String)
    (rootDirectory query : String) (pathPlain : '?' ∉ resource.toList)
    (queryPlain : '!' ∉ query.toList) :
    ∃ parts : Parts, proxyRequest resource rawRequest rootDirectory query =
      String.ofList parts.sanitized.text := by
  have pathAbsent : '?' ∉ (relativePath rootDirectory resource).toList :=
    not_mem_relativePath (by decide) (by decide) pathPlain rootDirectory
  obtain ⟨built, -, text, -⟩ := Parts.exists_text_sanitized_eq pathAbsent queryPlain
  have written : relativePath rootDirectory resource ++ Query.sanitize query =
      String.ofList built.sanitized.text := by
    rw [text, String.ofList_append, String.ofList_toList, Query.sanitize]
  unfold proxyRequest
  split
  next raw =>
    split
    · exact ⟨built, written⟩
    · obtain ⟨parts, text⟩ := Parts.exists_text_eq raw.toList
      exact ⟨parts, by rw [← Parts.sanitizeRequest_text, text, String.ofList_toList]⟩
  · exact ⟨built, written⟩

/-! ## The request for the style text -/

/-- A value that can be written as it is. -/
def IsPlain (value : List Char) : Prop := ∀ c ∈ ['%', '&', '!'], c ∉ value

/-- A token that this library writes: a key, perhaps with a value. -/
def IsWritten (token : List Char) : Prop :=
  ∃ key : Key, token = key.text.toList ∨
    ∃ value, token = key.text.toList ++ '=' :: value ∧ '&' ∉ value ∧ '!' ∉ value

namespace IsWritten

variable {token : List Char}

/-- A token that is written down is one token: what separates tokens is escaped in its value. -/
theorem isToken (written : IsWritten token) : Query.IsToken token := by
  obtain ⟨key, written⟩ := written
  have filled : key.text.toList ≠ [] := by cases key <;> decide +kernel
  have plain : '&' ∉ key.text.toList := Query.not_mem_text (by decide) key
  rcases written with rfl | ⟨value, rfl, absent, _⟩
  · exact ⟨filled, plain⟩
  · exact ⟨by simp, by simp [plain, absent]⟩

/-- It is one that the loader knows. -/
theorem recognized (written : IsWritten token) : (Query.recognized? token).isSome := by
  obtain ⟨key, rfl | ⟨value, rfl, _⟩⟩ := written
  · rw [Query.recognized?_text, Option.isSome_some]
  · rw [Query.recognized?_value, Option.isSome_some]

/-- It has no exclamation mark, so it does not look like a chain. -/
theorem plain (written : IsWritten token) : '!' ∉ token := by
  obtain ⟨key, written⟩ := written
  have keyPlain : '!' ∉ key.text.toList := Query.not_mem_text (by decide) key
  rcases written with rfl | ⟨value, rfl, _, absent⟩
  · exact keyPlain
  · simp [keyPlain, absent]

end IsWritten

variable {flags : Flags} {exportName : String}

/-- The tokens of a payload request, in their order. -/
theorem payloadTokens_eq : payloadTokens flags exportName =
    [Key.marker.text] ++ (if flags.typesRequested then [Key.types.text] else []) ++
      flags.stableNamespace.toList.map (fun space =>
        Key.stableNamespace.text ++ "=" ++ String.ofList (Text.Percent.encode space.toList)) ++
      (if flags.exportName.isSome then [Key.exportName.text ++ "=" ++ exportName] else []) := by
  unfold payloadTokens
  cases flags.stableNamespace <;> rfl

/-- Each of them is written down in this way. A namespace is escaped, and the name of an export
holds none of the characters that would end the token. -/
theorem isWritten_of_mem_payloadTokens (plain : IsPlain exportName.toList) {token : String}
    (mem : token ∈ payloadTokens flags exportName) : IsWritten token.toList := by
  simp only [payloadTokens_eq, List.mem_append, List.mem_singleton, List.mem_map] at mem
  rcases mem with ((rfl | types) | ⟨space, _, rfl⟩) | name
  · exact ⟨.marker, .inl rfl⟩
  · split at types
    · exact ⟨.types, .inl (by rw [List.mem_singleton.mp types])⟩
    · exact absurd types List.not_mem_nil
  · refine ⟨.stableNamespace, .inr ⟨Text.Percent.encode space.toList, by simp, ?_, ?_⟩⟩
    · exact Text.Percent.not_mem_encode (by decide) (by decide) _
    · exact Text.Percent.not_mem_encode (by decide) (by decide) _
  · split at name
    · refine ⟨.exportName, .inr ⟨exportName.toList, ?_, plain _ (by decide), plain _ (by decide)⟩⟩
      rw [List.mem_singleton.mp name]
      simp
    · exact absurd name List.not_mem_nil

/-- **The flags that the tokens are written for are read from them.** Each token sets one flag and
none is set twice, so they can be read one by one from the empty flags. -/
theorem foldl_addToken_payloadTokens (nonblank : flags.Nonblank) (plain : IsPlain exportName.toList)
    (filled : exportName.toList ≠ []) (sanitized : String) :
    ((payloadTokens flags exportName).map String.toList).foldl Flags.addToken { sanitized } =
      { marker := true
        typesRequested := flags.typesRequested
        stableNamespace := flags.stableNamespace
        exportName := flags.exportName.map fun _ => exportName
        sanitized } := by
  have types (start : Flags) (fresh : start.typesRequested = false) :
      ((if flags.typesRequested then [Key.types.text] else []).map String.toList).foldl
        Flags.addToken start = { start with typesRequested := flags.typesRequested } := by
    cases flags.typesRequested with
    | false => exact congrArg (fun b => { start with typesRequested := b }) fresh
    | true => exact start.addToken_types
  have space (start : Flags) (fresh : start.stableNamespace = none) :
      ((flags.stableNamespace.toList.map fun space => Key.stableNamespace.text ++ "=" ++
        String.ofList (Text.Percent.encode space.toList)).map String.toList).foldl
          Flags.addToken start = { start with stableNamespace := flags.stableNamespace } := by
    cases given : flags.stableNamespace with
    | none => exact congrArg (fun o => { start with stableNamespace := o }) fresh
    | some space =>
      have read := start.addToken_stableNamespace (nonblank space given)
      rw [String.ofList_toList] at read
      rw [← read]
      simp
  have name (start : Flags) (fresh : start.exportName = none) :
      ((if flags.exportName.isSome then [Key.exportName.text ++ "=" ++ exportName] else []).map
        String.toList).foldl Flags.addToken start =
        { start with exportName := flags.exportName.map fun _ => exportName } := by
    cases flags.exportName with
    | none => exact congrArg (fun o => { start with exportName := o }) fresh
    | some _ =>
      have read := start.addToken_exportName filled (plain _ (by decide))
      rw [String.ofList_toList] at read
      simp only [Option.isSome_some, if_true, Option.map_some]
      rw [← read]
      simp
  rw [payloadTokens_eq, List.map_append, List.map_append, List.map_append, List.foldl_append,
    List.foldl_append, List.foldl_append]
  simp only [List.map_cons, List.map_nil, List.foldl_cons, List.foldl_nil, Flags.addToken_marker]
  rw [types _ rfl, space _ rfl, name _ rfl]

/-- The request for the style text, character by character. -/
theorem toList_payloadRequest (source : String) : (payloadRequest source flags exportName).toList =
    source.toList ++ (if (cutLastQuery source.toList).2 = [] then '?' else '&') ::
      Text.joinWith ['&'] ((payloadTokens flags exportName).map String.toList) := by
  have some : String.intercalate "&" (payloadTokens flags exportName) ≠ "" := by
    obtain ⟨rest, tokens⟩ :
        ∃ rest, payloadTokens flags exportName = Key.marker.text :: rest := ⟨_, rfl⟩
    rw [← String.toList_inj.ne, Text.toList_intercalate, tokens, List.map_cons]
    exact Text.joinWith_cons_ne_nil (by decide) _ _
  simp only [payloadRequest, String.toList_append, String.toList_ofList, Query.toList_append _ some,
    Text.toList_intercalate]
  rw [← List.append_assoc, cutLastQuery_append]
  rfl

/-- The same of their characters. -/
theorem isWritten_of_mem_map (plain : IsPlain exportName.toList) {token : List Char}
    (mem : token ∈ (payloadTokens flags exportName).map String.toList) : IsWritten token := by
  obtain ⟨text, listed, rfl⟩ := List.mem_map.mp mem
  exact isWritten_of_mem_payloadTokens plain listed

/-- A request for the style text: the chain and the path of a request, and the tokens for the style
text behind those of its query that are not recognized. -/
def Parts.payload (source : Parts) (flags : Flags) (exportName : String)
    (plain : IsPlain exportName.toList) : Parts :=
  source.withTokens
    (Query.residual source.query ++ (payloadTokens flags exportName).map String.toList)
    fun _ mem => (List.mem_append.mp mem).elim
      (fun kept => Query.not_mem_of_mem_residual kept source.query_plain)
      fun added => (isWritten_of_mem_map plain added).plain

/-- **The request for the style text is made from that for the original.** So it is enough to know
the parts of the one to know those of the other. -/
theorem payloadRequest_sanitized (source : Parts) (plain : IsPlain exportName.toList) :
    payloadRequest (String.ofList source.sanitized.text) flags exportName =
      String.ofList (source.payload flags exportName plain).text := by
  have added : (payloadTokens flags exportName).map String.toList ≠ [] := by
    simp [payloadTokens]
  apply String.toList_inj.mp
  rw [toList_payloadRequest, String.toList_ofList, String.toList_ofList]
  simp only [cutLastQuery_text_eq_nil_iff]
  show source.chain ++ (source.path ++ Query.ofTokens (Query.residual source.query)) ++
    (if Query.ofTokens (Query.residual source.query) = [] then '?' else '&') :: _ =
      source.chain ++ (source.path ++ Query.ofTokens (_ ++ _))
  rw [Query.ofTokens_append _ added]
  simp only [List.append_assoc]

/-- **What a payload request asks for.** The request for the style text is read with the flags that
matter for that text, and what else the request for the original asks for. -/
theorem ofQuery_queryOf_payloadRequest (source : Parts) (nonblank : flags.Nonblank)
    (plain : IsPlain exportName.toList) (filled : exportName.toList ≠ []) :
    Flags.ofQuery
        (queryOf (payloadRequest (String.ofList source.sanitized.text) flags exportName)) =
      { marker := true
        typesRequested := flags.typesRequested
        stableNamespace := flags.stableNamespace
        exportName := flags.exportName.map fun _ => exportName
        sanitized := queryOf (String.ofList source.sanitized.text) } := by
  have added : ∀ token ∈ (payloadTokens flags exportName).map String.toList, IsWritten token :=
    fun _ => isWritten_of_mem_map plain
  have each : ∀ token ∈ Query.residual source.query ++
      (payloadTokens flags exportName).map String.toList, Query.IsToken token := by
    intro token mem
    rcases List.mem_append.mp mem with mem | mem
    · exact Query.isToken_of_mem_residual mem
    · exact (added token mem).isToken
  have query : (source.payload flags exportName plain).query = Query.ofTokens
      (Query.residual source.query ++ (payloadTokens flags exportName).map String.toList) := rfl
  have kept : source.sanitized.query = Query.sanitizeChars source.query := rfl
  rw [payloadRequest_sanitized source plain, Parts.queryOf_text, Parts.queryOf_text, query, kept,
    Flags.ofQuery, Query.sanitize, String.toList_ofList, Query.tokens_ofTokens each,
    Query.sanitizeChars_ofTokens_append source.query (fun token mem => (added token mem).isToken)
      fun token mem => (added token mem).recognized,
    List.foldl_append, Flags.foldl_addToken_residual,
    foldl_addToken_payloadTokens nonblank plain filled]

end StyleGraph.Request
