import StyleGraph.Proofs.Request.Proxy

/-!
# What sanitizing keeps

Sanitizing splits a query in two. The tokens with a recognized key are removed, and they alone
decide which flags the query sets; the others stay as they are written, and set none
(`sanitize_splits`).

The request for the original of a resource is made from a query in this way, so it does not come
back to this library (`proxyRequest_keeps`). Which query that is depends on the request: a written
one has its own, which begins at the first `?` behind the chain, whatever the processors of the
chain are asked for. A resource without a written request is asked for by its path, which may hold
a `!`.
-/

set_option autoImplicit false

namespace StyleGraph.Request

/-! ## The two parts of a query -/

namespace Query

/-- Whether the key of a token, once decoded, is one that this library gives a meaning to. -/
def isRecognized (token : List Char) : Bool :=
  Key.all.any fun key => tokenKey token = key.text.toList

/-- A token is recognised exactly if the test says so. -/
theorem isSome_recognized? (token : List Char) :
    (recognized? token).isSome = isRecognized token := by
  rw [recognized?, Key.ofText?, List.isSome_find?, isRecognized]
  simp only [eq_comm]

/-- The tokens that sanitizing removes. -/
def removed (query : List Char) : List (List Char) := (tokens query).filter isRecognized

/-- What is removed is a token of the loader. -/
theorem isToken_of_mem_removed {query token : List Char} (mem : token ∈ removed query) :
    IsToken token :=
  isToken_of_mem_tokens (List.mem_filter.mp mem).1

/-- What stays is the rest, in its order. -/
theorem residual_eq (query : List Char) :
    residual query = (tokens query).filter fun token => !isRecognized token := by
  simp only [residual, ← isSome_recognized?, Option.not_isSome]

/-- **The tokens that stay are read from what is left**, as they were written. -/
theorem tokens_sanitize (query : String) :
    tokens (sanitize query).toList = residual query.toList := by
  rw [sanitize, String.toList_ofList, sanitizeChars_eq]
  exact tokens_ofTokens fun _ mem => isToken_of_mem_residual mem

/-- Nothing is left to remove a second time. -/
theorem sanitize_sanitize (query : String) : sanitize (sanitize query) = sanitize query := by
  rw [sanitize, sanitize, String.toList_ofList, sanitizeChars_sanitizeChars]

end Query

namespace Flags

/-- Only recognized tokens add anything, wherever they stand. -/
theorem foldl_addToken_removed (query : List Char) (flags : Flags) :
    (Query.removed query).foldl addToken flags = (Query.tokens query).foldl addToken flags := by
  have passed : (fun flags token =>
      if Query.isRecognized token = true then addToken flags token else flags) = addToken := by
    funext flags token
    rw [← Query.isSome_recognized?]
    cases recognized : Query.recognized? token with
    | some key => rfl
    | none => rw [addToken, recognized]; rfl
  rw [Query.removed, List.foldl_filter, passed]

/-- What a token adds does not depend on the query that it stands in. So the flags of a query and of
its tokens in another query can be compared. -/
theorem addToken_withSanitized (flags : Flags) (sanitized : String) (token : List Char) :
    ({ flags with sanitized } : Flags).addToken token =
      { flags.addToken token with sanitized } := by
  unfold addToken
  cases Query.recognized? token with
  | none => rfl
  | some key =>
    cases key with
    | stableNamespace =>
      cases Query.tokenValue? token with
      | none => rfl
      | some value =>
        simp only
        split <;> rfl
    | exportName =>
      cases Query.tokenValue? token with
      | none => rfl
      | some value =>
        simp only
        split <;> rfl
    | _ => rfl

/-- Reading the tokens never looks at the sanitized query. -/
theorem foldl_addToken_withSanitized (found : List (List Char)) (flags : Flags)
    (sanitized : String) : found.foldl addToken { flags with sanitized } =
      { found.foldl addToken flags with sanitized } := by
  induction found generalizing flags with
  | nil => rfl
  | cons token rest ih => rw [List.foldl_cons, List.foldl_cons, addToken_withSanitized, ih]

/-- What is left of a query asks for nothing. -/
theorem ofQuery_sanitize (query : String) :
    ofQuery (Query.sanitize query) = { sanitized := Query.sanitize query } := by
  rw [ofQuery, Query.tokens_sanitize, foldl_addToken_residual, Query.sanitize_sanitize]

/-- A query asks for what its removed tokens ask for by themselves. -/
theorem ofQuery_eq_removed (query : String) : ofQuery query =
    { ofQuery (String.ofList (Query.ofTokens (Query.removed query.toList))) with
      sanitized := Query.sanitize query } := by
  have read : Query.tokens (Query.ofTokens (Query.removed query.toList)) =
      Query.removed query.toList :=
    Query.tokens_ofTokens fun _ mem => Query.isToken_of_mem_removed mem
  rw [ofQuery, ofQuery, String.toList_ofList, read, ← foldl_addToken_removed,
    ← foldl_addToken_withSanitized]

end Flags

/-- **Sanitizing splits a query.** What is left of it has just the tokens whose decoded key is not
recognized, character for character and in order; it asks for nothing, and sanitizing it again
changes nothing. What the query asks for, it asks for by the removed tokens alone. -/
theorem sanitize_splits (query : String) :
    Query.tokens (Query.sanitize query).toList =
        (Query.tokens query.toList).filter (fun token => !Query.isRecognized token) ∧
      Query.sanitize (Query.sanitize query) = Query.sanitize query ∧
      Flags.ofQuery (Query.sanitize query) = { sanitized := Query.sanitize query } ∧
      (Flags.ofQuery (Query.sanitize query)).stableRequested = false ∧
      Flags.ofQuery query =
        { Flags.ofQuery (String.ofList (Query.ofTokens (Query.removed query.toList))) with
          sanitized := Query.sanitize query } := by
  have unasked := Flags.ofQuery_sanitize query
  refine ⟨?_, Query.sanitize_sanitize query, unasked, ?_, Flags.ofQuery_eq_removed query⟩
  · rw [Query.tokens_sanitize, Query.residual_eq]
  · rw [unasked]
    rfl

/-! ## The request for the original -/

/-- The query that the request for the original is made from. A written request has its own. -/
def sourceQuery (rawRequest : Option String) (query : String) : String :=
  match rawRequest with
  | some raw => if raw.isEmpty then query else queryOf raw
  | none => query

/-- The request for the original is a written request that is sanitized, or a path with a sanitized
query. -/
theorem proxyRequest_cases (resource : String) (rawRequest : Option String)
    (rootDirectory query : String) :
    (∃ raw, rawRequest = some raw ∧ raw ≠ "" ∧ sourceQuery rawRequest query = queryOf raw ∧
      proxyRequest resource rawRequest rootDirectory query = sanitizeRequest raw) ∨
    (rawRequest.getD "" = "" ∧ sourceQuery rawRequest query = query ∧
      proxyRequest resource rawRequest rootDirectory query =
        relativePath rootDirectory resource ++ Query.sanitize query) := by
  cases rawRequest with
  | none => exact .inr ⟨rfl, rfl, rfl⟩
  | some raw =>
    by_cases empty : raw = ""
    · refine .inr ⟨empty, ?_, ?_⟩
      · rw [sourceQuery, if_pos (String.isEmpty_iff.mpr empty)]
      · rw [proxyRequest, if_pos (String.isEmpty_iff.mpr empty)]
    · have filled : ¬ raw.isEmpty = true := by rwa [String.isEmpty_iff]
      refine .inl ⟨raw, rfl, empty, ?_, ?_⟩
      · rw [sourceQuery, if_neg filled]
      · rw [proxyRequest, if_neg filled]

/-- A written request keeps all but the recognized tokens of its query. -/
theorem sanitizeRequest_keeps (raw : String) :
    chainOf (sanitizeRequest raw) = chainOf raw ∧ pathOf (sanitizeRequest raw) = pathOf raw ∧
      queryOf (sanitizeRequest raw) = Query.sanitize (queryOf raw) := by
  obtain ⟨parts, written⟩ := Parts.exists_text_eq raw.toList
  obtain rfl : raw = String.ofList parts.text := by rw [written, String.ofList_toList]
  rw [Parts.sanitizeRequest_text]
  simp only [Parts.chainOf_text, Parts.pathOf_text, Parts.queryOf_text, Query.sanitize,
    String.toList_ofList]
  exact ⟨rfl, rfl, rfl⟩

/-- A sanitized query behind a path is the query of the two. -/
theorem append_sanitize_keeps {path query : String} (pathPlain : '?' ∉ path.toList)
    (queryPlain : '!' ∉ query.toList) :
    chainOf (path ++ Query.sanitize query) ++ pathOf (path ++ Query.sanitize query) = path ∧
      queryOf (path ++ Query.sanitize query) = Query.sanitize query := by
  obtain ⟨parts, route, text, kept⟩ := Parts.exists_text_sanitized_eq pathPlain queryPlain
  have written : path ++ Query.sanitize query = String.ofList parts.sanitized.text := by
    rw [text, String.ofList_append, String.ofList_toList, Query.sanitize]
  rw [written, Parts.chainOf_text, Parts.pathOf_text, Parts.queryOf_text, kept,
    ← String.ofList_append]
  exact ⟨by rw [← String.ofList_toList (s := path), ← route]; rfl, rfl⟩

/-- **The request for the original does not come back to this library.** Its query has just the
tokens that are not recognized of the query it is made from, so it asks for nothing here; a written
request keeps its chain and its path. It does not matter whether a `?` stands in the chain, a `!` in
the path of the resource, or either in the root directory. -/
theorem proxyRequest_keeps {resource rootDirectory query request : String}
    {rawRequest : Option String} (pathPlain : '?' ∉ resource.toList)
    (queryPlain : '!' ∉ query.toList)
    (built : proxyRequest resource rawRequest rootDirectory query = request) :
    queryOf request = Query.sanitize (sourceQuery rawRequest query) ∧
      Query.tokens (queryOf request).toList =
        (Query.tokens (sourceQuery rawRequest query).toList).filter
          (fun token => !Query.isRecognized token) ∧
      Flags.ofQuery (queryOf request) = { sanitized := queryOf request } ∧
      (∀ raw, rawRequest = some raw → raw ≠ "" →
        chainOf request = chainOf raw ∧ pathOf request = pathOf raw) ∧
      (rawRequest.getD "" = "" →
        chainOf request ++ pathOf request = relativePath rootDirectory resource) := by
  -- the tokens and the flags are those of the query, so it is enough to follow the query
  suffices kept : queryOf request = Query.sanitize (sourceQuery rawRequest query) ∧
      (∀ raw, rawRequest = some raw → raw ≠ "" →
        chainOf request = chainOf raw ∧ pathOf request = pathOf raw) ∧
      (rawRequest.getD "" = "" →
        chainOf request ++ pathOf request = relativePath rootDirectory resource) by
    obtain ⟨sanitized, routes⟩ := kept
    refine ⟨sanitized, ?_, ?_, routes⟩
    · rw [sanitized, Query.tokens_sanitize, Query.residual_eq]
    · rw [sanitized, Flags.ofQuery_sanitize]
  rcases proxyRequest_cases resource rawRequest rootDirectory query with
    ⟨raw, given, filled, asked, same⟩ | ⟨unwritten, asked, same⟩
  · obtain ⟨chain, path, sanitized⟩ := sanitizeRequest_keeps raw
    rw [← built, same, asked]
    refine ⟨sanitized, fun other isOther _ => ?_, fun unwritten => ?_⟩
    · cases given.symm.trans isOther
      exact ⟨chain, path⟩
    · rw [given] at unwritten
      exact absurd unwritten filled
  · have pathAbsent : '?' ∉ (relativePath rootDirectory resource).toList :=
      not_mem_relativePath (by decide) (by decide) pathPlain rootDirectory
    obtain ⟨route, sanitized⟩ := append_sanitize_keeps pathAbsent queryPlain
    rw [← built, same, asked]
    refine ⟨sanitized, fun raw given filled => ?_, fun _ => route⟩
    rw [given] at unwritten
    exact absurd unwritten filled

/-- A written request in which another processor is asked with this library's marker, and none for a
resource whose path holds a `!`. -/
theorem proxyRequest_keeps_chained :
    '?' ∉ "/app/src/card!.css".toList ∧ '!' ∉ "?%63ombined&v=?1&&types&%ff".toList ∧
      proxyRequest "/app/src/card!.css"
          (some "text?knighted-css!./card.css?v=1?&knighted-css&%ff") "/app"
          "?%63ombined&v=?1&&types&%ff" = "text?knighted-css!./card.css?v=1?&%ff" ∧
      chainOf "text?knighted-css!./card.css?v=1?&%ff" = "text?knighted-css!" ∧
      pathOf "text?knighted-css!./card.css?v=1?&%ff" = "./card.css" ∧
      Flags.ofQuery (queryOf "text?knighted-css!./card.css?v=1?&%ff") =
        { sanitized := "?v=1?&%ff" } ∧
      proxyRequest "/app/src/card!.css" none "/app" "?%63ombined&v=?1&&types&%ff" =
        "./src/card!.css?v=?1&%ff" ∧
      Flags.ofQuery (queryOf "./src/card!.css?v=?1&%ff") = { sanitized := "?v=?1&%ff" } := by
  have pathPlain : '?' ∉ "/app/src/card!.css".toList := by decide +kernel
  have queryPlain : '!' ∉ "?%63ombined&v=?1&&types&%ff".toList := by decide +kernel
  have written : proxyRequest "/app/src/card!.css"
      (some "text?knighted-css!./card.css?v=1?&knighted-css&%ff") "/app"
      "?%63ombined&v=?1&&types&%ff" = "text?knighted-css!./card.css?v=1?&%ff" := by
    decide +kernel
  have unwritten : proxyRequest "/app/src/card!.css" none "/app" "?%63ombined&v=?1&&types&%ff" =
      "./src/card!.css?v=?1&%ff" := by
    decide +kernel
  obtain ⟨query, -, flags, route, -⟩ := proxyRequest_keeps pathPlain queryPlain written
  obtain ⟨queryUnwritten, -, flagsUnwritten, -, -⟩ :=
    proxyRequest_keeps pathPlain queryPlain unwritten
  obtain ⟨chain, path⟩ := route _ rfl (by decide)
  refine ⟨pathPlain, queryPlain, written, chain.trans ?_, path.trans ?_, ?_, unwritten, ?_⟩
  · decide +kernel
  · decide +kernel
  · rw [flags, query]
    decide +kernel
  · rw [flagsUnwritten, queryUnwritten]
    decide +kernel

end StyleGraph.Request
