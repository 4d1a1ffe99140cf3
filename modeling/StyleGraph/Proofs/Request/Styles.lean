import StyleGraph.Proofs.Request.Proxy

/-!
# Requests for styles

A style is asked for by its own request, with tokens behind the query: the marker, and the export
name where one is forwarded. A token whose key the query has already, as it is written, is not
added. What is added is read behind what the query has (`ofQuery_append`), so a forwarded name
counts, unless it was not added (`exportName_ofQuery_cssRequest`).

The two readings of a query differ: for adding tokens, keys are compared as they are written and
every leading `?` is passed over; for the flags, keys are decoded and one leading `?` is.
-/

set_option autoImplicit false

namespace StyleGraph.Request

/-- The query of a request without other processors: what begins at the first `?`. -/
def queryFrom (request : String) : String := String.ofList (Text.cutQuery request.toList).2

/-- Where a request has other processors in front of the path only, it has the query that a bundler
takes. -/
theorem queryOf_eq_queryFrom {request : String}
    (plain : '!' ∉ (Text.cutQuery request.toList).2) : queryOf request = queryFrom request := by
  obtain ⟨path, query, joined, absent, begins, cut⟩ := Text.exists_cutQuery_eq request.toList
  rw [cut] at plain
  rw [queryOf, queryFrom, cut, joined]
  by_cases chained : '!' ∈ path
  · obtain ⟨before, after, rfl, last⟩ := Text.exists_append_cons_of_mem chained
    have behind : '!' ∉ after ++ query := by simp [last, plain]
    have asked : '?' ∉ after := fun mem => absent (by simp [mem])
    rw [List.append_assoc, List.cons_append, Text.cutAfterLast_append_cons behind,
      Text.cutQuery_append asked begins]
  · have behind : '!' ∉ path ++ query := by simp [chained, plain]
    rw [Text.cutAfterLast_of_not_mem behind, Text.cutQuery_append absent begins]

/-! ## Added tokens -/

/-- A query with more tokens begins as queries do. -/
theorem append_begins {query : String}
    (begins : query.toList = [] ∨ ∃ body, query.toList = '?' :: body) (extra : String) :
    (Query.append query extra).toList = [] ∨
      ∃ body, (Query.append query extra).toList = '?' :: body := by
  by_cases none : extra = ""
  · rw [Query.append, none]
    exact begins
  · refine .inr ?_
    rw [Query.toList_append _ none]
    rcases begins with empty | ⟨body, begun⟩
    · exact ⟨extra.toList, by simp [empty]⟩
    · exact ⟨_, by rw [begun, List.cons_append]⟩

/-- Tokens that this library adds are a text. -/
theorem intercalate_ne_empty {extra : List String} (some : extra ≠ [])
    (each : ∀ token ∈ extra, IsWritten token.toList) : String.intercalate "&" extra ≠ "" := by
  obtain ⟨first, rest, rfl⟩ := List.exists_cons_of_ne_nil some
  rw [← String.toList_inj.ne, Text.toList_intercalate, List.map_cons]
  exact Text.joinWith_cons_ne_nil (each first List.mem_cons_self).isToken.nonempty _ _

/-- **Tokens that this library adds are read as flags of their own**, behind those that the query
has. -/
theorem ofQuery_append {query : String}
    (begins : query.toList = [] ∨ ∃ body, query.toList = '?' :: body) {extra : List String}
    (some : extra ≠ []) (each : ∀ token ∈ extra, IsWritten token.toList) :
    Flags.ofQuery (Query.append query (String.intercalate "&" extra)) =
      (extra.map String.toList).foldl Flags.addToken (Flags.ofQuery query) := by
  have written : ∀ token ∈ extra.map String.toList, IsWritten token := by
    intro token mem
    obtain ⟨text, listed, rfl⟩ := List.mem_map.mp mem
    exact each text listed
  have filled := intercalate_ne_empty some each
  have tokens : Query.tokens (Query.append query (String.intercalate "&" extra)).toList =
      Query.tokens query.toList ++ extra.map String.toList := by
    rw [Query.toList_append _ filled, Text.toList_intercalate]
    exact Query.tokens_append begins (by simpa using some) fun token mem =>
      (written token mem).isToken
  have dropped : (extra.map String.toList).filter
      (fun token => (Query.recognized? token).isNone) = [] :=
    List.filter_eq_nil_iff.mpr fun token mem => by
      simpa [Option.isSome_iff_ne_none] using (written token mem).recognized
  have sanitized : Query.sanitize (Query.append query (String.intercalate "&" extra)) =
      Query.sanitize query := by
    rw [Query.sanitize, Query.sanitizeChars, tokens, List.filter_append, dropped, List.append_nil]
    rfl
  rw [Flags.ofQuery, tokens, List.foldl_append, sanitized, ← Flags.ofQuery]

/-! ## The request for a style -/

/-- The tokens that the request for a style adds to a query. -/
def styleTokens (query : List Char) (exportName : Option String) : List String :=
  (if hasKey query .marker then [] else [Key.marker.text]) ++
    match exportName with
    | some name =>
      if hasKey query .exportName then [] else [Key.exportName.text ++ "=" ++ name]
    | none => []

/-- The tokens added are written plainly, so that they are read back as they are. The marker is its
key alone, and the name is plain by assumption. -/
theorem isWritten_of_mem_styleTokens {query : List Char} {exportName : Option String}
    (plain : ∀ name ∈ exportName, IsPlain name.toList) {token : String}
    (mem : token ∈ styleTokens query exportName) : IsWritten token.toList := by
  rcases List.mem_append.mp mem with marker | named
  · split at marker
    · exact absurd marker List.not_mem_nil
    · rw [List.mem_singleton.mp marker]
      exact ⟨.marker, .inl rfl⟩
  · split at named
    next name =>
      split at named
      · exact absurd named List.not_mem_nil
      · have plainName := plain name rfl
        rw [List.mem_singleton.mp named]
        refine ⟨.exportName, .inr ⟨name.toList, ?_, plainName _ (by decide),
          plainName _ (by decide)⟩⟩
        simp
    · exact absurd named List.not_mem_nil

/-- The request for the CSS, spelled out: the specifier as it is if nothing is to be added, and its
query with the tokens otherwise. -/
theorem cssRequest_eq {style : String} {path query : List Char}
    (cut : Text.cutQuery style.toList = (path, query)) (exportName : Option String) :
    cssRequest style exportName =
      if styleTokens query exportName = [] then style
      else String.ofList path ++ Query.append (String.ofList query)
        (String.intercalate "&" (styleTokens query exportName)) := by
  unfold cssRequest
  simp only [cut]
  split
  next none => exact (if_pos none).symm
  next some => exact (if_neg some).symm

variable (style : String) {exportName : Option String}
  (plain : ∀ name ∈ exportName, IsPlain name.toList)

include plain

/-- **The request for a style is read with the flags of the style and those of the added
tokens.** -/
theorem ofQuery_cssRequest :
    Flags.ofQuery (queryFrom (cssRequest style exportName)) =
      ((styleTokens (queryFrom style).toList exportName).map String.toList).foldl Flags.addToken
        (Flags.ofQuery (queryFrom style)) := by
  obtain ⟨path, query, joined, absent, begins, cut⟩ := Text.exists_cutQuery_eq style.toList
  have own : queryFrom style = String.ofList query := by rw [queryFrom, cut]
  rw [cssRequest_eq cut, own, String.toList_ofList]
  by_cases none : styleTokens query exportName = []
  · rw [if_pos none, none, own]
    rfl
  · have begins' : (String.ofList query).toList = [] ∨
        ∃ body, (String.ofList query).toList = '?' :: body := by
      rwa [String.toList_ofList]
    have added : queryFrom (String.ofList path ++ Query.append (String.ofList query)
        (String.intercalate "&" (styleTokens query exportName))) =
          Query.append (String.ofList query)
            (String.intercalate "&" (styleTokens query exportName)) := by
      rw [queryFrom, String.toList_append, String.toList_ofList,
        Text.cutQuery_append absent (append_begins begins' _), String.ofList_toList]
    rw [if_neg none, added]
    exact ofQuery_append begins' none fun token mem => isWritten_of_mem_styleTokens plain mem

/-- The export name that the request for a style asks for: the forwarded one, unless the style has
one as it is written, and else the style's own. -/
theorem exportName_ofQuery_cssRequest (filled : ∀ name ∈ exportName, name.toList ≠ []) :
    (Flags.ofQuery (queryFrom (cssRequest style exportName))).exportName =
      if hasKey (queryFrom style).toList .exportName then
        (Flags.ofQuery (queryFrom style)).exportName
      else exportName <|> (Flags.ofQuery (queryFrom style)).exportName := by
  have marked (flags : Flags) :
      (((if hasKey (queryFrom style).toList .marker then [] else [Key.marker.text]).map
        String.toList).foldl Flags.addToken flags).exportName = flags.exportName := by
    split
    · rfl
    · simp only [List.map_cons, List.map_nil, List.foldl_cons, List.foldl_nil,
        flags.addToken_marker]
  rw [ofQuery_cssRequest style plain]
  cases exportName with
  | none =>
    rw [styleTokens, List.append_nil, marked]
    simp
  | some name =>
    rw [styleTokens, List.map_append, List.foldl_append]
    cases named : hasKey (queryFrom style).toList .exportName with
    | true => simp only [if_true, List.map_nil, List.foldl_nil, marked]
    | false =>
      have written : (Key.exportName.text ++ "=" ++ name).toList =
          Key.exportName.text.toList ++ '=' :: name.toList := by simp
      simp only [Bool.false_eq_true, if_false, List.map_cons, List.map_nil, List.foldl_cons,
        List.foldl_nil, written, String.ofList_toList,
        Flags.addToken_exportName _ (filled name rfl) (plain name rfl _ (by decide))]
      rfl

end StyleGraph.Request
