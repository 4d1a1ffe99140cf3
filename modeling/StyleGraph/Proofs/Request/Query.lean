import StyleGraph.Proofs.Text.Cut
import StyleGraph.Proofs.Text.Percent
import StyleGraph.Request.Query

/-!
# Reading a query that was written

A query that is written from tokens is read as these tokens, so a sanitized query is left as it is
by sanitizing it again. Tokens without a recognized key ask for nothing; each recognized token is
read as the one flag that it was written for, whatever its value holds, as long as the value is
escaped.
-/

set_option autoImplicit false

namespace StyleGraph.Request

namespace Query

/-! ## Tokens -/

/-- What can be a token of a query. -/
structure IsToken (token : List Char) : Prop where
  nonempty : token ≠ []
  whole : '&' ∉ token

variable {found : List (List Char)}

/-- What a query is split into are tokens: none of them holds what separates them. -/
theorem isToken_of_mem_tokens {query token : List Char} (mem : token ∈ tokens query) :
    IsToken token := by
  obtain ⟨cut, nonempty⟩ := List.mem_filter.mp mem
  refine ⟨?_, Text.not_mem_of_mem_cutAll cut⟩
  rintro rfl
  cases nonempty

/-- What a token holds is part of the query. -/
theorem mem_of_mem_tokens {query token : List Char} {c : Char} (listed : token ∈ tokens query)
    (mem : c ∈ token) : c ∈ query := by
  have inBody := Text.mem_of_mem_cutAll (List.mem_filter.mp listed).1 mem
  cases stripped : Text.stripStart? ['?'] query with
  | none => rwa [stripped] at inBody
  | some body =>
    rw [Text.eq_append_of_stripStart? stripped]
    rw [stripped] at inBody
    exact List.mem_append_right _ inBody

/-- **Tokens that are written as a query are read again.** -/
theorem tokens_ofTokens (each : ∀ token ∈ found, IsToken token) :
    tokens (ofTokens found) = found := by
  cases found with
  | nil => rfl
  | cons token rest =>
    have body : Text.stripStart? ['?'] (ofTokens (token :: rest)) =
        some (Text.joinWith ['&'] (token :: rest)) := rfl
    rw [tokens, body, Option.getD_some,
      Text.cutAll_joinWith (fun piece mem => (each piece mem).whole) (by simp)]
    refine List.filter_eq_self.mpr fun piece mem => ?_
    simpa [List.isEmpty_iff] using (each piece mem).nonempty

/-- A query that is put together begins with a question mark, or is empty. -/
theorem ofTokens_begins (found : List (List Char)) :
    ofTokens found = [] ∨ ∃ body, ofTokens found = '?' :: body := by
  cases found with
  | nil => exact .inl rfl
  | cons token rest => exact .inr ⟨_, rfl⟩

/-- A query holds what its tokens hold, its beginning and what stands between them. -/
theorem not_mem_ofTokens {c : Char} (begins : c ≠ '?') (between : c ≠ '&')
    (absent : ∀ token ∈ found, c ∉ token) : c ∉ ofTokens found := by
  cases found with
  | nil => exact List.not_mem_nil
  | cons token rest =>
    refine List.not_mem_cons_of_ne_of_not_mem begins (Text.not_mem_joinWith ?_ absent)
    exact fun mem => between (List.mem_singleton.mp mem)

/-- Tokens that are added stand behind those of a query, and begin one if there is none. -/
theorem ofTokens_append (found : List (List Char)) {extra : List (List Char)} (some : extra ≠ []) :
    ofTokens (found ++ extra) = ofTokens found ++
      (if ofTokens found = [] then '?' else '&') :: Text.joinWith ['&'] extra := by
  cases found with
  | nil =>
    obtain ⟨token, rest, rfl⟩ := List.exists_cons_of_ne_nil some
    rfl
  | cons token rest =>
    have begun : ofTokens (token :: rest) ≠ [] := List.cons_ne_nil _ _
    rw [if_neg begun]
    show '?' :: Text.joinWith ['&'] (token :: rest ++ extra) = _
    rw [Text.joinWith_append _ (List.cons_ne_nil _ _) some]
    simp [ofTokens]

/-- What `append` gives, character by character. -/
theorem toList_append (query : String) {extra : String} (some : extra ≠ "") :
    (append query extra).toList =
      query.toList ++ (if query.toList = [] then '?' else '&') :: extra.toList := by
  unfold append
  rw [if_neg (by simpa using some)]
  simp only [String.isEmpty_iff, ← String.toList_eq_nil_iff]
  split
  next empty => simp [empty]
  next => simp

/-- **Tokens that are added to a query are read behind its own.** None of them holds the separator,
so they are cut off where they were joined. -/
theorem tokens_append {query : List Char} (begins : query = [] ∨ ∃ body, query = '?' :: body)
    {extra : List (List Char)} (some : extra ≠ []) (each : ∀ token ∈ extra, IsToken token) :
    tokens (query ++ (if query = [] then '?' else '&') :: Text.joinWith ['&'] extra) =
      tokens query ++ extra := by
  have cut : Text.cutAll '&' (Text.joinWith ['&'] extra) = extra :=
    Text.cutAll_joinWith (fun token mem => (each token mem).whole) some
  have kept : extra.filter (fun token => !token.isEmpty) = extra :=
    List.filter_eq_self.mpr fun token mem => by
      simpa [List.isEmpty_iff] using (each token mem).nonempty
  rcases begins with rfl | ⟨body, rfl⟩
  · simp only [tokens, List.nil_append, if_true, Text.stripStart?, Option.getD_some, cut, kept]
    rfl
  · simp only [tokens, List.cons_append, reduceCtorEq, if_false, Text.stripStart?, if_true,
      Option.getD_some, Text.cutAll_append_sep, cut, List.filter_append, kept]

/-! ## Recognized tokens -/

/-- A key is read from its text. -/
theorem ofText?_text (key : Key) : Key.ofText? key.text.toList = some key := by
  cases key <;> rfl

/-- No key has a character that separates tokens, keys and values. -/
theorem not_mem_text {c : Char} (special : c ∈ ['%', '&', '=', '!', '?']) (key : Key) :
    c ∉ key.text.toList := by
  have checked : ['%', '&', '=', '!', '?'].all (fun c => !key.text.toList.contains c) = true := by
    cases key <;> decide +kernel
  simpa using List.all_eq_true.mp checked c special

/-- A key stands for itself. -/
theorem recognized?_text (key : Key) : recognized? key.text.toList = some key := by
  rw [recognized?, tokenKey, Text.cutFirst_of_not_mem (not_mem_text (by decide) key),
    Text.Percent.decode_of_not_mem (not_mem_text (by decide) key), ofText?_text]

/-- A key is told from its value at the first equals sign. -/
theorem cutFirst_text (key : Key) (value : List Char) :
    Text.cutFirst '=' (key.text.toList ++ '=' :: value) = (key.text.toList, some value) :=
  Text.cutFirst_append_cons (not_mem_text (by decide) key) value

/-- A key stands for itself before a value. -/
theorem recognized?_value (key : Key) (value : List Char) :
    recognized? (key.text.toList ++ '=' :: value) = some key := by
  rw [recognized?, tokenKey, cutFirst_text,
    Text.Percent.decode_of_not_mem (not_mem_text (by decide) key), ofText?_text]

/-- The value of a token is what stands behind that sign, without its escapes. -/
theorem tokenValue?_value (key : Key) (value : List Char) :
    tokenValue? (key.text.toList ++ '=' :: value) = some (Text.Percent.decode value) := by
  rw [tokenValue?, cutFirst_text, Option.map_some]

/-! ## Sanitizing -/

/-- The tokens that sanitizing leaves. -/
def residual (query : List Char) : List (List Char) :=
  (tokens query).filter fun token => (recognized? token).isNone

/-- A sanitized query is put together from the tokens that are left over. -/
theorem sanitizeChars_eq (query : List Char) : sanitizeChars query = ofTokens (residual query) :=
  rfl

/-- The tokens that are left over are tokens of the query. -/
theorem isToken_of_mem_residual {query token : List Char} (mem : token ∈ residual query) :
    IsToken token :=
  isToken_of_mem_tokens (List.mem_filter.mp mem).1

/-- What a token that stays holds is part of the query. -/
theorem not_mem_of_mem_residual {query token : List Char} {c : Char}
    (mem : token ∈ residual query) (absent : c ∉ query) : c ∉ token :=
  fun held => absent (mem_of_mem_tokens (List.mem_filter.mp mem).1 held)

/-- No token that is left over is known to the loader. -/
theorem recognized?_of_mem_residual {query token : List Char} (mem : token ∈ residual query) :
    recognized? token = none :=
  Option.isNone_iff_eq_none.mp (List.mem_filter.mp mem).2

/-- Recognized tokens that were added behind those that stay are removed again. So what a proxy puts
into a query is gone when the query is sanitized once more. -/
theorem sanitizeChars_ofTokens_append (query : List Char) {extra : List (List Char)}
    (each : ∀ token ∈ extra, IsToken token)
    (recognized : ∀ token ∈ extra, (recognized? token).isSome) :
    sanitizeChars (ofTokens (residual query ++ extra)) = sanitizeChars query := by
  have all : ∀ token ∈ residual query ++ extra, IsToken token := by
    intro token mem
    rcases List.mem_append.mp mem with mem | mem
    · exact isToken_of_mem_residual mem
    · exact each token mem
  have kept : (residual query).filter (fun token => (recognized? token).isNone) =
      residual query :=
    List.filter_eq_self.mpr fun token mem =>
      Option.isNone_iff_eq_none.mpr (recognized?_of_mem_residual mem)
  have dropped : extra.filter (fun token => (recognized? token).isNone) = [] :=
    List.filter_eq_nil_iff.mpr fun token mem => by
      simpa [Option.isSome_iff_ne_none] using recognized token mem
  rw [sanitizeChars, tokens_ofTokens all, List.filter_append, kept, dropped, List.append_nil,
    sanitizeChars_eq]

/-- **Sanitizing again changes nothing.** -/
theorem sanitizeChars_sanitizeChars (query : List Char) :
    sanitizeChars (sanitizeChars query) = sanitizeChars query := by
  have none : ∀ {p : List Char → Prop}, ∀ token ∈ ([] : List (List Char)), p token :=
    fun _ mem => absurd mem List.not_mem_nil
  have added := sanitizeChars_ofTokens_append query none none
  rwa [List.append_nil, ← sanitizeChars_eq] at added

end Query

/-! ## Flags -/

namespace Flags

variable (flags : Flags)

/-- What is left over sets no flag, so a sanitized query asks for nothing. It goes by induction on
the tokens, none of which is recognized. -/
theorem foldl_addToken_residual (query : List Char) :
    (Query.residual query).foldl addToken flags = flags := by
  suffices passed : ∀ found : List (List Char),
      (∀ token ∈ found, Query.recognized? token = none) → found.foldl addToken flags = flags from
    passed _ fun _ => Query.recognized?_of_mem_residual
  intro found unrecognized
  induction found with
  | nil => rfl
  | cons token rest ih =>
    have first : flags.addToken token = flags := by
      unfold addToken
      rw [unrecognized token List.mem_cons_self]
    rw [List.foldl_cons, first]
    exact ih fun other mem => unrecognized other (List.mem_cons_of_mem _ mem)

/-- The marker sets its flag and no other. -/
theorem addToken_marker :
    flags.addToken Key.marker.text.toList = { flags with marker := true } := by
  unfold addToken
  rw [Query.recognized?_text]

/-- The request for types sets its flag and no other. -/
theorem addToken_types :
    flags.addToken Key.types.text.toList = { flags with typesRequested := true } := by
  unfold addToken
  rw [Query.recognized?_text]

/-- An escaped namespace is read as the namespace. -/
theorem addToken_stableNamespace {space : List Char} (nonblank : space.all Text.isBlank = false) :
    flags.addToken (Key.stableNamespace.text.toList ++ '=' :: Text.Percent.encode space) =
      { flags with stableNamespace := some (String.ofList space) } := by
  unfold addToken
  simp only [Query.recognized?_value, Query.tokenValue?_value,
    Text.Percent.decode_encode, nonblank, Bool.false_eq_true, if_false]

/-- An export name without a `%` is read as it is. -/
theorem addToken_exportName {name : List Char} (nonempty : name ≠ []) (absent : '%' ∉ name) :
    flags.addToken (Key.exportName.text.toList ++ '=' :: name) =
      { flags with exportName := some (String.ofList name) } := by
  unfold addToken
  simp only [Query.recognized?_value, Query.tokenValue?_value,
    Text.Percent.decode_of_not_mem absent, List.isEmpty_iff, nonempty, if_false]

/-- The namespace is not blank, if there is one. -/
def Nonblank (flags : Flags) : Prop :=
  ∀ space, flags.stableNamespace = some space → space.toList.all Text.isBlank = false

variable {flags}

/-- A value that is read is never blank: blank values are passed over where they are read. It is an
invariant of reading the tokens, so later code need not look at blank values again. -/
theorem nonblank_addToken (before : flags.Nonblank) (token : List Char) :
    (flags.addToken token).Nonblank := by
  unfold addToken
  cases Query.recognized? token with
  | none => exact before
  | some key =>
    cases key with
    | stableNamespace =>
      cases Query.tokenValue? token with
      | none => exact before
      | some value =>
        simp only
        split
        · exact before
        next filled =>
          rintro _ ⟨⟩
          rw [String.toList_ofList]
          exact eq_false_of_ne_true filled
    | exportName =>
      cases Query.tokenValue? token with
      | none => exact before
      | some value =>
        simp only
        split <;> exact before
    | _ => exact before

/-- **A namespace that a query gives is not blank.** -/
theorem nonblank_ofQuery (query : String) : (ofQuery query).Nonblank := by
  suffices kept : ∀ (found : List (List Char)) (flags : Flags), flags.Nonblank →
      (found.foldl addToken flags).Nonblank from
    kept _ _ fun _ none => nomatch none
  intro found
  induction found with
  | nil => exact fun _ before => before
  | cons token rest ih => exact fun flags before => ih _ (nonblank_addToken before token)

end Flags

end StyleGraph.Request
