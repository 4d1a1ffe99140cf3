import StyleGraph.Proofs.Request.Query

/-!
# Flags as sets

A query asks for what its decoded tokens say, in whatever order they stand and however often one of
them comes. Only a namespace and an export name are given as values, and of two values the later one
counts; so the order makes no difference as long as no two values that count are given for the same
key.

`addToken_eq` says what one token adds and `foldl_addToken_eq` what many add, one after the other.
`ofQuery_reads` reads every flag off the set of the decoded tokens, and two queries with the same
set have the same flags (`ofQuery_eq_of_same_tokens`).
-/

set_option autoImplicit false

namespace StyleGraph.Request

/-- A key is recognised by its text alone. -/
theorem Key.ofText?_eq_some_iff {text : List Char} {key : Key} :
    Key.ofText? text = some key ↔ text = key.text.toList := by
  constructor
  · intro found
    have same := List.find?_some found
    exact (decide_eq_true_eq.mp same).symm
  · rintro rfl
    exact Query.ofText?_text key

/-! ## Decoded tokens -/

/-- A token with its escapes resolved. -/
structure Decoded where
  key : List Char
  /-- The value, if the token has one. -/
  value? : Option (List Char)
  deriving DecidableEq

namespace Decoded

/-- A token with its escapes resolved. -/
def ofToken (token : List Char) : Decoded := ⟨Query.tokenKey token, Query.tokenValue? token⟩

/-- Whether a token has a given key. -/
def asks (key : Key) (token : Decoded) : Bool := Key.ofText? token.key = some key

/-- A namespace counts if it is not blank. -/
def isNamespace (value : List Char) : Bool := !value.all Text.isBlank

/-- An export name counts if it is not empty. -/
def isExportName (value : List Char) : Bool := !value.isEmpty

/-- The value that a token gives a key, if it counts. -/
def given? (key : Key) (counts : List Char → Bool) (token : Decoded) : Option String :=
  if token.asks key then (token.value?.filter counts).map String.ofList else none

/-- One of several tokens has a given key. -/
def Asks (found : List Decoded) (key : Key) : Prop := ∃ value?, ⟨key.text.toList, value?⟩ ∈ found

/-- One of several tokens gives a key a value. -/
def Gives (found : List Decoded) (key : Key) (value : List Char) : Prop :=
  ⟨key.text.toList, some value⟩ ∈ found

/-- Several tokens give a key no two values that count. -/
def GiveOne (found : List Decoded) (key : Key) (counts : List Char → Bool) : Prop :=
  ∀ value another, Gives found key value → Gives found key another →
    counts value = true → counts another = true → value = another

variable {found : List Decoded}

/-- The test on the tokens is the notion of asking. -/
theorem any_asks_iff {key : Key} : found.any (asks key) = true ↔ Asks found key := by
  simp only [List.any_eq_true, asks, decide_eq_true_eq, Key.ofText?_eq_some_iff, Asks]
  constructor
  · rintro ⟨⟨_, value?⟩, mem, rfl⟩
    exact ⟨value?, mem⟩
  · rintro ⟨value?, mem⟩
    exact ⟨_, mem, rfl⟩

/-- A token gives a value if its key is the one asked for and the value counts. -/
theorem given?_eq_some_iff {key : Key} {counts : List Char → Bool} {token : Decoded}
    {text : String} : token.given? key counts = some text ↔
      token = ⟨key.text.toList, some text.toList⟩ ∧ counts text.toList = true := by
  obtain ⟨written, value?⟩ := token
  simp only [given?, asks, decide_eq_true_eq, Key.ofText?_eq_some_iff, Decoded.mk.injEq,
    Option.ite_none_right_eq_some, Option.map_eq_some_iff, Option.filter_eq_some_iff, and_assoc]
  refine and_congr_right fun _ => ⟨?_, ?_⟩
  · rintro ⟨value, given, counted, rfl⟩
    exact ⟨by rw [given, String.toList_ofList], by rwa [String.toList_ofList]⟩
  · rintro ⟨given, counted⟩
    exact ⟨_, given, counted, String.ofList_toList⟩

/-- **The last value is the only one**, where no two values that count are given. Where two values
count the later one is taken, and then the order of the tokens matters. -/
theorem findSome?_given?_eq_some_iff {key : Key} {counts : List Char → Bool}
    (one : GiveOne found key counts) {text : String} :
    found.reverse.findSome? (given? key counts) = some text ↔
      Gives found key text.toList ∧ counts text.toList = true := by
  have listed {other : String}
      (last : found.reverse.findSome? (given? key counts) = some other) :
      Gives found key other.toList ∧ counts other.toList = true := by
    obtain ⟨token, mem, given⟩ := List.exists_of_findSome?_eq_some last
    obtain ⟨rfl, counted⟩ := given?_eq_some_iff.mp given
    exact ⟨List.mem_reverse.mp mem, counted⟩
  refine ⟨listed, ?_⟩
  rintro ⟨gives, counted⟩
  cases last : found.reverse.findSome? (given? key counts) with
  | none =>
    have nothing := List.findSome?_eq_none_iff.mp last _ (List.mem_reverse.mpr gives)
    rw [given?_eq_some_iff.mpr ⟨rfl, counted⟩] at nothing
    cases nothing
  | some other =>
    obtain ⟨givesOther, countedOther⟩ := listed last
    rw [String.toList_inj.mp (one _ _ givesOther gives countedOther counted)]

end Decoded

/-- The tokens of a query, decoded. -/
def Query.decoded (query : String) : List Decoded := (tokens query.toList).map Decoded.ofToken

namespace Flags

/-! ## What tokens add -/

/-- **What one token adds.** Written as one record, so that a query can be summed up without going
through the keys again. -/
theorem addToken_eq (flags : Flags) (token : List Char) : flags.addToken token =
    { flags with
      marker := flags.marker || (Decoded.ofToken token).asks .marker
      combined := flags.combined || (Decoded.ofToken token).asks .combined
      skipSyntheticDefault := flags.skipSyntheticDefault ||
        ((Decoded.ofToken token).asks .namedOnly || (Decoded.ofToken token).asks .noDefault)
      typesRequested := flags.typesRequested || (Decoded.ofToken token).asks .types
      stableNamespace := ((Decoded.ofToken token).given? .stableNamespace Decoded.isNamespace).or
        flags.stableNamespace
      exportName := ((Decoded.ofToken token).given? .exportName Decoded.isExportName).or
        flags.exportName } := by
  have key : Key.ofText? (Decoded.ofToken token).key = Query.recognized? token := rfl
  have value : (Decoded.ofToken token).value? = Query.tokenValue? token := rfl
  simp only [addToken, Decoded.given?, Decoded.asks, key, value]
  cases Query.recognized? token with
  | none => simp
  | some key =>
    cases key with
    | stableNamespace =>
      cases Query.tokenValue? token with
      | none => simp
      | some value =>
        cases blank : value.all Text.isBlank <;> simp [Option.filter, Decoded.isNamespace, blank]
    | exportName =>
      cases Query.tokenValue? token with
      | none => simp
      | some value =>
        cases empty : value.isEmpty <;> simp [Option.filter, Decoded.isExportName, empty]
    | _ => simp

/-- **What tokens add**, one after the other: of two values the later one counts. The induction
keeps the flags general, as each token starts from what those before it left. -/
theorem foldl_addToken_eq (tokens : List (List Char)) (flags : Flags) :
    tokens.foldl addToken flags =
      { flags with
        marker := flags.marker || (tokens.map Decoded.ofToken).any (Decoded.asks .marker)
        combined := flags.combined || (tokens.map Decoded.ofToken).any (Decoded.asks .combined)
        skipSyntheticDefault := flags.skipSyntheticDefault ||
          (tokens.map Decoded.ofToken).any fun token =>
            token.asks .namedOnly || token.asks .noDefault
        typesRequested := flags.typesRequested ||
          (tokens.map Decoded.ofToken).any (Decoded.asks .types)
        stableNamespace :=
          ((tokens.map Decoded.ofToken).reverse.findSome?
            (Decoded.given? .stableNamespace Decoded.isNamespace)).or
            flags.stableNamespace
        exportName :=
          ((tokens.map Decoded.ofToken).reverse.findSome?
            (Decoded.given? .exportName Decoded.isExportName)).or
            flags.exportName } := by
  induction tokens generalizing flags with
  | nil => simp
  | cons token tokens ih =>
    rw [List.foldl_cons, ih, addToken_eq]
    simp only [List.map_cons, List.any_cons, List.reverse_cons, List.findSome?_append,
      List.findSome?_singleton, Bool.or_assoc, Option.or_assoc]

/-- The flags of a query. Each flag is looked up in the list of tokens by itself, although the query
is gone through once. -/
theorem ofQuery_eq (query : String) : ofQuery query =
    { marker := (Query.decoded query).any (Decoded.asks .marker)
      combined := (Query.decoded query).any (Decoded.asks .combined)
      skipSyntheticDefault := (Query.decoded query).any fun token =>
        token.asks .namedOnly || token.asks .noDefault
      typesRequested := (Query.decoded query).any (Decoded.asks .types)
      stableNamespace := (Query.decoded query).reverse.findSome?
            (Decoded.given? .stableNamespace Decoded.isNamespace)
      exportName := (Query.decoded query).reverse.findSome?
            (Decoded.given? .exportName Decoded.isExportName)
      sanitized := Query.sanitize query } := by
  rw [ofQuery, foldl_addToken_eq]
  simp [Query.decoded]

/-! ## What flags say of a set -/

/-- Flags say of a set of tokens what it asks for. -/
structure Reads (flags : Flags) (found : List Decoded) : Prop where
  marker : flags.marker = true ↔ Decoded.Asks found .marker
  combined : flags.combined = true ↔ Decoded.Asks found .combined
  skipSyntheticDefault : flags.skipSyntheticDefault = true ↔
    Decoded.Asks found .namedOnly ∨ Decoded.Asks found .noDefault
  typesRequested : flags.typesRequested = true ↔ Decoded.Asks found .types
  stableNamespace : ∀ space, flags.stableNamespace = some space ↔
    Decoded.Gives found .stableNamespace space.toList ∧ Decoded.isNamespace space.toList = true
  exportName : ∀ name, flags.exportName = some name ↔
    Decoded.Gives found .exportName name.toList ∧ Decoded.isExportName name.toList = true

namespace Reads

variable {flags other : Flags} {found known : List Decoded}

/-- What flags say depends on the set alone. -/
theorem of_mem_iff (reads : flags.Reads found) (same : ∀ token, token ∈ found ↔ token ∈ known) :
    flags.Reads known := by
  obtain ⟨marker, combined, skip, types, space, name⟩ := reads
  simp only [Decoded.Asks, Decoded.Gives, same] at marker combined skip types space name
  exact ⟨marker, combined, skip, types, space, name⟩

/-- **What flags say of a set is all that they hold**, but for the rest of the query. -/
theorem eq_of_reads (reads : flags.Reads found) (readsOther : other.Reads found) :
    flags = { other with sanitized := flags.sanitized } := by
  have marker := Bool.eq_iff_iff.mpr (reads.marker.trans readsOther.marker.symm)
  have combined := Bool.eq_iff_iff.mpr (reads.combined.trans readsOther.combined.symm)
  have skip := Bool.eq_iff_iff.mpr
    (reads.skipSyntheticDefault.trans readsOther.skipSyntheticDefault.symm)
  have types := Bool.eq_iff_iff.mpr (reads.typesRequested.trans readsOther.typesRequested.symm)
  have space := Option.ext fun space =>
    (reads.stableNamespace space).trans (readsOther.stableNamespace space).symm
  have name := Option.ext fun name =>
    (reads.exportName name).trans (readsOther.exportName name).symm
  rw [← marker, ← combined, ← skip, ← types, ← space, ← name]

/-- Stable names are asked for by the types flag, or by a namespace that can be used. -/
theorem stableRequested_iff (reads : flags.Reads found) : flags.stableRequested = true ↔
    Decoded.Asks found .types ∨ ∃ space, Decoded.Gives found .stableNamespace space ∧
      Decoded.isNamespace space = true := by
  rw [stableRequested, Bool.or_eq_true, reads.typesRequested, Option.isSome_iff_exists]
  refine or_congr_right ⟨?_, ?_⟩
  · rintro ⟨space, given⟩
    exact ⟨space.toList, (reads.stableNamespace space).mp given⟩
  · rintro ⟨space, given⟩
    refine ⟨String.ofList space, (reads.stableNamespace _).mpr ?_⟩
    rwa [String.toList_ofList]

end Reads

/-- **A query asks for what the set of its tokens says**, if no two values that count are given for
one key. -/
theorem ofQuery_reads {query : String}
    (oneNamespace : Decoded.GiveOne (Query.decoded query) .stableNamespace Decoded.isNamespace)
    (oneName : Decoded.GiveOne (Query.decoded query) .exportName Decoded.isExportName) :
    (ofQuery query).Reads (Query.decoded query) := by
  rw [ofQuery_eq]
  refine ⟨Decoded.any_asks_iff, Decoded.any_asks_iff, ?_, Decoded.any_asks_iff,
    fun _ => Decoded.findSome?_given?_eq_some_iff oneNamespace,
    fun _ => Decoded.findSome?_given?_eq_some_iff oneName⟩
  simp only [← Decoded.any_asks_iff, List.any_eq_true, Bool.or_eq_true, and_or_left, exists_or]

/-- **Flags form a set.** Two queries whose decoded tokens are the same, in any order and with any
repetitions, ask for the same, if no two namespaces that are not blank and no two export names that
are not empty are given. What they ask for is read off the set; only the rest of each query is its
own. -/
theorem ofQuery_eq_of_same_tokens {query other : String}
    (same : ∀ token, token ∈ Query.decoded query ↔ token ∈ Query.decoded other)
    (oneNamespace : Decoded.GiveOne (Query.decoded query) .stableNamespace Decoded.isNamespace)
    (oneName : Decoded.GiveOne (Query.decoded query) .exportName Decoded.isExportName) :
    (ofQuery query).Reads (Query.decoded query) ∧
      ofQuery query = { ofQuery other with sanitized := (ofQuery query).sanitized } ∧
      (ofQuery query).stableRequested = (ofQuery other).stableRequested ∧
      ((ofQuery query).stableRequested = true ↔ Decoded.Asks (Query.decoded query) .types ∨
        ∃ space, Decoded.Gives (Query.decoded query) .stableNamespace space ∧
          Decoded.isNamespace space = true) := by
  have reads := ofQuery_reads oneNamespace oneName
  have readsOther : (ofQuery other).Reads (Query.decoded query) := by
    refine Reads.of_mem_iff (ofQuery_reads ?_ ?_) fun token => (same token).symm
    · simpa only [Decoded.GiveOne, Decoded.Gives, same] using oneNamespace
    · simpa only [Decoded.GiveOne, Decoded.Gives, same] using oneName
  have flags := reads.eq_of_reads readsOther
  refine ⟨reads, flags, ?_, reads.stableRequested_iff⟩
  rw [flags]
  rfl

/-- A query with two namespaces, of which one is blank, and an export name that is empty. -/
def cardQuery : String :=
  "?knighted-css&stableNamespace=acme&no-default&exportName=&v=1&stableNamespace=%20"

/-- The same tokens in another order, some of them twice and some of them escaped. -/
def cardQueryAgain : String :=
  "v=%31&&stableNamespace= &stable%4eamespace=%61cme&exportName=&no-default&v=1&%6Bnighted-css"

/-- The statement at two queries with the same tokens in another order, one repeated and one
escaped. -/
theorem ofQuery_eq_of_same_tokens_card :
    (∀ token, token ∈ Query.decoded cardQuery ↔ token ∈ Query.decoded cardQueryAgain) ∧
      Decoded.GiveOne (Query.decoded cardQuery) .stableNamespace Decoded.isNamespace ∧
      Decoded.GiveOne (Query.decoded cardQuery) .exportName Decoded.isExportName ∧
      ofQuery cardQuery = { ofQuery cardQueryAgain with sanitized := "?v=1" } ∧
      (ofQuery cardQueryAgain).stableRequested = true := by
  have listed : Query.decoded cardQuery =
      [⟨Key.marker.text.toList, none⟩, ⟨Key.stableNamespace.text.toList, some "acme".toList⟩,
        ⟨Key.noDefault.text.toList, none⟩, ⟨Key.exportName.text.toList, some []⟩,
        ⟨"v".toList, some "1".toList⟩, ⟨Key.stableNamespace.text.toList, some " ".toList⟩] := by
    rw [Query.decoded, cardQuery, String.toList_ofList]
    decide +kernel
  have listedAgain : Query.decoded cardQueryAgain =
      [⟨"v".toList, some "1".toList⟩, ⟨Key.stableNamespace.text.toList, some " ".toList⟩,
        ⟨Key.stableNamespace.text.toList, some "acme".toList⟩,
        ⟨Key.exportName.text.toList, some []⟩, ⟨Key.noDefault.text.toList, none⟩,
        ⟨"v".toList, some "1".toList⟩, ⟨Key.marker.text.toList, none⟩] := by
    rw [Query.decoded, cardQueryAgain, String.toList_ofList]
    decide +kernel
  have same : ∀ token, token ∈ Query.decoded cardQuery ↔ token ∈ Query.decoded cardQueryAgain := by
    intro token
    rw [listed, listedAgain]
    simp only [List.mem_cons, List.not_mem_nil, or_false]
    grind
  have oneNamespace :
      Decoded.GiveOne (Query.decoded cardQuery) .stableNamespace Decoded.isNamespace := by
    have only : ∀ value, Decoded.Gives (Query.decoded cardQuery) .stableNamespace value →
        Decoded.isNamespace value = true → value = "acme".toList := by
      intro value gives counts
      rw [Decoded.Gives, listed] at gives
      have either : value = "acme".toList ∨ value = " ".toList := by simpa [Key.text] using gives
      rcases either with rfl | rfl
      · rfl
      · exact absurd counts (by decide)
    intro value another gives givesOther counts countsOther
    rw [only value gives counts, only another givesOther countsOther]
  have oneName : Decoded.GiveOne (Query.decoded cardQuery) .exportName Decoded.isExportName := by
    intro value another gives _ counts
    rw [Decoded.Gives, listed] at gives
    have empty : value = [] := by simpa [Key.text] using gives
    rw [empty] at counts
    exact absurd counts (by decide)
  obtain ⟨-, flags, stable, asked⟩ := ofQuery_eq_of_same_tokens same oneNamespace oneName
  refine ⟨same, oneNamespace, oneName, flags.trans ?_,
    stable.symm.trans (asked.mpr (.inr ⟨"acme".toList, ?_⟩))⟩
  · have rest : (ofQuery cardQuery).sanitized = "?v=1" := by
      have chars : Query.sanitizeChars cardQuery.toList = "?v=1".toList := by
        rw [cardQuery, String.toList_ofList]
        decide +kernel
      rw [ofQuery_eq, Query.sanitize, chars, String.ofList_toList]
    rw [rest]
  · rw [Decoded.Gives, listed]
    decide

end Flags

end StyleGraph.Request
