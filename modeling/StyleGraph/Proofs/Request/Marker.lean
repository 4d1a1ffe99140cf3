import StyleGraph.Proofs.Request.Flags
import StyleGraph.Proofs.Request.Styles

/-!
# The marker in the request for a style

The request for a style is the request that is written, with at most two tokens behind it, and
making it a second time adds nothing. It is meant to come back to this library, which the marker sees to.

Whether the marker is there already is decided by the keys as they are written, behind all leading
`?`; the marker is read by the decoded keys, behind one `?`. So a marker with another `?` in front
counts as written and is not read (`Hides`). `cssRequest_keeps` says that this is the only way in
which a request for a style lacks the marker.
-/

set_option autoImplicit false

namespace StyleGraph.Request

/-! ## Keys as they are written -/

/-- A key is not empty. -/
theorem Key.toList_text_ne_nil (key : Key) : key.text.toList ≠ [] := by
  cases key <;> decide +kernel

/-- A token with a key as it is written. -/
def Key.Begins (key : Key) (token : List Char) : Prop :=
  token = key.text.toList ∨ ∃ value, token = key.text.toList ++ '=' :: value

namespace Key.Begins

variable {key : Key} {token : List Char}

/-- A token that begins with a key is known by it. -/
theorem recognized (begins : key.Begins token) : Query.recognized? token = some key := by
  rcases begins with rfl | ⟨value, rfl⟩
  · exact Query.recognized?_text key
  · exact Query.recognized?_value key value

/-- Such a token is not empty. -/
theorem ne_nil (begins : key.Begins token) : token ≠ [] := by
  rcases begins with rfl | ⟨value, rfl⟩
  · exact key.toList_text_ne_nil
  · simp

/-- A key does not begin with a `?`. -/
theorem not_asked (begins : key.Begins ('?' :: token)) : False := by
  have plain : '?' ∉ key.text.toList := Query.not_mem_text (by decide) key
  obtain ⟨first, others, text⟩ := List.exists_cons_of_ne_nil key.toList_text_ne_nil
  rw [text] at plain
  rcases begins with same | ⟨value, same⟩ <;> rw [text] at same <;> cases same <;>
    exact plain List.mem_cons_self

end Key.Begins

/-- A token begins with a key if the key is what stands before its first equals sign. -/
theorem begins_iff {key : Key} {token : List Char} :
    key.Begins token ↔ (Text.cutFirst '=' token).1 = key.text.toList := by
  constructor
  · rintro (rfl | ⟨value, rfl⟩)
    · rw [Text.cutFirst_of_not_mem (Query.not_mem_text (by decide) key)]
    · rw [Query.cutFirst_text]
  · intro same
    have whole := Text.cutFirst_append_eq '=' token
    rw [same] at whole
    cases cut : (Text.cutFirst '=' token).2 with
    | none => exact .inl (by simpa [cut] using whole.symm)
    | some value => exact .inr ⟨value, by simpa [cut] using whole.symm⟩

/-- A key is found where one of the tokens behind all leading `?` has it as it is written. -/
theorem hasKey_iff {query : List Char} {key : Key} :
    hasKey query key = true ↔
      ∃ token ∈ Text.cutAll '&' (query.dropWhile (· == '?')), key.Begins token := by
  simp only [hasKey, List.any_eq_true, beq_iff_eq, begins_iff]

/-- The first token of a query has a key as it is written, and more than one `?` in front. -/
def Hides (query : List Char) (key : Key) : Prop :=
  ∃ body, query = '?' :: '?' :: body ∧
    key.Begins ((body.dropWhile (· == '?')).takeWhile (· != '&'))

/-- **A key counts as written just when it is read as written, or hidden.** The two readers trim the
query differently: one takes all question marks off its beginning, the other a single one, and a key
behind a second one is hidden from the latter. -/
theorem hasKey_eq_true_iff {query : List Char}
    (begins : query = [] ∨ ∃ body, query = '?' :: body) {key : Key} :
    hasKey query key = true ↔
      (∃ token ∈ Query.tokens query, key.Begins token) ∨ Hides query key := by
  have empty : ¬ key.Begins [] := fun empty => empty.ne_nil rfl
  have kept (pieces : List (List Char)) :
      (∃ token ∈ pieces.filter (fun token => !token.isEmpty), key.Begins token) ↔
        ∃ token ∈ pieces, key.Begins token := by
    refine exists_congr fun token => and_congr_left fun begins => ?_
    simp [begins.ne_nil]
  rw [hasKey_iff]
  -- the empty query has no token, so all that follows is about one that begins with a mark
  rcases begins with rfl | ⟨body, rfl⟩
  · simp [Query.tokens, Text.cutAll, Text.stripStart?, Hides, empty]
  · have tokens : Query.tokens ('?' :: body) =
        (Text.cutAll '&' body).filter fun token => !token.isEmpty := rfl
    rw [tokens, kept, List.dropWhile_cons_of_pos (by rfl)]
    by_cases asked : ∃ rest, body = '?' :: rest
    · obtain ⟨rest, rfl⟩ := asked
      -- All leading `?` but the first are read as a part of the first token.
      have marks : '&' ∉ ('?' :: rest).takeWhile (· == '?') := fun mem =>
        absurd (List.all_eq_true.mp List.all_takeWhile _ mem) (by decide)
      obtain ⟨others, cut⟩ := Text.exists_cutAll_append_eq '&'
        (('?' :: rest).dropWhile (· == '?'))
      have read := cut _ marks
      have written := cut [] List.not_mem_nil
      rw [List.takeWhile_append_dropWhile, List.takeWhile_cons_of_pos (by rfl)] at read
      simp only [List.nil_append] at written
      have unread : ∀ {token}, ¬ key.Begins ('?' :: token) := fun begins => begins.not_asked
      have hides : Hides ('?' :: '?' :: rest) key ↔
          key.Begins ((('?' :: rest).dropWhile (· == '?')).takeWhile (· != '&')) := by
        simp [Hides]
      rw [read, written, hides]
      simp only [List.mem_cons, List.cons_append, or_and_right, exists_or, exists_eq_left, unread,
        false_or]
      exact or_comm
    · have first : body.dropWhile (· == '?') = body := by
        cases body with
        | nil => rfl
        | cons c rest =>
          refine List.dropWhile_cons_of_neg fun same => asked ⟨rest, ?_⟩
          rw [beq_iff_eq.mp same]
      have unhidden : ¬ Hides ('?' :: body) key := by
        rintro ⟨rest, same, _⟩
        exact asked ⟨rest, (List.cons.inj same).2⟩
      rw [first]
      exact (or_iff_left unhidden).symm

/-! ## More tokens behind a query -/

/-- What passes a test ends before a character that does not. -/
theorem takeWhile_append_cons {p : Char → Bool} {stop : Char} (stops : p stop = false)
    (cs rest : List Char) : (cs ++ stop :: rest).takeWhile p = cs.takeWhile p := by
  induction cs with
  | nil => simp [stops]
  | cons c cs ih => simp only [List.cons_append, List.takeWhile_cons, ih]

/-- The rest then begins with what is left before that character. -/
theorem dropWhile_append_cons {p : Char → Bool} {stop : Char} (stops : p stop = false)
    (cs rest : List Char) :
    (cs ++ stop :: rest).dropWhile p = cs.dropWhile p ++ stop :: rest := by
  induction cs with
  | nil => simp [stops]
  | cons c cs ih =>
    simp only [List.cons_append, List.dropWhile_cons, ih]
    split <;> rfl

/-- A query with tokens behind its own. -/
def Query.extended (query : List Char) (extra : List (List Char)) : List Char :=
  if extra = [] then query
  else query ++ (if query = [] then '?' else '&') :: Text.joinWith ['&'] extra

/-- What is hidden stays so when tokens are added behind it. -/
theorem hides_extended {query : List Char} {key : Key} (extra : List (List Char))
    (hides : Hides query key) :
    Hides (Query.extended query extra) key := by
  obtain ⟨body, rfl, first⟩ := hides
  rw [Query.extended]
  split
  · exact ⟨body, rfl, first⟩
  · refine ⟨body ++ '&' :: Text.joinWith ['&'] extra, rfl, ?_⟩
    rwa [dropWhile_append_cons (by rfl), takeWhile_append_cons (by rfl)]

/-- Tokens that are added stand behind all that was there. -/
theorem extended_prefix (query : List Char) (extra : List (List Char)) :
    query <+: Query.extended query extra := by
  rw [Query.extended]
  split
  · exact List.prefix_rfl
  · exact List.prefix_append _ _

section Extended

variable {query : List Char} {extra : List (List Char)}
  (begins : query = [] ∨ ∃ body, query = '?' :: body)

include begins

/-- A query with more tokens begins with a question mark, or is empty. -/
theorem extended_begins (extra : List (List Char)) :
    Query.extended query extra = [] ∨ ∃ body, Query.extended query extra = '?' :: body := by
  rw [Query.extended]
  split
  · exact begins
  · rcases begins with rfl | ⟨body, rfl⟩
    · exact .inr ⟨_, rfl⟩
    · exact .inr ⟨_, rfl⟩

/-- The tokens that are added stand behind those that were there. -/
theorem tokens_extended (each : ∀ token ∈ extra, IsWritten token) :
    Query.tokens (Query.extended query extra) = Query.tokens query ++ extra := by
  rw [Query.extended]
  split
  next none => rw [none, List.append_nil]
  next some => exact Query.tokens_append begins some fun token mem => (each token mem).isToken

/-- **A key that is written, or that is added, counts as written afterwards.** -/
theorem hasKey_extended (each : ∀ token ∈ extra, IsWritten token) {key : Key}
    (known : hasKey query key = true ∨ ∃ token ∈ extra, key.Begins token) :
    hasKey (Query.extended query extra) key = true := by
  rw [hasKey_eq_true_iff (extended_begins begins _), tokens_extended begins each]
  rcases known with written | ⟨token, mem, added⟩
  · rcases (hasKey_eq_true_iff begins).mp written with ⟨token, mem, read⟩ | hides
    · exact .inl ⟨token, List.mem_append_left _ mem, read⟩
    · exact .inr (hides_extended extra hides)
  · exact .inl ⟨token, List.mem_append_right _ mem, added⟩

end Extended

/-! ## The request for a style -/

/-- The tokens that the request for a style adds: those that are not there, as they are written. -/
theorem mem_styleTokens {query : List Char} {exportName : Option String} {token : String} :
    token ∈ styleTokens query exportName ↔
      (hasKey query .marker = false ∧ token = Key.marker.text) ∨
        hasKey query .exportName = false ∧
          ∃ name ∈ exportName, token = Key.exportName.text ++ "=" ++ name := by
  unfold styleTokens
  rw [List.mem_append]
  refine or_congr ?_ ?_
  · cases hasKey query .marker <;> simp
  · cases exportName with
    | none => simp
    | some name => cases hasKey query .exportName <;> simp

/-- A query asks for CSS if one of its tokens is the marker, wherever it stands. -/
theorem marker_ofQuery_iff {query : String} : (Flags.ofQuery query).marker = true ↔
    ∃ token ∈ Query.tokens query.toList, Query.recognized? token = some .marker := by
  have key (token : List Char) :
      Key.ofText? (Decoded.ofToken token).key = Query.recognized? token := rfl
  rw [Flags.ofQuery_eq]
  simp [Query.decoded, Decoded.asks, key]

/-- The path of a request without other processors: what stands before the first `?`. -/
def pathFrom (request : String) : String := String.ofList (Text.cutQuery request.toList).1

/-- A request is its path and its query. -/
theorem pathFrom_append_queryFrom (request : String) :
    pathFrom request ++ queryFrom request = request := by
  obtain ⟨path, query, whole, -, -, cut⟩ := Text.exists_cutQuery_eq request.toList
  rw [pathFrom, queryFrom, cut, ← String.ofList_append, ← whole, String.ofList_toList]

/-- The query begins with a question mark, or is empty. -/
theorem queryFrom_begins (request : String) :
    (queryFrom request).toList = [] ∨ ∃ body, (queryFrom request).toList = '?' :: body := by
  obtain ⟨path, query, -, -, begins, cut⟩ := Text.exists_cutQuery_eq request.toList
  rwa [queryFrom, cut, String.toList_ofList]

section Style

variable (style : String) {exportName : Option String}
  (plain : ∀ name ∈ exportName, IsPlain name.toList)

include plain

/-- The tokens that are added to the query of a style. -/
theorem isWritten_of_mem_added {token : List Char}
    (mem : token ∈ (styleTokens (queryFrom style).toList exportName).map String.toList) :
    IsWritten token := by
  obtain ⟨text, listed, rfl⟩ := List.mem_map.mp mem
  exact isWritten_of_mem_styleTokens plain listed

/-- **The request for a style has its path, and its query with the added tokens behind.** Tokens are
added behind the first `?`, which stays where it is as the path holds none. -/
theorem cssRequest_parts :
    pathFrom (cssRequest style exportName) = pathFrom style ∧
      (queryFrom (cssRequest style exportName)).toList = Query.extended (queryFrom style).toList
        ((styleTokens (queryFrom style).toList exportName).map String.toList) := by
  obtain ⟨path, query, whole, absent, begins, cut⟩ := Text.exists_cutQuery_eq style.toList
  have own : (queryFrom style).toList = query := by rw [queryFrom, cut, String.toList_ofList]
  have written : (cssRequest style exportName).toList = path ++
      Query.extended query ((styleTokens query exportName).map String.toList) := by
    rw [cssRequest_eq cut, Query.extended]
    by_cases none : styleTokens query exportName = []
    · simp [none, whole]
    · have filled := intercalate_ne_empty none fun token mem =>
        isWritten_of_mem_styleTokens plain mem
      rw [if_neg none, if_neg (by simpa using none), String.toList_append,
        Query.toList_append _ filled, Text.toList_intercalate, String.toList_ofList,
        String.toList_ofList]
      rfl
  have kept := Text.cutQuery_append absent
    (extended_begins begins ((styleTokens query exportName).map String.toList))
  rw [own, pathFrom, queryFrom, written, kept, pathFrom, cut]
  exact ⟨rfl, String.toList_ofList⟩

/-- **The request for a style needs no more tokens.** The tokens that it adds are ones that it looks
for, written plainly, so the second time they are found. -/
theorem cssRequest_cssRequest :
    cssRequest (cssRequest style exportName) exportName = cssRequest style exportName := by
  have whole := Text.exists_cutQuery_eq (cssRequest style exportName).toList
  obtain ⟨path, query, -, -, -, cut⟩ := whole
  have own : query = Query.extended (queryFrom style).toList
      ((styleTokens (queryFrom style).toList exportName).map String.toList) := by
    rw [← (cssRequest_parts style plain).2, queryFrom, cut, String.toList_ofList]
  have known {key : Key} := @hasKey_extended _ _ (queryFrom_begins style)
    (fun _ mem => isWritten_of_mem_added style plain mem) key
  have none : styleTokens query exportName = [] := by
    refine List.eq_nil_iff_forall_not_mem.mpr fun token mem => ?_
    rw [own, mem_styleTokens] at mem
    rcases mem with ⟨unwritten, -⟩ | ⟨unwritten, name, given, -⟩
    · refine Bool.false_ne_true (unwritten.symm.trans (known ?_))
      cases written : hasKey (queryFrom style).toList .marker with
      | true => exact .inl rfl
      | false =>
        refine .inr ⟨_, List.mem_map_of_mem (mem_styleTokens.mpr (.inl ⟨written, rfl⟩)), .inl rfl⟩
    · refine Bool.false_ne_true (unwritten.symm.trans (known ?_))
      cases written : hasKey (queryFrom style).toList .exportName with
      | true => exact .inl rfl
      | false =>
        refine .inr ⟨_, List.mem_map_of_mem
          (mem_styleTokens.mpr (.inr ⟨written, name, given, rfl⟩)), .inr ⟨name.toList, by simp⟩⟩
  rw [cssRequest_eq cut, if_pos none]

/-- The marker is read where the style has it, and where it is added. A style that writes the key in
a way the query reader does not know has no marker after all. -/
theorem marker_ofQuery_cssRequest :
    (Flags.ofQuery (queryFrom (cssRequest style exportName))).marker = true ↔
      (∃ token ∈ Query.tokens (queryFrom style).toList, Query.recognized? token = some .marker) ∨
        hasKey (queryFrom style).toList .marker = false := by
  have added : (∃ token ∈ (styleTokens (queryFrom style).toList exportName).map String.toList,
      Query.recognized? token = some .marker) ↔
        hasKey (queryFrom style).toList .marker = false := by
    simp only [List.mem_map, mem_styleTokens]
    constructor
    · rintro ⟨_, ⟨_, ⟨unwritten, rfl⟩ | ⟨-, name, -, rfl⟩, rfl⟩, read⟩
      · exact unwritten
      · have named := Query.recognized?_value .exportName name.toList
        rw [show (Key.exportName.text ++ "=" ++ name).toList =
          Key.exportName.text.toList ++ '=' :: name.toList by simp, named] at read
        cases read
    · intro unwritten
      exact ⟨_, ⟨_, .inl ⟨unwritten, rfl⟩, rfl⟩, Query.recognized?_text .marker⟩
  rw [marker_ofQuery_iff, (cssRequest_parts style plain).2,
    tokens_extended (queryFrom_begins style) fun _ mem => isWritten_of_mem_added style plain mem]
  simp only [List.mem_append, or_and_right, exists_or, added]

/-- **What a request for a style keeps, and when it is marked.** It is the request of the style with
something behind it; the path is the same, and the query has the tokens of the style, as they are
written and in order, before those that are added. Made again, it stays as it is. It has the marker,
unless the style hides one and has none that is read. -/
theorem cssRequest_keeps :
    ∃ behind added, cssRequest style exportName = style ++ behind ∧
      pathFrom (cssRequest style exportName) = pathFrom style ∧
      Query.tokens (queryFrom (cssRequest style exportName)).toList =
        Query.tokens (queryFrom style).toList ++ added ∧
      (∀ token ∈ added, token = Key.marker.text.toList ∨
        ∃ name ∈ exportName, token = Key.exportName.text.toList ++ '=' :: name.toList) ∧
      cssRequest (cssRequest style exportName) exportName = cssRequest style exportName ∧
      ((Flags.ofQuery (queryFrom (cssRequest style exportName))).marker = true ↔
        ¬ (Hides (queryFrom style).toList .marker ∧
          ∀ token ∈ Query.tokens (queryFrom style).toList,
            Query.recognized? token ≠ some .marker)) := by
  obtain ⟨path, query⟩ := cssRequest_parts style plain
  obtain ⟨behind, whole⟩ := extended_prefix (queryFrom style).toList
    ((styleTokens (queryFrom style).toList exportName).map String.toList)
  refine ⟨String.ofList behind, (styleTokens (queryFrom style).toList exportName).map String.toList,
    ?_, path, ?_, ?_, cssRequest_cssRequest style plain, ?_⟩
  · calc cssRequest style exportName
        = pathFrom (cssRequest style exportName) ++ queryFrom (cssRequest style exportName) :=
          (pathFrom_append_queryFrom _).symm
      _ = pathFrom style ++ (queryFrom style ++ String.ofList behind) := by
          rw [path, ← String.ofList_toList (s := queryFrom (cssRequest style exportName)), query,
            ← whole, String.ofList_append, String.ofList_toList]
      _ = style ++ String.ofList behind := by
          rw [← String.append_assoc, pathFrom_append_queryFrom]
  · rw [query]
    exact tokens_extended (queryFrom_begins style) fun _ mem =>
      isWritten_of_mem_added style plain mem
  · intro token mem
    obtain ⟨_, listed, rfl⟩ := List.mem_map.mp mem
    rcases mem_styleTokens.mp listed with ⟨-, rfl⟩ | ⟨-, name, given, rfl⟩
    · exact .inl rfl
    · exact .inr ⟨name, given, by simp⟩
  · -- A key that is read as it is written is the marker that is read.
    rw [marker_ofQuery_cssRequest style plain, ← Bool.not_eq_true,
      hasKey_eq_true_iff (queryFrom_begins style)]
    by_cases marked : ∃ token ∈ Query.tokens (queryFrom style).toList,
        Query.recognized? token = some .marker
    · obtain ⟨token, mem, marker⟩ := marked
      exact iff_of_true (.inl ⟨token, mem, marker⟩) fun hidden => hidden.2 token mem marker
    · have unread : ¬ ∃ token ∈ Query.tokens (queryFrom style).toList, Key.marker.Begins token :=
        fun ⟨token, mem, begins⟩ => marked ⟨token, mem, begins.recognized⟩
      have unmarked : ∀ token ∈ Query.tokens (queryFrom style).toList,
          Query.recognized? token ≠ some .marker := fun token mem marker =>
        marked ⟨token, mem, marker⟩
      rw [or_iff_right marked, or_iff_right unread, and_iff_left unmarked]

end Style

/-- A style that asks for the marker with an escape in it: it is not there as it is written, so it
is added, and nothing is hidden. -/
theorem cssRequest_keeps_escaped :
    (∀ name ∈ some "styles", IsPlain name.toList) ∧
      cssRequest "./card.css??v=1&&%6bnighted-css" (some "styles") =
        "./card.css??v=1&&%6bnighted-css&knighted-css&exportName=styles" ∧
      cssRequest (cssRequest "./card.css??v=1&&%6bnighted-css" (some "styles")) (some "styles") =
        cssRequest "./card.css??v=1&&%6bnighted-css" (some "styles") ∧
      (Flags.ofQuery (queryFrom
        "./card.css??v=1&&%6bnighted-css&knighted-css&exportName=styles")).marker = true := by
  have plain : ∀ name ∈ some "styles", IsPlain name.toList := by
    rintro _ ⟨⟩
    simp [IsPlain]
  have written : cssRequest "./card.css??v=1&&%6bnighted-css" (some "styles") =
      "./card.css??v=1&&%6bnighted-css&knighted-css&exportName=styles" := by decide +kernel
  obtain ⟨behind, added, -, -, -, -, again, marked⟩ :=
    cssRequest_keeps "./card.css??v=1&&%6bnighted-css" plain
  refine ⟨plain, written, again, ?_⟩
  rw [← written, marked]
  rintro ⟨-, unread⟩
  exact unread "%6bnighted-css".toList (by decide +kernel) (by decide +kernel)

/-- A marker with a second `?` in front is not added again and not read. -/
theorem cssRequest_hidden :
    cssRequest "./card.module.css??knighted-css" none = "./card.module.css??knighted-css" ∧
      (Flags.ofQuery (queryFrom "./card.module.css??knighted-css")).marker = false := by
  decide +kernel

end StyleGraph.Request
