import Mathlib.Data.List.Chain
import StyleGraph.Proofs.Text.Blank
import StyleGraph.Proofs.Text.Cut
import StyleGraph.Stable.Auto

/-!
# Tokens and stable classes

A token is made of ASCII letters, digits, underscores and single hyphens inside it
(`isToken_tokenChars`), and such a text is its own token (`tokenChars_of_isToken`). So the token of
a token is the token itself, and a stable class is either not accepted again, because it begins with
the namespace, or, under a blank namespace, its own stable class
(`Scheme.className_className_of_accepts`).

The token of a name is made in one pass, which remembers whether it has just written a hyphen.
`stagedChars` says what the pass is meant to do, in five stages that each look at the whole text:
trim, a hyphen for every run of blanks, a hyphen for every other character that no token has, one
hyphen for every run of hyphens, no hyphen at the ends. `token_eq_staged` says that the pass does
this for every name, and which texts are tokens: words of ASCII letters, digits and underscores with
one hyphen between neighbours.
-/

set_option autoImplicit false

namespace StyleGraph.Stable

/-- A text that sanitizing leaves alone. -/
structure IsToken (cs : List Char) : Prop where
  nonempty : cs ≠ []
  chars : ∀ c ∈ cs, isTokenChar c = true ∨ c = '-'
  /-- No hyphen stands next to another. -/
  single : cs.IsChain fun a b => ¬ (a = '-' ∧ b = '-')
  trimmed : trimHyphens cs = cs

/-! ## Hyphens -/

/-- Only token characters and hyphens come out of the first stage. Every character is kept, dropped,
or replaced by a hyphen. -/
theorem mem_hyphenate {afterHyphen : Bool} {cs : List Char} {c : Char}
    (mem : c ∈ hyphenate afterHyphen cs) : isTokenChar c = true ∨ c = '-' := by
  induction cs generalizing afterHyphen with
  | nil => cases mem
  | cons first cs ih =>
    simp only [hyphenate] at mem
    split at mem
    next kept =>
      rcases List.mem_cons.mp mem with rfl | mem
      · exact .inl kept
      · exact ih mem
    next =>
      split at mem
      · exact ih mem
      · rcases List.mem_cons.mp mem with rfl | mem
        · exact .inr rfl
        · exact ih mem

/-- A run of hyphens becomes one hyphen, and none if a hyphen stands before it. The flag says that a
hyphen has just been written, and the two halves are proved together since each needs the other for
the rest. -/
theorem hyphenate_single (afterHyphen : Bool) (cs : List Char) :
    (hyphenate afterHyphen cs).IsChain (fun a b => ¬ (a = '-' ∧ b = '-')) ∧
      (afterHyphen = true → (hyphenate afterHyphen cs).head? ≠ some '-') := by
  induction cs generalizing afterHyphen with
  | nil => simp [hyphenate]
  | cons first cs ih =>
    simp only [hyphenate]
    split
    next kept =>
      have notHyphen : first ≠ '-' := by
        rintro rfl
        exact absurd kept (by decide)
      exact ⟨List.isChain_cons.mpr ⟨fun _ _ both => notHyphen both.1, (ih false).1⟩,
        fun _ => by simpa using notHyphen⟩
    next =>
      obtain ⟨single, headed⟩ := ih true
      split
      · exact ⟨single, fun _ => headed rfl⟩
      next outside =>
        refine ⟨List.isChain_cons.mpr ⟨?_, single⟩, fun after => absurd after outside⟩
        rintro next mem ⟨_, rfl⟩
        exact headed rfl mem

/-- Single hyphens stay as they are. So the stage does nothing a second time. -/
theorem hyphenate_of_single {afterHyphen : Bool} {cs : List Char}
    (chars : ∀ c ∈ cs, isTokenChar c = true ∨ c = '-')
    (single : cs.IsChain fun a b => ¬ (a = '-' ∧ b = '-'))
    (headed : afterHyphen = true → cs.head? ≠ some '-') : hyphenate afterHyphen cs = cs := by
  induction cs generalizing afterHyphen with
  | nil => rfl
  | cons first cs ih =>
    obtain ⟨apart, tailSingle⟩ := List.isChain_cons.mp single
    have tailChars : ∀ c ∈ cs, isTokenChar c = true ∨ c = '-' := fun c mem =>
      chars c (List.mem_cons_of_mem _ mem)
    simp only [hyphenate]
    rcases chars first List.mem_cons_self with kept | rfl
    · rw [if_pos kept, ih tailChars tailSingle (by simp)]
    · have outside : ¬ afterHyphen = true := fun after => headed after rfl
      have next : cs.head? ≠ some '-' := fun hyphen => apart '-' hyphen ⟨rfl, rfl⟩
      rw [if_neg (by decide), if_neg outside, ih tailChars tailSingle fun _ => next]

/-! ## Tokens -/

/-- **What sanitizing gives is a token.** What is left of the stage is a part of it, so hyphens stay
single, and the ends are trimmed. -/
theorem isToken_tokenChars (name : List Char) : IsToken (tokenChars name) := by
  unfold tokenChars
  split
  · have kept : fallbackToken.toList.all isTokenChar = true := by decide +kernel
    exact ⟨by decide +kernel, fun c mem => .inl (List.all_eq_true.mp kept c mem),
      by decide +kernel, by decide +kernel⟩
  next token nonempty =>
    have part : trimHyphens (hyphenate false (Text.trim name)) <:+:
        hyphenate false (Text.trim name) := Text.isInfix_dropEnds _ _
    have single := (hyphenate_single false (Text.trim name)).1
    have ⟨before, after, whole⟩ := part
    rw [← whole] at single
    exact {
      nonempty
      chars := fun c mem => mem_hyphenate (part.subset mem)
      single := single.left_of_append.right_of_append
      trimmed := Text.dropEnds_dropEnds _ _ }

/-- No blank is a token character, so trimming cannot reach into a token. -/
theorem not_isBlank_of_isTokenChar {c : Char} (kept : isTokenChar c = true) :
    Text.isBlank c = false := by
  rcases Bool.or_eq_true_iff.mp kept with alphanumeric | underscore
  · exact Text.not_isBlank_of_isAlphanum alphanumeric
  · rw [beq_iff_eq.mp underscore]
    decide

/-- **A token is its own token.** -/
theorem tokenChars_of_isToken {cs : List Char} (token : IsToken cs) : tokenChars cs = cs := by
  have unblank : Text.trim cs = cs := Text.dropEnds_of_forall fun c mem => by
    rcases token.chars c mem with kept | rfl
    · exact not_isBlank_of_isTokenChar kept
    · decide
  have kept : hyphenate false cs = cs :=
    hyphenate_of_single token.chars token.single (by simp)
  simp only [tokenChars, unblank, kept, token.trimmed]
  split
  · exact absurd rfl token.nonempty
  · rfl

/-- A token is its own token. -/
theorem token_token (name : String) : token (token name) = token name := by
  simp only [token, String.toList_ofList, tokenChars_of_isToken (isToken_tokenChars _)]

/-! ## Stable classes -/

/-- A namespace that is not blank has something left after trimming. -/
theorem isEmpty_eq_false_of_nonblank {space : String} (nonblank : Text.trimmed space ≠ "") :
    (Text.trimmed space).isEmpty = false := by
  rw [← Bool.not_eq_true, String.isEmpty_iff]
  exact nonblank

/-- The stable classes of a namespace begin with it. -/
theorem prefix_className {space : String} (nonblank : Text.trimmed space ≠ "") (name : String) :
    (Text.trimmed space ++ "-").toList <+: (className name (Text.trimmed space)).toList := by
  simp only [className, Text.trimmed_trimmed, isEmpty_eq_false_of_nonblank nonblank,
    Bool.false_eq_true, if_false, String.toList_append]
  exact List.prefix_append _ _

/-- Under a blank namespace a stable class is a token, and its own stable class. -/
theorem className_className {space : String} (blank : Text.trimmed space = "") (name : String) :
    className (className name space) space = className name space := by
  have bare : ∀ other, className other space = token other := fun other => by
    rw [className, blank]
    rfl
  rw [bare, bare, token_token]

/-- The stable class of a class depends on the namespace without the blanks at its ends. -/
theorem className_trimmed (name space : String) :
    className name (Text.trimmed space) = className name space := by
  simp only [className, Text.trimmed_trimmed]

/-- No class of the namespace itself gets a stable variant. -/
theorem Scheme.accepts_eq_false_of_isPrefix {scheme : Scheme} {name : String}
    (nonempty : scheme.space.isEmpty = false)
    (begins : (scheme.space ++ "-").toList <+: name.toList) : scheme.accepts name = false := by
  have found : name.startsWith (scheme.space ++ "-") = true :=
    String.startsWith_string_iff.mpr begins
  simp [Scheme.accepts, nonempty, found]

/-- **A stable class that is accepted is its own stable class.** Under a namespace none is. -/
theorem Scheme.className_className_of_accepts {scheme : Scheme}
    (tidy : Text.trimmed scheme.space = scheme.space) {name : String}
    (accepted : scheme.accepts (className name scheme.space) = true) :
    className (className name scheme.space) scheme.space = className name scheme.space := by
  by_cases blank : Text.trimmed scheme.space = ""
  · exact className_className blank name
  · have nonempty := isEmpty_eq_false_of_nonblank blank
    have begins := prefix_className blank name
    rw [tidy] at nonempty begins
    rw [Scheme.accepts_eq_false_of_isPrefix nonempty begins] at accepted
    cases accepted

/-! ## The stages -/

/-- Puts one hyphen in place of every run of such characters, where the run ends. -/
def hyphenRuns (p : Char → Bool) : List Char → List Char
  | [] => []
  | c :: rest =>
    if p c then
      if rest.head?.any p then hyphenRuns p rest else '-' :: hyphenRuns p rest
    else c :: hyphenRuns p rest

/-- A hyphen in place of a character that no token has. -/
def hyphenOutside (c : Char) : Char := if isTokenChar c || c == '-' then c else '-'

/-- The token of a name, made one stage after the other. -/
def stagedChars (name : List Char) : List Char :=
  let unspaced := hyphenRuns Text.isBlank (Text.trim name)
  let replaced := unspaced.map hyphenOutside
  let stripped := trimHyphens (hyphenRuns (· == '-') replaced)
  if stripped.isEmpty then fallbackToken.toList else stripped

/-- Words with one hyphen between neighbours: `[A-Za-z0-9_]+(-[A-Za-z0-9_]+)*`. -/
def IsHyphenated (cs : List Char) : Prop :=
  ∃ words : List (List Char), words ≠ [] ∧
    (∀ word ∈ words, word ≠ [] ∧ ∀ c ∈ word, isTokenChar c = true) ∧
    cs = Text.joinWith ['-'] words

/-! ## The pass -/

/-- A character outside the tokens gives a hyphen, unless one stands there already. -/
theorem hyphenate_cons_of_outside {c : Char} (outside : isTokenChar c = false)
    (afterHyphen : Bool) (rest : List Char) :
    hyphenate afterHyphen (c :: rest) =
      if afterHyphen then hyphenate true rest else '-' :: hyphenate true rest := by
  simp only [hyphenate, outside, Bool.false_eq_true, if_false]

/-- Of two such characters that stand together the pass takes notice of one. -/
theorem hyphenate_cons_cons {c d : Char} (outside : isTokenChar c = false)
    (alsoOutside : isTokenChar d = false) (afterHyphen : Bool) (rest : List Char) :
    hyphenate afterHyphen (c :: d :: rest) = hyphenate afterHyphen (d :: rest) := by
  cases afterHyphen <;>
    simp only [hyphenate_cons_of_outside outside, hyphenate_cons_of_outside alsoOutside, if_true,
      Bool.false_eq_true, if_false]

/-- **Runs of characters that no token has** may become hyphens before the pass. The pass makes one
hyphen of the run, and one of the hyphen that stands for it. -/
theorem hyphenate_hyphenRuns {p : Char → Bool} (outside : ∀ c, p c = true → isTokenChar c = false)
    (afterHyphen : Bool) (cs : List Char) :
    hyphenate afterHyphen (hyphenRuns p cs) = hyphenate afterHyphen cs := by
  induction cs generalizing afterHyphen with
  | nil => rfl
  | cons c rest ih =>
    unfold hyphenRuns
    split
    next replaced =>
      have cOutside := outside c replaced
      split
      next goesOn =>
        rw [ih]
        cases rest with
        | nil => cases goesOn
        | cons d rest => rw [hyphenate_cons_cons cOutside (outside d goesOn)]
      next =>
        rw [hyphenate_cons_of_outside (by decide), hyphenate_cons_of_outside cOutside, ih]
    next => simp only [hyphenate, ih]

/-- So may single ones. -/
theorem hyphenate_map_hyphenOutside (afterHyphen : Bool) (cs : List Char) :
    hyphenate afterHyphen (cs.map hyphenOutside) = hyphenate afterHyphen cs := by
  induction cs generalizing afterHyphen with
  | nil => rfl
  | cons c rest ih =>
    rw [List.map_cons]
    by_cases kept : isTokenChar c = true
    · have same : hyphenOutside c = c := by simp [hyphenOutside, kept]
      simp only [same, hyphenate, kept, if_true, ih]
    · have outside : isTokenChar c = false := by simpa using kept
      have hyphen : hyphenOutside c = '-' := by
        simp only [hyphenOutside, outside, Bool.false_or]
        split
        next same => exact beq_iff_eq.mp same
        next => rfl
      rw [hyphen, hyphenate_cons_of_outside (by decide), hyphenate_cons_of_outside outside, ih]

/-- **Where nothing else is left to replace, the pass collapses runs of hyphens.** Both go through
the text once. The pass also replaces characters, which do not occur here. -/
theorem hyphenRuns_eq_hyphenate {cs : List Char}
    (chars : ∀ c ∈ cs, isTokenChar c = true ∨ c = '-') :
    hyphenRuns (· == '-') cs = hyphenate false cs := by
  have hyphenOut : isTokenChar '-' = false := by decide
  induction cs with
  | nil => rfl
  | cons c rest ih =>
    have here := ih fun d mem => chars d (List.mem_cons_of_mem _ mem)
    rcases chars c List.mem_cons_self with kept | rfl
    · have differs : (c == '-') = false := by
        rw [beq_eq_false_iff_ne]
        rintro rfl
        cases hyphenOut.symm.trans kept
      simp only [hyphenRuns, hyphenate, differs, kept, Bool.false_eq_true, if_false, if_true, here]
    · simp only [hyphenRuns, beq_self_eq_true, if_true, hyphenate_cons_of_outside hyphenOut,
        Bool.false_eq_true, if_false, here]
      -- whether the run goes on is told by the next character, if there is one
      cases rest with
      | nil => rfl
      | cons d rest =>
        rcases chars d (List.mem_cons_of_mem _ List.mem_cons_self) with kept | rfl
        · have differs : (d == '-') = false := by
            rw [beq_eq_false_iff_ne]
            rintro rfl
            cases hyphenOut.symm.trans kept
          simp only [List.head?_cons, Option.any_some, differs, Bool.false_eq_true, if_false,
            hyphenate, kept, if_true]
        · simp only [List.head?_cons, Option.any_some, beq_self_eq_true, if_true,
            hyphenate_cons_of_outside hyphenOut, Bool.false_eq_true, if_false]

/-- A character that is left alone or has become a hyphen. -/
theorem hyphenOutside_cases (c : Char) :
    isTokenChar (hyphenOutside c) = true ∨ hyphenOutside c = '-' := by
  unfold hyphenOutside
  split
  next kept => exact (Bool.or_eq_true_iff.mp kept).imp id beq_iff_eq.mp
  next => exact .inr rfl

/-- No blank is part of a token. -/
theorem isTokenChar_of_isBlank {c : Char} (blank : Text.isBlank c = true) :
    isTokenChar c = false := by
  by_contra kept
  rw [not_isBlank_of_isTokenChar (by simpa using kept)] at blank
  cases blank

/-- **The pass does what the stages do.** Blanks, other characters and runs of hyphens are replaced
one after the other there, and in one pass here. -/
theorem tokenChars_eq_stagedChars (name : List Char) : tokenChars name = stagedChars name := by
  have replaced : ∀ c ∈ (hyphenRuns Text.isBlank (Text.trim name)).map hyphenOutside,
      isTokenChar c = true ∨ c = '-' := by
    intro c mem
    obtain ⟨d, -, rfl⟩ := List.mem_map.mp mem
    exact hyphenOutside_cases d
  have stages : hyphenRuns (· == '-')
      ((hyphenRuns Text.isBlank (Text.trim name)).map hyphenOutside) =
        hyphenate false (Text.trim name) := by
    rw [hyphenRuns_eq_hyphenate replaced, hyphenate_map_hyphenOutside,
      hyphenate_hyphenRuns fun _ => isTokenChar_of_isBlank]
  unfold tokenChars stagedChars
  simp only [stages]
  cases trimHyphens (hyphenate false (Text.trim name)) <;> rfl

/-! ## Which texts are tokens -/

/-- Nothing is trimmed where no hyphen stands at an end. Both ends are looked at, the second from
the back, so the empty text is a case of its own. -/
theorem trimHyphens_eq_self_iff {cs : List Char} :
    trimHyphens cs = cs ↔ cs.head? ≠ some '-' ∧ cs.getLast? ≠ some '-' := by
  constructor
  · intro trimmed
    have short := (Text.isPrefix_dropEndWhile (· == '-') (cs.dropWhile (· == '-'))).length_le
    have same : (trimHyphens cs).length = cs.length := congrArg List.length trimmed
    have begun : cs.dropWhile (· == '-') = cs :=
      (List.dropWhile_suffix _).eq_of_length_le (same ▸ short)
    rw [trimHyphens, begun] at trimmed
    have ended := List.rdropWhile_eq_self_iff.mp trimmed
    refine ⟨fun leads => ?_, fun trails => ?_⟩
    · have head := List.head?_dropWhile_not (· == '-') cs
      rw [begun, leads] at head
      cases head
    · have filled : cs ≠ [] := fun empty => by rw [empty] at trails; cases trails
      have last : cs.getLast filled = '-' := by
        rw [List.getLast?_eq_some_getLast filled] at trails
        exact Option.some.inj trails
      exact ended filled (by simp [last])
  · rintro ⟨begins, ends⟩
    have begun : cs.dropWhile (· == '-') = cs := by
      cases cs with
      | nil => rfl
      | cons c rest => exact List.dropWhile_cons_of_neg fun hyphen => begins (by simpa using hyphen)
    rw [trimHyphens, begun]
    refine List.rdropWhile_eq_self_iff.mpr fun filled hyphen => ends ?_
    rw [List.getLast?_eq_some_getLast filled, beq_iff_eq.mp hyphen]

/-- The words of a token are what stands between its hyphens. An empty word would be a hyphen at an
end or two beside each other, and a token has neither. -/
theorem isHyphenated_of_isToken {cs : List Char} (token : IsToken cs) : IsHyphenated cs := by
  obtain ⟨begins, ends⟩ := trimHyphens_eq_self_iff.mp token.trimmed
  refine ⟨Text.cutAll '-' cs, Text.cutAll_ne_nil cs, fun word mem => ⟨?_, fun c inWord => ?_⟩,
    (Text.joinWith_cutAll '-' cs).symm⟩
  · -- an empty word would be a hyphen at an end, or two hyphens together
    rintro rfl
    obtain ⟨before, after, cut⟩ := List.append_of_mem mem
    have whole := Text.joinWith_cutAll '-' cs
    rw [cut] at whole
    cases before using List.reverseRecOn with
    | nil =>
      cases after with
      | nil => exact token.nonempty whole.symm
      | cons next after => exact begins (by rw [← whole]; rfl)
    | append_singleton before last _ =>
      rw [Text.joinWith_append _ (by simp) (by simp)] at whole
      cases after with
      | nil => exact ends (by rw [← whole]; simp [Text.joinWith])
      | cons next after =>
        have single := token.single
        rw [← whole, List.append_assoc] at single
        have together := single.right_of_append
        simp only [Text.joinWith, List.nil_append, List.singleton_append] at together
        exact (List.isChain_cons_cons.mp together).1 ⟨rfl, rfl⟩
  · refine (token.chars c (Text.mem_of_mem_cutAll mem inWord)).resolve_right ?_
    rintro rfl
    exact Text.not_mem_of_mem_cutAll mem inWord

/-- Where no hyphen stands, none stands next to another. -/
theorem isChain_of_hyphenless {cs : List Char} (hyphenless : '-' ∉ cs) :
    cs.IsChain fun a b => ¬ (a = '-' ∧ b = '-') := by
  refine List.Pairwise.isChain (List.pairwise_of_forall_mem_list fun a mem b _ both => ?_)
  exact hyphenless (both.1 ▸ mem)

/-- Words with one hyphen between neighbours are a token. By induction on the words, the first of
which is not empty and has no hyphen. -/
theorem isToken_of_isHyphenated {cs : List Char} (hyphenated : IsHyphenated cs) : IsToken cs := by
  obtain ⟨words, nonempty, named, rfl⟩ := hyphenated
  have plain : ∀ {word : List Char}, (∀ c ∈ word, isTokenChar c = true) → '-' ∉ word :=
    fun kept mem => by cases kept '-' mem
  obtain ⟨first, others, rfl⟩ := List.exists_cons_of_ne_nil nonempty
  clear nonempty
  induction others generalizing first with
  | nil =>
    obtain ⟨filled, kept⟩ := named first List.mem_cons_self
    have hyphenless := plain kept
    refine ⟨filled, fun c mem => .inl (kept c mem), isChain_of_hyphenless hyphenless,
      trimHyphens_eq_self_iff.mpr ⟨?_, ?_⟩⟩
    · exact fun leads => hyphenless (List.mem_of_head? leads)
    · exact fun trails => hyphenless (List.mem_of_getLast? trails)
  | cons next others ih =>
    obtain ⟨filled, kept⟩ := named first List.mem_cons_self
    have hyphenless := plain kept
    have rest := ih next fun word mem => named word (List.mem_cons_of_mem _ mem)
    obtain ⟨begins, ends⟩ := trimHyphens_eq_self_iff.mp rest.trimmed
    have written : Text.joinWith ['-'] (first :: next :: others) =
        first ++ '-' :: Text.joinWith ['-'] (next :: others) := by
      simp [Text.joinWith]
    rw [written]
    refine ⟨by simp, fun c mem => ?_, List.isChain_append.mpr ⟨?_, ?_, ?_⟩,
      trimHyphens_eq_self_iff.mpr ⟨?_, ?_⟩⟩
    · rcases List.mem_append.mp mem with mem | mem
      · exact .inl (kept c mem)
      · rcases List.mem_cons.mp mem with rfl | mem
        · exact .inr rfl
        · exact rest.chars c mem
    · exact isChain_of_hyphenless hyphenless
    · exact List.isChain_cons.mpr ⟨fun c leads both => begins (both.2 ▸ leads), rest.single⟩
    · exact fun c trails _ _ both => hyphenless (both.1 ▸ List.mem_of_getLast? trails)
    · rw [List.head?_append_of_ne_nil _ filled]
      exact fun leads => hyphenless (List.mem_of_head? leads)
    · rw [List.getLast?_append_cons, List.getLast?_cons_of_ne_nil rest.nonempty]
      exact ends

/-- **The tokens of names.** The pass is the stages, for every name; the token of a token is the
token itself; and the tokens are all texts of words with one hyphen between neighbours. -/
theorem token_eq_staged :
    (∀ name, token name = String.ofList (stagedChars name.toList)) ∧
      (∀ name, token (token name) = token name) ∧
      ∀ text, (∃ name, token name = text) ↔ IsHyphenated text.toList := by
  refine ⟨fun name => by rw [token, tokenChars_eq_stagedChars], token_token, fun text => ?_⟩
  constructor
  · rintro ⟨name, rfl⟩
    rw [token, String.toList_ofList]
    exact isHyphenated_of_isToken (isToken_tokenChars _)
  · intro hyphenated
    refine ⟨text, ?_⟩
    rw [token, tokenChars_of_isToken (isToken_of_isHyphenated hyphenated), String.ofList_toList]

/-- Blanks and other characters side by side are one run. -/
example : String.ofList (stagedChars " a /\t日 b--c ".toList) = "a-b-c" := by decide +kernel

end StyleGraph.Stable
