import Mathlib.Data.List.TakeWhile
import StyleGraph.Proofs.Static.Minting

/-!
# The order of what is recorded

An output has two lists, one of blocks and one of texts, each text with the number of blocks that
were recorded before it. Read together they are one list (`Output.emitted`), and recording adds to
its end (`Output.emitted_record`), as long as no text stands behind more blocks than there are
(`Output.Placed`), which recording keeps. So what is written is what was recorded, one after the
other (`Output.render_ofEmitted`).

An evaluation does nothing to the output but record (`Runs.exists_emitted`).
-/

set_option autoImplicit false

namespace StyleGraph.Static

namespace Emitted

/-- How it is written. -/
def render : Emitted → String
  | .block rule => rule.render
  | .text written => written

def block? : Emitted → Option Block
  | .block rule => some rule
  | .text _ => none

def text? : Emitted → Option String
  | .block _ => none
  | .text written => some written

end Emitted

namespace Output

/-- What was recorded, one after the other, and nothing else. -/
def ofEmitted (emitted : List Emitted) : Output := emitted.foldl record {}

/-! ## Both lists as one -/

/-- The blocks from the given index on, each behind the texts that belong before it. -/
def interleave : Nat → List Block → List (Nat × String) → List Emitted
  | _, [], texts => texts.map fun entry => .text entry.2
  | index, block :: blocks, texts =>
    (texts.takeWhile fun entry => entry.1 ≤ index).map (fun entry => .text entry.2) ++
      .block block :: interleave (index + 1) blocks (texts.dropWhile fun entry => entry.1 ≤ index)

/-- Blocks and texts as one list. -/
def emitted (output : Output) : List Emitted := interleave 0 output.blocks output.texts

/-- Texts are written as they are. -/
theorem map_render_texts (texts : List (Nat × String)) :
    (texts.map fun entry => Emitted.text entry.2).map Emitted.render = texts.map Prod.snd :=
  List.map_map

/-- What the merge writes, from any block on: the texts that are due, the block, and the rest. -/
theorem merge_eq_join (index : Nat) (blocks : List Block) (texts : List (Nat × String)) :
    merge index blocks texts =
      String.join ((interleave index blocks texts).map Emitted.render) := by
  induction blocks generalizing index texts with
  | nil => rw [merge, interleave, map_render_texts]
  | cons block blocks ih =>
    rw [merge, interleave, List.map_append, List.map_cons, String.join_append, String.join_cons,
      map_render_texts, ← ih, Emitted.render, String.append_assoc]

/-- **What is written** is blocks and texts as one list. -/
theorem render_eq_join (output : Output) :
    output.render = String.join (output.emitted.map Emitted.render) :=
  merge_eq_join 0 output.blocks output.texts

/-! ## Recording -/

/-- No text stands behind more blocks than there are. -/
def Placed (output : Output) : Prop := ∀ entry ∈ output.texts, entry.1 ≤ output.blocks.length

/-- Where nothing was recorded every text is in its place. -/
theorem placed_empty : Placed {} := fun _ mem => nomatch mem

/-- Recording keeps texts in their places. A text gets the number of blocks so far, and a block that
is added later only raises that number. -/
theorem Placed.record {output : Output} (placed : output.Placed) (item : Emitted) :
    (output.record item).Placed := by
  intro entry mem
  cases item with
  | block block =>
    have before := placed entry mem
    simp only [Output.record, addBlock, List.length_append]
    omega
  | text text =>
    rcases List.mem_append.mp mem with before | last
    · exact placed entry before
    · rw [List.mem_singleton.mp last]
      exact Nat.le_refl _

/-- A block that is added stands behind all texts. No text has a higher number than the blocks
before, so all of them are written by then. -/
theorem interleave_append_block {index : Nat} {blocks : List Block} {texts : List (Nat × String)}
    (placed : ∀ entry ∈ texts, entry.1 ≤ index + blocks.length) (block : Block) :
    interleave index (blocks ++ [block]) texts =
      interleave index blocks texts ++ [.block block] := by
  induction blocks generalizing index texts with
  | nil =>
    have due : ∀ entry ∈ texts, decide (entry.1 ≤ index) = true :=
      fun entry mem => decide_eq_true (placed entry mem)
    rw [List.nil_append, interleave, interleave, interleave, List.takeWhile_eq_self_iff.mpr due,
      List.dropWhile_eq_nil_iff.mpr due, List.map_nil]
  | cons first blocks ih =>
    have later : ∀ entry ∈ texts.dropWhile fun entry => entry.1 ≤ index,
        entry.1 ≤ index + 1 + blocks.length := by
      intro entry mem
      have before := placed entry ((List.dropWhile_suffix _).subset mem)
      rw [List.length_cons] at before
      omega
    rw [List.cons_append, interleave, interleave, ih later, List.append_assoc, List.cons_append]

/-- An item that a test refuses ends what passes it. -/
theorem cut_append_of_refused {α : Type} {test : α → Bool} {last : α} (refused : test last = false)
    (items : List α) :
    (items ++ [last]).takeWhile test = items.takeWhile test ∧
      (items ++ [last]).dropWhile test = items.dropWhile test ++ [last] := by
  induction items with
  | nil => simp [refused]
  | cons item items ih => cases passed : test item <;> simp [passed, ih]

/-- A text that is added stands behind all blocks. It has the number of all blocks, so it is due
when they are written. -/
theorem interleave_append_text (index : Nat) (blocks : List Block) (texts : List (Nat × String))
    (text : String) :
    interleave index blocks (texts ++ [(index + blocks.length, text)]) =
      interleave index blocks texts ++ [.text text] := by
  induction blocks generalizing index texts with
  | nil => rw [interleave, interleave, List.map_append, List.map_singleton]
  | cons block blocks ih =>
    have next : index + (block :: blocks).length = index + 1 + blocks.length := by
      rw [List.length_cons]
      omega
    let isDue (entry : Nat × String) : Bool := entry.1 ≤ index
    have late : isDue (index + 1 + blocks.length, text) = false := by
      rw [decide_eq_false_iff_not]
      omega
    obtain ⟨due, later⟩ := cut_append_of_refused late texts
    rw [next, interleave, interleave, due, later, ih, List.append_assoc, List.cons_append]

/-- **Recording adds to the end** of what was recorded before. -/
theorem emitted_record {output : Output} (placed : output.Placed) (item : Emitted) :
    (output.record item).emitted = output.emitted ++ [item] := by
  cases item with
  | block rule =>
    refine interleave_append_block (fun entry mem => ?_) rule
    rw [Nat.zero_add]
    exact placed entry mem
  | text written =>
    have placed := interleave_append_text 0 output.blocks output.texts written
    rwa [Nat.zero_add] at placed

/-- The same for any number of items, each behind the ones before it. -/
theorem emitted_foldl_record {output : Output} (placed : output.Placed) (items : List Emitted) :
    (items.foldl record output).emitted = output.emitted ++ items := by
  induction items generalizing output with
  | nil => exact (List.append_nil _).symm
  | cons item items ih =>
    rw [List.foldl_cons, ih (placed.record item), emitted_record placed, List.append_assoc,
      List.singleton_append]

/-- What was recorded can be read off the output. -/
theorem emitted_ofEmitted (items : List Emitted) : (ofEmitted items).emitted = items :=
  emitted_foldl_record placed_empty items

/-- **Everything recorded is written in the order in which it was recorded.** -/
theorem render_ofEmitted (items : List Emitted) :
    (ofEmitted items).render = String.join (items.map Emitted.render) := by
  rw [render_eq_join, emitted_ofEmitted]

/-- The blocks among the items are kept in their order. -/
theorem blocks_foldl_record (output : Output) (items : List Emitted) :
    (items.foldl record output).blocks = output.blocks ++ items.filterMap Emitted.block? := by
  induction items generalizing output with
  | nil => exact (List.append_nil _).symm
  | cons item items ih =>
    rw [List.foldl_cons, ih]
    cases item with
    | block rule => exact List.append_assoc _ [rule] _
    | text written => rfl

/-- So are the texts, and none is lost or kept twice. The numbers that texts are kept with are left
aside here. -/
theorem texts_foldl_record (output : Output) (items : List Emitted) :
    (items.foldl record output).texts.map Prod.snd =
      output.texts.map Prod.snd ++ items.filterMap Emitted.text? := by
  induction items generalizing output with
  | nil => exact (List.append_nil _).symm
  | cons item items ih =>
    rw [List.foldl_cons, ih]
    cases item with
    | block rule => rfl
    | text written =>
      simp only [record, addText, List.map_append, List.map_singleton, List.append_assoc,
        List.singleton_append]
      rfl

end Output

/-! ## Evaluations -/

/-- **A run does nothing to the output but record**, as acts do. -/
theorem Runs.exists_emitted {naming : Naming} {state final : State} {made : List (Option String)}
    (runs : Runs naming state made final) :
    ∃ items : List Emitted, final.output = items.foldl Output.record state.output := by
  obtain ⟨acts, rfl⟩ := runs.exists_acts
  exact ⟨acts.filterMap Act.recorded?, Act.output_applyAll naming state acts⟩

/-- **Blocks and texts are written in the order in which they are recorded.** This holds of any
blocks and texts, and those that the evaluation of a module records are known: it has just one list
of them, at every moment of the evaluation a first part of it has been recorded, and the blocks and
the texts that are kept at the end are all of this list, each once and in their order. -/
theorem emission_in_order :
    (∀ items : List Emitted,
      (Output.ofEmitted items).render = String.join (items.map Emitted.render)) ∧
    ∀ source path project environment evaluated,
      evaluateModule source path project environment = .ok evaluated →
      let final := moduleState source path project environment
      ∃ made, Runs (.ofPath path project) {} made final ∧
        ∃ items : List Emitted,
          evaluated.css = String.join (items.map Emitted.render) ∧
          (∀ others, final.output = .ofEmitted others ↔ others = items) ∧
          final.output.blocks = items.filterMap Emitted.block? ∧
          final.output.texts.map Prod.snd = items.filterMap Emitted.text? ∧
          ∀ first middle more, Runs (.ofPath path project) {} first middle →
            Runs (.ofPath path project) middle more final →
            ∃ before, before <+: items ∧ middle.output = .ofEmitted before := by
  refine ⟨Output.render_ofEmitted, fun source path project environment evaluated evaluates => ?_⟩
  intro final
  obtain ⟨made, runs, rendered⟩ := evaluateModule_runs evaluates
  obtain ⟨items, recorded⟩ := runs.exists_emitted
  have whole : final.output = .ofEmitted items := recorded
  -- the output can be read back as a list, so there is only one
  have known (others : List Emitted) (same : final.output = .ofEmitted others) :
      others = items := by
    rw [← Output.emitted_ofEmitted others, ← same, whole, Output.emitted_ofEmitted]
  refine ⟨made, runs, items, ?_, fun others => ⟨known others, fun same => ?_⟩, ?_, ?_, ?_⟩
  · rw [rendered, whole, Output.render_ofEmitted]
  · rw [same, whole]
  · exact whole ▸ Output.blocks_foldl_record {} items
  · exact whole ▸ Output.texts_foldl_record {} items
  · intro first middle more before after
    obtain ⟨early, recordedEarly⟩ := before.exists_emitted
    obtain ⟨late, recordedLate⟩ := after.exists_emitted
    refine ⟨early, ⟨late, known _ ?_⟩, recordedEarly⟩
    rw [recordedLate, recordedEarly, Output.ofEmitted, List.foldl_append]

/-- A rule between two font faces. -/
def framedSource : String :=
  "globalFontFace('a', \x7b\x7d);\nglobalStyle('b', \x7btop:0\x7d);\n" ++
    "globalFontFace('c', \x7b\x7d);"

/-- The rule is written between the two font faces, as it was recorded. Two texts of the same kind
are kept apart by the rule between them, which sorting by kind would have joined. -/
theorem emission_in_order_framed :
    ∃ evaluated, evaluateModule framedSource "/app/a.css.ts" "/app" [] = .ok evaluated ∧
      evaluated.css =
        "@font-face \x7b\n  font-family: \"a\";\n\x7d\nb \x7b\n  top: 0;\n\x7d\n" ++
          "@font-face \x7b\n  font-family: \"c\";\n\x7d\n" ∧
      let final := moduleState framedSource "/app/a.css.ts" "/app" []
      ∃ made, Runs (.ofPath "/app/a.css.ts" "/app") {} made final ∧
        ∃ items : List Emitted,
          evaluated.css = String.join (items.map Emitted.render) ∧
          (∀ others, final.output = .ofEmitted others ↔ others = items) ∧
          final.output.blocks = items.filterMap Emitted.block? ∧
          final.output.texts.map Prod.snd = items.filterMap Emitted.text? ∧
          ∀ first middle more, Runs (.ofPath "/app/a.css.ts" "/app") {} first middle →
            Runs (.ofPath "/app/a.css.ts" "/app") middle more final →
            ∃ before, before <+: items ∧ middle.output = .ofEmitted before := by
  have chars : framedSource.toList = _ := Text.toList_ofList_append _ _
  have written : (evaluateModule framedSource "/app/a.css.ts" "/app" []).map Evaluated.css = .ok
      ("@font-face \x7b\n  font-family: \"a\";\n\x7d\nb \x7b\n  top: 0;\n\x7d\n" ++
        "@font-face \x7b\n  font-family: \"c\";\n\x7d\n") := by
    rewrite [evaluateModule, Script.read?, chars]
    decide +kernel
  cases evaluates : evaluateModule framedSource "/app/a.css.ts" "/app" [] with
  | error _ => rw [evaluates] at written; cases written
  | ok evaluated =>
    rw [evaluates] at written
    exact ⟨evaluated, rfl, Except.ok.inj written,
      emission_in_order.2 _ _ _ _ evaluated evaluates⟩

end StyleGraph.Static
