import StyleGraph.Extract.Options
import StyleGraph.Proofs.Config.RoundTrip
import StyleGraph.Proofs.Stable.Boosted

/-!
# Room for boosted selectors

Before a selector is boosted, room is made for its components and the copies of its class: a sum of
two machine words. A configuration takes every word as the number of copies, and nothing between
the configuration and the boost looks at that number again. So the sum overflows for some selectors,
and it is known for which (`rewriteChecked_of_ofConfig`): those that have a class to repeat and more
components than the number of copies leaves free below the largest word. At the largest number of
copies one component is too many (`room_wraps_card`).
-/

set_option autoImplicit false

namespace StyleGraph

/-! ## What a configuration asks for -/

namespace ExtractOptions

/-- Options that boost do it as often as the configuration says. There is no other way into the
options: a boost is made from the settings, and a configuration without them boosts nothing. -/
theorem exists_boost_of_ofConfig {config : Config} {cwd : String} {options : ExtractOptions}
    {boost : Stable.Boost} (made : ofConfig config cwd = .ok options)
    (boosts : options.boost = some boost) :
    ∃ settings, config.boost = some settings ∧ boostOf settings = .ok boost := by
  unfold ofConfig at made
  simp only [bind, Except.bind] at made
  split at made
  · cases made
  · cases asked : config.boost with
    | none =>
      rw [asked] at made
      cases made
      cases boosts
    | some settings =>
      rw [asked] at made
      simp only [Except.map] at made
      split at made
      · cases made
      next found =>
        split at found
        · cases found
        next answer =>
          cases found
          cases made
          cases boosts
          exact ⟨settings, rfl, answer⟩

/-- The count goes into the boost as the settings give it: only the match list is read again, so no
check of the count stands between the configuration and the sum. -/
theorem times_of_boostOf {settings : Config.BoostSettings} {boost : Stable.Boost}
    (made : boostOf settings = .ok boost) : boost.times = settings.times := by
  unfold boostOf at made
  simp only [bind, Except.bind] at made
  split at made
  · cases made
  · cases made
    rfl

end ExtractOptions

namespace Stable.Boost

open Css
open Resolve (AliasMode)

/-! ## Machine words -/

/-- The room asked for is the sum in machine words. It is the real one only while that fits a word.
-/
theorem toNat_room (boost : Boost) (selector : Selector) :
    (boost.room selector).toNat =
      (selector.components.length + boost.times) % Number.twoTo 64 := by
  rw [room, UInt64.toNat_add, UInt64.toNat_ofNat', UInt64.toNat_ofNat', ← Nat.add_mod]
  rfl

/-- The room is the sum itself as long as that is a word, and less than it else. -/
theorem toNat_room_eq_or_lt (boost : Boost) (selector : Selector) :
    if maxWord < selector.components.length + boost.times then
      (boost.room selector).toNat < selector.components.length + boost.times
    else (boost.room selector).toNat = selector.components.length + boost.times := by
  have largest : maxWord + 1 = Number.twoTo 64 := by decide
  rw [toNat_room]
  split
  next exceeds =>
    have below := Nat.mod_lt (selector.components.length + boost.times)
      (y := Number.twoTo 64) (by decide)
    omega
  next fits => exact Nat.mod_eq_of_lt (by omega)

variable {boost : Boost} {selector boosted : Selector}

/-- A boosted selector is longer by exactly the count, so the sum the allocation makes is its
length. -/
theorem length_of_rewrite (changed : boost.rewrite selector = some boosted) :
    boosted.components.length = selector.components.length + boost.times := by
  obtain ⟨before, name, after, components, boostedComponents⟩ :=
    exists_components_of_rewrite changed
  simp only [components, boostedComponents, List.length_append, List.length_cons,
    List.length_replicate]
  omega

/-- A class to repeat is one of the subject, however often it is repeated. -/
theorem hasTarget_iff (boost : Boost) (selector : Selector) :
    boost.hasTarget selector = true ↔
      ∃ name, .class name ∈ selector.subject Combinator.isPseudoElement ∧
        boost.accepts name = true :=
  @isSome_rewrite_iff { boost with times := 1 } Nat.one_pos selector

/-- Where the sum does not overflow, the checked rewriting is the rewriting. -/
theorem rewriteChecked_eq_ok {result : Option Selector}
    (checked : boost.rewriteChecked selector = .ok result) : result = boost.rewrite selector := by
  unfold rewriteChecked at checked
  split at checked
  next zero =>
    cases checked
    rw [rewrite, if_pos zero]
  next =>
    split at checked
    next => cases checked
    next => exact (Except.ok.inj checked).symm

/-- The checked rewriting stops at the sum that overflows, and nowhere else. A boost without copies,
or a selector without a class to repeat, is done with before anything is added up. -/
theorem rewriteChecked_eq_error_iff {overflow : Overflow} :
    boost.rewriteChecked selector = .error overflow ↔
      overflow = ⟨selector.components.length, boost.times⟩ ∧ 0 < boost.times ∧
        boost.hasTarget selector = true ∧
        maxWord < selector.components.length + boost.times := by
  unfold rewriteChecked
  split
  next zero => exact ⟨nofun, fun stops => absurd zero (Nat.ne_of_gt stops.2.1)⟩
  next copies =>
    split
    next exceeds =>
      constructor
      · rintro ⟨⟩
        exact ⟨rfl, Nat.pos_of_ne_zero copies, exceeds⟩
      · rintro ⟨rfl, -⟩
        rfl
    next fits => exact ⟨nofun, fun stops => absurd stops.2.2 fits⟩

/-! ## Counts of a configuration -/

/-- A count of a configuration is a word. -/
theorem times_lt_of_ofConfig {json : Json} {config : Config} {cwd : String}
    {options : ExtractOptions} (read : Config.ofJson? json = some config)
    (made : ExtractOptions.ofConfig config cwd = .ok options)
    (boosts : options.boost = some boost) : boost.times < Number.twoTo 64 := by
  obtain ⟨settings, asked, found⟩ := ExtractOptions.exists_boost_of_ofConfig made boosts
  rw [ExtractOptions.times_of_boostOf found]
  exact (Config.isReadable_of_ofJson? read).counts settings asked

/-- The configuration that asks for some copies of every class, and nothing else. -/
def copies (times : Nat) : Config := { boost := some { times } }

/-- **Every word is a count of a configuration.** -/
theorem exists_options_of_le {times : Nat} (word : times ≤ maxWord) (cwd : String) :
    ∃ options, Config.ofJson? (copies times).toJson = some (copies times) ∧
      ExtractOptions.ofConfig (copies times) cwd = .ok options ∧
      options.boost = some { times } := by
  have counts : times < Number.twoTo 64 := Nat.lt_of_le_of_lt word (by decide)
  have off : AliasMode.ofText? AliasMode.off.text = some .off := by decide +kernel
  have readable : (copies times).IsReadable := ⟨off, by rintro boost ⟨⟩; exact counts⟩
  exact ⟨_, Config.ofSetting?_toJson true readable, rfl, rfl⟩

/-- **Room for boosted selectors.** A boost that a configuration asks for makes as many copies as a
word can count. The sum of the room overflows exactly for a selector that has a class to repeat and
more components than the copies leave free below the largest word; less room is then made than the
boosted selector needs. For all other selectors no sum overflows, and the room for a selector that
is boosted is what the boosted selector needs. -/
theorem rewriteChecked_of_ofConfig {json : Json} {config : Config} {cwd : String}
    {options : ExtractOptions} {boost : Boost} (read : Config.ofJson? json = some config)
    (made : ExtractOptions.ofConfig config cwd = .ok options)
    (boosts : options.boost = some boost) (selector : Selector) :
    boost.times ≤ maxWord ∧
      ((∃ overflow, boost.rewriteChecked selector = .error overflow) ↔
        0 < boost.times ∧ maxWord - boost.times < selector.components.length ∧
          ∃ name, .class name ∈ selector.subject Combinator.isPseudoElement ∧
            boost.accepts name = true) ∧
      (∀ overflow, boost.rewriteChecked selector = .error overflow →
        ∃ boosted, boost.rewrite selector = some boosted ∧
          (boost.room selector).toNat < boosted.components.length) ∧
      ∀ result, boost.rewriteChecked selector = .ok result →
        result = boost.rewrite selector ∧
        ∀ boosted, result = some boosted →
          (boost.room selector).toNat = boosted.components.length := by
  have word : boost.times ≤ maxWord := Nat.le_sub_one_of_lt (times_lt_of_ofConfig read made boosts)
  have exceeds : maxWord - boost.times < selector.components.length ↔
      maxWord < selector.components.length + boost.times := Nat.sub_lt_iff_lt_add word
  refine ⟨word, ?_, fun overflow stops => ?_, fun result checked => ?_⟩
  · simp only [rewriteChecked_eq_error_iff, exists_eq_left, hasTarget_iff, exceeds]
    exact and_congr_right fun _ => and_comm
  · obtain ⟨-, copies, target, tooMany⟩ := rewriteChecked_eq_error_iff.mp stops
    obtain ⟨boosted, changed⟩ := Option.isSome_iff_exists.mp
      ((isSome_rewrite_iff copies selector).mpr ((hasTarget_iff boost selector).mp target))
    have short := toNat_room_eq_or_lt boost selector
    rw [if_pos tooMany, ← length_of_rewrite changed] at short
    exact ⟨boosted, changed, short⟩
  · refine ⟨rewriteChecked_eq_ok checked, fun boosted same => ?_⟩
    have changed := (rewriteChecked_eq_ok checked).symm.trans same
    have target := (hasTarget_iff boost selector).mpr
      ((isSome_rewrite_iff (times_pos_of_rewrite changed) selector).mp (by rw [changed]; rfl))
    have fits : ¬ maxWord < selector.components.length + boost.times := fun tooMany => by
      have stops := rewriteChecked_eq_error_iff.mpr
        ⟨rfl, times_pos_of_rewrite changed, target, tooMany⟩
      cases checked.symm.trans stops
    have enough := toNat_room_eq_or_lt boost selector
    rwa [if_neg fits, ← length_of_rewrite changed] at enough

/-- `.card` -/
def cardSelector : Selector := .mk [.class "card"] {}

/-- Two copies of the class of `.card` are given room for three components. -/
theorem rewriteChecked_of_ofConfig_card :
    ∃ options, ExtractOptions.ofConfig (copies 2) "/app" = .ok options ∧
      ∃ boosted, rewriteChecked { times := 2 } cardSelector = .ok (some boosted) ∧
        (Boost.room { times := 2 } cardSelector).toNat = boosted.components.length ∧
        boosted.components.length = 3 := by
  have word : 2 ≤ maxWord := by decide
  obtain ⟨options, read, made, boosts⟩ := exists_options_of_le word "/app"
  obtain ⟨-, -, -, enough⟩ := rewriteChecked_of_ofConfig read made boosts cardSelector
  exact ⟨options, made, _, rfl, (enough _ rfl).2 _ rfl, rfl⟩

/-- **The sum can overflow.** With as many copies as a word can count the class of `.card` is one
component too many: unchecked the sum is none at all. -/
theorem room_wraps_card :
    ∃ options boosted, Config.ofJson? (copies maxWord).toJson = some (copies maxWord) ∧
      ExtractOptions.ofConfig (copies maxWord) "/app" = .ok options ∧
      options.boost = some { times := maxWord } ∧
      rewriteChecked { times := maxWord } cardSelector = .error ⟨1, maxWord⟩ ∧
      Boost.rewrite { times := maxWord } cardSelector = some boosted ∧
      ¬ cardSelector.components.length + maxWord ≤ maxWord ∧
      Boost.room { times := maxWord } cardSelector = 0 ∧
      boosted.components.length = Number.twoTo 64 := by
  obtain ⟨options, read, made, boosts⟩ := exists_options_of_le (Nat.le_refl maxWord) "/app"
  have positive : 0 < Boost.times { times := maxWord } := by decide
  have listed : ∃ name, .class name ∈ cardSelector.subject Combinator.isPseudoElement ∧
      Boost.accepts { times := maxWord } name = true := ⟨"card", .head _, rfl⟩
  obtain ⟨boosted, changed⟩ := Option.isSome_iff_exists.mp
    ((isSome_rewrite_iff positive cardSelector).mpr listed)
  have many : 1 + maxWord = Number.twoTo 64 := by decide
  have tooMany : maxWord < cardSelector.components.length + maxWord :=
    Nat.lt_add_of_pos_left Nat.one_pos
  have stops := rewriteChecked_eq_error_iff.mpr
    ⟨rfl, positive, (hasTarget_iff _ _).mpr listed, tooMany⟩
  refine ⟨options, boosted, read, made, boosts, stops, changed, Nat.not_le_of_gt tooMany, ?_, ?_⟩
  · rw [← UInt64.toNat_inj, toNat_room]
    decide
  · exact (length_of_rewrite changed).trans many

end Stable.Boost

end StyleGraph
