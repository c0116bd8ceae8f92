import Mathlib.Data.List.Basic
import Storyboard.Placeholder

/-!
# Placeholders and their texts

Reading a text as a placeholder undoes writing one. The text of a placeholder is an opening with the sign of
its mode, a hint or nothing, the source, and a closing; the reader takes a hint wherever it finds one. So the
only placeholders that are not read back as they are written are those without a hint whose source begins like
one.
-/

namespace Storyboard

namespace TrackHint

theorem afterPart?_eq_some_iff {part text rest : List Char} :
    afterPart? part text = some rest ↔ text = part ++ rest := by
  induction part generalizing text with
  | nil => simp [afterPart?]
  | cons p part ih =>
      cases text with
      | nil => simp [afterPart?]
      | cons c others =>
          by_cases same : p = c
          · simp [afterPart?, same, ih]
          · have differ : ¬c = p := fun equal => same equal.symm
            simp [afterPart?, same, differ]

theorem afterPart?_eq_none_iff {part text : List Char} :
    afterPart? part text = none ↔ ∀ rest, text ≠ part ++ rest := by
  rw [Option.eq_none_iff_forall_ne_some]
  exact forall_congr' fun rest => not_congr afterPart?_eq_some_iff

/-- No text begins with both hints. -/
theorem eq_of_text_append {hint other : TrackHint} {rest others : List Char}
    (same : hint.text.toList ++ rest = other.text.toList ++ others) : hint = other ∧ rest = others := by
  cases hint <;> cases other <;> simp_all [text, name]

end TrackHint

namespace Placeholder

/-- What a placeholder begins with. -/
def opening (mode : EvalMode) : List Char := ['<', '%'] ++ mode.sigil.toList ++ [' ']

/-- What a placeholder ends with. -/
def closing : List Char := [' ', '%', '>']

/-- The text of an optional hint. -/
def hintChars (hint : Option TrackHint) : List Char := ((hint.map TrackHint.text).getD "").toList

@[simp]
theorem hintChars_none : hintChars none = [] := rfl

@[simp]
theorem hintChars_some (hint : TrackHint) : hintChars (some hint) = hint.text.toList := rfl

theorem toList_render (placeholder : Placeholder) :
    placeholder.render.toList =
      opening placeholder.mode ++ (hintChars placeholder.hint ++ (placeholder.source.toList ++ closing)) := by
  simp [render, opening, closing, hintChars]

/-- Whether a text begins like a hint. -/
def BeginsLikeHint (text : String) : Prop := ∃ (hint : TrackHint) (rest : String), text = hint.text ++ rest

/-! ## The parts of a text -/

theorem parseMode?_eq_some_iff {text rest : List Char} {mode : EvalMode} :
    parseMode? text = some (mode, rest) ↔ text = opening mode ++ rest := by
  constructor
  · intro read
    unfold parseMode? at read
    split at read
    · cases read
      rfl
    · cases read
      rfl
    · cases read
      rfl
    · cases read
  · rintro rfl
    cases mode <;> rfl

theorem parseSource?_eq_some_iff {text source : List Char} :
    parseSource? text = some source ↔ text = source ++ closing := by
  constructor
  · intro read
    unfold parseSource? at read
    split at read
    · rename_i before reversed
      cases read
      rw [← text.reverse_reverse, reversed]
      simp [closing]
    · cases read
  · rintro rfl
    simp [parseSource?, closing]

theorem parseHint_text_append (hint : TrackHint) (rest : List Char) :
    parseHint (hint.text.toList ++ rest) = (some hint, rest) := by
  have found : TrackHint.afterPart? hint.text.toList (hint.text.toList ++ rest) = some rest :=
    TrackHint.afterPart?_eq_some_iff.mpr rfl
  cases hint with
  | state => rw [parseHint, found]
  | context =>
      have missing : TrackHint.afterPart? TrackHint.state.text.toList (TrackHint.context.text.toList ++ rest) = none :=
        TrackHint.afterPart?_eq_none_iff.mpr fun others same => by
          cases (TrackHint.eq_of_text_append same).1
      rw [parseHint, missing, found]

theorem parseHint_of_plain {text : List Char} (plain : ∀ (hint : TrackHint) rest, text ≠ hint.text.toList ++ rest) :
    parseHint text = (none, text) := by
  have missing : ∀ hint : TrackHint, TrackHint.afterPart? hint.text.toList text = none := fun hint =>
    TrackHint.afterPart?_eq_none_iff.mpr (plain hint)
  rw [parseHint, missing .state, missing .context]

/-- A hint is split off wherever there is one. -/
theorem parseHint_eq_iff {text rest : List Char} {hint : Option TrackHint} :
    parseHint text = (hint, rest) ↔
      text = hintChars hint ++ rest ∧ (hint = none → ∀ (other : TrackHint) others, text ≠ other.text.toList ++ others) := by
  by_cases hinted : ∃ (other : TrackHint) (others : List Char), text = other.text.toList ++ others
  · obtain ⟨other, others, rfl⟩ := hinted
    rw [parseHint_text_append, Prod.mk.injEq]
    constructor
    · rintro ⟨rfl, rfl⟩
      exact ⟨rfl, by simp⟩
    · rintro ⟨same, plain⟩
      cases hint with
      | none => exact absurd rfl (plain rfl other others)
      | some hint =>
          obtain ⟨rfl, rfl⟩ := TrackHint.eq_of_text_append same
          exact ⟨rfl, rfl⟩
  · have plain : ∀ (other : TrackHint) others, text ≠ other.text.toList ++ others := by
      simpa using hinted
    rw [parseHint_of_plain plain, Prod.mk.injEq]
    constructor
    · rintro ⟨rfl, rfl⟩
      exact ⟨rfl, fun _ => plain⟩
    · rintro ⟨same, -⟩
      cases hint with
      | none => exact ⟨rfl, same⟩
      | some hint => exact absurd same (plain hint rest)

/-! ## Whole texts -/

/-- A text is read part by part. -/
theorem parse?_eq_some_iff_parts {text : String} {placeholder : Placeholder} :
    parse? text = some placeholder ↔
      ∃ rest left, parseMode? text.toList = some (placeholder.mode, rest) ∧
        parseHint rest = (placeholder.hint, left) ∧ parseSource? left = some placeholder.source.toList := by
  obtain ⟨mode, hint, source⟩ := placeholder
  constructor
  · intro read
    obtain ⟨⟨found, rest⟩, opened, read⟩ := Option.bind_eq_some_iff.mp read
    obtain ⟨body, closed, read⟩ := Option.bind_eq_some_iff.mp read
    cases read
    rw [String.toList_ofList]
    exact ⟨rest, (parseHint rest).2, opened, rfl, closed⟩
  · rintro ⟨rest, left, opened, split, closed⟩
    refine Option.bind_eq_some_iff.mpr ⟨(mode, rest), opened, ?_⟩
    dsimp only
    rw [split]
    exact Option.bind_eq_some_iff.mpr ⟨source.toList, closed, by rw [String.ofList_toList]; rfl⟩

/-- The closing can not complete a hint, which ends with a comma. -/
theorem beginsLikeHint_iff {source : String} :
    BeginsLikeHint source ↔
      ∃ (hint : TrackHint) (rest : List Char), source.toList ++ closing = hint.text.toList ++ rest := by
  constructor
  · rintro ⟨hint, rest, rfl⟩
    exact ⟨hint, rest.toList ++ closing, by simp⟩
  · rintro ⟨hint, rest, same⟩
    rcases List.append_eq_append_iff.mp same with ⟨missing, completes, closes⟩ | ⟨left, begins, -⟩
    · have last : (source.toList ++ missing).getLast? = some ',' := by
        rw [← completes]
        cases hint <;> rfl
      have complete : missing = [] := by
        by_contra some_missing
        rw [List.getLast?_append_of_ne_nil _ some_missing] at last
        have member : ',' ∈ closing := closes ▸ List.mem_append_left _ (List.mem_of_getLast? last)
        simp [closing] at member
      refine ⟨hint, "", String.toList_inj.mp ?_⟩
      rw [String.append_empty, completes, complete, List.append_nil]
    · exact ⟨hint, String.ofList left, String.toList_inj.mp (by rw [begins]; simp)⟩

/-- A text is read as a placeholder exactly if it is the text of the placeholder, and the placeholder has the
hint that its source seems to begin with. -/
theorem parse?_eq_some_iff {text : String} {placeholder : Placeholder} :
    parse? text = some placeholder ↔
      placeholder.render = text ∧ ¬(placeholder.hint = none ∧ BeginsLikeHint placeholder.source) := by
  simp only [parse?_eq_some_iff_parts, parseMode?_eq_some_iff, parseHint_eq_iff, parseSource?_eq_some_iff]
  rw [beginsLikeHint_iff, ← String.toList_inj, toList_render]
  constructor
  · rintro ⟨rest, left, opened, ⟨rfl, plain⟩, rfl⟩
    refine ⟨opened.symm, fun ⟨no_hint, hint, others, same⟩ => ?_⟩
    rw [no_hint, hintChars_none, List.nil_append] at plain
    exact plain rfl hint others same
  · rintro ⟨whole, plain⟩
    refine ⟨_, _, whole.symm, ⟨rfl, fun no_hint hint others same => ?_⟩, rfl⟩
    rw [no_hint, hintChars_none, List.nil_append] at same
    exact plain ⟨no_hint, hint, others, same⟩

/-- What is written is read back exactly if the source of a placeholder without a hint does not begin like one. -/
theorem parse?_render_iff {placeholder : Placeholder} :
    parse? placeholder.render = some placeholder ↔
      ¬(placeholder.hint = none ∧ BeginsLikeHint placeholder.source) := by
  rw [parse?_eq_some_iff, and_iff_right rfl]

/-- A source that begins like a hint is written like the rest of the source with the hint. -/
theorem render_plain_hint_append (mode : EvalMode) (hint : TrackHint) (rest : String) :
    (plain mode (hint.text ++ rest)).render = render ⟨mode, some hint, rest⟩ := by
  simp [render, plain, String.append_assoc]

/-- A text is read as some placeholder exactly if it stands between an opening and the closing. -/
theorem isSome_parse?_iff {text : String} :
    (parse? text).isSome = true ↔
      ∃ sign ∈ ["", "=", "~"], ∃ body, text = "<%" ++ sign ++ " " ++ body ++ " %>" := by
  rw [Option.isSome_iff_exists]
  constructor
  · rintro ⟨placeholder, read⟩
    obtain ⟨rfl, -⟩ := parse?_eq_some_iff.mp read
    refine ⟨placeholder.mode.sigil, ?_,
      (placeholder.hint.map TrackHint.text).getD "" ++ placeholder.source, by simp [render, String.append_assoc]⟩
    cases placeholder.mode <;> simp [EvalMode.sigil]
  · rintro ⟨sign, listed, body, rfl⟩
    obtain ⟨mode, rfl⟩ : ∃ mode : EvalMode, mode.sigil = sign := by
      simp only [List.mem_cons, List.not_mem_nil, or_false] at listed
      rcases listed with rfl | rfl | rfl
      · exact ⟨.once, rfl⟩
      · exact ⟨.bind, rfl⟩
      · exact ⟨.recursive, rfl⟩
    have written : "<%" ++ mode.sigil ++ " " ++ body ++ " %>" = (plain mode body).render := by
      simp [render, plain, String.append_assoc]
    rw [written]
    by_cases hinted : BeginsLikeHint body
    · obtain ⟨hint, rest, rfl⟩ := hinted
      rw [render_plain_hint_append]
      exact ⟨_, parse?_render_iff.mpr (by simp)⟩
    · exact ⟨_, parse?_render_iff.mpr (by simp [plain, hinted])⟩

/-- Reading and writing placeholders undo each other. What is read from a text is written as that text. What is
written is read back as the same placeholder, unless it has no hint and its source begins like one; then the
source is read as that hint and the rest. Exactly the texts between an opening, with one of the three signs, and a
closing can be read. -/
theorem parse?_and_render_are_inverse :
    (∀ text placeholder, parse? text = some placeholder → placeholder.render = text) ∧
      (∀ placeholder : Placeholder, parse? placeholder.render = some placeholder ↔
        ¬(placeholder.hint = none ∧
          ∃ hint : TrackHint, ∃ rest, placeholder.source = "\"track " ++ hint.name ++ "\"," ++ rest)) ∧
      (∀ mode (hint : TrackHint) rest,
        parse? (plain mode ("\"track " ++ hint.name ++ "\"," ++ rest)).render = some ⟨mode, some hint, rest⟩) ∧
      ∀ text, (parse? text).isSome = true ↔
        ∃ sign ∈ ["", "=", "~"], ∃ body, text = "<%" ++ sign ++ " " ++ body ++ " %>" := by
  refine ⟨fun text placeholder read => (parse?_eq_some_iff.mp read).1, fun placeholder => parse?_render_iff,
    fun mode hint rest => ?_, fun text => isSome_parse?_iff⟩
  rw [← TrackHint.text, render_plain_hint_append]
  exact parse?_render_iff.mpr (by simp)

/-- A source that holds a closing of its own is read back whole. -/
theorem closing_inside_source_is_read_back :
    parse? "<%= a %> %>" = some ⟨.bind, none, "a %>"⟩ ∧ render ⟨.bind, none, "a %>"⟩ = "<%= a %> %>" :=
  have read : parse? "<%= a %> %>" = some ⟨.bind, none, "a %>"⟩ := by decide +kernel
  ⟨read, parse?_and_render_are_inverse.1 _ _ read⟩

end Placeholder

end Storyboard
