import Storyboard.Proofs.TokenTexts

/-!
# Ranges of tokens

Whatever the lexer reads from a cursor, it stops at a cursor further on in the same text: a token covers the characters
between the two, and its range counts their bytes. Numbers and marks are read by the count of their characters, which
have one byte each.
-/

namespace Storyboard

open Text (byteLength byteLength_append)
open Cursor (Across)

namespace Cursor

/-- One cursor is in front of another one in the same text. -/
def Reaches (here after : Cursor) : Prop := ∃ text, Across text here after

theorem Reaches.refl (cursor : Cursor) : Reaches cursor cursor := ⟨[], rfl, rfl⟩

theorem Across.trans {front back : List Char} {first second third : Cursor} (before : Across front first second)
    (behind : Across back second third) : Across (front ++ back) first third := by
  refine ⟨by rw [before.1, behind.1, List.append_assoc], ?_⟩
  rw [behind.2, before.2, byteLength_append, Nat.add_assoc]

theorem Reaches.trans {first second third : Cursor} (before : Reaches first second) (after : Reaches second third) :
    Reaches first third := by
  obtain ⟨front, before⟩ := before
  obtain ⟨back, after⟩ := after
  exact ⟨front ++ back, before.trans after⟩

end Cursor

open Cursor (Reaches)

namespace Literal

/-- A text goes on with a rest behind characters of one byte each, as many as given. -/
def Behind (text : List Char) (width : Nat) (rest : List Char) : Prop :=
  ∃ front, text = front ++ rest ∧ front.length = width ∧ byteLength front = width

theorem behind_refl (text : List Char) : Behind text 0 text := ⟨[], rfl, rfl, rfl⟩

theorem Behind.trans {first second third : List Char} {m n : Nat} (before : Behind first m second)
    (after : Behind second n third) :
    Behind first (m + n) third := by
  obtain ⟨front, rfl, count, size⟩ := before
  obtain ⟨middle, rfl, count', size'⟩ := after
  refine ⟨front ++ middle, by rw [List.append_assoc], ?_, ?_⟩
  · rw [List.length_append, count, count']
  · rw [byteLength_append, size, size']

theorem behind_cons {c : Char} (small : c.utf8Size = 1) (rest : List Char) : Behind (c :: rest) 1 rest :=
  ⟨[c], rfl, rfl, small⟩

theorem utf8Size_of_digitValue? {base value : Nat} {c : Char} (digit : digitValue? base c = some value) :
    c.utf8Size = 1 := by
  unfold digitValue? at digit
  split at digit
  · rename_i hex
    exact Lexer.utf8Size_of_hexValue? hex
  · cases digit

theorem behind_of_moreDigits? {base : Nat} {text rest : List Char} {run digits : Digits}
    (read : moreDigits? base text run = some (digits, rest)) :
    ∃ width, digits.width = run.width + width ∧ Behind text width rest := by
  fun_induction moreDigits? base text run with
  | case1 c others run value digit ih =>
      obtain ⟨width, width_eq, behind⟩ := ih read
      refine ⟨2 + width, by rw [width_eq, Digits.push, Nat.add_assoc], ?_⟩
      exact ((behind_cons rfl _).trans (behind_cons (utf8Size_of_digitValue? digit) _)).trans behind
  | case2 => cases read
  | case3 c others run _ value digit ih =>
      obtain ⟨width, width_eq, behind⟩ := ih read
      refine ⟨1 + width, by rw [width_eq, Digits.push, Nat.add_assoc], ?_⟩
      exact (behind_cons (utf8Size_of_digitValue? digit) _).trans behind
  | case4 => cases read
  | case5 =>
      cases read
      exact ⟨0, rfl, behind_refl _⟩
  | case6 =>
      cases read
      exact ⟨0, rfl, behind_refl _⟩

theorem behind_of_someDigits? {base : Nat} {text rest : List Char} {digits : Digits}
    (read : someDigits? base text = some (digits, rest)) : Behind text digits.width rest := by
  unfold someDigits? at read
  split at read
  · cases read
  · rename_i c others
    split at read
    · rename_i value digit
      obtain ⟨width, width_eq, behind⟩ := behind_of_moreDigits? read
      rw [width_eq, Digits.push]
      exact (behind_cons (utf8Size_of_digitValue? digit) _).trans behind
    · cases read

theorem utf8Size_of_or {c a b : Char} (small : a.utf8Size = 1 ∧ b.utf8Size = 1) (same : (c == a || c == b) = true) :
    c.utf8Size = 1 := by
  rcases Bool.or_eq_true_iff.mp same with same | same
  · rw [eq_of_beq same, small.1]
  · rw [eq_of_beq same, small.2]

theorem behind_of_exponent? {text rest : List Char} {power : Int} {width : Nat}
    (read : exponent? text = some (power, width, rest)) : Behind text width rest := by
  unfold exponent? at read
  split at read
  · rename_i c sign others
    by_cases letter : (c == 'e' || c == 'E') = true
    · have small := behind_cons (utf8Size_of_or ⟨rfl, rfl⟩ letter) (sign :: others)
      rw [if_pos letter] at read
      by_cases signed : (sign == '+' || sign == '-') = true
      · have small' := behind_cons (utf8Size_of_or ⟨rfl, rfl⟩ signed) others
        rw [if_pos signed] at read
        obtain ⟨⟨digits, rest'⟩, run, same⟩ := Option.map_eq_some_iff.mp read
        cases same
        have behind := (small.trans small').trans (behind_of_someDigits? run)
        rwa [Nat.add_comm] at behind
      · rw [if_neg signed] at read
        obtain ⟨⟨digits, rest'⟩, run, same⟩ := Option.map_eq_some_iff.mp read
        cases same
        have behind := small.trans (behind_of_someDigits? run)
        rwa [Nat.add_comm] at behind
    · rw [if_neg letter] at read
      cases read
      exact behind_refl _
  · split_ifs at read
    cases read
    exact behind_refl _
  · cases read
    exact behind_refl _

theorem behind_of_fraction? {text rest : List Char} {digits : Digits} (read : fraction? text = some (digits, rest)) :
    Behind text digits.width rest := by
  unfold fraction? at read
  split at read
  · split_ifs at read
    · exact behind_of_someDigits? read
    · cases read
      exact behind_refl _
  · cases read
    exact behind_refl _

/-- A numeral takes its whole digits and what is behind them, if that is anything. -/
theorem behind_of_widths {text rest others : List Char} {plain long numeral : Numeral} {whole width m n : Nat}
    (behind : Behind text (m + n) others)
    (read : (if (m + n == 0) = true then some (plain, whole, others) else some (long, whole + m + n, others)) =
      some (numeral, width, rest)) : ∃ more, width = whole + more ∧ Behind text more rest := by
  split_ifs at read with none_
  · cases read
    rw [eq_of_beq none_] at behind
    exact ⟨0, rfl, behind⟩
  · cases read
    exact ⟨_, Nat.add_assoc .., behind⟩

theorem behind_of_afterWhole? {whole : Digits} {text rest : List Char} {numeral : Numeral} {width : Nat}
    (read : afterWhole? whole text = some (numeral, width, rest)) :
    ∃ more, width = whole.width + more ∧ Behind text more rest := by
  unfold afterWhole? at read
  dsimp only at read
  split at read
  · obtain ⟨⟨fraction, fractionWidth, others⟩, fraction_eq, read⟩ := Option.bind_eq_some_iff.mp read
    obtain ⟨⟨power, powerWidth, rest'⟩, power_eq, read⟩ := Option.bind_eq_some_iff.mp read
    obtain ⟨⟨digits, rest''⟩, run, same⟩ := Option.map_eq_some_iff.mp fraction_eq
    cases same
    have behind := (behind_cons (c := '.') rfl _).trans (behind_of_fraction? run)
    rw [Nat.add_comm] at behind
    exact behind_of_widths (behind.trans (behind_of_exponent? power_eq)) read
  · obtain ⟨⟨fraction, fractionWidth, others⟩, same, read⟩ := Option.bind_eq_some_iff.mp read
    obtain ⟨⟨power, powerWidth, rest'⟩, power_eq, read⟩ := Option.bind_eq_some_iff.mp read
    cases same
    exact behind_of_widths ((behind_refl _).trans (behind_of_exponent? power_eq)) read

theorem behind_of_based? {base : Nat} {text rest : List Char} {numeral : Numeral} {width : Nat}
    (read : based? base text = some (numeral, width, rest)) : ∃ more, width = more + 2 ∧ Behind text more rest := by
  obtain ⟨⟨digits, others⟩, run, read⟩ := Option.bind_eq_some_iff.mp read
  have behind := behind_of_someDigits? run
  dsimp only at read
  split at read
  · cases read
    exact ⟨_, rfl, behind.trans (behind_cons rfl _)⟩
  · cases read
    exact ⟨_, rfl, behind⟩

theorem width_plainDigits (base : Nat) (text : List Char) : (plainDigits base text).width = text.length := by
  have folds : ∀ run : Digits, (text.foldl (fun run c => run.push base (c.toNat - 48) 1) run).width =
      run.width + text.length := by
    induction text with
    | nil => exact fun run => rfl
    | cons c text ih =>
        intro run
        rw [List.foldl_cons, ih, List.length_cons]
        simp only [Digits.push]
        omega
  exact (folds {}).trans (Nat.zero_add _)

theorem behind_takeWhile_isDigit (text : List Char) :
    Behind text (text.takeWhile Char.isDigit).length (text.dropWhile Char.isDigit) := by
  refine ⟨_, List.takeWhile_append_dropWhile.symm, rfl, ?_⟩
  have digits : ∀ c ∈ text.takeWhile Char.isDigit, c.isDigit = true := List.all_eq_true.mp List.all_takeWhile
  generalize text.takeWhile Char.isDigit = run at digits
  induction run with
  | nil => rfl
  | cons c run ih =>
      have small : c.utf8Size = 1 := by
        have digit := digits c List.mem_cons_self
        simp only [Char.isDigit, Bool.and_eq_true, decide_eq_true_eq] at digit
        rw [Char.utf8Size_eq_one_iff]
        exact UInt32.le_trans digit.2 (by decide)
      rw [byteLength, small, ih fun c' member => digits c' (.tail _ member), List.length_cons, Nat.add_comm]

theorem behind_of_zeroLed? {text rest : List Char} {numeral : Numeral} {width : Nat}
    (read : zeroLed? text = some (numeral, width, rest)) : Behind text width rest := by
  have run := behind_takeWhile_isDigit text
  unfold zeroLed? at read
  dsimp only at read
  split_ifs at read
  · cases read
    exact run
  · obtain ⟨more, width_eq, behind⟩ := behind_of_afterWhole? read
    rw [width_eq, width_plainDigits]
    exact run.trans behind

theorem behind_of_decimal? {text rest : List Char} {numeral : Numeral} {width : Nat}
    (read : decimal? text = some (numeral, width, rest)) : Behind text width rest := by
  obtain ⟨⟨whole, others⟩, run, read⟩ := Option.bind_eq_some_iff.mp read
  have behind := behind_of_fraction? run
  dsimp only at read
  split at read
  · split_ifs at read
    cases read
    exact behind.trans (behind_cons rfl _)
  · obtain ⟨more, width_eq, behind'⟩ := behind_of_afterWhole? read
    rw [width_eq]
    exact behind.trans behind'

/-- A numeral takes as many bytes as it has characters. -/
theorem behind_of_numeral? {text rest : List Char} {numeral : Numeral} {width : Nat}
    (read : numeral? text = some (numeral, width, rest)) : Behind text width rest := by
  unfold numeral? at read
  split at read
  · rename_i mark others
    have based {base : Nat} {a b : Char} (small : a.utf8Size = 1 ∧ b.utf8Size = 1)
        (marked : (mark == a || mark == b) = true)
        (read : based? base others = some (numeral, width, rest)) : Behind ('0' :: mark :: others) width rest := by
      obtain ⟨more, width_eq, behind⟩ := behind_of_based? read
      have whole := ((behind_cons (c := '0') rfl _).trans (behind_cons (utf8Size_of_or small marked) _)).trans behind
      rwa [width_eq, Nat.add_comm more 2]
    split_ifs at read with hex octal binary digit big
    · exact based ⟨rfl, rfl⟩ hex read
    · exact based ⟨rfl, rfl⟩ octal read
    · exact based ⟨rfl, rfl⟩ binary read
    · exact behind_of_zeroLed? read
    · cases read
      rw [eq_of_beq big]
      exact (behind_cons (c := '0') rfl _).trans (behind_cons (c := 'n') rfl _)
    · exact behind_of_decimal? read
  · exact behind_of_decimal? read

end Literal

namespace Lexer

open Literal (Behind)

/-! ## Tokens -/

theorem reaches_of_behind {text rest : List Char} {width offset : Nat} (behind : Behind text width rest) :
    Reaches ⟨text, offset⟩ ⟨rest, offset + width⟩ := by
  obtain ⟨front, rfl, -, size⟩ := behind
  exact ⟨front, rfl, by rw [size]⟩

theorem reaches_takeWhile (condition : Char → Bool) (text : List Char) (offset : Nat) :
    Reaches ⟨text, offset⟩ (Cursor.takeWhile condition text offset).2 := by
  rw [Cursor.takeWhile_eq]
  exact ⟨_, List.takeWhile_append_dropWhile.symm, rfl⟩

/-- A cursor can skip the characters of a text of one byte each that begins there. -/
theorem reaches_skip {cursor : Cursor} {text : String} (starts : cursor.startsWith text = true)
    (small : byteLength text.toList = text.length) : Reaches cursor (cursor.skip text.length) := by
  obtain ⟨rest, whole⟩ := List.isPrefixOf_iff_prefix.mp starts
  obtain ⟨characters, offset⟩ := cursor
  obtain rfl : text.toList ++ rest = characters := whole
  refine ⟨text.toList, ?_, by rw [Cursor.skip, small]⟩
  rw [Cursor.skip, ← String.length_toList, List.drop_left]

theorem reaches_of_templatePart? {characters read raw : List Char} {offset : Nat} {isLast : Bool} {after : Cursor}
    (part : templatePart? characters offset read = some (raw, isLast, after)) : Reaches ⟨characters, offset⟩ after := by
  fun_induction templatePart? characters offset read with
  | case1 => cases part
  | case2 c rest offset read ih =>
      obtain ⟨text, across⟩ := ih part
      rw [Nat.add_assoc] at across
      exact ⟨['\\', c] ++ text, across.append⟩
  | case3 rest offset read =>
      cases part
      exact ⟨['$', '\x7b'], rfl, rfl⟩
  | case4 c rest offset read _ _ closing =>
      cases part
      rw [eq_of_beq closing]
      exact ⟨[backquote], rfl, rfl⟩
  | case5 c rest offset read _ _ _ ih =>
      obtain ⟨text, across⟩ := ih part
      exact ⟨c :: text, across.cons⟩

theorem reaches_of_template? {cursor after : Cursor} {kind : TokenKind} (read : template? cursor = some (kind, after)) :
    Reaches cursor after := by
  obtain ⟨⟨raw, isLast, after'⟩, part, same⟩ := Option.map_eq_some_iff.mp read
  cases same
  exact reaches_of_templatePart? part

theorem reaches_of_pattern? {inClass : Bool} {characters read raw : List Char} {offset : Nat} {after : Cursor}
    (part : pattern? inClass characters offset read = some (raw, after)) : Reaches ⟨characters, offset⟩ after := by
  fun_induction pattern? inClass characters offset read with
  | case1 => cases part
  | case2 => cases part
  | case3 inClass c rest offset read _ ih =>
      obtain ⟨text, across⟩ := ih part
      rw [Nat.add_assoc] at across
      exact ⟨['\\', c] ++ text, across.append⟩
  | case4 => cases part
  | case5 inClass c rest offset read _ _ closing =>
      cases part
      obtain ⟨closing, -⟩ := Bool.and_eq_true_iff.mp closing
      rw [eq_of_beq closing]
      exact ⟨['/'], rfl, rfl⟩
  | case6 inClass c rest offset read _ _ _ ih =>
      obtain ⟨text, across⟩ := ih part
      exact ⟨c :: text, across.cons⟩

theorem reaches_of_regex? {cursor after : Cursor} {pattern flags : String}
    (read : regex? cursor = some (pattern, flags, after)) : Reaches cursor after := by
  obtain ⟨⟨raw, closed⟩, part, read⟩ := Option.bind_eq_some_iff.mp read
  dsimp only at read
  split_ifs at read
  cases read
  exact (reaches_of_pattern? part).trans (reaches_takeWhile _ closed.rest closed.offset)

theorem reaches_of_mark? {cursor after : Cursor} {kind : TokenKind} (read : mark? cursor = some (kind, after)) :
    Reaches cursor after := by
  obtain ⟨mark, member, -, starts, rfl, -⟩ := exists_mark_of_mark? read
  have small : ∀ mark ∈ marks, byteLength mark.toList = mark.length := by decide
  exact reaches_skip starts (small mark member)

/-- The first character of a mark has one byte. -/
theorem reaches_skip_of_mark? {cursor after : Cursor} {kind : TokenKind} (read : mark? cursor = some (kind, after)) :
    Reaches cursor (cursor.skip 1) := by
  obtain ⟨mark, member, -, starts, -⟩ := exists_mark_of_mark? read
  have small : ∀ mark ∈ marks, mark.toList.head?.map Char.utf8Size = some 1 := by decide
  obtain ⟨c, first, size⟩ := Option.map_eq_some_iff.mp (small mark member)
  obtain ⟨others, text_eq⟩ := List.head?_eq_some_iff.mp first
  obtain ⟨rest, whole⟩ := List.isPrefixOf_iff_prefix.mp starts
  obtain ⟨characters, offset⟩ := cursor
  obtain rfl : mark.toList ++ rest = characters := whole
  rw [text_eq]
  exact ⟨[c], rfl, by rw [Cursor.skip, ← size]; rfl⟩

theorem reaches_of_number? {cursor after : Cursor} {kind : TokenKind} (read : number? cursor = some (kind, after)) :
    Reaches cursor after := by
  obtain ⟨⟨numeral, width, rest⟩, numbered, read⟩ := Option.bind_eq_some_iff.mp read
  dsimp only at read
  split_ifs at read
  cases read
  exact reaches_of_behind (Literal.behind_of_numeral? numbered)

theorem reaches_of_name? {cursor after : Cursor} {name : String} {isEscaped : Bool}
    (named : name? cursor = some (name, isEscaped, after)) : Reaches cursor after := by
  obtain ⟨text, across, -⟩ := name?_eq_some named
  exact ⟨text, across⟩

/-- The cursor after a token is reached from the one on its first character. -/
theorem reaches_of_bare? {here after : Cursor} {kind : TokenKind} (read : bare? here = some (kind, after)) :
    Reaches here after := by
  obtain ⟨characters, offset⟩ := here
  cases characters with
  | nil =>
      cases read
      exact .refl _
  | cons c rest =>
      by_cases quote : c = '"' ∨ c = apostrophe
      · obtain ⟨_, _, text, _, across, _⟩ := exists_token_of_quoted? quote read
        exact ⟨text, across⟩
      · rw [bare?_cons] at read
        split_ifs at read with number _ template private_ name
        · exact reaches_of_number? read
        · simp_all
        · have first : Reaches ⟨c :: rest, offset⟩ (Cursor.skip ⟨c :: rest, offset⟩ 1) := by
            rw [eq_of_beq template]
            exact ⟨[backquote], rfl, rfl⟩
          exact first.trans (reaches_of_template? read)
        · have first : Reaches ⟨c :: rest, offset⟩ (Cursor.skip ⟨c :: rest, offset⟩ 1) := by
            rw [eq_of_beq private_]
            exact ⟨['#'], rfl, rfl⟩
          obtain ⟨⟨text, isEscaped, after'⟩, named, same⟩ := Option.map_eq_some_iff.mp read
          cases same
          exact first.trans (reaches_of_name? named)
        · obtain ⟨⟨text, isEscaped, after'⟩, named, same⟩ := Option.map_eq_some_iff.mp read
          cases same
          exact reaches_of_name? named
        · exact reaches_of_mark? read

theorem reaches_of_skipGap {place : GapPlace} {characters : List Char} {offset : Nat} {gap gap' : Gap} {here : Cursor}
    (skipped : skipGap place characters offset gap = some (here, gap')) : Reaches ⟨characters, offset⟩ here := by
  obtain ⟨text, across, -⟩ := exists_skips_of_skipGap skipped
  exact ⟨text, across⟩

theorem reaches_of_next? {previous : Option TokenKind} {cursor here after : Cursor} {token : Token}
    (read : next? previous cursor = some (token, here, after)) : Reaches cursor here ∧ Reaches here after := by
  obtain ⟨⟨_, _, skipped⟩, bare, -⟩ := steps_of_next? read
  exact ⟨reaches_of_skipGap skipped, reaches_of_bare? bare⟩

/-- The first character of a token that is a mark has one byte. -/
theorem reaches_skip_of_bare? {here after : Cursor} {mark : String} (read : bare? here = some (.mark mark, after)) :
    Reaches here (here.skip 1) := by
  obtain ⟨characters, offset⟩ := here
  cases characters with
  | nil => cases read
  | cons c rest =>
      rw [bare?_cons] at read
      split_ifs at read
      · obtain ⟨⟨numeral, width, others⟩, -, read⟩ := Option.bind_eq_some_iff.mp read
        dsimp only at read
        split_ifs at read
        cases numeral <;> cases read
      · obtain ⟨_, -, read⟩ := Option.bind_eq_some_iff.mp read
        obtain ⟨_, -, read⟩ := Option.bind_eq_some_iff.mp read
        cases read
      · obtain ⟨_, -, same⟩ := Option.map_eq_some_iff.mp read
        cases same
      · obtain ⟨_, -, same⟩ := Option.map_eq_some_iff.mp read
        cases same
      · obtain ⟨_, -, same⟩ := Option.map_eq_some_iff.mp read
        cases same
      · exact reaches_skip_of_mark? read

theorem reaches_skip_of_next? {previous : Option TokenKind} {cursor here after : Cursor} {token : Token} {mark : String}
    (read : next? previous cursor = some (token, here, after)) (kind_eq : token.kind = .mark mark) :
    Reaches here (here.skip 1) := by
  obtain ⟨-, bare, -⟩ := steps_of_next? read
  rw [kind_eq] at bare
  exact reaches_skip_of_bare? bare

/-! ## Markup -/

theorem reaches_of_markupName? {cursor after : Cursor} {name : String}
    (read : markupName? cursor = some (name, after)) :
    Reaches cursor after := by
  obtain ⟨characters, offset⟩ := cursor
  unfold markupName? at read
  split at read
  · cases read
  · split_ifs at read
    cases read
    exact reaches_takeWhile _ _ _

theorem reaches_of_afterMarkupText? {quote : Char} (small : quote.utf8Size = 1) {characters : List Char} {offset : Nat}
    {after : Cursor} (read : afterMarkupText? quote characters offset = some after) :
    Reaches ⟨characters, offset⟩ after := by
  fun_induction afterMarkupText? quote characters offset with
  | case1 => cases read
  | case2 c rest offset closing =>
      cases read
      obtain rfl := eq_of_beq closing
      exact ⟨[c], rfl, by rw [byteLength, small]; rfl⟩
  | case3 c rest offset _ ih =>
      obtain ⟨text, across⟩ := ih read
      exact ⟨c :: text, across.cons⟩

theorem reaches_of_afterContent? {characters : List Char} {offset : Nat} {after : Cursor}
    (read : afterContent? characters offset = some after) : Reaches ⟨characters, offset⟩ after := by
  fun_induction afterContent? characters offset with
  | case1 | case2 =>
      cases read
      exact .refl _
  | case3 => cases read
  | case4 c rest offset _ _ ih =>
      obtain ⟨text, across⟩ := ih read
      exact ⟨c :: text, across.cons⟩

end Lexer

end Storyboard
