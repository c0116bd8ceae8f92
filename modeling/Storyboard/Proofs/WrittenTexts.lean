import Storyboard.Code.Printer.Statement
import Storyboard.Proofs.ExpectedTokens

/-!
# Written texts

A layout continues a page by a text that depends on nothing but the page. The text of a module consists of the texts of
its statements one after the other, between a line that names an interpreter and the last comments. A text that is
skipped in front of a token is skipped wherever it stands, so gaps can be put together.
-/

namespace Storyboard

open Text (byteLength byteLength_append)

/-! ## Texts of layouts -/

namespace Page

/-- The characters that indent a line of a page. -/
def indentation (page : Page) (depth : Nat) : List Char :=
  if page.joins then [' '] else List.replicate depth '\t'

/-- The characters with which a piece continues a page. -/
def textOf (page : Page) : Piece → List Char
  | .text value => value.toList
  | .indent depth => page.indentation depth
  | .freshLine depth =>
    match page.written with
    | [] => []
    | '\t' :: _ => []
    | '\n' :: _ => page.indentation depth
    | _ => '\n' :: page.indentation depth
  | .joinNext => []
  | .splitNext => []

theorem written_indent (page : Page) (depth : Nat) :
    (page.indent depth).written = (page.indentation depth).reverse ++ page.written := by
  unfold indent indentation
  split <;> simp [repeated]

theorem written_add (page : Page) (piece : Piece) :
    (page.add piece).written = (page.textOf piece).reverse ++ page.written := by
  cases piece with
  | text value => rfl
  | indent depth => exact page.written_indent depth
  | joinNext | splitNext => rfl
  | freshLine depth =>
      simp only [add, textOf]
      split
      · simp [*]
      · simp [*]
      · simp [*, written_indent]
      · simp [*, written_indent, repeated, indentation]

end Page

namespace Layout

/-- The characters with which pieces continue a page. -/
def textOn : Page → List Piece → List Char
  | _, [] => []
  | page, piece :: pieces => page.textOf piece ++ textOn (page.add piece) pieces

theorem textOn_cons (page : Page) (piece : Piece) (pieces : List Piece) :
    textOn page (piece :: pieces) = page.textOf piece ++ textOn (page.add piece) pieces := rfl

theorem textOn_append (page : Page) (first second : List Piece) :
    textOn page (first ++ second) = textOn page first ++ textOn (first.foldl Page.add page) second := by
  induction first generalizing page with
  | nil => rfl
  | cons piece first ih => simp [textOn_cons, ih]

theorem written_foldl_add (page : Page) (pieces : List Piece) :
    (pieces.foldl Page.add page).written = (textOn page pieces).reverse ++ page.written := by
  induction pieces generalizing page with
  | nil => rfl
  | cons piece pieces ih => simp [textOn_cons, ih, Page.written_add]

theorem toList_render (layout : Layout) : layout.render.toList = textOn {} layout.pieces := by
  simp [render, written_foldl_add]

/-- The texts of layouts that continue a page one after the other. -/
def textsOn : Page → List Layout → List (List Char)
  | _, [] => []
  | page, layout :: others => textOn page layout.pieces :: textsOn (layout.pieces.foldl Page.add page) others

theorem textsOn_cons (page : Page) (layout : Layout) (others : List Layout) :
    textsOn page (layout :: others) =
      textOn page layout.pieces :: textsOn (layout.pieces.foldl Page.add page) others := rfl

theorem flatten_textsOn (page : Page) (layouts : List Layout) :
    (textsOn page layouts).flatten = textOn page (layouts.flatMap pieces) := by
  induction layouts generalizing page with
  | nil => rfl
  | cons layout others ih => simp [textsOn_cons, ih, textOn_append]

/-- Each of the texts is that of its layout on some page. -/
theorem exists_page_of_mem_zip {α : Type} {layout : α → Layout} {page : Page} {items : List α} {piece : α × List Char}
    (member : piece ∈ items.zip (textsOn page (items.map layout))) :
    ∃ page', piece.2 = textOn page' (layout piece.1).pieces := by
  induction items generalizing page with
  | nil => cases member
  | cons item items ih =>
      rcases List.mem_cons.mp member with rfl | member
      · exact ⟨page, rfl⟩
      · exact ih member

theorem length_textsOn (page : Page) (layouts : List Layout) : (textsOn page layouts).length = layouts.length := by
  induction layouts generalizing page with
  | nil => rfl
  | cons layout others ih => simp [textsOn_cons, ih]

end Layout

/-! ## Texts of modules -/

namespace Printer

/-- The layout of a first statement; a lone text takes parentheses. -/
def firstLayout (write : Writer) (s : Setting) (statement : Node) : Layout :=
  match loneText? write s statement with
  | some content => "(" ++ content ++ ");\n"
  | none => write (s.right 0) statement

/-- The layouts of the statements of a function or module. -/
def outerLayouts (write : Writer) (s : Setting) : List Node → List Layout
  | [] => []
  | first :: others => firstLayout write s first :: others.map (write (s.right 0))

theorem pieces_outerStatements (write : Writer) (s : Setting) (body : List Node) :
    (outerStatements write s body).pieces = (outerLayouts write s body).flatMap Layout.pieces := by
  cases body with
  | nil => rfl
  | cons first others =>
      have rest : (statements write s others).pieces = (others.map (write (s.right 0))).flatMap Layout.pieces := rfl
      rw [outerStatements, outerLayouts, List.flatMap_cons, firstLayout]
      cases loneText? write s first with
      | some content => exact congrArg (Layout.pieces ("(" ++ content ++ ");\n") ++ ·) rest
      | none => rfl

theorem length_outerLayouts (write : Writer) (s : Setting) (body : List Node) :
    (outerLayouts write s body).length = body.length := by
  cases body <;> simp [outerLayouts]

end Printer

namespace SourceModule

/-- The comments of a module with their texts. -/
def writtenComments (module : SourceModule) (source : String) : List Printer.WrittenComment :=
  module.comments.map fun comment =>
    { text := Text.sliceString source comment.span.start comment.span.stop, comment }

/-- The surroundings of the statements of a module. -/
def setting (module : SourceModule) (source : String) : Printer.Setting := { comments := module.writtenComments source }

/-- The line that names an interpreter, if there is one. -/
def opening (source : String) : List Char :=
  match interpreterLine? source.toList with
  | some line => line ++ ['\n']
  | none => []

/-- The page on which the opening has been written. -/
def openingPage (source : String) : Page := { written := (opening source).reverse }

/-- The layouts of statements in the place of those of a module. -/
def layouts (module : SourceModule) (source : String) (body : List Node) : List Layout :=
  Printer.outerLayouts (Printer.write ((body.map Node.height).foldl max 0)) (module.setting source) body

/-- The texts that are written for statements in the place of those of a module. -/
def texts (module : SourceModule) (source : String) (body : List Node) : List (List Char) :=
  Layout.textsOn (openingPage source) (module.layouts source body)

/-- The text that is written behind the statements. -/
def ending (module : SourceModule) (source : String) (body : List Node) : List Char :=
  Layout.textOn (((module.layouts source body).flatMap Layout.pieces).foldl Page.add (openingPage source))
    (Printer.leadingComments (module.setting source) source.utf8ByteSize).pieces

theorem length_texts (module : SourceModule) (source : String) (body : List Node) :
    (module.texts source body).length = body.length := by
  rw [texts, Layout.length_textsOn, layouts, Printer.length_outerLayouts]

theorem toList_print (module : SourceModule) (source : String) (body : List Node) :
    (module.print source body).toList =
      opening source ++ ((module.texts source body).flatten ++ module.ending source body) := by
  have written : ∀ first : Layout, Layout.textOn {} first.pieces = opening source →
      first.pieces.foldl Page.add {} = openingPage source →
      (first ++ Printer.outerStatements (Printer.write ((body.map Node.height).foldl max 0)) (module.setting source) body ++
        Printer.leadingComments (module.setting source) source.utf8ByteSize).render.toList =
          opening source ++ ((module.texts source body).flatten ++ module.ending source body) := by
    intro first text_eq page_eq
    rw [Layout.toList_render, Layout.pieces_append, Layout.pieces_append, Printer.pieces_outerStatements,
      Layout.textOn_append, Layout.textOn_append, List.foldl_append, text_eq, page_eq, List.append_assoc, texts,
      Layout.flatten_textsOn]
    rfl
  cases line_eq : interpreterLine? source.toList with
  | some line =>
      have opening_eq : opening source = line ++ ['\n'] := by rw [opening, line_eq]
      have same := written (.text (String.ofList line ++ "\n"))
        (by simp [Layout.text, Layout.textOn, Page.textOf, opening_eq])
        (by simp [Layout.text, Page.add, openingPage, opening_eq])
      rw [print, line_eq]
      exact same
  | none =>
      have opening_eq : opening source = [] := by rw [opening, line_eq]
      have same := written .empty (by rw [opening_eq]; rfl) (by rw [openingPage, opening_eq]; rfl)
      rw [print, line_eq]
      exact same

end SourceModule

/-! ## Texts that are skipped -/

namespace Lexer

/-- What is skipped in front of a token is skipped in front of anything. -/
theorem skipGap_append {place : GapPlace} {text : List Char}
    (skipped : ∃ promise start offset gap stop gap',
      skipGap (place.inComment promise start) (text ++ ['x']) offset gap = some (⟨['x'], stop⟩, gap')) :
    ∀ promise start rest offset gap, ∃ gap',
      skipGap (place.inComment promise start) (text ++ rest) offset gap =
        skipGap .between rest (offset + byteLength text) gap' := by
  obtain ⟨promise, start, before, seen, stop, gap', skipped⟩ := skipped
  obtain ⟨offset, gap⟩ : Nat × Gap := (before, seen)
  fun_induction skipGap place text offset gap generalizing promise start before seen with
  | case1 others offset gap ih =>
      intro _ _ rest offset' gap
      obtain ⟨gap', same⟩ := ih _ _ _ _ skipped (promise? (lineText (others ++ rest))) offset' rest (offset' + 2) gap
      exact ⟨gap', by rw [byteLength_comment ⟨rfl, rfl⟩]; exact same⟩
  | case2 others offset gap ih =>
      intro _ _ rest offset' gap
      obtain ⟨gap', same⟩ := ih _ _ _ _ skipped (promise? (others ++ rest)) offset' rest (offset' + 2) gap
      exact ⟨gap', by rw [byteLength_comment ⟨rfl, rfl⟩]; exact same⟩
  | case3 c others offset gap no_line no_block ends ih =>
      obtain ⟨change, step⟩ := skipGap_of_blank (.inl ends)
      rw [GapPlace.inComment, List.cons_append, step] at skipped
      intro promise start rest offset' gap
      rw [GapPlace.inComment, List.cons_append, step, byteLength, ← Nat.add_assoc]
      exact ih promise start _ _ skipped promise start rest _ _
  | case4 c others offset gap no_line no_block goes_on blank ih =>
      obtain ⟨change, step⟩ := skipGap_of_blank (.inr blank)
      rw [GapPlace.inComment, List.cons_append, step] at skipped
      intro promise start rest offset' gap
      rw [GapPlace.inComment, List.cons_append, step, byteLength, ← Nat.add_assoc]
      exact ih promise start _ _ skipped promise start rest _ _
  | case5 c others offset gap no_line no_block goes_on no_blank =>
      rw [GapPlace.inComment, List.cons_append, skipGap, if_neg goes_on, if_neg no_blank] at skipped
      · cases others <;> cases skipped
      · rintro rest rfl same
        cases others with
        | nil => cases same
        | cons c others => exact no_line _ rfl (by rw [(List.cons.inj same).1])
      · rintro rest rfl same
        cases others with
        | nil => cases same
        | cons c others => exact no_block _ rfl (by rw [(List.cons.inj same).1])
  | case6 => exact fun _ _ rest offset gap => ⟨gap, rfl⟩
  | case7 promise' start' c others offset gap ends ih =>
      rw [GapPlace.inComment, List.cons_append, skipGap_inLine_cons, if_pos ends] at skipped
      intro promise start rest offset' gap
      rw [GapPlace.inComment, List.cons_append, skipGap_inLine_cons, if_pos ends, byteLength, ← Nat.add_assoc]
      exact ih promise start _ _ skipped promise start rest _ _
  | case8 promise' start' c others offset gap goes_on ih =>
      rw [GapPlace.inComment, List.cons_append, skipGap_inLine_cons, if_neg goes_on] at skipped
      intro promise start rest offset' gap
      rw [GapPlace.inComment, List.cons_append, skipGap_inLine_cons, if_neg goes_on, byteLength, ← Nat.add_assoc]
      exact ih _ _ _ _ skipped promise start rest _ _
  | case9 =>
      rw [GapPlace.inComment, List.nil_append, skipGap_inLine_cons, if_neg (by decide)] at skipped
      cases skipped
  | case10 promise' start' others offset gap ih =>
      intro promise start rest offset' gap
      rw [byteLength_comment ⟨rfl, rfl⟩]
      exact ih promise start _ _ skipped promise start rest _ _
  | case11 promise' start' c others offset gap open_ ih =>
      cases others with
      | nil =>
          have still_open : ∀ others, c = '*' → ['x'] = '/' :: others → False :=
            fun _ _ same => absurd (List.cons.inj same).1 (by decide)
          rw [GapPlace.inComment, List.singleton_append, skipGap_inBlock_cons still_open] at skipped
          cases skipped
      | cons next others =>
          have stays : ∀ more others', c = '*' → next :: others ++ more = '/' :: others' → False :=
            fun more others' star same => open_ others star (by rw [(List.cons.inj same).1])
          rw [GapPlace.inComment, List.cons_append, skipGap_inBlock_cons (stays _)] at skipped
          intro promise start rest offset' gap
          rw [GapPlace.inComment, List.cons_append, skipGap_inBlock_cons (stays _), byteLength, ← Nat.add_assoc]
          exact ih _ _ _ _ skipped promise start rest _ _
  | case12 => cases skipped

theorem Skips.skipGap_append {text : List Char} (skips : Skips .between text) (rest : List Char) (offset : Nat)
    (gap : Gap) :
    ∃ gap', skipGap .between (text ++ rest) offset gap = skipGap .between rest (offset + byteLength text) gap' := by
  have begins : Begins 'x' := by constructor <;> decide
  obtain ⟨gap', skipped⟩ := skips none 0 'x' [] offset gap begins
  exact Lexer.skipGap_append ⟨_, _, _, _, _, _, skipped⟩ none 0 rest offset gap

theorem Skips.append {first second : List Char} (skips : Skips .between first) (others : Skips .between second) :
    Skips .between (first ++ second) := by
  intro promise start c rest offset gap begins
  obtain ⟨gap', same⟩ := skips.skipGap_append (second ++ c :: rest) offset gap
  obtain ⟨gap'', skipped⟩ := others promise start c rest (offset + byteLength first) gap' begins
  refine ⟨gap'', ?_⟩
  rw [byteLength_append, ← Nat.add_assoc, List.append_assoc]
  exact same.trans skipped

/-- A text that is skipped has no token. -/
theorem next?_of_skips {text : List Char} (skips : Skips .between text) (previous : Option TokenKind) (offset : Nat) :
    ∃ token here after, next? previous ⟨text, offset⟩ = some (token, here, after) ∧ token.kind = .finish := by
  obtain ⟨gap, skipped⟩ := skips.skipGap_append [] offset {
    sawLineEnd := previous.isNone
    atLineStart := previous.isNone
    crossesLine := previous.isNone
    keepsLineComment := (previous.map keepsLineComment).getD false }
  rw [List.append_nil] at skipped
  rw [next?]
  dsimp only
  rw [skipped]
  simp [skipGap, Cursor.startsWith, bare?]

end Lexer

end Storyboard
