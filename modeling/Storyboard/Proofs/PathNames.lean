import Mathlib.Data.List.Basic
import Storyboard.Files.Disk

/-!
# The names of paths

Splitting a text at its slashes undoes joining names with them. So a path that continues another one after a
slash has the names of that one and more; the path above a path is continued by it in this way, and so is a
path by what is joined to it.
-/

namespace Storyboard

/-! ## Splitting and joining -/

@[simp] theorem splitSlashes_nil : splitSlashes [] = [[]] := rfl

@[simp] theorem splitSlashes_cons_slash (rest : List Char) :
    splitSlashes ('/' :: rest) = [] :: splitSlashes rest := rfl

/-- There is a piece, and a character that is no slash belongs to the first one. -/
theorem exists_splitSlashes_eq (text : List Char) :
    ∃ piece others, splitSlashes text = piece :: others ∧
      ∀ c ≠ '/', splitSlashes (c :: text) = (c :: piece) :: others := by
  have some_piece : ∃ piece others, splitSlashes text = piece :: others := by
    cases text with
    | nil => exact ⟨[], [], rfl⟩
    | cons c rest =>
        rw [splitSlashes]
        split
        · exact ⟨_, _, rfl⟩
        · split <;> exact ⟨_, _, rfl⟩
  obtain ⟨piece, others, split⟩ := some_piece
  refine ⟨piece, others, split, fun c other => ?_⟩
  rw [splitSlashes, split, beq_false_of_ne other]
  rfl

theorem splitSlashes_ne_nil (text : List Char) : splitSlashes text ≠ [] := by
  obtain ⟨piece, others, split, -⟩ := exists_splitSlashes_eq text
  simp [split]

theorem splitSlashes_cons {c : Char} (other : c ≠ '/') (rest : List Char) :
    ∃ piece others, splitSlashes rest = piece :: others ∧ splitSlashes (c :: rest) = (c :: piece) :: others := by
  obtain ⟨piece, others, split, split_cons⟩ := exists_splitSlashes_eq rest
  exact ⟨piece, others, split, split_cons c other⟩

theorem splitSlashes_append (text rest : List Char) :
    splitSlashes (text ++ '/' :: rest) = splitSlashes text ++ splitSlashes rest := by
  induction text with
  | nil => rfl
  | cons c text ih =>
      by_cases slash : c = '/'
      · subst slash
        simp [ih]
      · obtain ⟨piece, others, split, split_cons⟩ := splitSlashes_cons slash text
        obtain ⟨piece', others', split', split_cons'⟩ := splitSlashes_cons slash (text ++ '/' :: rest)
        rw [ih, split, List.cons_append, List.cons.injEq] at split'
        rw [List.cons_append, split_cons', split_cons, List.cons_append, split'.1, split'.2]

theorem splitSlashes_of_notMem {text : List Char} (whole : '/' ∉ text) : splitSlashes text = [text] := by
  induction text with
  | nil => rfl
  | cons c text ih =>
      rw [List.mem_cons, not_or] at whole
      obtain ⟨piece, others, split, split_cons⟩ := splitSlashes_cons (Ne.symm whole.1) text
      rw [ih whole.2] at split
      obtain ⟨rfl, rfl⟩ := List.cons.inj split
      exact split_cons

theorem slash_notMem_of_mem_splitSlashes {text piece : List Char} (member : piece ∈ splitSlashes text) :
    '/' ∉ piece := by
  induction text generalizing piece with
  | nil => simp_all
  | cons c text ih =>
      by_cases slash : c = '/'
      · subst slash
        rw [splitSlashes_cons_slash, List.mem_cons] at member
        rcases member with rfl | later
        · simp
        · exact ih later
      · obtain ⟨first, others, split, split_cons⟩ := splitSlashes_cons slash text
        rw [split_cons, List.mem_cons] at member
        rcases member with rfl | later
        · have clean : '/' ∉ first := ih (by simp [split])
          simp [clean, Ne.symm slash]
        · exact ih (by simp [split, later])

theorem length_splitSlashes_le (text : List Char) : (splitSlashes text).length ≤ text.length + 1 := by
  induction text with
  | nil => exact Nat.le_refl 1
  | cons c text ih =>
      by_cases slash : c = '/'
      · subst slash
        rw [splitSlashes_cons_slash, List.length_cons, List.length_cons]
        omega
      · obtain ⟨piece, others, split, split_cons⟩ := splitSlashes_cons slash text
        rw [split, List.length_cons] at ih
        rw [split_cons, List.length_cons, List.length_cons]
        omega

theorem intercalate_splitSlashes (text : List Char) : ['/'].intercalate (splitSlashes text) = text := by
  induction text with
  | nil => rfl
  | cons c text ih =>
      by_cases slash : c = '/'
      · subst slash
        obtain ⟨piece, others, split⟩ := List.exists_cons_of_ne_nil (splitSlashes_ne_nil text)
        rw [splitSlashes_cons_slash, split, List.intercalate_cons_cons, ← split, ih]
        rfl
      · obtain ⟨piece, others, split, split_cons⟩ := splitSlashes_cons slash text
        rw [split] at ih
        rw [split_cons]
        cases others with
        | nil => simpa using ih
        | cons next others =>
            rw [List.intercalate_cons_cons] at ih ⊢
            simpa using ih

theorem splitSlashes_intercalate {pieces : List (List Char)} (some_piece : pieces ≠ [])
    (clean : ∀ piece ∈ pieces, '/' ∉ piece) : splitSlashes (['/'].intercalate pieces) = pieces := by
  induction pieces with
  | nil => exact absurd rfl some_piece
  | cons piece others ih =>
      have whole := splitSlashes_of_notMem (clean piece List.mem_cons_self)
      cases others with
      | nil => simpa using whole
      | cons next others =>
          have later := ih (by simp) fun other member => clean other (List.mem_cons_of_mem _ member)
          rw [List.intercalate_cons_cons, List.append_assoc, List.singleton_append, splitSlashes_append, whole,
            later]
          rfl

theorem intercalate_append {first second : List (List Char)} (some_first : first ≠ [])
    (some_second : second ≠ []) :
    ['/'].intercalate (first ++ second) = ['/'].intercalate first ++ '/' :: ['/'].intercalate second := by
  induction first with
  | nil => exact absurd rfl some_first
  | cons piece others ih =>
      cases others with
      | nil =>
          obtain ⟨next, rest, rfl⟩ := List.exists_cons_of_ne_nil some_second
          simp [List.intercalate_cons_cons]
      | cons next others =>
          rw [List.cons_append, List.cons_append, List.intercalate_cons_cons, List.intercalate_cons_cons,
            ← List.cons_append, ih (by simp)]
          simp

namespace Path

/-- The pieces of a text between slashes. -/
def split (text : String) : List String := (splitSlashes text.toList).map String.ofList

theorem split_append (text rest : String) : split (text ++ "/" ++ rest) = split text ++ split rest := by
  have parts : (text ++ "/" ++ rest).toList = text.toList ++ '/' :: rest.toList := by simp
  change (splitSlashes (text ++ "/" ++ rest).toList).map String.ofList = _
  rw [parts, splitSlashes_append, List.map_append]
  rfl

theorem length_split_le (text : String) : (split text).length ≤ text.length + 1 :=
  calc (split text).length = (splitSlashes text.toList).length := List.length_map _
    _ ≤ text.toList.length + 1 := length_splitSlashes_le text.toList
    _ = text.length + 1 := by rw [String.length_toList]

theorem isAbsolute_iff {path : String} : isAbsolute path = true ↔ ∃ rest, path = "/" ++ rest := by
  rw [isAbsolute, String.startsWith_string_iff]
  constructor
  · rintro ⟨rest, parts⟩
    exact ⟨String.ofList rest, by rw [← String.toList_inj]; simpa using parts.symm⟩
  · rintro ⟨rest, rfl⟩
    exact ⟨rest.toList, by simp⟩

theorem isAbsolute_slash (rest : String) : isAbsolute ("/" ++ rest) = true := by
  rw [isAbsolute_iff]
  exact ⟨rest, rfl⟩

theorem endsWith_slash_iff {path : String} : path.endsWith "/" = true ↔ ∃ front, path = front ++ "/" := by
  rw [String.endsWith_eq_endsWith_toSlice, String.Slice.endsWith_string_iff]
  constructor
  · rintro ⟨front, parts⟩
    exact ⟨String.ofList front, by rw [← String.toList_inj]; simpa using parts.symm⟩
  · rintro ⟨front, rfl⟩
    exact ⟨front.toList, by simp⟩

theorem pieces_of_relative {path : String} (relative : isAbsolute path = false) : pieces path = split path := by
  simp [pieces, relative, split]

theorem pieces_absolute (rest : String) : pieces ("/" ++ rest) = split rest := by
  simp [pieces, isAbsolute_slash, split]

theorem intercalate_split (text : String) : "/".intercalate (split text) = text := by
  have same : String.toList ∘ String.ofList = id := funext fun _ => String.toList_ofList
  rw [← String.toList_inj, String.toList_intercalate, split, List.map_map, same, List.map_id]
  exact intercalate_splitSlashes text.toList

theorem intercalate_append {first second : List String} (some_first : first ≠ []) (some_second : second ≠ []) :
    "/".intercalate (first ++ second) = "/".intercalate first ++ "/" ++ "/".intercalate second := by
  rw [← String.toList_inj]
  simp only [String.toList_intercalate, String.toList_append, List.map_append]
  rw [show "/".toList = ['/'] from rfl,
    Storyboard.intercalate_append (by simpa using some_first) (by simpa using some_second)]
  simp

theorem slash_notMem_of_mem_split {text piece : String} (member : piece ∈ split text) : '/' ∉ piece.toList := by
  obtain ⟨chars, chars_mem, rfl⟩ := List.mem_map.mp member
  rw [String.toList_ofList]
  exact slash_notMem_of_mem_splitSlashes chars_mem

theorem slash_notMem_of_mem_pieces {path piece : String} (member : piece ∈ pieces path) : '/' ∉ piece.toList := by
  cases absolute : isAbsolute path with
  | false =>
      rw [pieces_of_relative absolute] at member
      exact slash_notMem_of_mem_split member
  | true =>
      rw [isAbsolute_iff] at absolute
      obtain ⟨rest, rfl⟩ := absolute
      rw [pieces_absolute] at member
      exact slash_notMem_of_mem_split member

theorem split_intercalate {pieces : List String} (some_piece : pieces ≠ [])
    (clean : ∀ piece ∈ pieces, '/' ∉ piece.toList) : split ("/".intercalate pieces) = pieces := by
  have same : String.ofList ∘ String.toList = id := funext fun _ => String.ofList_toList
  rw [split, String.toList_intercalate, show "/".toList = ['/'] from rfl,
    splitSlashes_intercalate (by simpa using some_piece) (by simpa using clean), List.map_map, same, List.map_id]

theorem ofPieces_pieces (path : String) : ofPieces (isAbsolute path) (pieces path) = path := by
  cases absolute : isAbsolute path with
  | false => simp [ofPieces, pieces_of_relative absolute, intercalate_split]
  | true =>
      rw [isAbsolute_iff] at absolute
      obtain ⟨rest, rfl⟩ := absolute
      rw [ofPieces, pieces_absolute, intercalate_split, if_pos rfl]

theorem isIdle_false : isIdle false = Disk.stays := by
  funext piece
  simp [isIdle, Disk.stays]

/-- The names that lead on, up or down. -/
def busy (names : List String) : List String := names.filter fun name => !Disk.stays name

theorem busy_cons_of_stays {name : String} (idle : Disk.stays name = true) (names : List String) :
    busy (name :: names) = busy names :=
  List.filter_cons_of_neg (by simp [idle])

theorem busy_cons_of_moves {name : String} (moves : Disk.stays name = false) (names : List String) :
    busy (name :: names) = name :: busy names :=
  List.filter_cons_of_pos (by simp [moves])

theorem busy_append (names more : List String) : busy (names ++ more) = busy names ++ busy more :=
  List.filter_append ..

theorem busy_eq_nil {names : List String} (idle : names.all Disk.stays = true) : busy names = [] := by
  simpa [busy] using idle

theorem busy_pieces (path : String) : busy (pieces path) = busy (split path) := by
  cases absolute : isAbsolute path with
  | false => rw [pieces_of_relative absolute]
  | true =>
      rw [isAbsolute_iff] at absolute
      obtain ⟨rest, rfl⟩ := absolute
      rw [pieces_absolute, ← String.empty_append (s := "/"), split_append, busy_append]
      rfl

/-- Pieces that are dropped at the end mean nothing. -/
theorem trimEnd_append (absolute : Bool) (pieces : List String) :
    ∃ dropped, trimEnd absolute pieces ++ dropped = pieces ∧ dropped.all Disk.stays = true := by
  cases pieces with
  | nil => exact ⟨[], rfl, rfl⟩
  | cons first rest =>
      have whole : rest = (rest.reverse.dropWhile (isIdle false)).reverse ++
          (rest.reverse.takeWhile (isIdle false)).reverse := by
        rw [← List.reverse_append, List.takeWhile_append_dropWhile, List.reverse_reverse]
      have idle : (rest.reverse.takeWhile (isIdle false)).reverse.all Disk.stays = true := by
        rw [List.all_reverse, ← isIdle_false, List.all_takeWhile]
      rw [trimEnd]
      split
      · rename_i nothing
        rw [nothing, List.reverse_nil, List.nil_append] at whole
        rw [← whole] at idle
        split_ifs with first_idle
        · have first_stays : Disk.stays first = true := by
            rw [isIdle, Bool.or_eq_true, Bool.and_eq_true] at first_idle
            rw [Disk.stays, Bool.or_eq_true]
            exact first_idle.imp id And.left
          exact ⟨first :: rest, rfl, by rw [List.all_cons, first_stays, idle, Bool.and_self]⟩
        · exact ⟨rest, rfl, idle⟩
      · exact ⟨_, by rw [List.cons_append, ← whole], idle⟩

/-- What is left after the first piece ends with a piece that means something. -/
theorem stays_eq_false_of_trimEnd {absolute : Bool} {pieces front : List String} {last : String}
    (kept : trimEnd absolute pieces = front ++ [last]) (some_front : front ≠ []) : Disk.stays last = false := by
  obtain ⟨first, others, rfl⟩ := List.exists_cons_of_ne_nil some_front
  cases pieces with
  | nil => simp [trimEnd] at kept
  | cons first' rest =>
      rw [trimEnd] at kept
      split at kept
      · split_ifs at kept <;> simp at kept
      · rename_i some_kept
        have tail := (List.cons.inj kept).2
        have head := List.head?_dropWhile_not (isIdle false) rest.reverse
        have reversed : rest.reverse.dropWhile (isIdle false) = last :: others.reverse := by
          rw [← List.reverse_reverse (List.dropWhile _ _), tail]
          exact List.reverse_append
        rw [reversed, isIdle_false] at head
        exact head

/-- The path above a path is nothing or the root, if at most one piece of the path leads on; or the path
continues it after a slash by one piece that leads on. -/
theorem parent?_cases {path above : String} (is_above : parent? path = some above) :
    (above = "" ∨ above = "/") ∧ (busy (split path)).length ≤ 1 ∨
      ∃ rest last, path = above ++ "/" ++ rest ∧ busy (split rest) = [last] := by
  simp only [parent?] at is_above
  split at is_above
  · cases is_above
  · rename_i last others reversed
    rw [Option.some.injEq] at is_above
    have whole : trimEnd (isAbsolute path) (pieces path) = others.reverse ++ [last] := by
      rw [← List.reverse_reverse (trimEnd _ _), reversed, List.reverse_cons]
    obtain ⟨dropped, pieces_eq, dropped_idle⟩ := trimEnd_append (isAbsolute path) (pieces path)
    obtain ⟨idle, kept_eq, all_idle⟩ := trimEnd_append (isAbsolute path) others.reverse
    have ends_busy : others.reverse ≠ [] → Disk.stays last = false := stays_eq_false_of_trimEnd whole
    generalize trimEnd (isAbsolute path) others.reverse = kept at is_above kept_eq
    have split_eq : pieces path = kept ++ (idle ++ [last] ++ dropped) := by
      rw [← pieces_eq, whole, ← kept_eq]
      simp
    have text := ofPieces_pieces path
    rw [split_eq] at text
    cases kept with
    | nil =>
        refine .inl ⟨?_, ?_⟩
        · cases absolute : isAbsolute path with
          | false => exact .inl (by rw [← is_above, absolute]; rfl)
          | true => exact .inr (by rw [← is_above, absolute]; rfl)
        · rw [← busy_pieces, split_eq, List.nil_append, busy_append, busy_append, busy_eq_nil all_idle,
            busy_eq_nil dropped_idle, List.append_nil, List.nil_append]
          exact List.length_filter_le _ _
    | cons first kept =>
        have last_busy : Disk.stays last = false := ends_busy (by rw [← kept_eq]; simp)
        refine .inr ⟨"/".intercalate (idle ++ [last] ++ dropped), last, ?_, ?_⟩
        · rw [← text, ← is_above, ofPieces, ofPieces, intercalate_append (by simp) (by simp)]
          simp [String.append_assoc]
        · have clean : ∀ piece ∈ idle ++ [last] ++ dropped, '/' ∉ piece.toList := fun piece member =>
            slash_notMem_of_mem_pieces (split_eq ▸ List.mem_append_right _ member)
          rw [split_intercalate (by simp) clean, busy_append, busy_append, busy_eq_nil all_idle,
            busy_eq_nil dropped_idle, busy_cons_of_moves last_busy]
          rfl

theorem exists_parent? {path : String} (some_busy : busy (split path) ≠ []) : ∃ above, parent? path = some above := by
  simp only [parent?]
  split
  · rename_i nothing
    obtain ⟨dropped, pieces_eq, dropped_idle⟩ := trimEnd_append (isAbsolute path) (pieces path)
    rw [List.reverse_eq_nil_iff.mp nothing, List.nil_append] at pieces_eq
    rw [← busy_pieces, ← pieces_eq, busy_eq_nil dropped_idle] at some_busy
    exact absurd rfl some_busy
  · exact ⟨_, rfl⟩

theorem eq_empty_or_ends_of_append {front text rest : String} (ends : front ++ rest = text ++ "/") :
    rest = "" ∨ ∃ before, rest = before ++ "/" := by
  rcases List.eq_nil_or_concat rest.toList with nothing | ⟨before, last, concat⟩
  · exact .inl (String.toList_eq_nil_iff.mp nothing)
  · have lists := congrArg String.toList ends
    rw [String.toList_append, String.toList_append, concat, List.concat_eq_append, ← List.append_assoc] at lists
    have same : [last] = "/".toList := (List.append_inj' lists rfl).2
    refine .inr ⟨String.ofList before, ?_⟩
    rw [← String.toList_inj, concat, List.concat_eq_append, same]
    simp

end Path

/-! ## Names below the root -/

namespace Disk

/-- The names of a path below the root are those of what follows the root in it. -/
theorem namesBelowRoot?_eq_some_iff {disk : Disk} {path : String} {names : List String} :
    disk.namesBelowRoot? path = some names ↔
      (path = disk.root ∧ names = []) ∨
        ∃ rest, path = disk.root ++ "/" ++ rest ∧ names = Path.split rest := by
  by_cases root : path = disk.root
  · have longer : ∀ rest, disk.root ≠ disk.root ++ "/" ++ rest := by
      intro rest same
      have lengths := congrArg String.length same
      simp only [String.length_append] at lengths
      have slash : "/".length = 1 := rfl
      omega
    simp [namesBelowRoot?, root, longer, eq_comm]
  · have starts : path.startsWith (disk.root ++ "/") = true ↔ ∃ rest, path = disk.root ++ "/" ++ rest := by
      rw [String.startsWith_string_iff]
      constructor
      · rintro ⟨rest, parts⟩
        exact ⟨String.ofList rest, by rw [← String.toList_inj]; simpa using parts.symm⟩
      · rintro ⟨rest, rfl⟩
        exact ⟨rest.toList, by simp⟩
    have after : ∀ rest, ((disk.root ++ "/" ++ rest).toList.drop (disk.root.length + 1)) = rest.toList := by
      intro rest
      have length : disk.root.length + 1 = (disk.root ++ "/").toList.length := by
        simp [String.length_toList]
      rw [String.toList_append, length, List.drop_left]
    by_cases inside : path.startsWith (disk.root ++ "/") = true
    · obtain ⟨rest, rfl⟩ := starts.mp inside
      simp only [namesBelowRoot?, beq_iff_eq, root, if_false, inside, if_true, after, Option.some.injEq,
        false_and, false_or, Path.split]
      constructor
      · rintro rfl
        exact ⟨rest, rfl, rfl⟩
      · rintro ⟨other, same, rfl⟩
        rw [String.append_right_inj] at same
        rw [same]
    · have outside : ¬∃ rest, path = disk.root ++ "/" ++ rest := fun found => inside (starts.mpr found)
      simp only [namesBelowRoot?, beq_iff_eq, root, if_false, inside, reduceCtorEq, false_and, false_or,
        false_iff]
      rintro ⟨rest, same, -⟩
      exact outside ⟨rest, same⟩

theorem namesBelowRoot?_root (disk : Disk) : disk.namesBelowRoot? disk.root = some [] := by
  rw [namesBelowRoot?_eq_some_iff]
  exact .inl ⟨rfl, rfl⟩

theorem namesBelowRoot?_below (disk : Disk) (rest : String) :
    disk.namesBelowRoot? (disk.root ++ "/" ++ rest) = some (Path.split rest) := by
  rw [namesBelowRoot?_eq_some_iff]
  exact .inr ⟨rest, rfl, rfl⟩

theorem namesBelowRoot?_append {disk : Disk} {path : String} {names : List String}
    (inside : disk.namesBelowRoot? path = some names) (rest : String) :
    disk.namesBelowRoot? (path ++ "/" ++ rest) = some (names ++ Path.split rest) := by
  rw [namesBelowRoot?_eq_some_iff] at inside ⊢
  rcases inside with ⟨rfl, rfl⟩ | ⟨front, rfl, rfl⟩
  · exact .inr ⟨rest, rfl, rfl⟩
  · refine .inr ⟨front ++ "/" ++ rest, ?_, (Path.split_append front rest).symm⟩
    simp [String.append_assoc]

/-- The names of what is joined to a path follow those of the path; a slash at its end counts for nothing. -/
theorem namesBelowRoot?_join {disk : Disk} {path rest : String} {names joined : List String}
    (inside : disk.namesBelowRoot? path = some names) (relative : Path.isAbsolute rest = false)
    (some_rest : rest ≠ "") (inside_joined : disk.namesBelowRoot? (Path.join path rest) = some joined) :
    ∃ front, joined = front ++ Path.split rest ∧ (names = front ∨ names = front ++ [""]) := by
  have not_slash : ∀ more, rest ≠ "/" ++ more := by
    rintro more rfl
    simp [Path.isAbsolute_slash] at relative
  rw [Path.join, relative, if_neg Bool.false_ne_true] at inside_joined
  split_ifs at inside_joined with short
  · rw [Bool.or_eq_true, String.isEmpty_iff, Path.endsWith_slash_iff] at short
    rw [namesBelowRoot?_eq_some_iff] at inside
    rcases inside with ⟨rfl, rfl⟩ | ⟨more, rfl, rfl⟩
    · -- a root that ends with a slash is not the root of what is joined to it
      rw [namesBelowRoot?_eq_some_iff] at inside_joined
      rcases inside_joined with ⟨same, -⟩ | ⟨more, same, -⟩
      · rw [String.append_eq_left_iff] at same
        exact absurd same some_rest
      · rw [String.append_assoc, String.append_right_inj] at same
        exact absurd same (not_slash more)
    · obtain ⟨front, ends⟩ : ∃ front, disk.root ++ "/" ++ more = front ++ "/" := by
        refine short.resolve_left fun nothing => ?_
        have lengths := congrArg String.length nothing
        simp [String.length_append] at lengths
      rcases Path.eq_empty_or_ends_of_append ends with rfl | ⟨before, rfl⟩
      · have whole := namesBelowRoot?_append (namesBelowRoot?_root disk) rest
        rw [String.append_empty, whole, Option.some.injEq] at inside_joined
        exact ⟨[], inside_joined.symm, .inr rfl⟩
      · have whole := namesBelowRoot?_append (namesBelowRoot?_below disk before) rest
        rw [← String.append_assoc, whole, Option.some.injEq] at inside_joined
        refine ⟨Path.split before, inside_joined.symm, .inr ?_⟩
        rw [← String.append_empty (s := before ++ "/"), Path.split_append]
        rfl
  · rw [namesBelowRoot?_append inside rest, Option.some.injEq] at inside_joined
    exact ⟨names, inside_joined.symm, .inl rfl⟩

/-- The path above a path with names that lead on lies below the root too, and has all of these names but the
last one. -/
theorem exists_parent?_of_inside {disk : Disk} {path : String} {names : List String}
    (inside : disk.namesBelowRoot? path = some names) (deep : 2 ≤ (Path.busy names).length) :
    ∃ above front more last, Path.parent? path = some above ∧ disk.namesBelowRoot? above = some front ∧
      names = front ++ more ∧ Path.busy more = [last] := by
  rw [namesBelowRoot?_eq_some_iff] at inside
  rcases inside with ⟨rfl, rfl⟩ | ⟨rest, rfl, rfl⟩
  · simp [Path.busy] at deep
  · have busy_path : Path.busy (Path.split (disk.root ++ "/" ++ rest)) =
        Path.busy (Path.split disk.root) ++ Path.busy (Path.split rest) := by
      rw [Path.split_append, Path.busy_append]
    obtain ⟨above, is_above⟩ : ∃ above, Path.parent? (disk.root ++ "/" ++ rest) = some above := by
      refine Path.exists_parent? fun nothing => ?_
      rw [busy_path, List.append_eq_nil_iff] at nothing
      simp [nothing.2] at deep
    rcases Path.parent?_cases is_above with ⟨-, short⟩ | ⟨last_part, last, same, one⟩
    · rw [busy_path, List.length_append] at short
      omega
    · -- the path above begins with the root: else the last part would have all the names of the path
      have lists : disk.root.toList ++ '/' :: rest.toList = above.toList ++ '/' :: last_part.toList := by
        simpa using congrArg String.toList same
      rcases List.append_eq_append_iff.mp lists with ⟨extra, above_eq, tail⟩ | ⟨extra, root_eq, tail⟩
      · cases extra with
        | nil =>
            obtain rfl : rest = last_part := by simpa [String.toList_inj] using tail
            simp [one] at deep
        | cons c extra =>
            obtain ⟨rfl, rest_eq⟩ : '/' = c ∧ rest.toList = extra ++ '/' :: last_part.toList := by simpa using tail
            have above_text : above = disk.root ++ "/" ++ String.ofList extra := by
              rw [← String.toList_inj, above_eq]
              simp
            have rest_text : rest = String.ofList extra ++ "/" ++ last_part := by
              rw [← String.toList_inj, rest_eq]
              simp
            refine ⟨above, Path.split (String.ofList extra), Path.split last_part, last, is_above, ?_, ?_, one⟩
            · rw [above_text, namesBelowRoot?_below]
            · rw [rest_text, Path.split_append]
      · cases extra with
        | nil =>
            obtain rfl : last_part = rest := by simpa [String.toList_inj] using tail
            simp [one] at deep
        | cons c extra =>
            obtain ⟨rfl, part_eq⟩ : '/' = c ∧ last_part.toList = extra ++ '/' :: rest.toList := by simpa using tail
            have part_text : last_part = String.ofList extra ++ "/" ++ rest := by
              rw [← String.toList_inj, part_eq]
              simp
            have lengths := congrArg List.length one
            rw [part_text, Path.split_append, Path.busy_append, List.length_append, List.length_singleton] at lengths
            omega

end Disk

end Storyboard
