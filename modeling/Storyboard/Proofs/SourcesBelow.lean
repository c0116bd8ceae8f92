import Storyboard.Proofs.OutermostEdits
import Storyboard.Proofs.RunChanges

/-!
# Paths below the sources

A path that is joined from the directory of the sources and names that never lead above it lies below the
sources: what is left of it after the names of the directory leads down again. All jobs of a project are of
this kind if its targets are, so their results lie below the directory of the results.
-/

namespace Storyboard

namespace Path

/-! ## Names that stay below -/

/-- Whether names never lead above the place where they start, when followed from `depth` places below it. -/
def staysBelow : Nat → List String → Bool
  | _, [] => true
  | depth, name :: rest =>
    if Disk.stays name then staysBelow depth rest
    else if name == ".." then 0 < depth && staysBelow (depth - 1) rest
    else staysBelow (depth + 1) rest

theorem staysBelow_cons (depth : Nat) (name : String) (rest : List String) :
    staysBelow depth (name :: rest) =
      if Disk.stays name then staysBelow depth rest
      else if name == ".." then 0 < depth && staysBelow (depth - 1) rest
      else staysBelow (depth + 1) rest :=
  rfl

theorem staysBelow_mono {names : List String} {depth deeper : Nat} (below : staysBelow depth names = true)
    (le : depth ≤ deeper) : staysBelow deeper names = true := by
  induction names generalizing depth deeper with
  | nil => rfl
  | cons name rest ih =>
      rw [staysBelow_cons] at below ⊢
      split_ifs at below ⊢
      · exact ih below le
      · rw [Bool.and_eq_true, decide_eq_true_iff] at below ⊢
        exact ⟨by omega, ih below.2 (by omega)⟩
      · exact ih below (by omega)

theorem staysBelow_append {names more : List String} {depth : Nat} (below : staysBelow depth names = true)
    (below_more : staysBelow 0 more = true) : staysBelow depth (names ++ more) = true := by
  induction names generalizing depth with
  | nil => exact staysBelow_mono below_more (Nat.zero_le depth)
  | cons name rest ih =>
      rw [List.cons_append, staysBelow_cons]
      rw [staysBelow_cons] at below
      split_ifs at below ⊢
      · exact ih below
      · rw [Bool.and_eq_true] at below ⊢
        exact ⟨below.1, ih below.2⟩
      · exact ih below

theorem staysBelow_of_append {names more : List String} {depth : Nat}
    (below : staysBelow depth (names ++ more) = true) : staysBelow depth names = true := by
  induction names generalizing depth with
  | nil => rfl
  | cons name rest ih =>
      rw [List.cons_append, staysBelow_cons] at below
      rw [staysBelow_cons]
      split_ifs at below ⊢
      · exact ih below
      · rw [Bool.and_eq_true] at below ⊢
        exact ⟨below.1, ih below.2⟩
      · exact ih below

theorem staysBelow_of_stays {names : List String} (idle : names.all Disk.stays = true) (depth : Nat) :
    staysBelow depth names = true := by
  induction names with
  | nil => rfl
  | cons name rest ih =>
      rw [List.all_cons, Bool.and_eq_true] at idle
      rw [staysBelow_cons, if_pos idle.1]
      exact ih idle.2

theorem staysBelow_dropWhile {names : List String} {depth : Nat} (below : staysBelow depth names = true) :
    staysBelow depth (names.dropWhile (isIdle false)) = true := by
  induction names with
  | nil => rfl
  | cons name rest ih =>
      rw [List.dropWhile_cons, isIdle_false]
      rw [isIdle_false] at ih
      split_ifs with idle
      · rw [staysBelow_cons, if_pos idle] at below
        exact ih below
      · exact below

/-! ## What is left after names -/

theorem afterNames?_nil (pieces : List String) : afterNames? pieces [] = some pieces := by
  cases pieces <;> rfl

theorem afterNames?_cons (piece : String) (pieces : List String) (name : String) (names : List String) :
    afterNames? (piece :: pieces) (name :: names) =
      if piece == name then afterNames? pieces names
      else if isIdle false piece then afterNames? pieces (name :: names)
      else none :=
  rfl

theorem afterNames?_append {pieces names left : List String} (after : afterNames? pieces names = some left)
    (more : List String) : afterNames? (pieces ++ more) names = some (left ++ more) := by
  fun_induction afterNames? pieces names with
  | case1 pieces =>
      obtain rfl := Option.some.inj after
      exact afterNames?_nil _
  | case2 => cases after
  | case3 piece pieces name names same ih =>
      rw [List.cons_append, afterNames?_cons, if_pos same]
      exact ih after
  | case4 piece pieces name names differ idle ih =>
      rw [List.cons_append, afterNames?_cons, if_neg differ, if_pos idle]
      exact ih after
  | case5 => cases after

theorem afterNames?_of_append_empty {pieces names left : List String}
    (after : afterNames? (pieces ++ [""]) names = some left) (proper : "" ∉ names) :
    ∃ front, left = front ++ [""] ∧ afterNames? pieces names = some front := by
  induction pieces generalizing names with
  | nil =>
      cases names with
      | nil =>
          rw [List.nil_append, afterNames?_nil] at after
          exact ⟨[], (Option.some.inj after).symm, rfl⟩
      | cons name names =>
          have differ : ("" == name) = false := by
            rw [beq_eq_false_iff_ne]
            rintro rfl
            simp at proper
          rw [List.nil_append, afterNames?_cons, differ, if_neg Bool.false_ne_true] at after
          cases after
  | cons piece pieces ih =>
      cases names with
      | nil =>
          rw [afterNames?_nil] at after
          exact ⟨piece :: pieces, (Option.some.inj after).symm, rfl⟩
      | cons name names =>
          rw [List.cons_append, afterNames?_cons] at after
          rw [afterNames?_cons]
          split_ifs at after ⊢
          · exact ih after fun member => proper (List.mem_cons_of_mem _ member)
          · exact ih after proper

theorem afterNames?_suffix {pieces names left : List String} (after : afterNames? pieces names = some left) :
    left <:+ pieces := by
  fun_induction afterNames? pieces names with
  | case1 pieces =>
      obtain rfl := Option.some.inj after
      exact List.suffix_rfl
  | case2 => cases after
  | case3 piece pieces name names same ih => exact (ih after).trans (List.suffix_cons piece pieces)
  | case4 piece pieces name names differ idle ih => exact (ih after).trans (List.suffix_cons piece pieces)
  | case5 => cases after

theorem afterNames?_filter (pieces : List String) :
    ∃ left, afterNames? pieces (pieces.filter fun piece => !isIdle false piece) = some left ∧
      left.all Disk.stays = true := by
  induction pieces with
  | nil => exact ⟨[], rfl, rfl⟩
  | cons piece pieces ih =>
      rw [List.filter_cons]
      split_ifs with busy
      · rw [afterNames?_cons, if_pos (beq_self_eq_true piece)]
        exact ih
      · rw [Bool.not_eq_true, Bool.not_eq_false'] at busy
        rcases names_eq : pieces.filter fun piece => !isIdle false piece with _ | ⟨name, names⟩
        · refine ⟨piece :: pieces, afterNames?_nil _, ?_⟩
          rw [List.filter_eq_nil_iff] at names_eq
          rw [List.all_eq_true, ← isIdle_false]
          intro other member
          rcases List.mem_cons.mp member with rfl | member
          · exact busy
          · simpa using names_eq other member
        · have name_busy : (!isIdle false name) = true :=
            (List.mem_filter.mp (names_eq ▸ List.mem_cons_self : name ∈ pieces.filter _)).2
          have differ : (piece == name) = false := by
            rw [beq_eq_false_iff_ne]
            rintro rfl
            simp [busy] at name_busy
          rw [afterNames?_cons, differ, if_neg Bool.false_ne_true, if_pos busy, ← names_eq]
          exact ih

/-- After its own names nothing that leads on is left of a path. -/
theorem afterNames?_names (path : String) :
    ∃ left, afterNames? (pieces path) (names path) = some left ∧ left.all Disk.stays = true := by
  rw [names]
  rcases pieces path with _ | ⟨first, rest⟩
  · exact ⟨[], rfl, rfl⟩
  · obtain ⟨left, after, idle⟩ := afterNames?_filter rest
    dsimp only
    split_ifs with first_idle
    · have first_stays : isIdle false first = true := by
        rw [isIdle, Bool.or_eq_true, Bool.and_eq_true] at first_idle ⊢
        exact first_idle.imp id fun point => ⟨point.1, rfl⟩
      rw [List.nil_append]
      have whole := afterNames?_filter (first :: rest)
      rwa [List.filter_cons, first_stays, Bool.not_true, if_neg Bool.false_ne_true] at whole
    · rw [List.singleton_append, afterNames?_cons, if_pos (beq_self_eq_true first)]
      exact ⟨left, after, idle⟩

theorem empty_notMem_names (path : String) : "" ∉ names path := by
  rw [names]
  rcases pieces path with _ | ⟨first, rest⟩
  · simp
  · intro member
    rcases List.mem_append.mp member with in_first | in_rest
    · split_ifs at in_first with idle
      · simp at in_first
      · obtain rfl : "" = first := by simpa using in_first
        simp [isIdle] at idle
    · simpa [isIdle] using (List.mem_filter.mp in_rest).2

/-! ## Joining -/

theorem isAbsolute_append {front : String} (some_front : front ≠ "") (rest : String) :
    isAbsolute (front ++ rest) = isAbsolute front := by
  obtain ⟨c, text, front_eq⟩ := List.exists_cons_of_ne_nil (mt String.toList_eq_nil_iff.mp some_front)
  rw [Bool.eq_iff_iff, isAbsolute, isAbsolute, String.startsWith_string_iff, String.startsWith_string_iff,
    String.toList_append, front_eq]
  simp

/-- What is joined to a path is absolute if the path is, and its pieces follow those of the path; an empty
piece at the end of the path goes away. -/
theorem pieces_join (path : String) {rest : String} (relative : isAbsolute rest = false) :
    isAbsolute (join path rest) = isAbsolute path ∧
      (pieces (join path rest) = pieces path ++ split rest ∨
        ∃ front, pieces path = front ++ [""] ∧ pieces (join path rest) = front ++ split rest) := by
  rw [join, relative, if_neg Bool.false_ne_true]
  by_cases nothing : path = ""
  · subst nothing
    refine ⟨relative, .inr ⟨[], rfl, ?_⟩⟩
    have short : ("".isEmpty || "".endsWith "/") = true := rfl
    rw [if_pos short, String.empty_append, pieces_of_relative relative]
    rfl
  have not_empty : path.isEmpty = false := by
    rw [← Bool.not_eq_true, String.isEmpty_iff]
    exact nothing
  rw [not_empty, Bool.false_or]
  by_cases ends : path.endsWith "/" = true
  · rw [if_pos ends, isAbsolute_append nothing]
    refine ⟨rfl, .inr ?_⟩
    obtain ⟨front, rfl⟩ := endsWith_slash_iff.mp ends
    have split_front : ∀ text, split (text ++ "/") = split text ++ [""] := by
      intro text
      rw [← String.append_empty (s := text ++ "/"), split_append]
      rfl
    cases absolute : isAbsolute (front ++ "/") with
    | false =>
        have absolute_rest := isAbsolute_append nothing rest
        rw [absolute] at absolute_rest
        exact ⟨split front, by rw [pieces_of_relative absolute, split_front],
          by rw [pieces_of_relative absolute_rest, split_append]⟩
    | true =>
        obtain ⟨text, whole⟩ := isAbsolute_iff.mp absolute
        rw [whole, String.append_assoc, pieces_absolute, pieces_absolute]
        rcases eq_empty_or_ends_of_append whole.symm with rfl | ⟨before, rfl⟩
        · exact ⟨[], rfl, by rw [String.empty_append]; rfl⟩
        · exact ⟨split before, split_front before, split_append before rest⟩
  · rw [if_neg ends, String.append_assoc, isAbsolute_append nothing]
    refine ⟨rfl, .inl ?_⟩
    cases absolute : isAbsolute path with
    | false =>
        have absolute_rest := isAbsolute_append nothing ("/" ++ rest)
        rw [absolute] at absolute_rest
        rw [pieces_of_relative absolute, pieces_of_relative absolute_rest, ← String.append_assoc, split_append]
    | true =>
        obtain ⟨text, rfl⟩ := isAbsolute_iff.mp absolute
        rw [String.append_assoc, pieces_absolute, pieces_absolute, ← String.append_assoc, split_append]

/-! ## Paths below a path -/

/-- After the names of a path, only names are left that stay below it. -/
structure LiesBelow (base path : String) : Prop where
  /-- Both begin at the root, or neither does. -/
  absolute_eq : isAbsolute path = isAbsolute base
  /-- What is left stays below. -/
  left : ∃ left, afterNames? (pieces path) (names base) = some left ∧ staysBelow 0 left = true

theorem LiesBelow.refl (base : String) : LiesBelow base base := by
  obtain ⟨left, after, idle⟩ := afterNames?_names base
  exact ⟨rfl, left, after, staysBelow_of_stays idle 0⟩

theorem LiesBelow.join {base path rest : String} (lies : LiesBelow base path) (relative : isAbsolute rest = false)
    (below : staysBelow 0 (split rest) = true) : LiesBelow base (join path rest) := by
  obtain ⟨absolute_eq, left, after, left_below⟩ := lies
  obtain ⟨joined_eq, pieces_eq | ⟨front, front_eq, pieces_eq⟩⟩ := pieces_join path relative
  · refine ⟨joined_eq.trans absolute_eq, left ++ split rest, ?_, staysBelow_append left_below below⟩
    rw [pieces_eq]
    exact afterNames?_append after _
  · rw [front_eq] at after
    obtain ⟨left, rfl, after_front⟩ := afterNames?_of_append_empty after (empty_notMem_names base)
    refine ⟨joined_eq.trans absolute_eq, left ++ split rest, ?_,
      staysBelow_append (staysBelow_of_append left_below) below⟩
    rw [pieces_eq]
    exact afterNames?_append after_front _

/-- Pieces that begin with one that means something are the text of a relative path, without those at the end that
mean nothing. -/
theorem split_ofPieces_trimEnd {pieces : List String} (clean : ∀ piece ∈ pieces, '/' ∉ piece.toList)
    (busy_head : ∀ first ∈ pieces.head?, Disk.stays first = false) :
    isAbsolute (ofPieces false (trimEnd true pieces)) = false ∧
      ∃ kept dropped, pieces = kept ++ dropped ∧ dropped.all Disk.stays = true ∧
        (kept = [] ∧ ofPieces false (trimEnd true pieces) = "" ∨
          split (ofPieces false (trimEnd true pieces)) = kept ∧
            ∃ front last, kept = front ++ [last] ∧ Disk.stays last = false) := by
  obtain ⟨dropped, kept_eq, idle⟩ := trimEnd_append true pieces
  have ends := @stays_eq_false_of_trimEnd true pieces
  generalize trimEnd true pieces = kept at *
  subst kept_eq
  rw [ofPieces, if_neg Bool.false_ne_true, String.empty_append]
  rcases List.eq_nil_or_concat kept with rfl | ⟨front, last, rfl⟩
  · exact ⟨rfl, [], dropped, rfl, idle, .inl ⟨rfl, rfl⟩⟩
  rw [List.concat_eq_append] at *
  have split_eq := split_intercalate (show front ++ [last] ≠ [] by simp) fun piece member =>
    clean piece (List.mem_append_left _ member)
  refine ⟨?_, front ++ [last], dropped, rfl, idle, .inr ⟨split_eq, front, last, rfl, ?_⟩⟩
  · rw [← Bool.not_eq_true, isAbsolute_iff]
    rintro ⟨text, same⟩
    have split_text : split ("/" ++ text) = "" :: split text := by
      rw [← String.empty_append (s := "/"), split_append]
      rfl
    rw [same, split_text] at split_eq
    have idle_head := busy_head "" (by rw [← split_eq]; rfl)
    cases idle_head
  · by_cases single : front = []
    · subst single
      exact busy_head last rfl
    · exact ends rfl single

/-- The part of a path below another one is relative, and its names are what is left without the names around
it that mean nothing. -/
theorem exists_below? {base path : String} {left : List String} (absolute_eq : isAbsolute path = isAbsolute base)
    (after : afterNames? (pieces path) (names base) = some left) :
    ∃ part kept dropped, below? path base = some part ∧ isAbsolute part = false ∧
      left.dropWhile (isIdle false) = kept ++ dropped ∧ dropped.all Disk.stays = true ∧
      (kept = [] ∧ part = "" ∨
        split part = kept ∧ ∃ front last, kept = front ++ [last] ∧ Disk.stays last = false) := by
  obtain ⟨relative, kept, dropped, parts⟩ := @split_ofPieces_trimEnd (left.dropWhile (isIdle false))
    (fun piece member => slash_notMem_of_mem_pieces
      ((afterNames?_suffix after).subset ((List.dropWhile_suffix _).subset member)))
    (fun first member => by
      have head := List.head?_dropWhile_not (isIdle false) left
      rw [Option.mem_def.mp member, isIdle_false] at head
      exact head)
  exact ⟨_, kept, dropped, by rw [below?, if_pos (beq_iff_eq.mpr absolute_eq), after, Option.map_some], relative,
    parts⟩

/-- The part of a path below another one stays below it. -/
theorem below?_of_liesBelow {base path : String} (lies : LiesBelow base path) :
    ∃ part, below? path base = some part ∧ isAbsolute part = false ∧ staysBelow 0 (split part) = true := by
  obtain ⟨absolute_eq, left, after, left_below⟩ := lies
  obtain ⟨part, kept, dropped, below, relative, left_eq, -, ⟨rfl, rfl⟩ | ⟨split_eq, -⟩⟩ :=
    exists_below? absolute_eq after
  · exact ⟨"", below, relative, rfl⟩
  · have kept_below := staysBelow_dropWhile left_below
    rw [left_eq] at kept_below
    exact ⟨part, below, relative, split_eq ▸ staysBelow_of_append kept_below⟩

end Path

/-! ## Names on a disk -/

namespace Disk

/-- Whether a text is the name of something in a directory. -/
def IsName (name : String) : Prop := isProper name = true ∧ '/' ∉ name.toList

theorem split_of_isName {name : String} (named : IsName name) : Path.split name = [name] := by
  rw [Path.split, splitSlashes_of_notMem named.2]
  simp

/-- Every place that holds something is named by names. -/
def HasNames (disk : Disk) : Prop := ∀ place, disk.at? place ≠ none → ∀ name ∈ place, IsName name

theorem isName_of_mem_way {disk : Disk} {path : String} {place : Place} (passed : place ∈ disk.way path) :
    ∀ name ∈ place, IsName name := by
  obtain ⟨names, rest, inside, passes⟩ := passed
  have clean_names : ∀ name ∈ names, '/' ∉ name.toList := by
    rcases namesBelowRoot?_eq_some_iff.mp inside with ⟨-, rfl⟩ | ⟨text, -, rfl⟩
    · simp
    · exact fun name member => Path.slash_notMem_of_mem_split member
  have clean : ∀ {stop : Stop}, disk.Passes ([], names) stop →
      (∀ name ∈ stop.1, IsName name) ∧ ∀ name ∈ stop.2, '/' ∉ name.toList := by
    intro stop passes
    induction passes with
    | refl => exact ⟨by simp, clean_names⟩
    | @tail mid stop _ step ih =>
        obtain ⟨here, left⟩ := mid
        obtain ⟨here_names, left_clean⟩ := ih
        have above_names : ∀ name ∈ here.dropLast, IsName name := fun name member =>
          here_names name ((List.dropLast_prefix here).subset member)
        simp only [next?] at step
        split at step
        · split_ifs at step
          obtain rfl := Option.some.inj step
          refine ⟨above_names, fun name member => ?_⟩
          rcases List.mem_append.mp member with in_target | in_left
          · exact Path.slash_notMem_of_mem_pieces in_target
          · exact left_clean name in_left
        · cases left with
          | nil => cases step
          | cons name left =>
              have later_clean : ∀ name ∈ left, '/' ∉ name.toList := fun other member =>
                left_clean other (List.mem_cons_of_mem _ member)
              dsimp only at step
              split_ifs at step with idle up root <;> obtain rfl := Option.some.inj step
              · exact ⟨here_names, later_clean⟩
              · exact ⟨above_names, later_clean⟩
              · refine ⟨fun other member => ?_, later_clean⟩
                rcases List.mem_append.mp member with in_here | same
                · exact here_names other in_here
                · obtain rfl := List.mem_singleton.mp same
                  refine ⟨?_, left_clean other List.mem_cons_self⟩
                  simp_all [isProper]
  exact (clean passes).1

/-- Names stay names when places are changed that are on ways. -/
theorem HasNames.of_changes {disk after : Disk} {made written : Set Place} (named : disk.HasNames)
    (changes : Changes made written disk after) (made_named : ∀ place ∈ made, ∀ name ∈ place, IsName name)
    (written_named : ∀ place ∈ written, ∀ name ∈ place, IsName name) : after.HasNames := by
  intro place holds
  rcases changes.place_cases place with same | ⟨member, -⟩ | ⟨member, -⟩
  · exact named place (same ▸ holds)
  · exact made_named place member
  · exact written_named place member

theorem HasNames.of_mem_namesIn {disk : Disk} (named : disk.HasNames) {place : Place} {name : String}
    (member : name ∈ disk.namesIn place) : IsName name := by
  rw [namesIn, List.mem_mergeSort] at member
  obtain ⟨⟨other, content⟩, entry, last⟩ := List.mem_filterMap.mp member
  dsimp only at last
  split_ifs at last
  have inside : name ∈ other := List.mem_of_mem_getLast? last
  refine named other (fun empty => ?_) name inside
  rw [at?] at empty
  split_ifs at empty
  rw [List.lookup_eq_none_iff] at empty
  simpa using empty _ entry

end Disk

/-! ## Jobs below the sources -/

/-- A search finds only files, and each path of one is joined from a name to a path that was searched. -/
theorem Disk.forall_mem_filesBelow {disk : Disk} (named : disk.HasNames) {P : String → Prop}
    (joined : ∀ path name, P path → IsName name → ∀ found, disk.find (Path.join path name) = .ok found →
      P (Path.join path name))
    {depth : Nat} {above : List Disk.Ancestor} {path : String} {place : Place} {paths : List String}
    (found : disk.filesBelow depth above path place = .ok paths) (start : P path) :
    ∀ file ∈ paths, ∃ path name, P path ∧ IsName name ∧ file = Path.join path name ∧ disk.isFile file = true := by
  induction depth generalizing above path place paths with
  | zero =>
      obtain rfl : [] = paths := Except.ok.inj found
      simp
  | succ depth ih =>
      intro file member
      rw [filesBelow] at found
      simp only [bind, Except.bind] at found
      split at found
      · cases found
      · rename_i lists lists_eq
        obtain rfl : lists.flatten = paths := Except.ok.inj found
        obtain ⟨files, files_mem, file_mem⟩ := List.mem_flatten.mp member
        obtain ⟨name, name_mem, searched⟩ := exists_mem_of_mapM_eq_ok lists_eq files_mem
        have is_name := named.of_mem_namesIn name_mem
        -- what the name leads to: a file is found, a directory is searched, all else fails
        split at searched
        · cases searched
        · cases searched
        · rename_i file_found
          obtain rfl : [Path.join path name] = files := Except.ok.inj searched
          rw [List.mem_singleton.mp file_mem]
          exact ⟨path, name, start, is_name, rfl, Disk.isFile_iff.mpr ⟨_, _, file_found⟩⟩
        · cases searched
        · rename_i directory_found
          split at searched
          · cases searched
          · exact ih searched (joined path name start is_name _ directory_found) file file_mem

namespace Project

/-- A path of the configuration is relative and never leads above where it starts. -/
def IsInner (path : String) : Prop := Path.isAbsolute path = false ∧ Path.staysBelow 0 (Path.split path) = true

theorem isInner_of_isName {name : String} (named : Disk.IsName name) : IsInner name := by
  have split_eq := Disk.split_of_isName named
  obtain ⟨proper, clean⟩ := named
  rw [Disk.isProper, Bool.and_eq_true, Bool.not_eq_true', bne_iff_ne] at proper
  constructor
  · rw [← Bool.not_eq_true, Path.isAbsolute_iff]
    rintro ⟨rest, rfl⟩
    simp at clean
  · simp [split_eq, Path.staysBelow, proper.1, proper.2]

/-- Jobs are for files, whose paths are joined to the sources from those of targets and from names. -/
theorem forall_mem_jobs {project : Project} {disk : Disk} (named : disk.HasNames) {P Q : String → Prop}
    (at_targets : ∀ target ∈ project.config.targets, Q target.path) (at_names : ∀ name, Disk.IsName name → Q name)
    (joined : ∀ path rest, P path → Q rest → ∀ found, disk.find (Path.join path rest) = .ok found →
      P (Path.join path rest))
    (start : P project.sources) {jobs : List Job} (listed : project.jobs disk = .ok jobs) :
    ∀ job ∈ jobs, ∃ path rest, P path ∧ Q rest ∧ job.path = Path.join path rest ∧
      disk.isFile job.path = true := by
  intro job member
  simp only [Project.jobs, bind, Except.bind] at listed
  split at listed
  · cases listed
  · rename_i lists lists_eq
    obtain rfl : lists.flatten = jobs := Except.ok.inj listed
    obtain ⟨some_jobs, some_jobs_mem, job_mem⟩ := List.mem_flatten.mp member
    obtain ⟨target, target_mem, jobs_eq⟩ := exists_mem_of_mapM_eq_ok lists_eq some_jobs_mem
    have at_target := at_targets target target_mem
    rw [jobsOf] at jobs_eq
    split_ifs at jobs_eq with is_file
    · obtain rfl := Except.ok.inj jobs_eq
      rw [List.mem_singleton.mp job_mem]
      exact ⟨_, _, start, at_target, rfl, is_file⟩
    · rw [Disk.sourcesBelow] at jobs_eq
      split at jobs_eq
      · rename_i paths paths_eq
        obtain rfl := Except.ok.inj jobs_eq
        obtain ⟨path, path_mem, rfl⟩ := List.mem_map.mp job_mem
        split at paths_eq
        · rename_i found
          simp only [bind, Except.bind] at paths_eq
          split at paths_eq
          · cases paths_eq
          · rename_i files files_eq
            obtain rfl : files.filter Disk.isSource = paths := Except.ok.inj paths_eq
            obtain ⟨above, name, at_above, is_name, rest⟩ := Disk.forall_mem_filesBelow named
              (fun path name at_path is_name => joined path name at_path (at_names name is_name))
              files_eq (joined _ _ start at_target _ found) path (List.mem_filter.mp path_mem).1
            exact ⟨above, name, at_above, at_names name is_name, rest⟩
        · obtain rfl := Except.ok.inj paths_eq
          simp at path_mem
      · cases jobs_eq
    · obtain rfl := Except.ok.inj jobs_eq
      simp at job_mem

/-- The jobs for targets that never lead above the sources lie below the sources. -/
theorem liesBelow_of_mem_jobs {project : Project} {disk : Disk} (named : disk.HasNames)
    (inner : ∀ target ∈ project.config.targets, IsInner target.path) {jobs : List Job}
    (listed : project.jobs disk = .ok jobs) : ∀ job ∈ jobs, Path.LiesBelow project.sources job.path := by
  intro job member
  obtain ⟨path, rest, lies, is_inner, job_eq, -⟩ := forall_mem_jobs (P := Path.LiesBelow project.sources) named inner
    (fun _ => isInner_of_isName) (fun _ _ lies is_inner _ _ => lies.join is_inner.1 is_inner.2) (.refl _) listed
    job member
  rw [job_eq]
  exact lies.join is_inner.1 is_inner.2

end Project

end Storyboard
