import Storyboard.Proofs.RunChanges

/-!
# Straight paths

A path is straight if no name of it leads up and no link is on its way: its names then lead down to its place, one
after the other, and it passes just the places above. Making the directories of a straight path succeeds as long as
no file is in the way, and so a result can be written exactly if its place is open: a file or nothing is there, and
directories or nothing above.
-/

namespace Storyboard

open Storyboard.Path (busy)

namespace Disk

/-- A path goes straight down to a place. -/
structure Straight (disk : Disk) (path : String) (place : Place) : Prop where
  /-- No name leads up, and those that lead on are the names of the place. -/
  inside : ∃ names, disk.namesBelowRoot? path = some names ∧ ".." ∉ names ∧ busy names = place
  /-- No link is on the way. -/
  free : ∀ other, other <+: place → disk.linkAt? other = none

variable {disk : Disk} {path : String} {here place : Place} {names : List String}

/-! ## The way of a straight path -/

theorem next?_down (free : disk.linkAt? here = none) {name : String} (not_up : ".." ≠ name) (rest : List String) :
    disk.next? (here, name :: rest) = some (here ++ busy [name], rest) := by
  cases idle : stays name with
  | true => simp [next?, free, idle, busy]
  | false => simp [next?, free, idle, busy, Ne.symm not_up]

/-- Names that do not lead up are passed one after the other. -/
theorem Passes.eq_of_down {stop : Stop} (no_up : ".." ∉ names)
    (free : ∀ other, here <+: other → other <+: here ++ busy names → disk.linkAt? other = none)
    (passes : disk.Passes (here, names) stop) : ∃ front, names = front ++ stop.2 ∧ stop.1 = here ++ busy front := by
  induction names generalizing here with
  | nil =>
      rcases passes.eq_or_head with rfl | ⟨next, step, -⟩
      · exact ⟨[], rfl, by simp [busy]⟩
      · simp [next?, free here List.prefix_rfl (List.prefix_append _ _)] at step
  | cons name rest ih =>
      rw [List.mem_cons, not_or] at no_up
      rcases passes.eq_or_head with rfl | ⟨next, step, later⟩
      · exact ⟨[], rfl, by simp [busy]⟩
      · rw [next?_down (free here List.prefix_rfl (List.prefix_append _ _)) no_up.1, Option.some.injEq] at step
        subst step
        have whole : here ++ busy [name] ++ busy rest = here ++ busy (name :: rest) := by
          rw [List.append_assoc, ← Path.busy_append, List.singleton_append]
        obtain ⟨front, rest_eq, place_eq⟩ := ih no_up.2
          (fun other above below => free other ((List.prefix_append _ _).trans above) (whole ▸ below)) later
        refine ⟨name :: front, by rw [rest_eq, List.cons_append], ?_⟩
        rw [place_eq, List.append_assoc, ← Path.busy_append, List.singleton_append]

theorem passes_down (disk : Disk) (here : Place) (no_up : ".." ∉ names)
    (free : ∀ other, here <+: other → other <+: here ++ busy names → disk.linkAt? other = none) (rest : List String) :
    disk.Passes (here, names ++ rest) (here ++ busy names, rest) := by
  induction names generalizing here with
  | nil =>
      rw [List.nil_append, busy, List.filter_nil, List.append_nil]
      exact .refl
  | cons name names ih =>
      rw [List.mem_cons, not_or] at no_up
      have step := next?_down (free here List.prefix_rfl (List.prefix_append _ _)) no_up.1 (names ++ rest)
      have whole : here ++ busy [name] ++ busy names = here ++ busy (name :: names) := by
        rw [List.append_assoc, ← Path.busy_append, List.singleton_append]
      have later := ih (here ++ busy [name]) no_up.2
        fun other above below => free other ((List.prefix_append _ _).trans above) (whole ▸ below)
      rw [whole] at later
      exact later.head step

theorem exists_busy_eq_of_isPrefix {above : Place} (below : above <+: busy names) :
    ∃ front rest, names = front ++ rest ∧ busy front = above := by
  induction names generalizing above with
  | nil => exact ⟨[], [], rfl, (List.prefix_nil.mp below).symm⟩
  | cons name names ih =>
      cases above with
      | nil => exact ⟨[], name :: names, rfl, rfl⟩
      | cons first above =>
          cases idle : stays name with
          | true =>
              rw [Path.busy_cons_of_stays idle] at below
              obtain ⟨front, rest, rfl, busy_eq⟩ := ih below
              exact ⟨name :: front, rest, rfl, (Path.busy_cons_of_stays idle front).trans busy_eq⟩
          | false =>
              rw [Path.busy_cons_of_moves idle, List.cons_prefix_cons] at below
              obtain ⟨rfl, below⟩ := below
              obtain ⟨front, rest, rfl, rfl⟩ := ih below
              exact ⟨first :: front, rest, rfl, Path.busy_cons_of_moves idle front⟩

namespace Straight

theorem mem_way_iff (straight : disk.Straight path place) {other : Place} :
    other ∈ disk.way path ↔ other <+: place := by
  obtain ⟨⟨names, inside, no_up, rfl⟩, free⟩ := straight
  constructor
  · rintro ⟨names', rest, inside', passes⟩
    obtain rfl := Option.some.inj (inside.symm.trans inside')
    obtain ⟨front, rfl, rfl⟩ := passes.eq_of_down no_up fun other _ below => free other (by simpa using below)
    exact ⟨busy rest, by rw [List.nil_append, Path.busy_append]⟩
  · intro below
    obtain ⟨front, rest, rfl, rfl⟩ := exists_busy_eq_of_isPrefix below
    have down := passes_down disk [] (fun up => no_up (List.mem_append_left _ up))
      (fun other _ above => free other ((by simpa using above : other <+: busy front).trans below)) rest
    exact ⟨_, rest, inside, by simpa using down⟩

/-- On a disk without links, a path is straight if no name of it leads up. -/
theorem of_hasNoLinks (no_links : disk.hasNoLinks = true) (inside : disk.namesBelowRoot? path = some names)
    (no_up : ".." ∉ names) : disk.Straight path (busy names) :=
  ⟨⟨names, inside, no_up, rfl⟩, fun other _ => linkAt?_of_hasNoLinks no_links other⟩

theorem leads (straight : disk.Straight path place) : disk.Leads path place := by
  obtain ⟨⟨names, inside, no_up, rfl⟩, free⟩ := straight
  have down := passes_down disk [] no_up (fun other _ below => free other (by simpa using below)) []
  rw [List.append_nil] at down
  exact ⟨names, [], inside, by simpa using down, rfl, free _ List.prefix_rfl⟩

theorem ne_empty (straight : disk.Straight path place) (below : place ≠ []) : path ≠ "" := by
  rintro rfl
  obtain ⟨⟨names, inside, -, rfl⟩, -⟩ := straight
  rcases namesBelowRoot?_eq_some_iff.mp inside with ⟨-, rfl⟩ | ⟨rest, whole, -⟩
  · exact below rfl
  · have lengths := congrArg String.length whole
    have slash : "/".length = 1 := rfl
    simp only [String.length_append, String.length_empty] at lengths
    omega

theorem length_le (straight : disk.Straight path place) : place.length ≤ path.length := by
  obtain ⟨⟨names, inside, -, rfl⟩, -⟩ := straight
  have filtered : (busy names).length ≤ names.length := List.length_filter_le _ _
  rcases namesBelowRoot?_eq_some_iff.mp inside with ⟨-, rfl⟩ | ⟨rest, rfl, rfl⟩
  · exact Nat.zero_le _
  · have pieces := Path.length_split_le rest
    have slash : "/".length = 1 := rfl
    simp only [String.length_append]
    omega

theorem of_changes {made written : Set Place} {after : Disk} (straight : disk.Straight path place)
    (changes : Changes made written disk after) : after.Straight path place := by
  obtain ⟨⟨names, inside, names_eq⟩, free⟩ := straight
  exact ⟨⟨names, by rw [namesBelowRoot?_congr changes.root_eq, inside], names_eq⟩,
    fun other below => by rw [changes.linkAt?_eq, free other below]⟩

end Straight

/-! ## Making the directories of a straight path -/

/-- Directories and nothing let names be followed down: to a directory, to nothing, or until something is missing. -/
theorem walk_down (disk : Disk) (here : Place) (no_up : ".." ∉ names)
    (clear : ∀ other, here <+: other → other <+: here ++ busy names →
      disk.at? other = none ∨ disk.at? other = some .directory) :
    disk.walk here names = .ended (.ok (.present (here ++ busy names) .directory)) ∨
      disk.walk here names = .ended (.ok (.absent (here ++ busy names))) ∨
      disk.walk here names = .ended (.error .notFound) ∧
        ∃ other, other <+: here ++ busy names ∧ other ≠ here ++ busy names ∧ disk.at? other = none := by
  induction names generalizing here with
  | nil =>
      have whole : here ++ busy [] = here := List.append_nil here
      rw [whole]
      rcases clear here List.prefix_rfl (List.prefix_append _ _) with empty | directory
      · exact .inr (.inl (by simp [walk, empty]))
      · exact .inl (by simp [walk, directory])
  | cons name rest ih =>
      rw [List.mem_cons, not_or] at no_up
      rcases clear here List.prefix_rfl (List.prefix_append _ _) with empty | directory
      · cases idle : (name :: rest).all stays with
        | true =>
            rw [Path.busy_eq_nil idle, List.append_nil]
            exact .inr (.inl (by simp only [walk, empty, idle, if_true]))
        | false =>
            refine .inr (.inr ⟨by simp only [walk, empty, idle]; rfl, here, List.prefix_append _ _, ?_, empty⟩)
            intro same
            have nothing : busy (name :: rest) = [] := by simpa using same
            rw [busy, List.filter_eq_nil_iff] at nothing
            rw [List.all_eq_false] at idle
            obtain ⟨other, member, moves⟩ := idle
            simpa [moves] using nothing other member
      · cases idle : stays name with
        | true =>
            rw [Path.busy_cons_of_stays idle] at clear ⊢
            have step : disk.walk here (name :: rest) = disk.walk here rest := by simp [walk, directory, idle]
            rw [step]
            exact ih here no_up.2 clear
        | false =>
            have whole : here ++ busy (name :: rest) = here ++ [name] ++ busy rest := by
              rw [Path.busy_cons_of_moves idle, List.append_assoc, List.singleton_append]
            have step : disk.walk here (name :: rest) = disk.walk (here ++ [name]) rest := by
              simp [walk, directory, idle, Ne.symm no_up.1]
            rw [whole] at clear ⊢
            rw [step]
            exact ih (here ++ [name]) no_up.2 fun other above below => clear other ((List.prefix_append _ _).trans above) below

theorem locate_straight (straight : disk.Straight path place)
    (clear : ∀ other, other <+: place → disk.at? other = none ∨ disk.at? other = some .directory) :
    (∀ throughLast, disk.locate throughLast path = .ok (.present place .directory)) ∨
      (∀ throughLast, disk.locate throughLast path = .ok (.absent place)) ∨
      (∀ throughLast, disk.locate throughLast path = .error .notFound) ∧
        ∃ other, other <+: place ∧ other ≠ place ∧ disk.at? other = none := by
  obtain ⟨⟨names, inside, no_up, rfl⟩, -⟩ := straight
  have located : ∀ {result}, disk.walk [] names = .ended result →
      ∀ throughLast, disk.locate throughLast path = result := by
    intro result walked throughLast
    rw [locate, inside]
    dsimp only
    rw [follow, walked]
  rcases walk_down disk [] no_up fun other _ below => clear other (by simpa using below) with
    walked | walked | ⟨walked, missing⟩
  · exact .inl (located walked)
  · exact .inr (.inl (located walked))
  · exact .inr (.inr ⟨located walked, missing⟩)

/-- The path above a straight path goes straight to the place above, if that is not the root. -/
theorem Straight.exists_parent? (straight : disk.Straight path place) (deep : 2 ≤ place.length) :
    ∃ above, Path.parent? path = some above ∧ disk.Straight above place.dropLast := by
  obtain ⟨⟨names, inside, no_up, rfl⟩, free⟩ := straight
  obtain ⟨above, front, more, last, is_above, inside_above, rfl, one⟩ := exists_parent?_of_inside inside deep
  have place_eq : (busy (front ++ more)).dropLast = busy front := by
    rw [Path.busy_append, one, List.dropLast_concat]
  rw [place_eq]
  refine ⟨above, is_above, ⟨front, inside_above, fun up => no_up (List.mem_append_left _ up), rfl⟩, fun other below => ?_⟩
  refine free other (below.trans ?_)
  rw [Path.busy_append]
  exact List.prefix_append _ _

theorem two_le_of_missing {other : Place} (below : other <+: place) (differ : other ≠ place)
    (empty : disk.at? other = none) : 2 ≤ place.length := by
  have some_other := List.length_pos_iff.mpr (ne_nil_of_at?_eq_none empty)
  have shorter : other.length ≠ place.length := fun same => differ (below.eq_of_length same)
  have le := below.length_le
  omega

theorem isPrefix_dropLast {other : Place} (below : other <+: place) (differ : other ≠ place) :
    other <+: place.dropLast := by
  obtain ⟨rest, rfl⟩ := below
  have some_rest : rest ≠ [] := fun nothing => differ (by rw [nothing, List.append_nil])
  rw [List.dropLast_append_of_ne_nil some_rest]
  exact List.prefix_append _ _

/-- A straight path can be settled in a directory if directories are above. -/
theorem on_makeDirectory_or_settle_straight (straight : disk.Straight path place)
    (clear : ∀ other, other <+: place → disk.at? other = none ∨ disk.at? other = some .directory)
    (full : ∀ other, other <+: place → other ≠ place → disk.at? other ≠ none) :
    (DiskAction.on (tryCatch (makeDirectory path) fun fault => settle path fault) disk).1 = .ok () := by
  rw [DiskAction.on_tryCatch, on_makeDirectory_eq]
  rcases locate_straight straight clear with located | located | ⟨-, other, below, differ, empty⟩
  · have there : disk.isDirectory path = true := isDirectory_iff.mpr ⟨place, located true⟩
    simp only [located, on_settle, there, if_true]
  · simp only [located]
  · exact absurd empty (full other below differ)

/-- The directories of a straight path can be made if nothing else is in the way. -/
theorem on_makeDirectories_straight {depth : Nat} (straight : disk.Straight path place)
    (clear : ∀ other, other <+: place → disk.at? other = none ∨ disk.at? other = some .directory)
    (shallow : place.length < depth) : ((makeDirectories depth path).on disk).1 = .ok () := by
  induction depth generalizing path place disk with
  | zero => omega
  | succ depth ih =>
      rw [makeDirectories]
      split_ifs with nothing
      · rfl
      rw [DiskAction.on_tryCatch, on_makeDirectory_eq]
      rcases locate_straight straight clear with located | located | ⟨located, other, below, differ, empty⟩
      · have there : disk.isDirectory path = true := isDirectory_iff.mpr ⟨place, located true⟩
        have exists_already : (FileFault.alreadyExists == FileFault.notFound) = false := rfl
        simp only [located, exists_already, Bool.false_eq_true, if_false, on_settle, there, if_true]
      · simp only [located]
      · have deep := two_le_of_missing below differ empty
        obtain ⟨above, is_above, straight_above⟩ := straight.exists_parent? deep
        have clear_above : ∀ other, other <+: place.dropLast → disk.at? other = none ∨ disk.at? other = some .directory :=
          fun other below => clear other (below.trans (List.dropLast_prefix place))
        have shallow_above : place.dropLast.length < depth := by
          rw [List.length_dropLast]
          omega
        have made := ih straight_above clear_above shallow_above
        obtain ⟨changes, there⟩ := on_makeDirectories depth above disk
        simp only [located, beq_self_eq_true, if_true, is_above]
        rw [DiskAction.on_bind]
        rcases result : (makeDirectories depth above).on disk with ⟨fault | done, after⟩
        · rw [result] at made
          cases made
        · rw [result] at changes there
          have there : after.isDirectory above = true := by
            refine (there rfl).resolve_left (straight_above.ne_empty fun root => ?_)
            have lengths := congrArg List.length root
            rw [List.length_dropLast, List.length_nil] at lengths
            omega
          refine on_makeDirectory_or_settle_straight (straight.of_changes changes) (fun other below => ?_)
            fun other below differ => ?_
          · rcases changes.place_cases other with same | ⟨-, -, directory⟩ | ⟨none_written, -⟩
            · rw [same]
              exact clear other below
            · exact .inr directory
            · exact none_written.elim
          · have passed : other ∈ after.way above := by
              rw [changes.way_eq]
              exact straight_above.mem_way_iff.mpr (isPrefix_dropLast below differ)
            obtain ⟨held, holds, -⟩ := at?_of_isDirectory there passed
            simp [holds]

/-! ## Writing a result -/

/-- Below directories, names are followed one after the other. -/
theorem walk_full (disk : Disk) (here : Place) (no_up : ".." ∉ names)
    (full : ∀ other, here <+: other → other <+: here ++ busy names → disk.at? other = some .directory)
    (rest : List String) : disk.walk here (names ++ rest) = disk.walk (here ++ busy names) rest := by
  induction names generalizing here with
  | nil => rw [List.nil_append, busy, List.filter_nil, List.append_nil]
  | cons name names ih =>
      rw [List.mem_cons, not_or] at no_up
      have directory := full here List.prefix_rfl (List.prefix_append _ _)
      cases idle : stays name with
      | true =>
          rw [Path.busy_cons_of_stays idle] at full ⊢
          have step : disk.walk here (name :: (names ++ rest)) = disk.walk here (names ++ rest) := by
            simp [walk, directory, idle]
          rw [List.cons_append, step]
          exact ih here no_up.2 full
      | false =>
          have whole : here ++ busy (name :: names) = here ++ [name] ++ busy names := by
            rw [Path.busy_cons_of_moves idle, List.append_assoc, List.singleton_append]
          have step : disk.walk here (name :: (names ++ rest)) = disk.walk (here ++ [name]) (names ++ rest) := by
            simp [walk, directory, idle, Ne.symm no_up.1]
          rw [whole] at full ⊢
          rw [List.cons_append, step]
          exact ih (here ++ [name]) no_up.2
            fun other above below => full other ((List.prefix_append _ _).trans above) below

/-- A path goes straight down to a file in a directory below the root. -/
structure Descends (disk : Disk) (path : String) (place : Place) : Prop where
  /-- It goes straight to its place. -/
  straight : disk.Straight path place
  /-- The place is in a directory below the root. -/
  deep : 2 ≤ place.length
  /-- The path ends with the name of the file. -/
  ends : ∀ front name, disk.namesBelowRoot? path = some (front ++ [name]) → stays name = false

/-- A file can be written at a place: a file or nothing is there, and directories or nothing above. -/
structure IsOpen (disk : Disk) (place : Place) : Prop where
  /-- Directories or nothing are above. -/
  above : ∀ other, other <+: place → other ≠ place → disk.at? other = none ∨ disk.at? other = some .directory
  /-- A file or nothing is there. -/
  free : disk.at? place = none ∨ ∃ bytes, disk.at? place = some (.file bytes)

open Classical in
/-- What places hold once a text is at one of them, and directories are above it. -/
noncomputable def withText (held : Place → Option Content) (written : Place × String) (other : Place) :
    Option Content :=
  if other = written.1 then some (.file written.2.toUTF8)
  else if other <+: written.1 then some .directory
  else held other

namespace Descends

theorem of_changes {made written : Set Place} {after : Disk} (descends : disk.Descends path place)
    (changes : Changes made written disk after) : after.Descends path place := by
  obtain ⟨straight, deep, ends⟩ := descends
  exact ⟨straight.of_changes changes, deep, fun front name inside =>
    ends front name (by rw [← inside, namesBelowRoot?_congr changes.root_eq])⟩

/-- The names of the path are those above its place and the name of the file. -/
theorem names_eq (descends : disk.Descends path place) : ∃ front last, disk.namesBelowRoot? path =
    some (front ++ [last]) ∧ ".." ∉ front ∧ ".." ≠ last ∧ stays last = false ∧ place = busy front ++ [last] := by
  obtain ⟨⟨⟨names, inside, no_up, rfl⟩, -⟩, deep, ends⟩ := descends
  rcases List.eq_nil_or_concat names with rfl | ⟨front, last, rfl⟩
  · simp [busy] at deep
  · rw [List.concat_eq_append] at inside no_up ⊢
    have moves := ends front last inside
    rw [List.mem_append, List.mem_singleton, not_or] at no_up
    refine ⟨front, last, inside, no_up.1, no_up.2, moves, ?_⟩
    rw [Path.busy_append, Path.busy_cons_of_moves moves]
    rfl

/-- A path that ends with a slash does not end with the name of a file. -/
theorem not_endsWith_slash (descends : disk.Descends path place) : path.endsWith "/" = false := by
  obtain ⟨front, last, inside, -, -, moves, -⟩ := descends.names_eq
  rw [← Bool.not_eq_true, Path.endsWith_slash_iff]
  rintro ⟨before, rfl⟩
  have empty_last : ∃ others, front ++ [last] = others ++ [""] := by
    rcases namesBelowRoot?_eq_some_iff.mp inside with ⟨-, nothing⟩ | ⟨rest, whole, names_eq⟩
    · simp at nothing
    · rcases Path.eq_empty_or_ends_of_append whole.symm with rfl | ⟨text, rfl⟩
      · exact ⟨[], names_eq⟩
      · refine ⟨Path.split text, ?_⟩
        rw [names_eq, ← String.append_empty (s := text ++ "/"), Path.split_append]
        rfl
  obtain ⟨others, same⟩ := empty_last
  have same_last : [last] = [""] := (List.append_inj' same rfl).2
  rw [List.singleton_inj.mp same_last] at moves
  cases moves

/-- Below directories, the path leads to what its place holds. -/
theorem find_eq (descends : disk.Descends path place)
    (full : ∀ other, other <+: place → other ≠ place → disk.at? other = some .directory) :
    disk.find path = .ok (match disk.at? place with
      | none => .absent place
      | some content => .present place content) := by
  have free := descends.straight.free place List.prefix_rfl
  obtain ⟨front, last, inside, no_up, not_up, moves, rfl⟩ := descends.names_eq
  have above : ∀ other, other <+: busy front → disk.at? other = some .directory := by
    intro other below
    refine full other (below.trans (List.prefix_append _ _)) fun same => ?_
    have le := below.length_le
    rw [same, List.length_append, List.length_singleton] at le
    omega
  have walked : disk.walk [] (front ++ [last]) = disk.walk (busy front ++ [last]) [] := by
    rw [walk_full disk [] no_up fun other _ below => above other (by simpa using below), List.nil_append]
    simp [walk, above _ List.prefix_rfl, moves, Ne.symm not_up]
  rw [find, locate, inside]
  dsimp only
  rw [follow, walked]
  rcases holds : disk.at? (busy front ++ [last]) with _ | ⟨_ | _ | target⟩
  · simp [walk, holds]
  · simp [walk, holds]
  · simp [walk, holds]
  · exact absurd holds (linkAt?_eq_none.mp free target)

end Descends

end Disk

namespace Project

open Disk

variable {disk : Disk} {path : String} {place : Place}

theorem mem_wayAbove_iff (descends : disk.Descends path place) {other : Place} :
    other ∈ disk.wayAbove path ↔ other <+: place ∧ other ≠ place := by
  have deep := descends.deep
  obtain ⟨above, is_above, straight_above⟩ := descends.straight.exists_parent? deep
  constructor
  · rintro ⟨above', is_above', -, passed⟩
    obtain rfl := Option.some.inj (is_above.symm.trans is_above')
    have below := straight_above.mem_way_iff.mp passed
    refine ⟨below.trans (List.dropLast_prefix place), ?_⟩
    rintro rfl
    have le := below.length_le
    rw [List.length_dropLast] at le
    omega
  · rintro ⟨below, differ⟩
    refine ⟨above, is_above, straight_above.ne_empty fun root => ?_,
      straight_above.mem_way_iff.mpr (isPrefix_dropLast below differ)⟩
    have lengths := congrArg List.length root
    rw [List.length_dropLast, List.length_nil] at lengths
    omega

/-- Once the directories above a path are made, they are all that is above its place, and else nothing changed. -/
theorem at?_of_full (descends : disk.Descends path place) {mid : Disk} (changes : Changes (disk.wayAbove path) ∅ disk mid)
    (full : ∀ other ∈ disk.wayAbove path, ∃ held, mid.at? other = some held ∧ ∀ bytes, held ≠ .file bytes)
    (other : Place) :
    if other <+: place ∧ other ≠ place then
      (disk.at? other = none ∨ disk.at? other = some .directory) ∧ mid.at? other = some .directory
    else mid.at? other = disk.at? other := by
  split_ifs with above
  · obtain ⟨held, held_eq, not_file⟩ := full other ((mem_wayAbove_iff descends).mpr above)
    rcases changes.place_cases other with same | ⟨-, empty, directory⟩ | ⟨none_written, -⟩
    · rw [same] at held_eq ⊢
      cases held with
      | file bytes => exact absurd rfl (not_file bytes)
      | directory => exact ⟨.inr held_eq, held_eq⟩
      | link target => exact absurd held_eq (linkAt?_eq_none.mp (descends.straight.free other above.1) target)
    · exact ⟨.inl empty, directory⟩
    · exact none_written.elim
  · rcases changes.place_cases other with same | ⟨made, -⟩ | ⟨none_written, -⟩
    · exact same
    · exact absurd ((mem_wayAbove_iff descends).mp made) above
    · exact none_written.elim

/-- A result can be written only at a place that is open, and nothing else is changed but that directories are
made above it. -/
theorem on_writeResult_ok (descends : disk.Descends path place) {text : String} {after : Disk}
    (written : (writeResult path text).on disk = (.ok (), after)) :
    disk.IsOpen place ∧ ∀ other, after.at? other = withText disk.at? (place, text) other := by
  rcases on_writeResult path text disk with ⟨mid, there, changes, full, leads, holds, done⟩ | ⟨mid, blamed, fault, -, failed⟩
  swap
  · rw [failed] at written
    cases written
  obtain rfl := leads.unique descends.straight.leads
  obtain rfl : mid.put there (.file text.toUTF8) = after := (Prod.mk.inj (done.symm.trans written)).2
  have below_root : there ≠ [] := by
    rintro rfl
    simp at holds
  have made := at?_of_full descends changes full
  refine ⟨⟨fun other below differ => ?_, ?_⟩, fun other => ?_⟩
  · have here := made other
    rw [if_pos ⟨below, differ⟩] at here
    exact here.1
  · have here := made there
    rw [if_neg (by simp)] at here
    rwa [here] at holds
  · have here := made other
    rw [at?_put below_root, withText]
    split_ifs with same below
    · rfl
    · rw [if_pos ⟨below, same⟩] at here
      exact here.2
    · rwa [if_neg fun above => below above.1] at here

/-- A result can be written at a place that is open. -/
theorem on_writeResult_of_isOpen (descends : disk.Descends path place) (is_open : disk.IsOpen place) (text : String) :
    ∃ after, (writeResult path text).on disk = (.ok (), after) := by
  obtain ⟨above, is_above, straight_above⟩ := descends.straight.exists_parent? descends.deep
  have clear : ∀ other, other <+: place.dropLast → disk.at? other = none ∨ disk.at? other = some .directory := by
    intro other below
    refine is_open.above other (below.trans (List.dropLast_prefix place)) ?_
    rintro rfl
    have deep := descends.deep
    have le := below.length_le
    rw [List.length_dropLast] at le
    omega
  have made : ((makeAbove path).on disk).1 = .ok () := by
    have directories := on_makeDirectories_straight straight_above clear (Nat.lt_succ_of_le straight_above.length_le)
    simp only [makeAbove, is_above]
    rw [on_blaming, makeAllDirectories]
    rcases result : (makeDirectories (above.length + 1) above).on disk with ⟨fault | done, after⟩
    · rw [result] at directories
      cases directories
    · rfl
  obtain ⟨changes, outcome⟩ := on_makeAbove path disk
  rw [writeResult, DiskAction.on_bind]
  rcases result : (makeAbove path).on disk with ⟨failure | done, mid⟩
  · rw [result] at made
    cases made
  · rw [result] at changes outcome
    obtain ⟨-, full⟩ := outcome.resolve_right (by simp)
    have filled := at?_of_full descends changes full
    have found := (descends.of_changes changes).find_eq fun other below differ => by
      have here := filled other
      rw [if_pos ⟨below, differ⟩] at here
      exact here.2
    have same : mid.at? place = disk.at? place := by
      have here := filled place
      rwa [if_neg (by simp)] at here
    dsimp only
    rw [on_blaming, on_writeText_eq, found, same]
    rcases is_open.free with empty | ⟨bytes, file⟩
    · rw [empty]
      simp [descends.not_endsWith_slash]
    · rw [file]
      exact ⟨_, rfl⟩

end Project

end Storyboard
