import Storyboard.Proofs.StraightPaths
import Storyboard.Proofs.WriteConfinement

/-!
# The places of jobs

If no name of a target leads up, and no link is among the sources and the results, then a job is for a file straight
below the sources, and its result goes straight below the results by the same names. So no source is on the way to a
result, no result is on the way to a source, and no result is on the way to another one.
-/

namespace Storyboard

open Storyboard.Path (busy)

namespace Disk

variable {disk : Disk} {path rest : String} {here place : Place} {names joined : List String}

/-! ## Joining a path -/

/-- The names of a path below the root are its last pieces. -/
theorem suffix_pieces (inside : disk.namesBelowRoot? path = some names) : names <:+ Path.pieces path := by
  rcases namesBelowRoot?_eq_some_iff.mp inside with ⟨-, rfl⟩ | ⟨more, rfl, rfl⟩
  · exact List.nil_suffix
  · cases absolute : Path.isAbsolute (disk.root ++ "/" ++ more) with
    | false =>
        rw [Path.pieces_of_relative absolute, Path.split_append]
        exact List.suffix_append _ _
    | true =>
        obtain ⟨text, whole⟩ := Path.isAbsolute_iff.mp absolute
        rw [whole, Path.pieces_absolute]
        by_cases unnamed : disk.root = ""
        · rw [unnamed, String.empty_append, String.append_right_inj] at whole
          exact whole ▸ List.suffix_rfl
        · -- the slash that the path begins with belongs to the root
          have root_absolute := Path.isAbsolute_append unnamed ("/" ++ more)
          rw [← String.append_assoc, absolute] at root_absolute
          obtain ⟨front, root_eq⟩ := Path.isAbsolute_iff.mp root_absolute.symm
          rw [root_eq, String.append_assoc, String.append_assoc, String.append_right_inj,
            ← String.append_assoc] at whole
          rw [← whole, Path.split_append]
          exact List.suffix_append _ _

/-- What is joined to a path adds its names that lead on to those of the path. -/
theorem busy_join (inside : disk.namesBelowRoot? path = some names) (relative : Path.isAbsolute rest = false)
    (inside_joined : disk.namesBelowRoot? (Path.join path rest) = some joined) :
    busy joined = busy names ++ busy (Path.split rest) ∧ ∀ name ∈ joined, name ∈ names ∨ name ∈ Path.split rest := by
  by_cases nothing : rest = ""
  · subst nothing
    have no_more : busy (Path.split "") = [] := rfl
    rw [Path.join_of_relative path rfl, String.append_empty, Path.separator] at inside_joined
    rw [no_more, List.append_nil]
    split_ifs at inside_joined
    · rw [String.append_empty] at inside_joined
      obtain rfl := Option.some.inj (inside.symm.trans inside_joined)
      exact ⟨rfl, fun name member => .inl member⟩
    · have whole := namesBelowRoot?_append inside ""
      rw [String.append_empty, inside_joined, Option.some.injEq] at whole
      subst whole
      rw [Path.busy_append, no_more, List.append_nil]
      exact ⟨rfl, fun name member => List.mem_append.mp member⟩
  · obtain ⟨front, rfl, rfl | rfl⟩ := namesBelowRoot?_join inside relative nothing inside_joined
    · exact ⟨Path.busy_append _ _, fun name member => List.mem_append.mp member⟩
    · have empty_idle : busy [""] = [] := rfl
      rw [Path.busy_append, Path.busy_append front, empty_idle, List.append_nil]
      exact ⟨rfl, fun name member => (List.mem_append.mp member).imp_left (List.mem_append_left _)⟩

/-- What is joined to a path below the root lies below the root. -/
theorem exists_names_join (inside : disk.namesBelowRoot? path = some names) (below : names ≠ [])
    (relative : Path.isAbsolute rest = false) :
    ∃ joined, disk.namesBelowRoot? (Path.join path rest) = some joined := by
  rcases namesBelowRoot?_eq_some_iff.mp inside with ⟨-, nothing⟩ | ⟨more, rfl, -⟩
  · exact absurd nothing below
  · refine ⟨_, namesBelowRoot?_eq_some_iff.mpr
      (.inr ⟨more ++ Path.separator (disk.root ++ "/" ++ more) ++ rest, ?_, rfl⟩)⟩
    rw [Path.join_of_relative _ relative]
    simp only [String.append_assoc]

namespace Straight

/-- What is joined to a straight path without names that lead up is straight, as long as no link is below. -/
theorem join (straight : disk.Straight path place) (free : ∀ other, place <+: other → disk.linkAt? other = none)
    (relative : Path.isAbsolute rest = false) (no_up : ".." ∉ Path.split rest)
    (inside_joined : disk.namesBelowRoot? (Path.join path rest) = some joined) :
    disk.Straight (Path.join path rest) (place ++ busy (Path.split rest)) := by
  obtain ⟨⟨names, inside, names_no_up, rfl⟩, free_above⟩ := straight
  obtain ⟨busy_eq, from_either⟩ := busy_join inside relative inside_joined
  refine ⟨⟨joined, inside_joined, fun up => ?_, busy_eq⟩, fun other below => ?_⟩
  · exact (from_either ".." up).elim names_no_up no_up
  · rcases List.prefix_or_prefix_of_prefix below (List.prefix_append _ _) with above | below
    · exact free_above other above
    · exact free other below

/-- No link is met on a straight path. -/
theorem exists_walk (straight : disk.Straight path place) {found : Found} (is_found : disk.find path = .ok found) :
    ∃ names, disk.namesBelowRoot? path = some names ∧ disk.walk [] names = .ended (.ok found) := by
  obtain ⟨names, inside, -⟩ := straight.inside
  rw [find, locate, inside] at is_found
  dsimp only at is_found
  rw [follow] at is_found
  refine ⟨names, inside, ?_⟩
  rcases walked : disk.walk [] names with result | ⟨there, target, rest⟩
  · rw [walked] at is_found
    rw [show result = .ok found from is_found]
  · obtain ⟨passes, link⟩ := walk_linked walked
    have below := straight.mem_way_iff.mp ⟨names, rest, inside, passes⟩
    rw [straight.free there below] at link
    cases link

end Straight

/-- Names that lead to a file end with one that leads on. -/
theorem walk_file {bytes : ByteArray} (walked : disk.walk here names = .ended (.ok (.present place (.file bytes)))) :
    names = [] ∨ ∃ front last, names = front ++ [last] ∧ stays last = false := by
  induction names generalizing here with
  | nil => exact .inl rfl
  | cons name rest ih =>
      refine .inr ?_
      rcases holds : disk.at? here with _ | ⟨_ | _ | _⟩
      · simp only [walk, holds] at walked
        split_ifs at walked
        all_goals cases walked
      · simp [walk, holds] at walked
      · rcases walk_directory holds name rest with ⟨next, step, walk_eq⟩ | ⟨-, stopped⟩
        · rw [walk_eq] at walked
          rcases ih walked with rfl | ⟨front, last, rfl, moves⟩
          · refine ⟨[], name, rfl, ?_⟩
            by_contra idle
            rw [Bool.not_eq_false] at idle
            obtain rfl : here = next := by simpa [next?, linkAt?, holds, idle] using step
            simp [walk, holds] at walked
          · exact ⟨name :: front, last, rfl, moves⟩
        · rw [stopped] at walked
          cases walked
      · simp [walk, holds] at walked

/-- A file has a name that leads on among those that were joined last. -/
theorem Straight.busy_ne_nil_of_isFile (straight : disk.Straight (Path.join path rest) place)
    (relative : Path.isAbsolute rest = false) (is_file : disk.isFile (Path.join path rest) = true) :
    busy (Path.split rest) ≠ [] := by
  obtain ⟨there, bytes, is_found⟩ := isFile_iff.mp is_file
  obtain ⟨names, inside, walked⟩ := straight.exists_walk is_found
  rcases walk_file walked with rfl | ⟨front, last, rfl, moves⟩
  · simp [walk] at walked
  · have pieces_end : ∃ before, Path.pieces (Path.join path rest) = before ++ Path.split rest := by
      rcases (Path.pieces_join path relative).2 with whole | ⟨before, -, whole⟩
      · exact ⟨_, whole⟩
      · exact ⟨before, whole⟩
    obtain ⟨before, whole⟩ := pieces_end
    obtain ⟨more, pieces_eq⟩ := suffix_pieces inside
    rw [whole, ← List.append_assoc] at pieces_eq
    rcases List.eq_nil_or_concat (Path.split rest) with nothing | ⟨others, other, split_eq⟩
    · exact absurd nothing (by simp [Path.split, splitSlashes_ne_nil])
    · rw [split_eq, List.concat_eq_append, ← List.append_assoc] at pieces_eq
      obtain rfl : last = other := List.singleton_inj.mp (List.append_inj' pieces_eq rfl).2
      rw [split_eq, List.concat_eq_append, Path.busy_append, Path.busy_cons_of_moves moves]
      simp

end Disk

namespace Project

open Disk

variable {project : Project} {disk : Disk} {src out rel : Place} {path rest : String}

/-- A path of the configuration is relative, and no name of it leads up. -/
def IsDown (path : String) : Prop := Path.isAbsolute path = false ∧ ".." ∉ Path.split path

theorem isDown_of_isName {name : String} (named : IsName name) : IsDown name := by
  refine ⟨(isInner_of_isName named).1, fun up => ?_⟩
  rw [split_of_isName named, List.mem_singleton] at up
  subst up
  cases named.1

/-! ## Paths below the sources -/

/-- A path goes straight down from the sources, by the names that are left of it after those of the sources. -/
structure Descent (project : Project) (disk : Disk) (src rel : Place) (path : String) : Prop where
  /-- It goes straight to its place. -/
  straight : disk.Straight path (src ++ rel)
  /-- Both begin at the root, or neither does. -/
  absolute_eq : Path.isAbsolute path = Path.isAbsolute project.sources
  /-- What is left leads down. -/
  left : ∃ left, Path.afterNames? (Path.pieces path) (Path.names project.sources) = some left ∧ ".." ∉ left ∧
    busy left = rel

namespace Descent

theorem start (sources : disk.Straight project.sources src) : project.Descent disk src [] project.sources := by
  obtain ⟨left, after, idle⟩ := Path.afterNames?_names project.sources
  refine ⟨by rwa [List.append_nil], rfl, left, after, fun up => ?_, Path.busy_eq_nil idle⟩
  cases List.all_eq_true.mp idle ".." up

theorem join (descent : project.Descent disk src rel path) (free : ∀ place, src <+: place → disk.linkAt? place = none)
    (down : IsDown rest) {found : Found} (is_found : disk.find (Path.join path rest) = .ok found) :
    project.Descent disk src (rel ++ busy (Path.split rest)) (Path.join path rest) := by
  obtain ⟨straight, absolute_eq, left, after, no_up, rfl⟩ := descent
  obtain ⟨⟨joined, -, inside_joined, -⟩, -⟩ := find_ok is_found
  obtain ⟨joined_eq, pieces_eq⟩ := Path.pieces_join path down.1
  refine ⟨?_, joined_eq.trans absolute_eq, ?_⟩
  · rw [← List.append_assoc]
    exact straight.join (fun other below => free other ((List.prefix_append _ _).trans below)) down.1 down.2
      inside_joined
  · rcases pieces_eq with pieces_eq | ⟨front, front_eq, pieces_eq⟩
    · refine ⟨left ++ Path.split rest, ?_, by simp [no_up, down.2], Path.busy_append _ _⟩
      rw [pieces_eq]
      exact Path.afterNames?_append after _
    · rw [front_eq] at after
      obtain ⟨left, rfl, after_front⟩ := Path.afterNames?_of_append_empty after (Path.empty_notMem_names _)
      have empty_idle : busy [""] = [] := rfl
      refine ⟨left ++ Path.split rest, ?_, ?_, ?_⟩
      · rw [pieces_eq]
        exact Path.afterNames?_append after_front _
      · rw [List.mem_append, not_or] at no_up ⊢
        exact ⟨no_up.1, down.2⟩
      · rw [Path.busy_append, Path.busy_append, empty_idle, List.append_nil]

/-- The result of a file below the sources goes straight below the results, by the same names. -/
theorem result (descent : project.Descent disk src rel path) (below : rel ≠ [])
    (results : disk.Straight project.results out) (free : ∀ place, out <+: place → disk.linkAt? place = none)
    (some_out : out ≠ []) : disk.Descends (project.resultPath path) (out ++ rel) := by
  obtain ⟨-, absolute_eq, left, after, no_up, rfl⟩ := descent
  obtain ⟨part, kept, dropped, is_part, relative, left_eq, idle, ends⟩ := Path.exists_below? absolute_eq after
  have busy_left : busy left = busy kept := by
    have whole := List.takeWhile_append_dropWhile (p := Path.isIdle false) (l := left)
    have idle_front : (left.takeWhile (Path.isIdle false)).all stays = true := by
      rw [← Path.isIdle_false, List.all_takeWhile]
    rw [← whole, left_eq, Path.busy_append, Path.busy_append, Path.busy_eq_nil idle_front, Path.busy_eq_nil idle,
      List.nil_append, List.append_nil]
  rw [busy_left] at below ⊢
  obtain ⟨rfl, front, last, kept_eq, moves⟩ := ends.resolve_left fun nothing => below (by rw [nothing.1]; rfl)
  have part_no_up : ".." ∉ Path.split part := fun up =>
    no_up ((List.dropWhile_suffix _).subset (left_eq ▸ List.mem_append_left _ up))
  obtain ⟨names, inside, -, names_eq⟩ := results.inside
  have some_names : names ≠ [] := by
    rintro rfl
    exact some_out names_eq.symm
  obtain ⟨joined, inside_joined⟩ := exists_names_join inside some_names relative
  rw [resultPath, is_part, Option.getD_some]
  refine ⟨results.join free relative part_no_up inside_joined, ?_, fun before name same => ?_⟩
  · have out_length := List.length_pos_iff.mpr some_out
    have rel_length := List.length_pos_iff.mpr below
    rw [List.length_append]
    omega
  · have some_part : part ≠ "" := by
      rintro rfl
      exact below rfl
    obtain ⟨names_front, joined_eq, -⟩ := namesBelowRoot?_join inside relative some_part inside_joined
    rw [inside_joined, Option.some.injEq, joined_eq, kept_eq, ← List.append_assoc] at same
    rw [← List.singleton_inj.mp (List.append_inj' same rfl).2, moves]

end Descent

/-! ## The places of jobs -/

/-- Targets lead down, no link is among the sources and the results, and these lie apart. -/
structure LiesApart (project : Project) (src out : Place) (disk : Disk) : Prop where
  /-- Places are named by names. -/
  named : disk.HasNames
  /-- No name of a target leads up. -/
  targets_down : ∀ target ∈ project.config.targets, IsDown target.path
  /-- The path of the sources goes straight to them. -/
  sources : disk.Straight project.sources src
  /-- The path of the results goes straight to them. -/
  results : disk.Straight project.results out
  /-- No link is among the sources. -/
  sources_free : ∀ place, src <+: place → disk.linkAt? place = none
  /-- No link is among the results. -/
  results_free : ∀ place, out <+: place → disk.linkAt? place = none
  /-- The results are not below the sources. -/
  results_not_below : ¬src <+: out
  /-- The sources are not below the results. -/
  sources_not_below : ¬out <+: src

theorem LiesApart.of_changes {made written : Set Place} {after : Disk} (apart : project.LiesApart src out disk)
    (changes : Changes made written disk after) (named : after.HasNames) : project.LiesApart src out after where
  named := named
  targets_down := apart.targets_down
  sources := apart.sources.of_changes changes
  results := apart.results.of_changes changes
  sources_free place below := by rw [changes.linkAt?_eq, apart.sources_free place below]
  results_free place below := by rw [changes.linkAt?_eq, apart.results_free place below]
  results_not_below := apart.results_not_below
  sources_not_below := apart.sources_not_below

/-- A job is for a file below the sources, and its result goes the same way below the results. -/
structure Placed (project : Project) (src out : Place) (disk : Disk) (job : Job) (rel : Place) : Prop where
  /-- Its path goes straight to the file. -/
  source : disk.Straight job.path (src ++ rel)
  /-- A file is there. -/
  file : ∃ bytes, disk.at? (src ++ rel) = some (.file bytes)
  /-- Directories are above. -/
  above : ∀ other, other <+: src ++ rel → other ≠ src ++ rel → disk.at? other = some .directory
  /-- The path of the result goes straight down. -/
  result : disk.Descends (project.resultPath job.path) (out ++ rel)

theorem exists_placed (apart : project.LiesApart src out disk) {jobs : List Job}
    (listed : project.jobs disk = .ok jobs) : ∀ job ∈ jobs, ∃ rel, project.Placed src out disk job rel := by
  intro job member
  obtain ⟨path, rest, ⟨rel, descent⟩, down, job_eq, is_file⟩ := forall_mem_jobs
    (P := fun path => ∃ rel, project.Descent disk src rel path) apart.named apart.targets_down
    (fun _ => isDown_of_isName)
    (fun path rest ⟨rel, descent⟩ down found is_found => ⟨_, descent.join apart.sources_free down is_found⟩)
    ⟨[], .start apart.sources⟩ listed job member
  obtain ⟨place, bytes, is_found⟩ := isFile_iff.mp is_file
  rw [job_eq] at is_found is_file
  have joined := descent.join apart.sources_free down is_found
  have some_rest := joined.straight.busy_ne_nil_of_isFile down.1 is_file
  have some_out : out ≠ [] := fun nothing => apart.sources_not_below (nothing ▸ List.nil_prefix)
  obtain ⟨leads, holds⟩ := find_ok is_found
  obtain rfl := leads.unique joined.straight.leads
  refine ⟨_, job_eq ▸ joined.straight, ⟨bytes, holds⟩, fun other below differ => ?_, ?_⟩
  · rcases find_way is_found (joined.straight.mem_way_iff.mpr below) with ⟨held, holds, not_file⟩ | same
    · cases held with
      | file bytes => exact absurd rfl (not_file bytes)
      | directory => exact holds
      | link target => exact absurd holds (linkAt?_eq_none.mp (joined.straight.free other below) target)
    · exact absurd same differ
  · rw [job_eq]
    exact joined.result (by simp [some_rest]) apart.results apart.results_free some_out

namespace Placed

variable {job other : Job} {more : Place}

/-- Where directories are made only, jobs keep their places. -/
theorem of_changes {made : Set Place} {after : Disk} (placed : project.Placed src out disk job rel)
    (changes : Changes made ∅ disk after) : project.Placed src out after job rel := by
  have kept : ∀ {place held}, disk.at? place = some held → after.at? place = some held := by
    intro place held holds
    rcases changes.place_cases place with same | ⟨-, empty, -⟩ | ⟨none_written, -⟩
    · rw [same, holds]
    · rw [holds] at empty
      cases empty
    · exact none_written.elim
  obtain ⟨bytes, holds⟩ := placed.file
  exact ⟨placed.source.of_changes changes, ⟨bytes, kept holds⟩,
    fun other below differ => kept (placed.above other below differ), placed.result.of_changes changes⟩

/-- No file is on the way to another one. -/
theorem rel_eq (placed : project.Placed src out disk job rel) (placed_other : project.Placed src out disk other more)
    (below : rel <+: more) : rel = more := by
  by_contra differ
  have above := placed_other.above (src ++ rel) ((List.prefix_append_right_inj src).mpr below) (by simpa using differ)
  obtain ⟨bytes, holds⟩ := placed.file
  rw [above] at holds
  cases holds

end Placed

/-- No place below the results is above one of the sources, and the other way round. -/
theorem LiesApart.not_isPrefix (apart : project.LiesApart src out disk) (rel more : Place) :
    ¬out ++ rel <+: src ++ more ∧ ¬src ++ rel <+: out ++ more := by
  constructor
  · intro below
    rcases List.prefix_or_prefix_of_prefix ((List.prefix_append _ _).trans below) (List.prefix_append src more) with
      above | above
    · exact apart.sources_not_below above
    · exact apart.results_not_below above
  · intro below
    rcases List.prefix_or_prefix_of_prefix ((List.prefix_append _ _).trans below) (List.prefix_append out more) with
      above | above
    · exact apart.results_not_below above
    · exact apart.sources_not_below above

end Project

end Storyboard
