import Storyboard.Proofs.DiskChanges

/-!
# Files in a directory

A path that leads to a directory, through links or not, can be joined with the name of a file in it: the
joined path leads to the place of that name in the directory. Writing the file changes nothing on the way to
the directory, which holds directories and links only.
-/

namespace Storyboard

namespace Disk

variable {disk : Disk} {here base : Place}

theorem walk_link {target : String} (link : disk.at? here = some (.link target)) (names : List String) :
    disk.walk here names = .linked here target names := by
  cases names <;> simp [walk, link]

/-- When names lead to a directory, other names after them are looked for in that directory; when they come
to a link, the other names are left to be followed from it. Names that stay do not count. -/
theorem walk_append {front idle more : List String} (all_idle : idle.all stays = true) :
    (disk.walk here (front ++ idle) = .ended (.ok (.present base .directory)) →
      disk.walk here (front ++ more) = disk.walk base more) ∧
    ∀ place target rest, disk.walk here (front ++ idle) = .linked place target rest →
      ∃ left, rest = left ++ idle ∧ disk.walk here (front ++ more) = .linked place target (left ++ more) := by
  induction front generalizing here with
  | nil =>
      rw [List.nil_append, List.nil_append]
      rcases holds : disk.at? here with _ | ⟨bytes | _ | target⟩
      · cases idle with
        | nil => simp [walk, holds]
        | cons name idle => simp only [walk, holds, all_idle]; simp
      · cases idle <;> simp [walk, holds]
      · rw [walk_stays holds all_idle]
        refine ⟨?_, by simp⟩
        intro ended
        obtain rfl : here = base := by simpa using ended
        rfl
      · rw [walk_link holds, walk_link holds]
        refine ⟨by simp, ?_⟩
        intro place target' rest linked
        obtain ⟨rfl, rfl, rfl⟩ := by simpa using linked
        exact ⟨[], rfl, rfl⟩
  | cons name front ih =>
      rw [List.cons_append, List.cons_append]
      rcases holds : disk.at? here with _ | ⟨bytes | _ | target⟩
      · simp only [walk, holds]
        refine ⟨fun ended => ?_, by simp⟩
        split_ifs at ended <;> simp at ended
      · simp [walk, holds]
      · simp only [walk, holds]
        split_ifs
        · exact ih
        · simp
        · exact ih
        · exact ih
      · rw [walk_link holds, walk_link holds]
        refine ⟨by simp, ?_⟩
        intro place target' rest linked
        obtain ⟨rfl, rfl, rfl⟩ := by simpa using linked
        exact ⟨name :: front, rfl, rfl⟩

/-- The same through links: what comes after names that lead to a directory is looked for in it. A link at the
very end may be left alone, as long as the other names move somewhere. -/
theorem follow_append {throughLast : Bool} {links : Nat} {front idle more : List String}
    (all_idle : idle.all stays = true) (moves : throughLast = true ∨ more.all stays = false)
    (followed : disk.follow true links here (front ++ idle) = .ok (.present base .directory))
    {result : Except FileFault Found} (walked : disk.walk base more = .ended result) :
    disk.follow throughLast links here (front ++ more) = result := by
  -- Both ways go through the same links; each link only puts the names of its target in front.
  induction links generalizing here front with
  | zero => cases followed
  | succ links ih =>
      obtain ⟨ended_more, linked_more⟩ := @walk_append disk here base front idle more all_idle
      rw [follow] at followed ⊢
      split at followed
      · rename_i ended
        rw [ended_more (ended.trans (congrArg _ followed)), walked]
      · rename_i place target rest linked
        obtain ⟨left, rfl, linked_left⟩ := linked_more place target rest linked
        have not_last : (!throughLast && (left ++ more).all stays) = false := by
          rcases moves with rfl | moves
          · rfl
          · rw [List.all_append, moves, Bool.and_false, Bool.and_false]
        rw [linked_left]
        simp only [not_last, Bool.not_true, Bool.false_and, Bool.false_eq_true, if_false] at followed ⊢
        split_ifs at followed with absolute
        rw [if_neg absolute, ← List.append_assoc]
        exact ih (by rwa [List.append_assoc])

/-- What is joined to the path of a directory is looked for in the directory. -/
theorem locate_join {throughLast : Bool} {path rest : String} {joined : List String}
    (found : disk.find path = .ok (.present base .directory)) (relative : Path.isAbsolute rest = false)
    (some_rest : rest ≠ "") (moves : throughLast = true ∨ (Path.split rest).all stays = false)
    (inside : disk.namesBelowRoot? (Path.join path rest) = some joined)
    {result : Except FileFault Found} (walked : disk.walk base (Path.split rest) = .ended result) :
    disk.locate throughLast (Path.join path rest) = result := by
  rw [find, locate] at found
  rw [locate]
  split at found
  · rename_i names inside_path
    rw [inside]
    dsimp only
    obtain ⟨front, rfl, front_eq⟩ := namesBelowRoot?_join inside_path relative some_rest inside
    rcases front_eq with rfl | rfl
    · exact follow_append rfl moves (by rwa [List.append_nil]) walked
    · exact follow_append rfl moves found walked
  · cases found

/-- A name is joined to the path of a directory: the path leads to the place of that name, which is not a
link. -/
theorem locate_join_name (throughLast : Bool) {path name : String} {joined : List String}
    (found : disk.find path = .ok (.present base .directory)) (plain : '/' ∉ name.toList)
    (moves : stays name = false) (not_up : name ≠ "..")
    (inside : disk.namesBelowRoot? (Path.join path name) = some joined)
    (free : disk.linkAt? (base ++ [name]) = none) :
    disk.locate throughLast (Path.join path name) = .ok (match disk.at? (base ++ [name]) with
      | none => .absent (base ++ [name])
      | some content => .present (base ++ [name]) content) := by
  have holds : disk.at? base = some .directory := (find_ok found).2
  have relative : Path.isAbsolute name = false := by
    rw [← Bool.not_eq_true, Path.isAbsolute_iff]
    rintro ⟨rest, rfl⟩
    simp at plain
  have some_name : name ≠ "" := by
    rintro rfl
    simp [stays] at moves
  have single : Path.split name = [name] := by
    rw [Path.split, splitSlashes_of_notMem plain]
    simp
  refine locate_join found relative some_name (.inr (by simp [single, moves])) inside ?_
  rw [single]
  rcases there : disk.at? (base ++ [name]) with _ | ⟨_ | _ | target⟩
  · simp [walk, holds, moves, not_up, there]
  · simp [walk, holds, moves, not_up, there]
  · simp [walk, holds, moves, not_up, there]
  · exact absurd there (linkAt?_eq_none.mp free target)

/-- A path that ends with a plain name does not end with a slash. -/
theorem endsWith_join_name {path name : String} (plain : '/' ∉ name.toList) (some_name : name ≠ "") :
    (Path.join path name).endsWith "/" = false := by
  rw [← Bool.not_eq_true, Path.endsWith_slash_iff]
  rintro ⟨before, whole⟩
  have ends : ∃ front, front ++ name = before ++ "/" := by
    rw [← whole]
    unfold Path.join
    split_ifs
    · exact ⟨"", String.empty_append⟩
    · exact ⟨path, rfl⟩
    · exact ⟨path ++ "/", rfl⟩
  obtain ⟨front, ends⟩ := ends
  rcases Path.eq_empty_or_ends_of_append ends with nothing | ⟨text, rfl⟩
  · exact some_name nothing
  · simp at plain

/-- A path that leads to a directory still does when what changes was a file or nothing. -/
theorem find_directory_congr {other : Disk} {path : String}
    (found : disk.find path = .ok (.present base .directory)) (roots : other.root = disk.root)
    (same : ∀ place, (∃ held, disk.at? place = some held ∧ ∀ bytes, held ≠ .file bytes) →
      other.at? place = disk.at? place) :
    other.find path = .ok (.present base .directory) := by
  have directory : disk.isDirectory path = true := isDirectory_iff.mpr ⟨base, found⟩
  rw [find_congr roots fun place passed => same place (at?_of_isDirectory directory passed), found]

end Disk

end Storyboard
