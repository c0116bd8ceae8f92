import Storyboard.Project
import Storyboard.Proofs.DiskChanges

/-!
# What work on a project changes

A result is written to the place that its path leads to, after the directories above it were made.
-/

namespace Storyboard

open Disk

/-- The places that the path above a path passes. -/
def Disk.wayAbove (disk : Disk) (path : String) : Set Place :=
  { place | ∃ above, Path.parent? path = some above ∧ above ≠ "" ∧ place ∈ disk.way above }

theorem Cache.run_attempt (action : DiskAction FileFault Unit) (disk : Disk) :
    (Cache.attempt action).run disk = ((), (action.on disk).2) := rfl

namespace Project

theorem on_blaming {α : Type} (path : String) (action : DiskAction FileFault α) (disk : Disk) :
    (blaming path action).on disk =
      match action.on disk with
      | (.ok value, after) => (.ok value, after)
      | (.error fault, after) => (.error (.unreachable path fault), after) := by
  rw [blaming, DiskAction.on_bind]
  rcases found : action.on disk with ⟨_ | _, after⟩
  all_goals
    have lifted : (liftM (action.run : StateM Disk (Except FileFault α)) :
      DiskAction Failure (Except FileFault α)).on disk = (.ok (action.on disk).1, (action.on disk).2) := rfl
    rw [lifted, found]
    rfl

/-- Making the directories above a path adds directories on its way; if it succeeds, the path above leads
through directories and links. -/
theorem on_makeAbove (path : String) (disk : Disk) :
    Changes (disk.wayAbove path) ∅ disk ((makeAbove path).on disk).2 ∧
      (((makeAbove path).on disk).1 = .ok () ∧
          (∀ place ∈ disk.wayAbove path, ∃ held, ((makeAbove path).on disk).2.at? place = some held ∧
            ∀ bytes, held ≠ .file bytes) ∨
        ∃ above fault, ((makeAbove path).on disk).1 = .error (.unreachable above fault)) := by
  rw [makeAbove]
  split
  · rename_i above is_above
    by_cases nothing : above = ""
    · subst nothing
      refine ⟨.refl, .inl ⟨rfl, ?_⟩⟩
      rintro place ⟨other, is_above', some_above, -⟩
      exact absurd (Option.some.inj (is_above'.symm.trans is_above)) some_above
    · obtain ⟨changes, there⟩ := on_makeDirectories (above.length + 1) above disk
      have changes : Changes (disk.wayAbove path) ∅ disk _ := changes.mono
        (fun place passed _ => ⟨above, is_above, nothing, passed⟩) (Set.Subset.refl _)
      rw [on_blaming, makeAllDirectories]
      rcases result : (makeDirectories (above.length + 1) above).on disk with ⟨fault | done, after⟩
      · rw [result] at changes
        exact ⟨changes, .inr ⟨above, fault, rfl⟩⟩
      · rw [result] at changes there
        refine ⟨changes, .inl ⟨rfl, ?_⟩⟩
        rintro place ⟨other, is_above', some_above, passed⟩
        obtain rfl := Option.some.inj (is_above.symm.trans is_above')
        have directory := (there rfl).resolve_left nothing
        exact at?_of_isDirectory directory (changes.way_eq above ▸ passed)
  · rename_i no_above
    refine ⟨.refl, .inl ⟨rfl, ?_⟩⟩
    rintro place ⟨other, is_above, -⟩
    rw [no_above] at is_above
    cases is_above

theorem wayAbove_subset {disk : Disk} {path : String} {place : Place} (passed : place ∈ disk.wayAbove path)
    (below : place ≠ []) : place ∈ disk.way path := by
  obtain ⟨above, is_above, -, passed⟩ := passed
  exact mem_way_of_mem_way_parent is_above passed below

/-- A result is written to the place that its path leads to, once every place on the way above holds a directory
or a link; or it is not written. -/
theorem on_writeResult (path text : String) (disk : Disk) :
    (∃ mid place, Changes (disk.wayAbove path) ∅ disk mid ∧
      (∀ place ∈ disk.wayAbove path, ∃ held, mid.at? place = some held ∧ ∀ bytes, held ≠ .file bytes) ∧
      disk.Leads path place ∧ (mid.at? place = none ∨ ∃ bytes, mid.at? place = some (.file bytes)) ∧
      (writeResult path text).on disk = (.ok (), mid.put place (.file text.toUTF8))) ∨
    ∃ mid blamed fault, Changes (disk.wayAbove path) ∅ disk mid ∧
      (writeResult path text).on disk = (.error (.unreachable blamed fault), mid) := by
  obtain ⟨changes, outcome⟩ := on_makeAbove path disk
  rw [writeResult, DiskAction.on_bind]
  rcases result : (makeAbove path).on disk with ⟨failure | done, mid⟩
  · rw [result] at changes outcome
    obtain ⟨above, fault, failed⟩ := outcome.resolve_left (by simp)
    obtain rfl := Except.error.inj failed
    exact .inr ⟨mid, above, fault, changes, rfl⟩
  · rw [result] at changes outcome
    obtain ⟨-, present⟩ := outcome.resolve_right (by simp)
    simp only [on_blaming]
    rcases on_writeText path text mid with ⟨place, leads, holds, written⟩ | ⟨fault, failed⟩
    · rw [written]
      exact .inl ⟨mid, place, changes, present, changes.leads_iff.mp leads, holds, rfl⟩
    · rw [failed]
      exact .inr ⟨mid, path, fault, changes, rfl⟩

/-- Writing a result changes the place that its path leads to, and adds directories on its way. -/
theorem changes_writeResult (path text : String) (disk : Disk) :
    Changes (disk.way path) { place | disk.Leads path place } disk ((writeResult path text).on disk).2 := by
  have above : ∀ {mid}, Changes (disk.wayAbove path) ∅ disk mid →
      Changes (disk.way path) { place | disk.Leads path place } disk mid := fun changes =>
    changes.mono (fun place passed below => wayAbove_subset passed below) (Set.empty_subset _)
  rcases on_writeResult path text disk with ⟨mid, place, changes, -, leads, holds, written⟩ |
    ⟨mid, blamed, fault, changes, failed⟩
  · rw [written]
    have below : place ≠ [] := by
      rintro rfl
      simp at holds
    have free : mid.linkAt? place = none := by
      rcases holds with empty | ⟨old, file⟩ <;> simp [linkAt?, *]
    exact (above changes).trans (changes_put_file below free _ leads)
  · rw [failed]
    exact above changes

/-! ## Parts of a run -/

theorem on_readText (path : String) (disk : Disk) :
    (readText path).on disk =
      match disk.readText path with
      | .ok text => (.ok text, disk)
      | .error fault => (.error (.unreachable path fault), disk) := by
  rw [readText, DiskAction.on_bind, DiskAction.on_get]
  dsimp only
  rcases disk.readText path with fault | text
  · exact DiskAction.on_throw _ _
  · exact DiskAction.on_pure _ _

/-- The index of the functions goes to its place among the results. -/
def indexResult (project : Project) : String := Path.join project.results project.config.functionsIndex

/-- Generating the functions index writes its result at most. -/
theorem changes_generateIndex (project : Project) (disk : Disk) :
    Changes (disk.way project.indexResult) { place | disk.Leads project.indexResult place } disk
      (project.generateIndex.on disk).2 := by
  rw [generateIndex, DiskAction.on_bind, DiskAction.on_get]
  dsimp only
  split_ifs with missing
  · exact .refl
  · rw [DiskAction.on_bind, on_readText]
    rcases disk.readText (Path.join project.root project.indexLabel) with fault | text
    · exact .refl
    · dsimp only
      rcases FunctionIndex.generate ⟨project.indexLabel, text⟩ project.config.extract with error | code
      · exact .refl
      · cases code with
        | none => exact .refl
        | some code =>
            have changes := changes_writeResult project.indexResult code disk
            dsimp only
            rw [DiskAction.on_bind]
            rw [indexResult] at changes ⊢
            rcases written : (writeResult (Path.join project.results project.config.functionsIndex) code).on disk
              with ⟨failure | done, after⟩
            · rwa [written] at changes
            · rwa [written] at changes

/-- Listing the jobs changes nothing more. -/
theorem changes_prepare (project : Project) (disk : Disk) :
    Changes (disk.way project.indexResult) { place | disk.Leads project.indexResult place } disk
      (project.prepare.on disk).2 := by
  have changes := changes_generateIndex project disk
  rw [prepare, DiskAction.on_bind]
  rcases generated : project.generateIndex.on disk with ⟨failure | index, after⟩
  · rwa [generated] at changes
  · rw [generated] at changes
    dsimp only
    rw [DiskAction.on_bind, DiskAction.on_get]
    dsimp only
    rcases project.jobs after with failure | jobs
    · exact changes
    · exact changes

/-- If the jobs that are listed are known, so are those of every preparation that succeeds. -/
theorem jobs_eq_of_prepare {project : Project} {disk : Disk} {index : Option String} {jobs listed : List Job}
    (lists : (project.prepare.on disk).1.toOption.map Prod.snd = some listed)
    (prepared : (project.prepare.on disk).1 = .ok (index, jobs)) : jobs = listed := by
  rw [prepared] at lists
  exact Option.some.inj lists

/-- Where the cache of a project is, and the options it is used with. -/
def cache? (project : Project) : Option Cache :=
  project.config.cacheDir.map fun directory => ⟨Path.join project.root directory, project.config.extract⟩

/-- Opening a cache makes the directories on its way. -/
theorem on_openCache (project : Project) (disk : Disk) :
    ∃ opened, project.openCache.on disk = (.ok project.cache?, opened) ∧
      match project.cache? with
      | none => opened = disk
      | some cache => Changes (disk.way cache.directory) ∅ disk opened := by
  rw [openCache, cache?]
  rcases project.config.cacheDir with _ | directory
  · exact ⟨disk, rfl, rfl⟩
  · dsimp only
    rw [DiskAction.on_bind, DiskAction.on_lift, Cache.openAt, StateT.run_bind, StateT.run_get, pure_bind]
    dsimp only
    by_cases there : disk.has (Path.join project.root directory) = true
    · rw [if_pos there]
      exact ⟨disk, rfl, .refl⟩
    · rw [if_neg there, StateT.run_bind, Cache.run_attempt]
      exact ⟨((makeAllDirectories (Path.join project.root directory)).on disk).2, rfl, (on_makeDirectories _ _ _).1⟩

theorem on_deliver (project : Project) (job : Job) (extraction : Extraction) (isCached : Bool) (disk : Disk) :
    (project.deliver job extraction isCached).on disk =
      match extraction.code with
      | none => (.ok ⟨job.path, none, extraction.diagnostics, isCached⟩, disk)
      | some code =>
        match (writeResult (project.resultPath job.path) code).on disk with
        | (.ok _, after) =>
          (.ok ⟨job.path, some (project.resultPath job.path), extraction.diagnostics, isCached⟩, after)
        | (.error failure, after) => (.error failure, after) := by
  rw [deliver]
  rcases extraction.code with _ | code
  · rfl
  · dsimp only
    rw [DiskAction.on_bind]
    rcases (writeResult (project.resultPath job.path) code).on disk with ⟨failure | done, after⟩
    · rfl
    · rfl

/-- A job writes to the place of its result at most. -/
theorem changes_deliver (project : Project) (job : Job) (extraction : Extraction) (isCached : Bool) (disk : Disk) :
    Changes (disk.way (project.resultPath job.path)) { place | disk.Leads (project.resultPath job.path) place } disk
      ((project.deliver job extraction isCached).on disk).2 := by
  rw [on_deliver]
  rcases extraction.code with _ | code
  · exact .refl
  · have changes := changes_writeResult (project.resultPath job.path) code disk
    dsimp only
    rcases written : (writeResult (project.resultPath job.path) code).on disk with ⟨failure | done, after⟩
    · rwa [written] at changes
    · rwa [written] at changes

theorem on_runJob (project : Project) (cache : Option Cache) (job : Job) (disk : Disk) :
    (project.runJob cache job).on disk =
      match disk.readText job.path with
      | .error fault => (.error (.unreachable job.path fault), disk)
      | .ok text =>
        match (project.obtain cache job text).on disk with
        | (.ok (extraction, isCached), after) => (project.deliver job extraction isCached).on after
        | (.error failure, after) => (.error failure, after) := by
  rw [runJob, DiskAction.on_bind, on_readText]
  rcases disk.readText job.path with fault | text
  · rfl
  · dsimp only
    rw [DiskAction.on_bind]
    rcases (project.obtain cache job text).on disk with ⟨failure | ⟨extraction, isCached⟩, after⟩
    · rfl
    · rfl

/-- A run prepares its jobs, opens the cache, does the jobs and reports on them. -/
theorem on_run (project : Project) (disk : Disk) :
    project.run.on disk =
      match project.prepare.on disk with
      | (.error failure, after) => (.error failure, after)
      | (.ok (index, jobs), prepared) =>
        match (jobs.mapM (project.runJob project.cache?)).on (project.openCache.on prepared).2 with
        | (.ok outcomes, after) => (.ok (Report.ofOutcomes index outcomes), after)
        | (.error failure, after) => (.error failure, after) := by
  rw [run, DiskAction.on_bind]
  rcases project.prepare.on disk with ⟨failure | ⟨index, jobs⟩, prepared⟩
  · rfl
  · dsimp only
    obtain ⟨opened, opening, -⟩ := project.on_openCache prepared
    rw [DiskAction.on_bind, opening]
    dsimp only
    rw [DiskAction.on_bind]
    rcases (jobs.mapM (project.runJob project.cache?)).on opened with ⟨failure | outcomes, after⟩
    · rfl
    · rfl

end Project

end Storyboard
