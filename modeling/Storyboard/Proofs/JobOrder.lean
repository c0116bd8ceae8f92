import Storyboard.Proofs.RunChanges

/-!
# Orders of jobs

The jobs of a project may be done in any order, one whole job after the other. Each job keeps its number in the list
of jobs, and what comes of the jobs is reported by these numbers. If the jobs are done as they are listed, this is
the run of the project.
-/

namespace Storyboard

/-- An order of numbered jobs: it arranges each list of them. -/
structure JobOrder where
  /-- The jobs in this order. -/
  arrange : List (Job × Nat) → List (Job × Nat)
  /-- Each job is done once. -/
  perm : ∀ jobs, (arrange jobs).Perm jobs

namespace JobOrder

/-- The jobs as they are listed. -/
def listed : JobOrder := ⟨id, fun _ => .refl _⟩

/-- The last job first. -/
def reversed : JobOrder := ⟨List.reverse, List.reverse_perm⟩

/-- Every arrangement of jobs is that of some order. -/
theorem exists_arrange_eq {jobs arranged : List (Job × Nat)} (perm : arranged.Perm jobs) :
    ∃ order : JobOrder, order.arrange jobs = arranged := by
  refine ⟨⟨fun others => if others = jobs then arranged else others, fun others => ?_⟩, if_pos rfl⟩
  split_ifs with same
  · rw [same]
    exact perm
  · exact .refl others

end JobOrder

/-- Numbered outcomes in the order of their numbers. -/
def Outcome.inTurn (numbered : List (Outcome × Nat)) : List Outcome :=
  (numbered.mergeSort fun first second => first.2 ≤ second.2).map Prod.fst

/-- Numbered outcomes are in turn as they were before they were rearranged. -/
theorem Outcome.inTurn_of_perm {numbered : List (Outcome × Nat)} {outcomes : List Outcome}
    (perm : numbered.Perm outcomes.zipIdx) : inTurn numbered = outcomes := by
  have sorted : (numbered.mergeSort fun first second => first.2 ≤ second.2).Pairwise
      fun first second => first.2 ≤ second.2 := by
    refine (List.pairwise_mergeSort (fun first second third one two => ?_) (fun first second => ?_) _).imp
      of_decide_eq_true
    · rw [decide_eq_true_iff] at one two ⊢
      exact one.trans two
    · simpa using Nat.le_total first.2 second.2
  have numbers_sorted : outcomes.zipIdx.Pairwise fun first second => first.2 ≤ second.2 := by
    rw [← List.pairwise_map (f := Prod.snd), List.zipIdx_map_snd]
    exact List.pairwise_le_range'
  have unique : ∀ first second, first ∈ numbered.mergeSort (fun first second => first.2 ≤ second.2) →
      second ∈ outcomes.zipIdx → first.2 ≤ second.2 → second.2 ≤ first.2 → first = second := by
    rintro ⟨outcome, number⟩ ⟨other, other_number⟩ member member_other le ge
    obtain rfl : number = other_number := Nat.le_antisymm le ge
    have first_is := List.mk_mem_zipIdx_iff_getElem?.mp (perm.subset (List.mem_mergeSort.mp member))
    have second_is := List.mk_mem_zipIdx_iff_getElem?.mp member_other
    rw [Option.some.inj (first_is.symm.trans second_is)]
  have same := ((List.mergeSort_perm _ _).trans perm).eq_of_pairwise unique sorted numbers_sorted
  rw [inTurn, same, List.zipIdx_map_fst]

theorem Outcome.map_inTurn (f : Outcome → Outcome) (numbered : List (Outcome × Nat)) :
    (inTurn numbered).map f = inTurn (numbered.map (Prod.map f id)) := by
  have sorted : (numbered.mergeSort fun first second => first.2 ≤ second.2).map (Prod.map f id) =
      (numbered.map (Prod.map f id)).mergeSort fun first second => first.2 ≤ second.2 :=
    List.map_mergeSort fun _ _ _ _ => rfl
  rw [inTurn, inTurn, ← sorted, List.map_map, List.map_map]
  rfl

namespace Project

/-- Do a numbered job. -/
def runNumbered (project : Project) (cache : Option Cache) (job : Job × Nat) :
    DiskAction Failure (Outcome × Nat) := do
  return (← project.runJob cache job.1, job.2)

/-- Work on a project, the jobs in some order. -/
def runIn (project : Project) (order : JobOrder) : DiskAction Failure Report := do
  let (functionsIndex, jobs) ← project.prepare
  let cache ← project.openCache
  let numbered ← (order.arrange jobs.zipIdx).mapM (project.runNumbered cache)
  return Report.ofOutcomes functionsIndex (Outcome.inTurn numbered)

theorem on_runNumbered (project : Project) (cache : Option Cache) (job : Job × Nat) (disk : Disk) :
    (project.runNumbered cache job).on disk =
      match (project.runJob cache job.1).on disk with
      | (.ok outcome, after) => (.ok (outcome, job.2), after)
      | (.error failure, after) => (.error failure, after) := by
  rw [runNumbered, DiskAction.on_bind]
  rcases (project.runJob cache job.1).on disk with ⟨failure | outcome, after⟩
  · rfl
  · rfl

/-- The disk on which the jobs of a project start. -/
def ready (project : Project) (disk : Disk) : Disk := (project.openCache.on (project.prepare.on disk).2).2

theorem on_runIn (project : Project) (order : JobOrder) (disk : Disk) :
    (project.runIn order).on disk =
      match project.prepare.on disk with
      | (.error failure, after) => (.error failure, after)
      | (.ok (index, jobs), _) =>
        match ((order.arrange jobs.zipIdx).mapM (project.runNumbered project.cache?)).on (project.ready disk) with
        | (.ok numbered, after) => (.ok (Report.ofOutcomes index (Outcome.inTurn numbered)), after)
        | (.error failure, after) => (.error failure, after) := by
  rw [runIn, ready, DiskAction.on_bind]
  rcases project.prepare.on disk with ⟨failure | ⟨index, jobs⟩, prepared⟩
  · rfl
  · dsimp only
    obtain ⟨opened, opening, -⟩ := project.on_openCache prepared
    rw [DiskAction.on_bind, opening]
    dsimp only
    rw [DiskAction.on_bind]
    rcases ((order.arrange jobs.zipIdx).mapM (project.runNumbered project.cache?)).on opened with
      ⟨failure | numbered, after⟩
    · rfl
    · rfl

theorem on_runIn_of_prepared {project : Project} {disk prepared : Disk} {index : Option String} {jobs : List Job}
    (ready : project.prepare.on disk = (.ok (index, jobs), prepared)) (order : JobOrder) :
    (project.runIn order).on disk =
      let ran := ((order.arrange jobs.zipIdx).mapM (project.runNumbered project.cache?)).on (project.ready disk)
      (ran.1.map fun numbered => Report.ofOutcomes index (Outcome.inTurn numbered), ran.2) := by
  rw [on_runIn, ready]
  dsimp only
  rcases ((order.arrange jobs.zipIdx).mapM (project.runNumbered project.cache?)).on (project.ready disk) with
    ⟨failure | numbered, after⟩
  · rfl
  · rfl

/-- Numbered jobs as they are listed are done as the jobs are. -/
theorem on_mapM_zipIdx (project : Project) (cache : Option Cache) (jobs : List Job) (number : Nat) (disk : Disk) :
    ((jobs.zipIdx number).mapM (project.runNumbered cache)).on disk =
      match (jobs.mapM (project.runJob cache)).on disk with
      | (.ok outcomes, after) => (.ok (outcomes.zipIdx number), after)
      | (.error failure, after) => (.error failure, after) := by
  induction jobs generalizing number disk with
  | nil => rfl
  | cons job jobs ih =>
      rw [List.zipIdx_cons, DiskAction.on_mapM_cons, DiskAction.on_mapM_cons, on_runNumbered]
      rcases (project.runJob cache job).on disk with ⟨failure | outcome, mid⟩
      · rfl
      · dsimp only
        rw [ih]
        rcases (jobs.mapM (project.runJob cache)).on mid with ⟨failure | outcomes, after⟩
        · rfl
        · rfl

/-- **The run does the jobs as they are listed.** -/
theorem on_runIn_listed (project : Project) (disk : Disk) :
    (project.runIn .listed).on disk = project.run.on disk := by
  rw [on_runIn, on_run, ready]
  rcases project.prepare.on disk with ⟨failure | ⟨index, jobs⟩, prepared⟩
  · rfl
  · dsimp only
    rw [show JobOrder.listed.arrange jobs.zipIdx = jobs.zipIdx from rfl, on_mapM_zipIdx]
    rcases (jobs.mapM (project.runJob project.cache?)).on (project.openCache.on prepared).2 with
      ⟨failure | outcomes, after⟩
    · rfl
    · dsimp only
      rw [Outcome.inTurn_of_perm (.refl _)]

end Project

end Storyboard
