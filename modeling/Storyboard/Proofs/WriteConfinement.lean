import Storyboard.Proofs.KeptExtractions
import Storyboard.Proofs.SourcesBelow

/-!
# Where a run writes

A run writes below the directories of its results and its cache, if the paths of its configuration never lead
above where they start: what is joined to the path of a directory without links then leads to a place in that
directory. A target that goes up and comes back is the way out: its result goes the same way from the directory
of the results, and lands on the source.
-/

namespace Storyboard

open Disk

/-! ## Joining three paths -/

namespace Path

/-- What stands between a path and what is joined to it. -/
def separator (base : String) : String := if base.isEmpty || base.endsWith "/" then "" else "/"

theorem join_of_relative (base : String) {rest : String} (relative : isAbsolute rest = false) :
    join base rest = base ++ separator base ++ rest := by
  rw [join, relative, if_neg Bool.false_ne_true, separator]
  split_ifs
  · rw [String.append_empty]
  · rfl

theorem separator_append (front : String) {text : String} (some_text : text ≠ "") :
    separator (front ++ text) = separator text := by
  have ends_eq : (front ++ text).endsWith "/" = text.endsWith "/" := by
    rw [Bool.eq_iff_iff, endsWith_slash_iff, endsWith_slash_iff]
    constructor
    · rintro ⟨before, whole⟩
      exact (eq_empty_or_ends_of_append whole).resolve_left some_text
    · rintro ⟨before, rfl⟩
      exact ⟨front ++ before, by rw [String.append_assoc]⟩
  have not_empty : (front ++ text).isEmpty = text.isEmpty := by
    rw [Bool.eq_iff_iff, String.isEmpty_iff, String.isEmpty_iff, String.append_eq_empty_iff]
    simp [some_text]
  rw [separator, separator, ends_eq, not_empty]

theorem separator_append_separator (base : String) : separator (base ++ separator base) = "" := by
  by_cases short : (base.isEmpty || base.endsWith "/") = true
  · have nothing : separator base = "" := if_pos short
    rw [nothing, String.append_empty, nothing]
  · have slash : separator base = "/" := if_neg short
    have ends : (base ++ "/").endsWith "/" = true := endsWith_slash_iff.mpr ⟨base, rfl⟩
    rw [slash, separator, ends, Bool.or_true, if_pos rfl]

/-- Joining is associative while the last path is relative. -/
theorem join_assoc (base mid : String) {rest : String} (relative : isAbsolute rest = false) :
    join base (join mid rest) = join (join base mid) rest := by
  by_cases nothing : mid = ""
  · subst nothing
    have none_between : separator "" = "" := rfl
    rw [join_of_relative "" relative, none_between, String.empty_append, String.empty_append,
      join_of_relative base relative, join_of_relative base rfl, String.append_empty,
      join_of_relative _ relative, separator_append_separator, String.append_empty]
  cases absolute : isAbsolute mid with
  | true =>
      have joined_absolute : isAbsolute (join mid rest) = true := by
        rw [join_of_relative mid relative, String.append_assoc, isAbsolute_append nothing, absolute]
      have same : join base mid = mid := if_pos absolute
      rw [same]
      exact if_pos joined_absolute
  | false =>
      have joined_relative : isAbsolute (join mid rest) = false := by
        rw [join_of_relative mid relative, String.append_assoc, isAbsolute_append nothing, absolute]
      rw [join_of_relative base joined_relative, join_of_relative mid relative, join_of_relative base absolute,
        join_of_relative _ relative, separator_append _ nothing]
      simp only [String.append_assoc]

end Path

/-! ## Places below a directory -/

namespace Disk

/-- Names that stay below lead to places below, where no link is. -/
theorem Passes.isPrefix_of_staysBelow {disk : Disk} {base : Place} (extra : Place) {names : List String} {stop : Stop}
    (free : ∀ place, base <+: place → disk.linkAt? place = none)
    (below : Path.staysBelow extra.length names = true) (passes : disk.Passes (base ++ extra, names) stop) :
    base <+: stop.1 := by
  induction names generalizing extra with
  | nil =>
      rcases passes.eq_or_head with rfl | ⟨next, step, -⟩
      · exact List.prefix_append _ _
      · simp [next?, free _ (List.prefix_append _ _)] at step
  | cons name rest ih =>
      rcases passes.eq_or_head with rfl | ⟨next, step, later⟩
      · exact List.prefix_append _ _
      · rw [Path.staysBelow_cons] at below
        simp only [next?, free _ (List.prefix_append base extra)] at step
        split_ifs at below step with idle up root
        · obtain rfl := Option.some.inj step
          exact ih extra below later
        · obtain rfl := Option.some.inj step
          rw [Bool.and_eq_true, decide_eq_true_iff] at below
          have some_extra : extra ≠ [] := List.length_pos_iff.mp below.1
          rw [List.dropLast_append_of_ne_nil some_extra] at later
          exact ih extra.dropLast (by rw [List.length_dropLast]; exact below.2) later
        · obtain rfl := Option.some.inj step
          rw [List.append_assoc] at later
          exact ih (extra ++ [name]) (by rw [List.length_append]; exact below) later

/-- What is joined to a path leads to places below the one that the path leads to, if it never leads above where
it starts. -/
theorem exists_base_of_leads_join {disk : Disk} {path rest : String} {place : Place} (clear : disk.IsClear path)
    (inner : Project.IsInner rest) (leads : disk.Leads (Path.join path rest) place) :
    ∃ base, disk.Leads path base ∧ base <+: place := by
  obtain ⟨relative, below⟩ := inner
  obtain ⟨names, inside⟩ := clear.inside
  by_cases nothing : rest = ""
  · subst nothing
    rw [Path.join_of_relative path rfl, String.append_empty, Path.separator] at leads
    split_ifs at leads
    · rw [String.append_empty] at leads
      exact ⟨place, leads, List.prefix_rfl⟩
    · obtain ⟨joined, left, inside_joined, passes, idle, free⟩ := leads
      have whole := namesBelowRoot?_append inside ""
      rw [String.append_empty, inside_joined, Option.some.injEq] at whole
      rw [whole] at passes
      rcases passes.split with ⟨before, rfl, earlier⟩ | ⟨base, to_base, free_base, later⟩
      · rw [List.all_append, Bool.and_eq_true] at idle
        exact ⟨place, ⟨names, before, inside, earlier, idle.1, free⟩, List.prefix_rfl⟩
      · obtain rfl : place = base := Passes.eq_of_stays free_base rfl later
        exact ⟨place, ⟨names, [], inside, to_base, rfl, free⟩, List.prefix_rfl⟩
  · obtain ⟨joined, left, inside_joined, passes, idle, free⟩ := leads
    rcases passes.of_join inside relative nothing inside_joined with
      ⟨before, end_idle, rfl, all_idle, earlier⟩ | ⟨base, to_base, later⟩
    · rw [List.all_append, Bool.and_eq_true] at idle
      have still_idle : (before ++ end_idle).all stays = true := by
        rw [List.all_append, idle.1, all_idle, Bool.and_self]
      exact ⟨place, ⟨names, _, inside, earlier, still_idle, free⟩, List.prefix_rfl⟩
    · rw [← List.append_nil base] at later
      exact ⟨base, to_base, Passes.isPrefix_of_staysBelow [] (clear.free base to_base) below later⟩

/-- Where no link is in the directory that a path leads to, none is in directories in it. -/
theorem IsClear.join {disk : Disk} {path rest : String} (clear : disk.IsClear path) (inner : Project.IsInner rest)
    {found : Found} (is_found : disk.find (Path.join path rest) = .ok found) : disk.IsClear (Path.join path rest) := by
  constructor
  · obtain ⟨⟨names, -, inside, -⟩, -⟩ := find_ok is_found
    exact ⟨names, inside⟩
  · intro base leads place below
    obtain ⟨above, leads_above, is_below⟩ := exists_base_of_leads_join clear inner leads
    exact clear.free above leads_above place (is_below.trans below)

/-- A list of actions changes what each of them may change. -/
theorem changes_mapM {α β ε : Type} {step : α → DiskAction ε β} {items : List α} {made written : Set Place}
    {disk : Disk} (each : ∀ item ∈ items, ∀ mid, Changes made written disk mid →
      Changes made written mid ((step item).on mid).2) :
    Changes made written disk ((items.mapM step).on disk).2 := by
  suffices later : ∀ mid, Changes made written disk mid → Changes made written disk ((items.mapM step).on mid).2 from
    later disk .refl
  induction items with
  | nil => exact fun mid changes => changes
  | cons item items ih =>
      intro mid changes
      have first := changes.trans (each item List.mem_cons_self mid changes)
      have rest := ih fun other member => each other (List.mem_cons_of_mem _ member)
      rw [DiskAction.on_mapM_cons]
      rcases done : (step item).on mid with ⟨failure | value, after⟩
      · rwa [done] at first
      · rw [done] at first
        have last := rest after first
        dsimp only
        rcases all_done : (items.mapM step).on after with ⟨failure | values, final⟩
        · rwa [all_done] at last
        · rwa [all_done] at last

end Disk

namespace Project

/-! ## The places of a run -/

/-- The places below the directories of the results and of the cache. -/
def outputs (project : Project) (disk : Disk) : Set Place :=
  { place | ∃ base, (disk.Leads project.results base ∨
    ∃ cache, project.cache? = some cache ∧ disk.Leads cache.directory base) ∧ base <+: place }

/-- The paths of the files that are read as sources: the functions index, and the files of the jobs. -/
def sourcePaths (project : Project) (disk : Disk) : Set String :=
  { path | path = Path.join project.root project.indexLabel ∨
    ∃ index jobs, (project.prepare.on disk).1 = .ok (index, jobs) ∧ path ∈ jobs.map Job.path }

/-- The paths of the configuration never lead above where they start, no links are in the directories of the
project, and the sources are kept apart from what is written. -/
structure IsConfined (project : Project) (disk : Disk) : Prop where
  /-- Places are named by names. -/
  named : disk.HasNames
  /-- Targets stay below the sources. -/
  targets_inner : ∀ target ∈ project.config.targets, IsInner target.path
  /-- The functions index stays below the sources. -/
  index_inner : IsInner project.config.functionsIndex
  /-- No link is among the sources. -/
  sources_clear : disk.IsClear project.sources
  /-- No link is among the results. -/
  results_clear : disk.IsClear project.results
  /-- No link is in the cache. -/
  cache_clear : ∀ cache, project.cache? = some cache → disk.IsClear cache.directory
  /-- No source is among the results or in the cache. -/
  sources_apart : ∀ base, disk.Leads project.sources base → ∀ place, base <+: place → place ∉ project.outputs disk

variable {project : Project} {disk : Disk}

theorem mem_outputs_of_leads_join (clear : disk.IsClear project.results) {rest : String} (inner : IsInner rest)
    {place : Place} (leads : disk.Leads (Path.join project.results rest) place) : place ∈ project.outputs disk := by
  obtain ⟨base, to_base, below⟩ := exists_base_of_leads_join clear inner leads
  exact ⟨base, .inl to_base, below⟩

/-- The result of a file below the sources is among the outputs. -/
theorem mem_outputs_of_leads_resultPath (clear : disk.IsClear project.results) {path : String}
    (lies : Path.LiesBelow project.sources path) {place : Place} (leads : disk.Leads (project.resultPath path) place) :
    place ∈ project.outputs disk := by
  obtain ⟨part, below, inner⟩ := Path.below?_of_liesBelow lies
  rw [resultPath, below, Option.getD_some] at leads
  exact mem_outputs_of_leads_join clear inner leads

theorem outputs_eq {made written : Set Place} {after : Disk} (changes : Changes made written disk after) :
    project.outputs after = project.outputs disk := by
  ext place
  simp only [outputs, Set.mem_ofPred_eq, changes.leads_iff]

theorem changes_obtain_cache? (cache_clear : ∀ cache, project.cache? = some cache → disk.IsClear cache.directory)
    (job : Job) (text : String) :
    Changes Set.univ (project.outputs disk) disk ((project.obtain project.cache? job text).on disk).2 := by
  rcases cached : project.cache? with _ | cache
  · rw [on_obtain_none]
    exact .refl
  · refine (changes_obtain (cache_clear cache cached) project job text).mono (fun _ _ _ => trivial) ?_
    rintro place ⟨base, leads, below⟩
    exact ⟨base, .inr ⟨cache, cached, leads⟩, below⟩

/-- A job for a file below the sources changes files among the outputs at most. -/
theorem changes_runJob (results_clear : disk.IsClear project.results)
    (cache_clear : ∀ cache, project.cache? = some cache → disk.IsClear cache.directory) {job : Job}
    (lies : Path.LiesBelow project.sources job.path) :
    Changes Set.univ (project.outputs disk) disk ((project.runJob project.cache? job).on disk).2 := by
  rw [on_runJob]
  rcases disk.readText job.path with fault | text
  · exact .refl
  · have obtained := changes_obtain_cache? cache_clear job text
    dsimp only
    rcases ran : (project.obtain project.cache? job text).on disk with ⟨failure | ⟨extraction, isCached⟩, mid⟩
    · rwa [ran] at obtained
    · rw [ran] at obtained
      refine obtained.trans ((changes_deliver project job extraction isCached mid).mono (fun _ _ _ => trivial) ?_)
      intro place leads
      exact mem_outputs_of_leads_resultPath results_clear lies (obtained.leads_iff.mp leads)

theorem jobs_of_prepare {index : Option String} {jobs : List Job} {mid : Disk}
    (prepared : project.prepare.on disk = (.ok (index, jobs), mid)) : project.jobs mid = .ok jobs := by
  rw [prepare, DiskAction.on_bind] at prepared
  rcases generated : project.generateIndex.on disk with ⟨failure | found, after⟩
  · rw [generated] at prepared
    cases prepared
  · rw [generated] at prepared
    dsimp only at prepared
    rw [DiskAction.on_bind, DiskAction.on_get] at prepared
    dsimp only at prepared
    rcases listed : project.jobs after with failure | found_jobs
    · rw [listed] at prepared
      cases prepared
    · rw [listed] at prepared
      obtain ⟨same, rfl⟩ := Prod.mk.inj prepared
      obtain ⟨-, rfl⟩ := Prod.mk.inj (Except.ok.inj same)
      exact listed

theorem hasNames_prepared (named : disk.HasNames) : (project.prepare.on disk).2.HasNames :=
  named.of_changes (project.changes_prepare disk) (fun _ passed => isName_of_mem_way passed)
    fun _ leads => isName_of_mem_way leads.mem_way

/-- A run changes files among the outputs at most. -/
theorem changes_run (confined : project.IsConfined disk) :
    Changes Set.univ (project.outputs disk) disk (project.run.on disk).2 := by
  have named : (project.prepare.on disk).2.HasNames := hasNames_prepared confined.named
  have preparing : Changes Set.univ (project.outputs disk) disk (project.prepare.on disk).2 :=
    (project.changes_prepare disk).mono (fun _ _ _ => trivial) fun _ leads =>
      mem_outputs_of_leads_join confined.results_clear confined.index_inner leads
  rw [on_run]
  rcases prepared : project.prepare.on disk with ⟨failure | ⟨index, jobs⟩, mid⟩
  · rwa [prepared] at preparing
  · rw [prepared] at preparing named
    dsimp only at preparing named ⊢
    have lies := liesBelow_of_mem_jobs named confined.targets_inner (jobs_of_prepare prepared)
    obtain ⟨opened, opening, changes⟩ := project.on_openCache mid
    have start : Changes Set.univ (project.outputs disk) disk opened := by
      rcases cached : project.cache? with _ | cache
      · rw [cached] at changes
        exact changes ▸ preparing
      · rw [cached] at changes
        exact preparing.trans (changes.mono (fun _ _ _ => trivial) (Set.empty_subset _))
    have each : ∀ job ∈ jobs, ∀ later, Changes Set.univ (project.outputs disk) opened later →
        Changes Set.univ (project.outputs disk) later ((project.runJob project.cache? job).on later).2 := by
      intro job member later before
      have so_far := start.trans before
      have one := changes_runJob (so_far.isClear_iff.mpr confined.results_clear)
        (fun cache cached => so_far.isClear_iff.mpr (confined.cache_clear cache cached)) (lies job member)
      rwa [outputs_eq so_far] at one
    have whole := start.trans (changes_mapM each)
    rw [opening]
    rcases ran : (jobs.mapM (project.runJob project.cache?)).on opened with ⟨failure | outcomes, after⟩
    · rwa [ran] at whole
    · rwa [ran] at whole

/-- A path leads to places below the sources only, and no link is where it leads. -/
structure ReachesSources (project : Project) (disk : Disk) (path : String) : Prop where
  /-- No link is where it leads. -/
  clear : disk.IsClear path
  /-- It leads below the sources. -/
  below : ∀ place, disk.Leads path place → ∃ base, disk.Leads project.sources base ∧ base <+: place

theorem ReachesSources.below_join {path rest : String} (reaches : project.ReachesSources disk path)
    (inner : IsInner rest) {place : Place} (leads : disk.Leads (Path.join path rest) place) :
    ∃ base, disk.Leads project.sources base ∧ base <+: place := by
  obtain ⟨above, to_above, above_below⟩ := exists_base_of_leads_join reaches.clear inner leads
  obtain ⟨base, to_base, below⟩ := reaches.below above to_above
  exact ⟨base, to_base, below.trans above_below⟩

/-- The files that are read as sources are below the directory of the sources. -/
theorem exists_base_of_mem_sourcePaths (confined : project.IsConfined disk) {path : String}
    (is_source : path ∈ project.sourcePaths disk) {place : Place} (leads : disk.Leads path place) :
    ∃ base, disk.Leads project.sources base ∧ base <+: place := by
  rcases is_source with rfl | ⟨index, jobs, prepared, member⟩
  · have same : Path.join project.root project.indexLabel = Path.join project.sources project.config.functionsIndex :=
      Path.join_assoc project.root project.config.srcDir confined.index_inner.1
    rw [same] at leads
    exact exists_base_of_leads_join confined.sources_clear confined.index_inner leads
  · obtain ⟨job, job_mem, rfl⟩ := List.mem_map.mp member
    have preparing := project.changes_prepare disk
    have clear := preparing.isClear_iff.mpr confined.sources_clear
    obtain ⟨path, rest, reaches, inner, job_eq, -⟩ := forall_mem_jobs
      (P := project.ReachesSources (project.prepare.on disk).2) (hasNames_prepared confined.named)
      confined.targets_inner (fun _ => isInner_of_isName)
      (fun path rest reaches inner found is_found =>
        ⟨reaches.clear.join inner is_found, fun place leads => reaches.below_join inner leads⟩)
      ⟨clear, fun place leads => ⟨place, leads, List.prefix_rfl⟩⟩ (jobs_of_prepare (Prod.ext prepared rfl)) job job_mem
    rw [job_eq] at leads
    obtain ⟨base, to_base, below⟩ := reaches.below_join inner (preparing.leads_iff.mpr leads)
    exact ⟨base, preparing.leads_iff.mp to_base, below⟩

end Project

/-- **A run writes below its results and its cache.** If the paths of its configuration never lead above where they
start, then every place elsewhere is as it was or a new directory, whether the run fails or not, and the source
files that it reads are as they were. -/
theorem run_writes_outputs_only {project : Project} {disk : Disk} (confined : project.IsConfined disk) :
    (∀ place, place ∉ project.outputs disk → (project.run.on disk).2.at? place = disk.at? place ∨
      disk.at? place = none ∧ (project.run.on disk).2.at? place = some .directory) ∧
    ∀ path ∈ project.sourcePaths disk, ∀ place, disk.Leads path place → ∀ bytes,
      disk.at? place = some (.file bytes) → (project.run.on disk).2.at? place = some (.file bytes) := by
  have outside : ∀ place, place ∉ project.outputs disk → (project.run.on disk).2.at? place = disk.at? place ∨
      disk.at? place = none ∧ (project.run.on disk).2.at? place = some .directory := by
    intro place elsewhere
    rcases (Project.changes_run confined).place_cases place with same | ⟨-, made⟩ | ⟨written, -⟩
    · exact .inl same
    · exact .inr made
    · exact absurd written elsewhere
  refine ⟨outside, fun path is_source place leads bytes holds => ?_⟩
  obtain ⟨base, to_base, below⟩ := Project.exists_base_of_mem_sourcePaths confined is_source leads
  rcases outside place (confined.sources_apart base to_base place below) with same | ⟨empty, -⟩
  · rw [same, holds]
  · rw [holds] at empty
    cases empty

/-! ## A project that is confined, and one that is not -/

namespace Disk

/-- Whether the names of all places are names. -/
def namesProper (disk : Disk) : Bool :=
  disk.entries.all fun entry => entry.1.all fun name => isProper name && !name.toList.contains '/'

theorem hasNames_of_namesProper {disk : Disk} (proper : disk.namesProper = true) : disk.HasNames := by
  intro place holds name member
  rw [at?] at holds
  split_ifs at holds with root
  · rw [List.isEmpty_iff.mp root] at member
    cases member
  · obtain ⟨content, found⟩ := Option.ne_none_iff_exists'.mp holds
    obtain ⟨before, after, entries, -⟩ := List.lookup_eq_some_iff.mp found
    have entry_mem : (place, content) ∈ disk.entries := by simp [entries]
    have checked := List.all_eq_true.mp (List.all_eq_true.mp proper _ entry_mem) name member
    simpa [IsName] using checked

theorem isClear_of_hasNoLinks {disk : Disk} (no_links : disk.hasNoLinks = true) {path : String} {names : List String}
    (inside : disk.namesBelowRoot? path = some names) : disk.IsClear path :=
  ⟨⟨names, inside⟩, fun _ _ place _ => linkAt?_of_hasNoLinks no_links place⟩

end Disk

/-- A disk with one source file. -/
def singleDisk : Disk := ⟨"/app", [(["src"], .directory), (["src", "a.js"], .file "f()".toUTF8)]⟩

theorem singleDisk_leads {path : String} {names : List String}
    (inside : singleDisk.namesBelowRoot? path = some names) (proper : names.all isProper = true) {place : Place} :
    singleDisk.Leads path place ↔ place = names := by
  have straight := leads_of_hasNoLinks (by decide) inside proper
  exact ⟨fun leads => leads.unique straight, fun same => same ▸ straight⟩

/-- A project with a cache and a target below its sources. -/
def innerProject : Project := ⟨"/app", { targets := [⟨"a.js", false⟩], cacheDir := some ".cache" }⟩

/-- Where the directories and the source of that project are. -/
theorem innerProject_places : singleDisk.namesBelowRoot? innerProject.sources = some ["src"] ∧
    singleDisk.namesBelowRoot? innerProject.results = some ["temp"] ∧
    singleDisk.namesBelowRoot? (Path.join "/app" ".cache") = some [".cache"] ∧
    singleDisk.namesBelowRoot? "/app/src/a.js" = some ["src", "a.js"] :=
  by decide +kernel

theorem innerProject_isConfined : innerProject.IsConfined singleDisk where
  named := hasNames_of_namesProper (by decide)
  targets_inner := by
    intro target member
    obtain rfl := List.mem_singleton.mp member
    exact ⟨by simp [Path.isAbsolute], rfl⟩
  index_inner := ⟨by simp [Path.isAbsolute, innerProject], rfl⟩
  sources_clear := isClear_of_hasNoLinks (by decide) innerProject_places.1
  results_clear := isClear_of_hasNoLinks (by decide) innerProject_places.2.1
  cache_clear := by
    intro cache cached
    obtain rfl := Option.some.inj cached
    exact isClear_of_hasNoLinks (by decide) innerProject_places.2.2.1
  sources_apart := by
    intro base to_base place below
    obtain rfl := (singleDisk_leads innerProject_places.1 (by decide)).mp to_base
    rintro ⟨other, to_other | ⟨cache, cached, to_other⟩, other_below⟩
    · obtain rfl := (singleDisk_leads innerProject_places.2.1 (by decide)).mp to_other
      obtain ⟨rest, rfl⟩ := below
      obtain ⟨more, same⟩ := other_below
      simp at same
    · obtain rfl := Option.some.inj cached
      obtain rfl := (singleDisk_leads innerProject_places.2.2.1 (by decide)).mp to_other
      obtain ⟨rest, rfl⟩ := below
      obtain ⟨more, same⟩ := other_below
      simp at same

/-- The source of that project is read, and it is as it was after a run. -/
theorem innerProject_keeps_source : "/app/src/a.js" ∈ innerProject.sourcePaths singleDisk ∧
    (innerProject.run.on singleDisk).2.at? ["src", "a.js"] = some (.file "f()".toUTF8) := by
  have listed : (innerProject.prepare.on singleDisk).1.toOption.map (fun prepared => prepared.2.map Job.path) =
      some ["/app/src/a.js"] := by decide +kernel
  have is_source : "/app/src/a.js" ∈ innerProject.sourcePaths singleDisk := by
    rcases prepared : (innerProject.prepare.on singleDisk).1 with failure | ⟨index, jobs⟩
    · simp [prepared, Except.toOption] at listed
    · have paths : jobs.map Job.path = ["/app/src/a.js"] := by simpa [prepared, Except.toOption] using listed
      exact .inr ⟨index, jobs, prepared, by simp [paths]⟩
  have leads : singleDisk.Leads "/app/src/a.js" ["src", "a.js"] :=
    (singleDisk_leads innerProject_places.2.2.2 (by decide)).mpr rfl
  exact ⟨is_source, (run_writes_outputs_only innerProject_isConfined).2 _ is_source _ leads _ rfl⟩

/-- A project with a target that goes up from its sources and comes back. -/
def climbingProject : Project := ⟨"/app", { targets := [⟨"../src/a.js", false⟩] }⟩

/-- The result of that target is written over its source. -/
theorem climbing_target_overwrites_source :
    climbingProject.sources = "/app/src" ∧ climbingProject.results = "/app/temp" ∧
      climbingProject.cache? = none ∧ ["src", "a.js"] ∉ climbingProject.outputs singleDisk ∧
      singleDisk.readText "/app/src/a.js" = .ok "f()" ∧
      (climbingProject.run.on singleDisk).2.readText "/app/src/a.js" = .ok "\"<% f() %>\"" := by
  have settled : (climbingProject.sources = "/app/src" ∧ climbingProject.results = "/app/temp") ∧
      singleDisk.namesBelowRoot? climbingProject.results = some ["temp"] ∧
      singleDisk.readText "/app/src/a.js" = .ok "f()" ∧
      (climbingProject.run.on singleDisk).2.readText "/app/src/a.js" = .ok "\"<% f() %>\"" := by
    decide +kernel
  obtain ⟨⟨sources, results⟩, inside, before, after⟩ := settled
  refine ⟨sources, results, rfl, ?_, before, after⟩
  rintro ⟨base, to_base | ⟨cache, cached, -⟩, below⟩
  · obtain rfl := (singleDisk_leads inside (by decide)).mp to_base
    simp at below
  · cases cached

end Storyboard
