import Mathlib.Data.List.Perm.Basic
import Storyboard.Proofs.CacheTransparency
import Storyboard.Proofs.JobOrder
import Storyboard.Proofs.JobPlaces

/-!
# Jobs in any order

A job reads its source, uses the cache and writes its result. Where sources, results and cache lie apart, no job
changes what another one reads, nor whether the result of another one can be written. So in any order the same jobs
succeed with the same outcome, but for the number of kept extractions. What they leave depends on the order exactly
if two of them write different texts to one place: two jobs for one file may, if one of them loads style sheets and
the other one does not.
-/

namespace Storyboard

open Disk

/-! ## Texts at places -/

namespace Disk

variable {disk after : Disk} {place other : Place} {text : String}

/-- Texts can be put at two places in either order if neither is above the other. -/
theorem withText_comm (held : Place → Option Content) {first second : Place × String}
    (not_above : first.1 <+: second.1 → first.1 = second.1) (not_below : second.1 <+: first.1 → second.1 = first.1)
    (agree : first.1 = second.1 → first.2 = second.2) :
    withText (withText held first) second = withText (withText held second) first := by
  obtain ⟨place, text⟩ := first
  obtain ⟨place', text'⟩ := second
  funext other
  by_cases same : place = place'
  · obtain rfl : text = text' := agree same
    rw [same]
  · simp only [withText]
    split_ifs with at_second at_first below_first below_second at_first
    · exact absurd (at_first.symm.trans at_second) same
    · exact absurd (not_below (at_second ▸ below_first)).symm same
    · rfl
    · exact absurd (not_above (at_first ▸ below_second)) same
    all_goals rfl

theorem isOpen_congr (same : ∀ above, above <+: place → after.at? above = disk.at? above) :
    after.IsOpen place ↔ disk.IsOpen place := by
  have half : ∀ {first second : Disk}, (∀ above, above <+: place → first.at? above = second.at? above) →
      second.IsOpen place → first.IsOpen place := by
    rintro first second same ⟨above, free⟩
    refine ⟨fun other below differ => ?_, ?_⟩
    · rw [same other below]
      exact above other below differ
    · rw [same place List.prefix_rfl]
      exact free
  exact ⟨half fun above below => (same above below).symm, half same⟩

/-- Writing a text where that is possible neither opens nor closes a place, if neither place is above the other. -/
theorem isOpen_withText (is_open : disk.IsOpen place)
    (held : ∀ above, above <+: other → after.at? above = withText disk.at? (place, text) above)
    (not_above : place <+: other → place = other) (not_below : other <+: place → other = place) :
    after.IsOpen other ↔ disk.IsOpen other := by
  by_cases same : other = place
  · subst same
    refine ⟨fun _ => is_open, fun _ => ⟨fun above below differ => ?_, .inr ⟨text.toUTF8, ?_⟩⟩⟩
    · rw [held above below]
      simp [withText, differ, below]
    · rw [held other List.prefix_rfl]
      simp [withText]
  · have at_other : after.at? other = disk.at? other := by
      rw [held other List.prefix_rfl]
      simp only [withText, same, if_false, mt not_below same]
    have at_above : ∀ above, above <+: other → above ≠ other →
        ((after.at? above = none ∨ after.at? above = some .directory) ↔
          (disk.at? above = none ∨ disk.at? above = some .directory)) := by
      intro above below _
      have elsewhere : above ≠ place := fun here => same (not_above (here ▸ below)).symm
      rw [held above below]
      by_cases on_way : above <+: place
      · simp [withText, elsewhere, on_way, is_open.above above on_way elsewhere]
      · simp only [withText, elsewhere, on_way, if_false]
    constructor
    · rintro ⟨above, free⟩
      exact ⟨fun place below differ => (at_above place below differ).mp (above place below differ), at_other ▸ free⟩
    · rintro ⟨above, free⟩
      exact ⟨fun place below differ => (at_above place below differ).mpr (above place below differ),
        at_other.symm ▸ free⟩

end Disk

namespace Project

variable {project : Project} {known : Set (List UInt8)} {src out base : Place} {rel : Job → Place} {jobs : List Job}
  {start disk : Disk} {job : Job}

/-! ## What comes of a job -/

/-- The extraction of a source file, if it can be read and extracted. -/
def extracted? (project : Project) (disk : Disk) (job : Job) : Option Extraction :=
  (disk.readText job.path).toOption.bind fun text => (project.extract job text).toOption

/-- The text that a job writes, if any. -/
def textOf? (project : Project) (disk : Disk) (job : Job) : Option String :=
  (project.extracted? disk job).bind Extraction.code

/-- What comes of a job whose result goes to a place, if nothing was kept: the source can be extracted, and the result
can be written. -/
def Comes (project : Project) (disk : Disk) (place : Place) (job : Job) (outcome : Outcome) : Prop :=
  ∃ extraction, project.extracted? disk job = some extraction ∧ (extraction.code ≠ none → disk.IsOpen place) ∧
    outcome = ⟨job.path, extraction.code.map fun _ => project.resultPath job.path, extraction.diagnostics, false⟩

theorem Comes.unique {place : Place} {outcome other : Outcome} (comes : project.Comes disk place job outcome)
    (comes_other : project.Comes disk place job other) : outcome = other := by
  obtain ⟨extraction, extracted, -, rfl⟩ := comes
  obtain ⟨extraction', extracted', -, rfl⟩ := comes_other
  obtain rfl := Option.some.inj (extracted.symm.trans extracted')
  rfl

/-- The texts that jobs write, at their places. -/
def writes (project : Project) (disk : Disk) (place : Job → Place) (jobs : List Job) : List (Place × String) :=
  jobs.filterMap fun job => (project.textOf? disk job).map fun text => (place job, text)

/-! ## The cache -/

/-- The places of the cache. -/
def kept (project : Project) (base : Place) : Set Place := { place | project.cache? ≠ none ∧ base <+: place }

/-- If the project has a cache, it is sound. -/
def CachesSoundly (project : Project) (known : Set (List UInt8)) (base : Place) (disk : Disk) : Prop :=
  ∀ cache, project.cache? = some cache → Cache.IsSound known base disk ∧ disk.Leads cache.directory base

namespace CachesSoundly

theorem of_changes {made written : Set Place} {after : Disk} (soundly : project.CachesSoundly known base disk)
    (changes : Changes made written disk after) (outside : ∀ place ∈ written, place ∉ project.kept base) :
    project.CachesSoundly known base after := by
  intro cache cached
  obtain ⟨sound, leads⟩ := soundly cache cached
  exact ⟨sound.of_changes changes fun place member below => outside place member ⟨by simp [cached], below⟩,
    changes.leads_iff.mpr leads⟩

/-- With a sound cache or without one a job obtains what the extraction of its text gives. -/
theorem obtain (soundly : project.CachesSoundly known base disk) (told_apart : Set.InjOn Digest.sha256 known)
    {text : String} (messages_known : ∀ cache, project.cache? = some cache →
      Cache.bytes (project.label job.path) ∈ known ∧ cache.inputs text job.processCss ∈ known) :
    ((project.obtain project.cache? job text).on disk).1.map Prod.fst = project.extract job text ∧
      project.CachesSoundly known base ((project.obtain project.cache? job text).on disk).2 ∧
      Changes ∅ (project.kept base) disk ((project.obtain project.cache? job text).on disk).2 := by
  rcases cached : project.cache? with _ | cache
  · rw [on_obtain_none]
    refine ⟨?_, soundly, .refl⟩
    rcases project.extract job text with failure | extraction
    · rfl
    · rfl
  · obtain ⟨sound, leads⟩ := soundly cache cached
    obtain ⟨label_known, inputs_known⟩ := messages_known cache cached
    obtain ⟨same, sound_after, changes⟩ :=
      obtain_isSound sound told_apart leads (options_of_cache? cached) label_known inputs_known
    refine ⟨same, fun other found => ?_, changes.mono (by simp) fun place below => ⟨by simp [cached], below⟩⟩
    obtain rfl := Option.some.inj (cached.symm.trans found)
    exact ⟨sound_after, changes.leads_iff.mpr leads⟩

end CachesSoundly

/-! ## One job after the other -/

/-- The disk on which jobs start: they are placed, and sources, results and cache lie apart. -/
structure Stage (project : Project) (known : Set (List UInt8)) (src out base : Place) (rel : Job → Place)
    (jobs : List Job) (start : Disk) : Prop where
  /-- Each job has its places. -/
  placed : ∀ job ∈ jobs, project.Placed src out start job (rel job)
  /-- Sources and results lie apart. -/
  apart : ∀ rel more : Place, ¬out ++ rel <+: src ++ more ∧ ¬src ++ rel <+: out ++ more
  /-- The cache lies apart. -/
  kept_apart : ∀ place ∈ project.kept base, ∀ rel : Place, ¬place <+: src ++ rel ∧ ¬place <+: out ++ rel
  /-- The cache is sound. -/
  soundly : project.CachesSoundly known base start
  /-- Digests tell messages apart. -/
  told_apart : Set.InjOn Digest.sha256 known
  /-- The messages that are digested are known. -/
  messages_known : ∀ cache, project.cache? = some cache → ∀ job ∈ jobs, ∀ text, start.readText job.path = .ok text →
    Cache.bytes (project.label job.path) ∈ known ∧ cache.inputs text job.processCss ∈ known

/-- A disk that was reached by some jobs. -/
structure Reached (project : Project) (known : Set (List UInt8)) (src out base : Place) (rel : Job → Place)
    (jobs : List Job) (start : Disk) (done : List Job) (disk : Disk) : Prop where
  /-- No link is made or removed. -/
  changes : Changes Set.univ Set.univ start disk
  /-- The cache is sound. -/
  soundly : project.CachesSoundly known base disk
  /-- Outside the cache, the texts of the jobs are at their places. -/
  held : ∀ place, place ∉ project.kept base →
    disk.at? place = (project.writes start (fun job => out ++ rel job) done).foldl withText start.at? place
  /-- Sources are as they were. -/
  reads : ∀ job ∈ jobs, ∀ other, other <+: src ++ rel job → disk.at? other = start.at? other
  /-- Results can be written if they could. -/
  opens : ∀ job ∈ jobs, disk.IsOpen (out ++ rel job) ↔ start.IsOpen (out ++ rel job)

namespace Stage

variable {done : List Job}

theorem reached_start (stage : project.Stage known src out base rel jobs start) :
    project.Reached known src out base rel jobs start [] start where
  changes := .refl
  soundly := stage.soundly
  held _ _ := rfl
  reads _ _ _ _ := rfl
  opens _ _ := Iff.rfl

theorem rel_eq (stage : project.Stage known src out base rel jobs start) {other : Job} (member : job ∈ jobs)
    (member_other : other ∈ jobs) (below : out ++ rel job <+: out ++ rel other) : rel job = rel other :=
  (stage.placed job member).rel_eq (stage.placed other member_other) ((List.prefix_append_right_inj out).mp below)

end Stage

namespace Reached

variable {done : List Job} {after : Disk}

theorem readText_eq (reached : project.Reached known src out base rel jobs start done disk)
    (stage : project.Stage known src out base rel jobs start) (member : job ∈ jobs) :
    disk.readText job.path = start.readText job.path :=
  readText_congr (find_congr reached.changes.root_eq fun place passed =>
    reached.reads job member place ((stage.placed job member).source.mem_way_iff.mp passed))

/-- What happens in the cache does not matter. -/
theorem of_kept (reached : project.Reached known src out base rel jobs start done disk)
    (stage : project.Stage known src out base rel jobs start) (changes : Changes ∅ (project.kept base) disk after)
    (soundly : project.CachesSoundly known base after) :
    project.Reached known src out base rel jobs start done after := by
  have same : ∀ place, place ∉ project.kept base → after.at? place = disk.at? place := by
    intro place outside
    rcases changes.place_cases place with same | ⟨none_made, -⟩ | ⟨inside, -⟩
    · exact same
    · exact none_made.elim
    · exact absurd inside outside
  refine ⟨reached.changes.trans (changes.mono (by simp) (Set.subset_univ _)), soundly, fun place outside => ?_,
    fun job member other below => ?_, fun job member => ?_⟩
  · rw [same place outside, reached.held place outside]
  · rw [same other fun inside => (stage.kept_apart other inside _).1 below, reached.reads job member other below]
  · rw [isOpen_congr fun above below => same above fun inside => (stage.kept_apart above inside _).2 below]
    exact reached.opens job member

/-- Nothing is written by a job whose file is left as it is. -/
theorem of_none (reached : project.Reached known src out base rel jobs start done disk)
    (no_text : project.textOf? start job = none) :
    project.Reached known src out base rel jobs start (done ++ [job]) disk := by
  refine ⟨reached.changes, reached.soundly, fun place outside => ?_, reached.reads, reached.opens⟩
  rw [reached.held place outside, writes, writes, List.filterMap_append]
  simp [no_text]

/-- A job writes its text to its place. -/
theorem of_written (reached : project.Reached known src out base rel jobs start done disk)
    (stage : project.Stage known src out base rel jobs start) (member : job ∈ jobs) {text : String}
    (is_text : project.textOf? start job = some text)
    (written : (writeResult (project.resultPath job.path) text).on disk = (.ok (), after)) :
    project.Reached known src out base rel jobs start (done ++ [job]) after := by
  have descends := (stage.placed job member).result.of_changes reached.changes
  obtain ⟨is_open, holds⟩ := on_writeResult_ok descends written
  have changes := changes_writeResult (project.resultPath job.path) text disk
  rw [written] at changes
  refine ⟨reached.changes.trans (changes.mono (fun _ _ _ => trivial) (Set.subset_univ _)),
    reached.soundly.of_changes changes fun place leads inside => ?_, fun place outside => ?_,
    fun other member_other place below => ?_, fun other member_other => ?_⟩
  · rw [Leads.unique leads descends.straight.leads] at inside
    exact (stage.kept_apart _ inside _).2 List.prefix_rfl
  · rw [holds, writes, List.filterMap_append, List.foldl_append]
    simp only [List.filterMap_cons, is_text, Option.map_some, List.filterMap_nil, List.foldl_cons, List.foldl_nil]
    have before := reached.held place outside
    rw [writes] at before
    simp only [withText, before]
  · -- a place above a source that is above a result holds a directory, and still does
    rw [holds, ← reached.reads other member_other place below]
    have elsewhere : place ≠ out ++ rel job := fun here => (stage.apart _ _).1 (here ▸ below)
    simp only [withText, elsewhere, if_false]
    split_ifs with on_way
    · have not_source : place ≠ src ++ rel other := fun here => (stage.apart _ _).2 (here ▸ on_way)
      rw [reached.reads other member_other place below, (stage.placed other member_other).above place below not_source]
    · rfl
  · rw [← reached.opens other member_other]
    refine isOpen_withText is_open (fun above _ => holds above) (fun below => ?_) fun below => ?_
    · rw [stage.rel_eq member member_other below]
    · rw [stage.rel_eq member_other member below]

/-- A job comes to the same whatever jobs were done before, or it fails whatever jobs were done before. -/
theorem step (reached : project.Reached known src out base rel jobs start done disk)
    (stage : project.Stage known src out base rel jobs start) (member : job ∈ jobs) :
    (∃ outcome after, (project.runJob project.cache? job).on disk = (.ok outcome, after) ∧
      project.Comes start (out ++ rel job) job outcome.uncached ∧
      project.Reached known src out base rel jobs start (done ++ [job]) after) ∨
    ∃ failure after, (project.runJob project.cache? job).on disk = (.error failure, after) ∧
      ∀ outcome, ¬project.Comes start (out ++ rel job) job outcome := by
  rw [on_runJob, reached.readText_eq stage member]
  rcases read : start.readText job.path with fault | text
  · refine .inr ⟨_, _, rfl, ?_⟩
    rintro outcome ⟨extraction, extracted, -⟩
    simp [extracted?, read, Except.toOption] at extracted
  have extracted_eq : project.extracted? start job = (project.extract job text).toOption := by
    rw [extracted?, read]
    rfl
  obtain ⟨same, soundly, changes⟩ := reached.soundly.obtain stage.told_apart
    fun cache cached => stage.messages_known cache cached job member text read
  dsimp only
  rcases obtained : (project.obtain project.cache? job text).on disk with ⟨failure | ⟨extraction, isCached⟩, mid⟩
  · rw [obtained] at same
    rw [← same] at extracted_eq
    refine .inr ⟨_, _, rfl, ?_⟩
    rintro outcome ⟨extraction, extracted, -⟩
    rw [extracted_eq] at extracted
    cases extracted
  rw [obtained] at same soundly changes
  have extracted : project.extracted? start job = some extraction := by
    rw [extracted_eq, ← same]
    rfl
  have is_text : project.textOf? start job = extraction.code := by
    rw [textOf?, extracted]
    rfl
  have reached_mid := reached.of_kept stage changes soundly
  dsimp only
  rw [on_deliver]
  rcases code_eq : extraction.code with _ | code
  · refine .inl ⟨_, _, rfl, ⟨extraction, extracted, fun writes => absurd code_eq writes, ?_⟩,
      reached_mid.of_none (is_text.trans code_eq)⟩
    rw [code_eq]
    rfl
  · have descends := (stage.placed job member).result.of_changes reached_mid.changes
    dsimp only
    rcases written : (writeResult (project.resultPath job.path) code).on mid with ⟨failure | done, after⟩
    · refine .inr ⟨_, _, rfl, ?_⟩
      rintro outcome ⟨other, extracted_other, is_open, -⟩
      obtain rfl := Option.some.inj (extracted.symm.trans extracted_other)
      obtain ⟨after', written'⟩ := on_writeResult_of_isOpen descends
        ((reached_mid.opens job member).mpr (is_open (by simp [code_eq]))) code
      rw [written] at written'
      cases written'
    · have is_open := (reached_mid.opens job member).mp (on_writeResult_ok descends written).1
      refine .inl ⟨_, _, rfl, ⟨extraction, extracted, fun _ => is_open, ?_⟩,
        reached_mid.of_written stage member (is_text.trans code_eq) written⟩
      rw [code_eq]
      rfl

/-- Jobs that all come to something succeed, and come to that. -/
theorem run_of_come {items : List (Job × Nat)}
    (reached : project.Reached known src out base rel jobs start done disk)
    (stage : project.Stage known src out base rel jobs start) (members : ∀ item ∈ items, item.1 ∈ jobs)
    {outcome : Job → Outcome} (come : ∀ job ∈ jobs, project.Comes start (out ++ rel job) job (outcome job)) :
    ∃ numbered after, (items.mapM (project.runNumbered project.cache?)).on disk = (.ok numbered, after) ∧
      numbered.map (Prod.map Outcome.uncached id) = items.map (Prod.map outcome id) ∧
      project.Reached known src out base rel jobs start (done ++ items.map Prod.fst) after := by
  induction items generalizing done disk with
  | nil => exact ⟨[], disk, rfl, rfl, by simpa using reached⟩
  | cons item items ih =>
      rw [List.forall_mem_cons] at members
      obtain ⟨member, members⟩ := members
      rw [DiskAction.on_mapM_cons, on_runNumbered]
      rcases reached.step stage member with ⟨found, mid, ran, comes, reached_mid⟩ | ⟨failure, mid, -, never⟩
      · obtain ⟨numbered, after, ran_all, same, reached_after⟩ := ih reached_mid members
        simp only [ran, ran_all]
        refine ⟨_, after, rfl, ?_, by simpa using reached_after⟩
        rw [List.map_cons, List.map_cons, same, Prod.map, comes.unique (come item.1 member)]
        rfl
      · exact absurd (come item.1 member) (never _)

/-- Jobs of which one comes to nothing fail. -/
theorem run_of_never {items : List (Job × Nat)}
    (reached : project.Reached known src out base rel jobs start done disk)
    (stage : project.Stage known src out base rel jobs start) (members : ∀ item ∈ items, item.1 ∈ jobs)
    (never : ∃ item ∈ items, ∀ outcome, ¬project.Comes start (out ++ rel item.1) item.1 outcome) :
    ∃ failure after, (items.mapM (project.runNumbered project.cache?)).on disk = (.error failure, after) := by
  induction items generalizing done disk with
  | nil => simp at never
  | cons item items ih =>
      rw [List.forall_mem_cons] at members
      obtain ⟨member, members⟩ := members
      rw [DiskAction.on_mapM_cons, on_runNumbered]
      rcases reached.step stage member with ⟨found, mid, ran, comes, reached_mid⟩ | ⟨failure, mid, failed, -⟩
      · obtain ⟨other, other_mem, other_never⟩ := never
        rcases List.mem_cons.mp other_mem with rfl | other_mem
        · exact absurd comes (other_never _)
        · obtain ⟨failure, after, failed⟩ := ih reached_mid members ⟨other, other_mem, other_never⟩
          simp only [ran, failed]
          exact ⟨_, _, rfl⟩
      · simp only [failed]
        exact ⟨_, _, rfl⟩

end Reached

/-! ## Any order -/

/-- Jobs whose results go to one place write the same text there. -/
def WritesAgree (project : Project) (disk : Disk) (jobs : List Job) : Prop :=
  ∀ first ∈ jobs, ∀ second ∈ jobs, ∀ place, disk.Leads (project.resultPath first.path) place →
    disk.Leads (project.resultPath second.path) place → ∀ text other, project.textOf? disk first = some text →
    project.textOf? disk second = some other → text = other

namespace Stage

theorem mem_of_arranged (order : JobOrder) {item : Job × Nat} (member : item ∈ order.arrange jobs.zipIdx) :
    item.1 ∈ jobs :=
  List.fst_mem_of_mem_zipIdx ((order.perm _).subset member)

/-- In any order jobs that come to something succeed, and come to that. -/
theorem run_of_come (stage : project.Stage known src out base rel jobs start) (order : JobOrder)
    {outcome : Job → Outcome} (come : ∀ job ∈ jobs, project.Comes start (out ++ rel job) job (outcome job)) :
    ∃ numbered after,
      ((order.arrange jobs.zipIdx).mapM (project.runNumbered project.cache?)).on start = (.ok numbered, after) ∧
      (Outcome.inTurn numbered).map Outcome.uncached = jobs.map outcome ∧
      project.Reached known src out base rel jobs start ((order.arrange jobs.zipIdx).map Prod.fst) after := by
  obtain ⟨numbered, after, ran, same, reached⟩ :=
    stage.reached_start.run_of_come stage (fun item member => mem_of_arranged order member) come
  refine ⟨numbered, after, ran, ?_, by simpa using reached⟩
  rw [Outcome.map_inTurn]
  refine Outcome.inTurn_of_perm ?_
  rw [same, List.zipIdx_map]
  exact (order.perm _).map _

/-- In any order jobs of which one comes to nothing fail. -/
theorem run_of_never (stage : project.Stage known src out base rel jobs start) (order : JobOrder)
    (never : ∃ job ∈ jobs, ∀ outcome, ¬project.Comes start (out ++ rel job) job outcome) :
    ∃ failure after,
      ((order.arrange jobs.zipIdx).mapM (project.runNumbered project.cache?)).on start = (.error failure, after) := by
  obtain ⟨job, member, never⟩ := never
  obtain ⟨number, found⟩ := List.mem_iff_getElem?.mp member
  refine stage.reached_start.run_of_never stage (fun item member => mem_of_arranged order member)
    ⟨(job, number), ?_, never⟩
  exact (order.perm _).mem_iff.mpr (List.mk_mem_zipIdx_iff_getElem?.mpr found)

theorem exists_of_mem_writes {done : List Job} {written : Place × String}
    (member : written ∈ project.writes start (fun job => out ++ rel job) done) :
    ∃ job ∈ done, project.textOf? start job = some written.2 ∧ written.1 = out ++ rel job := by
  obtain ⟨job, job_mem, found⟩ := List.mem_filterMap.mp member
  obtain ⟨text, is_text, rfl⟩ := Option.map_eq_some_iff.mp found
  exact ⟨job, job_mem, is_text, rfl⟩

/-- If jobs agree in what they write, they leave the same in any order. -/
theorem at?_eq_of_perm (stage : project.Stage known src out base rel jobs start)
    (agree : project.WritesAgree start jobs) {done other : List Job} {disk after : Disk}
    (reached : project.Reached known src out base rel jobs start done disk)
    (reached_other : project.Reached known src out base rel jobs start other after) (perm : done.Perm other)
    (members : ∀ job ∈ done, job ∈ jobs) {place : Place} (outside : place ∉ project.kept base) :
    disk.at? place = after.at? place := by
  rw [reached.held place outside, reached_other.held place outside]
  refine congrFun (List.Perm.foldl_eq' (perm.filterMap _) (fun first first_mem second second_mem held => ?_) _) place
  obtain ⟨job, job_mem, text, place_eq⟩ := exists_of_mem_writes first_mem
  obtain ⟨job', job'_mem, text', place_eq'⟩ := exists_of_mem_writes second_mem
  have member := members job job_mem
  have member' := members job' job'_mem
  refine withText_comm held (fun below => ?_) (fun below => ?_) fun same => ?_
  · rw [place_eq, place_eq'] at below ⊢
    rw [stage.rel_eq member member' below]
  · rw [place_eq, place_eq'] at below ⊢
    rw [stage.rel_eq member' member below]
  · have leads := (stage.placed job member).result.straight.leads
    have leads' := (stage.placed job' member').result.straight.leads
    rw [← place_eq] at leads
    rw [← place_eq', ← same] at leads'
    exact agree job member job' member' _ leads leads' _ _ text text'

/-- What the last job writes is there in the end. -/
theorem at?_of_last (stage : project.Stage known src out base rel jobs start) {done : List Job}
    (reached : project.Reached known src out base rel jobs start (done ++ [job]) disk) {text : String}
    (is_text : project.textOf? start job = some text) : disk.at? (out ++ rel job) = some (.file text.toUTF8) := by
  have outside : out ++ rel job ∉ project.kept base := fun inside => (stage.kept_apart _ inside _).2 List.prefix_rfl
  rw [reached.held _ outside, writes, List.filterMap_append, List.foldl_append]
  simp [is_text, withText]

/-- Some order leaves at its place what a job writes. -/
theorem exists_order_at? (stage : project.Stage known src out base rel jobs start) {outcome : Job → Outcome}
    (come : ∀ job ∈ jobs, project.Comes start (out ++ rel job) job (outcome job)) (member : job ∈ jobs) {text : String}
    (is_text : project.textOf? start job = some text) :
    ∃ order : JobOrder, (((order.arrange jobs.zipIdx).mapM (project.runNumbered project.cache?)).on start).2.at?
      (out ++ rel job) = some (.file text.toUTF8) := by
  obtain ⟨number, found⟩ := List.mem_iff_getElem?.mp member
  have numbered_mem : (job, number) ∈ jobs.zipIdx := List.mk_mem_zipIdx_iff_getElem?.mpr found
  -- this job is done last
  have perm : (jobs.zipIdx.erase (job, number) ++ [(job, number)]).Perm jobs.zipIdx :=
    (List.perm_append_singleton _ _).trans (List.perm_cons_erase numbered_mem).symm
  obtain ⟨order, arranged⟩ := JobOrder.exists_arrange_eq perm
  obtain ⟨numbered, after, ran, -, reached⟩ := stage.run_of_come order come
  refine ⟨order, ?_⟩
  rw [ran]
  rw [arranged, List.map_append] at reached
  exact stage.at?_of_last reached is_text

/-- Jobs that succeed leave the same below the results in any order exactly if they agree in what they write. -/
theorem same_in_any_order_iff (stage : project.Stage known src out base rel jobs start) {outcome : Job → Outcome}
    (come : ∀ job ∈ jobs, project.Comes start (out ++ rel job) job (outcome job))
    (results_apart : ∀ place, out <+: place → place ∉ project.kept base) :
    (∀ (order : JobOrder) place, out <+: place →
      (((order.arrange jobs.zipIdx).mapM (project.runNumbered project.cache?)).on start).2.at? place =
        (((JobOrder.listed.arrange jobs.zipIdx).mapM (project.runNumbered project.cache?)).on start).2.at? place) ↔
      project.WritesAgree start jobs := by
  constructor
  · intro same first first_mem second second_mem place leads leads' text other is_text is_other
    obtain rfl := leads.unique (stage.placed first first_mem).result.straight.leads
    have places := leads'.unique (stage.placed second second_mem).result.straight.leads
    obtain ⟨order, at_first⟩ := stage.exists_order_at? come first_mem is_text
    obtain ⟨order', at_second⟩ := stage.exists_order_at? come second_mem is_other
    rw [← places] at at_second
    rw [same order _ (List.prefix_append _ _), ← same order' _ (List.prefix_append _ _), at_second] at at_first
    have bytes_eq : other.toUTF8 = text.toUTF8 := by simpa using at_first
    have decoded := congrArg String.fromUTF8? bytes_eq
    rw [fromUTF8?_toUTF8, fromUTF8?_toUTF8, Option.some.injEq] at decoded
    exact decoded.symm
  · intro agree order place below
    obtain ⟨numbered, after, ran, -, reached⟩ := stage.run_of_come order come
    obtain ⟨numbered', after', ran_listed, -, reached'⟩ := stage.run_of_come .listed come
    rw [ran, ran_listed]
    refine stage.at?_eq_of_perm agree reached reached' (((order.perm _).trans (JobOrder.listed.perm _).symm).map _) ?_
      (results_apart place below)
    intro job member
    obtain ⟨item, item_mem, rfl⟩ := List.mem_map.mp member
    exact mem_of_arranged order item_mem

end Stage

/-- The cache of a project is sound, and lies apart from its sources and its results. -/
structure CacheLiesApart (project : Project) (known : Set (List UInt8)) (src out base : Place) (cache : Cache)
    (disk : Disk) : Prop where
  /-- Its path leads to its directory. -/
  leads : disk.Leads cache.directory base
  /-- It is sound. -/
  sound : Cache.IsSound known base disk
  /-- It lies apart from the sources. -/
  sources_apart : ¬base <+: src ∧ ¬src <+: base
  /-- It lies apart from the results. -/
  results_apart : ¬base <+: out ∧ ¬out <+: base
  /-- The functions index goes elsewhere. -/
  index_apart : disk.Avoids base project.indexResult
  /-- The messages that are digested for the jobs are known. -/
  messages_known : ∀ index jobs, (project.prepare.on disk).1 = .ok (index, jobs) → ∀ job ∈ jobs, ∀ text,
    (project.ready disk).readText job.path = .ok text →
    Cache.bytes (project.label job.path) ∈ known ∧ cache.inputs text job.processCss ∈ known

theorem exists_changes_openCache (project : Project) (disk : Disk) :
    ∃ made, Changes made ∅ disk (project.openCache.on disk).2 := by
  obtain ⟨opened, opening, changes⟩ := project.on_openCache disk
  rw [opening]
  rcases cached : project.cache? with _ | cache
  · rw [cached] at changes
    exact ⟨∅, changes ▸ .refl⟩
  · rw [cached] at changes
    exact ⟨_, changes⟩

/-- When the jobs start, they are placed. -/
theorem exists_stage (told_apart : Set.InjOn Digest.sha256 known) (apart : project.LiesApart src out disk)
    (caches : ∀ cache, project.cache? = some cache → project.CacheLiesApart known src out base cache disk)
    {index : Option String} (prepared : (project.prepare.on disk).1 = .ok (index, jobs)) :
    ∃ rel, project.Stage known src out base rel jobs (project.ready disk) := by
  have preparing := project.changes_prepare disk
  have apart_prepared := apart.of_changes preparing (hasNames_prepared apart.named)
  obtain ⟨made, opening⟩ := project.exists_changes_openCache (project.prepare.on disk).2
  have placed := exists_placed apart_prepared (jobs_of_prepare (Prod.ext prepared rfl))
  choose! rel placed using placed
  refine ⟨rel, fun job member => (placed job member).of_changes opening, apart.not_isPrefix, ?_, ?_, told_apart, ?_⟩
  · rintro place ⟨has_cache, inside⟩ more
    obtain ⟨cache, cached⟩ := Option.ne_none_iff_exists'.mp has_cache
    obtain ⟨not_above, not_below⟩ := (caches cache cached).sources_apart
    obtain ⟨not_above_results, not_below_results⟩ := (caches cache cached).results_apart
    constructor
    · intro below
      rcases List.prefix_or_prefix_of_prefix (inside.trans below) (List.prefix_append src more) with above | above
      · exact not_above above
      · exact not_below above
    · intro below
      rcases List.prefix_or_prefix_of_prefix (inside.trans below) (List.prefix_append out more) with above | above
      · exact not_above_results above
      · exact not_below_results above
  · intro cache cached
    have cache_apart := caches cache cached
    have sound := cache_apart.sound.of_changes preparing
      fun place leads_index => cache_apart.index_apart place (Leads.mem_way leads_index)
    exact ⟨sound.of_changes opening (by simp), opening.leads_iff.mpr (preparing.leads_iff.mpr cache_apart.leads)⟩
  · exact fun cache cached => (caches cache cached).messages_known index jobs prepared

end Project

/-- A report as if nothing had been kept. -/
def Report.uncached (report : Report) : Report := { report with cacheHits := 0 }

/-- **Orders of jobs differ only where jobs write different texts to one place.** Where targets lead down, no link is
among the sources and the results, and these and the cache lie apart, a run fails in any order of its jobs or in none,
and in any order it gives the same report but for the number of kept extractions. If it succeeds, it leaves the same
below the results in any order exactly if jobs whose results go to one place write the same text there. -/
theorem orders_agree_iff {project : Project} {known : Set (List UInt8)} {src out base : Place} {disk : Disk}
    (told_apart : Set.InjOn Digest.sha256 known) (apart : project.LiesApart src out disk)
    (caches : ∀ cache, project.cache? = some cache → project.CacheLiesApart known src out base cache disk) :
    (∀ order, ((project.runIn order).on disk).1.toOption.map Report.uncached =
      (project.run.on disk).1.toOption.map Report.uncached) ∧
    ∀ index jobs report, (project.prepare.on disk).1 = .ok (index, jobs) → (project.run.on disk).1 = .ok report →
      ((∀ order place, out <+: place →
        ((project.runIn order).on disk).2.at? place = (project.run.on disk).2.at? place) ↔
      project.WritesAgree (project.ready disk) jobs) := by
  simp only [← Project.on_runIn_listed]
  rcases prepared : project.prepare.on disk with ⟨failure | ⟨index, jobs⟩, mid⟩
  · refine ⟨fun order => ?_, fun index jobs report found => by cases found⟩
    rw [Project.on_runIn, Project.on_runIn, prepared]
  obtain ⟨rel, stage⟩ := Project.exists_stage told_apart apart caches (congrArg Prod.fst prepared)
  simp only [Project.on_runIn_of_prepared prepared]
  by_cases all_come : ∀ job ∈ jobs, ∃ outcome, project.Comes (project.ready disk) (out ++ rel job) job outcome
  · have : Nonempty Outcome := ⟨⟨"", none, [], false⟩⟩
    choose! outcome come using all_come
    constructor
    · intro order
      obtain ⟨numbered, after, ran, turn, -⟩ := stage.run_of_come order come
      obtain ⟨numbered', after', ran_listed, turn', -⟩ := stage.run_of_come .listed come
      have reports : ∀ outcomes, (Report.ofOutcomes index outcomes).uncached =
          Report.ofOutcomes index (outcomes.map Outcome.uncached) := fun outcomes =>
        (Report.ofOutcomes_uncached index outcomes).symm
      simp only [ran, ran_listed, Except.map, Except.toOption, Option.map_some, reports, turn, turn']
    · rintro index' jobs' report found -
      obtain ⟨rfl, rfl⟩ := Prod.mk.inj (Except.ok.inj found)
      refine stage.same_in_any_order_iff come ?_
      rintro place below ⟨has_cache, inside⟩
      obtain ⟨cache, cached⟩ := Option.ne_none_iff_exists'.mp has_cache
      obtain ⟨not_above, not_below⟩ := (caches cache cached).results_apart
      exact (List.prefix_or_prefix_of_prefix inside below).elim not_above not_below
  · push Not at all_come
    have failed := fun order => stage.run_of_never order all_come
    constructor
    · intro order
      obtain ⟨failure, after, fails⟩ := failed order
      obtain ⟨failure', after', fails_listed⟩ := failed .listed
      rw [fails, fails_listed]
      rfl
    · intro index' jobs' report found succeeds
      obtain ⟨failure, after, fails⟩ := failed .listed
      rw [fails] at succeeds
      cases succeeds

/-- A project with a cache and two source files. -/
def pairProject : Project :=
  ⟨"/app", { targets := [⟨"a.js", false⟩, ⟨"b.js", true⟩], cacheDir := some ".cache" }⟩

/-- The disk of that project. -/
def pairDisk : Disk :=
  ⟨"/app", [(["src"], .directory), (["src", "a.js"], .file "f()".toUTF8), (["src", "b.js"], .file "g()".toUTF8)]⟩

/-- The messages that are digested in its run. -/
def pairMessages : Digest.ToldApart where
  messages := [Cache.bytes "src/a.js", Cache.inputs ⟨"", {}⟩ "f()" false, Cache.bytes "src/b.js",
    Cache.inputs ⟨"", {}⟩ "g()" true]
  distinct := by decide +kernel

/-- Where its directories and the index of its functions are. -/
theorem pairProject_places :
    pairDisk.namesBelowRoot? pairProject.sources = some ["src"] ∧
      pairDisk.namesBelowRoot? pairProject.results = some ["temp"] ∧
      pairDisk.namesBelowRoot? (Path.join "/app" ".cache") = some [".cache"] ∧
      pairDisk.namesBelowRoot? pairProject.indexResult = some ["temp", "resources", "functions", "index.js"] := by
  decide +kernel

theorem pairProject_liesApart : pairProject.LiesApart ["src"] ["temp"] pairDisk where
  named := hasNames_of_namesProper (by decide)
  targets_down := by
    intro target member
    rcases List.mem_pair.mp member with rfl | rfl
    · exact ⟨by simp [Path.isAbsolute], by decide⟩
    · exact ⟨by simp [Path.isAbsolute], by decide⟩
  sources := .of_hasNoLinks (by decide) pairProject_places.1 (by decide)
  results := .of_hasNoLinks (by decide) pairProject_places.2.1 (by decide)
  sources_free place _ := linkAt?_of_hasNoLinks (by decide) place
  results_free place _ := linkAt?_of_hasNoLinks (by decide) place
  results_not_below := by decide
  sources_not_below := by decide

/-- Its jobs, what they are called in the cache, what they read, where their results go, and the report of a run. -/
theorem pairProject_runs :
    (pairProject.prepare.on pairDisk).1.toOption.map Prod.snd =
        some [⟨"/app/src/a.js", false⟩, ⟨"/app/src/b.js", true⟩] ∧
      (pairProject.label "/app/src/a.js" = "src/a.js" ∧ pairProject.label "/app/src/b.js" = "src/b.js") ∧
      ((pairProject.ready pairDisk).readText "/app/src/a.js" = .ok "f()" ∧
        (pairProject.ready pairDisk).readText "/app/src/b.js" = .ok "g()") ∧
      ((pairProject.ready pairDisk).hasNoLinks = true ∧
        (pairProject.ready pairDisk).namesBelowRoot? (pairProject.resultPath "/app/src/a.js") = some ["temp", "a.js"] ∧
        (pairProject.ready pairDisk).namesBelowRoot? (pairProject.resultPath "/app/src/b.js") = some ["temp", "b.js"]) ∧
      (pairProject.run.on pairDisk).1.toOption = some ⟨none, ["/app/temp/a.js", "/app/temp/b.js"], [], [], 0⟩ := by
  decide +kernel

theorem pairProject_jobs {index : Option String} {jobs : List Job}
    (prepared : (pairProject.prepare.on pairDisk).1 = .ok (index, jobs)) :
    jobs = [⟨"/app/src/a.js", false⟩, ⟨"/app/src/b.js", true⟩] :=
  Project.jobs_eq_of_prepare pairProject_runs.1 prepared

theorem pairProject_cacheLiesApart {cache : Cache} (cached : pairProject.cache? = some cache) :
    pairProject.CacheLiesApart { message | message ∈ pairMessages.messages } ["src"] ["temp"] [".cache"] cache pairDisk where
  leads := by
    obtain rfl := Option.some.inj cached
    exact leads_of_hasNoLinks (by decide) pairProject_places.2.2.1 (by decide)
  sound := by
    have start : CacheHistory { message | message ∈ pairMessages.messages } [".cache"] pairDisk := by
      refine .start rfl fun place below _ => ?_
      obtain ⟨rest, rfl⟩ := below
      simp [pairDisk, at?, List.lookup_cons]
    exact start.isSound pairMessages.injOn
  sources_apart := by decide
  results_apart := by decide
  index_apart := avoids_of_hasNoLinks (by decide) pairProject_places.2.2.2 (by decide)
  messages_known := by
    obtain ⟨-, ⟨label_a, label_b⟩, ⟨reads_a, reads_b⟩, -⟩ := pairProject_runs
    obtain rfl := Option.some.inj cached
    intro index jobs prepared job member text read
    rw [pairProject_jobs prepared] at member
    rcases List.mem_pair.mp member with rfl | rfl
    · rw [reads_a] at read
      obtain rfl := Except.ok.inj read
      rw [label_a]
      exact ⟨by simp [pairMessages], .tail _ (.head _)⟩
    · rw [reads_b] at read
      obtain rfl := Except.ok.inj read
      rw [label_b]
      exact ⟨by simp [pairMessages], .tail _ (.tail _ (.tail _ (.head _)))⟩

/-- In any order the jobs for the two files give one report and leave the same results. -/
theorem two_files_in_any_order :
    (∀ order, ((pairProject.runIn order).on pairDisk).1.toOption.map Report.uncached =
      some ⟨none, ["/app/temp/a.js", "/app/temp/b.js"], [], [], 0⟩) ∧
    ∀ order place, ["temp"] <+: place →
      ((pairProject.runIn order).on pairDisk).2.at? place = (pairProject.run.on pairDisk).2.at? place := by
  obtain ⟨reports, results⟩ :=
    orders_agree_iff pairMessages.injOn pairProject_liesApart fun _ cached => pairProject_cacheLiesApart cached
  obtain ⟨listed, -, -, ⟨no_links, inside_a, inside_b⟩, succeeds⟩ := pairProject_runs
  refine ⟨fun order => by rw [reports order, succeeds]; rfl, ?_⟩
  rcases ran : (pairProject.run.on pairDisk).1 with failure | report
  · rw [ran] at succeeds
    cases succeeds
  rcases prepared : (pairProject.prepare.on pairDisk).1 with failure | ⟨index, jobs⟩
  · rw [prepared] at listed
    cases listed
  refine (results index jobs report prepared ran).mpr ?_
  have leads_a : (pairProject.ready pairDisk).Leads (pairProject.resultPath "/app/src/a.js") ["temp", "a.js"] :=
    leads_of_hasNoLinks no_links inside_a (by decide)
  have leads_b : (pairProject.ready pairDisk).Leads (pairProject.resultPath "/app/src/b.js") ["temp", "b.js"] :=
    leads_of_hasNoLinks no_links inside_b (by decide)
  rw [pairProject_jobs prepared]
  intro first first_mem second second_mem place leads leads' text other is_text is_other
  rcases List.mem_pair.mp first_mem with rfl | rfl <;> rcases List.mem_pair.mp second_mem with rfl | rfl
  · exact Option.some.inj (is_text.symm.trans is_other)
  · exact absurd ((leads_a.unique leads).trans (leads'.unique leads_b)) (by decide)
  · exact absurd ((leads_b.unique leads).trans (leads'.unique leads_a)) (by decide)
  · exact Option.some.inj (is_text.symm.trans is_other)

/-- A project with two targets for one file, which differ in whether style sheets are loaded. -/
def flaggedProject : Project := ⟨"/app", { targets := [⟨"a.js", false⟩, ⟨"a.js", true⟩] }⟩

/-- The disk of that project. -/
def flaggedDisk : Disk :=
  ⟨"/app", [(["src"], .directory), (["src", "a.js"],
    .file "import\x7bloadStyleText\x7dfrom\"next-jsx\";import FN from \"./s.css\"".toUTF8)]⟩

/-- Either job succeeds after the other one, and the last one leaves its text. -/
theorem last_of_two_flags_wins :
    (flaggedProject.run.on flaggedDisk).1.toOption.isSome = true ∧
      ((flaggedProject.runIn .reversed).on flaggedDisk).1.toOption.isSome = true ∧
      (flaggedProject.run.on flaggedDisk).2.readText "/app/temp/a.js" =
        .ok "import\x7bloadStyleText\x7dfrom\"next-jsx\";const FN = loadStyleText(\"./s.css\", import.meta.url);" ∧
      ((flaggedProject.runIn .reversed).on flaggedDisk).2.readText "/app/temp/a.js" =
        .ok "import\x7bloadStyleText\x7dfrom\"next-jsx\";import \"./s.css\";" := by
  decide +kernel

end Storyboard
