import Storyboard.Proofs.KeptExtractions

/-!
# Runs with and without a cache

Runs that share a directory of kept extractions, with any edits elsewhere between them, keep it sound. So a
run gives the same report and the same files with it as without it, only the number of kept extractions is
another one. The disks of the two runs agree outside the directory, up to directories that were made on the
way to it.
-/

namespace Storyboard

open Disk

/-! ## Disks that agree outside a directory -/

/-- No place that a path passes lies in a directory. -/
def Disk.Avoids (disk : Disk) (base : Place) (path : String) : Prop := ∀ place ∈ disk.way path, ¬base <+: place

/-- Outside a directory, two disks hold the same, except that the first may have directories where the second
has nothing. -/
structure Disk.Agrees (base : Place) (cached plain : Disk) : Prop where
  /-- The root is called the same. -/
  root_eq : cached.root = plain.root
  /-- What places outside the directory hold. -/
  place_cases : ∀ place, ¬base <+: place → cached.at? place = plain.at? place ∨
    cached.at? place = some .directory ∧ plain.at? place = none

namespace Disk.Agrees

variable {base : Place} {cached plain : Disk} {path : String}

theorem linkAt?_eq (agrees : Agrees base cached plain) {place : Place} (outside : ¬base <+: place) :
    cached.linkAt? place = plain.linkAt? place := by
  rcases agrees.place_cases place outside with same | ⟨directory, empty⟩
  · simp only [linkAt?, same]
  · simp [linkAt?, directory, empty]

theorem leads_iff (agrees : Agrees base cached plain) (avoids : plain.Avoids base path) {place : Place} :
    cached.Leads path place ↔ plain.Leads path place :=
  leads_congr agrees.root_eq fun place passed => agrees.linkAt?_eq (avoids place passed)

theorem wayAbove_eq (agrees : Agrees base cached plain) (avoids : plain.Avoids base path) :
    cached.wayAbove path = plain.wayAbove path := by
  ext place
  refine exists_congr fun above => and_congr_right fun is_above => and_congr_right fun _ => ?_
  have ways : cached.way above = plain.way above := by
    refine way_congr agrees.root_eq fun other passed => ?_
    by_cases root : other = []
    · rw [root, linkAt?_root, linkAt?_root]
    · exact agrees.linkAt?_eq (avoids other (mem_way_of_mem_way_parent is_above passed root))
  rw [ways]

theorem of_changes (agrees : Agrees base cached plain) {after : Disk}
    (changes : Changes ∅ { place | base <+: place } cached after) : Agrees base after plain := by
  refine ⟨changes.root_eq.trans agrees.root_eq, fun place outside => ?_⟩
  rcases changes.place_cases place with same | ⟨none_made, -⟩ | ⟨inside, -⟩
  · rw [same]
    exact agrees.place_cases place outside
  · exact none_made.elim
  · exact absurd inside outside

/-- A text that can be read from both disks is the same text. -/
theorem readText_eq (agrees : Agrees base cached plain) (avoids : plain.Avoids base path) {text other : String}
    (read : cached.readText path = .ok text) (read_plain : plain.readText path = .ok other) : text = other := by
  obtain ⟨place, bytes, leads, holds, decoded⟩ := readText_ok read
  obtain ⟨place', bytes', leads', holds', decoded'⟩ := readText_ok read_plain
  obtain rfl : place = place' := Leads.unique ((agrees.leads_iff avoids).mp leads) leads'
  rcases agrees.place_cases place (avoids place leads'.mem_way) with same | ⟨directory, -⟩
  · rw [same, holds'] at holds
    obtain rfl : bytes' = bytes := by simpa using holds
    exact Option.some.inj (decoded.symm.trans decoded')
  · rw [directory] at holds
    cases holds

/-- Disks that agree still agree after a result was written to both. -/
theorem writeResult (agrees : Agrees base cached plain) (avoids : plain.Avoids base path) {text : String}
    {cachedAfter plainAfter : Disk} (written : (Project.writeResult path text).on cached = (.ok (), cachedAfter))
    (written_plain : (Project.writeResult path text).on plain = (.ok (), plainAfter)) :
    Agrees base cachedAfter plainAfter := by
  rcases Project.on_writeResult path text cached with ⟨mid, place, made, full, leads, holds, result⟩ |
    ⟨mid, blamed, fault, -, failed⟩
  swap
  · rw [failed] at written
    cases written
  rcases Project.on_writeResult path text plain with ⟨mid', place', made', full', leads', holds', result'⟩ |
    ⟨mid', blamed, fault, -, failed⟩
  swap
  · rw [failed] at written_plain
    cases written_plain
  obtain rfl : mid.put place _ = cachedAfter := (Prod.mk.inj (result.symm.trans written)).2
  obtain rfl : mid'.put place' _ = plainAfter := (Prod.mk.inj (result'.symm.trans written_plain)).2
  obtain rfl : place = place' := Leads.unique ((agrees.leads_iff avoids).mp leads) leads'
  have below : place ≠ [] := by
    rintro rfl
    simp at holds
  refine ⟨made.root_eq.trans (agrees.root_eq.trans made'.root_eq.symm), fun other outside => ?_⟩
  rw [at?_put below, at?_put below]
  split_ifs with same
  · exact .inl rfl
  -- the directories above the result: both runs leave none of them out
  rw [agrees.wayAbove_eq avoids] at made full
  rcases made.place_cases other with kept | ⟨passed, empty, directory⟩ | ⟨none_written, -⟩
  · rcases made'.place_cases other with kept' | ⟨passed', empty', directory'⟩ | ⟨none_written, -⟩
    · rw [kept, kept']
      exact agrees.place_cases other outside
    · rcases agrees.place_cases other outside with same | ⟨directory, -⟩
      · obtain ⟨held, holds, -⟩ := full other passed'
        rw [kept.trans (same.trans empty')] at holds
        cases holds
      · exact .inl (by rw [kept, directory, directory'])
    · exact none_written.elim
  · have both_empty : plain.at? other = none := by
      rcases agrees.place_cases other outside with same | ⟨-, empty'⟩
      · exact same.symm.trans empty
      · exact empty'
    rcases made'.place_cases other with kept' | ⟨-, -, directory'⟩ | ⟨none_written, -⟩
    · obtain ⟨held, holds, -⟩ := full' other passed
      rw [kept'.trans both_empty] at holds
      cases holds
    · exact .inl (by rw [directory, directory'])
    · exact none_written.elim
  · exact none_written.elim

end Disk.Agrees

/-! ## Jobs with and without a cache -/

/-- An outcome as if its extraction had not been kept. -/
def Outcome.uncached (outcome : Outcome) : Outcome := { outcome with isCached := false }

/-- No path was out of reach. -/
def Failure.Spares {α : Type} (result : Except Failure α) : Prop :=
  ∀ path fault, result ≠ .error (.unreachable path fault)

theorem Failure.Spares.of_mapM_cons {α β : Type} {step : α → DiskAction Failure β} {item : α} {items : List α}
    {disk : Disk} (spared : Failure.Spares (((item :: items).mapM step).on disk).1) :
    Failure.Spares ((step item).on disk).1 ∧
      ∀ value mid, (step item).on disk = (.ok value, mid) → Failure.Spares ((items.mapM step).on mid).1 := by
  rw [DiskAction.on_mapM_cons] at spared
  constructor
  · intro path fault failed
    rcases ran : (step item).on disk with ⟨failure | value, mid⟩
    · rw [ran] at spared failed
      exact spared path fault (congrArg Except.error (Except.error.inj failed))
    · rw [ran] at failed
      cases failed
  · intro value mid ran path fault failed
    rw [ran] at spared
    rcases rest : (items.mapM step).on mid with ⟨failure | values, after⟩
    · simp only [rest] at spared failed
      exact spared path fault (congrArg Except.error (Except.error.inj failed))
    · rw [rest] at failed
      cases failed

namespace Project

variable {project : Project} {known : Set (List UInt8)} {base : Place} {cached plain : Disk} {cache : Cache}
  {job : Job}

/-- With a sound cache a job obtains what the extraction of its text gives. -/
theorem obtain_isSound (sound : Cache.IsSound known base cached) (told_apart : Set.InjOn Digest.sha256 known)
    (leads : cached.Leads cache.directory base) (options : cache.options = project.config.extract) {text : String}
    (label_known : Cache.bytes (project.label job.path) ∈ known)
    (inputs_known : cache.inputs text job.processCss ∈ known) :
    ((project.obtain (some cache) job text).on cached).1.map Prod.fst = project.extract job text ∧
      Cache.IsSound known base ((project.obtain (some cache) job text).on cached).2 ∧
      Changes ∅ { place | base <+: place } cached ((project.obtain (some cache) job text).on cached).2 := by
  have changes : Changes ∅ { place | base <+: place } cached ((project.obtain (some cache) job text).on cached).2 :=
    (changes_obtain (sound.isClear leads) project job text).mono (by simp) fun place ⟨other, leads_other, inside⟩ =>
      leads_other.unique leads ▸ inside
  have below : base ++ [Cache.entryName (project.label job.path)] ≠ [] := by simp
  rcases on_obtain_some (sound.isClear leads) project job text with
    ⟨entry, other, obtained, leads_other, found, marked⟩ | ⟨mid, after, emptied, obtained, kept⟩
  · obtain rfl := leads_other.unique leads
    have extracted := sound.faithful cache _ _ _ entry label_known inputs_known found marked
    rw [options] at extracted
    refine ⟨?_, by rw [obtained]; exact sound, changes⟩
    rw [obtained, extract]
    simp only [extracted]
    rfl
  · refine ⟨?_, ?_, changes⟩
    · rw [obtained]
      rcases project.extract job text with failure | extraction
      · rfl
      · rfl
    · rw [obtained]
      have sound_mid : Cache.IsSound known base mid := by
        rcases emptied with rfl | ⟨other, leads_other, rfl⟩
        · exact sound
        · obtain rfl := leads_other.unique leads
          exact sound.empty below
      rcases kept with rfl | ⟨other, extraction, leads_other, extracted, rfl⟩
      · exact sound_mid
      · obtain rfl := leads_other.unique leads
        refine sound_mid.set told_apart label_known inputs_known ?_
        rw [extract] at extracted
        rw [options]
        split at extracted
        · rename_i found run_eq
          rw [run_eq, Except.ok.inj extracted]
        · cases extracted
        · cases extracted

/-- What a job delivers does not depend on what the disks disagree in. -/
theorem deliver_agrees (agrees : Agrees base cached plain) (avoids : plain.Avoids base (project.resultPath job.path))
    {extraction : Extraction} {isCached : Bool}
    (spared : Failure.Spares ((project.deliver job extraction isCached).on cached).1)
    (spared_plain : Failure.Spares ((project.deliver job extraction false).on plain).1) :
    ((project.deliver job extraction false).on plain).1 =
        ((project.deliver job extraction isCached).on cached).1.map Outcome.uncached ∧
      Agrees base ((project.deliver job extraction isCached).on cached).2
        ((project.deliver job extraction false).on plain).2 := by
  simp only [on_deliver] at spared spared_plain ⊢
  rcases code_eq : extraction.code with _ | code
  · exact ⟨rfl, agrees⟩
  · simp only [code_eq] at spared spared_plain ⊢
    rcases on_writeResult (project.resultPath job.path) code cached with ⟨mid, place, -, -, -, -, written⟩ |
      ⟨mid, blamed, fault, -, failed⟩
    swap
    · rw [failed] at spared
      exact absurd rfl (spared blamed fault)
    rcases on_writeResult (project.resultPath job.path) code plain with ⟨mid', place', -, -, -, -, written'⟩ |
      ⟨mid', blamed, fault, -, failed⟩
    swap
    · rw [failed] at spared_plain
      exact absurd rfl (spared_plain blamed fault)
    rw [written, written']
    exact ⟨rfl, agrees.writeResult avoids written written'⟩

/-- A job comes to the same with a sound cache and without one. -/
theorem runJob_agrees (agrees : Agrees base cached plain) (sound : Cache.IsSound known base cached)
    (told_apart : Set.InjOn Digest.sha256 known) (leads : cached.Leads cache.directory base)
    (options : cache.options = project.config.extract) (avoids : plain.Avoids base job.path)
    (avoids_result : plain.Avoids base (project.resultPath job.path))
    (messages_known : ∀ text, cached.readText job.path = .ok text →
      Cache.bytes (project.label job.path) ∈ known ∧ cache.inputs text job.processCss ∈ known)
    (spared : Failure.Spares ((project.runJob (some cache) job).on cached).1)
    (spared_plain : Failure.Spares ((project.runJob none job).on plain).1) :
    ((project.runJob none job).on plain).1 =
        ((project.runJob (some cache) job).on cached).1.map Outcome.uncached ∧
      Agrees base ((project.runJob (some cache) job).on cached).2 ((project.runJob none job).on plain).2 := by
  rw [on_runJob] at spared spared_plain ⊢
  rw [on_runJob]
  rcases read : cached.readText job.path with fault | text
  · rw [read] at spared
    exact absurd rfl (spared job.path fault)
  rcases read_plain : plain.readText job.path with fault | other
  · rw [read_plain] at spared_plain
    exact absurd rfl (spared_plain job.path fault)
  obtain rfl := agrees.readText_eq avoids read read_plain
  rw [read] at spared
  rw [read_plain] at spared_plain
  dsimp only at spared spared_plain ⊢
  rw [on_obtain_none] at spared_plain ⊢
  obtain ⟨label_known, inputs_known⟩ := messages_known text read
  obtain ⟨same, -, changes⟩ := obtain_isSound sound told_apart leads options label_known inputs_known
  rcases obtained : (project.obtain (some cache) job text).on cached with ⟨failure | ⟨extraction, isCached⟩, after⟩
  · rw [obtained] at same changes
    rw [← same]
    exact ⟨rfl, agrees.of_changes changes⟩
  · rw [obtained] at same changes spared
    rw [← same] at spared_plain ⊢
    exact deliver_agrees (agrees.of_changes changes) avoids_result spared spared_plain

/-- A job leaves a sound cache sound, and makes and removes no link. -/
theorem runJob_isSound (sound : Cache.IsSound known base cached) (told_apart : Set.InjOn Digest.sha256 known)
    (leads : cached.Leads cache.directory base) (options : cache.options = project.config.extract)
    (avoids_result : cached.Avoids base (project.resultPath job.path))
    (messages_known : ∀ text, cached.readText job.path = .ok text →
      Cache.bytes (project.label job.path) ∈ known ∧ cache.inputs text job.processCss ∈ known) :
    Cache.IsSound known base ((project.runJob (some cache) job).on cached).2 ∧
      Changes Set.univ Set.univ cached ((project.runJob (some cache) job).on cached).2 := by
  rw [on_runJob]
  rcases read : cached.readText job.path with fault | text
  · exact ⟨sound, .refl⟩
  dsimp only
  obtain ⟨label_known, inputs_known⟩ := messages_known text read
  obtain ⟨-, sound_after, changes⟩ := obtain_isSound sound told_apart leads options label_known inputs_known
  rcases obtained : (project.obtain (some cache) job text).on cached with ⟨failure | ⟨extraction, isCached⟩, after⟩
  · rw [obtained] at sound_after changes
    exact ⟨sound_after, changes.mono (by simp) (Set.subset_univ _)⟩
  · rw [obtained] at sound_after changes
    have delivered := changes_deliver project job extraction isCached after
    rw [changes.way_eq] at delivered
    constructor
    · refine sound_after.of_changes delivered fun place leads_result => avoids_result place ?_
      exact (changes.leads_iff.mp leads_result).mem_way
    · exact (changes.mono (by simp) (Set.subset_univ _)).trans (delivered.mono (by simp) (Set.subset_univ _))

/-- The messages that are digested for jobs, one after the other: for each its name, and its text with the flag
and the options. -/
def messagesOf (project : Project) (cache : Cache) : List Job → Disk → List (List UInt8)
  | [], _ => []
  | job :: jobs, disk =>
    match disk.readText job.path with
    | .error _ => []
    | .ok text =>
      Cache.bytes (project.label job.path) :: cache.inputs text job.processCss ::
        match (project.runJob (some cache) job).on disk with
        | (.ok _, after) => messagesOf project cache jobs after
        | (.error _, _) => []

theorem messages_head {jobs : List Job} (messages_known : ∀ message ∈ project.messagesOf cache (job :: jobs) cached,
    message ∈ known) (text : String) (read : cached.readText job.path = .ok text) :
    Cache.bytes (project.label job.path) ∈ known ∧ cache.inputs text job.processCss ∈ known := by
  simp only [messagesOf, read, List.forall_mem_cons] at messages_known
  exact ⟨messages_known.1, messages_known.2.1⟩

theorem messages_tail {jobs : List Job} (messages_known : ∀ message ∈ project.messagesOf cache (job :: jobs) cached,
    message ∈ known) {outcome : Outcome} {after : Disk}
    (ran : (project.runJob (some cache) job).on cached = (.ok outcome, after)) :
    ∀ message ∈ project.messagesOf cache jobs after, message ∈ known := by
  rcases read : cached.readText job.path with fault | text
  · rw [on_runJob, read] at ran
    cases ran
  · simp only [messagesOf, read, ran, List.forall_mem_cons] at messages_known
    exact messages_known.2.2

/-- Two jobs for one file, which the first leaves as it was, digest the messages of one. -/
theorem messagesOf_repeated {job : Job} {disk : Disk} {text : String} (reads : disk.readText job.path = .ok text)
    (unchanged : ((project.runJob (some cache) job).on disk).2.readText job.path = .ok text) :
    ∀ message ∈ project.messagesOf cache [job, job] disk,
      message = Cache.bytes (project.label job.path) ∨ message = cache.inputs text job.processCss := by
  rcases ran : (project.runJob (some cache) job).on disk with ⟨failure | outcome, after⟩
  · simp [messagesOf, reads, ran]
  · rw [ran] at unchanged
    have last : ∀ message ∈ project.messagesOf cache [job] after,
        message = Cache.bytes (project.label job.path) ∨ message = cache.inputs text job.processCss := by
      simp only [messagesOf, unchanged]
      split <;> simp
    rw [messagesOf, reads, ran]
    simpa using last

/-- Jobs leave a sound cache sound. -/
theorem jobs_isSound (told_apart : Set.InjOn Digest.sha256 known) (options : cache.options = project.config.extract)
    (jobs : List Job) (sound : Cache.IsSound known base cached) (leads : cached.Leads cache.directory base)
    (avoid_results : ∀ job ∈ jobs, cached.Avoids base (project.resultPath job.path))
    (messages_known : ∀ message ∈ project.messagesOf cache jobs cached, message ∈ known) :
    Cache.IsSound known base ((jobs.mapM (project.runJob (some cache))).on cached).2 := by
  induction jobs generalizing cached with
  | nil => exact sound
  | cons job jobs ih =>
      rw [List.forall_mem_cons] at avoid_results
      obtain ⟨sound_after, changes⟩ := runJob_isSound sound told_apart leads options avoid_results.1
        (messages_head messages_known)
      rw [DiskAction.on_mapM_cons]
      rcases ran : (project.runJob (some cache) job).on cached with ⟨failure | outcome, after⟩
      · rwa [ran] at sound_after
      · rw [ran] at sound_after changes
        have later := ih sound_after (changes.leads_iff.mpr leads)
          (fun job member => by
            rw [Avoids, changes.way_eq]
            exact avoid_results.2 job member)
          (messages_tail messages_known ran)
        dsimp only
        rcases rest : (jobs.mapM (project.runJob (some cache))).on after with ⟨failure | outcomes, last⟩
        · rwa [rest] at later
        · rwa [rest] at later

theorem changes_runJob_none (project : Project) (job : Job) (disk : Disk) :
    Changes (disk.way (project.resultPath job.path)) { place | disk.Leads (project.resultPath job.path) place } disk
      ((project.runJob none job).on disk).2 := by
  rw [on_runJob]
  rcases disk.readText job.path with fault | text
  · exact .refl
  · dsimp only
    rw [on_obtain_none]
    rcases project.extract job text with failure | extraction
    · exact .refl
    · exact changes_deliver project job extraction false disk

/-- Jobs come to the same with a sound cache and without one. -/
theorem jobs_agree (told_apart : Set.InjOn Digest.sha256 known) (options : cache.options = project.config.extract)
    (jobs : List Job) (agrees : Agrees base cached plain) (sound : Cache.IsSound known base cached)
    (leads : cached.Leads cache.directory base)
    (avoid : ∀ job ∈ jobs, plain.Avoids base job.path ∧ plain.Avoids base (project.resultPath job.path))
    (messages_known : ∀ message ∈ project.messagesOf cache jobs cached, message ∈ known)
    (spared : Failure.Spares ((jobs.mapM (project.runJob (some cache))).on cached).1)
    (spared_plain : Failure.Spares ((jobs.mapM (project.runJob none)).on plain).1) :
    ((jobs.mapM (project.runJob none)).on plain).1 =
        ((jobs.mapM (project.runJob (some cache))).on cached).1.map (List.map Outcome.uncached) ∧
      Agrees base ((jobs.mapM (project.runJob (some cache))).on cached).2
        ((jobs.mapM (project.runJob none)).on plain).2 := by
  induction jobs generalizing cached plain with
  | nil => exact ⟨rfl, agrees⟩
  | cons job jobs ih =>
      rw [List.forall_mem_cons] at avoid
      obtain ⟨⟨avoids, avoids_result⟩, avoid_later⟩ := avoid
      have avoids_cached : cached.Avoids base (project.resultPath job.path) := by
        rw [Avoids, way_congr agrees.root_eq fun place passed => agrees.linkAt?_eq (avoids_result place passed)]
        exact avoids_result
      obtain ⟨sound_after, changes⟩ := runJob_isSound sound told_apart leads options avoids_cached
        (messages_head messages_known)
      have changes_plain := changes_runJob_none project job plain
      obtain ⟨spared_head, spared_tail⟩ := spared.of_mapM_cons
      obtain ⟨spared_head_plain, spared_tail_plain⟩ := spared_plain.of_mapM_cons
      obtain ⟨same, agrees_after⟩ := runJob_agrees agrees sound told_apart leads options avoids avoids_result
        (messages_head messages_known) spared_head spared_head_plain
      rw [DiskAction.on_mapM_cons, DiskAction.on_mapM_cons]
      rcases ran : (project.runJob (some cache) job).on cached with ⟨failure | outcome, after⟩
      · rw [ran] at same agrees_after
        have ran_plain : (project.runJob none job).on plain = (.error failure, _) := Prod.ext same rfl
        rw [ran_plain]
        exact ⟨rfl, agrees_after⟩
      · rw [ran] at same agrees_after sound_after changes
        have ran_plain : (project.runJob none job).on plain = (.ok outcome.uncached, _) := Prod.ext same rfl
        obtain ⟨same_later, agrees_later⟩ := ih agrees_after sound_after (changes.leads_iff.mpr leads)
          (fun job member => by
            rw [Avoids, Avoids, changes_plain.way_eq, changes_plain.way_eq]
            exact avoid_later job member)
          (messages_tail messages_known ran) (spared_tail _ _ ran) (spared_tail_plain _ _ ran_plain)
        rw [ran_plain]
        dsimp only
        rcases rest : (jobs.mapM (project.runJob (some cache))).on after with ⟨failure | outcomes, last⟩
        · rw [rest] at same_later agrees_later
          rw [show (jobs.mapM (project.runJob none)).on _ = (.error failure, _) from Prod.ext same_later rfl]
          exact ⟨rfl, agrees_later⟩
        · rw [rest] at same_later agrees_later
          rw [show (jobs.mapM (project.runJob none)).on _ = (.ok (outcomes.map Outcome.uncached), _) from
            Prod.ext same_later rfl]
          exact ⟨rfl, agrees_later⟩

/-! ## Runs with and without a cache -/

/-- The same project without a cache. -/
def withoutCache (project : Project) : Project :=
  { project with config := { project.config with cacheDir := none } }

theorem prepare_withoutCache (project : Project) : project.withoutCache.prepare = project.prepare := rfl

/-- The messages that are digested in a run. -/
def messages (project : Project) (disk : Disk) : List (List UInt8) :=
  match project.cache? with
  | none => []
  | some cache =>
    match project.prepare.on disk with
    | (.error _, _) => []
    | (.ok (_, jobs), prepared) => project.messagesOf cache jobs (project.openCache.on prepared).2

theorem messages_eq {disk prepared : Disk} {index : Option String} {jobs : List Job}
    (ready : project.prepare.on disk = (.ok (index, jobs), prepared)) (found : project.cache? = some cache) :
    project.messages disk = project.messagesOf cache jobs (project.openCache.on prepared).2 := by
  simp only [messages, found, ready]

theorem options_of_cache? (found : project.cache? = some cache) : cache.options = project.config.extract := by
  obtain ⟨directory, -, rfl⟩ := Option.map_eq_some_iff.mp found
  rfl

/-- A run uses a directory of kept extractions which is apart from all else that it uses. -/
structure SharesCache (project : Project) (known : Set (List UInt8)) (base : Place) (disk : Disk) : Prop where
  /-- The cache of the project is in the directory. -/
  leads : ∃ cache, project.cache? = some cache ∧ disk.Leads cache.directory base
  /-- The functions index goes elsewhere. -/
  index_apart : disk.Avoids base project.indexResult
  /-- The source files are elsewhere, and their results go elsewhere. -/
  jobs_apart : ∀ index jobs, (project.prepare.on disk).1 = .ok (index, jobs) → ∀ job ∈ jobs,
    disk.Avoids base job.path ∧ disk.Avoids base (project.resultPath job.path)
  /-- The messages that are digested are known. -/
  messages_known : ∀ message ∈ project.messages disk, message ∈ known

namespace SharesCache

variable {disk : Disk}

/-- After the cache was opened it is still sound, and its path still leads to its directory. -/
theorem opened (shares : project.SharesCache known base disk) (sound : Cache.IsSound known base disk)
    (found : project.cache? = some cache) :
    Changes Set.univ { place | ¬base <+: place } disk (project.openCache.on (project.prepare.on disk).2).2 ∧
      Cache.IsSound known base (project.openCache.on (project.prepare.on disk).2).2 ∧
      (project.openCache.on (project.prepare.on disk).2).2.Leads cache.directory base := by
  have prepared : Changes Set.univ { place | ¬base <+: place } disk (project.prepare.on disk).2 :=
    (project.changes_prepare disk).mono (by simp)
      fun place leads_index => shares.index_apart place (Leads.mem_way leads_index)
  obtain ⟨opened, opening, changes⟩ := project.on_openCache (project.prepare.on disk).2
  rw [opening]
  rw [found] at changes
  have changes : Changes Set.univ { place | ¬base <+: place } disk opened :=
    prepared.trans (changes.mono (by simp) (Set.empty_subset _))
  obtain ⟨other, found_other, leads⟩ := shares.leads
  obtain rfl := Option.some.inj (found.symm.trans found_other)
  exact ⟨changes, sound.of_changes changes fun place outside => outside, changes.leads_iff.mpr leads⟩

/-- A run leaves a sound cache sound. -/
theorem run_isSound (shares : project.SharesCache known base disk) (told_apart : Set.InjOn Digest.sha256 known)
    (sound : Cache.IsSound known base disk) : Cache.IsSound known base (project.run.on disk).2 := by
  obtain ⟨cache, found, -⟩ := shares.leads
  obtain ⟨changes, sound_opened, leads⟩ := shares.opened sound found
  rw [on_run]
  rcases prepared : project.prepare.on disk with ⟨failure | ⟨index, jobs⟩, mid⟩
  · have unchanged := (project.changes_prepare disk)
    rw [prepared] at unchanged
    exact sound.of_changes unchanged fun place leads_index => shares.index_apart place (Leads.mem_way leads_index)
  · dsimp only
    rw [prepared] at changes sound_opened leads
    rw [found]
    have later := jobs_isSound told_apart (options_of_cache? found) jobs sound_opened leads
      (fun job member => by
        rw [Avoids, changes.way_eq]
        exact (shares.jobs_apart index jobs (congrArg Prod.fst prepared) job member).2)
      (messages_eq prepared found ▸ shares.messages_known)
    rcases rest : (jobs.mapM (project.runJob (some cache))).on (project.openCache.on mid).2 with
      ⟨failure | outcomes, after⟩
    · rwa [rest] at later
    · rwa [rest] at later

end SharesCache

end Project

/-- Disks on which a directory is used for kept extractions: nothing is in it at first; then it is changed by
runs that use it and by nothing else, while all else may be edited. -/
inductive CacheHistory (known : Set (List UInt8)) (base : Place) : Disk → Prop
  | start {disk : Disk} (free : disk.linkAt? base = none)
      (empty : ∀ place, base <+: place → place ≠ base → disk.at? place = none) : CacheHistory known base disk
  | edit {disk edited : Disk} (history : CacheHistory known base disk)
      (kept : ∀ place, base <+: place → edited.at? place = disk.at? place) : CacheHistory known base edited
  | run {disk : Disk} {project : Project} (history : CacheHistory known base disk)
      (shares : project.SharesCache known base disk) : CacheHistory known base (project.run.on disk).2

/-- Kept extractions are sound at any time. -/
theorem CacheHistory.isSound {known : Set (List UInt8)} {base : Place} {disk : Disk}
    (history : CacheHistory known base disk) (told_apart : Set.InjOn Digest.sha256 known) :
    Cache.IsSound known base disk := by
  induction history with
  | @start disk free empty =>
      constructor
      · intro place inside
        by_cases same : place = base
        · rw [same, free]
        · simp [linkAt?, empty place inside same]
      · intro cache label source css entry _ _ found
        have nothing : disk.at? (base ++ [Cache.entryName label]) = none :=
          empty _ (List.prefix_append _ _) (by simp)
        simp [entryAt?, nothing] at found
  | edit history kept ih =>
      refine ih.of_entries (fun place inside => ?_) fun place entry inside found => ?_
      · simp only [linkAt?, kept place inside]
        exact ih.free place inside
      · simpa only [entryAt?, kept place inside] using found
  | run history shares ih => exact shares.run_isSound told_apart ih

theorem Report.ofOutcomes_uncached (index : Option String) (outcomes : List Outcome) :
    Report.ofOutcomes index (outcomes.map Outcome.uncached) =
      { Report.ofOutcomes index outcomes with cacheHits := 0 } := by
  have no_hits : ((outcomes.map Outcome.uncached).filter Outcome.isCached).length = 0 := by
    simp [List.filter_map, Function.comp_def, Outcome.uncached]
  simp only [Report.ofOutcomes, List.filterMap_map, List.flatMap_map, no_hits]
  rfl

theorem Project.on_run_withoutCache (project : Project) (disk : Disk) :
    project.withoutCache.run.on disk =
      match project.prepare.on disk with
      | (.error failure, after) => (.error failure, after)
      | (.ok (index, jobs), prepared) =>
        match (jobs.mapM (project.runJob none)).on prepared with
        | (.ok outcomes, after) => (.ok (Report.ofOutcomes index outcomes), after)
        | (.error failure, after) => (.error failure, after) := by
  rw [on_run, prepare_withoutCache]
  rfl

/-- **The cache does not show.** Whatever runs and edits came before, a run with the cache fails for the same
reason as the run without it, or gives the same report but for the number of kept extractions, and it leaves
the same files with the same contents outside the directory of the cache. -/
theorem run_eq_run_withoutCache {known : Set (List UInt8)} {base : Place} {disk : Disk} {project : Project}
    (told_apart : Set.InjOn Digest.sha256 known) (history : CacheHistory known base disk)
    (shares : project.SharesCache known base disk) (spared : Failure.Spares (project.run.on disk).1)
    (spared_plain : Failure.Spares (project.withoutCache.run.on disk).1) :
    (project.withoutCache.run.on disk).1 =
        (project.run.on disk).1.map (fun report => { report with cacheHits := 0 }) ∧
      ∀ place, ¬base <+: place → ∀ bytes,
        (project.run.on disk).2.at? place = some (.file bytes) ↔
          (project.withoutCache.run.on disk).2.at? place = some (.file bytes) := by
  obtain ⟨cache, found, -⟩ := shares.leads
  obtain ⟨-, sound, leads⟩ := shares.opened (history.isSound told_apart) found
  rw [Project.on_run_withoutCache] at spared_plain ⊢
  rw [Project.on_run, found] at spared ⊢
  rcases prepared : project.prepare.on disk with ⟨failure | ⟨index, jobs⟩, mid⟩
  · exact ⟨rfl, fun _ _ _ => Iff.rfl⟩
  · rw [prepared] at sound leads spared spared_plain
    dsimp only at sound leads spared spared_plain ⊢
    obtain ⟨opened, opening, changes⟩ := project.on_openCache mid
    rw [found] at changes
    rw [opening] at sound leads spared ⊢
    dsimp only at sound leads spared ⊢
    have agrees : Agrees base opened mid := by
      refine ⟨changes.root_eq, fun place _ => ?_⟩
      rcases changes.place_cases place with same | ⟨-, empty, directory⟩ | ⟨none_written, -⟩
      · exact .inl same
      · exact .inr ⟨directory, empty⟩
      · exact none_written.elim
    have avoid : ∀ job ∈ jobs, mid.Avoids base job.path ∧ mid.Avoids base (project.resultPath job.path) := by
      intro job member
      have unchanged := project.changes_prepare disk
      rw [prepared] at unchanged
      rw [Avoids, Avoids, unchanged.way_eq, unchanged.way_eq]
      exact shares.jobs_apart index jobs (congrArg Prod.fst prepared) job member
    have messages_known := shares.messages_known
    rw [Project.messages_eq prepared found, opening] at messages_known
    have spared_jobs : Failure.Spares ((jobs.mapM (project.runJob (some cache))).on opened).1 := by
      intro path fault failed
      rw [show (jobs.mapM (project.runJob (some cache))).on opened = (.error (.unreachable path fault), _) from
        Prod.ext failed rfl] at spared
      exact spared path fault rfl
    have spared_jobs_plain : Failure.Spares ((jobs.mapM (project.runJob none)).on mid).1 := by
      intro path fault failed
      rw [show (jobs.mapM (project.runJob none)).on mid = (.error (.unreachable path fault), _) from
        Prod.ext failed rfl] at spared_plain
      exact spared_plain path fault rfl
    obtain ⟨same, agrees_after⟩ := Project.jobs_agree told_apart (Project.options_of_cache? found) jobs agrees sound
      leads avoid messages_known spared_jobs spared_jobs_plain
    have files : ∀ place, ¬base <+: place → ∀ bytes,
        ((jobs.mapM (project.runJob (some cache))).on opened).2.at? place = some (.file bytes) ↔
          ((jobs.mapM (project.runJob none)).on mid).2.at? place = some (.file bytes) := by
      intro place outside bytes
      rcases agrees_after.place_cases place outside with same | ⟨directory, empty⟩
      · rw [same]
      · simp [directory, empty]
    rcases ran : (jobs.mapM (project.runJob (some cache))).on opened with ⟨failure | outcomes, after⟩
    · rw [ran] at same files
      rw [show (jobs.mapM (project.runJob none)).on mid = (.error failure, _) from Prod.ext same rfl]
      exact ⟨rfl, files⟩
    · rw [ran] at same files
      rw [show (jobs.mapM (project.runJob none)).on mid = (.ok (outcomes.map Outcome.uncached), _) from
        Prod.ext same rfl]
      exact ⟨congrArg Except.ok (Report.ofOutcomes_uncached index outcomes), files⟩

/-- A project with a cache that works on one source file twice. -/
def repeatedProject : Project :=
  ⟨"/app", { targets := [⟨"a.js", false⟩, ⟨"a.js", false⟩], cacheDir := some ".cache" }⟩

/-- The disk of that project. -/
def repeatedDisk : Disk := ⟨"/app", [(["src"], .directory), (["src", "a.js"], .file "f()".toUTF8)]⟩

/-- The messages that are digested in its run. -/
def repeatedMessages : Digest.ToldApart where
  messages := [Cache.bytes "src/a.js", Cache.inputs ⟨"", {}⟩ "f()" false]
  distinct := by decide +kernel

/-- On a disk without links, a path of proper names avoids a directory that it does not lead below. -/
theorem Disk.avoids_of_hasNoLinks {disk : Disk} (no_links : disk.hasNoLinks = true) {base : Place} {path : String}
    {names : List String} (inside : disk.namesBelowRoot? path = some names)
    (proper : (names.all isProper && !base.isPrefixOf names) = true) : disk.Avoids base path := by
  rw [Bool.and_eq_true, Bool.not_eq_true', ← Bool.not_eq_true, List.isPrefixOf_iff_prefix] at proper
  intro place passed below
  exact proper.2 (below.trans (isPrefix_of_mem_way no_links inside proper.1 passed))

/-- Where its cache, its source and its results are. -/
theorem repeatedProject_places :
    repeatedDisk.namesBelowRoot? (Path.join "/app" ".cache") = some [".cache"] ∧
      repeatedDisk.namesBelowRoot? "/app/src/a.js" = some ["src", "a.js"] ∧
      repeatedDisk.namesBelowRoot? (repeatedProject.resultPath "/app/src/a.js") = some ["temp", "a.js"] ∧
      repeatedDisk.namesBelowRoot? repeatedProject.indexResult = some ["temp", "resources", "functions", "index.js"] := by
  decide +kernel

/-- Its jobs, and what they read. -/
theorem repeatedProject_starts :
    let opened := (repeatedProject.openCache.on (repeatedProject.prepare.on repeatedDisk).2).2
    repeatedProject.label "/app/src/a.js" = "src/a.js" ∧
      (repeatedProject.prepare.on repeatedDisk).1.toOption.map Prod.snd =
        some [⟨"/app/src/a.js", false⟩, ⟨"/app/src/a.js", false⟩] ∧
      opened.readText "/app/src/a.js" = .ok "f()" ∧
      ((repeatedProject.runJob (some ⟨Path.join "/app" ".cache", {}⟩) ⟨"/app/src/a.js", false⟩).on opened).2.readText
        "/app/src/a.js" = .ok "f()" := by
  decide +kernel

theorem repeatedProject_jobs {index : Option String} {jobs : List Job}
    (prepared : (repeatedProject.prepare.on repeatedDisk).1 = .ok (index, jobs)) :
    jobs = [⟨"/app/src/a.js", false⟩, ⟨"/app/src/a.js", false⟩] :=
  Project.jobs_eq_of_prepare repeatedProject_starts.2.1 prepared

theorem repeatedProject_shares :
    repeatedProject.SharesCache { message | message ∈ repeatedMessages.messages } [".cache"] repeatedDisk where
  leads := ⟨⟨Path.join "/app" ".cache", {}⟩, rfl,
    leads_of_hasNoLinks (by decide) repeatedProject_places.1 (by decide)⟩
  index_apart := avoids_of_hasNoLinks (by decide) repeatedProject_places.2.2.2 (by decide)
  jobs_apart := by
    intro index jobs prepared job member
    rw [repeatedProject_jobs prepared] at member
    obtain rfl : job = ⟨"/app/src/a.js", false⟩ := by simpa using member
    exact ⟨avoids_of_hasNoLinks (by decide) repeatedProject_places.2.1 (by decide),
      avoids_of_hasNoLinks (by decide) repeatedProject_places.2.2.1 (by decide)⟩
  messages_known := by
    have found : repeatedProject.cache? = some ⟨Path.join "/app" ".cache", {}⟩ := rfl
    obtain ⟨label, -, reads, unchanged⟩ := repeatedProject_starts
    intro message member
    rcases prepared : repeatedProject.prepare.on repeatedDisk with ⟨failure | ⟨index, jobs⟩, disk⟩
    · simp [Project.messages, found, prepared] at member
    · obtain rfl := repeatedProject_jobs (congrArg Prod.fst prepared)
      rw [Project.messages_eq prepared found] at member
      simp only [prepared] at reads unchanged
      have digested := Project.messagesOf_repeated reads unchanged message member
      rw [label] at digested
      rcases digested with rfl | rfl
      · exact .head _
      · exact .tail _ (.head _)

theorem Failure.Spares.of_toOption {α : Type} {result : Except Failure α} (succeeds : result.toOption ≠ none) :
    Failure.Spares result := by
  rintro path fault rfl
  exact succeeds rfl

/-- The second job of the project takes the extraction from the cache, and the run comes to the same as without
it. -/
theorem repeated_job_with_cache :
    ((repeatedProject.run.on repeatedDisk).1.toOption.map Report.cacheHits = some 1) ∧
      (repeatedProject.withoutCache.run.on repeatedDisk).1 =
        (repeatedProject.run.on repeatedDisk).1.map (fun report => { report with cacheHits := 0 }) ∧
      ∀ place, ¬[".cache"] <+: place → ∀ bytes,
        (repeatedProject.run.on repeatedDisk).2.at? place = some (.file bytes) ↔
          (repeatedProject.withoutCache.run.on repeatedDisk).2.at? place = some (.file bytes) := by
  have start : CacheHistory { message | message ∈ repeatedMessages.messages } [".cache"] repeatedDisk := by
    refine .start rfl fun place below _ => ?_
    obtain ⟨rest, rfl⟩ := below
    simp [repeatedDisk, at?, List.lookup_cons]
  have hits : (repeatedProject.run.on repeatedDisk).1.toOption.map Report.cacheHits = some 1 := by decide +kernel
  have spared : (repeatedProject.run.on repeatedDisk).1.toOption ≠ none := by
    intro failed
    simp [failed] at hits
  exact ⟨hits, run_eq_run_withoutCache repeatedMessages.injOn start repeatedProject_shares (.of_toOption spared)
    (.of_toOption (by decide +kernel))⟩

end Storyboard
