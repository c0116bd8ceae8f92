import Storyboard.Cache
import Storyboard.Config
import Storyboard.Failure
import Storyboard.FunctionIndex

/-!
# Working on a project

A project is a directory with a configuration. Its functions index is generated first; then each source
file that the configuration asks for is one job, and what comes of the jobs is reported in their order. The
work stops at the first failure, and what was written before stays written.
-/

namespace Storyboard

/-- A source file to work on. -/
structure Job where
  /-- The path of the file. -/
  path : String
  /-- Whether its style sheets are loaded. -/
  processCss : Bool
deriving DecidableEq, Repr

/-- What comes of a job. -/
structure Outcome where
  /-- The path of the source file. -/
  sourcePath : String
  /-- The path of the result, if the file was changed. -/
  written : Option String
  /-- What was found in the file. -/
  diagnostics : List Diagnostic
  /-- Whether the extraction had been kept from an earlier run. -/
  isCached : Bool
deriving DecidableEq, Repr

/-- What comes of the work on a project. -/
structure Report where
  /-- The path of the generated functions index, if there is one. -/
  functionsIndex : Option String
  /-- The paths of the results of files that were changed. -/
  changed : List String
  /-- The paths of source files that were left as they are. -/
  unchanged : List String
  /-- What was found in the files. -/
  diagnostics : List Diagnostic
  /-- How many extractions had been kept from an earlier run. -/
  cacheHits : Nat
deriving DecidableEq, Repr

/-- The report on a list of outcomes. -/
def Report.ofOutcomes (functionsIndex : Option String) (outcomes : List Outcome) : Report where
  functionsIndex := functionsIndex
  changed := outcomes.filterMap Outcome.written
  unchanged := outcomes.filterMap fun outcome =>
    if outcome.written.isNone then some outcome.sourcePath else none
  diagnostics := outcomes.flatMap Outcome.diagnostics
  cacheHits := (outcomes.filter Outcome.isCached).length

namespace Config

/-- Read a configuration from a file. -/
def load (disk : Disk) (path : String) : Except Failure Config := do
  let text ← Failure.blame path (disk.readText path)
  match parse? text with
  | some config => return config
  | none => .error .badConfig

/-- The configuration of a project; without a file it is the default one. -/
def discover (disk : Disk) (root : String) : Except Failure Config :=
  let path := Path.join root fileName
  if disk.has path then load disk path else .ok {}

end Config

/-- A project: its directory and its configuration. -/
structure Project where
  /-- The path of its directory. -/
  root : String
  /-- Its configuration. -/
  config : Config

namespace Project

/-- The directory of the sources. -/
def sources (project : Project) : String := Path.join project.root project.config.srcDir

/-- The directory of the results. -/
def results (project : Project) : String := Path.join project.root project.config.outDir

/-! ## Reading and writing -/

/-- Blame a path if an action fails. -/
def blaming {α : Type} (path : String) (action : DiskAction FileFault α) : DiskAction Failure α := do
  match ← (action.run : StateM Disk (Except FileFault α)) with
  | .ok value => return value
  | .error fault => throw (.unreachable path fault)

/-- The text of a file. -/
def readText (path : String) : DiskAction Failure String := do
  match (← get).readText path with
  | .ok text => return text
  | .error fault => throw (.unreachable path fault)

/-- Make the directories above a path. -/
def makeAbove (path : String) : DiskAction Failure Unit :=
  match Path.parent? path with
  | some above => blaming above (Disk.makeAllDirectories above)
  | none => pure ()

/-- Write a result; the directories above it are made if they are missing. -/
def writeResult (path text : String) : DiskAction Failure Unit := do
  makeAbove path
  blaming path (Disk.writeText path text)

/-! ## The functions index -/

/-- The functions index, named from the root of the project. -/
def indexLabel (project : Project) : String :=
  Path.join project.config.srcDir project.config.functionsIndex

/-- Generate the functions index, if the project has one that lists functions. -/
def generateIndex (project : Project) : DiskAction Failure (Option String) := do
  let path := Path.join project.root project.indexLabel
  if !(← get).has path then return none
  else
    let text ← readText path
    match FunctionIndex.generate ⟨project.indexLabel, text⟩ project.config.extract with
    | .error error => throw (.rejected error)
    | .ok none => return none
    | .ok (some code) =>
      let result := Path.join project.results project.config.functionsIndex
      writeResult result code
      return some result

/-! ## Jobs -/

/-- The jobs for a target: a file is one job, a directory one for each source file below it, and a target
that is missing is none. -/
def jobsOf (project : Project) (disk : Disk) (target : Target) : Except Failure (List Job) :=
  let path := Path.join project.sources target.path
  if disk.isFile path then .ok [⟨path, target.processCss⟩]
  else if disk.isDirectory path then
    match disk.sourcesBelow path with
    | .ok paths => .ok (paths.map fun path => ⟨path, target.processCss⟩)
    | .error (place, fault) => .error (.unsearchable place fault)
  else .ok []

/-- The jobs of a project, in the order of its targets. -/
def jobs (project : Project) (disk : Disk) : Except Failure (List Job) := do
  return (← project.config.targets.mapM (project.jobsOf disk)).flatten

/-- A source file, named from the root of the project. -/
def label (project : Project) (path : String) : String := (Path.below? path project.root).getD path

/-- Where the result of a source file goes. -/
def resultPath (project : Project) (path : String) : String :=
  Path.join project.results ((Path.below? path project.sources).getD path)

/-- Extract the expressions of a source file. -/
def extract (project : Project) (job : Job) (text : String) : Except Failure Extraction :=
  match Extraction.run ⟨project.label job.path, text⟩ project.config.extract job.processCss with
  | .ok extraction => .ok extraction
  | .error (.rejected error) => .error (.rejected error)
  | .error .misplaced => .error .misplaced

/-- The kept extraction of a source file, or a new one that is then kept, and whether it was kept. -/
def obtain (project : Project) (cache : Option Cache) (job : Job) (text : String) :
    DiskAction Failure (Extraction × Bool) := do
  let name := project.label job.path
  let kept : Option Extraction ← match cache with
    | some cache => cache.get? name text job.processCss
    | none => pure none
  match kept with
  | some extraction => return (extraction, true)
  | none =>
    match project.extract job text with
    | .error failure => throw failure
    | .ok extraction =>
      match cache with
      | some cache => cache.set name text job.processCss extraction
      | none => pure ()
      return (extraction, false)

/-- Write the result of a job, if its file was changed. -/
def deliver (project : Project) (job : Job) (extraction : Extraction) (isCached : Bool) :
    DiskAction Failure Outcome :=
  match extraction.code with
  | none =>
    return { sourcePath := job.path, written := none, diagnostics := extraction.diagnostics, isCached }
  | some code => do
    let result := project.resultPath job.path
    writeResult result code
    return {
      sourcePath := job.path
      written := some result
      diagnostics := extraction.diagnostics
      isCached }

/-- Do a job. -/
def runJob (project : Project) (cache : Option Cache) (job : Job) : DiskAction Failure Outcome := do
  let text ← readText job.path
  let (extraction, isCached) ← project.obtain cache job text
  project.deliver job extraction isCached

/-- Open the cache of a project, if it has one. -/
def openCache (project : Project) : DiskAction Failure (Option Cache) :=
  match project.config.cacheDir with
  | none => pure none
  | some directory => do
    let cache ← (Cache.openAt (Path.join project.root directory) project.config.extract : StateM Disk Cache)
    return some cache

/-- What comes before the jobs: the functions index is generated, and the jobs are listed. -/
def prepare (project : Project) : DiskAction Failure (Option String × List Job) := do
  let functionsIndex ← project.generateIndex
  match project.jobs (← get) with
  | .error failure => throw failure
  | .ok jobs => return (functionsIndex, jobs)

/-- Work on a project. -/
def run (project : Project) : DiskAction Failure Report := do
  let (functionsIndex, jobs) ← project.prepare
  let cache ← project.openCache
  let outcomes ← jobs.mapM (project.runJob cache)
  return Report.ofOutcomes functionsIndex outcomes

end Project

end Storyboard
