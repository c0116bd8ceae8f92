import Storyboard.Proofs.FilesInDirectory
import Storyboard.Proofs.KeptExtractions

/-!
# What was kept last

Any number of caches with options of their own may use one directory. A look for the extraction of a source
file then finds what was kept last under the label of the file, if that was kept for the same source, flag
and options, and nothing otherwise. After every request, the file of a label holds the entry that was
written last.
-/

namespace Storyboard

open Disk

namespace Cache

/-- What an extraction is kept for: the options of a cache, the label of a source file, its text and whether
style sheets are loaded. -/
structure Key where
  options : Options
  label : String
  source : String
  processCss : Bool
deriving DecidableEq, Repr

/-- What is asked of the caches of a directory. -/
inductive Request where
  | opening (options : Options)
  | keeping (key : Key) (extraction : Extraction)
  | looking (key : Key)

/-- The cache of a directory that a key is for. -/
def Key.cache (directory : String) (key : Key) : Cache := ⟨directory, key.options⟩

/-- The digest of what an extraction with a key is computed from. -/
def Key.hash (directory : String) (key : Key) : String :=
  (key.cache directory).hash key.source key.processCss

/-- The messages that are digested for a key. -/
def Key.messages (directory : String) (key : Key) : List (List UInt8) :=
  [bytes key.label, (key.cache directory).inputs key.source key.processCss]

namespace Request

/-- Do what is asked. -/
def perform (directory : String) : Request → StateM Disk Unit
  | opening options => do
    let _ ← openAt directory options
  | keeping key extraction =>
    (key.cache directory).set key.label key.source key.processCss extraction
  | looking key => do
    let _ ← (key.cache directory).get? key.label key.source key.processCss

/-- Do what is asked one after the other. -/
def performAll (directory : String) (requests : List Request) (disk : Disk) : Disk :=
  requests.foldl (fun disk request => ((request.perform directory).run disk).2) disk

/-- The messages that are digested for a request. -/
def messages (directory : String) : Request → List (List UInt8)
  | opening _ => []
  | keeping key _ => key.messages directory
  | looking key => key.messages directory

/-- What a request keeps under a label. -/
def kept? (label : String) : Request → Option (Key × Extraction)
  | keeping key extraction => if key.label = label then some (key, extraction) else none
  | _ => none

end Request

/-- What was kept last under a label. -/
def lastKept? (label : String) (requests : List Request) : Option (Key × Extraction) :=
  requests.reverse.findSome? (Request.kept? label)

theorem lastKept?_concat (label : String) (requests : List Request) (request : Request) :
    lastKept? label (requests ++ [request]) = (request.kept? label).or (lastKept? label requests) := by
  rw [lastKept?, List.reverse_append, List.reverse_singleton, List.singleton_append, List.findSome?_cons]
  cases request.kept? label <;> rfl

theorem mem_of_lastKept? {label : String} {requests : List Request} {key : Key} {extraction : Extraction}
    (last : lastKept? label requests = some (key, extraction)) :
    key.label = label ∧ Request.keeping key extraction ∈ requests := by
  obtain ⟨request, member, kept⟩ := List.exists_of_findSome?_eq_some last
  cases request with
  | opening options => simp [Request.kept?] at kept
  | looking other => simp [Request.kept?] at kept
  | keeping other given =>
      rw [Request.kept?, Option.ite_none_right_eq_some, Option.some.injEq, Prod.mk.injEq] at kept
      obtain ⟨labelled, rfl, rfl⟩ := kept
      exact ⟨labelled, List.mem_reverse.mp member⟩

/-! ## Files of entries -/

/-- The path of a directory leads to it, and the paths of the entries in it are on the disk. -/
structure IsReady (directory : String) (base : Place) (disk : Disk) : Prop where
  found : disk.find directory = .ok (.present base .directory)
  inside : ∀ label, ∃ names, disk.namesBelowRoot? (Path.join directory (entryName label)) = some names

namespace IsReady

variable {directory : String} {base : Place} {disk : Disk}

/-- The path of an entry leads to its place in the directory. -/
theorem locate_entryPath (ready : IsReady directory base disk) (throughLast : Bool) {label : String}
    (free : disk.linkAt? (base ++ [entryName label]) = none) :
    disk.locate throughLast (Path.join directory (entryName label)) =
      .ok (match disk.at? (base ++ [entryName label]) with
        | none => .absent (base ++ [entryName label])
        | some content => .present (base ++ [entryName label]) content) := by
  obtain ⟨names, inside⟩ := ready.inside label
  exact locate_join_name throughLast ready.found (slash_notMem_entryName label) (stays_entryName label)
    (entryName_ne_up label) inside free

theorem find_entryPath (ready : IsReady directory base disk) {label : String}
    (free : disk.linkAt? (base ++ [entryName label]) = none) :
    disk.find (Path.join directory (entryName label)) =
      .ok (match disk.at? (base ++ [entryName label]) with
        | none => .absent (base ++ [entryName label])
        | some content => .present (base ++ [entryName label]) content) :=
  ready.locate_entryPath true free

/-- The directory stays ready when what changes was a file or nothing. -/
theorem congr (ready : IsReady directory base disk) {other : Disk} (roots : other.root = disk.root)
    (same : ∀ place, (∃ held, disk.at? place = some held ∧ ∀ bytes, held ≠ .file bytes) →
      other.at? place = disk.at? place) :
    IsReady directory base other where
  found := find_directory_congr ready.found roots same
  inside label := by
    obtain ⟨names, inside⟩ := ready.inside label
    exact ⟨names, by rwa [namesBelowRoot?_congr roots]⟩

/-- Writing a file where a file or nothing was leaves the directory ready. -/
theorem put (ready : IsReady directory base disk) {place : Place} (below : place ≠ [])
    (open_place : disk.at? place = none ∨ ∃ bytes, disk.at? place = some (.file bytes)) (bytes : ByteArray) :
    IsReady directory base (disk.put place (.file bytes)) := by
  refine ready.congr rfl ?_
  rintro other ⟨held, held_eq, not_file⟩
  refine at?_put_of_ne disk _ ?_
  rintro rfl
  rcases open_place with nothing | ⟨old, file⟩
  · rw [nothing] at held_eq
    cases held_eq
  · exact not_file old (Option.some.inj (held_eq.symm.trans file))

/-- Removing a file leaves the directory ready. -/
theorem empty (ready : IsReady directory base disk) {place : Place} (below : place ≠ []) {bytes : ByteArray}
    (file : disk.at? place = some (.file bytes)) : IsReady directory base (disk.empty place) := by
  refine ready.congr rfl ?_
  rintro other ⟨held, held_eq, not_file⟩
  rw [at?_empty below, if_neg]
  rintro rfl
  exact not_file bytes (Option.some.inj (held_eq.symm.trans file))

variable {cache : Cache}

/-- Keeping an extraction writes its entry to its place. -/
theorem run_set (ready : IsReady cache.directory base disk) {label source : String} {css : Bool}
    {extraction : Extraction}
    (open_place : disk.at? (base ++ [entryName label]) = none ∨
      ∃ bytes, disk.at? (base ++ [entryName label]) = some (.file bytes)) :
    ((cache.set label source css extraction).run disk).2 = disk.put (base ++ [entryName label])
      (.file (CacheEntry.toJson ⟨cache.hash source css, extraction⟩).render.toUTF8) := by
  have free : disk.linkAt? (base ++ [entryName label]) = none := by
    rcases open_place with nothing | ⟨bytes, file⟩ <;> simp [linkAt?, *]
  have some_name : entryName label ≠ "" := by
    intro same
    simpa [same, stays] using stays_entryName label
  rw [set, run_attempt, on_writeText_eq, entryPath, ready.find_entryPath free,
    endsWith_join_name (slash_notMem_entryName label) some_name]
  rcases open_place with nothing | ⟨bytes, file⟩
  · rw [nothing]
    rfl
  · rw [file]

/-- A look where nothing is finds nothing. -/
theorem run_get?_of_none (ready : IsReady cache.directory base disk) {label : String}
    (nothing : disk.at? (base ++ [entryName label]) = none) (source : String) (css : Bool) :
    (cache.get? label source css).run disk = (none, disk) := by
  have free : disk.linkAt? (base ++ [entryName label]) = none := by simp [linkAt?, nothing]
  have read : disk.readText (cache.entryPath label) = .error .notFound := by
    rw [readText, entryPath, ready.find_entryPath free, nothing]
  rw [get?, StateT.run_bind, stored?, StateT.run_bind, StateT.run_get, pure_bind]
  dsimp only
  rw [read]
  rfl

/-- A file where an entry is looked for is read as a text and then as an entry; a text that is none is
removed. -/
theorem run_stored?_of_file (ready : IsReady cache.directory base disk) {label : String} {bytes : ByteArray}
    (there : disk.at? (base ++ [entryName label]) = some (.file bytes)) :
    (cache.stored? label).run disk =
      match String.fromUTF8? bytes with
      | none => (none, disk)
      | some text => match CacheEntry.parse? text with
        | some entry => (some entry, disk)
        | none => (none, disk.empty (base ++ [entryName label])) := by
  have free : disk.linkAt? (base ++ [entryName label]) = none := by simp [linkAt?, there]
  rw [stored?, StateT.run_bind, StateT.run_get, pure_bind]
  dsimp only
  rw [readText, entryPath, ready.find_entryPath free, there]
  dsimp only
  cases String.fromUTF8? bytes with
  | none => rfl
  | some text =>
      dsimp only
      cases CacheEntry.parse? text with
      | some entry => rfl
      | none =>
          have located := ready.locate_entryPath false free
          rw [there] at located
          dsimp only
          rw [StateT.run_bind, run_attempt, on_removeFile_of_file located]
          rfl

/-- A look where an entry is finds its extraction if it is marked with the digest that is looked for. -/
theorem run_get?_of_entryAt? (ready : IsReady cache.directory base disk) {label : String} {entry : CacheEntry}
    (found : disk.entryAt? (base ++ [entryName label]) = some entry) (source : String) (css : Bool) :
    (cache.get? label source css).run disk =
      (if entry.hash = cache.hash source css then some entry.extraction else none, disk) := by
  rw [entryAt?] at found
  split at found
  · rename_i bytes there
    obtain ⟨text, decoded, parsed⟩ := Option.bind_eq_some_iff.mp found
    rw [get?, StateT.run_bind, ready.run_stored?_of_file there, decoded]
    dsimp only
    rw [parsed]
    change ((if entry.hash == cache.hash source css then some entry.extraction else none), disk) = _
    simp only [beq_iff_eq]
  · cases found

/-- The same for an entry that was written. -/
theorem run_get?_of_entry (ready : IsReady cache.directory base disk) {label : String} {entry : CacheEntry}
    (there : disk.at? (base ++ [entryName label]) = some (.file entry.toJson.render.toUTF8))
    (fits : entry.extraction.Fits) (source : String) (css : Bool) :
    (cache.get? label source css).run disk =
      (if entry.hash = cache.hash source css then some entry.extraction else none, disk) := by
  refine ready.run_get?_of_entryAt? ?_ source css
  rw [entryAt?, there]
  dsimp only
  rw [fromUTF8?_toUTF8, Option.bind_some]
  exact CacheEntry.parse?_render_eq_some_iff.mpr ⟨rfl, fits⟩

/-- Opening a cache of the directory changes nothing. -/
theorem run_openAt (ready : IsReady directory base disk) (options : Options) :
    (openAt directory options).run disk = (⟨directory, options⟩, disk) := by
  have there : disk.has directory = true := by
    rw [has, ready.found]
  rw [openAt, StateT.run_bind, StateT.run_get, pure_bind]
  dsimp only
  rw [there]
  rfl

end IsReady

/-! ## Requests one after the other -/

/-- The entry that is written for a key. -/
def Key.entry (directory : String) (key : Key) (extraction : Extraction) : CacheEntry :=
  ⟨key.hash directory, extraction⟩

/-- After requests, the file of a label holds the entry that was kept last under the label. -/
structure HoldsLast (directory : String) (base : Place) (known : Set (List UInt8))
    (requests : List Request) (disk : Disk) : Prop where
  ready : IsReady directory base disk
  entries : ∀ label, bytes label ∈ known → disk.at? (base ++ [entryName label]) =
    (lastKept? label requests).map fun last =>
      .file (last.1.entry directory last.2).toJson.render.toUTF8

namespace HoldsLast

variable {directory : String} {base : Place} {known : Set (List UInt8)} {requests : List Request}
  {disk : Disk}

/-- Each file of an entry is there or can be made. -/
theorem isOpen (holds : HoldsLast directory base known requests disk) {label : String}
    (label_known : bytes label ∈ known) :
    disk.at? (base ++ [entryName label]) = none ∨
      ∃ bytes, disk.at? (base ++ [entryName label]) = some (.file bytes) := by
  rw [holds.entries label label_known]
  cases lastKept? label requests with
  | none => exact .inl rfl
  | some last => exact .inr ⟨_, rfl⟩

/-- A look finds what was kept last under its label, if that is marked with its digest, and changes
nothing. -/
theorem run_get? (holds : HoldsLast directory base known requests disk)
    (fit : ∀ key extraction, Request.keeping key extraction ∈ requests → extraction.Fits) {key : Key}
    (label_known : bytes key.label ∈ known) :
    ((key.cache directory).get? key.label key.source key.processCss).run disk =
      ((lastKept? key.label requests).bind fun last =>
        if last.1.hash directory = key.hash directory then some last.2 else none, disk) := by
  have there := holds.entries key.label label_known
  cases last : lastKept? key.label requests with
  | none =>
      rw [last, Option.map_none] at there
      exact holds.ready.run_get?_of_none there key.source key.processCss
  | some last_kept =>
      obtain ⟨kept, extraction⟩ := last_kept
      rw [last, Option.map_some] at there
      have fits := fit kept extraction (mem_of_lastKept? last).2
      exact holds.ready.run_get?_of_entry there fits key.source key.processCss

/-- One more request. -/
theorem perform (holds : HoldsLast directory base known requests disk)
    (told_apart : Set.InjOn Digest.sha256 known)
    (fit : ∀ key extraction, Request.keeping key extraction ∈ requests → extraction.Fits) (request : Request)
    (messages_known : ∀ message ∈ request.messages directory, message ∈ known) :
    HoldsLast directory base known (requests ++ [request])
      ((request.perform directory).run disk).2 := by
  cases request with
  | opening options =>
      have unchanged : (((Request.opening options).perform directory).run disk).2 = disk := by
        rw [Request.perform, StateT.run_bind, holds.ready.run_openAt]
        rfl
      rw [unchanged]
      refine ⟨holds.ready, fun label label_known => ?_⟩
      rw [lastKept?_concat, holds.entries label label_known]
      rfl
  | looking key =>
      have label_known : bytes key.label ∈ known := messages_known _ List.mem_cons_self
      have unchanged : (((Request.looking key).perform directory).run disk).2 = disk := by
        rw [Request.perform, StateT.run_bind, holds.run_get? fit label_known]
        rfl
      rw [unchanged]
      refine ⟨holds.ready, fun label label_known => ?_⟩
      rw [lastKept?_concat, holds.entries label label_known]
      rfl
  | keeping key extraction =>
      have label_known : bytes key.label ∈ known := messages_known _ List.mem_cons_self
      have open_place := holds.isOpen label_known
      have below : base ++ [entryName key.label] ≠ [] := by simp
      have written : (((Request.keeping key extraction).perform directory).run disk).2 =
          disk.put (base ++ [entryName key.label])
            (.file (key.entry directory extraction).toJson.render.toUTF8) :=
        holds.ready.run_set open_place
      rw [written]
      refine ⟨holds.ready.put below open_place _, fun label other_known => ?_⟩
      rw [lastKept?_concat, Request.kept?, at?_put below]
      by_cases same : key.label = label
      · -- the entry takes the place of what was kept before, by whatever cache
        rw [if_pos (by rw [same]), if_pos same, Option.some_or, Option.map_some]
      · have differ : ¬base ++ [entryName label] = base ++ [entryName key.label] := by
          intro equal
          have names : entryName label = entryName key.label := by simpa using equal
          have digests : Digest.sha256 (bytes label) = Digest.sha256 (bytes key.label) :=
            String.append_left_inj ".json" |>.mp names
          exact same (bytes_injective (told_apart label_known other_known digests.symm))
        rw [if_neg differ, if_neg same, Option.none_or, holds.entries label other_known]

/-- Any number of requests. -/
theorem performAll (holds : HoldsLast directory base known requests disk)
    (told_apart : Set.InjOn Digest.sha256 known) (more : List Request)
    (fit : ∀ key extraction, Request.keeping key extraction ∈ requests ++ more → extraction.Fits)
    (messages_known : ∀ request ∈ more, ∀ message ∈ request.messages directory, message ∈ known) :
    HoldsLast directory base known (requests ++ more) (Request.performAll directory more disk) := by
  induction more generalizing requests disk with
  | nil => rwa [List.append_nil]
  | cons request more ih =>
      have earlier_fit : ∀ key extraction, Request.keeping key extraction ∈ requests → extraction.Fits :=
        fun key extraction member => fit key extraction (List.mem_append_left _ member)
      have next := holds.perform told_apart earlier_fit request (messages_known request List.mem_cons_self)
      rw [List.append_cons] at fit ⊢
      exact ih next fit fun other member => messages_known other (List.mem_cons_of_mem _ member)

end HoldsLast

/-- Two keys of one label with the same digest are the same, if their messages are told apart. -/
theorem Key.eq_of_hash_eq {directory : String} {known : Set (List UInt8)}
    (told_apart : Set.InjOn Digest.sha256 known) {first second : Key}
    (first_known : ∀ message ∈ first.messages directory, message ∈ known)
    (second_known : ∀ message ∈ second.messages directory, message ∈ known)
    (labels : first.label = second.label) (hashes : first.hash directory = second.hash directory) :
    first = second := by
  have inputs_known : ∀ key : Key, (key.cache directory).inputs key.source key.processCss ∈
      key.messages directory := fun key => List.mem_cons_of_mem _ List.mem_cons_self
  have inputs_eq := told_apart (first_known _ (inputs_known first))
    (second_known _ (inputs_known second)) hashes
  obtain ⟨sources, flags, options⟩ := inputs_inj inputs_eq
  obtain ⟨_, _, _, _⟩ := first
  obtain ⟨_, _, _, _⟩ := second
  simp only [Key.cache] at sources flags options labels
  rw [sources, flags, options, labels]

/-- In a directory without entries, any number of caches open, keep and look. A look then finds an extraction
exactly if that was kept last under its label, and for the same source, flag and options. -/
theorem get?_performAll_eq_some_iff {directory : String} {base : Place} {disk : Disk}
    (ready : IsReady directory base disk)
    (fresh : ∀ label, disk.at? (base ++ [entryName label]) = none) {requests : List Request} {key : Key}
    (told_apart : Set.InjOn Digest.sha256
      { message | ∃ request ∈ requests ++ [.looking key], message ∈ request.messages directory })
    (fit : ∀ key extraction, Request.keeping key extraction ∈ requests → extraction.Fits)
    (extraction : Extraction) :
    (((key.cache directory).get? key.label key.source key.processCss).run
        (Request.performAll directory requests disk)).1 = some extraction ↔
      lastKept? key.label requests = some (key, extraction) := by
  generalize known_eq : { message | ∃ request ∈ requests ++ [.looking key],
    message ∈ Request.messages directory request } = known at told_apart
  have request_known : ∀ request ∈ requests ++ [.looking key],
      ∀ message ∈ request.messages directory, message ∈ known := by
    intro request member message digested
    rw [← known_eq]
    exact ⟨request, member, digested⟩
  have key_known : ∀ message ∈ key.messages directory, message ∈ known :=
    request_known (.looking key) (by simp)
  have start : HoldsLast directory base known [] disk := ⟨ready, fun label _ => fresh label⟩
  have holds := start.performAll told_apart requests fit fun request member =>
    request_known request (List.mem_append_left _ member)
  rw [holds.run_get? fit (key_known _ List.mem_cons_self), List.nil_append]
  dsimp only
  cases last : lastKept? key.label requests with
  | none => simp
  | some last_kept =>
      obtain ⟨kept, found⟩ := last_kept
      obtain ⟨labels, member⟩ := mem_of_lastKept? last
      have kept_known : ∀ message ∈ kept.messages directory, message ∈ known :=
        request_known (.keeping kept found) (List.mem_append_left _ member)
      have hashes : kept.hash directory = key.hash directory ↔ kept = key :=
        ⟨Key.eq_of_hash_eq told_apart kept_known key_known labels, fun same => by rw [same]⟩
      simp [hashes]

/-- A source file for a cache with the usual options. -/
def firstKey : Key := ⟨{}, "a.js", "f()", true⟩

/-- The same source file for another cache, when the text of the file ends like a message with a flag. -/
def secondKey : Key := ⟨{ reactiveMarker := "live" }, "a.js", "f()\x00\x01\x00", true⟩

/-- Two caches keep an extraction for one file. -/
def twoCaches : List Request :=
  [.opening {}, .keeping firstKey ⟨some "g()", [], 1⟩, .looking firstKey,
    .keeping secondKey ⟨none, [], 0⟩]

/-- A disk with an empty directory. -/
def emptyCacheDisk : Disk := ⟨"/app", [([".cache"], .directory)]⟩

/-- The messages that are digested for the two keys. -/
def twoKeyMessages : Digest.ToldApart where
  messages := [bytes "a.js", (firstKey.cache "/app/.cache").inputs "f()" true,
    (secondKey.cache "/app/.cache").inputs "f()\x00\x01\x00" true]
  distinct := by decide +kernel

/-- Where its directory is. -/
theorem emptyCacheDisk_holds :
    emptyCacheDisk.namesBelowRoot? "/app/.cache" = some [".cache"] ∧ emptyCacheDisk.isDirectory "/app/.cache" = true := by
  decide +kernel

theorem emptyCacheDisk_isReady : IsReady "/app/.cache" [".cache"] emptyCacheDisk where
  found := by
    have no_links : emptyCacheDisk.hasNoLinks = true := by decide
    obtain ⟨inside, directory⟩ := emptyCacheDisk_holds
    obtain ⟨place, found⟩ := isDirectory_iff.mp directory
    obtain rfl : place = [".cache"] :=
      (find_ok found).1.unique (leads_of_hasNoLinks no_links inside (by decide))
    exact found
  inside label := by
    have joined : Path.join "/app/.cache" (entryName label) = "/app/.cache" ++ "/" ++ entryName label := by
      have no_slash : ("/app/.cache".isEmpty || "/app/.cache".endsWith "/") = false := by decide +kernel
      rw [Path.join, isAbsolute_entryName, no_slash]
      rfl
    exact ⟨_, by rw [joined]; exact namesBelowRoot?_append emptyCacheDisk_holds.1 (entryName label)⟩

/-- The second cache finds what it kept last; what the first one kept for the same file is gone. -/
theorem second_cache_finds_its_extraction :
    (((secondKey.cache "/app/.cache").get? "a.js" "f()\x00\x01\x00" true).run
        (Request.performAll "/app/.cache" twoCaches emptyCacheDisk)).1 = some ⟨none, [], 0⟩ ∧
      (((firstKey.cache "/app/.cache").get? "a.js" "f()" true).run
        (Request.performAll "/app/.cache" twoCaches emptyCacheDisk)).1 ≠ some ⟨some "g()", [], 1⟩ := by
  have fresh : ∀ label, emptyCacheDisk.at? ([".cache"] ++ [entryName label]) = none := by
    simp [emptyCacheDisk, at?, List.lookup_cons]
  have fit : ∀ key extraction, Request.keeping key extraction ∈ twoCaches → extraction.Fits := by
    intro key extraction member
    obtain rfl | rfl : extraction = ⟨some "g()", [], 1⟩ ∨ extraction = ⟨none, [], 0⟩ := by
      simp only [twoCaches, List.mem_cons, Request.keeping.injEq, List.not_mem_nil, or_false,
        reduceCtorEq, false_or] at member
      exact member.imp And.right And.right
    · exact ⟨by simp, by decide⟩
    · exact ⟨by simp, by decide⟩
  have digested : ∀ key ∈ [firstKey, secondKey], ∀ request ∈ twoCaches ++ [.looking key],
      ∀ message ∈ request.messages "/app/.cache", message ∈ twoKeyMessages.messages := by decide +kernel
  have told_apart : ∀ key ∈ [firstKey, secondKey], Set.InjOn Digest.sha256
      { message | ∃ request ∈ twoCaches ++ [.looking key], message ∈ request.messages "/app/.cache" } := by
    intro key either
    refine twoKeyMessages.injOn.mono ?_
    rintro message ⟨request, member, inside⟩
    exact digested key either request member message inside
  have first_apart := told_apart firstKey (by simp)
  have second_apart := told_apart secondKey (by simp)
  constructor
  · exact (get?_performAll_eq_some_iff emptyCacheDisk_isReady fresh second_apart fit _).mpr rfl
  · intro found
    have last := (get?_performAll_eq_some_iff emptyCacheDisk_isReady fresh first_apart fit _).mp found
    have differ : lastKept? "a.js" twoCaches = some (secondKey, ⟨none, [], 0⟩) := rfl
    have same := last.symm.trans differ
    simp at same

end Cache

end Storyboard
