import Mathlib.Data.List.Nodup
import Mathlib.Data.Set.Function
import Mathlib.Tactic.IntervalCases
import Storyboard.Proofs.CacheEntries
import Storyboard.Proofs.RunChanges

/-!
# Kept extractions

A cache reads and changes one file for a source file, in the directory that its path leads to. A directory of
kept extractions is sound if every entry in it holds what the extraction of its message gives. Looking for an
entry, keeping a new one and writing elsewhere leave it sound, as long as the digests of the messages that
were met are told apart.
-/

namespace Storyboard

open Disk

theorem fromUTF8?_toUTF8 (text : String) : String.fromUTF8? text.toUTF8 = some text := by
  have valid : text.toUTF8.IsValidUTF8 := text.isValidUTF8
  rw [String.fromUTF8?, dif_pos valid]
  rfl

/-! ## The files of entries -/

theorem Digest.slash_notMem_sha256 (message : List UInt8) : '/' ∉ (Digest.sha256 message).toList := by
  have digit : ∀ n, Nat.digitChar (n % 16) ≠ '/' := by
    intro n
    have small : n % 16 < 16 := Nat.mod_lt _ (by decide)
    interval_cases n % 16 <;> decide
  intro member
  simp only [sha256, String.toList_ofList, List.mem_flatMap, hexWord, List.mem_map] at member
  obtain ⟨word, -, i, -, slash⟩ := member
  exact digit _ slash

/-- Messages with distinct digests. -/
structure Digest.ToldApart where
  /-- The messages. -/
  messages : List (List UInt8)
  distinct : (messages.map Digest.sha256).Nodup

theorem Digest.ToldApart.injOn (told : ToldApart) : Set.InjOn sha256 { message | message ∈ told.messages } :=
  fun _ first_mem _ second_mem same => List.inj_on_of_nodup_map told.distinct first_mem second_mem same

namespace Cache

theorem slash_notMem_entryName (label : String) : '/' ∉ (entryName label).toList := by
  rw [entryName, String.toList_append, List.mem_append, not_or]
  exact ⟨Digest.slash_notMem_sha256 _, by decide⟩

theorem split_entryName (label : String) : Path.split (entryName label) = [entryName label] := by
  rw [Path.split, splitSlashes_of_notMem (slash_notMem_entryName label)]
  simp

theorem entryName_length (label : String) : 5 ≤ (entryName label).length := by
  rw [entryName, String.length_append]
  exact Nat.le_add_left _ _

theorem stays_entryName (label : String) : stays (entryName label) = false := by
  have long := entryName_length label
  rw [stays, Bool.or_eq_false_iff, beq_eq_false_iff_ne, beq_eq_false_iff_ne]
  constructor <;> intro same <;> rw [same] at long <;> exact absurd long (by decide)

theorem entryName_ne_up (label : String) : entryName label ≠ ".." := by
  intro same
  have long := entryName_length label
  rw [same] at long
  exact absurd long (by decide)

theorem isAbsolute_entryName (label : String) : Path.isAbsolute (entryName label) = false := by
  rw [← Bool.not_eq_true, Path.isAbsolute_iff]
  rintro ⟨rest, same⟩
  have clean := slash_notMem_entryName label
  rw [same] at clean
  simp at clean

variable {cache : Cache} {disk : Disk} {base : Place}

/-- The file of an entry is in the directory of the cache. -/
theorem exists_base_of_entryPath (clear : disk.IsClear cache.directory) {label : String}
    {names rest : List String} {place : Place} (inside : disk.namesBelowRoot? (cache.entryPath label) = some names)
    (passes : disk.Passes ([], names) (place, rest)) (idle : rest.all stays = true) :
    ∃ base, disk.Leads cache.directory base ∧ place = base ++ [entryName label] := by
  have some_name : entryName label ≠ "" := by
    intro same
    simpa [same, stays] using stays_entryName label
  have busy : ∀ left : List String, (left ++ [entryName label]).all stays = false := by
    simp [stays_entryName]
  obtain ⟨directory, inside_directory⟩ := clear.inside
  rcases Passes.of_join inside_directory (isAbsolute_entryName label) some_name inside passes with
    ⟨left, -, left_eq, -⟩ | ⟨base, leads, later⟩
  · rw [split_entryName] at left_eq
    simp [show rest = left ++ [entryName label] from left_eq, busy] at idle
  · refine ⟨base, leads, ?_⟩
    have free := clear.free base leads
    rw [split_entryName] at later
    rcases later.eq_or_head with same | ⟨next, step, last⟩
    · obtain ⟨-, rfl⟩ := Prod.mk.inj same
      simp [stays_entryName] at idle
    · have entered : disk.next? (base, [entryName label]) = some (base ++ [entryName label], []) := by
        simp [next?, free base List.prefix_rfl, stays_entryName, entryName_ne_up]
      obtain rfl := Option.some.inj (entered.symm.trans step)
      exact Passes.eq_of_stays (free _ (List.prefix_append _ _)) rfl last

end Cache

/-- The entry that a place holds. -/
def Disk.entryAt? (disk : Disk) (place : Place) : Option CacheEntry :=
  match disk.at? place with
  | some (.file bytes) => (String.fromUTF8? bytes).bind CacheEntry.parse?
  | _ => none

theorem Disk.readText_ok {disk : Disk} {path text : String} (read : disk.readText path = .ok text) :
    ∃ place bytes, disk.Leads path place ∧ disk.at? place = some (.file bytes) ∧
      String.fromUTF8? bytes = some text := by
  rw [readText] at read
  rcases is_found : disk.find path with fault | found
  · rw [is_found] at read
    cases read
  · obtain ⟨leads, holds⟩ := find_ok is_found
    rw [is_found] at read
    rcases found with ⟨place, bytes | _ | _⟩ | place
    · dsimp only at read
      split at read
      · rename_i text' decoded
        obtain rfl := Except.ok.inj read
        exact ⟨place, bytes, leads, holds, decoded⟩
      · cases read
    all_goals cases read

namespace Cache

variable {cache : Cache} {disk : Disk} {base : Place}

/-- Looking for an entry gives what the file of the entry holds; a file that holds none may be removed. -/
theorem run_stored? (clear : disk.IsClear cache.directory) (label : String) :
    (∃ entry base, (cache.stored? label).run disk = (some entry, disk) ∧ disk.Leads cache.directory base ∧
      disk.entryAt? (base ++ [entryName label]) = some entry) ∨
    ∃ after, (cache.stored? label).run disk = (none, after) ∧
      (after = disk ∨ ∃ base, disk.Leads cache.directory base ∧ after = disk.empty (base ++ [entryName label])) := by
  rw [stored?, StateT.run_bind, StateT.run_get, pure_bind]
  dsimp only
  rcases read : disk.readText (cache.entryPath label) with fault | text
  · exact .inr ⟨disk, StateT.run_pure _ _, .inl rfl⟩
  · dsimp only
    rcases parsed : CacheEntry.parse? text with _ | entry
    · dsimp only
      rw [StateT.run_bind, run_attempt]
      rcases on_removeFile (cache.entryPath label) disk with ⟨place, content, located, -, removed⟩ | ⟨fault, failed⟩
      · obtain ⟨⟨names, rest, inside, passes, idle⟩, -⟩ := locate_ok located
        obtain ⟨base, leads, place_eq⟩ := exists_base_of_entryPath clear inside passes idle
        rw [removed]
        exact .inr ⟨_, StateT.run_pure _ _, .inr ⟨base, leads, congrArg disk.empty place_eq⟩⟩
      · rw [failed]
        exact .inr ⟨_, StateT.run_pure _ _, .inl rfl⟩
    · obtain ⟨place, bytes, ⟨names, rest, inside, passes, idle, -⟩, holds, decoded⟩ := readText_ok read
      obtain ⟨base, leads, rfl⟩ := exists_base_of_entryPath clear inside passes idle
      exact .inl ⟨entry, base, StateT.run_pure _ _, leads, by simp [entryAt?, holds, decoded, parsed]⟩

/-- Keeping an extraction writes its entry to the file of the entry, or nothing. -/
theorem run_set (clear : disk.IsClear cache.directory) (label source : String) (css : Bool)
    (extraction : Extraction) :
    ((cache.set label source css extraction).run disk).2 = disk ∨
      ∃ base, disk.Leads cache.directory base ∧ ((cache.set label source css extraction).run disk).2 =
        disk.put (base ++ [entryName label])
          (.file (CacheEntry.toJson ⟨cache.hash source css, extraction⟩).render.toUTF8) := by
  rw [set, run_attempt]
  rcases on_writeText (cache.entryPath label) (CacheEntry.toJson ⟨cache.hash source css, extraction⟩).render disk with
    ⟨place, ⟨names, rest, inside, passes, idle, -⟩, -, written⟩ | ⟨fault, failed⟩
  · obtain ⟨base, leads, rfl⟩ := exists_base_of_entryPath clear inside passes idle
    exact .inr ⟨base, leads, by rw [written]⟩
  · exact .inl (by rw [failed])

/-- A kept extraction comes from an entry that is marked with the digest of its message. -/
theorem run_get? (clear : disk.IsClear cache.directory) (label source : String) (css : Bool) :
    (∃ entry base, (cache.get? label source css).run disk = (some entry.extraction, disk) ∧
      disk.Leads cache.directory base ∧ disk.entryAt? (base ++ [entryName label]) = some entry ∧
      entry.hash = cache.hash source css) ∨
    ∃ after, (cache.get? label source css).run disk = (none, after) ∧
      (after = disk ∨ ∃ base, disk.Leads cache.directory base ∧ after = disk.empty (base ++ [entryName label])) := by
  rw [get?, StateT.run_bind]
  rcases run_stored? clear label with ⟨entry, base, looked, leads, found⟩ | ⟨after, looked, changed⟩
  · rw [looked]
    by_cases valid : entry.hash = cache.hash source css
    · refine .inl ⟨entry, base, ?_, leads, found, valid⟩
      change ((if entry.hash == cache.hash source css then some entry.extraction else none), disk) = _
      rw [if_pos (beq_iff_eq.mpr valid)]
    · refine .inr ⟨disk, ?_, .inl rfl⟩
      change ((if entry.hash == cache.hash source css then some entry.extraction else none), disk) = _
      rw [if_neg (mt beq_iff_eq.mp valid)]
  · rw [looked]
    exact .inr ⟨after, StateT.run_pure _ _, changed⟩

end Cache

/-! ## Obtaining an extraction -/

namespace Project

theorem on_obtain_none (project : Project) (job : Job) (text : String) (disk : Disk) :
    (project.obtain none job text).on disk = ((project.extract job text).map fun found => (found, false), disk) := by
  rw [obtain]
  dsimp only
  rw [DiskAction.on_bind, DiskAction.on_pure]
  dsimp only
  rcases project.extract job text with failure | found
  · rfl
  · rfl

variable {cache : Cache} {disk : Disk}

/-- A job obtains the extraction of a valid entry, or it extracts its text and may keep what comes of it, after a
file that holds no entry may have been removed. -/
theorem on_obtain_some (clear : disk.IsClear cache.directory) (project : Project) (job : Job) (text : String) :
    (∃ entry base, (project.obtain (some cache) job text).on disk = (.ok (entry.extraction, true), disk) ∧
      disk.Leads cache.directory base ∧
      disk.entryAt? (base ++ [Cache.entryName (project.label job.path)]) = some entry ∧
      entry.hash = cache.hash text job.processCss) ∨
    ∃ mid after,
      (mid = disk ∨ ∃ base, disk.Leads cache.directory base ∧
        mid = disk.empty (base ++ [Cache.entryName (project.label job.path)])) ∧
      (project.obtain (some cache) job text).on disk =
        ((project.extract job text).map fun found => (found, false), after) ∧
      (after = mid ∨ ∃ base extraction, disk.Leads cache.directory base ∧
        project.extract job text = .ok extraction ∧
        after = mid.put (base ++ [Cache.entryName (project.label job.path)])
          (.file (CacheEntry.toJson ⟨cache.hash text job.processCss, extraction⟩).render.toUTF8)) := by
  rw [obtain]
  dsimp only
  rw [DiskAction.on_bind, DiskAction.on_lift]
  rcases Cache.run_get? clear (project.label job.path) text job.processCss with
    ⟨entry, base, looked, leads, found, marked⟩ | ⟨mid, looked, emptied⟩
  · rw [looked]
    exact .inl ⟨entry, base, rfl, leads, found, marked⟩
  · rw [looked]
    dsimp only
    refine .inr ⟨mid, ?_⟩
    rcases extracted : project.extract job text with failure | extraction
    · exact ⟨mid, emptied, rfl, .inl rfl⟩
    · dsimp only
      rw [DiskAction.on_bind, DiskAction.on_lift]
      refine ⟨_, emptied, rfl, ?_⟩
      have changes : Changes ∅ Set.univ disk mid := by
        rcases emptied with rfl | ⟨base, leads, rfl⟩
        · exact .refl
        · exact changes_empty (by simp) (clear.free base leads _ (List.prefix_append _ _)) trivial
      rcases Cache.run_set (changes.isClear_iff.mpr clear) (project.label job.path) text job.processCss extraction
        with same | ⟨base, leads, kept⟩
      · exact .inl same
      · exact .inr ⟨base, extraction, changes.leads_iff.mp leads, rfl, kept⟩

/-- Obtaining an extraction changes files in the directory of the cache at most. -/
theorem changes_obtain (clear : disk.IsClear cache.directory) (project : Project) (job : Job) (text : String) :
    Changes ∅ { place | ∃ base, disk.Leads cache.directory base ∧ base <+: place } disk
      ((project.obtain (some cache) job text).on disk).2 := by
  rcases on_obtain_some clear project job text with ⟨entry, base, obtained, -⟩ | ⟨mid, after, emptied, obtained, kept⟩
  · rw [obtained]
    exact .refl
  · rw [obtained]
    have changes : Changes ∅ { place | ∃ base, disk.Leads cache.directory base ∧ base <+: place } disk mid := by
      rcases emptied with rfl | ⟨base, leads, rfl⟩
      · exact .refl
      · exact changes_empty (by simp) (clear.free base leads _ (List.prefix_append _ _))
          ⟨base, leads, List.prefix_append _ _⟩
    rcases kept with rfl | ⟨base, extraction, leads, -, rfl⟩
    · exact changes
    · refine changes.trans (changes_put_file (by simp) ?_ _ ⟨base, leads, List.prefix_append _ _⟩)
      rw [changes.linkAt?_eq]
      exact clear.free base leads _ (List.prefix_append _ _)

end Project

namespace Cache

variable {cache : Cache} {disk : Disk} {base : Place}

/-! ## Soundness -/

/-- A directory of kept extractions holds no link, and each entry for a message among `known` holds what the
extraction of that message gives. -/
structure IsSound (known : Set (List UInt8)) (base : Place) (disk : Disk) : Prop where
  /-- There is no link in the directory. -/
  free : ∀ place, base <+: place → disk.linkAt? place = none
  /-- Entries hold what their messages give. -/
  faithful : ∀ (cache : Cache) (label source : String) (css : Bool) (entry : CacheEntry),
    bytes label ∈ known → cache.inputs source css ∈ known →
    disk.entryAt? (base ++ [entryName label]) = some entry → entry.hash = cache.hash source css →
    Extraction.run ⟨label, source⟩ cache.options css = .ok entry.extraction

namespace IsSound

variable {known : Set (List UInt8)} {after : Disk}

/-- No link is where a path leads that leads to the directory. -/
theorem isClear (sound : IsSound known base disk) {path : String} (leads : disk.Leads path base) :
    disk.IsClear path := by
  refine ⟨?_, fun other leads_other => ?_⟩
  · obtain ⟨names, -, inside, -⟩ := leads
    exact ⟨names, inside⟩
  · rw [leads_other.unique leads]
    exact sound.free

/-- A directory stays sound if no link and no entry is added. -/
theorem of_entries (sound : IsSound known base disk)
    (free : ∀ place, base <+: place → after.linkAt? place = none)
    (entries : ∀ place entry, base <+: place → after.entryAt? place = some entry →
      disk.entryAt? place = some entry) : IsSound known base after :=
  ⟨free, fun cache label source css entry label_known inputs_known found =>
    sound.faithful cache label source css entry label_known inputs_known
      (entries _ entry (List.prefix_append _ _) found)⟩

/-- A directory stays sound if nothing in it is written. -/
theorem of_changes (sound : IsSound known base disk) {made written : Set Place}
    (changes : Changes made written disk after) (apart : ∀ place ∈ written, ¬base <+: place) :
    IsSound known base after := by
  refine sound.of_entries (fun place below => ?_) fun place entry below found => ?_
  · rw [changes.linkAt?_eq, sound.free place below]
  · rcases changes.place_cases place with same | ⟨-, -, directory⟩ | ⟨member, -⟩
    · simpa only [entryAt?, same] using found
    · simp [entryAt?, directory] at found
    · exact absurd below (apart place member)

theorem empty (sound : IsSound known base disk) {place : Place} (below : place ≠ []) :
    IsSound known base (disk.empty place) := by
  refine sound.of_entries (fun other inside => ?_) fun other entry inside found => ?_
  · have free := sound.free other inside
    simp only [linkAt?, at?_empty below] at free ⊢
    split_ifs
    · rfl
    · exact free
  · simp only [entryAt?, at?_empty below] at found ⊢
    split_ifs at found
    exact found

/-- A directory stays sound when an extraction is kept in it. -/
theorem set (sound : IsSound known base disk) (told_apart : Set.InjOn Digest.sha256 known) {label source : String}
    {css : Bool} {extraction : Extraction} (label_known : bytes label ∈ known)
    (inputs_known : cache.inputs source css ∈ known)
    (extracted : Extraction.run ⟨label, source⟩ cache.options css = .ok extraction) :
    IsSound known base (disk.put (base ++ [entryName label])
      (.file (CacheEntry.toJson ⟨cache.hash source css, extraction⟩).render.toUTF8)) := by
  have below : base ++ [entryName label] ≠ [] := by simp
  constructor
  · intro place inside
    have free := sound.free place inside
    simp only [linkAt?, at?_put below] at free ⊢
    split_ifs
    · rfl
    · exact free
  · intro cache' label' source' css' entry label_known' inputs_known' found marked
    by_cases same : entryName label' = entryName label
    · -- the new entry: its digests determine the label and the message
      have labels : Digest.sha256 (bytes label') = Digest.sha256 (bytes label) :=
        String.append_left_inj ".json" |>.mp same
      obtain rfl : label' = label := bytes_injective (told_apart label_known' label_known labels)
      simp only [entryAt?, at?_put below, if_pos, fromUTF8?_toUTF8, Option.bind_some] at found
      obtain ⟨rfl, -⟩ := CacheEntry.parse?_render_eq_some_iff.mp found
      have messages := told_apart inputs_known inputs_known' marked
      obtain ⟨rfl, rfl, options⟩ := inputs_inj messages
      rw [← options]
      exact extracted
    · have differ : base ++ [entryName label'] ≠ base ++ [entryName label] := by simpa using same
      rw [entryAt?, at?_put_of_ne disk _ differ] at found
      exact sound.faithful cache' label' source' css' entry label_known' inputs_known' found marked

end IsSound

end Cache

end Storyboard
