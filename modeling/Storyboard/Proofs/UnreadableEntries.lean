import Storyboard.Proofs.LastKept

/-!
# Unreadable entries

Whatever bytes the file of an entry holds, a look for the entry either finds an entry there, and then changes
nothing, or finds nothing. A file whose bytes are a text but no entry is removed. A file whose bytes are no
text is never read as far as that: it stays, and every later look meets it again.
-/

namespace Storyboard

open Disk

namespace Cache

variable {cache : Cache} {disk : Disk} {base : Place}

/-- Where a file is that holds no entry, a look finds nothing. The file is gone afterwards exactly if it held a
text; otherwise nothing changes at all. -/
theorem IsReady.run_get?_of_unreadable (ready : IsReady cache.directory base disk) {label : String}
    {bytes : ByteArray} (there : disk.at? (base ++ [entryName label]) = some (.file bytes))
    (unreadable : disk.entryAt? (base ++ [entryName label]) = none) (source : String) (css : Bool) :
    (cache.get? label source css).run disk =
      (none, if bytes.IsValidUTF8 then disk.empty (base ++ [entryName label]) else disk) := by
  rw [entryAt?, there] at unreadable
  dsimp only at unreadable
  rw [get?, StateT.run_bind, ready.run_stored?_of_file there]
  by_cases valid : bytes.IsValidUTF8
  · rw [String.fromUTF8?, dif_pos valid, Option.bind_some] at unreadable
    rw [String.fromUTF8?, dif_pos valid, if_pos valid]
    dsimp only
    rw [unreadable]
    rfl
  · rw [String.fromUTF8?, dif_neg valid, if_neg valid]
    rfl

/-- A file of an entry that was removed is not found any more. -/
theorem IsReady.has_entryPath_empty (ready : IsReady cache.directory base disk) {label : String}
    {bytes : ByteArray} (there : disk.at? (base ++ [entryName label]) = some (.file bytes)) :
    (disk.empty (base ++ [entryName label])).has (cache.entryPath label) = false := by
  have below : base ++ [entryName label] ≠ [] := by simp
  have gone : (disk.empty (base ++ [entryName label])).at? (base ++ [entryName label]) = none := by
    rw [at?_empty below, if_pos rfl]
  rw [has, entryPath, (ready.empty below there).find_entryPath (by simp [linkAt?, gone]), gone]

/-- A file of an entry that is there is found. -/
theorem IsReady.has_entryPath (ready : IsReady cache.directory base disk) {label : String}
    {bytes : ByteArray} (there : disk.at? (base ++ [entryName label]) = some (.file bytes)) :
    disk.has (cache.entryPath label) = true := by
  rw [has, entryPath, ready.find_entryPath (by simp [linkAt?, there]), there]

/-- The file of an entry holds any bytes. If they are an entry, a look changes nothing and finds the extraction
exactly if the digest fits. If they are none, a look finds nothing and changes no other place; the file is gone
afterwards exactly if its bytes are a text, and unchanged if they are not. -/
theorem get?_removes_file_iff (ready : IsReady cache.directory base disk) {label : String} {bytes : ByteArray}
    (there : disk.at? (base ++ [entryName label]) = some (.file bytes)) (source : String) (css : Bool) :
    (∀ entry, disk.entryAt? (base ++ [entryName label]) = some entry →
      (cache.get? label source css).run disk =
        (if entry.hash = cache.hash source css then some entry.extraction else none, disk)) ∧
    (disk.entryAt? (base ++ [entryName label]) = none →
      ∃ after, (cache.get? label source css).run disk = (none, after) ∧
        (∀ other, other ≠ base ++ [entryName label] → after.at? other = disk.at? other) ∧
        (after.has (cache.entryPath label) = false ↔ bytes.IsValidUTF8) ∧
        (¬bytes.IsValidUTF8 → after = disk)) := by
  refine ⟨fun entry found => ready.run_get?_of_entryAt? found source css, fun unreadable => ?_⟩
  refine ⟨_, ready.run_get?_of_unreadable there unreadable source css, ?_⟩
  split_ifs with valid
  · refine ⟨fun other differ => ?_, iff_of_true (ready.has_entryPath_empty there) valid, absurd valid⟩
    rw [at?_empty (by simp), if_neg differ]
  · refine ⟨fun _ _ => rfl, iff_of_false ?_ valid, fun _ => rfl⟩
    rw [ready.has_entryPath there]
    simp

/-- A directory with one file, that of the entry for a source file. -/
def diskWithEntry (bytes : ByteArray) : Disk :=
  emptyCacheDisk.put ([".cache"] ++ [entryName "a.js"]) (.file bytes)

theorem diskWithEntry_isReady (bytes : ByteArray) :
    IsReady (firstKey.cache "/app/.cache").directory [".cache"] (diskWithEntry bytes) :=
  emptyCacheDisk_isReady.put (by simp) (.inl (by simp [emptyCacheDisk, at?, List.lookup_cons])) bytes

theorem at?_diskWithEntry (bytes : ByteArray) :
    (diskWithEntry bytes).at? ([".cache"] ++ [entryName "a.js"]) = some (.file bytes) :=
  at?_put_self _ _ (by simp)

/-- A text that is cut off is removed by the look that meets it. -/
theorem cut_off_entry_is_removed :
    ∃ after, ((firstKey.cache "/app/.cache").get? "a.js" "f()" true).run
        (diskWithEntry "\x7b\"hash\"".toUTF8) = (none, after) ∧
      after.has ((firstKey.cache "/app/.cache").entryPath "a.js") = false := by
  have unreadable :
      (diskWithEntry "\x7b\"hash\"".toUTF8).entryAt? ([".cache"] ++ [entryName "a.js"]) = none := by
    rw [entryAt?, at?_diskWithEntry]
    dsimp only
    rw [fromUTF8?_toUTF8, Option.bind_some]
    decide
  obtain ⟨after, looked, -, gone, -⟩ :=
    (get?_removes_file_iff (diskWithEntry_isReady _) (at?_diskWithEntry _) "f()" true).2 unreadable
  exact ⟨after, looked, gone.mpr "\x7b\"hash\"".isValidUTF8⟩

/-- A byte that no text has is no entry, and a look leaves it where it is. -/
theorem entry_without_text_stays :
    (diskWithEntry ⟨#[0xff]⟩).entryAt? ([".cache"] ++ [entryName "a.js"]) = none ∧
      ∃ after, ((firstKey.cache "/app/.cache").get? "a.js" "f()" true).run (diskWithEntry ⟨#[0xff]⟩) =
          (none, after) ∧
        after.has ((firstKey.cache "/app/.cache").entryPath "a.js") = true := by
  have no_text : ¬ByteArray.IsValidUTF8 ⟨#[0xff]⟩ := by decide
  have unreadable :
      (diskWithEntry ⟨#[0xff]⟩).entryAt? ([".cache"] ++ [entryName "a.js"]) = none := by
    rw [entryAt?, at?_diskWithEntry]
    dsimp only
    rw [String.fromUTF8?, dif_neg no_text]
    rfl
  refine ⟨unreadable, _,
    (diskWithEntry_isReady _).run_get?_of_unreadable (at?_diskWithEntry _) unreadable "f()" true, ?_⟩
  rw [if_neg no_text]
  exact (diskWithEntry_isReady _).has_entryPath (at?_diskWithEntry _)

end Cache

end Storyboard
