/-!
# Ordered fields

Named values in the order in which their names first appeared. Writing a name that is already present
replaces its value and keeps its place; removing a name closes the gap.
-/

namespace Storyboard

/-- Named values in order. Every operation below keeps the names distinct. -/
abbrev Fields (α : Type) := List (String × α)

namespace Fields

variable {α β : Type}

/-- The names in order. -/
def keys (fields : Fields α) : List String := fields.map Prod.fst

/-- The values in order. -/
def values (fields : Fields α) : List α := fields.map Prod.snd

/-- The value stored under a name. -/
def get? : Fields α → String → Option α
  | [], _ => none
  | (name, value) :: rest, key => if name == key then some value else get? rest key

/-- Store a value under a name, in place when the name is known and at the end otherwise. -/
def set : Fields α → String → α → Fields α
  | [], key, value => [(key, value)]
  | (name, old) :: rest, key, value =>
    if name == key then (name, value) :: rest else (name, old) :: set rest key value

/-- Remove a name, keeping the order of the others. -/
def erase : Fields α → String → Fields α
  | [], _ => []
  | (name, value) :: rest, key => if name == key then rest else (name, value) :: erase rest key

/-- Store entries one after the other. -/
def setAll (fields : Fields α) (entries : List (String × α)) : Fields α :=
  entries.foldl (fun acc entry => set acc entry.1 entry.2) fields

/-- The fields that a list of entries leaves behind when stored in order. -/
def ofEntries (entries : List (String × α)) : Fields α := setAll [] entries

/-- Apply a function to every value. -/
def mapValues (f : α → β) (fields : Fields α) : Fields β :=
  fields.map fun entry => (entry.1, f entry.2)

/-! ## Computation rules -/

theorem keys_nil : keys ([] : Fields α) = [] := rfl

theorem keys_cons (entry : String × α) (rest : Fields α) : keys (entry :: rest) = entry.1 :: keys rest := rfl

theorem get?_nil (key : String) : get? ([] : Fields α) key = none := rfl

theorem get?_cons (name : String) (value : α) (rest : Fields α) (key : String) :
    get? ((name, value) :: rest) key = if name == key then some value else get? rest key := rfl

theorem set_nil (key : String) (value : α) : set [] key value = [(key, value)] := rfl

theorem set_cons (name : String) (old : α) (rest : Fields α) (key : String) (value : α) :
    set ((name, old) :: rest) key value =
      if name == key then (name, value) :: rest else (name, old) :: set rest key value := rfl

theorem erase_nil (key : String) : erase ([] : Fields α) key = [] := rfl

theorem erase_cons (name : String) (value : α) (rest : Fields α) (key : String) :
    erase ((name, value) :: rest) key = if name == key then rest else (name, value) :: erase rest key := rfl

/-! ## What a lookup gives -/

/-- A stored value is found under its name. -/
theorem get?_set_self (fields : Fields α) (key : String) (value : α) :
    get? (set fields key value) key = some value := by
  induction fields with
  | nil => simp [set_nil, get?_cons]
  | cons entry rest ih =>
    obtain ⟨name, old⟩ := entry
    by_cases same : name = key
    · simp [set_cons, get?_cons, same]
    · simp [set_cons, get?_cons, same, ih]

/-- Storing a value changes no other name. -/
theorem get?_set_of_ne (fields : Fields α) {key other : String} (value : α) (differ : other ≠ key) :
    get? (set fields key value) other = get? fields other := by
  induction fields with
  | nil => simp [set_nil, get?_cons, get?_nil, differ.symm]
  | cons entry rest ih =>
    obtain ⟨name, old⟩ := entry
    by_cases same : name = key
    · subst same
      simp [set_cons, get?_cons, differ.symm]
    · by_cases found : name = other
      · subst found
        simp [set_cons, get?_cons, differ]
      · simp [set_cons, get?_cons, same, found, ih]

/-- After entries have been stored, a name has the value of its last entry, or its value from before. -/
theorem get?_setAll (fields : Fields α) (entries : List (String × α)) (name : String) :
    get? (setAll fields entries) name = (entries.reverse.lookup name).or (get? fields name) := by
  induction entries generalizing fields with
  | nil => rfl
  | cons entry entries ih =>
    obtain ⟨key, value⟩ := entry
    change get? (setAll (set fields key value) entries) name = _
    rw [ih, List.reverse_cons, List.lookup_append, List.lookup_cons]
    by_cases same : name = key
    · subst same
      rw [get?_set_self, beq_self_eq_true]
      cases entries.reverse.lookup name <;> rfl
    · rw [get?_set_of_ne _ _ same, beq_false_of_ne same, List.lookup_nil, Option.or_none]

theorem get?_setAll_eq_or (fields : Fields α) (entries : List (String × α)) (name : String) :
    get? (setAll fields entries) name = (get? (ofEntries entries) name).or (get? fields name) := by
  rw [ofEntries, get?_setAll, get?_setAll, get?_nil, Option.or_none]

/-- Of entries that are stored one after the other, the later ones count. -/
theorem get?_ofEntries_append (first last : List (String × α)) (name : String) :
    get? (ofEntries (first ++ last)) name =
      (get? (ofEntries last) name).or (get? (ofEntries first) name) := by
  rw [← get?_setAll_eq_or, ofEntries, ofEntries, setAll, setAll, setAll, List.foldl_append]

theorem get?_append (first last : Fields α) (name : String) :
    get? (first ++ last) name = (get? first name).or (get? last name) := by
  induction first with
  | nil => rfl
  | cons entry rest ih =>
    obtain ⟨key, value⟩ := entry
    by_cases same : key = name
    · simp [get?_cons, same]
    · simpa [get?_cons, same] using ih

/-- Storing a value adds its name at the end unless the name is known. -/
theorem keys_set (fields : Fields α) (key : String) (value : α) :
    keys (set fields key value) = if key ∈ keys fields then keys fields else keys fields ++ [key] := by
  induction fields with
  | nil => simp [set_nil, keys_nil, keys_cons]
  | cons entry rest ih =>
    obtain ⟨name, old⟩ := entry
    by_cases same : name = key
    · simp [set_cons, keys_cons, same]
    · have apart : ¬key = name := fun equal => same equal.symm
      simp only [keys_cons, set_cons, same, beq_iff_eq, if_false, List.mem_cons, apart, false_or] at ih ⊢
      rw [ih]
      split <;> rfl

/-- A value that is found stands under its name. -/
theorem mem_of_get? {fields : Fields α} {key : String} {value : α} (found : get? fields key = some value) :
    (key, value) ∈ fields := by
  induction fields with
  | nil => cases found
  | cons entry rest ih =>
    obtain ⟨name, old⟩ := entry
    by_cases same : name = key
    · simp_all [get?_cons]
    · exact List.mem_cons_of_mem _ (ih (by simpa [get?_cons, same] using found))

/-- Nothing is found under a name exactly if no entry has it. -/
theorem get?_eq_none_iff {fields : Fields α} {key : String} :
    get? fields key = none ↔ key ∉ keys fields := by
  induction fields with
  | nil => simp [get?_nil, keys_nil]
  | cons entry rest ih =>
    obtain ⟨name, old⟩ := entry
    by_cases same : name = key
    · simp [get?_cons, keys_cons, same]
    · have apart : ¬key = name := fun equal => same equal.symm
      simpa [get?_cons, keys_cons, same, apart] using ih

/-- Storing a value adds no other entry. -/
theorem mem_of_mem_set {fields : Fields α} {key : String} {value : α} {entry : String × α}
    (member : entry ∈ set fields key value) : entry = (key, value) ∨ entry ∈ fields := by
  induction fields with
  | nil => exact .inl (List.mem_singleton.mp member)
  | cons first rest ih =>
    obtain ⟨name, old⟩ := first
    by_cases same : name = key
    · rcases List.mem_cons.mp (by simpa [set_cons, same] using member) with equal | inside
      · exact .inl equal
      · exact .inr (List.mem_cons_of_mem _ inside)
    · rcases List.mem_cons.mp (by simpa [set_cons, same] using member) with equal | inside
      · exact .inr (by simp [equal])
      · exact (ih inside).imp id (List.mem_cons_of_mem _)

theorem nodup_keys_set {fields : Fields α} (distinct : (keys fields).Nodup) (key : String) (value : α) :
    (keys (set fields key value)).Nodup := by
  rw [keys_set]
  split
  · exact distinct
  · rename_i fresh
    rw [List.nodup_append]
    refine ⟨distinct, by simp, ?_⟩
    intro name member other last equal
    simp_all

theorem keys_erase_sublist (fields : Fields α) (key : String) :
    (keys (erase fields key)).Sublist (keys fields) := by
  induction fields with
  | nil => exact .refl _
  | cons entry rest ih =>
    obtain ⟨name, old⟩ := entry
    by_cases same : name = key
    · simp [erase_cons, keys_cons, same]
    · simpa [erase_cons, keys_cons, same] using ih

theorem mem_of_mem_erase {fields : Fields α} {key : String} {entry : String × α}
    (member : entry ∈ erase fields key) : entry ∈ fields := by
  induction fields with
  | nil => cases member
  | cons first rest ih =>
    obtain ⟨name, old⟩ := first
    by_cases same : name = key
    · exact List.mem_cons_of_mem _ (by simpa [erase_cons, same] using member)
    · rcases List.mem_cons.mp (by simpa [erase_cons, same] using member) with equal | inside
      · simp [equal]
      · exact List.mem_cons_of_mem _ (ih inside)

/-- A name that stood once is gone when it is removed. -/
theorem get?_erase_self {fields : Fields α} (distinct : (keys fields).Nodup) (key : String) :
    get? (erase fields key) key = none := by
  induction fields with
  | nil => rfl
  | cons entry rest ih =>
    obtain ⟨name, old⟩ := entry
    obtain ⟨fresh, distinct⟩ := List.nodup_cons.mp distinct
    by_cases same : name = key
    · simpa [erase_cons, same] using get?_eq_none_iff.mpr (same ▸ fresh)
    · simpa [erase_cons, get?_cons, same] using ih distinct

/-- Removing a name changes no other. -/
theorem get?_erase_of_ne (fields : Fields α) {key other : String} (differ : other ≠ key) :
    get? (erase fields key) other = get? fields other := by
  induction fields with
  | nil => rfl
  | cons entry rest ih =>
    obtain ⟨name, old⟩ := entry
    by_cases same : name = key
    · subst same
      simp [erase_cons, get?_cons, differ.symm]
    · simp [erase_cons, get?_cons, same, ih]

theorem nodup_keys_erase {fields : Fields α} (distinct : (keys fields).Nodup) (key : String) :
    (keys (erase fields key)).Nodup :=
  distinct.sublist (keys_erase_sublist fields key)

/-- Entries that are stored one after the other keep names distinct. -/
theorem nodup_keys_setAll {fields : Fields α} (distinct : (keys fields).Nodup)
    (entries : List (String × α)) : (keys (setAll fields entries)).Nodup := by
  induction entries generalizing fields with
  | nil => exact distinct
  | cons entry rest ih => exact ih (nodup_keys_set distinct entry.1 entry.2)

theorem mem_of_mem_setAll {fields : Fields α} {entries : List (String × α)} {entry : String × α}
    (member : entry ∈ setAll fields entries) : entry ∈ fields ∨ entry ∈ entries := by
  induction entries generalizing fields with
  | nil => exact .inl member
  | cons first rest ih =>
    rcases ih member with stored | later
    · rcases mem_of_mem_set stored with equal | old
      · exact .inr (by simp [equal])
      · exact .inl old
    · exact .inr (List.mem_cons_of_mem _ later)

/-- The fields of a list of entries have distinct names. -/
theorem nodup_keys_ofEntries (entries : List (String × α)) : (keys (ofEntries entries)).Nodup :=
  nodup_keys_setAll (by simp [keys_nil]) entries

theorem mem_of_mem_ofEntries {entries : List (String × α)} {entry : String × α}
    (member : entry ∈ ofEntries entries) : entry ∈ entries :=
  (mem_of_mem_setAll member).resolve_left (by simp)

/-- Entries whose names are distinct are found as they stand. -/
theorem get?_ofEntries_of_nodup {entries : List (String × α)} (distinct : (keys entries).Nodup)
    (name : String) : get? (ofEntries entries) name = get? entries name := by
  induction entries with
  | nil => rfl
  | cons entry rest ih =>
    obtain ⟨key, value⟩ := entry
    obtain ⟨fresh, distinct⟩ := List.nodup_cons.mp distinct
    rw [← List.singleton_append, get?_ofEntries_append, ih distinct, get?_append]
    change _ = (get? (ofEntries [(key, value)]) name).or _
    by_cases same : name = key
    · subst same
      rw [get?_eq_none_iff.mpr fresh, Option.none_or, Option.or_none]
    · rw [ofEntries, setAll, List.foldl_cons, List.foldl_nil, get?_set_of_ne _ _ same, get?_nil,
        Option.or_none, Option.none_or]

theorem get?_mapValues (f : α → β) (fields : Fields α) (name : String) :
    get? (mapValues f fields) name = (get? fields name).map f := by
  induction fields with
  | nil => rfl
  | cons entry rest ih =>
    obtain ⟨key, value⟩ := entry
    by_cases same : key = name
    · simp [mapValues, get?_cons, same]
    · simpa [mapValues, get?_cons, same] using ih

theorem keys_mapValues (f : α → β) (fields : Fields α) : keys (mapValues f fields) = keys fields := by
  simp [keys, mapValues]

/-! ## The order of names -/

/-- Storing an entry after others. -/
theorem ofEntries_concat (entries : List (String × α)) (entry : String × α) :
    ofEntries (entries ++ [entry]) = set (ofEntries entries) entry.1 entry.2 := by
  rw [ofEntries, setAll, List.foldl_append]
  rfl

/-- A name at the end of a list counts if it is new. -/
theorem eraseDups_concat (names : List String) (name : String) :
    (names ++ [name]).eraseDups =
      if name ∈ names then names.eraseDups else names.eraseDups ++ [name] := by
  rw [List.eraseDups_append]
  split <;> rename_i known <;> simp [List.removeAll, known, List.eraseDups_cons]

/-- The names of stored entries, in the order in which they were first given. -/
theorem keys_ofEntries (entries : List (String × α)) :
    keys (ofEntries entries) = (entries.map Prod.fst).eraseDups := by
  rw [← entries.reverse_reverse]
  generalize entries.reverse = latest
  induction latest with
  | nil => rfl
  | cons entry rest ih =>
    rw [List.reverse_cons, List.map_append, List.map_singleton, eraseDups_concat, ofEntries_concat, keys_set, ih]
    simp only [List.mem_eraseDups]

/-- Fields are determined by their names in order and by what is found under them. -/
theorem eq_of_get?_eq {first second : Fields α} (same_keys : keys first = keys second)
    (distinct : (keys first).Nodup) (same : ∀ name, get? first name = get? second name) : first = second := by
  induction first generalizing second with
  | nil => simpa [keys] using same_keys.symm
  | cons entry rest ih =>
    obtain ⟨name, value⟩ := entry
    cases second with
    | nil => simp [keys] at same_keys
    | cons other others =>
      obtain ⟨otherName, otherValue⟩ := other
      obtain ⟨rfl, keys_eq⟩ : name = otherName ∧ keys rest = keys others := List.cons.inj same_keys
      obtain ⟨fresh, distinct⟩ := List.nodup_cons.mp distinct
      have value_eq : value = otherValue := by simpa [get?_cons] using same name
      have rest_eq : rest = others := by
        refine ih keys_eq distinct fun key => ?_
        by_cases equal : name = key
        · subst equal
          rw [get?_eq_none_iff.mpr fresh, get?_eq_none_iff.mpr (keys_eq ▸ fresh)]
        · simpa [get?_cons, equal] using same key
      rw [value_eq, rest_eq]

theorem nodup_eraseDups (names : List String) : names.eraseDups.Nodup := by
  have distinct := nodup_keys_ofEntries (names.map fun name => (name, ()))
  rwa [keys_ofEntries, List.map_map, show Prod.fst ∘ (fun name => (name, ())) = id from rfl, List.map_id]
    at distinct

end Fields

end Storyboard
