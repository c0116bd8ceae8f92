import Mathlib.Data.Set.Basic
import Mathlib.Logic.Relation
import Storyboard.Proofs.PathNames

/-!
# Ways of paths, and what actions change

The names of a path and the links of a disk alone tell which places the path passes, whether they hold
something or not: this is the way of the path. What a path leads to lies on its way. Writing a text changes
the place that the path leads to, and making directories only adds directories on the way, so neither adds
nor removes a link, and ways stay what they are.
-/

namespace Storyboard

/-! ## Actions -/

namespace DiskAction

variable {ε α β : Type}

@[simp] theorem on_pure (value : α) (disk : Disk) : (pure value : DiskAction ε α).on disk = (.ok value, disk) :=
  rfl

@[simp] theorem on_throw (fault : ε) (disk : Disk) :
    (throw fault : DiskAction ε α).on disk = (.error fault, disk) :=
  rfl

@[simp] theorem on_get (disk : Disk) : (get : DiskAction ε Disk).on disk = (.ok disk, disk) := rfl

@[simp] theorem on_set (new disk : Disk) : (set new : DiskAction ε PUnit).on disk = (.ok ⟨⟩, new) := rfl

theorem on_bind (action : DiskAction ε α) (next : α → DiskAction ε β) (disk : Disk) :
    (action >>= next).on disk =
      match action.on disk with
      | (.ok value, after) => (next value).on after
      | (.error fault, after) => (.error fault, after) := by
  rw [on, on, ExceptT.run_bind, StateT.run_bind]
  rcases action.run.run disk with ⟨_ | _, after⟩ <;> rfl

theorem on_tryCatch (action : DiskAction ε α) (handler : ε → DiskAction ε α) (disk : Disk) :
    (tryCatch action handler).on disk =
      match action.on disk with
      | (.ok value, after) => (.ok value, after)
      | (.error fault, after) => (handler fault).on after := by
  have opened : (tryCatch action handler).run =
      action.run >>= fun | .ok value => pure (.ok value) | .error fault => (handler fault).run := rfl
  rw [on, on, opened, StateT.run_bind]
  rcases action.run.run disk with ⟨_ | _, after⟩ <;> rfl

theorem on_mapM_cons (step : α → DiskAction ε β) (item : α) (items : List α) (disk : Disk) :
    ((item :: items).mapM step).on disk =
      match (step item).on disk with
      | (.ok value, mid) =>
        match (items.mapM step).on mid with
        | (.ok values, after) => (.ok (value :: values), after)
        | (.error fault, after) => (.error fault, after)
      | (.error fault, after) => (.error fault, after) := by
  rw [List.mapM_cons, on_bind]
  rcases (step item).on disk with ⟨_ | value, mid⟩
  · rfl
  · dsimp only
    rw [on_bind]
    rcases (items.mapM step).on mid with ⟨_ | values, after⟩
    · rfl
    · rfl

theorem on_lift (action : StateM Disk α) (disk : Disk) :
    (liftM action : DiskAction ε α).on disk = (.ok (action.run disk).1, (action.run disk).2) :=
  rfl

end DiskAction

namespace Disk

/-! ## Ways -/

/-- The target of the link at a place, if a link is there. -/
def linkAt? (disk : Disk) (place : Place) : Option String :=
  match disk.at? place with
  | some (.link target) => some target
  | _ => none

theorem linkAt?_eq_some {disk : Disk} {place : Place} {target : String} :
    disk.linkAt? place = some target ↔ disk.at? place = some (.link target) := by
  unfold linkAt?
  split <;> simp_all

theorem linkAt?_eq_none {disk : Disk} {place : Place} :
    disk.linkAt? place = none ↔ ∀ target, disk.at? place ≠ some (.link target) := by
  simp only [Option.eq_none_iff_forall_ne_some, ne_eq, linkAt?_eq_some]

theorem linkAt?_congr {disk other : Disk} {place : Place} (same : other.at? place = disk.at? place) :
    other.linkAt? place = disk.linkAt? place :=
  Option.ext fun target => by rw [linkAt?_eq_some, linkAt?_eq_some, same]

/-- A place, and the names that are still to be followed from it. -/
abbrev Stop := Place × List String

/-- One step along names, whether a place holds something or not: a link is gone through, other places are
left by the next name. -/
def next? (disk : Disk) : Stop → Option Stop
  | (here, names) =>
    match disk.linkAt? here with
    | some target => if Path.isAbsolute target then none else some (here.dropLast, Path.pieces target ++ names)
    | none =>
      match names with
      | [] => none
      | name :: rest =>
        if stays name then some (here, rest)
        else if name == ".." then if here.isEmpty then none else some (here.dropLast, rest)
        else some (here ++ [name], rest)

theorem next?_of_link {disk : Disk} {place : Place} {target : String} (link : disk.linkAt? place = some target)
    (names : List String) :
    disk.next? (place, names) =
      if Path.isAbsolute target then none else some (place.dropLast, Path.pieces target ++ names) := by
  delta next?
  simp only [link]

theorem next?_nil {disk : Disk} {place : Place} (free : disk.linkAt? place = none) : disk.next? (place, []) = none := by
  delta next?
  simp only [free]

theorem next?_cons {disk : Disk} {place : Place} (free : disk.linkAt? place = none) (name : String)
    (rest : List String) :
    disk.next? (place, name :: rest) =
      if stays name then some (place, rest)
      else if name == ".." then if place.isEmpty then none else some (place.dropLast, rest)
      else some (place ++ [name], rest) := by
  delta next?
  simp only [free]

theorem next?_congr {disk other : Disk} {place : Place} (same : other.linkAt? place = disk.linkAt? place)
    (names : List String) : other.next? (place, names) = disk.next? (place, names) := by
  delta next?
  simp only [same]

theorem next?_link {disk : Disk} {place : Place} {target : String} (link : disk.linkAt? place = some target)
    (relative : ¬Path.isAbsolute target = true) (names : List String) :
    disk.next? (place, names) = some (place.dropLast, Path.pieces target ++ names) := by
  rw [next?_of_link link, if_neg relative]

/-- Steps lead from one stop to another one. -/
def Passes (disk : Disk) : Stop → Stop → Prop := Relation.ReflTransGen fun stop after => disk.next? stop = some after

/-- The places that a path passes. -/
def way (disk : Disk) (path : String) : Set Place :=
  { place | ∃ names rest, disk.namesBelowRoot? path = some names ∧ disk.Passes ([], names) (place, rest) }

/-- A path leads to a place: it passes the place, which is not a link, and nothing is left that leads on. -/
def Leads (disk : Disk) (path : String) (place : Place) : Prop :=
  ∃ names rest, disk.namesBelowRoot? path = some names ∧ disk.Passes ([], names) (place, rest) ∧
    rest.all stays = true ∧ disk.linkAt? place = none

theorem Leads.mem_way {disk : Disk} {path : String} {place : Place} (leads : disk.Leads path place) :
    place ∈ disk.way path := by
  obtain ⟨names, rest, inside, passes, -⟩ := leads
  exact ⟨names, rest, inside, passes⟩

theorem Passes.head {disk : Disk} {start next stop : Stop} (step : disk.next? start = some next)
    (passes : disk.Passes next stop) : disk.Passes start stop :=
  Relation.ReflTransGen.head step passes

theorem Passes.eq_or_head {disk : Disk} {start stop : Stop} (passes : disk.Passes start stop) :
    stop = start ∨ ∃ next, disk.next? start = some next ∧ disk.Passes next stop := by
  rcases Relation.ReflTransGen.cases_head passes with rfl | ⟨next, step, later⟩
  · exact .inl rfl
  · exact .inr ⟨next, step, later⟩

/-- Nothing leads on from a place that is not a link by names that stay. -/
theorem Passes.eq_of_stays {disk : Disk} {place : Place} {names : List String} {stop : Stop}
    (free : disk.linkAt? place = none) (idle : names.all stays = true)
    (passes : disk.Passes (place, names) stop) : stop.1 = place := by
  induction names with
  | nil =>
      rcases passes.eq_or_head with rfl | ⟨next, step, -⟩
      · rfl
      · rw [next?_nil free] at step
        cases step
  | cons name rest ih =>
      rw [List.all_cons, Bool.and_eq_true] at idle
      rcases passes.eq_or_head with rfl | ⟨next, step, later⟩
      · rfl
      · rw [next?_cons free, if_pos idle.1] at step
        obtain rfl := Option.some.inj step
        exact ih idle.2 later

/-- A path leads to one place at most. -/
theorem Leads.unique {disk : Disk} {path : String} {place other : Place} (leads : disk.Leads path place)
    (leads_other : disk.Leads path other) : place = other := by
  obtain ⟨names, rest, inside, passes, idle, free⟩ := leads
  obtain ⟨names', rest', inside', passes', idle', free'⟩ := leads_other
  obtain rfl : names = names' := Option.some.inj (inside.symm.trans inside')
  have single : Relator.RightUnique fun stop after => disk.next? stop = some after :=
    fun _ _ _ first second => Option.some.inj (first.symm.trans second)
  rcases Relation.ReflTransGen.total_of_right_unique single passes passes' with later | later
  · exact (Passes.eq_of_stays free idle later).symm
  · exact Passes.eq_of_stays free' idle' later

/-- Ways depend on the links they pass only. -/
theorem passes_congr {disk other : Disk} {start stop : Stop}
    (same : ∀ stop, disk.Passes start stop → other.linkAt? stop.1 = disk.linkAt? stop.1) :
    other.Passes start stop ↔ disk.Passes start stop := by
  have step_eq : ∀ {stop}, disk.Passes start stop → other.next? stop = disk.next? stop :=
    fun {stop} passes => next?_congr (same stop passes) stop.2
  constructor
  · intro passes
    induction passes with
    | refl => exact .refl
    | tail _ step ih => exact ih.tail ((step_eq ih).symm.trans step)
  · intro passes
    induction passes with
    | refl => exact .refl
    | tail earlier step ih => exact ih.tail ((step_eq earlier).trans step)

theorem namesBelowRoot?_congr {disk other : Disk} (roots : other.root = disk.root) (path : String) :
    other.namesBelowRoot? path = disk.namesBelowRoot? path :=
  Option.ext fun names => by simp only [namesBelowRoot?_eq_some_iff, roots]

theorem way_congr {disk other : Disk} {path : String} (roots : other.root = disk.root)
    (same : ∀ place ∈ disk.way path, other.linkAt? place = disk.linkAt? place) :
    other.way path = disk.way path := by
  ext place
  simp only [way, Set.mem_ofPred_eq, namesBelowRoot?_congr roots]
  refine exists_congr fun names => exists_congr fun rest => and_congr_right fun inside => ?_
  exact passes_congr fun stop passes => same stop.1 ⟨names, stop.2, inside, passes⟩

theorem leads_congr {disk other : Disk} {path : String} {place : Place} (roots : other.root = disk.root)
    (same : ∀ place ∈ disk.way path, other.linkAt? place = disk.linkAt? place) :
    other.Leads path place ↔ disk.Leads path place := by
  simp only [Leads, namesBelowRoot?_congr roots]
  refine exists_congr fun names => exists_congr fun rest => and_congr_right fun inside => ?_
  have passes_iff : other.Passes ([], names) (place, rest) ↔ disk.Passes ([], names) (place, rest) :=
    passes_congr fun stop passes => same stop.1 ⟨names, stop.2, inside, passes⟩
  rw [passes_iff]
  exact and_congr_right fun passes => by rw [same place ⟨names, rest, inside, passes⟩]

@[simp] theorem at?_root (disk : Disk) : disk.at? [] = some .directory := rfl

@[simp] theorem linkAt?_root (disk : Disk) : disk.linkAt? [] = none := rfl

/-- Names that come later do not matter for the places before them. -/
theorem Passes.append {disk : Disk} {start stop : Stop} (passes : disk.Passes start stop) (more : List String) :
    disk.Passes (start.1, start.2 ++ more) (stop.1, stop.2 ++ more) := by
  have step_append : ∀ {stop after : Stop}, disk.next? stop = some after →
      disk.next? (stop.1, stop.2 ++ more) = some (after.1, after.2 ++ more) := by
    rintro ⟨here, names⟩ after step
    rcases link : disk.linkAt? here with _ | target
    · cases names with
      | nil =>
          rw [next?_nil link] at step
          cases step
      | cons name rest =>
          rw [List.cons_append, next?_cons link]
          rw [next?_cons link] at step
          split_ifs at step ⊢ <;> obtain rfl := Option.some.inj step <;> rfl
    · rw [next?_of_link link] at step ⊢
      split_ifs at step ⊢
      obtain rfl := Option.some.inj step
      simp
  induction passes with
  | refl => exact .refl
  | tail _ step ih => exact ih.tail (step_append step)

/-- The way of names that are followed by more either ends before these, or comes to a place by the first
names alone and goes on from there. -/
theorem Passes.split {disk : Disk} {here : Place} {names more : List String} {stop : Stop}
    (passes : disk.Passes (here, names ++ more) stop) :
    (∃ left, stop.2 = left ++ more ∧ disk.Passes (here, names) (stop.1, left)) ∨
      ∃ place, disk.Passes (here, names) (place, []) ∧ disk.linkAt? place = none ∧
        disk.Passes (place, more) stop := by
  induction passes with
  | refl => exact .inl ⟨names, rfl, .refl⟩
  | @tail mid stop _ step ih =>
      rcases ih with ⟨left, left_eq, earlier⟩ | ⟨place, earlier, free, later⟩
      · obtain ⟨place, rest⟩ := mid
        obtain rfl : rest = left ++ more := left_eq
        rcases link : disk.linkAt? place with _ | target
        · cases left with
          | nil => exact .inr ⟨place, earlier, link, .tail .refl step⟩
          | cons name left =>
              have step_left : ∃ after, disk.next? (place, name :: left) = some (after, left) ∧
                  stop = (after, left ++ more) := by
                rw [List.cons_append] at step
                rw [next?_cons link] at step ⊢
                split_ifs at step ⊢ <;> exact ⟨_, rfl, (Option.some.inj step).symm⟩
              obtain ⟨after, step_left, rfl⟩ := step_left
              exact .inl ⟨left, rfl, earlier.tail step_left⟩
        · rw [next?_of_link link] at step
          split_ifs at step with absolute
          obtain rfl := Option.some.inj step
          exact .inl ⟨Path.pieces target ++ left, by simp, earlier.tail (next?_link link absolute left)⟩
      · exact .inr ⟨place, earlier, free, later.tail step⟩

/-- The way of what is joined to a path either ends on the way of the path, or leads on from the place that the
path leads to. -/
theorem Passes.of_join {disk : Disk} {path rest : String} {names joined : List String} {stop : Stop}
    (inside : disk.namesBelowRoot? path = some names) (relative : Path.isAbsolute rest = false)
    (some_rest : rest ≠ "") (inside_joined : disk.namesBelowRoot? (Path.join path rest) = some joined)
    (passes : disk.Passes ([], joined) stop) :
    (∃ left idle, stop.2 = left ++ Path.split rest ∧ idle.all stays = true ∧
      disk.Passes ([], names) (stop.1, left ++ idle)) ∨
      ∃ base, disk.Leads path base ∧ disk.Passes (base, Path.split rest) stop := by
  obtain ⟨front, rfl, front_eq⟩ := namesBelowRoot?_join inside relative some_rest inside_joined
  obtain ⟨idle, all_idle, rfl⟩ : ∃ idle, idle.all stays = true ∧ names = front ++ idle := by
    rcases front_eq with rfl | rfl
    · exact ⟨[], rfl, by simp⟩
    · exact ⟨[""], rfl, rfl⟩
  rcases passes.split with ⟨left, left_eq, earlier⟩ | ⟨place, to_place, free, later⟩
  · exact .inl ⟨left, idle, left_eq, all_idle, earlier.append idle⟩
  · exact .inr ⟨place, ⟨front ++ idle, idle, inside, to_place.append idle, all_idle, free⟩, later⟩

/-- A path is on a disk, and no link is at or below the place that it leads to. -/
structure IsClear (disk : Disk) (path : String) : Prop where
  /-- The path is on the disk. -/
  inside : ∃ names, disk.namesBelowRoot? path = some names
  /-- There is no link at or below the place that it leads to. -/
  free : ∀ base, disk.Leads path base → ∀ place, base <+: place → disk.linkAt? place = none

/-- The way of the path above a path is part of its way. -/
theorem mem_way_of_mem_way_parent {disk : Disk} {path above : String} {place : Place}
    (is_above : Path.parent? path = some above) (passed : place ∈ disk.way above) (below : place ≠ []) :
    place ∈ disk.way path := by
  obtain ⟨names, rest, inside, passes⟩ := passed
  have not_idle : ¬names.all stays = true := fun idle => below (Passes.eq_of_stays rfl idle passes)
  rcases Path.parent?_cases is_above with ⟨rfl | rfl, -⟩ | ⟨more, -, rfl, -⟩
  · rcases namesBelowRoot?_eq_some_iff.mp inside with ⟨-, rfl⟩ | ⟨more, same, -⟩
    · exact absurd rfl not_idle
    · have lengths := congrArg String.length same
      simp only [String.length_append] at lengths
      have slash : "/".length = 1 := rfl
      have nothing : "".length = 0 := rfl
      omega
  · rcases namesBelowRoot?_eq_some_iff.mp inside with ⟨-, rfl⟩ | ⟨more, same, rfl⟩
    · exact absurd rfl not_idle
    · have lengths := congrArg String.length same
      simp only [String.length_append] at lengths
      have slash : "/".length = 1 := rfl
      obtain rfl : more = "" := String.length_eq_zero_iff.mp (by omega)
      exact absurd rfl not_idle
  · exact ⟨_, _, namesBelowRoot?_append inside more, passes.append (Path.split more)⟩

/-! ## Ways without links -/

/-- Whether a name leads on to a place of its own. -/
def isProper (name : String) : Bool := !stays name && name != ".."

/-- Where no links are, each proper name leads one place further. -/
theorem Passes.eq_append {disk : Disk} {here place : Place} {names rest : List String}
    (free : ∀ place, here <+: place → disk.linkAt? place = none) (proper : names.all isProper = true)
    (passes : disk.Passes (here, names) (place, rest)) :
    ∃ front, names = front ++ rest ∧ place = here ++ front := by
  induction names generalizing here with
  | nil =>
      rcases passes.eq_or_head with same | ⟨next, step, -⟩
      · obtain ⟨rfl, rfl⟩ := Prod.mk.inj same
        exact ⟨[], rfl, by simp⟩
      · rw [next?_nil (free here List.prefix_rfl)] at step
        cases step
  | cons name names ih =>
      rw [List.all_cons, Bool.and_eq_true, isProper, Bool.and_eq_true, Bool.not_eq_true', bne_iff_ne] at proper
      obtain ⟨⟨moves, not_up⟩, proper⟩ := proper
      rcases passes.eq_or_head with same | ⟨next, step, later⟩
      · obtain ⟨rfl, rfl⟩ := Prod.mk.inj same
        exact ⟨[], rfl, by simp⟩
      · obtain rfl : (here ++ [name], names) = next := by
          simpa [next?_cons (free here List.prefix_rfl), moves, not_up] using step
        obtain ⟨front, rfl, rfl⟩ :=
          ih (fun place below => free place ((List.prefix_append _ _).trans below)) proper later
        exact ⟨name :: front, rfl, by simp⟩

theorem passes_append {disk : Disk} (here : Place) {names : List String}
    (free : ∀ place, here <+: place → disk.linkAt? place = none) (proper : names.all isProper = true) :
    disk.Passes (here, names) (here ++ names, []) := by
  induction names generalizing here with
  | nil =>
      rw [List.append_nil]
      exact .refl
  | cons name names ih =>
      rw [List.all_cons, Bool.and_eq_true, isProper, Bool.and_eq_true, Bool.not_eq_true', bne_iff_ne] at proper
      obtain ⟨⟨moves, not_up⟩, proper⟩ := proper
      have step : disk.next? (here, name :: names) = some (here ++ [name], names) := by
        simp [next?_cons (free here List.prefix_rfl), moves, not_up]
      have later := ih (here ++ [name]) (fun place below => free place ((List.prefix_append _ _).trans below)) proper
      rw [List.append_assoc, List.singleton_append] at later
      exact later.head step

/-- Whether a disk has no links. -/
def hasNoLinks (disk : Disk) : Bool :=
  disk.entries.all fun entry =>
    match entry.2 with
    | .link _ => false
    | _ => true

theorem linkAt?_of_hasNoLinks {disk : Disk} (no_links : disk.hasNoLinks = true) (place : Place) :
    disk.linkAt? place = none := by
  rw [linkAt?_eq_none]
  intro target holds
  rw [at?] at holds
  split_ifs at holds with root
  · cases holds
  · obtain ⟨before, after, entries, -⟩ := List.lookup_eq_some_iff.mp holds
    have member : (place, Content.link target) ∈ disk.entries := by simp [entries]
    simpa using List.all_eq_true.mp no_links _ member

/-- On a disk without links, a path of proper names passes the places on the straight way. -/
theorem isPrefix_of_mem_way {disk : Disk} (no_links : disk.hasNoLinks = true) {path : String} {names : List String}
    (inside : disk.namesBelowRoot? path = some names) (proper : names.all isProper = true) {place : Place}
    (passed : place ∈ disk.way path) : place <+: names := by
  obtain ⟨names', rest, inside', passes⟩ := passed
  obtain rfl := Option.some.inj (inside.symm.trans inside')
  obtain ⟨front, rfl, rfl⟩ := passes.eq_append (fun place _ => linkAt?_of_hasNoLinks no_links place) proper
  exact List.prefix_append _ _

theorem leads_of_hasNoLinks {disk : Disk} (no_links : disk.hasNoLinks = true) {path : String} {names : List String}
    (inside : disk.namesBelowRoot? path = some names) (proper : names.all isProper = true) :
    disk.Leads path names :=
  ⟨names, [], inside, passes_append [] (fun place _ => linkAt?_of_hasNoLinks no_links place) proper, rfl,
    linkAt?_of_hasNoLinks no_links names⟩

/-! ## Following -/

theorem walk_nil (disk : Disk) (here : Place) :
    disk.walk here [] =
      match disk.at? here with
      | none => .ended (.ok (.absent here))
      | some (.link target) => .linked here target []
      | some content => .ended (.ok (.present here content)) := rfl

theorem walk_cons (disk : Disk) (here : Place) (name : String) (rest : List String) :
    disk.walk here (name :: rest) =
      match disk.at? here with
      | none => .ended (if (name :: rest).all stays then .ok (.absent here) else .error .notFound)
      | some (.link target) => .linked here target (name :: rest)
      | some (.file _) => .ended (.error .notDirectory)
      | some .directory =>
        if stays name then disk.walk here rest
        else if name == ".." then
          if here.isEmpty then .ended (.error .notFound) else disk.walk here.dropLast rest
        else disk.walk (here ++ [name]) rest := rfl

theorem follow_succ (disk : Disk) (throughLast : Bool) (links : Nat) (here : Place) (names : List String) :
    disk.follow throughLast (links + 1) here names =
      match disk.walk here names with
      | .ended result => result
      | .linked place target rest =>
        if !throughLast && rest.all stays then .ok (.present place (.link target))
        else if Path.isAbsolute target then .error .notFound
        else disk.follow throughLast links place.dropLast (Path.pieces target ++ rest) := rfl

/-- In a directory the next name is followed, unless it goes above the root. -/
theorem walk_directory {disk : Disk} {here : Place} (holds : disk.at? here = some .directory) (name : String)
    (rest : List String) :
    (∃ place, disk.next? (here, name :: rest) = some (place, rest) ∧
      disk.walk here (name :: rest) = disk.walk place rest) ∨
    disk.next? (here, name :: rest) = none ∧ disk.walk here (name :: rest) = .ended (.error .notFound) := by
  have free : disk.linkAt? here = none := linkAt?_eq_none.mpr (by simp [holds])
  rw [next?_cons free]
  simp only [walk_cons, holds]
  split_ifs
  · exact .inl ⟨here, rfl, rfl⟩
  · exact .inr ⟨rfl, rfl⟩
  · exact .inl ⟨here.dropLast, rfl, rfl⟩
  · exact .inl ⟨here ++ [name], rfl, rfl⟩

/-- Names that are followed without a link lead along the way to what is found. -/
theorem walk_ended {disk : Disk} {here : Place} {names : List String} {found : Found}
    (ended : disk.walk here names = .ended (.ok found)) :
    (∃ rest, disk.Passes (here, names) (found.place, rest) ∧ rest.all stays = true) ∧
      disk.at? found.place = found.content? ∧ disk.linkAt? found.place = none := by
  induction names generalizing here with
  | nil =>
      rw [walk_nil] at ended
      split at ended
      · rename_i empty
        obtain rfl : Found.absent here = found := by simpa using ended
        exact ⟨⟨[], .refl, rfl⟩, empty, by simp [linkAt?, Found.place, empty]⟩
      · cases ended
      · rename_i content no_link holds
        obtain rfl : Found.present here content = found := by simpa using ended
        exact ⟨⟨[], .refl, rfl⟩, holds, linkAt?_eq_none.mpr (by simpa [Found.place, holds] using no_link)⟩
  | cons name rest ih =>
      rcases holds : disk.at? here with _ | ⟨_ | _ | _⟩
      · simp only [walk_cons, holds] at ended
        split_ifs at ended with idle
        · obtain rfl : Found.absent here = found := by simpa using ended
          exact ⟨⟨_, .refl, idle⟩, holds, by simp [linkAt?, Found.place, holds]⟩
        · cases ended
      · simp [walk_cons, holds] at ended
      · rcases walk_directory holds name rest with ⟨place, step, walk_eq⟩ | ⟨-, stopped⟩
        · obtain ⟨⟨left, passes, idle⟩, there⟩ := ih (walk_eq ▸ ended)
          exact ⟨⟨left, passes.head step, idle⟩, there⟩
        · rw [stopped] at ended
          cases ended
      · simp [walk_cons, holds] at ended

theorem walk_linked {disk : Disk} {here place : Place} {names rest : List String} {target : String}
    (linked : disk.walk here names = .linked place target rest) :
    disk.Passes (here, names) (place, rest) ∧ disk.linkAt? place = some target := by
  induction names generalizing here with
  | nil =>
      rw [walk_nil] at linked
      split at linked
      · cases linked
      · rename_i holds
        obtain ⟨rfl, rfl, rfl⟩ := by simpa using linked
        exact ⟨.refl, linkAt?_eq_some.mpr holds⟩
      · cases linked
  | cons name names ih =>
      rcases holds : disk.at? here with _ | ⟨_ | _ | _⟩
      · simp [walk_cons, holds] at linked
      · simp [walk_cons, holds] at linked
      · rcases walk_directory holds name names with ⟨next, step, walk_eq⟩ | ⟨-, stopped⟩
        · obtain ⟨passes, there⟩ := ih (walk_eq ▸ linked)
          exact ⟨passes.head step, there⟩
        · rw [stopped] at linked
          cases linked
      · obtain ⟨rfl, rfl, rfl⟩ := by simpa [walk_cons, holds] using linked
        exact ⟨.refl, linkAt?_eq_some.mpr holds⟩

/-- What is found lies on the way, and nothing that leads on is left there. -/
theorem follow_ok {disk : Disk} {throughLast : Bool} {links : Nat} {here : Place} {names : List String}
    {found : Found} (followed : disk.follow throughLast links here names = .ok found) :
    (∃ rest, disk.Passes (here, names) (found.place, rest) ∧ rest.all stays = true) ∧
      disk.at? found.place = found.content? ∧ (throughLast = true → disk.linkAt? found.place = none) := by
  induction links generalizing here names with
  | zero => cases followed
  | succ links ih =>
      rw [follow_succ] at followed
      split at followed
      · rename_i result ended
        obtain rfl := followed
        obtain ⟨passes, holds, free⟩ := walk_ended ended
        exact ⟨passes, holds, fun _ => free⟩
      · rename_i place target rest linked
        obtain ⟨passes, link⟩ := walk_linked linked
        split_ifs at followed with stops absolute
        · obtain rfl : Found.present place (.link target) = found := by simpa using followed
          rw [Bool.and_eq_true, Bool.not_eq_true'] at stops
          exact ⟨⟨rest, passes, stops.2⟩, linkAt?_eq_some.mp link, fun through => by simp_all⟩
        · obtain ⟨⟨left, later, idle⟩, there⟩ := ih followed
          exact ⟨⟨left, passes.trans (later.head (next?_link link absolute rest)), idle⟩, there⟩

theorem locate_ok {disk : Disk} {throughLast : Bool} {path : String} {found : Found}
    (located : disk.locate throughLast path = .ok found) :
    (∃ names rest, disk.namesBelowRoot? path = some names ∧ disk.Passes ([], names) (found.place, rest) ∧
      rest.all stays = true) ∧ disk.at? found.place = found.content? := by
  rw [locate] at located
  split at located
  · rename_i names inside
    obtain ⟨⟨rest, passes, idle⟩, holds, -⟩ := follow_ok located
    exact ⟨⟨names, rest, inside, passes, idle⟩, holds⟩
  · cases located

/-- A path leads to what is found. -/
theorem find_ok {disk : Disk} {path : String} {found : Found} (is_found : disk.find path = .ok found) :
    disk.Leads path found.place ∧ disk.at? found.place = found.content? := by
  rw [find, locate] at is_found
  split at is_found
  · rename_i names inside
    obtain ⟨⟨rest, passes, idle⟩, holds, free⟩ := follow_ok is_found
    exact ⟨⟨names, rest, inside, passes, idle, free rfl⟩, holds⟩
  · cases is_found

/-- Where names are followed to something without a link, every place on their way but the last holds a directory
or a link. -/
theorem walk_way {disk : Disk} {here : Place} {names : List String} {stop : Stop}
    (passes : disk.Passes (here, names) stop) :
    (∃ held, disk.at? stop.1 = some held ∧ ∀ bytes, held ≠ .file bytes) ∨
      (∀ place content, disk.walk here names = .ended (.ok (.present place content)) → stop.1 = place) ∧
        ∀ place target rest, disk.walk here names = .linked place target rest →
          disk.Passes (place, rest) stop := by
  induction names generalizing here with
  | nil =>
      rcases holds : disk.at? here with _ | content
      · exact .inr (by simp [walk_nil, holds])
      · rcases passes.eq_or_head with rfl | ⟨next, step, -⟩
        · cases content with
          | file bytes => exact .inr (by simp [walk_nil, holds])
          | directory => exact .inl ⟨_, holds, by simp⟩
          | link target => exact .inl ⟨_, holds, by simp⟩
        · rcases link : disk.linkAt? here with _ | target
          · rw [next?_nil link] at step
            cases step
          · rw [linkAt?_eq_some] at link
            refine .inr ⟨by simp [walk_nil, link], fun place target rest linked => ?_⟩
            obtain ⟨rfl, rfl, rfl⟩ := by simpa [walk_nil, link] using linked
            exact passes
  | cons name rest ih =>
      rcases holds : disk.at? here with _ | ⟨_ | _ | _⟩
      · refine .inr ⟨fun place content => ?_, by simp [walk_cons, holds]⟩
        simp only [walk_cons, holds]
        split_ifs <;> simp
      · exact .inr (by simp [walk_cons, holds])
      · rcases passes.eq_or_head with rfl | ⟨next, step, later⟩
        · exact .inl ⟨_, holds, by simp⟩
        · rcases walk_directory holds name rest with ⟨place, step', walk_eq⟩ | ⟨-, stopped⟩
          · obtain rfl : next = (place, rest) := Option.some.inj (step.symm.trans step')
            rw [walk_eq]
            exact ih later
          · exact .inr (by simp [stopped])
      · refine .inr ⟨by simp [walk_cons, holds], fun place target rest linked => ?_⟩
        obtain ⟨rfl, rfl, rfl⟩ := by simpa [walk_cons, holds] using linked
        exact passes

/-- Every place on the way to something holds a directory or a link, or is its place. -/
theorem follow_way {disk : Disk} {links : Nat} {here place : Place} {names : List String}
    {content : Content} (followed : disk.follow true links here names = .ok (.present place content))
    {stop : Stop} (passes : disk.Passes (here, names) stop) :
    (∃ held, disk.at? stop.1 = some held ∧ ∀ bytes, held ≠ .file bytes) ∨ stop.1 = place := by
  induction links generalizing here names with
  | zero => cases followed
  | succ links ih =>
      rw [follow_succ] at followed
      rcases walk_way passes with holds | ⟨at_end, later⟩
      · exact .inl holds
      · split at followed
        · rename_i result ended
          exact .inr (at_end place content (followed ▸ ended))
        · rename_i link target rest linked
          have link_here := (walk_linked linked).2
          rw [Bool.not_true, Bool.false_and, if_neg Bool.false_ne_true] at followed
          split_ifs at followed with absolute
          rcases (later _ _ _ linked).eq_or_head with rfl | ⟨next, step, passes_next⟩
          · exact .inl ⟨_, linkAt?_eq_some.mp link_here, by simp⟩
          · rw [next?_link link_here absolute, Option.some.injEq] at step
            exact ih followed (step ▸ passes_next)

theorem find_way {disk : Disk} {path : String} {place other : Place} {content : Content}
    (is_found : disk.find path = .ok (.present place content)) (passed : other ∈ disk.way path) :
    (∃ held, disk.at? other = some held ∧ ∀ bytes, held ≠ .file bytes) ∨ other = place := by
  obtain ⟨names, rest, inside, passes⟩ := passed
  rw [find, locate, inside] at is_found
  exact follow_way is_found passes

theorem isDirectory_iff {disk : Disk} {path : String} :
    disk.isDirectory path = true ↔ ∃ place, disk.find path = .ok (.present place .directory) := by
  unfold isDirectory
  split <;> simp_all

theorem isFile_iff {disk : Disk} {path : String} :
    disk.isFile path = true ↔ ∃ place bytes, disk.find path = .ok (.present place (.file bytes)) := by
  unfold isFile
  split <;> simp_all

/-- Every place on the way to a directory holds a directory or a link. -/
theorem at?_of_isDirectory {disk : Disk} {path : String} {place : Place}
    (directory : disk.isDirectory path = true) (passed : place ∈ disk.way path) :
    ∃ held, disk.at? place = some held ∧ ∀ bytes, held ≠ .file bytes := by
  obtain ⟨there, is_found⟩ := isDirectory_iff.mp directory
  rcases find_way is_found passed with held | rfl
  · exact held
  · exact ⟨_, (find_ok is_found).2, by simp⟩

/-! ## What is found depends on the way only -/

theorem walk_congr {disk other : Disk} {here : Place} {names : List String}
    (same : ∀ stop, disk.Passes (here, names) stop → other.at? stop.1 = disk.at? stop.1) :
    other.walk here names = disk.walk here names := by
  induction names generalizing here with
  | nil => rw [walk_nil, walk_nil, same (here, []) .refl]
  | cons name rest ih =>
      have same_here := same (here, name :: rest) .refl
      rcases holds : disk.at? here with _ | ⟨_ | _ | _⟩
      · simp only [walk_cons, same_here, holds]
      · simp only [walk_cons, same_here, holds]
      · have steps := next?_congr (linkAt?_congr same_here) (name :: rest)
        rcases walk_directory holds name rest with ⟨place, step, walk_eq⟩ | ⟨no_step, stopped⟩
        · have later := ih fun stop passes => same stop (passes.head step)
          rcases walk_directory (same_here.trans holds) name rest with ⟨place', step', walk_eq'⟩ | ⟨no_step, -⟩
          · obtain rfl : place = place' := by simpa [steps, step] using step'
            rw [walk_eq, walk_eq', later]
          · simp [steps, step] at no_step
        · rcases walk_directory (same_here.trans holds) name rest with ⟨place', step', -⟩ | ⟨-, stopped'⟩
          · simp [steps, no_step] at step'
          · rw [stopped, stopped']
      · simp only [walk_cons, same_here, holds]

theorem follow_congr {disk other : Disk} {throughLast : Bool} {links : Nat} {here : Place} {names : List String}
    (same : ∀ stop, disk.Passes (here, names) stop → other.at? stop.1 = disk.at? stop.1) :
    other.follow throughLast links here names = disk.follow throughLast links here names := by
  induction links generalizing here names with
  | zero => rfl
  | succ links ih =>
      rw [follow_succ, follow_succ, walk_congr same]
      rcases walked : disk.walk here names with result | ⟨place, target, rest⟩
      · rfl
      · dsimp only
        obtain ⟨passes, link⟩ := walk_linked walked
        split_ifs with stops absolute
        · rfl
        · rfl
        · exact ih fun stop later => same stop (passes.trans (later.head (next?_link link absolute rest)))

/-- What a path leads to depends on the places that it passes only. -/
theorem find_congr {disk other : Disk} {path : String} (roots : other.root = disk.root)
    (same : ∀ place ∈ disk.way path, other.at? place = disk.at? place) : other.find path = disk.find path := by
  rw [find, find, locate, locate, namesBelowRoot?_congr roots]
  rcases inside : disk.namesBelowRoot? path with _ | names
  · rfl
  · exact follow_congr fun stop passes => same stop.1 ⟨names, stop.2, inside, passes⟩

theorem readText_congr {disk other : Disk} {path : String} (same : other.find path = disk.find path) :
    other.readText path = disk.readText path := by
  rw [readText, readText, same]

/-! ## Growing disks -/

/-- Directories and links stay what they are. -/
structure Extends (grown disk : Disk) : Prop where
  /-- The root is called the same. -/
  root_eq : grown.root = disk.root
  /-- What is not a file stays. -/
  keeps : ∀ {place : Place} {content : Content}, disk.at? place = some content →
    (∀ bytes, content ≠ .file bytes) → grown.at? place = some content

/-- What a place holds after it was found: the same as before, or a directory where nothing was. -/
def IsNow (found : Found) (content : Content) : Prop :=
  found.content? = some content ∨ found.content? = none ∧ content = .directory

theorem walk_stays {disk : Disk} {here : Place} (holds : disk.at? here = some .directory) {names : List String}
    (idle : names.all stays = true) : disk.walk here names = .ended (.ok (.present here .directory)) := by
  induction names with
  | nil => simp [walk_nil, holds]
  | cons name rest ih =>
      rw [List.all_cons, Bool.and_eq_true] at idle
      simp [walk_cons, holds, idle.1, ih idle.2]

theorem walk_of_extends {grown disk : Disk} (extended : grown.Extends disk) (here : Place) (names : List String) :
    (∀ place target rest, disk.walk here names = .linked place target rest →
      grown.walk here names = .linked place target rest) ∧
    ∀ found content, disk.walk here names = .ended (.ok found) → IsNow found content →
      grown.at? found.place = some content →
        grown.walk here names = .ended (.ok (.present found.place content)) := by
  induction names generalizing here with
  | nil =>
      rcases holds : disk.at? here with _ | content
      · refine ⟨by simp [walk_nil, holds], fun found content ended is_now now => ?_⟩
        obtain rfl : Found.absent here = found := by simpa [walk_nil, holds] using ended
        obtain ⟨-, rfl⟩ := is_now.resolve_left (by simp [Found.content?])
        exact walk_stays now rfl
      · cases content with
        | link target =>
            have kept := extended.keeps holds (by simp)
            simp [walk_nil, holds, kept]
        | file bytes =>
            refine ⟨by simp [walk_nil, holds], fun found content ended is_now now => ?_⟩
            obtain rfl : Found.present here (.file bytes) = found := by simpa [walk_nil, holds] using ended
            obtain rfl : Content.file bytes = content := by simpa [IsNow, Found.content?] using is_now
            have now : grown.at? here = some (.file bytes) := now
            simp [walk_nil, now, Found.place]
        | directory =>
            refine ⟨by simp [walk_nil, holds], fun found content ended is_now now => ?_⟩
            obtain rfl : Found.present here .directory = found := by simpa [walk_nil, holds] using ended
            obtain rfl : Content.directory = content := by simpa [IsNow, Found.content?] using is_now
            exact walk_stays now rfl
  | cons name rest ih =>
      rcases holds : disk.at? here with _ | ⟨_ | _ | _⟩
      · refine ⟨by simp [walk_cons, holds], fun found content ended is_now now => ?_⟩
        simp only [walk_cons, holds] at ended
        split_ifs at ended with idle
        · obtain rfl : Found.absent here = found := by simpa using ended
          obtain ⟨-, rfl⟩ := is_now.resolve_left (by simp [Found.content?])
          exact walk_stays now idle
        · cases ended
      · simp [walk_cons, holds]
      · have kept := extended.keeps holds (by simp)
        have steps : grown.next? (here, name :: rest) = disk.next? (here, name :: rest) := by
          simp [next?, linkAt?, holds, kept]
        rcases walk_directory holds name rest with ⟨place, step, walk_eq⟩ | ⟨-, stopped⟩
        · rcases walk_directory kept name rest with ⟨place', step', walk_eq'⟩ | ⟨no_step, -⟩
          · obtain rfl : place = place' := by simpa [steps, step] using step'
            rw [walk_eq, walk_eq']
            exact ih place
          · simp [steps, step] at no_step
        · simp [stopped]
      · have kept := extended.keeps holds (by simp)
        simp [walk_cons, holds, kept]

theorem follow_of_extends {grown disk : Disk} (extended : grown.Extends disk) {throughLast : Bool} {links : Nat}
    {here : Place} {names : List String} {found : Found} {content : Content}
    (followed : disk.follow throughLast links here names = .ok found) (is_now : IsNow found content)
    (now : grown.at? found.place = some content) (free : ∀ target, content ≠ .link target) :
    grown.follow true links here names = .ok (.present found.place content) := by
  induction links generalizing here names with
  | zero => cases followed
  | succ links ih =>
      obtain ⟨linked_grown, ended_grown⟩ := walk_of_extends extended here names
      rw [follow_succ] at followed ⊢
      split at followed
      · rename_i result ended
        rw [followed] at ended
        rw [ended_grown found content ended is_now now]
      · rename_i place target rest linked
        rw [linked_grown place target rest linked]
        split_ifs at followed with stops absolute
        · obtain rfl : Found.present place (.link target) = found := by simpa using followed
          obtain rfl : Content.link target = content := by simpa [IsNow, Found.content?] using is_now
          exact absurd rfl (free target)
        · simpa [absolute] using ih followed

/-- What a path leads to stays what the path leads to, and so does a directory that is made there. -/
theorem find_of_extends {grown disk : Disk} (extended : grown.Extends disk) {throughLast : Bool} {path : String}
    {found : Found} {content : Content} (located : disk.locate throughLast path = .ok found)
    (is_now : IsNow found content) (now : grown.at? found.place = some content)
    (free : ∀ target, content ≠ .link target) : grown.find path = .ok (.present found.place content) := by
  rw [find, locate, namesBelowRoot?_congr extended.root_eq]
  rw [locate] at located
  split at located
  · exact follow_of_extends extended located is_now now free
  · cases located

/-! ## What actions change -/

@[simp] theorem root_put (disk : Disk) (place : Place) (content : Content) : (disk.put place content).root = disk.root :=
  rfl

@[simp] theorem root_empty (disk : Disk) (place : Place) : (disk.empty place).root = disk.root := rfl

theorem ne_nil_of_at?_eq_none {disk : Disk} {place : Place} (empty : disk.at? place = none) : place ≠ [] := by
  rintro rfl
  simp at empty

theorem at?_put {disk : Disk} {place : Place} (below : place ≠ []) (content : Content) (other : Place) :
    (disk.put place content).at? other = if other = place then some content else disk.at? other := by
  split_ifs with same
  · rw [same, at?_put_self disk content below]
  · exact at?_put_of_ne disk content same

theorem at?_empty {disk : Disk} {place : Place} (below : place ≠ []) (other : Place) :
    (disk.empty place).at? other = if other = place then none else disk.at? other := by
  split_ifs with same
  · subst same
    simp only [at?, empty, List.isEmpty_iff, below, if_false, List.lookup_eq_none_iff, List.mem_filter]
    rintro ⟨name, content⟩ ⟨-, differ⟩
    have differ : name ≠ other := by simpa using differ
    simpa using differ.symm
  · by_cases root : other = []
    · simp [at?, root]
    · simp [at?, empty, root, lookup_filter_of_ne disk.entries same]

theorem on_writeText_eq (path text : String) (disk : Disk) :
    (writeText path text).on disk =
      match disk.find path with
      | .error fault => (.error fault, disk)
      | .ok (.present _ .directory) => (.error .isDirectory, disk)
      | .ok (.present place _) => (.ok (), disk.put place (.file text.toUTF8))
      | .ok (.absent place) =>
        if path.endsWith "/" then (.error .isDirectory, disk) else (.ok (), disk.put place (.file text.toUTF8)) := by
  have opened : (writeText path text).on disk = DiskAction.on (match disk.find path with
      | .error fault => throw fault
      | .ok (.present _ .directory) => throw .isDirectory
      | .ok (.present place _) => set (disk.put place (.file text.toUTF8))
      | .ok (.absent place) =>
        if path.endsWith "/" then throw .isDirectory else set (disk.put place (.file text.toUTF8))) disk := rfl
  rw [opened]
  rcases disk.find path with fault | ⟨place, _ | _ | _⟩ | place
  · rfl
  · rfl
  · rfl
  · rfl
  · dsimp only
    split_ifs
    · rfl
    · rfl

/-- A text is written to the place that the path leads to, which holds a file or nothing, or not at all. -/
theorem on_writeText (path text : String) (disk : Disk) :
    (∃ place, disk.Leads path place ∧ (disk.at? place = none ∨ ∃ bytes, disk.at? place = some (.file bytes)) ∧
      (writeText path text).on disk = (.ok (), disk.put place (.file text.toUTF8))) ∨
    ∃ fault, (writeText path text).on disk = (.error fault, disk) := by
  rw [on_writeText_eq]
  rcases is_found : disk.find path with fault | found
  · exact .inr ⟨fault, rfl⟩
  · obtain ⟨leads, holds⟩ := find_ok is_found
    rcases found with ⟨place, content⟩ | place
    · cases content with
      | directory => exact .inr ⟨_, rfl⟩
      | file bytes => exact .inl ⟨place, leads, .inr ⟨bytes, holds⟩, rfl⟩
      | link target =>
          obtain ⟨-, -, -, -, -, free⟩ := leads
          exact absurd holds (linkAt?_eq_none.mp free target)
    · dsimp only
      split_ifs
      · exact .inr ⟨_, rfl⟩
      · exact .inl ⟨place, leads, .inl holds, rfl⟩

theorem on_makeDirectory_eq (path : String) (disk : Disk) :
    (makeDirectory path).on disk =
      match disk.locate false path with
      | .error fault => (.error fault, disk)
      | .ok (.present _ _) => (.error .alreadyExists, disk)
      | .ok (.absent place) => (.ok (), disk.put place .directory) := by
  have opened : (makeDirectory path).on disk = DiskAction.on (match disk.locate false path with
      | .error fault => throw fault
      | .ok (.present _ _) => throw .alreadyExists
      | .ok (.absent place) => set (disk.put place .directory)) disk := rfl
  rw [opened]
  rcases disk.locate false path with fault | ⟨place, content⟩ | place
  · rfl
  · rfl
  · rfl

/-- A directory is made on the way of the path where nothing was, and the path then leads to it. -/
theorem on_makeDirectory (path : String) (disk : Disk) :
    (∃ place, place ∈ disk.way path ∧ disk.at? place = none ∧
      (disk.put place .directory).isDirectory path = true ∧
      (makeDirectory path).on disk = (.ok (), disk.put place .directory)) ∨
    ∃ fault, (makeDirectory path).on disk = (.error fault, disk) := by
  rw [on_makeDirectory_eq]
  rcases located : disk.locate false path with fault | ⟨place, content⟩ | place
  · exact .inr ⟨fault, rfl⟩
  · exact .inr ⟨_, rfl⟩
  · obtain ⟨⟨names, rest, inside, passes, -⟩, empty⟩ := locate_ok located
    have below := ne_nil_of_at?_eq_none empty
    have extended : (disk.put place .directory).Extends disk := by
      refine ⟨rfl, fun {other} content holds _ => ?_⟩
      have differ : other ≠ place := by
        rintro rfl
        rw [show disk.at? other = none from empty] at holds
        cases holds
      rw [at?_put_of_ne disk _ differ, holds]
    have now := find_of_extends extended located (.inr ⟨rfl, rfl⟩) (at?_put_self disk _ below) (by simp)
    exact .inl ⟨place, ⟨names, rest, inside, passes⟩, empty, isDirectory_iff.mpr ⟨place, now⟩, rfl⟩

/-- A file is removed at a place on the way of the path, or nothing changes. -/
theorem on_removeFile (path : String) (disk : Disk) :
    (∃ place content, disk.locate false path = .ok (.present place content) ∧ content ≠ .directory ∧
      (removeFile path).on disk = (.ok (), disk.empty place)) ∨
    ∃ fault, (removeFile path).on disk = (.error fault, disk) := by
  have opened : (removeFile path).on disk = DiskAction.on (match disk.locate false path with
      | .error fault => throw fault
      | .ok (.present _ .directory) => throw .isDirectory
      | .ok (.present place _) => set (disk.empty place)
      | .ok (.absent _) => throw .notFound) disk := rfl
  rw [opened]
  rcases disk.locate false path with fault | ⟨place, _ | _ | _⟩ | place
  · exact .inr ⟨fault, rfl⟩
  · exact .inl ⟨place, _, rfl, by simp, rfl⟩
  · exact .inr ⟨_, rfl⟩
  · exact .inl ⟨place, _, rfl, by simp, rfl⟩
  · exact .inr ⟨_, rfl⟩

/-- A path that leads to a file removes it. -/
theorem on_removeFile_of_file {path : String} {disk : Disk} {place : Place} {bytes : ByteArray}
    (located : disk.locate false path = .ok (.present place (.file bytes))) :
    (removeFile path).on disk = (.ok (), disk.empty place) := by
  rw [removeFile, DiskAction.on_bind, DiskAction.on_get]
  dsimp only
  rw [located]
  rfl

/-- Directories are made where nothing was among `made`; the places `written` may change, but hold no link
before and after; all else stays. -/
structure Changes (made written : Set Place) (before after : Disk) : Prop where
  /-- The root is called the same. -/
  root_eq : after.root = before.root
  /-- What may happen to a place. -/
  place_cases : ∀ place, after.at? place = before.at? place ∨
    (place ∈ made ∧ before.at? place = none ∧ after.at? place = some .directory) ∨
    (place ∈ written ∧ before.linkAt? place = none ∧ after.linkAt? place = none)

namespace Changes

variable {made written : Set Place} {before after later : Disk}

theorem refl : Changes made written before before := ⟨rfl, fun _ => .inl rfl⟩

/-- No link is made or removed. -/
theorem linkAt?_eq (changes : Changes made written before after) (place : Place) :
    after.linkAt? place = before.linkAt? place := by
  rcases changes.place_cases place with same | ⟨-, empty, directory⟩ | ⟨-, none_before, none_after⟩
  · exact linkAt?_congr same
  · simp [linkAt?, empty, directory]
  · rw [none_before, none_after]

theorem trans (first : Changes made written before after) (second : Changes made written after later) :
    Changes made written before later := by
  refine ⟨second.root_eq.trans first.root_eq, fun place => ?_⟩
  have links := first.linkAt?_eq place
  rcases second.place_cases place with same | ⟨member, empty, directory⟩ | ⟨member, none_before, none_after⟩
  · rcases first.place_cases place with same' | ⟨member, empty, directory⟩ | ⟨member, none_before, none_after⟩
    · exact .inl (same.trans same')
    · exact .inr (.inl ⟨member, empty, same.trans directory⟩)
    · exact .inr (.inr ⟨member, none_before, (linkAt?_congr same).trans none_after⟩)
  · rcases first.place_cases place with same' | ⟨-, -, directory'⟩ | ⟨member', none_before, -⟩
    · exact .inr (.inl ⟨member, same'.symm.trans empty, directory⟩)
    · rw [empty] at directory'
      cases directory'
    · exact .inr (.inr ⟨member', none_before, by simp [linkAt?, directory]⟩)
  · exact .inr (.inr ⟨member, links.symm.trans none_before, none_after⟩)

theorem mono {made' written' : Set Place} (changes : Changes made written before after)
    (more_made : ∀ place ∈ made, place ≠ [] → place ∈ made') (more_written : written ⊆ written') :
    Changes made' written' before after := by
  refine ⟨changes.root_eq, fun place => ?_⟩
  rcases changes.place_cases place with same | ⟨member, empty, directory⟩ | ⟨member, links⟩
  · exact .inl same
  · exact .inr (.inl ⟨more_made place member (ne_nil_of_at?_eq_none empty), empty, directory⟩)
  · exact .inr (.inr ⟨more_written member, links⟩)

theorem way_eq (changes : Changes made written before after) (path : String) : after.way path = before.way path :=
  way_congr changes.root_eq fun place _ => changes.linkAt?_eq place

theorem leads_iff (changes : Changes made written before after) {path : String} {place : Place} :
    after.Leads path place ↔ before.Leads path place :=
  leads_congr changes.root_eq fun place _ => changes.linkAt?_eq place

theorem isClear_iff (changes : Changes made written before after) {path : String} :
    after.IsClear path ↔ before.IsClear path := by
  constructor
  · rintro ⟨inside, free⟩
    refine ⟨by simpa only [namesBelowRoot?_congr changes.root_eq] using inside, fun base leads place below => ?_⟩
    rw [← changes.linkAt?_eq]
    exact free base (changes.leads_iff.mpr leads) place below
  · rintro ⟨inside, free⟩
    refine ⟨by simpa only [namesBelowRoot?_congr changes.root_eq] using inside, fun base leads place below => ?_⟩
    rw [changes.linkAt?_eq]
    exact free base (changes.leads_iff.mp leads) place below

end Changes

theorem changes_put_directory {disk : Disk} {place : Place} (empty : disk.at? place = none) {made : Set Place}
    (member : place ∈ made) : Changes made ∅ disk (disk.put place .directory) := by
  refine ⟨rfl, fun other => ?_⟩
  rw [at?_put (ne_nil_of_at?_eq_none empty)]
  split_ifs with same
  · subst same
    exact .inr (.inl ⟨member, empty, rfl⟩)
  · exact .inl rfl

theorem changes_put_file {disk : Disk} {place : Place} (below : place ≠ []) (free : disk.linkAt? place = none)
    (bytes : ByteArray) {made written : Set Place} (member : place ∈ written) :
    Changes made written disk (disk.put place (.file bytes)) := by
  refine ⟨rfl, fun other => ?_⟩
  by_cases same : other = place
  · subst same
    exact .inr (.inr ⟨member, free, by simp [linkAt?, at?_put_self disk _ below]⟩)
  · exact .inl (at?_put_of_ne disk _ same)

theorem changes_empty {disk : Disk} {place : Place} (below : place ≠ []) (free : disk.linkAt? place = none)
    {made written : Set Place} (member : place ∈ written) : Changes made written disk (disk.empty place) := by
  refine ⟨rfl, fun other => ?_⟩
  rw [at?_empty below]
  split_ifs with same
  · subst same
    exact .inr (.inr ⟨member, free, by simp [linkAt?, at?_empty below]⟩)
  · exact .inl rfl

theorem on_settle (path : String) (fault : FileFault) (disk : Disk) :
    (settle path fault).on disk = (if disk.isDirectory path then .ok () else .error fault, disk) := by
  rw [settle, DiskAction.on_bind, DiskAction.on_get]
  dsimp only
  split_ifs
  · exact DiskAction.on_pure _ disk
  · exact DiskAction.on_throw fault disk

/-- Making a directory that may be there adds a directory on the way at most, and the path leads to one if it
succeeds. -/
theorem on_makeDirectory_or_settle (path : String) (disk : Disk) :
    let action := tryCatch (makeDirectory path) fun fault => settle path fault
    Changes (disk.way path) ∅ disk (DiskAction.on action disk).2 ∧
      ((DiskAction.on action disk).1 = .ok () → (DiskAction.on action disk).2.isDirectory path = true) := by
  intro action
  rw [DiskAction.on_tryCatch]
  rcases on_makeDirectory path disk with ⟨place, passed, empty, there, made⟩ | ⟨fault, failed⟩
  · rw [made]
    exact ⟨changes_put_directory empty passed, fun _ => there⟩
  · simp only [failed, on_settle]
    exact ⟨.refl, fun ok => by simpa using ok⟩

/-- Making directories adds directories on the way only, and the path leads to one if it succeeds. -/
theorem on_makeDirectories (depth : Nat) (path : String) (disk : Disk) :
    Changes (disk.way path) ∅ disk ((makeDirectories depth path).on disk).2 ∧
      (((makeDirectories depth path).on disk).1 = .ok () →
        path = "" ∨ ((makeDirectories depth path).on disk).2.isDirectory path = true) := by
  induction depth generalizing path disk with
  | zero => exact ⟨.refl, fun ok => by cases ok⟩
  | succ depth ih =>
      rw [makeDirectories]
      split_ifs with nothing
      · exact ⟨.refl, fun _ => .inl (String.isEmpty_iff.mp nothing)⟩
      rw [DiskAction.on_tryCatch]
      rcases on_makeDirectory path disk with ⟨place, passed, empty, there, made⟩ | ⟨fault, failed⟩
      · rw [made]
        exact ⟨changes_put_directory empty passed, fun _ => .inr there⟩
      simp only [failed]
      split_ifs with missing
      · split
        · exact ⟨.refl, fun ok => by cases ok⟩
        · rename_i above is_above
          have changes : Changes (disk.way path) ∅ disk _ := (ih above disk).1.mono
            (fun place passed below => mem_way_of_mem_way_parent is_above passed below) (Set.Subset.refl _)
          rw [DiskAction.on_bind]
          rcases result : (makeDirectories depth above).on disk with ⟨_ | _, after⟩
          · rw [result] at changes
            exact ⟨changes, fun ok => by cases ok⟩
          · rw [result] at changes
            obtain ⟨last, there⟩ := on_makeDirectory_or_settle path after
            rw [changes.way_eq] at last
            exact ⟨changes.trans last, fun ok => .inr (there ok)⟩
      · simp only [on_settle]
        exact ⟨.refl, fun ok => .inr (by simpa using ok)⟩

end Disk

end Storyboard
