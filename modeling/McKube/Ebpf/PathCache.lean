import McKube.GoLib.Strings
import McKube.Trace.Machine
import Mathlib.Data.List.AList

/-!
# The cache of cgroup paths

The monitor keeps a map from inode numbers to paths.  It is filled by a walk over
the cgroup directories, and by another walk when the id of an event is not in it.
Entries are never removed.

* `lookup_refresh_of_mem`, `mem_of_lookup_refresh`: what a walk puts into the map.
* `CgroupHistory.cached_mem_directories`: every entry is a directory of the past.
* `CgroupHistory.resolved_path`: the path of an event, in every history in which
  ids are not reused.
-/

namespace McKube.Ebpf.Monitor

open GoLib

/-! ## The cache -/

/-- One call of the function given to `filepath.WalkDir`: its arguments, and the
inode number that `unix.Stat` finds at the path. -/
structure Visit where
  path : GoString
  failed : Bool
  isDir : Bool
  stat : Option UInt64

structure PathCache where
  root : GoString
  byIno : AList (fun _ : UInt64 => GoString)

namespace PathCache

/-- The function given to `filepath.WalkDir`.  It never stops the walk. -/
def visit (pc : PathCache) (v : Visit) : PathCache :=
  if v.failed || !v.isDir then pc
  else match v.stat with
    | some ino => { pc with byIno := pc.byIno.insert ino v.path }
    | none => pc

def refresh (pc : PathCache) (walk : List Visit) : PathCache := walk.foldl visit pc

def lookup (pc : PathCache) (cgid : UInt64) : Option GoString := pc.byIno.lookup cgid

end PathCache

/-- The walk has no error, as the function given to it returns none. -/
def buildPathCache (root : GoString) (walk : List Visit) : PathCache :=
  PathCache.refresh { root := root, byIno := ∅ } walk

/-- How the event loop finds the path of an id; `walk` is what a walk sees at this
moment. -/
def PathCache.resolve (pc : PathCache) (cgid : UInt64) (walk : List Visit) :
    PathCache × Option GoString :=
  match pc.lookup cgid with
  | some path => (pc, some path)
  | none => (pc.refresh walk, (pc.refresh walk).lookup cgid)

/-! ## Walks -/

/-- A directory: its inode number and its path. -/
abbrev Directory := UInt64 × GoString

/-- The directory that a call records. -/
def Visit.directory? (v : Visit) : Option Directory :=
  if v.failed || !v.isDir then none else v.stat.map fun ino => (ino, v.path)

def recorded (walk : List Visit) : List Directory := walk.filterMap Visit.directory?

@[simp] theorem recorded_concat (walk : List Visit) (v : Visit) :
    recorded (walk ++ [v]) = recorded walk ++ v.directory?.toList := by
  rw [recorded, List.filterMap_append]
  cases hdirectory : v.directory? with
  | none => simp [recorded, hdirectory]
  | some d => simp [recorded, hdirectory]

namespace PathCache

variable (pc : PathCache)

theorem visit_of_none {v : Visit} (h : v.directory? = none) : pc.visit v = pc := by
  unfold Visit.directory? at h
  unfold visit
  split at h
  · next hskip => rw [if_pos hskip]
  · next hdir =>
      rw [if_neg hdir, Option.map_eq_none_iff.mp h]

theorem visit_of_some {v : Visit} {d : Directory} (h : v.directory? = some d) :
    pc.visit v = { pc with byIno := pc.byIno.insert d.1 d.2 } := by
  unfold Visit.directory? at h
  unfold visit
  split at h
  · cases h
  · next hdir =>
      obtain ⟨ino, hstat, rfl⟩ := Option.map_eq_some_iff.mp h
      rw [if_neg hdir, hstat]

@[simp] theorem refresh_concat (walk : List Visit) (v : Visit) :
    pc.refresh (walk ++ [v]) = (pc.refresh walk).visit v := by
  rw [refresh, List.foldl_append]
  rfl

theorem lookup_insert (ino cgid : UInt64) (path : GoString) :
    ({ pc with byIno := pc.byIno.insert ino path } : PathCache).lookup cgid =
      if cgid = ino then some path else pc.lookup cgid := by
  split
  · next heq =>
      subst heq
      exact AList.lookup_insert pc.byIno
  · next hne => exact AList.lookup_insert_ne hne

/-- The last record of an id counts, and before it what was in the cache. -/
theorem lookup_refresh (walk : List Visit) (cgid : UInt64) :
    (pc.refresh walk).lookup cgid =
      (((recorded walk).filter fun d => d.1 = cgid).getLast?.map Prod.snd).or
        (pc.lookup cgid) := by
  induction walk using List.reverseRecOn with
  | nil => rfl
  | append_singleton walk v ih =>
      rw [refresh_concat, recorded_concat]
      cases hdirectory : v.directory? with
      | none =>
          rw [visit_of_none _ hdirectory, ih]
          simp
      | some d =>
          rw [visit_of_some _ hdirectory, lookup_insert, ih]
          by_cases hid : cgid = d.1
          · simp [hid]
          · simp [hid, Ne.symm hid]

theorem mem_of_lookup_refresh {walk : List Visit} {cgid : UInt64} {path : GoString}
    (h : (pc.refresh walk).lookup cgid = some path) :
    (cgid, path) ∈ recorded walk ∨ pc.lookup cgid = some path := by
  rw [lookup_refresh, Option.or_eq_some_iff] at h
  rcases h with hlast | ⟨-, hold⟩
  · obtain ⟨d, hd, rfl⟩ := Option.map_eq_some_iff.mp hlast
    obtain ⟨hmem, hid⟩ := List.mem_filter.mp (List.mem_of_getLast? hd)
    rw [decide_eq_true_eq] at hid
    subst hid
    exact Or.inl hmem
  · exact Or.inr hold

theorem lookup_refresh_isSome {walk : List Visit} {cgid : UInt64} {path : GoString}
    (h : (cgid, path) ∈ recorded walk) : ((pc.refresh walk).lookup cgid).isSome = true := by
  have hmem : (cgid, path) ∈ (recorded walk).filter fun d => d.1 = cgid :=
    List.mem_filter.mpr ⟨h, by simp⟩
  have hlast : ((recorded walk).filter fun d => d.1 = cgid).getLast?.isSome = true :=
    List.getLast?_isSome.mpr (List.ne_nil_of_mem hmem)
  rw [lookup_refresh, Option.isSome_or, Option.isSome_map, hlast, Bool.true_or]

/-- What `resolve` finds has been in the cache, or is seen by the walk. -/
theorem mem_of_lookup_resolve {cgid cgid' : UInt64} {walk : List Visit} {path : GoString}
    (hfound : ((pc.resolve cgid walk).1).lookup cgid' = some path) :
    (cgid', path) ∈ recorded walk ∨ pc.lookup cgid' = some path := by
  unfold resolve at hfound
  split at hfound
  · exact Or.inr hfound
  · exact pc.mem_of_lookup_refresh hfound

theorem resolve_snd (cgid : UInt64) (walk : List Visit) :
    (pc.resolve cgid walk).2 = ((pc.resolve cgid walk).1).lookup cgid := by
  unfold resolve
  split
  · next path hlookup => exact hlookup.symm
  · rfl

end PathCache

/-! ## Histories of cgroups -/

/-- A cgroup directory is made or removed, or an event is handled; with the event
stands what a walk would see at that moment. -/
inductive Action
  | mkdir (d : Directory)
  | rmdir (ino : UInt64)
  | event (cgid : UInt64) (walk : List Visit)

/-- The directories that exist after one more action. -/
def existingNext (dirs : List Directory) : Action → List Directory
  | .mkdir d => dirs ++ [d]
  | .rmdir ino => dirs.filter fun d => d.1 ≠ ino
  | .event _ _ => dirs

def existing (initial : List Directory) (actions : List Action) : List Directory :=
  actions.foldl existingNext initial

/-- The directories that a list of actions makes. -/
def made (actions : List Action) : List Directory :=
  actions.filterMap fun action => match action with
    | .mkdir d => some d
    | _ => none

/-- The walk visits the given directories and no other. -/
def Sees (walk : List Visit) (dirs : List Directory) : Prop :=
  (∀ d ∈ recorded walk, d ∈ dirs) ∧ ∀ d ∈ dirs, d ∈ recorded walk

/-- The walk at each event sees the directories that exist when it runs. -/
def WalksSee (dirs : List Directory) : List Action → Prop
  | [] => True
  | .event _ walk :: actions => Sees walk dirs ∧ WalksSee dirs actions
  | action :: actions => WalksSee (existingNext dirs action) actions

/-- A history of cgroup directories: those that exist at first, what the walk of
`buildPathCache` has seen of them, and the actions after it.  An id is never used
for a second directory. -/
structure CgroupHistory where
  root : GoString
  initial : List Directory
  walk : List Visit
  actions : List Action
  walk_sound : ∀ d ∈ recorded walk, d ∈ initial
  walks_see : WalksSee initial actions
  ids_nodup : ((initial ++ made actions).map Prod.fst).Nodup

/-- The cache over the actions; the output is the path found for an event. -/
def pathResolver (pc : PathCache) : Trace.Machine PathCache Action (Option GoString) where
  init := pc
  step pc
    | .mkdir _ => (pc, none)
    | .rmdir _ => (pc, none)
    | .event cgid walk => pc.resolve cgid walk

theorem made_append (actions more : List Action) :
    made (actions ++ more) = made actions ++ made more :=
  List.filterMap_append

theorem existing_subset (initial : List Directory) (actions : List Action) :
    existing initial actions ⊆ initial ++ made actions := by
  induction actions using List.reverseRecOn with
  | nil => simp [existing, made]
  | append_singleton actions action ih =>
      rw [existing, List.foldl_append, made_append, ← List.append_assoc]
      show existingNext (existing initial actions) action ⊆ _
      cases action with
      | mkdir d =>
          apply List.append_subset.mpr
          exact ⟨List.Subset.trans ih (List.subset_append_left _ _), List.subset_append_right _ _⟩
      | rmdir ino =>
          have hfilter : (existing initial actions).filter (fun d => d.1 ≠ ino) ⊆
              existing initial actions := List.filter_subset_self _
          exact List.Subset.trans hfilter (List.Subset.trans ih (List.subset_append_left _ _))
      | event cgid walk => exact List.Subset.trans ih (List.subset_append_left _ _)

theorem sees_of_walksSee {dirs : List Directory} {p q : List Action} {cgid : UInt64}
    {walk : List Visit} (h : WalksSee dirs (p ++ .event cgid walk :: q)) :
    Sees walk (existing dirs p) := by
  induction p generalizing dirs with
  | nil => exact h.1
  | cons action p ih =>
      cases action with
      | mkdir d => exact ih h
      | rmdir ino => exact ih h
      | event cgid' walk' => exact ih h.2

namespace CgroupHistory

variable (h : CgroupHistory)

/-- All directories that there have ever been. -/
def directories : List Directory := h.initial ++ made h.actions

def resolver : Trace.Machine PathCache Action (Option GoString) :=
  pathResolver (buildPathCache h.root h.walk)

theorem path_unique {cgid : UInt64} {path path' : GoString} (hpath : (cgid, path) ∈ h.directories)
    (hpath' : (cgid, path') ∈ h.directories) : path = path' := by
  have heq := List.inj_on_of_nodup_map h.ids_nodup hpath hpath' rfl
  exact congrArg Prod.snd heq

theorem past_subset {p q : List Action} (hsplit : h.actions = p ++ q) :
    h.initial ++ made p ⊆ h.directories := by
  rw [directories, hsplit, made_append, ← List.append_assoc]
  exact List.subset_append_left _ _

/-- Entries stay in the cache after their directory is removed, but every entry
is a directory of the past. -/
theorem cached_mem_directories {p q : List Action} (hsplit : h.actions = p ++ q) {cgid : UInt64}
    {path : GoString} (hcached : (h.resolver.stateAfter p).lookup cgid = some path) :
    (cgid, path) ∈ h.initial ++ made p := by
  induction p using List.reverseRecOn generalizing q cgid path with
  | nil =>
      rcases PathCache.mem_of_lookup_refresh _ hcached with hseen | hempty
      · exact List.mem_append_left _ (h.walk_sound _ hseen)
      · cases hempty
  | append_singleton p action ih =>
      rw [List.append_assoc, List.singleton_append] at hsplit
      have hpast : ∀ {cgid : UInt64} {path : GoString},
          (h.resolver.stateAfter p).lookup cgid = some path →
            (cgid, path) ∈ h.initial ++ made (p ++ [action]) := by
        intro cgid path hbefore
        rw [made_append, ← List.append_assoc]
        exact List.mem_append_left _ (ih hsplit hbefore)
      rw [Trace.Machine.stateAfter_concat] at hcached
      cases action with
      | mkdir d => exact hpast hcached
      | rmdir ino => exact hpast hcached
      | event cgid' walk =>
          rcases PathCache.mem_of_lookup_resolve _ hcached with hseen | hbefore
          · have hsees : Sees walk (existing h.initial p) :=
              sees_of_walksSee (hsplit ▸ h.walks_see)
            rw [made_append, ← List.append_assoc]
            exact List.mem_append_left _ (existing_subset _ _ (hsees.1 _ hseen))
          · exact hpast hbefore

/-- An event of a directory that exists gets its path, and whatever path an event
gets is the one path that its id ever had. -/
theorem resolved_path {p q : List Action} {cgid : UInt64} {walk : List Visit}
    (hsplit : h.actions = p ++ .event cgid walk :: q) :
    (∀ path, (cgid, path) ∈ existing h.initial p →
        h.resolver.outputAt p (.event cgid walk) = some path) ∧
      ∀ path, h.resolver.outputAt p (.event cgid walk) = some path →
        ∀ path', (cgid, path') ∈ h.directories ↔ path' = path := by
  have hpast := h.past_subset hsplit
  have hsees : Sees walk (existing h.initial p) := sees_of_walksSee (hsplit ▸ h.walks_see)
  have hsound : ∀ path, h.resolver.outputAt p (.event cgid walk) = some path →
      (cgid, path) ∈ h.directories := by
    intro path hfound
    have hafter : (h.resolver.stateAfter (p ++ [.event cgid walk])).lookup cgid = some path := by
      rw [Trace.Machine.stateAfter_concat]
      exact (PathCache.resolve_snd _ _ _).symm.trans hfound
    have hsplit' : h.actions = (p ++ [.event cgid walk]) ++ q := by simp [hsplit]
    exact h.past_subset hsplit' (h.cached_mem_directories hsplit' hafter)
  constructor
  · intro path hlive
    have hpath := hpast (existing_subset _ _ hlive)
    have hsome : (h.resolver.outputAt p (.event cgid walk)).isSome = true := by
      show (((h.resolver.stateAfter p).resolve cgid walk).2).isSome = true
      unfold PathCache.resolve
      split
      · rfl
      · exact PathCache.lookup_refresh_isSome _ (hsees.2 _ hlive)
    obtain ⟨path', hfound⟩ := Option.isSome_iff_exists.mp hsome
    rw [hfound, h.path_unique (hsound path' hfound) hpath]
  · intro path hfound path'
    constructor
    · intro hpath'
      exact h.path_unique hpath' (hsound path hfound)
    · rintro rfl
      exact hsound path' hfound

/-- A container is removed and the next one gets its path: the old id keeps the
path in the cache, the new id is found by the walk. -/
def sampleHistory : CgroupHistory where
  root := "/c"
  initial := [(1, "/c")]
  walk := [⟨"/c", false, true, some 1⟩, ⟨"/c/cgroup.procs", false, false, some 9⟩]
  actions :=
    [.mkdir (2, "/c/a"), .event 2 [⟨"/c", false, true, some 1⟩, ⟨"/c/a", false, true, some 2⟩],
      .rmdir 2, .mkdir (3, "/c/a"),
      .event 3 [⟨"/c", false, true, some 1⟩, ⟨"/c/a", false, true, some 3⟩]]
  walk_sound := by decide
  walks_see := by
    refine ⟨⟨?_, ?_⟩, ⟨?_, ?_⟩, trivial⟩
    all_goals decide
  ids_nodup := by decide

theorem resolved_path_sample :
    sampleHistory.resolver.outputAt (sampleHistory.actions.take 4)
        (.event 3 [⟨"/c", false, true, some 1⟩, ⟨"/c/a", false, true, some 3⟩]) = some "/c/a" :=
  have hsplit : sampleHistory.actions = sampleHistory.actions.take 4 ++
      .event 3 [⟨"/c", false, true, some 1⟩, ⟨"/c/a", false, true, some 3⟩] :: [] := rfl
  (sampleHistory.resolved_path hsplit).1 "/c/a" (by decide)

end CgroupHistory

end McKube.Ebpf.Monitor
