import Mathlib.Data.List.Nodup
import PortablePdb.Proofs.Breakpoint.Requested
import PortablePdb.Proofs.StableSort

/-!
# Reconciling through a map of entries

The requests of a `sync` can be carried out on a map from ids to entries.  The map is built from the
entries, gives up what is not requested, and then gives up one entry for each request.  Such a map
shows its entries in an order of its own.  That order reaches nothing: the ids to remove are sorted,
and every other access goes by the id.  A map also keeps only the last of several entries with the
same id, so it loses nothing as long as the ids of the collection are distinct.
-/

namespace PortablePdb

/-- Entries under their ids, in the order in which the map shows them. -/
structure EntryMap where
  items : List TrackedBreakpoint
  ids_nodup : (items.map TrackedBreakpoint.id).Nodup

namespace EntryMap

def empty : EntryMap :=
  ⟨[], List.nodup_nil⟩

def get? (map : EntryMap) (id : BreakpointId) : Option TrackedBreakpoint :=
  map.items.find? fun entry => entry.id = id

def erase (map : EntryMap) (id : BreakpointId) : EntryMap where
  items := map.items.filter fun entry => entry.id ≠ id
  ids_nodup := map.ids_nodup.sublist (List.filter_sublist.map _)

/-- Puts an entry under its id, in place of the one that is there. -/
def insert (map : EntryMap) (entry : TrackedBreakpoint) : EntryMap where
  items := (map.erase entry.id).items ++ [entry]
  ids_nodup := by
    rw [List.map_append, List.map_singleton, List.nodup_append]
    refine ⟨(map.erase entry.id).ids_nodup, List.nodup_singleton _, ?_⟩
    intro id hid other hother
    obtain ⟨kept, hkept, rfl⟩ := List.mem_map.mp hid
    rw [List.mem_singleton.mp hother]
    simpa using (List.mem_filter.mp hkept).2

def ofEntries (entries : List TrackedBreakpoint) : EntryMap :=
  entries.foldl insert empty

/-- Whether the map is one that was built from the entries, with its items in any order. -/
def HasEntries (map : EntryMap) (entries : List TrackedBreakpoint) : Prop :=
  map.items.Perm (ofEntries entries).items

/-- The ids in the map that are not requested, in increasing order. -/
def unrequested (map : EntryMap) (requests : List BreakpointRequest) : List BreakpointId :=
  ((map.items.map TrackedBreakpoint.id).filter fun id =>
      requests.all fun request => request.id ≠ id)
    |>.mergeSort fun first second => first.number ≤ second.number

/-- Takes the entries of some ids out of the map, one after the other, and reports them removed. -/
def remove (map : EntryMap) : List BreakpointId → EntryMap × List BreakpointEvent
  | [] => (map, [])
  | id :: ids =>
      let (left, later) := (map.erase id).remove ids
      (left, (map.get? id).toList.map (fun entry => .removed id entry.breakpoint.location) ++ later)

/-- Answers requests, one after the other.  Each takes the entry with its id out of the map. -/
def answer (files : List LoadedFile) (map : EntryMap) :
    List BreakpointRequest → List TrackedBreakpoint × List BreakpointEvent
  | [] => ([], [])
  | request :: requests =>
      let (entry, events) := TrackedBreakpoint.sync (map.get? request.id) files request
      let (entries, later) := answer files (map.erase request.id) requests
      (entry :: entries, events ++ later)

theorem get?_eq_some_iff {map : EntryMap} {id : BreakpointId} {entry : TrackedBreakpoint} :
    map.get? id = some entry ↔ entry ∈ map.items ∧ entry.id = id := by
  constructor
  · intro hget
    exact ⟨List.mem_of_find?_eq_some hget, by simpa using List.find?_some hget⟩
  · rintro ⟨hmem, rfl⟩
    cases hfind : map.get? entry.id with
    | none => simpa using List.find?_eq_none.mp hfind entry hmem
    | some other =>
        have hother := List.mem_of_find?_eq_some hfind
        have hid : other.id = entry.id := by simpa using List.find?_some hfind
        rw [List.inj_on_of_nodup_map map.ids_nodup hother hmem hid]

theorem get?_erase_of_ne (map : EntryMap) {id other : BreakpointId} (hne : other ≠ id) :
    (map.erase id).get? other = map.get? other := by
  apply Option.ext
  intro entry
  simp only [get?_eq_some_iff, erase, List.mem_filter, decide_eq_true_eq]
  grind

/-- The order of the items does not show in what the map has under an id. -/
theorem get?_of_perm {map : EntryMap} {entries : List TrackedBreakpoint}
    (hids : (entries.map TrackedBreakpoint.id).Nodup) (hperm : map.items.Perm entries)
    (id : BreakpointId) : map.get? id = entries.find? fun entry => entry.id = id := by
  apply Option.ext
  intro entry
  have hentries : entries.find? (fun entry => entry.id = id) = some entry ↔
      entry ∈ entries ∧ entry.id = id := @get?_eq_some_iff ⟨entries, hids⟩ id entry
  rw [hentries, get?_eq_some_iff, hperm.mem_iff]

theorem items_foldl_insert {entries : List TrackedBreakpoint} {map : EntryMap}
    (hids : ((map.items ++ entries).map TrackedBreakpoint.id).Nodup) :
    (entries.foldl insert map).items = map.items ++ entries := by
  induction entries generalizing map with
  | nil => simp
  | cons entry entries ih =>
      have hfresh : (map.erase entry.id).items = map.items := by
        apply List.filter_eq_self.mpr
        intro other hother
        rw [List.map_append, List.nodup_append] at hids
        simpa using hids.2.2 other.id (List.mem_map_of_mem hother) entry.id (by simp)
      have hitems : (map.insert entry).items = map.items ++ [entry] :=
        congrArg (· ++ [entry]) hfresh
      have hnext : (entries.foldl insert (map.insert entry)).items =
          (map.insert entry).items ++ entries :=
        ih (by rwa [hitems, List.append_assoc, List.singleton_append])
      rw [List.foldl_cons, hnext, hitems, List.append_assoc, List.singleton_append]

/-- Nothing is lost on the way into the map if the ids are distinct. -/
theorem items_ofEntries {entries : List TrackedBreakpoint}
    (hids : (entries.map TrackedBreakpoint.id).Nodup) : (ofEntries entries).items = entries :=
  items_foldl_insert (by simpa [empty] using hids)

/-- The order of the items is free. -/
theorem exists_reversed {entries : List TrackedBreakpoint}
    (hids : (entries.map TrackedBreakpoint.id).Nodup) :
    ∃ map : EntryMap, map.items = entries.reverse ∧ map.HasEntries entries := by
  have hreversed : (entries.reverse.map TrackedBreakpoint.id).Nodup := by
    rwa [List.map_reverse, List.nodup_reverse]
  refine ⟨⟨entries.reverse, hreversed⟩, rfl, ?_⟩
  rw [HasEntries, items_ofEntries hids]
  exact List.reverse_perm entries

theorem unrequested_eq {map : EntryMap} {collection : Collection}
    (hperm : map.items.Perm collection.entries) (requests : List BreakpointRequest) :
    map.unrequested requests = (collection.dropped requests).map TrackedBreakpoint.id := by
  have hdropped : ((collection.dropped requests).map TrackedBreakpoint.id).Pairwise
      fun first second => first.number ≤ second.number :=
    List.pairwise_map.mpr (pairwise_mergeSort_key (fun entry : TrackedBreakpoint => entry.id.number) _)
  have hids : ((map.items.map TrackedBreakpoint.id).filter fun id =>
      requests.all fun request => request.id ≠ id).Perm
        ((collection.dropped requests).map TrackedBreakpoint.id) := by
    rw [List.filter_map]
    exact ((hperm.filter _).trans (List.mergeSort_perm _ _).symm).map TrackedBreakpoint.id
  refine List.Perm.eq_of_pairwise ?_ (pairwise_mergeSort_key BreakpointId.number _) hdropped
    ((List.mergeSort_perm _ _).trans hids)
  intro first second _ _ hle hge
  cases first
  cases second
  simp only at hle hge
  rw [Nat.le_antisymm hle hge]

/-- What is removed is exactly what the map has under the ids, and the rest stays. -/
theorem remove_ids {map : EntryMap} {gone : List TrackedBreakpoint}
    (hmem : ∀ entry ∈ gone, entry ∈ map.items) (hids : (gone.map TrackedBreakpoint.id).Nodup) :
    (map.remove (gone.map TrackedBreakpoint.id)).2 =
        gone.map (fun entry => .removed entry.id entry.breakpoint.location) ∧
      ∀ id, id ∉ gone.map TrackedBreakpoint.id →
        (map.remove (gone.map TrackedBreakpoint.id)).1.get? id = map.get? id := by
  induction gone generalizing map with
  | nil => simp [remove]
  | cons entry gone ih =>
      obtain ⟨hfirst, hrest⟩ := List.nodup_cons.mp hids
      obtain ⟨hentry, hgone⟩ := List.forall_mem_cons.mp hmem
      have hget : map.get? entry.id = some entry := get?_eq_some_iff.mpr ⟨hentry, rfl⟩
      have hleft : ∀ other ∈ gone, other ∈ (map.erase entry.id).items := by
        intro other hother
        refine List.mem_filter.mpr ⟨hgone other hother, ?_⟩
        have hne : other.id ≠ entry.id := fun heq =>
          hfirst (heq ▸ List.mem_map_of_mem hother)
        simpa using hne
      obtain ⟨hevents, hkept⟩ := ih hleft hrest
      refine ⟨?_, ?_⟩
      · simp [remove, hget, hevents]
      · intro id hid
        rw [List.map_cons, List.mem_cons, not_or] at hid
        rw [List.map_cons, remove, hkept id hid.2, get?_erase_of_ne map hid.1]

theorem answer_eq (files : List LoadedFile) {map : EntryMap} {requests : List BreakpointRequest}
    (hids : (requests.map BreakpointRequest.id).Nodup)
    {current : BreakpointId → Option TrackedBreakpoint}
    (hcurrent : ∀ request ∈ requests, map.get? request.id = current request.id) :
    let changed := requests.map fun request =>
      TrackedBreakpoint.sync (current request.id) files request
    map.answer files requests = (changed.map Prod.fst, changed.flatMap Prod.snd) := by
  induction requests generalizing map with
  | nil => rfl
  | cons request requests ih =>
      obtain ⟨hfirst, hrest⟩ := List.nodup_cons.mp hids
      obtain ⟨hrequest, hrequests⟩ := List.forall_mem_cons.mp hcurrent
      have hleft : ∀ other ∈ requests,
          (map.erase request.id).get? other.id = current other.id := by
        intro other hother
        have hne : other.id ≠ request.id := fun heq =>
          hfirst (heq ▸ List.mem_map_of_mem hother)
        rw [get?_erase_of_ne map hne, hrequests other hother]
      simp [answer, hrequest, ih hrest hleft]

end EntryMap

namespace Collection

/-- Carries out requests on a map of the entries.  The entries are put back only after all requests
are answered; before that, the requests are checked. -/
def syncThrough (collection : Collection) (map : EntryMap) (requests : List BreakpointRequest) :
    Collection × Except BreakpointError (List BreakpointEvent) :=
  match checkRequests [] requests with
  | .error error => (collection, .error error)
  | .ok () =>
      let (left, removals) := map.remove (map.unrequested requests)
      let (entries, events) := left.answer collection.files requests
      ({ collection with entries }, .ok (removals ++ events))

theorem mem_entries_of_mem_dropped {collection : Collection} {requests : List BreakpointRequest}
    {entry : TrackedBreakpoint} (hentry : entry ∈ collection.dropped requests) :
    entry ∈ collection.entries ∧ entry.id ∉ requests.map BreakpointRequest.id := by
  simp only [dropped, List.mem_mergeSort, List.mem_filter, List.all_eq_true,
    decide_eq_true_eq] at hentry
  refine ⟨hentry.1, ?_⟩
  intro hid
  obtain ⟨request, hrequest, heq⟩ := List.mem_map.mp hid
  exact hentry.2 request hrequest heq

/-- The map is only a way to carry out `sync`, whatever its order is. -/
theorem syncThrough_eq {collection : Collection} {map : EntryMap}
    (hids : (collection.entries.map TrackedBreakpoint.id).Nodup)
    (hmap : map.HasEntries collection.entries) (requests : List BreakpointRequest) :
    collection.syncThrough map requests =
      ((collection.syncOrKeep requests).1, (collection.sync requests).map Prod.snd) := by
  cases hcheck : checkRequests [] requests with
  | error error =>
      have hsync : collection.sync requests = .error error := by
        simp [sync, hcheck, bind, Except.bind]
      simp [syncThrough, syncOrKeep, hcheck, hsync, Except.map]
  | ok _ =>
      have hvalid : ValidRequests requests := (checkRequests_eq_ok_iff.mp hcheck).1
      rw [EntryMap.HasEntries, EntryMap.items_ofEntries hids] at hmap
      have hgone : ∀ entry ∈ collection.dropped requests, entry ∈ map.items := fun entry hentry =>
        hmap.mem_iff.mpr (mem_entries_of_mem_dropped hentry).1
      have hgoneIds : ((collection.dropped requests).map TrackedBreakpoint.id).Nodup := by
        rw [← EntryMap.unrequested_eq hmap]
        exact (List.mergeSort_perm _ _).nodup_iff.mpr (map.ids_nodup.filter _)
      obtain ⟨hremovals, hleft⟩ := EntryMap.remove_ids hgone hgoneIds
      -- a requested id is not among the removed ones, so its entry is still in the map
      have hcurrent : ∀ request ∈ requests,
          (map.remove ((collection.dropped requests).map TrackedBreakpoint.id)).1.get? request.id =
            collection.find? request.id := by
        intro request hrequest
        rw [hleft request.id, EntryMap.get?_of_perm hids hmap, find?]
        intro hid
        obtain ⟨entry, hentry, heq⟩ := List.mem_map.mp hid
        exact (mem_entries_of_mem_dropped hentry).2 (heq ▸ List.mem_map_of_mem hrequest)
      have hanswer := EntryMap.answer_eq collection.files hvalid.ids_nodup hcurrent
      simp only [syncThrough, hcheck, EntryMap.unrequested_eq hmap, hremovals, hanswer]
      simp [syncOrKeep, sync, hcheck, bind, Except.bind, pure, Except.pure, Except.map]

end Collection

end PortablePdb
