import Mathlib.Logic.Function.Basic
import PortablePdb.Breakpoint.Event

/-!
# Replaying events

A client keeps a trap for every breakpoint id that has a location and changes it event by event.
An event can be illegal where the client stands, for example when it reports code that the client
knows already.  An event touches the record of its own id only, so the events of distinct ids can
be replayed apart from each other.
-/

namespace PortablePdb

/-- What a client does at a location. -/
inductive Trap where
  /-- Neither set nor cleared yet. -/
  | pending
  | on
  | off
  deriving DecidableEq, Repr

/-- The location of a breakpoint id and the trap there, or nothing for an id without code. -/
abbrev TrapRecord := Option (Location × Trap)

/-- The record after an event for its id, if the event is legal. -/
def recordAfter (record : TrapRecord) : BreakpointEvent → Option TrapRecord
  | .resolved _ location =>
      if record = none then some (some (location, .pending)) else none
  | .unresolved _ location =>
      if record.map Prod.fst = some location then some none else none
  | .activated _ location =>
      if record.map Prod.fst = some location ∧ record ≠ some (location, .on) then
        some (some (location, .on))
      else none
  | .deactivated _ location =>
      if record.map Prod.fst = some location ∧ record ≠ some (location, .off) then
        some (some (location, .off))
      else none
  | .removed _ location => if record.map Prod.fst = location then some none else none

/-- The record after some events for its id, if all of them are legal. -/
def recordReplay (record : TrapRecord) (events : List BreakpointEvent) : Option TrapRecord :=
  events.foldlM recordAfter record

structure Client where
  record : BreakpointId → TrapRecord

namespace Client

def empty : Client :=
  ⟨fun _ => none⟩

def set (client : Client) (id : BreakpointId) (record : TrapRecord) : Client :=
  ⟨Function.update client.record id record⟩

/-- The client after an event, if the event is legal. -/
def step (client : Client) (event : BreakpointEvent) : Option Client :=
  (recordAfter (client.record event.id) event).map (client.set event.id)

/-- The client after some events, if all of them are legal. -/
def replay (client : Client) (events : List BreakpointEvent) : Option Client :=
  events.foldlM step client

@[simp] theorem record_set_self (client : Client) (id : BreakpointId) (record : TrapRecord) :
    (client.set id record).record id = record := by
  simp [set]

theorem record_set_of_ne (client : Client) {id other : BreakpointId} (record : TrapRecord)
    (hne : other ≠ id) : (client.set id record).record other = client.record other := by
  simp [set, hne]

@[simp] theorem set_set (client : Client) (id : BreakpointId) (first second : TrapRecord) :
    (client.set id first).set id second = client.set id second := by
  simp [set]

@[simp] theorem set_record (client : Client) (id : BreakpointId) :
    client.set id (client.record id) = client := by
  simp [set]

@[simp] theorem replay_nil (client : Client) : client.replay [] = some client := rfl

theorem replay_append (client : Client) (first second : List BreakpointEvent) :
    client.replay (first ++ second) =
      (client.replay first).bind fun next => next.replay second := by
  simp only [replay, List.foldlM_append]
  rfl

/-- Events of one id go through that id's record. -/
theorem replay_of_id {id : BreakpointId} {events : List BreakpointEvent}
    (hids : ∀ event ∈ events, event.id = id) (client : Client) :
    client.replay events = (recordReplay (client.record id) events).map (client.set id) := by
  induction events generalizing client with
  | nil => simp [recordReplay]
  | cons event events ih =>
      obtain ⟨hid, hrest⟩ := List.forall_mem_cons.mp hids
      cases hafter : recordAfter (client.record id) event with
      | none => simp [replay, recordReplay, step, hid, hafter]
      | some after =>
          have htail := ih hrest (client.set id after)
          rw [record_set_self] at htail
          have hcons : client.replay (event :: events) =
              (client.set id after).replay events := by
            simp [replay, step, hid, hafter]
          have hset : (client.set id after).set id = client.set id := by
            funext record
            exact set_set client id after record
          rw [hcons, htail, hset]
          simp [recordReplay, hafter]

/-- The events of items with distinct ids, item after item.  Each item's events lead its own record
to a target, and the other records stay. -/
theorem replay_flatMap {α : Type} {key : α → BreakpointId} {events : α → List BreakpointEvent}
    {target : α → TrapRecord} {items : List α} (hnodup : (items.map key).Nodup)
    (hids : ∀ item ∈ items, ∀ event ∈ events item, event.id = key item) {client : Client}
    (hrecords : ∀ item ∈ items,
      recordReplay (client.record (key item)) (events item) = some (target item)) :
    ∃ after, client.replay (items.flatMap events) = some after ∧
      (∀ item ∈ items, after.record (key item) = target item) ∧
      ∀ id, id ∉ items.map key → after.record id = client.record id := by
  induction items generalizing client with
  | nil => exact ⟨client, by simp⟩
  | cons item items ih =>
      obtain ⟨hitem, hitems⟩ := List.nodup_cons.mp hnodup
      obtain ⟨hid, hidsRest⟩ := List.forall_mem_cons.mp hids
      obtain ⟨hrecord, hrecordsRest⟩ := List.forall_mem_cons.mp hrecords
      have hne : ∀ other ∈ items, key other ≠ key item := by
        intro other hother heq
        exact hitem (List.mem_map.mpr ⟨other, hother, heq⟩)
      have hkept : ∀ other ∈ items,
          recordReplay ((client.set (key item) (target item)).record (key other))
            (events other) = some (target other) := by
        intro other hother
        rw [record_set_of_ne client _ (hne other hother)]
        exact hrecordsRest other hother
      obtain ⟨after, hreplay, htargets, hothers⟩ := ih hitems hidsRest hkept
      refine ⟨after, ?_, ?_, ?_⟩
      · rw [List.flatMap_cons, replay_append, replay_of_id hid, hrecord]
        exact hreplay
      · rw [List.forall_mem_cons]
        refine ⟨?_, htargets⟩
        rw [hothers _ hitem, record_set_self]
      · intro id hid
        rw [List.map_cons, List.mem_cons, not_or] at hid
        rw [hothers id hid.2, record_set_of_ne client _ hid.1]

end Client

end PortablePdb
