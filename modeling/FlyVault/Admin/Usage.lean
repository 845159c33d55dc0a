/-
  The usage report of a machine: `usage_fact_with_volume_sizes`, the lifecycle timestamps and
  `format_event_timestamp`, and `mounted_volume_facts_with_sizes` (`crates/admin/src/machines.rs`).

  A timestamp is formatted by the `time` crate: the years 0 to 9999 after RFC 3339, in UTC. The
  fold over the events keeps the last event of each kind in the list, whatever its timestamp:
  `earlier_start_reported`. `usage_timestamps_iff`: the latest timestamp of a kind is reported
  exactly if the last of its events is the latest one, and the order of the events does not matter
  exactly if all events of a kind have the same timestamp.
-/
import FlyVault.Admin.Tenant
import FlyVault.Lib.Calendar
import Mathlib.Data.List.Induction

namespace FlyVault.Admin.Usage

open FlyVault.Lib FlyVault.Lib.Calendar

/-! ## The machine -/

structure MachineEvent where
  eventType : Option String
  status : Option String
  /-- In milliseconds. -/
  timestamp : Option Int
  deriving DecidableEq, Repr

/-- A machine with the fields that only the report reads. -/
structure ReportedMachine extends Machine where
  createdAt : Option String
  updatedAt : Option String
  events : List MachineEvent

structure MountedVolumeFact where
  volumeId : String
  name : Option String
  mountPath : Option String
  sizeGib : UInt32
  deriving DecidableEq, Repr

structure MachineUsageFact where
  machineId : String
  state : String
  region : Option String
  instanceId : Option String
  startedAt : Option String
  stoppedAt : Option String
  deletedAt : Option String
  createdAt : Option String
  updatedAt : Option String
  metadata : List (String × String)
  volumes : List MountedVolumeFact
  deriving DecidableEq, Repr

def mountedVolumeFactsWithSizes (machine : Machine) (volumeSizes : String → Option UInt32) :
    List MountedVolumeFact :=
  match machine.config.asObject.bind fun obj => (Json.find obj "mounts").bind Json.asArray with
  | some mounts =>
      (mounts.filterMap Json.asObject).filterMap fun mount =>
        (textField mount "volume").map fun volumeId =>
          { volumeId
            name := textField mount "name"
            mountPath := textField mount "path"
            sizeGib := ((volumeSizes volumeId).or (((Json.find mount "size_gb").bind
              Json.asU64).map UInt64.toUInt32)).getD defaultVolumeSizeGib }
  | none => []

/-- The volumes of `mounted_volume_ids` are those of the report. -/
theorem map_volumeId (machine : Machine) (volumeSizes : String → Option UInt32) :
    (mountedVolumeFactsWithSizes machine volumeSizes).map MountedVolumeFact.volumeId =
      mountedVolumeIds machine := by
  unfold mountedVolumeFactsWithSizes mountedVolumeIds configVolumeIds
  cases machine.config.asObject.bind fun obj => (Json.find obj "mounts").bind Json.asArray with
  | none => rfl
  | some mounts =>
      dsimp only
      rw [List.map_filterMap]
      congr 1
      funext mount
      rw [Option.map_map]
      exact Option.map_id'

/-! ## Timestamps -/

/-- The milliseconds from the beginning of the year 0 to 1970. -/
def epochMillis : Int := 62167219200000

def formatEventTimestamp (timestampMs : Int) : Option String :=
  let millis := timestampMs + epochMillis
  if 0 ≤ millis ∧ millis < daysBefore 10000 * dayMillis then
    some (String.ofList (rfc3339 millis.toNat))
  else none

example : formatEventTimestamp 1755331200000 = some "2025-08-16T08:00:00Z" := by decide +kernel

/-- `to_ascii_lowercase`. -/
def toAsciiLowercase (s : String) : String := s.map Char.toLower

inductive Kind
  | start
  | stop
  | delete
  deriving DecidableEq, Repr

def Kind.types : Kind → List String
  | .start => ["start"]
  | .stop => ["stop", "suspend"]
  | .delete => ["destroy", "delete"]

def Kind.statuses : Kind → List String
  | .start => ["started"]
  | .stop => ["stopped", "suspended"]
  | .delete => ["destroyed", "deleted"]

/-- A field of an event, trimmed and in lower case; empty if it is missing. -/
def lowered (field : Option String) : String := toAsciiLowercase ((field.map trim).getD "")

def MachineEvent.isOf (event : MachineEvent) (kind : Kind) : Bool :=
  kind.types.contains (lowered event.eventType) || kind.statuses.contains (lowered event.status)

structure Lifecycle where
  startedAt : Option String
  stoppedAt : Option String
  deletedAt : Option String
  deriving DecidableEq, Repr

def Lifecycle.of (times : Lifecycle) : Kind → Option String
  | .start => times.startedAt
  | .stop => times.stoppedAt
  | .delete => times.deletedAt

/-- One round of the loop of `lifecycle_usage_timestamps_from_events`. -/
def lifecycleStep (times : Lifecycle) (event : MachineEvent) : Lifecycle :=
  match event.timestamp.bind formatEventTimestamp with
  | none => times
  | some timestamp =>
      { startedAt := if event.isOf .start then some timestamp else times.startedAt
        stoppedAt := if event.isOf .stop then some timestamp else times.stoppedAt
        deletedAt := if event.isOf .delete then some timestamp else times.deletedAt }

def lifecycleUsageTimestampsFromEvents (events : List MachineEvent) : Lifecycle :=
  events.foldl lifecycleStep ⟨none, none, none⟩

def lifecycleUsageTimestamps (machine : ReportedMachine) : Lifecycle :=
  let times := lifecycleUsageTimestampsFromEvents machine.events
  let eventAt := machine.updatedAt.or machine.createdAt
  let state := toAsciiLowercase (trim machine.state)
  if state = "started" then { times with startedAt := times.startedAt.or eventAt }
  else if state = "stopped" then { times with stoppedAt := times.stoppedAt.or eventAt }
  else if state = "destroyed" ∨ state = "deleted" then
    { times with deletedAt := times.deletedAt.or eventAt }
  else times

def usageFactWithVolumeSizes (machine : ReportedMachine)
    (volumeSizes : String → Option UInt32) : MachineUsageFact :=
  let times := lifecycleUsageTimestamps machine
  { machineId := machine.id
    state := machine.state
    region := machine.region
    instanceId := machine.instanceId
    startedAt := times.startedAt
    stoppedAt := times.stoppedAt
    deletedAt := times.deletedAt
    createdAt := machine.createdAt
    updatedAt := machine.updatedAt
    metadata := machine.metadata
    volumes := mountedVolumeFactsWithSizes machine.toMachine volumeSizes }

/-- The timestamp that a fact reports for a kind of events. -/
def MachineUsageFact.timeOf (fact : MachineUsageFact) : Kind → Option String
  | .start => fact.startedAt
  | .stop => fact.stoppedAt
  | .delete => fact.deletedAt

/-! ## The events of a kind -/

/-- The timestamp of an event of this kind, if it can be formatted. -/
def MachineEvent.timeOf (event : MachineEvent) (kind : Kind) : Option Int :=
  if event.isOf kind then event.timestamp.filter fun t => (formatEventTimestamp t).isSome
  else none

/-- The timestamps of the events of this kind that can be formatted, in the order of the list. -/
def timesOf (kind : Kind) (events : List MachineEvent) : List Int :=
  events.filterMap (MachineEvent.timeOf · kind)

def Latest (t : Int) (times : List Int) : Prop := t ∈ times ∧ ∀ u ∈ times, u ≤ t

theorem isSome_of_mem_timesOf {kind : Kind} {events : List MachineEvent} {t : Int}
    (h : t ∈ timesOf kind events) : (formatEventTimestamp t).isSome = true := by
  obtain ⟨event, -, hevent⟩ := List.mem_filterMap.mp h
  unfold MachineEvent.timeOf at hevent
  split at hevent
  · exact (Option.filter_eq_some_iff.mp hevent).2
  · cases hevent

theorem formatEventTimestamp_injective {t u : Int} (ht : (formatEventTimestamp t).isSome = true)
    (h : formatEventTimestamp t = formatEventTimestamp u) : t = u := by
  have hu : (formatEventTimestamp u).isSome = true := h ▸ ht
  unfold formatEventTimestamp at h ht hu
  dsimp only at h ht hu
  split at ht
  · next htrange =>
      split at hu
      · next hurange =>
          rw [if_pos htrange, if_pos hurange, Option.some.injEq] at h
          have htext := String.ofList_injective h
          have hmillis := rfc3339_injective (by omega) (by omega) htext
          omega
      · cases hu
  · cases ht

theorem timeOf_eq_none {event : MachineEvent}
    (h : event.timestamp.bind formatEventTimestamp = none) (kind : Kind) :
    event.timeOf kind = none := by
  unfold MachineEvent.timeOf
  split
  · rw [Option.filter_eq_none_iff]
    intro t ht hsome
    rw [ht, Option.bind_some] at h
    rw [h] at hsome
    cases hsome
  · rfl

theorem timeOf_eq_ite {event : MachineEvent} {t : Int} {text : String}
    (ht : event.timestamp = some t) (htext : formatEventTimestamp t = some text) (kind : Kind) :
    event.timeOf kind = if event.isOf kind then some t else none := by
  unfold MachineEvent.timeOf
  rw [ht, Option.filter_some, htext]
  rfl

/-- An event sets the timestamps of its kinds and leaves the others. -/
theorem lifecycleStep_of (times : Lifecycle) (event : MachineEvent) (kind : Kind) :
    (lifecycleStep times event).of kind =
      ((event.timeOf kind).bind formatEventTimestamp).or (times.of kind) := by
  unfold lifecycleStep
  cases hbind : event.timestamp.bind formatEventTimestamp with
  | none => rw [timeOf_eq_none hbind, Option.bind_none, Option.none_or]
  | some text =>
      obtain ⟨t, ht, htext⟩ := Option.bind_eq_some_iff.mp hbind
      rw [timeOf_eq_ite ht htext]
      cases kind with
      | start | stop | delete =>
          dsimp only [Lifecycle.of]
          split
          · rw [Option.bind_some, htext, Option.some_or]
          · rw [Option.bind_none, Option.none_or]

theorem lifecycleFromEvents_of (kind : Kind) (events : List MachineEvent) :
    (lifecycleUsageTimestampsFromEvents events).of kind =
      (timesOf kind events).getLast?.bind formatEventTimestamp := by
  induction events using List.reverseRecOn with
  | nil => cases kind <;> rfl
  | append_singleton events event ih =>
      unfold lifecycleUsageTimestampsFromEvents timesOf at *
      rw [List.foldl_append, List.foldl_cons, List.foldl_nil, lifecycleStep_of, ih,
        List.filterMap_append]
      cases htime : event.timeOf kind with
      | none => simp [htime]
      | some t =>
          have hsome : (formatEventTimestamp t).isSome = true :=
            isSome_of_mem_timesOf (List.mem_filterMap.mpr ⟨event, List.mem_singleton_self _, htime⟩)
          obtain ⟨text, htext⟩ := Option.isSome_iff_exists.mp hsome
          simp [htime, htext]

/-- The fallback counts only without events of the kind. -/
theorem usageFact_timeOf (machine : ReportedMachine) (volumeSizes : String → Option UInt32)
    {kind : Kind} {last : Int} (hlast : (timesOf kind machine.events).getLast? = some last) :
    (usageFactWithVolumeSizes machine volumeSizes).timeOf kind = formatEventTimestamp last := by
  have hevents : (lifecycleUsageTimestampsFromEvents machine.events).of kind =
      formatEventTimestamp last := by
    rw [lifecycleFromEvents_of, hlast, Option.bind_some]
  have hsome := isSome_of_mem_timesOf (List.mem_of_getLast? hlast)
  obtain ⟨text, htext⟩ := Option.isSome_iff_exists.mp hsome
  rw [htext] at hevents ⊢
  have hfact : (usageFactWithVolumeSizes machine volumeSizes).timeOf kind =
      (lifecycleUsageTimestamps machine).of kind := by
    cases kind with
    | start => rfl
    | stop => rfl
    | delete => rfl
  rw [hfact]
  unfold lifecycleUsageTimestamps
  dsimp only
  cases kind with
  | start | stop | delete =>
      dsimp only [Lifecycle.of] at hevents
      split
      · simp [Lifecycle.of, hevents]
      · split
        · simp [Lifecycle.of, hevents]
        · split
          · simp [Lifecycle.of, hevents]
          · simp [Lifecycle.of, hevents]

/-! ## The order of the events -/

theorem exists_latest {times : List Int} (h : times ≠ []) : ∃ t, Latest t times := by
  obtain ⟨t, ht⟩ := Option.isSome_iff_exists.mp (List.isSome_max?_of_ne_nil h)
  exact ⟨t, List.max?_eq_some_iff.mp ht⟩

/-- The latest timestamp is reported exactly if it is the last one. -/
theorem reports_latest_iff (machine : ReportedMachine) (volumeSizes : String → Option UInt32)
    (kind : Kind) :
    (∀ t, Latest t (timesOf kind machine.events) →
      (usageFactWithVolumeSizes machine volumeSizes).timeOf kind = formatEventTimestamp t) ↔
    ∀ last, (timesOf kind machine.events).getLast? = some last →
      Latest last (timesOf kind machine.events) := by
  constructor
  · intro hreports last hlast
    have hmem := List.mem_of_getLast? hlast
    obtain ⟨t, hlatest⟩ := exists_latest (List.ne_nil_of_mem hmem)
    have hsame : formatEventTimestamp last = formatEventTimestamp t := by
      rw [← usageFact_timeOf machine volumeSizes hlast]
      exact hreports t hlatest
    rw [formatEventTimestamp_injective (isSome_of_mem_timesOf hmem) hsame]
    exact hlatest
  · intro hlast t hlatest
    have hgetLast := List.getLast?_eq_some_getLast (List.ne_nil_of_mem hlatest.1)
    have hmax := hlast _ hgetLast
    rw [Int.le_antisymm (hmax.2 t hlatest.1) (hlatest.2 _ hmax.1)]
    exact usageFact_timeOf machine volumeSizes hgetLast

/-- Any event of a kind can be put last. -/
theorem exists_perm_last {kind : Kind} {events : List MachineEvent} {t : Int}
    (h : t ∈ timesOf kind events) :
    ∃ events', events'.Perm events ∧ (timesOf kind events').getLast? = some t := by
  obtain ⟨event, hmem, htime⟩ := List.mem_filterMap.mp h
  obtain ⟨before, after, rfl⟩ := List.append_of_mem hmem
  refine ⟨before ++ after ++ [event], ?_, ?_⟩
  · exact List.perm_append_singleton event (before ++ after) |>.trans List.perm_middle.symm
  · unfold timesOf
    rw [List.filterMap_append]
    simp [htime]

theorem Lifecycle.ext_of {x y : Lifecycle} (h : ∀ kind, x.of kind = y.of kind) : x = y := by
  obtain ⟨started, stopped, deleted⟩ := x
  obtain ⟨started', stopped', deleted'⟩ := y
  have hstart : started = started' := h .start
  have hstop : stopped = stopped' := h .stop
  have hdelete : deleted = deleted' := h .delete
  rw [hstart, hstop, hdelete]

/-- The order of the events does not matter exactly if all of a kind have one timestamp. -/
theorem order_free_iff (machine : ReportedMachine) (volumeSizes : String → Option UInt32) :
    (∀ events, events.Perm machine.events →
      usageFactWithVolumeSizes { machine with events := events } volumeSizes =
        usageFactWithVolumeSizes machine volumeSizes) ↔
    ∀ kind, ∀ t ∈ timesOf kind machine.events, ∀ u ∈ timesOf kind machine.events, t = u := by
  constructor
  · intro hfree kind t ht u hu
    obtain ⟨events, hperm, hlast⟩ := exists_perm_last ht
    obtain ⟨events', hperm', hlast'⟩ := exists_perm_last hu
    have hfact := usageFact_timeOf { machine with events := events } volumeSizes hlast
    have hfact' := usageFact_timeOf { machine with events := events' } volumeSizes hlast'
    rw [hfree events hperm] at hfact
    rw [hfree events' hperm'] at hfact'
    exact formatEventTimestamp_injective (isSome_of_mem_timesOf ht) (hfact.symm.trans hfact')
  · intro hsame events hperm
    have htimes : lifecycleUsageTimestampsFromEvents events =
        lifecycleUsageTimestampsFromEvents machine.events := by
      refine Lifecycle.ext_of fun kind => ?_
      have hperm' : (timesOf kind events).Perm (timesOf kind machine.events) :=
        hperm.filterMap _
      rw [lifecycleFromEvents_of, lifecycleFromEvents_of]
      cases hlast : (timesOf kind events).getLast? with
      | none =>
          rw [List.getLast?_eq_none_iff.mp hlast] at hperm'
          rw [hperm'.nil_eq.symm]
          rfl
      | some last =>
          cases hlast' : (timesOf kind machine.events).getLast? with
          | none =>
              rw [List.getLast?_eq_none_iff.mp hlast'] at hperm'
              rw [hperm'.eq_nil] at hlast
              cases hlast
          | some last' =>
              rw [hsame kind last (hperm'.mem_iff.mp (List.mem_of_getLast? hlast)) last'
                (List.mem_of_getLast? hlast')]
    unfold usageFactWithVolumeSizes lifecycleUsageTimestamps
    dsimp only
    rw [htimes]

/-- For every machine: the reported timestamps are the latest ones exactly if for each kind the
    last event with a timestamp that can be formatted is the latest of them; and no order of the
    events changes the fact exactly if for each kind all of them have the same timestamp. -/
theorem usage_timestamps_iff (machine : ReportedMachine)
    (volumeSizes : String → Option UInt32) :
    ((∀ kind t, Latest t (timesOf kind machine.events) →
        (usageFactWithVolumeSizes machine volumeSizes).timeOf kind = formatEventTimestamp t) ↔
      ∀ kind last, (timesOf kind machine.events).getLast? = some last →
        Latest last (timesOf kind machine.events)) ∧
    ((∀ events, events.Perm machine.events →
        usageFactWithVolumeSizes { machine with events := events } volumeSizes =
          usageFactWithVolumeSizes machine volumeSizes) ↔
      ∀ kind, ∀ t ∈ timesOf kind machine.events, ∀ u ∈ timesOf kind machine.events, t = u) := by
  refine ⟨?_, order_free_iff machine volumeSizes⟩
  exact forall_congr' fun kind => reports_latest_iff machine volumeSizes kind

/-- A machine whose later start comes first in the list. -/
def newestFirst : ReportedMachine where
  id := "machine-1"
  name := none
  state := "started"
  region := none
  instanceId := none
  config := .null
  checks := .null
  createdAt := none
  updatedAt := none
  events := [⟨some "start", some "started", some 1755331500000⟩,
    ⟨some "start", some "started", some 1755331200000⟩]

/-- The earlier start is reported, and the later one if the events are turned around. -/
theorem earlier_start_reported :
    timesOf .start newestFirst.events = [1755331500000, 1755331200000] ∧
    (usageFactWithVolumeSizes newestFirst fun _ => none).startedAt =
      some "2025-08-16T08:00:00Z" ∧
    formatEventTimestamp 1755331500000 = some "2025-08-16T08:05:00Z" ∧
    (usageFactWithVolumeSizes { newestFirst with events := newestFirst.events.reverse }
      fun _ => none).startedAt = some "2025-08-16T08:05:00Z" := by
  decide +kernel

end FlyVault.Admin.Usage
