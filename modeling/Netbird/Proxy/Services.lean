/-
What management tells the proxies about its services.

`CreateService` always announces the new service. `UpdateService` removes a service that has
been disabled, creates one that has been enabled, and moves one whose domain has changed; every
other change is announced as a modification, also that of a service which stays disabled.

* `quiet_step_iff` — what one call announces of disabled services;
* `disabled_unpublished_iff` — when no disabled service is ever published.
-/
import Netbird.Lib.Runs

namespace Netbird.Services

open Function

/-- The fields of a service that matter here; `content` is the rest of its mapping. -/
structure Service where
  id : String
  domain : String
  proxyCluster : String
  enabled : Bool
  content : String := ""
  deriving DecidableEq

/-- `Create`, `Update` and `Delete`, sent as `CREATED`, `MODIFIED` and `REMOVED`. -/
inductive Operation where
  | create
  | update
  | delete
  deriving DecidableEq

/-- A call of `SendServiceUpdateToCluster`. -/
structure Message where
  op : Operation
  service : Service
  cluster : String

/-- The calls that are not refused; a refused one saves and sends nothing. A new service comes
with the ID and the cluster that `initializeServiceForCreate` gives it. After a service is
saved, `replaceHostByLookup` may fail. -/
inductive Call where
  | create (service : Service) (lookupFails : Bool)
  | update (service : Service) (lookupFails : Bool)
  | delete (id : String)

/-- The services in the store, and all IDs that were given. -/
structure Store where
  get : String → Option Service := fun _ => none
  ids : List String := []

def Store.save (st : Store) (s : Service) : Store :=
  ⟨Function.update st.get s.id (some s), s.id :: st.ids⟩

variable (derive : String → Option String)

/-- The service that `executeServiceUpdate` saves; `derive` is `DeriveClusterFromDomain`. -/
def updated (existing s : Service) : Service :=
  if existing.domain ≠ s.domain then
    { s with proxyCluster := (derive s.domain).getD s.proxyCluster }
  else { s with proxyCluster := existing.proxyCluster }

def updateNotifications (existing s : Service) : List Message :=
  if existing.domain ≠ s.domain ∨ existing.proxyCluster ≠ s.proxyCluster then
    [⟨.delete, s, existing.proxyCluster⟩, ⟨.create, s, s.proxyCluster⟩]
  else if !s.enabled && existing.enabled != s.enabled then [⟨.delete, s, s.proxyCluster⟩]
  else if s.enabled && existing.enabled != s.enabled then [⟨.create, s, s.proxyCluster⟩]
  else [⟨.update, s, s.proxyCluster⟩]

/-- `CreateService`, `UpdateService` and `DeleteService`: the store and the messages. -/
def Store.call (st : Store) : Call → Store × List Message
  | .create s lookupFails =>
    (st.save s, if lookupFails then [] else [⟨.create, s, s.proxyCluster⟩])
  | .update s lookupFails =>
    match st.get s.id with
    | none => (st, [])
    | some existing =>
      let s := updated derive existing s
      (st.save s, if lookupFails then [] else updateNotifications existing s)
  | .delete id =>
    match st.get id with
    | none => (st, [])
    | some s => ({ st with get := Function.update st.get id none }, [⟨.delete, s, s.proxyCluster⟩])

/-- A proxy with this address is to serve `s`. -/
def Service.offeredTo (s : Service) (address : String) : Bool :=
  s.enabled && s.proxyCluster != "" && s.proxyCluster == address

/-- `snapshotServiceMappings`, for a proxy with this address. -/
def Store.snapshot (st : Store) (address : String) : List Service :=
  (st.ids.filterMap st.get).filter (·.offeredTo address)

/-! ### Disabled services -/

/-- The store, and the last operation sent for every service. -/
structure Published where
  store : Store := {}
  last : String → Option Operation := fun _ => none

def record (last : String → Option Operation) (ms : List Message) : String → Option Operation :=
  ms.foldl (fun last m => Function.update last m.service.id (some m.op)) last

def Published.step (p : Published) (c : Call) : Published :=
  ⟨(p.store.call derive c).1, record p.last (p.store.call derive c).2⟩

/-- What may have been sent last for a disabled service. -/
def Removed (op : Option Operation) : Prop := op = none ∨ op = some .delete

/-- A service that is disabled in the store is not published. -/
def Quiet (p : Published) : Prop :=
  ∀ id s, p.store.get id = some s → s.enabled = false → Removed (p.last id)

/-- A disabled service is not created, and only disabled by a call that leaves its domain alone;
where the lookup fails, nothing of it was published before. -/
def Discreet (p : Published) : Call → Prop
  | .create s lookupFails => s.enabled = false → lookupFails = true ∧ Removed (p.last s.id)
  | .update s lookupFails => ∀ existing, p.store.get s.id = some existing → s.enabled = false →
      if lookupFails then Removed (p.last s.id)
      else existing.enabled = true ∧ existing.domain = s.domain
  | .delete _ => True

variable {derive} {p : Published}

theorem quiet_save_iff (h : Quiet p) {s : Service} {ms : List Message}
    (hms : ∀ m ∈ ms, m.service = s) : Quiet ⟨p.store.save s, record p.last ms⟩ ↔
      (s.enabled = false → Removed (record p.last ms s.id)) := by
  have hothers : ∀ id, id ≠ s.id → record p.last ms id = p.last id := by
    intro id hid
    refine List.foldlRecOn (motive := fun last : String → Option Operation => last id = p.last id)
      ms _ rfl fun last hlast m hm => ?_
    rw [hms m hm, update_of_ne hid]
    exact hlast
  constructor
  · intro hquiet
    exact hquiet s.id s (by simp [Store.save])
  · intro hs id t ht hdisabled
    simp only [Store.save, update_apply] at ht
    split_ifs at ht with hid
    · obtain rfl := Option.some.inj ht
      exact hid ▸ hs hdisabled
    · show Removed (record p.last ms id)
      rw [hothers id hid]
      exact h id t ht hdisabled

theorem updated_eq (existing s : Service) : ∃ cluster,
    updated derive existing s = { s with proxyCluster := cluster } ∧
      (existing.domain = s.domain → cluster = existing.proxyCluster) := by
  rw [updated]
  split_ifs with hdomain
  · exact ⟨_, rfl, fun h => absurd h hdomain⟩
  · exact ⟨_, rfl, fun _ => rfl⟩

/-- The last message about a service that is disabled after an update removes it exactly if the
service was enabled before and keeps its domain. -/
theorem removed_iff {existing s : Service} (hdisabled : s.enabled = false)
    (hcluster : existing.domain = s.domain → s.proxyCluster = existing.proxyCluster)
    (last : String → Option Operation) :
    Removed (record last (updateNotifications existing s) s.id) ↔
      existing.enabled = true ∧ existing.domain = s.domain := by
  by_cases hdomain : existing.domain = s.domain
  · have hstays : ¬ (existing.domain ≠ s.domain ∨ existing.proxyCluster ≠ s.proxyCluster) := by
      simp [hdomain, hcluster hdomain]
    -- disabled now: REMOVED if it was enabled, MODIFIED otherwise
    rw [updateNotifications, if_neg hstays, hdisabled]
    cases existing.enabled <;> simp [Removed, record, hdomain]
  · rw [updateNotifications]
    simp [Removed, record, hdomain]

/-- **One call** publishes no disabled service exactly if it is discreet. -/
theorem quiet_step_iff (h : Quiet p) (c : Call) : Quiet (p.step derive c) ↔ Discreet p c := by
  cases c with
  | create s lookupFails =>
    rw [Published.step, Store.call, quiet_save_iff h (by cases lookupFails <;> simp)]
    cases lookupFails <;> simp [Discreet, record, Removed]
  | update s lookupFails =>
    rcases hget : p.store.get s.id with _ | existing
    · simpa [Published.step, Store.call, hget, Discreet, record] using h
    · obtain ⟨cluster, ht, hcluster⟩ := @updated_eq derive existing s
      simp only [Published.step, Store.call, hget, Discreet, Option.some.injEq, forall_eq', ht]
      rw [quiet_save_iff h]
      · refine forall_congr' fun hdisabled => ?_
        cases lookupFails
        · exact removed_iff (s := { s with proxyCluster := cluster }) hdisabled hcluster p.last
        · rfl
      · cases lookupFails
        · rw [updateNotifications]
          split_ifs <;> simp
        · simp
  | delete id =>
    -- the service that is removed is not in the store any more, the others are as before
    refine iff_of_true (fun id' t ht hdisabled => ?_) trivial
    rcases hget : p.store.get id with _ | s
    · simp only [Published.step, Store.call, hget] at ht ⊢
      exact h id' t ht hdisabled
    · simp only [Published.step, Store.call, hget, update_apply] at ht ⊢
      split_ifs at ht with hid
      by_cases hs : id' = s.id
      · exact .inr (by simp [record, hs])
      · simpa [record, update_of_ne hs] using h id' t ht hdisabled

/-- **No disabled service is ever published**, exactly if every call is discreet. The snapshot
for a proxy leaves disabled services out. -/
theorem disabled_unpublished_iff (derive : String → Option String) (calls : List Call) :
    (Runs.Along (Published.step derive) (fun p c => Quiet (p.step derive c)) {} calls ↔
      Runs.Along (Published.step derive) Discreet {} calls) ∧
    ∀ (st : Store) address, ∀ s ∈ st.snapshot address, s.enabled = true := by
  refine ⟨Runs.Along.congr Quiet (fun p c hp => quiet_step_iff hp c)
    (fun p c hp hc => (quiet_step_iff hp c).mpr hc) fun id s hs => ?_, fun st address s hs => ?_⟩
  · cases hs
  · have hlisted := (List.mem_filter.mp hs).2
    simp only [Service.offeredTo, Bool.and_eq_true] at hlisted
    exact hlisted.1.1

/-- A service that is created disabled is announced, and a change of it is announced again. -/
theorem disabled_service_published :
    let s : Service := ⟨"svc", "app.example", "eu.proxy.example", false, ""⟩
    let p := [.create s false, .update { s with content := "new" } false].foldl
      (Published.step fun _ => none) {}
    p.store.get "svc" = some { s with content := "new" } ∧ p.last "svc" = some .update := by
  decide

end Netbird.Services
