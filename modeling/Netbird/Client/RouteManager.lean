/-
The client's route manager: routed networks over whole runs.

`UpdateRoutes` and `TriggerSelection` compare the filtered map of networks with the active
handlers and the running watchers.  A network that is not in the map any more loses its
handler first and its watcher afterwards.  In between, watchers receive route updates and
changes of the peers' states, resolvers find new addresses and DNS answers come in.
Networks do not touch each other, so the manager is a session list per network.

* `releases_iff` — nothing stays behind exactly if every handler is covered when it goes;
* `resolved_network_leaks` — a dynamic network with a routing peer never is.
-/
import Netbird.Client.RouteSelector
import Netbird.Client.Sessions
import Netbird.Lib.Runs

namespace Netbird.Client

open Runs List Session Function

/-! ### One network -/

variable (sessions : List Session) (routes : Option (List Route))

/-- `updateSystemRoutes` for the network with these routes in the map.  A network without
routes is not added, and an active one is removed. -/
def updateSystemRoutes (useNewDNSRoute : Bool) : List Session :=
  match routes with
  | some (rt :: _) =>
    if sessions.any (·.active) then sessions
    else sessions ++ [new (handlerType rt useNewDNSRoute) rt]
  | some [] | none => sessions.map (·.removeRoute)

def stopObsoleteClients : List Session :=
  match routes with
  | none => sessions.map (·.stop)
  | some _ => sessions

/-- A watcher for the active handler, if there is one. -/
def startClient (update : RoutesUpdate) (s : Session) : Session :=
  if s.active then s.startWatcher.sendUpdate update else s

/-- The running watcher gets the update. -/
def updateClient (update : RoutesUpdate) (s : Session) : Session :=
  if s.running then s.sendUpdate update else s

def updateClientNetworks (updateSerial : ℕ) (routes : Option (List Route)) : List Session :=
  let sessions := stopObsoleteClients sessions routes
  match routes with
  | none => sessions
  | some routes =>
    if sessions.any (·.running) then sessions.map (updateClient ⟨updateSerial, routes⟩)
    else sessions.map (startClient ⟨updateSerial, routes⟩)

/-- The rest of `TriggerSelection`, which leaves running watchers alone. -/
def triggerClientNetworks : List Session :=
  let sessions := stopObsoleteClients sessions routes
  match routes with
  | none => sessions
  | some routes =>
    if sessions.any (·.running) then sessions else sessions.map (startClient ⟨0, routes⟩)

/-- With these routes in the map the session ends. -/
def Session.Closes (s : Session) (routes : Option (List Route)) : Prop :=
  match routes with
  | none => s.active = true ∨ s.running = true
  | some [] => s.active = true ∧ s.running = false
  | some (_ :: _) => False

section Network

variable {sessions : List Session} {routes : Option (List Route)} {useNewDNSRoute : Bool}
  {update : RoutesUpdate} {s : Session}

variable (h : s.Sound)

include h

/-- `RemoveRoute` alone ends the sessions without a watcher. -/
theorem Session.Sound.keeps_remove :
    s.removeRoute.Keeps (s.active = true ∧ s.running = false → s.Covered) := by
  refine ⟨?_, h.removeRoute⟩
  cases hactive : s.active with
  | true =>
    cases hrunning : s.running
    · simp [h.released_removeRoute hactive hrunning]
    · have hnot : ¬ s.removeRoute.Over := fun ho => by
        simpa [hrunning] using removeRoute_running.symm.trans ho.2
      simp [Session.Released, hnot]
  | false =>
    rw [Session.removeRoute, if_neg (by simp [hactive])]
    simp [h.released]

/-- `RemoveRoute` and `Stop` end every session that was not over. -/
theorem Session.Sound.keeps_remove_stop :
    s.removeRoute.stop.Keeps (s.active = true ∨ s.running = true → s.Covered) := by
  cases hrunning : s.running with
  | true =>
    have hremoved := h.removeRoute (h.keeps_remove.1.mpr (by simp [hrunning]))
    refine ⟨?_, hremoved.stop removeRoute_active⟩
    rw [hremoved.released_stop removeRoute_active
      (removeRoute_running.trans hrunning), covered_removeRoute]
    simp
  | false =>
    have hstop : s.removeRoute.stop = s.removeRoute := by
      rw [Session.stop, if_neg (by simp [hrunning])]
    simpa [hstop, hrunning] using h.keeps_remove

theorem Session.Sound.startClient (hrunning : s.running = false) :
    (startClient update s).Sound := by
  rw [Client.startClient]
  split
  · have hnone : s.handler.type = .static → s.handler.allowedIPsRefs ≤ 0 := by
      intro ht
      simpa [hrunning] using h.allowedIPs_static ht
    refine ⟨h.started, h.routes_static, fun ht => (hnone ht).trans (Multiset.zero_le _), h.dynamic,
      fun _ hr => absurd hr (by simp [startWatcher, sendUpdate]),
      fun ho => absurd ho.2 (by simp [startWatcher, sendUpdate])⟩
  · exact h

theorem Session.Sound.updateClient : (updateClient update s).Sound := by
  rw [Client.updateClient]
  split
  · next hrunning =>
    refine h.withAllowedIPs ⟨rfl, rfl, rfl, rfl, rfl⟩ h.allowedIPs_static (fun _ hr => ?_)
      fun hover => (h.released hover).2
    simp [hrunning] at hr
  · exact h

omit h

theorem released_startClient : (startClient update s).Released ↔ s.Released := by
  rw [startClient]
  split
  · next hactive =>
    simp [Session.Released, Session.Over, sendUpdate, startWatcher, hactive]
  · rfl

theorem released_updateClient : (updateClient update s).Released ↔ s.Released := by
  rw [updateClient]
  split <;> rfl

/-- The sessions of the list are released exactly under the condition, and then sound. -/
def KeepAll (sessions : List Session) (C : Prop) : Prop :=
  ((∀ s ∈ sessions, s.Released) ↔ C) ∧
    ((∀ s ∈ sessions, s.Released) → ∀ s ∈ sessions, s.Sound)

theorem keepAll_map {f : Session → Session} {C : Session → Prop}
    (h : ∀ s ∈ sessions, (f s).Keeps (C s)) : KeepAll (sessions.map f) (∀ s ∈ sessions, C s) := by
  simp only [KeepAll, forall_mem_map]
  exact ⟨forall₂_congr fun s hs => (h s hs).1, fun hr s hs => (h s hs).2 (hr s hs)⟩

/-- The sessions that end are released exactly if they were covered. -/
theorem keepAll_system (hsound : ∀ s ∈ sessions, s.Sound) :
    KeepAll (stopObsoleteClients (updateSystemRoutes sessions routes useNewDNSRoute) routes)
      (∀ s ∈ sessions, s.Closes routes → s.Covered) := by
  match routes with
  | none =>
    simp only [updateSystemRoutes, stopObsoleteClients, map_map]
    exact keepAll_map fun s hs => (hsound s hs).keeps_remove_stop
  | some [] => exact keepAll_map fun s hs => (hsound s hs).keeps_remove
  | some (rt :: rts) =>
    have hadded : ∀ s ∈ updateSystemRoutes sessions (some (rt :: rts)) useNewDNSRoute, s.Sound := by
      rw [updateSystemRoutes]
      split
      · exact hsound
      · exact forall_mem_append.mpr ⟨hsound, forall_mem_singleton.mpr (Session.Sound.new _ _)⟩
    exact ⟨iff_of_true (fun s hs => (hadded s hs).released) fun s _ h => h.elim, fun _ => hadded⟩

variable {C : Prop}

theorem KeepAll.map {f : Session → Session} (h : KeepAll sessions C)
    (hreleased : ∀ s, (f s).Released ↔ s.Released)
    (hsound : ∀ s ∈ sessions, s.Sound → (f s).Sound) : KeepAll (sessions.map f) C := by
  simp only [KeepAll, forall_mem_map, hreleased]
  exact ⟨h.1, fun hr s hs => hsound s hs (h.2 hr s hs)⟩

/-- Watchers are started only where none is running. -/
theorem KeepAll.start (h : KeepAll sessions C) (hnone : ¬ sessions.any (·.running) = true) :
    KeepAll (sessions.map (startClient update)) C := by
  refine h.map (fun _ => released_startClient) fun s hs hsound => hsound.startClient ?_
  exact Bool.eq_false_of_not_eq_true fun hr => hnone (any_eq_true.mpr ⟨s, hs, hr⟩)

theorem KeepAll.clients (h : KeepAll (stopObsoleteClients sessions routes) C) (updateSerial : ℕ) :
    KeepAll (updateClientNetworks sessions updateSerial routes) C := by
  rcases routes with _ | routes
  · exact h
  · dsimp only [updateClientNetworks]
    split
    · exact h.map (fun _ => released_updateClient) fun _ _ hs => hs.updateClient
    · exact h.start ‹_›

theorem KeepAll.trigger (h : KeepAll (stopObsoleteClients sessions routes) C) :
    KeepAll (triggerClientNetworks sessions routes) C := by
  rcases routes with _ | routes
  · exact h
  · dsimp only [triggerClientNetworks]
    split
    · exact h
    · exact h.start ‹_›

end Network

/-! ### The manager -/

/-- The manager with the sessions of every network, the oldest first. -/
structure Manager where
  routeSelector : RouteSelector
  useNewDNSRoute : Bool
  networks : String → List Session

/-- Calls of the manager, and what happens in the goroutines of session `k` of a network. -/
inductive ManagerEvent where
  | updateRoutes (updateSerial : ℕ) (clientRoutes : HAMap) (useNewDNSRoute : Bool)
  | triggerSelection (networks : HAMap)
  /-- The user changes the selection. -/
  | select (routeSelector : RouteSelector)
  | routeUpdate (id : String) (k i : ℕ) (best : Option (Route × ConnStatus))
  | peerStateUpdate (id : String) (k : ℕ) (best : Option (Route × ConnStatus))
  | resolve (id : String) (k : ℕ) (newDomains : DomainMap)
  | query (id : String) (k : ℕ)
  | reply (id : String) (k : ℕ) (resolvedDomain : String) (newPrefixes : List Prefix)

namespace Manager

def init : Manager := ⟨RouteSelector.new, false, fun _ => []⟩

variable (m : Manager)

/-- The selector after `updateRouteSelectorFromManagement`, and the filtered map. -/
def filterUpdate (clientRoutes : HAMap) : RouteSelector × HAMap :=
  let rs := m.routeSelector.updateRouteSelectorFromManagement clientRoutes
  (rs, rs.filterSelectedExitNodes clientRoutes)

def updateRoutes (updateSerial : ℕ) (clientRoutes : HAMap) (useNewDNSRoute : Bool) : Manager where
  routeSelector := (m.filterUpdate clientRoutes).1
  useNewDNSRoute := useNewDNSRoute
  networks := fun id =>
    let routes := (m.filterUpdate clientRoutes).2.lookup id
    updateClientNetworks (updateSystemRoutes (m.networks id) routes useNewDNSRoute)
      updateSerial routes

def triggerSelection (networks : HAMap) : Manager :=
  { m with
    networks := fun id =>
      let routes := (m.routeSelector.filterSelectedExitNodes networks).lookup id
      triggerClientNetworks (updateSystemRoutes (m.networks id) routes m.useNewDNSRoute) routes }

/-- Session `k` of the network changes. -/
def modify (id : String) (k : ℕ) (f : Session → Session) : Manager :=
  { m with networks := Function.update m.networks id ((m.networks id).modify k f) }

def step : ManagerEvent → Manager
  | .updateRoutes updateSerial clientRoutes useNewDNSRoute =>
    m.updateRoutes updateSerial clientRoutes useNewDNSRoute
  | .triggerSelection networks => m.triggerSelection networks
  | .select routeSelector => { m with routeSelector := routeSelector }
  | .routeUpdate id k i best => m.modify id k (·.routeUpdate i best)
  | .peerStateUpdate id k best => m.modify id k (·.peerStateUpdate best)
  | .resolve id k newDomains => m.modify id k (·.resolve newDomains)
  | .query id k => m.modify id k (·.query)
  | .reply id k resolvedDomain newPrefixes => m.modify id k (·.reply resolvedDomain newPrefixes)

/-- Handlers whose network is gone and whose watcher has been stopped hold no references. -/
def Released : Prop := ∀ id, ∀ s ∈ m.networks id, s.Released

/-- The sessions that the event ends are covered, and what reaches a session after its end
adds nothing. -/
def Covers : ManagerEvent → Prop
  | .updateRoutes _ clientRoutes _ =>
    ∀ id, ∀ s ∈ m.networks id, s.Closes ((m.filterUpdate clientRoutes).2.lookup id) → s.Covered
  | .triggerSelection networks =>
    ∀ id, ∀ s ∈ m.networks id,
      s.Closes ((m.routeSelector.filterSelectedExitNodes networks).lookup id) → s.Covered
  | .routeUpdate id k i best =>
    ∀ s, (m.networks id)[k]? = some s → s.recalculatesOn i best = true → s.Harmless best
  | .peerStateUpdate id k best =>
    ∀ s, (m.networks id)[k]? = some s → s.watcher.Eligible best = true → s.Harmless best
  | .reply id k resolvedDomain newPrefixes =>
    ∀ s, (m.networks id)[k]? = some s → s.NothingNew resolvedDomain newPrefixes
  | .select _ | .resolve .. | .query .. => True

def Sound : Prop := ∀ id, ∀ s ∈ m.networks id, s.Sound

def Keeps (C : Prop) : Prop := (m.Released ↔ C) ∧ (m.Released → m.Sound)

variable {m} {id : String} {k : ℕ} {f : Session → Session} {e : ManagerEvent}

theorem modify_networks :
    (m.modify id k f).networks = Function.update m.networks id ((m.networks id).modify k f) := rfl

theorem forall_modify {P : Session → Prop} (hm : ∀ id, ∀ s ∈ m.networks id, P s) :
    (∀ id', ∀ s ∈ (m.modify id k f).networks id', P s) ↔
      ∀ s, (m.networks id)[k]? = some s → P (f s) := by
  rw [← Keyed.forall_mem_modify (hm id) k f]
  constructor
  · intro h s hs
    exact h id s (by rwa [modify_networks, update_self])
  · intro h id' s hs
    by_cases hid : id' = id
    · subst hid
      rw [modify_networks, update_self] at hs
      exact h s hs
    · rw [modify_networks, update_of_ne hid] at hs
      exact hm id' s hs

theorem keeps_of_networks {C : String → Prop} (hall : ∀ id, KeepAll (m.networks id) (C id)) :
    m.Keeps (∀ id, C id) :=
  ⟨forall_congr' fun id => (hall id).1, fun hr id => (hall id).2 (hr id)⟩

variable (h : m.Sound)

include h

theorem Sound.mem {s : Session} (hs : (m.networks id)[k]? = some s) : s.Sound :=
  h id s (mem_of_getElem? hs)

theorem Sound.modify {C : Session → Prop} (hf : ∀ s : Session, s.Sound → (f s).Keeps (C s)) :
    (m.modify id k f).Keeps (∀ s, (m.networks id)[k]? = some s → C s) := by
  have hmodify : (m.modify id k f).Released ↔ _ :=
    forall_modify fun id s hs => (h id s hs).released
  refine ⟨hmodify.trans (forall₂_congr fun s hs => (hf s (h.mem hs)).1), fun hr => ?_⟩
  exact (forall_modify h).mpr fun s hs => (hf s (h.mem hs)).2 (hmodify.mp hr s hs)

theorem Sound.step : (m.step e).Keeps (m.Covers e) := by
  cases e with
  | updateRoutes updateSerial clientRoutes useNewDNSRoute =>
    exact keeps_of_networks fun id => (keepAll_system (h id)).clients updateSerial
  | triggerSelection networks =>
    exact keeps_of_networks fun id => (keepAll_system (h id)).trigger
  | select rs => exact ⟨iff_of_true (fun id s hs => (h id s hs).released) trivial, fun _ => h⟩
  | routeUpdate id k i best => exact h.modify fun _ hs => hs.routeUpdate i
  | peerStateUpdate id k best => exact h.modify fun _ hs => hs.peerStateUpdate
  | resolve id k newDomains => simpa [Covers, step] using h.modify fun _ hs => hs.resolve.keeps trivial
  | query id k => simpa [Covers, step] using h.modify fun _ hs => hs.query.keeps trivial
  | reply id k domain newPrefixes => exact h.modify fun _ hs => hs.reply

end Manager

/-- After every event of the run, networks that are gone hold nothing. -/
def Releases (events : List ManagerEvent) : Prop :=
  Along Manager.step (fun m e => (m.step e).Released) Manager.init events

/-- **Removed networks release everything** in a run exactly if every handler is covered by
what `RemoveRoute` and `Stop` give back when its session ends, and nothing new reaches a
session after that. -/
theorem releases_iff (events : List ManagerEvent) :
    Releases events ↔ Along Manager.step Manager.Covers Manager.init events :=
  Along.congr Manager.Sound (fun _ _ h => h.step.1) (fun _ _ h hc => h.step.2 (h.step.1.mpr hc))
    fun _ _ hs => absurd hs not_mem_nil

/-! ### A dynamic network that is removed -/

def dbRoute : Route :=
  { id := "r1", netID := "db", networkType := .domain, domains := some ["db.example.com"],
    peer := "router" }

def dbNetwork : String := "db|db.example.com"

def dbAddresses : DomainMap := AList.singleton "db.example.com" [⟨[10, 0, 0, 1], 32⟩]

/-- The network appears, gets its routing peer, resolves to one address and disappears. -/
def dbRun : List ManagerEvent :=
  [.updateRoutes 1 (AList.singleton dbNetwork [dbRoute]) false,
    .routeUpdate dbNetwork 0 0 (some (dbRoute, .connected)),
    .resolve dbNetwork 0 dbAddresses,
    .updateRoutes 2 ∅ false]

/-- `RemoveRoute` forgets the address before `Stop` can give its allowed IP back. -/
theorem resolved_network_leaks : ¬ Releases dbRun := by
  rintro ⟨-, -, -, hreleased, -⟩
  have hlast := hreleased dbNetwork _ (mem_of_getElem? (i := 0) rfl) ⟨rfl, rfl⟩
  exact absurd hlast.2 (by decide)

end Netbird.Client
