/-
The answer of `GetMachineRoutes`, made from the network map of a machine.

The handler lists the enabled routes of the map and then looks for the peers they lead through.
It collects the `Peer` fields of the routes, which hold WireGuard keys in a network map, and
looks the peers up by their IDs.

* `route_peer_is_key` — every enabled route of a map carries the key of a peer of the account;
* `machineRoutes_spec` — the routes and networks are right for every map, and when the router
  peers are.
-/
import Netbird.NetworkMap.RouteAgreement

namespace Netbird

open List Except

/-! ### The response -/

/-- `proto.Route`. -/
structure ProtoRoute where
  id : String
  network : String
  netID : String
  peer : String
  metric : ℤ
  masquerade : Bool
  networkType : NetworkType
  deriving DecidableEq

/-- `proto.RemotePeerConfig`. -/
structure RemotePeerConfig where
  wgPubKey : String
  fqdn : String
  allowedIps : List String
  deriving DecidableEq

/-- `proto.MachineRoutesResponse`. -/
structure MachineRoutesResponse where
  routes : List ProtoRoute := []
  dcNetworks : List String := []
  routerPeers : List RemotePeerConfig := []
  deriving DecidableEq

def Route.toProto (r : Route) : ProtoRoute where
  id := r.id
  network := r.network.text
  netID := r.netID
  peer := r.peer
  metric := r.metric
  masquerade := r.masquerade
  networkType := r.networkType

def Peer.remotePeerConfig (dnsDomain : String) (p : Peer) : RemotePeerConfig where
  wgPubKey := p.key
  fqdn := p.dnsLabel ++ "." ++ dnsDomain
  allowedIps := [p.ipText ++ "/32"]

/-- One route of the loop, with the collected `routerPeerIDs`. -/
def MachineRoutesResponse.addRoute (st : MachineRoutesResponse × List String) (r : Route) :
    MachineRoutesResponse × List String :=
  if !r.enabled then st
  else
    ({ st.1 with
        routes := st.1.routes ++ [r.toProto]
        dcNetworks := st.1.dcNetworks ++ [r.network.text] },
      if r.peer ≠ "" then r.peer :: st.2 else st.2)

/-- The part of `GetMachineRoutes` after `SyncPeer` and `GetDNSDomain`; the map may be nil. -/
def getMachineRoutes (netMap : Option NetworkMap) (dnsDomain : String) : MachineRoutesResponse :=
  match netMap with
  | none => {}
  | some m =>
    let (resp, routerPeerIDs) := m.routes.foldl MachineRoutesResponse.addRoute ({}, [])
    { resp with
      routerPeers := (m.peers.filter (·.id ∈ routerPeerIDs)).map (·.remotePeerConfig dnsDomain) }

/-- A listed route names this as its peer. -/
def NetworkMap.Leads (m : NetworkMap) (peer : String) : Prop :=
  ∃ r ∈ m.routes, r.enabled = true ∧ r.peer = peer

theorem MachineRoutesResponse.foldl_addRoute (routes : List Route)
    (st : MachineRoutesResponse × List String) : (routes.foldl addRoute st).1 =
        { st.1 with
          routes := st.1.routes ++ (routes.filter (·.enabled)).map Route.toProto
          dcNetworks := st.1.dcNetworks ++ (routes.filter (·.enabled)).map (·.network.text) } ∧
      ∀ x, x ∈ (routes.foldl addRoute st).2 ↔
        x ∈ st.2 ∨ x ≠ "" ∧ ∃ r ∈ routes, r.enabled = true ∧ r.peer = x := by
  induction routes generalizing st with
  | nil => simp
  | cons r routes ih =>
    obtain ⟨hresp, hids⟩ := ih (addRoute st r)
    refine ⟨hresp.trans ?_, fun x => (hids x).trans ?_⟩
    · cases hen : r.enabled <;> simp [addRoute, hen]
    · cases hen : r.enabled with
      | false => simp [addRoute, hen]
      | true =>
        by_cases hempty : r.peer = ""
        · simp only [addRoute, hen, hempty, Bool.not_true, Bool.false_eq_true, if_false, ne_eq,
            not_true_eq_false, exists_mem_cons_iff, true_and]
          grind
        · simp only [addRoute, hen, hempty, Bool.not_true, Bool.false_eq_true, if_false, ne_eq,
            not_false_eq_true, if_true, mem_cons]
          grind

/-! ### Routes carry keys -/

theorem TakenRoutes.key_of_mem_enabled {v : View} {keyDisabled : Bool} {routes : List Route}
    {peer : Peer} {peerID : String} {route : Route}
    (h : route ∈ (v.routingPeerRoutes keyDisabled routes (some peer) peerID).enabled) :
    route.peer = peer.key := by
  exact taken_induction (M := fun st => ∀ route ∈ st.enabled, route.peer = peer.key)
    (fun _ hnil => by cases hnil) (fun st hst _ _ _ _ => enabled_take hst fun _ => rfl) route h

namespace Account

variable {env : MapEnv} {a : Account} {args : MapArgs} {peerID : String} {m : NetworkMap}

theorem key_of_served {p : String} {r : Route}
    (h : r ∈ (a.getRoutingPeerRoutes args.validatedPeers p).enabled) :
    ∃ q ∈ a.peers, r.peer = q.key := by
  rw [getRoutingPeerRoutes] at h
  rcases hget : a.getPeer p with _ | q
  · rw [hget] at h
    cases h
  · rw [hget] at h
    exact ⟨q, mem_of_find?_eq_some hget, TakenRoutes.key_of_mem_enabled h⟩

/-- The loop over the resources only adds routes through peers of the account. -/
theorem key_of_resource {sync : ResourceSync (Option Route)}
    (h : a.getNetworkResourcesRoutesToSync env args peerID = .ok sync) :
    ∀ r, some r ∈ sync.routes → ∃ q ∈ a.peers, r.peer = q.key := by
  have hroutes : ∀ resource p router, ∀ r, some r ∈ a.getNetworkResourcesRoutes env args resource p
      router → ∃ q ∈ a.peers, r.peer = q.key := by
    intro resource p router r hr
    rw [getNetworkResourcesRoutes] at hr
    split_ifs at hr
    · rcases hget : a.getPeer p with _ | q
      · simp [hget] at hr
      · rw [hget, mem_singleton] at hr
        exact ⟨q, mem_of_find?_eq_some hget, (NetworkResource.toRoute_eq_some hr.symm).2.1⟩
    · cases hr
  refine foldlM_invariant (P := fun st : ResourceSync (Option Route) => ∀ r, some r ∈ st.routes →
    ∃ q ∈ a.peers, r.peer = q.key) h (fun _ hnil => by cases hnil) ?_
  intro resource _ st st' hstep hst r hr
  rw [View.syncResource] at hstep
  split_ifs at hstep
  · rw [← ok.inj hstep] at hr
    exact hst r hr
  · dsimp only at hstep
    split at hstep
    · obtain ⟨sources, -, hstep⟩ := bind_eq_ok.mp hstep
      rw [← ok.inj hstep] at hr
      rcases mem_append.mp hr with hr | hr
      · exact hst r hr
      · exact hroutes _ _ _ r hr
    · obtain ⟨admitted, -, hstep⟩ := bind_eq_ok.mp hstep
      split_ifs at hstep
      · rw [← ok.inj hstep] at hr
        rcases mem_append.mp hr with hr | hr
        · exact hst r hr
        · obtain ⟨e, -, hr⟩ := mem_flatMap.mp hr
          exact hroutes _ _ _ r hr
      · rw [← ok.inj hstep] at hr
        exact hst r hr

/-- **The routes of a network map carry keys**: of peers of the account. -/
theorem route_peer_is_key (h : a.getPeerNetworkMap env args peerID = .ok m) {r : Route}
    (hr : r ∈ m.routes) : ∃ q ∈ a.peers, r.peer = q.key := by
  rw [getPeerNetworkMap] at h
  rcases hget : a.getPeer peerID with _ | peer
  · rw [hget] at h
    rw [← ok.inj h] at hr
    cases hr
  · rw [hget] at h
    split_ifs at h
    · obtain ⟨parts, hparts, hm⟩ := bind_eq_ok.mp h
      obtain ⟨sync, hsync, hparts⟩ := bind_eq_ok.mp hparts
      obtain ⟨routes, hroutes, hparts⟩ := bind_eq_ok.mp hparts
      rw [← ok.inj hm, ← ok.inj hparts] at hr
      rcases mem_append.mp hr with hr | hr
      · have hsome := Checked.mapM_deref_eq_ok.mp hroutes
        exact key_of_resource hsync r (hsome ▸ mem_map_of_mem hr)
      rcases mem_append.mp hr with hr | hr
      · exact key_of_served hr
      · obtain ⟨q, -, hr⟩ := mem_flatMap.mp hr
        exact key_of_served (mem_filter.mp (mem_filter.mp hr).1).1
    · rw [← ok.inj h] at hr
      cases hr

/-- **The answer** lists the enabled routes and their networks. A peer of the map has an entry
among the router peers exactly if it is the routing peer of a listed route, for all peers, if and
only if listed routes name keys just where they name IDs; with no ID being a key, that is if no
peer of the map is a routing peer. -/
theorem machineRoutes_spec (h : a.getPeerNetworkMap env args peerID = .ok m) (dnsDomain : String) :
    let resp := getMachineRoutes (some m) dnsDomain
    let Right := ∀ p ∈ m.peers, (∃ c ∈ resp.routerPeers, c.wgPubKey = p.key) ↔ m.Leads p.key
    resp.routes = (m.routes.filter (·.enabled)).map Route.toProto ∧
      resp.dcNetworks = (m.routes.filter (·.enabled)).map (·.network.text) ∧
      (Right ↔ ∀ p ∈ m.peers, (∃ q ∈ m.peers, q.key = p.key ∧ q.id ≠ "" ∧ m.Leads q.id) ↔
        m.Leads p.key) ∧ ((∀ p ∈ m.peers, ∀ q ∈ a.peers, p.id ≠ q.key) →
        (Right ↔ ∀ p ∈ m.peers, ¬ m.Leads p.key)) := by
  intro resp Right
  obtain ⟨hresp, hids⟩ := MachineRoutesResponse.foldl_addRoute m.routes ({}, [])
  have hright : Right ↔ ∀ p ∈ m.peers,
      (∃ q ∈ m.peers, q.key = p.key ∧ q.id ≠ "" ∧ m.Leads q.id) ↔ m.Leads p.key := by
    refine forall_congr' fun p => forall_congr' fun _ => iff_congr ?_ Iff.rfl
    constructor
    · rintro ⟨c, hc, hkey⟩
      obtain ⟨q, hq, rfl⟩ := mem_map.mp hc
      obtain ⟨hq, hid⟩ := mem_filter.mp hq
      have hnamed := ((hids q.id).mp (of_decide_eq_true hid)).resolve_left not_mem_nil
      exact ⟨q, hq, hkey, hnamed⟩
    · rintro ⟨q, hq, hkey, hnamed⟩
      have hid := (hids q.id).mpr (.inr hnamed)
      exact ⟨_, mem_map_of_mem (mem_filter.mpr ⟨hq, decide_eq_true hid⟩), hkey⟩
  -- routes name the keys of their peers, so no ID is among them if IDs are not keys
  refine ⟨?_, ?_, hright, fun hdistinct => hright.trans ?_⟩
  · exact congrArg MachineRoutesResponse.routes hresp
  · exact congrArg MachineRoutesResponse.dcNetworks hresp
  · refine forall_congr' fun p => forall_congr' fun hp => ?_
    refine ⟨fun hiff hleads => ?_, fun hno => ⟨fun ⟨q, hq, _, _, hleads⟩ => ?_, fun hleads => ?_⟩⟩
    · obtain ⟨q, hq, -, -, r, hr, -, hpeer⟩ := hiff.mpr hleads
      obtain ⟨k, hk, hkey⟩ := route_peer_is_key h hr
      exact hdistinct q hq k hk (hpeer.symm.trans hkey)
    · obtain ⟨r, hr, -, hpeer⟩ := hleads
      obtain ⟨k, hk, hkey⟩ := route_peer_is_key h hr
      exact absurd (hpeer.symm.trans hkey) (hdistinct q hq k hk)
    · exact absurd hleads hno

end Account

/-! ### An account with a route -/

/-- The map of the routing peer itself: nothing it is connected to is a routing peer. -/
theorem server_router_peers_right :
    ∃ m, routedAccount.getPeerNetworkMap plainEnv routedArgs "server" = .ok m ∧
      m.peers = [laptop] ∧ (getMachineRoutes (some m) "netbird.cloud").routes.length = 1 ∧
      ∀ p ∈ m.peers, (∃ c ∈ (getMachineRoutes (some m) "netbird.cloud").routerPeers,
        c.wgPubKey = p.key) ↔ m.Leads p.key := by
  have hmap : routedAccount.getPeerNetworkMap plainEnv routedArgs "server" = .ok _ := rfl
  refine ⟨_, hmap, rfl, rfl, ?_⟩
  refine ((Account.machineRoutes_spec hmap "netbird.cloud").2.2.2 (by decide)).mpr ?_
  rintro p hp ⟨r, hr, -, hpeer⟩
  have hne : ∀ p ∈ [laptop], ∀ r ∈ [{ officeRoute with peer := server.key }], r.peer ≠ p.key := by
    decide
  exact hne p hp r hr hpeer

/-- The laptop is sent a route through the server, and no router peer. -/
theorem laptop_misses_router :
    ∃ m, routedAccount.getPeerNetworkMap plainEnv routedArgs "laptop" = .ok m ∧
      server ∈ m.peers ∧ m.Leads server.key ∧
      (getMachineRoutes (some m) "netbird.cloud").routerPeers = [] :=
  ⟨_, rfl, by decide, ⟨_, mem_singleton_self _, rfl, rfl⟩, rfl⟩

end Netbird
