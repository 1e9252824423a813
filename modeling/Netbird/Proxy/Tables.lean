/-
The tables of the proxy as one: what it keeps at each place, and how each operation changes it.

A place is the route of a service for a host name at a router, the fallback of a router, the
relay of a service, the HTTP mapping or the protection of a host, or a registration with the
client of an account.  A mapping has an entry for some of the places (`entry`), which is what a
setup writes, and a cleanup clears some places (`Cleared`), whatever they hold.

* `view_cleanupMappingRoutes`, `view_removePeer` — a cleanup empties places.

A fallback is not among the places that the cleanup of a service with a domain clears.
-/
import Netbird.Proxy.Server

namespace Netbird.Proxy

open Router Keyed

/-- A place in the tables.  The main router has no port. -/
inductive Slot
  | sni (router : Option ℕ) (host serviceID : String)
  | fallback (router : Option ℕ)
  | relay (serviceID : String)
  | mapping (host : String)
  | domain (host : String)
  | client (accountID : String) (key : ServiceKey)
  deriving DecidableEq

/-- What the tables hold. -/
inductive Entry
  | route (route : Route)
  | relay (relay : Relay)
  | mapping (mapping : Mapping)
  | domain (config : DomainConfig)
  | service (serviceID : String)

namespace Server

/-- What the proxy keeps at a place. -/
def view (s : Server) : Slot → Option Entry
  | .sni router host id => ((s.router router).bind (·.routeOf host id)).map .route
  | .fallback router => ((s.router router).bind (·.fallback)).map .route
  | .relay id => (s.udpRelays.lookup id).map .relay
  | .mapping host => (s.mappings.lookup host).map .mapping
  | .domain host => (s.domains.lookup host).map .domain
  | .client account key => (s.services.lookup (account, key)).map .service

end Server

/-- The router a layer-4 mapping is for. -/
def ProxyMapping.router (cfg : Config) (m : ProxyMapping) : Option ℕ :=
  cfg.routerKey m.listenPort.toNat

/-- What a mapping puts at a place. -/
def entry (cfg : Config) (m : ProxyMapping) : Slot → Option Entry
  | .sni router host id =>
    if host = cfg.caseMap.toLower m.domain ∧ id = m.id then
      match m.mode with
      | .http => if router = none ∧ m.path ≠ [] then some (.route (httpRoute m)) else none
      | .tls => if router = m.router cfg then some (.route (l4Route cfg m .tls)) else none
      | .tcp | .udp => none
    else none
  | .fallback router =>
    if m.mode = .tcp ∧ router = m.router cfg then some (.route (l4Route cfg m .tcp)) else none
  | .relay id =>
    if m.mode = .udp ∧ id = m.id then some (.relay (udpRelay cfg m m.listenPort.toNat)) else none
  | .mapping host =>
    if m.mode = .http ∧ m.path ≠ [] ∧ host = m.domain then some (.mapping (protoToMapping cfg m))
    else none
  | .domain host =>
    if m.mode = .http ∧ m.path ≠ [] ∧ host = m.domain then
      (domainConfig cfg m).toOption.map .domain
    else none
  | .client account key =>
    if account = m.accountId ∧ key = serviceKeyForMapping m then some (.service m.id) else none

/-- The places that the cleanup of a mapping with a domain clears, given the ports that are
kept for the service. -/
def Cleared (cfg : Config) (m : ProxyMapping) (ports : List ℕ) : Slot → Prop
  | .sni router host id => host = cfg.caseMap.toLower m.domain ∧ id = m.id ∧
      (router = none ∨ ∃ port ∈ ports, router = cfg.routerKey port)
  | .relay id => id = m.id
  | .mapping host | .domain host => host = m.domain
  | .fallback _ | .client _ _ => False

instance (cfg : Config) (m : ProxyMapping) (ports : List ℕ) : DecidablePred (Cleared cfg m ports)
  | .sni _ _ _ => inferInstanceAs (Decidable (_ ∧ _ ∧ (_ ∨ ∃ _ ∈ _, _)))
  | .relay _ | .mapping _ | .domain _ => inferInstanceAs (Decidable (_ = _))
  | .fallback _ | .client _ _ => inferInstanceAs (Decidable False)

theorem toLower_ne_empty (cm : CaseMap) {s : String} (h : s ≠ "") : cm.toLower s ≠ "" := by
  intro hs
  have hnil : s.toList.map cm.lower = [] := by
    rw [← CaseMap.toList_toLower, hs]
    rfl
  exact h (String.toList_eq_nil_iff.mp (List.map_eq_nil_iff.mp hnil))

namespace Server

variable {cfg : Config} {s : Server} {m : ProxyMapping}

/-! ### Routers -/

theorem router_onRouter (s : Server) (key k : Option ℕ) (f : Router → Router) :
    (s.onRouter key f).router k = if k = key then (s.router k).map f else s.router k := by
  rcases key with _ | port
  · cases k <;> simp [onRouter, router]
  · rcases hlookup : s.portRouters.lookup port with _ | r
    · have hsame : s.onRouter (some port) f = s := by simp [onRouter, hlookup]
      rw [hsame]
      by_cases hk : k = some port
      · simp [hk, router, hlookup]
      · rw [if_neg hk]
    · rcases k with _ | k
      · simp [onRouter, router, hlookup]
      · by_cases hk : k = port
        · subst hk
          simp [onRouter, router, hlookup]
        · simp [onRouter, router, hlookup, hk, AList.lookup_insert_ne hk]

/-- What the operations on the routers leave alone. -/
structure SameBesideRouters (s s' : Server) : Prop where
  svcPorts : s'.svcPorts = s.svcPorts
  lastMappings : s'.lastMappings = s.lastMappings
  domains : s'.domains = s.domains
  mappings : s'.mappings = s.mappings
  udpRelays : s'.udpRelays = s.udpRelays
  services : s'.services = s.services

theorem SameBesideRouters.refl (s : Server) : SameBesideRouters s s :=
  ⟨rfl, rfl, rfl, rfl, rfl, rfl⟩

theorem SameBesideRouters.trans {s₁ s₂ s₃ : Server} (h : SameBesideRouters s₁ s₂)
    (h' : SameBesideRouters s₂ s₃) : SameBesideRouters s₁ s₃ :=
  ⟨h'.1.trans h.1, h'.2.trans h.2, h'.3.trans h.3, h'.4.trans h.4, h'.5.trans h.5, h'.6.trans h.6⟩

theorem sameBesideRouters_onRouter (s : Server) (key : Option ℕ) (f : Router → Router) :
    SameBesideRouters s (s.onRouter key f) := by
  rcases key with _ | port
  · exact ⟨rfl, rfl, rfl, rfl, rfl, rfl⟩
  · rw [onRouter]
    split <;> exact ⟨rfl, rfl, rfl, rfl, rfl, rfl⟩

@[simp] theorem frame_onRouter (key : Option ℕ) (f : Router → Router) :
    (s.onRouter key f).svcPorts = s.svcPorts ∧ (s.onRouter key f).lastMappings = s.lastMappings ∧
      (s.onRouter key f).domains = s.domains ∧ (s.onRouter key f).mappings = s.mappings ∧
      (s.onRouter key f).udpRelays = s.udpRelays ∧ (s.onRouter key f).services = s.services :=
  have h := sameBesideRouters_onRouter s key f
  ⟨h.1, h.2, h.3, h.4, h.5, h.6⟩

@[simp] theorem frame_openRouter (port : ℕ) : (openRouter cfg port s).svcPorts = s.svcPorts ∧
    (openRouter cfg port s).lastMappings = s.lastMappings ∧
    (openRouter cfg port s).services = s.services := by
  rw [openRouter]
  split <;> exact ⟨rfl, rfl, rfl⟩

/-- A router that is opened or closed changes nothing if it has no routes. -/
theorem view_of_router {s' : Server} (port : ℕ) (h : SameBesideRouters s s')
    (hother : ∀ key, key ≠ some port → s'.router key = s.router key)
    (hroutes : ∀ host id, (s'.router (some port)).bind (·.routeOf host id) =
      (s.router (some port)).bind (·.routeOf host id))
    (hfallback : (s'.router (some port)).bind (·.fallback) =
      (s.router (some port)).bind (·.fallback)) (k : Slot) : s'.view k = s.view k := by
  cases k with
  | sni key host id =>
    by_cases hkey : key = some port
    · rw [view, view, hkey, hroutes]
    · rw [view, view, hother key hkey]
  | fallback key =>
    by_cases hkey : key = some port
    · rw [view, view, hkey, hfallback]
    · rw [view, view, hother key hkey]
  | relay id => rw [view, view, h.udpRelays]
  | mapping host => rw [view, view, h.mappings]
  | domain host => rw [view, view, h.domains]
  | client account key => rw [view, view, h.services]

theorem view_openRouter (port : ℕ) (k : Slot) : (openRouter cfg port s).view k = s.view k := by
  rw [openRouter]
  rcases hr : s.router (cfg.routerKey port) with _ | r
  · have hlookup : s.portRouters.lookup port = none := by
      by_cases hmain : port = 0 ∨ port = cfg.mainPort
      · simp [Config.routerKey, hmain, router] at hr
      · simpa [Config.routerKey, hmain, router] using hr
    refine view_of_router port (by exact ⟨rfl, rfl, rfl, rfl, rfl, rfl⟩) ?_ ?_ ?_ k
    · rintro (_ | p) hp
      · rfl
      · simp [router, show p ≠ port by simpa using hp]
    · simp [router, hlookup, routeOf, hostRoutes]
    · simp [router, hlookup]
  · rfl

theorem router_openRouter (cfg : Config) (port : ℕ) (s : Server) :
    ∃ r, (openRouter cfg port s).router (cfg.routerKey port) = some r := by
  rw [openRouter]
  rcases hr : s.router (cfg.routerKey port) with _ | r
  · by_cases hmain : port = 0 ∨ port = cfg.mainPort
    · simp [Config.routerKey, hmain, router] at hr
    · exact ⟨{}, by simp [Config.routerKey, hmain, router]⟩
  · exact ⟨r, hr⟩

theorem view_cleanupPortIfEmpty (port : ℕ) (k : Slot) :
    (cleanupPortIfEmpty cfg port s).view k = s.view k := by
  rw [cleanupPortIfEmpty]
  split
  · rfl
  · next p _ =>
    rcases hr : s.portRouters.lookup p with _ | r
    · rfl
    · by_cases hempty : r.isEmpty
      · simp only [if_pos hempty]
        refine view_of_router p (by exact ⟨rfl, rfl, rfl, rfl, rfl, rfl⟩) ?_ ?_ ?_ k
        · rintro (_ | q) hq
          · rfl
          · simp [router, show q ≠ p by simpa using hq]
        · simp [router, hr, routeOf_of_isEmpty hempty]
        · simp [router, hr, fallback_of_isEmpty hempty]
      · simp only [if_neg hempty]

/-! ### One operation at a time -/

section OnRouter

attribute [local simp] view router_onRouter

theorem view_addRoute {key : Option ℕ} {r : Router} (hr : s.router key = some r) {host : String}
    (hhost : cfg.caseMap.toLower host ≠ "") (route : Route) (k : Slot) :
    (s.onRouter key (·.addRoute cfg.caseMap host route)).view k =
      if k = .sni key (cfg.caseMap.toLower host) route.serviceID then some (.route route)
      else s.view k := by
  cases k with
  | sni key' h id =>
    by_cases hkey : key' = key
    · subst hkey
      simp only [view, router_onRouter, hr, if_true, Option.map_some, Option.bind_some,
        routeOf_addRoute hhost, Slot.sni.injEq, true_and]
      split <;> rfl
    · simp [hkey]
  | fallback key' =>
    by_cases hkey : key' = key
    · subst hkey
      simp [hr]
    · simp [hkey]
  | _ => simp

theorem view_removeRoute (key : Option ℕ) (host svcID : String) (k : Slot) :
    (s.onRouter key (·.removeRoute cfg.caseMap host svcID)).view k =
      if k = .sni key (cfg.caseMap.toLower host) svcID then none else s.view k := by
  cases k with
  | sni key' h id =>
    by_cases hkey : key' = key
    · subst hkey
      rcases hr : s.router key' with _ | r
      · simp [hr]
      · simp only [view, router_onRouter, hr, if_true, Option.map_some, Option.bind_some,
          routeOf_removeRoute, Slot.sni.injEq, true_and]
        split <;> rfl
    · simp [hkey]
  | fallback key' =>
    by_cases hkey : key' = key
    · subst hkey
      cases hr : s.router key' <;> simp [hr]
    · simp [hkey]
  | _ => simp

theorem view_setFallback {key : Option ℕ} {r : Router} (hr : s.router key = some r) (route : Route)
    (k : Slot) : (s.onRouter key (·.setFallback route)).view k =
      if k = .fallback key then some (.route route) else s.view k := by
  cases k with
  | sni key' h id =>
    by_cases hkey : key' = key
    · subst hkey
      simp [hr, setFallback, routeOf, hostRoutes]
    · simp [hkey]
  | fallback key' =>
    by_cases hkey : key' = key
    · subst hkey
      simp [hr, setFallback]
    · simp [hkey]
  | _ => simp

end OnRouter

theorem view_addDomain (d : String) (config : DomainConfig) (k : Slot) :
    (s.addDomain d config).view k = if k = .domain d then some (.domain config) else s.view k := by
  cases k with
  | domain host =>
    simp only [view, addDomain, lookup_insert_ite, Slot.domain.injEq]
    split <;> rfl
  | _ => rfl

theorem view_removeDomain (d : String) (k : Slot) :
    (s.removeDomain d).view k = if k = .domain d then none else s.view k := by
  cases k with
  | domain host =>
    simp only [view, removeDomain, lookup_erase_ite, Slot.domain.injEq]
    split <;> rfl
  | _ => rfl

theorem view_addHTTPMapping (mapping : Mapping) (k : Slot) : (s.addHTTPMapping mapping).view k =
      if k = .mapping mapping.host then some (.mapping mapping) else s.view k := by
  cases k with
  | mapping host =>
    simp only [view, addHTTPMapping, lookup_insert_ite, Slot.mapping.injEq]
    split <;> rfl
  | _ => rfl

theorem view_removeHTTPMapping (host : String) (k : Slot) :
    (s.removeHTTPMapping host).view k = if k = .mapping host then none else s.view k := by
  cases k with
  | mapping h =>
    simp only [view, removeHTTPMapping, lookup_erase_ite, Slot.mapping.injEq]
    split <;> rfl
  | _ => rfl

theorem view_startUDPRelay (relay : Relay) (k : Slot) : (s.startUDPRelay relay).view k =
      if k = .relay relay.serviceID then some (.relay relay) else s.view k := by
  cases k with
  | relay id =>
    simp only [view, startUDPRelay, lookup_insert_ite, Slot.relay.injEq]
    split <;> rfl
  | _ => rfl

variable (svcID : String) (k : Slot)

theorem view_removeUDPRelay :
    (s.removeUDPRelay svcID).view k = if k = .relay svcID then none else s.view k := by
  cases k with
  | relay id =>
    simp only [view, removeUDPRelay, lookup_erase_ite, Slot.relay.injEq]
    split <;> rfl
  | _ => rfl

@[simp] theorem view_setSvcPorts (ports : List ℕ) (k : Slot) :
    (s.setSvcPorts svcID ports).view k = s.view k := by
  cases k <;> rfl

@[simp] theorem view_deleteSvcPorts : (s.deleteSvcPorts svcID).view k = s.view k := by
  cases k <;> rfl

@[simp] theorem view_storeMapping (mapping : ProxyMapping) (k : Slot) :
    (s.storeMapping mapping).view k = s.view k := by
  cases k <;> rfl

@[simp] theorem view_deleteMapping : (s.deleteMapping svcID).view k = s.view k := by
  cases k <;> rfl

theorem view_removePeer (account : String) (key : ServiceKey) (k : Slot) :
    (s.removePeer account key).view k = if k = .client account key then none else s.view k := by
  cases k with
  | client a key' =>
    simp only [view, removePeer, lookup_erase_ite, Slot.client.injEq, Prod.mk.injEq]
    split <;> rfl
  | _ => rfl

theorem view_registered : (s.registered m).view k =
    if k = .client m.accountId (serviceKeyForMapping m) then some (.service m.id) else s.view k := by
  cases k with
  | client a key =>
    simp only [view, registered, lookup_insert_ite, Slot.client.injEq, Prod.mk.injEq]
    split <;> rfl
  | _ => rfl

/-! ### Setup and cleanup -/

section Written

variable (hvalid : Valid cfg m) (hdomain : m.domain ≠ "") (k : Slot)
  (hclient : ∀ account key, k ≠ .client account key)

include hclient

include hvalid hdomain in
theorem view_written_http (hmode : m.mode = .http) :
    (written cfg m s).view k = (entry cfg m k <|> s.view k) := by
  simp only [written, hmode]
  rcases hpath : m.path with _ | ⟨p, ps⟩
  · cases k <;> simp_all [entry]
  · obtain ⟨config, hconfig⟩ := hvalid.config hmode (by simp [hpath])
    have hroute := view_addRoute (s := s) (r := s.mainRouter) (show s.router none = _ from rfl)
      (toLower_ne_empty cfg.caseMap hdomain) (httpRoute m) k
    simp only [hconfig, view_addHTTPMapping, view_addDomain, hroute]
    cases k with
    | sni router host id =>
      simp only [entry, hmode, hpath, httpRoute, Slot.sni.injEq, reduceCtorEq, if_false]
      grind
    | mapping host =>
      simp only [entry, hmode, hpath, protoToMapping, Slot.mapping.injEq, reduceCtorEq, if_false]
      grind
    | domain host =>
      simp only [entry, hmode, hpath, hconfig, Slot.domain.injEq, reduceCtorEq, if_false]
      grind [Except.toOption]
    | _ => simp_all [entry]

theorem view_written_tcp (hmode : m.mode = .tcp) :
    (written cfg m s).view k = (entry cfg m k <|> s.view k) := by
  obtain ⟨r, hr⟩ := router_openRouter cfg m.listenPort.toNat s
  simp only [written, hmode, view_setSvcPorts]
  rw [view_setFallback hr, view_openRouter]
  cases k with
  | fallback router =>
    simp only [entry, hmode, ProxyMapping.router, Slot.fallback.injEq, true_and]
    split <;> simp
  | _ => simp_all [entry]

theorem view_written_udp (hmode : m.mode = .udp) :
    (written cfg m s).view k = (entry cfg m k <|> s.view k) := by
  simp only [written, hmode, view_startUDPRelay, view_removeUDPRelay]
  cases k with
  | relay id =>
    simp only [entry, hmode, udpRelay, Slot.relay.injEq, true_and]
    split <;> simp
  | _ => simp_all [entry]

include hdomain in
theorem view_written_tls (hmode : m.mode = .tls) :
    (written cfg m s).view k = (entry cfg m k <|> s.view k) := by
  obtain ⟨r, hr⟩ := router_openRouter cfg m.listenPort.toNat s
  have hroute := view_addRoute hr (toLower_ne_empty cfg.caseMap hdomain) (l4Route cfg m .tls) k
  have hview : (written cfg m s).view k = ((openRouter cfg m.listenPort.toNat s).onRouter
      (cfg.routerKey m.listenPort.toNat)
      (·.addRoute cfg.caseMap m.domain (l4Route cfg m .tls))).view k := by
    simp only [written, hmode]
    split
    · rfl
    · rw [view_setSvcPorts]
  rw [hview, hroute, view_openRouter]
  cases k with
  | sni router host id =>
    simp only [entry, hmode, l4Route, ProxyMapping.router, Slot.sni.injEq]
    grind
  | _ => simp_all [entry]

include hvalid hdomain in
/-- **A setup writes the entries of the mapping**, beside its registration, and leaves every
other place as it was. -/
theorem view_written : (written cfg m s).view k = (entry cfg m k <|> s.view k) := by
  cases hmode : m.mode with
  | http => exact view_written_http hvalid hdomain k hclient hmode
  | tcp => exact view_written_tcp k hclient hmode
  | udp => exact view_written_udp k hclient hmode
  | tls => exact view_written_tls hdomain k hclient hmode

end Written

/-- The ports that are kept for a service once its mapping is set up: those that a setup does not
set stay as they were. -/
def portsOf (cfg : Config) (m : ProxyMapping) : Option (List ℕ) :=
  match m.mode with
  | .tcp => some [m.listenPort.toNat]
  | .tls => if m.listenPort.toNat = cfg.mainPort then none else some [m.listenPort.toNat]
  | .http | .udp => none

/-- Of the rest, a setup changes neither the registrations nor the stored mappings. -/
theorem kept_written : (∀ id, (written cfg m s).svcPorts.lookup id =
      if id = m.id then portsOf cfg m <|> s.svcPorts.lookup id else s.svcPorts.lookup id) ∧
    (written cfg m s).services = s.services ∧ (written cfg m s).lastMappings = s.lastMappings := by
  rw [written, portsOf]
  cases m.mode with
  | http =>
    dsimp only
    split <;> simp [addHTTPMapping, addDomain]
  | tcp => simp [setSvcPorts, lookup_insert_ite]
  | udp => simp [startUDPRelay, removeUDPRelay]
  | tls =>
    dsimp only
    split <;> simp [setSvcPorts, lookup_insert_ite]

/-! ### Cleanup -/

theorem sameBesideRouters_cleanupPort (cfg : Config) (m : ProxyMapping) (s : Server) (port : ℕ) :
    SameBesideRouters s (cleanupPort cfg m s port) := by
  unfold cleanupPort
  generalize hs : s.onRouter _ _ = s₁
  refine (hs ▸ sameBesideRouters_onRouter s _ _ : SameBesideRouters s s₁).trans ?_
  rw [cleanupPortIfEmpty]
  repeat' split
  all_goals exact ⟨rfl, rfl, rfl, rfl, rfl, rfl⟩

theorem sameBesideRouters_foldl_cleanupPort (cfg : Config) (m : ProxyMapping) (ports : List ℕ)
    (s : Server) : SameBesideRouters s (ports.foldl (cleanupPort cfg m) s) := by
  induction ports generalizing s with
  | nil => exact .refl s
  | cons port ports ih => exact (sameBesideRouters_cleanupPort cfg m s port).trans (ih _)

section Cleanup

variable (hdomain : m.domain ≠ "")

include hdomain

theorem view_cleanupPort (port : ℕ) (k : Slot) : (cleanupPort cfg m s port).view k =
      if k = .sni (cfg.routerKey port) (cfg.caseMap.toLower m.domain) m.id then none
      else s.view k := by
  rw [cleanupPort, view_cleanupPortIfEmpty]
  simp only [hdomain, ne_eq, not_false_eq_true, if_true]
  exact view_removeRoute (cfg.routerKey port) m.domain m.id k

theorem view_foldl_cleanupPort (ports : List ℕ) (k : Slot) :
    (ports.foldl (cleanupPort cfg m) s).view k =
      if ∃ port ∈ ports, k = .sni (cfg.routerKey port) (cfg.caseMap.toLower m.domain) m.id then none
      else s.view k := by
  induction ports generalizing s with
  | nil => simp
  | cons port ports ih =>
    rw [List.foldl_cons, ih, view_cleanupPort hdomain]
    by_cases hport : k = .sni (cfg.routerKey port) (cfg.caseMap.toLower m.domain) m.id
    · rw [if_pos hport, ite_self, if_pos ⟨port, List.mem_cons_self, hport⟩]
    · simp only [List.exists_mem_cons_iff, hport, false_or, if_false]

theorem cleanupMappingRoutes_eq : cleanupMappingRoutes cfg m s =
    (((s.svcPorts.lookup m.id).getD []).foldl (cleanupPort cfg m)
      ((((s.removeDomain m.domain).removeHTTPMapping m.domain).onRouter none
        (·.removeRoute cfg.caseMap m.domain m.id)).deleteSvcPorts m.id)).removeUDPRelay m.id := by
  rw [cleanupMappingRoutes, if_pos hdomain]
  rfl

/-- **A cleanup empties the places it clears**, and leaves every other place as it was. -/
theorem view_cleanupMappingRoutes (k : Slot) : (cleanupMappingRoutes cfg m s).view k =
      if Cleared cfg m ((s.svcPorts.lookup m.id).getD []) k then none else s.view k := by
  rw [cleanupMappingRoutes_eq hdomain]
  simp only [view_removeUDPRelay, view_foldl_cleanupPort hdomain, view_deleteSvcPorts,
    view_removeRoute, view_removeHTTPMapping, view_removeDomain, ← ite_or]
  refine if_congr ?_ rfl rfl
  cases k with
  | sni router host id =>
    simp only [Cleared, Slot.sni.injEq, reduceCtorEq, false_or, or_false]
    constructor
    · rintro (⟨port, hport, hrouter, hhost, hid⟩ | ⟨hrouter, hhost, hid⟩)
      · exact ⟨hhost, hid, .inr ⟨port, hport, hrouter⟩⟩
      · exact ⟨hhost, hid, .inl hrouter⟩
    · rintro ⟨hhost, hid, hrouter | ⟨port, hport, hrouter⟩⟩
      · exact .inr ⟨hrouter, hhost, hid⟩
      · exact .inl ⟨port, hport, hrouter, hhost, hid⟩
  | _ => simp [Cleared]

theorem svcPorts_cleanupMappingRoutes (id : String) :
    (cleanupMappingRoutes cfg m s).svcPorts.lookup id =
      if id = m.id then none else s.svcPorts.lookup id := by
  rw [cleanupMappingRoutes_eq hdomain]
  simp only [removeUDPRelay, (sameBesideRouters_foldl_cleanupPort cfg m _ _).svcPorts,
    deleteSvcPorts, lookup_erase_ite, frame_onRouter]
  rfl

theorem lastMappings_cleanupMappingRoutes :
    (cleanupMappingRoutes cfg m s).lastMappings = s.lastMappings := by
  rw [cleanupMappingRoutes_eq hdomain]
  simp only [removeUDPRelay, (sameBesideRouters_foldl_cleanupPort cfg m _ _).lastMappings,
    deleteSvcPorts, frame_onRouter]
  rfl

end Cleanup

end Server

end Netbird.Proxy
