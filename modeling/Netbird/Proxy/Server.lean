/-
The state of the reverse proxy that mappings change, and how the mapping worker changes it.

A connection to the main port or to the port of a layer-4 service is routed by the name it asks
for, or by the fallback of the port.  UDP services have relays of their own.  A request to an
HTTP service is checked against the protected domains and then forwarded by the HTTP mappings.
The services of an account share one client, which exists as long as a service is registered
with it.

`Server.process` is one turn of `processMappings`.  A setup that fails is undone as the source
undoes it, the failure is reported and the worker goes on.

* `setupMappingRoutes_iff` — a setup succeeds with valid data, and leaves what `Server.written`
  says;
* `setupMappingRoutes_ideal` — where nothing outside fails, valid data suffices.
-/
import Netbird.Lib.Command
import Netbird.Lib.Keyed
import Netbird.Proxy.Mapping

namespace Netbird.Proxy

open Command AList

/-! ### Routers -/

/-- The loop of `AddRoute`: the route takes the place of the one its service has, or is
appended. -/
def replaceRoute (route : Route) : List Route → List Route
  | [] => [route]
  | r :: rs => if r.serviceID = route.serviceID then route :: rs else r :: replaceRoute route rs

theorem map_replaceRoute (route : Route) (l : List Route) :
    (replaceRoute route l).map (·.serviceID) =
      if route.serviceID ∈ l.map (·.serviceID) then l.map (·.serviceID)
      else l.map (·.serviceID) ++ [route.serviceID] := by
  induction l with
  | nil => rfl
  | cons r rs ih =>
    rw [replaceRoute]
    by_cases h : r.serviceID = route.serviceID
    · simp [h]
    · rw [if_neg h, List.map_cons, ih]
      have hmem : route.serviceID ∈ (r :: rs).map (·.serviceID) ↔
          route.serviceID ∈ rs.map (·.serviceID) := by
        simp [Ne.symm h]
      simp only [hmem]
      split <;> rfl

theorem find?_replaceRoute (route : Route) (l : List Route) (id : String) :
    (replaceRoute route l).find? (·.serviceID = id) =
      if id = route.serviceID then some route else l.find? (·.serviceID = id) := by
  induction l with
  | nil => by_cases h : id = route.serviceID <;> simp [replaceRoute, h, eq_comm]
  | cons r rs ih =>
    rw [replaceRoute]
    by_cases hr : r.serviceID = route.serviceID
    · rw [if_pos hr]
      by_cases h : id = route.serviceID
      · simp [h]
      · simp [hr, h, Ne.symm h]
    · rw [if_neg hr, List.find?_cons, ih]
      by_cases h : r.serviceID = id
      · subst h
        simp [hr]
      · simp [h]

/-- The routes of one host name: a service has at most one of them. -/
structure HostRoutes where
  list : List Route
  nodup : (list.map (·.serviceID)).Nodup

namespace HostRoutes

def empty : HostRoutes := ⟨[], List.nodup_nil⟩

variable (l : HostRoutes)

def add (route : Route) : HostRoutes where
  list := replaceRoute route l.list
  nodup := by
    rw [map_replaceRoute]
    split
    · exact l.nodup
    · next h => exact (List.nodup_append_comm.mp (List.nodup_cons.mpr ⟨h, l.nodup⟩))

def remove (serviceID : String) : HostRoutes where
  list := l.list.filter (·.serviceID ≠ serviceID)
  nodup := l.nodup.sublist (List.filter_sublist.map _)

def ofService (serviceID : String) : Option Route :=
  l.list.find? (·.serviceID = serviceID)

@[simp] theorem ofService_empty (id : String) : empty.ofService id = none := rfl

@[simp] theorem ofService_add (route : Route) (id : String) :
    (l.add route).ofService id = if id = route.serviceID then some route else l.ofService id :=
  find?_replaceRoute route l.list id

@[simp] theorem ofService_remove (svcID id : String) :
    (l.remove svcID).ofService id = if id = svcID then none else l.ofService id :=
  Keyed.find?_filter_ne Route.serviceID l.list svcID id

end HostRoutes

/-- `nbtcp.Router`, without the connections it serves. -/
structure Router where
  routes : StringMap HostRoutes := ∅
  fallback : Option Route := none

namespace Router

variable (cm : CaseMap) (r : Router)

def hostRoutes (host : String) : HostRoutes :=
  (r.routes.lookup host).getD .empty

def routeOf (host serviceID : String) : Option Route :=
  (r.hostRoutes host).ofService serviceID

def addRoute (host : String) (route : Route) : Router :=
  let host := cm.toLower host
  if host = "" then r
  else { r with routes := r.routes.insert host ((r.hostRoutes host).add route) }

def removeRoute (host svcID : String) : Router :=
  let host := cm.toLower host
  let left := (r.hostRoutes host).remove svcID
  if left.list = [] then { r with routes := r.routes.erase host }
  else { r with routes := r.routes.insert host left }

def setFallback (route : Route) : Router :=
  { r with fallback := some route }

def removeFallback : Router :=
  { r with fallback := none }

def isEmpty (r : Router) : Bool :=
  r.routes.keys.isEmpty && r.fallback.isNone

variable {cm} {r : Router}

@[simp] theorem routeOf_addRoute {host : String} (hhost : cm.toLower host ≠ "") (route : Route)
    (h id : String) : (r.addRoute cm host route).routeOf h id =
      if h = cm.toLower host ∧ id = route.serviceID then some route else r.routeOf h id := by
  simp only [addRoute, if_neg hhost, routeOf, hostRoutes]
  by_cases hh : h = cm.toLower host
  · subst hh
    simp
  · rw [lookup_insert_ne hh, if_neg fun hand => hh hand.1]

@[simp] theorem routeOf_removeRoute (host svcID h id : String) :
    (r.removeRoute cm host svcID).routeOf h id =
      if h = cm.toLower host ∧ id = svcID then none else r.routeOf h id := by
  simp only [removeRoute]
  by_cases hh : h = cm.toLower host
  · -- a host without a route left has no entry, which reads as the empty list
    have hleft := HostRoutes.ofService_remove (r.hostRoutes (cm.toLower host)) svcID id
    rw [hh, routeOf, routeOf]
    simp only [true_and]
    rw [← hleft]
    split_ifs with hnil
    · have hnone : ((r.hostRoutes (cm.toLower host)).remove svcID).ofService id = none := by
        rw [HostRoutes.ofService, hnil]
        rfl
      rw [hnone]
      simp [hostRoutes]
    · simp [hostRoutes]
  · rw [if_neg (fun hand => hh hand.1 : ¬ (h = cm.toLower host ∧ id = svcID))]
    split <;> simp [routeOf, hostRoutes, lookup_insert_ne hh, lookup_erase_ne hh]

@[simp] theorem fallback_addRoute (host : String) (route : Route) :
    (r.addRoute cm host route).fallback = r.fallback := by
  simp only [addRoute]
  split <;> rfl

@[simp] theorem fallback_removeRoute (host svcID : String) :
    (r.removeRoute cm host svcID).fallback = r.fallback := by
  simp only [removeRoute]
  split <;> rfl

theorem routeOf_of_isEmpty (h : r.isEmpty) (host id : String) : r.routeOf host id = none := by
  have hkeys : r.routes.keys = [] := by simpa [isEmpty] using (Bool.and_eq_true_iff.mp h).1
  have hnone : r.routes.lookup host = none := by
    rw [AList.lookup_eq_none, AList.mem_keys, hkeys]
    exact List.not_mem_nil
  simp [routeOf, hostRoutes, hnone]

theorem fallback_of_isEmpty (h : r.isEmpty) : r.fallback = none := by
  simpa using (Bool.and_eq_true_iff.mp h).2

end Router

/-! ### The state -/

/-- The tables of the proxy. -/
structure Server where
  mainRouter : Router := {}
  portRouters : AList (fun _ : ℕ => Router) := ∅
  /-- the ports at which a service has its route or fallback, if cleanup has to look there -/
  svcPorts : StringMap (List ℕ) := ∅
  /-- the mapping of each service that was set up last -/
  lastMappings : StringMap ProxyMapping := ∅
  /-- the protected domains of the authentication layer -/
  domains : StringMap DomainConfig := ∅
  /-- the HTTP mappings, by host -/
  mappings : StringMap Mapping := ∅
  udpRelays : StringMap Relay := ∅
  /-- the services registered with the client of an account, by account and key -/
  services : AList (fun _ : String × ServiceKey => String) := ∅

/-- What happens outside while one mapping is set up: the errors of creating a client and of
opening a listener, if they fail. -/
structure Outside where
  createClient : Option String := none
  listenTCP : Option String := none
  listenUDP : Option String := none

/-- Nothing fails. -/
def Outside.ideal : Outside := {}

inductive UpdateType
  | created
  | modified
  | removed
  deriving DecidableEq

structure Message where
  type : UpdateType
  mapping : ProxyMapping
  deriving DecidableEq

/-- Which router serves a port: the main one, or the one of the port. -/
def Config.routerKey (cfg : Config) (port : ℕ) : Option ℕ :=
  if port = 0 ∨ port = cfg.mainPort then none else some port

namespace Server

/-! ### The operations on the tables -/

variable (s : Server)

def router : Option ℕ → Option Router
  | none => some s.mainRouter
  | some port => s.portRouters.lookup port

/-- Change a router that exists. -/
def onRouter (key : Option ℕ) (f : Router → Router) : Server :=
  match key with
  | none => { s with mainRouter := f s.mainRouter }
  | some port =>
    match s.portRouters.lookup port with
    | some r => { s with portRouters := s.portRouters.insert port (f r) }
    | none => s

def addDomain (domain : String) (config : DomainConfig) : Server :=
  { s with domains := s.domains.insert domain config }

def removeDomain (domain : String) : Server :=
  { s with domains := s.domains.erase domain }

def addHTTPMapping (m : Mapping) : Server :=
  { s with mappings := s.mappings.insert m.host m }

def removeHTTPMapping (host : String) : Server :=
  { s with mappings := s.mappings.erase host }

variable (svcID : String)

def removeUDPRelay : Server :=
  { s with udpRelays := s.udpRelays.erase svcID }

def startUDPRelay (relay : Relay) : Server :=
  { s with udpRelays := s.udpRelays.insert relay.serviceID relay }

def setSvcPorts (ports : List ℕ) : Server :=
  { s with svcPorts := s.svcPorts.insert svcID ports }

def deleteSvcPorts : Server :=
  { s with svcPorts := s.svcPorts.erase svcID }

def storeMapping (mapping : ProxyMapping) : Server :=
  { s with lastMappings := s.lastMappings.insert mapping.id mapping }

def loadMapping : Option ProxyMapping :=
  s.lastMappings.lookup svcID

def deleteMapping : Server :=
  { s with lastMappings := s.lastMappings.erase svcID }

/-- `GetClient`: the account has a client as long as a service is registered with it. -/
def hasClient (accountID : String) : Bool :=
  s.services.keys.any (·.1 = accountID)

def removePeer (accountID : String) (key : ServiceKey) : Server :=
  { s with services := s.services.erase (accountID, key) }

/-- `AddPeer`.  The client is created with the first service of the account. -/
def addPeer (out : Outside) (accountID : String) (key : ServiceKey) (serviceID : String) :
    Command Server String Unit :=
  fun s =>
    match (if s.hasClient accountID then none else out.createClient) with
    | some err => (.error err, s)
    | none => (.ok (), { s with services := s.services.insert (accountID, key) serviceID })

variable (cfg : Config) (out : Outside)

/-- `routerForPort` and `getOrCreatePortRouter` -/
def routerForPort (port : ℕ) : Command Server String Unit :=
  fun s =>
    match s.router (cfg.routerKey port) with
    | some _ => (.ok (), s)
    | none =>
      match out.listenTCP with
      | some err => (.error ("listen TCP on :" ++ toString port ++ ": " ++ err), s)
      | none => (.ok (), { s with portRouters := s.portRouters.insert port {} })

def cleanupPortIfEmpty (port : ℕ) (s : Server) : Server :=
  match cfg.routerKey port with
  | none => s
  | some port =>
    match s.portRouters.lookup port with
    | some r => if r.isEmpty then { s with portRouters := s.portRouters.erase port } else s
    | none => s

/-! ### Setting up a mapping -/

variable (mapping : ProxyMapping)

/-- `setupHTTPMapping` with `updateMapping` -/
def setupHTTPMapping : Command Server String Unit :=
  if mapping.path = [] then pure ()
  else do
    .write (·.onRouter none (·.addRoute cfg.caseMap mapping.domain (httpRoute mapping)))
    let config ← .mapError (fun err =>
        "update mapping for domain \"" ++ mapping.domain ++ "\": auth setup for domain " ++
          mapping.domain ++ ": " ++ err) (.ofResult (domainConfig cfg mapping))
    .write (·.addDomain mapping.domain config)
    .write (·.addHTTPMapping (protoToMapping cfg mapping))

def setupTCPMapping : Command Server String Unit := do
  let port ← .mapError (fun err => "TCP service " ++ mapping.id ++ ": " ++ err)
    (.ofResult (validatePort mapping.listenPort))
  if l4TargetAddress cfg mapping = "" then
    .fail ("empty target address for TCP service " ++ mapping.id)
  else if cfg.wireguardPort ≠ 0 ∧ port = cfg.wireguardPort then
    .fail ("port " ++ toString port ++ " conflicts with tunnel port")
  else do
    .mapError (fun err => "router for TCP port " ++ toString port ++ ": " ++ err)
      (routerForPort cfg out port)
    .write (·.onRouter (cfg.routerKey port) (·.setFallback (l4Route cfg mapping .tcp)))
    .write (·.setSvcPorts mapping.id [port])

/-- `addUDPRelay`.  The relay the service has is closed before the port is opened. -/
def addUDPRelay (listenPort : ℕ) : Command Server String Unit :=
  if cfg.wireguardPort ≠ 0 ∧ listenPort = cfg.wireguardPort then
    .fail ("UDP port " ++ toString listenPort ++ " conflicts with tunnel port")
  else do
    .write (·.removeUDPRelay mapping.id)
    match out.listenUDP with
    | some err => .fail ("listen UDP on :" ++ toString listenPort ++ ": " ++ err)
    | none =>
      let client ← .reads (·.hasClient mapping.accountId)
      if client then .write (·.startUDPRelay (udpRelay cfg mapping listenPort))
      else .fail ("resolve dialer for UDP: no client for account " ++ mapping.accountId)

def setupUDPMapping : Command Server String Unit := do
  let port ← .mapError (fun err => "UDP service " ++ mapping.id ++ ": " ++ err)
    (.ofResult (validatePort mapping.listenPort))
  if l4TargetAddress cfg mapping = "" then
    .fail ("empty target address for UDP service " ++ mapping.id)
  else
    .mapError (fun err => "UDP relay for service " ++ mapping.id ++ ": " ++ err)
      (addUDPRelay cfg out mapping port)

def setupTLSMapping : Command Server String Unit := do
  let tlsPort ← .mapError (fun err => "TLS service " ++ mapping.id ++ ": " ++ err)
    (.ofResult (validatePort mapping.listenPort))
  if l4TargetAddress cfg mapping = "" then
    .fail ("empty target address for TLS service " ++ mapping.id)
  else if cfg.wireguardPort ≠ 0 ∧ tlsPort = cfg.wireguardPort then
    .fail ("port " ++ toString tlsPort ++ " conflicts with tunnel port")
  else do
    .mapError (fun err => "router for TLS port " ++ toString tlsPort ++ ": " ++ err)
      (routerForPort cfg out tlsPort)
    .write (·.onRouter (cfg.routerKey tlsPort)
      (·.addRoute cfg.caseMap mapping.domain (l4Route cfg mapping .tls)))
    .write fun s => if tlsPort = cfg.mainPort then s else s.setSvcPorts mapping.id [tlsPort]

def setupMappingRoutes : Command Server String Unit :=
  match mapping.mode with
  | .tcp => setupTCPMapping cfg out mapping
  | .udp => setupUDPMapping cfg out mapping
  | .tls => setupTLSMapping cfg out mapping
  | .http => setupHTTPMapping cfg mapping

/-! ### Undoing it -/

/-- One turn of the loop over the ports of a service in `cleanupMappingRoutes`. -/
def cleanupPort (s : Server) (port : ℕ) : Server :=
  cleanupPortIfEmpty cfg port (s.onRouter (cfg.routerKey port) fun r =>
    if mapping.domain ≠ "" then r.removeRoute cfg.caseMap mapping.domain mapping.id
    else r.removeFallback)

/-- Ports are cleaned up by the domain, if the mapping has one. -/
def cleanupMappingRoutes (s : Server) : Server :=
  let s :=
    if mapping.domain ≠ "" then
      ((s.removeDomain mapping.domain).removeHTTPMapping mapping.domain).onRouter none
        (·.removeRoute cfg.caseMap mapping.domain mapping.id)
    else s
  let entries := (s.svcPorts.lookup mapping.id).getD []
  (entries.foldl (cleanupPort cfg mapping) (s.deleteSvcPorts mapping.id)).removeUDPRelay mapping.id

/-! ### Processing messages -/

def addMapping : Command Server String Unit := do
  let svcKey := serviceKeyForMapping mapping
  .mapError (fun err => "create peer for service " ++ mapping.id ++ ": " ++ err)
    (addPeer out mapping.accountId svcKey mapping.id)
  match ← .attempt (setupMappingRoutes cfg out mapping) with
  | .ok () => .write (·.storeMapping mapping)
  | .error err =>
    .write (cleanupMappingRoutes cfg mapping)
    .write (·.removePeer mapping.accountId svcKey)
    .fail err

def modifyMapping : Command Server String Unit := do
  .write fun s => cleanupMappingRoutes cfg ((s.loadMapping mapping.id).getD mapping) s
  match ← .attempt (setupMappingRoutes cfg out mapping) with
  | .ok () => .write (·.storeMapping mapping)
  | .error err =>
    .write (cleanupMappingRoutes cfg mapping)
    .fail err

def removeMapping (s : Server) : Server :=
  let s := s.removePeer mapping.accountId (serviceKeyForMapping mapping)
  cleanupMappingRoutes cfg ((s.loadMapping mapping.id).getD mapping) (s.deleteMapping mapping.id)

/-- One message of `processMappings`, with the error it reports. -/
def process (msg : Message) : Command Server String Unit :=
  match msg.type with
  | .created => addMapping cfg out msg.mapping
  | .modified => modifyMapping cfg out msg.mapping
  | .removed => .write (removeMapping cfg msg.mapping)

/-- `processMappings`: what fails is reported, and the loop goes on. -/
def processMappings (s : Server) (msgs : List (Outside × Message)) : Server :=
  msgs.foldl (fun s msg => (process cfg msg.1 msg.2 s).2) s

/-! ### What a setup that succeeds leaves -/

/-- The data of a mapping that its setup checks. -/
structure Valid (mapping : ProxyMapping) : Prop where
  config : mapping.mode = .http → mapping.path ≠ [] → ∃ config, domainConfig cfg mapping = .ok config
  port : mapping.mode ≠ .http → 0 < mapping.listenPort ∧ mapping.listenPort ≤ 65535
  target : mapping.mode ≠ .http → l4TargetAddress cfg mapping ≠ ""
  tunnel : mapping.mode ≠ .http →
    ¬ (cfg.wireguardPort ≠ 0 ∧ mapping.listenPort.toNat = cfg.wireguardPort)

/-- The router of the port exists. -/
def openRouter (port : ℕ) (s : Server) : Server :=
  match s.router (cfg.routerKey port) with
  | some _ => s
  | none => { s with portRouters := s.portRouters.insert port {} }

/-- The state after a mapping with valid data was set up. -/
def written (s : Server) : Server :=
  let port := mapping.listenPort.toNat
  match mapping.mode with
  | .http =>
    match mapping.path, domainConfig cfg mapping with
    | _ :: _, .ok config =>
      ((s.onRouter none (·.addRoute cfg.caseMap mapping.domain (httpRoute mapping))).addDomain
        mapping.domain config).addHTTPMapping (protoToMapping cfg mapping)
    | _, _ => s
  | .tcp =>
    ((openRouter cfg port s).onRouter (cfg.routerKey port)
      (·.setFallback (l4Route cfg mapping .tcp))).setSvcPorts mapping.id [port]
  | .udp => (s.removeUDPRelay mapping.id).startUDPRelay (udpRelay cfg mapping port)
  | .tls =>
    let s := (openRouter cfg port s).onRouter (cfg.routerKey port)
      (·.addRoute cfg.caseMap mapping.domain (l4Route cfg mapping .tls))
    if port = cfg.mainPort then s else s.setSvcPorts mapping.id [port]

variable {cfg} {out : Outside} {mapping : ProxyMapping} {s s' : Server} {port : ℕ} {u : Unit}

theorem validatePort_eq_ok {p : ℤ} :
    validatePort p = .ok port ↔ 0 < p ∧ p ≤ 65535 ∧ port = p.toNat := by
  rw [validatePort]
  split
  · simp
    omega
  · simp only [Except.ok.injEq]
    omega

theorem routerForPort_eq_ok : routerForPort cfg out port s = (.ok u, s') ↔
    (s.router (cfg.routerKey port) = none → out.listenTCP = none) ∧ s' = openRouter cfg port s := by
  simp only [routerForPort, openRouter]
  cases s.router (cfg.routerKey port) <;> cases out.listenTCP <;> simp [eq_comm]

theorem setupHTTPMapping_eq_ok (hmode : mapping.mode = .http) :
    setupHTTPMapping cfg mapping s = (.ok u, s') ↔
      Valid cfg mapping ∧ s' = written cfg mapping s := by
  have hvalid : Valid cfg mapping ↔
      (mapping.path ≠ [] → ∃ config, domainConfig cfg mapping = .ok config) :=
    ⟨fun h => h.config hmode, fun h =>
      ⟨fun _ => h, fun h => absurd hmode h, fun h => absurd hmode h, fun h => absurd hmode h⟩⟩
  rw [hvalid, setupHTTPMapping]
  simp only [written, hmode]
  rcases mapping.path with _ | ⟨p, ps⟩
  · simp [eq_comm]
  · simp only [reduceCtorEq, if_false, write_bind, bind_eq_ok, mapError_ofResult_eq_ok, write_eq_ok]
    cases domainConfig cfg mapping <;> simp

/-- The checks that the layer-4 modes have in common. -/
theorem valid_l4_iff (hmode : mapping.mode ≠ .http) : Valid cfg mapping ↔
    validatePort mapping.listenPort = .ok mapping.listenPort.toNat ∧
      l4TargetAddress cfg mapping ≠ "" ∧
        ¬ (cfg.wireguardPort ≠ 0 ∧ mapping.listenPort.toNat = cfg.wireguardPort) := by
  rw [validatePort_eq_ok]
  exact ⟨fun h => ⟨⟨(h.port hmode).1, (h.port hmode).2, rfl⟩, h.target hmode, h.tunnel hmode⟩,
    fun ⟨⟨hpos, hle, _⟩, htarget, htunnel⟩ =>
      ⟨fun h => absurd h hmode, fun _ => ⟨hpos, hle⟩, fun _ => htarget, fun _ => htunnel⟩⟩

theorem onPort_eq_ok {onPort : String → String} {noTarget : String}
    {x : ℕ → Command Server String Unit} :
    (mapError onPort (.ofResult (validatePort mapping.listenPort)) >>= fun port =>
      if l4TargetAddress cfg mapping = "" then fail noTarget else x port) s = (.ok u, s') ↔
    validatePort mapping.listenPort = .ok mapping.listenPort.toNat ∧
      l4TargetAddress cfg mapping ≠ "" ∧ x mapping.listenPort.toNat s = (.ok u, s') := by
  simp only [bind_eq_ok, mapError_ofResult_eq_ok, ite_fail_eq_ok]
  constructor
  · rintro ⟨port, _, ⟨hport, rfl⟩, hrest⟩
    obtain ⟨-, -, rfl⟩ := validatePort_eq_ok.mp hport
    exact ⟨hport, hrest⟩
  · rintro ⟨hport, hrest⟩
    exact ⟨_, _, ⟨hport, rfl⟩, hrest⟩

/-- **A setup succeeds with valid data**, if what it needs outside is there, **and leaves what
`written` says.** -/
theorem setupMappingRoutes_iff : setupMappingRoutes cfg out mapping s = (.ok u, s') ↔
    Valid cfg mapping ∧ (match mapping.mode with
      | .http => True
      | .udp => out.listenUDP = none ∧ s.hasClient mapping.accountId
      | _ => s.router (cfg.routerKey mapping.listenPort.toNat) = none → out.listenTCP = none) ∧
    s' = written cfg mapping s := by
  rw [setupMappingRoutes]
  cases hmode : mapping.mode with
  | http => simpa only [true_and] using setupHTTPMapping_eq_ok hmode
  | udp =>
    rw [valid_l4_iff (by simp [hmode])]
    refine onPort_eq_ok.trans ?_
    have hclient : (s.removeUDPRelay mapping.id).hasClient mapping.accountId =
      s.hasClient mapping.accountId := rfl
    simp only [addUDPRelay, ite_fail_eq_ok, mapError_eq_ok, write_bind, written, hmode]
    rcases out.listenUDP with _ | err
    · cases h : s.hasClient mapping.accountId <;>
        simp [bind_eq_ok, hclient, h, write_eq_ok, and_assoc]
    · simp
  | tcp | tls =>
    simp only [written, hmode]
    rw [valid_l4_iff (by simp [hmode])]
    refine onPort_eq_ok.trans ?_
    simp only [ite_fail_eq_ok, bind_eq_ok, mapError_eq_ok, routerForPort_eq_ok, write_eq_ok]
    grind

/-- **Where nothing outside fails, valid data can be set up.**  A relay needs the client of its
account. -/
theorem setupMappingRoutes_ideal (hvalid : Valid cfg mapping)
    (hclient : mapping.mode = .udp → s.hasClient mapping.accountId) :
    setupMappingRoutes cfg .ideal mapping s = (.ok (), written cfg mapping s) := by
  refine setupMappingRoutes_iff.mpr ⟨hvalid, ?_, rfl⟩
  cases hmode : mapping.mode with
  | http => trivial
  | udp => exact ⟨rfl, hclient hmode⟩
  | tcp | tls => exact fun _ => rfl

/-- The state after the service was registered with the client of its account. -/
def registered (mapping : ProxyMapping) (s : Server) : Server :=
  { s with services :=
      s.services.insert (mapping.accountId, serviceKeyForMapping mapping) mapping.id }

theorem store_eq_ok {undo : String → Command Server String Unit}
    (h : (attempt (setupMappingRoutes cfg out mapping) >>= fun
      | .ok () => .write (·.storeMapping mapping)
      | .error err => undo err) s = (.ok u, s'))
    (hundo : ∀ err s, undo err s ≠ (.ok u, s')) :
    Valid cfg mapping ∧ s' = (written cfg mapping s).storeMapping mapping := by
  rcases result_cases (setupMappingRoutes cfg out mapping) s with ⟨v, s₁, hok⟩ | ⟨e, s₁, herr⟩
  · rw [attempt_bind_of_ok hok] at h
    obtain ⟨hvalid, -, rfl⟩ := setupMappingRoutes_iff.mp hok
    exact ⟨hvalid, write_eq_ok.mp h⟩
  · rw [attempt_bind_of_error herr] at h
    exact absurd h (hundo e s₁)

theorem addMapping_eq_ok (h : addMapping cfg out mapping s = (.ok u, s')) : Valid cfg mapping ∧
      s' = (written cfg mapping (s.registered mapping)).storeMapping mapping := by
  obtain ⟨_, s₁, hpeer, hrest⟩ := bind_eq_ok.mp h
  have hadd := mapError_eq_ok.mp hpeer
  simp only [addPeer] at hadd
  split at hadd
  · cases hadd
  · cases hadd
    exact store_eq_ok hrest fun _ _ => nofun

theorem modifyMapping_eq_ok (h : modifyMapping cfg out mapping s = (.ok u, s')) :
    Valid cfg mapping ∧ s' = (written cfg mapping
      (cleanupMappingRoutes cfg ((s.loadMapping mapping.id).getD mapping) s)).storeMapping mapping := by
  exact store_eq_ok h fun _ _ => nofun

/-- A service with valid data is added where nothing outside fails: its registration gives the
account a client. -/
theorem addMapping_ideal (hvalid : Valid cfg mapping) : addMapping cfg .ideal mapping s =
      (.ok (), (written cfg mapping (s.registered mapping)).storeMapping mapping) := by
  have hpeer : addPeer .ideal mapping.accountId (serviceKeyForMapping mapping) mapping.id s =
      (.ok (), s.registered mapping) := by
    simp only [addPeer, Outside.ideal, ite_self]
    rfl
  have hclient : (s.registered mapping).hasClient mapping.accountId := by
    simp [hasClient, registered, keys_insert]
  have hsetup := setupMappingRoutes_ideal (s := s.registered mapping) hvalid fun _ => hclient
  refine (bind_of_ok (mapError_of_ok hpeer)).trans ?_
  exact attempt_bind_of_ok hsetup

end Server

end Netbird.Proxy
