/-
The DNS server of a client (`client/internal/dns/server.go`): what an update from management does
to the handler chain and the local resolver.

An update is turned into a list of handlers, one for each local zone, all of them the same local
resolver, and one for each nameserver group of a domain.  `updateMux` takes the handlers of the
update before out of the chain, which it knows from a map keyed by handler ID, and puts in the
new ones.  The order in which Go visits the domains, the address the listener finds, and what the
host manager does to the fallback handler are data of the environment of an update.

* `Has.updateChain` — what it does to the entries of the chain.
-/
import Netbird.Dns.Local
import Netbird.Lib.Runs

namespace Netbird.Dns

open List

/-! ### Configurations -/

abbrev AddrPort := List UInt8 × ℕ

inductive NameServerType
  | invalid
  | udp
  deriving DecidableEq

structure NameServer where
  ip : List UInt8
  nsType : NameServerType
  port : ℤ

def NameServer.addrPort (ns : NameServer) : AddrPort := (ns.ip, (ns.port % 2 ^ 16).toNat)

structure NameServerGroup where
  id : String
  name : String
  description : String
  nameServers : List NameServer
  groups : List String
  primary : Bool
  domains : List Name
  enabled : Bool
  searchDomainsEnabled : Bool

structure Config where
  serviceEnable : Bool
  nameServerGroups : List NameServerGroup
  customZones : List CustomZone
  forwarderPort : ℕ

def rootZone : Name := ['.']
def defaultClass : Name := ['I', 'N']

def priorityLocal : ℤ := 75
def priorityUpstream : ℤ := 50
def priorityDefault : ℤ := 1
def priorityFallback : ℤ := -100

/-! ### Handlers -/

/-- The handlers the server registers itself.  The last two are for the host's own nameservers. -/
inductive Handler
  | localResolver
  | upstream (domain : Name) (servers : List AddrPort)
  | hostRoot (servers : List AddrPort)
  | fallback (servers : List AddrPort)
  deriving DecidableEq

/-- The handler is for a local zone or a nameserver group. -/
def Handler.Managed : Handler → Prop
  | localResolver => True
  | upstream _ _ => True
  | hostRoot _ => False
  | fallback _ => False

/-- All of them match subdomains. -/
def Handler.matchSubdomains (_ : Handler) : Bool := true

inductive HandlerID
  | localResolver
  | upstream (digest : UInt64)
  deriving DecidableEq

/-- The digest in the ID of an upstream resolver, of its domain and its servers in order. -/
structure Digest where
  of : Name → List AddrPort → UInt64
  perm : ∀ domain {servers servers'}, servers.Perm servers' → of domain servers = of domain servers'

def Handler.id (digest : Digest) : Handler → HandlerID
  | localResolver => .localResolver
  | upstream domain servers => .upstream (digest.of domain servers)
  | hostRoot servers => .upstream (digest.of rootZone servers)
  | fallback servers => .upstream (digest.of rootZone servers)

structure HandlerWrapper where
  domain : Name
  handler : Handler
  priority : ℤ

abbrev RegisteredHandlerMap := AList fun _ : HandlerID => HandlerWrapper

/-! ### The service -/

/-- The service that receives the queries; the zero address is the empty list. -/
structure Service where
  viaListener : Bool
  runtimeIP : List UInt8
  running : Bool

/-- `Listen`, with the address `evalListenAddress` finds (in memory: whether the filter is
there). -/
def Service.listen (s : Service) (found : Option (List UInt8)) : Service :=
  if s.running then s
  else if s.viaListener then
    match found with
    | none => { s with runtimeIP := [] }
    | some ip => { s with runtimeIP := Addr.unmap ip, running := true }
  else { s with running := found.isSome }

def Service.stop (s : Service) : Service := { s with running := false }

/-! ### Handlers of an update -/

def buildLocalHandlerUpdate (customZones : List CustomZone) :
    List HandlerWrapper × List CustomZone :=
  let zones := customZones.filter (·.records ≠ [])
  (zones.map fun z => ⟨z.domain, .localResolver, priorityLocal⟩,
    zones.map fun z => { z with records := z.records.filter (·.cls = defaultClass) })

inductive UpdateError
  | closed
  | behind (by_ : ℕ)
  | emptyDomainList
  | emptyDomain

/-- The checks of `buildUpstreamHandlerUpdate`. -/
def checkGroups : List NameServerGroup → Except UpdateError Unit
  | [] => .ok ()
  | g :: gs =>
    if g.nameServers = [] then checkGroups gs
    else if g.primary = false ∧ g.domains = [] then .error .emptyDomainList
    else if [] ∈ g.domains then .error .emptyDomain
    else checkGroups gs

def groupNSGroupsByDomain (groups : List NameServerGroup) :
    AList fun _ : Name => List NameServerGroup :=
  Keyed.pushAll ∅ <| groups.flatMap fun g =>
    if g.primary then [(rootZone, g)] else (g.domains.filter (· ≠ [])).map (·, g)

def leaksPriority (basePriority priority : ℤ) : Bool :=
  basePriority = priorityUpstream ∧ priority ≤ priorityDefault ∨
    basePriority = priorityDefault ∧ priority ≤ priorityFallback

def usableServers (runtimeIP : List UInt8) (g : NameServerGroup) : List AddrPort :=
  (g.nameServers.filter fun ns => ns.nsType = .udp ∧ ns.ip ≠ runtimeIP).map (·.addrPort)

/-- The loop of `createHandlersForDomainGroup`; a group without usable servers takes up its
priority all the same. -/
def createHandlersForDomainGroup (runtimeIP : List UInt8) (domain : Name) (basePriority : ℤ) :
    ℤ → List NameServerGroup → List HandlerWrapper
  | _, [] => []
  | priority, g :: gs =>
    if leaksPriority basePriority priority then []
    else if usableServers runtimeIP g = [] then
      createHandlersForDomainGroup runtimeIP domain basePriority (priority - 1) gs
    else
      ⟨domain, .upstream domain (usableServers runtimeIP g), priority⟩ ::
        createHandlersForDomainGroup runtimeIP domain basePriority (priority - 1) gs

def basePriority (domain : Name) : ℤ :=
  if domain = rootZone then priorityDefault else priorityUpstream

/-- The order in which `range` visits the domains. -/
abbrev DomainOrder := Keyed.Visit (Sigma fun _ : Name => List NameServerGroup)

/-- The handlers of `buildUpstreamHandlerUpdate`, once the checks are passed. -/
def upstreamHandlers (order : DomainOrder) (runtimeIP : List UInt8)
    (groups : List NameServerGroup) : List HandlerWrapper :=
  (order.order (groupNSGroupsByDomain groups).entries).flatMap fun e =>
    createHandlersForDomainGroup runtimeIP e.1 (basePriority e.1) (basePriority e.1) e.2

/-! ### The server -/

/-- What the host manager makes of the fallback handler. -/
inductive HostEffect
  | keep
  | deregister
  | register (servers : List AddrPort)
  deriving DecidableEq

/-- A call of `UpdateDNSServer` with what its environment decides: whether the context is closed,
whether the listener has died since, the address a listener finds, and so on. -/
structure Update where
  serial : ℕ
  config : Config
  closed : Bool
  died : Bool
  found : Option (List UInt8)
  order : DomainOrder
  onService : HostEffect
  onApply : HostEffect

structure DefaultServer where
  permanent : Bool
  service : Service
  hostDNS : List AddrPort
  handlerChain : List (HandlerEntry Handler)
  dnsMuxMap : RegisteredHandlerMap
  localResolver : Resolver
  updateSerial : ℕ
  previousConfigHash : UInt64

section Server

variable (fm : NameMap) (newRR : SimpleRecord → Option RR) (digest : Digest)
  (hash : Config → UInt64)

def registerHandler (hs : List (HandlerEntry Handler)) (domain : Name) (handler : Handler)
    (priority : ℤ) : List (HandlerEntry Handler) :=
  if domain = [] then hs else addHandler fm Handler.matchSubdomains hs domain handler priority

def deregisterHandler (hs : List (HandlerEntry Handler)) (domain : Name) (priority : ℤ) :
    List (HandlerEntry Handler) :=
  if domain = [] then hs else removeHandler fm hs domain priority

def addHostRootZone (hostDNS : List AddrPort) (hs : List (HandlerEntry Handler)) :
    List (HandlerEntry Handler) :=
  if hostDNS = [] then hs else registerHandler fm hs rootZone (.hostRoot hostDNS) priorityDefault

def HostEffect.apply (hs : List (HandlerEntry Handler)) : HostEffect → List (HandlerEntry Handler)
  | keep => hs
  | deregister => deregisterHandler fm hs rootZone priorityFallback
  | register servers => registerHandler fm hs rootZone (.fallback servers) priorityFallback

/-- The map `updateMux` makes of the handlers of an update. -/
def muxUpdateMap (updates : List HandlerWrapper) : RegisteredHandlerMap :=
  updates.foldl (fun m u => m.insert (u.handler.id digest) u) ∅

def RegisteredHandlerMap.wrappers (m : RegisteredHandlerMap) : List HandlerWrapper :=
  m.entries.map (·.2)

/-- No root handler is among the updates, one was before. -/
def restoresRoot (existing updates : List HandlerWrapper) : Bool :=
  updates.all (·.domain ≠ rootZone) ∧ existing.any (·.domain = rootZone)

def updateChain (hostDNS : List AddrPort) (existing updates : List HandlerWrapper)
    (hs : List (HandlerEntry Handler)) : List (HandlerEntry Handler) :=
  let hs := existing.foldl (fun hs w => deregisterHandler fm hs w.domain w.priority) hs
  let hs := updates.foldl (fun hs u => registerHandler fm hs u.domain u.handler u.priority) hs
  if restoresRoot existing updates then addHostRootZone fm hostDNS hs else hs

variable (s : DefaultServer)

/-- `updateMux`; of the handlers it stops only the local resolver has a state here. -/
def updateMux (updates : List HandlerWrapper) : DefaultServer :=
  let existing := s.dnsMuxMap.wrappers
  { s with
    handlerChain := updateChain fm s.hostDNS existing updates s.handlerChain
    dnsMuxMap := muxUpdateMap digest updates
    localResolver :=
      if existing.any (·.handler = .localResolver) then s.localResolver.stop
      else s.localResolver }

def Service.apply (permanent : Bool) (s : Service) (c : Update) : Service :=
  let s := if c.died then { s with running := s.running && !s.viaListener } else s
  if c.config.serviceEnable then s.listen c.found else if permanent then s else s.stop

/-- `disableDNS` may take the fallback handler out of the chain, before the update is applied. -/
def serviceEffect (permanent : Bool) (c : Update) : HostEffect :=
  if c.config.serviceEnable = false ∧ permanent = false ∧ c.onService = .deregister then
    .deregister
  else .keep

def applyConfiguration (c : Update) : Except UpdateError Unit × DefaultServer :=
  let service := s.service.apply s.permanent c
  let s := { s with
    service := service
    handlerChain := (serviceEffect s.permanent c).apply fm s.handlerChain }
  let (localMuxUpdates, localZones) := buildLocalHandlerUpdate c.config.customZones
  match checkGroups c.config.nameServerGroups with
  | .error e => (.error e, s)
  | .ok () =>
    let upstreamMuxUpdates :=
      upstreamHandlers c.order service.runtimeIP c.config.nameServerGroups
    let s := updateMux fm digest s (localMuxUpdates ++ upstreamMuxUpdates)
    (.ok (), { s with
      localResolver := s.localResolver.update fm newRR localZones
      handlerChain := c.onApply.apply fm s.handlerChain })

def updateDNSServer (c : Update) : Except UpdateError Unit × DefaultServer :=
  if c.closed then (.error .closed, s)
  else if c.serial < s.updateSerial then (.error (.behind (s.updateSerial - c.serial)), s)
  else if s.previousConfigHash = hash c.config then (.ok (), { s with updateSerial := c.serial })
  else
    match applyConfiguration fm newRR digest s c with
    | (.error e, s) => (.error e, s)
    | (.ok (), s) =>
      (.ok (), { s with updateSerial := c.serial, previousConfigHash := hash c.config })

/-- How a server is created: a permanent one (on mobile systems) has the host's nameservers and a
service in memory. -/
structure Setup where
  permanent : Bool
  viaListener : Bool
  runtimeIP : List UInt8
  hostDNS : List AddrPort
  memory : permanent = true → viaListener = false
  unset : viaListener = true → runtimeIP = []
  hosts : permanent = false → hostDNS = []

def newDefaultServer (setup : Setup) : DefaultServer where
  permanent := setup.permanent
  service := ⟨setup.viaListener, setup.runtimeIP, false⟩
  hostDNS := setup.hostDNS
  handlerChain := addHostRootZone fm setup.hostDNS []
  dnsMuxMap := ∅
  localResolver := .new
  updateSerial := 0
  previousConfigHash := 0

def succeed (c : Update) : Option DefaultServer :=
  match updateDNSServer fm newRR digest hash s c with
  | (.ok (), s) => some s
  | (.error _, _) => none

/-- The server after the calls, if they all succeed. -/
def run (calls : List Update) : Option DefaultServer :=
  Runs.exec (succeed fm newRR digest hash) s calls

end Server

/-! ### The keys of handlers -/

section Keys

variable (fm : NameMap)

def HandlerWrapper.key (w : HandlerWrapper) : Key := (fm.folded (fm.fqdn w.domain), w.priority)

/-- The wrapper is about the key; one with an empty domain is about none. -/
def HandlerWrapper.IsFor (w : HandlerWrapper) (k : Key) : Prop := w.domain ≠ [] ∧ w.key fm = k

instance (w : HandlerWrapper) (k : Key) : Decidable (w.IsFor fm k) :=
  inferInstanceAs (Decidable (_ ∧ _))

/-- The handlers know the key. -/
def Knows (ws : List HandlerWrapper) (k : Key) : Prop := ∃ w ∈ ws, w.IsFor fm k

instance (ws : List HandlerWrapper) (k : Key) : Decidable (Knows fm ws k) :=
  inferInstanceAs (Decidable (∃ w ∈ ws, w.IsFor fm k))

/-- What is registered under a key when the handlers are registered one after another. -/
def registers (ws : List HandlerWrapper) (k : Key) : Option (Name × Handler) :=
  ws.foldl (fun v w => if w.IsFor fm k then some (fm.lowered (fm.fqdn w.domain), w.handler) else v)
    none

def rootKey : Key := (fm.folded (fm.fqdn rootZone), priorityDefault)

/-- `updateMux` restores the host's root zone, under this key. -/
def Restores (hostDNS : List AddrPort) (existing updates : List HandlerWrapper) (k : Key) : Prop :=
  hostDNS ≠ [] ∧ restoresRoot existing updates ∧ k = rootKey fm

instance (hostDNS : List AddrPort) (existing updates : List HandlerWrapper) (k : Key) :
    Decidable (Restores fm hostDNS existing updates k) :=
  inferInstanceAs (Decidable (_ ∧ _ ∧ _))

variable {fm}

theorem foldl_registers (ws : List HandlerWrapper) (k : Key) (v : Option (Name × Handler)) :
    ws.foldl (fun v w => if w.IsFor fm k then some (fm.lowered (fm.fqdn w.domain), w.handler) else v)
      v = (registers fm ws k).or v := by
  induction ws using reverseRecOn with
  | nil => rfl
  | append_singleton ws w ih =>
    simp only [registers, foldl_append, foldl_cons, foldl_nil] at ih ⊢
    rw [ih]
    split_ifs <;> rfl

variable {k : Key}

theorem registers_eq_none_iff {ws : List HandlerWrapper} :
    registers fm ws k = none ↔ ¬ Knows fm ws k := by
  induction ws using reverseRecOn with
  | nil => simp [registers, Knows]
  | append_singleton ws w ih =>
    simp only [registers, foldl_append, foldl_cons, foldl_nil, Knows,
      mem_append, mem_singleton] at ih ⊢
    split_ifs with h
    · simp only [false_iff, not_not]
      exact ⟨w, .inr rfl, h⟩
    · simp only [ih, or_and_right, exists_or, exists_eq_left, h, or_false]

theorem knows_of_registers {ws : List HandlerWrapper} {v : Name × Handler}
    (h : registers fm ws k = some v) : Knows fm ws k := by
  by_contra hno
  rw [registers_eq_none_iff.mpr hno] at h
  cases h

theorem isFor_rootZone {handler : Handler} {priority : ℤ} :
    HandlerWrapper.IsFor fm ⟨rootZone, handler, priority⟩ k ↔
      k = (fm.folded (fm.fqdn rootZone), priority) := by
  rw [HandlerWrapper.IsFor, and_iff_right (by simp [rootZone]), eq_comm]
  rfl

theorem domain_eq_of_isFor_root {w : HandlerWrapper} (h : w.IsFor fm (rootKey fm)) :
    w.domain = rootZone := by
  obtain ⟨hne, hkey⟩ := h
  have hlength : (fm.fqdn w.domain).length = 1 := by
    have hlengths := congrArg (fun k : Key => k.1.length) hkey
    simp only [HandlerWrapper.key, rootKey, FoldMap.folded, length_map, rootZone,
      fm.fqdn_root] at hlengths
    exact hlengths
  obtain ⟨c, hc⟩ := length_eq_one_iff.mp hlength
  have hdot := fm.fqdn_dot w.domain
  rw [hc, getLast?_singleton, Option.some.injEq] at hdot
  rcases fm.fqdn_cases w.domain with heq | heq
  · rw [← heq, hc, hdot]
    rfl
  · rw [heq, append_eq_singleton_iff] at hc
    exact absurd (hc.resolve_right fun h => cons_ne_nil _ _ h.2).1 hne

/-- The root zone agrees with its lower case. -/
theorem consistent_rootZone : fm.Consistent rootZone := by
  refine forall_mem_singleton.mpr ?_
  rw [fm.lower_ascii '.' (by decide)]
  rfl

/-! ### The entries of the chain -/

variable {r : Key → Option (Name × Handler)} {hs : List (HandlerEntry Handler)}

/-- `Lists`, for the handlers of the server. -/
abbrev Has (fm : NameMap) (r : Key → Option (Name × Handler)) (hs : List (HandlerEntry Handler)) :
    Prop :=
  Lists fm Handler.matchSubdomains r hs

theorem Has.nil : Has fm (fun _ => none) [] := Lists.nil

variable (h : Has fm r hs)

include h

theorem Has.register {w : HandlerWrapper} (hw : fm.Consistent w.domain) :
    Has fm (fun k => if w.IsFor fm k then some (fm.lowered (fm.fqdn w.domain), w.handler) else r k)
      (registerHandler fm hs w.domain w.handler w.priority) := by
  unfold registerHandler HandlerWrapper.IsFor
  by_cases hne : w.domain = []
  · simpa [hne] using h
  · simp only [ne_eq, hne, not_false_eq_true, true_and]
    exact h.add hw w.handler w.priority

theorem Has.deregister (w : HandlerWrapper) :
    Has fm (fun k => if w.IsFor fm k then none else r k)
      (deregisterHandler fm hs w.domain w.priority) := by
  unfold deregisterHandler HandlerWrapper.IsFor
  by_cases hne : w.domain = []
  · simpa [hne] using h
  · simp only [ne_eq, hne, not_false_eq_true, true_and]
    exact h.remove (fm.fqdn w.domain) w.priority

theorem Has.registerAll {updates : List HandlerWrapper}
    (hupdates : ∀ u ∈ updates, fm.Consistent u.domain) :
    Has fm (fun k => (registers fm updates k).or (r k))
      (updates.foldl (fun hs u => registerHandler fm hs u.domain u.handler u.priority) hs) := by
  simp only [← foldl_registers]
  induction updates generalizing r hs with
  | nil => exact h
  | cons u updates ih =>
    obtain ⟨hu, hupdates⟩ := forall_mem_cons.mp hupdates
    exact ih (h.register hu) hupdates

theorem Has.deregisterAll (existing : List HandlerWrapper) :
    Has fm (fun k => if Knows fm existing k then none else r k)
      (existing.foldl (fun hs w => deregisterHandler fm hs w.domain w.priority) hs) := by
  induction existing generalizing r hs with
  | nil => simpa [Knows] using h
  | cons w existing ih =>
    have hrest := ih (h.deregister w)
    have heq : (fun k => if Knows fm (w :: existing) k then none else r k) =
        fun k => if Knows fm existing k then none
          else if w.IsFor fm k then none else r k := by
      funext k
      by_cases hw : w.IsFor fm k <;> simp [Knows, hw]
    rw [heq]
    exact hrest

theorem Has.addHostRootZone (hostDNS : List AddrPort) :
    Has fm (fun k => if hostDNS ≠ [] ∧ k = rootKey fm
        then some (fm.lowered (fm.fqdn rootZone), .hostRoot hostDNS) else r k)
      (addHostRootZone fm hostDNS hs) := by
  unfold Dns.addHostRootZone
  by_cases hne : hostDNS = []
  · simpa [hne] using h
  · have hadd := h.register (w := ⟨rootZone, .hostRoot hostDNS, priorityDefault⟩)
      consistent_rootZone
    simpa only [isFor_rootZone, rootKey, hne, ne_eq, not_false_eq_true, true_and, if_false] using hadd

/-- What `updateMux` does to the entries: what is not registered anew stays, unless the handlers
before know it, or the host's root zone takes its place. -/
theorem Has.updateChain (hostDNS : List AddrPort) (existing : List HandlerWrapper)
    {updates : List HandlerWrapper} (hupdates : ∀ u ∈ updates, fm.Consistent u.domain) :
    Has fm (fun k => if Restores fm hostDNS existing updates k
        then some (fm.lowered (fm.fqdn rootZone), .hostRoot hostDNS)
        else (registers fm updates k).or (if Knows fm existing k then none else r k))
      (updateChain fm hostDNS existing updates hs) := by
  have hmain := (h.deregisterAll existing).registerAll hupdates
  unfold Dns.updateChain Restores
  by_cases hroot : restoresRoot existing updates
  · simpa [hroot] using hmain.addHostRootZone hostDNS
  · simpa [hroot] using hmain

omit h

/-! ### The fallback handler -/

def fallbackKey (fm : NameMap) : Key := (fm.folded (fm.fqdn rootZone), priorityFallback)

/-- What the host manager does concerns the fallback handler only. -/
theorem Has.apply (h : Has fm r hs) (e : HostEffect) :
    ∃ v : Option (Name × Handler), (∀ p handler, v = some (p, handler) →
        ¬ handler.Managed ∨ r (fallbackKey fm) = some (p, handler)) ∧
      Has fm (fun k => if k = fallbackKey fm then v else r k) (e.apply fm hs) := by
  cases e with
  | keep =>
    refine ⟨r (fallbackKey fm), fun p handler h => .inr h, ?_⟩
    have heq : (fun k => if k = fallbackKey fm then r (fallbackKey fm) else r k) = r :=
      funext fun k => ite_eq_right_iff.mpr fun hk => by rw [hk]
    rw [heq]
    exact h
  | deregister =>
    have hremove := h.deregister ⟨rootZone, .fallback [], priorityFallback⟩
    simp only [isFor_rootZone] at hremove
    exact ⟨none, by simp, hremove⟩
  | register servers =>
    have hadd := h.register (w := ⟨rootZone, .fallback servers, priorityFallback⟩)
      consistent_rootZone
    simp only [isFor_rootZone] at hadd
    refine ⟨_, fun p handler heq => .inl ?_, hadd⟩
    obtain ⟨-, rfl⟩ := Prod.mk.inj (Option.some.inj heq)
    exact id

end Keys

/-! ### The handlers of an update -/

theorem mem_createHandlersForDomainGroup {runtimeIP : List UInt8} {domain : Name}
    {base : ℤ} {w : HandlerWrapper} {priority : ℤ} {groups : List NameServerGroup}
    (h : w ∈ createHandlersForDomainGroup runtimeIP domain base priority groups) :
    (∃ servers, w.handler = .upstream domain servers) ∧ leaksPriority base w.priority = false := by
  induction groups generalizing priority with
  | nil => cases h
  | cons g gs ih =>
    unfold createHandlersForDomainGroup at h
    split_ifs at h with hleak hservers
    · cases h
    · exact ih h
    · rcases mem_cons.mp h with rfl | h
      · exact ⟨⟨_, rfl⟩, Bool.eq_false_iff.mpr hleak⟩
      · exact ih h

/-- The handlers are for local zones and nameserver groups, and none has the priority of the
fallback handler. -/
theorem mem_handlers {order : DomainOrder} {runtimeIP : List UInt8}
    {groups : List NameServerGroup} {zones : List CustomZone} {w : HandlerWrapper}
    (h : w ∈ (buildLocalHandlerUpdate zones).1 ++ upstreamHandlers order runtimeIP groups) :
    w.handler.Managed ∧ w.priority ≠ priorityFallback := by
  rcases mem_append.mp h with h | h
  · obtain ⟨z, -, rfl⟩ := mem_map.mp h
    exact ⟨trivial, by simp [priorityLocal, priorityFallback]⟩
  · obtain ⟨e, -, h⟩ := mem_flatMap.mp h
    obtain ⟨⟨servers, hupstream⟩, hleak⟩ := mem_createHandlersForDomainGroup h
    refine ⟨by rw [hupstream]; trivial, fun heq => ?_⟩
    rw [heq, leaksPriority, basePriority] at hleak
    split_ifs at hleak <;>
      simp [priorityDefault, priorityUpstream, priorityFallback] at hleak

end Netbird.Dns
