/-
The handlers behind the client's routed networks and the watchers that drive them.

A handler takes references to addresses from two counters, for system routes and for allowed IPs
of a peer.  There are three kinds.  A static handler takes one of each for its network.  A dynamic
one takes them for the addresses its domains resolve to, and an interceptor for the addresses in
the DNS answers it passes on.  The watcher of a network chooses a routing peer and tells the
handler to add and remove allowed IPs.

`RemoveRoute` of the two kinds with domains forgets the addresses.  The interceptor gives
back both kinds of references before that, the dynamic handler only the routes: its allowed
IPs "should be removed separately and before", but `Watcher.Stop` comes after.
-/
import Mathlib.Data.Multiset.OrderedMonoid
import Netbird.Types.Account

namespace Netbird.Client

/-! ### Handlers -/

/-- `handlerTypeStatic`, `handlerTypeDynamic` and `handlerTypeDnsInterceptor`. -/
inductive HandlerType where
  | static
  | dynamic
  | dnsInterceptor
  deriving DecidableEq

def handlerType (rt : Route) (useNewDNSRoute : Bool) : HandlerType :=
  if !rt.isDynamic then .static
  else if useNewDNSRoute then .dnsInterceptor
  else .dynamic

/-- `dynamic.domainMap`, `dnsinterceptor.domainMap`. -/
abbrev DomainMap := AList fun _ : String => List Prefix

/-- A handler with the references it took and has not given back.  When the callbacks of the
counters succeed, `Increment` adds one and `Decrement` takes one off. -/
structure Handler where
  type : HandlerType
  route : Route
  /-- `dynamicDomains` or `interceptedDomains`. -/
  domains : DomainMap
  currentPeerKey : String
  /-- Between `AddRoute` and `RemoveRoute`: the resolver runs, the DNS handler is registered. -/
  started : Bool
  /-- DNS queries that are waiting for the answer of the peer. -/
  queries : ℕ
  routeRefs : Multiset Prefix
  allowedIPsRefs : Multiset Prefix

namespace Handler

def new (type : HandlerType) (rt : Route) : Handler := ⟨type, rt, ∅, "", false, 0, 0, 0⟩

variable (h : Handler)

def prefixes : List Prefix := h.domains.entries.flatMap (·.2)

def addRoute : Handler :=
  match h.type with
  | .static => { h with started := true, routeRefs := h.routeRefs + {h.route.network} }
  | .dynamic | .dnsInterceptor => { h with started := true }

def removeRoute : Handler :=
  match h.type with
  | .static => { h with started := false, routeRefs := h.routeRefs - {h.route.network} }
  | .dynamic =>
    { h with started := false, routeRefs := h.routeRefs - h.prefixes, domains := ∅ }
  | .dnsInterceptor =>
    { h with
      started := false
      routeRefs := h.routeRefs - h.prefixes
      allowedIPsRefs :=
        if h.currentPeerKey ≠ "" then h.allowedIPsRefs - h.prefixes else h.allowedIPsRefs
      domains := ∅ }

def addAllowedIPs (peerKey : String) : Handler :=
  match h.type with
  | .static => { h with allowedIPsRefs := h.allowedIPsRefs + {h.route.network} }
  | .dynamic | .dnsInterceptor =>
    { h with allowedIPsRefs := h.allowedIPsRefs + h.prefixes, currentPeerKey := peerKey }

def removeAllowedIPs : Handler :=
  match h.type with
  | .static => { h with allowedIPsRefs := h.allowedIPsRefs - {h.route.network} }
  | .dynamic | .dnsInterceptor =>
    { h with allowedIPsRefs := h.allowedIPsRefs - h.prefixes, currentPeerKey := "" }

/-- Addresses to add, as often as the answer lists them, and addresses to remove. -/
def determinePrefixChanges (oldPrefixes newPrefixes : List Prefix) : List Prefix × List Prefix :=
  (newPrefixes.filter (· ∉ oldPrefixes), oldPrefixes.dedup.filter (· ∉ newPrefixes))

def combinePrefixes (oldPrefixes removedPrefixes addedPrefixes : List Prefix) : List Prefix :=
  (oldPrefixes.filter (· ∉ removedPrefixes) ++ addedPrefixes).dedup

/-- `addRoutes` and `removeRoutes`; the allowed IPs change only with a current peer. -/
def changeRefs (added removed : List Prefix) : Handler :=
  { h with
    routeRefs := h.routeRefs + added - removed
    allowedIPsRefs :=
      if h.currentPeerKey ≠ "" then h.allowedIPsRefs + added - removed else h.allowedIPsRefs }

def updateDomain (domain : String) (newPrefixes : List Prefix) : Handler :=
  let oldPrefixes := (h.domains.lookup domain).getD []
  let (toAdd, toRemove) := determinePrefixChanges oldPrefixes newPrefixes
  let removed := if h.route.keepRoute then [] else toRemove
  { h.changeRefs toAdd removed with
    domains := h.domains.insert domain (combinePrefixes oldPrefixes removed toAdd) }

/-- `update` of the dynamic resolver; a cancelled context stops it. -/
def updateDynamicRoutes (newDomains : DomainMap) : Handler :=
  if !h.started then h
  else newDomains.entries.foldl (fun h e => h.updateDomain e.1 e.2) h

/-- `updateDomainPrefixes` of the interceptor, which remembers the answer as it is. -/
def updateDomainPrefixes (resolvedDomain : String) (newPrefixes : List Prefix) : Handler :=
  let oldPrefixes := (h.domains.lookup resolvedDomain).getD []
  let (toAdd, toRemove) := determinePrefixChanges oldPrefixes newPrefixes
  let removed := if h.route.keepRoute then [] else toRemove
  let changed := h.changeRefs toAdd removed
  if 0 < toAdd.length ∨ 0 < toRemove.length then
    { changed with
      domains := h.domains.insert resolvedDomain
        (if h.route.keepRoute then oldPrefixes ++ toAdd else newPrefixes) }
  else changed

/-- `ServeDNS` up to the query: without a current peer there is none. -/
def serveDNS : Handler :=
  if h.started ∧ h.currentPeerKey ≠ "" then { h with queries := h.queries + 1 } else h

/-- `writeMsg` with the addresses in the answer to one of the queries. -/
def writeMsg (resolvedDomain : String) (newPrefixes : List Prefix) : Handler :=
  if h.queries = 0 then h
  else if newPrefixes.length = 0 then { h with queries := h.queries - 1 }
  else updateDomainPrefixes { h with queries := h.queries - 1 } resolvedDomain newPrefixes

variable {h}

@[simp] theorem removeRoute_type : h.removeRoute.type = h.type := by
  rw [removeRoute]
  split <;> rfl

theorem removeAllowedIPs_le : h.removeAllowedIPs.allowedIPsRefs ≤ h.allowedIPsRefs := by
  rw [removeAllowedIPs]
  split <;> exact tsub_le_self

/-- Adding and removing allowed IPs leaves everything else alone. -/
structure SameRoutes (h h' : Handler) : Prop where
  type : h'.type = h.type
  route : h'.route = h.route
  domains : h'.domains = h.domains
  started : h'.started = h.started
  routeRefs : h'.routeRefs = h.routeRefs

theorem sameRoutes_add {peerKey : String} : h.SameRoutes (h.addAllowedIPs peerKey) := by
  rw [addAllowedIPs]
  split <;> exact ⟨rfl, rfl, rfl, rfl, rfl⟩

theorem sameRoutes_remove : h.SameRoutes h.removeAllowedIPs := by
  rw [removeAllowedIPs]
  split <;> exact ⟨rfl, rfl, rfl, rfl, rfl⟩

theorem SameRoutes.prefixes {h h' : Handler} (hsame : h.SameRoutes h') : h'.prefixes = h.prefixes := by
  rw [Handler.prefixes, Handler.prefixes, hsame.domains]

/-- Nothing is added only if there was nothing and there are no addresses. -/
theorem addAllowedIPs_eq_zero {peerKey : String} : (h.addAllowedIPs peerKey).allowedIPsRefs = 0 ↔
      h.allowedIPsRefs = 0 ∧ h.type ≠ .static ∧ h.prefixes = [] := by
  rw [addAllowedIPs]
  cases htype : h.type <;> simp

theorem SameRoutes.trans {h₁ h₂ h₃ : Handler} (h : h₁.SameRoutes h₂) (h' : h₂.SameRoutes h₃) :
    h₁.SameRoutes h₃ :=
  ⟨h'.type.trans h.type, h'.route.trans h.route, h'.domains.trans h.domains,
    h'.started.trans h.started, h'.routeRefs.trans h.routeRefs⟩

end Handler

/-! ### Watchers -/

/-- `peer.ConnStatus`. -/
inductive ConnStatus where
  | idle
  | connecting
  | connected
  deriving DecidableEq

structure RoutesUpdate where
  updateSerial : ℕ
  routes : List Route

def routeEqual (r other : Route) : Bool :=
  decide (other.id = r.id ∧ other.description = r.description ∧ other.netID = r.netID ∧
    other.network = r.network ∧ r.domains.getD [] = other.domains.getD [] ∧
    other.keepRoute = r.keepRoute ∧ other.networkType = r.networkType ∧ other.peer = r.peer ∧
    other.peerID = r.peerID ∧ other.metric = r.metric ∧ other.masquerade = r.masquerade ∧
    other.enabled = r.enabled ∧ r.groups = other.groups ∧ r.peerGroups = other.peerGroups ∧
    r.accessControlGroups = other.accessControlGroups ∧ other.skipAutoApply = r.skipAutoApply)

structure Watcher where
  routes : AList fun _ : String => Route
  currentChosen : Option Route
  currentChosenStatus : Option ConnStatus
  updateSerial : ℕ
  /-- The updates that `SendUpdate` is still trying to hand over. -/
  pending : List RoutesUpdate

namespace Watcher

def new : Watcher := ⟨∅, none, none, 0, []⟩

variable (w : Watcher)

def shouldSkipRecalculation (newChosen : Route) (newStatus : ConnStatus) : Bool :=
  match w.currentChosen with
  | none => false
  | some current =>
    current.id == newChosen.id && routeEqual current newChosen &&
      match w.currentChosenStatus with
      | some status => status == newStatus
      | none => true

/-- `classifyUpdate`: the new routes by ID and whether they differ.  The notifiers of the peers are
left out, and with them a crash: an update that removes two routes of one peer closes its channel
and then a nil one. -/
def classifyUpdate (update : RoutesUpdate) : (AList fun _ : String => Route) × Bool :=
  let updateMap := update.routes.foldl (fun m r => m.insert r.id r) (∅ : AList fun _ : String => Route)
  (updateMap, decide (w.routes.keys.length ≠ updateMap.keys.length) ||
    w.routes.keys.any fun id => decide (w.routes.lookup id ≠ updateMap.lookup id))

/-- What `getBestRouteFromStatuses` may return: nothing, or one of the routes with a status
that is not connecting.  Which one it is depends on the scores of the peers. -/
def Eligible (best : Option (Route × ConnStatus)) : Bool :=
  match best with
  | none => true
  | some (rt, status) => w.routes.lookup rt.id == some rt && status != .connecting

end Watcher

/-! ### Sessions: a handler with its watcher -/

/-- A handler, whether it is in `activeRoutes`, the watcher that was made for it, and whether
that watcher is in `clientNetworks`. -/
structure Session where
  handler : Handler
  active : Bool
  running : Bool
  watcher : Watcher

namespace Session

def new (type : HandlerType) (rt : Route) : Session :=
  ⟨(Handler.new type rt).addRoute, true, false, Watcher.new⟩

variable (s : Session)

/-- The removing loop of `updateSystemRoutes`. -/
def removeRoute : Session :=
  if s.active then { s with handler := s.handler.removeRoute, active := false } else s

def startWatcher : Session :=
  { s with running := true, watcher := Watcher.new }

def sendUpdate (update : RoutesUpdate) : Session :=
  { s with watcher := { s.watcher with pending := s.watcher.pending ++ [update] } }

def stop : Session :=
  if s.running then
    match s.watcher.currentChosen with
    | none => { s with running := false }
    | some _ =>
      { s with
        running := false
        handler := s.handler.removeAllowedIPs
        watcher := { s.watcher with currentChosenStatus := none } }
  else s

/-- `recalculateRoutes` with the outcome of `getBestRouteFromStatuses`. -/
def recalculateRoutes (best : Option (Route × ConnStatus)) : Session :=
  match best with
  | none =>
    match s.watcher.currentChosen with
    | none => s
    | some _ =>
      { s with
        handler := s.handler.removeAllowedIPs
        watcher := { s.watcher with currentChosen := none, currentChosenStatus := none } }
  | some (rt, status) =>
    if s.watcher.shouldSkipRecalculation rt status then s
    else
      { s with
        handler :=
          (if s.watcher.currentChosen.isSome then s.handler.removeAllowedIPs
            else s.handler).addAllowedIPs rt.peer
        watcher :=
          { s.watcher with currentChosen := some rt, currentChosenStatus := some status } }

/-- A change of the peers' states reaches the watcher. -/
def peerStateUpdate (best : Option (Route × ConnStatus)) : Session :=
  if s.watcher.Eligible best then s.recalculateRoutes best else s

/-- One of the pending updates reaches the watcher: the session with the new routes, and
whether they call for a recalculation. -/
def receive (i : ℕ) : Session × Bool :=
  match s.watcher.pending[i]? with
  | none => (s, false)
  | some update =>
    let received := { s.watcher with pending := s.watcher.pending.eraseIdx i }
    if update.updateSerial < s.watcher.updateSerial then ({ s with watcher := received }, false)
    else
      let (routes, different) := s.watcher.classifyUpdate update
      ({ s with
          watcher := { received with routes := routes, updateSerial := update.updateSerial } },
        different)

def routeUpdate (i : ℕ) (best : Option (Route × ConnStatus)) : Session :=
  match s.receive i with
  | (received, true) => received.peerStateUpdate best
  | (received, false) => received

/-- The resolver of a dynamic handler has new addresses. -/
def resolve (newDomains : DomainMap) : Session :=
  if s.handler.type = .dynamic then
    { s with handler := s.handler.updateDynamicRoutes newDomains }
  else s

def query : Session :=
  if s.handler.type = .dnsInterceptor then { s with handler := s.handler.serveDNS } else s

def reply (resolvedDomain : String) (newPrefixes : List Prefix) : Session :=
  if s.handler.type = .dnsInterceptor then
    { s with handler := s.handler.writeMsg resolvedDomain newPrefixes }
  else s

end Session

end Netbird.Client
