/-
The account that a network map is computed from: its routes, network resources and
routers, name servers and DNS zones, and the account record itself.

Go keeps peers, groups, routes and name-server groups in maps whose keys are the IDs
of the values.  Here they are lists; the record carries the proof that no ID occurs
twice, so a lookup by ID finds the one entry that has it (`getPeer_eq_some`,
`getGroup_eq_some`).
-/
import Netbird.Lib.Addr
import Netbird.Lib.Rows
import Netbird.Types.Policy

namespace Netbird

/-- What the map computation takes from outside the repository: the clock, the version
comparison of `posture.MeetsMinVersion` (`none` on an error), the conversions of the
`idna` package (`none` on an error) and `dns.Fqdn`. -/
structure MapEnv where
  now : Time
  meetsMinVersion : String → String → Option Bool
  toASCII : String → Option String
  toUnicode : String → Option String
  fqdn : String → String

/-! ### Routes -/

/-- `route.NetworkType`. -/
inductive NetworkType where
  | invalid
  | ipv4
  | ipv6
  | domain
  deriving DecidableEq

def Prefix.text (p : Prefix) : String :=
  Addr.prefixText p.addr p.bits

structure Route where
  id : String
  accountID : String := ""
  network : Prefix := ⟨[], 0⟩
  /-- `none` is the nil list. -/
  domains : Option (List String) := none
  keepRoute : Bool := false
  netID : String := ""
  description : String := ""
  peer : String := ""
  peerID : String := ""
  peerGroups : List String := []
  networkType : NetworkType := .invalid
  masquerade : Bool := false
  metric : ℤ := 0
  enabled : Bool := true
  groups : List String := []
  accessControlGroups : List String := []
  skipAutoApply : Bool := false
  deriving DecidableEq

namespace Route

def isDynamic (r : Route) : Bool :=
  r.networkType == .domain

/-- `domain.List.SafeString`: the punycode form if one of the domains has no other. -/
def safeString (env : MapEnv) (domains : List String) : String :=
  match domains.mapM env.toUnicode with
  | some list => ", ".intercalate list
  | none => ", ".intercalate domains

def netString (env : MapEnv) (r : Route) : String :=
  match r.isDynamic, r.domains with
  | true, some domains => safeString env domains
  | _, _ => r.network.text

def getHAUniqueID (env : MapEnv) (r : Route) : String :=
  r.netID ++ "|" ++ r.netString env

/-- `GetResourceID`: the part of the ID before the first colon. -/
def getResourceID (r : Route) : String :=
  String.ofList (r.id.toList.takeWhile (· != ':'))

end Route

/-! ### Network resources and routers -/

structure NetworkRouter where
  id : String := ""
  networkID : String
  accountID : String := ""
  peer : String := ""
  peerGroups : List String := []
  masquerade : Bool := false
  metric : ℤ := 0
  enabled : Bool := true

inductive NetworkResourceType where
  | host
  | subnet
  | domain
  deriving DecidableEq

structure NetworkResource where
  id : String
  networkID : String
  accountID : String := ""
  name : String := ""
  description : String := ""
  type : NetworkResourceType := .host
  domain : String := ""
  network : Prefix := ⟨[], 0⟩
  enabled : Bool := true

/-- `domain.FromStringList` of one name. -/
def MapEnv.domainList (env : MapEnv) (name : String) : Option (List String) :=
  (env.toASCII name).map fun ascii => [ascii.toLower]

namespace NetworkResource

/-- The route of a resource through a peer, before the destination is filled in. -/
def baseRoute (n : NetworkResource) (peer : Peer) (router : NetworkRouter) : Route :=
  { id := n.id ++ ":" ++ peer.id
    accountID := n.accountID
    keepRoute := true
    netID := n.name
    description := n.description
    peer := peer.key
    peerID := peer.id
    masquerade := router.masquerade
    metric := router.metric
    enabled := n.enabled }

/-- The destination of a host or a subnet. -/
def addressRoute (n : NetworkResource) (r : Route) : Route :=
  { r with network := n.network, networkType := if Addr.is6 n.network.addr then .ipv6 else .ipv4 }

/-- The destination of a domain, with its placeholder address. -/
def domainRoute (domains : List String) (r : Route) : Route :=
  { r with domains := some domains, networkType := .domain, network := ⟨[192, 0, 2, 0], 32⟩ }

/-- `ToRoute`; `none` is the nil route returned for a domain that cannot be converted. -/
def toRoute (env : MapEnv) (n : NetworkResource) (peer : Peer) (router : NetworkRouter) :
    Option Route :=
  match n.type with
  | .domain => (env.domainList n.domain).map fun domains =>
      domainRoute domains (n.baseRoute peer router)
  | _ => some (n.addressRoute (n.baseRoute peer router))

end NetworkResource

/-! ### DNS -/

/-- `netip.Addr`. -/
structure NetipAddr where
  bytes : List UInt8
  zone : String := ""
  deriving DecidableEq

def NetipAddr.text (a : NetipAddr) : String :=
  Addr.addrText a.bytes a.zone

inductive NameServerType where
  | invalid
  | udp
  deriving DecidableEq

structure NameServer where
  ip : NetipAddr
  nsType : NameServerType := .udp
  port : ℤ := 53
  deriving DecidableEq

structure NameServerGroup where
  id : String
  accountID : String := ""
  name : String := ""
  description : String := ""
  nameServers : List NameServer := []
  groups : List String := []
  primary : Bool := false
  domains : List String := []
  enabled : Bool := true
  searchDomainsEnabled : Bool := false
  deriving DecidableEq

structure SimpleRecord where
  name : String
  type : ℤ := 1
  class_ : String := "IN"
  ttl : ℤ := 300
  rData : String
  deriving DecidableEq

structure CustomZone where
  domain : String
  records : List SimpleRecord := []
  searchDomainDisabled : Bool := false
  nonAuthoritative : Bool := false
  deriving DecidableEq

/-- `records.RecordType`; `other` is any text that is none of the three. -/
inductive RecordType where
  | a
  | aaaa
  | cname
  | other (text : String)

structure Record where
  id : String := ""
  name : String
  type : RecordType := .a
  content : String
  ttl : ℤ := 300

structure Zone where
  id : String := ""
  domain : String
  enabled : Bool := true
  enableSearchDomain : Bool := false
  distributionGroups : List String := []
  records : List Record := []

structure DNSConfig where
  serviceEnable : Bool := false
  nameServerGroups : List NameServerGroup := []
  customZones : List CustomZone := []
  deriving DecidableEq

/-! ### The account -/

structure Network where
  identifier : String := ""
  net : Prefix := ⟨[], 0⟩
  dns : String := ""
  serial : ℕ := 0
  deriving DecidableEq

structure Account where
  network : Network := {}
  peers : List Peer
  groups : List Group := []
  policies : List Policy := []
  routes : List Route := []
  nameServerGroups : List NameServerGroup := []
  /-- `DNSSettings.DisabledManagementGroups`. -/
  disabledManagementGroups : List String := []
  postureChecks : List PostureChecks := []
  users : List User := []
  settings : Settings := {}
  networkRouters : List NetworkRouter := []
  networkResources : List NetworkResource := []
  peerIDs_nodup : (peers.map (·.id)).Nodup := by decide
  groupIDs_nodup : (groups.map (·.id)).Nodup := by decide

def Peer.ipText (p : Peer) : String :=
  Addr.ipText p.ip

namespace Account

variable (a : Account)

def getPeer (peerID : String) : Option Peer :=
  a.peers.find? (·.id == peerID)

def getGroup (groupID : String) : Option Group :=
  a.groups.find? (·.id == groupID)

def getPostureChecks (id : String) : Option PostureChecks :=
  a.postureChecks.find? (·.id == id)

variable {a}

theorem getPeer_eq_some {id : String} {p : Peer} :
    a.getPeer id = some p ↔ p ∈ a.peers ∧ p.id = id := by
  have h := Rows.unique_of_nodup a.peerIDs_nodup id (fun p h => beq_iff_eq.mp h)
  simpa only [getPeer, getGroup, beq_iff_eq] using Rows.find?_eq_some_of_unique h

theorem getGroup_eq_some {id : String} {g : Group} :
    a.getGroup id = some g ↔ g ∈ a.groups ∧ g.id = id := by
  have h := Rows.unique_of_nodup a.groupIDs_nodup id (fun g h => beq_iff_eq.mp h)
  simpa only [getPeer, getGroup, beq_iff_eq] using Rows.find?_eq_some_of_unique h

end Account

end Netbird
