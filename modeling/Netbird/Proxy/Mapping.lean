/-
Service mappings, as management sends them to a reverse proxy, and what the proxy makes of one.

Everything here is a function of a single mapping and of the proxy's configuration: the route of
an HTTP, TCP or TLS service, the relay of a UDP service, the protection and the backends of an
HTTP service, and the key the service is registered under with the client of its account.

The parsers of Go's library are parameters (`Library`).  A field of a mapping that is itself a
message may be absent; its getters then give zero values, so only the restrictions, which are
compared with nil, are optional here.
-/
import Netbird.Lib.Text

namespace Netbird.Proxy

/-! ### The messages -/

/-- The mode of a service.  The proxy treats a mode it does not know as HTTP. -/
inductive ServiceMode
  | http
  | tcp
  | udp
  | tls
  deriving DecidableEq

inductive PathRewriteMode
  | default
  | preserve
  deriving DecidableEq

inductive CrowdSecMode
  | off
  | enforce
  | observe
  | other (text : String)
  deriving DecidableEq

structure PathTargetOptions where
  skipTlsVerify : Bool := false
  requestTimeout : Option ℤ := none
  pathRewrite : PathRewriteMode := .default
  customHeaders : List (String × String) := []
  proxyProtocol : Bool := false
  sessionIdleTimeout : Option ℤ := none
  deriving DecidableEq

structure PathMapping where
  path : String
  target : String
  options : PathTargetOptions := {}
  deriving DecidableEq

structure Authentication where
  sessionKey : String := ""
  maxSessionAgeSeconds : ℤ := 0
  password : Bool := false
  pin : Bool := false
  oidc : Bool := false
  headerAuths : List String := []
  deriving DecidableEq

structure AccessRestrictions where
  allowedCidrs : List String := []
  blockedCidrs : List String := []
  allowedCountries : List String := []
  blockedCountries : List String := []
  crowdsecMode : CrowdSecMode := .off
  deriving DecidableEq

structure ProxyMapping where
  id : String
  accountId : String
  domain : String
  mode : ServiceMode
  listenPort : ℤ := 0
  path : List PathMapping
  auth : Authentication := {}
  passHostHeader : Bool := false
  rewriteRedirects : Bool := false
  accessRestrictions : Option AccessRestrictions := none
  deriving DecidableEq

/-! ### What the proxy is given -/

structure Cidr where
  addr : List UInt8
  bits : ℕ

/-- The functions of Go's library that the proxy reads mappings with. -/
structure Library where
  caseMap : CaseMap
  toUpper : String → String
  /-- `net.SplitHostPort` -/
  splitHostPort : String → Option (String × String)
  /-- `url.Parse`, with the text of the URL -/
  parseURL : String → Option String
  /-- `netip.ParsePrefix` and `Masked` -/
  parsePrefix : String → Option Cidr
  /-- `base64.StdEncoding.DecodeString` -/
  decodeString : String → Except String (List UInt8)

/-- The part of the proxy's configuration that mappings are read with.  A port is 0 if it is
not set, `crowdsec` says that the proxy has a running bouncer. -/
structure Config extends Library where
  mainPort : ℕ
  wireguardPort : ℕ
  maxDialTimeout : ℤ
  maxSessionIdleTimeout : ℤ
  forwardedProto : String
  crowdsec : Bool

variable (cfg : Config)

def clampIdleTimeout (d : ℤ) : ℤ :=
  if cfg.maxSessionIdleTimeout > 0 ∧ d > cfg.maxSessionIdleTimeout then cfg.maxSessionIdleTimeout
  else d

def clampDialTimeout (d : ℤ) : ℤ :=
  if cfg.maxDialTimeout ≤ 0 then d
  else if d ≤ 0 ∨ d > cfg.maxDialTimeout then cfg.maxDialTimeout
  else d

def validatePort (port : ℤ) : Except String ℕ :=
  if port ≤ 0 ∨ port > 65535 then .error s!"invalid port {port}: must be 1–65535"
  else .ok port.toNat

/-! ### Access restrictions -/

/-- `restrict.Filter`; `crowdSec` says that the filter has a checker. -/
structure Filter where
  allowedCIDRs : List Cidr
  blockedCIDRs : List Cidr
  allowedCountries : List String
  blockedCountries : List String
  crowdSec : Bool
  crowdSecMode : CrowdSecMode

/-- `restrict.ParseFilter`.  What is not a prefix is skipped; no filter is built only if nothing
is configured. -/
def parseFilter (r : AccessRestrictions) (checker : Bool) : Option Filter :=
  let hasCS := r.crowdsecMode = .enforce ∨ r.crowdsecMode = .observe
  if r.allowedCidrs = [] ∧ r.blockedCidrs = [] ∧ r.allowedCountries = [] ∧
      r.blockedCountries = [] ∧ ¬ hasCS then none
  else some
    { allowedCIDRs := r.allowedCidrs.filterMap cfg.parsePrefix
      blockedCIDRs := r.blockedCidrs.filterMap cfg.parsePrefix
      allowedCountries := r.allowedCountries.map cfg.toUpper
      blockedCountries := r.blockedCountries.map cfg.toUpper
      crowdSec := checker && decide hasCS
      crowdSecMode := if hasCS then r.crowdsecMode else .off }

def parseRestrictions (mapping : ProxyMapping) : Option Filter :=
  mapping.accessRestrictions.bind fun r => parseFilter cfg r cfg.crowdsec

/-! ### Layer-4 services -/

def l4TargetAddress (mapping : ProxyMapping) : String :=
  match mapping.path with
  | [] => ""
  | p :: _ => if (cfg.splitHostPort p.target).isSome then p.target else ""

def l4ProxyProtocol (mapping : ProxyMapping) : Bool :=
  match mapping.path with
  | [] => false
  | p :: _ => p.options.proxyProtocol

def l4DialTimeout (mapping : ProxyMapping) : ℤ :=
  match mapping.path.head?.bind (·.options.requestTimeout) with
  | some d => clampDialTimeout cfg d
  | none => clampDialTimeout cfg 0

def l4SessionIdleTimeout (mapping : ProxyMapping) : ℤ :=
  (mapping.path.head?.bind (·.options.sessionIdleTimeout)).getD 0

inductive RouteType
  | http
  | tcp
  deriving DecidableEq

inductive Protocol
  | unset
  | tcp
  | tls
  deriving DecidableEq

/-- `nbtcp.Route` -/
structure Route where
  type : RouteType
  accountID : String
  serviceID : String
  domain : String
  protocol : Protocol := .unset
  target : String := ""
  proxyProtocol : Bool := false
  dialTimeout : ℤ := 0
  sessionIdleTimeout : ℤ := 0
  filter : Option Filter := none

/-- The route `setupHTTPMapping` adds. -/
def httpRoute (mapping : ProxyMapping) : Route :=
  { type := .http, accountID := mapping.accountId, serviceID := mapping.id,
    domain := mapping.domain }

/-- The route `setupTCPMapping` and `setupTLSMapping` add, with the protocol of each. -/
def l4Route (mapping : ProxyMapping) (protocol : Protocol) : Route :=
  { type := .tcp, accountID := mapping.accountId, serviceID := mapping.id
    domain := mapping.domain, protocol, target := l4TargetAddress cfg mapping
    proxyProtocol := l4ProxyProtocol mapping, dialTimeout := l4DialTimeout cfg mapping
    sessionIdleTimeout := clampIdleTimeout cfg (l4SessionIdleTimeout mapping)
    filter := parseRestrictions cfg mapping }

/-- The configuration of a UDP relay. -/
structure Relay where
  listenPort : ℕ
  target : String
  domain : String
  accountID : String
  serviceID : String
  dialTimeout : ℤ
  sessionTTL : ℤ
  filter : Option Filter

/-- The relay `addUDPRelay` starts. -/
def udpRelay (mapping : ProxyMapping) (port : ℕ) : Relay :=
  { listenPort := port, target := l4TargetAddress cfg mapping, domain := mapping.domain
    accountID := mapping.accountId, serviceID := mapping.id
    dialTimeout := l4DialTimeout cfg mapping
    sessionTTL := clampIdleTimeout cfg (l4SessionIdleTimeout mapping)
    filter := parseRestrictions cfg mapping }

/-! ### HTTP services -/

/-- An authentication scheme, with the service and the account it is for. -/
inductive Scheme
  | password (serviceID accountID : String)
  | pin (serviceID accountID : String)
  | oidc (serviceID accountID forwardedProto : String)
  | header (serviceID accountID header : String)

/-- The schemes that `updateMapping` collects. -/
def schemes (mapping : ProxyMapping) : List Scheme :=
  (if mapping.auth.password then [.password mapping.id mapping.accountId] else []) ++
  (if mapping.auth.pin then [.pin mapping.id mapping.accountId] else []) ++
  (if mapping.auth.oidc then [.oidc mapping.id mapping.accountId cfg.forwardedProto] else []) ++
  mapping.auth.headerAuths.map fun h => .header mapping.id mapping.accountId h

/-- `auth.DomainConfig` -/
structure DomainConfig where
  schemes : List Scheme
  sessionPublicKey : List UInt8 := []
  sessionExpiration : ℤ := 0
  accountID : String
  serviceID : String
  ipRestrictions : Option Filter

/-- The configuration that `AddDomain` stores.  Without a scheme the session key is not looked
at. -/
def domainConfig (mapping : ProxyMapping) : Except String DomainConfig :=
  if schemes cfg mapping = [] then
    .ok { schemes := [], accountID := mapping.accountId, serviceID := mapping.id
          ipRestrictions := parseRestrictions cfg mapping }
  else
    match cfg.decodeString mapping.auth.sessionKey with
    | .error err => .error ("decode session public key for domain " ++ mapping.domain ++ ": " ++ err)
    | .ok key =>
      if key.length ≠ 32 then
        .error ("invalid session public key size for domain " ++ mapping.domain ++ ": got " ++
          toString key.length ++ ", want 32")
      else
        .ok { schemes := schemes cfg mapping, sessionPublicKey := key
              sessionExpiration := (mapping.auth.maxSessionAgeSeconds * 1000000000).bmod (2 ^ 64)
              accountID := mapping.accountId, serviceID := mapping.id
              ipRestrictions := parseRestrictions cfg mapping }

/-- `proxy.PathTarget` -/
structure PathTarget where
  url : String
  skipTLSVerify : Bool
  requestTimeout : ℤ
  pathRewrite : PathRewriteMode
  customHeaders : List (String × String)

/-- `proxy.Mapping`.  The sorted paths it caches are those of `paths`. -/
structure Mapping where
  id : String
  accountID : String
  host : String
  paths : StringMap PathTarget
  passHostHeader : Bool
  rewriteRedirects : Bool
  stripAuthHeaders : List String

def pathTarget (p : PathMapping) (url : String) : PathTarget :=
  { url, skipTLSVerify := p.options.skipTlsVerify
    requestTimeout := clampDialTimeout cfg (p.options.requestTimeout.getD 0)
    pathRewrite := p.options.pathRewrite, customHeaders := p.options.customHeaders }

/-- `protoToMapping`.  A path whose target is not a URL is skipped. -/
def protoToMapping (mapping : ProxyMapping) : Mapping :=
  { id := mapping.id, accountID := mapping.accountId, host := mapping.domain
    paths := mapping.path.foldl (fun paths p =>
      match cfg.parseURL p.target with
      | none => paths
      | some url => paths.insert p.path (pathTarget cfg p url)) ∅
    passHostHeader := mapping.passHostHeader, rewriteRedirects := mapping.rewriteRedirects
    stripAuthHeaders := mapping.auth.headerAuths }

/-! ### Account clients -/

/-- `roundtrip.ServiceKey`, with the constructors the source builds its texts by. -/
inductive ServiceKey
  | domain (domain : String)
  | l4 (id : String)
  deriving DecidableEq

def serviceKeyForMapping (mapping : ProxyMapping) : ServiceKey :=
  match mapping.mode with
  | .tcp | .udp => .l4 mapping.id
  | .http | .tls => .domain mapping.domain

end Netbird.Proxy
