/-
How the proxy decides about one HTTP request.

`Protect` reads the protection of the requested host once: a host without one lets the request
through, otherwise the client's address is checked first and then, if the service has
authentication schemes, a session cookie or an authentication header is asked for.  What lets a
request through without either is answered by the proxy itself.  `findTargetForRequest` then reads
the HTTP mapping of the host.

The proxy learns about the client and its credentials from elsewhere: a `Request` holds the
answers.

* `findTarget_isSome_iff` — which requests a mapping forwards.
-/
import Netbird.Lib.Addr
import Netbird.Proxy.Mapping
import Mathlib.Data.List.Sort

namespace Netbird.Proxy

open List

/-! ### Access restrictions -/

/-- `restrict.Verdict` -/
inductive Verdict
  | allow
  | denyCIDR
  | denyCountry
  | denyGeoUnavailable
  | denyCrowdSecBan
  | denyCrowdSecCaptcha
  | denyCrowdSecThrottle
  | denyCrowdSecUnavailable
  deriving DecidableEq

/-- `restrict.DecisionType`; any other one is a ban too. -/
inductive DecisionType
  | ban
  | captcha
  | throttle
  deriving DecidableEq

/-- What is known about the client when its address is checked. -/
structure Client where
  /-- the resolved address, if it is valid -/
  addr : Option (List UInt8) := none
  /-- the country of the address, empty if unknown; nothing without a database -/
  country : Option String := none
  /-- the bouncer has completed its first synchronisation -/
  crowdsecReady : Bool := false
  crowdsecDecision : Option DecisionType := none

/-- The bits of an address, the first one first. -/
def addrBits (addr : List UInt8) : List Bool :=
  addr.flatMap fun b => (List.range 8).map fun i => b.toNat.testBit (7 - i)

def Cidr.contains (c : Cidr) (addr : List UInt8) : Bool :=
  c.addr.length == addr.length && (addrBits c.addr).take c.bits == (addrBits addr).take c.bits

namespace Filter

variable (f : Filter)

def checkCIDR (addr : List UInt8) : Verdict :=
  if f.allowedCIDRs ≠ [] ∧ ¬ f.allowedCIDRs.any (·.contains addr) then .denyCIDR
  else if f.blockedCIDRs.any (·.contains addr) then .denyCIDR
  else .allow

def checkCountry (geo : Option String) : Verdict :=
  if f.allowedCountries = [] ∧ f.blockedCountries = [] then .allow
  else
    match geo with
    | none => .denyGeoUnavailable
    | some code =>
      if code = "" then (if f.allowedCountries ≠ [] then .denyCountry else .allow)
      else if f.allowedCountries ≠ [] ∧ code ∉ f.allowedCountries then .denyCountry
      else if code ∈ f.blockedCountries then .denyCountry
      else .allow

def checkCrowdSec (client : Client) : Verdict :=
  if f.crowdSecMode = .off then .allow
  else if ¬ f.crowdSec ∨ ¬ client.crowdsecReady then
    (if f.crowdSecMode = .enforce then .denyCrowdSecUnavailable else .allow)
  else
    match client.crowdsecDecision with
    | none => .allow
    | some .captcha => .denyCrowdSecCaptcha
    | some .throttle => .denyCrowdSecThrottle
    | some .ban => .denyCrowdSecBan

def check (addr : List UInt8) (client : Client) : Verdict :=
  match f.checkCIDR (Addr.unmap addr) with
  | .allow =>
    match f.checkCountry client.country with
    | .allow => f.checkCrowdSec client
    | v => v
  | v => v

end Filter

def Verdict.isCrowdSec : Verdict → Bool
  | .denyCrowdSecBan | .denyCrowdSecCaptcha | .denyCrowdSecThrottle | .denyCrowdSecUnavailable =>
    true
  | _ => false

def checkIPRestrictions (client : Client) (config : DomainConfig) : Bool :=
  match config.ipRestrictions with
  | none => true
  | some f =>
    match client.addr with
    | none => false
    | some addr =>
      let verdict := f.check addr client
      verdict == .allow || (verdict.isCrowdSec && f.crowdSecMode == .observe)

/-! ### Authentication -/

/-- How one header scheme ends: the header is missing, the request goes on with a valid session,
or the proxy answers it. -/
inductive HeaderResult
  | notHandled
  | forwarded
  | answered
  deriving DecidableEq

/-- A request, with the answers that the proxy gets about it. -/
structure Request where
  host : String
  path : String
  client : Client := {}
  /-- the query has an `error` parameter -/
  oauthError : Bool := false
  /-- the session cookie is valid for the host under the key -/
  sessionCookie : List UInt8 → Bool := fun _ => false
  /-- `tryHeaderScheme`, by service, account, header and key -/
  tryHeaderScheme : String → String → String → List UInt8 → HeaderResult :=
    fun _ _ _ _ => .notHandled

/-- `forwardWithHeaderAuth`, with whether the request goes on: the first header that is there
decides. -/
def forwardWithHeaderAuth (r : Request) (key : List UInt8) : List Scheme → Bool
  | [] => false
  | .header serviceID accountID header :: rest =>
    match r.tryHeaderScheme serviceID accountID header key with
    | .notHandled => forwardWithHeaderAuth r key rest
    | .forwarded => true
    | .answered => false
  | _ :: rest => forwardWithHeaderAuth r key rest

/-- Whether a request passes the restrictions and the authentication of a configuration.
`authenticateWithSchemes`, which comes last, redirects or answers, and never goes on. -/
def lets (r : Request) (config : DomainConfig) : Bool :=
  checkIPRestrictions r.client config &&
    (config.schemes.isEmpty || (!r.oauthError &&
      (r.sessionCookie config.sessionPublicKey ||
        forwardWithHeaderAuth r config.sessionPublicKey config.schemes)))

variable (cfg : Config)

def requestHost (r : Request) : String :=
  match cfg.splitHostPort r.host with
  | some (host, _) => host
  | none => r.host

/-- The service asks for something: it has authentication schemes or access restrictions. -/
def IsProtected (m : ProxyMapping) : Prop :=
  schemes cfg m ≠ [] ∨ parseRestrictions cfg m ≠ none

instance (m : ProxyMapping) : Decidable (IsProtected cfg m) :=
  inferInstanceAs (Decidable (_ ∨ _))

/-! ### Forwarding -/

/-- The paths of a mapping, the longest first. -/
def sortedPaths (m : Mapping) : List String :=
  m.paths.keys.insertionSort fun a b => b.length ≤ a.length

/-- `findTargetForRequest`, once the mapping of the host is found. -/
def findTarget (m : Mapping) (path : String) : Option (String × PathTarget) :=
  ((sortedPaths m).find? (·.toList.isPrefixOf path.toList)).bind fun p =>
    (m.paths.lookup p).map (p, ·)

theorem findTarget_isSome_iff (m : Mapping) (path : String) :
    (findTarget m path).isSome ↔ ∃ p ∈ m.paths, p.toList <+: path.toList := by
  rw [findTarget]
  constructor
  · intro h
    cases hfind : (sortedPaths m).find? (·.toList.isPrefixOf path.toList) with
    | none => simp [hfind] at h
    | some p =>
      have hmem := mem_of_find?_eq_some hfind
      rw [sortedPaths, mem_insertionSort] at hmem
      exact ⟨p, hmem, by simpa using find?_some hfind⟩
  · rintro ⟨p, hp, hpre⟩
    have hp' : p ∈ sortedPaths m := by
      rw [sortedPaths, mem_insertionSort]
      exact hp
    cases hfind : (sortedPaths m).find? (·.toList.isPrefixOf path.toList) with
    | none =>
      have := find?_eq_none.mp hfind p hp'
      simp [hpre] at this
    | some q =>
      have hmem := mem_of_find?_eq_some hfind
      rw [sortedPaths, mem_insertionSort] at hmem
      obtain ⟨t, ht⟩ := Option.isSome_iff_exists.mp (AList.lookup_isSome.mpr hmem)
      simp [ht]

end Netbird.Proxy
