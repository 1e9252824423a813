/-
The ACL manager of the client (`client/internal/acl/manager.go`): how the firewall rules of a
network map get into the userspace filter.

`applyPeerACLs` goes through the rules of the map.  A rule that the filter has from the map
before, by the text of its parameters, is kept; the others are added; at the end the rules that
the new map does not name are deleted.  A rule that cannot be converted, or that the filter
refuses, ends the loop: the rules taken over so far are deleted again, and the rest of the
function goes on as if the map had ended there.  `applyRouteACLs` does the same for route rules,
whose reuse is left to the filter.

Texts are read with `Library`.  Whether the filter refuses an addition is an input of each update,
given by the position of the rule.
-/
import Netbird.Firewall.RouteRules
import Netbird.Lib.AddrText

namespace Netbird.Acl

open Firewall

/-! ### Messages of the management server -/

/-- `RuleDirection`; numbers without a name can be received. -/
inductive RuleDirection where
  | IN
  | OUT
  | other (n : ℤ) (h : n ≠ 0 ∧ n ≠ 1)
  deriving DecidableEq

def RuleDirection.value : RuleDirection → ℤ
  | .IN => 0
  | .OUT => 1
  | .other n _ => n

inductive RuleAction where
  | ACCEPT
  | DROP
  | other (n : ℤ) (h : n ≠ 0 ∧ n ≠ 1)

inductive RuleProtocol where
  | UNKNOWN
  | ALL
  | TCP
  | UDP
  | ICMP
  | CUSTOM
  | other (n : ℤ) (h : n < 0 ∨ 5 < n)

def RuleProtocol.text : RuleProtocol → String
  | .UNKNOWN => "UNKNOWN"
  | .ALL => "ALL"
  | .TCP => "TCP"
  | .UDP => "UDP"
  | .ICMP => "ICMP"
  | .CUSTOM => "CUSTOM"
  | .other n _ => toString n

/-- `PortInfo`, by what its selection holds. -/
inductive PortInfo where
  | unset
  | port (port : UInt32)
  | range (bounds : Option (UInt32 × UInt32))

def PortInfo.getPort : PortInfo → UInt32
  | .port n => n
  | _ => 0

def PortInfo.getRange : PortInfo → Option (UInt32 × UInt32)
  | .range bounds => bounds
  | _ => none

structure FirewallRule where
  peerIP : String
  direction : RuleDirection
  action : RuleAction
  protocol : RuleProtocol
  port : String := ""
  portInfo : Option PortInfo := none
  policyID : Bytes := []

structure RouteFirewallRule where
  sourceRanges : List String
  action : RuleAction
  destination : String
  protocol : RuleProtocol
  portInfo : Option PortInfo := none
  isDynamic : Bool := false
  domains : List String := []
  policyID : Bytes := []

/-- The part of a `NetworkMap` that the ACL manager reads. -/
structure NetworkMap where
  firewallRules : List FirewallRule
  firewallRulesIsEmpty : Bool
  routesFirewallRules : List RouteFirewallRule

/-- `net.ParseIP`, `strconv.Atoi`, `netip.ParsePrefix`, `strings.ToLower`, `idna.ToUnicode` and
`sha256`. -/
structure Library where
  parseIP : String → Option Bytes
  length_parseIP : ∀ s ip, parseIP s = some ip → ip.length = 16
  parseIP_unspecified : parseIP "0.0.0.0" = some (Addr.v4InV6Prefix ++ ipv4Unspecified)
  atoi : String → Except String ℤ
  parsePrefix : String → Except String Prefix
  caseMap : CaseMap
  toUnicode : String → Except String String
  sha256 : Bytes → Vector UInt8 32

/-! ### Conversions -/

def convertToFirewallProtocol : RuleProtocol → Except String Protocol
  | .TCP => .ok .tcp
  | .UDP => .ok .udp
  | .ICMP => .ok .icmp
  | .ALL => .ok .all
  | protocol => .error ("invalid protocol type: " ++ protocol.text)

def convertFirewallAction : RuleAction → Except String Action
  | .ACCEPT => .ok .accept
  | .DROP => .ok .drop
  | .other n _ => .error ("invalid action type: " ++ toString n)

def portInfoEmpty : Option PortInfo → Bool
  | some (.port n) => n = 0
  | some (.range (some (start, stop))) => start = 0 ∨ stop = 0
  | _ => true

/-- A list with one port. -/
def singlePort (n : UInt16) : Port := ⟨false, [n], fun h => absurd h Bool.false_ne_true⟩

/-- `convertPortInfo`; the numbers are cut to sixteen bits. -/
def convertPortInfo : Option PortInfo → Option Port
  | none => none
  | some info =>
    if info.getPort ≠ 0 then some (singlePort info.getPort.toUInt16)
    else
      match info.getRange with
      | some (start, stop) => some ⟨true, [start.toUInt16, stop.toUInt16], fun _ => le_refl 2⟩
      | none => none

def shouldSkipInvertedRule (protocol : Protocol) (port : Option Port) : Bool :=
  protocol = .all ∨ protocol = .icmp ∨ port = none

/-- What a firewall rule of a map asks for. -/
structure PeerSpec where
  ip : Bytes
  protocol : Protocol
  direction : RuleDirection
  port : Option Port
  action : Action
  deriving DecidableEq

abbrev RuleID := String

def md5Empty : Bytes :=
  [0xd4, 0x1d, 0x8c, 0xd9, 0x8f, 0x00, 0xb2, 0x04, 0xe9, 0x80, 0x09, 0x98, 0xec, 0xf8, 0x42, 0x7e]

/-- The text that `getPeerRuleID` makes of the parameters. -/
def PeerSpec.idStr (s : PeerSpec) : String :=
  Addr.ipText s.ip ++ s.protocol.text ++ toString s.direction.value ++ toString s.action.value ++
    s.port.elim "" Port.text

/-- `getPeerRuleID`: `Sum` puts the digest of what was written, which is nothing, behind its
argument. -/
def PeerSpec.getPeerRuleID (s : PeerSpec) : RuleID :=
  Text.hexEncode (Checked.bytes s.idStr ++ md5Empty)

variable (lib : Library)

/-- The port of a rule: the `PortInfo`, or the text that old management servers send. -/
def FirewallRule.convertPort (r : FirewallRule) : Except String (Option Port) :=
  if ! portInfoEmpty r.portInfo then .ok (convertPortInfo r.portInfo)
  else if r.port ≠ "" then
    match lib.atoi r.port with
    | .error e => .error ("invalid port: " ++ e)
    | .ok value =>
      if value < 1 ∨ 65535 < value then .error "invalid port: out of range 1-65535"
      else .ok (some (singlePort (UInt16.ofNat value.toNat)))
  else .ok none

/-- The first half of `protoRuleToFirewallRule`: the parameters of the rule. -/
def FirewallRule.convert (r : FirewallRule) : Except String PeerSpec :=
  match lib.parseIP r.peerIP with
  | none => .error "invalid IP address, skipping firewall rule"
  | some ip =>
    match convertToFirewallProtocol r.protocol with
    | .error e => .error ("skipping firewall rule: " ++ e)
    | .ok protocol =>
      match convertFirewallAction r.action with
      | .error e => .error ("skipping firewall rule: " ++ e)
      | .ok action =>
        match r.convertPort lib with
        | .error e => .error e
        | .ok port => .ok { ip, protocol, direction := r.direction, port, action }

/-! ### Peer rules -/

/-- `peerRulesPairs`. -/
abbrev RulePairs := AList fun _ : RuleID => List PeerRule

/-- `AddPeerFiltering` of a filter that may refuse the addition. -/
def addPeerFiltering (refused : Option String) (m : PeerRules) (id : Bytes) (s : PeerSpec)
    (sPort dPort : Option Port) : Except String (List PeerRule × PeerRules) :=
  match refused with
  | some e => .error ("add firewall rule: " ++ e)
  | none =>
    match m.addPeerFiltering id s.ip s.protocol sPort dPort s.action with
    | .error e => .error ("add firewall rule: " ++ e)
    | .ok (rule, m) => .ok ([rule], m)

/-- `protoRuleToFirewallRule`: the id and the rules of the filter for a rule of the map. -/
def protoRuleToFirewallRule (stateful : Bool) (refused : Option String) (m : PeerRules)
    (pairs : RulePairs) (r : FirewallRule) : Except String (RuleID × List PeerRule × PeerRules) :=
  match r.convert lib with
  | .error e => .error e
  | .ok s =>
    match pairs.lookup s.getPeerRuleID with
    | some rulesPair => .ok (s.getPeerRuleID, rulesPair, m)
    | none =>
      match s.direction with
      | .IN =>
        (addPeerFiltering refused m r.policyID s none s.port).map fun (rules, m) =>
          (s.getPeerRuleID, rules, m)
      | .OUT =>
        if stateful then .ok ("", [], m)
        else if shouldSkipInvertedRule s.protocol s.port then .ok (s.getPeerRuleID, [], m)
        else
          (addPeerFiltering refused m r.policyID s s.port none).map fun (rules, m) =>
            (s.getPeerRuleID, rules, m)
      | .other _ _ => .error "invalid direction, skipping firewall rule"

/-- The filter, the old rules with those added, and the rules of the new map. -/
structure Progress where
  filter : PeerRules
  pairs : RulePairs
  newPairs : RulePairs

/-- The loop of `applyPeerACLs` from the `i`-th rule on, with the error that ended it. -/
def addPeerRules (stateful : Bool) (refused : ℕ → Option String) :
    ℕ → List FirewallRule → Progress → Progress × Option String
  | _, [], p => (p, none)
  | i, r :: rules, p =>
    match protoRuleToFirewallRule lib stateful (refused i) p.filter p.pairs r with
    | .error e => (p, some e)
    | .ok (id, rulePair, filter) =>
      addPeerRules stateful refused (i + 1) rules
        (if 0 < rulePair.length then
          { filter
            pairs := p.pairs.insert id rulePair
            newPairs := p.newPairs.insert id rulePair }
        else { p with filter })

/-- A loop of `DeletePeerRule` calls; an error is only logged. -/
def deletePeerRules (m : PeerRules) (rules : List PeerRule) : PeerRules :=
  rules.foldl (fun m rule =>
    match m.deletePeerRule rule with
    | .ok m => m
    | .error _ => m) m

def allRules (pairs : RulePairs) : List PeerRule :=
  pairs.entries.flatMap fun e => e.2

/-- The pairs whose id is not among the new ones. -/
def oldPairs (pairs newPairs : RulePairs) : List PeerRule :=
  (pairs.entries.filter fun e => (newPairs.lookup e.1).isNone).flatMap fun e => e.2

def rollBack (m : PeerRules) (newRulePairs : RulePairs) : PeerRules :=
  deletePeerRules m (allRules newRulePairs)

/-- The userspace filter as the ACL manager uses it. -/
structure Filter where
  stateful : Bool
  peerRules : PeerRules
  routeTable : RouteTable

structure DefaultManager where
  firewall : Filter
  peerRulesPairs : RulePairs
  routeRules : List RuleID

def newDefaultManager (stateful : Bool) : DefaultManager where
  firewall := ⟨stateful, .empty, .empty⟩
  peerRulesPairs := ∅
  routeRules := []

/-- The rules of a map from a management server that does not know about rules. -/
def defaultRules : List FirewallRule :=
  [{ peerIP := "0.0.0.0", direction := .IN, action := .ACCEPT, protocol := .ALL },
   { peerIP := "0.0.0.0", direction := .OUT, action := .ACCEPT, protocol := .ALL }]

def NetworkMap.peerRules (networkMap : NetworkMap) : List FirewallRule :=
  if networkMap.firewallRules.length = 0 ∧ ¬ networkMap.firewallRulesIsEmpty then
    networkMap.firewallRules ++ defaultRules
  else networkMap.firewallRules

def DefaultManager.applyPeerACLs (d : DefaultManager) (networkMap : NetworkMap)
    (refused : ℕ → Option String) : DefaultManager :=
  let (p, err) := addPeerRules lib d.firewall.stateful refused 0 networkMap.peerRules
    { filter := d.firewall.peerRules, pairs := d.peerRulesPairs, newPairs := ∅ }
  let filter := if err.isSome then rollBack p.filter p.newPairs else p.filter
  let filter := deletePeerRules filter (oldPairs p.pairs p.newPairs)
  { d with
    firewall := { d.firewall with peerRules := filter }
    peerRulesPairs := p.newPairs }

/-! ### Route rules -/

/-- The errors of `applyRouteACL`. -/
inductive RouteError where
  | sourceRangesEmpty
  | failed (text : String)

def getDefault (p : Prefix) : Prefix :=
  if Addr.is6 p.addr then ⟨ipv6Unspecified, 0⟩ else ⟨ipv4Unspecified, 0⟩

/-- `determineDestination`, for a list of sources with the given first one. -/
def determineDestination (rule : RouteFirewallRule) (dynamicResolver : Bool) (source : Prefix) :
    Except String Network :=
  if rule.isDynamic then
    if dynamicResolver then
      if 0 < rule.domains.length then
        .ok (.set (newDomainSet lib.sha256 lib.toUnicode (rule.domains.map lib.caseMap.toLower)))
      else .ok (.range (getDefault source))
    else .ok (.range (getDefault source))
  else
    match lib.parsePrefix rule.destination with
    | .error e => .error ("parse destination: " ++ e)
    | .ok p => .ok (.range p)

/-- What a route rule of a map asks for. -/
structure RouteSpec where
  sources : List Prefix
  destination : Network
  protocol : Protocol
  dPorts : Option Port
  action : Action

/-- The conversions of `applyRouteACL`. -/
def RouteFirewallRule.convert (rule : RouteFirewallRule) (dynamicResolver : Bool) :
    Except RouteError RouteSpec :=
  if rule.sourceRanges.length = 0 then .error .sourceRangesEmpty
  else
    match rule.sourceRanges.mapM lib.parsePrefix with
    | .error e => .error (.failed ("parse source range: " ++ e))
    | .ok [] => .error .sourceRangesEmpty
    | .ok (source :: sources) =>
      match determineDestination lib rule dynamicResolver source with
      | .error e => .error (.failed ("determine destination: " ++ e))
      | .ok destination =>
        match convertToFirewallProtocol rule.protocol with
        | .error e => .error (.failed ("invalid protocol: " ++ e))
        | .ok protocol =>
          match convertFirewallAction rule.action with
          | .error e => .error (.failed ("invalid action: " ++ e))
          | .ok action =>
            .ok { sources := source :: sources, destination, protocol,
                  dPorts := convertPortInfo rule.portInfo, action }

def applyRouteACL (dynamicResolver : Bool) (refused : Option String) (t : RouteTable)
    (rule : RouteFirewallRule) : Except RouteError (RuleID × RouteTable) :=
  match rule.convert lib dynamicResolver with
  | .error e => .error e
  | .ok s =>
    match refused with
    | some e => .error (.failed ("add route rule: " ++ e))
    | none =>
      let (addedRule, t) := t.addRouteFiltering lib.sha256 rule.policyID s.sources s.destination
        s.protocol none s.dPorts s.action
      .ok (addedRule.id, t)

/-- The filter, the ids of the new map and the errors so far. -/
structure RouteProgress where
  table : RouteTable
  newRouteRules : List RuleID
  errors : List String

/-- The first loop of `applyRouteACLs`, from the `i`-th rule on. -/
def addRouteRules (dynamicResolver : Bool) (refused : ℕ → Option String) :
    ℕ → List RouteFirewallRule → RouteProgress → RouteProgress
  | _, [], p => p
  | i, rule :: rules, p =>
    addRouteRules dynamicResolver refused (i + 1) rules
      (match applyRouteACL lib dynamicResolver (refused i) p.table rule with
      | .ok (id, table) => { p with table, newRouteRules := p.newRouteRules.insert id }
      | .error .sourceRangesEmpty => p
      | .error (.failed e) => { p with errors := p.errors ++ ["add route rule: " ++ e] })

/-- The second loop, over the old ids that are not among the new ones. -/
def deleteRouteRules (p : RouteProgress) (ids : List RuleID) : RouteProgress :=
  ids.foldl (fun p id =>
    match p.table.deleteRouteRule id with
    | .ok table => { p with table }
    | .error e => { p with errors := p.errors ++ ["delete route rule: " ++ e] }) p

/-- `applyRouteACLs`, with the errors it returns. -/
def DefaultManager.applyRouteACLs (d : DefaultManager) (rules : List RouteFirewallRule)
    (dynamicResolver : Bool) (refused : ℕ → Option String) : DefaultManager × List String :=
  let p := addRouteRules lib dynamicResolver refused 0 rules ⟨d.firewall.routeTable, [], []⟩
  let p := deleteRouteRules p (d.routeRules.filter (· ∉ p.newRouteRules))
  ({ d with
      firewall := { d.firewall with routeTable := p.table }
      routeRules := p.newRouteRules }, p.errors)

/-! ### Updates -/

/-- A call of `ApplyFiltering`, with the additions that the filter refuses during the call, by the
position of the rule. -/
structure Update where
  networkMap : NetworkMap
  dnsRouteFeatureFlag : Bool
  refusedPeer : ℕ → Option String
  refusedRoute : ℕ → Option String

/-- `ApplyFiltering`; the errors of the route rules are logged. -/
def DefaultManager.applyFiltering (d : DefaultManager) (u : Update) : DefaultManager :=
  ((d.applyPeerACLs lib u.networkMap u.refusedPeer).applyRouteACLs lib
    u.networkMap.routesFirewallRules u.dnsRouteFeatureFlag u.refusedRoute).1

end Netbird.Acl
