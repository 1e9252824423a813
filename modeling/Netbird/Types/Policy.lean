/-
Groups, policies, posture checks, users and setup keys of an account: the records
that the account manager and the network map are computed from.
-/
import Netbird.Lib.Text
import Netbird.Peer.Meta

namespace Netbird

/-- `ResourceType`; `unset` is the empty string. -/
inductive ResourceType where
  | unset
  | peer
  | domain
  | host
  | subnet
  deriving DecidableEq

structure Resource where
  id : String := ""
  type : ResourceType := .unset
  deriving DecidableEq

structure Group where
  id : String
  accountID : String := ""
  name : String := ""
  peers : List String := []
  resources : List Resource := []
  deriving DecidableEq

def Group.isGroupAll (g : Group) : Bool :=
  g.name == "All"

/-- `PolicyTrafficActionType`. -/
inductive PolicyTrafficAction where
  | accept
  | drop
  deriving DecidableEq

/-- `PolicyRuleProtocolType`. -/
inductive PolicyRuleProtocol where
  | all
  | tcp
  | udp
  | icmp
  | netbirdSSH
  deriving DecidableEq

structure RulePortRange where
  start : UInt16 := 0
  finish : UInt16 := 0
  deriving DecidableEq

structure PolicyRule where
  id : String
  policyID : String := ""
  enabled : Bool := true
  action : PolicyTrafficAction := .accept
  destinations : List String := []
  destinationResource : Resource := {}
  sources : List String := []
  sourceResource : Resource := {}
  bidirectional : Bool := false
  protocol : PolicyRuleProtocol := .all
  ports : List String := []
  portRanges : List RulePortRange := []
  authorizedGroups : StringMap (List String) := ∅
  authorizedUser : String := ""
  deriving DecidableEq

structure Policy where
  id : String
  accountID : String := ""
  enabled : Bool := true
  rules : List PolicyRule := []
  sourcePostureChecks : List String := []
  deriving DecidableEq

/-- `Policy.SourceGroups`; the order for several rules is that of a Go map. -/
def Policy.sourceGroups (p : Policy) : List String :=
  match p.rules with
  | [rule] => rule.sources
  | rules => (rules.flatMap (·.sources)).dedup

/-- `posture.Checks`, with the verdicts of the checks it contains. -/
structure PostureChecks where
  id : String
  accountID : String := ""
  checks : List (Peer → Bool) := []

structure Settings where
  peerLoginExpirationEnabled : Bool := false
  peerLoginExpiration : Duration := 0

structure User where
  id : String
  accountID : String
  autoGroups : List String := []
  blocked : Bool := false
  isServiceUser : Bool := false
  pendingApproval : Bool := false
  lastLogin : Option Time := none
  deriving DecidableEq

inductive SetupKeyType where
  | reusable
  | oneOff
  deriving DecidableEq

structure SetupKey where
  id : String
  accountID : String
  /-- The encoded hash of the secret. -/
  key : String
  name : String := ""
  type : SetupKeyType := .reusable
  expiresAt : Option Time := none
  revoked : Bool := false
  usedTimes : ℤ := 0
  autoGroups : List String := []
  usageLimit : ℤ := 0
  ephemeral : Bool := false
  allowExtraDNSLabels : Bool := false

namespace SetupKey

def isExpired (key : SetupKey) (now : Time) : Bool :=
  key.expiresAt.any fun t => t < now

def isOverUsed (key : SetupKey) : Bool :=
  let limit := if key.type = .oneOff then 1 else key.usageLimit
  limit > 0 && key.usedTimes ≥ limit

def isValid (key : SetupKey) (now : Time) : Bool :=
  !key.revoked && !key.isExpired now && !key.isOverUsed

end SetupKey

end Netbird
