/-
The store of the management server.

The tables are lists of rows.  The peer table carries its unique indexes, so a store
that breaks one cannot be built: the operations that write peers fail instead.

* `savePeer_of_mem`, `Replaces.mem_iff` — what a write of one row leaves.
-/
import Netbird.Lib.Command
import Netbird.Lib.Rows
import Netbird.Types.Policy

namespace Netbird

open Rows

/-- `status.Type`, the codes the account manager uses. -/
inductive ErrType where
  | preconditionFailed
  | permissionDenied
  | notFound
  | internal
  | invalidArgument
  | unauthenticated
  deriving DecidableEq

/-- An error: one of the status package, a plain one, a violated unique index, or one
of these with text in front (`fmt.Errorf("…: %w", err)`). -/
inductive Err where
  | status (type : ErrType) (message : String)
  | plain (message : String)
  | uniqueConstraint (index : String)
  | wrapped (context : String) (err : Err)
  deriving DecidableEq

/-- `isUniqueConstraintError`, which searches the text of the error. -/
def Err.isUniqueConstraint : Err → Bool
  | .status _ _ => false
  | .plain _ => false
  | .uniqueConstraint _ => true
  | .wrapped _ err => err.isUniqueConstraint

/-- The type `status.FromError` finds. -/
def Err.type? : Err → Option ErrType
  | .status type _ => some type
  | .plain _ => none
  | .uniqueConstraint _ => some .internal
  | .wrapped _ err => err.type?

/-- The peer table: a primary key that is never empty, and the unique indexes. -/
structure ValidPeers (peers : List Peer) : Prop where
  ids_ne_empty : ∀ p ∈ peers, p.id ≠ ""
  ids : (peers.map fun p => p.id).Nodup
  keys : (peers.map fun p => p.key).Nodup
  ips : (peers.map fun p => (p.accountID, p.ip)).Nodup
  labels : (peers.map fun p => (p.accountID, p.dnsLabel)).Nodup

instance (peers : List Peer) : Decidable (ValidPeers peers) :=
  decidable_of_iff
    ((∀ p ∈ peers, p.id ≠ "") ∧ (peers.map fun p => p.id).Nodup ∧
      (peers.map fun p => p.key).Nodup ∧
      (peers.map fun p => (p.accountID, p.ip)).Nodup ∧
      (peers.map fun p => (p.accountID, p.dnsLabel)).Nodup)
    ⟨fun h => ⟨h.1, h.2.1, h.2.2.1, h.2.2.2.1, h.2.2.2.2⟩, fun h => ⟨h.1, h.2, h.3, h.4, h.5⟩⟩

/-- The columns of the account table that are read here. -/
structure AccountRow where
  id : String
  settings : Settings := {}
  networkSerial : ℕ := 0

structure Store where
  accounts : List AccountRow := []
  peers : List Peer := []
  users : List User := []
  setupKeys : List SetupKey := []
  groups : List Group := []
  policies : List Policy := []
  postureChecks : List PostureChecks := []
  valid : ValidPeers peers

/-- Commands of the account manager. -/
abbrev Op := Command Store Err

namespace Store

/-! ### Reading -/

def peerByKey (s : Store) (key : String) : Option Peer :=
  s.peers.find? fun p => p.key == key

def getPeerByPeerPubKey (key : String) (s : Store) : Except Err Peer :=
  match s.peerByKey key with
  | some p => .ok p
  | none => .error (.status .notFound ("peer not found: " ++ key))

def getAccountIDByPeerPubKey (key : String) (s : Store) : Except Err String :=
  match s.peerByKey key with
  | some p => .ok p.accountID
  | none => .error (.status .notFound "account not found: index lookup failed")

/-- `GetPeerIdByLabel`; an empty ID counts as no row. -/
def getPeerIdByLabel (accountID label : String) (s : Store) : Option String :=
  match s.peers.find? fun p => p.accountID == accountID && p.dnsLabel == label with
  | some p => if p.id = "" then none else some p.id
  | none => none

variable (accountID peerID : String)

def accountAndID (p : Peer) : Bool :=
  p.accountID == accountID && p.id == peerID

def getPeerByID (s : Store) : Except Err Peer :=
  match s.peers.find? (accountAndID accountID peerID) with
  | some p => .ok p
  | none => .error (.status .notFound ("peer not found: " ++ peerID))

def getAccountSettings (accountID : String) (s : Store) : Except Err Settings :=
  match s.accounts.find? fun a => a.id == accountID with
  | some a => .ok a.settings
  | none => .error (.status .notFound "settings not found")

/-- `GetAccountNetwork`, as far as it can fail. -/
def getAccountNetwork (accountID : String) (s : Store) : Except Err Unit :=
  match s.accounts.find? fun a => a.id == accountID with
  | some _ => .ok ()
  | none => .error (.status .notFound ("account not found: " ++ accountID))

def getUserByUserID (userID : String) (s : Store) : Except Err User :=
  match s.users.find? fun u => u.id == userID with
  | some u => .ok u
  | none => .error (.status .notFound ("user: " ++ userID ++ " not found"))

def getSetupKeyBySecret (key : String) (s : Store) : Except Err SetupKey :=
  match s.setupKeys.find? fun k => k.key == key with
  | some k => .ok k
  | none => .error (.status .preconditionFailed "setup key not found")

def getPeerGroupIDs (s : Store) : List String :=
  (s.groups.filter fun g => g.accountID == accountID && g.peers.contains peerID).map (·.id)

def getAccountPolicies (accountID : String) (s : Store) : List Policy :=
  s.policies.filter fun p => p.accountID == accountID

def getGroupByID (accountID groupID : String) (s : Store) : Option Group :=
  s.groups.find? fun g => g.accountID == accountID && g.id == groupID

def getPostureChecksByIDs (accountID : String) (ids : List String) (s : Store) :
    List PostureChecks :=
  s.postureChecks.filter fun c => c.accountID == accountID && ids.contains c.id

/-! ### Writing -/

/-- Replace the peer table, unless a unique index forbids it. -/
def withPeers (s : Store) (peers : List Peer) (err : Err) : Except Err Store :=
  if h : ValidPeers peers then .ok { s with peers := peers, valid := h } else .error err

def addPeerToAccount (p : Peer) (s : Store) : Except Err Store :=
  s.withPeers (s.peers ++ [p]) (.uniqueConstraint "peers")

def savePeer (accountID : String) (p : Peer) (s : Store) : Except Err Store :=
  if s.peers.any (accountAndID accountID p.id) then
    s.withPeers (Rows.replace (accountAndID accountID p.id) (fun _ => { p with accountID := accountID }) s.peers)
      (.status .internal "failed to save peer to store")
  else .error (.status .notFound ("peer " ++ p.id ++ " not found"))

def savePeerStatus (status : PeerStatus) (s : Store) : Except Err Store :=
  if s.peers.any (accountAndID accountID peerID) then
    s.withPeers (Rows.replace (accountAndID accountID peerID) (fun q => { q with status := status }) s.peers)
      (.status .internal "failed to save peer status to store")
  else .error (.status .notFound ("peer " ++ peerID ++ " not found"))

def savePeerLocation (location : Location) (s : Store) : Except Err Store :=
  if s.peers.any (accountAndID accountID peerID) then
    s.withPeers (Rows.replace (accountAndID accountID peerID) (fun q => { q with location := location })
        s.peers)
      (.status .internal "failed to save peer locations to store")
  else .error (.status .notFound ("peer " ++ peerID ++ " not found"))

/-- Insert into the membership table of a group; a repeated row is ignored. -/
def addMember (groupID peerID : String) (groups : List Group) : List Group :=
  groups.map fun g =>
    if g.id = groupID ∧ ¬ peerID ∈ g.peers then { g with peers := g.peers ++ [peerID] } else g

def addPeerToGroup (peerID groupID : String) (s : Store) : Except Err Store :=
  if s.groups.any fun g => g.id == groupID then
    .ok { s with groups := addMember groupID peerID s.groups }
  else .error (.status .internal "failed to add peer to group")

def addPeerToAllGroup (s : Store) : Except Err Store :=
  match s.groups.find? fun g => g.accountID == accountID && g.name == "All" with
  | some g =>
    if g.id = "" then .error (.status .notFound ("group 'All' not found for account " ++ accountID))
    else .ok { s with groups := addMember g.id peerID s.groups }
  | none => .error (.status .notFound ("group 'All' not found for account " ++ accountID))

def incrementNetworkSerial (accountID : String) (s : Store) : Except Err Store :=
  .ok { s with
    accounts := s.accounts.map fun a =>
      if a.id = accountID then { a with networkSerial := a.networkSerial + 1 } else a }

def incrementSetupKeyUsage (setupKeyID : String) (s : Store) : Except Err Store :=
  if s.setupKeys.any fun k => k.id == setupKeyID then
    .ok { s with
      setupKeys := s.setupKeys.map fun k =>
        if k.id = setupKeyID then { k with usedTimes := k.usedTimes + 1 } else k }
  else .error (.status .notFound ("setup key not found: " ++ setupKeyID))

def saveUserLastLogin (accountID userID : String) (lastLogin : Time) (s : Store) :
    Except Err Store :=
  if s.users.any fun u => u.accountID == accountID && u.id == userID then
    .ok { s with
      users := s.users.map fun u =>
        if u.accountID = accountID ∧ u.id = userID ∧ lastLogin ≠ Peer.zeroTime then
          { u with lastLogin := some lastLogin }
        else u }
  else .error (.status .notFound ("user: " ++ userID ++ " not found"))

/-! ### What the lookups return -/

section

variable {s s' : Store} {p q r : Peer} {key accountID label peerID : String}

theorem accountAndID_eq_true :
    accountAndID accountID peerID p = true ↔ p.accountID = accountID ∧ p.id = peerID := by
  simp [accountAndID]

variable {peers : List Peer}

theorem unique_accountAndID (h : ValidPeers peers) (accountID peerID : String) :
    Unique (accountAndID accountID peerID) peers :=
  unique_of_nodup h.ids peerID fun _ hp => (accountAndID_eq_true.mp hp).2

theorem peerByKey_eq_some : s.peerByKey key = some p ↔ p ∈ s.peers ∧ p.key = key := by
  rw [peerByKey, find?_eq_some_of_unique
    (unique_of_nodup s.valid.keys key fun _ hp => by simpa using hp)]
  simp

/-- The label index of an account leads to the one peer with the label. -/
theorem getPeerIdByLabel_eq_some : getPeerIdByLabel accountID label s = some peerID ↔
      ∃ p ∈ s.peers, p.accountID = accountID ∧ p.dnsLabel = label ∧ p.id = peerID := by
  have h : ∀ p, (s.peers.find? fun p => p.accountID == accountID && p.dnsLabel == label) = some p ↔
      p ∈ s.peers ∧ p.accountID = accountID ∧ p.dnsLabel = label := by
    intro p
    rw [find?_eq_some_of_unique
      (unique_of_nodup s.valid.labels (accountID, label) fun _ hp => by simpa using hp)]
    simp
  rw [getPeerIdByLabel]
  cases hf : s.peers.find? fun p => p.accountID == accountID && p.dnsLabel == label with
  | none =>
    simp only [reduceCtorEq, false_iff]
    rintro ⟨p, hp, hacc, hlabel, -⟩
    have := (h p).mpr ⟨hp, hacc, hlabel⟩
    rw [hf] at this
    cases this
  | some p =>
    obtain ⟨hp, hacc, hlabel⟩ := (h p).mp hf
    simp only [if_neg (s.valid.ids_ne_empty p hp), Option.some.injEq]
    constructor
    · rintro rfl
      exact ⟨p, hp, hacc, hlabel, rfl⟩
    · rintro ⟨q, hq, haccq, hlabelq, rfl⟩
      have := (h q).mpr ⟨hq, haccq, hlabelq⟩
      rw [hf] at this
      rw [Option.some.inj this]

theorem getPeerByID_eq_ok : getPeerByID accountID peerID s = .ok p ↔
      p ∈ s.peers ∧ p.accountID = accountID ∧ p.id = peerID := by
  rw [← accountAndID_eq_true,
    ← find?_eq_some_of_unique (unique_accountAndID s.valid accountID peerID), getPeerByID]
  cases s.peers.find? (accountAndID accountID peerID) <;> simp

/-! ### What the writes leave -/

theorem peers_of_withPeers {err : Err} (h : s.withPeers peers err = .ok s') : s'.peers = peers := by
  unfold withPeers at h
  split_ifs at h
  cases h
  rfl

/-- Two rows agree on the columns of the indexes. -/
structure SameIndex (p q : Peer) : Prop where
  id : p.id = q.id
  accountID : p.accountID = q.accountID
  key : p.key = q.key
  ip : p.ip = q.ip
  label : p.dnsLabel = q.dnsLabel

theorem validPeers_replace {sel : Peer → Bool} {row : Peer → Peer}
    (hv : ValidPeers peers) (h : ∀ q ∈ peers, sel q = true → SameIndex (row q) q) :
    ValidPeers (replace sel row peers) where
  ids_ne_empty := by
    intro p hp
    obtain ⟨q, hq, rfl⟩ := List.mem_map.mp hp
    split_ifs with hsel
    · rw [(h q hq hsel).id]
      exact hv.ids_ne_empty q hq
    · exact hv.ids_ne_empty q hq
  ids := by
    rw [map_replace fun q hq hsel => (h q hq hsel).id]
    exact hv.ids
  keys := by
    rw [map_replace fun q hq hsel => (h q hq hsel).key]
    exact hv.keys
  ips := by
    rw [map_replace fun q hq hsel => by rw [(h q hq hsel).accountID, (h q hq hsel).ip]]
    exact hv.ips
  labels := by
    rw [map_replace fun q hq hsel => by rw [(h q hq hsel).accountID, (h q hq hsel).label]]
    exact hv.labels

/-- The second store is the first one with the row of `q` replaced by `p`. -/
def Replaces (q p : Peer) (s s' : Store) : Prop :=
  ∃ hv : ValidPeers (Rows.replace (accountAndID q.accountID q.id) (fun _ => p) s.peers),
    s' = { s with peers := _, valid := hv }

theorem Replaces.mem_iff (h : Replaces q p s s') (hq : q ∈ s.peers) :
    r ∈ s'.peers ↔ r = p ∨ (r ∈ s.peers ∧ r ≠ q) := by
  obtain ⟨hv, rfl⟩ := h
  exact mem_replace (unique_accountAndID s.valid _ _) hq (accountAndID_eq_true.mpr ⟨rfl, rfl⟩)

/-- Two stores with the same rows, up to the columns outside the indexes. -/
structure SameRows (s s' : Store) : Prop where
  keep : ∀ q ∈ s.peers, ∃ q' ∈ s'.peers, SameIndex q' q
  back : ∀ q' ∈ s'.peers, ∃ q ∈ s.peers, SameIndex q' q

theorem SameIndex.refl (p : Peer) : SameIndex p p :=
  ⟨rfl, rfl, rfl, rfl, rfl⟩

theorem SameRows.refl (s : Store) : SameRows s s :=
  ⟨fun q hq => ⟨q, hq, .refl q⟩, fun q hq => ⟨q, hq, .refl q⟩⟩

theorem Replaces.sameRows (h : Replaces q p s s') (hq : q ∈ s.peers) (hidx : SameIndex p q) :
    SameRows s s' where
  keep := by
    intro r hr
    by_cases hrq : r = q
    · exact ⟨p, (h.mem_iff hq).mpr (.inl rfl), hrq ▸ hidx⟩
    · exact ⟨r, (h.mem_iff hq).mpr (.inr ⟨hr, hrq⟩), .refl r⟩
  back := by
    intro r hr
    rcases (h.mem_iff hq).mp hr with rfl | ⟨hr, -⟩
    · exact ⟨q, hq, hidx⟩
    · exact ⟨r, hr, .refl r⟩

theorem savePeer_of_mem (hq : q ∈ s.peers) (h : SameIndex p q) :
    ∃ s', savePeer q.accountID p s = .ok s' ∧ Replaces q p s s' := by
  have hmem : s.peers.any (accountAndID q.accountID p.id) = true := by
    rw [List.any_eq_true]
    exact ⟨q, hq, accountAndID_eq_true.mpr ⟨rfl, h.id.symm⟩⟩
  have hp : { p with accountID := q.accountID } = p := by rw [← h.accountID]
  have hv : ValidPeers (replace (accountAndID q.accountID q.id) (fun _ => p) s.peers) := by
    refine validPeers_replace s.valid fun r hr hsel => ?_
    obtain rfl : r = q := List.inj_on_of_nodup_map s.valid.ids hr hq (accountAndID_eq_true.mp hsel).2
    exact h
  refine ⟨{ s with peers := _, valid := hv }, ?_, hv, rfl⟩
  rw [savePeer, if_pos hmem, hp, h.id, withPeers, dif_pos hv]

theorem peers_of_addPeerToAccount (h : addPeerToAccount p s = .ok s') : s'.peers = s.peers ++ [p] :=
  peers_of_withPeers h

end

end Store

end Netbird
