/-
Adding a peer to an account.

`AddPeer` accepts three kinds of credentials: a setup key, a user, or the mTLS
identity of the call.  It draws an address and a label, up to ten times, until the
unique indexes of the store accept the new row.

* `addPeer_mtls_cases` — a machine peer: nothing is written, or one row is added to
  the account of the identity, with the key and metadata of the request.
-/
import Netbird.Mtls.DnsLabel
import Netbird.Mtls.Identity
import Netbird.Store.Tables

namespace Netbird

open Command Mtls Ensures Store

/-- What a call takes from outside the store: the clock, random values and the other
components of the server. -/
structure Deps where
  caseMap : CaseMap
  sorts : MetaSorts
  hmac : Hmac
  /-- `time.Now()`. -/
  now : Time
  /-- `xid.New().String()`, a text of twenty characters. -/
  newID : String
  newID_ne_empty : newID ≠ ""
  /-- The address drawn by `AllocateRandomPeerIP` in each attempt. -/
  allocatedIP : ℕ → UInt32
  /-- `nbdns.GetParsedDomainLabel`. -/
  getParsedDomainLabel : String → Except Err String
  /-- `domain.ValidateDomainsList` of a list that is not empty. -/
  validateDomainsList : List String → Except Err Unit
  /-- The encoded hash of a setup key in upper case. -/
  hashSetupKey : String → String
  /-- `ValidateUserPermissions` for creating peers in the account. -/
  mayCreatePeers : String → String → Except Err Bool
  /-- The e-mail address the identity provider has for the user. -/
  userEmail : String → Option String
  /-- The geo database: country code, city name and its ID. -/
  geoLookup : IP → Option (String × String × ℕ)
  /-- `PreparePeer` of the peer validator, which sets the approval status. -/
  prepareStatus : Peer → PeerStatus
  /-- `IsNotValidPeer` of the peer validator. -/
  isNotValidPeer : String → Peer → List String → Except Err (Bool × Bool)
  /-- `OnPeersUpdated` of the network map controller. -/
  onPeersUpdated : String → String → Except Err Unit
  /-- `GetValidatedPeerWithMap` of the controller, which returns the peer it is given. -/
  getValidatedPeerWithMap : Bool → String → Peer → Except Err Unit

/-! ### Authorization -/

structure PeerAddAuthConfig where
  accountID : String
  setupKeyID : String := ""
  groupsToAdd : List String := []
  allowExtraDNSLabels : Bool := false
  ephemeral : Bool := false

variable (deps : Deps)

def handleUserAddedPeer (accountID userID : String) (temporary : Bool)
    (config : PeerAddAuthConfig) : Op PeerAddAuthConfig := do
  let user ← mapError (fun _ => .status .notFound "failed adding new peer: user not found")
    (readsExcept (getUserByUserID userID))
  if user.pendingApproval then
    fail (.status .permissionDenied "user pending approval cannot add peers")
  else if temporary then do
    let allowed ← mapError
      (fun _ => .status .permissionDenied "failed to validate user permissions")
      (ofResult (deps.mayCreatePeers accountID userID))
    if !allowed then fail (.status .permissionDenied "permission denied") else pure config
  else pure { config with accountID := user.accountID, groupsToAdd := user.autoGroups }

def handleSetupKeyAddedPeer (encodedHashedKey : String) (peer : Peer)
    (config : PeerAddAuthConfig) : Op PeerAddAuthConfig := do
  let sk ← mapError (fun _ => .status .notFound "couldn't add peer: setup key is invalid")
    (readsExcept (getSetupKeyBySecret encodedHashedKey))
  if !sk.isValid deps.now then
    fail (.status .notFound "couldn't add peer: setup key is invalid")
  else if !sk.allowExtraDNSLabels && peer.extraDNSLabels.length > 0 then
    fail (.status .preconditionFailed
      "couldn't add peer: setup key doesn't allow extra DNS labels")
  else pure { config with
    groupsToAdd := sk.autoGroups
    ephemeral := sk.ephemeral
    setupKeyID := sk.id
    allowExtraDNSLabels := sk.allowExtraDNSLabels
    accountID := sk.accountID }

def processPeerAddAuth (accountID userID encodedHashedKey : String) (peer : Peer)
    (temporary addedByUser addedBySetupKey : Bool) : Op PeerAddAuthConfig := do
  let config : PeerAddAuthConfig := { accountID, ephemeral := peer.ephemeral }
  let config ←
    if addedByUser then handleUserAddedPeer deps accountID userID temporary config
    else if addedBySetupKey then handleSetupKeyAddedPeer deps encodedHashedKey peer config
    else pure config
  pure (if temporary then { config with ephemeral := true } else config)

/-! ### Address and label -/

/-- `uint32ToIP`: the bytes of the address, most significant first. -/
def uint32ToIP (n : UInt32) : IP :=
  [(n >>> 24).toUInt8, (n >>> 16).toUInt8, (n >>> 8).toUInt8, n.toUInt8]

def getPeerIPDNSLabel (ip : IP) (peerHostName : String) : Except Err String :=
  match deps.getParsedDomainLabel peerHostName with
  | .error e => .error (.wrapped "failed to parse peer host name" e)
  | .ok dnsName =>
    .ok (dnsName ++ "-" ++ (ip.getD 2 0).toNat.repr ++ "-" ++ (ip.getD 3 0).toNat.repr)

/-- The switch that chooses `freeLabel`. -/
def freeLabel (peer : Peer) (ephemeral : Bool) (attempt : ℕ) (freeIP : IP) : Except Err String :=
  let m := peer.systemMeta
  if m.certDNSName ≠ "" ∧ m.certDomain ≠ "" then
    let label := generateUniqueDNSLabel deps.caseMap deps.hmac m.hostname m.certDomain
    match validateDNSLabel label with
    | .ok () => .ok label
    | .error _ =>
      (getPeerIPDNSLabel deps freeIP m.hostname).mapError (.wrapped "failed to get free DNS label")
  else if ephemeral ∨ attempt > 1 then
    (getPeerIPDNSLabel deps freeIP m.hostname).mapError (.wrapped "failed to get free DNS label")
  else
    (deps.getParsedDomainLabel m.hostname).mapError (.wrapped "failed to get free DNS label")

/-! ### The attempts -/

/-- How the new peer was authorized, as far as the transaction depends on it. -/
inductive AddedBy where
  | user (userID : String)
  | mtls
  | setupKey (encodedHashedKey : String)
  | none

/-- Membership of the group `All`, for peers that are not embedded in a proxy. -/
def joinAllGroup (accountID : String) (newPeer : Peer) : Op Unit :=
  if newPeer.proxyMeta.embedded then pure ()
  else mapError (.wrapped "failed adding peer to All group")
    (update (addPeerToAllGroup accountID newPeer.id))

variable (config : PeerAddAuthConfig)

/-- What is recorded with the credential: the login of the user, or the use of the
setup key, which is checked once more. -/
def recordCredential (newPeer : Peer) : AddedBy → Op Unit
  | .user userID => do
    let _ ← attempt (update (saveUserLastLogin config.accountID userID newPeer.getLastLogin))
    pure ()
  | .setupKey encodedHashedKey => do
    let sk ← mapError (.wrapped "failed to get setup key")
      (readsExcept (getSetupKeyBySecret encodedHashedKey))
    if sk.isValid deps.now then
      mapError (.wrapped "failed to increment setup key usage")
        (update (incrementSetupKeyUsage config.setupKeyID))
    else fail (.status .preconditionFailed "couldn't add peer: setup key is invalid")
  | .mtls => pure ()
  | .none => pure ()

/-- The transaction of one attempt. -/
def insertPeer (addedBy : AddedBy) (newPeer : Peer) : Op Unit := do
  update (addPeerToAccount newPeer)
  config.groupsToAdd.forM fun g => update (addPeerToGroup newPeer.id g)
  joinAllGroup config.accountID newPeer
  recordCredential deps config newPeer addedBy
  mapError (.wrapped "failed to increment network serial")
    (update (incrementNetworkSerial config.accountID))

def withAddress (newPeer : Peer) (label : String) (ip : IP) : Peer :=
  { newPeer with dnsLabel := label, ip := ip }

def maxAttempts : ℕ := 10

/-- The loop over the attempts: `remaining` more, the next being number `attempt`. -/
def addPeerLoop (deps : Deps) (config : PeerAddAuthConfig) (addedBy : AddedBy) (peer newPeer : Peer)
    (err : Err) : ℕ → ℕ → Op Peer
  | 0, _ => fail (.wrapped "failed to add peer to database after 10 attempts" err)
  | remaining + 1, n => do
    let freeIP := uint32ToIP (deps.allocatedIP n)
    let label ← ofResult (freeLabel deps peer config.ephemeral n freeIP)
    let candidate := withAddress newPeer label freeIP
    match ← attempt (transaction (insertPeer deps config addedBy candidate)) with
    | .ok () => pure candidate
    | .error e =>
      if e.isUniqueConstraint then
        addPeerLoop deps config addedBy peer newPeer e remaining (n + 1)
      else fail (.wrapped "failed to add peer to database" e)

/-! ### AddPeer -/

/-- The host name of phones that report only their model, completed with the user. -/
def completeHostname (userID : String) (peer : Peer) : Peer :=
  let lower := deps.caseMap.toLower peer.systemMeta.hostname
  if (lower = "iphone" ∨ lower = "ipad") ∧ userID ≠ "" then
    match deps.userEmail userID with
    | some email =>
      let name := String.ofList (email.toList.takeWhile (· != '@'))
      { peer with systemMeta :=
        { peer.systemMeta with hostname := peer.systemMeta.hostname ++ "-" ++ name } }
    | none => peer
  else peer

/-- The geo location of the new peer, when its connection address is known. -/
def locate (location : Location) : Location :=
  match location.connectionIP with
  | none => location
  | some ip =>
    match deps.geoLookup ip with
    | none => location
    | some (country, city, geoNameID) =>
      { location with countryCode := country, cityName := city, geoNameID := geoNameID }

/-- The record `AddPeer` builds before it draws an address and a label. -/
def newPeerRecord (userID : String) (peer : Peer) (expires : Bool) : Peer :=
  let p : Peer :=
    { id := deps.newID
      accountID := config.accountID
      key := peer.key
      systemMeta := peer.systemMeta
      name := peer.systemMeta.hostname
      userID := userID
      status := { connected := false, lastSeen := deps.now }
      sshEnabled := false
      sshKey := peer.sshKey
      lastLogin := some deps.now
      createdAt := deps.now
      loginExpirationEnabled := expires
      ephemeral := config.ephemeral
      proxyMeta := peer.proxyMeta
      location := locate deps peer.location
      inactivityExpirationEnabled := expires
      extraDNSLabels := peer.extraDNSLabels
      allowExtraDNSLabels := config.allowExtraDNSLabels }
  { p with status := deps.prepareStatus p }

/-- The account and groups of the new peer: those of the mTLS identity, or what the
user or the setup key stands for. -/
def authorizePeer (identity : Option Identity)
    (accountID setupKey userID : String) (peer : Peer) (temporary : Bool) :
    Op (PeerAddAuthConfig × AddedBy) :=
  match identity, decide (setupKey = "" ∧ userID = "") with
  | some identity, true => pure ({ accountID := identity.accountID }, .mtls)
  | _, _ => do
    let encodedHashedKey := deps.hashSetupKey setupKey
    let config ← processPeerAddAuth deps accountID userID encodedHashedKey peer temporary
      (userID != "") (setupKey != "")
    let addedBy : AddedBy :=
      if userID ≠ "" then .user userID
      else if setupKey ≠ "" then .setupKey encodedHashedKey
      else .none
    pure (config, addedBy)

/-- The check of the extra labels, `ValidateDomainsList`. -/
def checkExtraDNSLabels (labels : List String) : Op Unit :=
  if labels = [] then pure ()
  else mapError (.wrapped "invalid extra DNS labels") (ofResult (deps.validateDomainsList labels))

/-- The second half of `AddPeer`, once the account is known. -/
def addAuthorizedPeer (addedBy : AddedBy)
    (userID : String) (peer : Peer) (temporary : Bool) : Op Peer := do
  let peer := completeHostname deps userID peer
  checkExtraDNSLabels deps peer.extraDNSLabels
  let newPeer := newPeerRecord deps config userID peer (userID != "" && !temporary)
  let _ ← mapError (.wrapped "failed to get account settings")
    (readsExcept (getAccountSettings config.accountID))
  mapError (.wrapped "failed getting network")
    (readsExcept (getAccountNetwork config.accountID))
  let newPeer ← addPeerLoop deps config addedBy peer newPeer
    (.status .internal "") maxAttempts 1
  ofResult (deps.getValidatedPeerWithMap false config.accountID newPeer)
  pure newPeer

def addPeer (identity : Option Identity) (accountID setupKey userID : String)
    (peer : Peer) (temporary : Bool) : Op Peer := do
  let addedByMTLS := identity.isSome && setupKey == "" && userID == ""
  if setupKey = "" ∧ userID = "" ∧ !addedByMTLS ∧ !peer.proxyMeta.embedded then
    fail (.status .unauthenticated
      "no peer auth method provided, please use a setup key or interactive SSO login")
  else do
    -- the same machine may have been registered by an earlier call
    let known ← reads (·.peerByKey peer.key)
    if known.isSome then fail (.status .preconditionFailed "peer has been already registered")
    else do
      let (config, addedBy) ←
        authorizePeer deps identity accountID setupKey userID peer temporary
      addAuthorizedPeer deps config addedBy userID peer temporary

/-! ### What an attempt can leave behind -/

/-- The command before and after leaves the peer table alone. -/
def SamePeers (s s' : Store) : Prop :=
  s'.peers = s.peers

instance : Std.Refl SamePeers := ⟨fun _ => rfl⟩

instance : IsTrans Store SamePeers := ⟨fun _ _ _ h h' => h'.trans h⟩

theorem samePeers_update {f : Store → Except Err Store}
    (h : ∀ s s', f s = .ok s' → s'.peers = s.peers) : Ensures SamePeers (update f) :=
  update h

theorem samePeers_joinAllGroup (accountID : String) (newPeer : Peer) :
    Ensures SamePeers (joinAllGroup accountID newPeer) := by
  unfold joinAllGroup
  split_ifs
  · exact pure _
  · refine mapError _ (samePeers_update fun s s' h => ?_)
    unfold addPeerToAllGroup at h
    split at h
    · split_ifs at h
      cases h
      rfl
    · cases h

variable (deps : Deps) (config : PeerAddAuthConfig)

theorem samePeers_recordCredential (newPeer : Peer)
    (addedBy : AddedBy) : Ensures SamePeers (recordCredential deps config newPeer addedBy) := by
  cases addedBy with
  | mtls => exact pure _
  | none => exact pure _
  | user userID =>
    refine bind (attempt (samePeers_update fun s s' h => ?_))
      fun _ => pure _
    unfold saveUserLastLogin at h
    split_ifs at h
    cases h
    rfl
  | setupKey encodedHashedKey =>
    refine bind (mapError _ (readsExcept _)) fun sk => ?_
    split_ifs
    · refine mapError _ (samePeers_update fun s s' h => ?_)
      unfold incrementSetupKeyUsage at h
      split_ifs at h
      cases h
      rfl
    · exact fail _

/-- A transaction that goes through adds exactly the new row. -/
theorem insertPeer_eq_ok {deps : Deps} {config : PeerAddAuthConfig} {addedBy : AddedBy}
    {newPeer : Peer} {s s' : Store} (h : insertPeer deps config addedBy newPeer s = (.ok (), s')) :
    s'.peers = s.peers ++ [newPeer] := by
  obtain ⟨u, s₁, hadd, hrest⟩ := bind_eq_ok.mp h
  -- everything after the insertion works on other tables
  have hpeers : SamePeers s₁ s' := by
    refine of_eq ?_ hrest
    refine bind (forM (fun g => samePeers_update fun s s' h => ?_) _) fun _ => ?_
    · unfold addPeerToGroup at h
      split_ifs at h
      cases h
      rfl
    refine bind (samePeers_joinAllGroup _ _) fun _ => ?_
    refine bind (samePeers_recordCredential _ _ _ _) fun _ => ?_
    refine mapError _ (samePeers_update fun s s' h => ?_)
    cases h
    rfl
  rw [hpeers, peers_of_addPeerToAccount (update_eq_ok.mp hadd)]

/-- The attempts either all fail and leave the store as it was, or one of them adds
the candidate with the address and label drawn for it. -/
theorem addPeerLoop_cases (addedBy : AddedBy)
    (peer newPeer : Peer) (s : Store) (remaining : ℕ) : ∀ (err : Err) (n : ℕ),
    (∃ e, addPeerLoop deps config addedBy peer newPeer err remaining n s = (.error e, s)) ∨
      ∃ k label s', freeLabel deps peer config.ephemeral k (uint32ToIP (deps.allocatedIP k)) =
          .ok label ∧ addPeerLoop deps config addedBy peer newPeer err remaining n s =
          (.ok (withAddress newPeer label (uint32ToIP (deps.allocatedIP k))), s') ∧
        s'.peers = s.peers ++ [withAddress newPeer label (uint32ToIP (deps.allocatedIP k))] := by
  induction remaining with
  | zero => exact fun err n => .inl ⟨_, rfl⟩
  | succ remaining ih =>
    intro err n
    rw [addPeerLoop]
    rcases hlabel : freeLabel deps peer config.ephemeral n (uint32ToIP (deps.allocatedIP n)) with e | label
    · exact .inl ⟨e, rfl⟩
    · rw [ofResult_bind_ok]
      rcases transaction_cases (insertPeer deps config addedBy
          (withAddress newPeer label (uint32ToIP (deps.allocatedIP n)))) s with
        ⟨u, s', hok, ht⟩ | ⟨e, s', -, ht⟩
      · rw [attempt_bind_of_ok ht]
        exact .inr ⟨n, label, s', hlabel, rfl, insertPeer_eq_ok hok⟩
      · rw [attempt_bind_of_error ht]
        dsimp only
        split_ifs with hunique
        · exact ih e (n + 1)
        · exact .inl ⟨_, rfl⟩

/-! ### Machine peers -/

theorem freeLabel_of_cert {deps : Deps} {peer : Peer} {ephemeral : Bool} {n : ℕ} {ip : IP}
    (hname : peer.systemMeta.certDNSName ≠ "") (hdomain : peer.systemMeta.certDomain ≠ "") :
    freeLabel deps peer ephemeral n ip =
      .ok (generateUniqueDNSLabel deps.caseMap deps.hmac peer.systemMeta.hostname
        peer.systemMeta.certDomain) := by
  simp only [freeLabel, if_pos (And.intro hname hdomain), validateDNSLabel_generate]

/-- What `AddPeer` writes into the row of a machine peer. -/
structure IsMachineRow (deps : Deps) (identity : Identity) (peer p : Peer) : Prop where
  id : p.id = deps.newID
  accountID : p.accountID = identity.accountID
  key : p.key = peer.key
  systemMeta : p.systemMeta = peer.systemMeta
  userID : p.userID = ""
  label : ∃ n ip, freeLabel deps peer false n ip = .ok p.dnsLabel

theorem reads_checkExtraDNSLabels (labels : List String) :
    Ensures (· = ·) (checkExtraDNSLabels deps labels) := by
  unfold checkExtraDNSLabels
  split_ifs
  · exact pure _
  · exact mapError _ (ofResult _)

/-- The second half of `AddPeer` writes nothing, or adds one row; it may still fail
after that. -/
theorem addAuthorizedPeer_cases (addedBy : AddedBy) (peer : Peer) (temporary : Bool) (s : Store) :
    (∃ e, addAuthorizedPeer deps config addedBy "" peer temporary s = (.error e, s)) ∨
      ∃ k label p s', p = withAddress (newPeerRecord deps config "" peer false) label
          (uint32ToIP (deps.allocatedIP k)) ∧
        freeLabel deps peer config.ephemeral k (uint32ToIP (deps.allocatedIP k)) = .ok label ∧
        s'.peers = s.peers ++ [p] ∧
        (addAuthorizedPeer deps config addedBy "" peer temporary s = (.ok p, s') ∨
          ∃ e, addAuthorizedPeer deps config addedBy "" peer temporary s = (.error e, s')) := by
  have hname : completeHostname deps "" peer = peer := by simp [completeHostname]
  unfold addAuthorizedPeer
  rw [hname]
  rcases bind_cases_of_reads (reads_checkExtraDNSLabels deps peer.extraDNSLabels) _ s with
    ⟨e, -, h⟩ | ⟨u, -, h⟩
  · exact .inl ⟨e, h⟩
  rw [h]
  rcases bind_cases_of_reads (mapError _ (readsExcept _)) _ s with
    ⟨e, -, h⟩ | ⟨settings, -, h⟩
  · exact .inl ⟨e, h⟩
  rw [h]
  rcases bind_cases_of_reads (mapError _ (readsExcept _)) _ s with
    ⟨e, -, h⟩ | ⟨network, -, h⟩
  · exact .inl ⟨e, h⟩
  rw [h]
  rcases addPeerLoop_cases deps config addedBy peer (newPeerRecord deps config "" peer false) s
      maxAttempts (.status .internal "") 1 with ⟨e, h⟩ | ⟨k, label, s', hlabel, h, hpeers⟩
  · exact .inl ⟨e, bind_of_error h⟩
  · refine .inr ⟨k, label, _, s', rfl, hlabel, hpeers, ?_⟩
    rw [bind_of_ok (show addPeerLoop deps config addedBy peer
      (newPeerRecord deps config "" peer ("" != "" && !temporary)) _ _ _ s = _ from h)]
    cases hmap : deps.getValidatedPeerWithMap false config.accountID
        (withAddress (newPeerRecord deps config "" peer false) label
          (uint32ToIP (deps.allocatedIP k))) with
    | ok u => exact .inl rfl
    | error e => exact .inr ⟨e, rfl⟩

/-- A call with an mTLS identity and no other credential writes nothing, or adds one
row for a key that was not there; it may still fail after that. -/
theorem addPeer_mtls_cases (identity : Identity) (accountID : String) (peer : Peer)
    (temporary : Bool) (s : Store) :
    (∃ e, addPeer deps (some identity) accountID "" "" peer temporary s = (.error e, s)) ∨
      ∃ p s', IsMachineRow deps identity peer p ∧ s'.peers = s.peers ++ [p] ∧
        (addPeer deps (some identity) accountID "" "" peer temporary s = (.ok p, s') ∨
          ∃ e, addPeer deps (some identity) accountID "" "" peer temporary s = (.error e, s')) := by
  rw [addPeer, if_neg (by simp), bind_of_ok (reads_apply _ s)]
  rcases s.peerByKey peer.key with _ | known
  · rcases addAuthorizedPeer_cases deps { accountID := identity.accountID } .mtls peer temporary s
      with ⟨e, h⟩ | ⟨k, label, p, s', hp, hlabel, hpeers, hres⟩
    · exact .inl ⟨e, h⟩
    · refine .inr ⟨p, s', ?_, hpeers, hres⟩
      subst hp
      exact ⟨rfl, rfl, rfl, rfl, rfl, k, _, hlabel⟩
  · exact .inl ⟨_, rfl⟩

end Netbird
