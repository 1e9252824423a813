/-
Logging peers in and synchronizing them.

`LoginPeer` registers an unknown key with `AddPeer`; for a known key it works on the
account the key is stored under.  `SyncPeer` updates the metadata of the peer with the
key it is given.

* `loginPeer_known_cases` — a login with a known key and no user: nothing is written,
  or the row of the key gets the reported metadata and an empty SSH key, and when it
  succeeds.
-/
import Netbird.Account.AddPeer

namespace Netbird

open Command Mtls Ensures Store Except Peer

/-- `types.PeerLogin`. -/
structure PeerLogin where
  wireGuardPubKey : String
  sshKey : String := ""
  /-- `Meta`. -/
  systemMeta : PeerSystemMeta := {}
  userID : String := ""
  setupKey : String := ""
  connectionIP : Option IP := none
  extraDNSLabels : List String := []

/-! ### Posture checks of a peer -/

/-- The inner loop over the source groups of a rule: whether the peer is in one. -/
def peerInSources (accountID peerID : String) (s : Store) : List String → Except Err Bool
  | [] => .ok false
  | groupID :: rest =>
    match s.getGroupByID accountID groupID with
    | none => .error (.plain "failed to check peer in policy source group")
    | some group =>
      if group.peers.contains peerID then .ok true else peerInSources accountID peerID s rest

/-- The outer loop of `processPeerPostureChecks`, over the rules. -/
def processPeerPostureChecks (policy : Policy) (accountID peerID : String) (s : Store) :
    List PolicyRule → Except Err (List String)
  | [] => .ok []
  | rule :: rest =>
    if !rule.enabled then processPeerPostureChecks policy accountID peerID s rest
    else
      match peerInSources accountID peerID s rule.sources with
      | .error e => .error e
      | .ok true => .ok policy.sourcePostureChecks
      | .ok false => processPeerPostureChecks policy accountID peerID s rest

def getPeerPostureChecks (accountID peerID : String) (s : Store) :
    Except Err (List PostureChecks) :=
  let policies := (s.getAccountPolicies accountID).filter fun policy =>
    policy.enabled && policy.sourcePostureChecks.length != 0
  match policies.mapM fun policy =>
      processPeerPostureChecks policy accountID peerID s policy.rules with
  | .error e => .error e
  | .ok ids => .ok (s.getPostureChecksByIDs accountID ids.flatten)

/-! ### Expiry and users -/

def peerLoginExpired (peer : Peer) (settings : Settings) (now : Time) : Bool :=
  (settings.peerLoginExpirationEnabled && peer.loginExpired settings.peerLoginExpiration now) ||
    peer.status.loginExpired

def loginExpiredError : Err :=
  .status .permissionDenied "peer login has expired, please log in once more"

def loginMismatchError : Err :=
  .status .unauthenticated "peer is already registered by a different User or a Setup Key"

variable (deps : Deps)

def checkIFPeerNeedsLoginWithoutLock (accountID : String) (login : PeerLogin)
    (s : Store) : Except Err Unit :=
  match s.getPeerByPeerPubKey login.wireGuardPubKey with
  | .error e => .error e
  | .ok peer =>
    if !peer.addedWithSSOLogin then .ok ()
    else
      match s.getAccountSettings accountID with
      | .error e => .error e
      | .ok settings =>
        if peerLoginExpired peer settings deps.now then .error loginExpiredError else .ok ()

def checkIfPeerOwnerIsBlocked (peer : Peer) (user : User) : Except Err Unit :=
  if peer.addedWithSSOLogin && user.blocked then
    .error (.status .permissionDenied "user is blocked")
  else .ok ()

def checkAuth (loginUserID : String) (peer : Peer) : Except Err Unit :=
  if loginUserID = "" then .error loginExpiredError
  else if peer.userID ≠ loginUserID then .error loginMismatchError
  else .ok ()

def handleExpiredPeer (user : User) (peer : Peer) : Op Peer := do
  ofResult (checkAuth user.id peer)
  let peer := peer.updateLastLogin deps.now
  update (Store.savePeer peer.accountID peer)
  let _ ← attempt (update (Store.saveUserLastLogin user.accountID user.id peer.getLastLogin))
  let _ ← mapError (.wrapped "failed to get account settings")
    (readsExcept (Store.getAccountSettings peer.accountID))
  pure peer

/-- `handleUserPeer`: the peer afterwards, and whether it changed. -/
def handleUserPeer (peer : Peer) (settings : Settings) : Op (Peer × Bool) := do
  let user ← readsExcept (Store.getUserByUserID peer.userID)
  ofResult (checkIfPeerOwnerIsBlocked peer user)
  if peerLoginExpired peer settings deps.now then do
    let peer ← handleExpiredPeer deps user peer
    pure (peer, true)
  else pure (peer, false)

/-! ### LoginPeer -/

variable (login : PeerLogin)

/-- The part of the login transaction that only applies to users. -/
def loginUser (settings : Settings) (peer : Peer) : Op (Peer × Bool) :=
  if login.userID = "" then pure (peer, false)
  else if peer.userID ≠ login.userID then fail loginMismatchError
  else handleUserPeer deps peer settings

/-- The posture checks, read only when the metadata was replaced. -/
def postureChecksIf (updated : Bool) (accountID peerID : String) : Op (List PostureChecks) :=
  if updated then readsExcept (getPeerPostureChecks accountID peerID) else pure []

def savePeerIf (shouldStorePeer : Bool) (accountID : String) (peer : Peer) : Op Unit :=
  if shouldStorePeer then update (Store.savePeer accountID peer) else pure ()

def checkLoginLabels (peer : Peer) : Except Err Unit :=
  if !peer.allowExtraDNSLabels && login.extraDNSLabels.length > 0 then
    .error (.status .preconditionFailed
      "couldn't login peer: setup key doesn't allow extra DNS labels")
  else .ok ()

def Peer.withSSHKey (p : Peer) (sshKey : String) : Peer :=
  { p with sshKey := sshKey }

/-- What the login transaction hands to the rest of the login. -/
structure LoginResult where
  peer : Peer
  peerGroupIDs : List String
  updateRemotePeers : Bool
  isPeerUpdated : Bool
  postureChecks : List PostureChecks

variable (accountID : String)

def loginTransaction (settings : Settings) : Op LoginResult := do
  let peer ← readsExcept (Store.getPeerByPeerPubKey login.wireGuardPubKey)
  let (peer, changed) ← loginUser deps login settings peer
  let peerGroupIDs ← reads (Store.getPeerGroupIDs accountID peer.id)
  let (peer, isPeerUpdated, _) := peer.updateMetaIfNew deps.sorts login.systemMeta
  let postureChecks ← postureChecksIf isPeerUpdated accountID peer.id
  let sshKeyChanged := peer.sshKey != login.sshKey
  let peer := peer.withSSHKey login.sshKey
  ofResult (checkLoginLabels login peer)
  savePeerIf (changed || isPeerUpdated || sshKeyChanged) accountID peer
  pure { peer, peerGroupIDs, updateRemotePeers := changed || sshKeyChanged, isPeerUpdated,
         postureChecks }

/-- `OnPeersUpdated`, called when something changed for other peers. -/
def notifyPeersUpdated (changed : Bool) (accountID peerID : String) : Except Err Unit :=
  if changed then
    (deps.onPeersUpdated accountID peerID).mapError
      (.wrapped "notify network map controller of peer update")
  else .ok ()

/-- The end of a login: validation, notification and the network map. -/
def finishLogin (r : LoginResult) : Except Err Peer := do
  let (requiresApproval, isStatusChanged) ← deps.isNotValidPeer accountID r.peer r.peerGroupIDs
  notifyPeersUpdated deps (r.updateRemotePeers || isStatusChanged ||
    (r.isPeerUpdated && r.postureChecks.length > 0)) accountID r.peer.id
  deps.getValidatedPeerWithMap requiresApproval accountID r.peer
  .ok r.peer

/-- The login of a known key, in the account the key is stored under. -/
def loginKnownPeer : Op Peer := do
  readsExcept fun s =>
    if login.userID = "" then checkIFPeerNeedsLoginWithoutLock deps accountID login s else .ok ()
  let settings ← readsExcept (Store.getAccountSettings accountID)
  let r ← transaction (loginTransaction deps login accountID settings)
  ofResult (finishLogin deps accountID r)

def handlePeerLoginNotFound (identity : Option Identity) (login : PeerLogin)
    (err : Err) : Op Peer :=
  if err.type? = some .notFound then
    addPeer deps identity "" login.setupKey login.userID
      { key := login.wireGuardPubKey
        systemMeta := login.systemMeta
        sshKey := login.sshKey
        location := { connectionIP := login.connectionIP }
        extraDNSLabels := login.extraDNSLabels } false
  else fail (.status .internal "failed while logging in peer")

def loginPeer (identity : Option Identity) (login : PeerLogin) : Op Peer := do
  match ← attempt (readsExcept (Store.getAccountIDByPeerPubKey login.wireGuardPubKey)) with
  | .error err => handlePeerLoginNotFound deps identity login err
  | .ok accountID => loginKnownPeer deps login accountID

/-! ### SyncPeer -/

/-- `types.PeerSync`. -/
structure PeerSync where
  wireGuardPubKey : String
  /-- `Meta`. -/
  systemMeta : PeerSystemMeta := {}
  updateAccountPeers : Bool := false

/-- The owner of an SSO peer must exist and not be blocked. -/
def checkOwner (peer : Peer) (s : Store) : Except Err Unit :=
  if peer.userID = "" then .ok ()
  else
    match s.getUserByUserID peer.userID with
    | .error e => .error e
    | .ok user => checkIfPeerOwnerIsBlocked peer user

/-- What the transaction of a synchronization hands on. -/
structure SyncResult where
  peer : Peer
  peerGroupIDs : List String
  updated : Bool
  versionChanged : Bool
  postureChecks : List PostureChecks

def syncTransaction (sync : PeerSync) (accountID : String) (settings : Settings) :
    Op SyncResult := do
  let peer ← mapError (fun _ => .status .unauthenticated "peer is not registered")
    (readsExcept (Store.getPeerByPeerPubKey sync.wireGuardPubKey))
  readsExcept (checkOwner peer)
  ofResult (if peerLoginExpired peer settings deps.now then .error loginExpiredError else .ok ())
  let peerGroupIDs ← reads (Store.getPeerGroupIDs accountID peer.id)
  let (peer, updated, versionChanged) := peer.updateMetaIfNew deps.sorts sync.systemMeta
  savePeerIf updated accountID peer
  let postureChecks ← postureChecksIf updated accountID peer.id
  pure { peer, peerGroupIDs, updated, versionChanged, postureChecks }

/-- The end of a synchronization. -/
def finishSync (sync : PeerSync) (accountID : String) (r : SyncResult) : Except Err Peer := do
  let (peerNotValid, isStatusChanged) ← deps.isNotValidPeer accountID r.peer r.peerGroupIDs
  notifyPeersUpdated deps (isStatusChanged || sync.updateAccountPeers ||
    (r.updated && (r.postureChecks.length > 0 || r.versionChanged))) accountID r.peer.id
  deps.getValidatedPeerWithMap peerNotValid accountID r.peer
  .ok r.peer

def syncPeer (sync : PeerSync) (accountID : String) : Op Peer := do
  let settings ← readsExcept (Store.getAccountSettings accountID)
  let r ← transaction (syncTransaction deps sync accountID settings)
  ofResult (finishSync deps sync accountID r)

/-! ### Connection status -/

/-- The location lookup of `updatePeerStatusAndLocation`. -/
def updateLocation (peer : Peer) (realIP : Option IP) : Op Unit :=
  match realIP with
  | none => pure ()
  | some ip =>
    match deps.geoLookup ip with
    | none => pure ()
    | some (country, city, geoNameID) => do
      let location : Location :=
        { connectionIP := some ip, countryCode := country, cityName := city, geoNameID }
      let _ ← attempt (update (Store.savePeerLocation accountID peer.id location))
      pure ()

def updatePeerStatusAndLocation (peer : Peer) (connected : Bool)
    (realIP : Option IP) (accountID : String) (syncTime : Time) : Op Unit := do
  let newStatus := { peer.status with
    lastSeen := syncTime
    connected := connected
    loginExpired := if connected then false else peer.status.loginExpired }
  updateLocation deps accountID peer realIP
  update (Store.savePeerStatus accountID peer.id newStatus)

/-- `MarkPeerConnected`, as far as it writes to the store. -/
def markPeerConnected (peerPubKey : String) (connected : Bool) (realIP : Option IP)
    (accountID : String) (syncTime : Time) : Op Unit :=
  transaction do
    let peer ← readsExcept (Store.getPeerByPeerPubKey peerPubKey)
    if connected && !(peer.status.lastSeen < syncTime) then pure ()
    else updatePeerStatusAndLocation deps peer connected realIP accountID syncTime

def syncAndMarkPeer (accountID peerPubKey : String) (reported : PeerSystemMeta)
    (realIP : Option IP) (syncTime : Time) : Op Peer := do
  let peer ← mapError (.wrapped "error syncing peer")
    (syncPeer deps { wireGuardPubKey := peerPubKey, systemMeta := reported } accountID)
  let _ ← attempt (markPeerConnected deps peerPubKey true realIP accountID syncTime)
  pure peer

/-! ### A login without a user, for a known key -/

section

variable (deps : Deps) (m : PeerSystemMeta) (p : Peer) (s : Store)

/-- The login a machine makes: no user, no setup key, no SSH key, no extra labels. -/
def machineLogin (key : String) (m : PeerSystemMeta) : PeerLogin :=
  { wireGuardPubKey := key, systemMeta := m }

/-- The peer after such a login: new metadata, and no SSH key. -/
def Peer.loggedIn : Peer :=
  (p.updateMetaIfNew deps.sorts m).1.withSSHKey ""

theorem Peer.sameIndex_updateMetaIfNew : SameIndex (p.updateMetaIfNew deps.sorts m).1 p := by
  rw [updateMetaIfNew_frame]
  exact ⟨rfl, rfl, rfl, rfl, rfl⟩

theorem Peer.sameIndex_loggedIn : SameIndex (p.loggedIn deps m) p :=
  have h := sameIndex_updateMetaIfNew deps m p
  ⟨h.id, h.accountID, h.key, h.ip, h.label⟩

/-- The row is written when the metadata is new or an SSH key has to be removed. -/
def Peer.loginWrites : Bool :=
  p.systemMeta.isNew deps.sorts m || p.sshKey != ""

/-- What the login transaction does to the store. -/
def LoginWrites (s s' : Store) : Prop :=
  if p.loginWrites deps m then Store.Replaces p (p.loggedIn deps m) s s' else s' = s

variable {deps m p} in
theorem LoginWrites.accounts {s s' : Store} (h : LoginWrites deps m p s s') :
    s'.accounts = s.accounts := by
  rw [LoginWrites] at h
  split_ifs at h
  · obtain ⟨hv, rfl⟩ := h
    rfl
  · rw [h]

variable {deps m p} in
/-- The rows after a login are those before it, and that of the peer logged in. -/
theorem LoginWrites.mem {s s' : Store} (h : LoginWrites deps m p s s') (hp : p ∈ s.peers) {r : Peer}
    (hr : r ∈ s'.peers) : r = p.loggedIn deps m ∨ r ∈ s.peers := by
  rw [LoginWrites] at h
  split_ifs at h
  · exact ((h.mem_iff hp).mp hr).imp id And.left
  · exact .inr (h ▸ hr)

variable {deps m p} in
theorem LoginWrites.sameRows {s s' : Store} (h : LoginWrites deps m p s s') (hp : p ∈ s.peers) :
    SameRows s s' := by
  rw [LoginWrites] at h
  split_ifs at h
  · exact h.sameRows hp (sameIndex_loggedIn deps m p)
  · rw [h]
    exact .refl s

variable {p s} in
theorem savePeerIf_of_mem (hp : p ∈ s.peers) {p' : Peer} (h : SameIndex p' p) (b : Bool) :
    ∃ s', savePeerIf b p.accountID p' s = (.ok (), s') ∧
      if b then Replaces p p' s s' else s' = s := by
  cases b
  · exact ⟨s, rfl, rfl⟩
  · obtain ⟨s', hsave, hrep⟩ := savePeer_of_mem hp h
    exact ⟨s', update_eq_ok.mpr hsave, hrep⟩

def machineLoginResult (cs : List PostureChecks) : LoginResult where
  peer := p.loggedIn deps m
  peerGroupIDs := s.getPeerGroupIDs p.accountID p.id
  updateRemotePeers := p.sshKey != ""
  isPeerUpdated := p.systemMeta.isNew deps.sorts m
  postureChecks := cs

def loginPostureChecks : Except Err (List PostureChecks) :=
  if p.systemMeta.isNew deps.sorts m then getPeerPostureChecks p.accountID p.id s else .ok []

variable {p s} in
/-- The transaction fails on the posture checks and changes nothing, or goes through. -/
theorem loginTransaction_machine (hp : s.peerByKey p.key = some p) (settings : Settings) :
    (∃ e, loginPostureChecks deps m p s = .error e ∧
      loginTransaction deps (machineLogin p.key m) p.accountID settings s = (.error e, s)) ∨
    ∃ cs s', loginPostureChecks deps m p s = .ok cs ∧ LoginWrites deps m p s s' ∧
      loginTransaction deps (machineLogin p.key m) p.accountID settings s =
        (.ok (machineLoginResult deps m p s cs), s') := by
  have hmem : p ∈ s.peers := (peerByKey_eq_some.mp hp).1
  have hget : readsExcept (getPeerByPeerPubKey p.key) s = (.ok p, s) := by
    rw [readsExcept_apply, getPeerByPeerPubKey, hp]
  have hidx := sameIndex_updateMetaIfNew deps m p
  have hupd : (p.updateMetaIfNew deps.sorts m).2.1 = p.systemMeta.isNew deps.sorts m := p.updateMetaIfNew_updated deps.sorts m
  have hssh : (p.updateMetaIfNew deps.sorts m).1.sshKey = p.sshKey := by rw [updateMetaIfNew_frame]
  have hchecks : postureChecksIf (p.systemMeta.isNew deps.sorts m) p.accountID p.id s =
      (loginPostureChecks deps m p s, s) := by
    rw [postureChecksIf, loginPostureChecks]
    split_ifs <;> rfl
  obtain ⟨s', hsave, hwrites⟩ :=
    savePeerIf_of_mem hmem (sameIndex_loggedIn deps m p) (p.loginWrites deps m)
  -- the transaction, step by step
  have hrun : loginTransaction deps (machineLogin p.key m) p.accountID settings s =
      (postureChecksIf (p.systemMeta.isNew deps.sorts m) p.accountID p.id >>= fun cs =>
        savePeerIf (p.loginWrites deps m) p.accountID (p.loggedIn deps m) >>= fun _ =>
        pure (machineLoginResult deps m p s cs)) s := by
    have huser : loginUser deps (machineLogin p.key m) settings p s = (.ok (p, false), s) := rfl
    have hlabels : ∀ q, checkLoginLabels (machineLogin p.key m) q = .ok () := by
      simp [checkLoginLabels, machineLogin]
    rw [loginTransaction, show (machineLogin p.key m).wireGuardPubKey = p.key from rfl,
      bind_of_ok hget, bind_of_ok huser]
    simp only [hlabels, ofResult_bind_ok]
    simp only [machineLogin, hupd, hidx.id, hssh, Bool.false_or]
    rfl
  rw [hrun]
  rcases hcs : loginPostureChecks deps m p s with e | cs
  · rw [hcs] at hchecks
    exact .inl ⟨e, rfl, bind_of_error hchecks⟩
  · rw [hcs] at hchecks
    exact .inr ⟨cs, s', rfl, hwrites, by rw [bind_of_ok hchecks, bind_of_ok hsave]; rfl⟩

/-- The validator and the network map controller raise no error. -/
def LoginNotified (cs : List PostureChecks) : Prop :=
  ∃ approval changed, deps.isNotValidPeer p.accountID (p.loggedIn deps m)
      (s.getPeerGroupIDs p.accountID p.id) = .ok (approval, changed) ∧
    (p.sshKey ≠ "" ∨ changed = true ∨ (p.systemMeta.isNew deps.sorts m = true ∧ cs ≠ []) →
      deps.onPeersUpdated p.accountID p.id = .ok ()) ∧
    deps.getValidatedPeerWithMap approval p.accountID (p.loggedIn deps m) = .ok ()

/-- A login of the row `p` with the metadata `m` is accepted: the account has settings,
an SSO login has not expired, the posture checks can be read, and nothing fails after
the transaction. -/
structure LoginAccepted : Prop where
  settings : ∃ st, s.getAccountSettings p.accountID = .ok st ∧
    (p.addedWithSSOLogin = true → peerLoginExpired p st deps.now = false)
  notified : ∃ cs, loginPostureChecks deps m p s = .ok cs ∧ LoginNotified deps m p s cs

variable {accountID : String}

theorem notifyPeersUpdated_eq_ok {changed : Bool} {peerID : String} {u : Unit} :
    notifyPeersUpdated deps changed accountID peerID = .ok u ↔
      (changed = true → deps.onPeersUpdated accountID peerID = .ok ()) := by
  cases changed
  · simp [notifyPeersUpdated]
  · simp only [notifyPeersUpdated, if_true, true_imp_iff]
    cases deps.onPeersUpdated accountID peerID <;> simp [Except.mapError]

theorem finishLogin_eq_ok {r : LoginResult} {q : Peer} : finishLogin deps accountID r = .ok q ↔
      r.peer = q ∧ ∃ approval changed,
        deps.isNotValidPeer accountID r.peer r.peerGroupIDs = .ok (approval, changed) ∧
        ((r.updateRemotePeers || changed || (r.isPeerUpdated && r.postureChecks.length > 0)) =
          true → deps.onPeersUpdated accountID r.peer.id = .ok ()) ∧
        deps.getValidatedPeerWithMap approval accountID r.peer = .ok () := by
  simp only [finishLogin, Except.bind_eq_ok, notifyPeersUpdated_eq_ok, Prod.exists, Except.ok.injEq]
  constructor
  · rintro ⟨approval, changed, hvalid, -, hnotify, u, hmap, rfl⟩
    exact ⟨rfl, approval, changed, hvalid, hnotify, hmap⟩
  · rintro ⟨rfl, approval, changed, hvalid, hnotify, hmap⟩
    exact ⟨approval, changed, hvalid, (), hnotify, (), hmap, rfl⟩

theorem finishLogin_machine_eq_ok (cs : List PostureChecks) :
    finishLogin deps p.accountID (machineLoginResult deps m p s cs) = .ok (p.loggedIn deps m) ↔
      LoginNotified deps m p s cs := by
  have hid : (p.loggedIn deps m).id = p.id := (sameIndex_loggedIn deps m p).id
  simp only [finishLogin_eq_ok, LoginNotified, machineLoginResult, hid, true_and, Bool.or_eq_true,
    Bool.and_eq_true, bne_iff_ne, decide_eq_true_eq, gt_iff_lt, List.length_pos_iff, or_assoc]

variable (identity : Option Identity) (hp : s.peerByKey p.key = some p)

include hp

variable {p s m} in
theorem loginPeer_of_known : loginPeer deps identity (machineLogin p.key m) s =
      loginKnownPeer deps (machineLogin p.key m) p.accountID s := by
  have hget : readsExcept (getAccountIDByPeerPubKey p.key) s = (.ok p.accountID, s) := by
    rw [readsExcept_apply, getAccountIDByPeerPubKey, hp]
  rw [loginPeer, show (machineLogin p.key m).wireGuardPubKey = p.key from rfl,
    attempt_bind_of_ok hget]

variable {p s m} in
theorem checkIFPeerNeedsLoginWithoutLock_eq_ok {st : Settings}
    (hst : s.getAccountSettings p.accountID = .ok st) :
    checkIFPeerNeedsLoginWithoutLock deps p.accountID (machineLogin p.key m) s = .ok () ↔
      (p.addedWithSSOLogin = true → peerLoginExpired p st deps.now = false) := by
  rw [checkIFPeerNeedsLoginWithoutLock, getPeerByPeerPubKey, machineLogin, hp]
  cases hsso : p.addedWithSSOLogin <;> cases hexp : peerLoginExpired p st deps.now <;>
    simp [hst, hsso, hexp]

variable {p s m} in
/-- A login with a known key writes nothing and fails, or writes the row of the key
(if there is anything to write) and succeeds exactly when it is accepted. -/
theorem loginPeer_known_cases : (¬ LoginAccepted deps m p s ∧
      ∃ e, loginPeer deps identity (machineLogin p.key m) s = (.error e, s)) ∨
    ∃ s', LoginWrites deps m p s s' ∧ ((LoginAccepted deps m p s ∧
          loginPeer deps identity (machineLogin p.key m) s = (.ok (p.loggedIn deps m), s')) ∨
        (¬ LoginAccepted deps m p s ∧
          ∃ e, loginPeer deps identity (machineLogin p.key m) s = (.error e, s'))) := by
  rw [loginPeer_of_known deps identity hp, loginKnownPeer]
  simp only [show (machineLogin p.key m).userID = "" from rfl, if_true]
  rcases bind_cases_of_reads (readsExcept (fun s =>
      checkIFPeerNeedsLoginWithoutLock deps p.accountID (machineLogin p.key m) s)) _ s with
    ⟨e, hcheck, h⟩ | ⟨u, hcheck, h⟩
  · refine .inl ⟨?_, e, h⟩
    rintro ⟨⟨st, hst, hexp⟩, -⟩
    rw [readsExcept_apply, (checkIFPeerNeedsLoginWithoutLock_eq_ok deps hp hst).mpr hexp] at hcheck
    cases hcheck
  rw [h]
  rcases bind_cases_of_reads (readsExcept (getAccountSettings p.accountID)) _ s with
    ⟨e, hst, h⟩ | ⟨st, hst, h⟩
  · refine .inl ⟨?_, e, h⟩
    rintro ⟨⟨st, hst', -⟩, -⟩
    rw [readsExcept_apply, hst'] at hst
    cases hst
  rw [h]
  rcases loginTransaction_machine deps m hp st with ⟨e, hcs, ht⟩ | ⟨cs, s', hcs, hw, ht⟩
  · refine .inl ⟨?_, e, bind_of_error (transaction_of_error ht)⟩
    rintro ⟨-, cs, hcs', -⟩
    rw [hcs] at hcs'
    cases hcs'
  · rw [bind_of_ok (transaction_of_ok ht)]
    refine .inr ⟨s', hw, ?_⟩
    have hiff : LoginAccepted deps m p s ↔
        finishLogin deps p.accountID (machineLoginResult deps m p s cs) = .ok (p.loggedIn deps m) := by
      have hexp := (checkIFPeerNeedsLoginWithoutLock_eq_ok deps hp (congrArg Prod.fst hst)).mp
        (congrArg Prod.fst hcheck)
      rw [finishLogin_machine_eq_ok]
      constructor
      · rintro ⟨-, cs', hcs', hfin⟩
        obtain rfl : cs = cs' := ok.inj (hcs.symm.trans hcs')
        exact hfin
      · intro hfin
        exact ⟨⟨st, congrArg Prod.fst hst, hexp⟩, cs, hcs, hfin⟩
    rw [hiff]
    rcases hfin : finishLogin deps p.accountID (machineLoginResult deps m p s cs) with e | q
    · exact .inr ⟨by simp, e, rfl⟩
    · obtain ⟨rfl, -⟩ := (finishLogin_eq_ok deps).mp hfin
      exact .inl ⟨rfl, rfl⟩

omit hp

/-- The record a machine login hands to `AddPeer` for a new key. -/
def machinePeer (key : String) (m : PeerSystemMeta) : Peer :=
  { key := key, systemMeta := m }

variable {s} in
theorem loginPeer_of_unknown {key : String} (hkey : s.peerByKey key = none) :
    loginPeer deps identity (machineLogin key m) s =
      addPeer deps identity "" "" "" (machinePeer key m) false s := by
  have hget : readsExcept (getAccountIDByPeerPubKey key) s =
      (.error (.status .notFound "account not found: index lookup failed"), s) := by
    rw [readsExcept_apply, getAccountIDByPeerPubKey, hkey]
  rw [loginPeer, show (machineLogin key m).wireGuardPubKey = key from rfl,
    attempt_bind_of_error hget]
  rfl

/-! ### A synchronization -/

def machineSync (key : String) (m : PeerSystemMeta) : PeerSync :=
  { wireGuardPubKey := key, systemMeta := m }

/-- What the transaction of a synchronization does to the store. -/
def SyncWrites (s s' : Store) : Prop :=
  if p.systemMeta.isNew deps.sorts m then Store.Replaces p (p.updateMetaIfNew deps.sorts m).1 s s' else s' = s

theorem reads_postureChecksIf (updated : Bool) (accountID peerID : String) :
    Ensures (· = ·) (postureChecksIf updated accountID peerID) := by
  cases updated
  · exact pure _
  · exact readsExcept _

variable {deps} in
theorem finishSync_eq_ok {sync : PeerSync} {r : SyncResult} {q : Peer}
    (h : finishSync deps sync accountID r = .ok q) : q = r.peer := by
  obtain ⟨v, -, h⟩ := bind_eq_ok.mp h
  obtain ⟨u, -, h⟩ := bind_eq_ok.mp h
  obtain ⟨u', -, h⟩ := bind_eq_ok.mp h
  exact (ok.inj h).symm

variable {p s m} in
/-- The transaction of a synchronization fails, or writes the row if the metadata is new. -/
theorem syncTransaction_cases (hp : s.peerByKey p.key = some p) (settings : Settings) :
    (∃ e s', syncTransaction deps (machineSync p.key m) p.accountID settings s = (.error e, s')) ∨
    ∃ s', SyncWrites deps m p s s' ∧ ∃ r, r.peer = (p.updateMetaIfNew deps.sorts m).1 ∧
      syncTransaction deps (machineSync p.key m) p.accountID settings s = (.ok r, s') := by
  have hmem : p ∈ s.peers := (peerByKey_eq_some.mp hp).1
  have hget : readsExcept (getPeerByPeerPubKey p.key) s = (.ok p, s) :=
    readsExcept_of (by rw [getPeerByPeerPubKey, hp])
  have hupd : (p.updateMetaIfNew deps.sorts m).2.1 = p.systemMeta.isNew deps.sorts m := p.updateMetaIfNew_updated deps.sorts m
  obtain ⟨s', hsave, hwrites⟩ := savePeerIf_of_mem hmem (sameIndex_updateMetaIfNew deps m p)
    (p.systemMeta.isNew deps.sorts m)
  rw [syncTransaction, show (machineSync p.key m).wireGuardPubKey = p.key from rfl,
    bind_of_ok (mapError_of_ok hget)]
  rcases bind_cases_of_reads (readsExcept (checkOwner p)) _ s with ⟨e, -, h⟩ | ⟨u, -, h⟩
  · exact .inl ⟨e, s, h⟩
  rw [h]
  rcases bind_cases_of_reads (ofResult (if peerLoginExpired p settings deps.now then
      .error loginExpiredError else .ok ())) _ s with ⟨e, -, h⟩ | ⟨u, -, h⟩
  · exact .inl ⟨e, s, h⟩
  rw [h, bind_of_ok (reads_apply _ s)]
  simp only [machineSync, hupd]
  rw [bind_of_ok hsave]
  rcases bind_cases_of_reads (reads_postureChecksIf _ _ _) _ s' with ⟨e, -, h⟩ | ⟨cs, -, h⟩
  · exact .inl ⟨e, s', h⟩
  · exact .inr ⟨s', hwrites, ⟨_, _, _, _, _⟩, rfl, h⟩

variable {p s m} in
/-- A synchronization writes nothing and fails, or writes the row if the metadata is new;
it may still fail after that. -/
theorem syncPeer_cases (hp : s.peerByKey p.key = some p) :
    (∃ e, syncPeer deps (machineSync p.key m) p.accountID s = (.error e, s)) ∨
    ∃ s', SyncWrites deps m p s s' ∧
      (syncPeer deps (machineSync p.key m) p.accountID s = (.ok (p.updateMetaIfNew deps.sorts m).1, s') ∨
        ∃ e, syncPeer deps (machineSync p.key m) p.accountID s = (.error e, s')) := by
  rw [syncPeer]
  rcases bind_cases_of_reads (readsExcept (getAccountSettings p.accountID)) _ s with
    ⟨e, -, h⟩ | ⟨st, -, h⟩
  · exact .inl ⟨e, h⟩
  rw [h]
  rcases syncTransaction_cases deps hp st with ⟨e, s', ht⟩ | ⟨s', hw, r, hr, ht⟩
  · exact .inl ⟨e, bind_of_error (transaction_of_error ht)⟩
  · refine .inr ⟨s', hw, ?_⟩
    rw [bind_of_ok (transaction_of_ok ht)]
    rcases hfin : finishSync deps (machineSync p.key m) p.accountID r with e | q
    · exact .inr ⟨e, rfl⟩
    · rw [finishSync_eq_ok hfin, hr]
      exact .inl rfl

end

/-! ### The connection status is apart -/

/-- The row without its connection status and location. -/
def Peer.withoutStatus (p : Peer) : Peer :=
  { p with status := {}, location := {} }

/-- The peer tables agree apart from connection status and location. -/
def SameUpToStatus (s s' : Store) : Prop :=
  s'.peers.map Peer.withoutStatus = s.peers.map Peer.withoutStatus

instance : Std.Refl SameUpToStatus := ⟨fun _ => rfl⟩

instance : IsTrans Store SameUpToStatus := ⟨fun _ _ _ h h' => h'.trans h⟩

theorem sameUpToStatus_replace {s s' : Store} {sel : Peer → Bool} {row : Peer → Peer} {err : Err}
    (h : s.withPeers (Rows.replace sel row s.peers) err = .ok s')
    (hrow : ∀ q, (row q).withoutStatus = q.withoutStatus) : SameUpToStatus s s' := by
  rw [SameUpToStatus, peers_of_withPeers h, Rows.map_replace fun q _ _ => hrow q]

theorem sameUpToStatus_savePeerStatus (accountID peerID : String) (status : PeerStatus) :
    Ensures SameUpToStatus (update (savePeerStatus accountID peerID status)) := by
  refine update fun s s' h => ?_
  unfold savePeerStatus at h
  split_ifs at h
  exact sameUpToStatus_replace h fun _ => rfl

theorem sameUpToStatus_savePeerLocation (accountID peerID : String) (location : Location) :
    Ensures SameUpToStatus (update (savePeerLocation accountID peerID location)) := by
  refine update fun s s' h => ?_
  unfold savePeerLocation at h
  split_ifs at h
  exact sameUpToStatus_replace h fun _ => rfl

theorem sameUpToStatus_updateLocation (accountID : String) (peer : Peer)
    (realIP : Option IP) : Ensures SameUpToStatus (updateLocation deps accountID peer realIP) := by
  rcases realIP with _ | ip
  · exact pure _
  · unfold updateLocation
    dsimp only
    split
    · exact pure _
    · exact bind (attempt (sameUpToStatus_savePeerLocation _ _ _))
        fun _ => pure _

theorem sameUpToStatus_markPeerConnected (peerPubKey : String) (connected : Bool)
    (realIP : Option IP) (accountID : String) (syncTime : Time) : Ensures SameUpToStatus
      (markPeerConnected deps peerPubKey connected realIP accountID syncTime) := by
  refine transaction (bind (readsExcept _) fun peer => ?_)
  split_ifs
  · exact pure _
  · exact bind (sameUpToStatus_updateLocation _ _ _ _)
      fun _ => sameUpToStatus_savePeerStatus _ _ _

theorem SameUpToStatus.exists_mem {s s' : Store} (h : SameUpToStatus s s') {p : Peer}
    (hp : p ∈ s.peers) : ∃ p' ∈ s'.peers, p'.withoutStatus = p.withoutStatus := by
  have hmem : p.withoutStatus ∈ s'.peers.map withoutStatus := by
    rw [h]
    exact List.mem_map_of_mem hp
  exact List.mem_map.mp hmem

end Netbird
