/-
The gRPC handlers of machine peers: registration and synchronization.

Both take the identity of the client certificate from the call.  Registration hands
the request to `LoginPeer`; synchronization looks the peer up by the label of the
identity and hands it to `SyncAndMarkPeer`.

* `registerMachinePeer_known`, `registerMachinePeer_new` — how a registration can end;
* `registerMachinePeer_account_iff` — when it stays in the account of its identity;
* `register_updates_foreign_account` — a registration that does not.
-/
import Netbird.Account.Login

namespace Netbird

open Command Mtls

/-! ### Requests and answers -/

/-- `proto.NetworkAddress`. -/
structure ProtoNetworkAddress where
  netIP : String
  mac : String

/-- `proto.PeerSystemMeta`; the getters read a missing `Environment` or `Flags` as
their zero value. -/
structure ProtoPeerSystemMeta where
  hostname : String := ""
  goOS : String := ""
  kernel : String := ""
  core : String := ""
  platform : String := ""
  os : String := ""
  netbirdVersion : String := ""
  uiVersion : String := ""
  kernelVersion : String := ""
  osVersion : String := ""
  networkAddresses : List ProtoNetworkAddress := []
  sysSerialNumber : String := ""
  sysProductName : String := ""
  sysManufacturer : String := ""
  environment : Environment := {}
  files : List File := []
  flags : Flags := {}

/-- `proto.MachineRegisterRequest`. -/
structure MachineRegisterRequest where
  wgPubKey : List UInt8
  /-- `Meta`. -/
  systemMeta : Option ProtoPeerSystemMeta

/-- `proto.MachineSyncRequest`. -/
structure MachineSyncRequest where
  /-- `Meta`. -/
  systemMeta : Option ProtoPeerSystemMeta

/-- How a handler fails. -/
inductive RpcError where
  /-- `mTLS authentication required` -/
  | noIdentity
  /-- `domain %q not mapped to any account - configure MTLSDomainAccountMapping` -/
  | domainNotMapped (domain : String)
  /-- `certificate issuer not authorized: %v` -/
  | issuerNotAuthorized (err : IssuerError)
  /-- `WireGuard public key is required` -/
  | keyRequired
  /-- `invalid WireGuard public key: %v` -/
  | keyInvalid
  /-- `failed to register peer: %v` -/
  | registerFailed (err : Err)
  /-- `failed to prepare response: %v` -/
  | responseFailed (err : Err)
  /-- `peer not registered for identity %s` -/
  | notRegistered (dnsName : String)
  /-- `failed to sync peer: %v` -/
  | syncFailed (err : Err)
  /-- `failed to get settings: %v`, or `failed to send initial sync: %v` -/
  | initialSyncFailed (err : Err)
  /-- After the error of `OnPeerConnected` the handler waits for a lock that it holds itself. -/
  | deadlocked (err : Err)
  /-- The handler does not return. -/
  | panicked (panic : Panic)
  deriving DecidableEq

/-- How the update loop of a stream ends. -/
inductive StreamEnd where
  | channelClosed
  | sendFailed (err : Err)
  | contextDone (err : Err)

/-- `wgtypes.Key`. -/
abbrev Key := Vector UInt8 32

/-- What a handler takes from outside, beside what the account manager does. -/
structure ServerDeps extends Deps where
  /-- The global configuration of the issuer check. -/
  validator : Option ValidatorConfig
  /-- `wgtypes.ParseKey`, of base64 text. -/
  parseKey : List UInt8 → Option Key
  /-- `Key.String`. -/
  keyString : Key → String
  /-- `netip.ParsePrefix`. -/
  parsePrefix : String → Option Prefix
  /-- `time.Now().UTC().Format(time.RFC3339)` in `extractMachinePeerMeta`. -/
  authTime : String
  /-- `GetExtraSettings` of the extra settings manager. -/
  getExtraSettings : String → Except Err Unit
  /-- `getRealIP`. -/
  realIP : Option IP
  reqStart : Time
  syncTime : Time
  disconnectTime : Time
  /-- `Send` of the initial answer. -/
  sendInitial : Except Err Unit
  /-- `OnPeerConnected` of the network map controller. -/
  onPeerConnected : Except Err Unit
  streamEnd : StreamEnd

/-- Commands of the handlers. -/
abbrev Rpc := Command Store RpcError

/-! ### Metadata -/

variable (deps : ServerDeps)

/-- The loop over the network addresses, which skips what does not parse. -/
def extractNetworkAddresses (addresses : List ProtoNetworkAddress) : List NetworkAddress :=
  addresses.filterMap fun addr =>
    (deps.parsePrefix addr.netIP).map fun netIP => { netIP, mac := addr.mac }

def extractPeerMeta : Option ProtoPeerSystemMeta → PeerSystemMeta
  | none => {}
  | some m =>
    { hostname := m.hostname
      goOS := m.goOS
      kernel := m.kernel
      platform := m.platform
      os := m.os
      osVersion := if m.osVersion = "" then m.core else m.osVersion
      wtVersion := m.netbirdVersion
      uiVersion := m.uiVersion
      kernelVersion := m.kernelVersion
      networkAddresses := extractNetworkAddresses deps m.networkAddresses
      systemSerialNumber := m.sysSerialNumber
      systemProductName := m.sysProductName
      systemManufacturer := m.sysManufacturer
      environment := m.environment
      flags := m.flags
      files := m.files }

/-- `extractMachinePeerMeta`: the reported metadata with the certificate fields. -/
def extractMachinePeerMeta (reqMeta : Option ProtoPeerSystemMeta)
    (identity : Identity) : PeerSystemMeta :=
  { extractPeerMeta deps reqMeta with
    peerType := if identity.peerType = "" then "machine" else identity.peerType
    authMethod := "mtls"
    certDNSName := identity.dnsName
    certDomain := identity.domain
    certIssuerFP := identity.issuerFingerprint
    certSerial := identity.serialNumber
    certTemplate := if identity.templateName = "" then identity.templateOID
      else identity.templateName
    firstAuthTime := deps.authTime
    lastCertAuthTime := deps.authTime }

/-! ### RegisterMachinePeer -/

def checkIssuer (identity : Identity) : Except RpcError Unit :=
  match ValidatorConfig.validateIssuerCA deps.caseMap deps.validator identity.accountID
      identity.issuerFingerprint with
  | .error p => .error (.panicked p)
  | .ok (.error e) => .error (.issuerNotAuthorized e)
  | .ok (.ok ()) => .ok ()

/-- The key of the request: 32 raw bytes, or base64 text. -/
def parseWgPubKey (wgPubKey : List UInt8) : Except RpcError Key :=
  if wgPubKey.length = 0 then .error .keyRequired
  else if h : wgPubKey.length = 32 then .ok ⟨wgPubKey.toArray, by simpa using h⟩
  else
    match deps.parseKey wgPubKey with
    | some key => .ok key
    | none => .error .keyInvalid

/-- `GetSettings` of the settings manager, for the server itself. -/
def getSettings (accountID : String) (s : Store) : Except Err Settings := do
  deps.getExtraSettings accountID
  s.getAccountSettings accountID

/-- `prepareLoginResponse`, as far as it can fail. -/
def prepareLoginResponse (peer : Peer) : Rpc Unit := do
  let _ ← mapError .responseFailed (readsExcept (getSettings deps peer.accountID))
  pure ()

/-- `proto.MachineIdentity`. -/
structure MachineIdentity where
  dnsName : String
  hostname : String
  domain : String
  issuerFingerprint : String
  serialNumber : String
  templateOID : String
  deriving DecidableEq

/-- `proto.MachineRegisterResponse`: the peer its configuration is made from, and the
identity. -/
structure MachineRegisterResponse where
  peer : Peer
  machineIdentity : MachineIdentity
  deriving DecidableEq

def machineIdentityOf (identity : Identity) : MachineIdentity where
  dnsName := identity.dnsName
  hostname := identity.hostname
  domain := identity.domain
  issuerFingerprint := identity.issuerFingerprint
  serialNumber := identity.serialNumber
  templateOID := identity.templateOID

/-- The part of `RegisterMachinePeer` that does not touch the store: the checks of the
identity, and the key. -/
def registrationKey (identity : Identity) (req : MachineRegisterRequest) : Except RpcError Key :=
  if identity.accountID = "" then .error (.domainNotMapped identity.domain)
  else do
    checkIssuer deps identity
    parseWgPubKey deps req.wgPubKey

def registerMachinePeer (identity : Option Identity)
    (req : MachineRegisterRequest) : Rpc MachineRegisterResponse :=
  match identity with
  | none => fail .noIdentity
  | some identity => do
    let peerKey ← ofResult (registrationKey deps identity req)
    let peerMeta := extractMachinePeerMeta deps req.systemMeta identity
    let peer ← mapError .registerFailed
      (loginPeer deps.toDeps (some identity) (machineLogin (deps.keyString peerKey) peerMeta))
    prepareLoginResponse deps peer
    pure { peer, machineIdentity := machineIdentityOf identity }

/-! ### SyncMachinePeer -/

def findMachinePeer (cm : CaseMap) (hmac : Hmac) (identity : Identity) (s : Store) :
    Except Err Peer :=
  let dnsLabel := generateUniqueDNSLabel cm hmac identity.hostname identity.domain
  match s.getPeerIdByLabel identity.accountID dnsLabel with
  | none => .error (.wrapped ("no peer with DNSLabel=" ++ dnsLabel ++ " for account=" ++
      identity.accountID) (.status .notFound "peer not found"))
  | some peerID => s.getPeerByID identity.accountID peerID

/-- `sendInitialMachineSync`, as far as it can fail.  The key is cut for a log message. -/
def sendInitialMachineSync (peer : Peer) : Rpc Unit := do
  let _ ← mapError .initialSyncFailed (readsExcept (getSettings deps peer.accountID))
  ofResult (deps.sendInitial.mapError .initialSyncFailed)
  ofResult (((Checked.slicePrefix peer.key 8).map fun _ => ()).mapError .panicked)

def onPeerDisconnected (accountID peerPubKey : String) : Op Unit := do
  match ← reads (·.peerByKey peerPubKey) with
  | none => pure ()
  | some peer =>
    if deps.reqStart < peer.status.lastSeen then pure ()
    else do
      let _ ← attempt
        (markPeerConnected deps.toDeps peerPubKey false none accountID deps.disconnectTime)
      pure ()

/-- `cancelPeerRoutines`, as far as it writes to the store. -/
def cancelPeerRoutines (accountID : String) (peer : Peer) : Rpc Unit := do
  let _ ← mapError RpcError.syncFailed (attempt (onPeerDisconnected deps accountID peer.key))
  pure ()

/-- The registration for updates.  After a failure `cancelPeerRoutines` asks for the lock of the
peer, which the handler has not released: it never returns, and the peer stays connected. -/
def connectStream : Rpc Unit :=
  match deps.onPeerConnected with
  | .ok () => pure ()
  | .error e => fail (.deadlocked e)

/-- `SyncMachinePeer`, from the call to the end of the stream: the peer it served, and how
the stream ended. -/
def syncMachinePeer (identity : Option Identity) (req : MachineSyncRequest) :
    Rpc (Peer × StreamEnd) :=
  match identity with
  | none => fail .noIdentity
  | some identity => do
    ofResult (checkIssuer deps identity)
    let peer ← mapError (fun _ => .notRegistered identity.dnsName)
      (readsExcept (findMachinePeer deps.caseMap deps.hmac identity))
    let peer ← mapError .syncFailed
      (syncAndMarkPeer deps.toDeps identity.accountID peer.key (extractPeerMeta deps req.systemMeta)
        deps.realIP deps.syncTime)
    sendInitialMachineSync deps peer
    connectStream deps
    cancelPeerRoutines deps identity.accountID peer
    pure (peer, deps.streamEnd)

/-! ### How a registration can end -/

section

variable {deps : ServerDeps} {identity : Identity} {req : MachineRegisterRequest} {s : Store}
  {key : Key} {p : Peer}

theorem registerMachinePeer_of_error {e : RpcError}
    (hkey : registrationKey deps identity req = .error e) :
    registerMachinePeer deps (some identity) req s = (.error e, s) := by
  rw [registerMachinePeer, hkey]
  rfl

theorem registerMachinePeer_of_key (hkey : registrationKey deps identity req = .ok key) :
    registerMachinePeer deps (some identity) req s =
      (mapError .registerFailed (loginPeer deps.toDeps (some identity)
          (machineLogin (deps.keyString key)
            (extractMachinePeerMeta deps req.systemMeta identity))) >>= fun peer =>
        prepareLoginResponse deps peer >>= fun _ =>
        pure { peer, machineIdentity := machineIdentityOf identity }) s := by
  rw [registerMachinePeer, hkey]
  rfl

/-- The answer can be prepared when the settings of the account can be read. -/
theorem prepareLoginResponse_cases (deps : ServerDeps) (peer : Peer) (s : Store) :
    ((∃ st, getSettings deps peer.accountID s = .ok st) ∧
      prepareLoginResponse deps peer s = (.ok (), s)) ∨
    ((∃ e, getSettings deps peer.accountID s = .error e) ∧
      ∃ e, prepareLoginResponse deps peer s = (.error e, s)) := by
  rcases h : getSettings deps peer.accountID s with e | st
  · exact .inr ⟨⟨e, rfl⟩, _, bind_of_error (mapError_of_error (readsExcept_of h))⟩
  · refine .inl ⟨⟨st, rfl⟩, ?_⟩
    rw [prepareLoginResponse, bind_of_ok (mapError_of_ok (readsExcept_of h))]
    rfl

/-- A registration with the key of the row `p` is accepted. -/
structure RegistrationAccepted (deps : ServerDeps) (identity : Identity)
    (req : MachineRegisterRequest) (p : Peer) (s : Store) : Prop where
  login : LoginAccepted deps.toDeps (extractMachinePeerMeta deps req.systemMeta identity) p s
  extraSettings : deps.getExtraSettings p.accountID = .ok ()

variable (hkey : registrationKey deps identity req = .ok key)

include hkey

/-- A registration with a known key fails without a trace, or writes the row of the key
(if there is anything to write) and succeeds exactly when it is accepted. -/
theorem registerMachinePeer_known (hp : s.peerByKey (deps.keyString key) = some p) :
    (¬ RegistrationAccepted deps identity req p s ∧
      ∃ e, registerMachinePeer deps (some identity) req s = (.error e, s)) ∨
    ∃ s', LoginWrites deps.toDeps (extractMachinePeerMeta deps req.systemMeta identity) p s s' ∧
      ((RegistrationAccepted deps identity req p s ∧
          registerMachinePeer deps (some identity) req s =
            (.ok ⟨p.loggedIn deps.toDeps (extractMachinePeerMeta deps req.systemMeta identity),
              machineIdentityOf identity⟩, s')) ∨ (¬ RegistrationAccepted deps identity req p s ∧
          ∃ e, registerMachinePeer deps (some identity) req s = (.error e, s'))) := by
  obtain ⟨-, hpk⟩ := Store.peerByKey_eq_some.mp hp
  rw [registerMachinePeer_of_key hkey, ← hpk]
  rw [← hpk] at hp
  generalize hm : extractMachinePeerMeta deps req.systemMeta identity = m
  rcases loginPeer_known_cases deps.toDeps (m := m) (some identity) hp with
    ⟨hacc, e, h⟩ | ⟨s', hw, ⟨hacc, h⟩ | ⟨hacc, e, h⟩⟩
  · exact .inl ⟨fun hr => hacc (hm ▸ hr.login), _, bind_of_error (mapError_of_error h)⟩
  · refine .inr ⟨s', hw, ?_⟩
    rw [bind_of_ok (mapError_of_ok h)]
    -- what is left can only fail on the extra settings
    have hidx := (Peer.sameIndex_loggedIn deps.toDeps m p).accountID
    obtain ⟨st, hst, -⟩ := hacc.settings
    have hst' : s'.getAccountSettings p.accountID = .ok st := by
      rw [← hst, Store.getAccountSettings, Store.getAccountSettings, hw.accounts]
    rcases prepareLoginResponse_cases deps (p.loggedIn deps.toDeps m) s' with ⟨⟨st', hget⟩, h⟩ | ⟨⟨e, hget⟩, e', h⟩
    · rw [bind_of_ok h]
      refine .inl ⟨⟨hm ▸ hacc, ?_⟩, rfl⟩
      rw [hidx] at hget
      obtain ⟨u, hextra, -⟩ := Except.bind_eq_ok.mp hget
      exact hextra
    · refine .inr ⟨fun hr => ?_, e', bind_of_error h⟩
      rw [hidx, getSettings, hr.extraSettings] at hget
      cases hst'.symm.trans hget
  · exact .inr ⟨s', hw, .inr ⟨fun hr => hacc (hm ▸ hr.login), _,
      bind_of_error (mapError_of_error h)⟩⟩

/-- A registration with a new key fails without a trace, or adds one row to the account
of the identity; it may still fail after that. -/
theorem registerMachinePeer_new (hnew : s.peerByKey (deps.keyString key) = none) :
    (∃ e, registerMachinePeer deps (some identity) req s = (.error e, s)) ∨
    ∃ p s', IsMachineRow deps.toDeps identity (machinePeer (deps.keyString key)
        (extractMachinePeerMeta deps req.systemMeta identity)) p ∧ s'.peers = s.peers ++ [p] ∧
      (registerMachinePeer deps (some identity) req s = (.ok ⟨p, machineIdentityOf identity⟩, s') ∨
        ∃ e, registerMachinePeer deps (some identity) req s = (.error e, s')) := by
  rw [registerMachinePeer_of_key hkey]
  generalize extractMachinePeerMeta deps req.systemMeta identity = m
  have hlogin := loginPeer_of_unknown deps.toDeps m (some identity) hnew
  rcases addPeer_mtls_cases deps.toDeps identity "" (machinePeer (deps.keyString key) m) false s with
    ⟨e, h⟩ | ⟨p, s', hrow, hpeers, h | ⟨e, h⟩⟩
  · exact .inl ⟨_, bind_of_error (mapError_of_error (hlogin.trans h))⟩
  · refine .inr ⟨p, s', hrow, hpeers, ?_⟩
    rw [bind_of_ok (mapError_of_ok (hlogin.trans h))]
    rcases prepareLoginResponse_cases deps p s' with ⟨-, hresp⟩ | ⟨-, e, hresp⟩
    · exact .inl (bind_of_ok hresp)
    · exact .inr ⟨e, bind_of_error hresp⟩
  · exact .inr ⟨p, s', hrow, hpeers, .inr ⟨_, bind_of_error (mapError_of_error (hlogin.trans h))⟩⟩

omit hkey

/-! ### Tenants -/

/-- If the registration succeeds, the peer it returns and every row it writes are in the
account of the identity. -/
def StaysInAccount (deps : ServerDeps) (identity : Identity) (req : MachineRegisterRequest)
    (s : Store) : Prop :=
  ∀ resp s', registerMachinePeer deps (some identity) req s = (.ok resp, s') →
    resp.peer.accountID = identity.accountID ∧
      ∀ q ∈ s'.peers, q ∉ s.peers → q.accountID = identity.accountID

include hkey

theorem staysInAccount_of_new
    (hnew : s.peerByKey (deps.keyString key) = none) : StaysInAccount deps identity req s := by
  intro resp s' h
  rcases registerMachinePeer_new hkey hnew with ⟨e, h'⟩ | ⟨p, s₁, hrow, hpeers, h' | ⟨e, h'⟩⟩
  · rw [h'] at h
    cases h
  · rw [h'] at h
    cases h
    refine ⟨hrow.accountID, fun q hq hold => ?_⟩
    rw [hpeers, List.mem_append, List.mem_singleton] at hq
    rcases hq with hq | rfl
    · exact absurd hq hold
    · exact hrow.accountID
  · rw [h'] at h
    cases h

theorem staysInAccount_known_iff (hp : s.peerByKey (deps.keyString key) = some p) :
    StaysInAccount deps identity req s ↔
      p.accountID = identity.accountID ∨ ¬ RegistrationAccepted deps identity req p s := by
  have hmem : p ∈ s.peers := (Store.peerByKey_eq_some.mp hp).1
  have hidx := (Peer.sameIndex_loggedIn deps.toDeps
    (extractMachinePeerMeta deps req.systemMeta identity) p).accountID
  rcases registerMachinePeer_known hkey hp with ⟨hacc, e, h⟩ | ⟨s', hw, ⟨hacc, h⟩ | ⟨hacc, e, h⟩⟩
  · refine iff_of_true (fun resp s' h' => ?_) (.inr hacc)
    rw [h] at h'
    cases h'
  · constructor
    · intro hstay
      have hreturned := (hstay _ _ h).1
      rw [hidx] at hreturned
      exact .inl hreturned
    · rintro (heq | hnot)
      · intro resp s₁ h'
        rw [h] at h'
        cases h'
        refine ⟨hidx.trans heq, fun q hq hold => ?_⟩
        rcases hw.mem hmem hq with rfl | hq
        · exact hidx.trans heq
        · exact absurd hq hold
      · exact absurd hacc hnot
  · refine iff_of_true (fun resp s' h' => ?_) (.inr hacc)
    rw [h] at h'
    cases h'

omit hkey

/-- **When a registration stays in its tenant.**  The key of the request must be new, or
registered in the account of the identity, or the login of its peer be refused. -/
theorem registerMachinePeer_account_iff (haccount : identity.accountID ≠ "")
    (hissuer : ValidatorConfig.validateIssuerCA deps.caseMap deps.validator identity.accountID
      identity.issuerFingerprint = .ok (.ok ())) : StaysInAccount deps identity req s ↔
      ∀ key p, parseWgPubKey deps req.wgPubKey = .ok key →
        s.peerByKey (deps.keyString key) = some p →
        p.accountID = identity.accountID ∨ ¬ RegistrationAccepted deps identity req p s := by
  have hreg : registrationKey deps identity req = parseWgPubKey deps req.wgPubKey := by
    rw [registrationKey, if_neg haccount, checkIssuer, hissuer]
    rfl
  constructor
  · intro hstay key p hkey hp
    exact (staysInAccount_known_iff (hreg.trans hkey) hp).mp hstay
  · intro hcond
    rcases hkey : parseWgPubKey deps req.wgPubKey with e | key
    · intro resp s' h
      rw [registerMachinePeer_of_error (hreg.trans hkey)] at h
      cases h
    · rcases hp : s.peerByKey (deps.keyString key) with _ | p
      · exact staysInAccount_of_new (hreg.trans hkey) hp
      · exact (staysInAccount_known_iff (hreg.trans hkey) hp).mpr (hcond key p hkey hp)

end

/-! ### A registration that leaves its tenant -/

/-- Surroundings for evaluation, in which nothing fails.  The HMAC is the beginning of
the message. -/
def labDeps : ServerDeps where
  caseMap := CaseMap.ascii
  sorts := .insertion
  hmac := fun _ message => Vector.ofFn fun i => message.getD i 0
  now := 0
  newID := "new-peer"
  newID_ne_empty := by decide
  allocatedIP := fun n => UInt32.ofNat (1681915904 + n)
  getParsedDomainLabel := .ok
  validateDomainsList := fun _ => .ok ()
  hashSetupKey := id
  mayCreatePeers := fun _ _ => .ok true
  userEmail := fun _ => none
  geoLookup := fun _ => none
  prepareStatus := Peer.status
  isNotValidPeer := fun _ _ _ => .ok (false, false)
  onPeersUpdated := fun _ _ => .ok ()
  getValidatedPeerWithMap := fun _ _ _ => .ok ()
  validator := none
  parseKey := fun _ => none
  keyString := fun key => Text.hexEncode key.toList
  parsePrefix := fun _ => none
  authTime := "2025-01-01T00:00:00Z"
  getExtraSettings := fun _ => .ok ()
  realIP := none
  reqStart := 0
  syncTime := 0
  disconnectTime := 0
  sendInitial := .ok ()
  onPeerConnected := .ok ()
  streamEnd := .channelClosed

/-- A machine of the account `corp-a`. -/
def labIdentity : Identity where
  dnsName := "pc.corp.local"
  hostname := "pc"
  domain := "corp.local"
  matchedDomain := "corp.local"
  accountID := "corp-a"
  issuerFingerprint := ""
  serialNumber := "1"
  templateOID := ""
  templateName := ""
  peerType := ""

def labKey : List UInt8 := List.replicate 32 7

def labRequest : MachineRegisterRequest where
  wgPubKey := labKey
  systemMeta := some { hostname := "pc" }

/-- Two accounts, and one peer with the key, in the account `corp-b`. -/
def labStore : Store where
  accounts := [{ id := "corp-a" }, { id := "corp-b" }]
  peers := [{ id := "old-peer", accountID := "corp-b", key := Text.hexEncode labKey }]
  groups := [{ id := "all-a", accountID := "corp-a", name := "All", peers := [] }]
  valid := by decide

/-- A machine of `corp-a` that presents the key of a peer of `corp-b` is logged in as
that peer, whose row gets its metadata. -/
theorem register_updates_foreign_account :
    ∃ resp s', registerMachinePeer labDeps (some labIdentity) labRequest labStore = (.ok resp, s') ∧
      labIdentity.accountID = "corp-a" ∧ resp.peer.accountID = "corp-b" ∧
      s'.peers.map (fun p => (p.accountID, p.systemMeta.certDNSName)) =
        [("corp-b", "pc.corp.local")] :=
  ⟨_, _, rfl, rfl, rfl, rfl⟩

/-- The same request in a store without peers: the new row is in `corp-a`. -/
theorem register_new_key_stays : labIdentity.accountID ≠ "" ∧
      ValidatorConfig.validateIssuerCA labDeps.caseMap labDeps.validator labIdentity.accountID
        labIdentity.issuerFingerprint = .ok (.ok ()) ∧ StaysInAccount labDeps labIdentity labRequest
        { labStore with peers := [], valid := by decide } := by
  refine ⟨by decide, rfl, (registerMachinePeer_account_iff (by decide) rfl).mpr ?_⟩
  intro key p _ hp
  cases hp

end Netbird
