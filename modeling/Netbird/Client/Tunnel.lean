/-
The machine tunnel: its connection loop, and what a connection attempt opens and keeps.

`connect` asks the environment at every step (the disk, the certificate store, the management
server, the network devices).  `Attempt` holds the answers of one call, so a run of the connection
loop is a list of attempts.  The state keeps a journal of what the tunnel opens, closes, stores and
presents, newest entry first, so every moment of a run is a final segment of it.
-/
import Netbird.Lib.Command
import Netbird.Peer.Meta

namespace Netbird.Tunnel

open Command

/-! ### The state -/

/-- The configuration of the tunnel, from its YAML file. -/
structure MachineTunnelConfig where
  setupKey : String
  machineCertEnabled : Bool
  machineCertThumbprint : String
deriving DecidableEq

/-- The configuration on disk.  The keys are stored encrypted; here they stand as they were
before, and whether a decryption succeeds is up to the environment. -/
structure SecureConfig where
  managementURL : String
  encryptedSetupKey : String := ""
  encryptedPrivateKey : String := ""
  encryptedSSHKey : String := ""
  machineCertEnabled : Bool
  machineCertThumbprint : String := ""
deriving DecidableEq

def SecureConfig.hasSetupKey (c : SecureConfig) : Bool := c.encryptedSetupKey ≠ ""

def SecureConfig.hasPrivateKey (c : SecureConfig) : Bool := c.encryptedPrivateKey ≠ ""

def SecureConfig.hasSSHKey (c : SecureConfig) : Bool := c.encryptedSSHKey ≠ ""

/-- The objects the tunnel opens. -/
inductive Kind
  | peerEngine
  | mgmClient
  | wgInterface
deriving DecidableEq

/-- What the tunnel opens.  An object gets a number when it is created; a system route belongs
to the network device it leads to. -/
inductive Resource
  | object (kind : Kind) (id : ℕ)
  | route (network : Prefix) (device : ℕ)
deriving DecidableEq

inductive Event
  | opened (r : Resource)
  | closed (r : Resource)
  /-- The setup key was written to the configuration on disk. -/
  | storedSetupKey (key : String)
  /-- The setup key was sent to the management server. -/
  | presentedSetupKey (key : String)
deriving DecidableEq

/-- The tunnel, the configuration on disk and the journal. -/
structure MachineTunnel where
  peerEngine : Option ℕ := none
  mgmClient : Option ℕ := none
  wgInterface : Option ℕ := none
  /-- The system operations, made for one interface. -/
  sysOps : Option ℕ := none
  activeRoutes : List Prefix := []
  secureConfig : Option SecureConfig := none
  nextID : ℕ := 0
  journal : List Event := []
deriving DecidableEq

/-! ### The environment's answers -/

/-- What a bootstrap gives, as far as the later steps look at it. -/
structure BootstrapResponse where
  hasPeerConfig : Bool
  hasNetbirdConfig : Bool
  hasSignal : Bool
deriving DecidableEq

inductive AuthMethod
  | unknown
  | setupKey
  | mtls
deriving DecidableEq

structure BootstrapResult where
  authMethod : AuthMethod
  response : BootstrapResponse
deriving DecidableEq

structure LoginError where
  text : String
  /-- The status code is `PermissionDenied`. -/
  permissionDenied : Bool
deriving DecidableEq

/-- A network of a routing peer: the prefix it is read as, if any, and whether the system takes
the route. -/
structure RouteNetwork where
  parsed : Option Prefix
  added : Bool
deriving DecidableEq

structure RemotePeer where
  /-- The networks routed through the peer. -/
  routeNetworks : List RouteNetwork
  connects : Bool
deriving DecidableEq

/-- The environment's answers to one call of `connect`, in the order they are asked for;
an error is `some` text. -/
structure Attempt where
  /-- The parsed URL, with its port. -/
  managementURL : Except String String
  loadError : Option String
  privateKeyError : Option String
  sshKeyError : Option String
  setupKeyError : Option String
  newPrivateKey : Except String String
  newSSHKey : Except String String
  /-- The second read of the configuration, in `persistKeys`. -/
  reloadError : Option String
  sealPrivateKeyError : Option String
  sealSSHKeyError : Option String
  sealSetupKeyError : Option String
  saveError : Option String
  hasMachineCert : Bool
  mtls : Except String BootstrapResponse
  setupKeyFormatError : Option String
  bootstrapClientError : Option String
  publicKeyError : Option String
  login : Except LoginError BootstrapResponse
  register : Except String BootstrapResponse
  /-- The third read, and the write, in `cleanupSetupKeyAfterMTLS`. -/
  cleanupLoadError : Option String
  cleanupSaveError : Option String
  newInterfaceError : Option String
  createError : Option String
  upError : Option String
  parseKeyError : Option String
  mgmClientError : Option String
  networkMapError : Option String
  remotePeers : List RemotePeer
  peerEngineError : Option String
  interfaceByNameError : Option String

abbrev Action (α : Type) : Type := Command MachineTunnel String α

/-- Stop with the wrapped error, if there is one. -/
def orFail (text : String) : Option String → Action Unit
  | none => pure ()
  | some e => fail (text ++ ": " ++ e)

def require (b : Bool) (text : String) : Action Unit :=
  if b then pure () else fail text

def record (e : Event) : Action Unit :=
  update fun t => .ok { t with journal := e :: t.journal }

/-- Open a new object; the result is its number. -/
def create (kind : Kind) : Action ℕ :=
  fun t => (.ok t.nextID,
    { t with nextID := t.nextID + 1, journal := .opened (.object kind t.nextID) :: t.journal })

/-! ### The keys -/

def readConfig (e : Option String) (file : Option SecureConfig) : Except String SecureConfig :=
  match e, file with
  | some e, _ => .error e
  | none, none => .error "read config file: file does not exist"
  | none, some c => .ok c

def loadMachineConfigFrom (e : Option String) : Action SecureConfig :=
  readsExcept fun t => readConfig e t.secureConfig

def SecureConfig.saveTo (c : SecureConfig) (e : Option String) : Action Unit := do
  orFail "write config file" e
  update fun t => .ok { t with secureConfig := some c }

/-- The keys `toMachineConfig` collects. -/
structure Keys where
  wgKey : String
  sshKey : String
  setupKey : String
  needsPersist : Bool

/-- The keys found on disk: a key that cannot be decrypted is as good as none. -/
def Keys.load (a : Attempt) : Except String SecureConfig → Keys
  | .ok c =>
    { wgKey := if c.hasPrivateKey ∧ a.privateKeyError = none then c.encryptedPrivateKey else ""
      sshKey := if c.hasSSHKey ∧ a.sshKeyError = none then c.encryptedSSHKey else ""
      setupKey := if c.hasSetupKey ∧ a.setupKeyError = none then c.encryptedSetupKey else ""
      needsPersist := false }
  | .error _ => { wgKey := "", sshKey := "", setupKey := "", needsPersist := true }

variable (config : MachineTunnelConfig)

/-- Take the setup key of the YAML file if there is none on disk. -/
def Keys.fallback (k : Keys) : Keys :=
  if k.setupKey = "" ∧ config.setupKey ≠ "" then
    { k with setupKey := config.setupKey, needsPersist := true }
  else k

/-- Make one key if it is missing. -/
def Keys.make (text : String) (isMissing : Bool) (new : Except String String)
    (set : String → Keys) (k : Keys) : Except String Keys :=
  if isMissing then
    match new with
    | .ok key => .ok { set key with needsPersist := true }
    | .error e => .error (text ++ ": " ++ e)
  else .ok k

def Keys.generate (a : Attempt) (k : Keys) : Except String Keys := do
  let k ← k.make "generate WireGuard private key" (k.wgKey = "") a.newPrivateKey
    ({ k with wgKey := · })
  k.make "generate SSH private key" (k.sshKey = "") a.newSSHKey ({ k with sshKey := · })

def SecureConfig.seal (text : String) (e : Option String) (isDue : Bool)
    (set : SecureConfig → SecureConfig) (c : SecureConfig) : Except String SecureConfig :=
  if isDue then
    match e with
    | none => .ok (set c)
    | some e => .error (text ++ ": " ++ e)
  else .ok c

variable (a : Attempt)

/-- The configuration with the keys in it.  A setup key that is there stays. -/
def SecureConfig.withKeys (k : Keys) (c : SecureConfig) : Except String SecureConfig := do
  let c ← c.seal "encrypt WireGuard key" a.sealPrivateKeyError (k.wgKey ≠ "")
    ({ · with encryptedPrivateKey := k.wgKey })
  let c ← c.seal "encrypt SSH key" a.sealSSHKeyError (k.sshKey ≠ "")
    ({ · with encryptedSSHKey := k.sshKey })
  c.seal "encrypt setup key" a.sealSetupKeyError (k.setupKey ≠ "" ∧ ¬ c.hasSetupKey)
    ({ · with encryptedSetupKey := k.setupKey })

/-- The configuration `persistKeys` starts from: the one on disk or a new one, with the tunnel's
settings. -/
def SecureConfig.refresh (managementURL : String) : Except String SecureConfig → SecureConfig
  | .ok c =>
    { c with managementURL := managementURL
             machineCertEnabled := config.machineCertEnabled
             machineCertThumbprint := config.machineCertThumbprint }
  | .error _ =>
    { managementURL := managementURL
      machineCertEnabled := config.machineCertEnabled
      machineCertThumbprint := config.machineCertThumbprint }

def persistKeys (managementURL : String) (k : Keys) : Action Unit := do
  let loaded ← attempt (loadMachineConfigFrom a.reloadError)
  let c := SecureConfig.refresh config managementURL loaded
  let c' ← ofResult (c.withKeys a k)
  mapError ("save SecureConfig: " ++ ·) (c'.saveTo a.saveError)
  if k.setupKey ≠ "" ∧ ¬ c.hasSetupKey then record (.storedSetupKey k.setupKey) else pure ()

/-- What the bootstrap and the later steps get. -/
structure MachineConfig where
  privateKey : String
  sshKey : String
  machineCertEnabled : Bool
  setupKey : String

def toMachineConfig : Action MachineConfig := do
  let url ← mapError ("parse management URL: " ++ ·) (ofResult a.managementURL)
  let loaded ← attempt (loadMachineConfigFrom a.loadError)
  let k ← ofResult (((Keys.load a loaded).fallback config).generate a)
  -- An error here is only logged: the keys are in memory.
  let _ ← attempt (if k.needsPersist then persistKeys config a url k else pure ())
  pure
    { privateKey := k.wgKey
      sshKey := k.sshKey
      machineCertEnabled := config.machineCertEnabled
      setupKey := k.setupKey }

def cleanupSetupKeyAfterMTLS : Action Unit := do
  let c ← mapError ("load secure config: " ++ ·) (loadMachineConfigFrom a.cleanupLoadError)
  if c.hasSetupKey then
    mapError ("save config: " ++ ·)
      ({ c with encryptedSetupKey := "" }.saveTo a.cleanupSaveError)
  else pure ()

/-! ### The bootstrap -/

/-- The calls on the temporary management client. -/
def loginOrRegister (m : MachineConfig) : Action BootstrapResult := do
  orFail "failed to generate SSH public key" a.publicKeyError
  match a.login with
  | .ok r => pure { authMethod := .setupKey, response := r }
  | .error e =>
    if e.permissionDenied then do
      record (.presentedSetupKey m.setupKey)
      let r ← mapError ("registration with setup key failed: " ++ ·) (ofResult a.register)
      pure { authMethod := .setupKey, response := r }
    else fail ("login failed: " ++ e.text)

def bootstrapWithSetupKey (m : MachineConfig) : Action BootstrapResult := do
  orFail "invalid setup key format" a.setupKeyFormatError
  orFail "failed to connect to management server" a.bootstrapClientError
  let id ← create .mgmClient
  let r ← attempt (loginOrRegister a m)
  -- The client is closed however the calls end.
  record (.closed (.object .mgmClient id))
  ofResult r

/-- mTLS, with the setup key to fall back on. -/
def bootstrap (a : Attempt) (m : MachineConfig) : Action BootstrapResult :=
  if m.machineCertEnabled ∧ a.hasMachineCert then
    match a.mtls with
    | .ok r => pure { authMethod := .mtls, response := r }
    | .error e =>
      if m.setupKey ≠ "" then bootstrapWithSetupKey a m
      else fail ("mTLS authentication failed: " ++ e)
  else if m.setupKey = "" then
    fail ("no machine certificate available and no setup key provided; " ++
      "for initial bootstrap, provide a setup key")
  else bootstrapWithSetupKey a m

/-! ### Interface, client and engine -/

variable (r : BootstrapResult)

def setupWireGuardInterface : Action Unit := do
  require r.response.hasPeerConfig "no peer config in bootstrap result"
  orFail "failed to create WireGuard interface" a.newInterfaceError
  orFail "failed to create TUN device" a.createError
  let id ← create .wgInterface
  orFail "failed to bring up WireGuard interface" a.upError
  -- Whatever the fields held before is dropped, not closed.
  update fun t => .ok { t with wgInterface := some id, sysOps := some id }

def buildPeerEngineConfig : Action Unit := do
  let t ← reads id
  require t.wgInterface.isSome "WireGuard interface not set - call setupWireGuardInterface first"
  require r.response.hasNetbirdConfig "no NetbirdConfig in bootstrap result"
  require r.response.hasSignal "no Signal config in NetbirdConfig"

/-- Add one route and remember it; a network that is not a prefix, or that the system refuses,
is skipped. -/
def addRoute (device : ℕ) (n : RouteNetwork) : Action Unit :=
  match n.parsed with
  | none => pure ()
  | some network =>
    if n.added then
      update fun t => .ok
        { t with activeRoutes := t.activeRoutes ++ [network]
                 journal := .opened (.route network device) :: t.journal }
    else pure ()

def addWindowsSystemRoutes (networks : List RouteNetwork) : Action Unit := do
  let t ← reads id
  match t.wgInterface, t.sysOps with
  | none, _ => fail "WireGuard interface not available"
  | some _, none => fail "SysOps not initialized"
  | some device, some _ => do
    orFail "get WireGuard interface by name" a.interfaceByNameError
    networks.forM (addRoute device)

def connectToRemotePeers : Action Unit :=
  if a.remotePeers.all (¬ ·.connects) then fail "all peer connections failed"
  else
    let networks := a.remotePeers.flatMap (·.routeNetworks)
    if networks = [] then pure ()
    else do
      -- Only logged.
      let _ ← attempt (addWindowsSystemRoutes a networks)
      pure ()

/-- The rest of `initializePeerEngine`, once the client is stored. -/
def startPeerEngine : Action Unit := do
  orFail "get network map" a.networkMapError
  if a.remotePeers = [] then pure ()
  else do
    mapError ("build peer engine config: " ++ ·) (buildPeerEngineConfig r)
    orFail "create peer engine" a.peerEngineError
    let id ← create .peerEngine
    update fun t => .ok { t with peerEngine := some id }
    let _ ← attempt (connectToRemotePeers a)
    pure ()

def initializePeerEngine : Action Unit := do
  orFail "parse WireGuard key from config" a.parseKeyError
  orFail "create management client" a.mgmClientError
  let id ← create .mgmClient
  update fun t => .ok { t with mgmClient := some id }
  startPeerEngine a r

/-! ### An attempt and a run -/

/-- The first half of `connect`: the keys, the bootstrap, and the end of the setup key. -/
def authenticate : Action BootstrapResult := do
  let m ← mapError ("create machine config: " ++ ·) (toMachineConfig config a)
  let r ← mapError ("bootstrap failed: " ++ ·) (bootstrap a m)
  -- Only logged.
  let _ ← attempt (if r.authMethod = .mtls then cleanupSetupKeyAfterMTLS a else pure ())
  pure r

/-- One attempt.  What it has created stays when a later step fails. -/
def connect : Action Unit := do
  let r ← authenticate config a
  mapError ("WireGuard setup failed: " ++ ·) (setupWireGuardInterface a r)
  mapError ("PeerEngine initialization failed: " ++ ·) (initializePeerEngine a r)

/-- Close the object of a field, if there is one. -/
def closeField (kind : Kind) (id : Option ℕ) (journal : List Event) : List Event :=
  match id with
  | none => journal
  | some id => .closed (.object kind id) :: journal

/-- Remove the remembered routes from the device the current interface has; the routes of a
device that is gone went with it. -/
def removeWindowsSystemRoutes (interfaceByNameError : Option String) (t : MachineTunnel) :
    MachineTunnel :=
  match t.wgInterface, t.sysOps, interfaceByNameError with
  | some device, some _, none =>
    { t with activeRoutes := []
             journal := t.activeRoutes.foldl
               (fun journal network => .closed (.route network device) :: journal) t.journal }
  | some _, some _, some _ => { t with activeRoutes := [] }
  | _, _, _ => t

def closeClients (t : MachineTunnel) : MachineTunnel :=
  { t with peerEngine := none
           mgmClient := none
           journal := closeField .mgmClient t.mgmClient
             (closeField .peerEngine t.peerEngine t.journal) }

def cleanup (interfaceByNameError : Option String) (t : MachineTunnel) : MachineTunnel :=
  let t := removeWindowsSystemRoutes interfaceByNameError (closeClients t)
  { t with wgInterface := none
           journal := closeField .wgInterface t.wgInterface t.journal }

/-- One round of `connectionLoop`: an attempt, and if it succeeds the wait until the health check
fails.  Nothing is closed between two rounds. -/
def round (t : MachineTunnel) (a : Attempt) : MachineTunnel :=
  (connect config a t).2

variable (file : Option SecureConfig)

/-- The connection loop over the attempts, from a new tunnel and the given file. -/
def connectionLoop (attempts : List Attempt) : MachineTunnel :=
  attempts.foldl (round config) { secureConfig := file }

/-- A whole run: the loop, then `Stop`. -/
def serve (attempts : List Attempt) (interfaceByNameError : Option String) : MachineTunnel :=
  cleanup interfaceByNameError (connectionLoop config file attempts)

/-! ### How far an attempt gets -/

/-- The setup key the bootstrap of the attempt works with, `none` if it does not get there. -/
def Attempt.setupKey (config : MachineTunnelConfig) (file : Option SecureConfig) (a : Attempt) :
    Option String :=
  match a.managementURL,
    ((Keys.load a (readConfig a.loadError file)).fallback config).generate a with
  | .ok _, .ok k => some k.setupKey
  | _, _ => none

variable (a : Attempt)

/-- What the bootstrap over mTLS gives, if it is tried and succeeds. -/
def Attempt.mtlsResponse : Option BootstrapResponse :=
  if config.machineCertEnabled ∧ a.hasMachineCert then a.mtls.toOption else none

/-- The bootstrap opens a management client to use the setup key. -/
def Attempt.opensClient : Bool :=
  match a.setupKey config file with
  | none => false
  | some key => key ≠ "" ∧ a.mtlsResponse config = none ∧ a.setupKeyFormatError = none ∧
      a.bootstrapClientError = none

/-- The answer to the login, or to the registration it asks for. -/
def Attempt.setupKeyResponse : Option BootstrapResponse :=
  match a.publicKeyError, a.login with
  | some _, _ => none
  | none, .ok r => some r
  | none, .error e => if e.permissionDenied then a.register.toOption else none

def Attempt.response : Option BootstrapResponse :=
  if a.opensClient config file then a.setupKeyResponse
  else if a.setupKey config file = none then none
  else a.mtlsResponse config

def Attempt.createsDevice : Bool :=
  match a.response config file with
  | none => false
  | some r => r.hasPeerConfig ∧ a.newInterfaceError = none ∧ a.createError = none

end Netbird.Tunnel
