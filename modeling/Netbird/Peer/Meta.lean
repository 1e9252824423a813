/-
Peers and their system metadata.

`UpdateMetaIfNew` decides with `isEmpty` and `isEqual` whether reported metadata
is new and then replaces the whole record.  The three look at different fields:
`isEqual` ignores the certificate fields, `isEmpty` ignores those and the flags,
and the replacement spares only `UIVersion`.

* `Peer.auditFields_updateMetaIfNew` — a replaced record has the certificate fields of the
  reported one, not of the stored one;
* `reorder_ignored_iff` — when the order of the lists does not matter.
-/
import Mathlib.Data.String.Basic
import Netbird.Lib.Keyed

namespace Netbird

/-- `net.IP`: the bytes of the address, four or sixteen of them. -/
abbrev IP := List UInt8

/-- `netip.Prefix`. -/
structure Prefix where
  addr : List UInt8
  bits : ℕ
  deriving DecidableEq

/-- `time.Time` in UTC, in nanoseconds since 1970. -/
abbrev Time := ℤ

/-- `time.Duration`, in nanoseconds. -/
abbrev Duration := ℤ

/-! ### The records -/

structure NetworkAddress where
  netIP : Prefix
  mac : String
  deriving DecidableEq

structure Environment where
  cloud : String := ""
  platform : String := ""
  deriving DecidableEq

structure File where
  path : String
  exist : Bool
  processIsRunning : Bool
  deriving DecidableEq

structure Flags where
  rosenpassEnabled : Bool := false
  rosenpassPermissive : Bool := false
  serverSSHAllowed : Bool := false
  disableClientRoutes : Bool := false
  disableServerRoutes : Bool := false
  disableDNS : Bool := false
  disableFirewall : Bool := false
  blockLANAccess : Bool := false
  blockInbound : Bool := false
  lazyConnectionEnabled : Bool := false
  deriving DecidableEq

structure PeerSystemMeta where
  hostname : String := ""
  goOS : String := ""
  kernel : String := ""
  core : String := ""
  platform : String := ""
  os : String := ""
  osVersion : String := ""
  wtVersion : String := ""
  uiVersion : String := ""
  kernelVersion : String := ""
  networkAddresses : List NetworkAddress := []
  systemSerialNumber : String := ""
  systemProductName : String := ""
  systemManufacturer : String := ""
  environment : Environment := {}
  flags : Flags := {}
  files : List File := []
  peerType : String := ""
  authMethod : String := ""
  certDNSName : String := ""
  certDomain : String := ""
  certIssuerFP : String := ""
  certSerial : String := ""
  certTemplate : String := ""
  firstAuthTime : String := ""
  lastCertAuthTime : String := ""
  deriving DecidableEq

structure PeerStatus where
  lastSeen : Time := 0
  connected : Bool := false
  loginExpired : Bool := false
  requiresApproval : Bool := false
  deriving DecidableEq

structure Location where
  connectionIP : Option IP := none
  countryCode : String := ""
  cityName : String := ""
  geoNameID : ℕ := 0
  deriving DecidableEq

structure ProxyMeta where
  embedded : Bool := false
  cluster : String := ""
  deriving DecidableEq

structure Peer where
  id : String := ""
  accountID : String := ""
  key : String := ""
  ip : IP := []
  /-- `Meta`. -/
  systemMeta : PeerSystemMeta := {}
  proxyMeta : ProxyMeta := {}
  name : String := ""
  dnsLabel : String := ""
  status : PeerStatus := {}
  userID : String := ""
  sshKey : String := ""
  sshEnabled : Bool := false
  loginExpirationEnabled : Bool := false
  inactivityExpirationEnabled : Bool := false
  lastLogin : Option Time := none
  createdAt : Time := 0
  ephemeral : Bool := false
  location : Location := {}
  extraDNSLabels : List String := []
  allowExtraDNSLabels : Bool := false
  deriving DecidableEq

/-! ### Comparing metadata -/

/-- The two calls of `sort.Slice` in `isEqual`. Entries with equal keys come out in an order that
is not specified; a list that is sorted already stays as it is. -/
structure MetaSorts where
  sortByMac : List NetworkAddress → List NetworkAddress
  sortByPath : List File → List File
  sortsBy_mac : Keyed.SortsBy (·.mac) sortByMac
  sortsBy_path : Keyed.SortsBy (·.path) sortByPath

/-- Insertion sort, which `sort.Slice` uses for up to twelve entries. -/
def MetaSorts.insertion : MetaSorts where
  sortByMac := List.insertionSort fun a b => a.mac ≤ b.mac
  sortByPath := List.insertionSort fun a b => a.path ≤ b.path
  sortsBy_mac := Keyed.sortsBy_insertionSort _
  sortsBy_path := Keyed.sortsBy_insertionSort _

variable (sorts : MetaSorts)

namespace PeerSystemMeta

variable (p other : PeerSystemMeta)

/-- The comparison of the network addresses in `isEqual`. -/
def equalNetworkAddresses : Bool :=
  sorts.sortByMac p.networkAddresses == sorts.sortByMac other.networkAddresses

/-- The comparison of the files in `isEqual`. -/
def equalFiles : Bool :=
  sorts.sortByPath p.files == sorts.sortByPath other.files

/-- `isEqual`: every field but the peer type and those of the certificate. -/
def isEqual : Bool :=
  p.equalNetworkAddresses sorts other && p.equalFiles sorts other &&
    p.hostname == other.hostname &&
    p.goOS == other.goOS &&
    p.kernel == other.kernel &&
    p.kernelVersion == other.kernelVersion &&
    p.core == other.core &&
    p.platform == other.platform &&
    p.os == other.os &&
    p.osVersion == other.osVersion &&
    p.wtVersion == other.wtVersion &&
    p.uiVersion == other.uiVersion &&
    p.systemSerialNumber == other.systemSerialNumber &&
    p.systemProductName == other.systemProductName &&
    p.systemManufacturer == other.systemManufacturer &&
    p.environment.cloud == other.environment.cloud &&
    p.environment.platform == other.environment.platform &&
    p.flags == other.flags

/-- The lists of `p` as `isEqual p other` leaves them: sorted in place, the files
only if the comparison gets that far. -/
def sortedBy : PeerSystemMeta :=
  { p with
    networkAddresses := sorts.sortByMac p.networkAddresses
    files :=
      if p.equalNetworkAddresses sorts other then sorts.sortByPath p.files else p.files }

def isEmpty (p : PeerSystemMeta) : Bool :=
  p.hostname == "" &&
    p.goOS == "" &&
    p.kernel == "" &&
    p.core == "" &&
    p.platform == "" &&
    p.os == "" &&
    p.osVersion == "" &&
    p.wtVersion == "" &&
    p.uiVersion == "" &&
    p.kernelVersion == "" &&
    p.networkAddresses.length == 0 &&
    p.systemSerialNumber == "" &&
    p.systemProductName == "" &&
    p.systemManufacturer == "" &&
    p.environment.cloud == "" &&
    p.environment.platform == "" &&
    p.files.length == 0

/-- Reported metadata with `UIVersion` taken over from `stored` when it is empty. -/
def keepUIVersion (stored reported : PeerSystemMeta) : PeerSystemMeta :=
  if reported.uiVersion = "" then { reported with uiVersion := stored.uiVersion } else reported

/-- The test `UpdateMetaIfNew` makes: the report is not empty and differs. -/
def isNew (stored reported : PeerSystemMeta) : Bool :=
  !reported.isEmpty && !stored.isEqual sorts (stored.keepUIVersion reported)

end PeerSystemMeta

namespace Peer

def addedWithSSOLogin (p : Peer) : Bool :=
  p.userID != ""

/-- `UpdateMetaIfNew`: the peer afterwards, `updated` and `versionChanged`. -/
def updateMetaIfNew (p : Peer) (reported : PeerSystemMeta) : Peer × Bool × Bool :=
  if reported.isEmpty then (p, false, false)
  else
    let versionChanged := p.systemMeta.wtVersion != reported.wtVersion
    let reported := p.systemMeta.keepUIVersion reported
    if p.systemMeta.isEqual sorts reported then
      ({ p with systemMeta := p.systemMeta.sortedBy sorts reported }, false, versionChanged)
    else ({ p with systemMeta := reported.sortedBy sorts p.systemMeta }, true, versionChanged)

/-- The zero `time.Time`, 1 January of year 1. -/
def zeroTime : Time := -62135596800 * 1000000000

def getLastLogin (p : Peer) : Time :=
  p.lastLogin.getD zeroTime

def loginExpired (p : Peer) (expiresIn : Duration) (now : Time) : Bool :=
  if !p.addedWithSSOLogin || !p.loginExpirationEnabled then false
  else p.getLastLogin + expiresIn - now ≤ 0

def updateLastLogin (p : Peer) (now : Time) : Peer :=
  { p with lastLogin := some now, status := { p.status with loginExpired := false } }

end Peer

/-! ### What an update can do -/

/-- The certificate fields of the metadata. -/
structure AuditFields where
  authMethod : String
  certDNSName : String
  certDomain : String
  certIssuerFP : String
  certSerial : String
  firstAuthTime : String

def PeerSystemMeta.auditFields (m : PeerSystemMeta) : AuditFields where
  authMethod := m.authMethod
  certDNSName := m.certDNSName
  certDomain := m.certDomain
  certIssuerFP := m.certIssuerFP
  certSerial := m.certSerial
  firstAuthTime := m.firstAuthTime

@[simp] theorem PeerSystemMeta.auditFields_sortedBy (p other : PeerSystemMeta) :
    (p.sortedBy sorts other).auditFields = p.auditFields :=
  rfl

@[simp] theorem PeerSystemMeta.auditFields_keepUIVersion (stored reported : PeerSystemMeta) :
    (stored.keepUIVersion reported).auditFields = reported.auditFields := by
  unfold keepUIVersion
  split_ifs
  · rfl
  · rfl

variable (p : Peer) (reported : PeerSystemMeta)

/-- Either the report is new and replaces the metadata, or the metadata stays, up to
the order of its lists. -/
theorem Peer.updateMetaIfNew_cases :
    (p.systemMeta.isNew sorts reported = true ∧ (p.updateMetaIfNew sorts reported).2.1 = true ∧
      (p.updateMetaIfNew sorts reported).1 =
        { p with systemMeta := (p.systemMeta.keepUIVersion reported).sortedBy sorts p.systemMeta }) ∨
    (p.systemMeta.isNew sorts reported = false ∧ (p.updateMetaIfNew sorts reported).2.1 = false ∧
      ((p.updateMetaIfNew sorts reported).1 = p ∨ (p.updateMetaIfNew sorts reported).1 =
          { p with systemMeta := p.systemMeta.sortedBy sorts (p.systemMeta.keepUIVersion reported) })) := by
  unfold updateMetaIfNew PeerSystemMeta.isNew
  cases hempty : reported.isEmpty
  · cases heq : p.systemMeta.isEqual sorts (p.systemMeta.keepUIVersion reported)
    · exact .inl ⟨rfl, by simp [heq], by simp [heq]⟩
    · exact .inr ⟨rfl, by simp [heq], .inr (by simp [heq])⟩
  · exact .inr ⟨rfl, rfl, .inl rfl⟩

theorem Peer.updateMetaIfNew_frame : (p.updateMetaIfNew sorts reported).1 =
      { p with systemMeta := (p.updateMetaIfNew sorts reported).1.systemMeta } := by
  rcases p.updateMetaIfNew_cases sorts reported with ⟨-, -, h⟩ | ⟨-, -, h | h⟩ <;> rw [h]

theorem Peer.updateMetaIfNew_updated :
    (p.updateMetaIfNew sorts reported).2.1 = p.systemMeta.isNew sorts reported := by
  rcases p.updateMetaIfNew_cases sorts reported with ⟨hn, hu, -⟩ | ⟨hn, hu, -⟩ <;> rw [hn, hu]

/-- The certificate fields after an update: the reported ones if the report is new. -/
theorem Peer.auditFields_updateMetaIfNew :
    (p.updateMetaIfNew sorts reported).1.systemMeta.auditFields =
      if p.systemMeta.isNew sorts reported then reported.auditFields else p.systemMeta.auditFields := by
  rcases p.updateMetaIfNew_cases sorts reported with ⟨hn, -, h⟩ | ⟨hn, -, h | h⟩ <;> rw [h, hn] <;> simp

/-! ### The order of the lists -/

namespace PeerSystemMeta

/-- The metadata with its lists in other orders. -/
def reorder (m : PeerSystemMeta) (addresses : List NetworkAddress) (files : List File) :
    PeerSystemMeta :=
  { m with networkAddresses := addresses, files := files }

/-- The comparison ignores the order of the lists, and so does `UpdateMetaIfNew`. -/
def OrderIgnored (m : PeerSystemMeta) : Prop :=
  ∀ addresses files, addresses.Perm m.networkAddresses → files.Perm m.files →
    m.isEqual sorts (m.reorder addresses files) = true ∧
      ∀ p : Peer, p.systemMeta = m → (p.updateMetaIfNew sorts (m.reorder addresses files)).2.1 = false

theorem isEqual_reorder (m : PeerSystemMeta) (addresses : List NetworkAddress) (files : List File) :
    m.isEqual sorts (m.reorder addresses files) = true ↔
      sorts.sortByMac m.networkAddresses = sorts.sortByMac addresses ∧
        sorts.sortByPath m.files = sorts.sortByPath files := by
  simp [isEqual, equalNetworkAddresses, equalFiles, reorder]

/-- **The comparison of metadata** ignores the order of the lists exactly if different addresses
have different MAC addresses and different files different paths, however the lists are sorted; it
is always symmetric. -/
theorem reorder_ignored_iff (sorts : MetaSorts) (m m' : PeerSystemMeta) : (m.OrderIgnored sorts ↔
      (∀ x ∈ m.networkAddresses, ∀ y ∈ m.networkAddresses, x.mac = y.mac → x = y) ∧
        ∀ x ∈ m.files, ∀ y ∈ m.files, x.path = y.path → x = y) ∧
      m.isEqual sorts m' = m'.isEqual sorts m := by
  rw [← sorts.sortsBy_mac.eq_of_perm_iff, ← sorts.sortsBy_path.eq_of_perm_iff]
  refine ⟨⟨fun h => ?_, ?_⟩, ?_⟩
  · refine ⟨fun addresses haddr => ?_, fun files hfiles => ?_⟩
    · exact ((m.isEqual_reorder sorts _ _).mp (h addresses m.files haddr (.refl _)).1).1
    · exact ((m.isEqual_reorder sorts _ _).mp (h m.networkAddresses files (.refl _) hfiles).1).2
  · rintro ⟨haddresses, hfiles⟩ addresses files haddr hfile
    have hequal : m.isEqual sorts (m.reorder addresses files) = true :=
      (m.isEqual_reorder sorts _ _).mpr ⟨haddresses _ haddr, hfiles _ hfile⟩
    have hkeep : m.keepUIVersion (m.reorder addresses files) = m.reorder addresses files := by
      rw [keepUIVersion]
      split_ifs <;> rfl
    refine ⟨hequal, fun p hp => ?_⟩
    rw [p.updateMetaIfNew_updated, hp, isNew, hkeep, hequal, Bool.not_true, Bool.and_false]
  · simp only [isEqual, equalNetworkAddresses, equalFiles, BEq.comm]

/-- An interface with an IPv4 and an IPv6 address. -/
def dualStack : PeerSystemMeta where
  hostname := "host"
  networkAddresses := [⟨⟨[10, 0, 0, 1], 24⟩, "aa:bb"⟩, ⟨⟨[0xfd], 64⟩, "aa:bb"⟩]

/-- Listed in the other order it counts as new. -/
theorem dualStack_reordered_is_new :
    dualStack.isEqual .insertion (dualStack.reorder dualStack.networkAddresses.reverse []) = false ∧
      (({ systemMeta := dualStack } : Peer).updateMetaIfNew .insertion
        (dualStack.reorder dualStack.networkAddresses.reverse [])).2.1 = true := by
  decide +kernel

end PeerSystemMeta

end Netbird
