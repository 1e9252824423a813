/-
The mTLS interceptors of the management server and its own issuer check.

Both interceptors extract the identity and then accept, fall back to token
authentication or reject.  The unary one also logs the first sixteen bytes of the
issuer fingerprint, which is empty for a chain of one certificate; the server's
`ValidateIssuerCA` logs the first sixteen bytes of a fingerprint that is only known
to equal an allow-list entry.  Neither slice is guarded.

* `unary_eq_stream_iff` — when the unary one takes the same decision;
* `serverValidateIssuerCA_eq_ok_iff` — when the server's issuer check returns;
* `interceptors_and_issuer_checks_iff` — both together, exactly;
* `unary_panics_on_lone_certificate` — an input that fails.
-/
import Netbird.Mtls.Extract

namespace Mtls

open Checked

def mTLSRequiredMethods : List String :=
  ["/management.ManagementService/RegisterMachinePeer",
    "/management.ManagementService/SyncMachinePeer",
    "/management.ManagementService/GetMachineRoutes",
    "/management.ManagementService/ReportMachineStatus"]

/-- What an interceptor does with a call.  Rejections carry the text of the
`Unauthenticated` status. -/
inductive Decision where
  | accept (identity : Identity)
  | fallback
  | reject (message : String)
  deriving DecidableEq

/-- The branch of both interceptors for a connection without an identity. -/
def withoutIdentity (strictMode : Bool) (fullMethod : String) : Decision :=
  if fullMethod ∈ mTLSRequiredMethods then
    .reject ("method " ++ fullMethod ++ " requires client certificate authentication")
  else if strictMode then .reject "client certificate required"
  else .fallback

def mtlsUnaryInterceptor (lib : Library) (cfg : Option MTLSConfig) (strictMode : Bool)
    (peer : Option AuthInfo) (fullMethod : String) : Except Panic Decision := do
  match ← extractMTLSIdentity lib cfg peer with
  | .error _ => .ok (withoutIdentity strictMode fullMethod)
  | .ok identity =>
    -- `identity.IssuerFingerprint[:16]` in the debug message
    let _ ← slicePrefix identity.issuerFingerprint 16
    .ok (.accept identity)

def mtlsStreamInterceptor (lib : Library) (cfg : Option MTLSConfig) (strictMode : Bool)
    (peer : Option AuthInfo) (fullMethod : String) : Except Panic Decision := do
  match ← extractMTLSIdentity lib cfg peer with
  | .error _ => .ok (withoutIdentity strictMode fullMethod)
  | .ok identity => .ok (.accept identity)

def MTLSConfig.validateIssuerCA (cm : CaseMap) (cfg : Option MTLSConfig)
    (accountID issuerFingerprint : String) : Except Panic (Except IssuerError Unit) :=
  match cfg with
  | none => .ok (.error .configNotInitialized)
  | some cfg =>
    let allowedIssuers := issuersOf cfg.accountAllowedIssuers accountID
    if allowedIssuers.length = 0 then .ok (.error (.noAllowedIssuers accountID))
    else
      let normalizedFP := cm.toLower issuerFingerprint
      if issuerListed cm allowedIssuers normalizedFP then do
        -- `normalizedFP[:16]` in the debug message
        let _ ← slicePrefix normalizedFP 16
        .ok (.ok ())
      else if normalizedFP.utf8ByteSize > 16 then do
        let preview ← fpPreview normalizedFP
        .ok (.error (.issuerNotAllowed preview accountID))
      else .ok (.error (.issuerNotAllowed (bytes normalizedFP) accountID))

/-! ### The interceptors -/

/-- The fingerprint is 64 bytes long as soon as the chain has an issuer. -/
theorem utf8ByteSize_issuerFP (lib : Library) (cert : Certificate) (issuers : List Certificate) :
    16 ≤ (issuerFP lib (cert :: issuers)).utf8ByteSize ↔ 2 ≤ (cert :: issuers).length := by
  rcases issuers with _ | ⟨issuer, rest⟩
  · simp [issuerFP]
  · have hlen : (lib.sha256 issuer.raw).toList.length = 32 := Vector.length_toList
    simp [issuerFP, Text.utf8ByteSize_hexEncode, hlen]

section

variable (lib : Library) (cfg : Option MTLSConfig) (strictMode : Bool) (fullMethod : String)
variable (cert : Certificate) (issuers : List Certificate) (others : List (List Certificate))

/-- The unary interceptor decides as the stream one does, unless it has to log the
fingerprint of a missing issuer. -/
theorem unary_eq_stream_iff :
    (∃ d, mtlsUnaryInterceptor lib cfg strictMode (verifiedPeer (cert :: issuers) others)
        fullMethod = .ok d ∧
      mtlsStreamInterceptor lib cfg strictMode (verifiedPeer (cert :: issuers) others)
        fullMethod = .ok d) ↔
    2 ≤ (cert :: issuers).length ∨ ¬ SansAccepted lib cfg cert.dnsNames := by
  rw [mtlsUnaryInterceptor, mtlsStreamInterceptor, ← utf8ByteSize_issuerFP lib,
    ← extractMTLSIdentity_isOk lib cfg cert issuers others]
  simp only [verifiedPeer, extractMTLSIdentity]
  -- the chain has a client certificate, so nothing panics before the interceptors log
  rcases identityOfChain_cases lib cfg cert issuers with
    ⟨err, -, h⟩ | ⟨v, id, -, h, -, -, -, -, -, hfp⟩
  · rw [h]
    exact ⟨fun _ => .inr (by simp), fun _ => ⟨withoutIdentity strictMode fullMethod, rfl, rfl⟩⟩
  · rw [h, ← hfp, or_iff_left (not_not.mpr ⟨id, rfl⟩)]
    simp only [bind, Except.bind]
    by_cases hlen : 16 ≤ id.issuerFingerprint.utf8ByteSize
    · rw [slicePrefix_eq_ok hlen]
      exact ⟨fun _ => hlen, fun _ => ⟨.accept id, rfl, rfl⟩⟩
    · rw [slicePrefix_eq_error hlen]
      simp [hlen]

end

/-! ### The issuer checks -/

variable (cm : CaseMap)

/-- The server's check panics exactly on an allowed fingerprint of fewer than
sixteen bytes; otherwise it returns the verdict of the shared check. -/
theorem serverValidateIssuerCA_configured (c : MTLSConfig) (accountID fp : String) :
    MTLSConfig.validateIssuerCA cm (some c) accountID fp =
      if issuerListed cm (issuersOf c.accountAllowedIssuers accountID) (cm.toLower fp) ∧
          ¬ 16 ≤ (cm.toLower fp).utf8ByteSize then .error .sliceOutOfRange
      else .ok (issuerVerdict cm (issuersOf c.accountAllowedIssuers accountID) accountID fp) := by
  have hnil : ∀ l : List String, l.length = 0 → issuerListed cm l (cm.toLower fp) = false := by
    intro l hl
    rw [List.length_eq_zero_iff.mp hl]
    rfl
  simp only [MTLSConfig.validateIssuerCA, issuerVerdict]
  by_cases hempty : (issuersOf c.accountAllowedIssuers accountID).length = 0
  · simp [hempty, hnil _ hempty]
  · by_cases hlisted : issuerListed cm (issuersOf c.accountAllowedIssuers accountID)
        (cm.toLower fp)
    · by_cases hlen : 16 ≤ (cm.toLower fp).utf8ByteSize
      · simp [hempty, hlisted, hlen, slicePrefix_eq_ok hlen, bind, Except.bind]
      · simp [hempty, hlisted, hlen, slicePrefix_eq_error hlen, bind, Except.bind]
    · by_cases hlong : (cm.toLower fp).utf8ByteSize > 16
      · simp [hempty, hlisted, hlong, fpPreview_ok hlong.le, truncatedFP, bind, Except.bind]
      · simp [hempty, hlisted, hlong, truncatedFP]

/-- The allow-list of the account does not hold this fingerprint, or it is long
enough for the server to log it. -/
def IssuerLoggable (cm : CaseMap) (cfg : Option MTLSConfig) (accountID fp : String) : Prop :=
  ∀ c, cfg = some c →
    issuerListed cm (issuersOf c.accountAllowedIssuers accountID) (cm.toLower fp) →
    16 ≤ (cm.toLower fp).utf8ByteSize

theorem serverValidateIssuerCA_eq_ok_iff (cfg : Option MTLSConfig) (accountID fp : String) :
    (∃ v, MTLSConfig.validateIssuerCA cm cfg accountID fp = .ok v) ↔
      IssuerLoggable cm cfg accountID fp := by
  rcases cfg with _ | c
  · simp [MTLSConfig.validateIssuerCA, IssuerLoggable]
  · rw [serverValidateIssuerCA_configured]
    split_ifs with h
    · simp only [exists_false, false_iff, IssuerLoggable]
      exact fun hlog => h.2 (hlog c rfl h.1)
    · simp only [Except.ok.injEq, exists_eq', true_iff, IssuerLoggable]
      rintro _ ⟨⟩ hlisted
      by_contra hlen
      exact h ⟨hlisted, hlen⟩

/-- Neither issuer check panics, and with the same allow-lists they agree. -/
def IssuerChecksAgree (cm : CaseMap) (cfg : Option MTLSConfig) (vcfg : Option ValidatorConfig)
    (accountID fp : String) : Prop :=
  (∃ v, MTLSConfig.validateIssuerCA cm cfg accountID fp = .ok v) ∧
  (∃ v, ValidatorConfig.validateIssuerCA cm vcfg accountID fp = .ok v) ∧
  ∀ c v, cfg = some c → vcfg = some v → c.accountAllowedIssuers = v.accountAllowedIssuers →
    MTLSConfig.validateIssuerCA cm cfg accountID fp =
      ValidatorConfig.validateIssuerCA cm vcfg accountID fp

theorem issuerChecksAgree_iff (cfg : Option MTLSConfig)
    (vcfg : Option ValidatorConfig) (accountID fp : String) :
    IssuerChecksAgree cm cfg vcfg accountID fp ↔ IssuerLoggable cm cfg accountID fp := by
  constructor
  · rintro ⟨hserver, -⟩
    exact (serverValidateIssuerCA_eq_ok_iff cm cfg accountID fp).mp hserver
  · intro hlog
    refine ⟨(serverValidateIssuerCA_eq_ok_iff cm cfg accountID fp).mpr hlog, ?_, ?_⟩
    · rcases vcfg with _ | v
      · exact ⟨_, rfl⟩
      · exact ⟨_, validateIssuerCA_eq_ok cm v accountID fp⟩
    · rintro c v rfl rfl hsame
      rw [validateIssuerCA_eq_ok, serverValidateIssuerCA_configured, ← hsame, if_neg]
      rintro ⟨hlisted, hshort⟩
      exact hshort (hlog c rfl hlisted)

/-- **When the interceptors and the issuer checks agree.**  For every non-empty
verified chain, configuration and method both interceptors take the same decision
without a panic, and for every fingerprint both issuer checks return the same
verdict without a panic, iff the chain has an issuer or its SANs are refused, and the
fingerprint is not an allow-list entry of fewer than sixteen bytes. -/
theorem interceptors_and_issuer_checks_iff (lib : Library) (cfg : Option MTLSConfig)
    (vcfg : Option ValidatorConfig) (strictMode : Bool) (fullMethod : String)
    (cert : Certificate) (issuers : List Certificate) (others : List (List Certificate))
    (accountID fp : String) :
    ((∃ d, mtlsUnaryInterceptor lib cfg strictMode (verifiedPeer (cert :: issuers) others)
          fullMethod = .ok d ∧
        mtlsStreamInterceptor lib cfg strictMode (verifiedPeer (cert :: issuers) others)
          fullMethod = .ok d) ∧ IssuerChecksAgree lib.caseMap cfg vcfg accountID fp) ↔
    (2 ≤ (cert :: issuers).length ∨ ¬ SansAccepted lib cfg cert.dnsNames) ∧
      IssuerLoggable lib.caseMap cfg accountID fp :=
  and_congr (unary_eq_stream_iff lib cfg strictMode fullMethod cert issuers others)
    (issuerChecksAgree_iff lib.caseMap cfg vcfg accountID fp)

/-! ### The inputs that fail -/

/-- A library for evaluation: ASCII case, IDNA without effect, a constant hash. -/
def Library.ascii : Library where
  caseMap := CaseMap.ascii
  toASCII := some
  sha256 := fun _ => Vector.replicate 32 0

/-- One domain and one account, with an allow-list of one short fingerprint. -/
def corpConfig : MTLSConfig where
  domainAccountMapping := AList.insert "corp.local" "acct" ∅
  accountAllowedDomains := ∅
  accountAllowedIssuers := AList.insert "acct" ["abc"] ∅

/-- A chain of the client certificate alone: the stream interceptor accepts it, the
unary one panics. -/
theorem unary_panics_on_lone_certificate :
    mtlsUnaryInterceptor Library.ascii (some corpConfig) false
        (verifiedPeer [{ dnsNames := ["pc.corp.local"] }] []) "/management.ManagementService/Sync" =
      .error .sliceOutOfRange ∧ ∃ id, mtlsStreamInterceptor Library.ascii (some corpConfig) false
        (verifiedPeer [{ dnsNames := ["pc.corp.local"] }] [])
        "/management.ManagementService/Sync" = .ok (.accept id) ∧ id.accountID = "acct" :=
  ⟨rfl, _, rfl, rfl⟩

end Mtls
