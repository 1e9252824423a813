/-
The identity taken from a client certificate, and the issuer check of the
shared `mtls` package.

The gRPC handlers call this `ValidateIssuerCA`, not the one of the server
package (see `Netbird.Mtls.Interceptor` for that one).  It reads its own
global configuration and accepts every issuer while that is unset.

* `validateIssuerCA_eq_ok` — the check never panics, and when it accepts.
-/
import Netbird.Lib.Checked
import Netbird.Lib.Text

namespace Mtls

open Checked

/-- `mtls.Identity`. -/
structure Identity where
  dnsName : String
  hostname : String
  domain : String
  matchedDomain : String
  accountID : String
  issuerFingerprint : String
  serialNumber : String
  templateOID : String
  templateName : String
  peerType : String
  deriving DecidableEq

/-- The identity has a canonical name: in lower case, split at the first dot, with
something after it. -/
structure Identity.Canonical (cm : CaseMap) (i : Identity) : Prop where
  split : Text.cut i.dnsName '.' = some (i.hostname, i.domain)
  lower : cm.toLower i.dnsName = i.dnsName
  domain_ne_empty : i.domain ≠ ""

/-- `mtls.ValidatorConfig`. -/
structure ValidatorConfig where
  accountAllowedIssuers : StringMap (List String)

/-- The errors of the two issuer checks.  The fingerprint of `issuerNotAllowed`
is the shortened one that goes into the text. -/
inductive IssuerError where
  | configNotInitialized
  | noAllowedIssuers (accountID : String)
  | issuerNotAllowed (fpPreview : List UInt8) (accountID : String)
  deriving DecidableEq

/-- `allowedIssuers[accountID]`, the empty list for a missing key. -/
def issuersOf (allowed : StringMap (List String)) (accountID : String) : List String :=
  (allowed.lookup accountID).getD []

variable (cm : CaseMap)

/-- The comparison both issuer checks make, on lower-case text. -/
def issuerListed (allowedIssuers : List String) (normalizedFP : String) : Bool :=
  allowedIssuers.any fun allowed => cm.toLower allowed == normalizedFP

def fpPreview (fp : String) : Except Panic (List UInt8) := do
  let head ← slicePrefix fp 16
  .ok (head ++ bytes "...")

def truncateFP (fp : String) : Except Panic (List UInt8) :=
  if fp.utf8ByteSize > 16 then fpPreview fp else .ok (bytes fp)

def ValidatorConfig.validateIssuerCA (cfg : Option ValidatorConfig)
    (accountID issuerFingerprint : String) : Except Panic (Except IssuerError Unit) :=
  match cfg with
  | none => .ok (.ok ())
  | some cfg =>
    let allowedIssuers := issuersOf cfg.accountAllowedIssuers accountID
    if allowedIssuers.length = 0 then .ok (.error (.noAllowedIssuers accountID))
    else
      let normalizedFP := cm.toLower issuerFingerprint
      if issuerListed cm allowedIssuers normalizedFP then do
        -- the argument of the debug message is evaluated at every log level
        let _ ← truncateFP normalizedFP
        .ok (.ok ())
      else do
        let preview ← truncateFP normalizedFP
        .ok (.error (.issuerNotAllowed preview accountID))

/-! ### The check never panics -/

def truncatedFP (fp : String) : List UInt8 :=
  if fp.utf8ByteSize > 16 then (bytes fp).take 16 ++ bytes "..." else bytes fp

theorem fpPreview_ok {fp : String} (h : 16 ≤ fp.utf8ByteSize) :
    fpPreview fp = .ok ((bytes fp).take 16 ++ bytes "...") := by
  rw [fpPreview, slicePrefix_eq_ok h]
  rfl

theorem truncateFP_ok (fp : String) : truncateFP fp = .ok (truncatedFP fp) := by
  rw [truncateFP, truncatedFP]
  split_ifs with h
  · exact fpPreview_ok (by omega)
  · rfl

/-- The verdict of the issuer check for a configured allow-list. -/
def issuerVerdict (allowedIssuers : List String)
    (accountID issuerFingerprint : String) : Except IssuerError Unit :=
  if allowedIssuers.length = 0 then .error (.noAllowedIssuers accountID)
  else if issuerListed cm allowedIssuers (cm.toLower issuerFingerprint) then .ok ()
  else .error (.issuerNotAllowed (truncatedFP (cm.toLower issuerFingerprint)) accountID)

theorem validateIssuerCA_eq_ok (cfg : ValidatorConfig) (accountID fp : String) :
    ValidatorConfig.validateIssuerCA cm (some cfg) accountID fp =
      .ok (issuerVerdict cm (issuersOf cfg.accountAllowedIssuers accountID) accountID fp) := by
  simp only [ValidatorConfig.validateIssuerCA, issuerVerdict, truncateFP_ok]
  split_ifs with hempty hlisted
  · rfl
  · rfl
  · rfl

/-! ### Canonical names -/

namespace Identity.Canonical

variable {cm : CaseMap} {i j : Identity}

theorem lower_parts (h : i.Canonical cm) :
    cm.toLower i.hostname = i.hostname ∧ cm.toLower i.domain = i.domain := by
  obtain ⟨hname, -⟩ := Text.cut_eq_some h.split
  have hlower := congrArg String.toList h.lower
  rw [CaseMap.toList_toLower, hname, List.map_append] at hlower
  obtain ⟨hhost, hrest⟩ := List.append_inj hlower (List.length_map _)
  refine ⟨String.toList_injective ?_, String.toList_injective ?_⟩
  · rw [CaseMap.toList_toLower, hhost]
  · rw [CaseMap.toList_toLower, (List.cons.inj hrest).2]

theorem lower_hostname (h : i.Canonical cm) : cm.toLower i.hostname = i.hostname :=
  h.lower_parts.1

theorem lower_domain (h : i.Canonical cm) : cm.toLower i.domain = i.domain :=
  h.lower_parts.2

theorem eq_of_dnsName_eq (hi : i.Canonical cm) (hj : j.Canonical cm) (h : i.dnsName = j.dnsName) :
    i.hostname = j.hostname ∧ i.domain = j.domain := by
  have hsplit := hi.split
  rw [h, hj.split, Option.some.injEq, Prod.mk.injEq] at hsplit
  exact ⟨hsplit.1.symm, hsplit.2.symm⟩

theorem dnsName_ne_empty (h : i.Canonical cm) : i.dnsName ≠ "" := by
  obtain ⟨hname, -⟩ := Text.cut_eq_some h.split
  intro hempty
  rw [hempty] at hname
  simp at hname

end Identity.Canonical

end Mtls
