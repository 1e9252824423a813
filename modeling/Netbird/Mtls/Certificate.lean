/-
Client certificates and the attributes read from their AD CS extensions.

The template extensions are decoded by hand-written ASN.1 readers that index
and slice the extension value.  They are embedded with checked accesses, and
`parseTemplateExtension_ok` and `decodeASN1String_ok` show that every access is
in range, whatever the bytes are; `templateInfo_ok` collects this for a whole
certificate.
-/
import Netbird.Lib.Checked
import Netbird.Lib.Text

namespace Mtls

open Checked

/-- `asn1.ObjectIdentifier`. -/
abbrev ObjectIdentifier := List ℕ

/-- `ObjectIdentifier.String`. -/
def ObjectIdentifier.toDotted (oid : ObjectIdentifier) : String :=
  ".".intercalate (oid.map Nat.repr)

/-- `x509.ExtKeyUsage`. -/
inductive ExtKeyUsage where
  | any | serverAuth | clientAuth | codeSigning | emailProtection
  | ipsecEndSystem | ipsecTunnel | ipsecUser | timeStamping | ocspSigning
  | microsoftServerGatedCrypto | netscapeServerGatedCrypto
  | microsoftCommercialCodeSigning | microsoftKernelCodeSigning
  deriving DecidableEq

/-- `pkix.Extension`. -/
structure Extension where
  id : ObjectIdentifier
  value : List UInt8
  deriving DecidableEq

/-- The fields of `x509.Certificate` that the management server reads. -/
structure Certificate where
  raw : List UInt8 := []
  dnsNames : List String := []
  emailAddresses : List String := []
  serialNumber : ℤ := 0
  extensions : List Extension := []
  extKeyUsage : List ExtKeyUsage := []
  unknownExtKeyUsage : List ObjectIdentifier := []
  deriving DecidableEq

/-! ### Text of byte strings -/

variable (data : List UInt8)

/-- `string(data)`.  Bytes that are not UTF-8 are kept one character a byte. -/
def stringOfBytes : String :=
  match String.fromUTF8? ⟨data.toArray⟩ with
  | some s => s
  | none => String.ofList (data.map fun b => Char.ofNat b.toNat)

/-- The conversion of one UTF-16 code unit: surrogates become U+FFFD. -/
def runeOfCodeUnit (n : ℕ) : Char :=
  if n < 0xd800 ∨ 0xdfff < n then Char.ofNat n else Char.ofNat 0xfffd

/-- The code units of a BMPString, null units dropped; a trailing odd byte is
ignored. -/
def bmpRunes : List UInt8 → List Char
  | hi :: lo :: rest =>
    let r := hi.toNat <<< 8 ||| lo.toNat
    if r ≠ 0 then runeOfCodeUnit r :: bmpRunes rest else bmpRunes rest
  | _ => []

def decodeBMPString : String :=
  if data.length < 2 then "" else String.ofList (bmpRunes data)

/-! ### The template OID (v2 extension) -/

/-- The base-128 loop of `decodeOID`, on a Go `int`. -/
def oidComponents : List UInt8 → BitVec 64 → List ℤ
  | [], _ => []
  | b :: rest, val =>
    let val := val <<< 7 ||| BitVec.ofNat 64 (b &&& 0x7f).toNat
    if b &&& 0x80 = 0 then val.toInt :: oidComponents rest 0 else oidComponents rest val

def decodeOID : List UInt8 → String
  | [] => ""
  | b :: rest =>
    let first : ℤ := b.toNat
    let head : List ℤ :=
      if first < 40 then [0, first] else if first < 80 then [1, first - 40] else [2, first - 80]
    ".".intercalate ((head ++ oidComponents rest 0).map toString)

def parseTemplateExtension : Except Panic String :=
  if data.length < 4 then .ok ""
  else do
    let tag ← index data 0
    if tag ≠ 0x30 then .ok ""
    else do
      let seqLen ← index data 1
      if seqLen.toNat > data.length - 2 then .ok ""
      else if 2 ≥ data.length then .ok ""
      else do
        let oidTag ← index data 2
        if oidTag ≠ 0x06 then .ok ""
        else if 3 ≥ data.length then .ok ""
        else do
          let oidLen ← index data 3
          if 4 + oidLen.toNat > data.length then .ok ""
          else do
            let oidBytes ← slice data 4 (4 + oidLen.toNat)
            .ok (decodeOID oidBytes)

def templateExtOID : String := "1.3.6.1.4.1.311.21.7"

variable (cert : Certificate)

def extractTemplateOID : Except Panic String :=
  match cert.extensions.find? (·.id.toDotted == templateExtOID) with
  | some ext => parseTemplateExtension ext.value
  | none => .ok ""

/-! ### The template name (v1 extension) -/

/-- Tag and length of the ASN.1 string, and where its value starts: the long
forms `0x81` and `0x82` carry the length in the next one or two bytes. -/
def asn1ValueBounds : Except Panic (ℕ × ℕ) := do
  let length ← index data 1
  if length = 0x81 ∧ data.length > 2 then do
    let l ← index data 2
    .ok (3, l.toNat)
  else if length = 0x82 ∧ data.length > 3 then do
    let hi ← index data 2
    let lo ← index data 3
    .ok (4, hi.toNat <<< 8 ||| lo.toNat)
  else .ok (2, length.toNat)

def tagBMPString : UInt8 := 30

def decodeASN1String : Except Panic String :=
  if data.length < 2 then .ok ""
  else do
    let tag ← index data 0
    let (valueStart, length) ← asn1ValueBounds data
    if valueStart + length > data.length then .ok (stringOfBytes data)
    else do
      let value ← slice data valueStart (valueStart + length)
      -- UTF8String, PrintableString, IA5String and unknown tags are raw text
      if tag = tagBMPString then .ok (decodeBMPString value) else .ok (stringOfBytes value)

def templateNameExtOID : String := "1.3.6.1.4.1.311.20.2"

def extractTemplateNameV1 : Except Panic String :=
  match cert.extensions.find? (·.id.toDotted == templateNameExtOID) with
  | some ext => decodeASN1String ext.value
  | none => .ok ""

/-! ### The peer type -/

def defaultMachineTemplateNames : List String :=
  ["Machine", "Computer", "Workstation", "NetBirdMachine", "DomainController", "WebServer",
    "IPSecIntermediateOffline"]

def smartCardLogonOID : String := "1.3.6.1.4.1.311.20.2.2"

/-- The decision from key usages and SAN types, when the template name does not
settle the type. -/
def peerTypeFromUsage : String :=
  let hasClientAuth := cert.extKeyUsage.contains .clientAuth
  let hasSmartCardLogon := cert.unknownExtKeyUsage.any (·.toDotted == smartCardLogonOID)
  if hasClientAuth && !hasSmartCardLogon then
    if cert.emailAddresses.length > 0 then "user" else "machine"
  else if hasSmartCardLogon then "user"
  else if cert.emailAddresses.length > 0 then "user"
  else if cert.dnsNames.length > 0 then "machine"
  else "unknown"

def determinePeerType (cm : CaseMap) (_templateOID templateName : String)
    (cert : Certificate) : String :=
  let nameLower := cm.toLower templateName
  if templateName ≠ "" ∧ defaultMachineTemplateNames.any (cm.toLower · == nameLower) then
    "machine"
  else if templateName ≠ "" ∧ nameLower ∈ ["user", "smartcardlogon", "smartcarduser"] then
    "user"
  else peerTypeFromUsage cert

/-! ### No access is out of range -/

theorem parseTemplateExtension_ok : ∃ s, parseTemplateExtension data = .ok s := by
  unfold parseTemplateExtension
  by_cases hlen : data.length < 4
  · exact ⟨"", if_pos hlen⟩
  · rw [if_neg hlen, index_eq_ok (show 0 < data.length by omega),
      index_eq_ok (show 1 < data.length by omega), index_eq_ok (show 2 < data.length by omega),
      index_eq_ok (show 3 < data.length by omega)]
    simp only [bind, Except.bind]
    split_ifs with h1 h2 h3 h4 h5 h6
    all_goals try exact ⟨_, rfl⟩
    -- the bound on the OID length is what keeps the last slice in range
    rw [slice_eq_ok (by omega) (by omega)]
    exact ⟨_, rfl⟩

theorem asn1ValueBounds_ok {data : List UInt8} (h : 2 ≤ data.length) :
    ∃ b, asn1ValueBounds data = .ok b := by
  unfold asn1ValueBounds
  rw [index_eq_ok (show 1 < data.length by omega)]
  simp only [bind, Except.bind]
  split_ifs with h1 h2
  · rw [index_eq_ok h1.2]
    exact ⟨_, rfl⟩
  · rw [index_eq_ok (show 2 < data.length by omega), index_eq_ok h2.2]
    exact ⟨_, rfl⟩
  · exact ⟨_, rfl⟩

theorem decodeASN1String_ok : ∃ s, decodeASN1String data = .ok s := by
  unfold decodeASN1String
  by_cases hlen : data.length < 2
  · exact ⟨"", if_pos hlen⟩
  · obtain ⟨⟨valueStart, length⟩, hb⟩ := asn1ValueBounds_ok (show 2 ≤ data.length by omega)
    rw [index_eq_ok (show 0 < data.length by omega), hb]
    simp only [bind, Except.bind]
    split_ifs with h1 h2
    · exact ⟨_, rfl⟩
    all_goals
      rw [slice_eq_ok (by omega) (by omega)]
      exact ⟨_, rfl⟩

/-- Reading the two template extensions of a certificate never panics. -/
theorem templateInfo_ok :
    (∃ oid, extractTemplateOID cert = .ok oid) ∧ ∃ name, extractTemplateNameV1 cert = .ok name := by
  constructor
  · unfold extractTemplateOID
    split
    · exact parseTemplateExtension_ok _
    · exact ⟨_, rfl⟩
  · unfold extractTemplateNameV1
    split
    · exact decodeASN1String_ok _
    · exact ⟨_, rfl⟩

end Mtls
