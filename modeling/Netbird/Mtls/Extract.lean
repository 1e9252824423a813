/-
From a verified client certificate to a tenant account.

`extractMTLSIdentity` walks the DNS SANs of the client certificate twice: once
to refuse certificates whose names belong to several accounts, once to select
the first name whose domain is mapped to an account and allowed for it.  The
functions below are those of the management server; what they take from
libraries (the Unicode lower-case map, IDNA, SHA-256) is the parameter `lib`.

* `selectSAN_cases` — what the second walk selects;
* `extractMTLSIdentity_account` — acceptance, the account, and independence of
  the order of the names.
-/
import Mathlib.Data.Finset.Card
import Netbird.Mtls.Certificate
import Netbird.Mtls.Identity

namespace Mtls

open Checked Except

/-- What the server takes from libraries. -/
structure Library where
  caseMap : CaseMap
  /-- `idna.Lookup.ToASCII`; `none` is an error. -/
  toASCII : String → Option String
  /-- `sha256.Sum256`. -/
  sha256 : List UInt8 → Vector UInt8 32

structure MTLSConfig where
  domainAccountMapping : StringMap String
  accountAllowedDomains : StringMap (List String)
  accountAllowedIssuers : StringMap (List String)

/-! ### Domains and accounts -/

/-- The errors of the domain lookups. -/
inductive MappingError where
  | configNotInitialized
  | domainNotMapped (domain : String)
  | noAllowedDomains (accountID : String)
  | domainNotAllowed (domain accountID : String) (allowed : List String)

variable (lib : Library) (cfg : Option MTLSConfig)

def getAccountIDFromDomain (domain : String) : Except MappingError String :=
  match cfg with
  | none => .error .configNotInitialized
  | some cfg =>
    match cfg.domainAccountMapping.lookup (lib.caseMap.toLower domain) with
    | some accountID => .ok accountID
    | none => .error (.domainNotMapped domain)

/-- The explicit list of the account when there is one, else every domain mapped
to the account. -/
def getAllowedDomainsForAccount (accountID : String) : List String :=
  match cfg with
  | none => []
  | some cfg =>
    match cfg.accountAllowedDomains.lookup accountID with
    | some domains => domains
    | none =>
      (cfg.domainAccountMapping.entries.filter fun e => e.2 == accountID).map Sigma.fst

def validateDomainForAccount (domain accountID : String) : Except MappingError String :=
  let allowedDomains := getAllowedDomainsForAccount cfg accountID
  if allowedDomains.length = 0 then .error (.noAllowedDomains accountID)
  else
    let normalizedDomain := lib.caseMap.toLower domain
    match allowedDomains.find? fun allowed => lib.caseMap.toLower allowed == normalizedDomain with
    | some allowed => .ok allowed
    | none => .error (.domainNotAllowed domain accountID allowedDomains)

/-! ### Canonical names -/

/-- The errors of `canonicalizeSAN` and `splitDNSName`. -/
inductive SanError where
  | empty
  | wildcard (dnsName : String)
  | idna (dnsName : String)
  | notFQDN (dnsName : String)
  | labelLength (label dnsName : String)
  | labelStart (label dnsName : String)
  | labelEnd (label dnsName : String)
  | labelCharacter (c : UInt8) (label dnsName : String)

def isAlphanumeric (b : UInt8) : Bool :=
  (0x61 ≤ b && b ≤ 0x7a) || (0x41 ≤ b && b ≤ 0x5a) || (0x30 ≤ b && b ≤ 0x39)

/-- The RFC 1123 check of one label. -/
def checkLabel (dnsName label : String) : Except SanError Unit :=
  let b := bytes label
  if b.length = 0 ∨ b.length > 63 then .error (.labelLength label dnsName)
  else if !(b.head?.any isAlphanumeric) then .error (.labelStart label dnsName)
  else if !(b.getLast?.any isAlphanumeric) then .error (.labelEnd label dnsName)
  else
    -- the interior bytes, positions `1` to `len - 2`
    match b.tail.dropLast.find? fun c => !isAlphanumeric c && c != 0x2d with
    | some c => .error (.labelCharacter c label dnsName)
    | none => .ok ()

def canonicalizeSAN (dnsName : String) : Except SanError String :=
  if dnsName = "" then .error .empty
  else if '*' ∈ dnsName.toList then .error (.wildcard dnsName)
  else
    let name := Text.trimSuffixChar (lib.caseMap.toLower dnsName) '.'
    match lib.toASCII name with
    | none => .error (.idna dnsName)
    | some name =>
      let labels := Text.split name '.'
      if labels.length < 2 then .error (.notFQDN dnsName)
      else do
        labels.forM (checkLabel dnsName)
        .ok name

def splitDNSName (dnsName : String) : Except SanError (String × String) :=
  match Text.cut dnsName '.' with
  | some parts => .ok parts
  | none => .error (.notFQDN dnsName)

/-! ### The two walks over the SANs -/

/-- The errors of `extractMTLSIdentity`. -/
inductive ExtractError where
  | noPeerInfo
  | noTLSInfo
  | noVerifiedChains
  | emptyChain
  | noSAN
  | spansMultipleAccounts (accounts : List String)
  | invalidSANFormat (err : SanError)
  | noValidSAN (err : MappingError)
  | noMatchingSAN

/-- The account one SAN belongs to: what both walks compute before they differ. -/
def sanAccount (dnsName : String) : Option String :=
  match canonicalizeSAN lib dnsName with
  | .error _ => none
  | .ok canonicalName =>
    match splitDNSName canonicalName with
    | .error _ => none
    | .ok (_, domain) => (getAccountIDFromDomain lib cfg domain).toOption

/-- One round of the loop of `checkMultiAccountSpan`, on the keys of its map. -/
def markAccount (seen : List String) (dnsName : String) : List String :=
  match sanAccount lib cfg dnsName with
  | some accountID => seen.insert accountID
  | none => seen

variable (dnsNames : List String)

def seenAccounts : List String :=
  dnsNames.foldl (markAccount lib cfg) []

def checkMultiAccountSpan : Except ExtractError Unit :=
  let seen := seenAccounts lib cfg dnsNames
  if seen.length > 1 then .error (.spansMultipleAccounts seen) else .ok ()

/-- The variables the selection loop sets, all empty before it. -/
structure ValidSAN where
  dnsName : String := ""
  hostname : String := ""
  domain : String := ""
  accountID : String := ""
  matchedDomain : String := ""

/-- The selection loop: the first SAN that passes every check, and the last
validation error before it. -/
def selectSAN (lib : Library) (cfg : Option MTLSConfig) :
    List String → Option MappingError → ValidSAN × Option MappingError
  | [], validationErr => ({}, validationErr)
  | dnsName :: rest, validationErr =>
    match canonicalizeSAN lib dnsName with
    | .error _ => selectSAN lib cfg rest validationErr
    | .ok canonicalName =>
      match splitDNSName canonicalName with
      | .error _ => selectSAN lib cfg rest validationErr
      | .ok (hostname, domain) =>
        match getAccountIDFromDomain lib cfg domain with
        | .error err => selectSAN lib cfg rest (some err)
        | .ok accID =>
          match validateDomainForAccount lib cfg domain accID with
          | .error err => selectSAN lib cfg rest (some err)
          | .ok matched =>
            ({ dnsName := canonicalName, hostname, domain, accountID := accID,
               matchedDomain := matched }, validationErr)

/-- The switch after the loop, entered when `validDNSName` is still empty. -/
def fallbackSAN (validationErr : Option MappingError) : Except ExtractError ValidSAN :=
  match cfg, validationErr with
  | none, _ =>
    -- `DNSNames[0]`; the list is not empty here
    let dnsName := dnsNames.headD ""
    match splitDNSName dnsName with
    | .error err => .error (.invalidSANFormat err)
    | .ok (hostname, domain) => .ok { dnsName, hostname, domain }
  | some _, some err => .error (.noValidSAN err)
  | some _, none => .error .noMatchingSAN

def resolveSAN : Except ExtractError ValidSAN :=
  if dnsNames.length = 0 then .error .noSAN
  else
    match checkMultiAccountSpan lib cfg dnsNames with
    | .error err => .error err
    | .ok () =>
      let (valid, validationErr) := selectSAN lib cfg dnsNames none
      if valid.dnsName = "" then fallbackSAN cfg dnsNames validationErr else .ok valid

/-- The credentials of the connection, `peer.AuthInfo`. -/
inductive AuthInfo where
  | tls (verifiedChains : List (List Certificate))
  | other
  deriving DecidableEq

/-- The fingerprint of the issuer, empty for a chain of one certificate. -/
def issuerFP : List Certificate → String
  | _ :: issuerCert :: _ => Text.hexEncode (lib.sha256 issuerCert.raw).toList
  | _ => ""

/-- The rest of `extractMTLSIdentity`, for the first verified chain. -/
def identityOfChain (chain : List Certificate) : Except Panic (Except ExtractError Identity) :=
  match chain with
  | [] => .ok (.error .emptyChain)
  | clientCert :: _ =>
    match resolveSAN lib cfg clientCert.dnsNames with
    | .error err => .ok (.error err)
    | .ok valid => do
      let templateOID ← extractTemplateOID clientCert
      let templateName ← extractTemplateNameV1 clientCert
      .ok (.ok {
        dnsName := valid.dnsName
        hostname := valid.hostname
        domain := valid.domain
        matchedDomain := valid.matchedDomain
        accountID := valid.accountID
        issuerFingerprint := issuerFP lib chain
        serialNumber := toString clientCert.serialNumber
        templateOID
        templateName
        peerType := determinePeerType lib.caseMap templateOID templateName clientCert })

/-- `extractMTLSIdentity` on the peer of the context, `none` when there is none. -/
def extractMTLSIdentity (peer : Option AuthInfo) : Except Panic (Except ExtractError Identity) :=
  match peer with
  | none => .ok (.error .noPeerInfo)
  | some .other => .ok (.error .noTLSInfo)
  | some (.tls []) => .ok (.error .noVerifiedChains)
  | some (.tls (chain :: _)) => identityOfChain lib cfg chain

/-! ### What a SAN means -/

section

variable {lib : Library} {cfg : Option MTLSConfig}

/-- The SAN canonicalizes to `host.domain`, and the domain is mapped to the account. -/
def SanMapsTo (lib : Library) (cfg : Option MTLSConfig) (dnsName host domain accountID : String) :
    Prop :=
  ∃ canonicalName, canonicalizeSAN lib dnsName = .ok canonicalName ∧
    splitDNSName canonicalName = .ok (host, domain) ∧
    getAccountIDFromDomain lib cfg domain = .ok accountID

/-- The domain is in the allowed list of the account, up to case. -/
def DomainAllowed (lib : Library) (cfg : Option MTLSConfig) (domain accountID : String) : Prop :=
  ∃ allowed ∈ getAllowedDomainsForAccount cfg accountID,
    lib.caseMap.toLower allowed = lib.caseMap.toLower domain

/-- No two SANs that can be canonicalized belong to different accounts. -/
def SingleAccount (lib : Library) (cfg : Option MTLSConfig) (dnsNames : List String) : Prop :=
  ∀ n ∈ dnsNames, ∀ host domain A, SanMapsTo lib cfg n host domain A →
    ∀ n' ∈ dnsNames, ∀ host' domain' A', SanMapsTo lib cfg n' host' domain' A' → A = A'

/-- Some SAN is mapped to an account that allows its domain. -/
def SomeAllowed (lib : Library) (cfg : Option MTLSConfig) (dnsNames : List String) : Prop :=
  ∃ n ∈ dnsNames, ∃ host domain A, SanMapsTo lib cfg n host domain A ∧
    DomainAllowed lib cfg domain A

theorem sanAccount_eq_some {dnsName A : String} :
    sanAccount lib cfg dnsName = some A ↔ ∃ host domain, SanMapsTo lib cfg dnsName host domain A := by
  rw [sanAccount]
  constructor
  · intro h
    split at h
    · cases h
    · rename_i c hc
      split at h
      · cases h
      · rename_i host domain hs
        refine ⟨host, domain, c, hc, hs, ?_⟩
        rcases hg : getAccountIDFromDomain lib cfg domain with e | B
        · rw [hg] at h; cases h
        · rw [hg] at h; cases h; rfl
  · rintro ⟨host, domain, c, hc, hs, hg⟩
    simp only [hc, hs, hg, Except.toOption]

theorem validateDomainForAccount_ok_iff {domain A : String} :
    (∃ matched, validateDomainForAccount lib cfg domain A = .ok matched) ↔
      DomainAllowed lib cfg domain A := by
  constructor
  · rintro ⟨matched, h⟩
    simp only [validateDomainForAccount] at h
    split_ifs at h
    split at h
    · rename_i allowed hfind
      cases h
      exact ⟨matched, List.mem_of_find?_eq_some hfind, by simpa using List.find?_some hfind⟩
    · cases h
  · rintro ⟨allowed, hmem, hlower⟩
    have hlen : ¬ (getAllowedDomainsForAccount cfg A).length = 0 := by
      intro h0
      rw [List.length_eq_zero_iff.mp h0] at hmem
      cases hmem
    simp only [validateDomainForAccount, if_neg hlen]
    cases hfind : (getAllowedDomainsForAccount cfg A).find?
        fun a => lib.caseMap.toLower a == lib.caseMap.toLower domain with
    | some a => exact ⟨a, rfl⟩
    | none =>
      have := List.find?_eq_none.mp hfind allowed hmem
      simp [hlower] at this

/-- A canonical name is never empty, so the empty `validDNSName` marks exactly
the runs of the selection loop that found nothing. -/
theorem canonicalizeSAN_ne_empty {dnsName c : String} (h : canonicalizeSAN lib dnsName = .ok c) :
    c ≠ "" := by
  rintro rfl
  simp only [canonicalizeSAN] at h
  split_ifs at h
  split at h
  · cases h
  · split_ifs at h with hlen
    obtain ⟨u, -, hc⟩ := bind_eq_ok.mp h
    cases hc
    -- the empty text has a single label
    exact hlen (by decide)

/-! ### The first walk -/

theorem foldl_markAccount (names : List String) (seen : List String) (hseen : seen.Nodup) :
    (names.foldl (markAccount lib cfg) seen).Nodup ∧
      ∀ A, A ∈ names.foldl (markAccount lib cfg) seen ↔
        A ∈ seen ∨ ∃ n ∈ names, sanAccount lib cfg n = some A := by
  induction names generalizing seen with
  | nil => simpa using hseen
  | cons n names ih =>
    rw [List.foldl_cons, markAccount]
    rcases hn : sanAccount lib cfg n with _ | B
    · obtain ⟨hnodup, hmem⟩ := ih seen hseen
      refine ⟨hnodup, fun A => ?_⟩
      rw [hmem]
      simp [hn]
    · obtain ⟨hnodup, hmem⟩ := ih (seen.insert B) hseen.insert
      refine ⟨hnodup, fun A => ?_⟩
      rw [hmem]
      simp only [List.mem_insert_iff, List.exists_mem_cons_iff, hn, Option.some.injEq,
        @eq_comm _ B A]
      tauto

variable {names : List String}

theorem mem_seenAccounts {A : String} :
    A ∈ seenAccounts lib cfg names ↔ ∃ n ∈ names, ∃ host domain, SanMapsTo lib cfg n host domain A := by
  rw [seenAccounts, (foldl_markAccount names [] List.nodup_nil).2]
  simp [sanAccount_eq_some]

/-- The first walk passes iff the mapped names agree on their account. -/
theorem checkMultiAccountSpan_eq_ok :
    checkMultiAccountSpan lib cfg names = .ok () ↔ SingleAccount lib cfg names := by
  have hnodup : (seenAccounts lib cfg names).Nodup :=
    (foldl_markAccount names [] List.nodup_nil).1
  have hlen : ¬ (seenAccounts lib cfg names).length > 1 ↔
      ∀ A ∈ seenAccounts lib cfg names, ∀ B ∈ seenAccounts lib cfg names, A = B := by
    rw [not_lt, ← List.toFinset_card_of_nodup hnodup, Finset.card_le_one]
    simp
  have hok : checkMultiAccountSpan lib cfg names = .ok () ↔
      ¬ (seenAccounts lib cfg names).length > 1 := by
    rw [checkMultiAccountSpan]
    split_ifs with h <;> simp [h]
  rw [hok, hlen]
  constructor
  · intro h n hn host domain A hA n' hn' host' domain' A' hA'
    exact h A (mem_seenAccounts.mpr ⟨n, hn, host, domain, hA⟩)
      A' (mem_seenAccounts.mpr ⟨n', hn', host', domain', hA'⟩)
  · intro h A hA B hB
    obtain ⟨n, hn, host, domain, hA⟩ := mem_seenAccounts.mp hA
    obtain ⟨n', hn', host', domain', hB⟩ := mem_seenAccounts.mp hB
    exact h n hn host domain A hA n' hn' host' domain' B hB

/-! ### The second walk -/

/-- The selection loop would stop at this SAN, with these values. -/
def Selects (lib : Library) (cfg : Option MTLSConfig) (dnsName : String) (v : ValidSAN) : Prop :=
  canonicalizeSAN lib dnsName = .ok v.dnsName ∧
    splitDNSName v.dnsName = .ok (v.hostname, v.domain) ∧
    getAccountIDFromDomain lib cfg v.domain = .ok v.accountID ∧
    validateDomainForAccount lib cfg v.domain v.accountID = .ok v.matchedDomain

theorem Selects.sanMapsTo {n : String} {v : ValidSAN} (h : Selects lib cfg n v) :
    SanMapsTo lib cfg n v.hostname v.domain v.accountID :=
  ⟨v.dnsName, h.1, h.2.1, h.2.2.1⟩

/-- A SAN is selectable iff it is mapped to an account that allows its domain. -/
theorem exists_selects {n : String} : (∃ v, Selects lib cfg n v) ↔
      ∃ host domain A, SanMapsTo lib cfg n host domain A ∧ DomainAllowed lib cfg domain A := by
  constructor
  · rintro ⟨v, hv⟩
    exact ⟨v.hostname, v.domain, v.accountID, hv.sanMapsTo,
      validateDomainForAccount_ok_iff.mp ⟨_, hv.2.2.2⟩⟩
  · rintro ⟨host, domain, A, ⟨c, hc, hs, hg⟩, hallowed⟩
    obtain ⟨matched, hm⟩ := validateDomainForAccount_ok_iff.mpr hallowed
    exact ⟨⟨c, host, domain, A, matched⟩, hc, hs, hg, hm⟩

/-- The loop either stops at a SAN of the list, or no SAN is selectable and the
variables keep their empty values. -/
theorem selectSAN_cases (names : List String) (e : Option MappingError) :
    (∃ n ∈ names, Selects lib cfg n (selectSAN lib cfg names e).1) ∨
      ((selectSAN lib cfg names e).1 = {} ∧ ∀ n ∈ names, ∀ v, ¬ Selects lib cfg n v) := by
  induction names generalizing e with
  | nil => right; simp [selectSAN]
  | cons n names ih =>
    by_cases hsel : ∃ v, Selects lib cfg n v
    · obtain ⟨v, hc, hs, hg, hm⟩ := hsel
      refine .inl ⟨n, List.mem_cons_self, ?_⟩
      simp only [selectSAN, hc, hs, hg, hm]
      exact ⟨hc, hs, hg, hm⟩
    · -- the SAN is skipped, and the rest of the list decides
      obtain ⟨e', hskip⟩ : ∃ e', selectSAN lib cfg (n :: names) e = selectSAN lib cfg names e' := by
        rw [selectSAN]
        split
        · exact ⟨_, rfl⟩
        · next c hc =>
          split
          · exact ⟨_, rfl⟩
          · next host domain hs =>
            split
            · exact ⟨_, rfl⟩
            · next A hg =>
              split
              · exact ⟨_, rfl⟩
              · next matched hm =>
                exact absurd ⟨⟨c, host, domain, A, matched⟩, hc, hs, hg, hm⟩ hsel
      rw [hskip]
      rcases ih e' with ⟨m, hm, hs⟩ | ⟨hempty, hnone⟩
      · exact .inl ⟨m, List.mem_cons_of_mem _ hm, hs⟩
      · exact .inr ⟨hempty, List.forall_mem_cons.mpr ⟨not_exists.mp hsel, hnone⟩⟩

/-! ### Both walks together -/

/-- A configured server accepts the SANs iff one of them is mapped and allowed and
all mapped ones agree; what it then returns is selected from the list. -/
theorem resolveSAN_configured (lib : Library) (c : MTLSConfig) (names : List String) :
    ((∃ v, resolveSAN lib (some c) names = .ok v) ↔
      SomeAllowed lib (some c) names ∧ SingleAccount lib (some c) names) ∧
    ∀ v, resolveSAN lib (some c) names = .ok v →
      SingleAccount lib (some c) names ∧ ∃ n ∈ names, Selects lib (some c) n v := by
  have hsome : SomeAllowed lib (some c) names ↔ ∃ n ∈ names, ∃ v, Selects lib (some c) n v := by
    simp only [SomeAllowed, exists_selects]
  have hnil : ¬ SomeAllowed lib (some c) [] := by simp [SomeAllowed]
  rw [resolveSAN]
  split_ifs with hlen
  · rw [List.length_eq_zero_iff.mp hlen]
    simp [hnil]
  · rcases hspan : checkMultiAccountSpan lib (some c) names with err | u
    · have hnot : ¬ SingleAccount lib (some c) names := by
        intro h
        rw [checkMultiAccountSpan_eq_ok.mpr h] at hspan
        cases hspan
      simp [hnot]
    · have hsingle : SingleAccount lib (some c) names := checkMultiAccountSpan_eq_ok.mp hspan
      rcases selectSAN_cases names none with
        ⟨n, hn, hsel⟩ | ⟨hempty, hnone⟩
      · have hne : (selectSAN lib (some c) names none).1.dnsName ≠ "" :=
          canonicalizeSAN_ne_empty hsel.1
        simp only [if_neg hne, ok.injEq, exists_eq', true_iff]
        refine ⟨⟨hsome.mpr ⟨n, hn, _, hsel⟩, hsingle⟩, ?_⟩
        rintro v rfl
        exact ⟨hsingle, n, hn, hsel⟩
      · have hnot : ¬ SomeAllowed lib (some c) names := by
          rw [hsome]
          rintro ⟨n, hn, v, hv⟩
          exact hnone n hn v hv
        have hfall : ∀ v e, fallbackSAN (some c) names e ≠ .ok v := by
          intro v e
          cases e <;> simp [fallbackSAN]
        simp [hempty, hfall, hnot]

/-- Without a configuration the first SAN decides, and only has to contain a dot. -/
theorem resolveSAN_unconfigured (lib : Library) (names : List String) :
    (∃ v, resolveSAN lib none names = .ok v) ↔
      names ≠ [] ∧ ∃ parts, splitDNSName (names.headD "") = .ok parts := by
  have hnomap : ∀ n host domain A, ¬ SanMapsTo lib none n host domain A := by
    rintro n host domain A ⟨c, -, -, hg⟩
    cases hg
  have hspan : checkMultiAccountSpan lib none names = .ok () :=
    checkMultiAccountSpan_eq_ok.mpr fun n _ host domain A h => absurd h (hnomap n host domain A)
  have hempty : (selectSAN lib none names none).1 = {} := by
    rcases selectSAN_cases names none with ⟨n, -, hsel⟩ | ⟨h, -⟩
    · exact absurd hsel.sanMapsTo (hnomap _ _ _ _)
    · exact h
  rw [resolveSAN]
  rcases names with _ | ⟨n, names⟩
  · simp
  · simp only [List.length_cons, Nat.add_eq_zero_iff, one_ne_zero, and_false, if_false, hspan,
      hempty, if_true, fallbackSAN, List.headD_cons, ne_eq, reduceCtorEq, not_false_eq_true,
      true_and]
    cases splitDNSName n <;> simp

/-- The SAN lists the server accepts. -/
def SansAccepted (lib : Library) (cfg : Option MTLSConfig) (dnsNames : List String) : Prop :=
  match cfg with
  | none => dnsNames ≠ [] ∧ ∃ parts, splitDNSName (dnsNames.headD "") = .ok parts
  | some c => SomeAllowed lib (some c) dnsNames ∧ SingleAccount lib (some c) dnsNames

theorem resolveSAN_isOk (lib : Library) (cfg : Option MTLSConfig) (names : List String) :
    (∃ v, resolveSAN lib cfg names = .ok v) ↔ SansAccepted lib cfg names := by
  rcases cfg with _ | c
  · exact resolveSAN_unconfigured lib names
  · exact (resolveSAN_configured lib c names).1

/-- `extractMTLSIdentity` never panics on a non-empty chain: it returns the error
of the SAN walks, or an identity with the selected SAN and the issuer of the chain. -/
theorem identityOfChain_cases (lib : Library) (cfg : Option MTLSConfig) (cert : Certificate)
    (issuers : List Certificate) : (∃ err, resolveSAN lib cfg cert.dnsNames = .error err ∧
      identityOfChain lib cfg (cert :: issuers) = .ok (.error err)) ∨
    ∃ v id, resolveSAN lib cfg cert.dnsNames = .ok v ∧
      identityOfChain lib cfg (cert :: issuers) = .ok (.ok id) ∧
      id.dnsName = v.dnsName ∧ id.hostname = v.hostname ∧ id.domain = v.domain ∧
      id.matchedDomain = v.matchedDomain ∧ id.accountID = v.accountID ∧
      id.issuerFingerprint = issuerFP lib (cert :: issuers) := by
  rw [identityOfChain]
  rcases hres : resolveSAN lib cfg cert.dnsNames with err | v
  · exact .inl ⟨err, rfl, rfl⟩
  · obtain ⟨⟨oid, hoid⟩, name, hname⟩ := templateInfo_ok cert
    simp only [hoid, hname]
    exact .inr ⟨v, _, rfl, rfl, rfl, rfl, rfl, rfl, rfl, rfl⟩

/-- The peer of a connection whose first verified chain is `chain`. -/
def verifiedPeer (chain : List Certificate) (others : List (List Certificate)) : Option AuthInfo :=
  some (.tls (chain :: others))

/-- Acceptance of a non-empty verified chain depends on the SANs alone. -/
theorem extractMTLSIdentity_isOk (lib : Library) (cfg : Option MTLSConfig) (cert : Certificate)
    (issuers : List Certificate) (others : List (List Certificate)) :
    (∃ id, extractMTLSIdentity lib cfg (verifiedPeer (cert :: issuers) others) = .ok (.ok id)) ↔
      SansAccepted lib cfg cert.dnsNames := by
  rw [← resolveSAN_isOk]
  change (∃ id, identityOfChain lib cfg (cert :: issuers) = .ok (.ok id)) ↔ _
  rcases identityOfChain_cases lib cfg cert issuers with ⟨err, hres, hid⟩ | ⟨v, id, hres, hid, -⟩
  · simp [hres, hid]
  · simp [hres, hid]

theorem accountID_of_extract {c : MTLSConfig} {cert : Certificate} {issuers : List Certificate}
    {others : List (List Certificate)} {id : Identity}
    (h : extractMTLSIdentity lib (some c) (verifiedPeer (cert :: issuers) others) = .ok (.ok id)) :
    (∀ n ∈ cert.dnsNames, ∀ host domain A, SanMapsTo lib (some c) n host domain A →
      A = id.accountID) ∧
    (∃ n ∈ cert.dnsNames, SanMapsTo lib (some c) n id.hostname id.domain id.accountID) ∧
    DomainAllowed lib (some c) id.domain id.accountID := by
  change identityOfChain lib (some c) (cert :: issuers) = .ok (.ok id) at h
  rcases identityOfChain_cases lib (some c) cert issuers with
    ⟨err, -, hid⟩ | ⟨v, id', hres, hid, -, hhost, hdomain, -, hacc, -⟩
  · rw [hid] at h
    cases h
  · rw [hid] at h
    cases h
    obtain ⟨hsingle, n, hn, hsel⟩ := (resolveSAN_configured lib c cert.dnsNames).2 v hres
    rw [hhost, hdomain, hacc]
    refine ⟨fun n' hn' host domain A hA => ?_, ⟨n, hn, hsel.sanMapsTo⟩,
      validateDomainForAccount_ok_iff.mp ⟨_, hsel.2.2.2⟩⟩
    exact hsingle n' hn' host domain A hA n hn _ _ _ hsel.sanMapsTo

/-- **Certificates map to accounts soundly and independently of the SAN order.**
A verified client certificate is accepted iff some SAN is mapped to an account that
allows its domain and no two SANs are mapped to different accounts.  The identity
then carries the one account the SANs are mapped to; its domain is mapped to that
account and allowed for it.  Reordering the SANs changes neither acceptance nor the
account. -/
theorem extractMTLSIdentity_account (lib : Library) (c : MTLSConfig) (cert : Certificate)
    (issuers : List Certificate) (others : List (List Certificate)) :
    ((∃ id, extractMTLSIdentity lib (some c) (verifiedPeer (cert :: issuers) others) =
        .ok (.ok id)) ↔
      SomeAllowed lib (some c) cert.dnsNames ∧ SingleAccount lib (some c) cert.dnsNames) ∧
    (∀ id, extractMTLSIdentity lib (some c) (verifiedPeer (cert :: issuers) others) = .ok (.ok id) →
      (∀ n ∈ cert.dnsNames, ∀ host domain A, SanMapsTo lib (some c) n host domain A →
        A = id.accountID) ∧
      c.domainAccountMapping.lookup (lib.caseMap.toLower id.domain) = some id.accountID ∧
      DomainAllowed lib (some c) id.domain id.accountID) ∧
    ∀ cert' : Certificate, cert.dnsNames.Perm cert'.dnsNames →
      ((∃ id, extractMTLSIdentity lib (some c) (verifiedPeer (cert :: issuers) others) =
          .ok (.ok id)) ↔
        ∃ id, extractMTLSIdentity lib (some c) (verifiedPeer (cert' :: issuers) others) =
          .ok (.ok id)) ∧
      ∀ id id', extractMTLSIdentity lib (some c) (verifiedPeer (cert :: issuers) others) =
          .ok (.ok id) → extractMTLSIdentity lib (some c) (verifiedPeer (cert' :: issuers) others) =
          .ok (.ok id') → id.accountID = id'.accountID := by
  refine ⟨extractMTLSIdentity_isOk lib (some c) cert issuers others, ?_, ?_⟩
  · intro id h
    obtain ⟨hall, ⟨n, -, canonicalName, -, -, hmapped⟩, hallowed⟩ := accountID_of_extract h
    refine ⟨hall, ?_, hallowed⟩
    simp only [getAccountIDFromDomain] at hmapped
    cases hlookup : c.domainAccountMapping.lookup (lib.caseMap.toLower id.domain) <;>
      simp_all
  · intro cert' hperm
    constructor
    · rw [extractMTLSIdentity_isOk, extractMTLSIdentity_isOk]
      simp only [SansAccepted, SomeAllowed, SingleAccount, hperm.mem_iff]
    · intro id id' h h'
      obtain ⟨-, ⟨n, hn, hmaps⟩, -⟩ := accountID_of_extract h
      exact (accountID_of_extract h').1 n (hperm.mem_iff.mp hn) _ _ _ hmaps

end

end Mtls
