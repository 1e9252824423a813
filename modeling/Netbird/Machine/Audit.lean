/-
The certificate metadata of a machine peer along its calls.

A registration writes the certificate fields with the rest of the metadata, or writes
nothing when the rest has not changed.  A synchronization reports metadata without
certificate fields, and replaces the record when anything in it is new.

* `auditKept_iff` — when one call leaves the fields the history asks for;
* `audit_runs` — the same for every run;
* `sync_erases_certificate_fields` — a registration and a synchronization after which the
  row has no certificate fields.
-/
import Netbird.Machine.Slots

namespace Netbird

open Command Mtls Ensures

/-! ### Calls of one machine -/

/-- What a renewed certificate changes in the identity of a machine. -/
structure Renewal where
  issuerFingerprint : String
  serialNumber : String
  templateOID : String
  templateName : String
  peerType : String

variable (machine : Identity)

def renewed (cert : Renewal) : Identity :=
  { machine with
    issuerFingerprint := cert.issuerFingerprint
    serialNumber := cert.serialNumber
    templateOID := cert.templateOID
    templateName := cert.templateName
    peerType := cert.peerType }

inductive MachineCall where
  | register (deps : ServerDeps) (cert : Renewal) (req : MachineRegisterRequest)
  | sync (deps : ServerDeps) (cert : Renewal) (req : MachineSyncRequest)

/-- The call, and the peer it serves. -/
def MachineCall.run : MachineCall → Rpc Peer
  | .register deps cert req => do
    let resp ← registerMachinePeer deps (some (renewed machine cert)) req
    pure resp.peer
  | .sync deps cert req => do
    let served ← syncMachinePeer deps (some (renewed machine cert)) req
    pure served.1

/-- What the history of a machine says about its row: the time of the first successful
registration and the identity of the latest. -/
structure Trail where
  first : String
  latest : Identity
  deriving DecidableEq

def Trail.fields (t : Trail) : AuditFields where
  authMethod := "mtls"
  certDNSName := t.latest.dnsName
  certDomain := t.latest.domain
  certIssuerFP := t.latest.issuerFingerprint
  certSerial := t.latest.serialNumber
  firstAuthTime := t.first

/-- The history after a successful registration. -/
def registered (trail : Option Trail) (authTime : String) (identity : Identity) : Trail where
  first := (trail.map Trail.first).getD authTime
  latest := identity

/-- The history after a successful call. -/
def trailAfter (trail : Option Trail) : MachineCall → Option Trail
  | .register deps cert _ => some (registered trail deps.authTime (renewed machine cert))
  | .sync _ _ _ => trail

structure Audited where
  store : Store
  trail : Option Trail

def Audited.step (st : Audited) (c : MachineCall) : Audited :=
  match c.run machine st.store with
  | (.ok _, s') => { store := s', trail := trailAfter machine st.trail c }
  | (.error _, s') => { store := s', trail := st.trail }

def storedFields (s : Store) (peerID : String) : Option AuditFields :=
  (s.peers.find? fun p => p.id == peerID).map fun p => p.systemMeta.auditFields

/-- After the call, if it succeeds, the row of the peer has the fields the history asks
for. -/
def AuditKept (st : Audited) (c : MachineCall) : Prop :=
  ∀ p s' t, c.run machine st.store = (.ok p, s') → trailAfter machine st.trail c = some t →
    storedFields s' p.id = some t.fields

/-- A registration that writes the metadata must be the first one, or fall into the same
second; one that does not must find the fields of its own certificate in the row.  After
a registration, a synchronization must report nothing new, for a row in order. -/
def AuditSafe (st : Audited) : MachineCall → Prop
  | .register deps cert req =>
    let identity := renewed machine cert
    let t := registered st.trail deps.authTime identity
    ∀ key, registrationKey deps identity req = .ok key →
      match st.store.peerByKey (deps.keyString key) with
      | none => t.first = deps.authTime
      | some p =>
        if p.systemMeta.isNew deps.sorts (extractMachinePeerMeta deps req.systemMeta identity) then
          t.first = deps.authTime
        else p.systemMeta.auditFields = t.fields
  | .sync deps cert req =>
    ∀ p t, findMachinePeer deps.caseMap deps.hmac (renewed machine cert) st.store = .ok p →
      st.trail = some t →
      p.systemMeta.isNew deps.sorts (extractPeerMeta deps req.systemMeta) = false ∧
        p.systemMeta.auditFields = t.fields

/-! ### The row after a call -/

section

variable {s s' : Store} {p : Peer} {m : PeerSystemMeta} {deps : ServerDeps} {identity : Identity}

theorem storedFields_eq_some {peerID : String} (hp : p ∈ s.peers) (hid : p.id = peerID) :
    storedFields s peerID = some p.systemMeta.auditFields := by
  have hfind : (s.peers.find? fun q => q.id == peerID) = some p := by
    rw [Rows.find?_eq_some_of_unique
      (Rows.unique_of_nodup s.valid.ids peerID fun _ hq => by simpa using hq)]
    exact ⟨hp, by simpa using hid⟩
  rw [storedFields, hfind]
  rfl

/-- The certificate fields after a report. -/
def updatedFields (deps : ServerDeps) (stored reported : PeerSystemMeta) : AuditFields :=
  if stored.isNew deps.sorts reported then reported.auditFields else stored.auditFields

theorem storedFields_of_loginWrites (h : LoginWrites deps.toDeps m p s s') (hp : p ∈ s.peers) :
    storedFields s' p.id = some (updatedFields deps p.systemMeta m) := by
  rw [LoginWrites] at h
  split_ifs at h with hwrites
  · rw [storedFields_eq_some ((h.mem_iff hp).mpr (.inl rfl)) (Peer.sameIndex_loggedIn deps.toDeps m p).id]
    exact congrArg some (p.auditFields_updateMetaIfNew deps.sorts m)
  · have hold : p.systemMeta.isNew deps.sorts m = false := by
      simp only [Peer.loginWrites, Bool.or_eq_true, not_or, Bool.not_eq_true] at hwrites
      exact hwrites.1
    rw [h, storedFields_eq_some hp rfl, updatedFields, hold]
    rfl

theorem storedFields_of_sameUpToStatus (h : SameUpToStatus s s') {peerID : String}
    {fields : AuditFields} (hs : storedFields s peerID = some fields) :
    storedFields s' peerID = some fields := by
  rw [storedFields, Option.map_eq_some_iff] at hs
  obtain ⟨q, hq, rfl⟩ := hs
  have hid : q.id = peerID := by simpa using List.find?_some hq
  obtain ⟨q', hq', hsame⟩ := h.exists_mem (List.mem_of_find?_eq_some hq)
  have hid' : q'.withoutStatus.id = q.withoutStatus.id := by rw [hsame]
  have hmeta : q'.withoutStatus.systemMeta = q.withoutStatus.systemMeta := by rw [hsame]
  rw [storedFields_eq_some hq' (hid'.trans hid), show q'.systemMeta = q.systemMeta from hmeta]

/-- The certificate fields of the row after a successful registration. -/
theorem register_storedFields {req : MachineRegisterRequest} {resp : MachineRegisterResponse}
    (h : registerMachinePeer deps (some identity) req s = (.ok resp, s')) :
    ∃ key, registrationKey deps identity req = .ok key ∧ storedFields s' resp.peer.id = some
        (match s.peerByKey (deps.keyString key) with
        | none => (extractMachinePeerMeta deps req.systemMeta identity).auditFields
        | some p => updatedFields deps p.systemMeta
            (extractMachinePeerMeta deps req.systemMeta identity)) := by
  rcases hkey : registrationKey deps identity req with e | key
  · rw [registerMachinePeer_of_error hkey] at h
    cases h
  · refine ⟨key, rfl, ?_⟩
    rcases hp : s.peerByKey (deps.keyString key) with _ | p
    · rcases registerMachinePeer_new hkey hp with ⟨e, h'⟩ | ⟨p, s₁, hrow, hpeers, h' | ⟨e, h'⟩⟩
      · rw [h'] at h
        cases h
      · rw [h'] at h
        cases h
        have hmem : p ∈ s'.peers := by
          rw [hpeers]
          exact List.mem_append_right _ (List.mem_singleton.mpr rfl)
        rw [storedFields_eq_some hmem rfl, hrow.systemMeta]
        rfl
      · rw [h'] at h
        cases h
    · have hmem : p ∈ s.peers := (Store.peerByKey_eq_some.mp hp).1
      rcases registerMachinePeer_known hkey hp with
        ⟨-, e, h'⟩ | ⟨s₁, hw, ⟨-, h'⟩ | ⟨-, e, h'⟩⟩
      · rw [h'] at h
        cases h
      · rw [h'] at h
        cases h
        rw [(Peer.sameIndex_loggedIn _ _ p).id, storedFields_of_loginWrites hw hmem]
      · rw [h'] at h
        cases h

/-- What follows the synchronization in its stream writes the status only. -/
theorem sameUpToStatus_cancelPeerRoutines (deps : ServerDeps) (accountID : String) (peer : Peer) :
    Ensures SameUpToStatus (cancelPeerRoutines deps accountID peer) := by
  refine bind (mapError _ (attempt ?_)) fun _ => pure _
  refine bind (reads _) fun known => ?_
  rcases known with _ | q
  · exact pure _
  · dsimp only
    split_ifs
    · exact pure _
    · exact bind (attempt (sameUpToStatus_markPeerConnected _ _ _ _ _ _))
        fun _ => pure _

theorem sameUpToStatus_connectStream (deps : ServerDeps) :
    Ensures SameUpToStatus (connectStream deps) := by
  unfold connectStream
  split
  · exact pure _
  · exact fail _

/-- The certificate fields of the row after a successful synchronization. -/
theorem sync_storedFields {req : MachineSyncRequest} {served : Peer × StreamEnd}
    (h : syncMachinePeer deps (some identity) req s = (.ok served, s')) :
    ∃ p, findMachinePeer deps.caseMap deps.hmac identity s = .ok p ∧
      storedFields s' served.1.id = some
        (updatedFields deps p.systemMeta (extractPeerMeta deps req.systemMeta)) := by
  obtain ⟨u, s₁, hissuer, h⟩ := bind_eq_ok.mp h
  obtain rfl : s = s₁ := congrArg Prod.snd hissuer
  obtain ⟨p, s₁, hfind, h⟩ := bind_eq_ok.mp h
  rw [mapError_eq_ok] at hfind
  obtain rfl : s = s₁ := congrArg Prod.snd hfind
  have hp : findMachinePeer deps.caseMap deps.hmac identity s = .ok p := congrArg Prod.fst hfind
  obtain ⟨hmem, haccount, -⟩ := findMachinePeer_eq_ok.mp hp
  have hkey : s.peerByKey p.key = some p := Store.peerByKey_eq_some.mpr ⟨hmem, rfl⟩
  refine ⟨p, hp, ?_⟩
  obtain ⟨q, s₁, hsync, h⟩ := bind_eq_ok.mp h
  obtain ⟨u, s₂, hsend, h⟩ := bind_eq_ok.mp h
  obtain ⟨u, s₃, hconnect, h⟩ := bind_eq_ok.mp h
  obtain ⟨u, s₄, hcancel, h⟩ := bind_eq_ok.mp h
  cases h
  -- the synchronization itself, and then only the status
  rw [mapError_eq_ok] at hsync
  obtain ⟨q', s₀, hsync, hmark⟩ := bind_eq_ok.mp hsync
  obtain ⟨r, s₀', hattempt, hq⟩ := bind_eq_ok.mp hmark
  cases hq
  have hstatus : SameUpToStatus s₀ s' :=
    trans_of SameUpToStatus (of_eq (attempt
        (sameUpToStatus_markPeerConnected _ _ _ _ _ _)) hattempt)
      (trans_of SameUpToStatus (of_eq (bind (mapError _ (readsExcept _)) fun _ =>
          bind (ofResult _) fun _ => ofResult _) hsend)
        (trans_of SameUpToStatus (of_eq (sameUpToStatus_connectStream _) hconnect)
          (of_eq (sameUpToStatus_cancelPeerRoutines _ _ _) hcancel)))
  refine storedFields_of_sameUpToStatus hstatus ?_
  rw [mapError_eq_ok, ← haccount] at hsync
  rcases syncPeer_cases deps.toDeps (m := extractPeerMeta deps req.systemMeta) hkey with
    ⟨e, h'⟩ | ⟨s₅, hw, h' | ⟨e, h'⟩⟩
  · cases hsync.symm.trans h'
  · cases hsync.symm.trans h'
    rw [(Peer.sameIndex_updateMetaIfNew _ _ p).id]
    rw [SyncWrites] at hw
    split_ifs at hw with hnew
    · rw [storedFields_eq_some ((hw.mem_iff hmem).mpr (.inl rfl))
        (Peer.sameIndex_updateMetaIfNew _ _ p).id, p.auditFields_updateMetaIfNew]
      rfl
    · rw [hw, storedFields_eq_some hmem rfl, updatedFields, if_neg hnew]
  · cases hsync.symm.trans h'

/-! ### Runs -/

theorem auditFields_extractMachinePeerMeta (deps : ServerDeps)
    (reqMeta : Option ProtoPeerSystemMeta) (identity : Identity) (trail : Option Trail) :
    (extractMachinePeerMeta deps reqMeta identity).auditFields =
        (registered trail deps.authTime identity).fields ↔
      (registered trail deps.authTime identity).first = deps.authTime := by
  constructor
  · intro h
    exact (congrArg AuditFields.firstAuthTime h).symm
  · intro h
    rw [Trail.fields, h]
    rfl

/-- A report without certificate fields is never what the history asks for. -/
theorem auditFields_extractPeerMeta_ne (deps : ServerDeps) (reqMeta : Option ProtoPeerSystemMeta)
    (t : Trail) : (extractPeerMeta deps reqMeta).auditFields ≠ t.fields := by
  intro h
  have hmethod : (extractPeerMeta deps reqMeta).authMethod = "mtls" :=
    congrArg AuditFields.authMethod h
  cases reqMeta with
  | none | some reported => exact absurd hmethod (show "" ≠ "mtls" by decide)

variable {machine : Identity} {st : Audited}

theorem register_auditKept_iff {cert : Renewal} {req : MachineRegisterRequest}
    (h : (MachineCall.register deps cert req).run machine st.store = (.ok p, s')) :
    AuditKept machine st (.register deps cert req) ↔
      AuditSafe machine st (.register deps cert req) := by
  obtain ⟨resp, s₁, hreg, hresp⟩ := bind_eq_ok.mp h
  cases hresp
  obtain ⟨key, hkey, hfields⟩ := register_storedFields hreg
  have hkept : AuditKept machine st (.register deps cert req) ↔
      storedFields s' resp.peer.id =
        some (registered st.trail deps.authTime (renewed machine cert)).fields := by
    constructor
    · intro hkept
      exact hkept _ _ _ h rfl
    · rintro hstored p₁ s₁ t h₁ ⟨⟩
      cases h₁.symm.trans h
      exact hstored
  rw [hkept, hfields, Option.some.injEq]
  simp only [AuditSafe, hkey, Except.ok.injEq, forall_eq']
  rcases st.store.peerByKey (deps.keyString key) with _ | q
  · exact auditFields_extractMachinePeerMeta _ _ _ _
  · simp only [updatedFields]
    split_ifs
    · exact auditFields_extractMachinePeerMeta _ _ _ _
    · exact Iff.rfl

theorem sync_auditKept_iff {cert : Renewal} {req : MachineSyncRequest}
    (h : (MachineCall.sync deps cert req).run machine st.store = (.ok p, s')) :
    AuditKept machine st (.sync deps cert req) ↔ AuditSafe machine st (.sync deps cert req) := by
  obtain ⟨served, s₁, hsync, hserved⟩ := bind_eq_ok.mp h
  cases hserved
  obtain ⟨q, hfind, hfields⟩ := sync_storedFields hsync
  have hupdated : ∀ t : Trail,
      updatedFields deps q.systemMeta (extractPeerMeta deps req.systemMeta) = t.fields ↔
        q.systemMeta.isNew deps.sorts (extractPeerMeta deps req.systemMeta) = false ∧
          q.systemMeta.auditFields = t.fields := by
    rw [updatedFields]
    cases q.systemMeta.isNew deps.sorts (extractPeerMeta deps req.systemMeta)
    · simp
    · simp [auditFields_extractPeerMeta_ne]
  constructor
  · intro hkept q' t hfind' htrail
    cases hfind.symm.trans hfind'
    rw [← hupdated t]
    exact Option.some.inj (hfields.symm.trans (hkept _ _ t h htrail))
  · intro hsafe p₁ s₁ t h₁ htrail
    cases h₁.symm.trans h
    rw [hfields, (hupdated t).mpr (hsafe q t hfind htrail)]

/-- At a successful call the condition is what keeps the metadata. -/
theorem auditKept_iff {c : MachineCall} (h : c.run machine st.store = (.ok p, s')) :
    AuditKept machine st c ↔ AuditSafe machine st c := by
  cases c with
  | register deps cert req => exact register_auditKept_iff h
  | sync deps cert req => exact sync_auditKept_iff h

end

/-- **Certificate metadata along a run.**  A run whose calls all meet the condition keeps
the metadata at every successful call; and at a successful call the condition is
necessary. -/
theorem audit_runs (machine : Identity) :
    (∀ st calls, Runs.Along (Audited.step machine) (AuditSafe machine) st calls →
      Runs.Along (Audited.step machine) (AuditKept machine) st calls) ∧
    ∀ st c, (∃ p s', c.run machine st.store = (.ok p, s')) →
      (AuditKept machine st c ↔ AuditSafe machine st c) := by
  constructor
  · intro st calls h
    refine h.imp fun st c hsafe p s' t hrun => ?_
    exact (auditKept_iff hrun).mpr hsafe p s' t hrun
  · rintro st c ⟨p, s', hrun⟩
    exact auditKept_iff hrun

def labCert : Renewal where
  issuerFingerprint := ""
  serialNumber := "1"
  templateOID := ""
  templateName := ""
  peerType := ""

/-- A machine registers, and then synchronizes with one more field in its metadata: its
row loses all certificate fields. -/
theorem sync_erases_certificate_fields : ∃ p s₁ q s₂,
      (MachineCall.register labDeps labCert labRequest).run labIdentity emptyStore = (.ok p, s₁) ∧
      storedFields s₁ p.id = some
        ⟨"mtls", "pc.corp.local", "corp.local", "", "1", "2025-01-01T00:00:00Z"⟩ ∧
      (MachineCall.sync labDeps labCert ⟨some { hostname := "pc", goOS := "windows" }⟩).run
        labIdentity s₁ = (.ok q, s₂) ∧
      q.id = p.id ∧ storedFields s₂ q.id = some ⟨"", "", "", "", "", ""⟩ :=
  ⟨_, _, _, _, rfl, rfl, rfl, rfl, rfl⟩

end Netbird
