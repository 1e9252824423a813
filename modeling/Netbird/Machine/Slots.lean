/-
The slots of machine peers.

A machine is looked up by the label of its identity.  The label of its row was made
from the host name in the metadata of the registration, which the client reports.

* `slots_step` — a registration that reports the label of its identity, and presents a
  new key or that of its own row, keeps every slot with its owner;
* `registrations_keep_slots` — the same for every run of registrations;
* `register_takes_foreign_slot` — a machine that reports the host name of another one.
-/
import Netbird.Lib.Runs
import Netbird.Machine.Register

namespace Netbird

open Command Mtls List

def machineLabel (cm : CaseMap) (hmac : Hmac) (identity : Identity) : String :=
  generateUniqueDNSLabel cm hmac identity.hostname identity.domain

/-- The row is in the slot of the identity. -/
def InSlot (cm : CaseMap) (hmac : Hmac) (identity : Identity) (p : Peer) : Prop :=
  p.accountID = identity.accountID ∧ p.dnsLabel = machineLabel cm hmac identity

variable {p : Peer} {s : Store}

theorem findMachinePeer_eq_ok {cm : CaseMap} {hmac : Hmac} {identity : Identity} :
    findMachinePeer cm hmac identity s = .ok p ↔ p ∈ s.peers ∧ InSlot cm hmac identity p := by
  rw [findMachinePeer]
  cases hid : s.getPeerIdByLabel identity.accountID
      (generateUniqueDNSLabel cm hmac identity.hostname identity.domain) with
  | none =>
    simp only [reduceCtorEq, false_iff]
    rintro ⟨hp, hacc, hlabel⟩
    have := Store.getPeerIdByLabel_eq_some.mpr ⟨p, hp, hacc, hlabel, rfl⟩
    rw [machineLabel, hid] at this
    cases this
  | some peerID =>
    rw [Store.getPeerByID_eq_ok]
    obtain ⟨q, hq, hqacc, hqlabel, hqid⟩ := Store.getPeerIdByLabel_eq_some.mp hid
    constructor
    · rintro ⟨hp, hacc, rfl⟩
      obtain rfl : q = p := inj_on_of_nodup_map s.valid.ids hq hp hqid
      exact ⟨hp, hacc, hqlabel⟩
    · rintro ⟨hp, hacc, hlabel⟩
      refine ⟨hp, hacc, ?_⟩
      have := Store.getPeerIdByLabel_eq_some.mpr ⟨p, hp, hacc, hlabel, rfl⟩
      rw [machineLabel, hid] at this
      exact (Option.some.inj this).symm

/-! ### Runs of registrations -/

/-- A call of `RegisterMachinePeer`. -/
structure RegisterCall where
  deps : ServerDeps
  identity : Identity
  req : MachineRegisterRequest

/-- The store, and who registered which peer: the IDs of the rows a call added and of the
peers it returned. -/
structure Registry where
  store : Store
  log : List (String × Identity)

/-- The IDs in the second store that are not in the first. -/
def addedIDs (s s' : Store) : List String :=
  (s'.peers.map fun p => p.id).filter fun id => ! (s.peers.map fun p => p.id).contains id

/-- The peer the call returned. -/
def returnedIDs : Except RpcError MachineRegisterResponse → List String
  | .ok resp => [resp.peer.id]
  | .error _ => []

def Registry.step (r : Registry) (c : RegisterCall) : Registry :=
  let result := registerMachinePeer c.deps (some c.identity) c.req r.store
  { store := result.2
    log := r.log ++ (addedIDs r.store result.2 ++ returnedIDs result.1).map (·, c.identity) }

section

variable (cm : CaseMap) (hmac : Hmac) (I : Set Identity)

/-- The identities are like those of certificates: the name is canonical and split at its
first dot. -/
def AllCanonical : Prop :=
  ∀ i ∈ I, i.Canonical cm

/-- The suffixes of the labels are different for different names. -/
def CollisionFree : Prop :=
  ∀ i ∈ I, ∀ j ∈ I, fqdnFingerprint hmac i.hostname i.domain =
    fqdnFingerprint hmac j.hostname j.domain → i.dnsName = j.dnsName

/-- Whoever has registered a peer finds it, and whoever finds one has registered it,
under the same name. -/
structure SlotsAgree (r : Registry) : Prop where
  found : ∀ id i, (id, i) ∈ r.log → ∃ p, findMachinePeer cm hmac i r.store = .ok p ∧ p.id = id
  owned : ∀ i ∈ I, ∀ p, findMachinePeer cm hmac i r.store = .ok p →
    ∃ j, (p.id, j) ∈ r.log ∧
      j.dnsName = i.dnsName ∧ j.hostname = i.hostname ∧ j.domain = i.domain

/-- The registration reports the label of its identity if its key is new, and otherwise
presents the key of the row in its own slot, unless the login of the row is refused. -/
def KeepsSlot (c : RegisterCall) (s : Store) : Prop :=
  ∀ key, registrationKey c.deps c.identity c.req = .ok key →
    match s.peerByKey (c.deps.keyString key) with
    | none => generateUniqueDNSLabel cm hmac
        (extractPeerMeta c.deps c.req.systemMeta).hostname c.identity.domain =
          machineLabel cm hmac c.identity
    | some p => InSlot cm hmac c.identity p ∨ ¬ RegistrationAccepted c.deps c.identity c.req p s

/-- The calls considered: one server, identities of the set, and the condition. -/
structure SlotCall (r : Registry) (c : RegisterCall) : Prop where
  caseMap_eq : c.deps.caseMap = cm
  hmac_eq : c.deps.hmac = hmac
  identity : c.identity ∈ I
  keeps : KeepsSlot cm hmac c r.store

/-- The invariant: every entry of the log has its row in its slot, and every row in a slot
has an entry. -/
structure SlotInv (r : Registry) : Prop where
  row : ∀ e ∈ r.log, e.2 ∈ I ∧ ∃ p ∈ r.store.peers, p.id = e.1 ∧ InSlot cm hmac e.2 p
  entry : ∀ i ∈ I, ∀ p ∈ r.store.peers, InSlot cm hmac i p → ∃ j, (p.id, j) ∈ r.log

variable {cm hmac I} {r : Registry} {i : Identity}

theorem SlotCall.of_new {c : RegisterCall} {key : Key} (hcm : c.deps.caseMap = cm)
    (hhmac : c.deps.hmac = hmac) (hi : c.identity ∈ I)
    (hkey : registrationKey c.deps c.identity c.req = .ok key)
    (hnew : r.store.peerByKey (c.deps.keyString key) = none)
    (hlabel : generateUniqueDNSLabel cm hmac (extractPeerMeta c.deps c.req.systemMeta).hostname
      c.identity.domain = machineLabel cm hmac c.identity) : SlotCall cm hmac I r c := by
  refine ⟨hcm, hhmac, hi, fun key' hkey' => ?_⟩
  obtain rfl := Except.ok.inj (hkey.symm.trans hkey')
  rw [hnew]
  exact hlabel

theorem SlotInv.slotsAgree (hI : AllCanonical cm I) (hfree : CollisionFree hmac I)
    (h : SlotInv cm hmac I r) : SlotsAgree cm hmac I r where
  found := by
    intro id i he
    obtain ⟨-, p, hp, hid, hslot⟩ := h.row (id, i) he
    exact ⟨p, findMachinePeer_eq_ok.mpr ⟨hp, hslot⟩, hid⟩
  owned := by
    intro i hi p hfind
    obtain ⟨hp, hslot⟩ := findMachinePeer_eq_ok.mp hfind
    obtain ⟨j, hj⟩ := h.entry i hi p hp hslot
    obtain ⟨hjI, q, hq, hid, hqslot⟩ := h.row (p.id, j) hj
    obtain rfl : q = p := inj_on_of_nodup_map r.store.valid.ids hq hp hid
    -- one row in two slots has one name
    have hfp := fqdnFingerprint_eq_of_label_eq (hqslot.2.symm.trans hslot.2)
    rw [(hI i hi).lower_hostname, (hI i hi).lower_domain, (hI j hjI).lower_hostname,
      (hI j hjI).lower_domain] at hfp
    have hname := hfree j hjI i hi hfp
    exact ⟨j, hj, hname, (hI j hjI).eq_of_dnsName_eq (hI i hi) hname⟩

/-! ### One step -/

variable {s' : Store}

theorem mem_addedIDs {id : String} :
    id ∈ addedIDs s s' ↔ (∃ p ∈ s'.peers, p.id = id) ∧ ∀ p ∈ s.peers, p.id ≠ id := by
  simp [addedIDs]

theorem addedIDs_of_sameRows (h : Store.SameRows s s') : addedIDs s s' = [] := by
  rw [eq_nil_iff_forall_not_mem]
  intro id hid
  obtain ⟨⟨p', hp', rfl⟩, hnot⟩ := mem_addedIDs.mp hid
  obtain ⟨p, hp, hidx⟩ := h.back p' hp'
  exact hnot p hp hidx.id.symm

theorem InSlot.of_sameIndex {q : Peer} (h : InSlot cm hmac i q)
    (hidx : Store.SameIndex p q) : InSlot cm hmac i p :=
  ⟨hidx.accountID.trans h.1, hidx.label.trans h.2⟩

variable {ids : List String} (h : SlotInv cm hmac I r)

include h

/-- The invariant after a call that keeps the rows, adds only rows it logs, and logs only
rows in the slot of its identity. -/
theorem SlotInv.extend
    (hi : i ∈ I) (hkeep : ∀ p ∈ r.store.peers, ∃ p' ∈ s'.peers, Store.SameIndex p' p)
    (hback : ∀ p' ∈ s'.peers, (∃ p ∈ r.store.peers, Store.SameIndex p' p) ∨ p'.id ∈ ids)
    (hids : ∀ id ∈ ids, ∃ p' ∈ s'.peers, p'.id = id ∧ InSlot cm hmac i p') :
    SlotInv cm hmac I ⟨s', r.log ++ ids.map (·, i)⟩ where
  row := by
    intro e he
    rcases mem_append.mp he with he | he
    · obtain ⟨hI, p, hp, hid, hslot⟩ := h.row e he
      obtain ⟨p', hp', hidx⟩ := hkeep p hp
      exact ⟨hI, p', hp', hidx.id.trans hid, hslot.of_sameIndex hidx⟩
    · obtain ⟨id, hid, rfl⟩ := mem_map.mp he
      exact ⟨hi, hids id hid⟩
  entry := by
    intro j hj p' hp' hslot
    rcases hback p' hp' with ⟨p, hp, hidx⟩ | hid
    · have hslot' : InSlot cm hmac j p := ⟨hidx.accountID.symm.trans hslot.1,
        hidx.label.symm.trans hslot.2⟩
      obtain ⟨k, hk⟩ := h.entry j hj p hp hslot'
      rw [hidx.id]
      exact ⟨k, mem_append_left _ hk⟩
    · exact ⟨i, mem_append_right _ (mem_map.mpr ⟨_, hid, rfl⟩)⟩

theorem SlotInv.of_sameRows (hi : i ∈ I) (hrows : Store.SameRows r.store s')
    (hids : ∀ id ∈ ids, ∃ p ∈ r.store.peers, p.id = id ∧ InSlot cm hmac i p) :
    SlotInv cm hmac I ⟨s', r.log ++ (addedIDs r.store s' ++ ids).map (·, i)⟩ := by
  rw [addedIDs_of_sameRows hrows]
  refine h.extend hi hrows.keep (fun p' hp' => .inl (hrows.back p' hp')) fun id hid => ?_
  obtain ⟨p, hp, hpid, hslot⟩ := hids id hid
  obtain ⟨p', hp', hidx⟩ := hrows.keep p hp
  exact ⟨p', hp', hidx.id.trans hpid, hslot.of_sameIndex hidx⟩

theorem SlotInv.of_added (hi : i ∈ I) (hpeers : s'.peers = r.store.peers ++ [p])
    (hslot : InSlot cm hmac i p) (hids : ∀ id ∈ ids, id = p.id) :
    SlotInv cm hmac I ⟨s', r.log ++ (addedIDs r.store s' ++ ids).map (·, i)⟩ := by
  have hp : p ∈ s'.peers := by
    rw [hpeers]
    exact mem_append_right _ (mem_singleton.mpr rfl)
  have hfresh : ∀ q ∈ r.store.peers, q.id ≠ p.id := by
    intro q hq
    have hnodup := s'.valid.ids
    rw [hpeers, map_append, nodup_append] at hnodup
    exact hnodup.2.2 q.id (mem_map.mpr ⟨q, hq, rfl⟩) p.id (by simp)
  refine h.extend hi (fun q hq => ⟨q, ?_, .refl q⟩) (fun q hq => ?_) (fun id hid => ?_)
  · rw [hpeers]
    exact mem_append_left _ hq
  · rw [hpeers, mem_append, mem_singleton] at hq
    rcases hq with hq | rfl
    · exact .inl ⟨q, hq, .refl q⟩
    · exact .inr (mem_append_left _ (mem_addedIDs.mpr ⟨⟨q, hp, rfl⟩, hfresh⟩))
  · rcases mem_append.mp hid with hid | hid
    · obtain ⟨⟨q, hq, rfl⟩, hnot⟩ := mem_addedIDs.mp hid
      rw [hpeers, mem_append, mem_singleton] at hq
      rcases hq with hq | rfl
      · exact absurd rfl (hnot q hq)
      · exact ⟨q, hp, rfl, hslot⟩
    · exact ⟨p, hp, (hids id hid).symm, hslot⟩

omit h

/-- **One registration** that meets the condition keeps the invariant. -/
theorem slots_step (hI : AllCanonical cm I) (h : SlotInv cm hmac I r) {c : RegisterCall}
    (hc : SlotCall cm hmac I r c) : SlotInv cm hmac I (r.step c) := by
  obtain ⟨hcm, hhmac, hi, hkeeps⟩ := hc
  rw [Registry.step]
  rcases hkey : registrationKey c.deps c.identity c.req with e | key
  · rw [registerMachinePeer_of_error hkey]
    exact h.of_sameRows hi (.refl _) (by simp [returnedIDs])
  · have hcond := hkeeps key hkey
    rcases hp : r.store.peerByKey (c.deps.keyString key) with _ | p
    · rw [hp] at hcond
      rcases registerMachinePeer_new hkey hp with ⟨e, hrun⟩ | ⟨p, s', hrow, hpeers, hrun⟩
      · rw [hrun]
        exact h.of_sameRows hi (.refl _) (by simp [returnedIDs])
      · -- the new row has the label that was reported
        have hslot : InSlot cm hmac c.identity p := by
          obtain ⟨n, ip, hfree⟩ := hrow.label
          have hcert := hfree.symm.trans
            (freeLabel_of_cert (hI _ hi).dnsName_ne_empty (hI _ hi).domain_ne_empty)
          rw [hcm, hhmac] at hcert
          exact ⟨hrow.accountID, (Except.ok.inj hcert).trans hcond⟩
        rcases hrun with hrun | ⟨e, hrun⟩
        · rw [hrun]
          exact h.of_added hi hpeers hslot (by simp [returnedIDs])
        · rw [hrun]
          exact h.of_added hi hpeers hslot (by simp [returnedIDs])
    · rw [hp] at hcond
      have hmem : p ∈ r.store.peers := (Store.peerByKey_eq_some.mp hp).1
      rcases registerMachinePeer_known hkey hp with
        ⟨-, e, hrun⟩ | ⟨s', hw, ⟨hacc, hrun⟩ | ⟨-, e, hrun⟩⟩
      · rw [hrun]
        exact h.of_sameRows hi (.refl _) (by simp [returnedIDs])
      · rw [hrun]
        refine h.of_sameRows hi (hw.sameRows hmem) fun id hid => ⟨p, hmem, ?_, ?_⟩
        · rw [mem_singleton.mp hid]
          exact (Peer.sameIndex_loggedIn _ _ p).id.symm
        · exact hcond.resolve_right (not_not.mpr hacc)
      · rw [hrun]
        exact h.of_sameRows hi (hw.sameRows hmem) (by simp [returnedIDs])

/-- **Registration and lookup agree** along every run of registrations that meet the
condition, if no slot was taken before. -/
theorem registrations_keep_slots (hI : AllCanonical cm I) (hfree : CollisionFree hmac I)
    (hs : ∀ i ∈ I, ∀ p, findMachinePeer cm hmac i s ≠ .ok p) {calls : List RegisterCall}
    (hcalls : Runs.Along Registry.step (SlotCall cm hmac I) ⟨s, []⟩ calls) (n : ℕ) :
    SlotsAgree cm hmac I ((calls.take n).foldl Registry.step ⟨s, []⟩) := by
  have hstart : SlotInv cm hmac I ⟨s, []⟩ := by
    refine ⟨by simp, fun i hi p hp hslot => ?_⟩
    exact absurd (findMachinePeer_eq_ok.mpr ⟨hp, hslot⟩) (hs i hi p)
  exact (hcalls.invariant (fun r c h hc => slots_step hI h hc) hstart n).slotsAgree hI hfree

end

/-! ### A taken slot -/

def emptyStore : Store where
  accounts := [{ id := "corp-a" }]
  groups := [{ id := "all-a", accountID := "corp-a", name := "All", peers := [] }]
  valid := by decide

def otherIdentity : Identity :=
  { labIdentity with dnsName := "laptop.corp.local", hostname := "laptop" }

theorem labIdentity_canonical : labIdentity.Canonical CaseMap.ascii :=
  ⟨rfl, rfl, by decide⟩

theorem otherIdentity_canonical : otherIdentity.Canonical CaseMap.ascii :=
  ⟨rfl, rfl, by decide⟩

/-- The registration of the other machine, with a key of its own and its own host name. -/
def otherCall : RegisterCall where
  deps := { labDeps with newID := "laptop-peer", newID_ne_empty := by decide }
  identity := otherIdentity
  req := { wgPubKey := List.replicate 32 8, systemMeta := some { hostname := "laptop" } }

/-- Two machines register, one after the other. -/
def twoMachines : List RegisterCall :=
  [⟨labDeps, labIdentity, labRequest⟩, otherCall]

theorem two_machines_keep_slots :
    SlotsAgree labDeps.caseMap labDeps.hmac {labIdentity, otherIdentity}
      ((twoMachines.take 2).foldl Registry.step ⟨emptyStore, []⟩) := by
  have hlab : registrationKey labDeps labIdentity labRequest = .ok (.replicate 32 7) := by
    decide +kernel
  have hother : registrationKey otherCall.deps otherIdentity otherCall.req =
      .ok (.replicate 32 8) := by
    decide +kernel
  have hcalls : Runs.Along Registry.step
      (SlotCall labDeps.caseMap labDeps.hmac {labIdentity, otherIdentity}) ⟨emptyStore, []⟩
      twoMachines :=
    ⟨.of_new rfl rfl (.inl rfl) hlab (by decide +kernel) (by decide +kernel),
      .of_new rfl rfl (.inr rfl) hother (by decide +kernel) (by decide +kernel), trivial⟩
  refine registrations_keep_slots ?_ ?_ ?_ hcalls 2
  · rintro i (rfl | rfl)
    · exact labIdentity_canonical
    · exact otherIdentity_canonical
  · rintro i (rfl | rfl) j (rfl | rfl) h
    · rfl
    · exact absurd h (by decide +kernel)
    · exact absurd h (by decide +kernel)
    · rfl
  · rintro i (rfl | rfl) p h <;> cases h

/-- A machine that reports the host name of another one: its registration succeeds, it does
not find its own peer, and the other machine, which never registered, finds it. -/
theorem register_takes_foreign_slot :
    ∃ resp s', registerMachinePeer labDeps (some otherIdentity) labRequest emptyStore =
        (.ok resp, s') ∧
      (∃ e, findMachinePeer labDeps.caseMap labDeps.hmac otherIdentity s' = .error e) ∧
      ∃ p, findMachinePeer labDeps.caseMap labDeps.hmac labIdentity s' = .ok p ∧
        p.id = resp.peer.id ∧ p.systemMeta.certDNSName = "laptop.corp.local" :=
  ⟨_, _, rfl, ⟨_, rfl⟩, _, rfl, rfl, rfl⟩

end Netbird
