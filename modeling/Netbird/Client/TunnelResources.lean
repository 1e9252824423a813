/-
What the machine tunnel has open over a run.

Every object the tunnel opens is stored in one of its fields, and only `Stop` closes what the
fields hold.  A second attempt that gets as far as the first one overwrites the fields, and a
device that is created and does not come up is never stored.

* `Tidy` — what is open is what the fields hold; `Tidy.round` — an attempt that overwrites
  nothing keeps it so; `Tidy.cleanup` — `Stop` then closes everything;
* `noLeak_iff` — when a run leaks nothing.
-/
import Netbird.Client.Tunnel
import Netbird.Lib.Checked
import Netbird.Lib.Runs

namespace Netbird.Tunnel

open Command List Except Attempt Option

/-! ### What is open -/

def Resource.isOn (r : Resource) (device : Resource) : Bool :=
  match r, device with
  | .route _ d, .object .wgInterface d' => d = d'
  | _, _ => false

/-- The resource is open after the journal.  A route goes with its device. -/
def isOpen : List Event → Resource → Bool
  | [], _ => false
  | .opened r' :: j, r => r = r' || isOpen j r
  | .closed r' :: j, r => r ≠ r' && !r.isOn r' && isOpen j r
  | .storedSetupKey _ :: j, r => isOpen j r
  | .presentedSetupKey _ :: j, r => isOpen j r

/-- At most one engine, one client and one interface is open. -/
def Sole (j : List Event) : Prop :=
  ∀ kind i i', isOpen j (.object kind i) → isOpen j (.object kind i') → i = i'

/-- At every moment of the journal. -/
def AlwaysSole (j : List Event) : Prop :=
  ∀ j', j' <:+ j → Sole j'

/-- Nothing leaked: never two of a kind at once, and in the end nothing is open. -/
structure NoLeak (j : List Event) : Prop where
  sole : AlwaysSole j
  closed : ∀ r, isOpen j r = false

variable {j : List Event}

theorem AlwaysSole.cons {e : Event} (h : AlwaysSole j) (he : Sole (e :: j)) :
    AlwaysSole (e :: j) := by
  intro j' hj'
  rcases suffix_cons_iff.mp hj' with rfl | hj'
  · exact he
  · exact h j' hj'

variable {r : Resource}

theorem isOpen_closed {r' : Resource} :
    isOpen (.closed r' :: j) r ↔ r ≠ r' ∧ r.isOn r' = false ∧ isOpen j r := by
  simp [isOpen, and_assoc]

theorem AlwaysSole.closed (h : AlwaysSole j) (r : Resource) : AlwaysSole (.closed r :: j) :=
  h.cons fun kind i i' hi hi' =>
    h j suffix_rfl kind i i' (isOpen_closed.mp hi).2.2 (isOpen_closed.mp hi').2.2

/-- An event that opens and closes nothing. -/
def Event.IsQuiet : Event → Prop
  | .opened _ => False
  | .closed _ => False
  | .storedSetupKey _ => True
  | .presentedSetupKey _ => True

theorem isOpen_quiet {e : Event} (he : e.IsQuiet) (j : List Event) :
    isOpen (e :: j) = isOpen j := by
  cases e with
  | opened r => exact he.elim
  | closed r => exact he.elim
  | storedSetupKey key => rfl
  | presentedSetupKey key => rfl

theorem isOpen_append_of_quiet {k : List Event} (hk : ∀ e ∈ k, e.IsQuiet) (j : List Event) :
    isOpen (k ++ j) = isOpen j := by
  induction k with
  | nil => rfl
  | cons e k ih =>
    rw [cons_append, isOpen_quiet (hk e mem_cons_self)]
    exact ih fun e' he' => hk e' (mem_cons_of_mem e he')

theorem AlwaysSole.append_of_quiet {k j : List Event} (h : AlwaysSole j)
    (hk : ∀ e ∈ k, e.IsQuiet) : AlwaysSole (k ++ j) := by
  induction k with
  | nil => exact h
  | cons e k ih =>
    have hk' : ∀ e ∈ k, e.IsQuiet := fun e' he' => hk e' (mem_cons_of_mem e he')
    refine (ih hk').cons ?_
    rw [Sole, isOpen_quiet (hk e mem_cons_self)]
    exact ih hk' (k ++ j) suffix_rfl

/-! ### The steps that open nothing -/

def MachineTunnel.held (t : MachineTunnel) : Kind → Option ℕ
  | .peerEngine => t.peerEngine
  | .mgmClient => t.mgmClient
  | .wgInterface => t.wgInterface

/-- From the one state to the other nothing was opened, closed or put into a field. -/
structure Quiet (t t' : MachineTunnel) : Prop where
  held : t'.held = t.held
  nextID : t'.nextID = t.nextID
  journal : ∃ k, (∀ e ∈ k, e.IsQuiet) ∧ t'.journal = k ++ t.journal

theorem exists_journal_trans {P : Event → Prop} {j₁ j₂ j₃ : List Event}
    (h : ∃ k, (∀ e ∈ k, P e) ∧ j₂ = k ++ j₁) (h' : ∃ k, (∀ e ∈ k, P e) ∧ j₃ = k ++ j₂) :
    ∃ k, (∀ e ∈ k, P e) ∧ j₃ = k ++ j₁ := by
  obtain ⟨k, hk, rfl⟩ := h
  obtain ⟨k', hk', rfl⟩ := h'
  exact ⟨k' ++ k, forall_mem_append.mpr ⟨hk', hk⟩, (append_assoc ..).symm⟩

instance : Std.Refl Quiet where
  refl t := ⟨rfl, rfl, [], by simp, rfl⟩

instance : IsTrans MachineTunnel Quiet where
  trans _ _ _ h h' := ⟨h'.held.trans h.held, h'.nextID.trans h.nextID,
    exists_journal_trans h.journal h'.journal⟩

theorem orFail_reads (text : String) (e : Option String) : Ensures (· = ·) (orFail text e) := by
  intro t
  cases e <;> rfl

theorem require_reads (b : Bool) (text : String) : Ensures (· = ·) (require b text) := by
  intro t
  cases b <;> rfl

theorem quiet_of_reads {α : Type} {x : Action α} (h : Ensures (· = ·) x) : Ensures Quiet x := by
  intro t
  rw [← h t]
  exact refl_of Quiet t

theorem record_quiet {e : Event} (he : e.IsQuiet) : Ensures Quiet (record e) :=
  fun _ => ⟨rfl, rfl, [e], by simpa using he, rfl⟩

theorem saveTo_quiet (c : SecureConfig) (e : Option String) : Ensures Quiet (c.saveTo e) :=
  .bind (quiet_of_reads (orFail_reads _ e)) fun _ => .update fun t t' h => by
    obtain rfl := ok.inj h
    exact ⟨rfl, rfl, [], by simp, rfl⟩

theorem persistKeys_quiet (config : MachineTunnelConfig) (a : Attempt) (url : String) (k : Keys) :
    Ensures Quiet (persistKeys config a url k) := by
  refine .bind (.attempt (.readsExcept _)) fun loaded => .bind (.ofResult _) fun c' =>
    .bind (.mapError _ (saveTo_quiet c' _)) fun _ => ?_
  split
  · exact record_quiet trivial
  · exact .pure _

theorem toMachineConfig_quiet (config : MachineTunnelConfig) (a : Attempt) :
    Ensures Quiet (toMachineConfig config a) := by
  refine .bind (.mapError _ (.ofResult _)) fun url => .bind (.attempt (.readsExcept _)) fun c =>
    .bind (.ofResult _) fun k => .bind (.attempt ?_) fun _ => .pure _
  split
  · exact persistKeys_quiet config a url k
  · exact .pure _

theorem cleanupSetupKeyAfterMTLS_quiet (a : Attempt) :
    Ensures Quiet (cleanupSetupKeyAfterMTLS a) := by
  refine .bind (.mapError _ (.readsExcept _)) fun c => ?_
  split
  · exact .mapError _ (saveTo_quiet _ _)
  · exact .pure _

theorem loginOrRegister_quiet (a : Attempt) (m : MachineConfig) :
    Ensures Quiet (loginOrRegister a m) := by
  refine .bind (quiet_of_reads (orFail_reads _ _)) fun _ => ?_
  rcases a.login with e | r
  · dsimp only
    split
    · exact .bind (record_quiet trivial) fun _ => .bind (.mapError _ (.ofResult _)) fun _ => .pure _
    · exact .fail _
  · exact .pure _

/-! ### Authentication -/

theorem Keys.make_ok {text : String} {isMissing : Bool} {new : Except String String}
    {set : String → Keys} {k k' : Keys} (h : k.make text isMissing new set = .ok k') :
    k' = k ∨ ∃ key, k' = { set key with needsPersist := true } := by
  unfold Keys.make at h
  split at h
  · rcases new with e | key
    · cases h
    · exact .inr ⟨key, (ok.inj h).symm⟩
  · exact .inl (ok.inj h).symm

variable {a : Attempt}

theorem Keys.generate_setupKey {k k' : Keys} (h : k.generate a = .ok k') :
    k'.setupKey = k.setupKey := by
  obtain ⟨k₁, h₁, h₂⟩ := bind_eq_ok.mp h
  obtain rfl | ⟨wgKey, rfl⟩ := make_ok h₁ <;> obtain rfl | ⟨sshKey, rfl⟩ := make_ok h₂ <;> rfl

variable {config : MachineTunnelConfig} {t : MachineTunnel}

theorem toMachineConfig_of_error (h : a.setupKey config t.secureConfig = none) :
    ∃ e, toMachineConfig config a t = (.error e, t) := by
  unfold setupKey at h
  rcases hurl : a.managementURL with e | url
  · refine ⟨"parse management URL: " ++ e, bind_of_error ?_⟩
    rw [hurl]
    rfl
  · have hurl' : mapError ("parse management URL: " ++ ·) (ofResult a.managementURL) t =
        (.ok url, t) := by
      rw [hurl]
      rfl
    rw [toMachineConfig, bind_of_ok hurl']
    rcases hk : ((Keys.load a (readConfig a.loadError t.secureConfig)).fallback config).generate a with e | k
    · exact ⟨e, by simp only [bind, attempt, loadMachineConfigFrom, readsExcept, ofResult, hk]⟩
    · simp [hurl, hk] at h

theorem toMachineConfig_of_ok {url : String} {k : Keys} (hurl : a.managementURL = .ok url)
    (hk : ((Keys.load a (readConfig a.loadError t.secureConfig)).fallback config).generate a =
      .ok k) : toMachineConfig config a t =
      (.ok { privateKey := k.wgKey, sshKey := k.sshKey
             machineCertEnabled := config.machineCertEnabled, setupKey := k.setupKey },
        ((if k.needsPersist then persistKeys config a url k else pure () : Action Unit) t).2) := by
  simp only [toMachineConfig, bind, mapError, ofResult, hurl, attempt, loadMachineConfigFrom,
    readsExcept, hk, pure]

def MachineTunnel.opening (t : MachineTunnel) (kind : Kind) : MachineTunnel :=
  { t with nextID := t.nextID + 1, journal := .opened (.object kind t.nextID) :: t.journal }

/-- A client was opened, and closed after the calls on it. -/
def Brief (t t' : MachineTunnel) : Prop :=
  ∃ t₁, Quiet (t.opening .mgmClient) t₁ ∧
    t' = { t₁ with journal := .closed (.object .mgmClient t.nextID) :: t₁.journal }

theorem Brief.held {t t' : MachineTunnel} (h : Brief t t') : t'.held = t.held := by
  obtain ⟨t₁, hq, rfl⟩ := h
  exact hq.held

theorem loginOrRegister_result (a : Attempt) (m : MachineConfig) (t : MachineTunnel) :
    (loginOrRegister a m t).1.toOption.map (·.response) = a.setupKeyResponse := by
  unfold setupKeyResponse loginOrRegister
  rcases a.publicKeyError with _ | e
  · rcases a.login with e | r
    · cases he : e.permissionDenied
      · simp [bind, orFail, pure, he, fail, Except.toOption]
      · cases a.register <;>
          simp [bind, orFail, pure, he, record, update, mapError, ofResult, Except.toOption]
    · rfl
  · rfl

def MachineTunnel.closing (t : MachineTunnel) (id : ℕ) : MachineTunnel :=
  { t with journal := .closed (.object .mgmClient id) :: t.journal }

section Bootstrap

variable {config : MachineTunnelConfig} {a : Attempt} {m : MachineConfig}
  (hm : m.machineCertEnabled = config.machineCertEnabled) (t : MachineTunnel)

include hm

theorem bootstrap_mtls_cases : (∃ r, a.mtlsResponse config = some r ∧
        bootstrap a m t = (.ok { authMethod := .mtls, response := r }, t)) ∨
      a.mtlsResponse config = none ∧
        (m.setupKey ≠ "" ∧ bootstrap a m t = bootstrapWithSetupKey a m t ∨
          m.setupKey = "" ∧ ∃ e, bootstrap a m t = (.error e, t)) := by
  unfold mtlsResponse bootstrap
  rw [hm]
  by_cases hcert : config.machineCertEnabled ∧ a.hasMachineCert
  · rw [if_pos hcert, if_pos hcert]
    rcases a.mtls with e | r
    · refine .inr ⟨rfl, ?_⟩
      by_cases hk : m.setupKey = ""
      · exact .inr ⟨hk, _, congrFun (if_neg (not_not.mpr hk)) t⟩
      · exact .inl ⟨hk, congrFun (if_pos hk) t⟩
    · exact .inl ⟨r, rfl, rfl⟩
  · rw [if_neg hcert, if_neg hcert]
    refine .inr ⟨rfl, ?_⟩
    by_cases hk : m.setupKey = ""
    · exact .inr ⟨hk, _, congrFun (if_pos hk) t⟩
    · exact .inl ⟨hk, congrFun (if_neg hk) t⟩

/-- The bootstrap uses the setup key on a client of its own, or opens nothing. -/
theorem bootstrap_cases :
    (m.setupKey ≠ "" ∧ a.mtlsResponse config = none ∧ a.setupKeyFormatError = none ∧
        a.bootstrapClientError = none) ∧
        bootstrap a m t = ((loginOrRegister a m (t.opening .mgmClient)).1,
          (loginOrRegister a m (t.opening .mgmClient)).2.closing t.nextID) ∨
      ¬ (m.setupKey ≠ "" ∧ a.mtlsResponse config = none ∧ a.setupKeyFormatError = none ∧
        a.bootstrapClientError = none) ∧ (bootstrap a m t).2 = t ∧
        (bootstrap a m t).1.toOption.map (·.response) = a.mtlsResponse config := by
  obtain ⟨r, hr, hb⟩ | ⟨hn, ⟨hk, hb⟩ | ⟨hk, e, hb⟩⟩ := bootstrap_mtls_cases (a := a) hm t
  · rw [hb, hr]
    exact .inr ⟨fun h => (nomatch h.2.1), rfl, rfl⟩
  · rw [hb, hn]
    unfold bootstrapWithSetupKey
    rcases a.setupKeyFormatError with _ | e
    · rcases a.bootstrapClientError with _ | e
      · exact .inl ⟨⟨hk, rfl, rfl, rfl⟩, rfl⟩
      · exact .inr ⟨fun h => (nomatch h.2.2.2), rfl, rfl⟩
    · exact .inr ⟨fun h => (nomatch h.2.2.1), rfl, rfl⟩
  · rw [hb, hn]
    exact .inr ⟨fun h => h.1 hk, rfl, rfl⟩

end Bootstrap

theorem toMachineConfig_of_key {key : String} (h : a.setupKey config t.secureConfig = some key) :
    ∃ m t', toMachineConfig config a t = (.ok m, t') ∧ Quiet t t' ∧ m.setupKey = key ∧
      m.machineCertEnabled = config.machineCertEnabled := by
  have hq := toMachineConfig_quiet config a t
  unfold setupKey at h
  split at h
  case h_1 url k hurl hk =>
    rw [toMachineConfig_of_ok hurl hk] at hq ⊢
    exact ⟨_, _, rfl, hq, some.inj h, rfl⟩
  case h_2 => cases h

theorem authenticate_of_no_key (h : a.setupKey config t.secureConfig = none) :
    ∃ e, authenticate config a t = (.error e, t) := by
  obtain ⟨e, he⟩ := toMachineConfig_of_error h
  exact ⟨_, bind_of_error (mapError_of_error he)⟩

/-- The end of the setup key after mTLS does not change how the attempt goes on. -/
theorem authenticate_of_ok {R : MachineTunnel → MachineTunnel → Prop} [Std.Refl R]
    {m : MachineConfig} {t t₁ : MachineTunnel}
    (hR : Ensures R (cleanupSetupKeyAfterMTLS a)) (h : toMachineConfig config a t = (.ok m, t₁)) :
    R (bootstrap a m t₁).2 (authenticate config a t).2 ∧
      (authenticate config a t).1.toOption = (bootstrap a m t₁).1.toOption := by
  rw [authenticate, bind_of_ok (mapError_of_ok h)]
  rcases result_cases (bootstrap a m) t₁ with ⟨r, t₂, hb⟩ | ⟨e, t₂, hb⟩
  · rw [bind_of_ok (mapError_of_ok hb), hb]
    have hc : Ensures R (if r.authMethod = .mtls then cleanupSetupKeyAfterMTLS a else pure ()) := by
      split
      · exact hR
      · exact .pure _
    exact ⟨hc t₂, rfl⟩
  · rw [bind_of_error (mapError_of_error hb), hb]
    exact ⟨refl_of R t₂, rfl⟩

/-- An attempt up to its bootstrap: what it opened it has closed again. -/
theorem authenticate_cases (config : MachineTunnelConfig) (a : Attempt) (t : MachineTunnel) :
    (if a.opensClient config t.secureConfig then
        ∃ t₁ t₂, Quiet t t₁ ∧ Brief t₁ t₂ ∧ Quiet t₂ (authenticate config a t).2
      else Quiet t (authenticate config a t).2) ∧
    (authenticate config a t).1.toOption.map (·.response) = a.response config t.secureConfig := by
  unfold response opensClient
  rcases hkey : a.setupKey config t.secureConfig with _ | key
  · obtain ⟨e, he⟩ := authenticate_of_no_key hkey
    rw [he]
    exact ⟨refl_of Quiet t, rfl⟩
  · obtain ⟨m, t₁, htm, hq, rfl, hm⟩ := toMachineConfig_of_key hkey
    obtain ⟨hq', hr⟩ := authenticate_of_ok (cleanupSetupKeyAfterMTLS_quiet a) htm
    rw [hr]
    rcases bootstrap_cases (a := a) hm t₁ with ⟨ho, hb⟩ | ⟨ho, hb, hbr⟩
    · simp only [decide_eq_true ho, if_true]
      rw [hb] at hq' ⊢
      exact ⟨⟨t₁, _, hq, ⟨_, loginOrRegister_quiet a m _, rfl⟩, hq'⟩, loginOrRegister_result a m _⟩
    · simp only [decide_eq_false ho, Bool.false_eq_true, if_false, reduceCtorEq]
      rw [hb] at hq'
      exact ⟨trans_of Quiet hq hq', hbr⟩

/-! ### What an attempt opens -/

/-- From the one state to the other, only routes to the stored interface's device were
opened. -/
structure Routed (t t' : MachineTunnel) : Prop where
  held : t'.held = t.held
  nextID : t'.nextID = t.nextID
  journal : ∃ k, (∀ e ∈ k, ∃ network device, t.held .wgInterface = some device ∧
    e = .opened (.route network device)) ∧ t'.journal = k ++ t.journal

instance : Std.Refl Routed where
  refl t := ⟨rfl, rfl, [], by simp, rfl⟩

instance : IsTrans MachineTunnel Routed where
  trans _ _ _ h h' := ⟨h'.held.trans h.held, h'.nextID.trans h.nextID,
    exists_journal_trans h.journal (h.held ▸ h'.journal)⟩

theorem addRoute_routed {device : ℕ} (n : RouteNetwork)
    (h : t.held .wgInterface = some device) : Routed t (addRoute device n t).2 := by
  unfold addRoute
  rcases n.parsed with _ | network
  · exact refl_of Routed t
  · cases n.added
    · exact refl_of Routed t
    · exact ⟨rfl, rfl, [_], by simpa [MachineTunnel.held] using h, rfl⟩

theorem forM_addRoute_routed {device : ℕ} (networks : List RouteNetwork)
    (h : t.held .wgInterface = some device) : Routed t (networks.forM (addRoute device) t).2 := by
  induction networks generalizing t with
  | nil => exact refl_of Routed t
  | cons n networks ih =>
    have hn := addRoute_routed n h
    change Routed t ((addRoute device n >>= fun _ => networks.forM (addRoute device)) t).2
    rcases bind_cases (addRoute device n) (fun _ => networks.forM (addRoute device)) t with
      ⟨e, t₁, hx, hb⟩ | ⟨u, t₁, hx, hb⟩ <;> rw [hx] at hn <;> rw [hb]
    · exact hn
    · exact trans_of Routed hn (ih ((congrFun hn.held _).trans h))

theorem connectToRemotePeers_ensures {R : MachineTunnel → MachineTunnel → Prop} [Std.Refl R]
    [IsTrans MachineTunnel R] {a : Attempt}
    (h : ∀ networks, Ensures R (addWindowsSystemRoutes a networks)) :
    Ensures R (connectToRemotePeers a) := by
  unfold connectToRemotePeers
  split
  · exact .fail _
  · dsimp only
    split
    · exact .pure _
    · exact .bind (.attempt (h _)) fun _ => .pure _

theorem connectToRemotePeers_routed (a : Attempt) : Ensures Routed (connectToRemotePeers a) := by
  refine connectToRemotePeers_ensures fun networks t => ?_
  unfold addWindowsSystemRoutes
  simp only [bind, reads, id]
  rcases hw : t.wgInterface with _ | device
  · exact refl_of Routed t
  rcases t.sysOps with _ | _
  · exact refl_of Routed t
  rcases a.interfaceByNameError with _ | e
  · exact forM_addRoute_routed _ hw
  · exact refl_of Routed t

/-- The new interface, in its fields. -/
def MachineTunnel.deviceUp (t : MachineTunnel) : MachineTunnel :=
  { t.opening .wgInterface with wgInterface := some t.nextID, sysOps := some t.nextID }

def MachineTunnel.clientUp (t : MachineTunnel) : MachineTunnel :=
  { t.opening .mgmClient with mgmClient := some t.nextID }

def MachineTunnel.engineUp (t : MachineTunnel) : MachineTunnel :=
  { t.opening .peerEngine with peerEngine := some t.nextID }

theorem startPeerEngine_cases (a : Attempt) (r : BootstrapResult) (t : MachineTunnel) :
    (startPeerEngine a r t).2 = t ∨ Routed t.engineUp (startPeerEngine a r t).2 := by
  have hbuild : Ensures (· = ·) (mapError ("build peer engine config: " ++ ·)
      (buildPeerEngineConfig r)) :=
    .mapError _ (.bind (.reads _) fun _ => .bind (require_reads _ _) fun _ =>
      .bind (require_reads _ _) fun _ => require_reads _ _)
  unfold startPeerEngine
  rcases bind_cases_of_reads (orFail_reads _ a.networkMapError) _ t with ⟨e, -, h⟩ | ⟨_, -, h⟩ <;>
    rw [h]
  · exact .inl rfl
  split
  · exact .inl rfl
  rcases bind_cases_of_reads hbuild _ t with ⟨e, -, h⟩ | ⟨_, -, h⟩ <;> rw [h]
  · exact .inl rfl
  rcases bind_cases_of_reads (orFail_reads _ a.peerEngineError) _ t with ⟨e, -, h⟩ | ⟨_, -, h⟩ <;>
    rw [h]
  · exact .inl rfl
  · exact .inr (connectToRemotePeers_routed a t.engineUp)

theorem initializePeerEngine_cases (a : Attempt) (r : BootstrapResult) (t : MachineTunnel) :
    (initializePeerEngine a r t).2 = t ∨ (initializePeerEngine a r t).2 = t.clientUp ∨
      Routed t.clientUp.engineUp (initializePeerEngine a r t).2 := by
  have hstart := startPeerEngine_cases a r t.clientUp
  unfold initializePeerEngine
  rcases bind_cases_of_reads (orFail_reads _ a.parseKeyError) _ t with ⟨e, -, h⟩ | ⟨_, -, h⟩ <;>
    rw [h]
  · exact .inl rfl
  rcases bind_cases_of_reads (orFail_reads _ a.mgmClientError) _ t with ⟨e, -, h⟩ | ⟨_, -, h⟩ <;>
    rw [h]
  · exact .inl rfl
  · exact .inr hstart

/-- The interface is created and stored, created and lost, or not created at all. -/
theorem setupWireGuardInterface_cases (a : Attempt) (r : BootstrapResult) (t : MachineTunnel) :
    if r.response.hasPeerConfig ∧ a.newInterfaceError = none ∧ a.createError = none then
      if a.upError = none then setupWireGuardInterface a r t = (.ok (), t.deviceUp)
      else ∃ e, setupWireGuardInterface a r t = (.error e, t.opening .wgInterface)
    else ∃ e, setupWireGuardInterface a r t = (.error e, t) := by
  unfold setupWireGuardInterface
  cases r.response.hasPeerConfig with
  | false => exact ⟨_, rfl⟩
  | true =>
    rcases a.newInterfaceError with _ | e
    · rcases a.createError with _ | e
      · rcases a.upError with _ | e
        · rfl
        · exact ⟨_, rfl⟩
      · exact ⟨_, rfl⟩
    · exact ⟨_, rfl⟩

/-- **What an attempt opens and stores**, after its bootstrap. -/
theorem connect_cases (config : MachineTunnelConfig) (a : Attempt) (t : MachineTunnel) :
    let t₁ := (authenticate config a t).2
    if a.createsDevice config t.secureConfig then
      if a.upError = none then
        round config t a = t₁.deviceUp ∨ round config t a = t₁.deviceUp.clientUp ∨
          Routed t₁.deviceUp.clientUp.engineUp (round config t a)
      else round config t a = t₁.opening .wgInterface
    else round config t a = t₁ := by
  intro t₁
  have hr := (authenticate_cases config a t).2
  unfold createsDevice round connect
  rcases result_cases (authenticate config a) t with ⟨r, t', h⟩ | ⟨e, t', h⟩
  · obtain rfl : t' = t₁ := congrArg Prod.snd h.symm
    rw [h] at hr
    rw [bind_of_ok h, ← hr]
    have hs := setupWireGuardInterface_cases a r t₁
    simp only [Except.toOption, map_some, decide_eq_true_eq]
    split_ifs at hs ⊢ with hc hu
    · rw [bind_of_ok (mapError_of_ok hs), mapError_snd]
      exact initializePeerEngine_cases a r t₁.deviceUp
    · obtain ⟨e, he⟩ := hs
      rw [bind_of_error (mapError_of_error he)]
    · obtain ⟨e, he⟩ := hs
      rw [bind_of_error (mapError_of_error he)]
  · obtain rfl : t' = t₁ := congrArg Prod.snd h.symm
    rw [h] at hr
    rw [bind_of_error h, ← hr]
    rfl

/-! ### What is open is what the fields hold -/

/-- What is open is what the fields hold, and so it was never more than one of a kind. -/
structure Tidy (t : MachineTunnel) : Prop where
  sole : AlwaysSole t.journal
  object : ∀ kind i, isOpen t.journal (.object kind i) ↔ t.held kind = some i
  route : ∀ network d, isOpen t.journal (.route network d) → t.held .wgInterface = some d
  old : ∀ kind i, t.held kind = some i → i < t.nextID
  below : t.held .wgInterface = none → ∀ kind, t.held kind = none

variable {kind : Kind}

theorem isOpen_opening :
    isOpen (t.opening kind).journal r ↔ r = .object kind t.nextID ∨ isOpen t.journal r := by
  simp [MachineTunnel.opening, isOpen]

namespace Tidy

variable {t t' : MachineTunnel}

theorem start (file : Option SecureConfig) : Tidy { secureConfig := file } where
  sole j hj := by
    obtain rfl := suffix_nil.mp hj
    intro kind i i' h
    cases h
  object kind i := by cases kind <;> exact ⟨fun h => (nomatch h), fun h => (nomatch h)⟩
  route _ _ h := nomatch h
  old kind i h := by cases kind <;> cases h
  below _ kind := by cases kind <;> rfl

variable (h : Tidy t)
include h

theorem of_isOpen (hs : AlwaysSole t'.journal)
    (hopen : isOpen t'.journal = isOpen t.journal) (hheld : t'.held = t.held)
    (hid : t.nextID ≤ t'.nextID) : Tidy t' where
  sole := hs
  object := by rw [hopen, hheld]; exact h.object
  route := by rw [hopen, hheld]; exact h.route
  old kind i hi := (h.old kind i (hheld ▸ hi)).trans_le hid
  below := by rw [hheld]; exact h.below

theorem quiet (hq : Quiet t t') : Tidy t' := by
  obtain ⟨k, hk, hj⟩ := hq.journal
  refine h.of_isOpen ?_ ?_ hq.held hq.nextID.ge
  · rw [hj]
    exact h.sole.append_of_quiet hk
  · rw [hj, isOpen_append_of_quiet hk]

theorem sole_opening (kind : Kind) (hn : t.held kind = none) :
    AlwaysSole (t.opening kind).journal := by
  refine h.sole.cons fun kind' i i' hi hi' => ?_
  rcases isOpen_opening.mp hi with hi | hi <;> rcases isOpen_opening.mp hi' with hi' | hi'
  · cases hi
    cases hi'
    rfl
  · cases hi
    rw [h.object, hn] at hi'
    cases hi'
  · cases hi'
    rw [h.object, hn] at hi
    cases hi
  · exact h.sole _ suffix_rfl kind' i i' hi hi'

theorem store (kind : Kind) (hn : t.held kind = none)
    (hj : t'.journal = (t.opening kind).journal) (hid : t'.nextID = t.nextID + 1)
    (hheld : ∀ kind', t'.held kind' = if kind' = kind then some t.nextID else t.held kind')
    (hw : kind = .wgInterface ∨ t.held .wgInterface ≠ none) : Tidy t' where
  sole := hj ▸ h.sole_opening kind hn
  object kind' i := by
    rw [hj, isOpen_opening, h.object, hheld]
    by_cases hk : kind' = kind
    · subst hk
      simp [hn, eq_comm]
    · simp [hk]
  route network d hr := by
    rw [hj, isOpen_opening] at hr
    have hd := h.route network d (hr.resolve_left (by simp))
    rw [hheld, if_neg]
    · exact hd
    · rintro rfl
      rw [hn] at hd
      cases hd
  old kind' i hi := by
    rw [hheld] at hi
    split_ifs at hi
    · cases hi
      omega
    · have := h.old kind' i hi
      omega
  below hnone := by
    rw [hheld] at hnone
    split_ifs at hnone with hk
    exact absurd hnone (hw.resolve_left fun hk' => hk hk'.symm)

theorem deviceUp (hn : t.wgInterface = none) : Tidy t.deviceUp :=
  h.store .wgInterface hn rfl rfl (fun kind => by cases kind <;> rfl) (.inl rfl)

theorem clientUp (hn : t.mgmClient = none) (hw : t.wgInterface ≠ none) : Tidy t.clientUp :=
  h.store .mgmClient hn rfl rfl (fun kind => by cases kind <;> rfl) (.inr hw)

theorem engineUp (hn : t.peerEngine = none) (hw : t.wgInterface ≠ none) : Tidy t.engineUp :=
  h.store .peerEngine hn rfl rfl (fun kind => by cases kind <;> rfl) (.inr hw)

/-- A client that is closed again leaves no trace. -/
theorem brief (hn : t.mgmClient = none) (hb : Brief t t') : Tidy t' := by
  obtain ⟨t₁, hq, rfl⟩ := hb
  obtain ⟨k, hk, hj⟩ := hq.journal
  refine h.of_isOpen (.closed ?_ _) ?_ hq.held ?_
  · rw [hj]
    exact (h.sole_opening .mgmClient hn).append_of_quiet hk
  · funext r
    rw [Bool.eq_iff_iff, isOpen_closed, hj, isOpen_append_of_quiet hk, isOpen_opening]
    constructor
    · rintro ⟨hr, -, hr' | hr'⟩
      · exact absurd hr' hr
      · exact hr'
    · intro hr
      refine ⟨?_, ?_, .inr hr⟩
      · rintro rfl
        exact absurd (h.old .mgmClient _ ((h.object _ _).mp hr)) (lt_irrefl _)
      · cases r <;> rfl
  · exact (Nat.le_succ _).trans hq.nextID.ge

theorem openRoute {network : Prefix} {d : ℕ} (hd : t.held .wgInterface = some d)
    (hheld : t'.held = t.held) (hid : t'.nextID = t.nextID)
    (hj : t'.journal = .opened (.route network d) :: t.journal) : Tidy t' := by
  have hobject : ∀ kind i, isOpen t'.journal (.object kind i) ↔ isOpen t.journal (.object kind i) := by
    simp [hj, isOpen]
  refine
    { sole := hj ▸ h.sole.cons fun kind i i' hi hi' => ?_
      object := by simpa only [hobject, hheld] using h.object
      route := fun network' d' hr => ?_
      old := by rw [hheld, hid]; exact h.old
      below := by rw [hheld]; exact h.below }
  · exact h.sole _ suffix_rfl kind i i' hi hi'
  · rw [hheld]
    rw [hj] at hr
    simp only [isOpen, Bool.or_eq_true, decide_eq_true_eq] at hr
    rcases hr with hr | hr
    · cases hr
      exact hd
    · exact h.route network' d' hr

theorem routed (hr : Routed t t') : Tidy t' := by
  obtain ⟨k, hk, hj⟩ := hr.journal
  induction k generalizing t' with
  | nil => exact h.of_isOpen (hj ▸ h.sole) (by rw [hj]; rfl) hr.held hr.nextID.ge
  | cons e k ih =>
    have hk' := fun e' he' => hk e' (mem_cons_of_mem e he')
    -- The state without the newest route.
    have ht : Tidy { t' with journal := k ++ t.journal } :=
      ih ⟨hr.held, hr.nextID, k, hk', rfl⟩ hk' rfl
    obtain ⟨network, d, hd, rfl⟩ := hk e mem_cons_self
    exact ht.openRoute ((congrFun hr.held _).trans hd) rfl rfl hj

variable (hclient : a.opensClient config t.secureConfig → t.mgmClient = none)

include hclient

theorem authenticate : Tidy (Tunnel.authenticate config a t).2 ∧
      (Tunnel.authenticate config a t).2.held = t.held := by
  have ht := (authenticate_cases config a t).1
  split_ifs at ht with ho
  · obtain ⟨t₁, t₂, hq, hb, hq'⟩ := ht
    have hn : t₁.mgmClient = none := (congrFun hq.held .mgmClient).trans (hclient ho)
    exact ⟨((h.quiet hq).brief hn hb).quiet hq', hq'.held.trans (hb.held.trans hq.held)⟩
  · exact ⟨h.quiet ht, ht.held⟩

/-- **An attempt that overwrites nothing** keeps what is open in the fields. -/
theorem round
    (hdevice : a.createsDevice config t.secureConfig → t.wgInterface = none ∧ a.upError = none) :
    Tidy (Tunnel.round config t a) := by
  obtain ⟨ht, hheld⟩ := h.authenticate hclient
  have hc := connect_cases config a t
  split_ifs at hc with hd hu
  · -- With no interface there is no client and no engine yet.
    have hn : (Tunnel.authenticate config a t).2.held .wgInterface = none := by
      rw [hheld]
      exact (hdevice hd).1
    have ht₁ := ht.deviceUp hn
    have ht₂ := ht₁.clientUp (ht.below hn .mgmClient) (some_ne_none _)
    rcases hc with hc | hc | hc
    · rw [hc]
      exact ht₁
    · rw [hc]
      exact ht₂
    · exact (ht₂.engineUp (ht.below hn .peerEngine) (some_ne_none _)).routed hc
  · exact absurd (hdevice hd).2 hu
  · rw [hc]
    exact ht

end Tidy

/-! ### Stop -/

theorem isOpen_closeField {id : Option ℕ} : isOpen (closeField kind id j) r ↔
      (∀ i, id = some i → r ≠ .object kind i ∧ r.isOn (.object kind i) = false) ∧ isOpen j r := by
  rcases id with _ | i
  · simp [closeField]
  · simp [closeField, isOpen_closed, and_assoc]

theorem AlwaysSole.closeField (h : AlwaysSole j) (kind : Kind) (id : Option ℕ) :
    AlwaysSole (closeField kind id j) := by
  rcases id with _ | i
  · exact h
  · exact h.closed _

/-- The later journal closes some routes more. -/
structure ClosesRoutes (j j' : List Event) : Prop where
  suffix : j <:+ j'
  sole : AlwaysSole j → AlwaysSole j'
  object : ∀ kind i, isOpen j' (.object kind i) = isOpen j (.object kind i)
  isOpen : ∀ r, isOpen j' r → isOpen j r

theorem closesRoutes_foldl (routes : List Prefix) (d : ℕ) (j : List Event) :
    ClosesRoutes j (routes.foldl (fun j n => .closed (.route n d) :: j) j) := by
  induction routes generalizing j with
  | nil => exact ⟨suffix_rfl, id, fun _ _ => rfl, fun _ => id⟩
  | cons n routes ih =>
    have ih := ih (.closed (.route n d) :: j)
    refine ⟨(suffix_cons _ _).trans ih.suffix, fun h => ih.sole (h.closed _),
      fun kind i => (ih.object kind i).trans ?_, fun r hr => ?_⟩
    · simp [Tunnel.isOpen, Resource.isOn]
    · exact (isOpen_closed.mp (ih.isOpen r hr)).2.2

theorem removeWindowsSystemRoutes_journal (e : Option String) (t : MachineTunnel) :
    ClosesRoutes t.journal (removeWindowsSystemRoutes e t).journal := by
  unfold removeWindowsSystemRoutes
  split
  · exact closesRoutes_foldl _ _ _
  all_goals exact ⟨suffix_rfl, id, fun _ _ => rfl, fun _ => id⟩

section Cleanup

variable (e : Option String) (t : MachineTunnel)

theorem cleanup_journal : ∃ j, ClosesRoutes (closeClients t).journal j ∧
      (cleanup e t).journal = closeField .wgInterface t.wgInterface j := by
  refine ⟨_, removeWindowsSystemRoutes_journal e (closeClients t),
    congrArg (closeField .wgInterface · _) ?_⟩
  unfold removeWindowsSystemRoutes
  split <;> rfl

theorem isOpen_closeClients : isOpen (closeClients t).journal r ↔
      (∀ i, t.mgmClient = some i → r ≠ .object .mgmClient i) ∧
      (∀ i, t.peerEngine = some i → r ≠ .object .peerEngine i) ∧ isOpen t.journal r := by
  have hon : ∀ kind i, kind ≠ .wgInterface → r.isOn (.object kind i) = false := by
    intro kind i hk
    cases r <;> cases kind <;> first | rfl | exact absurd rfl hk
  simp [closeClients, isOpen_closeField, hon]

theorem isOpen_cleanup (kind : Kind) {i : ℕ} : isOpen (cleanup e t).journal (.object kind i) ↔
      t.held kind ≠ some i ∧ isOpen t.journal (.object kind i) := by
  obtain ⟨j, hj, hcleanup⟩ := cleanup_journal e t
  rw [hcleanup, isOpen_closeField, hj.object, isOpen_closeClients]
  have hne : ∀ {id : Option ℕ}, (∀ i', id = some i' → i ≠ i') ↔ id ≠ some i :=
    ⟨fun h hi => h i hi rfl, fun h i' hi' heq => h (heq ▸ hi')⟩
  cases kind <;> simp [MachineTunnel.held, Resource.isOn, hne]

/-- `Stop` closes everything if what is open is what the fields hold. -/
theorem Tidy.cleanup (h : Tidy t) : NoLeak (cleanup e t).journal := by
  obtain ⟨j, hj, hcleanup⟩ := cleanup_journal e t
  refine ⟨?_, fun r => Bool.eq_false_iff.mpr fun hr => ?_⟩
  · rw [hcleanup]
    exact (hj.sole ((h.sole.closeField _ _).closeField _ _)).closeField _ _
  · cases r with
    | object kind i =>
      obtain ⟨hheld, hopen⟩ := (isOpen_cleanup e t kind).mp hr
      exact hheld ((h.object kind i).mp hopen)
    | route network d =>
      -- The route leads to the stored interface's device, and goes with it.
      rw [hcleanup, isOpen_closeField] at hr
      have hopen := ((isOpen_closeClients t).mp (hj.isOpen _ hr.2)).2.2
      have hon := (hr.1 d (h.route network d hopen)).2
      simp [Resource.isOn] at hon

end Cleanup

/-! ### What an attempt cannot undo -/

/-- What holds between the states before and after, whatever was opened: nothing of the journal
is undone, no interface is closed, and a field only takes a new one. -/
structure Extends (t t' : MachineTunnel) : Prop where
  journal : t.journal <:+ t'.journal
  nextID : t.nextID ≤ t'.nextID
  isOpen : ∀ i, isOpen t.journal (.object .wgInterface i) → isOpen t'.journal (.object .wgInterface i)
  stored : t'.wgInterface = t.wgInterface ∨ ∃ i, t'.wgInterface = some i ∧ t.nextID ≤ i

namespace Extends

variable {t t' t'' : MachineTunnel}

theorem trans (h : Extends t t') (h' : Extends t' t'') : Extends t t'' where
  journal := h.journal.trans h'.journal
  nextID := h.nextID.trans h'.nextID
  isOpen i hi := h'.isOpen i (h.isOpen i hi)
  stored := by
    rcases h'.stored with heq | ⟨i, hi, hle⟩
    · rw [heq]
      exact h.stored
    · exact .inr ⟨i, hi, h.nextID.trans hle⟩

theorem of_quiet (h : Quiet t t') : Extends t t' := by
  obtain ⟨k, hk, hj⟩ := h.journal
  refine ⟨⟨k, hj.symm⟩, h.nextID.ge, fun i hi => ?_, .inl (congrFun h.held .wgInterface)⟩
  rw [hj, isOpen_append_of_quiet hk]
  exact hi

theorem opening (t : MachineTunnel) (kind : Kind) : Extends t (t.opening kind) :=
  ⟨suffix_cons _ _, Nat.le_succ _, fun _ hi => isOpen_opening.mpr (.inr hi), .inl rfl⟩

theorem of_brief (h : Brief t t') : Extends t t' := by
  obtain ⟨t₁, hq, rfl⟩ := h
  have h₁ := (opening t .mgmClient).trans (of_quiet hq)
  refine ⟨h₁.journal.trans (suffix_cons _ _), h₁.nextID, fun i hi => ?_, h₁.stored⟩
  exact isOpen_closed.mpr ⟨by simp, rfl, h₁.isOpen i hi⟩

theorem of_routed (h : Routed t t') : Extends t t' := by
  obtain ⟨k, hk, hj⟩ := h.journal
  refine ⟨⟨k, hj.symm⟩, h.nextID.ge, fun i hi => ?_, .inl (congrFun h.held .wgInterface)⟩
  rw [hj]
  clear hj
  induction k with
  | nil => exact hi
  | cons e k ih =>
    obtain ⟨network, d, -, rfl⟩ := hk e mem_cons_self
    have := ih fun e' he' => hk e' (mem_cons_of_mem _ he')
    simp [Tunnel.isOpen, this]

theorem deviceUp (t : MachineTunnel) : Extends t t.deviceUp :=
  let h := opening t .wgInterface
  ⟨h.journal, h.nextID, h.isOpen, .inr ⟨t.nextID, rfl, le_rfl⟩⟩

theorem clientUp (t : MachineTunnel) : Extends t t.clientUp :=
  let h := opening t .mgmClient
  ⟨h.journal, h.nextID, h.isOpen, .inl rfl⟩

theorem engineUp (t : MachineTunnel) : Extends t t.engineUp :=
  let h := opening t .peerEngine
  ⟨h.journal, h.nextID, h.isOpen, .inl rfl⟩

variable (config : MachineTunnelConfig)

theorem authenticate (a : Attempt) (t : MachineTunnel) :
    Extends t (Tunnel.authenticate config a t).2 := by
  have h := (authenticate_cases config a t).1
  split_ifs at h
  · obtain ⟨t₁, t₂, hq, hb, hq'⟩ := h
    exact ((of_quiet hq).trans (of_brief hb)).trans (of_quiet hq')
  · exact of_quiet h

theorem setup (t : MachineTunnel) (a : Attempt) :
    Extends (Tunnel.authenticate config a t).2 (Tunnel.round config t a) := by
  have hc := connect_cases config a t
  split_ifs at hc
  · have h := (deviceUp (Tunnel.authenticate config a t).2).trans (clientUp _)
    rcases hc with hc | hc | hc
    · exact hc ▸ deviceUp _
    · exact hc ▸ h
    · exact (h.trans (engineUp _)).trans (of_routed hc)
  · exact hc ▸ opening _ _
  · exact hc ▸ of_quiet (refl_of Quiet _)

theorem round (t : MachineTunnel) (a : Attempt) : Extends t (Tunnel.round config t a) :=
  (authenticate config a t).trans (setup config t a)

theorem run (t : MachineTunnel) (attempts : List Attempt) :
    Extends t (attempts.foldl (Tunnel.round config) t) := by
  induction attempts generalizing t with
  | nil => exact ⟨suffix_rfl, le_rfl, fun _ => id, .inl rfl⟩
  | cons a attempts ih => exact (round config t a).trans (ih _)

end Extends

/-- An interface that is open and in no field. -/
structure Lost (i : ℕ) (t : MachineTunnel) : Prop where
  isOpen : isOpen t.journal (.object .wgInterface i)
  notStored : t.wgInterface ≠ some i
  old : i < t.nextID

/-- No later attempt finds it again, … -/
theorem Lost.extends {i : ℕ} {t t' : MachineTunnel} (h : Lost i t) (ht : Extends t t') : Lost i t' where
  isOpen := ht.isOpen i h.isOpen
  notStored hi := by
    rcases ht.stored with heq | ⟨i', hi', hle⟩
    · exact h.notStored (heq ▸ hi)
    · rw [hi] at hi'
      cases hi'
      exact absurd h.old (by omega)
  old := h.old.trans_le ht.nextID

/-- … and `Stop` leaves it open. -/
theorem Lost.cleanup {i : ℕ} (h : Lost i t) (e : Option String) :
    ¬ NoLeak (cleanup e t).journal := by
  intro hn
  have hopen := (isOpen_cleanup e t .wgInterface).mpr ⟨h.notStored, h.isOpen⟩
  rw [hn.closed] at hopen
  cases hopen

/-- An attempt in which every step succeeds, with one peer that routes no network. -/
def healthyAttempt : Attempt where
  managementURL := .ok "https://mgmt.example.com:443"
  loadError := none
  privateKeyError := none
  sshKeyError := none
  setupKeyError := none
  newPrivateKey := .ok "wg-key"
  newSSHKey := .ok "ssh-key"
  reloadError := none
  sealPrivateKeyError := none
  sealSSHKeyError := none
  sealSetupKeyError := none
  saveError := none
  hasMachineCert := true
  mtls := .ok { hasPeerConfig := true, hasNetbirdConfig := true, hasSignal := true }
  setupKeyFormatError := none
  bootstrapClientError := none
  publicKeyError := none
  login := .ok { hasPeerConfig := true, hasNetbirdConfig := true, hasSignal := true }
  register := .ok { hasPeerConfig := true, hasNetbirdConfig := true, hasSignal := true }
  cleanupLoadError := none
  cleanupSaveError := none
  newInterfaceError := none
  createError := none
  upError := none
  parseKeyError := none
  mgmClientError := none
  networkMapError := none
  remotePeers := [{ routeNetworks := [], connects := true }]
  peerEngineError := none
  interfaceByNameError := none

end Netbird.Tunnel
