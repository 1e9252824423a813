/-
The setup key of the machine tunnel over a run.

After a bootstrap over mTLS the setup key is removed from the configuration on disk.  The next
attempt finds none there, takes the one of the YAML file instead, writes it to disk again and
has it ready for a bootstrap that fails over mTLS.

* `keyEvents_round_iff` — an attempt does neither if and only if the YAML file has no key,
  or the attempt gets to neither;
* `keyRetired_iff` — the same over all attempts after an enrolment.
-/
import Netbird.Client.TunnelResources

namespace Netbird.Tunnel

open Command SecureConfig Attempt Except

/-! ### The events of the setup key -/

/-- The setup key was stored or presented. -/
def Event.usesKey : Event → Bool
  | .opened _ => false
  | .closed _ => false
  | .storedSetupKey _ => true
  | .presentedSetupKey _ => true

/-- The events in which the setup key was stored or presented. -/
def MachineTunnel.keyEvents (t : MachineTunnel) : List Event :=
  t.journal.filter Event.usesKey

/-- The configuration on disk has no setup key. -/
def KeyFree (file : Option SecureConfig) : Prop :=
  ∀ c, file = some c → c.encryptedSetupKey = ""

/-- Nothing was stored or presented, and a configuration without a key has got none. -/
structure Discreet (t t' : MachineTunnel) : Prop where
  keyEvents : t'.keyEvents = t.keyEvents
  keyFree : KeyFree t.secureConfig → KeyFree t'.secureConfig

instance : Std.Refl Discreet where
  refl _ := ⟨rfl, id⟩

instance : IsTrans MachineTunnel Discreet where
  trans _ _ _ h h' := ⟨h'.keyEvents.trans h.keyEvents, h'.keyFree ∘ h.keyFree⟩

theorem discreet_of_reads {α : Type} {x : Action α} (h : Ensures (· = ·) x) :
    Ensures Discreet x := by
  intro t
  rw [← h t]
  exact refl_of Discreet t

theorem orFail_discreet (text : String) (e : Option String) : Ensures Discreet (orFail text e) :=
  discreet_of_reads (orFail_reads text e)

theorem require_discreet (b : Bool) (text : String) : Ensures Discreet (require b text) :=
  discreet_of_reads (require_reads b text)

theorem create_discreet (kind : Kind) : Ensures Discreet (create kind) :=
  fun _ => ⟨rfl, id⟩

theorem addRoute_discreet (device : ℕ) (n : RouteNetwork) : Ensures Discreet (addRoute device n) := by
  intro t
  unfold addRoute
  rcases n.parsed with _ | network
  · exact refl_of Discreet t
  · cases n.added <;> exact ⟨rfl, id⟩

theorem connectToRemotePeers_discreet (a : Attempt) :
    Ensures Discreet (connectToRemotePeers a) := by
  refine connectToRemotePeers_ensures fun networks => .bind (.reads _) fun t => ?_
  split
  · exact .fail _
  · exact .fail _
  · exact .bind (orFail_discreet _ _) fun _ => .forM (addRoute_discreet _) _

theorem startPeerEngine_discreet (a : Attempt) (r : BootstrapResult) :
    Ensures Discreet (startPeerEngine a r) := by
  refine .bind (orFail_discreet _ _) fun _ => ?_
  split
  · exact .pure _
  · refine .bind (.mapError _ ?_) fun _ => .bind (orFail_discreet _ _) fun _ =>
      .bind (create_discreet _) fun i => .bind ?_ fun _ =>
        .bind (.attempt (connectToRemotePeers_discreet a)) fun _ => .pure _
    · exact .bind (.reads _) fun _ => .bind (require_discreet _ _) fun _ =>
        .bind (require_discreet _ _) fun _ => require_discreet _ _
    · exact fun _ => ⟨rfl, id⟩

/-- The second half of an attempt has nothing to do with the setup key. -/
theorem setup_discreet (a : Attempt) (r : BootstrapResult) :
    Ensures Discreet (mapError ("WireGuard setup failed: " ++ ·) (setupWireGuardInterface a r) >>=
      fun _ => mapError ("PeerEngine initialization failed: " ++ ·) (initializePeerEngine a r)) := by
  refine .bind (.mapError _ ?_) fun _ => .mapError _ ?_
  · exact .bind (require_discreet _ _) fun _ => .bind (orFail_discreet _ _) fun _ =>
      .bind (orFail_discreet _ _) fun _ => .bind (create_discreet _) fun _ =>
        .bind (orFail_discreet _ _) fun _ => fun _ => ⟨rfl, id⟩
  · exact .bind (orFail_discreet _ _) fun _ => .bind (orFail_discreet _ _) fun _ =>
      .bind (create_discreet _) fun _ => .bind (fun _ => ⟨rfl, id⟩) fun _ =>
        startPeerEngine_discreet a r

theorem round_discreet (config : MachineTunnelConfig) (a : Attempt) (t : MachineTunnel) :
    Discreet (authenticate config a t).2 (round config t a) := by
  unfold round connect
  rcases result_cases (authenticate config a) t with ⟨r, t', h⟩ | ⟨e, t', h⟩
  · rw [bind_of_ok h, h]
    exact setup_discreet a r t'
  · rw [bind_of_error h, h]
    exact refl_of Discreet t'

theorem cleanupSetupKeyAfterMTLS_discreet (a : Attempt) :
    Ensures Discreet (cleanupSetupKeyAfterMTLS a) := by
  refine .bind (.mapError _ (.readsExcept _)) fun c => ?_
  split
  · refine .mapError _ (.bind (orFail_discreet _ _) fun _ => ?_)
    exact fun _ => ⟨rfl, fun _ c' h => by obtain rfl := Option.some.inj h; rfl⟩
  · exact .pure _

/-! ### When the key is stored -/

/-- The attempt gets to write its keys to disk. -/
def Attempt.persists (config : MachineTunnelConfig) (file : Option SecureConfig) (a : Attempt) :
    Bool :=
  match a.managementURL,
    ((Keys.load a (readConfig a.loadError file)).fallback config).generate a with
  | .ok url, .ok k =>
    ((SecureConfig.refresh config url (readConfig a.reloadError file)).withKeys a k).toOption.isSome ∧
      a.saveError = none
  | _, _ => false

variable {file : Option SecureConfig} {a : Attempt}

theorem load_setupKey {e : Option String}
    (h : KeyFree file) : (Keys.load a (readConfig e file)).setupKey = "" := by
  rcases e with _ | e
  · rcases file with _ | c
    · rfl
    · simp [readConfig, Keys.load, h c rfl]
  · rfl

variable {config : MachineTunnelConfig}

/-- With no key on disk, the attempt works with the one of the YAML file, and is to write it to
disk. -/
theorem workingKeys {k : Keys} (h : KeyFree file)
    (hk : ((Keys.load a (readConfig a.loadError file)).fallback config).generate a = .ok k) :
    k.setupKey = config.setupKey ∧ (config.setupKey ≠ "" → k.needsPersist) := by
  have hload : (Keys.load a (readConfig a.loadError file)).setupKey = "" := load_setupKey h
  rw [Keys.generate_setupKey hk]
  by_cases hc : config.setupKey = ""
  · rw [Keys.fallback, if_neg fun hf => hf.2 hc]
    exact ⟨hload.trans hc.symm, fun hne => absurd hc hne⟩
  · rw [Keys.fallback, if_pos ⟨hload, hc⟩] at hk ⊢
    obtain ⟨k₁, h₁, h₂⟩ := bind_eq_ok.mp hk
    refine ⟨rfl, fun _ => ?_⟩
    obtain rfl | ⟨sshKey, rfl⟩ := Keys.make_ok h₂
    · obtain rfl | ⟨wgKey, rfl⟩ := Keys.make_ok h₁ <;> rfl
    · rfl

theorem refresh_setupKey (config : MachineTunnelConfig) (url : String) (e : Option String)
    (h : KeyFree file) : (refresh config url (readConfig e file)).encryptedSetupKey = "" := by
  rcases e with _ | e
  · rcases file with _ | c
    · rfl
    · exact h c rfl
  · rfl

theorem SecureConfig.seal_eq_ok {text : String} {e : Option String} {isDue : Bool}
    {set : SecureConfig → SecureConfig} {c c' : SecureConfig}
    (h : c.seal text e isDue set = .ok c') : c' = if isDue then set c else c := by
  cases isDue
  · exact (ok.inj h).symm
  · rcases e with _ | e
    · exact (ok.inj h).symm
    · cases h

theorem withKeys_setupKey {k : Keys} {c c' : SecureConfig}
    (hc : c.encryptedSetupKey = "") (h : c.withKeys a k = .ok c') :
    c'.encryptedSetupKey = k.setupKey := by
  obtain ⟨c₁, h₁, h⟩ := bind_eq_ok.mp h
  obtain ⟨c₂, h₂, h₃⟩ := bind_eq_ok.mp h
  have hc₂ : c₂.encryptedSetupKey = "" := by
    rw [seal_eq_ok h₂, seal_eq_ok h₁]
    split_ifs <;> exact hc
  rw [seal_eq_ok h₃]
  by_cases hk : k.setupKey = ""
  · simp [hk, hc₂]
  · simp [hk, hc₂, hasSetupKey]

variable {t : MachineTunnel}

/-- `persistKeys` stores the key it is given where there is none, or changes nothing. -/
theorem persistKeys_keys (config : MachineTunnelConfig) (a : Attempt) (url : String) (k : Keys)
    (h : KeyFree t.secureConfig) :
    if ((refresh config url (readConfig a.reloadError t.secureConfig)).withKeys a
        k).toOption.isSome ∧ a.saveError = none then
      (persistKeys config a url k t).2.keyEvents =
          (if k.setupKey = "" then [] else [.storedSetupKey k.setupKey]) ++ t.keyEvents ∧
        ∃ c, (persistKeys config a url k t).2.secureConfig = some c ∧
          c.encryptedSetupKey = k.setupKey
    else (persistKeys config a url k t).2 = t := by
  have hc := refresh_setupKey config url a.reloadError h
  have hload : attempt (loadMachineConfigFrom a.reloadError) t =
      (.ok (readConfig a.reloadError t.secureConfig), t) := rfl
  rw [persistKeys, bind_of_ok hload]
  generalize refresh config url (readConfig a.reloadError t.secureConfig) = c at hc ⊢
  rcases hk : c.withKeys a k with e | c'
  · rfl
  · rcases hs : a.saveError with _ | e
    · have hkey := withKeys_setupKey hc hk
      by_cases hne : k.setupKey = ""
      · simp only [hne, ne_eq, not_true_eq_false, false_and, if_false]
        exact ⟨rfl, c', rfl, hkey.trans hne⟩
      · have hnot : k.setupKey ≠ "" ∧ ¬ c.hasSetupKey := ⟨hne, by simp [hasSetupKey, hc]⟩
        rw [if_pos hnot, if_neg hne]
        exact ⟨rfl, c', rfl, hkey⟩
    · rfl

theorem persists_of_no_key (h : a.setupKey config file = none) :
    a.persists config file = false := by
  unfold setupKey at h
  unfold persists
  rcases hurl : a.managementURL with e | url
  · rfl
  · rcases hk : ((Keys.load a (readConfig a.loadError file)).fallback config).generate a with e | k
    · rfl
    · simp [hurl, hk] at h

/-- When an attempt stores the key: the file has none, the YAML file has one, and the keys can
be written. -/
theorem toMachineConfig_keys (config : MachineTunnelConfig) (a : Attempt)
    (h : KeyFree t.secureConfig) :
    if config.setupKey ≠ "" ∧ a.persists config t.secureConfig then
      (toMachineConfig config a t).2.keyEvents = .storedSetupKey config.setupKey :: t.keyEvents
    else Discreet t (toMachineConfig config a t).2 := by
  rcases hsome : a.setupKey config t.secureConfig with _ | key
  · obtain ⟨e, he⟩ := toMachineConfig_of_error hsome
    rw [he, if_neg (by simp [persists_of_no_key hsome])]
    exact refl_of Discreet t
  · unfold setupKey at hsome
    split at hsome
    case h_2 => cases hsome
    case h_1 url k hurl hk =>
      obtain ⟨hkey, hneeds⟩ := workingKeys h hk
      have hp := persistKeys_keys config a url k h
      rw [toMachineConfig_of_ok hurl hk]
      simp only [persists, hurl, hk, decide_eq_true_eq]
      by_cases hc : config.setupKey = ""
      · rw [if_neg fun h' => h'.1 hc]
        split_ifs with hpersist
        · split_ifs at hp with hok hke
          · refine ⟨hp.1, fun _ c' hc' => ?_⟩
            obtain ⟨c, hc₁, hc₂⟩ := hp.2
            rw [hc₁] at hc'
            obtain rfl := Option.some.inj hc'
            rw [hc₂, hkey, hc]
          · exact absurd (hkey.trans hc) hke
          · rw [hp]
            exact refl_of Discreet t
        · exact refl_of Discreet t
      · rw [if_pos (hneeds hc)]
        rw [hkey] at hp
        split_ifs at hp with hok
        · rw [if_pos ⟨hc, hok⟩]
          exact hp.1
        · rw [if_neg fun h' => hok h'.2, hp]
          exact refl_of Discreet t

/-! ### When the key is presented -/

/-- The login on the bootstrap's client asks for a registration. -/
def Attempt.needsRegistration (a : Attempt) : Bool :=
  match a.publicKeyError, a.login with
  | none, .error e => e.permissionDenied
  | _, _ => false

/-- The attempt registers with the setup key. -/
def Attempt.registers (config : MachineTunnelConfig) (file : Option SecureConfig) (a : Attempt) :
    Bool :=
  a.opensClient config file && a.needsRegistration

theorem loginOrRegister_keys (a : Attempt) (m : MachineConfig) (t : MachineTunnel) :
    (loginOrRegister a m t).2.secureConfig = t.secureConfig ∧ (loginOrRegister a m t).2.keyEvents =
        (if a.needsRegistration then [.presentedSetupKey m.setupKey] else []) ++ t.keyEvents := by
  unfold needsRegistration loginOrRegister
  rcases a.publicKeyError with _ | e
  · rcases a.login with e | r
    · cases he : e.permissionDenied
      · simp [bind, orFail, pure, he, fail]
      · cases a.register <;>
          simp [bind, orFail, pure, he, record, update, mapError, ofResult,
            MachineTunnel.keyEvents] <;> rfl
    · exact ⟨rfl, rfl⟩
  · exact ⟨rfl, rfl⟩

/-- When the bootstrap presents the key. -/
theorem bootstrap_keys {m : MachineConfig}
    (hm : m.machineCertEnabled = config.machineCertEnabled) (t : MachineTunnel) :
    (bootstrap a m t).2.secureConfig = t.secureConfig ∧ (bootstrap a m t).2.keyEvents =
        (if (m.setupKey ≠ "" ∧ a.mtlsResponse config = none ∧ a.setupKeyFormatError = none ∧
            a.bootstrapClientError = none) ∧ a.needsRegistration
          then [.presentedSetupKey m.setupKey] else []) ++ t.keyEvents := by
  obtain ⟨ho, hb⟩ | ⟨ho, hb, -⟩ := bootstrap_cases (a := a) hm t
  · obtain ⟨hfile, hkeys⟩ := loginOrRegister_keys a m (t.opening .mgmClient)
    rw [hb]
    refine ⟨hfile, hkeys.trans ?_⟩
    simp only [ho, ne_eq, not_false_eq_true, and_self, true_and]
    rfl
  · rw [hb, if_neg fun h => ho h.1]
    exact ⟨rfl, rfl⟩

/-! ### Over a run -/

theorem setupKey_of_keyFree {key : String} (h : KeyFree file)
    (hkey : a.setupKey config file = some key) : key = config.setupKey := by
  unfold setupKey at hkey
  split at hkey
  case h_1 url k hurl hk =>
    rw [← Option.some.inj hkey]
    exact (workingKeys h hk).1
  case h_2 => cases hkey

/-- **What an attempt does with the key**, from a configuration on disk without one. -/
theorem round_keyEvents (config : MachineTunnelConfig) (a : Attempt) (h : KeyFree t.secureConfig) :
    (round config t a).keyEvents =
        (if a.registers config t.secureConfig then [.presentedSetupKey config.setupKey] else []) ++
        ((if config.setupKey ≠ "" ∧ a.persists config t.secureConfig
          then [.storedSetupKey config.setupKey] else []) ++ t.keyEvents) ∧
      (¬ (config.setupKey ≠ "" ∧ a.persists config t.secureConfig) →
        KeyFree (round config t a).secureConfig) := by
  have hround := round_discreet config a t
  have hstore := toMachineConfig_keys config a h
  unfold registers opensClient
  rcases hkey : a.setupKey config t.secureConfig with _ | key
  · obtain ⟨e, he⟩ := authenticate_of_no_key hkey
    rw [he] at hround
    rw [hround.keyEvents, if_neg (by simp), if_neg (by simp [persists_of_no_key hkey])]
    exact ⟨rfl, fun _ => hround.keyFree h⟩
  · obtain ⟨m, t₁, htm, -, hmkey, hm⟩ := toMachineConfig_of_key hkey
    obtain rfl : key = config.setupKey := setupKey_of_keyFree h hkey
    have hauth := (authenticate_of_ok (cleanupSetupKeyAfterMTLS_discreet a) htm).1
    obtain ⟨hfile, hboot⟩ := bootstrap_keys (a := a) hm t₁
    have hend : Discreet (bootstrap a m t₁).2 (round config t a) := trans_of Discreet hauth hround
    rw [htm] at hstore
    rw [hmkey] at hboot
    simp only [Bool.and_eq_true, decide_eq_true_eq]
    rw [hend.keyEvents, hboot]
    split_ifs at hstore with hs
    · rw [hstore, if_pos hs]
      exact ⟨rfl, fun hn => absurd hs hn⟩
    · rw [hstore.keyEvents, if_neg hs]
      exact ⟨rfl, fun _ => hend.keyFree (hfile ▸ hstore.keyFree h)⟩

/-- The attempt leaves the key of the YAML file alone: it gets neither to writing its keys nor
to registering with it. -/
def LeavesKey (config : MachineTunnelConfig) (t : MachineTunnel) (a : Attempt) : Prop :=
  config.setupKey = "" ∨
    a.persists config t.secureConfig = false ∧ a.registers config t.secureConfig = false

theorem keyEvents_round_iff (config : MachineTunnelConfig) (a : Attempt)
    (h : KeyFree t.secureConfig) :
    (round config t a).keyEvents = t.keyEvents ↔ LeavesKey config t a := by
  have hregisters : config.setupKey = "" → a.registers config t.secureConfig = false := by
    intro hc
    unfold registers opensClient
    rcases hkey : a.setupKey config t.secureConfig with _ | key
    · rfl
    · simp [setupKey_of_keyFree h hkey, hc]
  rw [(round_keyEvents config a h).1, LeavesKey, ← List.append_assoc, List.append_left_eq_self,
    List.append_eq_nil_iff]
  by_cases hc : config.setupKey = ""
  · simp [hc, hregisters hc]
  · cases a.persists config t.secureConfig <;> cases a.registers config t.secureConfig <;>
      simp [hc]

/-- The journal only grows, and so do the events of the key. -/
theorem keyEvents_suffix_run (config : MachineTunnelConfig) (t : MachineTunnel)
    (attempts : List Attempt) : t.keyEvents <:+ (attempts.foldl (round config) t).keyEvents :=
  (Extends.run config t attempts).journal.filter _

theorem keyEvents_run_iff (config : MachineTunnelConfig)
    (h : KeyFree t.secureConfig) (attempts : List Attempt) :
    (attempts.foldl (round config) t).keyEvents = t.keyEvents ↔
      Runs.Along (round config) (LeavesKey config) t attempts := by
  induction attempts generalizing t with
  | nil => exact ⟨fun _ => trivial, fun _ => rfl⟩
  | cons a attempts ih =>
    have hfree : LeavesKey config t a → KeyFree (round config t a).secureConfig := by
      rintro (hc | hc)
      · exact (round_keyEvents config a h).2 fun h' => h'.1 hc
      · exact (round_keyEvents config a h).2 fun h' => by simp [hc.1] at h'
    constructor
    · intro heq
      -- Between equal ends nothing was added.
      have h₁ := keyEvents_suffix_run config t [a]
      have h₂ := keyEvents_suffix_run config (round config t a) attempts
      have hlen : (round config t a).keyEvents.length ≤ t.keyEvents.length := by
        rw [← heq]
        exact h₂.length_le
      have hstep : (round config t a).keyEvents = t.keyEvents :=
        (h₁.eq_of_length (le_antisymm h₁.length_le hlen)).symm
      have hleaves := (keyEvents_round_iff config a h).mp hstep
      exact ⟨hleaves, (ih (hfree hleaves)).mp (heq.trans hstep.symm)⟩
    · rintro ⟨hleaves, halong⟩
      exact ((ih (hfree hleaves)).mpr halong).trans ((keyEvents_round_iff config a h).mpr hleaves)

/-- The attempt's bootstrap succeeds over mTLS, and afterwards the configuration on disk has no
setup key. -/
def Enrols (config : MachineTunnelConfig) (t : MachineTunnel) (a : Attempt) : Prop :=
  (∃ r, (authenticate config a t).1 = .ok r ∧ r.authMethod = .mtls) ∧
    KeyFree (round config t a).secureConfig

/-- After an enrolment no attempt stores or presents a setup key. -/
def KeyRetired (config : MachineTunnelConfig) (file : Option SecureConfig)
    (attempts : List Attempt) : Prop :=
  ∀ before a later, attempts = before ++ a :: later →
    Enrols config (connectionLoop config file before) a →
      (connectionLoop config file attempts).keyEvents =
        (connectionLoop config file (before ++ [a])).keyEvents

/-- **The setup key is retired after an enrolment** if and only if the YAML file has none, or no
later attempt gets to writing its keys or to registering with it. -/
theorem keyRetired_iff (config : MachineTunnelConfig) (file : Option SecureConfig)
    (attempts : List Attempt) : KeyRetired config file attempts ↔
      ∀ before a later, attempts = before ++ a :: later →
        Enrols config (connectionLoop config file before) a →
          Runs.Along (round config) (LeavesKey config)
            (connectionLoop config file (before ++ [a])) later := by
  have hsplit : ∀ before a later, connectionLoop config file (before ++ a :: later) =
      later.foldl (round config) (connectionLoop config file (before ++ [a])) := by
    intro before a later
    simp [connectionLoop]
  have hfree : ∀ before a, Enrols config (connectionLoop config file before) a →
      KeyFree (connectionLoop config file (before ++ [a])).secureConfig := by
    intro before a h
    simpa [connectionLoop] using h.2
  constructor
  · rintro h before a later rfl henrols
    rw [← keyEvents_run_iff config (hfree before a henrols), ← hsplit]
    exact h before a later rfl henrols
  · rintro h before a later rfl henrols
    rw [hsplit, keyEvents_run_iff config (hfree before a henrols)]
    exact h before a later rfl henrols

/-- A tunnel with a machine certificate whose YAML file still has the setup key. -/
def leftoverConfig : MachineTunnelConfig where
  setupKey := "8d9bd2f0-4f36-4b0e-9a6c-0f4a1f0c5f11"
  machineCertEnabled := true
  machineCertThumbprint := ""

/-- The second attempt writes the key to disk again. -/
theorem leftover_key_returns : ¬ KeyRetired leftoverConfig none [healthyAttempt, healthyAttempt] := by
  intro h
  have hkeys := h [] healthyAttempt [healthyAttempt] rfl ?_
  · exact absurd hkeys (by decide)
  · refine ⟨⟨_, rfl, rfl⟩, fun c hc => ?_⟩
    have hkey : (round leftoverConfig (connectionLoop leftoverConfig none [])
        healthyAttempt).secureConfig.map (·.encryptedSetupKey) = some "" := by decide
    rw [hc] at hkey
    exact Option.some.inj hkey

end Netbird.Tunnel
