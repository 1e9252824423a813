/-
What earlier updates leave in the DNS server.

An update takes the handlers of the one before out of the chain by a map keyed by handler ID.  All
local zones share one handler, so the map knows the last of them only, and the others stay.  The
same handler is stopped with every update that replaces it, which cancels the context it asks the
outside under, for good.

* `Described.run` — after any calls that succeed the server is what its history says;
* `historyFree_iff` — when it is like a new server that was given the last update only.
-/
import Netbird.Dns.Server

namespace Netbird.Dns

open Resolver List Option

/-! ### The history of a server -/

/-- An update that was applied. -/
structure Round where
  wrappers : List HandlerWrapper
  zones : List CustomZone

def Update.round (c : Update) (runtimeIP : List UInt8) : Round where
  wrappers := (buildLocalHandlerUpdate c.config.customZones).1 ++
    upstreamHandlers c.order runtimeIP c.config.nameServerGroups
  zones := (buildLocalHandlerUpdate c.config.customZones).2

structure History where
  service : Service
  lastHash : UInt64
  /-- The updates that were applied, the last one first. -/
  rounds : List Round

/-- An update is applied unless its hash is that of the update before. -/
def History.step (hash : Config → UInt64) (permanent : Bool) (h : History) (c : Update) : History :=
  if h.lastHash = hash c.config then h
  else
    let service := h.service.apply permanent c
    ⟨service, hash c.config, c.round service.runtimeIP :: h.rounds⟩

def Setup.history (setup : Setup) : History := ⟨⟨setup.viaListener, setup.runtimeIP, false⟩, 0, []⟩

def history (hash : Config → UInt64) (setup : Setup) (calls : List Update) : History :=
  calls.foldl (History.step hash setup.permanent) setup.history

def tracked (digest : Digest) : List Round → List HandlerWrapper
  | [] => []
  | u :: _ => (muxUpdateMap digest u.wrappers).wrappers

/-- Every domain that an applied update has registered agrees with its lower case. -/
def History.Consistent (fm : NameMap) (h : History) : Prop :=
  ∀ u ∈ h.rounds, ∀ w ∈ u.wrappers, fm.Consistent w.domain

instance (fm : NameMap) (h : History) : Decidable (h.Consistent fm) :=
  inferInstanceAs (Decidable (∀ u ∈ h.rounds, ∀ w ∈ u.wrappers, fm.Consistent w.domain))

/-- The zones of the last update. -/
def zonesOf : List Round → List CustomZone
  | [] => []
  | u :: _ => u.zones

/-- An update before the last one had a zone, whose handler was then stopped. -/
def wasStopped (rounds : List Round) : Bool := rounds.tail.any (·.zones ≠ [])

section Remains

variable (fm : NameMap) (digest : Digest) (hostDNS : List AddrPort)

/-- The handler remains under the pattern and priority: an update registered it, no later one
registered another, nor put the host's root zone in its place, and unless it is the last update,
its map does not know it. -/
def Remains (rounds : List Round) (k : Key) (v : Name × Handler) : Prop :=
  ∃ later u earlier, rounds = later ++ u :: earlier ∧
    registers fm u.wrappers k = some v ∧
    (∀ w ∈ later, ¬ Knows fm w.wrappers k) ∧
    (later ≠ [] → ¬ Knows fm (tracked digest [u]) k) ∧
    ∀ l₁ w p l₂, later ++ [u] = l₁ ++ w :: p :: l₂ →
      ¬ Restores fm hostDNS (tracked digest [p]) w.wrappers k

variable {fm digest hostDNS} {rounds : List Round} {k : Key} {v : Name × Handler}

theorem not_remains_nil : ¬ Remains fm digest hostDNS [] k v := by
  rintro ⟨later, u, earlier, h, -⟩
  simp at h

theorem mem_tracked {u : Round} {w : HandlerWrapper} (h : w ∈ tracked digest [u]) :
    w ∈ u.wrappers := by
  obtain ⟨e, he, rfl⟩ := mem_map.mp h
  have hlookup : (muxUpdateMap digest u.wrappers).lookup e.1 = some e.2 :=
    AList.mem_lookup_iff.mpr he
  by_cases hk : e.1 ∈ u.wrappers.map fun w => w.handler.id digest
  · obtain ⟨w, hw, -, hstored⟩ := Keyed.exists_lookup_foldl_insert hk
    rwa [Option.some.inj (hlookup.symm.trans hstored)]
  · rw [muxUpdateMap, Keyed.lookup_foldl_insert_of_not_mem hk] at hlookup
    simp at hlookup

theorem knows_of_tracked {u : Round} (h : Knows fm (tracked digest [u]) k) :
    Knows fm u.wrappers k := by
  obtain ⟨w, hw, hfor⟩ := h
  exact ⟨w, mem_tracked hw, hfor⟩

theorem tracked_cons (u : Round) (earlier : List Round) :
    tracked digest (u :: earlier) = tracked digest [u] := rfl

theorem remains_cons_iff {w : Round} : Remains fm digest hostDNS (w :: rounds) k v ↔
      registers fm w.wrappers k = some v ∨
        ¬ Knows fm w.wrappers k ∧ ¬ Knows fm (tracked digest rounds) k ∧
          ¬ Restores fm hostDNS (tracked digest rounds) w.wrappers k ∧
          Remains fm digest hostDNS rounds k v := by
  constructor
  · rintro ⟨later, u, earlier, heq, hreg, hlater, htracked, hroot⟩
    rcases later with _ | ⟨w', later⟩
    · obtain ⟨rfl, -⟩ := cons.inj heq
      exact .inl hreg
    · obtain ⟨rfl, rfl⟩ := cons.inj heq
      have hremains : Remains fm digest hostDNS (later ++ u :: earlier) k v :=
        ⟨later, u, earlier, rfl, hreg, fun w hw => hlater w (mem_cons_of_mem _ hw),
          fun _ => htracked (cons_ne_nil _ _),
          fun l₁ w₁ p l₂ h => hroot (w :: l₁) w₁ p l₂ (congrArg (w :: ·) h)⟩
      refine .inr ⟨hlater w mem_cons_self, ?_, ?_, hremains⟩
      -- the update before the last one is `u` or comes after it
      · rcases later with _ | ⟨p, later⟩
        · exact htracked (cons_ne_nil _ _)
        · exact fun h => hlater p (by simp) (knows_of_tracked h)
      · rcases later with _ | ⟨p, later⟩
        · exact hroot [] w u [] rfl
        · exact hroot [] w p (later ++ [u]) rfl
  · rintro (hreg | ⟨hnew, htracked, hroot, later, u, earlier, rfl, hreg, hlater, hold, hroots⟩)
    · refine ⟨[], w, rounds, rfl, hreg, by simp, by simp, ?_⟩
      intro l₁ w' p l₂ h
      cases l₁ <;> simp at h
    · refine ⟨w :: later, u, earlier, rfl, hreg, ?_, fun _ => ?_, ?_⟩
      · rintro w' (_ | ⟨_, hw'⟩)
        · exact hnew
        · exact hlater w' hw'
      · rcases later with _ | ⟨p, later⟩
        · exact htracked
        · exact hold (cons_ne_nil _ _)
      · intro l₁ w' p l₂ h
        rcases l₁ with _ | ⟨w'', l₁⟩
        · obtain ⟨rfl, hrest⟩ := cons.inj h
          have hp : later ++ u :: earlier = p :: (l₂ ++ earlier) :=
            (append_cons ..).trans (congrArg (· ++ earlier) hrest)
          rwa [hp, tracked_cons] at hroot
        · obtain ⟨rfl, hrest⟩ := cons.inj h
          exact hroots l₁ w' p l₂ hrest

end Remains

/-! ### The entries of the chain -/

/-- What is known of the handlers of an update. -/
structure Round.Regular (u : Round) : Prop where
  managed : ∀ w ∈ u.wrappers, w.handler.Managed
  priority : ∀ w ∈ u.wrappers, w.priority ≠ priorityFallback
  zones : (∃ w ∈ u.wrappers, w.handler = .localResolver) ↔ u.zones ≠ []

theorem Update.regular_round (c : Update) (runtimeIP : List UInt8) :
    (c.round runtimeIP).Regular where
  managed _ hw := (mem_handlers hw).1
  priority _ hw := (mem_handlers hw).2
  zones := by
    simp only [Update.round, buildLocalHandlerUpdate, ne_eq, map_eq_nil_iff]
    constructor
    · rintro ⟨w, hw, hlocal⟩ hnil
      rcases mem_append.mp hw with hw | hw
      · rw [hnil] at hw
        cases hw
      · obtain ⟨e, -, hw⟩ := mem_flatMap.mp hw
        obtain ⟨⟨servers, hupstream⟩, -⟩ := mem_createHandlersForDomainGroup hw
        simp [hupstream] at hlocal
    · intro hne
      obtain ⟨z, hz⟩ := exists_mem_of_ne_nil _ hne
      exact ⟨_, mem_append_left _ (mem_map_of_mem hz), rfl⟩

section Shows

variable (fm : NameMap) (digest : Digest) (hostDNS : List AddrPort)

/-- The handlers for local zones and nameserver groups in the chain are those that remain of the
updates. -/
def Shows (rounds : List Round) (hs : List (HandlerEntry Handler)) : Prop :=
  ∃ r, Has fm r hs ∧ ∀ k p handler, handler.Managed →
    (r k = some (p, handler) ↔ Remains fm digest hostDNS rounds k (p, handler))

variable {fm digest hostDNS} {rounds : List Round} {hs : List (HandlerEntry Handler)}

theorem Shows.new : Shows fm digest hostDNS [] (addHostRootZone fm hostDNS []) := by
  refine ⟨_, Has.nil.addHostRootZone hostDNS, fun k p handler hmanaged => ?_⟩
  refine iff_of_false (fun heq => ?_) not_remains_nil
  split_ifs at heq
  obtain ⟨-, rfl⟩ := Prod.mk.inj (some.inj heq)
  exact hmanaged

/-- Nothing that an update registers is under the key of the fallback handler. -/
theorem not_remains_fallback (hregular : ∀ u ∈ rounds, u.Regular) {v : Name × Handler} :
    ¬ Remains fm digest hostDNS rounds (fallbackKey fm) v := by
  rintro ⟨later, u, earlier, rfl, hreg, -⟩
  obtain ⟨w, hw, -, hkey⟩ := knows_of_registers hreg
  exact (hregular u (by simp)).priority w hw (congrArg Prod.snd hkey)

variable (h : Shows fm digest hostDNS rounds hs)

include h

/-- What the host manager does leaves what remains of the updates alone. -/
theorem Shows.apply (hregular : ∀ u ∈ rounds, u.Regular) (e : HostEffect) :
    Shows fm digest hostDNS rounds (e.apply fm hs) := by
  obtain ⟨r, hr, hremains⟩ := h
  obtain ⟨v, hv, happly⟩ := hr.apply e
  refine ⟨_, happly, fun k p handler hmanaged => ?_⟩
  by_cases hk : k = fallbackKey fm
  · subst hk
    rw [if_pos rfl]
    refine iff_of_false (fun heq => ?_) (not_remains_fallback hregular)
    rcases hv p handler heq with hno | hold
    · exact hno hmanaged
    · exact not_remains_fallback hregular ((hremains _ p handler hmanaged).mp hold)
  · rw [if_neg hk]
    exact hremains k p handler hmanaged

theorem Shows.update {u : Round} (hu : ∀ w ∈ u.wrappers, fm.Consistent w.domain) :
    Shows fm digest hostDNS (u :: rounds)
      (updateChain fm hostDNS (tracked digest rounds) u.wrappers hs) := by
  obtain ⟨r, hr, hremains⟩ := h
  refine ⟨_, hr.updateChain hostDNS (tracked digest rounds) hu,
    fun k p handler hmanaged => ?_⟩
  rw [remains_cons_iff]
  by_cases hroot : Restores fm hostDNS (tracked digest rounds) u.wrappers k
  · -- the host's root zone is there, and no handler of the update
    have hno : ¬ Knows fm u.wrappers k := by
      obtain ⟨-, hroot, rfl⟩ := hroot
      simp only [restoresRoot, decide_eq_true_eq] at hroot
      rintro ⟨w, hw, hfor⟩
      exact absurd (domain_eq_of_isFor_root hfor) (by simpa using all_eq_true.mp hroot.1 w hw)
    rw [if_pos hroot, registers_eq_none_iff.mpr hno]
    constructor
    · intro heq
      obtain ⟨-, rfl⟩ := Prod.mk.inj (some.inj heq)
      exact hmanaged.elim
    · rintro (heq | ⟨-, -, hnot, -⟩)
      · cases heq
      · exact absurd hroot hnot
  · rw [if_neg hroot]
    rcases hreg : registers fm u.wrappers k with _ | v
    · have hno := registers_eq_none_iff.mp hreg
      by_cases htracked : Knows fm (tracked digest rounds) k
      · simp [htracked]
      · simp [hno, htracked, hroot, hremains k p handler hmanaged]
    · simp [knows_of_registers hreg]

/-- An entry of the chain is one that remains. -/
theorem Shows.mem_iff {pattern : Name} {priority : ℤ}
    {handler : Handler} (hmanaged : handler.Managed) :
    (∃ e ∈ hs, e.origPattern = pattern ∧ e.priority = priority ∧ e.handler = handler) ↔
      Remains fm digest hostDNS rounds (fm.folded pattern, priority) (pattern, handler) := by
  obtain ⟨r, hr, hremains⟩ := h
  rw [← hremains _ _ _ hmanaged, hr.registered]
  refine exists_congr fun e => and_congr_right fun _ => ?_
  constructor
  · rintro ⟨rfl, rfl, rfl⟩
    exact ⟨rfl, rfl, rfl⟩
  · rintro ⟨hkey, rfl, rfl⟩
    exact ⟨rfl, congrArg Prod.snd hkey, rfl⟩

end Shows

/-! ### The server and its history -/

section Described

variable (fm : NameMap) (newRR : SimpleRecord → Option RR) (digest : Digest)
  (hash : Config → UInt64)

/-- The server is what its history says. -/
structure Described (setup : Setup) (h : History) (s : DefaultServer) : Prop where
  permanent : s.permanent = setup.permanent
  hostDNS : s.hostDNS = setup.hostDNS
  service : s.service = h.service
  lastHash : s.previousConfigHash = h.lastHash
  mux : s.dnsMuxMap.wrappers = tracked digest h.rounds
  resolver : s.localResolver =
    (Resolver.empty (wasStopped h.rounds)).update fm newRR (zonesOf h.rounds)
  regular : ∀ u ∈ h.rounds, u.Regular
  chain : h.Consistent fm → Shows fm digest setup.hostDNS h.rounds s.handlerChain

variable {fm newRR digest hash}

variable (digest) in
/-- The map keeps one handler of every ID, so the local resolver if it was there. -/
theorem exists_local_tracked (u : Round) : (∃ w ∈ tracked digest [u], w.handler = .localResolver) ↔
      ∃ w ∈ u.wrappers, w.handler = .localResolver := by
  constructor
  · rintro ⟨w, hw, hlocal⟩
    exact ⟨w, mem_tracked hw, hlocal⟩
  · rintro ⟨w, hw, hlocal⟩
    have hid : HandlerID.localResolver ∈ u.wrappers.map fun w => w.handler.id digest :=
      mem_map.mpr ⟨w, hw, by rw [hlocal]; rfl⟩
    obtain ⟨w', -, hid', hlookup⟩ := Keyed.exists_lookup_foldl_insert hid
    refine ⟨w', mem_map.mpr ⟨⟨_, w'⟩, AList.mem_lookup_iff.mp hlookup, rfl⟩, ?_⟩
    cases hhandler : w'.handler with
    | localResolver => rfl
    | upstream domain servers | hostRoot servers | fallback servers => simp [hhandler, Handler.id] at hid'

variable (fm newRR) in
/-- The records and zones of an update do not depend on the context, and the context stays. -/
theorem Resolver.update_empty (stopped : Bool) (zones : List CustomZone) :
    (empty stopped).update fm newRR zones =
      { new.update fm newRR zones with cancelled := stopped } := by
  refine @List.foldl_hom _ _ _ (fun d : Resolver => { d with cancelled := stopped }) _
    (registerZone fm newRR) zones new fun d z => ?_
  refine @List.foldl_hom _ _ _ (fun d : Resolver => { d with cancelled := stopped })
    (registerRecord fm newRR) _ z.records { d with zones := _ } fun d r => ?_
  unfold registerRecord
  split <;> rfl

/-- The resolver is stopped if the update before had a zone. -/
theorem any_tracked_local {rounds : List Round} (hregular : ∀ u ∈ rounds, u.Regular) :
    (tracked digest rounds).any (·.handler = .localResolver) =
      (rounds.head?.any (·.zones ≠ [])) := by
  rcases rounds with _ | ⟨u, earlier⟩
  · rfl
  · have hiff := (exists_local_tracked digest u).trans (hregular u mem_cons_self).zones
    rw [Bool.eq_iff_iff]
    simpa [tracked_cons] using hiff

namespace Described

variable {setup : Setup} {h : History} {s s' : DefaultServer}

theorem new (setup : Setup) :
    Described fm newRR digest setup setup.history (newDefaultServer fm setup) where
  permanent := rfl
  hostDNS := rfl
  service := rfl
  lastHash := rfl
  mux := rfl
  resolver := rfl
  regular _ hu := nomatch hu
  chain _ := .new

variable (hd : Described fm newRR digest setup h s)

include hd

theorem applyConfiguration {c : Update}
    (happly : applyConfiguration fm newRR digest s c = (.ok (), s')) :
    Described fm newRR digest setup
      { service := h.service.apply setup.permanent c
        lastHash := h.lastHash
        rounds := c.round (h.service.apply setup.permanent c).runtimeIP :: h.rounds } s' := by
  unfold Dns.applyConfiguration at happly
  rcases hcheck : checkGroups c.config.nameServerGroups with e | u
  · simp [hcheck] at happly
  · simp only [hcheck, hd.permanent, hd.service, Prod.mk.injEq, true_and] at happly
    subst happly
    have hregular : ∀ u ∈ c.round (h.service.apply setup.permanent c).runtimeIP :: h.rounds,
        u.Regular := by
      rintro u (_ | ⟨_, hu⟩)
      · exact c.regular_round _
      · exact hd.regular u hu
    refine ⟨rfl, hd.hostDNS, rfl, hd.lastHash, rfl, ?_, hregular, ?_⟩
    · -- stopped now, or already
      simp only [updateMux, hd.mux, any_tracked_local hd.regular]
      change (empty _).update fm newRR _ = _
      congr 2
      rw [hd.resolver]
      rcases h.rounds with _ | ⟨u, earlier⟩
      · rfl
      · rw [update_empty]
        by_cases hzones : u.zones = []
        · simp [hzones, wasStopped]
        · simp [hzones, wasStopped, stop, empty]
    · intro hconsistent
      obtain ⟨hround, hrounds⟩ := forall_mem_cons.mp hconsistent
      have hupdate :=
        ((hd.chain hrounds).apply hd.regular (serviceEffect setup.permanent c)).update hround
      rw [← hd.mux] at hupdate
      have happlied := hupdate.apply hregular c.onApply
      simp only [updateMux, hd.hostDNS]
      exact happlied

theorem step {c : Update} (hc : succeed fm newRR digest hash s c = some s') :
    Described fm newRR digest setup (h.step hash setup.permanent c) s' := by
  unfold succeed updateDNSServer at hc
  unfold History.step
  rw [← hd.lastHash]
  by_cases hclosed : c.closed
  · simp [hclosed] at hc
  by_cases hserial : c.serial < s.updateSerial
  · simp [hclosed, hserial] at hc
  split_ifs at hc ⊢ with hhash
  · obtain rfl := some.inj hc
    exact { hd with }
  · rcases happly : Dns.applyConfiguration fm newRR digest s c with ⟨_ | _, s₁⟩
    · simp [happly] at hc
    · simp only [happly] at hc
      obtain rfl := some.inj hc
      exact { hd.applyConfiguration happly with lastHash := rfl }

/-- **After any calls that succeed the server is what its history says.** -/
theorem run {calls : List Update} (hrun : run fm newRR digest hash s calls = some s') :
    Described fm newRR digest setup (calls.foldl (History.step hash setup.permanent) h) s' := by
  induction calls generalizing h s with
  | nil => exact some.inj hrun ▸ hd
  | cons c calls ih =>
    obtain ⟨s₁, hc, hcalls⟩ := Runs.exec_cons_eq_some.mp hrun
    exact ih (hd.step hc) hcalls

end Described

/-! ### Servers that have forgotten their history -/

/-- The servers have the same handlers for local zones and nameserver groups. -/
def SameHandlers (s s' : DefaultServer) : Prop :=
  ∀ pattern priority handler, handler.Managed →
    ((∃ e ∈ s.handlerChain,
        e.origPattern = pattern ∧ e.priority = priority ∧ e.handler = handler) ↔
      ∃ e ∈ s'.handlerChain,
        e.origPattern = pattern ∧ e.priority = priority ∧ e.handler = handler)

/-- The local resolvers give the same answers, whatever the outside says. -/
def SameAnswers (fm : NameMap) (s s' : DefaultServer) : Prop :=
  ∀ out qs, s.localResolver.answers fm out qs = s'.localResolver.answers fm out qs

def Update.within (c env : Update) : Update := { env with serial := c.serial, config := c.config }

/-- The answers of a resolver that may have been stopped. -/
theorem sameAnswers_iff {stopped : Bool} {zones zones' : List CustomZone} :
    (∀ out qs, ((empty stopped).update fm newRR zones).answers fm out qs =
        (new.update fm newRR zones').answers fm out qs) ↔
      (∀ out qs, (new.update fm newRR zones).answers fm out qs =
        (new.update fm newRR zones').answers fm out qs) ∧ (stopped = true → ∀ qs,
        StaysInside fm (new.update fm newRR zones') qs) := by
  cases stopped with
  | false => exact ⟨fun h => ⟨h, fun hf => nomatch hf⟩, fun h => h.1⟩
  | true =>
    have hstopped := update_empty fm newRR true zones
    have hlive : (new.update fm newRR zones').cancelled = false :=
      congrArg cancelled (update_empty fm newRR false zones')
    rw [answers_cancelled_iff (congrArg cancelled hstopped) hlive, hstopped,
      live, ← update_empty]
    exact and_congr_right fun _ => ⟨fun h _ => h, fun h => h rfl⟩

/-- A new server has the handlers of the one update it was given, if it was applied. -/
theorem remains_history_singleton {setup : Setup} {c : Update} {k : Key} {v : Name × Handler} :
    Remains fm digest setup.hostDNS (history hash setup [c]).rounds k v ↔
      ∃ f ∈ (history hash setup [c]).rounds, registers fm f.wrappers k = some v := by
  have hone : ∀ f : Round, Remains fm digest setup.hostDNS [f] k v ↔
      registers fm f.wrappers k = some v := by
    intro f
    rw [remains_cons_iff]
    exact or_iff_left fun h => not_remains_nil h.2.2.2
  simp only [history, foldl_cons, foldl_nil, History.step]
  split_ifs
  · exact iff_of_false not_remains_nil (by rintro ⟨f, hf, -⟩; exact nomatch hf)
  · rw [show setup.history.rounds = [] from rfl, hone]
    simp

variable (fm newRR digest hash) in
/-- **A server that was given a series of updates has the handlers and gives the answers of a new
one that was given the last update only**, if and only if what remains of all the updates is what
the last one registers, the zones that were applied last answer like those of the last update, and
if the local resolver was ever stopped, no question about them leads outside; for domains that
agree with their lower case. -/
theorem historyFree_iff (setup : Setup) (calls : List Update) (last env : Update)
    (hcalls : (history hash setup (calls ++ [last])).Consistent fm)
    (hlast : (history hash setup [last.within env]).Consistent fm) {s fresh : DefaultServer}
    (hrun : run fm newRR digest hash (newDefaultServer fm setup) (calls ++ [last]) = some s)
    (hfresh : run fm newRR digest hash (newDefaultServer fm setup) [last.within env] = some fresh) :
    SameHandlers s fresh ∧ SameAnswers fm s fresh ↔ (∀ pattern priority handler, handler.Managed →
        (Remains fm digest setup.hostDNS (history hash setup (calls ++ [last])).rounds
            (fm.folded pattern, priority) (pattern, handler) ↔
          ∃ f ∈ (history hash setup [last.within env]).rounds,
            registers fm f.wrappers (fm.folded pattern, priority) = some (pattern, handler))) ∧
      (∀ out qs, (Resolver.new.update fm newRR
            (zonesOf (history hash setup (calls ++ [last])).rounds)).answers fm out qs =
          (Resolver.new.update fm newRR
            (zonesOf (history hash setup [last.within env]).rounds)).answers fm out qs) ∧
      (wasStopped (history hash setup (calls ++ [last])).rounds = true → ∀ qs,
        Resolver.StaysInside fm (Resolver.new.update fm newRR
          (zonesOf (history hash setup [last.within env]).rounds)) qs) := by
  have hs := (Described.new setup).run hrun
  have hf := (Described.new setup).run hfresh
  refine and_congr ?_ ?_
  · refine forall₃_congr fun pattern priority handler => imp_congr_right fun hmanaged => ?_
    rw [(hs.chain hcalls).mem_iff hmanaged, (hf.chain hlast).mem_iff hmanaged, ← remains_history_singleton]
    rfl
  · have hstopped : wasStopped ([last.within env].foldl (History.step hash setup.permanent)
        setup.history).rounds = false := by
      simp only [foldl_cons, foldl_nil, History.step]
      split_ifs <;> rfl
    rw [SameAnswers, hs.resolver, hf.resolver, hstopped]
    exact sameAnswers_iff

end Described

/-! ### Two updates -/

def listenerSetup : Setup where
  permanent := false
  viaListener := true
  runtimeIP := []
  hostDNS := []
  memory := fun h => absurd h Bool.false_ne_true
  unset := fun _ => rfl
  hosts := fun _ => rfl

def exampleRecord (name : String) (type : ℕ) (rdata : String) : SimpleRecord :=
  ⟨name.toList, type, defaultClass, 300, rdata.toList⟩

def exampleZone (domain : String) (records : List SimpleRecord) : CustomZone :=
  ⟨domain.toList, records, false, false⟩

def exampleUpdate (serial : ℕ) (zones : List CustomZone) : Update where
  serial := serial
  config := ⟨true, [], zones, 0⟩
  closed := false
  died := false
  found := some [100, 64, 0, 1]
  order := .inOrder
  onService := .keep
  onApply := .keep

/-- Two zones; in the second an alias of a name outside. -/
def twoZones : Update :=
  exampleUpdate 1
    [exampleZone "a." [exampleRecord "x.a." typeA "100.64.0.2"],
      exampleZone "b." [exampleRecord "w.b." typeCNAME "out.c."]]

def oneZone : Update :=
  exampleUpdate 2 [exampleZone "b." [exampleRecord "w.b." typeCNAME "out.c."]]

def exampleRR (r : SimpleRecord) : Option RR :=
  some ⟨r.name, r.type, classINET, r.ttl, 0,
    if r.type = typeCNAME then .cname r.rdata else .other r.rdata⟩

def exampleDigest : Digest := ⟨fun _ _ => 0, by simp⟩

def exampleHash (c : Config) : UInt64 := if c.customZones.length = 2 then 1 else 2

/-- After both updates the handler of the first zone is still there, and the alias of the outside
name is answered with a failure; a new server has neither. -/
theorem zone_and_context_left_behind : ∃ s fresh,
      run .ascii exampleRR exampleDigest exampleHash (newDefaultServer .ascii listenerSetup)
          ([twoZones] ++ [oneZone]) = some s ∧
        run .ascii exampleRR exampleDigest exampleHash (newDefaultServer .ascii listenerSetup)
          [oneZone.within oneZone] = some fresh ∧
        ¬ SameHandlers s fresh ∧ ¬ SameAnswers .ascii s fresh := by
  refine ⟨_, _, rfl, rfl, fun h => ?_, fun h => ?_⟩
  · exact absurd (h "a.".toList priorityLocal .localResolver trivial) (by decide +kernel)
  · have hreply := h (fun _ _ => .ok [[192, 0, 2, 1]]) [⟨"w.b.".toList, typeA, classINET⟩]
    exact absurd hreply (by decide +kernel)

/-- The same zone, before the forwarder's port was changed. -/
def oneZoneBefore : Update := { oneZone with config := { oneZone.config with forwarderPort := 1 } }

def portHash (c : Config) : UInt64 := if c.forwarderPort = 0 then 1 else 2

/-- Any second update that is applied cuts the alias off from the outside. -/
theorem historyFree_iff_oneZone_twice : ∃ s fresh,
      run .ascii exampleRR exampleDigest portHash (newDefaultServer .ascii listenerSetup)
          ([oneZoneBefore] ++ [oneZone]) = some s ∧
        run .ascii exampleRR exampleDigest portHash (newDefaultServer .ascii listenerSetup)
          [oneZone.within oneZone] = some fresh ∧
        ¬ (SameHandlers s fresh ∧ SameAnswers .ascii s fresh) := by
  refine ⟨_, _, rfl, rfl, fun h => ?_⟩
  have hinside := ((historyFree_iff .ascii exampleRR exampleDigest portHash listenerSetup
    [oneZoneBefore] oneZone oneZone (by decide +kernel) (by decide +kernel) rfl rfl).mp h).2.2 (by decide +kernel)
    [⟨"w.b.".toList, typeA, classINET⟩]
  exact absurd hinside.1 (by decide +kernel)

end Netbird.Dns
