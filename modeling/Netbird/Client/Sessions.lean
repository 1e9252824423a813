/-
What a session of a routed network holds, operation by operation.

`Session.Sound` is what is known of every session, as long as those that are over hold
nothing.  `Session.Keeps` says of an operation exactly when a session that is over after it
holds nothing, and that the session is sound again if it does.

* `Sound.released_removeRoute`, `Sound.released_stop` — nothing is left exactly if what the
  handler holds was covered.
-/
import Netbird.Client.RouteHandler

namespace Netbird.Client.Session

open Handler List Multiset

variable (s : Session)

/-! ### What a session holds -/

/-- The handler is no longer active and its watcher has been stopped. -/
def Over : Prop := s.active = false ∧ s.running = false

/-- A session that is over holds no references. -/
def Released : Prop :=
  s.Over → s.handler.routeRefs = 0 ∧ s.handler.allowedIPsRefs = 0

/-- What `RemoveRoute` and `Stop` are going to give back covers what the handler holds.  For
static handlers this is always so. -/
def Covered : Prop :=
  match s.handler.type with
  | .static => True
  | .dynamic => s.handler.routeRefs ≤ s.handler.prefixes ∧ s.handler.allowedIPsRefs = 0
  | .dnsInterceptor =>
    if s.active then
      s.handler.routeRefs ≤ s.handler.prefixes ∧
        s.handler.allowedIPsRefs ≤
          if s.handler.currentPeerKey ≠ "" then (s.handler.prefixes : Multiset Prefix) else 0
    else
      s.handler.routeRefs = 0 ∧
        s.handler.allowedIPsRefs ≤
          if s.watcher.currentChosen.isSome then (s.handler.prefixes : Multiset Prefix) else 0

/-- What holds of every session as long as those that are over were covered. -/
structure Sound : Prop where
  started : s.handler.started = s.active
  routes_static : s.handler.type = .static →
    s.handler.routeRefs ≤ if s.active then {s.handler.route.network} else 0
  allowedIPs_static : s.handler.type = .static →
    s.handler.allowedIPsRefs ≤
      if s.running ∧ s.watcher.currentChosen.isSome then {s.handler.route.network} else 0
  dynamic : s.handler.type = .dynamic → s.active = false → s.handler.domains = ∅
  idle : s.active = true → s.running = false → s.watcher = Watcher.new
  released : s.Released

/-- The session an operation leaves is released exactly under the condition, and then sound. -/
def Keeps (C : Prop) : Prop := (s.Released ↔ C) ∧ (s.Released → s.Sound)

variable {s}

theorem Sound.keeps {C : Prop} (h : s.Sound) (hC : C) : s.Keeps C :=
  ⟨iff_of_true h.released hC, fun _ => h⟩

theorem prefixes_of_domains {h : Handler} (hd : h.domains = ∅) : h.prefixes = [] := by
  rw [prefixes, hd]
  rfl

theorem Sound.new (type : HandlerType) (rt : Route) : (Session.new type rt).Sound where
  started := by cases type <;> rfl
  routes_static := by
    cases type <;> simp [Session.new, Handler.new, Handler.addRoute]
  allowedIPs_static := by cases type <;> simp [Session.new, Handler.new, Handler.addRoute]
  dynamic := by simp [Session.new]
  idle := fun _ _ => rfl
  released := fun h => absurd h.1 (by simp [Session.new])

/-! ### Removing and stopping -/

@[simp] theorem removeRoute_active : s.removeRoute.active = false := by
  rw [removeRoute]
  split
  · rfl
  · simpa using ‹¬ s.active = true›

@[simp] theorem removeRoute_running : s.removeRoute.running = s.running := by
  rw [removeRoute]
  split <;> rfl

@[simp] theorem stop_active : s.stop.active = s.active := by
  rw [stop]
  split
  · split <;> rfl
  · rfl

@[simp] theorem stop_running : s.stop.running = false := by
  rw [stop]
  split
  · split <;> rfl
  · simpa using ‹¬ s.running = true›

/-- Without a watcher, `RemoveRoute` gives back everything exactly if it is covered. -/
theorem Sound.released_removeRoute (h : s.Sound) (hactive : s.active = true)
    (hrunning : s.running = false) : s.removeRoute.Released ↔ s.Covered := by
  have hover : s.removeRoute.Over := ⟨removeRoute_active, removeRoute_running.trans hrunning⟩
  rw [Released, forall_prop_of_true hover, removeRoute, if_pos hactive, Covered, Handler.removeRoute]
  cases htype : s.handler.type with
  | static =>
    have hroutes := h.routes_static htype
    have hallowed := h.allowedIPs_static htype
    rw [if_pos hactive] at hroutes
    rw [if_neg (by simp [hrunning])] at hallowed
    simp only [tsub_eq_zero_iff_le, iff_true]
    exact ⟨hroutes, le_zero.mp hallowed⟩
  | dynamic => simp only [tsub_eq_zero_iff_le]
  | dnsInterceptor =>
    simp only [hactive, if_true, tsub_eq_zero_iff_le]
    split_ifs with hkey
    · simp only [tsub_eq_zero_iff_le]
    · simp only [le_zero]

/-- Stopping the watcher of a handler that was removed gives back the rest exactly if that is
covered. -/
theorem Sound.released_stop (h : s.Sound) (hactive : s.active = false)
    (hrunning : s.running = true) : s.stop.Released ↔ s.Covered := by
  have hover : s.stop.Over := ⟨stop_active.trans hactive, stop_running⟩
  rw [Released, forall_prop_of_true hover, stop, if_pos hrunning, Covered]
  cases htype : s.handler.type with
  | static =>
    have hroutes := h.routes_static htype
    have hallowed := h.allowedIPs_static htype
    rw [if_neg (by simp [hactive]), le_zero] at hroutes
    rcases hchosen : s.watcher.currentChosen with _ | rt
    · rw [if_neg (by simp [hchosen]), le_zero] at hallowed
      simp [hroutes, hallowed]
    · rw [if_pos (by simp [hrunning, hchosen])] at hallowed
      simp only [removeAllowedIPs, htype, tsub_eq_zero_iff_le, iff_true]
      exact ⟨hroutes, hallowed⟩
  | dynamic =>
    have hempty := prefixes_of_domains (h.dynamic htype hactive)
    rcases hchosen : s.watcher.currentChosen with _ | rt
    · simp [hempty]
    · simp [removeAllowedIPs, htype, hempty]
  | dnsInterceptor =>
    rcases hchosen : s.watcher.currentChosen with _ | rt
    · simp [hactive]
    · simp [removeAllowedIPs, htype, hactive, tsub_eq_zero_iff_le]

/-- `RemoveRoute` neither loses nor gains cover. -/
theorem covered_removeRoute : s.removeRoute.Covered ↔ s.Covered := by
  rw [removeRoute]
  by_cases hactive : s.active = true
  · rw [if_pos hactive, Covered, Covered]
    cases htype : s.handler.type with
    | static => simp [Handler.removeRoute, htype]
    | dynamic =>
      simp [Handler.removeRoute, htype, prefixes_of_domains, tsub_eq_zero_iff_le]
    | dnsInterceptor =>
      by_cases hkey : s.handler.currentPeerKey ≠ "" <;>
        simp [Handler.removeRoute, htype, prefixes_of_domains, tsub_eq_zero_iff_le, hactive, hkey]
  · rw [if_neg hactive]

theorem Sound.removeRoute (h : s.Sound) (hreleased : s.removeRoute.Released) :
    s.removeRoute.Sound := by
  by_cases hactive : s.active = true
  · refine ⟨?_, ?_, ?_, ?_, by simp, hreleased⟩ <;> rw [Session.removeRoute, if_pos hactive]
    · cases htype : s.handler.type <;> simp [Handler.removeRoute, htype]
    · intro htype
      rw [removeRoute_type] at htype
      have hroutes := h.routes_static htype
      rw [if_pos hactive] at hroutes
      simp only [Handler.removeRoute, htype]
      exact (tsub_eq_zero_iff_le.mpr hroutes).le
    · intro htype
      rw [removeRoute_type] at htype
      simpa [Handler.removeRoute, htype] using h.allowedIPs_static htype
    · intro htype _
      rw [removeRoute_type] at htype
      simp [Handler.removeRoute, htype]
  · rwa [Session.removeRoute, if_neg hactive]

theorem Sound.stop (h : s.Sound) (hactive : s.active = false) (hreleased : s.stop.Released) :
    s.stop.Sound := by
  by_cases hrunning : s.running = true
  · have hzero := hreleased ⟨stop_active.trans hactive, stop_running⟩
    have hsame : s.handler.SameRoutes s.stop.handler := by
      rw [Session.stop, if_pos hrunning]
      split
      · exact ⟨rfl, rfl, rfl, rfl, rfl⟩
      · exact sameRoutes_remove
    refine ⟨?_, fun _ => ?_, fun _ => ?_, fun ht _ => ?_, fun ha => ?_, hreleased⟩
    · rw [stop_active, ← h.started, hsame.started]
    · rw [hzero.1]
      exact zero_le _
    · rw [hzero.2]
      exact zero_le _
    · rw [hsame.domains]
      exact h.dynamic (hsame.type ▸ ht) hactive
    · rw [stop_active, hactive] at ha
      cases ha
  · rwa [Session.stop, if_neg hrunning]

/-! ### Events of a watcher -/

/-- The recalculation gives a peer the allowed IPs of the network. -/
def addsAllowedIPs (s : Session) (best : Option (Route × ConnStatus)) : Bool :=
  match best with
  | none => false
  | some (rt, status) => !s.watcher.shouldSkipRecalculation rt status

/-- A recalculation after the end of the session adds nothing. -/
def Harmless (s : Session) (best : Option (Route × ConnStatus)) : Prop :=
  s.Over → s.addsAllowedIPs best = true →
    s.handler.type ≠ .static ∧ s.handler.prefixes = []

variable {best : Option (Route × ConnStatus)}

theorem Sound.withAllowedIPs (h : s.Sound) {handler : Handler} {w : Watcher}
    (hsame : s.handler.SameRoutes handler)
    (hstatic : s.handler.type = .static → handler.allowedIPsRefs ≤
      if s.running ∧ w.currentChosen.isSome then {s.handler.route.network} else 0)
    (hidle : s.active = true → s.running = false → w = Watcher.new)
    (hreleased : s.Over → handler.allowedIPsRefs = 0) :
    Sound { s with handler := handler, watcher := w } where
  started := hsame.started.trans h.started
  routes_static := fun ht => by
    simpa only [hsame.routeRefs, hsame.route] using h.routes_static (hsame.type ▸ ht)
  allowedIPs_static := fun ht => by
    simpa only [hsame.route] using hstatic (hsame.type ▸ ht)
  dynamic := fun ht ha => hsame.domains.trans (h.dynamic (hsame.type ▸ ht) ha)
  idle := hidle
  released := fun hover => ⟨hsame.routeRefs.trans (h.released hover).1, hreleased hover⟩

/-- The handler after the old chosen peer, if there is one, lost its allowed IPs. -/
def withoutChosen (s : Session) : Handler :=
  if s.watcher.currentChosen.isSome then s.handler.removeAllowedIPs else s.handler

theorem withoutChosen_sameRoutes : s.handler.SameRoutes s.withoutChosen := by
  rw [withoutChosen]
  split
  · exact sameRoutes_remove
  · exact ⟨rfl, rfl, rfl, rfl, rfl⟩

theorem withoutChosen_le : s.withoutChosen.allowedIPsRefs ≤ s.handler.allowedIPsRefs := by
  rw [withoutChosen]
  split
  · exact removeAllowedIPs_le
  · exact le_rfl

/-- A static handler holds no allowed IP without a chosen peer. -/
theorem Sound.withoutChosen_static (h : s.Sound) (htype : s.handler.type = .static) :
    s.withoutChosen.allowedIPsRefs = 0 := by
  have hallowed := h.allowedIPs_static htype
  rw [withoutChosen]
  rcases hchosen : s.watcher.currentChosen with _ | rt
  · rw [if_neg (by simp [hchosen])] at hallowed
    simpa using hallowed
  · simp only [Option.isSome_some, if_true, removeAllowedIPs, htype, tsub_eq_zero_iff_le]
    refine hallowed.trans ?_
    split
    · exact le_rfl
    · exact zero_le _

theorem recalculateRoutes_cases (s : Session) (best : Option (Route × ConnStatus)) :
    (s.recalculateRoutes best = s ∧ s.addsAllowedIPs best = false) ∨
    (∃ w, s.recalculateRoutes best = { s with handler := s.withoutChosen, watcher := w } ∧
      w.currentChosen = none ∧ s.watcher.currentChosen.isSome ∧ s.addsAllowedIPs best = false) ∨
    (∃ w rt, s.recalculateRoutes best =
        { s with handler := s.withoutChosen.addAllowedIPs rt.peer, watcher := w } ∧
      w.currentChosen = some rt ∧ s.addsAllowedIPs best = true ∧ best.isSome) := by
  match best with
  | none =>
    rw [recalculateRoutes]
    rcases hchosen : s.watcher.currentChosen with _ | rt
    · exact .inl ⟨rfl, rfl⟩
    · exact .inr (.inl ⟨_, by rw [withoutChosen, hchosen]; rfl, rfl, rfl, rfl⟩)
  | some (rt, status) =>
    by_cases hskip : s.watcher.shouldSkipRecalculation rt status = true
    · exact .inl ⟨if_pos hskip, by simp [addsAllowedIPs, hskip]⟩
    · exact .inr (.inr ⟨_, rt, if_neg hskip, rfl, by simp [addsAllowedIPs, hskip], rfl⟩)

theorem Sound.released_recalculate (h : s.Sound) :
    (s.recalculateRoutes best).Released ↔ s.Harmless best := by
  obtain ⟨hs, hadds⟩ | ⟨w, hs, -, -, hadds⟩ | ⟨w, rt, hs, -, hadds, -⟩ :=
    recalculateRoutes_cases s best
  · simp [hs, Harmless, hadds, h.released]
  · simp only [hs, Harmless, hadds, Bool.false_eq_true, false_imp_iff, implies_true, iff_true]
    intro hover
    obtain ⟨hroutes, hallowed⟩ := h.released hover
    exact ⟨withoutChosen_sameRoutes.routeRefs.trans hroutes,
      le_zero.mp (withoutChosen_le.trans hallowed.le)⟩
  · rw [hs]
    refine forall_congr' fun hover => ?_
    obtain ⟨hroutes, hallowed⟩ := h.released hover
    have hzero : s.withoutChosen.allowedIPsRefs = 0 :=
      le_zero.mp (withoutChosen_le.trans hallowed.le)
    have hsame : s.withoutChosen.SameRoutes (s.withoutChosen.addAllowedIPs rt.peer) :=
      sameRoutes_add
    rw [hsame.routeRefs, withoutChosen_sameRoutes.routeRefs, addAllowedIPs_eq_zero,
      withoutChosen_sameRoutes.type, withoutChosen_sameRoutes.prefixes]
    simp [hroutes, hzero, hadds]

theorem Sound.recalculate (h : s.Sound) (heligible : s.watcher.Eligible best = true)
    (hreleased : (s.recalculateRoutes best).Released) : (s.recalculateRoutes best).Sound := by
  -- a watcher that was not started has no routes to choose from
  have hnew : s.watcher = Watcher.new → s.watcher.currentChosen = none ∧ best = none := by
    intro hw
    rw [hw] at heligible ⊢
    refine ⟨rfl, ?_⟩
    match best with
    | none => rfl
    | some (rt, status) => simp [Watcher.Eligible, Watcher.new] at heligible
  obtain ⟨hs, -⟩ | ⟨w, hs, hw, hchosen, -⟩ | ⟨w, rt, hs, hw, -, hbest⟩ :=
    recalculateRoutes_cases s best
  · rwa [hs]
  · rw [hs] at hreleased ⊢
    refine h.withAllowedIPs withoutChosen_sameRoutes (fun htype => ?_) (fun ha hr => ?_)
      (fun hover => (hreleased hover).2)
    · exact (h.withoutChosen_static htype).le.trans (zero_le _)
    · simp [(hnew (h.idle ha hr)).1] at hchosen
  · rw [hs] at hreleased ⊢
    refine h.withAllowedIPs (withoutChosen_sameRoutes.trans sameRoutes_add)
      (fun htype => ?_) (fun ha hr => ?_) (fun hover => (hreleased hover).2)
    · cases hrunning : s.running with
      | true =>
        have htype' := withoutChosen_sameRoutes.type.trans htype
        simp [addAllowedIPs, htype', hw, h.withoutChosen_static htype,
          withoutChosen_sameRoutes.route]
      | false =>
        cases hactive : s.active
        · exact (hreleased ⟨hactive, hrunning⟩).2.le.trans (zero_le _)
        · simp [(hnew (h.idle hactive hrunning)).2] at hbest
    · simp [(hnew (h.idle ha hr)).2] at hbest

theorem receive_cases (s : Session) (i : ℕ) : (s.receive i).1 = s ∨ (s.watcher.pending ≠ [] ∧
      ∃ w : Watcher, (s.receive i).1 = { s with watcher := w } ∧
        w.currentChosen = s.watcher.currentChosen ∧
        w.currentChosenStatus = s.watcher.currentChosenStatus) := by
  rw [receive]
  rcases hpending : s.watcher.pending[i]? with _ | update
  · exact .inl rfl
  · refine .inr ⟨ne_nil_of_mem (mem_of_getElem? hpending), ?_⟩
    dsimp only
    split
    · exact ⟨_, rfl, rfl, rfl⟩
    · exact ⟨_, rfl, rfl, rfl⟩

theorem Sound.receive (h : s.Sound) (i : ℕ) : (s.receive i).1.Sound := by
  obtain hs | ⟨hpending, w, hs, hw, -⟩ := receive_cases s i
  · rwa [hs]
  · rw [hs]
    refine h.withAllowedIPs ⟨rfl, rfl, rfl, rfl, rfl⟩ (by simpa only [hw] using h.allowedIPs_static)
      (fun ha hr => ?_) fun hover => (h.released hover).2
    rw [h.idle ha hr] at hpending
    exact absurd rfl hpending

theorem receive_harmless (s : Session) (best : Option (Route × ConnStatus)) (i : ℕ) :
    (s.receive i).1.Harmless best ↔ s.Harmless best := by
  obtain hs | ⟨-, w, hs, hw, hstatus⟩ := receive_cases s i
  · rw [hs]
  · rw [hs]
    cases best <;>
      simp only [Harmless, Over, addsAllowedIPs, Watcher.shouldSkipRecalculation, hw, hstatus]

theorem Sound.peerStateUpdate (h : s.Sound) :
    (s.peerStateUpdate best).Keeps (s.watcher.Eligible best = true → s.Harmless best) := by
  rw [Session.peerStateUpdate]
  split_ifs with heligible
  · rw [forall_prop_of_true heligible]
    exact ⟨h.released_recalculate, h.recalculate heligible⟩
  · exact h.keeps fun he => absurd he heligible

/-- The update that reaches the watcher makes it choose anew. -/
def recalculatesOn (s : Session) (i : ℕ) (best : Option (Route × ConnStatus)) : Bool :=
  (s.receive i).2 && (s.receive i).1.watcher.Eligible best

theorem Sound.routeUpdate (h : s.Sound) (i : ℕ) :
    (s.routeUpdate i best).Keeps (s.recalculatesOn i best = true → s.Harmless best) := by
  have hreceived := h.receive i
  have hsame := receive_harmless s best i
  rw [Session.routeUpdate, recalculatesOn]
  rcases hr : s.receive i with ⟨received, due⟩
  rw [hr] at hreceived hsame
  cases due
  · exact hreceived.keeps nofun
  · simpa only [Bool.true_and, ← hsame] using hreceived.peerStateUpdate

/-! ### DNS -/

variable {newDomains : DomainMap} {domain : String} {newPrefixes : List Prefix}

theorem updateDynamicRoutes_frame (h : Handler) (newDomains : DomainMap) :
    (h.updateDynamicRoutes newDomains).type = h.type ∧
    (h.updateDynamicRoutes newDomains).started = h.started := by
  rw [updateDynamicRoutes]
  split
  · exact ⟨rfl, rfl⟩
  · induction newDomains.entries generalizing h with
    | nil => exact ⟨rfl, rfl⟩
    | cons e es ih => exact ih (h.updateDomain e.1 e.2) ‹_›

/-- The resolver stops with `RemoveRoute`, so it changes no session that is over. -/
theorem Sound.resolve (h : s.Sound) : (s.resolve newDomains).Sound := by
  rw [Session.resolve]
  split
  · next htype =>
    by_cases hactive : s.active = true
    · obtain ⟨htype', hstarted⟩ := updateDynamicRoutes_frame s.handler newDomains
      refine ⟨hstarted.trans h.started, fun hs => ?_, fun hs => ?_, fun _ ha => ?_, h.idle, fun ho => ?_⟩
      · cases htype'.symm.trans hs |>.symm.trans htype
      · cases htype'.symm.trans hs |>.symm.trans htype
      · exact absurd hactive (by simp [show s.active = false from ha])
      · exact absurd hactive (by simp [show s.active = false from ho.1])
    · have hstarted : s.handler.started = false := h.started.trans (Bool.eq_false_of_not_eq_true hactive)
      rw [updateDynamicRoutes, hstarted]
      exact h
  · exact h

theorem Sound.query (h : s.Sound) : s.query.Sound := by
  rw [Session.query, serveDNS]
  split
  · split
    · exact { h with }
    · exact h
  · exact h

/-- The answer brings no new address to an interceptor whose session is over. -/
def NothingNew (s : Session) (domain : String) (newPrefixes : List Prefix) : Prop :=
  s.Over → s.handler.type = .dnsInterceptor → s.handler.queries ≠ 0 →
    ∀ p ∈ newPrefixes, p ∈ (s.handler.domains.lookup domain).getD []

/-- What an answer changes: the references, by what is added and removed, and the domains. -/
theorem updateDomainPrefixes_eq (h : Handler) (domain : String) (newPrefixes : List Prefix) :
    ∃ added removed domains, h.updateDomainPrefixes domain newPrefixes =
        { h.changeRefs added removed with domains := domains } ∧
      (added = [] ↔ ∀ p ∈ newPrefixes, p ∈ (h.domains.lookup domain).getD []) ∧
      ∀ p ∈ added, p ∉ removed := by
  set old := (h.domains.lookup domain).getD [] with hold
  set added := newPrefixes.filter (· ∉ old) with hadded
  set removed := if h.route.keepRoute then [] else old.dedup.filter (· ∉ newPrefixes) with hremoved
  refine ⟨added, removed, (h.updateDomainPrefixes domain newPrefixes).domains, ?_, ?_, ?_⟩
  · rw [updateDomainPrefixes]
    dsimp only [determinePrefixChanges]
    split <;> rfl
  · simp [hadded, filter_eq_nil_iff]
  · intro p hp hr
    rw [hremoved] at hr
    split at hr
    · exact absurd hr not_mem_nil
    · have hnot : p ∉ old := by simpa using (mem_filter.mp hp).2
      exact hnot (mem_dedup.mp (mem_filter.mp hr).1)

theorem add_sub_eq_zero {added removed : List Prefix} (hdisjoint : ∀ p ∈ added, p ∉ removed) :
    (0 : Multiset Prefix) + added - removed = 0 ↔ added = [] := by
  rw [tsub_eq_zero_iff_le]
  constructor
  · intro hle
    refine eq_nil_iff_forall_not_mem.mpr fun p hp => hdisjoint p hp ?_
    exact mem_of_le hle hp
  · rintro rfl
    exact zero_le _

/-- An answer that reaches an interceptor: nothing happens but the end of a query, or the
addresses are taken over. -/
theorem reply_cases (s : Session) (domain : String) (newPrefixes : List Prefix) :
    (∃ n, s.reply domain newPrefixes = { s with handler := { s.handler with queries := n } } ∧
      s.NothingNew domain newPrefixes) ∨ (s.handler.type = .dnsInterceptor ∧ s.handler.queries ≠ 0 ∧
      ∃ n added removed domains, s.reply domain newPrefixes = { s with handler :=
          { { s.handler with queries := n }.changeRefs added removed with domains := domains } } ∧
        (added = [] ↔ ∀ p ∈ newPrefixes, p ∈ (s.handler.domains.lookup domain).getD []) ∧
        ∀ p ∈ added, p ∉ removed) := by
  rw [reply, writeMsg]
  by_cases htype : s.handler.type = .dnsInterceptor
  · rw [if_pos htype]
    by_cases hqueries : s.handler.queries = 0
    · exact .inl ⟨s.handler.queries, by rw [if_pos hqueries], fun _ _ h => absurd hqueries h⟩
    rw [if_neg hqueries]
    by_cases hnew : newPrefixes.length = 0
    · refine .inl ⟨s.handler.queries - 1, by rw [if_pos hnew], fun _ _ _ => ?_⟩
      simp [eq_nil_of_length_eq_zero hnew]
    rw [if_neg hnew]
    obtain ⟨added, removed, domains, heq, hadded, hdisjoint⟩ := updateDomainPrefixes_eq
      { s.handler with queries := s.handler.queries - 1 } domain newPrefixes
    exact .inr ⟨htype, hqueries, s.handler.queries - 1, added, removed, domains, by rw [heq],
      hadded, hdisjoint⟩
  · exact .inl ⟨s.handler.queries, by rw [if_neg htype], fun _ h => absurd h htype⟩

theorem Sound.reply (h : s.Sound) :
    (s.reply domain newPrefixes).Keeps (s.NothingNew domain newPrefixes) := by
  obtain ⟨n, hs, hnothing⟩ | ⟨htype, hqueries, n, added, removed, domains, hs, hadded, hdisjoint⟩ :=
    reply_cases s domain newPrefixes
  · rw [hs]
    exact Sound.keeps { h with } hnothing
  · rw [hs]
    refine ⟨forall_congr' fun hover => ?_, fun hreleased =>
      ⟨h.started, fun ht => ?_, fun ht => ?_, fun ht _ => ?_, h.idle, hreleased⟩⟩
    · obtain ⟨hroutes, hallowed⟩ := h.released hover
      rw [forall_prop_of_true htype, forall_prop_of_true hqueries, ← hadded]
      simp only [changeRefs, hroutes, hallowed, add_sub_eq_zero hdisjoint]
      refine and_iff_left_of_imp fun hnil => ?_
      split
      · exact (add_sub_eq_zero hdisjoint).mpr hnil
      · rfl
    all_goals cases htype.symm.trans ht

end Netbird.Client.Session
