/-
The choice among the routes of a network that several peers serve.

`getBestRouteFromStatuses` walks through the routes of a watcher in some order and keeps the one
with the highest score.  Connection, metric, relaying and latency all go into that one number.
The weights leave a gap that 0.01 is small against, so the priorities are respected also when the
current route is kept although another one is slightly better.

The loop uses the empty ID for "none", so it never chooses a route that has it.
-/
import Mathlib.Tactic.Linarith
import Netbird.Client.RouteHandler

namespace Netbird.Client

open List

/-! ### Scores -/

/-- `routerPeerStatus`; the latency is in nanoseconds. -/
structure RouterPeerStatus where
  status : ConnStatus := .idle
  relayed : Bool := false
  latency : ℤ := 0

def maxMetric : ℤ := 9999

/-- The latency that counts: a peer without one, or with more than a second, has 999 ms. -/
def RouterPeerStatus.effectiveLatency (st : RouterPeerStatus) : ℤ :=
  let latency := if st.latency ≠ 0 then st.latency else 999000000
  if latency > 1000000000 then 999000000 else latency

/-- `tempScore`, as an exact number. -/
def score (r : Route) (st : RouterPeerStatus) : ℚ :=
  (if r.metric < maxMetric then ((maxMetric - r.metric : ℤ) : ℚ) * 10 else 0) +
    (1 - (st.effectiveLatency : ℚ) / 1000000000) +
    (if st.status = .connected then 100000 else 0) + if st.relayed then 0 else 1

/-! ### The loop -/

/-- The variables of the loop. -/
structure Choice where
  chosen : String := ""
  chosenStatus : RouterPeerStatus := {}
  chosenScore : ℚ := 0
  currScore : ℚ := 0

/-- The statuses of the routes' peers, by the ID of the route. -/
abbrev RouterPeerStatuses := String → Option RouterPeerStatus

namespace Choice

def choose (c : Choice) (r : Route) (st : RouterPeerStatus) : Choice :=
  { c with chosen := r.id, chosenStatus := st, chosenScore := score r st }

/-- The loop body for a route that is not skipped. -/
def rank (currID : String) (c : Choice) (r : Route) (st : RouterPeerStatus) : Choice :=
  let c := if score r st > c.chosenScore ∨ score r st = c.chosenScore ∧ c.chosen = "" then
    c.choose r st else c
  let c := if c.chosen = "" ∧ currID = "" then c.choose r st else c
  if r.id = currID then { c with currScore := score r st } else c

def consider (statuses : RouterPeerStatuses) (currID : String) (c : Choice) (r : Route) : Choice :=
  match statuses r.id with
  | none => c
  | some st => if st.status = .connecting then c else c.rank currID r st

/-- The switch after the loop. -/
def result (c : Choice) (currID : String) : String × RouterPeerStatus :=
  if c.chosen = "" then (c.chosen, c.chosenStatus)
  else if c.chosen ≠ currID ∧ c.currScore ≠ 0 ∧ c.currScore + 1 / 100 > c.chosenScore then
    (currID, c.chosenStatus)
  else (c.chosen, c.chosenStatus)

end Choice

/-- `getBestRouteFromStatuses` on the routes in the order in which the map is ranged over; the
empty ID stands for no route. -/
def getBestRouteFromStatuses (currentChosen : Option Route) (routes : List Route)
    (statuses : RouterPeerStatuses) : String × RouterPeerStatus :=
  let currID := (currentChosen.map (·.id)).getD ""
  (routes.foldl (Choice.consider statuses currID) {}).result currID

/-- The route has a status, and not that of a peer that is connecting. -/
def Available (statuses : RouterPeerStatuses) (r : Route) (st : RouterPeerStatus) : Prop :=
  statuses r.id = some st ∧ st.status ≠ .connecting

/-! ### The weights -/

section Weights

variable {r r' : Route} {st st' : RouterPeerStatus}

/-- Relaying and latency together weigh less than one step of the metric. -/
theorem exists_score_eq (hr : r.metric ≤ maxMetric) (hst : 0 ≤ st.latency) :
    ∃ rest : ℚ, 0 ≤ rest ∧ rest < 2 ∧ score r st = ((maxMetric - r.metric : ℤ) : ℚ) * 10 +
      (if st.status = .connected then 100000 else 0) + rest := by
  have hlatency : 0 < st.effectiveLatency ∧ st.effectiveLatency ≤ 1000000000 := by
    simp only [RouterPeerStatus.effectiveLatency]
    split_ifs <;> omega
  have hpos : (0 : ℚ) < st.effectiveLatency := by exact_mod_cast hlatency.1
  have hle : (st.effectiveLatency : ℚ) ≤ 1000000000 := by exact_mod_cast hlatency.2
  have hmetric : (if r.metric < maxMetric then ((maxMetric - r.metric : ℤ) : ℚ) * 10 else 0) =
      ((maxMetric - r.metric : ℤ) : ℚ) * 10 := by
    split_ifs with hlt
    · rfl
    · simp [le_antisymm hr (not_lt.mp hlt)]
  refine ⟨1 - st.effectiveLatency / 1000000000 + if st.relayed then 0 else 1, ?_, ?_, ?_⟩
  · split_ifs <;> linarith
  · split_ifs <;> linarith
  · rw [score]
    linarith

/-- A score that is not 0.01 or more below another one is of no lower class, and of no larger
metric in the same class. -/
theorem priorities_of_lt (hr : 1 ≤ r.metric ∧ r.metric ≤ maxMetric)
    (hr' : 1 ≤ r'.metric ∧ r'.metric ≤ maxMetric) (hst : 0 ≤ st.latency) (hst' : 0 ≤ st'.latency)
    (h : score r' st' < score r st + 1 / 100) : (st'.status = .connected → st.status = .connected) ∧
      (st'.status = st.status → r.metric ≤ r'.metric) := by
  obtain ⟨rest, -, hupper, hscore⟩ := exists_score_eq hr.2 hst
  obtain ⟨rest', hlower, -, hscore'⟩ := exists_score_eq hr'.2 hst'
  rw [hscore, hscore'] at h
  push_cast at h
  constructor
  · intro hconn
    by_contra hnot
    have hr₁ : (1 : ℚ) ≤ r.metric := by exact_mod_cast hr.1
    have hr₂ : (r'.metric : ℚ) ≤ maxMetric := by exact_mod_cast hr'.2
    simp only [hconn, hnot, if_true, if_false, maxMetric, Int.cast_ofNat] at h hr₂
    linarith
  · intro hsame
    by_contra hlt
    have hlt : (r'.metric : ℚ) + 1 ≤ r.metric := by exact_mod_cast not_le.mp hlt
    rw [hsame] at h
    linarith

end Weights

/-! ### What the loop leaves -/

section Loop

variable {statuses : RouterPeerStatuses} {currID : String} {seen : List (Route × RouterPeerStatus)}
  {c : Choice} {r : Route} {st : RouterPeerStatus} {routes : List Route}

/-- The routes that the loop does not skip. -/
def candidates (statuses : RouterPeerStatuses) (routes : List Route) :
    List (Route × RouterPeerStatus) :=
  routes.filterMap fun r =>
    (statuses r.id).bind fun st => if st.status = .connecting then none else some (r, st)

theorem mem_candidates :
    (r, st) ∈ candidates statuses routes ↔ r ∈ routes ∧ Available statuses r st := by
  simp [candidates, Available, Option.bind_eq_some_iff]

namespace Choice

/-- What the loop has found among the routes that it did not skip. -/
structure Ranked (currID : String) (seen : List (Route × RouterPeerStatus)) (c : Choice) :
    Prop where
  chosen : seen = [] ∧ c.chosen = "" ∧ c.chosenScore = 0 ∨
    c.chosen ≠ "" ∧ ∃ p ∈ seen, c.chosen = p.1.id ∧ c.chosenScore = score p.1 p.2
  le : ∀ p ∈ seen, score p.1 p.2 ≤ c.chosenScore
  curr : c.currScore = 0 ∧ (∀ p ∈ seen, p.1.id ≠ currID) ∨
    ∃ p ∈ seen, p.1.id = currID ∧ c.currScore = score p.1 p.2

theorem Ranked.rank (h : Ranked currID seen c) (hid : r.id ≠ "") (hscore : 0 ≤ score r st) :
    Ranked currID (seen ++ [(r, st)]) (c.rank currID r st) := by
  rw [Choice.rank]
  generalize hc' : (if score r st > c.chosenScore ∨ score r st = c.chosenScore ∧ c.chosen = "" then
    c.choose r st else c) = c'
  obtain ⟨hne, hchosen, hle, hcurr⟩ : c'.chosen ≠ "" ∧
      (∃ p ∈ seen ++ [(r, st)], c'.chosen = p.1.id ∧ c'.chosenScore = score p.1 p.2) ∧
      (∀ p ∈ seen ++ [(r, st)], score p.1 p.2 ≤ c'.chosenScore) ∧ c'.currScore = c.currScore := by
    rw [forall_mem_append, forall_mem_singleton]
    split_ifs at hc' with hbetter <;> subst hc'
    · have hge : c.chosenScore ≤ score r st := hbetter.elim le_of_lt fun h => h.1.ge
      exact ⟨hid, ⟨(r, st), by simp, rfl, rfl⟩, ⟨fun p hp => (h.le p hp).trans hge, le_rfl⟩, rfl⟩
    · obtain ⟨hlt, hempty⟩ := not_or.mp hbetter
      rcases h.chosen with ⟨-, hnone, hzero⟩ | ⟨hne, p, hp, hchosen⟩
      · -- the first route is chosen, since no score is negative
        rw [hzero] at hlt hempty
        exact absurd ⟨le_antisymm (not_lt.mp hlt) hscore, hnone⟩ hempty
      · exact ⟨hne, ⟨p, by simp [hp], hchosen⟩, ⟨h.le, not_lt.mp hlt⟩, rfl⟩
  simp only [hne, false_and, if_false]
  split_ifs with hcurrID
  · exact ⟨.inr ⟨hne, hchosen⟩, hle, .inr ⟨(r, st), by simp, hcurrID, rfl⟩⟩
  · refine ⟨.inr ⟨hne, hchosen⟩, hle, ?_⟩
    rw [hcurr]
    rcases h.curr with ⟨hzero, hnone⟩ | ⟨p, hp, hcurr⟩
    · exact .inl ⟨hzero, by simpa [or_imp, forall_and, hcurrID] using hnone⟩
    · exact .inr ⟨p, by simp [hp], hcurr⟩

theorem ranked_foldl (currID : String)
    (h : ∀ p ∈ candidates statuses routes, p.1.id ≠ "" ∧ 0 ≤ score p.1 p.2) :
    Ranked currID (candidates statuses routes) (routes.foldl (consider statuses currID) {}) := by
  have hskip : routes.foldl (consider statuses currID) {} =
      (candidates statuses routes).foldl (fun c p => c.rank currID p.1 p.2) {} := by
    rw [candidates, foldl_filterMap]
    congr 1
    funext c r
    rw [consider]
    rcases statuses r.id with _ | st
    · rfl
    · by_cases hst : st.status = .connecting <;> simp [hst]
  rw [hskip]
  generalize candidates statuses routes = seen at h ⊢
  induction seen using reverseRecOn with
  | nil => exact ⟨.inl ⟨rfl, rfl, rfl⟩, by simp, .inl ⟨rfl, by simp⟩⟩
  | append_singleton l p ih =>
    rw [foldl_append]
    obtain ⟨hl, hp⟩ := forall_mem_append.mp h
    obtain ⟨hid, hscore⟩ := hp p mem_cons_self
    exact (ih hl).rank hid hscore

/-- No route scores 0.01 or more above the one that is returned. -/
theorem Ranked.result_cases (h : Ranked currID seen c) : (c.result currID).1 = "" ∧ seen = [] ∨
      ∃ p ∈ seen, (c.result currID).1 = p.1.id ∧
        ∀ q ∈ seen, score q.1 q.2 < score p.1 p.2 + 1 / 100 := by
  rw [result]
  rcases h.chosen with ⟨hnil, hempty, -⟩ | ⟨hne, p, hp, hchosen, hscore⟩
  · exact .inl ⟨by simp only [hempty, if_true], hnil⟩
  · right
    simp only [hne, if_false]
    split_ifs with hkeep
    · obtain ⟨-, hcurr, hlt⟩ := hkeep
      rcases h.curr with ⟨hzero, -⟩ | ⟨q, hq, hid, hscore'⟩
      · exact absurd hzero hcurr
      · exact ⟨q, hq, hid.symm, fun q' hq' => (h.le q' hq').trans_lt (hscore' ▸ hlt)⟩
    · refine ⟨p, hp, hchosen, fun q hq => ?_⟩
      have := hscore ▸ h.le q hq
      linarith

theorem Ranked.keeps (h : Ranked currID seen c) {p : Route × RouterPeerStatus} (hp : p ∈ seen)
    (hid : p.1.id = currID) (hunique : ∀ q ∈ seen, q.1.id = currID → q = p)
    (hpos : 0 < score p.1 p.2) (hbelow : ∀ q ∈ seen, score q.1 q.2 < score p.1 p.2 + 1 / 100) :
    (c.result currID).1 = currID := by
  obtain ⟨hne, q, hq, -, hscore⟩ := h.chosen.resolve_left fun hnil => by simp [hnil.1] at hp
  obtain ⟨p', hp', hid', hcurr⟩ := h.curr.resolve_left fun hnone => hnone.2 p hp hid
  obtain rfl := hunique p' hp' hid'
  simp only [result, hne, if_false]
  split_ifs with hkeep
  · rfl
  · by_contra hother
    exact hkeep ⟨hother, hcurr ▸ hpos.ne', hcurr ▸ hscore ▸ hbelow q hq⟩

end Choice

end Loop

/-! ### The priorities -/

/-- **The choice of a route** among routes with different, non-empty IDs and metrics from 1 to
9999, for every order of the walk: none is returned only if none is available; a connected route
is returned if there is one; none of its class has a smaller metric; and the current route is
kept if its score is positive and none is 0.01 or more above it. -/
theorem bestRoute_respects_priorities (currentChosen : Option Route) (routes : List Route)
    (statuses : RouterPeerStatuses) (hnodup : (routes.map (·.id)).Nodup)
    (hids : ∀ r ∈ routes, r.id ≠ "") (hmetrics : ∀ r ∈ routes, 1 ≤ r.metric ∧ r.metric ≤ maxMetric)
    (hlatency : ∀ id st, statuses id = some st → 0 ≤ st.latency) :
    let best := (getBestRouteFromStatuses currentChosen routes statuses).1
    (best = "" ↔ ∀ r ∈ routes, ∀ st, ¬ Available statuses r st) ∧
    (best ≠ "" → ∃ r ∈ routes, ∃ st, best = r.id ∧ Available statuses r st ∧
      ∀ r' ∈ routes, ∀ st', Available statuses r' st' →
        (st'.status = .connected → st.status = .connected) ∧
        (st'.status = st.status → r.metric ≤ r'.metric)) ∧
    ∀ current ∈ currentChosen, ∀ r ∈ routes, ∀ st, r.id = current.id → Available statuses r st →
      0 < score r st → (∀ r' ∈ routes, ∀ st', Available statuses r' st' →
        score r' st' < score r st + 1 / 100) → best = current.id := by
  have hcand : ∀ p ∈ candidates statuses routes, p.1.id ≠ "" ∧ 0 ≤ score p.1 p.2 := by
    intro p hp
    obtain ⟨hr, hst, -⟩ := mem_candidates.mp hp
    obtain ⟨rest, hrest, -, hscore⟩ := exists_score_eq (hmetrics _ hr).2 (hlatency _ _ hst)
    have : (0 : ℚ) ≤ ((maxMetric - p.1.metric : ℤ) : ℚ) := by
      exact_mod_cast sub_nonneg.mpr (hmetrics _ hr).2
    refine ⟨hids _ hr, hscore ▸ ?_⟩
    split_ifs <;> linarith
  have hranked := Choice.ranked_foldl ((currentChosen.map (·.id)).getD "") hcand
  refine ⟨?_, fun hne => ?_, fun current hcurrent r hr st hid hst hpos hbelow => ?_⟩
  · rcases hranked.result_cases with ⟨hempty, hnil⟩ | ⟨p, hp, hbest, -⟩
    · refine iff_of_true hempty fun r hr st hst => ?_
      simpa [hnil] using mem_candidates.mpr ⟨hr, hst⟩
    · obtain ⟨hr, hst⟩ := mem_candidates.mp hp
      exact iff_of_false (hbest.trans_ne (hcand p hp).1) fun hnone => hnone p.1 hr p.2 hst
  · rcases hranked.result_cases with ⟨hempty, -⟩ | ⟨p, hp, hbest, hscore⟩
    · exact absurd hempty hne
    · obtain ⟨hr, hst⟩ := mem_candidates.mp hp
      refine ⟨p.1, hr, p.2, hbest, hst, fun r' hr' st' hst' => ?_⟩
      exact priorities_of_lt (hmetrics _ hr) (hmetrics r' hr') (hlatency _ _ hst.1)
        (hlatency _ _ hst'.1) (hscore (r', st') (mem_candidates.mpr ⟨hr', hst'⟩))
  · obtain rfl : currentChosen = some current := hcurrent
    refine hranked.keeps (mem_candidates.mpr ⟨hr, hst⟩) hid (fun q hq hqid => ?_) hpos fun q hq => ?_
    · obtain ⟨hqr, hqst⟩ := mem_candidates.mp hq
      obtain rfl : q.1 = r := inj_on_of_nodup_map hnodup hqr hr (hqid.trans hid.symm)
      exact Prod.ext rfl (Option.some.inj (hqst.1.symm.trans hst.1))
    · obtain ⟨hqr, hqst⟩ := mem_candidates.mp hq
      exact hbelow q.1 hqr q.2 hqst

def servedRoute (id : String) (metric : ℤ) : Route := { id := id, metric := metric }

/-- A peer that answers within 10 ms. -/
def nearby : RouterPeerStatus := { status := .connected, latency := 10000000 }

theorem bestRoute_respects_priorities_two :
    (getBestRouteFromStatuses none [servedRoute "a" 20, servedRoute "b" 10]
      fun _ => some nearby).1 ≠ "" := by
  rw [ne_eq, (bestRoute_respects_priorities none [servedRoute "a" 20, servedRoute "b" 10]
    (fun _ => some nearby) (by decide) (by decide) (by decide)
    (fun _ _ h => by cases h; decide)).1]
  exact fun h => h (servedRoute "a" 20) mem_cons_self nearby ⟨rfl, by decide⟩

/-- The only route is available, and its ID is the one that stands for none. -/
theorem unnamed_route_not_chosen :
    Available (fun _ => some nearby) (servedRoute "" 10) nearby ∧
      (getBestRouteFromStatuses none [servedRoute "" 10] fun _ => some nearby).1 = "" :=
  ⟨⟨rfl, by decide⟩, by decide +kernel⟩

end Netbird.Client
