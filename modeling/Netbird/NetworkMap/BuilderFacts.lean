/-
What the components know.

`getPeersFromGroups` walks the members of groups, skips repeated ones, starts over at
a group named "All" and writes down posture failures on the way.  `scan_covers` says
what comes out: the members that count, whether the target is one of them, and a record
of every failure among them.

* `mem_relevantPeerIDs` — the peers of the components that come from policies.
-/
import Netbird.NetworkMap.Builder

namespace Netbird

open List View

namespace Account

variable {a : Account} {validatedPeers checks : List String} {peerID p g : String}

theorem mem_getPeerGroups : g ∈ a.getPeerGroups p ↔ p ∈ a.members g := by
  rw [members]
  constructor
  · intro h
    obtain ⟨group, hgroup, rfl⟩ := mem_map.mp h
    obtain ⟨hmem, hp⟩ := mem_filter.mp hgroup
    rw [getGroup_eq_some.mpr ⟨hmem, rfl⟩]
    simpa using hp
  · intro h
    rcases hgroup : a.getGroup g with _ | group
    · simp [hgroup] at h
    · obtain ⟨hmem, rfl⟩ := getGroup_eq_some.mp hgroup
      rw [hgroup] at h
      exact mem_map.mpr ⟨group, mem_filter.mpr ⟨hmem, by simpa using h⟩, rfl⟩

/-! ### Posture checks -/

/-- The walk does not stop at the peer: it passes the checks, or the first that it fails has
an empty ID. -/
def passes (a : Account) (checks : List String) (p : String) : Bool :=
  (a.validatePostureChecksOnPeerGetFailed checks p).1 ||
    (a.validatePostureChecksOnPeerGetFailed checks p).2 == ""

theorem stops_eq (a : Account) (checks : List String) (p : String) :
    (!(a.validatePostureChecksOnPeerGetFailed checks p).1 &&
      (a.validatePostureChecksOnPeerGetFailed checks p).2 != "") = !a.passes checks p := by
  rw [passes, Bool.not_or, bne]

/-- The two posture functions agree on whether a peer passes. -/
theorem validatePosture_getFailed (a : Account) (checks : List String) (p : String) :
    (a.validatePostureChecksOnPeerGetFailed checks p).1 = a.validatePostureChecksOnPeer checks p := by
  rw [validatePostureChecksOnPeerGetFailed, validatePostureChecksOnPeer]
  rcases a.getPeer p with _ | peer
  · rfl
  · rcases hfind : checks.find? fun id => a.failsPosture id peer with _ | id
    · simpa [hfind] using find?_eq_none.mp hfind
    · have hmem := mem_of_find?_eq_some hfind
      have hfails := find?_some hfind
      simpa [hfind] using ⟨id, hmem, hfails⟩

theorem failed_of_getFailed {peer : Peer} (hpeer : a.getPeer p = some peer)
    (h : (a.validatePostureChecksOnPeerGetFailed checks p).1 = false) :
    (a.validatePostureChecksOnPeerGetFailed checks p).2 ∈ checks ∧
      a.failsPosture (a.validatePostureChecksOnPeerGetFailed checks p).2 peer = true := by
  rw [validatePostureChecksOnPeerGetFailed, hpeer] at h ⊢
  dsimp only at h ⊢
  rcases hfind : checks.find? fun id => a.failsPosture id peer with _ | id
  · simp [hfind] at h
  · exact ⟨mem_of_find?_eq_some hfind, by simpa using find?_some hfind⟩

/-- Without a check that has the empty ID, the walk stops at every failure. -/
theorem passes_eq (h : a.getPostureChecks "" = none) {peer : Peer} (hpeer : a.getPeer p = some peer) :
    a.passes checks p = a.validatePostureChecksOnPeer checks p := by
  rw [passes, ← validatePosture_getFailed]
  cases hvalid : (a.validatePostureChecksOnPeerGetFailed checks p).1 with
  | true => rfl
  | false =>
    have hfails := (failed_of_getFailed hpeer hvalid).2
    have hne : (a.validatePostureChecksOnPeerGetFailed checks p).2 ≠ "" := by
      intro hempty
      rw [hempty, failsPosture, h] at hfails
      exact Bool.false_ne_true hfails
    simpa using hne

/-! ### The walk over groups -/

/-- The walk counts the member. -/
def Counts (a : Account) (validatedPeers checks : List String) (p : String) : Prop :=
  (a.getPeer p).isSome = true ∧ p ∈ validatedPeers ∧ a.passes checks p = true

/-- The walk writes down the failure of the member. -/
def Fails (a : Account) (validatedPeers checks : List String) (p : String)
    (e : String × String) : Prop :=
  (a.getPeer p).isSome = true ∧ p ∈ validatedPeers ∧ a.passes checks p = false ∧
    e = ((a.validatePostureChecksOnPeerGetFailed checks p).2, p)

/-- A state of the walk after the listed members. -/
structure Scan.Covers (a : Account) (validatedPeers checks : List String) (peerID : String)
    (visited : List String) (st : Scan) : Prop where
  ids : ∀ p, p ∈ st.filteredPeerIDs ↔ p ∈ visited ∧ a.Counts validatedPeers checks p ∧ p ≠ peerID
  found : st.peerInGroups = true ↔ peerID ∈ visited ∧ a.Counts validatedPeers checks peerID
  complete : ∀ p ∈ visited, ∀ e, a.Fails validatedPeers checks p e → e ∈ st.failed
  sound : ∀ e ∈ st.failed, ∃ p, a.Fails validatedPeers checks p e

theorem Scan.visit_cases (a : Account) (validatedPeers checks : List String) (peerID : String)
    (st : Scan) (p : String) : (a.Counts validatedPeers checks p ∧ p = peerID ∧
      Scan.visit a validatedPeers checks peerID st p = { st with peerInGroups := true }) ∨
    (a.Counts validatedPeers checks p ∧ p ≠ peerID ∧
      Scan.visit a validatedPeers checks peerID st p =
        { st with filteredPeerIDs := st.filteredPeerIDs ++ [p] }) ∨
    (¬ a.Counts validatedPeers checks p ∧ ∃ e, a.Fails validatedPeers checks p e ∧
      Scan.visit a validatedPeers checks peerID st p = { st with failed := st.failed ++ [e] }) ∨
    (¬ a.Counts validatedPeers checks p ∧ (∀ e, ¬ a.Fails validatedPeers checks p e) ∧
      Scan.visit a validatedPeers checks peerID st p = st) := by
  rw [Scan.visit]
  rcases hpeer : a.getPeer p with _ | peer
  · exact .inr (.inr (.inr ⟨by simp [Counts, hpeer], by simp [Fails, hpeer], rfl⟩))
  · obtain ⟨-, rfl⟩ := getPeer_eq_some.mp hpeer
    by_cases hvalid : peer.id ∈ validatedPeers
    · cases hpass : a.passes checks peer.id with
      | true =>
        have hcounts : a.Counts validatedPeers checks peer.id := ⟨by simp [hpeer], hvalid, hpass⟩
        have hgo := a.stops_eq checks peer.id
        rw [hpass, Bool.not_true] at hgo
        by_cases heq : peer.id = peerID
        · refine .inl ⟨hcounts, heq, ?_⟩
          dsimp only
          rw [if_neg (not_not.mpr hvalid), hgo, if_neg Bool.false_ne_true, if_pos heq]
        · exact .inr (.inl ⟨hcounts, heq, by simp [hvalid, hgo, heq]⟩)
      | false =>
        have hgo := a.stops_eq checks peer.id
        rw [hpass] at hgo
        refine .inr (.inr (.inl ⟨by simp [Counts, hpass], _,
          ⟨by simp [hpeer], hvalid, hpass, rfl⟩, by simp [hvalid, hgo]⟩))
    · exact .inr (.inr (.inr ⟨by simp [Counts, hvalid], by simp [Fails, hvalid], by simp [hvalid]⟩))

namespace Scan

theorem visit_seen (a : Account) (validatedPeers checks : List String) (peerID : String)
    (st : Scan) (p : String) : (Scan.visit a validatedPeers checks peerID st p).seen = st.seen := by
  rcases Scan.visit_cases a validatedPeers checks peerID st p with
    ⟨-, -, heq⟩ | ⟨-, -, heq⟩ | ⟨-, e, -, heq⟩ | ⟨-, -, heq⟩ <;> rw [heq]

variable {visited : List String} {st : Scan} (h : st.Covers a validatedPeers checks peerID visited)

include h

theorem Covers.mem_congr {visited' : List String} (heq : ∀ p, p ∈ visited ↔ p ∈ visited') :
    st.Covers a validatedPeers checks peerID visited' where
  ids p := by rw [h.ids, heq]
  found := by rw [h.found, heq]
  complete p hp := h.complete p ((heq p).mpr hp)
  sound := h.sound

theorem Covers.visit (p : String) :
    (Scan.visit a validatedPeers checks peerID st p).Covers a validatedPeers checks peerID
      (p :: visited) := by
  have hids := h.ids
  have hfound := h.found
  have hcomplete := h.complete
  rcases Scan.visit_cases a validatedPeers checks peerID st p with
    ⟨hc, rfl, heq⟩ | ⟨hc, hne, heq⟩ | ⟨hc, e, he, heq⟩ | ⟨hc, he, heq⟩
  all_goals rw [heq]
  · -- the target is counted: it sets the flag and is not listed
    refine ⟨fun q => ?_, by simp [hc], fun q hq e he => ?_, h.sound⟩
    · grind
    · obtain rfl | hq := mem_cons.mp hq
      · exact absurd hc.2.2 (by simp [he.2.2.1])
      · exact hcomplete q hq e he
  · refine ⟨fun q => ?_, ?_, fun q hq e he => ?_, h.sound⟩
    · grind
    · grind
    · obtain rfl | hq := mem_cons.mp hq
      · exact absurd hc.2.2 (by simp [he.2.2.1])
      · exact hcomplete q hq e he
  · refine ⟨fun q => ?_, ?_, fun q hq e' he' => ?_, fun e' he' => ?_⟩
    · grind
    · grind
    · obtain rfl | hq := mem_cons.mp hq
      · rw [he'.2.2.2, ← he.2.2.2]
        simp
      · exact mem_append_left _ (hcomplete q hq e' he')
    · obtain he' | he' := mem_append.mp he'
      · exact h.sound e' he'
      · rw [mem_singleton.mp he']
        exact ⟨p, he⟩
  · refine ⟨fun q => ?_, ?_, fun q hq e' he' => ?_, h.sound⟩
    · grind
    · grind
    · obtain rfl | hq := mem_cons.mp hq
      · exact absurd he' (he e')
      · exact hcomplete q hq e' he'

theorem Covers.foldl_visit (l : List String) :
    (l.foldl (Scan.visit a validatedPeers checks peerID) st).Covers a validatedPeers checks peerID
      (visited ++ l) := by
  induction l generalizing st visited with
  | nil => simpa using h
  | cons p l ih => exact (ih (h.visit p)).mem_congr fun q => by simp [or_left_comm]

theorem Covers.reset :
    { st with filteredPeerIDs := [], peerInGroups := false }.Covers a validatedPeers checks peerID [] :=
  ⟨by simp, by simp, by simp, h.sound⟩

/-- Skipping members that were met before does not change what is covered. -/
theorem Covers.foldl_visitUnseen (hseen : ∀ q ∈ st.seen, q ∈ visited) (l : List String) :
    let st' := l.foldl (Scan.visitUnseen a validatedPeers checks peerID) st
    st'.Covers a validatedPeers checks peerID (visited ++ l) ∧ ∀ q ∈ st'.seen, q ∈ visited ++ l := by
  induction l generalizing st visited with
  | nil => simpa using ⟨h, hseen⟩
  | cons p l ih =>
    have hstep : (Scan.visitUnseen a validatedPeers checks peerID st p).Covers a validatedPeers checks
          peerID (p :: visited) ∧
        ∀ q ∈ (Scan.visitUnseen a validatedPeers checks peerID st p).seen, q ∈ p :: visited := by
      rw [Scan.visitUnseen]
      split_ifs with hp
      · refine ⟨h.mem_congr fun q => ?_, fun q hq => mem_cons_of_mem p (hseen q hq)⟩
        grind
      · have h' : { st with seen := p :: st.seen }.Covers a validatedPeers checks peerID visited :=
          ⟨h.ids, h.found, h.complete, h.sound⟩
        refine ⟨h'.visit p, fun q hq => ?_⟩
        rw [visit_seen] at hq
        obtain rfl | hq := mem_cons.mp hq
        · exact mem_cons_self
        · exact mem_cons_of_mem p (hseen q hq)
    obtain ⟨hcov, hseen'⟩ := ih hstep.1 hstep.2
    exact ⟨hcov.mem_congr fun q => by simp [or_left_comm],
      fun q hq => by simpa [or_left_comm] using hseen' q hq⟩

end Scan

/-- The walk over several groups: everything met so far, unless a group named "All" starts it
over. -/
theorem scanGroups_covers {visited : List String} {st : Scan}
    (h : st.Covers a validatedPeers checks peerID visited) (hseen : ∀ q ∈ st.seen, q ∈ visited)
    (groups : List String) :
    (a.scanGroups validatedPeers checks peerID false st groups).Covers a validatedPeers checks peerID
      (match (a.view validatedPeers).firstAll groups with
        | some all => all.peers
        | none => visited ++ groups.flatMap a.members) := by
  induction groups generalizing st visited with
  | nil => simpa [scanGroups, View.firstAll] using h
  | cons g groups ih =>
    rw [scanGroups, flatMap_cons, members]
    rcases hgroup : a.getGroup g with _ | group
    · rw [firstAll_cons_of_none hgroup]
      exact ih h hseen
    · dsimp only
      by_cases hall : group.isGroupAll = true
      · rw [if_pos (by simp [hall]), firstAll_cons_of_all hgroup hall]
        exact h.reset.foldl_visit group.peers
      · rw [if_neg (by simpa using hall), firstAll_cons_of_not_all hgroup hall]
        obtain ⟨hcov, hseen'⟩ := h.foldl_visitUnseen hseen group.peers
        have hrest := ih hcov hseen'
        rwa [append_assoc] at hrest

/-- **The outcome of the walk**: it covers exactly the peers that the legacy path lists for
the groups. -/
theorem scan_covers (a : Account) (validatedPeers : List String) (peerID : String)
    (groups checks : List String) :
    (a.getPeersFromGroups validatedPeers peerID groups checks).Covers a validatedPeers checks peerID
      ((a.view validatedPeers).uniquePeerIDs groups) := by
  have h₀ : ({} : Scan).Covers a validatedPeers checks peerID [] :=
    ⟨by simp, by simp, by simp, by simp⟩
  rw [getPeersFromGroups, uniquePeerIDs]
  by_cases hlen : groups.length = 1
  · -- a single group is taken as it is, whatever its name
    obtain ⟨g, rfl⟩ := length_eq_one_iff.mp hlen
    rw [scanGroups]
    rcases hgroup : a.getGroup g with _ | group
    · have hmembers : (a.view validatedPeers).members g = [] := by simp [View.members, view, hgroup]
      rw [firstAll_cons_of_none hgroup]
      simpa [scanGroups, View.firstAll, hmembers] using h₀
    · have hmembers : (a.view validatedPeers).members g = group.peers := by
        simp [View.members, view, hgroup]
      have hcov := h₀.reset.foldl_visit group.peers
      by_cases hall : group.isGroupAll = true
      · rw [firstAll_cons_of_all hgroup hall]
        simpa using hcov
      · rw [firstAll_cons_of_not_all hgroup hall]
        simpa [View.firstAll, hmembers] using hcov
  · have hcov := scanGroups_covers h₀ (by simp) groups
    rw [show (groups.length == 1) = false by simpa using hlen]
    rcases hall : (a.view validatedPeers).firstAll groups with _ | all
    · rw [hall] at hcov
      rw [if_neg hlen]
      exact hcov.mem_congr fun q => by rw [mem_dedup]; rfl
    · simpa [hall] using hcov

/-! ### The sides of a rule -/

/-- The peer counts on the side when the components are built. -/
def OnSide (a : Account) (validatedPeers : List String) (policy : Policy) (rule : PolicyRule)
    (side : Side) (p : String) : Prop :=
  if (rule.resourceOf side).isPeer then (rule.resourceOf side).id = p
  else p ∈ (a.view validatedPeers).uniquePeerIDs (rule.groupsOf side) ∧
    a.Counts validatedPeers (policy.checksOf side) p

variable {policy : Policy} {rule : PolicyRule} {side : Side}

theorem onSide_of_direct (h : (rule.resourceOf side).isPeer = true) :
    a.OnSide validatedPeers policy rule side p ↔ (rule.resourceOf side).id = p := by
  rw [OnSide, if_pos h]

theorem onSide_of_groups (h : (rule.resourceOf side).isPeer = false) :
    a.OnSide validatedPeers policy rule side p ↔
      p ∈ (a.view validatedPeers).uniquePeerIDs (rule.groupsOf side) ∧
        a.Counts validatedPeers (policy.checksOf side) p := by
  rw [OnSide, h, if_neg Bool.false_ne_true]

theorem sideScan_of_direct (h : (rule.resourceOf side).isPeer = true) :
    a.sideScan validatedPeers peerID policy rule side =
      { filteredPeerIDs := [(rule.resourceOf side).id]
        peerInGroups := (rule.resourceOf side).id == peerID } := by
  rw [sideScan, if_pos h]

theorem sideScan_covers (h : ¬ (rule.resourceOf side).isPeer = true) :
    (a.sideScan validatedPeers peerID policy rule side).Covers a validatedPeers
      (policy.checksOf side) peerID ((a.view validatedPeers).uniquePeerIDs (rule.groupsOf side)) := by
  rw [sideScan, if_neg h]
  exact a.scan_covers ..

theorem sideScan_found : (a.sideScan validatedPeers peerID policy rule side).peerInGroups = true ↔
      a.OnSide validatedPeers policy rule side peerID := by
  rw [OnSide]
  split_ifs with hdirect
  · simp [sideScan_of_direct hdirect]
  · exact (sideScan_covers hdirect).found

theorem onSide_of_mem_sideScan
    (h : p ∈ (a.sideScan validatedPeers peerID policy rule side).filteredPeerIDs) :
    a.OnSide validatedPeers policy rule side p := by
  rw [OnSide]
  split_ifs with hdirect
  · simpa [sideScan_of_direct hdirect, eq_comm] using h
  · obtain ⟨hmem, hcounts, -⟩ := ((sideScan_covers hdirect).ids p).mp h
    exact ⟨hmem, hcounts⟩

theorem mem_sideScan_of_onSide (h : a.OnSide validatedPeers policy rule side p) (hne : p ≠ peerID) :
    p ∈ (a.sideScan validatedPeers peerID policy rule side).filteredPeerIDs := by
  rw [OnSide] at h
  split_ifs at h with hdirect
  · simp [sideScan_of_direct hdirect, h]
  · exact ((sideScan_covers hdirect).ids p).mpr ⟨h.1, h.2, hne⟩

variable {e : String × String}

theorem sideScan_sound (h : e ∈ (a.sideScan validatedPeers peerID policy rule side).failed) :
    ∃ p, a.Fails validatedPeers (policy.checksOf side) p e := by
  by_cases hdirect : (rule.resourceOf side).isPeer = true
  · simp [sideScan_of_direct hdirect] at h
  · exact (sideScan_covers hdirect).sound e h

theorem sideScan_complete (hdirect : ¬ (rule.resourceOf side).isPeer = true)
    (hp : p ∈ (a.view validatedPeers).uniquePeerIDs (rule.groupsOf side))
    (he : a.Fails validatedPeers (policy.checksOf side) p e) :
    e ∈ (a.sideScan validatedPeers peerID policy rule side).failed :=
  (sideScan_covers hdirect).complete p hp e he

/-! ### The collected keys -/

variable {peer : Peer}

/-- The target is on one side of an enabled rule and the peer on the other. -/
def Across (a : Account) (validatedPeers : List String) (peerID p : String) : Prop :=
  ∃ pr ∈ enabledRules a.policies, ∃ side : Side,
    a.OnSide validatedPeers pr.1 pr.2 side.other peerID ∧ a.OnSide validatedPeers pr.1 pr.2 side p

theorem mem_acrossKeys : p ∈ (a.acrossKeys validatedPeers peerID policy rule side).1 ↔
      a.OnSide validatedPeers policy rule side.other peerID ∧
        p ∈ (a.sideScan validatedPeers peerID policy rule side).filteredPeerIDs := by
  rw [acrossKeys]
  split_ifs with h
  · simp [sideScan_found.mp h]
  · simpa using fun h' => absurd (sideScan_found.mpr h') h

theorem mem_acrossKeys_groups : g ∈ (a.acrossKeys validatedPeers peerID policy rule side).2 ↔
      a.OnSide validatedPeers policy rule side.other peerID ∧ g ∈ rule.groupsOf side := by
  rw [acrossKeys]
  split_ifs with h
  · simp [sideScan_found.mp h]
  · simpa using fun h' => absurd (sideScan_found.mpr h') h

theorem mem_ruleKeys_peerIDs : p ∈ (a.ruleKeys validatedPeers peer policy rule).peerIDs ↔
      ∃ side, p ∈ (a.acrossKeys validatedPeers peer.id policy rule side).1 := by
  rw [Side.exists_iff]
  exact mem_append

theorem mem_ruleKeys_groupIDs : g ∈ (a.ruleKeys validatedPeers peer policy rule).groupIDs ↔
      (a.namesRoute rule = true ∧ ∃ side, g ∈ rule.groupsOf side) ∨
        ∃ side, g ∈ (a.acrossKeys validatedPeers peer.id policy rule side).2 := by
  rw [Side.exists_iff, Side.exists_iff, ruleKeys]
  rw [append_assoc, mem_append]
  cases a.namesRoute rule
  · simp
  · simp [PolicyRule.groupsOf, or_comm]

theorem mem_ruleKeys_failed : e ∈ (a.ruleKeys validatedPeers peer policy rule).failed ↔
      ∃ side, e ∈ (a.sideScan validatedPeers peer.id policy rule side).failed := by
  rw [Side.exists_iff, or_comm]
  exact mem_append

theorem mem_relevantPeerIDs : p ∈ (a.relevantKeys validatedPeers peer).peerIDs ↔
      p = peer.id ∨ a.Across validatedPeers peer.id p := by
  simp only [relevantKeys, mem_cons, mem_flatMap, mem_map, exists_exists_and_eq_and,
    mem_ruleKeys_peerIDs, mem_acrossKeys]
  refine or_congr_right' fun hne => exists_congr fun pr => and_congr_right fun _ =>
    exists_congr fun side => and_congr_right fun _ => ⟨onSide_of_mem_sideScan, fun h => ?_⟩
  exact mem_sideScan_of_onSide h hne

/-- The group is looked up for the target: it contains the target, a route mentions it, or it is
a group of a rule that names a route or has the target on the other side. -/
def LookedUp (a : Account) (validatedPeers : List String) (peerID g : String) : Prop :=
  g ∈ a.routeGroupIDs peerID ∨
    ∃ pr ∈ enabledRules a.policies,
      (a.namesRoute pr.2 = true ∧ ∃ side, g ∈ pr.2.groupsOf side) ∨
        ∃ side : Side, a.OnSide validatedPeers pr.1 pr.2 side.other peerID ∧ g ∈ pr.2.groupsOf side

theorem mem_relevantGroupIDs :
    g ∈ (a.relevantKeys validatedPeers peer).groupIDs ↔ a.LookedUp validatedPeers peer.id g := by
  simp only [LookedUp, relevantKeys, mem_append, mem_flatMap, mem_map, exists_exists_and_eq_and,
    mem_ruleKeys_groupIDs, mem_acrossKeys_groups]

theorem mem_relevantFailed : e ∈ (a.relevantKeys validatedPeers peer).failed ↔
      ∃ pr ∈ enabledRules a.policies, ∃ side,
        e ∈ (a.sideScan validatedPeers peer.id pr.1 pr.2 side).failed := by
  simp only [relevantKeys, mem_flatMap, mem_map, exists_exists_and_eq_and,
    mem_ruleKeys_failed]

end Account

end Netbird
