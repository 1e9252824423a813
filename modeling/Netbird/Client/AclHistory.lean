/-
What the filter has after a sequence of network maps.

If every rule converts and the filter refuses nothing, the peer rules depend on the last map
only.  They are what it asks for, with two exceptions: a map without rules from an old management
server stands for two default rules, and rules for outgoing traffic with a port are skipped if
their protocol is `ALL` or `ICMP`.

For route rules the filter decides by the key whether it has a rule.  Rules for different sets of
domains can have one key.  The rule that came first then stays, and if it came with an earlier
map, the filter has a rule that the last map does not name.

* `installsExactly_wanted` — the peer rules after a call;
* `routesExactly_iff` — when the route rules are those of the last map;
* `exact_iff` — when both are, after every sequence of maps.
-/
import Netbird.Client.AclPeers

namespace Netbird.Acl

open Firewall PeerRules PeerSpec

section

open List

variable {lib : Library} {stateful : Bool} {d : DefaultManager} {u : Update}

/-! ### Updates without failures -/

/-- Every rule of the map converts, and the filter refuses nothing. -/
structure Update.Succeeds (lib : Library) (u : Update) : Prop where
  peers : ∀ r ∈ u.networkMap.firewallRules, ∃ s, r.convert lib = .ok s ∧
    (s.direction = .IN ∨ s.direction = .OUT)
  routes : ∀ r ∈ u.networkMap.routesFirewallRules, r.sourceRanges ≠ [] →
    ∃ s, r.convert lib u.dnsRouteFeatureFlag = .ok s
  peerCalls : ∀ i, u.refusedPeer i = none
  routeCalls : ∀ i, u.refusedRoute i = none

theorem takenRules_of_not_fails {start : RulePairs} {refused : ℕ → Option String}
    {rules : List FirewallRule} (before : List FirewallRule)
    (h : ∀ r ∈ rules, ∀ known i, ruleFails lib stateful known (refused i) r = false) :
    takenRules lib stateful start refused before rules = before ++ rules := by
  induction rules generalizing before with
  | nil => simp [takenRules]
  | cons r rules ih =>
    rw [takenRules, h r mem_cons_self, if_neg (by decide),
      ih _ fun r' hr' => h r' (mem_cons_of_mem _ hr'), ← append_cons]

def defaultSpec (direction : RuleDirection) : PeerSpec where
  ip := Addr.v4InV6Prefix ++ ipv4Unspecified
  protocol := .all
  direction := direction
  port := none
  action := .accept

theorem convert_default (lib : Library) (direction : RuleDirection) : FirewallRule.convert lib
      { peerIP := "0.0.0.0", direction, action := .ACCEPT, protocol := .ALL } =
      .ok (defaultSpec direction) := by
  unfold FirewallRule.convert
  rw [lib.parseIP_unspecified]
  rfl

theorem Update.Succeeds.convert (h : u.Succeeds lib) {r : FirewallRule}
    (hr : r ∈ u.networkMap.peerRules) :
    ∃ s, r.convert lib = .ok s ∧ (s.direction = .IN ∨ s.direction = .OUT) := by
  unfold NetworkMap.peerRules at hr
  split_ifs at hr
  · rcases mem_append.mp hr with hr | hr
    · exact h.peers r hr
    · rcases mem_pair.mp hr with rfl | rfl
      · exact ⟨_, convert_default lib .IN, .inl rfl⟩
      · exact ⟨_, convert_default lib .OUT, .inr rfl⟩
  · exact h.peers r hr

theorem Update.Succeeds.taken (h : u.Succeeds lib) (d : DefaultManager) :
    d.taken lib u.networkMap u.refusedPeer = u.networkMap.peerRules := by
  refine takenRules_of_not_fails [] fun r hr known i => ?_
  obtain ⟨s, hs, hdir⟩ := h.convert hr
  unfold ruleFails
  rw [hs, h.peerCalls i]
  rcases hdir with hdir | hdir <;> simp [hdir]

/-! ### Peer rules -/

/-- The filter has exactly one rule for each of the given parameters. -/
def InstallsExactly (m : PeerRules) (specs : Set PeerSpec) : Prop :=
  ∃ rule : PeerSpec → PeerRule, Set.BijOn rule specs m.installed ∧ ∀ s ∈ specs, s.Makes (rule s)

def wantedPeers (lib : Library) (stateful : Bool) (u : Update) : Set PeerSpec :=
  {s | s.wanted stateful = true ∧ ∃ r ∈ u.networkMap.peerRules, r.convert lib = .ok s}

/-- **The peer rules after a call** are those that the map asks for. -/
theorem installsExactly_wanted (hd : d.Consistent) (hu : u.Succeeds lib) :
    InstallsExactly (peerStep lib d u).firewall.peerRules
      (wantedPeers lib d.firewall.stateful u) := by
  have hok := hu.taken d
  obtain ⟨hcons, hnamed, -⟩ := applyPeerACLs_of_succeeds hd hok
  change (peerStep lib d u).Consistent at hcons
  have hrule : ∀ s ∈ wantedPeers lib d.firewall.stateful u, ∃ x,
      (peerStep lib d u).peerRulesPairs.lookup s.getPeerRuleID = some [x] ∧ s.Makes x := by
    rintro s ⟨hwanted, r, hr, hs⟩
    exact exists_installed hd hok hr hs hwanted
  have hvalid : ∀ s ∈ wantedPeers lib d.firewall.stateful u,
      s.Valid ∧ (s.direction = .IN ∨ s.direction = .OUT) := by
    rintro s ⟨hwanted, r, -, hs⟩
    exact ⟨convert_valid hs, direction_of_wanted hwanted⟩
  have : Nonempty PeerRule := ⟨makeRule 0 [] [] .all none none .accept⟩
  choose! rule hlookup hmakes using hrule
  refine ⟨rule, ⟨?_, ?_, ?_⟩, hmakes⟩
  · intro s hs
    rw [hcons.installed]
    exact ⟨_, _, hlookup s hs, mem_singleton_self _⟩
  · intro s hs t ht heq
    have hid := hcons.distinct _ _ _ (hlookup s hs) (heq ▸ hlookup t ht)
    exact getPeerRuleID_injective (hvalid s hs).1 (hvalid t ht).1 (hvalid s hs).2 (hvalid t ht).2 hid
  · intro x hx
    rw [hcons.installed] at hx
    obtain ⟨id, rs, hrs, hx⟩ := hx
    obtain ⟨r, hr, s, hs, rfl⟩ := hnamed id (Option.isSome_iff_exists.mpr ⟨rs, hrs⟩)
    obtain ⟨s', y, rfl, hvalid', hwanted, hid, -⟩ := hcons.single _ _ hrs
    -- what was named has the id of something wanted, so it is wanted itself
    obtain ⟨s'', hs'', hdir⟩ := hu.convert hr
    obtain rfl := Except.ok.inj (hs.symm.trans hs'')
    obtain rfl := getPeerRuleID_injective hvalid' (convert_valid hs)
      (direction_of_wanted hwanted) hdir hid
    have hmem : s' ∈ wantedPeers lib d.firewall.stateful u := ⟨hwanted, r, hr, hs⟩
    refine ⟨s', hmem, ?_⟩
    rw [mem_singleton.mp hx]
    exact singleton_injective (Option.some.inj ((hlookup s' hmem).symm.trans hrs))

/-- The filter needs a rule for it: for incoming traffic, and for answers from a port if it does
not track connections. -/
def PeerSpec.needed (stateful : Bool) (s : PeerSpec) : Bool :=
  match s.direction with
  | .IN => true
  | .OUT => ! stateful && s.port.isSome
  | .other _ _ => false

/-- What the rules of the map ask for and the filter needs a rule for. -/
def neededPeers (lib : Library) (stateful : Bool) (u : Update) : Set PeerSpec :=
  {s | s.needed stateful = true ∧ ∃ r ∈ u.networkMap.firewallRules, r.convert lib = .ok s}

theorem PeerSpec.directed_of_needed {s : PeerSpec} (h : s.needed stateful = true) : s.Directed := by
  unfold needed at h
  cases hdir : s.direction with
  | IN => exact .inl hdir
  | OUT =>
    simp only [hdir, Bool.and_eq_true] at h
    exact .inr ⟨hdir, h.2⟩
  | other n hn => simp [hdir] at h

theorem InstallsExactly.unique {m : PeerRules} {A B : Set PeerSpec}
    (hA : ∀ s ∈ A, s.Valid ∧ s.Directed) (hB : ∀ s ∈ B, s.Valid ∧ s.Directed)
    (h : InstallsExactly m A) (h' : InstallsExactly m B) : A ⊆ B := by
  obtain ⟨f, hf, hmakes⟩ := h
  obtain ⟨g, hg, hmakes'⟩ := h'
  intro s hs
  obtain ⟨t, ht, heq⟩ := hg.surjOn (hf.mapsTo hs)
  have hst : s = t := Makes.injective (hA s hs).1 (hB t ht).1 (hA s hs).2 (hB t ht).2
    (hmakes s hs) (heq ▸ hmakes' t ht)
  exact hst ▸ ht

/-- The map has rules, or says that it has none; and no rule for outgoing traffic with a port has
a protocol without ports, if the filter is stateless. -/
def PlainPeers (lib : Library) (stateful : Bool) (u : Update) : Prop :=
  (u.networkMap.firewallRules = [] → u.networkMap.firewallRulesIsEmpty = true) ∧
    (stateful = false → ∀ r ∈ u.networkMap.firewallRules, ∀ s, r.convert lib = .ok s →
      s.direction = .OUT → s.port.isSome → s.protocol ≠ .all ∧ s.protocol ≠ .icmp)

theorem wanted_of_plain {s : PeerSpec} (h : stateful = false → s.direction = .OUT → s.port.isSome →
    s.protocol ≠ .all ∧ s.protocol ≠ .icmp) : s.wanted stateful = s.needed stateful := by
  unfold wanted needed shouldSkipInvertedRule
  cases hdir : s.direction with
  | IN => rfl
  | other n hn => rfl
  | OUT =>
    cases stateful with
    | true => rfl
    | false =>
      rcases hport : s.port with _ | p
      · simp
      · obtain ⟨hall, hicmp⟩ := h rfl hdir (by rw [hport]; rfl)
        simp [hall, hicmp]

theorem neededPeers_eq_iff : neededPeers lib stateful u = wantedPeers lib stateful u ↔
    PlainPeers lib stateful u := by
  constructor
  · intro h
    refine ⟨fun hnil => ?_, fun hstate r hr s hs hdir hport => ?_⟩
    · -- otherwise the default rule for incoming traffic is wanted
      by_contra hflag
      have hmem : defaultSpec .IN ∈ wantedPeers lib stateful u := by
        refine ⟨rfl, _, ?_, convert_default lib .IN⟩
        rw [NetworkMap.peerRules, if_pos ⟨by rw [hnil]; rfl, hflag⟩]
        exact mem_append_right _ mem_cons_self
      rw [← h] at hmem
      obtain ⟨-, r, hr, -⟩ := hmem
      rw [hnil] at hr
      cases hr
    · have hmem : s ∈ neededPeers lib stateful u := by
        refine ⟨?_, r, hr, hs⟩
        rw [needed, hdir, hstate, hport]
        rfl
      rw [h] at hmem
      have hwanted := hmem.1
      simp only [wanted, hdir, shouldSkipInvertedRule, Bool.and_eq_true,
        Bool.not_eq_true', decide_eq_false_iff_not, not_or] at hwanted
      exact ⟨hwanted.2.1, hwanted.2.2.1⟩
  · rintro ⟨hflag, hproto⟩
    have hrules : u.networkMap.peerRules = u.networkMap.firewallRules := by
      rw [NetworkMap.peerRules, if_neg]
      rintro ⟨hlen, hnot⟩
      exact hnot (hflag (length_eq_zero_iff.mp hlen))
    ext s
    simp only [neededPeers, wantedPeers, Set.mem_ofPred_eq, hrules]
    refine and_congr_left fun hex => ?_
    obtain ⟨r, hr, hs⟩ := hex
    rw [wanted_of_plain fun hstate => hproto hstate r hr s hs]

/-- **When the peer rules are those of the map.** -/
theorem installsExactly_iff (hd : d.Consistent) (hu : u.Succeeds lib) :
    InstallsExactly (peerStep lib d u).firewall.peerRules (neededPeers lib d.firewall.stateful u) ↔
      PlainPeers lib d.firewall.stateful u := by
  have hwanted := installsExactly_wanted hd hu
  have hW : ∀ s ∈ wantedPeers lib d.firewall.stateful u, s.Valid ∧ s.Directed := by
    rintro s ⟨hwanted, r, -, hs⟩
    exact ⟨convert_valid hs, directed_of_wanted hwanted⟩
  have hN : ∀ s ∈ neededPeers lib d.firewall.stateful u, s.Valid ∧ s.Directed := by
    rintro s ⟨hneeded, r, -, hs⟩
    exact ⟨convert_valid hs, directed_of_needed hneeded⟩
  rw [← neededPeers_eq_iff]
  constructor
  · intro h
    exact Set.Subset.antisymm (h.unique hN hW hwanted) (hwanted.unique hW hN h)
  · intro h
    rw [h]
    exact hwanted

/-! ### Route rules -/

def RouteSpec.key (lib : Library) (s : RouteSpec) : RuleID :=
  generateRouteRuleKey lib.sha256 s.sources s.destination s.protocol none s.dPorts s.action

/-- What a rule of the filter says, without its id and the id of its policy. -/
def content (r : RouteRule) : RouteRule := { r with id := "", mgmtId := [] }

def RouteSpec.content (lib : Library) (s : RouteSpec) : RouteRule :=
  Acl.content (makeRouteRule lib.sha256 [] s.sources s.destination s.protocol none s.dPorts s.action)

/-- What route rules ask for; rules without sources are left out. -/
def routeSpecs (lib : Library) (dynamicResolver : Bool) (rules : List RouteFirewallRule) :
    List RouteSpec :=
  rules.filterMap fun rule =>
    match rule.convert lib dynamicResolver with
    | .ok s => some s
    | .error _ => none

/-- The filter has each of the given rules once, and no others. -/
structure RoutesExactly (lib : Library) (t : RouteTable) (specs : List RouteSpec) : Prop where
  nodup : (t.routeRules.map content).Nodup
  mem : ∀ c, c ∈ t.routeRules.map content ↔ ∃ s ∈ specs, s.content lib = c

/-- The text of a destination, from what a rule keeps of it. -/
theorem text_destination (lib : Library) (s : RouteSpec) : s.destination.text =
      match (s.content lib).destinations with
      | p :: _ => Addr.prefixText p.addr p.bits
      | [] => if (s.content lib).dstSet = .zero then "<invalid network>"
        else (s.content lib).dstSet.hashedName := by
  unfold RouteSpec.content content makeRouteRule Network.text
  cases s.destination with
  | set x => rfl
  | range p => by_cases hp : isValidPrefix p = true <;> simp [hp]

variable {s : RouteSpec}

theorem convert_protocol {rule : RouteFirewallRule} {dynamicResolver : Bool}
    (h : rule.convert lib dynamicResolver = .ok s) : ∀ name, s.protocol ≠ .other name := by
  unfold RouteFirewallRule.convert at h
  split_ifs at h
  split at h
  · nomatch h
  · nomatch h
  split at h
  · nomatch h
  rcases hproto : convertToFirewallProtocol rule.protocol with e | protocol
  · simp [hproto] at h
  · rcases haction : convertFirewallAction rule.action with e | action
    · simp [hproto, haction] at h
    · simp only [hproto, haction, Except.ok.injEq] at h
      rw [← h]
      rintro name rfl
      cases hr : rule.protocol <;> simp [hr, convertToFirewallProtocol] at hproto

/-- The rules of the table say what their keys stand for. -/
def Made (lib : Library) (t : RouteTable) : Prop :=
  ∀ r ∈ t.routeRules, ∃ s : RouteSpec, (∀ name, s.protocol ≠ .other name) ∧ r.id = s.key lib ∧
    content r = s.content lib

/-- Where the loop over the route rules is, after the given ones. -/
structure RouteLoop (lib : Library) (start : RouteTable) (specs : List RouteSpec)
    (p : RouteProgress) : Prop where
  sound : p.table.Sound
  old : ∀ r ∈ start.routeRules, r ∈ p.table.routeRules
  origin : ∀ r ∈ p.table.routeRules, r ∈ start.routeRules ∨
    ∃ s ∈ specs, r.id = s.key lib ∧ content r = s.content lib
  has : ∀ s ∈ specs, ∃ r ∈ p.table.routeRules, r.id = s.key lib
  ids : ∀ id, id ∈ p.newRouteRules ↔ ∃ s ∈ specs, s.key lib = id

variable {start : RouteTable}

variable (lib) in
theorem RouteLoop.init (h : start.Sound) : RouteLoop lib start [] ⟨start, [], []⟩ where
  sound := h
  old _ hr := hr
  origin _ hr := .inl hr
  has _ hs := nomatch hs
  ids id := by simp

variable {p : RouteProgress}

/-- The filter is given a rule. -/
def RouteSpec.add (lib : Library) (policyID : Bytes) (s : RouteSpec) (t : RouteTable) :
    RouteRule × RouteTable :=
  t.addRouteFiltering lib.sha256 policyID s.sources s.destination s.protocol none s.dPorts s.action

theorem RouteLoop.step {specs : List RouteSpec}
    (h : RouteLoop lib start specs p) (policyID : Bytes) (s : RouteSpec) :
    RouteLoop lib start (specs ++ [s])
      { p with
        table := (s.add lib policyID p.table).2
        newRouteRules := p.newRouteRules.insert (s.add lib policyID p.table).1.id } := by
  have hadd : ∀ r, r ∈ (s.add lib policyID p.table).2.routeRules ↔ _ := h.sound.mem_add lib.sha256
  have hnew : (s.add lib policyID p.table).1 ∈ (s.add lib policyID p.table).2.routeRules ∧
      (s.add lib policyID p.table).1.id = s.key lib := h.sound.add_id lib.sha256
  refine
    { sound := h.sound.add lib.sha256
      old := fun r hr => (hadd r).mpr (.inl (h.old r hr))
      origin := fun r hr => ?_
      has := forall_mem_append.mpr ⟨fun s' hs' => ?_, forall_mem_singleton.mpr ⟨_, hnew⟩⟩
      ids := fun id => ?_ }
  · rcases (hadd r).mp hr with hr | ⟨rfl, -⟩
    · rcases h.origin r hr with hr | ⟨s', hs', hr⟩
      · exact .inl hr
      · exact .inr ⟨s', mem_append_left _ hs', hr⟩
    · exact .inr ⟨s, by simp, rfl, rfl⟩
  · obtain ⟨r, hr, hid⟩ := h.has s' hs'
    exact ⟨r, (hadd r).mpr (.inl hr), hid⟩
  · rw [mem_insert_iff, h.ids, hnew.2, or_comm]
    simp [or_and_right, exists_or, eq_comm]

/-- **The loop over the route rules** of a map, if the filter refuses nothing. -/
theorem RouteLoop.run {specs : List RouteSpec}
    {refused : ℕ → Option String} (hrefused : ∀ i, refused i = none) (dynamicResolver : Bool)
    (rules : List RouteFirewallRule) (i : ℕ) (h : RouteLoop lib start specs p) :
    RouteLoop lib start (specs ++ routeSpecs lib dynamicResolver rules)
      (addRouteRules lib dynamicResolver refused i rules p) := by
  induction rules generalizing specs p i with
  | nil => simpa [addRouteRules, routeSpecs] using h
  | cons rule rules ih =>
    rw [addRouteRules]
    rcases hs : rule.convert lib dynamicResolver with e | s
    · have hspecs : routeSpecs lib dynamicResolver (rule :: rules) =
          routeSpecs lib dynamicResolver rules := by simp [routeSpecs, hs]
      rw [applyRouteACL, hs, hspecs]
      cases e with
      | sourceRangesEmpty => exact ih _ h
      | failed text => exact ih _ ⟨h.sound, h.old, h.origin, h.has, h.ids⟩
    · have hspecs : routeSpecs lib dynamicResolver (rule :: rules) =
          [s] ++ routeSpecs lib dynamicResolver rules := by simp [routeSpecs, hs]
      rw [applyRouteACL, hs, hrefused, hspecs, ← append_assoc]
      exact ih _ (h.step rule.policyID s)

/-- **The deletions** take the rules with the given ids out of the table. -/
theorem deleteRouteRules_spec (ids : List RuleID) (h : p.table.Sound) :
    (deleteRouteRules p ids).table.Sound ∧
      (deleteRouteRules p ids).newRouteRules = p.newRouteRules ∧
      ∀ r, r ∈ (deleteRouteRules p ids).table.routeRules ↔ r ∈ p.table.routeRules ∧ r.id ∉ ids := by
  induction ids generalizing p with
  | nil => exact ⟨h, rfl, by simp [deleteRouteRules]⟩
  | cons id ids ih =>
    obtain ⟨q, heq, hq, hnew, hmem⟩ : ∃ q : RouteProgress,
        deleteRouteRules p (id :: ids) = deleteRouteRules q ids ∧ q.table.Sound ∧
        q.newRouteRules = p.newRouteRules ∧
        ∀ r, r ∈ q.table.routeRules ↔ r ∈ p.table.routeRules ∧ r.id ≠ id := by
      rw [deleteRouteRules, foldl_cons]
      by_cases hex : ∃ r ∈ p.table.routeRules, r.id = id
      · obtain ⟨t, ht, hsound, hmem⟩ := h.delete hex
        exact ⟨{ p with table := t }, by rw [ht]; rfl, hsound, rfl, hmem⟩
      · obtain ⟨e, he⟩ := h.delete_absent hex
        refine ⟨{ p with errors := p.errors ++ ["delete route rule: " ++ e] }, by rw [he]; rfl, h, rfl,
          fun r => ?_⟩
        exact ⟨fun hr => ⟨hr, fun hid => hex ⟨r, hr, hid⟩⟩, fun hr => hr.1⟩
    obtain ⟨hsound, hnew', hmem'⟩ := ih hq
    rw [heq]
    refine ⟨hsound, hnew'.trans hnew, fun r => ?_⟩
    rw [hmem', hmem, and_assoc, mem_cons, not_or]

/-- The route rules of the filter are those that the manager knows, and say what their keys stand
for. -/
structure DefaultManager.RoutesConsistent (lib : Library) (d : DefaultManager) : Prop where
  sound : d.firewall.routeTable.Sound
  ids : ∀ id, id ∈ d.routeRules ↔ ∃ r ∈ d.firewall.routeTable.routeRules, r.id = id
  made : Made lib d.firewall.routeTable

def Update.specs (lib : Library) (u : Update) : List RouteSpec :=
  routeSpecs lib u.dnsRouteFeatureFlag u.networkMap.routesFirewallRules

theorem mem_specs : s ∈ u.specs lib ↔
    ∃ rule ∈ u.networkMap.routesFirewallRules, rule.convert lib u.dnsRouteFeatureFlag = .ok s := by
  rw [Update.specs, routeSpecs, mem_filterMap]
  refine exists_congr fun rule => and_congr_right fun _ => ?_
  rcases rule.convert lib u.dnsRouteFeatureFlag with e | s
  · simp
  · simp

theorem protocol_of_mem_specs (h : s ∈ u.specs lib) : ∀ name, s.protocol ≠ .other name := by
  obtain ⟨rule, -, hconv⟩ := mem_specs.mp h
  exact convert_protocol hconv

/-- What holds of the route rules after an update. -/
structure RoutesAfter (lib : Library) (start t : RouteTable) (specs : List RouteSpec) : Prop where
  sound : t.Sound
  old : ∀ r ∈ start.routeRules, (∃ s ∈ specs, s.key lib = r.id) → r ∈ t.routeRules
  origin : ∀ r ∈ t.routeRules, r ∈ start.routeRules ∨
    ∃ s ∈ specs, r.id = s.key lib ∧ content r = s.content lib
  has : ∀ s ∈ specs, ∃ r ∈ t.routeRules, r.id = s.key lib
  keys : ∀ r ∈ t.routeRules, ∃ s ∈ specs, s.key lib = r.id

/-- **The route rules after a call.** -/
theorem applyFiltering_routes (hd : d.RoutesConsistent lib) (hu : u.Succeeds lib) :
    RoutesAfter lib d.firewall.routeTable (d.applyFiltering lib u).firewall.routeTable
        (u.specs lib) ∧ (d.applyFiltering lib u).RoutesConsistent lib := by
  have hloop := (RouteLoop.init lib hd.sound).run hu.routeCalls u.dnsRouteFeatureFlag
    u.networkMap.routesFirewallRules 0
  obtain ⟨hsound, hnew, hmem⟩ := deleteRouteRules_spec
    (d.routeRules.filter (· ∉ (addRouteRules lib u.dnsRouteFeatureFlag u.refusedRoute 0
      u.networkMap.routesFirewallRules ⟨d.firewall.routeTable, [], []⟩).newRouteRules)) hloop.sound
  set p := addRouteRules lib u.dnsRouteFeatureFlag u.refusedRoute 0
    u.networkMap.routesFirewallRules ⟨d.firewall.routeTable, [], []⟩ with hp
  have htable : (d.applyFiltering lib u).firewall.routeTable =
      (deleteRouteRules p (d.routeRules.filter (· ∉ p.newRouteRules))).table := rfl
  have hrules : (d.applyFiltering lib u).routeRules = p.newRouteRules := hnew
  -- what stays is what has a key of the new map
  have hstays : ∀ r, r ∈ (d.applyFiltering lib u).firewall.routeTable.routeRules ↔
      r ∈ p.table.routeRules ∧ ∃ s ∈ u.specs lib, s.key lib = r.id := by
    intro r
    rw [htable, hmem]
    refine and_congr_right fun hr => ?_
    rw [mem_filter, decide_eq_true_eq, not_and, not_not, hloop.ids]
    refine ⟨fun h => ?_, fun h _ => h⟩
    rcases hloop.origin r hr with hold | ⟨s, hs, hid, -⟩
    · exact h ((hd.ids r.id).mpr ⟨r, hold, rfl⟩)
    · exact ⟨s, hs, hid.symm⟩
  have hafter : RoutesAfter lib d.firewall.routeTable (d.applyFiltering lib u).firewall.routeTable
      (u.specs lib) := by
    refine ⟨htable ▸ hsound, fun r hr hs => (hstays r).mpr ⟨hloop.old r hr, hs⟩,
      fun r hr => hloop.origin r ((hstays r).mp hr).1, fun s hs => ?_, fun r hr => ((hstays r).mp hr).2⟩
    obtain ⟨r, hr, hid⟩ := hloop.has s hs
    exact ⟨r, (hstays r).mpr ⟨hr, s, hs, hid.symm⟩, hid⟩
  refine ⟨hafter, hafter.sound, fun id => ?_, fun r hr => ?_⟩
  · rw [hrules, hloop.ids]
    constructor
    · rintro ⟨s, hs, rfl⟩
      exact hafter.has s hs
    · rintro ⟨r, hr, rfl⟩
      exact hafter.keys r hr
  · rcases hafter.origin r hr with hold | ⟨s, hs, hid, hcontent⟩
    · exact hd.made r hold
    · exact ⟨s, protocol_of_mem_specs hs, hid, hcontent⟩

/-- No rule of the map has the key of another one, in the map or in the filter, that says something
else. -/
def PlainRoutes (lib : Library) (d : DefaultManager) (u : Update) : Prop :=
  ∀ s ∈ u.specs lib,
    (∀ r ∈ d.firewall.routeTable.routeRules, r.id = s.key lib → content r = s.content lib) ∧
      ∀ s' ∈ u.specs lib, s'.key lib = s.key lib → s'.content lib = s.content lib

/-- **When the route rules are those of the map.** -/
theorem routesExactly_iff (hd : d.RoutesConsistent lib) (hu : u.Succeeds lib) :
    RoutesExactly lib (d.applyFiltering lib u).firewall.routeTable (u.specs lib) ↔
      PlainRoutes lib d u := by
  obtain ⟨hafter, hcons⟩ := applyFiltering_routes hd hu
  -- rules that say the same have one key, and there is one rule for each key
  have hsame : ∀ r ∈ (d.applyFiltering lib u).firewall.routeTable.routeRules,
      ∀ s : RouteSpec, (∀ name, s.protocol ≠ .other name) → content r = s.content lib →
        r.id = s.key lib := by
    intro r hr s hproto heq
    obtain ⟨s', hproto', hid, hcontent⟩ := hcons.made r hr
    -- what a rule says determines its key
    have h := hcontent.symm.trans heq
    have htext : s'.destination.text = s.destination.text := by
      rw [text_destination lib s', text_destination lib s, h]
    simp only [RouteSpec.content, Acl.content, makeRouteRule, RouteRule.mk.injEq] at h
    obtain ⟨-, -, hsources, -, -, hp, -, hports, haction⟩ := h
    have hprotocol := protoToLayer_injective hproto' hproto hp
    simp only [hid, RouteSpec.key, generateRouteRuleKey, hsources, htext, hprotocol, hports, haction]
  have huniq : ∀ r ∈ (d.applyFiltering lib u).firewall.routeTable.routeRules,
      ∀ r' ∈ (d.applyFiltering lib u).firewall.routeTable.routeRules, r.id = r'.id → r = r' :=
    fun r hr r' hr' => inj_on_of_nodup_map hafter.sound.nodup hr hr'
  constructor
  · intro h s hs
    obtain ⟨r, hr, hcontent⟩ := mem_map.mp ((h.mem _).mpr ⟨s, hs, rfl⟩)
    have hid := hsame r hr s (protocol_of_mem_specs hs) hcontent
    refine ⟨fun r' hr' hid' => ?_, fun s' hs' hkey => ?_⟩
    · have hmem := hafter.old r' hr' ⟨s, hs, hid'.symm⟩
      rw [← huniq r hr r' hmem (hid.trans hid'.symm)]
      exact hcontent
    · obtain ⟨r', hr', hcontent'⟩ := mem_map.mp ((h.mem _).mpr ⟨s', hs', rfl⟩)
      have hid' := hsame r' hr' s' (protocol_of_mem_specs hs') hcontent'
      rw [← hcontent, ← hcontent', huniq r hr r' hr' (by rw [hid, hid', hkey])]
  · intro h
    refine ⟨?_, fun c => ?_⟩
    · refine Nodup.map_on (fun r hr r' hr' heq => ?_) (Nodup.of_map _ hafter.sound.nodup)
      obtain ⟨s', hproto', hid', hcontent'⟩ := hcons.made r' hr'
      exact huniq r hr r' hr' ((hsame r hr s' hproto' (heq.trans hcontent')).trans hid'.symm)
    · constructor
      · intro hc
        obtain ⟨r, hr, rfl⟩ := mem_map.mp hc
        rcases hafter.origin r hr with hold | ⟨s, hs, -, hcontent⟩
        · obtain ⟨s, hs, hkey⟩ := hafter.keys r hr
          exact ⟨s, hs, ((h s hs).1 r hold hkey.symm).symm⟩
        · exact ⟨s, hs, hcontent.symm⟩
      · rintro ⟨s, hs, rfl⟩
        obtain ⟨r, hr, hid⟩ := hafter.has s hs
        refine mem_map.mpr ⟨r, hr, ?_⟩
        rcases hafter.origin r hr with hold | ⟨s', hs', hid', hcontent⟩
        · exact (h s hs).1 r hold hid
        · exact hcontent.trans ((h s hs).2 s' hs' (hid'.symm.trans hid))

/-! ### Sequences of maps -/

def after (lib : Library) (stateful : Bool) (us : List Update) : DefaultManager :=
  us.foldl (DefaultManager.applyFiltering lib) (newDefaultManager stateful)

theorem after_consistent (lib : Library) (stateful : Bool) (us : List Update)
    (h : ∀ v ∈ us, v.Succeeds lib) :
    (after lib stateful us).Consistent ∧ (after lib stateful us).RoutesConsistent lib ∧
      (after lib stateful us).firewall.stateful = stateful := by
  induction us using reverseRecOn with
  | nil =>
    refine ⟨newDefaultManager_consistent stateful, ⟨RouteTable.Sound.empty, fun id => ?_, nofun⟩, rfl⟩
    simp [after, newDefaultManager, RouteTable.empty]
  | append_singleton us v ih =>
    obtain ⟨hpeers, hroutes, hstateful⟩ := ih fun w hw => h w (mem_append_left _ hw)
    have hv := h v (by simp)
    rw [after, foldl_append]
    exact ⟨(applyPeerACLs_of_succeeds hpeers (hv.taken _)).1, (applyFiltering_routes hroutes hv).2,
      hstateful⟩

/-- The filter has one peer rule for each thing that the map asks for and the filter needs a rule
for, each route rule of the map once, and no others. -/
structure Exact (lib : Library) (d : DefaultManager) (u : Update) : Prop where
  peers : InstallsExactly d.firewall.peerRules (neededPeers lib d.firewall.stateful u)
  routes : RoutesExactly lib d.firewall.routeTable (u.specs lib)

/-- **When the filter follows the last map.**  After every sequence of maps whose rules all convert
and are not refused, the filter has exactly the rules of the last map if and only if the last
map is plain: it does not stand for the default rules, has no rule for outgoing traffic with a
port and a protocol without ports, and none of its route rules has the key of a different rule,
in the map or in the filter. -/
theorem exact_iff (lib : Library) (stateful : Bool) (us : List Update) (u : Update)
    (h : ∀ v ∈ us ++ [u], v.Succeeds lib) : Exact lib (after lib stateful (us ++ [u])) u ↔
      PlainPeers lib stateful u ∧ PlainRoutes lib (after lib stateful us) u := by
  have hu := h u (by simp)
  obtain ⟨hpeers, hroutes, hstateful⟩ := after_consistent lib stateful us
    fun v hv => h v (mem_append_left _ hv)
  have hstep : after lib stateful (us ++ [u]) = (after lib stateful us).applyFiltering lib u := by
    rw [after, foldl_append]
    rfl
  rw [← routesExactly_iff hroutes hu, ← hstep]
  have hpeer := installsExactly_iff hpeers hu
  rw [hstateful] at hpeer
  rw [← hpeer]
  have hstateful' := (after_consistent lib stateful (us ++ [u]) h).2.2
  refine ⟨fun ⟨hp, hr⟩ => ⟨?_, hr⟩, fun ⟨hp, hr⟩ => ⟨?_, hr⟩⟩
  · rwa [hstateful', hstep] at hp
  · rwa [hstateful', hstep]

/-- A map that lets a peer in and routes to the given domains. -/
def routeTo (domains : List String) : Update where
  networkMap :=
    { firewallRules :=
        [{ peerIP := "100.64.0.2", direction := .IN, action := .ACCEPT, protocol := .TCP
           portInfo := some (.port 22) }]
      firewallRulesIsEmpty := false
      routesFirewallRules :=
        [{ sourceRanges := ["10.0.0.0/8"], action := .ACCEPT, destination := "", protocol := .TCP
           isDynamic := true, domains }] }
  dnsRouteFeatureFlag := true
  refusedPeer _ := none
  refusedRoute _ := none

end

def withDigest (sha256 : Bytes → Vector UInt8 32) : Library := { sampleLibrary with sha256 }

variable (sha256 : Bytes → Vector UInt8 32)

def routeSpecTo (domains : List String) : RouteSpec where
  sources := [⟨[10, 0, 0, 0], 8⟩]
  destination := .set (newDomainSet sha256 .ok (domains.map CaseMap.ascii.toLower))
  protocol := .tcp
  dPorts := none
  action := .accept

variable (domains : List String)

theorem specs_routeTo (h : domains ≠ []) :
    (routeTo domains).specs (withDigest sha256) = [routeSpecTo sha256 domains] := by
  have hlen : 0 < domains.length := List.length_pos_iff.mpr h
  simp only [Update.specs, routeTo, routeSpecs, List.filterMap_cons, List.filterMap_nil,
    RouteFirewallRule.convert, determineDestination, if_pos hlen]
  rfl

theorem succeeds_routeTo (h : domains ≠ []) : (routeTo domains).Succeeds (withDigest sha256) where
  peers r hr := by
    obtain rfl := List.mem_singleton.mp hr
    exact ⟨_, rfl, .inl rfl⟩
  routes r hr _ := by
    have hspec : routeSpecTo sha256 domains ∈ (routeTo domains).specs (withDigest sha256) := by
      rw [specs_routeTo sha256 domains h]
      exact List.mem_singleton_self _
    obtain ⟨rule, hrule, hconv⟩ := mem_specs.mp hspec
    rw [List.mem_singleton.mp hr, ← List.mem_singleton.mp hrule]
    exact ⟨_, hconv⟩
  peerCalls _ := rfl
  routeCalls _ := rfl

/-- The filter after the first map: one route rule, for its domains. -/
theorem after_routeTo (h : domains ≠ []) :
    (∃ r ∈ (after (withDigest sha256) true [routeTo domains]).firewall.routeTable.routeRules,
      r.id = (routeSpecTo sha256 domains).key (withDigest sha256)) ∧
    ∀ r ∈ (after (withDigest sha256) true [routeTo domains]).firewall.routeTable.routeRules,
      content r = (routeSpecTo sha256 domains).content (withDigest sha256) := by
  obtain ⟨-, hroutes, -⟩ := after_consistent (withDigest sha256) true [] nofun
  obtain ⟨hafter, -⟩ := applyFiltering_routes hroutes (succeeds_routeTo sha256 domains h)
  rw [specs_routeTo sha256 domains h] at hafter
  refine ⟨hafter.has _ (List.mem_singleton_self _), fun r hr => ?_⟩
  rcases hafter.origin r hr with hold | ⟨s, hs, -, hcontent⟩
  · nomatch hold
  · rw [hcontent, List.mem_singleton.mp hs]

theorem plainPeers_routeTo : PlainPeers (withDigest sha256) true (routeTo domains) :=
  ⟨nofun, nofun⟩

/-- A map that comes twice is followed. -/
theorem routeTo_followed :
    (∀ v ∈ [routeTo ["a.com"]] ++ [routeTo ["a.com"]], v.Succeeds sampleLibrary) ∧
      Exact sampleLibrary (after sampleLibrary true ([routeTo ["a.com"]] ++ [routeTo ["a.com"]]))
        (routeTo ["a.com"]) := by
  have hlib : sampleLibrary = withDigest fun _ => Vector.replicate 32 0 := rfl
  have hsucceeds : ∀ v ∈ [routeTo ["a.com"]] ++ [routeTo ["a.com"]], v.Succeeds sampleLibrary := by
    intro v hv
    obtain rfl : v = routeTo ["a.com"] := by simpa using hv
    exact succeeds_routeTo _ _ (by decide)
  refine ⟨hsucceeds, (exact_iff _ _ _ _ hsucceeds).mpr ⟨plainPeers_routeTo _ _, ?_⟩⟩
  rw [hlib]
  intro s hs
  rw [specs_routeTo _ _ (by decide), List.mem_singleton] at hs
  subst hs
  refine ⟨fun r hr _ => (after_routeTo _ _ (by decide)).2 r hr, fun s' hs' _ => ?_⟩
  rw [specs_routeTo _ _ (by decide), List.mem_singleton] at hs'
  rw [hs']

theorem comment_routeSpecTo :
    ((routeSpecTo sha256 domains).content (withDigest sha256)).dstSet.comment =
      ", ".intercalate ((domains.map CaseMap.ascii.toLower).insertionSort (· ≤ ·)) :=
  comment_newDomainSet sha256 _

/-- The names of the two sets read the same, so the rules for them have one key. -/
theorem key_shared : (routeSpecTo sha256 ["a.com", "b.com"]).key (withDigest sha256) =
      (routeSpecTo sha256 ["a.comb.com"]).key (withDigest sha256) := by
  have htext := text_newDomainSet_eq sha256 .ok (["a.com", "b.com"].map CaseMap.ascii.toLower)
    (["a.comb.com"].map CaseMap.ascii.toLower) (by decide +kernel)
    (by rw [comment_newDomainSet]; decide +kernel) (by rw [comment_newDomainSet]; decide +kernel)
  simp only [RouteSpec.key, generateRouteRuleKey, routeSpecTo, htext]

/-- **The rule of an earlier map stays** in place of the one for `a.comb.com`, whatever the
digest. -/
theorem earlier_domains_stay :
    (∀ sha256, ∀ v ∈ [routeTo ["a.com", "b.com"]] ++ [routeTo ["a.comb.com"]],
      v.Succeeds (withDigest sha256)) ∧ ∀ sha256, ¬ Exact (withDigest sha256)
        (after (withDigest sha256) true ([routeTo ["a.com", "b.com"]] ++ [routeTo ["a.comb.com"]]))
        (routeTo ["a.comb.com"]) := by
  refine ⟨fun sha256 v hv => ?_, fun sha256 hexact => ?_⟩
  · rcases List.mem_pair.mp hv with rfl | rfl <;> exact succeeds_routeTo sha256 _ (by decide)
  · obtain ⟨-, hroutes, -⟩ := after_consistent (withDigest sha256) true
      [routeTo ["a.com", "b.com"]] fun v hv => by
        rw [List.mem_singleton.mp hv]
        exact succeeds_routeTo sha256 _ (by decide)
    have hplain := (routesExactly_iff hroutes (succeeds_routeTo sha256 _ (by decide))).mp hexact.routes
    have hspec := specs_routeTo sha256 ["a.comb.com"] (by decide)
    obtain ⟨⟨r, hr, hid⟩, hcontent⟩ := after_routeTo sha256 ["a.com", "b.com"] (by decide)
    have hsame := (hplain _ (hspec ▸ List.mem_singleton_self _)).1 r hr
      (hid.trans (key_shared sha256))
    have hcomment := congrArg (·.dstSet.comment) ((hcontent r hr).symm.trans hsame)
    exact absurd hcomment (by rw [comment_routeSpecTo, comment_routeSpecTo]; decide +kernel)

end Netbird.Acl
