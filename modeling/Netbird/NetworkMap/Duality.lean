/-
Whether the firewall rules of two peers are dual.

The rules of two peers come from two runs of the same loop, with the sides of every policy
rule swapped. A run asks for one rule after another, each for a policy rule, a direction and a
peer across, and skips those whose ID was seen before. The ID joins its parts with nothing in
between, so two policy rules can share one: a run then leaves out a rule that its counterpart
keeps.

* `lists_comm` — two peers always list each other or neither;
* `hasRule_iff` — a peer has a rule for another if a policy rule connects them and no earlier
  one has taken its ID;
* `dual_iff` — the rules are dual exactly if IDs are taken on both ends or on neither.
-/
import Netbird.NetworkMap.AclAgreement

namespace Netbird

open List RuleRequest

/-! ### Two peers of an account -/

/-- The policy rules of an account, those that are not enabled included. -/
def allRules (policies : List Policy) : List (Policy × PolicyRule) :=
  policies.flatMap fun policy => policy.rules.map (policy, ·)

theorem enabledRules_eq (policies : List Policy) :
    enabledRules policies = (allRules policies).filter fun pr => pr.1.enabled && pr.2.enabled := by
  induction policies with
  | nil => rfl
  | cons policy policies ih =>
    rw [enabledRules] at ih
    cases hen : policy.enabled <;>
      simp [enabledRules, allRules, hen, ih, filter_map, Function.comp_def]

/-- The enabled rules that come before the one with the ID. -/
def rulesBefore (policies : List Policy) (ruleID : String) : List (Policy × PolicyRule) :=
  (enabledRules policies).takeWhile (·.2.id != ruleID)

namespace Account

variable (env : MapEnv) (a : Account) (args : MapArgs)

/-- No two peers have one address, and no two policy rules one ID. -/
structure Distinct : Prop where
  addresses : (a.peers.map (·.ipText)).Nodup
  ruleIDs : ((a.policies.flatMap (·.rules)).map (·.id)).Nodup

/-- The peer has a rule of the direction for the address of the other, made from the policy
rule with the ID, for the protocol and the action. -/
def HasRule (ruleID : String) (protocol : PolicyRuleProtocol) (action : PolicyTrafficAction)
    (d : Direction) (x y : Peer) : Prop :=
  ∃ fr ∈ (a.getPeerConnectionResources env x args).rules, fr.policyID = ruleID ∧
    fr.protocol = protocol ∧ fr.action = action ∧ fr.direction = d ∧ fr.peerIP = y.ipText

/-- The two peers list each other or neither; and for each policy rule without port ranges,
one has a rule for the other exactly if the other has the opposite rule for it. -/
structure Dual (x y : Peer) : Prop where
  lists : y ∈ (a.getPeerConnectionResources env x args).peers ↔
    x ∈ (a.getPeerConnectionResources env y args).peers
  rules : ∀ pr ∈ allRules a.policies, pr.2.portRanges = [] → ∀ protocol action d,
    a.HasRule env args pr.2.id protocol action d x y ↔
      a.HasRule env args pr.2.id protocol action d.opposite y x

/-- A rule of a policy connects two peers: they are on its two sides, and it gives the first a
rule of the direction for the second. -/
def Connects (validatedPeers : List String) (pr : Policy × PolicyRule) (d : Direction)
    (x y : Peer) : Prop :=
  ∃ side : Side, a.LegacyOnSide validatedPeers pr.1 pr.2 side.other x ∧
    a.LegacyOnSide validatedPeers pr.1 pr.2 side y ∧
    (pr.2.bidirectional = true ∨ d = side.direction)

/-- The ID of the rule for the peer across is taken: an earlier policy rule connects the peer
to another one under the same ID. -/
def Taken (validatedPeers : List String) (pr : Policy × PolicyRule) (d : Direction)
    (x y : Peer) : Prop :=
  ∃ pr' ∈ rulesBefore a.policies pr.2.id, ∃ (d' : Direction) (z : Peer), z.id ≠ x.id ∧
    a.Connects validatedPeers pr' d' x z ∧
      RuleRequest.id ⟨pr'.2, d', z⟩ = RuleRequest.id ⟨pr.2, d, y⟩

variable {env a args} {validatedPeers : List String} {pr pr' : Policy × PolicyRule}
  {d : Direction} {x y : Peer}

theorem Connects.symm (h : a.Connects validatedPeers pr d x y) :
    a.Connects validatedPeers pr d.opposite y x := by
  obtain ⟨side, hx, hy, hd⟩ := h
  refine ⟨side.other, by rwa [Side.other_other], hx, hd.imp_right ?_⟩
  rintro rfl
  exact side.direction_other.symm

theorem connects_comm :
    a.Connects validatedPeers pr d x y ↔ a.Connects validatedPeers pr d.opposite y x := by
  refine ⟨Connects.symm, fun h => ?_⟩
  have hsymm := h.symm
  rwa [Direction.opposite_opposite] at hsymm

theorem LegacyAcross.symm (h : a.LegacyAcross validatedPeers x y) :
    a.LegacyAcross validatedPeers y x := by
  obtain ⟨pr, hpr, side, hx, hy⟩ := h
  exact ⟨pr, hpr, side.other, by rwa [Side.other_other], hx⟩

variable (hx : a.getPeer x.id = some x)

include hx

theorem mem_peers_iff : y ∈ (a.getPeerConnectionResources env x args).peers ↔
      a.LegacyAcross args.validatedPeers x y ∧ y.id ≠ x.id := by
  exact ConnResources.mem_aclPart.symm.trans (mem_acl_iff hx)

/-- **Two peers list each other** or neither. -/
theorem lists_comm (hy : a.getPeer y.id = some y) :
    y ∈ (a.getPeerConnectionResources env x args).peers ↔
      x ∈ (a.getPeerConnectionResources env y args).peers := by
  rw [mem_peers_iff hx, mem_peers_iff hy, ne_comm]
  exact and_congr_left fun _ => ⟨LegacyAcross.symm, LegacyAcross.symm⟩

/-! ### Which rules a peer has -/

theorem mem_requests {req : RuleRequest} :
    req ∈ ofRule (a.ruleMembers validatedPeers x.id pr.1 pr.2) pr.2 ↔
      req.rule = pr.2 ∧ a.Connects validatedPeers pr req.direction x req.peer ∧
        req.peer.id ≠ x.id := by
  rw [mem_ofRule]
  refine and_congr_right fun _ => ?_
  constructor
  · rintro ⟨side, ht, hq, hd⟩
    obtain ⟨hq, hne⟩ := mem_ruleMembers.mp hq
    exact ⟨⟨side, (target_iff hx).mp ht, hq, hd⟩, hne⟩
  · rintro ⟨⟨side, ht, hq, hd⟩, hne⟩
    exact ⟨side, (target_iff hx).mpr ht, mem_ruleMembers.mpr ⟨hq, hne⟩, hd⟩

omit hx

theorem Connects.getPeer (h : a.Connects validatedPeers pr d x y) : a.getPeer y.id = some y := by
  obtain ⟨_, _, hy, _⟩ := h
  exact hy.1

theorem Distinct.eq_of_ipText (h : a.Distinct) (hx : a.getPeer x.id = some x)
    (hy : a.getPeer y.id = some y) (hip : x.ipText = y.ipText) : x = y :=
  inj_on_of_nodup_map h.addresses (getPeer_eq_some.mp hx).1 (getPeer_eq_some.mp hy).1 hip

theorem Distinct.nodup_allRules (h : a.Distinct) : ((allRules a.policies).map (·.2.id)).Nodup := by
  have heq : (allRules a.policies).map (·.2.id) = (a.policies.flatMap (·.rules)).map (·.id) := by
    simp [allRules, map_flatMap, Function.comp_def]
  rw [heq]
  exact h.ruleIDs

theorem mem_allRules_of_enabled (hpr : pr ∈ enabledRules a.policies) : pr ∈ allRules a.policies := by
  rw [enabledRules_eq] at hpr
  exact (mem_filter.mp hpr).1

/-- **Which requests are served**: those whose ID is not taken. -/
theorem mem_firsts_iff (hdist : a.Distinct) (hx : a.getPeer x.id = some x)
    (hpr : pr ∈ enabledRules a.policies) (hconn : a.Connects validatedPeers pr d x y)
    (hne : y.id ≠ x.id) : ⟨pr.2, d, y⟩ ∈ Keyed.firsts RuleRequest.id (RuleRequest.ofRules
        (a.ruleMembers validatedPeers x.id) (enabledRules a.policies)) ↔
      ¬ a.Taken validatedPeers pr d x y := by
  have hnodup : ((enabledRules a.policies).map (·.2.id)).Nodup := by
    rw [enabledRules_eq]
    exact (filter_sublist.map _).nodup hdist.nodup_allRules
  obtain ⟨before, after, hsplit⟩ := append_of_mem hpr
  -- the requests of the rule itself are a block, and no rule before it is the same
  have hbefore : ∀ pr' ∈ before, pr'.2.id ≠ pr.2.id := by
    rw [hsplit, map_append] at hnodup
    intro pr' hpr' hid
    exact (nodup_append.mp hnodup).2.2 _ (mem_map_of_mem hpr') _
      mem_cons_self hid
  have hearlier : ∀ req, req ∈ ofRules (a.ruleMembers validatedPeers x.id) before ↔
      ∃ pr' ∈ before, req.rule = pr'.2 ∧ a.Connects validatedPeers pr' req.direction x req.peer ∧
        req.peer.id ≠ x.id := by
    intro req
    rw [ofRules, mem_flatMap]
    exact exists_congr fun pr' => and_congr_right fun _ => mem_requests hx
  rw [hsplit, ofRules, flatMap_append, flatMap_cons, ← append_assoc,
    Keyed.mem_firsts_block ((mem_requests hx).mpr ⟨rfl, hconn, hne⟩)]
  · have hrules : rulesBefore a.policies pr.2.id = before := by
      rw [rulesBefore, hsplit, takeWhile_append_of_pos (by simpa using hbefore),
        takeWhile_cons_of_neg (by simp), append_nil]
    rw [Taken, hrules]
    constructor
    · rintro hnew ⟨pr', hpr', d', z, hz, hconn', hid⟩
      exact hnew ⟨pr'.2, d', z⟩ ((hearlier _).mpr ⟨pr', hpr', rfl, hconn', hz⟩) hid
    · rintro hfree ⟨rule, d', z⟩ hreq hid
      obtain ⟨pr', hpr', rfl, hconn', hz⟩ := (hearlier _).mp hreq
      exact hfree ⟨pr', hpr', d', z, hz, hconn', hid⟩
  · intro hmem
    obtain ⟨pr', hpr', hrule, -⟩ := (hearlier _).mp hmem
    exact hbefore pr' hpr' (congrArg PolicyRule.id hrule.symm)
  · intro req hreq hid
    obtain ⟨hrule, hreq, -⟩ := (mem_requests hx).mp hreq
    obtain ⟨hd, hip⟩ := RuleRequest.eq_of_id_eq hrule hid
    obtain ⟨rule, d', z⟩ := req
    obtain rfl : z = y := hdist.eq_of_ipText hreq.getPeer hconn.getPeer hip
    obtain rfl : d' = d := hd
    obtain rfl : rule = pr.2 := hrule
    rfl

/-- **Which rules a peer has** for another one, from a policy rule without port ranges. -/
theorem hasRule_iff (hdist : a.Distinct) (hx : a.getPeer x.id = some x)
    (hy : a.getPeer y.id = some y) (hne : y.id ≠ x.id) (hpr : pr ∈ allRules a.policies)
    (hranges : pr.2.portRanges = []) {protocol : PolicyRuleProtocol}
    {action : PolicyTrafficAction} : a.HasRule env args pr.2.id protocol action d x y ↔
      pr ∈ enabledRules a.policies ∧ (base ⟨pr.2, d, y⟩).protocol = protocol ∧
        pr.2.action = action ∧ a.Connects args.validatedPeers pr d x y ∧
          ¬ a.Taken args.validatedPeers pr d x y := by
  rw [HasRule, getPeerConnectionResources, connectionResources_rules]
  constructor
  · rintro ⟨fr, hfr, hid, hprotocol, haction, hd, hip⟩
    obtain ⟨req, hreq, hfr⟩ := mem_flatMap.mp hfr
    obtain ⟨_, _, rfl⟩ := isPortOf_of_mem_emitted hfr
    -- the ID and the address leave one request that it can come from
    obtain ⟨pr', hen, hmem⟩ := mem_flatMap.mp
      (mem_of_find?_eq_some (Keyed.mem_firsts.mp hreq))
    obtain ⟨hrule, hconn, -⟩ := (mem_requests hx).mp hmem
    obtain rfl : pr' = pr := inj_on_of_nodup_map hdist.nodup_allRules
      (mem_allRules_of_enabled hen) hpr ((congrArg PolicyRule.id hrule).symm.trans hid)
    obtain ⟨rule, d', z⟩ := req
    obtain rfl : rule = pr'.2 := hrule
    obtain rfl : d' = d := hd
    obtain rfl : z = y := hdist.eq_of_ipText hconn.getPeer hy hip
    exact ⟨hen, hprotocol, haction, hconn, (mem_firsts_iff hdist hx hen hconn hne).mp hreq⟩
  · rintro ⟨hen, hprotocol, haction, hconn, hfree⟩
    have hserved := (mem_firsts_iff hdist hx hen hconn hne).mpr hfree
    have hemitted : emitted env x ⟨pr.2, d, y⟩ ≠ [] :=
      emitted_ne_nil hranges
    obtain ⟨fr, hfr⟩ := exists_mem_of_ne_nil _ hemitted
    obtain ⟨_, _, hports⟩ := RuleRequest.isPortOf_of_mem_emitted hfr
    refine ⟨fr, mem_flatMap.mpr ⟨_, hserved, hfr⟩, ?_⟩
    rw [hports]
    exact ⟨rfl, hprotocol, haction, rfl, rfl⟩

/-- **The rules of two peers are dual** exactly if, for each policy rule without port ranges
that connects them, the ID is taken in the run of one peer whenever it is in that of the
other. -/
theorem dual_iff (env : MapEnv) (a : Account) (args : MapArgs) (x y : Peer) (hdist : a.Distinct)
    (hx : a.getPeer x.id = some x) (hy : a.getPeer y.id = some y) (hne : x.id ≠ y.id) :
    a.Dual env args x y ↔ ∀ pr ∈ enabledRules a.policies, pr.2.portRanges = [] → ∀ d,
        a.Connects args.validatedPeers pr d x y → (a.Taken args.validatedPeers pr d x y ↔
            a.Taken args.validatedPeers pr d.opposite y x) := by
  refine ⟨fun hdual pr hen hranges d hconn => ?_, fun h => ⟨lists_comm hx hy, ?_⟩⟩
  rotate_left
  · -- the rules are dual if IDs are taken in both runs or in neither
    intro pr hpr hranges protocol action d
    rw [hasRule_iff hdist hx hy hne.symm hpr hranges, hasRule_iff hdist hy hx hne hpr hranges,
      ← connects_comm]
    exact and_congr_right fun hen => and_congr_right fun _ => and_congr_right fun _ =>
      and_congr_right fun hconn => not_congr (h pr hen hranges d hconn)
  have hpr := mem_allRules_of_enabled hen
  have hrules := hdual.rules pr hpr hranges (RuleRequest.base ⟨pr.2, d, y⟩).protocol pr.2.action d
  rw [hasRule_iff hdist hx hy hne.symm hpr hranges,
    hasRule_iff hdist hy hx hne hpr hranges] at hrules
  constructor
  · intro htaken
    by_contra hfree
    exact (hrules.mpr ⟨hen, rfl, rfl, hconn.symm, hfree⟩).2.2.2.2 htaken
  · intro htaken
    by_contra hfree
    exact (hrules.mp ⟨hen, rfl, rfl, hconn, hfree⟩).2.2.2.2 htaken

end Account

/-! ### Two accounts -/

def meshArgs : MapArgs where
  peersCustomZone := { domain := "" }
  validatedPeers := ["laptop", "server"]

/-- With a single rule, no ID is taken. -/
theorem mesh_dual : meshAccount.Dual plainEnv meshArgs laptop server := by
  refine (Account.dual_iff plainEnv meshAccount meshArgs laptop server ⟨by decide, by decide⟩ rfl rfl
    (by decide)).mpr fun pr hpr _ d _ => ?_
  obtain rfl : pr = (meshPolicy, meshRule) := mem_singleton.mp hpr
  have hnone : rulesBefore meshAccount.policies meshRule.id = [] := rfl
  simp [Account.Taken, hnone]

def printer : Peer := { id := "printer", key := "printer-key", ip := [10, 64, 0, 1] }

def gateway : Peer := { id := "gateway", key := "gateway-key", ip := [110, 64, 0, 1] }

/-- Two rules, the ID of one of which continues the other's. -/
def floorPolicy : Policy where
  id := "floor"
  rules :=
    [{ id := "r", sources := ["laptops"], destinations := ["gateways"] },
      { id := "r1", sources := ["laptops"], destinations := ["printers"] }]

def floorAccount : Account where
  peers := [laptop, gateway, printer]
  groups :=
    [{ id := "laptops", peers := ["laptop"] }, { id := "gateways", peers := ["gateway"] },
      { id := "printers", peers := ["printer"] }]
  policies := [floorPolicy]

def floorArgs : MapArgs where
  peersCustomZone := { domain := "" }
  validatedPeers := ["laptop", "gateway", "printer"]

/-- The printer accepts the laptop, and the laptop has no rule for the printer: its ID is
that of the rule for the gateway. -/
theorem printer_rule_missing :
    floorAccount.Distinct ∧ floorAccount.getPeer laptop.id = some laptop ∧
      floorAccount.getPeer printer.id = some printer ∧ laptop.id ≠ printer.id ∧
      laptop.id ∈ floorArgs.validatedPeers ∧ printer.id ∈ floorArgs.validatedPeers ∧
      ¬ floorAccount.Dual plainEnv floorArgs laptop printer := by
  refine ⟨⟨by decide, by decide⟩, rfl, rfl, by decide, by decide, by decide, fun hdual => ?_⟩
  have hprinter : floorAccount.HasRule plainEnv floorArgs "r1" .all .accept .inbound
      printer laptop :=
    ⟨{ policyID := "r1", peerIP := "100.64.0.1", direction := .inbound, action := .accept,
       protocol := .all }, mem_singleton.mpr rfl, rfl, rfl, rfl, rfl, rfl⟩
  obtain ⟨fr, hfr, hid, -⟩ := (hdual.rules (floorPolicy, _) (.tail _ (.head _)) rfl
    .all .accept .outbound).mpr hprinter
  obtain rfl := mem_singleton.mp hfr
  exact absurd hid (by decide)

end Netbird
