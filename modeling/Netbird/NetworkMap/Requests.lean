/-
The requests of a run over the policies.

A run of `GetPeerConnectionResources` asks for firewall rules one after another, each request
for a policy rule, a direction and a peer on a side across from the target. Rules are recorded
by an ID and peers by theirs, and what was recorded before is skipped. So the outcome of a run
is what the first requests add.

* `eq_of_id_eq` — requests for one policy rule are told apart by their IDs;
* `connectionResources_only`, `connectionResources_lists` — the peers collected are those
  across from the target.
-/
import Netbird.NetworkMap.Acl

namespace Netbird

open Keyed List

def Direction.opposite : Direction → Direction
  | .inbound => .outbound
  | .outbound => .inbound

/-- The direction of the rules for the peers on a side. -/
def Side.direction : Side → Direction
  | .sources => .inbound
  | .destinations => .outbound

@[simp] theorem Direction.opposite_opposite (d : Direction) : d.opposite.opposite = d := by
  cases d <;> rfl

theorem Side.direction_other (side : Side) : side.other.direction = side.direction.opposite := by
  cases side <;> rfl

/-! ### The requests of a run -/

/-- A request for the rules of one direction for one peer. -/
structure RuleRequest where
  rule : PolicyRule
  direction : Direction
  peer : Peer

namespace RuleRequest

open ConnResources

variable (env : MapEnv) (target : Peer) (users : SSHUsers)

def base (req : RuleRequest) : FirewallRule :=
  baseRule req.rule req.direction req.peer

/-- The ID under which the rules are recorded. -/
def id (req : RuleRequest) : String :=
  ruleID req.rule req.base

/-- The rules that are added, if the ID is new. -/
def emitted (req : RuleRequest) : List FirewallRule :=
  if req.rule.ports.length = 0 ∧ req.rule.portRanges.length = 0 then [req.base]
  else expandPortsAndRanges env req.base req.rule target

variable (view : Side → Members) (rule : PolicyRule)

/-- The requests for the peers on a side. -/
def onSide (side : Side) (direction : Direction) : List RuleRequest :=
  if (view side.other).target then (view side).peers.map (⟨rule, direction, ·⟩) else []

/-- The requests for a policy rule, in the order of the source. -/
def ofRule : List RuleRequest :=
  (if rule.bidirectional then
    onSide view rule .destinations .inbound ++ onSide view rule .sources .outbound
  else []) ++ (onSide view rule .destinations .outbound ++ onSide view rule .sources .inbound)

def ofRules (view : Policy → PolicyRule → Side → Members) (prs : List (Policy × PolicyRule)) :
    List RuleRequest :=
  prs.flatMap fun pr => ofRule (view pr.1 pr.2) pr.2

/-- What a run remembers and adds, the SSH users aside: rules by their IDs, and peers by
theirs. -/
def progress (st : ConnResources) : (List String × List FirewallRule) × (List String × List Peer) :=
  ((st.rulesExists, st.rules), (st.peersExists, st.peers))

/-- One step of a run on that. -/
def serve (s : (List String × List FirewallRule) × (List String × List Peer)) (req : RuleRequest) :
    (List String × List FirewallRule) × (List String × List Peer) :=
  (Keyed.emitNew id (emitted env target) s.1 req,
    Keyed.emitNew (·.peer.id) (fun req => [req.peer]) s.2 req)

theorem progress_addRules (direction : Direction) (st : ConnResources) (peer : Peer) :
    progress (addRules env target rule direction (st.addPeer peer) peer) =
      serve env target (progress st) ⟨rule, direction, peer⟩ := by
  have hpeers : ((st.addPeer peer).peersExists, (st.addPeer peer).peers) =
      emitNew (·.peer.id) (fun req : RuleRequest => [req.peer]) (st.peersExists, st.peers)
        ⟨rule, direction, peer⟩ := by
    rw [ConnResources.addPeer, emitNew]
    split_ifs <;> rfl
  have hrules : (st.addPeer peer).rulesExists = st.rulesExists ∧
      (st.addPeer peer).rules = st.rules := by
    rw [ConnResources.addPeer]
    split_ifs <;> exact ⟨rfl, rfl⟩
  have hp : (addRules env target rule direction (st.addPeer peer) peer).peers =
        (st.addPeer peer).peers ∧
      (addRules env target rule direction (st.addPeer peer) peer).peersExists =
        (st.addPeer peer).peersExists := by
    rw [addRules]
    split_ifs <;> exact ⟨rfl, rfl⟩
  refine Prod.ext ?_ ?_
  · change ((addRules env target rule direction (st.addPeer peer) peer).rulesExists,
      (addRules env target rule direction (st.addPeer peer) peer).rules) = _
    rw [progress, ← hrules.1, ← hrules.2]
    exact apply_ite (fun st : ConnResources => (st.rulesExists, st.rules)) _ _ _
  · change ((addRules env target rule direction (st.addPeer peer) peer).peersExists,
      (addRules env target rule direction (st.addPeer peer) peer).peers) = _
    rw [hp.1, hp.2, hpeers]
    rfl

theorem progress_generate (direction : Direction) (st : ConnResources) (peers : List Peer) :
    progress (generate env target rule direction st peers) =
      (peers.map (⟨rule, direction, ·⟩)).foldl (serve env target) (progress st) := by
  induction peers generalizing st with
  | nil => rfl
  | cons peer peers ih =>
    rw [map_cons, foldl_cons, ← progress_addRules]
    exact ih _

theorem progress_reach (side : Side) (direction : Direction) (st : ConnResources) :
    progress (reach env target view rule side direction st) =
      (onSide view rule side direction).foldl (serve env target) (progress st) := by
  rw [reach, onSide]
  split_ifs
  · exact progress_generate env target rule direction st _
  · rfl

theorem progress_applyRule (st : ConnResources) :
    progress (applyRule env target users view st rule) =
      (ofRule view rule).foldl (serve env target) (progress st) := by
  have hssh : ∀ st : ConnResources, progress
      (if (view .destinations).target then st.addSSH target users rule else st) = progress st := by
    intro st
    rw [addSSH]
    split_ifs <;> rfl
  rw [applyRule, hssh, progress_reach, progress_reach, ofRule, foldl_append,
    foldl_append]
  split_ifs
  · rw [progress_reach, progress_reach, foldl_append]
  · rfl

def run (view : Policy → PolicyRule → Side → Members) (prs : List (Policy × PolicyRule)) :
    ConnResources :=
  prs.foldl (fun st pr => applyRule env target users (view pr.1 pr.2) st pr.2) {}

variable (view : Policy → PolicyRule → Side → Members) (prs : List (Policy × PolicyRule))

theorem progress_run : progress (run env target users view prs) =
      (ofRules view prs).foldl (serve env target) (([], []), ([], [])) := by
  rw [ofRules, foldl_flatMap]
  exact (@foldl_hom _ _ _ progress _ _ prs {} fun st pr =>
    (progress_applyRule env target users (view pr.1 pr.2) pr.2 st).symm).symm

/-- **The rules of a run** are those of the requests that come first under their ID. -/
theorem run_rules : (run env target users view prs).rules =
      (firsts id (ofRules view prs)).flatMap (emitted env target) := by
  have hprogress := progress_run env target users view prs
  unfold serve at hprogress
  rw [foldl_prod] at hprogress
  have hrules := congrArg (·.1.2) hprogress
  exact hrules.trans (foldl_emitNew id (emitted env target) _ ([], []))

/-- **The peers of a run** are those of the requests that come first for their peer. -/
theorem run_peers : (run env target users view prs).peers =
      (firsts (·.peer.id) (ofRules view prs)).flatMap fun req => [req.peer] := by
  have hprogress := progress_run env target users view prs
  unfold serve at hprogress
  rw [foldl_prod] at hprogress
  have hpeers := congrArg (·.2.2) hprogress
  exact hpeers.trans (foldl_emitNew (·.peer.id) (fun req : RuleRequest => [req.peer]) _ ([], []))

theorem connectionResources_rules (policies : List Policy) :
    (connectionResources env target users view policies).rules =
      (firsts id (ofRules view (enabledRules policies))).flatMap (emitted env target) := by
  rw [connectionResources_eq]
  exact run_rules env target users view _

theorem connectionResources_peers (policies : List Policy) :
    (connectionResources env target users view policies).peers =
      (firsts (·.peer.id) (ofRules view (enabledRules policies))).flatMap
        fun req => [req.peer] := by
  rw [connectionResources_eq]
  exact run_peers env target users view _

/-! ### What a request adds -/

variable {env target} {req req' : RuleRequest}

theorem isPortOf_of_mem_emitted {fr : FirewallRule} (h : fr ∈ req.emitted env target) :
    fr.IsPortOf req.base := by
  rw [emitted] at h
  split_ifs at h
  · exact ⟨_, _, mem_singleton.mp h⟩
  · exact isPortOf_of_mem_expand h

theorem emitted_ne_nil (h : req.rule.portRanges = []) : req.emitted env target ≠ [] := by
  rw [emitted]
  split_ifs with hports
  · exact cons_ne_nil _ _
  · have hlen : req.rule.ports.length > 0 := by
      rw [h] at hports
      exact Nat.pos_of_ne_zero fun h0 => hports ⟨h0, rfl⟩
    have hne : req.rule.ports.map (fun port => { req.base with port := port }) ≠ [] := by
      rw [Ne, map_eq_nil_iff]
      exact length_pos_iff.mp hlen
    rw [expandPortsAndRanges]
    split_ifs
    · rw [addNativeSSHRule]
      split_ifs
      · exact hne
      · exact fun happend => hne (append_eq_nil_iff.mp happend).1
      · exact hne
    · exact hne

theorem mem_onSide {view : Side → Members} {rule : PolicyRule} {side : Side} {d : Direction} :
    req ∈ onSide view rule side d ↔ req.rule = rule ∧ req.direction = d ∧
      (view side.other).target = true ∧ req.peer ∈ (view side).peers := by
  obtain ⟨rule', d', peer⟩ := req
  rw [onSide]
  split_ifs with ht
  · simp only [mem_map, RuleRequest.mk.injEq]
    constructor
    · rintro ⟨q, hq, rfl, rfl, rfl⟩
      exact ⟨rfl, rfl, ht, hq⟩
    · rintro ⟨rfl, rfl, -, hq⟩
      exact ⟨peer, hq, rfl, rfl, rfl⟩
  · simp [ht]

theorem mem_ofRule {view : Side → Members} {rule : PolicyRule} :
    req ∈ ofRule view rule ↔ req.rule = rule ∧ ∃ side : Side, (view side.other).target = true ∧
      req.peer ∈ (view side).peers ∧ (rule.bidirectional = true ∨ req.direction = side.direction) := by
  rw [Side.exists_iff, ofRule]
  cases rule.bidirectional <;> cases hd : req.direction <;>
    simp [mem_onSide, Side.direction, Side.other, hd] <;> tauto

/-- Requests for one policy rule have one ID only if they are for one address and direction. -/
theorem eq_of_id_eq (hrule : req'.rule = req.rule) (hid : req'.id = req.id) :
    req'.direction = req.direction ∧ req'.peer.ipText = req.peer.ipText := by
  have hshape : ∀ r : RuleRequest, r.id.toList =
      r.rule.id.toList ++ (r.peer.ipText.toList ++ r.direction.text.toList) ++
        (r.base.protocol.text.toList ++ r.rule.action.text.toList ++
          (",".intercalate r.rule.ports).toList) := by
    simp [id, ruleID, base, baseRule]
  have hone : ∀ d : Direction, d.text.toList.length = 1 := by
    intro d
    cases d <;> rfl
  have hlists : req'.id.toList = req.id.toList := congrArg String.toList hid
  have hprotocol : req'.base.protocol = req.base.protocol := by
    simp [base, baseRule, hrule]
  rw [hshape, hshape, hrule, hprotocol] at hlists
  -- the text of a direction is one character, so the addresses end at the same place
  obtain ⟨hip, hdir⟩ := append_inj'
    (append_cancel_left (append_cancel_right hlists)) ((hone _).trans (hone _).symm)
  refine ⟨?_, String.ext hip⟩
  cases hd : req.direction <;> cases hd' : req'.direction <;>
    first | rfl | simp [hd, hd', Direction.text] at hdir

/-! ### Who is asked for -/

section Across

variable {users : SSHUsers} {view : Policy → PolicyRule → Side → Members} {policies : List Policy}

theorem acrossFrom_of_mem (h : req ∈ ofRules view (enabledRules policies)) :
    AcrossFrom view policies req.peer := by
  obtain ⟨pr, hpr, hreq⟩ := mem_flatMap.mp h
  obtain ⟨-, side, ht, hp, -⟩ := mem_ofRule.mp hreq
  exact ⟨pr, hpr, side, ht, hp⟩

theorem exists_request {p : Peer} (h : AcrossFrom view policies p) :
    ∃ req ∈ ofRules view (enabledRules policies), req.peer = p := by
  obtain ⟨pr, hpr, side, ht, hp⟩ := h
  refine ⟨⟨pr.2, side.direction, p⟩, mem_flatMap.mpr ⟨pr, hpr, ?_⟩, rfl⟩
  exact mem_ofRule.mpr ⟨rfl, side, ht, hp, .inr rfl⟩

/-- **Soundness of the loop**: it collects only peers that are across from the target, and
firewall rules only for their addresses. -/
theorem connectionResources_only :
    (connectionResources env target users view policies).Only (AcrossFrom view policies) := by
  refine ⟨fun p hp => ?_, fun fr hfr => ?_⟩
  · rw [connectionResources_peers] at hp
    obtain ⟨req, hreq, hp⟩ := mem_flatMap.mp hp
    rw [mem_singleton.mp hp]
    exact acrossFrom_of_mem (mem_of_find?_eq_some (mem_firsts.mp hreq))
  · rw [connectionResources_rules] at hfr
    obtain ⟨req, hreq, hfr⟩ := mem_flatMap.mp hfr
    obtain ⟨_, _, rfl⟩ := isPortOf_of_mem_emitted hfr
    exact ⟨req.peer, acrossFrom_of_mem (mem_of_find?_eq_some (mem_firsts.mp hreq)), rfl⟩

/-- **Completeness of the loop**: a peer across from the target is listed. -/
theorem connectionResources_lists {p : Peer} (h : AcrossFrom view policies p) :
    ∃ q ∈ (connectionResources env target users view policies).peers, q.id = p.id := by
  obtain ⟨req, hreq, rfl⟩ := exists_request h
  obtain ⟨first, hfirst, -, hid⟩ := @Keyed.exists_mem_firstsFrom _ _ (fun req => req.peer.id) _ _ []
    _ hreq not_mem_nil
  rw [connectionResources_peers]
  exact ⟨first.peer, mem_flatMap.mpr ⟨first, hfirst, mem_singleton_self _⟩, hid⟩

end Across

end RuleRequest

/-! ### SSH users of a run -/

namespace ConnResources

variable (env : MapEnv) (target : Peer) (users : SSHUsers)

def sshPart (st : ConnResources) : StringMap (List String) × Bool :=
  (st.authorizedUsers, st.sshEnabled)

/-- What `addSSH` makes of the users. -/
def grant (rule : PolicyRule) (s : StringMap (List String) × Bool) : StringMap (List String) × Bool :=
  if rule.protocol = .netbirdSSH then (authorizeNative users rule s.1, true)
  else if policyRuleImpliesLegacySSH rule && target.sshEnabled then
    (s.1.insert sshWildcard users.allowedUserIDs, true)
  else s

theorem sshPart_addSSH (rule : PolicyRule) (st : ConnResources) :
    (st.addSSH target users rule).sshPart = grant target users rule st.sshPart := by
  rw [addSSH, grant]
  split_ifs <;> rfl

theorem sshPart_generate (rule : PolicyRule) (direction : Direction) (st : ConnResources)
    (peers : List Peer) : (generate env target rule direction st peers).sshPart = st.sshPart := by
  induction peers generalizing st with
  | nil => rfl
  | cons peer peers ih =>
    refine (ih _).trans ?_
    have hpeer : (st.addPeer peer).sshPart = st.sshPart := by
      rw [addPeer]
      split_ifs <;> rfl
    change (addRules env target rule direction (st.addPeer peer) peer).sshPart = _
    rw [addRules]
    split_ifs <;> exact hpeer

theorem sshPart_applyRule (view : Side → Members) (rule : PolicyRule) (st : ConnResources) :
    (applyRule env target users view st rule).sshPart =
      if (view .destinations).target then grant target users rule st.sshPart else st.sshPart := by
  have hreach : ∀ side direction (st : ConnResources),
      (reach env target view rule side direction st).sshPart = st.sshPart := by
    intro side direction st
    rw [reach]
    split_ifs
    · exact sshPart_generate env target rule direction st _
    · rfl
  dsimp only [applyRule]
  rw [apply_ite sshPart, sshPart_addSSH, hreach, hreach, apply_ite sshPart, hreach, hreach, ite_self]

end ConnResources

end Netbird
