/-
The order of policies and rules.

`GetPeerConnectionResources` runs through the policies and their rules once. Peers are listed
by ID, firewall rules are recorded by an ID that joins their parts with nothing in between, and
SSH users are entered into a map. The first request under an ID decides which firewall rules are
added for it. A rule that lets every user in replaces the users entered before it under the
wildcard, and keeps those that are entered later.

* `requests_perm` — another order of the policies or rules gives the same requests, in another
  order;
* `resources_of_reordered` — what depends on the order.
-/
import Mathlib.Data.Finset.Lattice.Lemmas
import Netbird.NetworkMap.AclAgreement

namespace Netbird

open List Function

/-! ### Reordering -/

/-- The same policies in another order, each with its rules in another order. -/
def Reordered (policies policies' : List Policy) : Prop :=
  ∃ l : List Policy, l.Perm policies ∧ List.Forall₂ (fun policy policy' =>
    policy'.rules.Perm policy.rules ∧ policy' = { policy with rules := policy'.rules }) l policies'

/-- The rule with what it reads of its policy. -/
def bare (pr : Policy × PolicyRule) : Policy × PolicyRule :=
  ({ pr.1 with rules := [] }, pr.2)

variable {policies : List Policy}

theorem Reordered.bare_perm {policies' : List Policy} (h : Reordered policies policies') :
    ((enabledRules policies').map bare).Perm ((enabledRules policies).map bare) := by
  obtain ⟨l, hl, hrules⟩ := h
  refine List.Perm.trans ?_ (((hl.filter _).flatMap_right _).map bare)
  clear hl
  induction hrules with
  | nil => exact .refl _
  | @cons policy policy' l l' hpolicy _ ih =>
    obtain ⟨hperm, heq⟩ := hpolicy
    have hblock : ∀ policy : Policy, ∀ l, (enabledRules (policy :: l)).map bare =
        (if policy.enabled then (policy.rules.filter (·.enabled)).map
          (({ policy with rules := [] } : Policy), ·) else []) ++ (enabledRules l).map bare := by
      intro policy l
      cases hen : policy.enabled <;> simp [enabledRules, hen, bare, comp_def]
    have hsame : ({ policy' with rules := [] } : Policy) = { policy with rules := [] } := by
      rw [heq]
    have henabled : policy'.enabled = policy.enabled := by rw [heq]
    rw [hblock, hsame, henabled]
    refine List.Perm.trans ?_ (.of_eq (hblock policy l).symm)
    refine List.Perm.append ?_ ih
    split_ifs
    · exact (hperm.filter _).map _
    · exact .refl _

variable {pr : Policy × PolicyRule}

theorem exists_reordered_last (h : pr ∈ enabledRules policies) :
    ∃ policies' l pr', Reordered policies policies' ∧ enabledRules policies' = l ++ [pr'] ∧
      bare pr' = bare pr := by
  obtain ⟨policy, rule⟩ := pr
  obtain ⟨hpolicy, hen, hrule, hren⟩ := mem_enabledRules.mp h
  obtain ⟨s, t, rfl⟩ := mem_iff_append.mp hpolicy
  obtain ⟨u, v, huv⟩ := mem_iff_append.mp hrule
  let moved : Policy := { policy with rules := u ++ v ++ [rule] }
  have hlast : enabledRules [moved] =
      ((u ++ v).filter (·.enabled)).map (moved, ·) ++ [(moved, rule)] := by
    have hen' : moved.enabled = true := hen
    have hren' : rule.enabled = true := hren
    have hrules : moved.rules = u ++ v ++ [rule] := rfl
    simp [enabledRules, hen', hren', hrules]
  refine ⟨s ++ t ++ [moved], enabledRules (s ++ t) ++ ((u ++ v).filter (·.enabled)).map (moved, ·),
    (moved, rule), ⟨s ++ t ++ [policy], ?_, ?_⟩, ?_, rfl⟩
  · rw [append_assoc]
    exact perm_append_comm.append_left s
  · refine rel_append (forall₂_same.mpr fun p _ => ⟨.refl _, rfl⟩) (.cons ⟨?_, rfl⟩ .nil)
    have hmoved : (u ++ v ++ [rule]).Perm (u ++ rule :: v) := by
      rw [append_assoc]
      exact perm_append_comm.append_left u
    rwa [huv]
  · rw [enabledRules, filter_append, flatMap_append, ← enabledRules, ← enabledRules, hlast,
      append_assoc]

/-! ### Requests -/

open RuleRequest in
theorem requests_perm {view : Policy → PolicyRule → Side → Members} {policies' : List Policy}
    (hview : ∀ pr, view (bare pr).1 (bare pr).2 = view pr.1 pr.2)
    (h : Reordered policies policies') :
    (ofRules view (enabledRules policies)).Perm (ofRules view (enabledRules policies')) := by
  have hbare : ∀ prs, ofRules view prs = ofRules view (prs.map bare) := by
    intro prs
    rw [ofRules, ofRules, flatMap_map]
    exact flatMap_congr fun pr _ => by rw [hview]; rfl
  rw [hbare, hbare (enabledRules policies')]
  exact (h.bare_perm.flatMap_right _).symm

/-! ### SSH users -/

/-- The users of each local user, as sets. -/
def userSets (m : StringMap (List String)) (localUser : String) : WithBot (Finset String) :=
  (m.lookup localUser).map List.toFinset

theorem userSets_insert (m : StringMap (List String)) (k : String) (l : List String) :
    userSets (m.insert k l) = update (userSets m) k (l.toFinset : WithBot (Finset String)) := by
  funext u
  rw [userSets, Keyed.lookup_insert_ite, update_apply]
  split_ifs <;> rfl

/-- The function adds users, whatever is there. -/
def AddsUsers (f : StringMap (List String) → StringMap (List String)) : Prop :=
  ∀ m, userSets (f m) = userSets m ⊔ userSets (f ∅)

theorem userSets_empty : userSets ∅ = ⊥ := rfl

theorem addsUsers_iff {f : StringMap (List String) → StringMap (List String)} :
    AddsUsers f ↔ ∃ x, ∀ m, userSets (f m) = userSets m ⊔ x := by
  refine ⟨fun h => ⟨_, h⟩, ?_⟩
  rintro ⟨x, h⟩ m
  rw [h ∅, userSets_empty, bot_sup_eq, h]

theorem AddsUsers.foldl {ι : Type} {f : StringMap (List String) → ι → StringMap (List String)}
    (h : ∀ i, AddsUsers (f · i)) (l : List ι) : AddsUsers (l.foldl f) := by
  refine addsUsers_iff.mpr ?_
  induction l with
  | nil => exact ⟨⊥, fun m => (sup_bot_eq _).symm⟩
  | cons i l ih =>
    obtain ⟨x, hx⟩ := ih
    refine ⟨userSets (f ∅ i) ⊔ x, fun m => ?_⟩
    rw [foldl_cons, hx, h i m, sup_assoc]

theorem addsUsers_authorize (userIDs : List String) (localUser : String) :
    AddsUsers (authorize userIDs · localUser) := by
  have hinserted : ∀ l : List String, (userIDs.foldl (fun s u => s.insert u) l).toFinset =
      l.toFinset ∪ userIDs.toFinset := by
    induction userIDs with
    | nil => exact fun l => by simp
    | cons u userIDs ih =>
      intro l
      rw [foldl_cons, ih]
      ext x
      simp [or_assoc]
  refine addsUsers_iff.mpr
    ⟨update ⊥ localUser (userIDs.toFinset : WithBot (Finset String)), fun m => ?_⟩
  rw [authorize, userSets_insert, hinserted]
  funext u
  by_cases hu : u = localUser
  · subst hu
    simp only [update_self, Pi.sup_apply, userSets]
    rcases hlookup : m.lookup u with _ | l
    · exact congrArg _ (Finset.empty_union _)
    · rfl
  · simp [update_of_ne hu]

/-- The rule lets every allowed user log in as anyone, in place of those entered before. -/
def PolicyRule.opensToAll (rule : PolicyRule) (target : Peer) : Bool :=
  if rule.protocol = .netbirdSSH then
    rule.authorizedGroups.entries.isEmpty && rule.authorizedUser == ""
  else policyRuleImpliesLegacySSH rule && target.sshEnabled

theorem addsUsers_authorizeNative {users : SSHUsers} {rule : PolicyRule} {target : Peer}
    (hssh : rule.protocol = .netbirdSSH) (h : rule.opensToAll target = false) :
    AddsUsers (authorizeNative users rule) := by
  rw [PolicyRule.opensToAll, if_pos hssh, Bool.and_eq_false_iff, isEmpty_eq_false_iff,
    beq_eq_false_iff_ne] at h
  by_cases hgroups : rule.authorizedGroups.entries.length > 0
  · have hnative : authorizeNative users rule =
        rule.authorizedGroups.entries.foldl (fun m e => authorizeGroup users m e.1 e.2) :=
      funext fun m => if_pos hgroups
    rw [hnative]
    refine AddsUsers.foldl (fun e => ?_) _
    rcases hids : users.groupIDToUserIDs.lookup e.1 with _ | userIDs
    · exact addsUsers_iff.mpr ⟨⊥, fun m => by simp [authorizeGroup, hids]⟩
    · simp only [authorizeGroup, hids]
      exact AddsUsers.foldl (addsUsers_authorize userIDs) _
  · have huser : rule.authorizedUser ≠ "" :=
      h.resolve_left fun hne => hgroups (length_pos_iff.mpr hne)
    have hnative : authorizeNative users rule =
        (authorize [rule.authorizedUser] · sshWildcard) :=
      funext fun m => by rw [authorizeNative, if_neg hgroups, if_pos huser]
    rw [hnative]
    exact addsUsers_authorize _ _

/-! ### The users of a run -/

section Users

open ConnResources

variable (env : MapEnv) (target : Peer) (users : SSHUsers)
  (view : Policy → PolicyRule → Side → Members)

def SSHUsers.everyone : WithBot (Finset String) := users.allowedUserIDs.toFinset

/-- What a rule does to the sets of users. -/
def letIn (s : String → WithBot (Finset String)) (pr : Policy × PolicyRule) :
    String → WithBot (Finset String) :=
  if (view pr.1 pr.2 .destinations).target then
    if pr.2.opensToAll target then
      Function.update s sshWildcard users.everyone
    else if pr.2.protocol = .netbirdSSH then s ⊔ userSets (authorizeNative users pr.2 ∅)
    else s
  else s

/-- The rule enables SSH on the target. -/
def enablesSSH (pr : Policy × PolicyRule) : Bool :=
  (view pr.1 pr.2 .destinations).target && (pr.2.protocol == .netbirdSSH || pr.2.opensToAll target)

theorem grant_sets (rule : PolicyRule) (s : StringMap (List String) × Bool) :
    userSets (grant target users rule s).1 =
      (if rule.opensToAll target then
        update (userSets s.1) sshWildcard users.everyone
      else if rule.protocol = .netbirdSSH then
        userSets s.1 ⊔ userSets (authorizeNative users rule ∅)
      else userSets s.1) ∧
    (grant target users rule s).2 =
      (s.2 || (rule.protocol == .netbirdSSH || rule.opensToAll target)) := by
  by_cases hssh : rule.protocol = .netbirdSSH
  · have hgrant : grant target users rule s = (authorizeNative users rule s.1, true) := if_pos hssh
    refine ⟨?_, by simp [hgrant, hssh]⟩
    rw [hgrant]
    cases hopens : rule.opensToAll target with
    | true =>
      simp only [PolicyRule.opensToAll, if_pos hssh, Bool.and_eq_true, List.isEmpty_iff,
        beq_iff_eq] at hopens
      have hnative : authorizeNative users rule s.1 =
          s.1.insert sshWildcard users.allowedUserIDs := by
        simp [authorizeNative, hopens]
      rw [hnative, userSets_insert]
      rfl
    | false =>
      rw [addsUsers_authorizeNative hssh hopens s.1, if_neg Bool.false_ne_true, if_pos hssh]
  · have hbeq : (rule.protocol == .netbirdSSH) = false := by simpa using hssh
    simp only [grant, PolicyRule.opensToAll, if_neg hssh, hbeq, Bool.false_or]
    split_ifs with hlegacy
    · exact ⟨userSets_insert _ _ _, by simp [hlegacy]⟩
    · exact ⟨rfl, by simp [hlegacy]⟩

theorem users_run (policies : List Policy) :
    userSets (connectionResources env target users view policies).authorizedUsers =
      (enabledRules policies).foldl (letIn target users view) ⊥ ∧
    (connectionResources env target users view policies).sshEnabled =
      (enabledRules policies).any (enablesSSH target view) := by
  let step := fun (s : StringMap (List String) × Bool) (pr : Policy × PolicyRule) =>
    if (view pr.1 pr.2 .destinations).target then grant target users pr.2 s else s
  have hstep : ∀ s pr, userSets (step s pr).1 = letIn target users view (userSets s.1) pr ∧
      (step s pr).2 = (s.2 || enablesSSH target view pr) := by
    intro s pr
    simp only [step, letIn, enablesSSH]
    split_ifs with ht
    all_goals simp_all [grant_sets]
  have hrun : ∀ (prs : List (Policy × PolicyRule)) (s : StringMap (List String) × Bool),
      userSets (prs.foldl step s).1 = prs.foldl (letIn target users view) (userSets s.1) ∧
        (prs.foldl step s).2 = (s.2 || prs.any (enablesSSH target view)) := by
    intro prs
    induction prs with
    | nil => exact fun s => ⟨rfl, (Bool.or_false _).symm⟩
    | cons pr prs ih =>
      intro s
      obtain ⟨hsets, hflag⟩ := ih (step s pr)
      rw [(hstep s pr).1] at hsets
      rw [(hstep s pr).2, Bool.or_assoc] at hflag
      exact ⟨hsets, hflag⟩
  have hpart : (RuleRequest.run env target users view (enabledRules policies)).sshPart =
      (enabledRules policies).foldl step (∅, false) :=
    (@foldl_hom _ _ _ ConnResources.sshPart _ _ _ {} fun st pr =>
      (ConnResources.sshPart_applyRule env target users (view pr.1 pr.2) pr.2 st).symm).symm
  obtain ⟨hsets, hflag⟩ := hrun (enabledRules policies) (∅, false)
  rw [← hpart] at hsets hflag
  rw [connectionResources_eq]
  exact ⟨hsets, hflag.trans (Bool.false_or _)⟩

/-- No rule that lets every user in replaces a user whom another rule lets in as anyone. -/
def UsersSafe (policies : List Policy) : Prop :=
  ∀ pr ∈ enabledRules policies, ∀ pr' ∈ enabledRules policies,
    (view pr.1 pr.2 .destinations).target = true → pr.2.opensToAll target = true →
    (view pr'.1 pr'.2 .destinations).target = true → pr'.2.opensToAll target = false →
    pr'.2.protocol = .netbirdSSH →
      ∀ user ∈ ((authorizeNative users pr'.2 ∅).lookup sshWildcard).getD [],
        user ∈ users.allowedUserIDs

theorem userSets_le_iff {m : StringMap (List String)} {k : String} {l : List String} :
    userSets m k ≤ (l.toFinset : WithBot (Finset String)) ↔
      ∀ user ∈ (m.lookup k).getD [], user ∈ l := by
  rw [userSets]
  rcases hlookup : m.lookup k with _ | l'
  · exact iff_of_true bot_le (by simp)
  · refine WithBot.coe_le_coe.trans ?_
    simp [Finset.subset_iff]

variable {target users view} (h : UsersSafe target users view policies)

include h

/-- A rule replaces the users under the wildcard or adds users, none of whom would be replaced. -/
theorem UsersSafe.letIn_cases (hpr : pr ∈ enabledRules policies) :
    ((view pr.1 pr.2 .destinations).target = true ∧ pr.2.opensToAll target = true ∧
      ∀ s, letIn target users view s pr = update s sshWildcard users.everyone) ∨
    ∃ x, (∀ s, letIn target users view s pr = s ⊔ x) ∧ ∀ pr' ∈ enabledRules policies,
      (view pr'.1 pr'.2 .destinations).target = true → pr'.2.opensToAll target = true →
        x sshWildcard ≤ users.everyone := by
  unfold letIn
  split_ifs with ht ho hssh
  · exact .inl ⟨ht, ho, fun s => rfl⟩
  · refine .inr ⟨_, fun s => rfl, fun pr' hpr' ht' ho' => userSets_le_iff.mpr ?_⟩
    exact h pr' hpr' pr hpr ht' ho' ht (Bool.eq_false_iff.mpr ho) hssh
  all_goals exact .inr ⟨⊥, fun s => (sup_bot_eq s).symm, fun _ _ _ _ => bot_le⟩

theorem UsersSafe.comm {pr' : Policy × PolicyRule} (hpr : pr ∈ enabledRules policies)
    (hpr' : pr' ∈ enabledRules policies) (s : String → WithBot (Finset String)) :
    letIn target users view (letIn target users view s pr) pr' =
      letIn target users view (letIn target users view s pr') pr := by
  have hreplace : ∀ (s x : String → WithBot (Finset String)) (d : WithBot (Finset String)),
      x sshWildcard ≤ d →
        update s sshWildcard d ⊔ x = update (s ⊔ x) sshWildcard d := by
    intro s x d hx
    funext u
    by_cases hu : u = sshWildcard
    · subst hu
      simpa using hx
    · simp [update_of_ne hu]
  rcases h.letIn_cases hpr with ⟨ht, ho, hact⟩ | ⟨x, hact, hx⟩ <;>
    rcases h.letIn_cases hpr' with ⟨ht', ho', hact'⟩ | ⟨x', hact', hx'⟩
  · rw [hact, hact', hact', hact]
  · rw [hact, hact', hact', hact]
    exact hreplace s x' _ (hx' pr hpr ht ho)
  · rw [hact, hact', hact', hact]
    exact (hreplace s x _ (hx pr' hpr' ht' ho')).symm
  · rw [hact, hact', hact', hact, sup_right_comm]

variable (hview : ∀ pr, view (bare pr).1 (bare pr).2 = view pr.1 pr.2)

include hview

omit h

theorem letIn_bare (s : String → WithBot (Finset String)) (pr : Policy × PolicyRule) :
    letIn target users view s (bare pr) = letIn target users view s pr := by
  rw [letIn, hview]
  rfl

/-- **SSH users depend on the order** exactly if a user would be replaced. -/
theorem users_reordered_iff (policies : List Policy) : (∀ policies', Reordered policies policies' →
      userSets (connectionResources env target users view policies').authorizedUsers =
        userSets (connectionResources env target users view policies).authorizedUsers) ↔
      UsersSafe target users view policies := by
  have hbare : ∀ prs : List (Policy × PolicyRule), prs.foldl (letIn target users view) ⊥ =
      (prs.map bare).foldl (letIn target users view) ⊥ := by
    intro prs
    rw [foldl_map]
    simp only [letIn_bare hview]
  simp only [(users_run env target users view _).1]
  constructor
  · intro h pr hpr pr' hpr' ht ho ht' ho' hssh
    -- one of the two rules comes last
    obtain ⟨policies₁, l₁, last₁, hre₁, heq₁, hlast₁⟩ := exists_reordered_last hpr
    obtain ⟨policies₂, l₂, last₂, hre₂, heq₂, hlast₂⟩ := exists_reordered_last hpr'
    have hsame := congrFun ((h _ hre₂).trans (h _ hre₁).symm) sshWildcard
    rw [heq₁, heq₂, foldl_append, foldl_append, foldl_cons, foldl_cons,
      foldl_nil, foldl_nil, ← letIn_bare hview _ last₁, ← letIn_bare hview _ last₂,
      hlast₁, hlast₂, letIn_bare hview, letIn_bare hview, letIn, letIn, if_pos ht', if_pos ht,
      if_pos ho, if_neg (by simp [ho']), if_pos hssh, update_self] at hsame
    exact userSets_le_iff.mp (le_sup_right.trans hsame.le)
  · intro h policies' hre
    rw [hbare, hbare (enabledRules policies)]
    refine hre.bare_perm.foldl_eq' (fun x hx y hy s => ?_) ⊥
    obtain ⟨pr, hpr, rfl⟩ := mem_map.mp (hre.bare_perm.mem_iff.mp hx)
    obtain ⟨pr', hpr', rfl⟩ := mem_map.mp (hre.bare_perm.mem_iff.mp hy)
    simp only [letIn_bare hview]
    exact h.comm hpr hpr' s

end Users

/-! ### The resources of a peer -/

namespace Account

variable (a : Account) (env : MapEnv) (peer : Peer) (args : MapArgs)

/-- Requests with one ID ask for the same firewall rules. -/
def RulesSafe : Prop :=
  ∀ req ∈ RuleRequest.ofRules (a.ruleMembers args.validatedPeers peer.id) (enabledRules a.policies),
    ∀ req' ∈ RuleRequest.ofRules (a.ruleMembers args.validatedPeers peer.id)
        (enabledRules a.policies),
      req.id = req'.id → (req.emitted env peer).Perm (req'.emitted env peer)

/-- **The order of policies and rules** never decides which peers are listed and whether SSH is
enabled. It does not decide who may log in exactly if no user would be replaced, and it does not
decide the firewall rules if requests with one ID ask for the same. -/
theorem resources_of_reordered : (∀ policies', Reordered a.policies policies' →
      (∀ p, p ∈ ({ a with policies := policies' }.getPeerConnectionResources env peer args).peers ↔
          p ∈ (a.getPeerConnectionResources env peer args).peers) ∧
        ({ a with policies := policies' }.getPeerConnectionResources env peer args).sshEnabled =
          (a.getPeerConnectionResources env peer args).sshEnabled) ∧
    ((∀ policies', Reordered a.policies policies' → ∀ user,
      (({ a with policies := policies' }.getPeerConnectionResources env peer
          args).authorizedUsers.lookup user).map toFinset =
        ((a.getPeerConnectionResources env peer args).authorizedUsers.lookup user).map toFinset) ↔
      UsersSafe peer ⟨args.groupIDToUserIDs, a.getAllowedUserIDs⟩
        (a.ruleMembers args.validatedPeers peer.id) a.policies) ∧
    (a.RulesSafe env peer args → ∀ policies', Reordered a.policies policies' →
      ({ a with policies := policies' }.getPeerConnectionResources env peer args).rules.Perm
        (a.getPeerConnectionResources env peer args).rules) := by
  have hview : ∀ pr, a.ruleMembers args.validatedPeers peer.id (bare pr).1 (bare pr).2 =
      a.ruleMembers args.validatedPeers peer.id pr.1 pr.2 := by
    intro pr
    funext side
    cases side <;> rfl
  -- only the policies of the two accounts differ
  have hresources : ∀ policies',
      { a with policies := policies' }.getPeerConnectionResources env peer args =
        connectionResources env peer ⟨args.groupIDToUserIDs, a.getAllowedUserIDs⟩
          (a.ruleMembers args.validatedPeers peer.id) policies' := fun _ => rfl
  have hsame := hresources a.policies
  refine ⟨fun policies' hre => ⟨fun p => ?_, ?_⟩, ?_, fun hsafe policies' hre => ?_⟩
  · -- a peer is determined by its ID, so whichever request comes first lists it
    rw [hresources, hsame, RuleRequest.connectionResources_peers,
      RuleRequest.connectionResources_peers]
    refine ((Keyed.firsts_flatMap_perm (requests_perm hview hre) ?_).mem_iff).symm
    have hget : ∀ req ∈ RuleRequest.ofRules (a.ruleMembers args.validatedPeers peer.id)
        (enabledRules a.policies), a.getPeer req.peer.id = some req.peer := by
      intro req hreq
      obtain ⟨_, _, _, _, hp⟩ := RuleRequest.acrossFrom_of_mem hreq
      exact (mem_ruleMembers.mp hp).1.1
    intro req hreq req' hreq' hid
    have hsome := hget req hreq
    rw [hid, hget req' hreq'] at hsome
    rw [Option.some.inj hsome]
  · rw [hresources, hsame, (users_run _ _ _ _ _).2, (users_run _ _ _ _ _).2]
    have hany : ∀ prs : List (Policy × PolicyRule),
        prs.any (enablesSSH peer (a.ruleMembers args.validatedPeers peer.id)) =
          (prs.map bare).any (enablesSSH peer (a.ruleMembers args.validatedPeers peer.id)) := by
      intro prs
      rw [any_map]
      rfl
    rw [hany, hany (enabledRules a.policies)]
    exact hre.bare_perm.any_eq
  · rw [← users_reordered_iff env hview a.policies]
    exact forall₂_congr fun policies' _ => funext_iff.symm
  · rw [hresources, hsame, RuleRequest.connectionResources_rules,
      RuleRequest.connectionResources_rules]
    exact (Keyed.firsts_flatMap_perm (requests_perm hview hre) hsafe).symm

end Account

/-- SSH from laptops to servers, for one user or for everybody. -/
def sshPolicy (id user : String) : Policy where
  id := id
  rules :=
    [{ id := id
       sources := ["laptops"]
       destinations := ["servers"]
       protocol := .netbirdSSH
       authorizedUser := user }]

def sshAccount (policies : List Policy) : Account where
  peers := [laptop, server]
  groups := [{ id := "laptops", peers := ["laptop"] }, { id := "servers", peers := ["server"] }]
  users := [{ id := "alice", accountID := "" },
    { id := "bot", accountID := "", isServiceUser := true }]
  policies := policies
  peerIDs_nodup := laptop_server_nodup

/-- The users who may log in to the server as anyone. -/
def sshUsers (policies : List Policy) : Option (List String) :=
  ((sshAccount policies).getPeerConnectionResources plainEnv server
    ((sshAccount []).ownArgs { domain := "" } [] ["laptop", "server"] ∅)).authorizedUsers.lookup
      sshWildcard

/-- The service user that one policy names may log in only if that policy comes after the one
for everybody. -/
theorem service_user_replaced : Reordered [sshPolicy "bot" "bot", sshPolicy "all" ""]
        [sshPolicy "all" "", sshPolicy "bot" "bot"] ∧
      sshUsers [sshPolicy "bot" "bot", sshPolicy "all" ""] = some ["alice"] ∧
      sshUsers [sshPolicy "all" "", sshPolicy "bot" "bot"] = some ["bot", "alice"] :=
  ⟨⟨_, List.Perm.swap _ _ _, forall₂_same.mpr fun _ _ => ⟨.refl _, rfl⟩⟩, rfl, rfl⟩

end Netbird
