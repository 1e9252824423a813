/-
What `applyPeerACLs` does to the peer rules of the filter.

The rules that the ACL manager has recorded are those that it found or added for the rules of
the last map.  While every rule of a map is taken over, the record and the filter agree.  When a
rule fails, the filter is emptied: `rollBack` deletes what was taken over from the new map, old
rules included, and the loop after it deletes the rest.  The record keeps what was taken over.

* `applyPeerACLs_of_succeeds`, `applyPeerACLs_of_fails` — the filter and the record after a call;
* `updatesCleanly_iff` — when record and filter agree after every call, and a failed call changes
  nothing.
-/
import Netbird.Client.AclIDs
import Netbird.Lib.Runs

namespace Netbird

open List AList

namespace Firewall.PeerRules

/-! ### The rules of the filter -/

def installed (m : PeerRules) : Set PeerRule := {r | m.find r.drop r.ip r.id = some r}

/-- Every rule is kept in its place, and ids are not used twice. -/
structure Kept (m : PeerRules) : Prop where
  place : ∀ drop ip id r, m.find drop ip id = some r → r.drop = drop ∧ r.ip = ip ∧ r.id = id
  lt_nextID : ∀ drop ip id r, m.find drop ip id = some r → r.id < m.nextID

theorem find_empty (drop : Bool) (ip : Bytes) (id : ℕ) : empty.find drop ip id = none := by
  cases drop <;> rfl

theorem Kept.empty : empty.Kept where
  place drop ip id r h := by simp [find_empty] at h
  lt_nextID drop ip id r h := by simp [find_empty] at h

theorem installed_empty : empty.installed = ∅ := by
  simp [installed, find_empty]

variable {m m' : PeerRules} {r : PeerRule}

theorem Kept.add (hm : m.Kept) {id ip : Bytes} {proto : Protocol} {sPort dPort : Option Port}
    {action : Action} (h : m.addPeerFiltering id ip proto sPort dPort action = .ok (r, m')) :
    m'.Kept ∧ r ∉ m.installed ∧ m'.installed = insert r m.installed := by
  obtain ⟨hr, hnext, hfind⟩ := addPeerFiltering_ok h
  have hid : r.id = m.nextID := by rw [hr]; rfl
  have hnew : r ∉ m.installed := fun hmem => by
    have := hm.lt_nextID _ _ _ _ hmem
    omega
  refine ⟨⟨fun drop ip id x hx => ?_, fun drop ip id x hx => ?_⟩, hnew, ?_⟩
  · have := hm.place drop ip id
    grind
  · have := hm.lt_nextID drop ip id
    grind
  · ext x
    rw [installed, Set.mem_ofPred_eq, hfind]
    split_ifs with hkey
    · rw [Option.some.injEq]
      refine ⟨fun h => .inl h.symm, ?_⟩
      rintro (rfl | hx)
      · rfl
      · have := hm.lt_nextID _ _ _ _ hx
        omega
    · refine ⟨.inr, ?_⟩
      rintro (rfl | hx)
      · exact absurd ⟨rfl, rfl, rfl⟩ hkey
      · exact hx

/-- The place of the rule holds no other rule. -/
def Own (m : PeerRules) (r : PeerRule) : Prop :=
  ∀ r', m.find r.drop r.ip r.id = some r' → r' = r

theorem own_of_mem (h : r ∈ m.installed) : m.Own r := by
  intro r' hr'
  rw [h] at hr'
  exact (Option.some.inj hr').symm

end Firewall.PeerRules

namespace Acl

open Firewall PeerRules

theorem exists_deletePeerRules_cons (m : PeerRules) (r : PeerRule) (rules : List PeerRule) :
    ∃ m', deletePeerRules m (r :: rules) = deletePeerRules m' rules ∧ m'.nextID = m.nextID ∧
      ∀ drop ip id, m'.find drop ip id =
        if drop = r.drop ∧ ip = r.ip ∧ id = r.id then none else m.find drop ip id := by
  rw [deletePeerRules, foldl_cons]
  obtain ⟨hnone, e, he⟩ | ⟨m', hm', hnext, hfind⟩ := m.deletePeerRule_spec r
  · refine ⟨m, by rw [he]; rfl, rfl, fun drop ip id => ?_⟩
    by_cases hkey : drop = r.drop ∧ ip = r.ip ∧ id = r.id
    · rw [if_pos hkey, hkey.1, hkey.2.1, hkey.2.2, hnone]
    · rw [if_neg hkey]
  · exact ⟨m', by rw [hm']; rfl, hnext, hfind⟩

variable {x : PeerRule}

/-- **The deletions of a loop** take the rules out of the filter. -/
theorem deletePeerRules_spec (rules : List PeerRule) {m : PeerRules} (hm : m.Kept)
    (hown : ∀ r ∈ rules, m.Own r) : (deletePeerRules m rules).Kept ∧
      (deletePeerRules m rules).installed = m.installed \ {r | r ∈ rules} ∧
      ∀ drop ip id x, (deletePeerRules m rules).find drop ip id = some x →
        m.find drop ip id = some x := by
  induction rules generalizing m with
  | nil => exact ⟨hm, by simp [deletePeerRules], fun _ _ _ _ => id⟩
  | cons r rules ih =>
    obtain ⟨m', heq, hnext, hfind⟩ := exists_deletePeerRules_cons m r rules
    have hsub : ∀ drop ip id x, m'.find drop ip id = some x → m.find drop ip id = some x := by
      intro drop ip id x hx
      rw [hfind, Option.ite_none_left_eq_some] at hx
      exact hx.2
    have hm' : m'.Kept := by
      refine ⟨fun drop ip id x hx => hm.place _ _ _ _ (hsub _ _ _ _ hx), fun drop ip id x hx => ?_⟩
      rw [hnext]
      exact hm.lt_nextID _ _ _ _ (hsub _ _ _ _ hx)
    have hinst : m'.installed = m.installed \ {r} := by
      ext x
      rw [installed, Set.mem_ofPred_eq, hfind, Option.ite_none_left_eq_some, and_comm]
      refine and_congr_right fun hx => not_congr ⟨?_, ?_⟩
      · rintro ⟨hdrop, hip, hid⟩
        rw [hdrop, hip, hid] at hx
        exact hown r mem_cons_self x hx
      · rintro rfl
        exact ⟨rfl, rfl, rfl⟩
    obtain ⟨hkept, hrest, hfound⟩ := ih hm' fun x hx x' hx' =>
      hown x (mem_cons_of_mem _ hx) x' (hsub _ _ _ _ hx')
    rw [heq]
    refine ⟨hkept, ?_, fun drop ip id x hx => hsub _ _ _ _ (hfound _ _ _ _ hx)⟩
    rw [hrest, hinst, Set.sdiff_sdiff]
    ext x
    simp

variable {lib : Library}

/-! ### One rule -/

/-- The rule cannot be taken over: it cannot be converted, or there is no rule with its id yet and
its direction is not known or the filter refuses the addition. -/
def ruleFails (lib : Library) (stateful : Bool) (known : RuleID → Bool) (refused : Option String)
    (r : FirewallRule) : Bool :=
  match r.convert lib with
  | .error _ => true
  | .ok s => ! known s.getPeerRuleID ∧
      (s.direction ≠ .IN ∧ s.direction ≠ .OUT ∨ s.wanted stateful ∧ refused.isSome)

variable {stateful : Bool} {refused : Option String} {m : PeerRules} {pairs : RulePairs}
  {r : FirewallRule} {s : PeerSpec}

theorem addPeerFiltering_of_none (hs : s.Valid) (id : Bytes) (sPort dPort : Option Port) :
    ∃ x m', addPeerFiltering none m id s sPort dPort = .ok ([x], m') ∧
      m.addPeerFiltering id s.ip s.protocol sPort dPort s.action = .ok (x, m') := by
  have hlen : s.ip.length = 4 ∨ s.ip.length = 16 := .inr hs.length_ip
  unfold addPeerFiltering PeerRules.addPeerFiltering
  rw [if_pos hlen]
  exact ⟨_, _, rfl, rfl⟩

/-- How a rule is taken over: its id is known, there is nothing to do for it, or the filter gets a
new rule. -/
inductive Taken (stateful : Bool) (m : PeerRules) (pairs : RulePairs) (s : PeerSpec) :
    RuleID × List PeerRule × PeerRules → Prop
  | known (rs : List PeerRule) (h : pairs.lookup s.getPeerRuleID = some rs) :
      Taken stateful m pairs s (s.getPeerRuleID, rs, m)
  | skipped (id : RuleID) (h : s.wanted stateful = false) : Taken stateful m pairs s (id, [], m)
  | added (x : PeerRule) (m' : PeerRules) (hwanted : s.wanted stateful = true)
      (hnew : pairs.lookup s.getPeerRuleID = none) (hmakes : s.Makes x) (id : Bytes)
      (sPort dPort : Option Port)
      (h : m.addPeerFiltering id s.ip s.protocol sPort dPort s.action = .ok (x, m')) :
      Taken stateful m pairs s (s.getPeerRuleID, [x], m')

variable (lib stateful refused m pairs r) in
/-- **A rule that does not fail is taken over.** -/
theorem protoRuleToFirewallRule_cases :
    if ruleFails lib stateful (fun id => (pairs.lookup id).isSome) refused r then
      ∃ e, protoRuleToFirewallRule lib stateful refused m pairs r = .error e
    else ∃ s out, r.convert lib = .ok s ∧ Taken stateful m pairs s out ∧
      protoRuleToFirewallRule lib stateful refused m pairs r = .ok out := by
  unfold ruleFails protoRuleToFirewallRule
  rcases hs : r.convert lib with e | s
  · exact ⟨e, rfl⟩
  · rcases hlookup : pairs.lookup s.getPeerRuleID with _ | rs
    · -- the addition, in either direction
      have hadd : ∀ sPort dPort, sPort = (if s.direction = .OUT then s.port else none) →
          dPort = (if s.direction = .OUT then none else s.port) → s.wanted stateful = true →
          let added := (addPeerFiltering refused m r.policyID s sPort dPort).map
            (Prod.mk s.getPeerRuleID)
          if refused.isSome then ∃ e, added = .error e
          else ∃ out, Taken stateful m pairs s out ∧ added = .ok out := by
        rintro _ _ rfl rfl hwanted
        rcases refused with _ | e
        · obtain ⟨x, m', hadd, hm'⟩ :=
            addPeerFiltering_of_none (m := m) (convert_valid hs) r.policyID _ _
          have hmakes : s.Makes x := ⟨_, _, (addPeerFiltering_ok hm').1⟩
          exact ⟨_, .added x m' hwanted hlookup hmakes _ _ _ hm', by rw [hadd]; rfl⟩
        · exact ⟨_, rfl⟩
      cases hdir : s.direction with
      | IN =>
        have hwanted : s.wanted stateful = true := by rw [PeerSpec.wanted, hdir]
        simpa [hlookup, hdir, hwanted] using hadd none s.port (by simp [hdir]) (by simp [hdir]) hwanted
      | OUT =>
        have hskipped : ∀ id, _ → Taken stateful m pairs s (id, [], m) := Taken.skipped
        simp only [PeerSpec.wanted, hdir] at hskipped hadd
        simp only [hlookup, hdir, PeerSpec.wanted]
        cases stateful
        · cases hskip : shouldSkipInvertedRule s.protocol s.port
          · simpa [hskip] using hadd
          · simpa [hskip] using hskipped s.getPeerRuleID
        · simpa using hskipped ""
      | other n hn => simp [hlookup, hdir]
    · have hknown : Taken stateful m pairs s _ := .known rs hlookup
      simpa [hlookup] using hknown

/-! ### The record of the rules -/

def recorded (pairs : RulePairs) : Set PeerRule :=
  {x | ∃ id rs, pairs.lookup id = some rs ∧ x ∈ rs}

variable {pairs : RulePairs}

theorem mem_allRules : x ∈ allRules pairs ↔ x ∈ recorded pairs := by
  simp [allRules, recorded, ← mem_lookup_iff]

theorem mem_oldPairs {pairs newPairs : RulePairs} : x ∈ oldPairs pairs newPairs ↔
      ∃ id rs, pairs.lookup id = some rs ∧ newPairs.lookup id = none ∧ x ∈ rs := by
  simp [oldPairs, ← mem_lookup_iff, and_assoc]

/-- The record and the filter agree: every id has one rule, which says what the id stands for, and
these are the rules of the filter. -/
structure Consistent (stateful : Bool) (m : PeerRules) (pairs : RulePairs) : Prop where
  kept : m.Kept
  installed : m.installed = recorded pairs
  single : ∀ id rs, pairs.lookup id = some rs →
    ∃ (s : PeerSpec) (x : PeerRule), rs = [x] ∧ s.Valid ∧ s.wanted stateful = true ∧ s.getPeerRuleID = id ∧ s.Makes x
  distinct : ∀ id id' x, pairs.lookup id = some [x] → pairs.lookup id' = some [x] → id = id'

theorem Consistent.empty : Consistent stateful PeerRules.empty ∅ where
  kept := Kept.empty
  installed := by simp [installed_empty, recorded]
  single id rs h := by simp at h
  distinct id id' x h := by simp at h

theorem Consistent.congr {pairs pairs' : RulePairs} (h : Consistent stateful m pairs)
    (hlookup : ∀ id, pairs'.lookup id = pairs.lookup id) : Consistent stateful m pairs' where
  kept := h.kept
  installed := by rw [h.installed]; simp only [recorded, hlookup]
  single id rs hrs := h.single id rs (hlookup id ▸ hrs)
  distinct id id' x hx hx' := h.distinct id id' x (hlookup id ▸ hx) (hlookup id' ▸ hx')

theorem Consistent.add {m' : PeerRules}
    (h : Consistent stateful m pairs) (hs : s.Valid) (hwanted : s.wanted stateful = true)
    (hnew : pairs.lookup s.getPeerRuleID = none) (hmakes : s.Makes x) {id : Bytes}
    {sPort dPort : Option Port}
    (hadd : m.addPeerFiltering id s.ip s.protocol sPort dPort s.action = .ok (x, m')) :
    Consistent stateful m' (pairs.insert s.getPeerRuleID [x]) := by
  obtain ⟨hkept, hfresh, hinst⟩ := h.kept.add hadd
  have hfresh : ∀ id rs, pairs.lookup id = some rs → x ∉ rs := fun id rs hrs hx =>
    hfresh (h.installed ▸ ⟨id, rs, hrs, hx⟩)
  refine ⟨hkept, ?_, ?_, ?_⟩
  · rw [hinst, h.installed]
    ext y
    constructor
    · rintro (rfl | ⟨id', rs, hrs, hy⟩)
      · exact ⟨_, _, lookup_insert _, mem_singleton_self _⟩
      · refine ⟨id', rs, ?_, hy⟩
        rw [lookup_insert_ne, hrs]
        rintro rfl
        rw [hnew] at hrs
        nomatch hrs
    · rintro ⟨id', rs, hrs, hy⟩
      rw [Keyed.lookup_insert_eq_some] at hrs
      rcases hrs with ⟨-, rfl⟩ | ⟨-, hrs⟩
      · exact .inl (mem_singleton.mp hy)
      · exact .inr ⟨id', rs, hrs, hy⟩
  · intro id' rs hrs
    rw [Keyed.lookup_insert_eq_some] at hrs
    rcases hrs with ⟨rfl, rfl⟩ | ⟨-, hrs⟩
    · exact ⟨s, x, rfl, hs, hwanted, rfl, hmakes⟩
    · exact h.single id' rs hrs
  · intro id₁ id₂ y h₁ h₂
    -- the new rule is under its own id only
    have hself : ∀ id', (pairs.insert s.getPeerRuleID [x]).lookup id' = some [y] →
        id' = s.getPeerRuleID ∧ y = x ∨ pairs.lookup id' = some [y] ∧ y ≠ x := by
      intro id' hy
      rw [Keyed.lookup_insert_eq_some] at hy
      rcases hy with ⟨hid, hy⟩ | ⟨-, hy⟩
      · exact .inl ⟨hid, singleton_injective hy⟩
      · refine .inr ⟨hy, ?_⟩
        rintro rfl
        exact hfresh _ _ hy (mem_singleton_self _)
    obtain ⟨rfl, hyx⟩ | ⟨h₁, hne⟩ := hself id₁ h₁
    · obtain ⟨rfl, -⟩ | ⟨-, hne⟩ := hself id₂ h₂
      · rfl
      · exact absurd hyx hne
    · obtain ⟨rfl, hyx⟩ | ⟨h₂, -⟩ := hself id₂ h₂
      · exact absurd hyx hne
      · exact h.distinct _ _ _ h₁ h₂

/-! ### The loop -/

/-- The ids of the rules that the filter gets for the rules of a map. -/
def ruleIDs (lib : Library) (stateful : Bool) (rules : List FirewallRule) : List RuleID :=
  rules.filterMap fun r =>
    match r.convert lib with
    | .ok s => if s.wanted stateful then some s.getPeerRuleID else none
    | .error _ => none

theorem mem_ruleIDs {rules : List FirewallRule} {id : RuleID} : id ∈ ruleIDs lib stateful rules ↔
      ∃ r ∈ rules, ∃ s, r.convert lib = .ok s ∧ s.wanted stateful = true ∧ s.getPeerRuleID = id := by
  rw [ruleIDs, mem_filterMap]
  refine exists_congr fun r => and_congr_right fun _ => ?_
  rcases hs : r.convert lib with e | s
  · simp
  · simp

/-- Whether an id has a rule after the given rules of a map. -/
def known (lib : Library) (stateful : Bool) (start : RulePairs) (before : List FirewallRule)
    (id : RuleID) : Bool :=
  (start.lookup id).isSome ∨ id ∈ ruleIDs lib stateful before

/-- The given rules, and those after them up to the first one that fails. -/
def takenRules (lib : Library) (stateful : Bool) (start : RulePairs)
    (refused : ℕ → Option String) (before : List FirewallRule) : List FirewallRule → List FirewallRule
  | [] => before
  | r :: rules =>
    if ruleFails lib stateful (known lib stateful start before) (refused before.length) r then before
    else takenRules lib stateful start refused (before ++ [r]) rules

/-- Where the loop is after the given rules. -/
structure Loop (lib : Library) (stateful : Bool) (start : RulePairs) (before : List FirewallRule)
    (p : Progress) : Prop where
  consistent : Consistent stateful p.filter p.pairs
  sub : ∀ id rs, p.newPairs.lookup id = some rs → p.pairs.lookup id = some rs
  keys : ∀ id, (p.pairs.lookup id).isSome = known lib stateful start before id
  named : ∀ id, (p.newPairs.lookup id).isSome →
    ∃ r ∈ before, ∃ s, r.convert lib = .ok s ∧ s.getPeerRuleID = id
  new : ∀ id ∈ ruleIDs lib stateful before, (p.newPairs.lookup id).isSome

variable (lib) in
theorem Loop.init {start : RulePairs} (h : Consistent stateful m start) :
    Loop lib stateful start [] ⟨m, start, ∅⟩ where
  consistent := h
  sub id rs hrs := by simp at hrs
  keys id := by simp [known, ruleIDs]
  named id hid := by simp at hid
  new id hid := by simp [ruleIDs] at hid

/-- The state of the loop after a rule was taken over. -/
def Progress.next (p : Progress) (out : RuleID × List PeerRule × PeerRules) : Progress :=
  if 0 < out.2.1.length then
    { filter := out.2.2
      pairs := p.pairs.insert out.1 out.2.1
      newPairs := p.newPairs.insert out.1 out.2.1 }
  else { p with filter := out.2.2 }

variable {start : RulePairs} {before : List FirewallRule} {p : Progress}

theorem mem_ruleIDs_append (hs : r.convert lib = .ok s) {id : RuleID} :
    id ∈ ruleIDs lib stateful (before ++ [r]) ↔
      id ∈ ruleIDs lib stateful before ∨ s.wanted stateful = true ∧ s.getPeerRuleID = id := by
  simp only [mem_ruleIDs, mem_append, mem_singleton, or_and_right, exists_or, exists_eq_left, hs,
    Except.ok.injEq, exists_eq_left']

theorem known_append (hs : r.convert lib = .ok s) (id : RuleID) :
    known lib stateful start (before ++ [r]) id = true ↔
      known lib stateful start before id = true ∨ s.wanted stateful = true ∧ s.getPeerRuleID = id := by
  simp only [known, decide_eq_true_eq, mem_ruleIDs_append hs, or_assoc]

theorem Loop.record (h : Loop lib stateful start before p) (hs : r.convert lib = .ok s)
    {filter : PeerRules} (hcons : Consistent stateful filter (p.pairs.insert s.getPeerRuleID [x]))
    (hknown : known lib stateful start before s.getPeerRuleID = true ∨ s.wanted stateful = true) :
    Loop lib stateful start (before ++ [r])
      ⟨filter, p.pairs.insert s.getPeerRuleID [x], p.newPairs.insert s.getPeerRuleID [x]⟩ where
  consistent := hcons
  sub id rs hrs := by
    rw [Keyed.lookup_insert_eq_some] at hrs ⊢
    exact hrs.imp_right (And.imp_right (h.sub id rs))
  keys id := by
    rw [Bool.eq_iff_iff, known_append hs, ← h.keys]
    by_cases hid : id = s.getPeerRuleID
    · subst hid
      simpa [h.keys] using hknown
    · rw [lookup_insert_ne hid]
      simp [Ne.symm hid]
  named id hid := by
    by_cases heq : id = s.getPeerRuleID
    · exact ⟨r, by simp, s, hs, heq.symm⟩
    · rw [lookup_insert_ne heq] at hid
      obtain ⟨r', hr', hs'⟩ := h.named id hid
      exact ⟨r', mem_append_left _ hr', hs'⟩
  new id hid := by
    by_cases heq : id = s.getPeerRuleID
    · subst heq
      rw [lookup_insert]
      rfl
    · rw [lookup_insert_ne heq]
      exact h.new id (((mem_ruleIDs_append hs).mp hid).resolve_right fun h => heq h.2.symm)

/-- **One rule more.** -/
theorem Loop.step (h : Loop lib stateful start before p) (hs : r.convert lib = .ok s)
    {out : RuleID × List PeerRule × PeerRules} (hout : Taken stateful p.filter p.pairs s out) :
    Loop lib stateful start (before ++ [r]) (p.next out) := by
  cases hout with
  | known rs hrs =>
    obtain ⟨s', x, rfl, -⟩ := h.consistent.single _ _ hrs
    refine h.record hs ?_ ?_
    · refine h.consistent.congr fun id => ?_
      rw [Keyed.lookup_insert_ite]
      split_ifs with hid
      · rw [hid, hrs]
      · rfl
    · rw [← h.keys, hrs]
      exact .inl rfl
  | skipped id hwanted =>
    refine ⟨h.consistent, h.sub, fun id => ?_, fun id hid => ?_, fun id hid => ?_⟩
    · rw [Bool.eq_iff_iff, known_append hs, hwanted, ← h.keys]
      simp [Progress.next]
    · obtain ⟨r', hr', hs'⟩ := h.named id hid
      exact ⟨r', mem_append_left _ hr', hs'⟩
    · rw [mem_ruleIDs_append hs, hwanted] at hid
      exact h.new id (hid.resolve_right fun h => nomatch h.1)
  | added x m' hwanted hnew hmakes id sPort dPort hadd =>
    exact h.record hs (h.consistent.add (convert_valid hs) hwanted hnew hmakes hadd) (.inr hwanted)

variable {refusals : ℕ → Option String}

variable (refusals) in
/-- **The loop** gets as far as the first rule that fails. -/
theorem Loop.run (rules : List FirewallRule) (h : Loop lib stateful start before p) :
    Loop lib stateful start (takenRules lib stateful start refusals before rules)
        (addPeerRules lib stateful refusals before.length rules p).1 ∧
      ((addPeerRules lib stateful refusals before.length rules p).2 = none ↔
        takenRules lib stateful start refusals before rules = before ++ rules) := by
  induction rules generalizing before p with
  | nil => exact ⟨h, by simp [addPeerRules, takenRules]⟩
  | cons r rules ih =>
    have hkeys : (fun id => (p.pairs.lookup id).isSome) = known lib stateful start before :=
      funext h.keys
    have hcases :=
      protoRuleToFirewallRule_cases lib stateful (refusals before.length) p.filter p.pairs r
    rw [hkeys] at hcases
    rw [takenRules]
    split_ifs at hcases ⊢
    · obtain ⟨e, he⟩ := hcases
      rw [addPeerRules, he]
      exact ⟨h, by simp⟩
    · obtain ⟨s, out, hs, hout, heq⟩ := hcases
      have hnext : addPeerRules lib stateful refusals before.length (r :: rules) p =
          addPeerRules lib stateful refusals (before ++ [r]).length rules (p.next out) := by
        rw [addPeerRules, heq, length_append]
        rfl
      rw [hnext, append_cons before r rules]
      exact ih (h.step hs hout)

/-! ### A call -/

/-- The record and the filter agree. -/
def DefaultManager.Consistent (d : DefaultManager) : Prop :=
  Acl.Consistent d.firewall.stateful d.firewall.peerRules d.peerRulesPairs

/-- The rules of the map before the first one that fails. -/
def DefaultManager.taken (d : DefaultManager) (lib : Library) (networkMap : NetworkMap)
    (refused : ℕ → Option String) : List FirewallRule :=
  takenRules lib d.firewall.stateful d.peerRulesPairs refused [] networkMap.peerRules

variable {d : DefaultManager} {networkMap : NetworkMap}

theorem recorded_sub {pairs newPairs : RulePairs}
    (hsub : ∀ id rs, newPairs.lookup id = some rs → pairs.lookup id = some rs) :
    recorded newPairs ⊆ recorded pairs := by
  rintro x ⟨id, rs, hrs, hx⟩
  exact ⟨id, rs, hsub id rs hrs, hx⟩

theorem recorded_of_not_old {pairs newPairs : RulePairs}
    (hsub : ∀ id rs, newPairs.lookup id = some rs → pairs.lookup id = some rs)
    (hx : x ∈ recorded pairs) (hold : x ∉ oldPairs pairs newPairs) : x ∈ recorded newPairs := by
  obtain ⟨id, rs, hrs, hx⟩ := hx
  rcases hnew : newPairs.lookup id with _ | rs'
  · exact absurd (mem_oldPairs.mpr ⟨id, rs, hrs, hnew, hx⟩) hold
  · obtain rfl : rs' = rs := Option.some.inj ((hsub id rs' hnew).symm.trans hrs)
    exact ⟨id, rs', hnew, hx⟩

variable (lib) in
/-- The filter and the record after a call, from the state in which the loop ended. -/
theorem exists_loop (hd : d.Consistent) (networkMap : NetworkMap) (refusals : ℕ → Option String) :
    ∃ (p : Progress) (err : Option String),
      Loop lib d.firewall.stateful d.peerRulesPairs (d.taken lib networkMap refusals) p ∧
      (err = none ↔ d.taken lib networkMap refusals = networkMap.peerRules) ∧
      (d.applyPeerACLs lib networkMap refusals).firewall.stateful = d.firewall.stateful ∧
      (d.applyPeerACLs lib networkMap refusals).peerRulesPairs = p.newPairs ∧
      (d.applyPeerACLs lib networkMap refusals).firewall.peerRules =
        deletePeerRules (if err.isSome then rollBack p.filter p.newPairs else p.filter)
          (oldPairs p.pairs p.newPairs) := by
  obtain ⟨hloop, hnone⟩ := (Loop.init lib hd).run refusals networkMap.peerRules
  exact ⟨_, _, hloop, hnone, rfl, rfl, rfl⟩

/-- **A call in which no rule fails**: the record and the filter agree, on what the rules of the
map name. -/
theorem applyPeerACLs_of_succeeds (hd : d.Consistent)
    (hok : d.taken lib networkMap refusals = networkMap.peerRules) :
    (d.applyPeerACLs lib networkMap refusals).Consistent ∧
      (∀ id, ((d.applyPeerACLs lib networkMap refusals).peerRulesPairs.lookup id).isSome →
        ∃ r ∈ networkMap.peerRules, ∃ s, r.convert lib = .ok s ∧ s.getPeerRuleID = id) ∧
      ∀ id ∈ ruleIDs lib d.firewall.stateful networkMap.peerRules,
        ((d.applyPeerACLs lib networkMap refusals).peerRulesPairs.lookup id).isSome := by
  obtain ⟨p, err, hloop, hnone, hstateful, hpairs, hfilter⟩ :=
    exists_loop lib hd networkMap refusals
  obtain rfl := hnone.mpr hok
  rw [hok] at hloop
  rw [DefaultManager.Consistent, hpairs, hfilter]
  refine ⟨?_, hloop.named, hloop.new⟩
  have hcons := hloop.consistent
  obtain ⟨hkept, hinst, -⟩ := deletePeerRules_spec (oldPairs p.pairs p.newPairs) hcons.kept
    fun x hx => by
      obtain ⟨id, rs, hrs, -, hx⟩ := mem_oldPairs.mp hx
      exact own_of_mem (hcons.installed ▸ ⟨id, rs, hrs, hx⟩)
  refine ⟨hkept, ?_, fun id rs hrs => hcons.single id rs (hloop.sub id rs hrs),
    fun id id' x hx hx' => hcons.distinct id id' x (hloop.sub _ _ hx) (hloop.sub _ _ hx')⟩
  simp only [Option.isSome_none, Bool.false_eq_true, if_false]
  rw [hinst, hcons.installed]
  ext x
  constructor
  · rintro ⟨hx, hold⟩
    exact recorded_of_not_old hloop.sub hx hold
  · intro hx
    refine ⟨recorded_sub hloop.sub hx, fun hold => ?_⟩
    -- a rule is recorded under one id only
    obtain ⟨id, rs, hrs, hx⟩ := hx
    obtain ⟨id', rs', hrs', hnone', hx'⟩ := mem_oldPairs.mp hold
    obtain ⟨-, y, rfl, -⟩ := hcons.single id rs (hloop.sub id rs hrs)
    obtain ⟨-, y', rfl, -⟩ := hcons.single id' rs' hrs'
    obtain rfl := mem_singleton.mp hx
    obtain rfl := mem_singleton.mp hx'
    obtain rfl := hcons.distinct _ _ _ (hloop.sub _ _ hrs) hrs'
    rw [hnone'] at hrs
    nomatch hrs

/-- **A call in which a rule fails** empties the filter and records the rules before that rule. -/
theorem applyPeerACLs_of_fails (hd : d.Consistent)
    (hfails : d.taken lib networkMap refusals ≠ networkMap.peerRules) :
    (d.applyPeerACLs lib networkMap refusals).firewall.peerRules.Kept ∧
      (d.applyPeerACLs lib networkMap refusals).firewall.peerRules.installed = ∅ ∧
      (∀ id, ((d.applyPeerACLs lib networkMap refusals).peerRulesPairs.lookup id).isSome →
        known lib d.firewall.stateful d.peerRulesPairs (d.taken lib networkMap refusals) id = true) ∧
      (∀ id ∈ ruleIDs lib d.firewall.stateful (d.taken lib networkMap refusals),
        ((d.applyPeerACLs lib networkMap refusals).peerRulesPairs.lookup id).isSome) ∧
      ∀ id rs, (d.applyPeerACLs lib networkMap refusals).peerRulesPairs.lookup id = some rs →
        rs ≠ [] := by
  obtain ⟨p, err, hloop, hnone, -, hpairs, hfilter⟩ :=
    exists_loop lib hd networkMap refusals
  have herr : err.isSome = true := Option.isSome_iff_ne_none.mpr (mt hnone.mp hfails)
  rw [hpairs, hfilter, if_pos herr]
  have hcons := hloop.consistent
  refine and_assoc.mp ⟨?_, fun id hid => ?_, hloop.new, fun id rs hrs => ?_⟩
  · have hown : ∀ x ∈ recorded p.pairs, p.filter.Own x := fun x hx =>
      own_of_mem (hcons.installed ▸ hx)
    obtain ⟨hkept, hinst, hsub⟩ := deletePeerRules_spec (allRules p.newPairs) hcons.kept
      fun x hx => hown x (recorded_sub hloop.sub (mem_allRules.mp hx))
    obtain ⟨hkept', hinst', -⟩ := deletePeerRules_spec (m := rollBack p.filter p.newPairs)
      (oldPairs p.pairs p.newPairs) hkept fun x hx x' hx' => by
        obtain ⟨id, rs, hrs, -, hx⟩ := mem_oldPairs.mp hx
        exact hown x ⟨id, rs, hrs, hx⟩ x' (hsub _ _ _ _ hx')
    refine ⟨hkept', ?_⟩
    rw [hinst', rollBack, hinst, hcons.installed, Set.eq_empty_iff_forall_notMem]
    rintro x ⟨⟨hx, hnew⟩, hold⟩
    exact hnew (mem_allRules.mpr (recorded_of_not_old hloop.sub hx hold))
  · obtain ⟨rs, hrs⟩ := Option.isSome_iff_exists.mp hid
    rw [← hloop.keys, hloop.sub id rs hrs]
    rfl
  · obtain ⟨-, x, rfl, -⟩ := hcons.single id rs (hloop.sub id rs hrs)
    exact cons_ne_nil x []

/-! ### Failures -/

def DefaultManager.peerError (d : DefaultManager) (lib : Library) (u : Update) : Option String :=
  (addPeerRules lib d.firewall.stateful u.refusedPeer 0 u.networkMap.peerRules
    ⟨d.firewall.peerRules, d.peerRulesPairs, ∅⟩).2

theorem peerError_eq_none_iff (hd : d.Consistent) (u : Update) :
    d.peerError lib u = none ↔ d.taken lib u.networkMap u.refusedPeer = u.networkMap.peerRules :=
  ((Loop.init lib hd).run u.refusedPeer u.networkMap.peerRules).2

/-- The rules that an update puts into the filter. -/
def peerStep (lib : Library) (d : DefaultManager) (u : Update) : DefaultManager :=
  d.applyPeerACLs lib u.networkMap u.refusedPeer

/-- After the call the recorded rules are those of the filter.  If a rule failed, the filter has
the rules that it had before, and otherwise it has a rule for everything that the map asks for. -/
structure UpdatesCleanly (lib : Library) (d : DefaultManager) (u : Update) : Prop where
  recorded : recorded (peerStep lib d u).peerRulesPairs =
    (peerStep lib d u).firewall.peerRules.installed
  failed : (d.peerError lib u).isSome →
    (peerStep lib d u).firewall.peerRules.installed = d.firewall.peerRules.installed
  full : d.peerError lib u = none → ∀ r ∈ u.networkMap.peerRules, ∀ s, r.convert lib = .ok s →
    s.wanted d.firewall.stateful = true →
    ∃ x ∈ (peerStep lib d u).firewall.peerRules.installed, s.Makes x

/-- No rule of the map fails, or the filter is empty before the call and the rules before the one
that fails ask for nothing. -/
def Harmless (lib : Library) (d : DefaultManager) (u : Update) : Prop :=
  d.taken lib u.networkMap u.refusedPeer = u.networkMap.peerRules ∨
    d.firewall.peerRules.installed = ∅ ∧
      ruleIDs lib d.firewall.stateful (d.taken lib u.networkMap u.refusedPeer) = []

theorem lookup_of_recorded_empty
    (hne : ∀ id rs, pairs.lookup id = some rs → rs ≠ []) (h : recorded pairs = ∅) (id : RuleID) :
    pairs.lookup id = none := by
  rcases hrs : pairs.lookup id with _ | rs
  · rfl
  · obtain ⟨x, hx⟩ := exists_mem_of_ne_nil rs (hne id rs hrs)
    exact absurd ⟨id, rs, hrs, hx⟩ (Set.eq_empty_iff_forall_notMem.mp h x)

theorem recorded_of_lookup (h : ∀ id, pairs.lookup id = none) : recorded pairs = ∅ := by
  rw [Set.eq_empty_iff_forall_notMem]
  rintro x ⟨id, rs, hrs, -⟩
  rw [h] at hrs
  nomatch hrs

variable (hd : d.Consistent)

include hd

/-- What a map asks for has a rule in the filter after a call in which no rule fails. -/
theorem exists_installed
    (hok : d.taken lib networkMap refusals = networkMap.peerRules) (hr : r ∈ networkMap.peerRules)
    (hs : r.convert lib = .ok s) (hwanted : s.wanted d.firewall.stateful = true) :
    ∃ x, (d.applyPeerACLs lib networkMap refusals).peerRulesPairs.lookup s.getPeerRuleID = some [x] ∧
      s.Makes x := by
  obtain ⟨hcons, -, hnew⟩ := applyPeerACLs_of_succeeds hd hok
  obtain ⟨rs, hrs⟩ := Option.isSome_iff_exists.mp
    (hnew _ (mem_ruleIDs.mpr ⟨r, hr, s, hs, hwanted, rfl⟩))
  obtain ⟨s', x, rfl, hvalid, hwanted', hid, hmakes⟩ := hcons.single _ _ hrs
  obtain rfl := getPeerRuleID_injective hvalid (convert_valid hs)
    (PeerSpec.direction_of_wanted hwanted') (PeerSpec.direction_of_wanted hwanted) hid
  exact ⟨x, hrs, hmakes⟩

/-- **One call**, from a state in which record and filter agree. -/
theorem updatesCleanly_iff_harmless (u : Update) : UpdatesCleanly lib d u ↔ Harmless lib d u := by
  by_cases hok : d.taken lib u.networkMap u.refusedPeer = u.networkMap.peerRules
  · obtain ⟨hcons, -, -⟩ := applyPeerACLs_of_succeeds hd hok
    have hnone := (peerError_eq_none_iff hd u).mpr hok
    refine iff_of_true ⟨hcons.installed.symm, fun hsome => ?_, fun _ r hr s hs hwanted => ?_⟩ (.inl hok)
    · rw [hnone] at hsome
      nomatch hsome
    · obtain ⟨x, hx, hmakes⟩ := exists_installed hd hok hr hs hwanted
      exact ⟨x, hcons.installed ▸ ⟨_, _, hx, mem_singleton_self x⟩, hmakes⟩
  · obtain ⟨-, hempty, hknown, hnew, hne⟩ := applyPeerACLs_of_fails hd hok
    have hsome : (d.peerError lib u).isSome :=
      Option.isSome_iff_ne_none.mpr (mt (peerError_eq_none_iff hd u).mp hok)
    constructor
    · intro h
      have hlookup := lookup_of_recorded_empty hne (h.recorded.trans hempty)
      refine .inr ⟨(h.failed hsome).symm.trans hempty, eq_nil_iff_forall_not_mem.mpr ?_⟩
      intro id hid
      have := hnew id hid
      rw [hlookup] at this
      nomatch this
    · intro h
      obtain ⟨hbefore, hids⟩ := h.resolve_left hok
      have hlookup : ∀ id, (peerStep lib d u).peerRulesPairs.lookup id = none := by
        intro id
        refine Option.not_isSome_iff_eq_none.mp fun hid => ?_
        have := hknown id hid
        have hnone : d.peerRulesPairs.lookup id = none := by
          refine lookup_of_recorded_empty (fun id rs hrs => ?_) (hd.installed ▸ hbefore) id
          obtain ⟨-, x, rfl, -⟩ := hd.single id rs hrs
          exact cons_ne_nil x []
        rw [known, hids, hnone] at this
        simp at this
      refine ⟨(recorded_of_lookup hlookup).trans hempty.symm, fun _ => hempty.trans hbefore.symm, ?_⟩
      intro hnone
      rw [hnone] at hsome
      nomatch hsome

theorem Harmless.consistent {u : Update} (h : Harmless lib d u) :
    (peerStep lib d u).Consistent := by
  by_cases hok : d.taken lib u.networkMap u.refusedPeer = u.networkMap.peerRules
  · exact (applyPeerACLs_of_succeeds hd hok).1
  · obtain ⟨hkept, hempty, -, -, hne⟩ := applyPeerACLs_of_fails hd hok
    have hrec := ((updatesCleanly_iff_harmless hd u).mpr h).recorded
    have hlookup : ∀ id, (peerStep lib d u).peerRulesPairs.lookup id = none :=
      lookup_of_recorded_empty hne (hrec.trans hempty)
    refine ⟨hkept, hrec.symm, fun id rs hrs => ?_, fun id id' x hx => ?_⟩
    · rw [hlookup] at hrs
      nomatch hrs
    · rw [hlookup] at hx
      nomatch hx

omit hd

theorem newDefaultManager_consistent (stateful : Bool) : (newDefaultManager stateful).Consistent :=
  Consistent.empty

/-- **When updates leave a consistent filter.**  Over every sequence of maps, with rules that cannot
be converted and additions that the filter refuses, the recorded rules are those of the filter
after each call and a failed call changes nothing, exactly if every call that fails finds an
empty filter and fails before it adds a rule. -/
theorem updatesCleanly_iff (lib : Library) (stateful : Bool) (us : List Update) :
    Runs.Along (peerStep lib) (UpdatesCleanly lib) (newDefaultManager stateful) us ↔
      Runs.Along (peerStep lib) (Harmless lib) (newDefaultManager stateful) us :=
  Runs.Along.congr DefaultManager.Consistent (fun _ u hd => updatesCleanly_iff_harmless hd u)
    (fun _ _ hd h => h.consistent hd) (newDefaultManager_consistent stateful)

/-- The texts that the examples use. -/
def sampleLibrary : Library where
  parseIP s :=
    if s = "0.0.0.0" then some (Addr.v4InV6Prefix ++ ipv4Unspecified)
    else if s = "100.64.0.2" then some (Addr.v4InV6Prefix ++ [100, 64, 0, 2])
    else none
  length_parseIP s ip h := by
    split_ifs at h <;> rw [← Option.some.inj h] <;> rfl
  parseIP_unspecified := rfl
  atoi _ := .error "strconv.Atoi"
  parsePrefix _ := .ok ⟨[10, 0, 0, 0], 8⟩
  caseMap := .ascii
  toUnicode := .ok
  sha256 _ := Vector.replicate 32 0

/-- A map that lets a peer in, followed by the given rules. -/
def letIn (others : List FirewallRule) : Update where
  networkMap :=
    { firewallRules :=
        { peerIP := "100.64.0.2", direction := .IN, action := .ACCEPT, protocol := .TCP
          portInfo := some (.port 22) } :: others
      firewallRulesIsEmpty := false
      routesFirewallRules := [] }
  dnsRouteFeatureFlag := false
  refusedPeer _ := none
  refusedRoute _ := none

/-- A rule without an address. -/
def badRule : FirewallRule :=
  { peerIP := "", direction := .IN, action := .ACCEPT, protocol := .TCP }

def afterBadRule : DefaultManager :=
  [letIn [], letIn [badRule], letIn []].foldl (peerStep sampleLibrary) (newDefaultManager true)

/-- **A rule that cannot be converted empties the filter for good**: the same map without it puts
nothing back. -/
theorem bad_rule_empties_filter :
    ¬ Runs.Along (peerStep sampleLibrary) (UpdatesCleanly sampleLibrary) (newDefaultManager true)
        [letIn [], letIn [badRule], letIn []] ∧
      afterBadRule.firewall.peerRules.incomingRules.keys = [] ∧
      afterBadRule.firewall.peerRules.incomingDenyRules.keys = [] ∧
      afterBadRule.peerRulesPairs.keys.length = 1 := by
  refine ⟨fun h => ?_, by decide +kernel, by decide +kernel, by decide +kernel⟩
  have hfirst := (updatesCleanly_iff_harmless (newDefaultManager_consistent true) _).mp h.1
  have hcons := hfirst.consistent (newDefaultManager_consistent true)
  rcases (updatesCleanly_iff_harmless hcons _).mp h.2.1 with htaken | ⟨-, hids⟩
  · exact absurd (congrArg length htaken) (by decide +kernel)
  · revert hids
    decide +kernel

end Acl

end Netbird
