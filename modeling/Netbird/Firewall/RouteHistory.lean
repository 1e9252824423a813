/-
The verdict on routed packets over a history of `AddRouteFiltering`, `DeleteRouteRule` and
`UpdateSet`.

The rules that were added and not deleted decide: a packet passes if an accept rule matches it and
no drop rule does.  What a rule of the slice says is compared without the ID that management has for
it, which decides nothing.  The order of the additions can decide which rule is installed: rules for
two sets of domains can share a key, and then the first that is added keeps the other out.

* `Follows.call` — the slice has the installed rules, sorted;
* `routeACLsPass_iff` — deny overrides, and when the order of additions decides nothing.
-/
import Netbird.Firewall.RouteSets

namespace Netbird.Firewall

/-! ### Installed rules -/

/-- A rule without the ID that management has for it. -/
def RouteRule.anonymous (r : RouteRule) : RouteRule :=
  { r with mgmtId := [] }

/-- The arguments of `AddRouteFiltering`. -/
structure Addition where
  id : Bytes
  sources : List Prefix
  destination : Network
  proto : Protocol
  sPort : Option Port
  dPort : Option Port
  action : Action

def Addition.call (a : Addition) : RouteCall :=
  .add a.id a.sources a.destination a.proto a.sPort a.dPort a.action

variable (sha256 : Sha256)

/-- The rule that an addition asks for. -/
def Addition.rule (a : Addition) : RouteRule :=
  makeRouteRule sha256 [] a.sources a.destination a.proto a.sPort a.dPort a.action

/-- The rules that are installed after a call.  An addition with the key of an installed rule is
that rule again; an update writes the destinations of the first rule of the set, with the new ones,
to all rules of the set. -/
def install (rules : List RouteRule) : RouteCall → List RouteRule
  | .add _ sources destination proto sPort dPort action =>
    let rule := makeRouteRule sha256 [] sources destination proto sPort dPort action
    if rule.id ∈ rules.map (·.id) then rules else rules ++ [rule]
  | .delete ruleKey => rules.filter (·.id ≠ ruleKey)
  | .updateSet set prefixes =>
    match (rules.insertionSort RouteRule.le).find? (·.dstSet = set) with
    | none => rules
    | some first => rules.map (.write set (merged first prefixes))

/-- The rules that were added and not deleted. -/
def installed (calls : List RouteCall) : List RouteRule :=
  calls.foldl (install sha256) []

def tableAfter (calls : List RouteCall) : RouteTable :=
  calls.foldl (RouteTable.call sha256) .empty

/-! ### The sorted slice -/

open List

instance : Std.Total RouteRule.le where
  total a b := by
    have := le_total a.id b.id
    grind [RouteRule.le]

instance : IsTrans RouteRule RouteRule.le where
  trans a b c := by
    have := @le_trans _ _ a.id b.id c.id
    grind [RouteRule.le]

theorem RouteRule.id_eq_of_le {a b : RouteRule} (hab : a.le b) (hba : b.le a) : a.id = b.id := by
  have := @le_antisymm _ _ a.id b.id
  grind [RouteRule.le]

/-- Rules with different keys are sorted in one way. -/
theorem eq_insertionSort {l rules : List RouteRule} (hsorted : l.Pairwise RouteRule.le)
    (hperm : l.Perm rules) (hkeys : (rules.map (·.id)).Nodup) :
    l = rules.insertionSort RouteRule.le := by
  have hsort := perm_insertionSort RouteRule.le rules
  refine (hperm.trans hsort.symm).eq_of_pairwise (fun a b ha hb hab hba => ?_) hsorted
    (pairwise_insertionSort ..)
  exact inj_on_of_nodup_map hkeys (hperm.subset ha) (hsort.subset hb) (RouteRule.id_eq_of_le hab hba)

theorem insertionSort_eq_of_perm {rules rules' : List RouteRule} (hperm : rules.Perm rules')
    (hkeys : (rules'.map (·.id)).Nodup) :
    rules.insertionSort RouteRule.le = rules'.insertionSort RouteRule.le :=
  eq_insertionSort (pairwise_insertionSort ..) ((perm_insertionSort ..).trans hperm) hkeys

theorem map_id_write (set : DomainSet) (destinations : List Prefix) (rules : List RouteRule) :
    (rules.map (RouteRule.write set destinations)).map (·.id) = rules.map (·.id) := by
  rw [map_map]
  refine map_congr_left fun r _ => ?_
  simp only [Function.comp_apply, RouteRule.write]
  split_ifs <;> rfl

theorem le_write {set : DomainSet} {destinations : List Prefix} {a b : RouteRule} :
    (a.write set destinations).le (b.write set destinations) ↔ a.le b := by
  simp only [RouteRule.write]
  split_ifs <;> exact Iff.rfl

theorem nodup_install {rules : List RouteRule} (h : (rules.map (·.id)).Nodup) (c : RouteCall) :
    ((install sha256 rules c).map (·.id)).Nodup := by
  cases c with
  | add id sources destination proto sPort dPort action =>
    simp only [install]
    split_ifs with hold
    · exact h
    · rw [map_append]
      exact h.append (nodup_singleton _) (disjoint_singleton.mpr hold)
  | delete ruleKey => exact h.sublist (filter_sublist.map _)
  | updateSet set prefixes =>
    simp only [install]
    split
    · exact h
    · rwa [map_id_write]

/-- The slice and the map have the installed rules. -/
structure Follows (t : RouteTable) (rules : List RouteRule) : Prop where
  lookup : ∀ id, (t.routeRulesMap.lookup id).isSome ↔ id ∈ rules.map (·.id)
  nodup : (rules.map (·.id)).Nodup
  slice : t.routeRules.map (·.anonymous) = rules.insertionSort RouteRule.le

namespace Follows

theorem empty : Follows .empty [] :=
  ⟨fun id => by simp [RouteTable.empty], nodup_nil, rfl⟩

variable {sha256} {t : RouteTable} {rules : List RouteRule} (h : Follows t rules)

include h

theorem perm : (t.routeRules.map (·.anonymous)).Perm rules :=
  h.slice ▸ perm_insertionSort ..

theorem ids_perm : (t.routeRules.map (·.id)).Perm (rules.map (·.id)) := by
  have hids := h.perm.map (·.id)
  rwa [map_map] at hids

theorem sorted : t.routeRules.Pairwise RouteRule.le := by
  have hsorted := pairwise_insertionSort RouteRule.le rules
  rw [← h.slice] at hsorted
  have hslice := pairwise_map.mp hsorted
  exact hslice

theorem add (a : Addition) : Follows (t.call sha256 a.call) (install sha256 rules a.call) := by
  obtain ⟨id, sources, destination, proto, sPort, dPort, action⟩ := a
  have hkeys := nodup_install sha256 h.nodup
    (.add id sources destination proto sPort dPort action)
  have hmade : makeRouteRule sha256 [] sources destination proto sPort dPort action =
    (makeRouteRule sha256 id sources destination proto sPort dPort action).anonymous := rfl
  simp only [Addition.call, RouteTable.call, RouteTable.addRouteFiltering, install, hmade] at hkeys ⊢
  generalize makeRouteRule sha256 id sources destination proto sPort dPort action = rule at hkeys ⊢
  have hold : (t.routeRulesMap.lookup rule.id).isSome ↔ rule.anonymous.id ∈ rules.map (·.id) :=
    h.lookup rule.id
  cases hlookup : t.routeRulesMap.lookup rule.id with
  | some old =>
    rw [hlookup] at hold
    rw [if_pos (hold.mp rfl)]
    exact h
  | none =>
    rw [hlookup] at hold
    have hnew : rule.anonymous.id ∉ rules.map (·.id) := fun hmem =>
      Bool.false_ne_true (hold.mpr hmem)
    rw [if_neg hnew] at hkeys ⊢
    refine ⟨fun id' => ?_, hkeys, eq_insertionSort ?_ ?_ hkeys⟩
    · rw [Keyed.lookup_insert_ite, map_append, mem_append, map_singleton, mem_singleton, ← h.lookup]
      split_ifs with heq
      · exact iff_of_true rfl (.inr heq)
      · exact ⟨.inl, fun hid => hid.resolve_right heq⟩
    · exact pairwise_map.mpr (pairwise_insertionSort RouteRule.le _)
    · refine ((perm_insertionSort ..).map _).trans ?_
      rw [map_append]
      exact h.perm.append_right _

theorem delete (ruleKey : String) :
    Follows (t.call sha256 (.delete ruleKey)) (install sha256 rules (.delete ruleKey)) := by
  have hkeys := nodup_install sha256 h.nodup (.delete ruleKey)
  have hlookup := h.lookup ruleKey
  simp only [RouteTable.call, RouteTable.deleteRouteRule, install] at hkeys ⊢
  cases hfind : t.routeRulesMap.lookup ruleKey with
  | none =>
    have hall : rules.filter (·.id ≠ ruleKey) = rules := by
      refine filter_eq_self.mpr fun r hr => decide_eq_true fun hid => ?_
      rw [hfind] at hlookup
      exact Bool.false_ne_true (hlookup.mpr (mem_map.mpr ⟨r, hr, hid⟩))
    rw [hall]
    exact h
  | some old =>
    have hmem : ruleKey ∈ t.routeRules.map (·.id) :=
      h.ids_perm.mem_iff.mpr (hlookup.mp (by rw [hfind]; rfl))
    obtain ⟨r, hr, hid⟩ := mem_map.mp hmem
    obtain ⟨idx, hidx⟩ : ∃ idx, t.routeRules.findIdx? (·.id = ruleKey) = some idx := by
      rw [← Option.isSome_iff_exists, findIdx?_isSome, any_eq_true]
      exact ⟨r, hr, decide_eq_true hid⟩
    have herase := Keyed.eraseP_eq_filter (h.ids_perm.nodup_iff.mpr h.nodup) ruleKey
    simp only [eraseP_eq_eraseIdx, hidx] at herase
    simp only [Option.isNone_some, Bool.false_eq_true, if_false, hidx, herase, Except.toOption,
      Option.getD_some]
    refine ⟨fun id' => ?_, hkeys, eq_insertionSort ?_ ?_ hkeys⟩
    · rw [Keyed.lookup_erase_ite]
      split_ifs with heq
      · simp [heq]
      · rw [h.lookup]
        grind
    · exact pairwise_map.mpr (h.sorted.sublist filter_sublist)
    · have hfilter := h.perm.filter fun r => decide (r.id ≠ ruleKey)
      rw [filter_map] at hfilter
      exact hfilter

theorem updateSet (set : DomainSet) (prefixes : List Prefix) :
    Follows (t.call sha256 (.updateSet set prefixes))
      (install sha256 rules (.updateSet set prefixes)) := by
  have hkeys := nodup_install sha256 h.nodup (.updateSet set prefixes)
  have hfirst : (rules.insertionSort RouteRule.le).find? (·.dstSet = set) =
      (t.routeRules.find? (·.dstSet = set)).map (·.anonymous) := by
    rw [← h.slice, find?_map]
    rfl
  simp only [RouteTable.call, RouteTable.updateSet, install, hfirst] at hkeys ⊢
  cases hfind : t.routeRules.find? (·.dstSet = set) with
  | none => exact h
  | some first =>
    simp only [hfind, Option.map_some] at hkeys ⊢
    have hwrite : ∀ r : RouteRule, (r.write set (merged first prefixes)).anonymous =
        r.anonymous.write set (merged first prefixes) := by
      intro r
      by_cases hr : r.dstSet = set <;> simp [RouteRule.write, RouteRule.anonymous, hr]
    have hmap : (t.routeRules.map (RouteRule.write set (merged first prefixes))).map (·.anonymous) =
        (t.routeRules.map (·.anonymous)).map (RouteRule.write set (merged first prefixes)) := by
      simp only [map_map, Function.comp_def, hwrite]
    refine ⟨fun id' => ?_, hkeys, ?_⟩
    · rw [map_id_write, ← h.lookup]
      change (AList.lookup id' (t.routeRules.foldl _ t.routeRulesMap)).isSome ↔ _
      by_cases hmem : id' ∈ t.routeRules.map (·.id)
      · obtain ⟨r, -, -, hr⟩ := Keyed.exists_lookup_foldl_insert hmem
        rw [hr, h.lookup, ← h.ids_perm.mem_iff]
        exact iff_of_true rfl hmem
      · rw [Keyed.lookup_foldl_insert_of_not_mem hmem]
    · refine eq_insertionSort (pairwise_map.mpr (pairwise_map.mpr ?_)) ?_ hkeys
      · exact h.sorted.imp le_write.mpr
      · change ((t.routeRules.map (RouteRule.write set (merged first prefixes))).map (·.anonymous)).Perm _
        rw [hmap]
        exact h.perm.map _

/-- **Every call** keeps the slice in step with the installed rules. -/
theorem call (c : RouteCall) : Follows (t.call sha256 c) (install sha256 rules c) := by
  cases c with
  | add id sources destination proto sPort dPort action =>
    exact h.add ⟨id, sources, destination, proto, sPort, dPort, action⟩
  | delete ruleKey => exact h.delete ruleKey
  | updateSet set prefixes => exact h.updateSet set prefixes

end Follows

theorem follows_installed (calls : List RouteCall) :
    Follows (tableAfter sha256 calls) (installed sha256 calls) := by
  induction calls using reverseRecOn with
  | nil => exact .empty
  | append_singleton calls c ih =>
    rw [tableAfter, installed, foldl_append, foldl_append]
    exact ih.call c

/-! ### Deny overrides -/

/-- The drop rules come first. -/
def DropFirst (rules : List RouteRule) : Prop :=
  rules.Pairwise fun a b => b.action = .drop → a.action = .drop

theorem dropFirst_insertionSort (rules : List RouteRule) :
    DropFirst (rules.insertionSort RouteRule.le) :=
  (pairwise_insertionSort RouteRule.le rules).imp fun {a b} hle hdrop => by
    grind [RouteRule.le]

/-- Deny overrides, default drop: an accept rule matches, and no drop rule. -/
def Admits (rules : List RouteRule) (isMatch : RouteRule → Bool) : Prop :=
  (∃ r ∈ rules, r.action = .accept ∧ isMatch r) ∧ ∀ r ∈ rules, r.action = .drop → ¬ isMatch r

section Pass

variable (srcIP dstIP : Bytes) (layer : LayerType) (srcPort dstPort : UInt16)

theorem DropFirst.pass_iff {rules : List RouteRule} (h : DropFirst rules) :
    (routeACLsPass rules srcIP dstIP layer srcPort dstPort).2 = true ↔
      Admits rules (ruleMatches · srcIP dstIP layer srcPort dstPort) := by
  rw [routeACLsPass, Admits]
  induction rules with
  | nil => simp
  | cons r rules ih =>
    obtain ⟨hfirst, hrest⟩ := pairwise_cons.mp h
    cases hr : ruleMatches r srcIP dstIP layer srcPort dstPort with
    | false => simpa [hr] using ih hrest
    | true =>
      cases hact : r.action with
      | accept =>
        -- there are no drop rules after an accept rule
        have hnone : ∀ r' ∈ rules, r'.action ≠ .drop := fun r' hr' hdrop =>
          absurd (hact.symm.trans (hfirst r' hr' hdrop)) (by decide)
        simpa [hr, hact] using fun r' hr' hdrop => absurd hdrop (hnone r' hr')
      | drop => simp [hr, hact]

theorem pass_anonymous (rules : List RouteRule) :
    (routeACLsPass (rules.map (·.anonymous)) srcIP dstIP layer srcPort dstPort).2 =
      (routeACLsPass rules srcIP dstIP layer srcPort dstPort).2 := by
  have hfind : (rules.map (·.anonymous)).find? (ruleMatches · srcIP dstIP layer srcPort dstPort) =
      (rules.find? (ruleMatches · srcIP dstIP layer srcPort dstPort)).map (·.anonymous) := by
    rw [find?_map]
    rfl
  rw [routeACLsPass, routeACLsPass, hfind]
  cases rules.find? (ruleMatches · srcIP dstIP layer srcPort dstPort) <;> rfl

variable {srcIP dstIP layer srcPort dstPort} in
theorem Follows.pass_iff {t : RouteTable} {rules : List RouteRule} (h : Follows t rules) :
    (routeACLsPass t.routeRules srcIP dstIP layer srcPort dstPort).2 = true ↔
      Admits rules (ruleMatches · srcIP dstIP layer srcPort dstPort) := by
  rw [← pass_anonymous, h.slice, (dropFirst_insertionSort rules).pass_iff]
  simp only [Admits, mem_insertionSort]

end Pass

/-! ### The order of additions -/

theorem foldl_install_additions (adds : List Addition) (rules : List RouteRule) :
    (adds.map Addition.call).foldl (install sha256) rules =
      rules ++ Keyed.firstsFrom (·.id) (rules.map (·.id)) (adds.map (·.rule sha256)) := by
  induction adds generalizing rules with
  | nil => simp [Keyed.firstsFrom]
  | cons a adds ih =>
    rw [map_cons, foldl_cons, ih, map_cons, Keyed.firstsFrom]
    change (if (a.rule sha256).id ∈ rules.map (·.id) then rules else rules ++ [a.rule sha256]) ++
      Keyed.firstsFrom (·.id) ((if (a.rule sha256).id ∈ rules.map (·.id) then rules
        else rules ++ [a.rule sha256]).map (·.id)) (adds.map (·.rule sha256)) = _
    split_ifs with hold
    · rfl
    · rw [append_assoc, singleton_append, map_append]
      exact congrArg _ (congrArg _ (Keyed.firstsFrom_of_mem_iff (fun k => by simp [or_comm]) _))

/-- Additions that ask for the same new key ask for the same rule. -/
def KeysTell (calls : List RouteCall) (adds : List Addition) : Prop :=
  ∀ a ∈ adds, ∀ b ∈ adds, (a.rule sha256).id = (b.rule sha256).id →
    (a.rule sha256).id ∉ (installed sha256 calls).map (·.id) → a.rule sha256 = b.rule sha256

/-- In whatever order the rules are added after the first calls, the slice has the same rules
after any further calls, and the same packets pass. -/
def OrderFree (calls : List RouteCall) (adds : List Addition) : Prop :=
  ∀ adds' : List Addition, adds'.Perm adds → ∀ later,
    let t := tableAfter sha256 (calls ++ adds.map Addition.call ++ later)
    let t' := tableAfter sha256 (calls ++ adds'.map Addition.call ++ later)
    t'.routeRules.map (·.anonymous) = t.routeRules.map (·.anonymous) ∧
      ∀ srcIP dstIP layer srcPort dstPort,
        (routeACLsPass t'.routeRules srcIP dstIP layer srcPort dstPort).2 =
          (routeACLsPass t.routeRules srcIP dstIP layer srcPort dstPort).2

theorem nodup_installed (calls : List RouteCall) : ((installed sha256 calls).map (·.id)).Nodup :=
  (follows_installed sha256 calls).nodup

theorem installed_append_additions (calls : List RouteCall) (adds : List Addition) :
    installed sha256 (calls ++ adds.map Addition.call) = installed sha256 calls ++
      Keyed.firstsFrom (·.id) ((installed sha256 calls).map (·.id)) (adds.map (·.rule sha256)) := by
  rw [installed, foldl_append]
  exact foldl_install_additions sha256 adds _

variable {sha256}

/-- The first addition that asks for a new key is installed. -/
theorem rule_mem_installed {calls : List RouteCall} {a : Addition} (adds : List Addition)
    (hnew : (a.rule sha256).id ∉ (installed sha256 calls).map (·.id)) :
    a.rule sha256 ∈ installed sha256 (calls ++ (a :: adds).map Addition.call) := by
  rw [installed_append_additions, mem_append, Keyed.mem_firstsFrom]
  exact .inr ⟨hnew, find?_cons_of_pos (by simp)⟩

theorem KeysTell.mem_installed_iff {calls : List RouteCall} {adds : List Addition}
    (h : KeysTell sha256 calls adds) (r : RouteRule) :
    r ∈ installed sha256 (calls ++ adds.map Addition.call) ↔
      r ∈ installed sha256 calls ∨ r.id ∉ (installed sha256 calls).map (·.id) ∧
        r ∈ adds.map (·.rule sha256) := by
  rw [installed_append_additions, mem_append, Keyed.mem_firstsFrom]
  refine or_congr_right (and_congr_right fun hnew => ⟨mem_of_find?_eq_some, fun hr => ?_⟩)
  obtain ⟨b, hb⟩ : ∃ b, (adds.map (·.rule sha256)).find? (fun b => b.id = r.id) = some b :=
    Option.isSome_iff_exists.mp (find?_isSome.mpr ⟨r, hr, by simp⟩)
  have hkey : b.id = r.id := by simpa using find?_some hb
  obtain ⟨a, ha, rfl⟩ := mem_map.mp hr
  obtain ⟨a', ha', rfl⟩ := mem_map.mp (mem_of_find?_eq_some hb)
  rw [hb, h a ha a' ha' hkey.symm hnew]

/-- Lists of the same rules stay so. -/
theorem install_perm {rules rules' : List RouteRule} (hperm : rules'.Perm rules)
    (hkeys : (rules.map (·.id)).Nodup) (c : RouteCall) :
    (install sha256 rules' c).Perm (install sha256 rules c) := by
  cases c with
  | add id sources destination proto sPort dPort action =>
    simp only [install, (hperm.map (·.id)).mem_iff]
    split_ifs
    · exact hperm
    · exact hperm.append_right _
  | delete ruleKey => exact hperm.filter _
  | updateSet set prefixes =>
    simp only [install, insertionSort_eq_of_perm hperm hkeys]
    split
    · exact hperm
    · exact hperm.map _

theorem installed_perm {calls calls' : List RouteCall}
    (h : (installed sha256 calls').Perm (installed sha256 calls)) (later : List RouteCall) :
    (installed sha256 (calls' ++ later)).Perm (installed sha256 (calls ++ later)) := by
  induction later using reverseRecOn with
  | nil => simpa using h
  | append_singleton later c ih =>
    have hkeys := nodup_installed sha256 (calls ++ later)
    rw [← append_assoc, ← append_assoc, installed, installed, foldl_concat, foldl_concat]
    exact install_perm ih hkeys c

theorem slice_eq_of_perm {calls calls' : List RouteCall}
    (h : (installed sha256 calls').Perm (installed sha256 calls)) :
    (tableAfter sha256 calls').routeRules.map (·.anonymous) =
      (tableAfter sha256 calls).routeRules.map (·.anonymous) := by
  rw [(follows_installed sha256 calls').slice, (follows_installed sha256 calls).slice]
  exact insertionSort_eq_of_perm h (nodup_installed sha256 calls)

variable (sha256) in
/-- **The order of additions** decides nothing exactly if the new keys tell the rules apart. -/
theorem orderFree_iff (calls : List RouteCall) (adds : List Addition) :
    OrderFree sha256 calls adds ↔ KeysTell sha256 calls adds := by
  constructor
  · intro h a ha b hb hkey hnew
    -- put each of the two first: both orders must then install both rules
    have hfirst : ∀ c ∈ adds, (c.rule sha256).id ∉ (installed sha256 calls).map (·.id) →
        c.rule sha256 ∈ installed sha256 (calls ++ adds.map Addition.call) := by
      intro c hc hnewc
      obtain ⟨before, behind, rfl⟩ := append_of_mem hc
      have hslice := (h _ perm_middle.symm []).1
      have hmem := (follows_installed sha256 _).perm.mem_iff.mpr
        (rule_mem_installed (before ++ behind) hnewc)
      rw [append_nil, append_nil] at hslice
      rw [hslice] at hmem
      exact (follows_installed sha256 _).perm.mem_iff.mp hmem
    exact inj_on_of_nodup_map (nodup_installed sha256 _) (hfirst a ha hnew)
      (hfirst b hb (hkey ▸ hnew)) hkey
  · intro h adds' hperm later
    have h' : KeysTell sha256 calls adds' := fun a ha b hb =>
      h a (hperm.subset ha) b (hperm.subset hb)
    have hinstalled : (installed sha256 (calls ++ adds'.map Addition.call)).Perm
        (installed sha256 (calls ++ adds.map Addition.call)) := by
      refine (perm_ext_iff_of_nodup (nodup_installed sha256 _).of_map (nodup_installed sha256 _).of_map).mpr
        fun r => ?_
      rw [h'.mem_installed_iff, h.mem_installed_iff, (hperm.map _).mem_iff]
    have hslice := slice_eq_of_perm (installed_perm hinstalled later)
    refine ⟨hslice, fun srcIP dstIP layer srcPort dstPort => ?_⟩
    rw [← pass_anonymous, hslice, pass_anonymous]

variable (sha256) in
/-- **Deny overrides, default drop**, after every history of calls: the rules that were added and
not deleted decide, and a rule that is added again changes nothing.  With the rule of
`blockInvalidRouted` nothing passes into the network.  The order of additions decides nothing exactly
if the new keys tell the rules apart. -/
theorem routeACLsPass_iff (calls : List RouteCall) (adds : List Addition) :
    let t := tableAfter sha256 calls
    (∀ srcIP dstIP layer srcPort dstPort,
      (routeACLsPass t.routeRules srcIP dstIP layer srcPort dstPort).2 = true ↔
        Admits (installed sha256 calls) (ruleMatches · srcIP dstIP layer srcPort dstPort)) ∧
    (∀ a : Addition, (a.rule sha256).id ∈ (installed sha256 calls).map (·.id) →
      t.call sha256 a.call = t) ∧
    (∀ (wgPrefix : Prefix) srcIP dstIP layer srcPort dstPort,
      wgPrefix.contains dstIP → srcIP.length = 4 →
      makeRouteRule sha256 [] [⟨[0, 0, 0, 0], 0⟩] (.range wgPrefix) .all none none .drop ∈
        installed sha256 calls →
      (routeACLsPass t.routeRules srcIP dstIP layer srcPort dstPort).2 = false) ∧
    (OrderFree sha256 calls adds ↔ KeysTell sha256 calls adds) := by
  intro t
  have hfollows : Follows t (installed sha256 calls) := follows_installed sha256 calls
  refine ⟨fun _ _ _ _ _ => hfollows.pass_iff, fun a hid => ?_, ?_, orderFree_iff sha256 calls adds⟩
  · obtain ⟨old, hold⟩ := Option.isSome_iff_exists.mp ((hfollows.lookup _).mpr hid)
    have hlookup : t.routeRulesMap.lookup (makeRouteRule sha256 a.id a.sources a.destination a.proto
      a.sPort a.dPort a.action).id = some old := hold
    simp only [Addition.call, RouteTable.call, RouteTable.addRouteFiltering, hlookup]
  · intro wgPrefix srcIP dstIP layer srcPort dstPort hdst hsrc hmem
    rw [← Bool.not_eq_true, hfollows.pass_iff]
    refine fun h => h.2 _ hmem rfl ?_
    have hvalid : isValidPrefix wgPrefix := by
      grind [Prefix.contains, isValidPrefix]
    have hany : Prefix.contains ⟨[0, 0, 0, 0], 0⟩ srcIP := by
      obtain ⟨a, b, c, d, rfl⟩ := length_eq_four.mp hsrc
      have := a.toNat_lt
      have := b.toNat_lt
      have := c.toNat_lt
      have := d.toNat_lt
      simp [Prefix.contains, addrNat]
      omega
    simp [ruleMatches, makeRouteRule, protoToLayer, portsMatch, sortPrefixes, hvalid, hany, hdst]

/-- Of two rules with one key the first is installed, and an update is for its set or for none. -/
theorem installed_update {sha256 : Sha256} {a b : Addition} {set : DomainSet}
    (hkey : (a.rule sha256).id = (b.rule sha256).id) (prefixes : List Prefix) :
    installed sha256 [a.call, b.call, .updateSet set prefixes] =
      if (a.rule sha256).dstSet = set then
        [(a.rule sha256).write set (merged (a.rule sha256) prefixes)]
      else [a.rule sha256] := by
  have hinstalled : installed sha256 [a.call, b.call] = [a.rule sha256] := by
    simpa [Keyed.firstsFrom, hkey, installed] using installed_append_additions sha256 [] [a, b]
  change install sha256 (installed sha256 [a.call, b.call]) (.updateSet set prefixes) = _
  rw [hinstalled, install, insertionSort_cons, insertionSort_nil, orderedInsert_nil]
  split_ifs with hset <;> simp [hset]

/-- An accept rule for a set of domains. -/
private def toDomains (sha256 : Sha256) (domains : List String) : Addition where
  id := []
  sources := [⟨[10, 0, 0, 0], 8⟩]
  destination := .set (newDomainSet sha256 .ok domains)
  proto := .all
  sPort := none
  dPort := none
  action := .accept

private theorem toDomains_key (sha256 : Sha256) :
    ((toDomains sha256 ["a.com", "b.com"]).rule sha256).id =
      ((toDomains sha256 ["a.comb.com"]).rule sha256).id := by
  have htext := text_newDomainSet_eq sha256 .ok ["a.com", "b.com"] ["a.comb.com"]
    (by decide +kernel) (by rw [comment_newDomainSet]; decide +kernel)
    (by rw [comment_newDomainSet]; decide +kernel)
  simp only [Addition.rule, makeRouteRule, generateRouteRuleKey, toDomains, htext]

/-- The two sets have different comments. -/
private theorem domainSet_ne (sha256 : Sha256) :
    newDomainSet sha256 .ok ["a.comb.com"] ≠ newDomainSet sha256 .ok ["a.com", "b.com"] := by
  intro h
  have hcomment := congrArg DomainSet.comment h
  rw [comment_newDomainSet, comment_newDomainSet] at hcomment
  exact absurd hcomment (by decide +kernel)

/-- **The first of two rules with one key keeps the other out**, whatever the digest: the packet
passes if the rule for `a.com` and `b.com` was added before the one for `a.comb.com`. -/
theorem first_addition_decides : (∀ sha256 : Sha256,
    let pair := toDomains sha256 ["a.com", "b.com"]
    let single := toDomains sha256 ["a.comb.com"]
    let resolved : RouteCall :=
      .updateSet (newDomainSet sha256 .ok ["a.com", "b.com"]) [⟨[192, 0, 2, 1], 32⟩]
    let pass (calls : List RouteCall) : Bool :=
      (routeACLsPass (tableAfter sha256 calls).routeRules [10, 0, 0, 1] [192, 0, 2, 1] .tcp 1024 443).2
    pass [pair.call, single.call, resolved] = true ∧
      pass [single.call, pair.call, resolved] = false) ∧
    ∀ sha256, ¬ OrderFree sha256 [] [toDomains sha256 ["a.com", "b.com"],
      toDomains sha256 ["a.comb.com"]] := by
  refine ⟨?_, fun sha256 hfree => domainSet_ne sha256 (congrArg RouteRule.dstSet
    ((orderFree_iff ..).mp hfree _ (by simp) _ (by simp) (toDomains_key sha256).symm
      (by simp [installed])))⟩
  intro sha256 pair single resolved pass
  have hkey : (pair.rule sha256).id = (single.rule sha256).id := toDomains_key sha256
  have hpass : ∀ calls, pass calls = true ↔ Admits (installed sha256 calls)
      (ruleMatches · [10, 0, 0, 1] [192, 0, 2, 1] .tcp 1024 443) :=
    fun calls => (follows_installed sha256 calls).pass_iff
  constructor
  · rw [hpass, (installed_update hkey _).trans
      (if_pos (rfl : _ = newDomainSet sha256 .ok ["a.com", "b.com"]))]
    refine ⟨⟨_, mem_singleton_self _, ?_, ?_⟩, fun r hr hdrop => ?_⟩
    · simp [RouteRule.write, Addition.rule, makeRouteRule, pair, toDomains]
    · simp [ruleMatches, RouteRule.write, merged, is4, Addition.rule, makeRouteRule, pair, toDomains,
        sortPrefixes, protoToLayer, portsMatch, Prefix.contains, addrNat]
    · obtain rfl := mem_singleton.mp hr
      simp [RouteRule.write, Addition.rule, makeRouteRule, pair, toDomains] at hdrop
  · rw [← Bool.not_eq_true, hpass,
      (installed_update hkey.symm _).trans (if_neg (domainSet_ne sha256))]
    rintro ⟨⟨r, hr, -, hmatch⟩, -⟩
    obtain rfl := mem_singleton.mp hr
    simp [ruleMatches, Addition.rule, makeRouteRule, single, toDomains] at hmatch

end Netbird.Firewall
