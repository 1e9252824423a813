/-
The route rules over a history of `AddRouteFiltering`, `DeleteRouteRule` and `UpdateSet`, which
adds to the destinations of the first rule of a set: none if it is newer than the others.

* `destinations_exact_iff` — when the destinations of a set only grow.
-/
import Netbird.Firewall.RouteRules
import Netbird.Lib.Runs

namespace Netbird.Firewall

def DomainSet.text (s : DomainSet) : String :=
  if s.comment = "" then s.hashedName else s.hashedName ++ ": " ++ s.comment

def is4 (p : Prefix) : Bool := p.addr.length = 4

/-- The destinations that `UpdateSet` writes, sorted.  Equal prefixes are neighbours then, so that
compacting leaves each once. -/
def merged (first : RouteRule) (prefixes : List Prefix) : List Prefix :=
  ((first.destinations ++ prefixes.filter is4).insertionSort fun p q =>
    p.addr.length < q.addr.length ∨ p.addr.length = q.addr.length ∧
      (addrNat p.addr < addrNat q.addr ∨ addrNat p.addr = addrNat q.addr ∧ p.bits ≤ q.bits)).dedup

def RouteRule.write (set : DomainSet) (destinations : List Prefix) (rule : RouteRule) : RouteRule :=
  if rule.dstSet = set then { rule with destinations := destinations } else rule

inductive RouteCall where
  | add (id : Bytes) (sources : List Prefix) (destination : Network) (proto : Protocol)
      (sPort dPort : Option Port) (action : Action)
  | delete (ruleKey : String)
  | updateSet (set : DomainSet) (prefixes : List Prefix)

abbrev Sha256 := Bytes → Vector UInt8 32

def sampleDigest : Sha256 := fun bytes => .replicate 32 (bytes.getLastD 0)

variable (sha256 : Sha256)

namespace RouteTable

/-- `UpdateSet`; slice and map have pointers to the same rules. -/
def updateSet (t : RouteTable) (set : DomainSet) (prefixes : List Prefix) :
    Except String RouteTable :=
  match t.routeRules.find? (·.dstSet = set) with
  | none => .error ("no route rule found for set: " ++ set.text)
  | some first =>
    let write := RouteRule.write set (merged first prefixes)
    .ok ⟨t.routeRules.map write,
      t.routeRules.foldl (fun m rule => m.insert rule.id (write rule)) t.routeRulesMap⟩

/-- The table after a call; one that fails leaves it as it is. -/
def call (t : RouteTable) : RouteCall → RouteTable
  | .add id sources destination proto sPort dPort action =>
    (t.addRouteFiltering sha256 id sources destination proto sPort dPort action).2
  | .delete ruleKey => (t.deleteRouteRule ruleKey).toOption.getD t
  | .updateSet set prefixes => (t.updateSet set prefixes).toOption.getD t

open List

variable {sha256} {t : RouteTable}

/-- The slice after a call: with rules missing, with a new rule, or with other destinations. -/
theorem routeRules_call (c : RouteCall) : (t.call sha256 c).routeRules.Sublist t.routeRules ∨
      (∃ rule : RouteRule, (rule.dstSet ≠ .zero → rule.destinations = []) ∧
        (t.call sha256 c).routeRules = (t.routeRules ++ [rule]).insertionSort RouteRule.le) ∨
      ∃ set prefixes first, c = .updateSet set prefixes ∧
        t.routeRules.find? (·.dstSet = set) = some first ∧
        (t.call sha256 c).routeRules = t.routeRules.map (.write set (merged first prefixes)) := by
  cases c with
  | add id sources destination proto sPort dPort action =>
    simp only [call, addRouteFiltering]
    split
    · exact .inl (.refl _)
    · refine .inr (.inl ⟨_, fun hset => ?_, rfl⟩)
      cases destination with
      | set s => rfl
      | range p => exact absurd rfl hset
  | delete ruleKey =>
    refine .inl ?_
    simp only [call, deleteRouteRule]
    split_ifs
    · exact .refl _
    · split
      · exact .refl _
      · exact eraseIdx_sublist ..
  | updateSet set prefixes =>
    simp only [call, updateSet]
    cases hfind : t.routeRules.find? (·.dstSet = set) with
    | none => exact .inl (.refl _)
    | some first => exact .inr (.inr ⟨set, prefixes, first, rfl, hfind, rfl⟩)

end RouteTable

open List

/-! ### The destinations of a set -/

/-- The prefixes that a call adds to a set. -/
def RouteCall.adds (S : DomainSet) : RouteCall → List Prefix
  | .updateSet s prefixes => if s = S then prefixes.filter is4 else []
  | _ => []

/-- The table, and the prefixes that were passed for a set since it has rules. -/
structure SetHistory where
  table : RouteTable
  passed : List Prefix

namespace SetHistory

variable (S : DomainSet)

def step (h : SetHistory) (c : RouteCall) : SetHistory where
  table := h.table.call sha256 c
  passed := if ∀ r ∈ (h.table.call sha256 c).routeRules, r.dstSet ≠ S then [] else
    h.passed ++ c.adds S

/-- After an update of the set its rules have the prefixes that were passed, each once. -/
def Exact (h : SetHistory) (c : RouteCall) : Prop :=
  ∀ prefixes, c = .updateSet S prefixes → ∀ r ∈ (h.step sha256 S c).table.routeRules,
    r.dstSet = S → r.destinations.Nodup ∧ ∀ p, p ∈ r.destinations ↔ p ∈ (h.step sha256 S c).passed

/-- The first rule of the set has all prefixes that were passed and are not passed again. -/
def FirstComplete (h : SetHistory) (c : RouteCall) : Prop :=
  ∀ prefixes, c = .updateSet S prefixes →
    ∀ first, h.table.routeRules.find? (·.dstSet = S) = some first →
      ∀ p ∈ h.passed, p ∈ first.destinations ∨ p ∈ c.adds S

/-- No rule of the set has a prefix that was not passed. -/
def Within (h : SetHistory) : Prop :=
  ∀ r ∈ h.table.routeRules, r.dstSet = S → ∀ p ∈ r.destinations, p ∈ h.passed

variable {S} {h : SetHistory} {sha256}

theorem passed_step {c : RouteCall} {r : RouteRule}
    (hr : r ∈ (h.table.call sha256 c).routeRules) (hset : r.dstSet = S) :
    (h.step sha256 S c).passed = h.passed ++ c.adds S :=
  if_neg fun hno => hno r hr hset

theorem mem_merged {first : RouteRule} {prefixes : List Prefix} {p : Prefix} :
    p ∈ merged first prefixes ↔
      p ∈ first.destinations ∨ p ∈ (RouteCall.updateSet S prefixes).adds S := by
  simp [merged, RouteCall.adds]

theorem Within.step (hS : S ≠ .zero) (hw : h.Within S) (c : RouteCall) :
    (h.step sha256 S c).Within S := by
  intro r hr hset p hp
  rw [passed_step hr hset, mem_append]
  change r ∈ (h.table.call sha256 c).routeRules at hr
  obtain hsub | ⟨rule, hnew, heq⟩ | ⟨s, prefixes, first, rfl, hfind, heq⟩ :=
    h.table.routeRules_call c
  · exact .inl (hw r (hsub.subset hr) hset p hp)
  · rw [heq, mem_insertionSort, mem_append, mem_singleton] at hr
    obtain hr | rfl := hr
    · exact .inl (hw r hr hset p hp)
    · rw [hnew (hset ▸ hS)] at hp
      nomatch hp
  · rw [heq] at hr
    obtain ⟨r', hr', rfl⟩ := mem_map.mp hr
    by_cases hs : r'.dstSet = s
    · rw [RouteRule.write, if_pos hs] at hp hset
      obtain rfl : s = S := hs.symm.trans hset
      have hfirst := hw first (mem_of_find?_eq_some hfind) (by simpa using find?_some hfind) p
      exact (mem_merged.mp hp).imp_left hfirst
    · rw [RouteRule.write, if_neg hs] at hp hset
      exact .inl (hw r' hr' hset p hp)

theorem exact_iff_complete (hw : h.Within S) (c : RouteCall) :
    h.Exact sha256 S c ↔ h.FirstComplete S c := by
  refine forall₂_congr fun prefixes hc => ?_
  subst hc
  cases hfind : h.table.routeRules.find? (·.dstSet = S) with
  | none =>
    refine iff_of_true (fun r hr hset => ?_) nofun
    simp only [SetHistory.step, RouteTable.call, RouteTable.updateSet, hfind] at hr
    simpa [hset] using find?_eq_none.mp hfind r hr
  | some first =>
    have hmem := mem_of_find?_eq_some hfind
    have hfirst : first.dstSet = S := by simpa using find?_some hfind
    have hrules : (h.step sha256 S (.updateSet S prefixes)).table.routeRules =
        h.table.routeRules.map (.write S (merged first prefixes)) := by
      simp only [SetHistory.step, RouteTable.call, RouteTable.updateSet, hfind]
      rfl
    have hwrite : first.write S (merged first prefixes) ∈
        (h.step sha256 S (.updateSet S prefixes)).table.routeRules :=
      hrules ▸ mem_map_of_mem hmem
    rw [RouteRule.write, if_pos hfirst] at hwrite
    have hpassed := passed_step hwrite hfirst
    constructor
    · rintro hexact _ ⟨⟩ p hp
      refine mem_merged.mp (((hexact _ hwrite hfirst).2 p).mpr ?_)
      rw [hpassed]
      exact mem_append_left _ hp
    · intro hcomplete r hr hset
      have hdest : r.destinations = merged first prefixes := by
        grind [RouteRule.write]
      refine hdest ▸ ⟨nodup_dedup _, fun p => ?_⟩
      rw [mem_merged, hpassed, mem_append]
      exact ⟨.imp_left (hw first hmem hfirst p), fun h => h.elim (hcomplete first rfl p) .inr⟩

variable (sha256 S) in
/-- **The destinations of a set only grow** in a history of calls exactly if at each update the
first rule of the set is complete. -/
theorem destinations_exact_iff (hS : S ≠ .zero) (calls : List RouteCall) :
    Runs.Along (step sha256 S) (Exact sha256 S) ⟨.empty, []⟩ calls ↔
      Runs.Along (step sha256 S) (FirstComplete S) ⟨.empty, []⟩ calls :=
  Runs.Along.congr (Within S) (fun _ c hw => exact_iff_complete hw c) (fun _ c hw _ => hw.step hS c)
    fun _ hr => nomatch hr

def sampleSet : DomainSet := ⟨[1], ""⟩

/-- A drop rule for a set is added between two updates, and sorts first. -/
def laterDrop : List RouteCall :=
  [.add [] [] (.set sampleSet) .all none none .accept, .updateSet sampleSet [⟨[10, 0, 0, 1], 32⟩],
    .add [] [] (.set sampleSet) .all none none .drop, .updateSet sampleSet [⟨[10, 0, 0, 2], 32⟩]]

theorem laterDrop_exact_iff :
    Runs.Along (step sampleDigest sampleSet) (Exact sampleDigest sampleSet) ⟨.empty, []⟩ laterDrop ↔
      Runs.Along (step sampleDigest sampleSet) (FirstComplete sampleSet) ⟨.empty, []⟩ laterDrop :=
  destinations_exact_iff _ _ (by decide) laterDrop

/-- The prefix of the first update is gone. -/
theorem earlier_prefix_lost :
    ¬ Runs.Along (step sampleDigest sampleSet) (Exact sampleDigest sampleSet) ⟨.empty, []⟩
      laterDrop := by
  rintro ⟨-, -, -, h, -⟩
  exact absurd (fun r hr hset => (h _ rfl r hr hset).2 ⟨[10, 0, 0, 1], 32⟩) (by decide +kernel)

end SetHistory

end Netbird.Firewall
