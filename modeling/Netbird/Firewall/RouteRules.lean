/-
The route rules of the userspace filter: `AddRouteFiltering` and `DeleteRouteRule`
(`uspfilter/filter.go`), and the keys that rules are stored under
(`client/internal/acl/id/id.go`, `client/firewall/manager`).

A rule is kept in a slice, drop rules first, and in a map by its key.  A rule whose key is
in the map is not added again, whatever else it says.  The key of a rule for a set of domains
has only a digest of the domain names written one after the other, so two sets can share it.

* `RouteTable.Sound.add`, `RouteTable.Sound.delete` — slice and map hold the same rules, one for
  each key.
-/
import Netbird.Firewall.Rules
import Netbird.Lib.Text

namespace Netbird.Firewall

/-! ### Texts -/

def Port.text (p : Port) : String :=
  let ports := ",".intercalate (p.values.map fun v => toString v.toNat)
  if p.isRange then "range:" ++ ports else ports

/-- The value of a `firewall.Protocol`. -/
def Protocol.text : Protocol → String
  | .tcp => "tcp"
  | .udp => "udp"
  | .icmp => "icmp"
  | .all => "all"
  | .other name => name

/-- The value of a `firewall.Action`. -/
def Action.value : Action → ℕ
  | .accept => 0
  | .drop => 1

def isValidPrefix (p : Prefix) : Bool :=
  (p.addr.length = 4 ∧ p.bits ≤ 32) ∨ (p.addr.length = 16 ∧ p.bits ≤ 128)

def DomainSet.hashedName (s : DomainSet) : String :=
  "nb-" ++ Text.hexEncode s.hash

/-- `firewall.Network`, a set or a range of addresses. -/
inductive Network where
  | set (set : DomainSet)
  | range (range : Prefix)

def Network.text : Network → String
  | .set s => if s = .zero then "<invalid network>" else s.hashedName
  | .range p => if isValidPrefix p then Addr.prefixText p.addr p.bits else "<invalid network>"

/-! ### Keys -/

/-- The order of `SortPrefixes`: by address, longer ranges first. -/
def prefixLE (p q : Prefix) : Prop :=
  p.addr.length < q.addr.length ∨ p.addr.length = q.addr.length ∧
    (addrNat p.addr < addrNat q.addr ∨ addrNat p.addr = addrNat q.addr ∧ q.bits ≤ p.bits)

instance : DecidableRel prefixLE := fun _ _ => inferInstanceAs (Decidable (_ ∨ _))

def sortPrefixes (l : List Prefix) : List Prefix := l.insertionSort prefixLE

variable (sha256 : Bytes → Vector UInt8 32)

/-- `GenerateRouteRuleKey`; the sources are sorted by the caller's slice. -/
def generateRouteRuleKey (sources : List Prefix) (destination : Network) (proto : Protocol)
    (sPort dPort : Option Port) (action : Action) : String :=
  let portText (port : Option Port) := port.elim "<nil>" Port.text
  let written :=
    "sources:" ++ String.join ((sortPrefixes sources).map fun src =>
      Addr.prefixText src.addr src.bits ++ ",") ++
    "destination:" ++ destination.text ++
    "proto:" ++ proto.text ++
    "sPort:" ++ portText sPort ++
    "dPort:" ++ portText dPort ++
    "action:" ++ toString action.value
  let hash := Text.hexEncode (sha256 (Checked.bytes written)).toList
  destination.text ++ "-" ++ String.ofList (hash.toList.take 16)

variable (toUnicode : String → Except String String)

/-- `NewDomainSet`; the domains are in lower case, and a domain that has no Unicode form is shown
as it is, with all others. -/
def newDomainSet (domains : List String) : DomainSet :=
  let sorted := domains.insertionSort (· ≤ ·)
  { hash := (sha256 (sorted.flatMap Checked.bytes)).toList.take 4
    comment := ", ".intercalate
      (match sorted.mapM toUnicode with
      | .ok list => list
      | .error _ => sorted) }

theorem comment_newDomainSet (domains : List String) : (newDomainSet sha256 .ok domains).comment =
      ", ".intercalate (domains.insertionSort (· ≤ ·)) := by
  have hmap : ∀ l : List String, l.mapM (.ok : String → Except String String) = .ok l :=
    fun l => (List.mapM_pure (f := id)).trans (congrArg _ l.map_id)
  rw [newDomainSet, hmap]

/-- **Sets of domains that read the same** when their sorted names are written one after the
other have the same text, and rules for them the same key. -/
theorem text_newDomainSet_eq (l l' : List String)
    (h : (l.insertionSort (· ≤ ·)).flatMap Checked.bytes = (l'.insertionSort (· ≤ ·)).flatMap Checked.bytes)
    (hl : (newDomainSet sha256 toUnicode l).comment ≠ "")
    (hl' : (newDomainSet sha256 toUnicode l').comment ≠ "") :
    (Network.set (newDomainSet sha256 toUnicode l)).text =
      (Network.set (newDomainSet sha256 toUnicode l')).text := by
  have hzero : ∀ s : DomainSet, s.comment ≠ "" → (Network.set s).text = s.hashedName :=
    fun s hs => if_neg fun h => hs (congrArg DomainSet.comment h)
  rw [hzero _ hl, hzero _ hl']
  simp only [DomainSet.hashedName, newDomainSet, h]

/-! ### The table of rules -/

/-- The route rules of a `Manager`. -/
structure RouteTable where
  routeRules : List RouteRule
  routeRulesMap : StringMap RouteRule

/-- The order of `RouteRules.Sort`: drop rules first, then by id. -/
def RouteRule.le (a b : RouteRule) : Prop :=
  if a.action = .drop ∧ b.action ≠ .drop then True
  else if a.action ≠ .drop ∧ b.action = .drop then False
  else a.id ≤ b.id

instance : DecidableRel RouteRule.le := fun a b => by
  unfold RouteRule.le
  infer_instance

def makeRouteRule (id : Bytes) (sources : List Prefix) (destination : Network) (proto : Protocol)
    (sPort dPort : Option Port) (action : Action) : RouteRule where
  id := generateRouteRuleKey sha256 sources destination proto sPort dPort action
  mgmtId := id
  sources := sortPrefixes sources
  dstSet := match destination with
    | .set s => s
    | .range _ => .zero
  destinations := match destination with
    | .set _ => []
    | .range p => if isValidPrefix p then [p] else []
  protoLayer := protoToLayer proto .ipv4
  srcPort := sPort
  dstPort := dPort
  action := action

namespace RouteTable

def empty : RouteTable := ⟨[], ∅⟩

/-- `addRouteFiltering`: the rule that is stored under the key, old or new. -/
def addRouteFiltering (t : RouteTable) (id : Bytes) (sources : List Prefix) (destination : Network)
    (proto : Protocol) (sPort dPort : Option Port) (action : Action) : RouteRule × RouteTable :=
  let rule := makeRouteRule sha256 id sources destination proto sPort dPort action
  match t.routeRulesMap.lookup rule.id with
  | some existingRule => (existingRule, t)
  | none =>
    (rule,
      { routeRules := (t.routeRules ++ [rule]).insertionSort RouteRule.le
        routeRulesMap := t.routeRulesMap.insert rule.id rule })

def deleteRouteRule (t : RouteTable) (ruleKey : String) : Except String RouteTable :=
  if (t.routeRulesMap.lookup ruleKey).isNone then .error ("route rule not found: " ++ ruleKey)
  else
    match t.routeRules.findIdx? (·.id = ruleKey) with
    | none => .error ("route rule not found in slice: " ++ ruleKey)
    | some idx =>
      .ok { routeRules := t.routeRules.eraseIdx idx, routeRulesMap := t.routeRulesMap.erase ruleKey }

/-- The slice and the map hold the same rules, one for each key. -/
structure Sound (t : RouteTable) : Prop where
  lookup : ∀ id r, t.routeRulesMap.lookup id = some r ↔ r ∈ t.routeRules ∧ r.id = id
  nodup : (t.routeRules.map (·.id)).Nodup

theorem Sound.empty : RouteTable.empty.Sound :=
  ⟨fun id r => by simp [RouteTable.empty], List.nodup_nil⟩

variable {t : RouteTable} {id : Bytes} {sources : List Prefix} {destination : Network}
  {proto : Protocol} {sPort dPort : Option Port} {action : Action}

variable (ht : t.Sound)

include ht

theorem Sound.lookup_eq_none {key : String} :
    t.routeRulesMap.lookup key = none ↔ ∀ r ∈ t.routeRules, r.id ≠ key := by
  simp only [Option.eq_none_iff_forall_ne_some, ne_eq, ht.lookup, not_and]

/-- **An addition** adds the rule unless there is one with its key. -/
theorem Sound.mem_add (r : RouteRule) :
    r ∈ (t.addRouteFiltering sha256 id sources destination proto sPort dPort action).2.routeRules ↔
      r ∈ t.routeRules ∨ r = makeRouteRule sha256 id sources destination proto sPort dPort action ∧
          ∀ r' ∈ t.routeRules, r'.id ≠ r.id := by
  unfold addRouteFiltering
  dsimp only
  generalize makeRouteRule sha256 id sources destination proto sPort dPort action = rule
  rcases hlookup : t.routeRulesMap.lookup rule.id with _ | old
  · have hnew := ht.lookup_eq_none.mp hlookup
    simp only [List.mem_insertionSort, List.mem_append, List.mem_singleton]
    refine or_congr_right ⟨?_, And.left⟩
    rintro rfl
    exact ⟨rfl, hnew⟩
  · obtain ⟨hold, hid⟩ := (ht.lookup _ _).mp hlookup
    refine ⟨.inl, ?_⟩
    rintro (h | ⟨rfl, hnew⟩)
    · exact h
    · exact absurd hid (hnew old hold)

theorem Sound.add_id :
    let added := t.addRouteFiltering sha256 id sources destination proto sPort dPort action
    added.1 ∈ added.2.routeRules ∧
      added.1.id = generateRouteRuleKey sha256 sources destination proto sPort dPort action := by
  unfold addRouteFiltering
  dsimp only
  cases hlookup : t.routeRulesMap.lookup
      (makeRouteRule sha256 id sources destination proto sPort dPort action).id with
  | some old => exact (ht.lookup _ _).mp hlookup
  | none => exact ⟨by simp, rfl⟩

theorem Sound.add :
    (t.addRouteFiltering sha256 id sources destination proto sPort dPort action).2.Sound := by
  unfold addRouteFiltering
  dsimp only
  generalize makeRouteRule sha256 id sources destination proto sPort dPort action = rule
  rcases hlookup : t.routeRulesMap.lookup rule.id with _ | old
  · have hnew := ht.lookup_eq_none.mp hlookup
    have hperm := List.perm_insertionSort RouteRule.le (t.routeRules ++ [rule])
    refine ⟨fun id' r => ?_, ?_⟩
    · simp only [List.mem_insertionSort, List.mem_append, List.mem_singleton,
        Keyed.lookup_insert_ite]
      split_ifs with hid
      · rw [Option.some_inj]
        constructor
        · rintro rfl
          exact ⟨.inr rfl, hid.symm⟩
        · rintro ⟨h | rfl, hr⟩
          · exact absurd (hr.trans hid) (hnew r h)
          · rfl
      · rw [ht.lookup]
        refine ⟨fun h => ⟨.inl h.1, h.2⟩, ?_⟩
        rintro ⟨h | rfl, hr⟩
        · exact ⟨h, hr⟩
        · exact absurd hr.symm hid
    · refine ((hperm.map _).nodup_iff).mpr ?_
      rw [List.map_append]
      exact ht.nodup.append (List.nodup_singleton _) (List.disjoint_singleton.mpr (by simpa using hnew))
  · exact ht

/-- **A deletion** removes the rule with the key, if there is one. -/
theorem Sound.delete {ruleKey : String} (h : ∃ r ∈ t.routeRules, r.id = ruleKey) :
    ∃ t', t.deleteRouteRule ruleKey = .ok t' ∧ t'.Sound ∧
      ∀ r, r ∈ t'.routeRules ↔ r ∈ t.routeRules ∧ r.id ≠ ruleKey := by
  obtain ⟨r, hr, hid⟩ := h
  have hlookup := (ht.lookup ruleKey r).mpr ⟨hr, hid⟩
  obtain ⟨idx, hidx⟩ : ∃ idx, t.routeRules.findIdx? (·.id = ruleKey) = some idx := by
    rw [← Option.isSome_iff_exists, List.findIdx?_isSome, List.any_eq_true]
    exact ⟨r, hr, decide_eq_true hid⟩
  have hmem : ∀ x, x ∈ t.routeRules.eraseIdx idx ↔ x ∈ t.routeRules ∧ x.id ≠ ruleKey := by
    have herase := Keyed.eraseP_eq_filter ht.nodup ruleKey
    simp only [List.eraseP_eq_eraseIdx, hidx] at herase
    simp [herase]
  refine ⟨⟨t.routeRules.eraseIdx idx, t.routeRulesMap.erase ruleKey⟩, ?_, ⟨?_, ?_⟩, hmem⟩
  · rw [deleteRouteRule, hlookup, if_neg (by simp), hidx]
  · intro id' x
    rw [hmem, Keyed.lookup_erase_ite]
    split_ifs with hid'
    · exact ⟨fun h => (nomatch h), fun h => absurd (h.2.trans hid') h.1.2⟩
    · rw [ht.lookup]
      exact ⟨fun h => ⟨⟨h.1, h.2 ▸ hid'⟩, h.2⟩, fun h => ⟨h.1.1, h.2⟩⟩
  · exact ht.nodup.sublist ((List.eraseIdx_sublist ..).map _)

theorem Sound.delete_absent {ruleKey : String}
    (h : ¬ ∃ r ∈ t.routeRules, r.id = ruleKey) : ∃ e, t.deleteRouteRule ruleKey = .error e := by
  rw [deleteRouteRule, ht.lookup_eq_none.mpr fun r hr hid => h ⟨r, hr, hid⟩]
  exact ⟨_, if_pos rfl⟩

end RouteTable

end Netbird.Firewall
