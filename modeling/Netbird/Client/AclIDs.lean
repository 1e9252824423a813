/-
What the firewall rules of a map ask for, and the ids that the ACL manager gives them.

The id of a rule is a text of its parameters, written one after the other without separators.
It can be read back: the text of an address has only hexadecimal digits, dots and colons, so
the name of the protocol can be found behind it, although the name `all` begins with a digit.

* `getPeerRuleID_injective` — rules with one id ask for the same thing.
-/
import Netbird.Client.Acl

namespace Netbird.Acl

open Firewall PeerRules Addr List

/-! ### What a rule asks for -/

/-- The filter gets a rule for it: rules for incoming traffic, and with a stateless filter those
for answers that have a port. -/
def PeerSpec.wanted (stateful : Bool) (s : PeerSpec) : Bool :=
  match s.direction with
  | .IN => true
  | .OUT => ! stateful && ! shouldSkipInvertedRule s.protocol s.port
  | .other _ _ => false

/-- The rule of the filter says what was asked for; its id and the id of its policy are left
open. -/
def PeerSpec.Makes (s : PeerSpec) (r : PeerRule) : Prop :=
  ∃ uuid id, r = makeRule uuid id s.ip s.protocol
    (if s.direction = .OUT then s.port else none) (if s.direction = .OUT then none else s.port)
    s.action

/-- What holds of everything that a rule was converted to. -/
structure PeerSpec.Valid (s : PeerSpec) : Prop where
  length_ip : s.ip.length = 16
  protocol : ∀ name, s.protocol ≠ .other name
  port : ∀ p ∈ s.port, p.values ≠ []

theorem convertPortInfo_values {info : Option PortInfo} {p : Port}
    (h : convertPortInfo info = some p) : p.values ≠ [] := by
  unfold convertPortInfo at h
  rcases info with _ | info
  · nomatch h
  · dsimp only at h
    split_ifs at h
    · rw [← Option.some.inj h]
      simp [singlePort]
    · rcases hrange : info.getRange with _ | bounds
      · simp [hrange] at h
      · simp only [hrange, Option.some.injEq] at h
        rw [← h]
        simp

variable {lib : Library}

theorem convertPort_values {r : FirewallRule} {port : Option Port}
    (h : r.convertPort lib = .ok port) : ∀ p ∈ port, p.values ≠ [] := by
  intro p hp
  unfold FirewallRule.convertPort at h
  split_ifs at h
  · exact convertPortInfo_values ((Except.ok.inj h).trans hp)
  · rcases hvalue : lib.atoi r.port with e | value
    · simp [hvalue] at h
    · simp only [hvalue] at h
      split_ifs at h
      rw [← Except.ok.inj h, Option.mem_some_iff] at hp
      rw [← hp]
      simp [singlePort]
  · rw [← Except.ok.inj h] at hp
    nomatch hp

variable {s : PeerSpec}

theorem convert_valid {r : FirewallRule} (h : r.convert lib = .ok s) : s.Valid := by
  unfold FirewallRule.convert at h
  rcases hip : lib.parseIP r.peerIP with _ | ip
  · simp [hip] at h
  · rcases hproto : convertToFirewallProtocol r.protocol with e | protocol
    · simp [hip, hproto] at h
    · rcases haction : convertFirewallAction r.action with e | action
      · simp [hip, hproto, haction] at h
      · rcases hport : r.convertPort lib with e | port
        · simp [hip, hproto, haction, hport] at h
        · simp only [hip, hproto, haction, hport, Except.ok.injEq] at h
          subst h
          refine ⟨lib.length_parseIP _ _ hip, ?_, convertPort_values hport⟩
          rintro name rfl
          cases hr : r.protocol <;> simp [hr, convertToFirewallProtocol] at hproto

/-! ### Reading an id back -/

theorem join_values_injective {l l' : List UInt16} (hl : l ≠ []) (hl' : l' ≠ [])
    (h : ",".intercalate (l.map fun v => toString v.toNat) =
      ",".intercalate (l'.map fun v => toString v.toNat)) : l = l' := by
  have hfields : ∀ l : List UInt16, l ≠ [] →
      (",".intercalate (l.map fun v => toString v.toNat)).toList.splitOn ',' =
        l.map fun v => (toString v.toNat).toList :=
    fun l => splitOn_fields rfl fun _ hcomma => absurd (mem_repr hcomma) (by decide)
  have hparts := hfields l hl
  rw [h, hfields l' hl'] at hparts
  refine map_injective_iff.mpr ?_ hparts.symm
  intro v w hvw
  exact UInt16.toNat_inj.mp (toString_injective hvw)

theorem portText_injective {p q : Port} (hp : p.values ≠ []) (hq : q.values ≠ [])
    (h : p.text = q.text) : p = q := by
  -- a range begins with a letter that no list of numbers has
  have hrange : ∀ (l l' : List UInt16), "range:" ++ ",".intercalate (l.map fun v => toString v.toNat) ≠
      ",".intercalate (l'.map fun v => toString v.toNat) := by
    intro l l' heq
    have hr : 'r' ∈ (",".intercalate (l'.map fun v => toString v.toNat)).toList := by
      rw [← heq, String.toList_append]
      exact mem_append_left _ (by decide)
    rcases (mem_of_mem_join rfl hr).imp_right fun ⟨_, h⟩ => mem_repr h with hr | hr <;>
      revert hr <;> decide
  obtain ⟨range, values, bounds⟩ := p
  obtain ⟨range', values', bounds'⟩ := q
  simp only [Port.text] at h hp hq
  cases range <;> cases range' <;> simp only [if_true, Bool.false_eq_true, if_false] at h
  · obtain rfl := join_values_injective hp hq h
    rfl
  · exact absurd h.symm (hrange _ _)
  · exact absurd h (hrange _ _)
  · obtain rfl := join_values_injective hp hq (String.append_right_inj _ |>.mp h)
    rfl

theorem portText_ne_empty {p : Port} (hp : p.values ≠ []) : p.text ≠ "" := by
  obtain ⟨range, values, bounds⟩ := p
  cases range with
  | true => simp [Port.text]
  | false =>
    simp only [Port.text, Bool.false_eq_true, if_false]
    rcases values with _ | ⟨v, values⟩
    · exact absurd rfl hp
    · rcases values with _ | ⟨w, values⟩
      · simp [Nat.repr_ne_empty]
      · exact intercalate_ne_empty (by decide)

/-- The part of a protocol's name that could belong to an address. -/
def lead : Protocol → List Char
  | .all => ['a']
  | _ => []

/-- The rest of the name. -/
def mark : Protocol → List Char
  | .all => ['l', 'l']
  | protocol => protocol.text.toList

theorem lead_append_mark (protocol : Protocol) : lead protocol ++ mark protocol = protocol.text.toList := by
  cases protocol <;> rfl

theorem mem_chars_of_mem_lead {protocol : Protocol} {c : Char} (h : c ∈ lead protocol) :
    c ∈ chars := by
  cases protocol <;> simp only [lead, not_mem_nil, mem_singleton] at h
  rw [h]
  decide

/-- What is behind the name of the protocol. -/
def PeerSpec.tail (s : PeerSpec) : List Char :=
  (toString s.direction.value).toList ++ (toString s.action.value).toList ++
    (s.port.elim "" Port.text).toList

theorem tail_eq (hs : s.direction = .IN ∨ s.direction = .OUT) :
    s.tail = (if s.direction = .IN then '0' else '1') :: (if s.action = .accept then '0' else '1') ::
      (s.port.elim "" Port.text).toList := by
  rw [PeerSpec.tail]
  rcases hs with hdir | hdir <;> cases haction : s.action <;> rw [hdir] <;> rfl

theorem toList_idStr (s : PeerSpec) :
    s.idStr.toList = (ipText s.ip).toList ++ lead s.protocol ++ (mark s.protocol ++ s.tail) := by
  rw [PeerSpec.idStr, PeerSpec.tail, ← append_assoc, append_assoc _ (lead _),
    lead_append_mark]
  simp only [String.toList_append, append_assoc]

/-- The name of the protocol can be found: its mark begins with a character that addresses do not
have. -/
theorem takeWhile_idStr (hs : s.Valid) :
    s.idStr.toList.takeWhile (· ∈ chars) = (ipText s.ip).toList ++ lead s.protocol := by
  have hall : ∀ c ∈ (ipText s.ip).toList ++ lead s.protocol, decide (c ∈ chars) = true :=
    forall_mem_append.mpr
      ⟨fun c hc => decide_eq_true (mem_chars_of_mem_ipText hs.length_ip hc),
        fun c hc => decide_eq_true (mem_chars_of_mem_lead hc)⟩
  have hmark : (mark s.protocol ++ s.tail).takeWhile (· ∈ chars) = [] := by
    cases hproto : s.protocol with
    | other name => exact absurd hproto (hs.protocol name)
    | tcp | udp | icmp | all => rfl
  rw [toList_idStr, takeWhile_append_of_pos hall, hmark, append_nil]

theorem mark_injective {p q : Protocol} {x y : List Char} (hp : ∀ name, p ≠ .other name)
    (hq : ∀ name, q ≠ .other name) (h : mark p ++ x = mark q ++ y) : p = q ∧ x = y := by
  cases p with
  | other name => exact absurd rfl (hp name)
  | tcp | udp | icmp | all =>
    cases q with
    | other name => exact absurd rfl (hq name)
    | tcp | udp | icmp | all => simp_all [mark, Protocol.text]

/-- **Rules with one id ask for the same thing.** -/
theorem getPeerRuleID_injective {t : PeerSpec} (hs : s.Valid) (ht : t.Valid)
    (hsdir : s.direction = .IN ∨ s.direction = .OUT) (htdir : t.direction = .IN ∨ t.direction = .OUT)
    (h : s.getPeerRuleID = t.getPeerRuleID) : s = t := by
  have hid : s.idStr = t.idStr :=
    Checked.bytes_injective (append_cancel_right (Text.hexEncode_injective h))
  have hip : (ipText s.ip).toList ++ lead s.protocol = (ipText t.ip).toList ++ lead t.protocol := by
    rw [← takeWhile_idStr hs, hid, takeWhile_idStr ht]
  have hrest : mark s.protocol ++ s.tail = mark t.protocol ++ t.tail := by
    have hlist := congrArg String.toList hid
    rw [toList_idStr, toList_idStr, hip] at hlist
    exact append_cancel_left hlist
  obtain ⟨hproto, htail⟩ := mark_injective hs.protocol ht.protocol hrest
  have haddr : s.ip = t.ip := by
    rw [hproto] at hip
    exact ipText_injective hs.length_ip ht.length_ip
      (String.toList_inj.mp (append_cancel_right hip))
  -- direction and action have one digit each
  have hfields : s.direction = t.direction ∧ s.action = t.action ∧
      s.port.elim "" Port.text = t.port.elim "" Port.text := by
    rw [tail_eq hsdir, tail_eq htdir] at htail
    obtain ⟨hdigit, hdigit', htext⟩ : _ ∧ _ ∧ _ := by simpa only [cons.injEq] using htail
    refine ⟨?_, ?_, String.toList_inj.mp htext⟩
    · rcases hsdir with hsdir | hsdir <;> rcases htdir with htdir | htdir <;>
        simp [hsdir, htdir] at hdigit ⊢
    · cases hsact : s.action <;> cases htact : t.action <;> simp [hsact, htact] at hdigit' ⊢
  obtain ⟨hdir, haction, hport⟩ := hfields
  have hports : s.port = t.port := by
    rcases hsport : s.port with _ | p <;> rcases htport : t.port with _ | q <;>
      rw [hsport, htport] at hport
    · exact absurd hport.symm (portText_ne_empty (ht.port q htport))
    · exact absurd hport (portText_ne_empty (hs.port p hsport))
    · rw [portText_injective (hs.port p hsport) (ht.port q htport) hport]
  obtain ⟨⟩ := s
  simp_all

theorem PeerSpec.direction_of_wanted {stateful : Bool}
    (h : s.wanted stateful = true) : s.direction = .IN ∨ s.direction = .OUT := by
  cases hdir : s.direction with
  | IN => exact .inl rfl
  | OUT => exact .inr rfl
  | other n hn => simp [wanted, hdir] at h

/-! ### Reading a rule of the filter back -/

theorem protoToLayer_injective {p q : Protocol} {layer : LayerType} (hp : ∀ name, p ≠ .other name)
    (hq : ∀ name, q ≠ .other name) (h : protoToLayer p layer = protoToLayer q layer) : p = q := by
  cases p with
  | other name => exact absurd rfl (hp name)
  | tcp | udp | icmp | all =>
    cases q with
    | other name => exact absurd rfl (hq name)
    | tcp | udp | icmp | all =>
      by_cases hlayer : layer = .ipv6 <;> simp_all [protoToLayer]

/-- For incoming traffic, or for answers from a port. -/
def PeerSpec.Directed (s : PeerSpec) : Prop :=
  s.direction = .IN ∨ s.direction = .OUT ∧ s.port.isSome

theorem PeerSpec.directed_of_wanted {stateful : Bool}
    (h : s.wanted stateful = true) : s.Directed := by
  rcases direction_of_wanted h with hdir | hdir
  · exact .inl hdir
  · simp only [wanted, hdir, shouldSkipInvertedRule, Bool.and_eq_true, Bool.not_eq_true',
      decide_eq_false_iff_not, not_or] at h
    exact .inr ⟨hdir, Option.isSome_iff_ne_none.mpr h.2.2.2⟩

/-- **Rules that make the same rule in the filter ask for the same thing.** -/
theorem PeerSpec.Makes.injective {t : PeerSpec} (hs : s.Valid) (ht : t.Valid) (hsdir : s.Directed)
    (htdir : t.Directed) {r : PeerRule} (h : s.Makes r) (h' : t.Makes r) : s = t := by
  obtain ⟨uuid, id, rfl⟩ := h
  obtain ⟨uuid', id', heq⟩ := h'
  simp only [makeRule, PeerRule.mk.injEq] at heq
  obtain ⟨-, -, hip, -, -, hproto, hsPort, hdPort, hdrop⟩ := heq
  have haddr := unmap_injective hs.length_ip ht.length_ip hip
  rw [haddr] at hproto
  have hprotocol := protoToLayer_injective hs.protocol ht.protocol hproto
  have haction : s.action = t.action := by
    cases hsact : s.action <;> cases htact : t.action <;> simp [hsact, htact] at hdrop ⊢
  -- the port is the source port for one direction, the destination port for the other
  have hport : s.direction = t.direction ∧ s.port = t.port := by
    rcases hsdir with hsdir | ⟨hsdir, hsome⟩ <;> rcases htdir with htdir | ⟨htdir, htsome⟩ <;>
      simp only [hsdir, htdir, reduceCtorEq, if_true, if_false] at hsPort hdPort ⊢
    · exact ⟨trivial, hdPort⟩
    · rw [← hsPort] at htsome
      cases htsome
    · rw [hsPort] at hsome
      cases hsome
    · exact ⟨trivial, hsPort⟩
  obtain ⟨⟩ := s
  simp_all

end Netbird.Acl
