/-
The references that a handler with domains holds on system routes.

An answer is compared with the addresses that are recorded for its domain.  One reference is
taken for each address of the answer that is not recorded, as often as the answer lists it,
and one is given back for each recorded address that the answer does not list, however often
it is recorded.  The interceptor records the answer as it is, the dynamic handler each address
once.
-/
import Netbird.Client.RouteHandler
import Netbird.Lib.Runs

namespace Netbird.Client

open Runs List Keyed

namespace Handler

/-- The calls on a handler with domains. -/
inductive Op where
  /-- `updateDomainPrefixes` of the interceptor. -/
  | answer (resolvedDomain : String) (newPrefixes : List Prefix)
  /-- `updateDynamicRoutes` of the dynamic handler. -/
  | resolve (newDomains : DomainMap)
  | addAllowedIPs (peerKey : String)
  | removeAllowedIPs
  | removeRoute

variable (h : Handler)

def perform : Op → Handler
  | .answer domain newPrefixes =>
    if h.type = .dnsInterceptor then h.updateDomainPrefixes domain newPrefixes else h
  | .resolve newDomains => if h.type = .dynamic then h.updateDynamicRoutes newDomains else h
  | .addAllowedIPs peerKey => h.addAllowedIPs peerKey
  | .removeAllowedIPs => h.removeAllowedIPs
  | .removeRoute => h.removeRoute

/-- As many references on an address as records of it. -/
def Balanced : Prop := ∀ p, h.routeRefs.count p = h.prefixes.count p

/-- The call leaves as many references as records, and none after `RemoveRoute`. -/
def KeepsBalance (op : Op) : Prop :=
  (h.perform op).Balanced ∧ (op = .removeRoute → (h.perform op).routeRefs = 0)

/-- The addresses recorded for the domain. -/
def recorded (domain : String) : List Prefix := (h.domains.lookup domain).getD []

/-- The addresses that an answer adds, and those it removes. -/
def added (domain : String) (newPrefixes : List Prefix) : List Prefix :=
  (determinePrefixChanges (h.recorded domain) newPrefixes).1

def removed (domain : String) (newPrefixes : List Prefix) : List Prefix :=
  if h.route.keepRoute then [] else (determinePrefixChanges (h.recorded domain) newPrefixes).2

/-- An answer to the interceptor removes nothing by `KeepRoute`, or lists the recorded addresses
and no others, or lists every recorded address that it lists as often as it is recorded, with
the other ones recorded once.  No new address is repeated in an answer to the dynamic handler. -/
def Plain : Op → Prop
  | .answer domain newPrefixes => h.type = .dnsInterceptor → h.route.keepRoute = true ∨
      (∀ p, p ∈ h.recorded domain ↔ p ∈ newPrefixes) ∨
      ∀ p ∈ h.recorded domain, (h.recorded domain).count p = max 1 (newPrefixes.count p)
  | .resolve newDomains => h.type = .dynamic → h.started = true →
      ∀ e ∈ newDomains.entries, (h.added e.1 e.2).Nodup
  | _ => True

variable {h} {p : Prefix} {domain : String} {newPrefixes : List Prefix}

/-! ### Counting -/

theorem count_prefixes : h.prefixes.count p = Keyed.total (count p) h.domains :=
  count_flatMap ..

theorem count_prefixes_erase (domain : String) : h.prefixes.count p =
    (h.recorded domain).count p + Keyed.total (count p) (h.domains.erase domain) := by
  rw [count_prefixes, total_erase (count p) h.domains domain, recorded]
  cases h.domains.lookup domain <;> rfl

theorem mem_added : p ∈ h.added domain newPrefixes ↔ p ∈ newPrefixes ∧ p ∉ h.recorded domain := by
  simp [added, determinePrefixChanges]

theorem mem_removed : p ∈ h.removed domain newPrefixes ↔
    h.route.keepRoute = false ∧ p ∈ h.recorded domain ∧ p ∉ newPrefixes := by
  cases hkeep : h.route.keepRoute <;> simp [removed, hkeep, determinePrefixChanges]

theorem count_added : (h.added domain newPrefixes).count p =
    if p ∈ h.recorded domain then 0 else newPrefixes.count p := by
  split_ifs with hp
  · exact count_eq_zero.mpr fun h => (mem_added.mp h).2 hp
  · exact count_filter (by simpa using hp)

theorem nodup_removed : (h.removed domain newPrefixes).Nodup := by
  rw [removed]
  split
  · exact nodup_nil
  · exact (nodup_dedup _).filter _

theorem count_removed : (h.removed domain newPrefixes).count p =
    if h.route.keepRoute = false ∧ p ∈ h.recorded domain ∧ p ∉ newPrefixes then 1 else 0 := by
  split_ifs with hp
  · exact count_eq_one_of_mem nodup_removed (mem_removed.mpr hp)
  · exact count_eq_zero.mpr (mt mem_removed.mp hp)

/-! ### The interceptor -/

theorem answer_of_same (hsame : ∀ p, p ∈ h.recorded domain ↔ p ∈ newPrefixes) :
    h.updateDomainPrefixes domain newPrefixes = h := by
  have hadd : (determinePrefixChanges (h.recorded domain) newPrefixes).1 = [] :=
    filter_eq_nil_iff.mpr fun p hp => by simpa using (hsame p).mpr hp
  have hrem : (determinePrefixChanges (h.recorded domain) newPrefixes).2 = [] :=
    filter_eq_nil_iff.mpr fun p hp => by simpa using (hsame p).mp (mem_dedup.mp hp)
  rw [recorded] at hadd hrem
  simp [updateDomainPrefixes, changeRefs, hadd, hrem]

theorem answer_of_not_same (hsame : ¬ ∀ p, p ∈ h.recorded domain ↔ p ∈ newPrefixes) :
    h.updateDomainPrefixes domain newPrefixes =
      { h.changeRefs (h.added domain newPrefixes) (h.removed domain newPrefixes) with
        domains := h.domains.insert domain (if h.route.keepRoute then
          h.recorded domain ++ h.added domain newPrefixes else newPrefixes) } := by
  refine if_pos (not_not.mp fun hnot => hsame fun p => ?_)
  rw [not_or, length_pos_iff, length_pos_iff, not_not, not_not, filter_eq_nil_iff,
    filter_eq_nil_iff] at hnot
  rw [recorded]
  exact ⟨fun hp => by simpa using hnot.2 p (mem_dedup.mpr hp), fun hp => by simpa using hnot.1 p hp⟩

theorem balanced_answer_iff (hb : h.Balanced) :
    (h.updateDomainPrefixes domain newPrefixes).Balanced ↔ h.route.keepRoute = true ∨
      (∀ p, p ∈ h.recorded domain ↔ p ∈ newPrefixes) ∨
      ∀ p ∈ h.recorded domain, (h.recorded domain).count p = max 1 (newPrefixes.count p) := by
  by_cases hsame : ∀ p, p ∈ h.recorded domain ↔ p ∈ newPrefixes
  · rw [answer_of_same hsame]
    exact iff_of_true hb (.inr (.inl hsame))
  rw [answer_of_not_same hsame, or_iff_right hsame]
  simp only [Balanced, count_prefixes, changeRefs, total_insert, Multiset.count_sub,
    Multiset.count_add, Multiset.coe_count, (hb _).trans (count_prefixes_erase domain),
    count_removed]
  cases h.route.keepRoute with
  | true => exact iff_of_true (fun p => by simp; omega) (.inl rfl)
  | false =>
    simp only [Bool.false_eq_true, if_false, false_or, true_and, count_added]
    refine forall_congr' fun p => ?_
    by_cases hp : p ∈ h.recorded domain
    · have hpos := count_pos_iff.mpr hp
      by_cases hnew : p ∈ newPrefixes
      · have hpos' := count_pos_iff.mpr hnew
        simp only [hp, hnew, not_true_eq_false, and_false, if_true, if_false, forall_const]
        omega
      · simp only [hp, hnew, count_eq_zero.mpr hnew, not_false_eq_true, and_self, if_true,
          forall_const]
        omega
    · simp [hp, count_eq_zero.mpr hp, Nat.add_comm]

/-! ### The dynamic handler -/

/-- The dynamic handler records an address once for a domain. -/
def RecordsOnce (h : Handler) : Prop := ∀ domain, (h.recorded domain).Nodup

theorem updateDomain_eq : h.updateDomain domain newPrefixes =
    { h.changeRefs (h.added domain newPrefixes) (h.removed domain newPrefixes) with
      domains := h.domains.insert domain (combinePrefixes (h.recorded domain)
        (h.removed domain newPrefixes) (h.added domain newPrefixes)) } := rfl

theorem recorded_updateDomain (d : String) : (h.updateDomain domain newPrefixes).recorded d =
    if d = domain then combinePrefixes (h.recorded domain) (h.removed domain newPrefixes)
      (h.added domain newPrefixes) else h.recorded d := by
  rw [recorded, updateDomain_eq, lookup_insert_ite]
  split_ifs <;> rfl

/-- A new address that the answer repeats is recorded once only. -/
theorem count_updateDomain (hn : h.RecordsOnce) {x : Prefix → ℕ}
    (hx : ∀ p, h.routeRefs.count p = h.prefixes.count p + x p) (p : Prefix) :
    (h.updateDomain domain newPrefixes).routeRefs.count p =
      (h.updateDomain domain newPrefixes).prefixes.count p +
        (x p + ((h.added domain newPrefixes).count p - 1)) := by
  simp only [count_prefixes, updateDomain_eq, changeRefs, total_insert, Multiset.count_sub,
    Multiset.count_add, Multiset.coe_count, (hx p).trans (congrArg (· + x p)
    (count_prefixes_erase domain)), combinePrefixes, count_dedup, mem_append,
    mem_filter, mem_added, mem_removed, count_removed, decide_eq_true_eq]
  rw [count_added]
  by_cases hp : p ∈ h.recorded domain
  · have hone := count_eq_one_of_mem (hn domain) hp
    cases h.route.keepRoute with
    | true => simp [hp, hone, Nat.add_right_comm]
    | false =>
      by_cases hnew : p ∈ newPrefixes
      · simp [hp, hnew, hone, Nat.add_right_comm]
      · simp [hp, hnew, hone]
        omega
  · have hzero := count_eq_zero.mpr hp
    by_cases hnew : p ∈ newPrefixes
    · have hpos := count_pos_iff.mpr hnew
      simp [hp, hnew, hzero]
      omega
    · simp [hp, hnew, hzero, count_eq_zero.mpr hnew]

theorem RecordsOnce.updateDomain (hn : h.RecordsOnce) (domain : String) (newPrefixes : List Prefix) :
    (h.updateDomain domain newPrefixes).RecordsOnce := by
  intro d
  rw [recorded_updateDomain]
  split_ifs
  · exact nodup_dedup _
  · exact hn d

/-- A loop over answers for different domains, from a state with some references too many. -/
theorem balanced_foldl_iff {es : List (Sigma fun _ : String => List Prefix)} (hes : es.NodupKeys)
    (hn : h.RecordsOnce) {x : Prefix → ℕ}
    (hx : ∀ p, h.routeRefs.count p = h.prefixes.count p + x p) :
    (es.foldl (fun h e => h.updateDomain e.1 e.2) h).Balanced ↔
      (∀ p, x p = 0) ∧ ∀ e ∈ es, (h.added e.1 e.2).Nodup := by
  induction es generalizing h x with
  | nil => simp [Balanced, hx]
  | cons e es ih =>
    obtain ⟨hnot, hes⟩ := nodupKeys_cons.mp hes
    have hrest : ∀ e' ∈ es, (h.updateDomain e.1 e.2).added e'.1 e'.2 = h.added e'.1 e'.2 := by
      intro e' he'
      have hne : e'.1 ≠ e.1 := fun heq => hnot (heq ▸ mem_keys_of_mem he')
      rw [added, recorded_updateDomain, if_neg hne]
      rfl
    rw [foldl_cons, ih hes (hn.updateDomain e.1 e.2) (count_updateDomain hn hx),
      forall_mem_cons, nodup_iff_count_le_one, ← and_assoc, ← forall_and]
    refine and_congr (forall_congr' fun p => by omega) (forall₂_congr fun e' he' => ?_)
    rw [hrest e' he']

/-! ### Runs -/

/-- What holds while references and records agree. -/
structure Sound (h : Handler) : Prop where
  hasDomains : h.type ≠ .static
  balanced : h.Balanced
  once : h.type = .dynamic → h.RecordsOnce

theorem removeRoute_eq (ht : h.type ≠ .static) :
    h.removeRoute.domains = ∅ ∧ h.removeRoute.routeRefs = h.routeRefs - h.prefixes := by
  rw [removeRoute]
  split
  · next hs => exact absurd hs ht
  · exact ⟨rfl, rfl⟩
  · exact ⟨rfl, rfl⟩

theorem SameRoutes.sound {h' : Handler} (hs : h.Sound) (hsame : h.SameRoutes h') : h'.Sound where
  hasDomains := by rw [hsame.type]; exact hs.hasDomains
  balanced p := by rw [hsame.routeRefs, hsame.prefixes]; exact hs.balanced p
  once ht domain := by rw [recorded, hsame.domains]; exact hs.once (hsame.type ▸ ht) domain

theorem Sound.removeRoute (hs : h.Sound) : h.removeRoute.Sound ∧ h.removeRoute.routeRefs = 0 := by
  obtain ⟨hd, hrefs⟩ := removeRoute_eq hs.hasDomains
  have hzero : h.removeRoute.routeRefs = 0 := by
    rw [hrefs, tsub_eq_zero_iff_le, Multiset.le_iff_count]
    exact fun p => (hs.balanced p).trans_le (Multiset.coe_count ..).ge
  refine ⟨⟨by rw [removeRoute_type]; exact hs.hasDomains, fun p => ?_, fun _ domain => ?_⟩, hzero⟩
  · rw [hzero, count_prefixes, hd]
    rfl
  · rw [recorded, hd]
    exact nodup_nil

theorem keepsBalance_iff (hs : h.Sound) (op : Op) : h.KeepsBalance op ↔ h.Plain op := by
  cases op with
  | answer domain newPrefixes =>
    simp only [KeepsBalance, perform, Plain, reduceCtorEq, false_imp_iff, and_true]
    split_ifs with ht
    · simpa [ht] using balanced_answer_iff hs.balanced
    · simpa [ht] using hs.balanced
  | resolve newDomains =>
    simp only [KeepsBalance, perform, Plain, reduceCtorEq, false_imp_iff, and_true]
    split_ifs with ht
    · rw [updateDynamicRoutes]
      cases hstarted : h.started
      · simpa using hs.balanced
      · refine (balanced_foldl_iff newDomains.nodupKeys (hs.once ht) (x := fun _ => 0)
          hs.balanced).trans ?_
        simp [ht]
    · simpa [ht] using hs.balanced
  | addAllowedIPs peerKey => exact iff_of_true ⟨(sameRoutes_add.sound hs).balanced, nofun⟩ trivial
  | removeAllowedIPs => exact iff_of_true ⟨(sameRoutes_remove.sound hs).balanced, nofun⟩ trivial
  | removeRoute =>
    exact iff_of_true ⟨hs.removeRoute.1.balanced, fun _ => hs.removeRoute.2⟩ trivial

theorem updateDomainPrefixes_type : (h.updateDomainPrefixes domain newPrefixes).type = h.type := by
  simp only [updateDomainPrefixes]
  split <;> rfl

theorem RecordsOnce.updateDynamicRoutes (hn : h.RecordsOnce) (newDomains : DomainMap) :
    (h.updateDynamicRoutes newDomains).type = h.type ∧
      (h.updateDynamicRoutes newDomains).RecordsOnce := by
  rw [Handler.updateDynamicRoutes]
  split_ifs
  · exact ⟨rfl, hn⟩
  · exact foldlRecOn (motive := fun h' : Handler => h'.type = h.type ∧ h'.RecordsOnce) _ _
      ⟨rfl, hn⟩ fun _ ih e _ => ⟨ih.1, ih.2.updateDomain e.1 e.2⟩

theorem Sound.perform (hs : h.Sound) {op : Op} (hb : (h.perform op).Balanced) :
    (h.perform op).Sound := by
  cases op with
  | answer domain newPrefixes =>
    rw [Handler.perform] at hb ⊢
    split_ifs at hb ⊢ with ht
    · have htype : (h.updateDomainPrefixes domain newPrefixes).type = _ :=
        updateDomainPrefixes_type.trans ht
      exact ⟨by rw [htype]; nofun, hb, fun hd => nomatch htype.symm.trans hd⟩
    · exact hs
  | resolve newDomains =>
    rw [Handler.perform] at hb ⊢
    split_ifs at hb ⊢ with ht
    · obtain ⟨htype, honce⟩ := (hs.once ht).updateDynamicRoutes newDomains
      exact ⟨htype ▸ hs.hasDomains, hb, fun _ => honce⟩
    · exact hs
  | addAllowedIPs peerKey => exact sameRoutes_add.sound hs
  | removeAllowedIPs => exact sameRoutes_remove.sound hs
  | removeRoute => exact hs.removeRoute.1

/-- A handler for domains that was just added, an interceptor or a dynamic one. -/
def withDomains (intercepts : Bool) (rt : Route) : Handler :=
  (Handler.new (if intercepts then .dnsInterceptor else .dynamic) rt).addRoute

/-- **The references follow the records** through every sequence of calls exactly if every answer
is plain. -/
theorem routeRefs_balanced_iff (intercepts : Bool) (rt : Route) (ops : List Op) :
    Along perform KeepsBalance (withDomains intercepts rt) ops ↔
      Along perform Plain (withDomains intercepts rt) ops := by
  refine Along.congr Sound (fun _ op hs => keepsBalance_iff hs op)
    (fun _ op hs hp => hs.perform ((keepsBalance_iff hs op).mpr hp).1) ?_
  cases intercepts <;> exact ⟨nofun, fun _ => rfl, fun _ _ => nodup_nil⟩

/-- **An address that an answer repeats keeps its route**: the interceptor takes two references for
it and gives back one. -/
theorem repeated_address_keeps_route :
    ¬ Along perform KeepsBalance (withDomains true { id := "r" })
      [.answer "a" [⟨[1], 32⟩, ⟨[1], 32⟩], .answer "a" [⟨[2], 32⟩]] := by
  intro h
  exact absurd (h.2.1.1 ⟨[1], 32⟩) (by decide)

end Handler

end Netbird.Client
