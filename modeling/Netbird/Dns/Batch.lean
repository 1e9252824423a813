/-
Batches of registrations (`client/internal/dns/server.go`).

In a batch `RegisterHandler` and `DeregisterHandler` leave the host as it is, but change the chain
and the counts of the extra domains at once.  `CancelBatch` only ends the batch.

* `Ordered.calls` — what calls make of a chain, rank by rank;
* `bounded_eq_iff` — when a count that does not fall below zero comes back;
* **`traceless_iff`** — when a cancelled batch leaves no trace: a condition on its calls and on the
  chain and the counts before it.
-/
import Netbird.Dns.Dispatch

namespace Netbird.Dns

open List

/-! ### What calls leave in a chain -/

section Left

variable {H : Type} (fm : NameMap) (matchSubdomains : H → Bool)

/-- Entries of one rank stand in the order in which they were added. -/
def HandlerEntry.rank (e : HandlerEntry H) : ℤ × ℕ := (e.priority, e.pattern.count '.')

/-- The key under which a call adds or removes an entry. -/
def Call.touched : Call H → Key
  | .addHandler pattern _ priority => (fm.folded (fm.lowered (fm.fqdn pattern)), priority)
  | .removeHandler pattern priority => (fm.folded (fm.fqdn pattern), priority)

/-- The entry that a call adds. -/
def Call.added : Call H → Option (HandlerEntry H)
  | .addHandler pattern handler priority => some (newEntry fm matchSubdomains pattern handler priority)
  | .removeHandler _ _ => none

/-- The entry is under none of the keys of the calls. -/
def Untouched (calls : List (Call H)) (e : HandlerEntry H) : Prop :=
  ∀ c ∈ calls, c.touched fm ≠ e.key fm

instance (calls : List (Call H)) (e : HandlerEntry H) : Decidable (Untouched fm calls e) :=
  inferInstanceAs (Decidable (∀ c ∈ calls, _))

/-- The entries of the calls that no later call of them replaces or removes, in their order. -/
def leftBy : List (Call H) → List (HandlerEntry H)
  | [] => []
  | c :: cs => (c.added fm matchSubdomains).toList.filter (Untouched fm cs) ++ leftBy cs

/-- A chain as calls make it: no key occurs twice, and higher ranks come first. -/
structure Ordered (hs : List (HandlerEntry H)) : Prop where
  nodup : (hs.map (·.key fm)).Nodup
  sorted : hs.Pairwise fun e e' => ¬ Lower e e'

variable {fm matchSubdomains} {hs : List (HandlerEntry H)}

theorem Lower.rank_ne {e e' : HandlerEntry H} (h : Lower e e') : e.rank ≠ e'.rank := by
  intro heq
  obtain ⟨hp, hc⟩ := Prod.mk.inj heq
  rcases h with h | h <;> omega

theorem rank_eq_of_not_lower (e e' : HandlerEntry H) (h : ¬ Lower e e') (h' : ¬ Lower e' e) :
    e.rank = e'.rank := by
  simp only [Lower, not_or, not_and] at h h'
  refine Prod.ext ?_ ?_ <;> simp only [HandlerEntry.rank] <;> omega

theorem Ordered.nil : Ordered fm ([] : List (HandlerEntry H)) := ⟨nodup_nil, .nil⟩

theorem Ordered.filter (h : Ordered fm hs) (p : HandlerEntry H → Bool) : Ordered fm (hs.filter p) :=
  ⟨h.nodup.sublist (filter_sublist.map _), h.sorted.sublist filter_sublist⟩

/-- A new entry is put behind the others of its rank. -/
theorem Ordered.insert (h : Ordered fm hs) {new : HandlerEntry H}
    (hnew : new.key fm ∉ hs.map (·.key fm)) :
    let pos := findHandlerPosition new hs
    Ordered fm (hs.take pos ++ new :: hs.drop pos) ∧
      ∀ rank, (hs.take pos ++ new :: hs.drop pos).filter (·.rank = rank) =
        hs.filter (·.rank = rank) ++ [new].filter (·.rank = rank) := by
  obtain ⟨hbefore, hafter⟩ := findHandlerPosition_cases new h.sorted
  have hsplit := take_append_drop (findHandlerPosition new hs) hs
  have hsorted := h.sorted
  generalize findHandlerPosition new hs = pos at hbefore hafter hsplit ⊢
  refine ⟨⟨?_, ?_⟩, fun rank => ?_⟩
  · refine (perm_middle.map _).nodup_iff.mpr ?_
    rw [hsplit]
    exact nodup_cons.mpr ⟨hnew, h.nodup⟩
  · rw [← hsplit, pairwise_append] at hsorted
    obtain ⟨htake, hdrop, hacross⟩ := hsorted
    refine pairwise_append.mpr ⟨htake, pairwise_cons.mpr ⟨fun e he => ?_, hdrop⟩,
      fun e he => forall_mem_cons.mpr ⟨hbefore e he, hacross e he⟩⟩
    have := hafter e he
    grind [Lower]
  · nth_rewrite 3 [← hsplit]
    rw [filter_append, filter_append, filter_cons]
    by_cases hrank : new.rank = rank
    · -- what comes after it has a lower rank
      have hnil : (hs.drop pos).filter (·.rank = rank) = [] := by
        refine filter_eq_nil_iff.mpr fun e he hmem => (hafter e he).rank_ne ?_
        rw [hrank]
        exact of_decide_eq_true hmem
      simp [hrank, hnil]
    · simp [hrank]

variable (matchSubdomains) in
/-- **One call** on a chain: the entry under its key goes, and the new one stands last of its
rank. -/
theorem Ordered.call (h : Ordered fm hs) (c : Call H) : Ordered fm (call fm matchSubdomains hs c) ∧
      ∀ rank, (call fm matchSubdomains hs c).filter (·.rank = rank) =
        (hs.filter (·.rank = rank)).filter (Untouched fm [c]) ++
          (c.added fm matchSubdomains).toList.filter (·.rank = rank) := by
  have hrest : Ordered fm (hs.filter (Untouched fm [c])) := h.filter _
  have hremove : ∀ pattern priority, (fm.folded pattern, priority) = c.touched fm →
      removeEntry fm pattern priority hs = hs.filter (Untouched fm [c]) := by
    intro pattern priority hkey
    rw [removeEntry_eq h.nodup, hkey]
    exact filter_congr fun e _ => by simp [Untouched, eq_comm]
  have hswap : ∀ rank, (hs.filter (Untouched fm [c])).filter (·.rank = rank) =
      (hs.filter (·.rank = rank)).filter (Untouched fm [c]) := fun rank => filter_comm ..
  cases c with
  | removeHandler pattern priority =>
    rw [Dns.call, removeHandler, hremove _ _ rfl]
    exact ⟨hrest, fun rank => by rw [hswap, Call.added, Option.toList_none, filter_nil, append_nil]⟩
  | addHandler pattern handler priority =>
    rw [Dns.call, addHandler, hremove (newEntry ..).origPattern _ rfl]
    have hnew : (newEntry fm matchSubdomains pattern handler priority).key fm ∉
        (hs.filter (Untouched fm [.addHandler pattern handler priority])).map (·.key fm) := by
      intro hmem
      obtain ⟨e, he, hkey⟩ := mem_map.mp hmem
      exact of_decide_eq_true (mem_filter.mp he).2 _ mem_cons_self hkey.symm
    obtain ⟨hordered, hclasses⟩ := hrest.insert hnew
    exact ⟨hordered, fun rank => by rw [hclasses, hswap]; rfl⟩

variable (matchSubdomains) in
/-- **After any calls** the entries of a rank are those the calls do not touch and those they
leave. -/
theorem Ordered.calls (h : Ordered fm hs) (calls : List (Call H)) :
    Ordered fm (calls.foldl (Dns.call fm matchSubdomains) hs) ∧
      ∀ rank, (calls.foldl (Dns.call fm matchSubdomains) hs).filter (·.rank = rank) =
        (hs.filter (·.rank = rank)).filter (Untouched fm calls) ++
          (leftBy fm matchSubdomains calls).filter (·.rank = rank) := by
  induction calls generalizing hs with
  | nil => exact ⟨h, fun rank => by simp [Untouched, leftBy]⟩
  | cons c calls ih =>
    obtain ⟨hcall, hclass⟩ := h.call matchSubdomains c
    obtain ⟨hordered, hclasses⟩ := ih hcall
    refine ⟨hordered, fun rank => ?_⟩
    rw [foldl_cons, hclasses, hclass, leftBy, filter_append, filter_append, filter_comm, append_assoc,
      filter_filter]
    congr 1
    · refine filter_congr fun e _ => Bool.eq_iff_iff.mpr ?_
      simp only [Bool.and_eq_true, decide_eq_true_eq]
      simp only [Untouched, forall_mem_singleton, forall_mem_cons]
    · rw [filter_comm]

/-- The entries of the chain under the keys of the calls are, rank by rank, the last ones, and those
that the calls leave. -/
def ChainUndone (fm : NameMap) (matchSubdomains : H → Bool) (calls : List (Call H))
    (hs : List (HandlerEntry H)) : Prop :=
  ∀ rank, hs.filter (·.rank = rank) = (hs.filter (·.rank = rank)).filter (Untouched fm calls) ++
    (leftBy fm matchSubdomains calls).filter (·.rank = rank)

theorem Ordered.foldl_eq_iff (h : Ordered fm hs) (calls : List (Call H)) :
    calls.foldl (Dns.call fm matchSubdomains) hs = hs ↔
      ChainUndone fm matchSubdomains calls hs := by
  obtain ⟨hordered, hclasses⟩ := h.calls matchSubdomains calls
  constructor
  · intro heq rank
    rw [← hclasses, heq]
  · intro hundone
    exact Keyed.eq_of_classes rank_eq_of_not_lower hordered.sorted h.sorted fun rank =>
      (hclasses rank).trans (hundone rank).symm

end Left

/-! ### Counts -/

section Counts

/-- A count goes up and down, but not below zero. -/
def bounded (n : ℕ) (steps : List ℤ) : ℕ := steps.foldl (fun n d => (n + d : ℤ).toNat) n

theorem bounded_cases (n : ℕ) (steps : List ℤ) :
    n + steps.sum ≤ bounded n steps ∧ (∀ t, t <:+ steps → t.sum ≤ bounded n steps) ∧
      (bounded n steps = n + steps.sum ∨ ∃ t, t <:+ steps ∧ bounded n steps = t.sum) := by
  induction steps using reverseRecOn with
  | nil => simp [bounded]
  | append_singleton steps d ih =>
    obtain ⟨htotal, htails, hreached⟩ := ih
    have hstep : bounded n (steps ++ [d]) = (bounded n steps + d).toNat := by
      simp [bounded]
    rw [hstep, sum_append, sum_singleton]
    refine ⟨by omega, fun t ht => ?_, ?_⟩
    · rcases suffix_concat_iff.mp ht with rfl | ⟨t', rfl, ht'⟩
      · simp
      · have := htails t' ht'
        simp only [sum_append, sum_singleton]
        omega
    · by_cases hneg : bounded n steps + d < 0
      · exact .inr ⟨[], nil_suffix, by simp; omega⟩
      · rcases hreached with heq | ⟨t, ht, heq⟩
        · exact .inl (by omega)
        · obtain ⟨u, rfl⟩ := ht
          exact .inr ⟨t ++ [d], ⟨u, by simp⟩, by simp; omega⟩

/-- **A count comes back** exactly if the steps do not add up to more than zero, none of their ends
adds up to more than the count, and unless all of them add up to zero, one of the ends adds up to the
count. -/
theorem bounded_eq_iff (n : ℕ) (steps : List ℤ) :
    bounded n steps = n ↔ steps.sum ≤ 0 ∧ (∀ t, t <:+ steps → t.sum ≤ n) ∧
      (steps.sum = 0 ∨ ∃ t, t <:+ steps ∧ t.sum = n) := by
  obtain ⟨htotal, htails, hreached⟩ := bounded_cases n steps
  constructor
  · intro heq
    rw [heq] at htotal htails hreached
    refine ⟨by omega, htails, hreached.imp (fun h => by omega) ?_⟩
    rintro ⟨t, ht, hsum⟩
    exact ⟨t, ht, hsum.symm⟩
  · rintro ⟨hle, hends, hback⟩
    have hle' : (bounded n steps : ℤ) ≤ n := by
      rcases hreached with heq | ⟨t, ht, heq⟩
      · omega
      · exact heq ▸ hends t ht
    have hge : (n : ℤ) ≤ bounded n steps := by
      rcases hback with hzero | ⟨t, ht, hsum⟩
      · omega
      · exact hsum ▸ htails t ht
    omega

end Counts

/-! ### The server -/

structure DomainConfig where
  disabled : Bool
  domain : Name
  matchOnly : Bool

structure HostDNSConfig where
  domains : List DomainConfig
  routeAll : Bool
  serverIP : List UInt8
  serverPort : ℤ

section Batch

variable {H : Type} (fm : NameMap) (matchSubdomains : H → Bool)
  (hash : HostDNSConfig → Option UInt64)

/-- The server: a domain that is not among the extra ones has the count 0, and `applied` are the
configurations the host manager was given. -/
structure HostServer (H : Type) where
  handlerChain : List (HandlerEntry H)
  extraDomains : Name → ℕ
  batchMode : Bool
  currentConfig : HostDNSConfig
  currentConfigHash : UInt64
  applied : List HostDNSConfig

/-- What is decided elsewhere when the configuration is applied: whether the context is done, the
order of the extra domains, whether the host manager succeeds, and the call of `registerFallback`
on the chain, if it makes one. -/
structure Host (H : Type) where
  done : Bool
  order : (Name → ℕ) → List Name
  succeeds : Bool
  registerFallback : HostDNSConfig → Option (Call H)

inductive Registration (H : Type)
  | registerHandler (domains : List Name) (handler : H) (priority : ℤ)
  | deregisterHandler (domains : List Name) (priority : ℤ)

/-- The calls on the server.  An update of the configuration changes the chain by some calls. -/
inductive ServerCall (H : Type)
  | registration (r : Registration H)
  | beginBatch
  | endBatch
  | cancelBatch
  | update (config : HostDNSConfig) (calls : List (Call H))

def toZone (d : Name) : Name :=
  let zone := fm.fqdn (fm.lowered d)
  if ['*', '.'].isPrefixOf zone then zone.drop 2 else zone

/-- The calls on the chain; an empty domain is skipped. -/
def Registration.calls : Registration H → List (Call H)
  | registerHandler domains handler priority =>
    (domains.filter (· ≠ [])).map (.addHandler · handler priority)
  | deregisterHandler domains priority => (domains.filter (· ≠ [])).map (.removeHandler · priority)

/-- The counts of the extra domains; one that falls to 0 is deleted. -/
def count (n : Name → ℕ) : Registration H → Name → ℕ
  | .registerHandler domains _ _ =>
    domains.foldl (fun n d => Function.update n (toZone fm d) (n (toZone fm d) + 1)) n
  | .deregisterHandler domains _ =>
    domains.foldl (fun n d => Function.update n (toZone fm d) (n (toZone fm d) - 1)) n

def applyHostConfig (host : Host H) (s : HostServer H) : HostServer H :=
  if host.done then s
  else
    let extra := (host.order s.extraDomains).filter fun d =>
      s.currentConfig.domains.all (·.domain ≠ d)
    let config := { s.currentConfig with
      domains := s.currentConfig.domains ++ extra.map (⟨false, ·, true⟩) }
    if hash config = some s.currentConfigHash then s
    else
      let s := { s with applied := s.applied ++ [config] }
      if host.succeeds then
        { s with
          currentConfigHash := (hash config).getD s.currentConfigHash
          handlerChain :=
            (host.registerFallback config).toList.foldl (call fm matchSubdomains) s.handlerChain }
      else s

def serve (s : HostServer H) : ServerCall H × Host H → HostServer H
  | (.registration r, host) =>
    let s := { s with
      handlerChain := r.calls.foldl (call fm matchSubdomains) s.handlerChain
      extraDomains := count fm s.extraDomains r }
    if s.batchMode then s else applyHostConfig fm matchSubdomains hash host s
  | (.beginBatch, _) => { s with batchMode := true }
  | (.endBatch, host) => applyHostConfig fm matchSubdomains hash host { s with batchMode := false }
  | (.cancelBatch, _) => { s with batchMode := false }
  | (.update config calls, host) =>
    applyHostConfig fm matchSubdomains hash host { s with
      handlerChain := calls.foldl (call fm matchSubdomains) s.handlerChain
      currentConfig := config }

/-- The server after a batch that is cancelled. -/
def batched (host : Host H) (s : HostServer H) (rs : List (Registration H)) : HostServer H :=
  let serve s c := serve fm matchSubdomains hash s (c, host)
  serve (rs.foldl (fun s r => serve s (.registration r)) (serve s .beginBatch)) .cancelBatch

/-- Chain, extra domains and the configurations of any later calls are those after a batch without
calls. -/
def Traceless (host : Host H) (s : HostServer H) (rs : List (Registration H)) : Prop :=
  let s' := batched fm matchSubdomains hash host s rs
  let s₀ := batched fm matchSubdomains hash host s []
  s'.handlerChain = s₀.handlerChain ∧ s'.extraDomains = s₀.extraDomains ∧
    ∀ later : List (ServerCall H × Host H),
      (later.foldl (serve fm matchSubdomains hash) s').applied =
        (later.foldl (serve fm matchSubdomains hash) s₀).applied

theorem batched_eq (host : Host H) (s : HostServer H) (rs : List (Registration H)) :
    batched fm matchSubdomains hash host s rs = { s with
      handlerChain := (rs.flatMap (·.calls)).foldl (call fm matchSubdomains) s.handlerChain
      extraDomains := rs.foldl (count fm) s.extraDomains
      batchMode := false } := by
  simp only [batched, serve]
  induction rs generalizing s with
  | nil => rfl
  | cons r rs ih => simpa [serve, List.foldl_append] using ih { s with
      handlerChain := r.calls.foldl (call fm matchSubdomains) s.handlerChain
      extraDomains := count fm s.extraDomains r }

/-- How a call counts a zone up or down. -/
def Registration.steps (zone : Name) : Registration H → List ℤ
  | .registerHandler domains _ _ => (domains.filter (toZone fm · = zone)).map fun _ => 1
  | .deregisterHandler domains _ => (domains.filter (toZone fm · = zone)).map fun _ => -1

/-- How the calls of a batch count a zone up and down, in their order. -/
def zoneSteps (zone : Name) (rs : List (Registration H)) : List ℤ := rs.flatMap (·.steps fm zone)

variable (rs : List (Registration H))

/-- The calls bring back the count of every zone: they register it no more often than they
deregister it, no last ones of them register it more often, on balance, than it was counted before,
and unless they are balanced, some last ones register it just as often. -/
def CountsUndone (n : Name → ℕ) : Prop :=
  ∀ zone, (zoneSteps fm zone rs).sum ≤ 0 ∧
    (∀ last, last <:+ zoneSteps fm zone rs → last.sum ≤ n zone) ∧
      ((zoneSteps fm zone rs).sum = 0 ∨ ∃ last, last <:+ zoneSteps fm zone rs ∧ last.sum = n zone)

theorem foldl_update_eq (step : ℕ → ℕ) (d : ℤ) (hstep : ∀ k, step k = (k + d : ℤ).toNat)
    (zone : Name) (domains : List Name) (n : Name → ℕ) :
    domains.foldl (fun n x => Function.update n (toZone fm x) (step (n (toZone fm x)))) n zone =
      bounded (n zone) ((domains.filter (toZone fm · = zone)).map fun _ => d) := by
  induction domains generalizing n with
  | nil => rfl
  | cons x domains ih =>
    rw [foldl_cons, ih]
    by_cases hx : toZone fm x = zone
    · simp [hx, bounded, hstep]
    · simp [hx, Function.update_of_ne (Ne.symm hx)]

/-- **The count of a zone after a batch.** -/
theorem foldl_count_eq (n : Name → ℕ) (zone : Name) :
    rs.foldl (count fm) n zone = bounded (n zone) (zoneSteps fm zone rs) := by
  induction rs generalizing n with
  | nil => rfl
  | cons r rs ih =>
    have hone : count fm n r zone = bounded (n zone) (r.steps fm zone) := by
      cases r with
      | registerHandler domains handler priority =>
        exact foldl_update_eq fm (· + 1) 1 (fun _ => rfl) zone domains n
      | deregisterHandler domains priority =>
        exact foldl_update_eq fm (· - 1) (-1) (fun k => by omega) zone domains n
    rw [foldl_cons, ih, hone]
    exact foldl_append.symm

theorem foldl_count_eq_iff (n : Name → ℕ) : rs.foldl (count fm) n = n ↔ CountsUndone fm rs n := by
  rw [funext_iff]
  exact forall_congr' fun zone => by rw [foldl_count_eq, bounded_eq_iff]

/-- **A cancelled batch leaves no trace** if and only if what its calls leave under their keys is
what the chain had there before, in its place, and every zone gets its count back. -/
theorem traceless_iff (host : Host H) (s : HostServer H) (rs : List (Registration H))
    (earlier : List (Call H)) (hchain : s.handlerChain = chain fm matchSubdomains earlier) :
    Traceless fm matchSubdomains hash host s rs ↔
      ChainUndone fm matchSubdomains (rs.flatMap (·.calls)) s.handlerChain ∧
        CountsUndone fm rs s.extraDomains := by
  have hordered : Ordered fm s.handlerChain := hchain ▸ (Ordered.nil.calls matchSubdomains earlier).1
  rw [← hordered.foldl_eq_iff, ← foldl_count_eq_iff]
  simp only [Traceless, batched_eq]
  constructor
  · exact fun ⟨hchain, hextra, _⟩ => ⟨hchain, hextra⟩
  · rintro ⟨hchain, hextra⟩
    rw [hchain, hextra]
    exact ⟨rfl, rfl, fun _ => rfl⟩

/-- A server with a handler for one domain. -/
def oneHandler : HostServer Unit :=
  ⟨chain .ascii (fun _ => false) [.addHandler ['a'] () 1], fun zone => if zone = ['a', '.'] then 1 else 0,
    false, ⟨[], false, [], 0⟩, 0, []⟩

/-- A host on which every configuration is applied. -/
def openHost : Host Unit := ⟨false, fun _ => [], true, fun _ => none⟩

/-- The domain is deregistered and registered again. -/
def reregistration : List (Registration Unit) :=
  [.deregisterHandler [['a']] 1, .registerHandler [['A']] () 1]

theorem reregistration_traceless :
    Traceless .ascii (fun _ => false) (fun _ => none) openHost oneHandler reregistration := by
  refine (traceless_iff .ascii (fun _ => false) (fun _ => none) openHost oneHandler reregistration
    _ rfl).mpr ⟨?_, ?_⟩
  · have hordered : Ordered NameMap.ascii oneHandler.handlerChain := (Ordered.nil.calls _ _).1
    exact (hordered.foldl_eq_iff _).mp (by decide)
  · refine (foldl_count_eq_iff .ascii _ _).mp (funext fun zone => ?_)
    have hlower : toZone .ascii ['a'] = ['a', '.'] := by decide
    have hupper : toZone .ascii ['A'] = ['a', '.'] := by decide
    rw [foldl_count_eq]
    by_cases hzone : zone = ['a', '.']
    · subst hzone
      decide
    · simp [zoneSteps, reregistration, Registration.steps, hlower, hupper, Ne.symm hzone, bounded]

/-- A server without handlers. -/
def emptyServer : HostServer Unit := ⟨[], 0, false, ⟨[], false, [], 0⟩, 0, []⟩

/-- A handler registered in the batch stays. -/
theorem cancelled_handler_stays : ¬ Traceless .ascii (fun _ => false) (fun _ => none)
    ⟨false, fun _ => [], true, fun _ => none⟩ emptyServer [.registerHandler [['a']] () 1] := by
  rintro ⟨hchain, -⟩
  revert hchain
  decide

end Batch

end Netbird.Dns
