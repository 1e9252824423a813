/-
A proxy whose mapping stream is interrupted and opened again.

The proxy keeps what it serves from one stream to the next. A new stream is registered first, so
that messages wait for it, and then gets the enabled services of the cluster as `CREATED`
messages. All setups on the proxy succeed and no message of an open stream is lost.

* `announced_iff` — the calls whose messages say what the store says;
* `inStep_step_iff`, `reconnect_iff` — when a proxy is in step with management.
-/
import Netbird.Proxy.Services

namespace Netbird.Services

open Store List Function Option Service

/-- A stream of `GetMappingUpdate`, with the messages the proxy has not processed. -/
inductive Stream where
  | closed
  | registered (waiting : List Message)
  | synced (waiting : List Message)

def Stream.send (ms : List Message) : Stream → Stream
  | .closed => .closed
  | .registered waiting => .registered (waiting ++ ms)
  | .synced waiting => .synced (waiting ++ ms)

/-- Management, what a proxy serves, and its stream. -/
structure Link where
  store : Store := {}
  served : String → Option Service := fun _ => none
  stream : Stream := .closed

inductive LinkEvent where
  | call (c : Call)
  | connect
  | sendSnapshot
  | processMappings
  | disconnect

/-- What a proxy serves of a service after a message about it. -/
def Message.outcome (m : Message) : Option Service :=
  if m.op = .delete then none else some m.service

def process (served : String → Option Service) (m : Message) : String → Option Service :=
  Function.update served m.service.id m.outcome

variable (derive : String → Option String) (address : String)

/-- `SendServiceUpdateToCluster` broadcasts where it is given no cluster. -/
def reaches (cluster : String) : Bool := cluster == "" || cluster == address

def reaching (ms : List Message) : List Message := ms.filter fun m => reaches address m.cluster

def Link.step (l : Link) : LinkEvent → Link
  | .call c =>
    { l with
      store := (l.store.call derive c).1
      stream := l.stream.send (reaching address (l.store.call derive c).2) }
  | .connect => { l with stream := .registered [] }
  | .sendSnapshot =>
    match l.stream with
    | .registered waiting =>
      let mappings := (l.store.snapshot address).map fun s => ⟨.create, s, s.proxyCluster⟩
      { l with stream := .synced (mappings ++ waiting) }
    | _ => l
  | .processMappings =>
    match l.stream with
    | .synced (m :: waiting) =>
      { l with served := process l.served m, stream := .synced waiting }
    | _ => l
  | .disconnect => { l with stream := .closed }

def Service.offer (s : Service) : Option Service :=
  if s.offeredTo address then some s else none

/-- The enabled services of the cluster, by ID. -/
def Store.wanted (st : Store) (id : String) : Option Service :=
  (st.get id).bind (·.offer address)

/-- Once it has processed the messages of its stream, the snapshot among them, the proxy serves
the enabled services of its cluster. -/
def InStep (l : Link) : Prop :=
  ∀ waiting, l.stream = .synced waiting → waiting.foldl process l.served = l.store.wanted address

/-- A call after which management has told the proxy what it now wants: an update that reaches it
is about a service it is to serve, or has just disabled that service. -/
def Announced (st : Store) : Call → Prop
  | .create s lookupFails =>
    if !lookupFails && reaches address s.proxyCluster then s.offeredTo address = true
    else st.wanted address s.id = s.offer address
  | .update s lookupFails => ∀ existing, st.get s.id = some existing →
    let s := updated derive existing s
    if lookupFails then st.wanted address s.id = s.offer address
    else reaches address s.proxyCluster = true → s.offeredTo address = true ∨
      s.enabled = false ∧ existing.enabled = true ∧ existing.domain = s.domain
  | .delete _ => True

/-- At a snapshot, nothing is served that is not wanted any more, and the messages that wait
since the stream was registered are up to date. -/
def Faithful (l : Link) : LinkEvent → Prop
  | .call c => ∀ waiting, l.stream = .synced waiting → Announced derive address l.store c
  | .sendSnapshot => ∀ waiting, l.stream = .registered waiting → ∀ id,
    match waiting.reverse.find? (·.service.id == id) with
    | some m => m.outcome = l.store.wanted address id
    | none => l.store.wanted address id = none → l.served id = none
  | .connect | .processMappings | .disconnect => True

/-- Services are stored under their IDs, and the IDs are known. -/
def Store.Keyed (st : Store) : Prop :=
  ∀ id s, st.get id = some s → s.id = id ∧ id ∈ st.ids

variable {derive address} {st : Store}

theorem Store.Keyed.save (h : st.Keyed) (s : Service) : (st.save s).Keyed := by
  intro id t ht
  simp only [Store.save, update_apply] at ht ⊢
  split_ifs at ht with hid
  · obtain rfl := some.inj ht
    exact ⟨hid.symm, hid ▸ mem_cons_self⟩
  · exact ⟨(h id t ht).1, mem_cons_of_mem _ (h id t ht).2⟩

theorem Store.Keyed.call (h : st.Keyed) (c : Call) : (st.call derive c).1.Keyed := by
  cases c with
  | create s lookupFails => exact h.save s
  | update s lookupFails =>
    rw [Store.call]
    split
    · exact h
    · exact h.save _
  | delete id =>
    rw [Store.call]
    split
    · exact h
    · intro id' t ht
      simp only [update_apply] at ht
      split_ifs at ht
      exact h id' t ht

/-! ### Messages -/

/-- **The last message** about a service decides whether and how it is served. -/
theorem foldl_process (ms : List Message) (served : String → Option Service) (id : String) :
    ms.foldl process served id =
      match ms.reverse.find? (·.service.id == id) with
      | some m => m.outcome
      | none => served id := by
  induction ms using reverseRecOn with
  | nil => rfl
  | append_singleton ms m ih =>
    simp only [foldl_append, foldl_cons, foldl_nil, reverse_append,
      reverse_singleton, singleton_append, find?_cons]
    by_cases hid : m.service.id = id
    · simp [process, hid.symm]
    · rw [beq_false_of_ne hid, process, update_of_ne (Ne.symm hid), ih]

/-- **A snapshot** adds what is wanted and takes nothing away. -/
theorem process_snapshot (h : st.Keyed) (served : String → Option Service) (id : String) :
    ((st.snapshot address).map fun s => ⟨.create, s, s.proxyCluster⟩).foldl process served id =
      (st.wanted address id).or (served id) := by
  rw [foldl_process]
  split
  · rename_i m hm
    have hid := find?_some hm
    obtain ⟨s, hs, rfl⟩ := mem_map.mp (mem_reverse.mp (mem_of_find?_eq_some hm))
    obtain ⟨hs, hoffered⟩ := mem_filter.mp hs
    obtain ⟨id', -, hget⟩ := mem_filterMap.mp hs
    obtain rfl : id' = id := (h id' s hget).1.symm.trans (beq_iff_eq.mp hid)
    simp [wanted, hget, offer, hoffered, Message.outcome]
  · rename_i hnone
    rcases hwanted : st.wanted address id with _ | s
    · rfl
    · obtain ⟨t, hget, ht⟩ := bind_eq_some_iff.mp hwanted
      obtain ⟨hoffered, hs⟩ := ite_none_right_eq_some.mp ht
      obtain ⟨hid, hmem⟩ := h id t hget
      have hlisted : t ∈ st.snapshot address :=
        mem_filter.mpr ⟨mem_filterMap.mpr ⟨id, hmem, hget⟩, hoffered⟩
      have hother := find?_eq_none.mp hnone _
        (mem_reverse.mpr (mem_map.mpr ⟨t, hlisted, rfl⟩))
      exact absurd (beq_iff_eq.mpr hid) hother

theorem wanted_save (st : Store) (s : Service) : (st.save s).wanted address =
    update (st.wanted address) s.id (s.offer address) := by
  funext id
  simp only [wanted, save, update_apply]
  split_ifs <;> rfl

theorem offer_eq_none {s : Service} (h : reaches address s.proxyCluster = false) :
    s.offer address = none := by
  simp only [reaches, Bool.or_eq_false_iff] at h
  simp [offer, offeredTo, h.2]

theorem update_offer_iff {served : String → Option Service} {id : String} {s : Service} :
    update served id (some s) = update served id (s.offer address) ↔
      s.offeredTo address = true := by
  rw [(update_injective served id).eq_iff, offer]
  split_ifs with hoffered
  · exact iff_of_true rfl hoffered
  · exact iff_of_false nofun hoffered

section Announced

attribute [local simp] reaching process Message.outcome Function.eq_update_self_iff update_offer_iff

/-- The messages of an update, for a proxy that has what was wanted of the service. -/
theorem announced_update_iff {existing s : Service} {served : String → Option Service}
    (hcluster : existing.domain = s.domain → s.proxyCluster = existing.proxyCluster)
    (hserved : served s.id = existing.offer address) :
    (reaching address (updateNotifications existing s)).foldl process served =
        update served s.id (s.offer address) ↔
      (reaches address s.proxyCluster = true → s.offeredTo address = true ∨
        s.enabled = false ∧ existing.enabled = true ∧ existing.domain = s.domain) := by
  by_cases hdomain : existing.domain = s.domain
  · have hstays : ¬ (existing.domain ≠ s.domain ∨ existing.proxyCluster ≠ s.proxyCluster) := by
      simp [hdomain, hcluster hdomain]
    rw [updateNotifications, if_neg hstays]
    cases hreach : reaches address s.proxyCluster with
    | false =>
      -- another cluster, before and after
      rw [offer_eq_none (hcluster hdomain ▸ hreach)] at hserved
      rw [offer_eq_none hreach]
      cases s.enabled <;> cases existing.enabled <;>
        simp [hreach, hserved]
    | true =>
      cases henabled : s.enabled
      · cases existing.enabled
        · simp [hreach]
        · simp [hreach, hdomain, offer, offeredTo, henabled]
      · cases existing.enabled <;> simp [hreach]
  · -- the REMOVED message goes to the old cluster, the CREATED message to the new one
    rw [updateNotifications, if_pos (.inl hdomain)]
    cases hreach : reaches address s.proxyCluster with
    | false =>
      rw [offer_eq_none hreach]
      cases hold : reaches address existing.proxyCluster
      · rw [offer_eq_none hold] at hserved
        simp [hreach, hold, hserved]
      · simp [hreach, hold]
    | true =>
      cases hold : reaches address existing.proxyCluster <;> simp [hreach, hold, hdomain]

/-- **The calls that are announced** are those whose messages turn what was wanted into what is
wanted. -/
theorem announced_iff (h : st.Keyed) (c : Call) :
    (reaching address (st.call derive c).2).foldl process (st.wanted address) =
      (st.call derive c).1.wanted address ↔ Announced derive address st c := by
  cases c with
  | create s lookupFails =>
    rw [call, wanted_save, Announced]
    cases lookupFails <;> cases hreach : reaches address s.proxyCluster <;> simp [hreach]
  | update s lookupFails =>
    rcases hget : st.get s.id with _ | existing
    · simp [call, Announced, hget]
    · obtain ⟨cluster, ht, hcluster⟩ := @updated_eq derive existing s
      simp only [call, Announced, hget, ht, some.injEq, forall_eq', wanted_save]
      cases lookupFails
      · refine announced_update_iff (s := { s with proxyCluster := cluster }) hcluster ?_
        rw [wanted, hget, bind_some]
      · simp
  | delete id =>
    refine iff_of_true ?_ trivial
    rcases hget : st.get id with _ | s
    · simp [call, hget]
    · have hafter : (st.call derive (.delete id)).1.wanted address =
          update (st.wanted address) id none := by
        funext id'
        simp only [wanted, call, hget, update_apply]
        split_ifs <;> rfl
      rw [hafter, call, hget, ← (h id s hget).1]
      cases hreach : reaches address s.proxyCluster
      · have hnone : st.wanted address s.id = none := by
          rw [(h id s hget).1, wanted, hget, bind_some, offer_eq_none hreach]
        simp [hreach, hnone]
      · simp [hreach]

end Announced

/-- **One event** keeps the proxy in step exactly if it is faithful. -/
theorem inStep_step_iff {l : Link} (hkeyed : l.store.Keyed) (h : InStep address l) (e : LinkEvent) :
    InStep address (l.step derive address e) ↔ Faithful derive address l e := by
  cases e with
  | call c =>
    cases hstream : l.stream with
    | closed | registered _ => simp [InStep, Link.step, Faithful, hstream, Stream.send]
    | synced waiting =>
      simp [InStep, Link.step, Faithful, hstream, Stream.send, h waiting hstream,
        announced_iff hkeyed]
  | sendSnapshot =>
    cases hstream : l.stream with
    | closed => simp [InStep, Link.step, Faithful, hstream]
    | synced waiting => simp [InStep, Link.step, Faithful, hstream, h waiting hstream]
    | registered waiting =>
      simp only [InStep, Link.step, Faithful, hstream, Stream.synced.injEq, forall_eq',
        Stream.registered.injEq, foldl_append, funext_iff]
      -- what waits since the registration is processed after the snapshot and overrides it
      refine forall_congr' fun id => ?_
      rw [foldl_process]
      split
      · rfl
      · rw [process_snapshot hkeyed]
        cases l.store.wanted address id <;> simp
  | processMappings =>
    refine iff_of_true (fun waiting hwaiting => ?_) trivial
    cases hstream : l.stream with
    | closed | registered _ => simp [Link.step, hstream] at hwaiting
    | synced queue =>
      rcases queue with _ | ⟨m, rest⟩
      · simp only [Link.step, hstream] at hwaiting ⊢
        exact h waiting (hstream.trans hwaiting)
      · simp only [Link.step, hstream, Stream.synced.injEq] at hwaiting ⊢
        exact hwaiting ▸ h (m :: rest) hstream
  | connect | disconnect => exact iff_of_true (fun waiting hwaiting => nomatch hwaiting) trivial

/-- **A proxy that reconnects** any number of times is in step with management, whenever it has
processed what was sent on the open stream, exactly if every event is faithful. -/
theorem reconnect_iff (derive : String → Option String) (address : String) (es : List LinkEvent) :
    Runs.Along (Link.step derive address) (fun l e => InStep address (l.step derive address e)) {}
        es ↔ Runs.Along (Link.step derive address) (Faithful derive address) {} es := by
  refine Runs.Along.congr (fun l => l.store.Keyed ∧ InStep address l)
    (fun l e hl => inStep_step_iff hl.1 hl.2 e)
    (fun l e hl he => ⟨?_, (inStep_step_iff hl.1 hl.2 e).mpr he⟩)
    ⟨fun id s hs => ?_, fun ms hms => ?_⟩
  · cases e with
    | call c => exact hl.1.call c
    | connect | disconnect => exact hl.1
    | sendSnapshot | processMappings =>
      rw [Link.step]
      split <;> exact hl.1
  · cases hs
  · cases hms

/-- A service that is removed while the proxy is disconnected is served after the snapshot. -/
theorem removed_service_served :
    let s : Service := ⟨"svc", "app.example", "eu.proxy.example", true, ""⟩
    let l := [.connect, .sendSnapshot, .call (.create s false), .processMappings, .disconnect,
      .call (.delete "svc"), .connect, .sendSnapshot].foldl
        (Link.step (fun _ => none) "eu.proxy.example") {}
    l.stream = .synced [] ∧ l.served "svc" = some s ∧ l.store.get "svc" = none :=
  ⟨rfl, by decide, by decide⟩

end Netbird.Services
