/-
The signal registry, call by call and as a whole.

The operation that decides what a call returns is the moment at which the call takes
effect.  In the order of these moments the calls can be made one after another
(`atomically`, the registry as one would describe it), with the same map and the same
results:

* `linearized` — the map and the results are those of the sequential run;
* `registry_newest_stream_wins` — what this says about streams and the metric.
-/
import Netbird.Signal.Registry

namespace Netbird.Signal

open Call List Option

/-! ### The calls one after another -/

section Order

variable {P : Type} [DecidableEq P] (heap : P → Peer)

/-- A whole call at once, on a map from ids to streams: the newest stream wins. It gives the map
and what the call returns. -/
def atomically (m : AList fun _ : String => P) :
    Call P → (AList fun _ : String => P) × Call P
  | .loadOrStore peer =>
    match m.lookup (heap peer).id with
    | none => (m.insert (heap peer).id peer, .registered peer)
    | some pp =>
      if (heap pp).streamID < (heap peer).streamID then
        (m.insert (heap peer).id peer, .registered peer)
      else (m, .alreadyRegistered peer)
  | .compareAndDelete peer =>
    (if m.lookup (heap peer).id = some peer then m.erase (heap peer).id else m,
      .deregistered peer)
  | c => (m, c)

/-- The calls with the given numbers, made one after another: the map at the end, and what each
of them returned. -/
def replay (calls : List (Call P)) (order : List ℕ) :
    (AList fun _ : String => P) × List (ℕ × Call P) :=
  order.foldl (fun st i =>
    match calls[i]? with
    | none => st
    | some c => ((atomically heap st.1 c).1, st.2 ++ [(i, (atomically heap st.1 c).2)])) (∅, [])

/-- The next operation of the call is the one that decides what it returns. -/
def takesEffect (r : Registry P) : Call P → Bool
  | .loadOrStore peer =>
    match r.peers.lookup (heap peer).id with
    | none => true
    | some pp => (heap peer).streamID ≤ (heap pp).streamID
  | .compareAndSwap peer pp => r.peers.lookup (heap peer).id = some pp
  | .compareAndDelete _ => true
  | _ => false

def orderFrom : Pool (Registry P) (Call P) → List ℕ → List ℕ
  | _, [] => []
  | s, i :: rest =>
    (if s.threads[i]?.any (takesEffect heap s.shared) then [i] else []) ++
      orderFrom (Pool.step (advance heap) s i) rest

def order (calls : List (Call P)) (schedule : List ℕ) : List ℕ :=
  orderFrom heap (start calls) schedule

theorem orderFrom_append (s : Pool (Registry P) (Call P)) (first second : List ℕ) :
    orderFrom heap s (first ++ second) =
      orderFrom heap s first ++ orderFrom heap (s.run (advance heap) first) second := by
  induction first generalizing s with
  | nil => rfl
  | cons i first ih => rw [cons_append, orderFrom, orderFrom, ih, append_assoc]; rfl

variable {heap} {r r' : Registry P} {c c' : Call P}

theorem Moves.atomically_eq (hmove : Moves heap r c r' c')
    (holder : ∀ peer pp, c = .compareAndSwap peer pp → (heap pp).streamID < (heap peer).streamID)
    (h : takesEffect heap r c) :
    ∃ d, atomically heap r.peers c.origin = (r'.peers, d) ∧ c.result = none ∧
      c'.result = some d := by
  cases hmove with
  | stored hnone => exact ⟨_, by simp [origin, atomically, hnone], rfl, rfl⟩
  | newer hpp hlt =>
    simp only [takesEffect, hpp, decide_eq_true_eq] at h
    omega
  | refused hpp hle => exact ⟨_, by simp [origin, atomically, hpp, hle], rfl, rfl⟩
  | @swapped peer pp hpp =>
    have hlt := holder peer pp rfl
    exact ⟨_, by simp [origin, atomically, hpp, hlt], rfl, rfl⟩
  | retried hne => simp [takesEffect, hne] at h
  | deleted hpp => exact ⟨_, by simp [origin, atomically, hpp], rfl, rfl⟩
  | missed hne => exact ⟨_, by simp [origin, atomically, hne], rfl, rfl⟩
  | done hreturned => cases c <;> simp [takesEffect, returned] at h hreturned
  | _ => simp [takesEffect] at h

theorem Moves.frame (hmove : Moves heap r c r' c') (h : takesEffect heap r c = false) :
    r'.peers = r.peers ∧ c'.result = c.result := by
  cases hmove with
  | stored hnone => simp [takesEffect, hnone] at h
  | refused hpp hle => simp [takesEffect, hpp, Int.not_lt.mpr hle] at h
  | swapped hpp => simp [takesEffect, hpp] at h
  | _ => first | exact ⟨rfl, rfl⟩ | simp [takesEffect] at h

/-- The order in which the calls take effect is a sequential run of them with the same map and
the same results. -/
structure Linearized (heap : P → Peer) (calls : List (Call P)) (schedule : List ℕ) : Prop where
  peers : (replay heap calls (order heap calls schedule)).1 =
    (after heap calls schedule).shared.peers
  results : ∀ i d, (i, d) ∈ (replay heap calls (order heap calls schedule)).2 ↔
    ∃ c, (after heap calls schedule).threads[i]? = some c ∧ c.result = some d
  ids : (replay heap calls (order heap calls schedule)).2.map Prod.fst = order heap calls schedule
  /-- Each call takes effect at most once. -/
  nodup : (order heap calls schedule).Nodup

variable {calls : List (Call P)}

theorem order_concat (schedule : List ℕ) (i : ℕ) :
    order heap calls (schedule ++ [i]) = order heap calls schedule ++
      if (after heap calls schedule).threads[i]?.any
        (takesEffect heap (after heap calls schedule).shared) then [i] else [] := by
  rw [order, orderFrom_append]
  exact congrArg _ (append_nil _)

variable {c : Call P}

theorem replay_concat {order : List ℕ} {i : ℕ} (h : calls[i]? = some c) :
    replay heap calls (order ++ [i]) =
      ((atomically heap (replay heap calls order).1 c).1, (replay heap calls order).2 ++
        [(i, (atomically heap (replay heap calls order).1 c).2)]) := by
  rw [replay, foldl_append, foldl_cons, h]
  rfl

omit [DecidableEq P] in
theorem origin_of_new (h : c.isNew) : c.origin = c := by
  cases c <;> first | rfl | cases h

omit [DecidableEq P] in
theorem result_of_new (h : c.isNew) : c.result = none := by
  cases c <;> first | rfl | cases h

theorem getElem?_origin (hnew : ∀ c ∈ calls, c.isNew) {schedule : List ℕ} {i : ℕ}
    (h : (after heap calls schedule).threads[i]? = some c) : calls[i]? = some c.origin := by
  have horigin : (after heap calls schedule).threads.map origin = calls.map origin :=
    origin_after schedule
  have hmap : calls.map origin = calls :=
    (map_congr_left fun c hc => origin_of_new (hnew c hc)).trans (map_id calls)
  rw [← hmap, ← horigin, getElem?_map, h]
  rfl

theorem Linearized.move {schedule : List ℕ} {i : ℕ} {left right : List (Call P)} {c' : Call P}
    {r' : Registry P} (ih : Linearized heap calls schedule) (hnew : ∀ c ∈ calls, c.isNew)
    (hcalls : (after heap calls schedule).threads = left ++ c :: right) (hi : left.length = i)
    (hmove : Moves heap (after heap calls schedule).shared c r' c')
    (heq : after heap calls (schedule ++ [i]) = ⟨r', left ++ c' :: right⟩) :
    Linearized heap calls (schedule ++ [i]) := by
  have hold : (after heap calls schedule).threads[i]? = some c := by
    rw [hcalls, ← hi]
    simp
  have hi' : (after heap calls (schedule ++ [i])).threads[i]? = some c' := by
    rw [heq, ← hi]
    simp
  have hother : ∀ j, j ≠ i → (after heap calls (schedule ++ [i])).threads[j]? =
      (after heap calls schedule).threads[j]? := by
    intro j hj
    have hset : left ++ c' :: right = (left ++ c :: right).set i c' := by
      rw [← hi]
      simp
    rw [heq, hcalls, hset, getElem?_set_ne hj.symm]
  have horder : order heap calls (schedule ++ [i]) = _ := order_concat schedule i
  rw [hold, any_some] at horder
  cases heff : takesEffect heap (after heap calls schedule).shared c with
  | false =>
    -- the call goes on without having decided anything
    obtain ⟨hpeers, hresult⟩ := hmove.frame heff
    rw [heff, if_neg Bool.false_ne_true, append_nil] at horder
    refine ⟨?_, fun j d => ?_, horder ▸ ih.ids, horder ▸ ih.nodup⟩
    · rw [horder, heq, ih.peers, hpeers]
    · rw [horder, ih.results]
      by_cases hj : j = i
      · subst hj
        rw [hi', hold]
        simp only [some.injEq, exists_eq_left', hresult]
      · rw [hother j hj]
  | true =>
    have holder : ∀ peer pp, c = .compareAndSwap peer pp →
        (heap pp).streamID < (heap peer).streamID := by
      rintro peer pp rfl
      exact older_of_compareAndSwap hnew schedule peer pp (mem_of_getElem? hold)
    obtain ⟨d, hatomic, hnone, hsome⟩ := hmove.atomically_eq holder heff
    rw [heff, if_pos rfl] at horder
    have hreplay : replay heap calls (order heap calls schedule ++ [i]) = _ :=
      replay_concat (getElem?_origin hnew hold)
    rw [ih.peers, hatomic] at hreplay
    refine ⟨?_, fun j e => ?_, ?_, ?_⟩
    · rw [horder, hreplay, heq]
    · rw [horder, hreplay, mem_append, ih.results, mem_singleton]
      by_cases hj : j = i
      · subst hj
        rw [hi', hold]
        simp [hnone, hsome, eq_comm]
      · rw [hother j hj]
        simp [hj]
    · rw [horder, hreplay, map_append, ih.ids]
      rfl
    · rw [horder, nodup_append]
      refine ⟨ih.nodup, nodup_singleton i, ?_⟩
      rintro j hj k hk rfl
      rw [mem_singleton] at hk
      rw [← ih.ids] at hj
      obtain ⟨⟨j, e⟩, hmem, rfl⟩ := mem_map.mp hj
      obtain ⟨b, hb, he⟩ := (ih.results _ _).mp hmem
      obtain rfl : j = i := hk
      rw [hold] at hb
      obtain rfl := some.inj hb
      rw [hnone] at he
      cases he

/-- **The registry is linearizable.** -/
theorem linearized (hnew : ∀ c ∈ calls, c.isNew) (schedule : List ℕ) :
    Linearized heap calls schedule := by
  induction schedule using reverseRecOn with
  | nil =>
    refine ⟨rfl, fun i d => ⟨fun h => (not_mem_nil h).elim, ?_⟩, rfl, nodup_nil⟩
    rintro ⟨c, hc, hd⟩
    rw [result_of_new (hnew c (mem_of_getElem? hc))] at hd
    cases hd
  | append_singleton schedule i ih =>
    rcases after_concat_cases heap calls schedule i with
      ⟨hnone, heq⟩ | ⟨left, c, right, r', c', hcalls, hi, hmove, heq⟩
    · have hsame : order heap calls (schedule ++ [i]) = order heap calls schedule := by
        rw [order_concat, hnone]
        exact append_nil _
      refine ⟨?_, ?_, ?_, ?_⟩
      all_goals rw [hsame]
      · rw [heq, ih.peers]
      · rw [heq]
        exact ih.results
      · exact ih.ids
      · exact ih.nodup
    · exact ih.move hnew hcalls hi hmove heq

end Order

/-! ### Newest stream wins -/

section Main

variable {P : Type} [DecidableEq P]

variable {heap : P → Peer} {calls : List (Call P)} {schedule : List ℕ} {i : ℕ}

/-- The operation that puts another stream in place of one puts a newer one there. -/
theorem newer_of_replaces (hnew : ∀ c ∈ calls, c.isNew) {id : String} {p q : P}
    (hp : (after heap calls schedule).shared.peers.lookup id = some p)
    (hq : (after heap calls (schedule ++ [i])).shared.peers.lookup id = some q) (hne : q ≠ p) :
    (heap p).streamID < (heap q).streamID := by
  rcases after_concat_cases heap calls schedule i with
    ⟨-, heq⟩ | ⟨left, c, right, r', c', hcalls, -, hmove, heq⟩
  · exact absurd (some.inj ((heq ▸ hq).symm.trans hp)) hne
  · rw [heq] at hq
    rcases hmove.lookup_cases hq with ⟨-, -, -, -, hswap⟩ | ⟨hold, -⟩
    · obtain ⟨rfl, rfl⟩ := hswap p hp
      exact older_of_compareAndSwap hnew schedule _ _ (by simp [hcalls])
    · exact absurd (some.inj (hold.symm.trans hp)) hne

/-- What the registry promises after a schedule of the calls. -/
structure NewestStreamWins (heap : P → Peer) (calls : List (Call P)) (schedule : List ℕ) : Prop where
  linearized : Linearized heap calls schedule
  /-- What has taken effect stays where it is in the order. -/
  order_prefix : ∀ rest, order heap calls schedule <+: order heap calls (schedule ++ rest)
  /-- The next operation leaves the stream of an id as it is or puts a newer one in its place. -/
  newer : ∀ i id p q, (after heap calls schedule).shared.peers.lookup id = some p →
    (after heap calls (schedule ++ [i])).shared.peers.lookup id = some q →
      q = p ∨ (heap p).streamID < (heap q).streamID
  cancelled_le_one : ∀ p, (after heap calls schedule).shared.cancelled.count p ≤ 1
  replaced_of_cancelled : ∀ p ∈ (after heap calls schedule).shared.cancelled,
    Replaced heap calls schedule p
  /-- When no call is under way, every stream that was replaced has been cancelled. -/
  cancelled_of_replaced : (∀ c ∈ (after heap calls schedule).threads, c.isNew ∨ c.returned) →
    ∀ p, Replaced heap calls schedule p → (after heap calls schedule).shared.cancelled.count p = 1
  deregister_replaced : ∀ i p, Replaced heap calls schedule p →
    (after heap calls schedule).threads[i]? = some (.compareAndDelete p) →
      (after heap calls (schedule ++ [i])).shared.peers =
        (after heap calls schedule).shared.peers
  alreadyRegistered : ∀ i peer,
    (after heap calls schedule).threads[i]? ≠ some (.alreadyRegistered peer) →
    (after heap calls (schedule ++ [i])).threads[i]? = some (.alreadyRegistered peer) →
      ∃ pp, (after heap calls schedule).shared.peers.lookup (heap peer).id = some pp ∧
        (heap peer).streamID ≤ (heap pp).streamID
  activePeers : (∀ c ∈ (after heap calls schedule).threads, c.isNew ∨ c.returned) →
    (after heap calls schedule).shared.activePeers =
      (after heap calls schedule).shared.peers.keys.length

/-- **The registry is linearizable to "newest stream wins"**, for every interleaving of the
operations of any calls that each register a stream of their own. -/
theorem registry_newest_stream_wins (heap : P → Peer) (calls : List (Call P))
    (hnew : ∀ c ∈ calls, c.isNew) (hdistinct : (calls.filterMap Call.registers).Nodup)
    (schedule : List ℕ) : NewestStreamWins heap calls schedule := by
  have hs : Sound heap calls schedule := sound hnew hdistinct schedule
  refine ⟨linearized hnew schedule, ?_, ?_, ?_, ?_, ?_, ?_, ?_, ?_⟩
  · intro rest
    rw [order, order, orderFrom_append]
    exact prefix_append _ _
  · intro i id p q hp hq
    by_cases hne : q = p
    · exact .inl hne
    · exact .inr (newer_of_replaces hnew hp hq hne)
  · intro p
    by_cases hp : Replaced heap calls schedule p
    · have := hs.cancelled p hp
      omega
    · have := hs.notCancelled p hp
      omega
  · intro p hp
    by_contra hnot
    have := hs.notCancelled p hnot
    have := count_pos_iff.mpr hp
    omega
  · intro h p hp
    have := hs.cancelled p hp
    rw [countP_eq_zero_of (p := cancels p) ?_ h] at this
    · exact this
    · rintro (_ | _) <;> simp [isNew, returned, cancels]
  · -- `Deregister` of a stream that is not registered removes nothing
    intro i p hp hi
    rw [after, Pool.run_concat, Pool.step_of_some (by exact hi), ← after]
    simp only [advance, if_neg fun h => hs.apart _ p h hp]
  · -- `Register` returns `ErrPeerAlreadyRegistered` because of what it has just found
    intro i peer hbefore hafter
    rcases after_concat_cases heap calls schedule i with
      ⟨hnone, heq⟩ | ⟨left, c, right, r', c', hcalls, rfl, hmove, heq⟩
    · exact absurd (heq ▸ hafter) hbefore
    · obtain rfl : c' = .alreadyRegistered peer := by simpa [heq] using hafter
      cases hmove with
      | refused h hle => exact ⟨_, h, hle⟩
      | done _ => exact absurd (by simp [hcalls]) hbefore
  · intro h
    have : (after heap calls schedule).shared.activePeers + _ = _ :=
      activePeers_after hnew schedule
    rw [countP_eq_zero_of (p := countsUp) ?_ h, countP_eq_zero_of (p := countsDown) ?_ h] at this
    · simpa using this
    · rintro (_ | _) <;> simp [isNew, returned, countsDown]
    · rintro (_ | _) <;> simp [isNew, returned, countsUp]

/-- Two streams of one peer: the second replaces the first, which is deregistered after that. -/
theorem reconnect_newest_stream_wins :
    let heap : Bool → Peer := fun second => ⟨"a", if second then 20 else 10⟩
    let calls : List (Call Bool) :=
      [.loadOrStore false, .loadOrStore true, .compareAndDelete false]
    let schedule := [0, 1, 1, 2, 0, 1]
    (after heap calls schedule).shared.peers.lookup "a" = some true ∧
      (after heap calls schedule).shared.activePeers = 1 ∧
      (after heap calls schedule).shared.cancelled = [false] ∧
      NewestStreamWins heap calls schedule := by
  intro heap calls schedule
  refine ⟨rfl, rfl, rfl, registry_newest_stream_wins heap calls ?_ ?_ schedule⟩
  · decide
  · decide

end Main

end Netbird.Signal
