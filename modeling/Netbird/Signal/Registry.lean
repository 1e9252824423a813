/-
The registry of the signal server: which stream is the current one of each peer
(`signal/peer/peer.go`).

`Register` and `Deregister` take no lock.  They are loops over the atomic operations
`LoadOrStore`, `CompareAndSwap` and `CompareAndDelete` of one `sync.Map`, with the cancel
function of a replaced stream and the metrics called after the operation that decided.  A
call is a thread of a `Pool`, one step of it is one of these operations, and what is
proved here holds after every schedule of any list of calls:

* `Moves` — what one operation can do, from which the rest is derived;
* `sound` — a stream that gave way does not come back, and its cancellation is done or due,
  once.
-/
import Netbird.Lib.Pool
import Mathlib.Data.List.Count
import Netbird.Lib.Keyed

namespace Netbird.Signal

open List Keyed

/-- The fields of a `Peer` that the registry reads. A stream is a pointer to such a value, and
two streams are the same if the pointers are. -/
structure Peer where
  id : String
  streamID : Int

/-- Where a call of `Register` or `Deregister` stands: the operation it does next, or what it
returned. -/
inductive Call (P : Type) where
  | loadOrStore (peer : P)
  /-- `Register` has found an older stream `pp` in the map. -/
  | compareAndSwap (peer pp : P)
  /-- `Register` has replaced `pp` and has to call `pp.Cancel`. -/
  | cancel (peer pp : P)
  /-- `Register` has stored the stream and has to update the metrics. -/
  | countRegistration (peer : P)
  | registered (peer : P)
  /-- `Register` returned `ErrPeerAlreadyRegistered`. -/
  | alreadyRegistered (peer : P)
  | compareAndDelete (peer : P)
  | countDeregistration (peer : P)
  | deregistered (peer : P)

/-- The registry with its metrics, and the streams whose cancel function was called. -/
structure Registry (P : Type) where
  peers : AList fun _ : String => P
  activePeers : Int
  registrations : ℕ
  deregistrations : ℕ
  cancelled : List P

namespace Call

variable {P : Type}

def registers : Call P → Option P
  | loadOrStore peer | compareAndSwap peer _ | cancel peer _ | countRegistration peer
  | registered peer | alreadyRegistered peer => some peer
  | compareAndDelete _ | countDeregistration _ | deregistered _ => none

/-- The stream that the call has put into the map. -/
def entered : Call P → Option P
  | cancel peer _ | countRegistration peer | registered peer => some peer
  | _ => none

def origin : Call P → Call P
  | loadOrStore peer | compareAndSwap peer _ | cancel peer _ | countRegistration peer
  | registered peer | alreadyRegistered peer => loadOrStore peer
  | compareAndDelete peer | countDeregistration peer | deregistered peer => compareAndDelete peer

/-- What the call will return, once that is decided. -/
def result : Call P → Option (Call P)
  | cancel peer _ | countRegistration peer | registered peer => some (registered peer)
  | alreadyRegistered peer => some (alreadyRegistered peer)
  | countDeregistration peer | deregistered peer => some (deregistered peer)
  | loadOrStore _ | compareAndSwap _ _ | compareAndDelete _ => none

/-- The call has not done its first operation yet. -/
def isNew : Call P → Bool
  | loadOrStore _ | compareAndDelete _ => true
  | _ => false

def returned : Call P → Bool
  | registered _ | alreadyRegistered _ | deregistered _ => true
  | _ => false

def countsUp : Call P → Bool
  | countRegistration _ => true
  | _ => false

def countsDown : Call P → Bool
  | countDeregistration _ => true
  | _ => false

/-- The call is about to cancel the stream. -/
def cancels [DecidableEq P] (p : P) : Call P → Bool
  | cancel _ pp => pp = p
  | _ => false

end Call

section Operations

variable {P : Type} [DecidableEq P] (heap : P → Peer)

def advance (r : Registry P) : Call P → Registry P × Call P
  | .loadOrStore peer =>
    match r.peers.lookup (heap peer).id with
    | none => ({ r with peers := r.peers.insert (heap peer).id peer }, .countRegistration peer)
    | some pp =>
      if (heap peer).streamID > (heap pp).streamID then (r, .compareAndSwap peer pp)
      else (r, .alreadyRegistered peer)
  | .compareAndSwap peer pp =>
    if r.peers.lookup (heap peer).id = some pp then
      ({ r with peers := r.peers.insert (heap peer).id peer }, .cancel peer pp)
    else (r, .loadOrStore peer)
  | .cancel peer pp => ({ r with cancelled := r.cancelled ++ [pp] }, .registered peer)
  | .countRegistration peer =>
    ({ r with activePeers := r.activePeers + 1, registrations := r.registrations + 1 },
      .registered peer)
  | .compareAndDelete peer =>
    if r.peers.lookup (heap peer).id = some peer then
      ({ r with peers := r.peers.erase (heap peer).id }, .countDeregistration peer)
    else (r, .deregistered peer)
  | .countDeregistration peer =>
    ({ r with activePeers := r.activePeers - 1, deregistrations := r.deregistrations + 1 },
      .deregistered peer)
  | .registered peer => (r, .registered peer)
  | .alreadyRegistered peer => (r, .alreadyRegistered peer)
  | .deregistered peer => (r, .deregistered peer)

def newRegistry : Registry P := ⟨∅, 0, 0, 0, []⟩

/-- The calls are made on a new registry and none has done anything yet. -/
def start (calls : List (Call P)) : Pool (Registry P) (Call P) := ⟨newRegistry, calls⟩

def after (calls : List (Call P)) (schedule : List ℕ) : Pool (Registry P) (Call P) :=
  (start calls).run (advance heap) schedule

/-- During the schedule the stream was registered and the next operation put another one in its
place. -/
def Replaced (calls : List (Call P)) (schedule : List ℕ) (p : P) : Prop :=
  ∃ before i rest id q, schedule = before ++ i :: rest ∧
    (after heap calls before).shared.peers.lookup id = some p ∧
    (after heap calls (before ++ [i])).shared.peers.lookup id = some q ∧ q ≠ p

end Operations

/-! ### One operation -/

section Moves

variable {P : Type} [DecidableEq P] (heap : P → Peer)

/-- What the next operation of a call can do. -/
inductive Moves (r : Registry P) : Call P → Registry P → Call P → Prop where
  | stored {peer : P} (h : r.peers.lookup (heap peer).id = none) :
      Moves r (.loadOrStore peer) { r with peers := r.peers.insert (heap peer).id peer }
        (.countRegistration peer)
  | newer {peer pp : P} (h : r.peers.lookup (heap peer).id = some pp)
      (hlt : (heap pp).streamID < (heap peer).streamID) :
      Moves r (.loadOrStore peer) r (.compareAndSwap peer pp)
  | refused {peer pp : P} (h : r.peers.lookup (heap peer).id = some pp)
      (hle : (heap peer).streamID ≤ (heap pp).streamID) :
      Moves r (.loadOrStore peer) r (.alreadyRegistered peer)
  | swapped {peer pp : P} (h : r.peers.lookup (heap peer).id = some pp) :
      Moves r (.compareAndSwap peer pp) { r with peers := r.peers.insert (heap peer).id peer }
        (.cancel peer pp)
  | retried {peer pp : P} (h : r.peers.lookup (heap peer).id ≠ some pp) :
      Moves r (.compareAndSwap peer pp) r (.loadOrStore peer)
  | cancelled {peer pp : P} :
      Moves r (.cancel peer pp) { r with cancelled := r.cancelled ++ [pp] } (.registered peer)
  | counted {peer : P} :
      Moves r (.countRegistration peer)
        { r with activePeers := r.activePeers + 1, registrations := r.registrations + 1 }
        (.registered peer)
  | deleted {peer : P} (h : r.peers.lookup (heap peer).id = some peer) :
      Moves r (.compareAndDelete peer) { r with peers := r.peers.erase (heap peer).id }
        (.countDeregistration peer)
  | missed {peer : P} (h : r.peers.lookup (heap peer).id ≠ some peer) :
      Moves r (.compareAndDelete peer) r (.deregistered peer)
  | uncounted {peer : P} :
      Moves r (.countDeregistration peer)
        { r with activePeers := r.activePeers - 1, deregistrations := r.deregistrations + 1 }
        (.deregistered peer)
  | done {c : Call P} (h : c.returned) : Moves r c r c

variable {heap} in
theorem moves_advance (r : Registry P) (c : Call P) :
    Moves heap r c (advance heap r c).1 (advance heap r c).2 := by
  cases c with
  | loadOrStore peer =>
    simp only [advance]
    split
    next h => exact .stored h
    next pp h =>
      split_ifs with hlt
      · exact .newer h hlt
      · exact .refused h (Int.not_lt.mp hlt)
  | compareAndSwap peer pp =>
    simp only [advance]
    split_ifs with h
    · exact .swapped h
    · exact .retried h
  | compareAndDelete peer =>
    simp only [advance]
    split_ifs with h
    · exact .deleted h
    · exact .missed h
  | cancel peer pp => exact .cancelled
  | countRegistration peer => exact .counted
  | countDeregistration peer => exact .uncounted
  | registered peer => exact .done rfl
  | alreadyRegistered peer => exact .done rfl
  | deregistered peer => exact .done rfl

variable (calls : List (Call P)) (schedule : List ℕ) (i : ℕ)

theorem after_concat_cases : ((after heap calls schedule).threads[i]? = none ∧
        after heap calls (schedule ++ [i]) = after heap calls schedule) ∨
      ∃ left c right r' c', (after heap calls schedule).threads = left ++ c :: right ∧
        left.length = i ∧ Moves heap (after heap calls schedule).shared c r' c' ∧
        after heap calls (schedule ++ [i]) = ⟨r', left ++ c' :: right⟩ := by
  have hconcat : after heap calls (schedule ++ [i]) =
      Pool.step (advance heap) (after heap calls schedule) i := Pool.run_concat _ _ _
  rw [hconcat]
  rcases Pool.step_cases (advance heap) (after heap calls schedule) i with
    h | ⟨left, c, right, hcalls, hi, hstep⟩
  · exact .inl h
  · exact .inr ⟨left, c, right, _, _, hcalls, hi, moves_advance _ _, hstep⟩

theorem replaced_concat {p : P} :
    Replaced heap calls (schedule ++ [i]) p ↔ Replaced heap calls schedule p ∨
      ∃ id q, (after heap calls schedule).shared.peers.lookup id = some p ∧
        (after heap calls (schedule ++ [i])).shared.peers.lookup id = some q ∧ q ≠ p := by
  constructor
  · rintro ⟨before, j, rest, id, q, heq, hbefore, hafter, hne⟩
    rcases eq_nil_or_concat rest with rfl | ⟨rest, k, rfl⟩
    · obtain ⟨rfl, hij⟩ := append_inj' heq rfl
      obtain rfl : i = j := head_eq_of_cons_eq hij
      exact .inr ⟨id, q, hbefore, hafter, hne⟩
    · rw [concat_eq_append, ← cons_append, ← append_assoc] at heq
      obtain ⟨rfl, -⟩ := append_inj' heq rfl
      exact .inl ⟨before, j, rest, id, q, rfl, hbefore, hafter, hne⟩
  · rintro (⟨before, j, rest, id, q, rfl, hbefore, hafter, hne⟩ | ⟨id, q, hbefore, hafter, hne⟩)
    · exact ⟨before, j, rest ++ [i], id, q, by simp, hbefore, hafter, hne⟩
    · exact ⟨schedule, i, [], id, q, rfl, hbefore, hafter, hne⟩

end Moves

/-! ### What holds in every state -/

section Invariants

variable {P : Type} {heap : P → Peer} {calls : List (Call P)} {r r' : Registry P} {c c' : Call P}

theorem Moves.origin_eq (h : Moves heap r c r' c') : c'.origin = c.origin := by
  cases h <;> rfl

/-- A stream that is in the map after an operation was put there by it, in a swap if there was one
in its place, or was there before and has not been swapped away. -/
theorem Moves.lookup_cases (hmove : Moves heap r c r' c') {id : String} {p : P}
    (h : r'.peers.lookup id = some p) :
    (c.registers = some p ∧ c.entered = none ∧ c'.entered = some p ∧ (heap p).id = id ∧
      ∀ pp, r.peers.lookup id = some pp → c = .compareAndSwap p pp ∧ c' = .cancel p pp) ∨
      (r.peers.lookup id = some p ∧
        ∀ peer pp, c = .compareAndSwap peer pp → c' = .cancel peer pp → id ≠ (heap peer).id) := by
  cases hmove with
  | @stored peer hnone =>
    rw [lookup_insert_eq_some] at h
    rcases h with ⟨rfl, rfl⟩ | ⟨hid, h⟩
    · exact .inl ⟨rfl, rfl, rfl, rfl, fun pp hpp => nomatch hnone.symm.trans hpp⟩
    · exact .inr ⟨h, by rintro _ _ ⟨⟩⟩
  | @swapped peer pp hold =>
    rw [lookup_insert_eq_some] at h
    rcases h with ⟨rfl, rfl⟩ | ⟨hid, h⟩
    · refine .inl ⟨rfl, rfl, rfl, rfl, fun pp hpp => ?_⟩
      cases hold.symm.trans hpp
      exact ⟨rfl, rfl⟩
    · refine .inr ⟨h, ?_⟩
      rintro _ _ ⟨⟩ _
      exact hid
  | @deleted peer _ =>
    by_cases hid : id = (heap peer).id
    · rw [hid, AList.lookup_erase] at h
      cases h
    · rw [AList.lookup_erase_ne hid] at h
      exact .inr ⟨h, by rintro _ _ ⟨⟩⟩
  | done hreturned =>
    refine .inr ⟨h, ?_⟩
    rintro _ _ rfl ⟨⟩
  | _ => exact .inr ⟨h, by rintro _ _ ⟨⟩ ⟨⟩⟩

variable [DecidableEq P]

theorem after_invariant {Q : Registry P → List (Call P) → Prop} (hstart : Q newRegistry calls)
    (hmove : ∀ r left c right r' c', Q r (left ++ c :: right) → Moves heap r c r' c' →
      Q r' (left ++ c' :: right)) (schedule : List ℕ) :
    Q (after heap calls schedule).shared (after heap calls schedule).threads := by
  induction schedule using reverseRecOn with
  | nil => exact hstart
  | append_singleton schedule i ih =>
    rcases after_concat_cases heap calls schedule i with
      ⟨-, heq⟩ | ⟨left, c, right, r', c', hcalls, -, hm, heq⟩
    · exact heq ▸ ih
    · rw [heq]
      exact hmove _ left c right r' c' (hcalls ▸ ih) hm

theorem lookup_own_id (schedule : List ℕ) :
    ∀ id p, (after heap calls schedule).shared.peers.lookup id = some p → (heap p).id = id := by
  refine after_invariant (Q := fun r _ => ∀ id p, r.peers.lookup id = some p → (heap p).id = id)
    (fun id p h => absurd h (by simp [newRegistry])) ?_ schedule
  intro r left c right r' c' ih hmove id p h
  rcases hmove.lookup_cases h with ⟨-, -, -, hid, -⟩ | ⟨hold, -⟩
  · exact hid
  · exact ih id p hold

theorem origin_after (schedule : List ℕ) :
    (after heap calls schedule).threads.map Call.origin = calls.map Call.origin := by
  refine after_invariant (Q := fun _ cs => cs.map Call.origin = calls.map Call.origin) rfl ?_
    schedule
  intro r left c right r' c' ih hmove
  rw [map_append, map_cons] at ih ⊢
  rw [hmove.origin_eq, ih]

/-- A call that is about to swap holds a newer stream than the one it has found. -/
theorem older_of_compareAndSwap (hnew : ∀ c ∈ calls, c.isNew) (schedule : List ℕ) :
    ∀ peer pp, .compareAndSwap peer pp ∈ (after heap calls schedule).threads →
      (heap pp).streamID < (heap peer).streamID := by
  refine after_invariant (Q := fun _ cs => ∀ peer pp, .compareAndSwap peer pp ∈ cs →
    (heap pp).streamID < (heap peer).streamID) ?_ ?_ schedule
  · intro peer pp h
    exact absurd (hnew _ h) (by simp [Call.isNew])
  · intro r left c right r' c' ih hmove peer pp h
    rw [mem_append, mem_cons] at h
    rcases h with h | rfl | h
    · exact ih peer pp (mem_append_left _ h)
    · cases hmove with
      | newer _ hlt => exact hlt
      | done _ => exact ih peer pp (by simp)
    · exact ih peer pp (mem_append_right _ (mem_cons_of_mem _ h))

omit [DecidableEq P] in
theorem countP_eq_zero_of {A : Call P → Prop} {p : Call P → Bool} (hp : ∀ c, A c → p c = false)
    (h : ∀ c ∈ calls, A c) : calls.countP p = 0 := by
  rw [countP_eq_zero]
  intro c hc
  rw [hp c (h c hc)]
  exact Bool.false_ne_true

/-- The metric lags behind the map by the calls that have not counted yet. -/
theorem activePeers_after (hnew : ∀ c ∈ calls, c.isNew) (schedule : List ℕ) :
    (after heap calls schedule).shared.activePeers +
        (after heap calls schedule).threads.countP Call.countsUp =
      (after heap calls schedule).shared.peers.keys.length +
        (after heap calls schedule).threads.countP Call.countsDown := by
  refine after_invariant (Q := fun r cs => r.activePeers + cs.countP Call.countsUp =
    r.peers.keys.length + cs.countP Call.countsDown) ?_ ?_ schedule
  · have hup : calls.countP Call.countsUp = 0 :=
      countP_eq_zero_of (by rintro (_ | _) <;> simp [Call.isNew, Call.countsUp]) hnew
    have hdown : calls.countP Call.countsDown = 0 :=
      countP_eq_zero_of (by rintro (_ | _) <;> simp [Call.isNew, Call.countsDown]) hnew
    rw [hup, hdown]
    rfl
  · intro r left c right r' c' ih hmove
    -- the keys of a map without the one of the call, and that one
    have hlength : ∀ m : AList fun _ : String => P, m.keys.length = total (fun _ => 1) m :=
      fun m => by simp [total, AList.keys, List.keys]
    have herase := fun id => total_erase (fun _ => 1) r.peers id
    simp only [countP_append, countP_cons, hlength] at ih ⊢
    cases hmove
    case stored peer h | swapped peer pp h | deleted peer h =>
      have := herase (heap peer).id
      simp only [h, total_insert, Option.elim, Call.countsUp, Call.countsDown] at *
      push_cast at ih ⊢
      omega
    all_goals
      simp only [Call.countsUp, Call.countsDown] at ih ⊢
      push_cast at ih ⊢
      omega

end Invariants

/-! ### Streams that gave way -/

section Replacement

variable {P : Type} {heap : P → Peer} {calls : List (Call P)} {r r' : Registry P} {c c' : Call P}

theorem Call.registers_origin (c : Call P) : c.origin.registers = c.registers := by
  cases c <;> rfl

variable {p : P}

theorem Call.registers_of_entered (h : c.entered = some p) : c.registers = some p := by
  cases c <;> first | exact h | cases h

/-- While a call has still to put its stream into the map, no call has put it there. -/
theorem not_entered {left right : List (Call P)}
    (hdistinct : ((left ++ c :: right).filterMap Call.registers).Nodup)
    (hc : c.registers = some p) (hc' : c.entered = none) :
    ¬ ∃ d ∈ left ++ c :: right, d.entered = some p := by
  rintro ⟨d, hd, hp⟩
  have hreg : ∀ l : List (Call P), d ∈ l → p ∈ l.filterMap Call.registers := fun l hl =>
    mem_filterMap.mpr ⟨d, hl, Call.registers_of_entered hp⟩
  rw [filterMap_append, filterMap_cons_some hc] at hdistinct
  have hdisj := nodup_middle.mp hdistinct
  rw [nodup_cons, mem_append] at hdisj
  rw [mem_append, mem_cons] at hd
  rcases hd with hd | rfl | hd
  · exact hdisj.1 (.inl (hreg left hd))
  · rw [hc'] at hp
    cases hp
  · exact hdisj.1 (.inr (hreg right hd))

/-- A registered stream gives way only to a swap. -/
theorem Moves.replaces_iff (hmove : Moves heap r c r' c')
    (hne : ∀ peer pp, c = .compareAndSwap peer pp → peer ≠ pp) :
    (∃ id q, r.peers.lookup id = some p ∧ r'.peers.lookup id = some q ∧ q ≠ p) ↔
      ∃ peer, c = .compareAndSwap peer p ∧ c' = .cancel peer p := by
  constructor
  · rintro ⟨id, q, hp, hq, hqp⟩
    rcases hmove.lookup_cases hq with ⟨-, -, -, -, hswap⟩ | ⟨hold, -⟩
    · exact ⟨q, hswap p hp⟩
    · exact absurd (Option.some.inj (hold.symm.trans hp)) hqp
  · rintro ⟨peer, rfl, rfl⟩
    cases hmove with
    | swapped h =>
      exact ⟨(heap peer).id, peer, h, AList.lookup_insert _, hne peer p rfl⟩

theorem Moves.entered_of (hmove : Moves heap r c r' c') (h : c.entered = some p) :
    c'.entered = some p := by
  cases hmove <;> first | exact h | cases h

variable [DecidableEq P]

theorem registers_after (schedule : List ℕ) :
    (after heap calls schedule).threads.filterMap Call.registers =
      calls.filterMap Call.registers := by
  have hcomp : Call.registers ∘ Call.origin = (Call.registers : Call P → Option P) :=
    funext Call.registers_origin
  have horigin : (after heap calls schedule).threads.map Call.origin = calls.map Call.origin :=
    origin_after schedule
  have h := congrArg (filterMap Call.registers) horigin
  rwa [filterMap_map, filterMap_map, hcomp] at h

/-- Only a swap adds to the cancellations that are done or due. -/
theorem Moves.cancels_cases (hmove : Moves heap r c r' c') (left right : List (Call P)) :
    (∃ peer, c = .compareAndSwap peer p ∧ c' = .cancel peer p) ∧
      r'.cancelled.count p + (left ++ c' :: right).countP (Call.cancels p) =
        r.cancelled.count p + (left ++ c :: right).countP (Call.cancels p) + 1 ∨
    (¬ ∃ peer, c = .compareAndSwap peer p ∧ c' = .cancel peer p) ∧
      r'.cancelled.count p + (left ++ c' :: right).countP (Call.cancels p) =
        r.cancelled.count p + (left ++ c :: right).countP (Call.cancels p) := by
  cases hmove with
  | @swapped peer pp _ =>
    by_cases hpp : pp = p <;> simp [Call.cancels, hpp]
    omega
  | @cancelled peer pp =>
    by_cases hpp : pp = p <;> simp [Call.cancels, hpp]
    omega
  | done _ => exact .inr ⟨by rintro ⟨_, rfl, ⟨⟩⟩, rfl⟩
  | _ => simp [Call.cancels]

/-- What a schedule leaves behind, for calls that each register a stream of their own. -/
structure Sound (heap : P → Peer) (calls : List (Call P)) (schedule : List ℕ) : Prop where
  /-- A stream that is or was in the map was put there by its call. -/
  entered : ∀ p, ((∃ id, (after heap calls schedule).shared.peers.lookup id = some p) ∨
    Replaced heap calls schedule p) →
      ∃ c ∈ (after heap calls schedule).threads, c.entered = some p
  /-- A stream that gave way does not come back. -/
  apart : ∀ id p, (after heap calls schedule).shared.peers.lookup id = some p →
    ¬ Replaced heap calls schedule p
  cancelled : ∀ p, Replaced heap calls schedule p →
    (after heap calls schedule).shared.cancelled.count p +
      (after heap calls schedule).threads.countP (Call.cancels p) = 1
  notCancelled : ∀ p, ¬ Replaced heap calls schedule p →
    (after heap calls schedule).shared.cancelled.count p +
      (after heap calls schedule).threads.countP (Call.cancels p) = 0

theorem Sound.move {schedule : List ℕ} {i : ℕ} {left right : List (Call P)}
    (ih : Sound heap calls schedule) (hnew : ∀ c ∈ calls, c.isNew)
    (hdistinct : (calls.filterMap Call.registers).Nodup)
    (hcalls : (after heap calls schedule).threads = left ++ c :: right)
    (hmove : Moves heap (after heap calls schedule).shared c r' c')
    (heq : after heap calls (schedule ++ [i]) = ⟨r', left ++ c' :: right⟩) :
    Sound heap calls (schedule ++ [i]) := by
  have hswap : ∀ peer pp, c = .compareAndSwap peer pp → peer ≠ pp := by
    rintro peer pp rfl rfl
    have hmem : .compareAndSwap peer peer ∈ (after heap calls schedule).threads := by simp [hcalls]
    exact Int.lt_irrefl _ (older_of_compareAndSwap hnew schedule _ _ hmem)
  have hrep : ∀ p, Replaced heap calls (schedule ++ [i]) p ↔ Replaced heap calls schedule p ∨
      ∃ peer, c = .compareAndSwap peer p ∧ c' = .cancel peer p := by
    intro p
    rw [replaced_concat, heq, hmove.replaces_iff hswap]
  have hfound : ∀ peer p, c = .compareAndSwap peer p → c' = .cancel peer p →
      (after heap calls schedule).shared.peers.lookup (heap peer).id = some p := by
    rintro peer p rfl rfl
    cases hmove with
    | swapped h => exact h
  -- a call that is still to put its stream into the map has not done so, nor has any other
  have hfresh : ∀ p, c.registers = some p → c.entered = none →
      (∀ id, (after heap calls schedule).shared.peers.lookup id ≠ some p) ∧
        ¬ Replaced heap calls schedule p := by
    intro p hreg hent
    have hnodup : ((left ++ c :: right).filterMap Call.registers).Nodup := by
      rw [← hcalls, registers_after]
      exact hdistinct
    have hnone := not_entered hnodup hreg hent
    rw [← hcalls] at hnone
    exact ⟨fun id h => hnone (ih.entered p (.inl ⟨id, h⟩)),
      fun h => hnone (ih.entered p (.inr h))⟩
  have hentered : ∀ p, (∃ d ∈ (after heap calls schedule).threads, d.entered = some p) →
      ∃ d ∈ left ++ c' :: right, d.entered = some p := by
    rintro p ⟨d, hd, hp⟩
    rw [hcalls, mem_append, mem_cons] at hd
    rcases hd with hd | rfl | hd
    · exact ⟨d, by simp [hd], hp⟩
    · exact ⟨c', by simp, hmove.entered_of hp⟩
    · exact ⟨d, by simp [hd], hp⟩
  refine ⟨?_, ?_, ?_, ?_⟩
  · simp only [heq, hrep]
    rintro p (⟨id, h⟩ | h | ⟨peer, hc, hc'⟩)
    · rcases hmove.lookup_cases h with ⟨-, -, hnow, -⟩ | ⟨hold, -⟩
      · exact ⟨c', by simp, hnow⟩
      · exact hentered p (ih.entered p (.inl ⟨id, hold⟩))
    · exact hentered p (ih.entered p (.inr h))
    · exact hentered p (ih.entered p (.inl ⟨_, hfound peer p hc hc'⟩))
  · simp only [heq, hrep]
    rintro id p h (hgone | ⟨peer, hc, hc'⟩)
    · rcases hmove.lookup_cases h with ⟨hreg, hent, -⟩ | ⟨hold, -⟩
      · exact (hfresh p hreg hent).2 hgone
      · exact ih.apart id p hold hgone
    · rcases hmove.lookup_cases h with ⟨hreg, hent, -⟩ | ⟨hold, hstays⟩
      · exact (hfresh p hreg hent).1 _ (hfound peer p hc hc')
      · refine hstays peer p hc hc' ?_
        rw [← lookup_own_id schedule _ _ hold, lookup_own_id schedule _ _ (hfound peer p hc hc')]
  · intro p h
    rw [hrep] at h
    rw [heq]
    rcases hmove.cancels_cases left right with ⟨⟨peer, hc, hc'⟩, hsum⟩ | ⟨hnot, hsum⟩
    · rw [hsum, ← hcalls, ih.notCancelled p (ih.apart _ p (hfound peer p hc hc'))]
    · rw [hsum, ← hcalls, ih.cancelled p (h.resolve_right hnot)]
  · intro p h
    rw [hrep, not_or] at h
    rw [heq]
    rcases hmove.cancels_cases left right with ⟨hnow, -⟩ | ⟨-, hsum⟩
    · exact absurd hnow h.2
    · rw [hsum, ← hcalls, ih.notCancelled p h.1]

theorem sound (hnew : ∀ c ∈ calls, c.isNew) (hdistinct : (calls.filterMap Call.registers).Nodup)
    (schedule : List ℕ) : Sound heap calls schedule := by
  induction schedule using reverseRecOn with
  | nil =>
    have hnone : ∀ p, ¬ Replaced heap calls [] p := by
      rintro p ⟨before, i, rest, id, q, heq, -⟩
      exact absurd heq.symm (by simp)
    refine ⟨?_, ?_, fun p h => absurd h (hnone p), fun p _ => ?_⟩
    · rintro p (⟨id, h⟩ | h)
      · cases h
      · exact absurd h (hnone p)
    · intro id p h
      cases h
    · have hpending : calls.countP (Call.cancels p) = 0 :=
        countP_eq_zero_of (by rintro (_ | _) <;> simp [Call.isNew, Call.cancels]) hnew
      change [].count p + calls.countP (Call.cancels p) = 0
      rw [hpending]
      rfl
  | append_singleton schedule i ih =>
    rcases after_concat_cases heap calls schedule i with
      ⟨-, heq⟩ | ⟨left, c, right, r', c', hcalls, -, hmove, heq⟩
    · have hrep : ∀ p, Replaced heap calls (schedule ++ [i]) p ↔ Replaced heap calls schedule p := by
        intro p
        rw [replaced_concat, heq, or_iff_left]
        rintro ⟨id, q, hp, hq, hne⟩
        exact hne (Option.some.inj (hq.symm.trans hp))
      refine ⟨?_, ?_, ?_, ?_⟩
      all_goals simp only [heq, hrep]
      · exact ih.entered
      · exact ih.apart
      · exact ih.cancelled
      · exact ih.notCancelled
    · exact ih.move hnew hdistinct hcalls hmove heq

end Replacement

end Netbird.Signal
