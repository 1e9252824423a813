/-
Connects, disconnects and subscriptions on a relay server.

`Relay.Accept` stores a connection, announces it, lets it work and, if it is still the
stored connection of its peer when it ends, removes it and announces that the peer is
gone.  The store, the notifier and each listener have locks of their own, so every one of
these is an atomic step and the steps of different connections interleave.

A peer that reconnects between the removal of its old connection and its announcement is reported
as gone while it is connected.  A listener that subscribes in that window has never seen it absent.

* `neverGone_iff` — events are truthful exactly if no subscription falls into the window;
* `reconnected_reported_gone` — a run in which one does.
-/
import Mathlib.Algebra.Order.BigOperators.Group.List
import Mathlib.Data.Finset.Basic
import Netbird.Lib.Keyed
import Netbird.Lib.Runs
import Netbird.Relay.Message

namespace Netbird.Relay

open Runs Function List

variable {P : Type} [DecidableEq P]

/-! ### The store and the listeners -/

/-- A connection, the `Peer` object that `Accept` makes.  Two connections of one peer differ
in `serial`. -/
structure Conn (P : Type) where
  id : P
  serial : ℕ
  deriving DecidableEq

abbrev Peers (P : Type) := AList fun _ : P => Conn P

/-- `Store.AddPeer` with whether it replaced a connection of the peer.  That connection is
closed, so its `Work` will return. -/
def Peers.addPeer (peers : Peers P) (c : Conn P) : Peers P × Bool :=
  (peers.insert c.id c, (peers.lookup c.id).isSome)

/-- `Store.DeletePeer`: only the connection that is stored is deleted. -/
def Peers.deletePeer (peers : Peers P) (c : Conn P) : Peers P × Bool :=
  if peers.lookup c.id = some c then (peers.erase c.id, true) else (peers, false)

/-- `store.event`. -/
structure Event (P : Type) where
  peerID : P
  online : Bool
  deriving DecidableEq

def eventChanSize : ℕ := 244

/-- A registered `store.Listener` with the connection whose `Work` made it. -/
structure Listener (P : Type) where
  owner : Conn P
  eventChan : List (Event P)
  interestedPeersForOffline : Finset P
  interestedPeersForOnline : Finset P

namespace Listener

variable (l : Listener P) (p : P)

def addInterestedPeers (peerIDs : List P) : Listener P where
  owner := l.owner
  eventChan := l.eventChan
  interestedPeersForOffline := l.interestedPeersForOffline ∪ peerIDs.toFinset
  interestedPeersForOnline := l.interestedPeersForOnline ∪ peerIDs.toFinset

def removeInterestedPeer (peerIDs : List P) : Listener P where
  owner := l.owner
  eventChan := l.eventChan
  interestedPeersForOffline := l.interestedPeersForOffline \ peerIDs.toFinset
  interestedPeersForOnline := l.interestedPeersForOnline \ peerIDs.toFinset

/-- Sends to the event channel; `none` while the channel is full and the sender waits. -/
def send (e : Event P) : Option (Listener P) :=
  if l.eventChan.length < eventChanSize then some { l with eventChan := l.eventChan ++ [e] }
  else none

def peerWentOffline : Option (Listener P) :=
  if p ∈ l.interestedPeersForOffline then l.send ⟨p, false⟩ else some l

/-- A listener is told once that a peer came online: the interest ends with the event. -/
def peerComeOnline : Option (Listener P) :=
  if p ∈ l.interestedPeersForOnline then
    (l.send ⟨p, true⟩).map fun l =>
      { l with interestedPeersForOnline := l.interestedPeersForOnline.erase p }
  else some l

end Listener

def Peers.getOnlinePeersAndRegisterInterest (peers : Peers P) (peerIDs : List P)
    (l : Listener P) : List P × Listener P :=
  (peerIDs.filter fun id => (peers.lookup id).isSome, l.addInterestedPeers peerIDs)

/-! ### The steps of a server -/

/-- How far `Accept` and the goroutine it starts are with a connection. -/
inductive Phase where
  | fresh
  | stored
  | announced
  | working
  | stopped
  /-- `DeletePeer` returned true, `PeerWentOffline` is still to come. -/
  | removed
  | done
  deriving DecidableEq

inductive Action (P : Type) where
  | addPeer (c : Conn P)
  | peerCameOnline (c : Conn P)
  | newListener (c : Conn P)
  | subscribe (c : Conn P) (peerIDs : List P)
  | unsubscribe (c : Conn P) (peerIDs : List P)
  /-- The listener's own goroutine takes an event from the channel. -/
  | receive (c : Conn P)
  | removeListener (c : Conn P)
  | deletePeer (c : Conn P)
  | peerWentOffline (c : Conn P)

/-- The store, the registered listeners and where every connection is in its program. -/
structure Server (P : Type) where
  peers : Peers P
  listeners : List (Listener P)
  phase : Conn P → Phase

namespace Server

def init : Server P where
  peers := ∅
  listeners := []
  phase := fun _ => .fresh

variable (s : Server P) (c : Conn P)

def setPhase (phase : Phase) : Server P :=
  { s with phase := Function.update s.phase c phase }

def updateListener (f : Listener P → Listener P) : Server P :=
  { s with listeners := s.listeners.map fun l => if l.owner = c then f l else l }

/-- `Accept`, `Work` and the two message handlers, one atomic step at a time. -/
def step : Action P → Option (Server P)
  | .addPeer c =>
    if s.phase c = .fresh then
      some (setPhase { s with peers := (s.peers.addPeer c).1 } c .stored)
    else none
  | .peerCameOnline c =>
    if s.phase c = .stored then
      (s.listeners.mapM fun l : Listener P => l.peerComeOnline c.id).map fun ls =>
        setPhase { s with listeners := ls } c .announced
    else none
  | .newListener c =>
    if s.phase c = .announced then
      some (setPhase { s with listeners := s.listeners ++ [⟨c, [], ∅, ∅⟩] } c .working)
    else none
  | .subscribe c peerIDs =>
    if s.phase c = .working then
      some (s.updateListener c fun l =>
        (s.peers.getOnlinePeersAndRegisterInterest peerIDs l).2)
    else none
  | .unsubscribe c peerIDs =>
    if s.phase c = .working then some (s.updateListener c (·.removeInterestedPeer peerIDs))
    else none
  | .receive c =>
    some (s.updateListener c fun l => { l with eventChan := l.eventChan.tail })
  | .removeListener c =>
    if s.phase c = .working then
      some (setPhase { s with listeners := s.listeners.filter (·.owner ≠ c) } c .stopped)
    else none
  | .deletePeer c =>
    if s.phase c = .stopped then
      match s.peers.deletePeer c with
      | (peers, true) => some (setPhase { s with peers := peers } c .removed)
      | (_, false) => some (s.setPhase c .done)
    else none
  | .peerWentOffline c =>
    if s.phase c = .removed then
      (s.listeners.mapM fun l : Listener P => l.peerWentOffline c.id).map fun ls =>
        setPhase { s with listeners := ls } c .done
    else none

/-! ### What a step does to the store and to the phases -/

variable {s s' : Server P} {a : Action P} {c : Conn P} {p : P}

theorem deletePeer_stored (h : s.peers.lookup c.id = some c) :
    s.peers.deletePeer c = (s.peers.erase c.id, true) := if_pos h

theorem deletePeer_other (h : s.peers.lookup c.id ≠ some c) :
    s.peers.deletePeer c = (s.peers, false) := if_neg h

/-- A step adds a connection to the store, removes a stored one, or leaves the store alone.
Only a removal makes an announcement pending. -/
theorem step_cases (h : s.step a = some s') :
    (∃ c, a = .addPeer c ∧ s.phase c = .fresh ∧ s'.peers = s.peers.insert c.id c ∧
      s'.phase = update s.phase c .stored) ∨
    (∃ c, a = .deletePeer c ∧ s.phase c = .stopped ∧ s.peers.lookup c.id = some c ∧
      s'.peers = s.peers.erase c.id ∧ s'.phase = update s.phase c .removed) ∨
    (s'.peers = s.peers ∧ (s'.phase = s.phase ∨ ∃ c ph, ph ≠ .removed ∧
      (s.phase c = .removed → ph = .done) ∧ s.phase c ≠ .done ∧
      s'.phase = update s.phase c ph)) := by
  cases a with
  | addPeer c =>
    obtain ⟨hc, ⟨⟩⟩ := Option.ite_none_right_eq_some.mp h
    exact .inl ⟨c, rfl, hc, rfl, rfl⟩
  | peerCameOnline c =>
    obtain ⟨hc, h⟩ := Option.ite_none_right_eq_some.mp h
    obtain ⟨ls, -, rfl⟩ := Option.map_eq_some_iff.mp h
    exact .inr (.inr ⟨rfl, .inr ⟨c, .announced, by simp, by simp [hc], by simp [hc], rfl⟩⟩)
  | newListener c =>
    obtain ⟨hc, ⟨⟩⟩ := Option.ite_none_right_eq_some.mp h
    exact .inr (.inr ⟨rfl, .inr ⟨c, .working, by simp, by simp [hc], by simp [hc], rfl⟩⟩)
  | subscribe c ids | unsubscribe c ids =>
    obtain ⟨-, ⟨⟩⟩ := Option.ite_none_right_eq_some.mp h
    exact .inr (.inr ⟨rfl, .inl rfl⟩)
  | receive c =>
    obtain rfl := Option.some.inj h
    exact .inr (.inr ⟨rfl, .inl rfl⟩)
  | removeListener c =>
    obtain ⟨hc, ⟨⟩⟩ := Option.ite_none_right_eq_some.mp h
    exact .inr (.inr ⟨rfl, .inr ⟨c, .stopped, by simp, by simp [hc], by simp [hc], rfl⟩⟩)
  | deletePeer c =>
    obtain ⟨hc, h⟩ := Option.ite_none_right_eq_some.mp h
    by_cases hl : s.peers.lookup c.id = some c
    · rw [deletePeer_stored hl] at h
      obtain rfl := Option.some.inj h
      exact .inr (.inl ⟨c, rfl, hc, hl, rfl, rfl⟩)
    · rw [deletePeer_other hl] at h
      obtain rfl := Option.some.inj h
      exact .inr (.inr ⟨rfl, .inr ⟨c, .done, by simp, by simp, by simp [hc], rfl⟩⟩)
  | peerWentOffline c =>
    obtain ⟨hc, h⟩ := Option.ite_none_right_eq_some.mp h
    obtain ⟨ls, -, rfl⟩ := Option.map_eq_some_iff.mp h
    exact .inr (.inr ⟨rfl, .inr ⟨c, .done, by simp, by simp, by simp [hc], rfl⟩⟩)

/-- The step is the removal of a stored connection. -/
structure Removes (s : Server P) (a : Action P) (c : Conn P) : Prop where
  action : a = .deletePeer c
  stored : s.peers.lookup c.id = some c
  stopped : s.phase c = .stopped

theorem Removes.lookup_eq_none (h : s.Removes a c) (hstep : s.step a = some s') :
    s'.peers.lookup c.id = none := by
  obtain ⟨rfl, hstored, hstopped⟩ := h
  rw [step, if_pos hstopped, deletePeer_stored hstored] at hstep
  obtain rfl := Option.some.inj hstep
  exact AList.lookup_erase _ _

variable (hstep : s.step a = some s')

include hstep

/-- What a step can do to the phase of one connection. -/
theorem phase_step (c : Conn P) : s'.phase c = s.phase c ∨ (s'.phase c = .removed ∧ s.Removes a c) ∨
      (s'.phase c ≠ .removed ∧ s.phase c ≠ .done ∧
        (s.phase c = .removed → s'.phase c = .done)) := by
  obtain ⟨d, -, hd, -, hphase⟩ | ⟨d, rfl, hstopped, hstored, -, hphase⟩ |
    ⟨-, hphase | ⟨d, ph, hph, hdone, hd, hphase⟩⟩ := step_cases hstep <;> rw [hphase]
  · by_cases hc : c = d
    · subst hc
      simp [hd]
    · exact .inl (update_of_ne hc _ _)
  · by_cases hc : c = d
    · subst hc
      exact .inr (.inl ⟨update_self _ _ _, rfl, hstored, hstopped⟩)
    · exact .inl (update_of_ne hc _ _)
  · exact .inl rfl
  · by_cases hc : c = d
    · subst hc
      rw [update_self]
      exact .inr (.inr ⟨hph, hd, hdone⟩)
    · exact .inl (update_of_ne hc _ _)

theorem removes_of_phase (hs : s.phase c ≠ .removed)
    (hs' : s'.phase c = .removed) : s.Removes a c := by
  obtain h | ⟨-, h⟩ | ⟨h, -⟩ := phase_step hstep c
  · exact absurd (h ▸ hs') hs
  · exact h
  · exact absurd hs' h

theorem over_step (hs : s.phase c = .removed ∨ s.phase c = .done) :
    s'.phase c = .removed ∨ s'.phase c = .done := by
  obtain h | ⟨h, -⟩ | ⟨-, hdone, h⟩ := phase_step hstep c
  · rwa [h]
  · exact .inl h
  · exact .inr (h (hs.resolve_right hdone))

theorem removes_of_lookup (hs : s.peers.lookup p ≠ none)
    (hs' : s'.peers.lookup p = none) : ∃ c, c.id = p ∧ s.Removes a c := by
  obtain ⟨d, -, -, hpeers, -⟩ | ⟨d, rfl, hstopped, hstored, hpeers, -⟩ | ⟨hpeers, -⟩ :=
    step_cases hstep
  · rw [hpeers, Keyed.lookup_insert_ite] at hs'
    split_ifs at hs'
    exact absurd hs' hs
  · rw [hpeers, Keyed.lookup_erase_ite] at hs'
    split_ifs at hs' with hd
    · exact ⟨d, hd.symm, rfl, hstored, hstopped⟩
    · exact absurd hs' hs
  · exact absurd (hpeers ▸ hs') hs

/-! ### What a step does to the event channels -/

omit hstep

/-- Offline events about the peer in the channel of a listener of the connection. -/
def waiting (l : Conn P) (p : P) (x : Listener P) : ℕ :=
  if x.owner = l then x.eventChan.count ⟨p, false⟩ else 0

/-- Offline events about the peer that are queued for the connection. -/
def pendingOffline (s : Server P) (l : Conn P) (p : P) : ℕ :=
  (s.listeners.map (waiting l p)).sum

variable {l : Conn P} {x y : Listener P} {e : Event P}

theorem waiting_send (h : x.send e = some y) (he : e ≠ ⟨p, false⟩) :
    waiting l p y = waiting l p x := by
  obtain ⟨-, ⟨⟩⟩ := Option.ite_none_right_eq_some.mp h
  simp [waiting, he]

theorem waiting_peerComeOnline {q : P} (h : x.peerComeOnline q = some y) :
    waiting l p y = waiting l p x := by
  rw [Listener.peerComeOnline] at h
  split at h
  · obtain ⟨z, hz, rfl⟩ := Option.map_eq_some_iff.mp h
    have hsend : waiting l p z = waiting l p x := waiting_send hz (by simp)
    exact hsend
  · rw [Option.some.inj h]

theorem waiting_peerWentOffline {q : P} (h : x.peerWentOffline q = some y) (hq : q ≠ p) :
    waiting l p y = waiting l p x := by
  rw [Listener.peerWentOffline] at h
  split at h
  · exact waiting_send h (by simp [hq])
  · rw [Option.some.inj h]

omit [DecidableEq P] in
theorem sum_mapM {f : Listener P → Option (Listener P)} {w : Listener P → ℕ}
    {ls ls' : List (Listener P)} (hf : ∀ x y, f x = some y → w y = w x)
    (h : ls.mapM f = some ls') : (ls'.map w).sum = (ls.map w).sum := by
  induction ls generalizing ls' with
  | nil =>
    obtain rfl : [] = ls' := by simpa using h
    rfl
  | cons x ls ih =>
    simp only [mapM_cons, Option.pure_def, Option.bind_eq_bind,
      Option.bind_eq_some_iff, Option.some.injEq] at h
    obtain ⟨y, hy, ys, hys, rfl⟩ := h
    simp [hf x y hy, ih hys]

theorem sum_updateListener_le {f : Listener P → Listener P}
    (hf : ∀ x, waiting l p (f x) ≤ waiting l p x) :
    (s.updateListener c f).pendingOffline l p ≤ s.pendingOffline l p := by
  rw [pendingOffline, updateListener, map_map]
  refine sum_le_sum fun x _ => ?_
  rw [comp_apply]
  split
  · exact hf x
  · exact le_rfl

/-- Only the announcement of a pending removal queues an offline event. -/
theorem pendingOffline_step (hstep : s.step a = some s')
    (h : s.pendingOffline l p < s'.pendingOffline l p) :
    ∃ c, c.id = p ∧ a = .peerWentOffline c ∧ s.phase c = .removed := by
  cases a with
  | addPeer c =>
    obtain ⟨-, ⟨⟩⟩ := Option.ite_none_right_eq_some.mp hstep
    exact absurd h (lt_irrefl _)
  | peerCameOnline c =>
    obtain ⟨-, hstep⟩ := Option.ite_none_right_eq_some.mp hstep
    obtain ⟨ls, hls, rfl⟩ := Option.map_eq_some_iff.mp hstep
    exact absurd (sum_mapM (fun x y => waiting_peerComeOnline) hls) h.ne'
  | newListener c =>
    obtain ⟨-, ⟨⟩⟩ := Option.ite_none_right_eq_some.mp hstep
    simp [pendingOffline, setPhase, waiting] at h
  | subscribe c ids | unsubscribe c ids =>
    obtain ⟨-, ⟨⟩⟩ := Option.ite_none_right_eq_some.mp hstep
    refine absurd h (sum_updateListener_le fun x => ?_).not_gt
    exact le_rfl
  | receive c =>
    obtain rfl := Option.some.inj hstep
    refine absurd h (sum_updateListener_le fun x => ?_).not_gt
    rw [waiting, waiting]
    split
    · exact x.eventChan.tail_sublist.count_le _
    · exact le_rfl
  | removeListener c =>
    obtain ⟨-, ⟨⟩⟩ := Option.ite_none_right_eq_some.mp hstep
    exact absurd h (List.Sublist.sum_le_sum (filter_sublist.map _) fun x _ => x.zero_le).not_gt
  | deletePeer c =>
    obtain ⟨-, hstep⟩ := Option.ite_none_right_eq_some.mp hstep
    split at hstep <;> obtain rfl := Option.some.inj hstep <;> exact absurd h (lt_irrefl _)
  | peerWentOffline c =>
    obtain ⟨hc, hstep⟩ := Option.ite_none_right_eq_some.mp hstep
    obtain ⟨ls, hls, rfl⟩ := Option.map_eq_some_iff.mp hstep
    by_cases hp : c.id = p
    · exact ⟨c, hp, rfl, hc⟩
    · exact absurd (sum_mapM (fun x y hy => waiting_peerWentOffline hy hp) hls) h.ne'

/-! ### Runs -/

/-- The server after the steps, from one without connections or from `s`. -/
def run (s : Server P) (acts : List (Action P)) : Option (Server P) :=
  exec step s acts

/-- A connection of the peer is removed on the way. -/
def RemovedOn (s : Server P) (acts : List (Action P)) (c : Conn P) : Prop :=
  ∃ xs a ys s₁ s₂, acts = xs ++ a :: ys ∧ s.run xs = some s₁ ∧ s₁.step a = some s₂ ∧
    s₁.Removes a c

variable {acts : List (Action P)}

theorem removed_of_phase (hrun : s.run acts = some s') (hs : s.phase c ≠ .removed)
    (hs' : s'.phase c = .removed) : s.RemovedOn acts c := by
  obtain ⟨xs, a, ys, s₁, s₂, hacts, hxs, hstep, h₁, h₂⟩ :=
    exec_change (fun s => s.phase c = .removed) hrun hs hs'
  exact ⟨xs, a, ys, s₁, s₂, hacts, hxs, hstep, removes_of_phase hstep h₁ h₂⟩

theorem not_removedOn (hs : s.phase c = .removed) : ¬ s.RemovedOn acts c := by
  rintro ⟨xs, a, ys, s₁, s₂, -, hxs, -, hremoves⟩
  have hover : s₁.phase c = .removed ∨ s₁.phase c = .done :=
    exec_keeps (fun s => s.phase c = .removed ∨ s.phase c = .done)
      (fun s a s' => over_step) hxs (.inl hs)
  simp [hremoves.stopped] at hover

/-! ### Offline events -/

/-- After the steps `before` the listener subscribes to the peers, and after the steps
`between`, among them no newer subscription to `p`, the next step queues an offline event
about `p` for it. -/
structure Reported (before : List (Action P)) (l : Conn P) (peerIDs : List P)
    (between : List (Action P)) (a : Action P) (p : P) (s₁ s₂ s₃ : Server P) : Prop where
  start : init.run before = some s₁
  since : s₁.run (.subscribe l peerIDs :: between) = some s₂
  step : s₂.step a = some s₃
  subscribed : p ∈ peerIDs
  latest : ∀ newer, Action.subscribe l newer ∈ between → p ∉ newer
  queued : s₂.pendingOffline l p < s₃.pendingOffline l p

/-- At some moment after the subscription the peer is not in the store. -/
def AbsentSince (s₁ : Server P) (l : Conn P) (peerIDs : List P) (between : List (Action P))
    (p : P) : Prop :=
  ∃ xs ys s, between = xs ++ ys ∧ s₁.run (.subscribe l peerIDs :: xs) = some s ∧
    s.peers.lookup p = none

/-- Whenever an offline event is queued, the peer was absent since the subscription. -/
def NeverGone (acts : List (Action P)) : Prop :=
  ∀ before l peerIDs between a after p s₁ s₂ s₃,
    acts = before ++ .subscribe l peerIDs :: (between ++ a :: after) →
    Reported before l peerIDs between a p s₁ s₂ s₃ → s₁.AbsentSince l peerIDs between p

/-- No subscription falls between the removal of a connection and the announcement of that
removal while the peer has reconnected and stays connected. -/
def RaceFree (acts : List (Action P)) : Prop :=
  ∀ before l peerIDs between c after s₁ s₂ s₃,
    acts = before ++ .subscribe l peerIDs :: (between ++ .peerWentOffline c :: after) →
    Reported before l peerIDs between (.peerWentOffline c) c.id s₁ s₂ s₃ →
    s₁.phase c = .removed → s₁.peers.lookup c.id ≠ none →
    ∃ d, d ≠ c ∧ d.id = c.id ∧ s₁.RemovedOn (.subscribe l peerIDs :: between) d

variable {peerIDs : List P} {between : List (Action P)} {s₁ s₂ : Server P}

theorem subscribe_peers (h : s.step (.subscribe l peerIDs) = some s') : s'.peers = s.peers := by
  obtain ⟨-, ⟨⟩⟩ := Option.ite_none_right_eq_some.mp h
  rfl

/-- A removal since the subscription is a moment at which the peer is absent. -/
theorem RemovedOn.absentSince (h : s₁.RemovedOn (.subscribe l peerIDs :: between) c) :
    s₁.AbsentSince l peerIDs between c.id := by
  obtain ⟨xs, a, ys, t₁, t₂, hacts, hxs, hstep, hremoves⟩ := h
  rcases xs with _ | ⟨b, xs⟩
  · -- the subscription itself removes nothing
    obtain ⟨rfl, -⟩ := cons.inj hacts
    cases hremoves.action
  · obtain ⟨rfl, rfl⟩ := cons.inj hacts
    refine ⟨xs ++ [a], ys, t₂, by simp, ?_, hremoves.lookup_eq_none hstep⟩
    exact exec_append_eq_some.mpr ⟨t₁, hxs, exec_cons_eq_some.mpr ⟨t₂, hstep, rfl⟩⟩

/-- A peer that was stored at the subscription and absent later lost a connection. -/
theorem AbsentSince.removedOn (h : s₁.AbsentSince l peerIDs between p)
    (hs : s₁.peers.lookup p ≠ none) :
    ∃ c, c.id = p ∧ s₁.RemovedOn (.subscribe l peerIDs :: between) c := by
  obtain ⟨xs, ys, s, rfl, hrun, habsent⟩ := h
  obtain ⟨zs, a, ws, t₁, t₂, hacts, hzs, hstep, h₁, h₂⟩ :=
    exec_change (fun s => s.peers.lookup p = none) hrun hs habsent
  obtain ⟨c, hc, hremoves⟩ := removes_of_lookup hstep h₁ h₂
  refine ⟨c, hc, zs, a, ws ++ ys, t₁, t₂, ?_, hzs, hstep, hremoves⟩
  rw [← cons_append, hacts, append_assoc, cons_append]

/-- **Offline events and the store**: a run of the server reports no peer as gone that was
stored ever since the listener's latest subscription to it exactly if no subscription falls
between a removal and its announcement with the peer reconnected. -/
theorem neverGone_iff (acts : List (Action P)) : NeverGone acts ↔ RaceFree acts := by
  constructor
  · intro h before l peerIDs between c after s₁ s₂ s₃ hacts hreported hpending hstored
    have habsent := h before l peerIDs between _ after c.id s₁ s₂ s₃ hacts hreported
    obtain ⟨d, hd, hremoved⟩ := habsent.removedOn hstored
    refine ⟨d, ?_, hd, hremoved⟩
    rintro rfl
    exact not_removedOn hpending hremoved
  · intro h before l peerIDs between a after p s₁ s₂ s₃ hacts hreported
    obtain ⟨c, rfl, rfl, hpending⟩ := pendingOffline_step hreported.step hreported.queued
    by_cases hstored : s₁.peers.lookup c.id = none
    · obtain ⟨t, ht, -⟩ := exec_cons_eq_some.mp hreported.since
      refine ⟨[], between, t, rfl, exec_cons_eq_some.mpr ⟨t, ht, rfl⟩, ?_⟩
      rw [subscribe_peers ht, hstored]
    by_cases hphase : s₁.phase c = .removed
    · obtain ⟨d, -, hd, hremoved⟩ :=
        h before l peerIDs between c after s₁ s₂ s₃ hacts hreported hphase hstored
      exact hd ▸ hremoved.absentSince
    · exact (removed_of_phase hreported.since hphase hpending).absentSince

end Server

/-! ### A reconnect in the window -/

def repeatedID (b : UInt8) : PeerID := ⟨List.replicate peerIDSize b, by simp⟩

def oldConn : Conn PeerID := ⟨repeatedID 1, 0⟩
def newConn : Conn PeerID := ⟨repeatedID 1, 1⟩
def watcher : Conn PeerID := ⟨repeatedID 2, 0⟩

/-- The old connection ends and is removed, the peer reconnects, and the watcher, which has
been connected all along, subscribes to it. -/
def untilSubscription : List (Action PeerID) :=
  [.addPeer watcher, .peerCameOnline watcher, .newListener watcher,
    .addPeer oldConn, .peerCameOnline oldConn, .newListener oldConn,
    .removeListener oldConn, .deletePeer oldConn,
    .addPeer newConn, .peerCameOnline newConn]

/-- Only then is the removal of the old connection announced: the watcher is told that the
peer is gone. -/
theorem reconnected_reported_gone : ¬ Server.NeverGone (untilSubscription ++
      [.subscribe watcher [newConn.id], .peerWentOffline oldConn]) := by
  intro h
  have hreported : Server.Reported untilSubscription watcher [newConn.id] []
      (.peerWentOffline oldConn) newConn.id _ _ _ :=
    ⟨rfl, rfl, rfl, mem_singleton_self _, fun _ h => absurd h not_mem_nil, by decide⟩
  obtain ⟨xs, ys, s, hxs, hrun, habsent⟩ :=
    h untilSubscription watcher [newConn.id] [] _ [] newConn.id _ _ _ rfl hreported
  obtain ⟨rfl, -⟩ := append_eq_nil_iff.mp hxs.symm
  obtain rfl := Option.some.inj hrun
  exact absurd habsent (by decide)

end Netbird.Relay
