/-
The callbacks of a relay server's listener.

`listenForEvents` waits for an event, drains the channel behind it, and reports the batch in
two calls: the peers that came online first, then those that went offline.  The channel is
first in, first out, so a run of the loop is the list of the batches that it happened to
make of the queued events.

* `told_listenForEvents` — each batch is told with its online events first;
* `told_about_iff` — when what is told about a peer is what was queued, in that order;
* `reconnect_told_as_gone` — a peer that went away and came back is told to be gone.
-/
import Netbird.Relay.Notifier

namespace Netbird.Relay

open List

variable {P : Type}

/-! ### The loop -/

/-- What one turn of the loop receives: the event that ends the `select`, and those that the
drain loop finds in the channel, which may be filled again meanwhile. -/
structure Batch (P : Type) where
  first : Event P
  drained : List (Event P)

/-- A call of `onPeersComeOnline` or of `onPeersWentOffline`. -/
structure Callback (P : Type) where
  online : Bool
  peerIDs : List P
  deriving DecidableEq

/-- `peersOnline` and `peersOffline` after one more event. -/
def collectEvent (lists : List P × List P) (e : Event P) : List P × List P :=
  if e.online then (lists.1 ++ [e.peerID], lists.2) else (lists.1, lists.2 ++ [e.peerID])

def Batch.callbacks (b : Batch P) : List (Callback P) :=
  let (peersOnline, peersOffline) := b.drained.foldl collectEvent (collectEvent ([], []) b.first)
  (if peersOnline.length > 0 then [⟨true, peersOnline⟩] else []) ++
    if peersOffline.length > 0 then [⟨false, peersOffline⟩] else []

def listenForEvents (batches : List (Batch P)) : List (Callback P) :=
  batches.flatMap Batch.callbacks

/-! ### What is queued and what is told -/

def Batch.events (b : Batch P) : List (Event P) := b.first :: b.drained

def queued (batches : List (Batch P)) : List (Event P) := batches.flatMap Batch.events

/-- The events that the calls tell of, one for each peer that a call names. -/
def told (calls : List (Callback P)) : List (Event P) :=
  calls.flatMap fun c => c.peerIDs.map fun p => ⟨p, c.online⟩

def about [DecidableEq P] (p : P) (events : List (Event P)) : List (Event P) :=
  events.filter fun e => e.peerID = p

/-- No online event of the peer comes after an offline one. -/
def Batch.OnlineFirst [DecidableEq P] (b : Batch P) (p : P) : Prop :=
  (about p b.events).Pairwise fun e e' => e'.online → e.online

/-! ### The order of a batch -/

theorem foldl_collectEvent (events : List (Event P)) (lists : List P × List P) :
    events.foldl collectEvent lists = (lists.1 ++ (events.filter (·.online)).map (·.peerID),
        lists.2 ++ (events.filter (!·.online)).map (·.peerID)) := by
  induction events generalizing lists with
  | nil => simp
  | cons e events ih =>
    rw [foldl_cons, ih]
    cases h : e.online <;> simp [collectEvent, h]

theorem map_filter_online {f : Event P → Bool} {online : Bool}
    (hf : ∀ e, f e → e.online = online) (events : List (Event P)) :
    ((events.filter f).map (·.peerID)).map (⟨·, online⟩) = events.filter f := by
  rw [map_map]
  refine (map_congr_left fun e he => ?_).trans (map_id _)
  rw [Function.comp_apply, ← hf e (mem_filter.mp he).2, id]

/-- A call that is left out because its list is empty tells nothing. -/
theorem told_callbacks (b : Batch P) :
    told b.callbacks = b.events.filter (·.online) ++ b.events.filter (!·.online) := by
  have hsplit (on off : List P) :
      told ((if on.length > 0 then [⟨true, on⟩] else []) ++
        if off.length > 0 then [⟨false, off⟩] else []) =
          on.map (⟨·, true⟩) ++ off.map (⟨·, false⟩) := by
    cases on <;> cases off <;> simp [told]
  rw [Batch.callbacks, ← foldl_cons, ← Batch.events, foldl_collectEvent, hsplit,
    nil_append, nil_append, map_filter_online (by simp), map_filter_online (by simp)]

theorem told_listenForEvents (batches : List (Batch P)) : told (listenForEvents batches) =
      batches.flatMap fun b => b.events.filter (·.online) ++ b.events.filter (!·.online) := by
  rw [told, listenForEvents, flatMap_assoc]
  exact flatMap_congr fun b _ => told_callbacks b

theorem filter_append_filter_iff (f : α → Bool) (l : List α) :
    l.filter f ++ l.filter (!f ·) = l ↔ l.Pairwise fun a b => f b → f a := by
  induction l with
  | nil => simp
  | cons a l ih =>
    rw [pairwise_cons, ← ih]
    cases h : f a with
    | true => simp [h]
    | false =>
      rw [filter_cons_of_neg (by simp [h])]
      rcases hfirst : l.filter f with _ | ⟨b, rest⟩
      · simp_all
      · -- the list cannot begin with both `a` and `b`
        have hb := mem_filter.mp (hfirst ▸ mem_cons_self : b ∈ l.filter f)
        refine iff_of_false (fun heq => ?_) fun hall => absurd (hall.1 b hb.1 hb.2) (by simp)
        rw [cons_append, cons.injEq] at heq
        simp [heq.1, h] at hb

theorem flatMap_eq_iff {f g : α → List β} (hlength : ∀ a, (f a).length = (g a).length)
    (l : List α) : l.flatMap f = l.flatMap g ↔ ∀ a ∈ l, f a = g a := by
  induction l with
  | nil => simp
  | cons a l ih =>
    rw [flatMap_cons, flatMap_cons, forall_mem_cons, ← ih]
    exact ⟨fun h => append_inj h (hlength a), fun h => by rw [h.1, h.2]⟩

/-- **The order of presence notifications**: the callbacks about a peer follow the order in
which its events were queued exactly if no batch has an online event of the peer after an
offline one. -/
theorem told_about_iff [DecidableEq P] (batches : List (Batch P)) (p : P) :
    about p (told (listenForEvents batches)) = about p (queued batches) ↔
      ∀ b ∈ batches, b.OnlineFirst p := by
  have hbatch (b : Batch P) :
      about p (b.events.filter (·.online) ++ b.events.filter (!·.online)) =
        (about p b.events).filter (·.online) ++ (about p b.events).filter (!·.online) := by
    rw [about, about, filter_append, filter_comm, filter_comm (!Event.online ·)]
  rw [told_listenForEvents, queued, about, about, filter_flatMap, filter_flatMap,
    flatMap_eq_iff]
  · refine forall₂_congr fun b _ => ?_
    rw [← about, hbatch, ← about, filter_append_filter_iff, Batch.OnlineFirst]
  · intro b
    rw [← about, hbatch, length_append, ← length_eq_length_filter_add, ← about]

/-! ### A peer that comes back -/

/-- A listener that has subscribed to the peer, which is connected. -/
def subscribed : Listener PeerID :=
  Listener.addInterestedPeers ⟨watcher, [], ∅, ∅⟩ [newConn.id]

/-- The peer disconnects and connects again before the listener gets to its events. -/
def reconnect : Batch PeerID := ⟨⟨newConn.id, false⟩, [⟨newConn.id, true⟩]⟩

/-- Both events are queued, in this order, and are told the other way round: the last thing
that the listener says about the peer is that it is gone. -/
theorem reconnect_told_as_gone :
    ((subscribed.peerWentOffline newConn.id).bind (·.peerComeOnline newConn.id)).map
        (·.eventChan) = some (queued [reconnect]) ∧
      listenForEvents [reconnect] = [⟨true, [newConn.id]⟩, ⟨false, [newConn.id]⟩] ∧
      about newConn.id (told (listenForEvents [reconnect])) ≠
        about newConn.id (queued [reconnect]) := by
  decide

end Netbird.Relay
