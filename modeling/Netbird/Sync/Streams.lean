/-
The Sync streams of one peer (`management/internals/shared/grpc/server.go`).

A call of `Sync` takes its start time, waits for the lock of the peer, handles the connection
under it, and keeps the stream open until its update channel is closed, its context ends or a
send fails; then it takes the lock again and cancels the routines of the peer.  Between the
two sections any other stream of the peer may run, so a run is a list of sections in any order,
each at a later time than the one before.  The store is taken to answer every call.

The update channel and the ephemeral-peer queue know the peer and not the stream:
`cancelPeerRoutinesWithoutLock` closes whatever channel the peer has.

* `markPeerConnected_eq` — the status changes as `markPeerConnected` of the account manager
  changes it in the store;
* `spares_iff` — when no teardown of a run touches a later stream.
-/
import Netbird.Account.Login
import Netbird.Lib.Runs

namespace Netbird

/-- The status `updatePeerStatusAndLocation` saves. -/
def PeerStatus.mark (st : PeerStatus) (connected : Bool) (syncTime : Time) : PeerStatus :=
  { st with
    lastSeen := syncTime
    connected := connected
    loginExpired := if connected then false else st.loginExpired }

/-- `MarkPeerConnected`, on the status: a connect is dropped if the peer was seen since. -/
def PeerStatus.markPeerConnected (st : PeerStatus) (connected : Bool) (syncTime : Time) :
    PeerStatus :=
  if connected && !(st.lastSeen < syncTime) then st else st.mark connected syncTime

/-- `OnPeerDisconnected` of the account manager, on the status. -/
def PeerStatus.onPeerDisconnected (st : PeerStatus) (streamStartTime now : Time) : PeerStatus :=
  if streamStartTime < st.lastSeen then st else st.markPeerConnected false now

open Command in
/-- The account manager saves the status that `PeerStatus.markPeerConnected` gives, or leaves
it. -/
theorem markPeerConnected_eq (deps : Deps) (key : String) (connected : Bool) (realIP : Option IP)
    (accountID : String) (syncTime : Time) :
    markPeerConnected deps key connected realIP accountID syncTime = transaction (do
      let peer ← readsExcept (Store.getPeerByPeerPubKey key)
      if connected && !(peer.status.lastSeen < syncTime) then pure ()
      else do
        updateLocation deps accountID peer realIP
        update (Store.savePeerStatus accountID peer.id
          (peer.status.markPeerConnected connected syncTime))) := by
  refine congrArg transaction (congrArg (bind _) (funext fun peer => ?_))
  by_cases h : (connected && !(peer.status.lastSeen < syncTime)) = true
  · rw [if_pos h, if_pos h]
  · rw [if_neg h, if_neg h, PeerStatus.markPeerConnected, if_neg h]
    rfl

namespace Sync

/-! ### Server and streams -/

/-- Where the handler of a stream stands: before its first section under the lock, in
`handleUpdates`, or at its end. -/
inductive Phase
  | waiting
  | live
  | ended
  deriving DecidableEq

structure Stream where
  /-- `syncStart`, taken before the lock. -/
  start : Time
  phase : Phase
  deriving DecidableEq

/-- What a cancellation did. -/
inductive Effect
  /-- The stream's cancellation closed the channel of the owner. -/
  | closedChannel (stream owner : ℕ)
  /-- It handed the peer to the ephemeral-peer queue, with these streams open. -/
  | queuedPeer (stream : ℕ) (openStreams : List ℕ)
  deriving DecidableEq

/-- What the management server has of one peer.  Streams are numbered in the order they
start. -/
structure Server where
  clock : Time
  status : PeerStatus
  isEphemeral : Bool
  streams : List Stream := []
  /-- The stream for which the peer's channel in `peerChannels` was created. -/
  channel : Option ℕ := none
  /-- The peer is on the list of ephemeral peers to delete. -/
  isQueued : Bool := false
  effects : List Effect := []
  /-- The stream whose connect handling ran last, … -/
  lastConnect : Option ℕ := none
  /-- … and the last one whose connect handling was not dropped. -/
  recorded : Option ℕ := none
  deriving DecidableEq

namespace Server

variable (s : Server)

/-- The start time of the stream, if it is there and stands where it has to. -/
def startIn (p : Phase) (i : ℕ) : Option Time :=
  (s.streams[i]?).bind fun x => if x.phase = p then some x.start else none

variable (i : ℕ)

def isLive : Bool := (s.startIn .live i).isSome

def openStreams : List ℕ := (List.range s.streams.length).filter s.isLive

def setPhase (p : Phase) : Server :=
  { s with streams := s.streams.modify i ({ · with phase := p }) }

/-! ### The sections under the lock -/

/-- `MarkPeerConnected` for a stream that connects. -/
def markConnected (start : Time) : Server :=
  { s with
    status := s.status.markPeerConnected true start
    lastConnect := some i
    recorded := if s.status.lastSeen < start then some i else s.recorded }

/-- `OnPeerDisconnected` of the account manager. -/
def markDisconnected (start : Time) : Server :=
  { s with status := s.status.onPeerDisconnected start s.clock }

/-- `CloseChannel`, by the ID of the peer. -/
def closeChannel : Server :=
  match s.channel with
  | none => s
  | some owner => { s with channel := none, effects := .closedChannel i owner :: s.effects }

def queuePeer : Server :=
  if s.isEphemeral then
    { s with isQueued := true, effects := .queuedPeer i s.openStreams :: s.effects }
  else s

def cancelPeerRoutinesWithoutLock (start : Time) : Server :=
  (((s.markDisconnected start).closeChannel i).queuePeer i).setPhase i .ended

/-- `OnPeerConnected` of the controller: the peer leaves the queue, and `CreateChannel` closes the
channel of the stream before. -/
def onPeerConnected : Server :=
  { s with channel := some i, isQueued := if s.isEphemeral then false else s.isQueued }

end Server

/-- How the first section ends. -/
inductive Outcome
  /-- `SyncPeer` fails. -/
  | refused
  /-- The initial sync cannot be sent. -/
  | sendFails
  | connects
  deriving DecidableEq

namespace Server

/-- The first section of `Sync` under the lock. -/
def connect (s : Server) (i : ℕ) (start : Time) : Outcome → Server
  | .refused => s.setPhase i .ended
  | .sendFails => (s.markConnected i start).cancelPeerRoutinesWithoutLock i start
  | .connects => ((s.markConnected i start).onPeerConnected i).setPhase i .live

def teardown (s : Server) (i : ℕ) (start : Time) : Server :=
  s.cancelPeerRoutinesWithoutLock i start

end Server

inductive Action
  /-- A new call of `Sync` takes its start time. -/
  | start
  | connect (i : ℕ) (o : Outcome)
  | teardown (i : ℕ)

/-- A section and the time that passes before it, beyond the least. -/
structure Tick where
  wait : ℕ
  action : Action

/-- The time passes, then the section runs if its stream is there and waits for it. -/
def step (s : Server) (k : Tick) : Server :=
  let s := { s with clock := s.clock + 1 + k.wait }
  match k.action with
  | .start => { s with streams := s.streams ++ [{ start := s.clock, phase := .waiting }] }
  | .connect i o =>
    match s.startIn .waiting i with
    | some t => s.connect i t o
    | none => s
  | .teardown i =>
    match s.startIn .live i with
    | some t => s.teardown i t
    | none => s

/-- The server before any stream, with a peer that is not connected. -/
def Server.init (lastSeen : Time) (isEphemeral isQueued loginExpired requiresApproval : Bool) :
    Server where
  clock := lastSeen
  status :=
    { lastSeen := lastSeen, connected := false
      loginExpired := loginExpired, requiresApproval := requiresApproval }
  isEphemeral := isEphemeral
  isQueued := isQueued

/-! ### Later streams -/

/-- The effect touches no stream that started after the one it is of. -/
def Effect.Spares : Effect → Prop
  | .closedChannel i owner => ¬ i < owner
  | .queuedPeer i openStreams => ∀ j ∈ openStreams, ¬ i < j

/-- A cancellation for stream `i` finds the channel of no later stream, and, if the peer is
ephemeral, no later stream open. -/
def Server.Unsuperseded (s : Server) (i : ℕ) : Prop :=
  (∀ owner, s.channel = some owner → ¬ i < owner) ∧
    (s.isEphemeral → ∀ j, s.isLive j → ¬ i < j)

/-- If the section cancels the routines of the peer, it does so with its stream
unsuperseded. -/
def Careful (s : Server) (k : Tick) : Prop :=
  match k.action with
  | .start => True
  | .connect i o => o = .sendFails → (s.startIn .waiting i).isSome → s.Unsuperseded i
  | .teardown i => (s.startIn .live i).isSome → s.Unsuperseded i

variable {s : Server}

theorem mem_openStreams {j : ℕ} : j ∈ s.openStreams ↔ s.isLive j := by
  unfold Server.openStreams
  rw [List.mem_filter, List.mem_range, and_iff_right_of_imp]
  intro h
  by_contra hlen
  simp [Server.isLive, Server.startIn, List.getElem?_eq_none (not_lt.mp hlen)] at h

/-- All effects so far spare the later streams. -/
def Server.Spares (s : Server) : Prop := ∀ e ∈ s.effects, e.Spares

theorem spares_closeChannel {i : ℕ} :
    (s.closeChannel i).Spares ↔ (∀ owner, s.channel = some owner → ¬ i < owner) ∧ s.Spares := by
  unfold Server.closeChannel Server.Spares
  cases s.channel <;> simp [Effect.Spares]

theorem spares_queuePeer {i : ℕ} :
    (s.queuePeer i).Spares ↔ (s.isEphemeral → ∀ j, s.isLive j → ¬ i < j) ∧ s.Spares := by
  unfold Server.queuePeer Server.Spares
  cases s.isEphemeral <;> simp [Effect.Spares, mem_openStreams]

theorem spares_cancel {i : ℕ} {start : Time} :
    (s.cancelPeerRoutinesWithoutLock i start).Spares ↔ s.Unsuperseded i ∧ s.Spares := by
  -- The status plays no part, and closing the channel leaves the streams as they are.
  have hclose : ∀ s' : Server, (s'.closeChannel i).isLive = s'.isLive ∧
      (s'.closeChannel i).isEphemeral = s'.isEphemeral := by
    intro s'
    unfold Server.closeChannel
    cases s'.channel <;> exact ⟨rfl, rfl⟩
  change (((s.markDisconnected start).closeChannel i).queuePeer i).Spares ↔ _
  rw [spares_queuePeer, spares_closeChannel, (hclose _).1, (hclose _).2]
  exact ⟨fun h => ⟨⟨h.2.1, h.1⟩, h.2.2⟩, fun h => ⟨h.1.2, h.1.1, h.2⟩⟩

theorem spares_step {k : Tick} : (step s k).Spares ↔ Careful s k ∧ s.Spares := by
  unfold step Careful
  cases hk : k.action with
  | start => simp [Server.Spares]
  | connect i o =>
    have hstart : { s with clock := s.clock + 1 + k.wait }.startIn .waiting i =
        s.startIn .waiting i := rfl
    rcases ht : s.startIn .waiting i with _ | t
    · simp [hstart, ht, Server.Spares]
    · simp only [hstart, ht, Option.isSome_some, forall_const]
      cases o with
      | refused => simp [Server.connect, Server.setPhase, Server.Spares]
      | connects =>
        simp [Server.connect, Server.setPhase, Server.onPeerConnected, Server.markConnected,
          Server.Spares]
      | sendFails =>
        refine spares_cancel.trans (and_congr_left fun _ => ?_)
        exact ⟨fun h _ => h, fun h => h rfl⟩
  | teardown i =>
    have hstart : { s with clock := s.clock + 1 + k.wait }.startIn .live i = s.startIn .live i := rfl
    rcases ht : s.startIn .live i with _ | t
    · simp [hstart, ht, Server.Spares]
    · simp only [hstart, ht, Option.isSome_some, forall_const]
      exact spares_cancel

/-- **No teardown touches a later stream** if and only if every section that cancels the peer's
routines does it for a stream that is not superseded. -/
theorem spares_iff (lastSeen : Time) (isEphemeral isQueued loginExpired requiresApproval : Bool)
    (ticks : List Tick) :
    (∀ e ∈ (ticks.foldl step
        (.init lastSeen isEphemeral isQueued loginExpired requiresApproval)).effects, e.Spares) ↔
      Runs.Along step Careful
        (.init lastSeen isEphemeral isQueued loginExpired requiresApproval) ticks := by
  suffices h : ∀ s : Server, (ticks.foldl step s).Spares ↔ s.Spares ∧ Runs.Along step Careful s ticks by
    refine (h _).trans (and_iff_right ?_)
    intro e he
    cases he
  intro s
  induction ticks generalizing s with
  | nil => exact (and_iff_left trivial).symm
  | cons k ticks ih =>
    rw [List.foldl_cons, ih, spares_step]
    exact ⟨fun h => ⟨h.1.2, h.1.1, h.2⟩, fun h => ⟨⟨h.2.1, h.1⟩, h.2.2⟩⟩

/-- The second stream opens and closes the channel of the first, whose teardown then closes the
channel of the second. -/
def takeover : List Tick :=
  [⟨0, .start⟩, ⟨0, .connect 0 .connects⟩, ⟨0, .start⟩, ⟨0, .connect 1 .connects⟩,
    ⟨0, .teardown 0⟩]

theorem takeover_closes_successor :
    ¬ ∀ e ∈ (takeover.foldl step (.init 0 true false false false)).effects, e.Spares := by
  intro h
  exact h (.closedChannel 0 1) (by decide) (by decide)

end Sync

end Netbird
