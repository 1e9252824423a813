/-
The updates of a peer, debounced (`management/internals/shared/grpc/update_debouncer.go` and
`handleUpdates` of `server.go`).

The first update is sent at once.  While the timer runs the next ones wait, and a network map takes
the place of one that waits right before it.

* **`updates_kept`** — no other update is lost, and none overtakes another.
-/
import Mathlib.Data.List.Chain

namespace Netbird.Debouncer

open List

inductive MessageType
  | networkMap
  | controlConfig
  deriving DecidableEq

structure UpdateMessage (α : Type) where
  update : α
  messageType : MessageType

def UpdateMessage.isMap (u : UpdateMessage α) : Bool := u.messageType = .networkMap

abbrev Updates (α : Type) := List (UpdateMessage α)

structure UpdateDebouncer (α : Type) where
  /-- there is a timer -/
  timer : Bool := false
  pendingUpdates : Updates α := []

variable {α : Type} {us vs : Updates α}

/-- A network map takes the place of one that waits at the end. -/
def coalesce (pending : Updates α) (u : UpdateMessage α) : Updates α :=
  if u.isMap ∧ pending.getLast?.any (·.isMap) then pending.dropLast ++ [u] else pending ++ [u]

/-- With whether the update is sent immediately. -/
def UpdateDebouncer.processUpdate (d : UpdateDebouncer α) (u : UpdateMessage α) :
    UpdateDebouncer α × Bool :=
  if d.timer then ({ d with pendingUpdates := coalesce d.pendingUpdates u }, false)
  else ({ d with timer := true }, true)

def UpdateDebouncer.getPendingUpdates (d : UpdateDebouncer α) : UpdateDebouncer α × Updates α :=
  ({ timer := d.timer && d.pendingUpdates ≠ [] }, d.pendingUpdates)

/-- What the loop of `handleUpdates` waits for. -/
inductive Event (α : Type)
  | update (u : UpdateMessage α)
  | expired

def Event.received : Event α → Updates α
  | .update u => [u]
  | .expired => []

structure Stream (α : Type) where
  debouncer : UpdateDebouncer α := {}
  sent : Updates α := []

/-- Without a timer there is no channel to receive its expiration from. -/
def Stream.step (s : Stream α) : Event α → Stream α
  | .update u =>
    let (debouncer, now) := s.debouncer.processUpdate u
    { debouncer, sent := if now then s.sent ++ [u] else s.sent }
  | .expired =>
    if s.debouncer.timer then
      let (debouncer, pending) := s.debouncer.getPendingUpdates
      { debouncer, sent := s.sent ++ pending }
    else s

/-- Of updates, the last one first, some network maps may be missing if the next update is one. -/
inductive Kept : Option (UpdateMessage α) → Updates α → Updates α → Prop
  | nil {next} : Kept next [] []
  | keep {next us vs} (u) : Kept (some u) us vs → Kept next (u :: us) (u :: vs)
  | drop {u v us vs} : u.isMap → v.isMap → Kept (some u) us vs → Kept (some v) (u :: us) vs

theorem Kept.cons (h : Kept none us vs) (u : UpdateMessage α) : Kept none (u :: us) (u :: vs) := by
  cases h with
  | nil => exact .keep u .nil
  | keep v h => exact .keep u (.keep v h)

theorem Kept.replace {u v : UpdateMessage α} (h : Kept none (u :: us) (u :: vs)) (hu : u.isMap)
    (hv : v.isMap) : Kept none (v :: u :: us) (v :: vs) := by
  cases h with
  | keep _ h => exact .keep v (.drop hu hv h)

/-- What holds once the updates were received. -/
structure Stream.Sound (received : Updates α) (s : Stream α) : Prop where
  kept : Kept none received.reverse (s.sent ++ s.debouncer.pendingUpdates).reverse
  last : ∀ u ∈ s.debouncer.pendingUpdates.getLast?, u ∈ received.getLast?
  quiet : s.debouncer.timer = false → s.debouncer.pendingUpdates = []

theorem Stream.Sound.step {received : Updates α} {s : Stream α} (h : s.Sound received)
    (e : Event α) : (s.step e).Sound (received ++ e.received) := by
  obtain ⟨⟨timer, pending⟩, sent⟩ := s
  have hkept : Kept none received.reverse (sent ++ pending).reverse := h.kept
  cases e with
  | expired =>
    rw [Event.received, append_nil]
    rcases timer with _ | _
    · exact h
    · exact ⟨(append_nil (sent ++ pending)).symm ▸ hkept, nofun, fun _ => rfl⟩
  | update u =>
    rcases timer with _ | _
    · obtain rfl : pending = [] := h.quiet rfl
      refine ⟨?_, nofun, fun _ => rfl⟩
      simpa [Event.received, Stream.step, UpdateDebouncer.processUpdate] using hkept.cons u
    · refine ⟨?_, ?_, nofun⟩ <;> simp only [Event.received, Stream.step,
        UpdateDebouncer.processUpdate, coalesce, if_true, Bool.false_eq_true, if_false]
      · split_ifs with hmaps
        · obtain ⟨last, hlast, hmap⟩ := (Option.any_eq_true _ _).mp hmaps.2
          obtain ⟨before, rfl⟩ := getLast?_eq_some_iff.mp (h.last last hlast)
          obtain ⟨init, rfl⟩ := getLast?_eq_some_iff.mp hlast
          simp only [reverse_append, dropLast_concat] at hkept ⊢
          exact hkept.replace hmap hmaps.1
        · simpa using hkept.cons u
      · split_ifs <;> simp

/-- **No update is lost** but network maps that the next update, a network map too, has superseded:
what was sent and then what waits are the others, in the order they came in.  Without a timer
nothing waits. -/
theorem updates_kept (events : List (Event α)) :
    let s := events.foldl Stream.step {}
    Kept none (events.flatMap Event.received).reverse
        (s.sent ++ s.debouncer.pendingUpdates).reverse ∧
      (s.debouncer.timer = false → s.debouncer.pendingUpdates = []) := by
  have hsound : (events.foldl Stream.step {}).Sound (events.flatMap Event.received) := by
    induction events using reverseRecOn with
    | nil => exact ⟨.nil, nofun, fun _ => rfl⟩
    | append_singleton events e ih =>
      rw [foldl_append, flatMap_append, flatMap_singleton]
      exact ih.step e
  exact ⟨hsound.kept, hsound.quiet⟩

/-- No two network maps stand one behind the other. -/
def Coalesced (us : Updates α) : Prop := us.IsChain fun u v => ¬ (u.isMap ∧ v.isMap)

theorem Coalesced.coalesce {pending : Updates α} (h : Coalesced pending) (u : UpdateMessage α) :
    Coalesced (coalesce pending u) := by
  unfold Debouncer.coalesce
  split_ifs with hmaps
  · -- the map that is replaced kept another one from standing before it
    obtain ⟨last, hlast, hmap⟩ := (Option.any_eq_true _ _).mp hmaps.2
    obtain ⟨init, rfl⟩ := getLast?_eq_some_iff.mp hlast
    obtain ⟨hinit, -, hnext⟩ := isChain_append.mp h
    rw [dropLast_concat]
    exact hinit.append (.singleton u) fun v hv w hw hboth => hnext v hv last rfl ⟨hboth.1, hmap⟩
  · refine h.append (.singleton u) fun v hv w hw hboth => hmaps ?_
    obtain rfl : u = w := by simpa using hw
    exact ⟨hboth.2, (Option.any_eq_true _ _).mpr ⟨v, hv, hboth.1⟩⟩

/-- **What waits is coalesced** after every sequence of updates and expirations. -/
theorem pending_coalesced (events : List (Event α)) :
    Coalesced (events.foldl Stream.step {}).debouncer.pendingUpdates := by
  refine foldlRecOn (motive := fun s : Stream α => Coalesced s.debouncer.pendingUpdates)
    events _ IsChain.nil ?_
  rintro ⟨⟨_ | _, pending⟩, sent⟩ h (u | _) -
  · exact h
  · exact h
  · exact h.coalesce u
  · exact .nil

end Netbird.Debouncer
