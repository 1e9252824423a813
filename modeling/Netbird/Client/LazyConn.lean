/-
Lazy connections and the groups of routing peers
(`client/internal/lazyconn/manager/manager.go`).

An active peer that is reported as inactive is put to idle unless a peer of one of its groups is
active and not in the report.  The peers of a report are judged by the report, not by what becomes
of the others.

* `isActive_foldl` — what a report does, in whatever order it is ranged over;
* **`awake_iff`** — when no peer is put to idle beside an active peer of its group.
-/
import Mathlib.Data.List.Dedup
import Mathlib.Data.List.Induction

namespace Netbird.LazyConn

open List Function

inductive Watcher
  | activity
  | inactivity
  deriving DecidableEq

variable {P : Type} [DecidableEq P]

/-- The groups of the manager and the expected watcher of each managed peer; the ID of a
connection is the peer's own. -/
structure Manager (P : Type) where
  haGroups : List (List P) := []
  watcher : P → Option Watcher := fun _ => none

namespace Manager

variable (m : Manager P) (p : P)

/-- The groups by the peers of their routes; one peer alone is no group. -/
def updateRouteHAMap (haMap : List (List P)) : Manager P :=
  { m with haGroups := (haMap.map dedup).filter (1 < ·.length) }

/-- The other peers of the groups of a peer. -/
def groupPeers : List P := (m.haGroups.filter (p ∈ ·)).flatMap (·.filter (· ≠ p))

def isActive : Bool := m.watcher p = some .inactivity

def activateSinglePeer : Manager P :=
  if m.watcher p = some .activity then { m with watcher := update m.watcher p (some .inactivity) }
  else m

/-- `ActivatePeer`, and `onPeerActivity` alike: with the peer all peers of its groups. -/
def activatePeer : Manager P :=
  if m.watcher p = some .activity then
    (m.groupPeers p).foldl activateSinglePeer (m.activateSinglePeer p)
  else m

def addPeer : Manager P :=
  if (m.watcher p).isSome then m
  else
    let added := { m with watcher := update m.watcher p (some .activity) }
    if (m.groupPeers p).any added.isActive then added.activateSinglePeer p else added

def shouldDeferIdleForHA (inactivePeers : List P) : Bool :=
  (m.groupPeers p).any fun q => m.isActive q && q ∉ inactivePeers

/-- One round of the loop over the report. -/
def timedOut (inactivePeers : List P) (m : Manager P) (p : P) : Manager P :=
  if m.isActive p ∧ ¬ m.shouldDeferIdleForHA p inactivePeers then
    { m with watcher := update m.watcher p (some .activity) }
  else m

/-- The report in the order in which the loop ranges over it. -/
def onPeerInactivityTimedOut (peerIDs : List P) : Manager P :=
  peerIDs.foldl (timedOut peerIDs) m

variable {m p}

theorem isActive_timedOut (report : List P) (m : Manager P) (p q : P) :
    (timedOut report m p).isActive q =
      (m.isActive q && !(q == p && !m.shouldDeferIdleForHA p report)) := by
  unfold timedOut
  by_cases hq : q = p
  · subst hq
    split_ifs with h
    · simp [isActive, h.2]
    · cases hactive : m.isActive q <;> simp_all
  · split_ifs <;> simp [isActive, hq]

/-- **The peers that are put to idle** are those that are active and not deferred at the start. -/
theorem isActive_foldl {report l : List P} (hl : l ⊆ report) (q : P) :
    (l.foldl (timedOut report) m).isActive q =
      (m.isActive q && !(q ∈ l && !m.shouldDeferIdleForHA q report)) := by
  induction l using reverseRecOn generalizing q with
  | nil => simp
  | append_singleton l p ih =>
    have ih := ih fun x hx => hl (mem_append_left _ hx)
    have hgroups : (l.foldl (timedOut report) m).haGroups = m.haGroups := by
      refine foldlRecOn (motive := fun m' : Manager P => m'.haGroups = m.haGroups) l _ rfl ?_
      intro m' h x _
      unfold timedOut
      split_ifs <;> exact h
    -- only peers outside the report can defer, and those the loop leaves as they are
    have hdefer : (l.foldl (timedOut report) m).shouldDeferIdleForHA p report =
        m.shouldDeferIdleForHA p report := by
      simp only [shouldDeferIdleForHA, groupPeers, hgroups, ih]
      congr 1
      funext x
      have hout : x ∉ report → x ∉ l := mt fun hx => hl (mem_append_left _ hx)
      by_cases hx : x ∈ report
      · simp [hx]
      · simp [hx, hout hx]
    rw [foldl_append, foldl_cons, foldl_nil, isActive_timedOut, ih, hdefer]
    by_cases hq : q = p
    · subst hq
      cases m.isActive q <;> cases m.shouldDeferIdleForHA q report <;> simp
    · simp [hq]

/-- The call has put the peer to idle. -/
abbrev Idled (m m' : Manager P) (p : P) : Prop := m.isActive p ∧ ¬ m'.isActive p

/-- **When an active group keeps its peers awake**: of two active peers of a group that are
reported together, the one is deferred whenever the other is.  The order of the report never
matters. -/
theorem awake_iff (m : Manager P) (report : List P) : ((∀ order, order.Perm report → ∀ p q,
        Idled m (m.onPeerInactivityTimedOut order) p → q ∈ m.groupPeers p →
          ¬ (m.onPeerInactivityTimedOut order).isActive q) ∧
      ∀ order order', order.Perm report → order'.Perm report → ∀ p,
        Idled m (m.onPeerInactivityTimedOut order) p ↔
          Idled m (m.onPeerInactivityTimedOut order') p) ↔
      ∀ p ∈ report, ∀ q ∈ report, q ∈ m.groupPeers p → m.isActive p → m.isActive q →
        m.shouldDeferIdleForHA q report → m.shouldDeferIdleForHA p report := by
  have hactive : ∀ order, order.Perm report → ∀ p,
      (m.onPeerInactivityTimedOut order).isActive p =
        (m.isActive p && !(p ∈ report && !m.shouldDeferIdleForHA p report)) := by
    intro order h p
    rw [onPeerInactivityTimedOut, isActive_foldl (Subset.refl _)]
    simp only [shouldDeferIdleForHA, h.mem_iff]
  constructor
  · rintro ⟨hawake, -⟩ p hp q hq hgroup hpa hqa hdefer
    by_contra hnot
    have := hawake report (.refl _) p q
    simp_all [Idled]
  · intro h
    refine ⟨fun order horder p q hidled hgroup => ?_, fun order order' ho ho' p => ?_⟩
    · rw [Idled, hactive order horder] at hidled
      rw [hactive order horder]
      intro hq
      have hdeferred : m.shouldDeferIdleForHA p report := by
        by_cases hin : q ∈ report
        · exact h p (by simp_all) q hin hgroup hidled.1 (by simp_all) (by simp_all)
        · exact any_eq_true.mpr ⟨q, hgroup, by simp_all⟩
      simp_all
    · rw [Idled, Idled, hactive order ho, hactive order' ho']

/-- The groups {1, 2} and {2, 3}, all of them active. -/
def overlapping : Manager ℕ :=
  let added := ((({} : Manager ℕ).updateRouteHAMap [[1, 2], [2, 3]]).addPeer 1).addPeer 2
  ((added.addPeer 3).activatePeer 1).activatePeer 3

/-- Peers 1 and 2 are reported: 3 keeps 2 awake, and 1 is put to idle. -/
theorem idled_beside_active : Idled overlapping (overlapping.onPeerInactivityTimedOut [1, 2]) 1 ∧
      2 ∈ overlapping.groupPeers 1 ∧ (overlapping.onPeerInactivityTimedOut [1, 2]).isActive 2 := by
  decide

end Manager

end Netbird.LazyConn
