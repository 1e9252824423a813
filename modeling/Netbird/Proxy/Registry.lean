/-
The registration of proxy streams, by the ID of the proxy alone.

A `GetMappingUpdate` stream stores itself in `connectedProxies`, registers its proxy in the
cluster, and when it ends, for whatever reason, deletes the entry and the registration. Each of
these is one operation on a concurrent map, and streams of one proxy may overlap.

* `kept_step_iff` — the operations of an old stream that take the newest stream of the proxy out;
* `successor_kept_iff` — the newest stream stays registered exactly if there are none.
-/
import Netbird.Lib.Runs

namespace Netbird.ProxyRegistry

open Function

structure Stream where
  proxyID : String
  address : String

/-- What a stream has done last. It is open from its store to its end. -/
inductive Phase where
  | new
  | stored
  | registered
  | ended
  | deleted
  | unregistered
  deriving DecidableEq

def Phase.isOpen : Phase → Bool
  | .stored | .registered => true
  | _ => false

structure State where
  /-- `connectedProxies`. -/
  connected : String → Option ℕ := fun _ => none
  /-- `clusterProxies`: is the proxy registered in the cluster? -/
  cluster : String → String → Bool := fun _ _ => false
  phase : ℕ → Phase := fun _ => .new
  /-- The stream of a proxy that stored itself last. -/
  newest : String → Option ℕ := fun _ => none

variable (streams : ℕ → Stream)

namespace State

def setCluster (s : State) (i : ℕ) (there : Bool) : String → String → Bool :=
  Function.update s.cluster (streams i).address
    (Function.update (s.cluster (streams i).address) (streams i).proxyID there)

/-- The next operation of a stream. A failure to register in the database ends it as well. -/
def step (s : State) (i : ℕ) : State :=
  let id := (streams i).proxyID
  match s.phase i with
  | .new =>
    { s with
      connected := Function.update s.connected id (some i)
      phase := Function.update s.phase i .stored
      newest := Function.update s.newest id (some i) }
  | .stored =>
    { s with
      cluster := s.setCluster streams i true
      phase := Function.update s.phase i .registered }
  | .registered => { s with phase := Function.update s.phase i .ended }
  | .ended =>
    { s with
      connected := Function.update s.connected id none
      phase := Function.update s.phase i .deleted }
  | .deleted =>
    { s with
      cluster := s.setCluster streams i false
      phase := Function.update s.phase i .unregistered }
  | .unregistered => s

/-- The streams that `SendServiceUpdateToCluster` queues an update for, of the proxies given. -/
def receivers (s : State) (clusterAddr : String) (proxyIDs : List String) : List ℕ :=
  (proxyIDs.filter (s.cluster clusterAddr)).filterMap s.connected

end State

/-- The newest stream of a proxy, while open, is in `connectedProxies`, and in the cluster once
it has registered. -/
def Kept (s : State) : Prop :=
  ∀ i, s.newest (streams i).proxyID = some i →
    ((s.phase i).isOpen = true → s.connected (streams i).proxyID = some i) ∧
    (s.phase i = .registered → s.cluster (streams i).address (streams i).proxyID = true)

/-- No stream deletes the entry of the proxy while the newest one is open, nor its registration
while the newest one is registered in the same cluster. -/
def Harmless (s : State) (i : ℕ) : Prop :=
  ∀ k, s.newest (streams k).proxyID = some k → (streams k).proxyID = (streams i).proxyID →
    (s.phase i = .ended → (s.phase k).isOpen = false) ∧
    (s.phase i = .deleted → (streams k).address = (streams i).address → s.phase k ≠ .registered)

variable {streams} {s : State}

theorem setCluster_eq (i : ℕ) (there : Bool) (address id : String) :
    s.setCluster streams i there address id =
      if address = (streams i).address ∧ id = (streams i).proxyID then there
      else s.cluster address id := by
  rw [State.setCluster, update_apply]
  by_cases ha : address = (streams i).address
  · subst ha
    rw [if_pos rfl, update_apply]
    simp
  · simp [ha]

theorem newest_step {i : ℕ} (h : s.phase i ≠ .new) : (s.step streams i).newest = s.newest := by
  unfold State.step
  cases hphase : s.phase i with
  | new => exact absurd hphase h
  | _ => rfl

/-- **One operation** keeps the newest stream exactly if it is harmless. -/
theorem kept_step_iff (h : Kept streams s) (i : ℕ) :
    Kept streams (s.step streams i) ↔ Harmless streams s i := by
  cases hphase : s.phase i with
  | new =>
    refine iff_of_true (fun k hk => ?_) fun k _ _ => by simp [hphase]
    simp only [State.step, hphase, update_apply] at hk ⊢
    split_ifs at hk with hid
    · obtain rfl := Option.some.inj hk
      simp
    · have hne : k ≠ i := fun hki => hid (hki ▸ rfl)
      simpa [hid, hne] using h k hk
  | _ =>
    -- the newest stream is the same one, and only the entries of the stream's proxy change
    refine forall_congr' fun k => ?_
    rw [newest_step (by simp [hphase])]
    refine forall_congr' fun hk => ?_
    have hkept := h k hk
    simp only [State.step, hphase, update_apply, setCluster_eq, reduceCtorEq, false_imp_iff,
      and_self, and_true, true_and, forall_const, implies_true, iff_true]
    by_cases hki : k = i
    · subst hki
      simp_all [Phase.isOpen]
    · grind

/-- **The newest stream of every proxy stays registered** after each operation of any
interleaving, exactly if every operation is harmless to it. Then it is among the receivers of
every update for its cluster. -/
theorem successor_kept_iff (streams : ℕ → Stream) (schedule : List ℕ) :
    (Runs.Along (State.step streams) (fun s i => Kept streams (s.step streams i)) {} schedule ↔
      Runs.Along (State.step streams) (Harmless streams) {} schedule) ∧
    ∀ s : State, Kept streams s → ∀ i proxyIDs, s.newest (streams i).proxyID = some i →
      s.phase i = .registered → (streams i).proxyID ∈ proxyIDs →
        i ∈ s.receivers (streams i).address proxyIDs := by
  constructor
  · refine Runs.Along.congr (Kept streams) (fun s i hs => kept_step_iff hs i)
      (fun s i hs hi => (kept_step_iff hs i).mpr hi) fun i hi => ?_
    cases hi
  · intro s hs i proxyIDs hnewest hregistered hmem
    obtain ⟨hconnected, hcluster⟩ := hs i hnewest
    refine List.mem_filterMap.mpr ⟨_, List.mem_filter.mpr ⟨hmem, hcluster hregistered⟩, ?_⟩
    exact hconnected (by rw [hregistered]; rfl)

/-- A proxy reconnects before the end of its old stream is cleaned up: the new stream is open
and no update reaches it. -/
theorem reconnected_unreachable :
    let streams := fun _ : ℕ => (⟨"proxy", "eu.proxy.example"⟩ : Stream)
    let s := [0, 0, 1, 1, 0, 0, 0].foldl (State.step streams) {}
    s.newest "proxy" = some 1 ∧ s.phase 1 = .registered ∧ s.connected "proxy" = none ∧
      s.receivers "eu.proxy.example" ["proxy"] = [] := by
  decide

end Netbird.ProxyRegistry
