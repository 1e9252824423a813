/-
The locks of the DNS server (`client/internal/dns/server.go`, `upstream.go`).

An update stops the resolvers of the one before while it holds the server's mutex, and the `Stop`
of a resolver takes the resolver's mutex and waits, holding it, for the goroutines that retry it.
A probe that found no working server calls `deactivate`, which takes the server's mutex, while it
holds the resolver's; a retry that got an answer takes the server's mutex and then the resolver's.

A thread is where it is in its code, and every place says what a thread there holds and waits for.
Any number of threads call `UpdateDNSServer`, `ProbeAvailability` and `Stop`, and an update makes
any number of resolvers.

* `disciplined` — a lock is held by the thread at a place that holds it, and by no other;
* `deadlocked_iff` — the deadlocks of a reachable state;
* `noDeadlock_iff` — when a run meets none.
-/
import Netbird.Lib.Runs
import Netbird.Lib.Waits
import Mathlib.Data.Finset.Basic

namespace Netbird.Dns.Locks

open Function Option Runs

/-- Threads and resolvers are numbered. -/
abbrev Thread := ℕ
abbrev Resolver := ℕ

inductive Resource
  | mux
  | mutex (u : Resolver)
  | wg (u : Resolver)

/-! ### Places -/

/-- Where a thread is. -/
inductive Pc
  | idle
  /-- `UpdateDNSServer` is about to lock `mux`, with the number of resolvers it will make. -/
  | updateStart (count : ℕ)
  /-- It has the resolvers to stop, and if it applies its configuration, those to make. -/
  | updateStops (rest : List Resolver) (make : Option ℕ)
  /-- `Stop` of a resolver has cancelled it and is about to lock its `mutex`. -/
  | updateLock (u : Resolver) (rest : List Resolver) (make : Option ℕ)
  /-- It waits for its `wg`. -/
  | updateWait (u : Resolver) (rest : List Resolver) (make : Option ℕ)
  /-- The server's `ProbeAvailability` is about to lock `mux` … -/
  | snapshotStart
  /-- … to copy the handlers, -/
  | snapshot
  /-- and starts a goroutine for each. -/
  | spawning (us : List Resolver)
  /-- A resolver's `ProbeAvailability` is about to lock `mutex`, -/
  | probeStart (u : Resolver)
  /-- and probes. -/
  | probing (u : Resolver)
  /-- `deactivate` is about to lock `mux`. -/
  | deactivateStart (u : Resolver)
  | deactivating (u : Resolver)
  /-- The rest of `disable`. -/
  | disabling (u : Resolver)
  /-- `waitUntilResponse` looks at the context, -/
  | retryCheck (u : Resolver)
  /-- and asks the servers. -/
  | retryTest (u : Resolver)
  /-- `reactivate` is about to lock `mux`. -/
  | reactivateStart (u : Resolver)
  | reactivating (u : Resolver)
  /-- The retry is about to lock `mutex`, -/
  | clearStart (u : Resolver)
  /-- to take back `disabled`. -/
  | clearing (u : Resolver)
  /-- It is about to leave the wait group. -/
  | retryDone (u : Resolver)
  /-- `Stop` is about to cancel the server's context, -/
  | stopStart
  /-- to lock `mux`, -/
  | stopLock
  /-- and disables DNS. -/
  | stopping
  deriving DecidableEq

namespace Pc

/-- What a thread waits for. -/
def wants : Pc → Option Resource
  | updateStart _ => some .mux
  | updateLock u _ _ => some (.mutex u)
  | updateWait u _ _ => some (.wg u)
  | snapshotStart => some .mux
  | probeStart u => some (.mutex u)
  | deactivateStart _ => some .mux
  | reactivateStart _ => some .mux
  | clearStart u => some (.mutex u)
  | stopLock => some .mux
  | _ => none

def holdsMux : Pc → Bool
  | updateStops _ _ => true
  | updateLock _ _ _ => true
  | updateWait _ _ _ => true
  | snapshot => true
  | deactivating _ => true
  | reactivating _ => true
  | stopping => true
  | _ => false

/-- The resolver whose `mutex` a thread holds. -/
def holdsMutex : Pc → Option Resolver
  | updateWait u _ _ => some u
  | probing u => some u
  | deactivateStart u => some u
  | deactivating u => some u
  | disabling u => some u
  | clearing u => some u
  | _ => none

/-- The resolver whose `wg` counts the thread. -/
def retries : Pc → Option Resolver
  | retryCheck u => some u
  | retryTest u => some u
  | reactivateStart u => some u
  | reactivating u => some u
  | clearStart u => some u
  | clearing u => some u
  | retryDone u => some u
  | _ => none

end Pc

/-! ### States -/

structure State where
  pc : Thread → Pc
  mux : Option Thread
  mutex : Resolver → Option Thread
  /-- The goroutines the wait group counts. -/
  wg : Resolver → Finset Thread
  disabled : Resolver → Bool
  /-- `cancel` of the resolver was called. -/
  cancelled : Resolver → Bool
  /-- The context of the server is cancelled. -/
  closed : Bool
  /-- The resolvers in `dnsMuxMap`. -/
  current : List Resolver
  /-- The number of resolvers made so far. -/
  made : ℕ

def init : State where
  pc _ := .idle
  mux := none
  mutex _ := none
  wg _ := ∅
  disabled _ := false
  cancelled _ := false
  closed := false
  current := []
  made := 0

namespace State

variable (s : State) (t : Thread) (p : Pc)

/-- The locks that are held at the place and were not held before are free. -/
def Free : Prop :=
  (p.holdsMux = true → (s.pc t).holdsMux = false → s.mux = none) ∧
    ∀ u ∈ p.holdsMutex, (s.pc t).holdsMutex ≠ some u → s.mutex u = none

instance : Decidable (s.Free t p) :=
  inferInstanceAs (Decidable (_ ∧ ∀ u ∈ p.holdsMutex, _))

/-- The thread is at the place: it has locked what is held there, unlocked what is not, and joined
or left the wait group. -/
def moved : State :=
  { s with
    pc := Function.update s.pc t p
    mux := if p.holdsMux then some t else if (s.pc t).holdsMux then none else s.mux
    mutex := fun u =>
      if p.holdsMutex = some u then some t
      else if (s.pc t).holdsMutex = some u then none else s.mutex u
    wg := fun u =>
      if p.retries = some u then insert t (s.wg u)
      else if (s.pc t).retries = some u then (s.wg u).erase t else s.wg u }

/-- The thread goes on to the place, if the locks are free. -/
def goto : Option State := if s.Free t p then some (s.moved t p) else none

/-- The context of a resolver is cancelled, its own or the server's. -/
def done (u : Resolver) : Bool := s.cancelled u || s.closed

end State

/-! ### Steps -/

/-- The calls that start a thread. -/
inductive Entry
  | update (count : ℕ)
  | probe
  | stop

/-- A thread starts a call, goes on, or starts a goroutine.  What the network decides is in the
flag: for an update, whether the configuration is new; for a probe, that no server works; for a
retry, that one does. -/
inductive Action
  | call (t : Thread) (e : Entry)
  | go (t : Thread) (flag : Bool)
  | fork (t t' : Thread)

variable (s : State)

/-- The place a call starts at; an update and a probe return at once if the context is closed. -/
def Entry.start : Entry → Option Pc
  | update count => if s.closed then none else some (.updateStart count)
  | probe => if s.closed then none else some .snapshotStart
  | stop => some .stopStart

/-- What a thread does where it is, and the place it goes on to. -/
def turn (t : Thread) (flag : Bool) : Option (State × Pc) :=
  match s.pc t with
  | .updateStart count =>
    some (s, if flag then .updateStops s.current (some count) else .updateStops [] none)
  | .updateStops [] none => some (s, .idle)
  | .updateStops [] (some count) =>
    some ({ s with current := List.range' s.made count, made := s.made + count }, .idle)
  | .updateStops (u :: rest) make =>
    some ({ s with cancelled := Function.update s.cancelled u true }, .updateLock u rest make)
  | .updateLock u rest make => some (s, .updateWait u rest make)
  | .updateWait u rest make => if s.wg u = ∅ then some (s, .updateStops rest make) else none
  | .snapshotStart => some (s, .snapshot)
  | .snapshot => some (s, .spawning s.current)
  | .spawning [] => some (s, .idle)
  | .probeStart u => some (s, .probing u)
  | .probing u =>
    -- a probe that found no server looks at the contexts once more
    if flag = false then some (s, .idle)
    else if s.done u then none
    else some (s, if s.disabled u then .idle else .deactivateStart u)
  | .deactivateStart u => some (s, .deactivating u)
  | .deactivating u => some (s, .disabling u)
  | .retryCheck u => some (s, if s.done u then .retryDone u else .retryTest u)
  | .retryTest u => some (s, if flag then .reactivateStart u else .retryCheck u)
  | .reactivateStart u => some (s, .reactivating u)
  | .reactivating u => some (s, .clearStart u)
  | .clearStart u => some (s, .clearing u)
  | .clearing u =>
    some ({ s with disabled := Function.update s.disabled u false }, .retryDone u)
  | .retryDone _ => some (s, .idle)
  | .stopStart => some ({ s with closed := true }, .stopLock)
  | .stopLock => some (s, .stopping)
  | .stopping => some (s, .idle)
  | _ => none

/-- Where a thread that starts a goroutine goes on, and where the goroutine begins. -/
def forked (t : Thread) : Option (State × Pc × Pc) :=
  match s.pc t with
  | .spawning (u :: us) => some (s, .spawning us, .probeStart u)
  | .disabling u =>
    some ({ s with disabled := Function.update s.disabled u true }, .idle, .retryCheck u)
  | _ => none

def next : Action → Option State
  | .call t e => if s.pc t = .idle then (e.start s).bind (s.goto t) else none
  | .go t flag => (turn s t flag).bind fun r => r.1.goto t r.2
  | .fork t t' =>
    if s.pc t' = .idle then
      (forked s t).bind fun r => (r.1.goto t r.2.1).bind (·.goto t' r.2.2)
    else none

/-- The state holds the resource for the thread. -/
def State.Holds : Resource → Thread → Prop
  | .mux, t => s.mux = some t
  | .mutex u, t => s.mutex u = some t
  | .wg u, t => t ∈ s.wg u

/-- A set of threads of the state is deadlocked. -/
def State.Deadlocked (s : State) : Prop :=
  ∃ threads, Waits.Deadlocked (fun t => (s.pc t).wants) s.Holds threads

/-! ### Who holds a lock -/

/-- The locks are held, and the wait groups joined, by the threads that are at such a place. -/
structure Locked (s : State) : Prop where
  mux : ∀ t, s.mux = some t ↔ (s.pc t).holdsMux = true
  mutex : ∀ u t, s.mutex u = some t ↔ (s.pc t).holdsMutex = some u
  wg : ∀ u t, t ∈ s.wg u ↔ (s.pc t).retries = some u

/-- The states differ in what the locks do not see. -/
structure SameLocks (s s₁ : State) : Prop where
  pc : s₁.pc = s.pc
  mux : s₁.mux = s.mux
  mutex : s₁.mutex = s.mutex
  wg : s₁.wg = s.wg

theorem Locked.of_same {s s₁ : State} (h : Locked s) (hsame : SameLocks s s₁) : Locked s₁ := by
  obtain ⟨hpc, hmux, hmutex, hwg⟩ := hsame
  exact ⟨by simpa only [hpc, hmux] using h.mux, by simpa only [hpc, hmutex] using h.mutex,
    by simpa only [hpc, hwg] using h.wg⟩

section Moves

variable {s s₁ s' : State} {t t' : Thread} {p p' : Pc} {flag : Bool}

theorem Locked.eq_of_holdsMux (h : Locked s) (ht : (s.pc t).holdsMux = true)
    (ht' : (s.pc t').holdsMux = true) : t = t' :=
  some.inj (((h.mux t).mpr ht).symm.trans ((h.mux t').mpr ht'))

theorem goto_eq_some : s.goto t p = some s' ↔ s.Free t p ∧ s.moved t p = s' := by
  simp [State.goto]

/-- A lock is held by the thread that is at a place where it is held, also after a move. -/
theorem held_moved {lock : Option Thread} {P : Pc → Prop} [DecidablePred P]
    (h : ∀ t, lock = some t ↔ P (s.pc t)) (hfree : P p → ¬ P (s.pc t) → lock = none) :
    (if P p then some t else if P (s.pc t) then none else lock) = some t' ↔
      P (update s.pc t p t') := by
  by_cases ht : t' = t
  · subst ht
    by_cases hp : P p <;> by_cases hq : P (s.pc t') <;> simp [hp, hq, h]
  · rw [update_of_ne ht, ← h t']
    by_cases hq : P (s.pc t)
    · rw [(h t).mpr hq]
      by_cases hp : P p <;> simp [hp, hq, Ne.symm ht]
    · by_cases hp : P p
      · simp [hp, hfree hp hq, Ne.symm ht]
      · simp [hp, hq]

theorem Locked.moved (h : Locked s) (hfree : s.Free t p) : Locked (s.moved t p) := by
  refine ⟨fun t' => ?_, fun u t' => ?_, fun u t' => ?_⟩
  · exact held_moved (P := fun p => p.holdsMux = true) h.mux fun hp hq =>
      hfree.1 hp (Bool.eq_false_of_not_eq_true hq)
  · exact held_moved (P := fun p => p.holdsMutex = some u) (h.mutex u) (hfree.2 u)
  · by_cases ht : t' = t
    · have := h.wg u t'
      by_cases hp : p.retries = some u <;> by_cases hq : (s.pc t').retries = some u <;>
        simp_all [State.moved]
    · have hne : (update s.pc t p) t' = s.pc t' := update_of_ne ht _ _
      simp only [State.moved, hne, ← h.wg u t']
      split_ifs <;> simp [ht]

theorem turn_same (h : turn s t flag = some (s₁, p)) : SameLocks s s₁ := by
  unfold turn at h
  split at h
  all_goals first
    | (split_ifs at h <;> cases h <;> exact ⟨rfl, rfl, rfl, rfl⟩)
    | (cases h <;> exact ⟨rfl, rfl, rfl, rfl⟩)

theorem forked_same (h : forked s t = some (s₁, p, p')) : SameLocks s s₁ := by
  unfold forked at h
  split at h <;> cases h <;> exact ⟨rfl, rfl, rfl, rfl⟩

theorem next_cases {a : Action} (h : next s a = some s') :
    (∃ t e p, a = .call t e ∧ s.pc t = .idle ∧ e.start s = some p ∧ s.Free t p ∧ s.moved t p = s') ∨
    (∃ t flag s₁ p, a = .go t flag ∧ turn s t flag = some (s₁, p) ∧ s₁.Free t p ∧
      s₁.moved t p = s') ∨
    ∃ t t' s₁ p p', a = .fork t t' ∧ s.pc t' = .idle ∧ forked s t = some (s₁, p, p') ∧
      s₁.Free t p ∧ (s₁.moved t p).Free t' p' ∧ (s₁.moved t p).moved t' p' = s' := by
  cases a with
  | call t e =>
    simp only [next] at h
    split_ifs at h with hidle
    obtain ⟨p, hp, hgoto⟩ := bind_eq_some_iff.mp h
    obtain ⟨hfree, hs'⟩ := goto_eq_some.mp hgoto
    exact .inl ⟨t, e, p, rfl, hidle, hp, hfree, hs'⟩
  | go t flag =>
    obtain ⟨⟨s₁, p⟩, hturn, hgoto⟩ := bind_eq_some_iff.mp h
    obtain ⟨hfree, hs'⟩ := goto_eq_some.mp hgoto
    exact .inr (.inl ⟨t, flag, s₁, p, rfl, hturn, hfree, hs'⟩)
  | fork t t' =>
    simp only [next] at h
    split_ifs at h with hidle
    obtain ⟨⟨s₁, p, p'⟩, hforked, hgoto⟩ := bind_eq_some_iff.mp h
    obtain ⟨s₂, hgoto₁, hgoto₂⟩ := bind_eq_some_iff.mp hgoto
    obtain ⟨hfree, rfl⟩ := goto_eq_some.mp hgoto₁
    obtain ⟨hfree', hs'⟩ := goto_eq_some.mp hgoto₂
    exact .inr (.inr ⟨t, t', s₁, p, p', rfl, hidle, hforked, hfree, hfree', hs'⟩)

theorem Locked.next {a : Action} (h : Locked s) (hnext : next s a = some s') : Locked s' := by
  rcases next_cases hnext with ⟨t, e, p, -, -, -, hfree, rfl⟩ |
    ⟨t, flag, s₁, p, -, hturn, hfree, rfl⟩ | ⟨t, t', s₁, p, p', -, -, hforked, hfree, hfree', rfl⟩
  · exact h.moved hfree
  · exact (h.of_same (turn_same hturn)).moved hfree
  · exact ((h.of_same (forked_same hforked)).moved hfree).moved hfree'

/-! ### Cancelled resolvers -/

/-- A resolver is cancelled before `Stop` goes for its mutex. -/
def Cancels (s : State) : Prop :=
  ∀ t u rest make, s.pc t = .updateLock u rest make → s.cancelled u = true

theorem turn_cancelled (h : turn s t flag = some (s₁, p)) :
    (∀ u, s.cancelled u = true → s₁.cancelled u = true) ∧
      ∀ u rest make, p = .updateLock u rest make → s₁.cancelled u = true := by
  unfold turn at h
  split at h
  case h_4 u rest make _ =>
    obtain ⟨rfl, rfl⟩ := Prod.mk.inj (some.inj h)
    refine ⟨(forall_update_iff s.cancelled fun u b => s.cancelled u = true → b = true).mpr
      ⟨fun _ => rfl, fun _ _ => id⟩, fun u' rest' make' heq => ?_⟩
    obtain ⟨rfl, -, -⟩ := Pc.updateLock.inj heq
    exact update_self ..
  all_goals
    try split_ifs at h
    all_goals
      cases h <;> exact ⟨fun _ hu => hu, fun _ _ _ heq => nomatch heq⟩

theorem Cancels.moved (h : Cancels s) (hp : ∀ u rest make, p = .updateLock u rest make →
    s.cancelled u = true) : Cancels (s.moved t p) :=
  (forall_update_iff s.pc fun _ q => ∀ u rest make, q = .updateLock u rest make →
    s.cancelled u = true).mpr ⟨hp, fun t' _ => h t'⟩

theorem Cancels.next {a : Action} (h : Cancels s) (hnext : next s a = some s') : Cancels s' := by
  rcases next_cases hnext with ⟨t, e, p, -, -, hstart, -, rfl⟩ |
    ⟨t, flag, s₁, p, -, hturn, -, rfl⟩ | ⟨t, t', s₁, p, p', -, -, hforked, -, -, rfl⟩
  · refine h.moved fun u rest make heq => ?_
    subst heq
    cases e <;> simp [Entry.start] at hstart
  · obtain ⟨hkeep, hlock⟩ := turn_cancelled hturn
    refine Cancels.moved (fun t' u rest make hpc => ?_) hlock
    rw [(turn_same hturn).pc] at hpc
    exact hkeep u (h t' u rest make hpc)
  · unfold forked at hforked
    split at hforked <;> cases hforked
    · exact (h.moved (by simp)).moved (by simp)
    · exact Cancels.moved (Cancels.moved h (by simp)) (by simp)

end Moves

/-! ### The deadlocks -/

/-- The threads are stuck: an update waits for the mutex of a resolver whose probe waits for the
server's, or for the goroutines of a resolver, all of which wait for one of the two mutexes. -/
def Stuck (pc : Thread → Pc) : Prop :=
  (∃ t h u rest make, pc t = .updateLock u rest make ∧ pc h = .deactivateStart u) ∨
    ∃ t u rest make, pc t = .updateWait u rest make ∧ (∃ r, (pc r).retries = some u) ∧
      ∀ r, (pc r).retries = some u → (pc r).wants.isSome

namespace Pc

variable {p : Pc} {u : Resolver}

theorem update_of_holdsMux (hp : p.holdsMux = true) (hw : p.wants.isSome) :
    ∃ u rest make, p = .updateLock u rest make ∨ p = .updateWait u rest make := by
  cases p <;> simp_all [holdsMux, wants]

/-- Who waits with the mutex of a resolver is an update, or a probe that waits for `mux`. -/
theorem of_holdsMutex (hp : p.holdsMutex = some u) (hw : p.wants.isSome) :
    p = .deactivateStart u ∨ ∃ rest make, p = .updateWait u rest make := by
  cases p <;> simp_all [holdsMutex, wants]

theorem of_wants_wg (hp : p.wants = some (.wg u)) : ∃ rest make, p = .updateWait u rest make := by
  cases p <;> simp_all [wants]

/-- A retry that waits, waits for `mux` or the mutex of its resolver. -/
theorem of_retries (hp : p.retries = some u) (hw : p.wants.isSome) :
    p.wants = some .mux ∨ p.wants = some (.mutex u) := by
  cases p <;> simp_all [retries, wants]

end Pc

section Deadlocks

variable {s : State}

/-- Every deadlocked set has the update that holds the server's mutex. -/
theorem exists_update {threads : Set Thread} (hs : Locked s)
    (hd : Waits.Deadlocked (fun t => (s.pc t).wants) s.Holds threads) :
    ∃ t ∈ threads, ∃ u rest make,
      s.pc t = .updateLock u rest make ∨ s.pc t = .updateWait u rest make := by
  -- whoever waits for `mux` waits for it
  have hmux : ∀ t ∈ threads, (s.pc t).wants = some .mux → ∃ t ∈ threads, ∃ u rest make,
      s.pc t = .updateLock u rest make ∨ s.pc t = .updateWait u rest make := by
    intro t ht hw
    obtain ⟨h, hh, hholds⟩ := hd.exists_holder ht hw
    exact ⟨h, hh, Pc.update_of_holdsMux ((hs.mux h).mp hholds) (hd.wants_isSome hh)⟩
  obtain ⟨t, ht⟩ := hd.1
  obtain ⟨x, hx, -, -⟩ := hd.2 t ht
  cases x with
  | mux => exact hmux t ht hx
  | mutex u =>
    obtain ⟨h, hh, hholds⟩ := hd.exists_holder ht hx
    rcases Pc.of_holdsMutex ((hs.mutex u h).mp hholds) (hd.wants_isSome hh) with
      hpc | ⟨rest, make, hpc⟩
    · exact hmux h hh (by rw [hpc]; rfl)
    · exact ⟨h, hh, u, rest, make, .inr hpc⟩
  | wg u =>
    obtain ⟨rest, make, hpc⟩ := Pc.of_wants_wg hx
    exact ⟨t, ht, u, rest, make, .inr hpc⟩

/-- **The deadlocks of a state in which the locks are kept**: there is a deadlocked set if and
only if an update is stuck at a resolver. -/
theorem deadlocked_iff (hs : Locked s) : s.Deadlocked ↔ Stuck s.pc := by
  constructor
  · rintro ⟨threads, hd⟩
    obtain ⟨t, ht, u, rest, make, hpc | hpc⟩ := exists_update hs hd
    · left
      have hw : (s.pc t).wants = some (.mutex u) := by rw [hpc]; rfl
      obtain ⟨h, hh, hholds⟩ := hd.exists_holder ht hw
      rcases Pc.of_holdsMutex ((hs.mutex u h).mp hholds) (hd.wants_isSome hh) with
        hpc' | ⟨rest', make', hpc'⟩
      · exact ⟨t, h, u, rest, make, hpc, hpc'⟩
      · -- it would be a second update with the server's mutex
        obtain rfl : t = h := hs.eq_of_holdsMux (by rw [hpc]; rfl) (by rw [hpc']; rfl)
        rw [hpc] at hpc'
        cases hpc'
    · right
      have hw : (s.pc t).wants = some (.wg u) := by rw [hpc]; rfl
      obtain ⟨r, hr, hholds⟩ := hd.exists_holder ht hw
      refine ⟨t, u, rest, make, hpc, ⟨r, (hs.wg u r).mp hholds⟩, fun r' hr' => ?_⟩
      exact hd.wants_isSome (hd.holder ht hw ((hs.wg u r').mpr hr'))
  · rintro (⟨t, h, u, rest, make, hpc, hpc'⟩ | ⟨t, u, rest, make, hpc, ⟨r, hr⟩, hall⟩)
    · have hmux : s.mux = some t := (hs.mux t).mpr (by rw [hpc]; rfl)
      have hmutex : s.mutex u = some h := (hs.mutex u h).mpr (by rw [hpc']; rfl)
      refine ⟨{t, h}, .pair (x := .mutex u) (y := .mux) (by rw [hpc]; rfl) (by rw [hpc']; rfl)
        (fun t' => ?_) fun t' => ?_⟩
      · simp [State.Holds, hmutex, eq_comm]
      · simp [State.Holds, hmux, eq_comm]
    · have hmux : s.mux = some t := (hs.mux t).mpr (by rw [hpc]; rfl)
      have hmutex : s.mutex u = some t := (hs.mutex u t).mpr (by rw [hpc]; rfl)
      refine ⟨{ t' | t' = t ∨ (s.pc t').retries = some u }, ⟨t, .inl rfl⟩, ?_⟩
      rintro t' (rfl | hr')
      · refine ⟨.wg u, by simp only [hpc]; rfl, ⟨r, (hs.wg u r).mpr hr⟩, fun h hh => ?_⟩
        exact .inr ((hs.wg u h).mp hh)
      · rcases Pc.of_retries hr' (hall t' hr') with hw | hw
        · exact ⟨.mux, hw, ⟨t, hmux⟩, fun h hh => .inl (some.inj (hh.symm.trans hmux))⟩
        · exact ⟨.mutex u, hw, ⟨t, hmutex⟩,
            fun h hh => .inl (some.inj (hh.symm.trans hmutex))⟩

end Deadlocks

/-! ### The steps that close a deadlock -/

/-- All goroutines of the resolver but this one wait. -/
def OthersWait (u : Resolver) (t : Thread) : Prop :=
  ∀ r ∈ s.wg u, r ≠ t → (s.pc r).wants.isSome

/-- The step closes a deadlock: an update goes to stop a resolver whose probe is about to call
`deactivate`; it takes the mutex of a resolver with goroutines that all wait; or, while it waits
for them, the last that does not wait gets an answer, or leaves. -/
def Closes : Action → Prop
  | .go t flag =>
    match s.pc t with
    | .updateStops (u :: _) _ => ∃ h, s.pc h = .deactivateStart u
    | .updateLock u _ _ => (s.wg u).Nonempty ∧ OthersWait s u t
    | .retryTest u => flag = true ∧ (∃ h rest make, s.pc h = .updateWait u rest make) ∧
        OthersWait s u t
    | .retryDone u => (∃ h rest make, s.pc h = .updateWait u rest make) ∧
        (∃ r ∈ s.wg u, r ≠ t) ∧ OthersWait s u t
    | _ => False
  | _ => False

section Closing

variable {s s₁ s' : State} {t : Thread} {p : Pc} {flag : Bool} {pc : Thread → Pc} {u : Resolver}

/-- How a move can make threads stuck, if no thread joins a wait group at a place where it
waits. -/
theorem stuck_update (h : Stuck (update pc t p))
    (hjoin : ∀ u, p.retries = some u → p.wants.isSome → (pc t).retries = some u) : Stuck pc ∨
    (∃ u rest make, p = .updateLock u rest make ∧ ∃ h, pc h = .deactivateStart u) ∨
    (∃ u, p = .deactivateStart u ∧ ∃ h rest make, pc h = .updateLock u rest make) ∨
    (∃ u rest make, p = .updateWait u rest make ∧ (∃ r, r ≠ t ∧ (pc r).retries = some u) ∧
      ∀ r, r ≠ t → (pc r).retries = some u → (pc r).wants.isSome) ∨
    ∃ u h rest make, h ≠ t ∧ pc h = .updateWait u rest make ∧ (pc t).retries = some u ∧
      (∀ r, r ≠ t → (pc r).retries = some u → (pc r).wants.isSome) ∧
      (p.retries = some u ∧ p.wants.isSome ∨
        p.retries ≠ some u ∧ ∃ r, r ≠ t ∧ (pc r).retries = some u) := by
  rcases h with ⟨t₁, t₂, u, rest, make, h₁, h₂⟩ | ⟨t₁, u, rest, make, h₁, ⟨r, hr⟩, hall⟩
  · rcases (exists_update_iff pc fun _ q => q = .updateLock u rest make).mp ⟨t₁, h₁⟩ with
        rfl | ⟨t₁, -, h₁⟩ <;>
      rcases (exists_update_iff pc fun _ q => q = .deactivateStart u).mp ⟨t₂, h₂⟩ with
        h₂ | ⟨t₂, -, h₂⟩
    · cases h₂
    · exact .inr (.inl ⟨u, rest, make, rfl, t₂, h₂⟩)
    · exact .inr (.inr (.inl ⟨u, h₂, t₁, rest, make, h₁⟩))
    · exact .inl (.inl ⟨t₁, t₂, u, rest, make, h₁, h₂⟩)
  · obtain ⟨hself, hrest⟩ :=
      (forall_update_iff pc fun _ q => q.retries = some u → q.wants.isSome).mp hall
    have hr := (exists_update_iff pc fun _ q => q.retries = some u).mp ⟨r, hr⟩
    rcases (exists_update_iff pc fun _ q => q = .updateWait u rest make).mp ⟨t₁, h₁⟩ with
      rfl | ⟨t₁, ht₁, h₁⟩
    · exact .inr (.inr (.inr (.inl ⟨u, rest, make, rfl, hr.resolve_left nofun, hrest⟩)))
    by_cases hold : (pc t).retries = some u
    · refine .inr (.inr (.inr (.inr ⟨u, t₁, rest, make, ht₁, h₁, hold, hrest, ?_⟩)))
      by_cases hnew : p.retries = some u
      · exact .inl ⟨hnew, hself hnew⟩
      · exact .inr ⟨hnew, hr.resolve_left hnew⟩
    · -- the thread is no goroutine of the resolver, and does not become one that waits
      obtain ⟨r, -, hr⟩ := hr.resolve_left fun hnew => hold (hjoin u hnew (hself hnew))
      refine .inl (.inr ⟨t₁, u, rest, make, h₁, ⟨r, hr⟩, fun r' hr' => hrest r' ?_ hr'⟩)
      rintro rfl
      exact hold hr'

/-- Where a thread was before it came to a place at which it can get stuck. -/
theorem turn_to (h : turn s t flag = some (s₁, p)) :
    match p with
    | .updateLock u rest make => s.pc t = .updateStops (u :: rest) make
    | .updateWait u rest make => s.pc t = .updateLock u rest make
    | .deactivateStart u => s.done u = false
    | _ => True := by
  unfold turn at h
  split at h <;> (try split_ifs at h) <;> cases h <;> simp_all

/-- A goroutine that waits after its turn got an answer, or held the server's mutex. -/
theorem turn_retries (h : turn s t flag = some (s₁, p)) (hp : p.retries = some u)
    (hw : p.wants.isSome) : (s.pc t).retries = some u ∧
      (s.pc t = .retryTest u ∧ flag = true ∨ (s.pc t).holdsMux = true) := by
  unfold turn at h
  -- the places of a retry that wait are left
  split at h <;> (try split_ifs at h) <;> cases h <;> cases hp <;> try cases hw
  all_goals simp [Pc.retries, Pc.holdsMux, *]

theorem turn_leaves (h : turn s t flag = some (s₁, p)) (hold : (s.pc t).retries = some u)
    (hp : p.retries ≠ some u) : s.pc t = .retryDone u := by
  cases hpc : s.pc t <;> rw [hpc] at hold <;> cases hold <;> simp only [turn, hpc] at h
  all_goals first
    | rfl
    | ((try split_ifs at h) <;> cases h <;> exact absurd rfl hp)

/-- A thread that is no retry, and does not go to wait inside `Stop`, `disable` or a retry, makes
nobody stuck. -/
theorem stuck_of_harmless (h : Stuck (update pc t p)) (hold : (pc t).retries = none)
    (hp : p.wants = none ∨ p.holdsMux = false ∧ p.holdsMutex = none ∧ p.retries = none) :
    Stuck pc := by
  have hjoin : ∀ u, p.retries = some u → p.wants.isSome → (pc t).retries = some u := by
    intro u hu hw
    rcases hp with hp | ⟨-, -, hp⟩
    · simp [hp] at hw
    · simp [hp] at hu
  rcases stuck_update h hjoin with h | ⟨u, rest, make, rfl, -⟩ | ⟨u, rfl, -⟩ |
    ⟨u, rest, make, rfl, -⟩ | ⟨u, _, _, _, _, -, hu, -⟩
  · exact h
  · simp [Pc.wants, Pc.holdsMux] at hp
  · simp [Pc.wants, Pc.holdsMutex] at hp
  · simp [Pc.wants, Pc.holdsMux] at hp
  · simp [hold] at hu

theorem forked_harmless {p' : Pc} (h : forked s t = some (s₁, p, p')) :
    (s.pc t).retries = none ∧ s.pc t ≠ .idle ∧ p.wants = none ∧
      (p'.wants = none ∨ p'.holdsMux = false ∧ p'.holdsMutex = none ∧ p'.retries = none) := by
  unfold forked at h
  split at h
  · next hat =>
    cases h
    exact ⟨by rw [hat]; rfl, by simp [hat], rfl, .inr ⟨rfl, rfl, rfl⟩⟩
  · next hat =>
    cases h
    exact ⟨by rw [hat]; rfl, by simp [hat], rfl, .inl rfl⟩
  · cases h

/-- A step makes threads stuck only if it closes a deadlock. -/
theorem closes_of_stuck {a : Action} (hl : Locked s) (hc : Cancels s)
    (hnext : next s a = some s') (h : Stuck s'.pc) (hs : ¬ Stuck s.pc) : Closes s a := by
  rcases next_cases hnext with ⟨t, e, p, -, hidle, hstart, -, rfl⟩ |
    ⟨t, flag, s₁, p, rfl, hturn, -, rfl⟩ | ⟨t, t', s₁, p, p', -, hidle, hforked, -, -, rfl⟩
  · refine absurd (stuck_of_harmless h (by rw [hidle]; rfl) ?_) hs
    cases e with
    | stop =>
      cases hstart
      exact .inl rfl
    | _ =>
      simp only [Entry.start] at hstart
      split_ifs at hstart
      cases hstart
      exact .inr ⟨rfl, rfl, rfl⟩
  · have hpc := (turn_same hturn).pc
    have hjoin : ∀ u, p.retries = some u → p.wants.isSome → (s.pc t).retries = some u :=
      fun u hu hw => (turn_retries hturn hu hw).1
    simp only [State.moved, hpc] at h
    rcases stuck_update h hjoin with h | ⟨u, rest, make, rfl, hprobe⟩ |
      ⟨u, rfl, h, rest, make, hlock⟩ | ⟨u, rest, make, rfl, ⟨r, -, hr⟩, hall⟩ |
      ⟨u, h, rest, make, hne, hwait, hold, hall, hp⟩
    · exact absurd h hs
    · simp only [Closes, turn_to hturn]
      exact hprobe
    · -- the probe has looked at the context, which is cancelled
      have hdone := turn_to hturn
      simp [State.done, hc h u rest make hlock] at hdone
    · simp only [Closes, turn_to hturn]
      exact ⟨⟨r, (hl.wg u r).mpr hr⟩, fun r hr hne => hall r hne ((hl.wg u r).mp hr)⟩
    · have hothers : OthersWait s u t := fun r hr hne => hall r hne ((hl.wg u r).mp hr)
      rcases hp with ⟨hnew, hw⟩ | ⟨hnew, r, hr, hru⟩
      · rcases (turn_retries hturn hnew hw).2 with ⟨htest, hflag⟩ | hmux
        · simp only [Closes, htest]
          exact ⟨hflag, ⟨h, rest, make, hwait⟩, hothers⟩
        · -- two threads would hold the server's mutex
          exact absurd (hl.eq_of_holdsMux (by rw [hwait]; rfl) hmux) hne
      · simp only [Closes, turn_leaves hturn hold hnew]
        exact ⟨⟨h, rest, make, hwait⟩, ⟨r, (hl.wg u r).mpr hru, hr⟩, hothers⟩
  · refine absurd ?_ hs
    have hpc := (forked_same hforked).pc
    simp only [State.moved, hpc] at h
    obtain ⟨hretries, hat, hp, hp'⟩ := forked_harmless hforked
    have hne : t' ≠ t := by
      rintro rfl
      exact hat hidle
    have hfirst := stuck_of_harmless h (by rw [update_of_ne hne, hidle]; rfl) hp'
    exact stuck_of_harmless hfirst hretries (.inl hp)

/-- … and every step that closes one does. -/
theorem stuck_of_closes {a : Action} (hl : Locked s) (hnext : next s a = some s')
    (h : Closes s a) : Stuck s'.pc := by
  cases a with
  | call t e => exact h.elim
  | fork t t' => exact h.elim
  | go t flag =>
    obtain ⟨⟨s₁, p⟩, hturn, hgoto⟩ := bind_eq_some_iff.mp hnext
    obtain ⟨-, rfl⟩ := goto_eq_some.mp hgoto
    have hpc : (s₁.moved t p).pc = update s.pc t p := by
      rw [← (turn_same hturn).pc]
      rfl
    have hother : ∀ {r}, r ≠ t → update s.pc t p r = s.pc r :=
      fun hr => update_of_ne hr _ _
    have hself : update s.pc t p t = p := update_self ..
    rw [hpc]
    simp only [Closes] at h
    -- the thread that moves is at none of the places where others wait
    have hne : ∀ {h}, s.pc h ≠ s.pc t → h ≠ t := fun hpc => ne_of_apply_ne s.pc hpc
    have hwaits : ∀ u, OthersWait s u t → (p.retries = some u → p.wants.isSome) → ∀ r,
        (update s.pc t p r).retries = some u → (update s.pc t p r).wants.isSome :=
      fun u hall hp => (forall_update_iff s.pc fun _ q => q.retries = some u → q.wants.isSome).mpr
        ⟨hp, fun r hrt hr => hall r ((hl.wg u r).mpr hr) hrt⟩
    split at h
    · next u rest make hat =>
      obtain ⟨h, hh⟩ := h
      simp only [turn, hat, some.injEq, Prod.mk.injEq] at hturn
      exact .inl ⟨t, h, u, rest, make, hself.trans hturn.2.symm,
        (hother (hne (by simp [hat, hh]))).trans hh⟩
    · next u rest make hat =>
      obtain ⟨⟨r, hr⟩, hall⟩ := h
      simp only [turn, hat, some.injEq, Prod.mk.injEq] at hturn
      have hru := (hl.wg u r).mp hr
      have hrt : r ≠ t := hne fun heq => by simp [heq, hat, Pc.retries] at hru
      exact .inr ⟨t, u, rest, make, hself.trans hturn.2.symm, ⟨r, by rw [hother hrt]; exact hru⟩,
        hwaits u hall fun hp => by simp [← hturn.2, Pc.retries] at hp⟩
    · next u hat =>
      obtain ⟨rfl, ⟨h, rest, make, hwait⟩, hall⟩ := h
      simp only [turn, hat, if_true, some.injEq, Prod.mk.injEq] at hturn
      exact .inr ⟨h, u, rest, make, (hother (hne (by simp [hat, hwait]))).trans hwait,
        ⟨t, by rw [hself, ← hturn.2]; rfl⟩, hwaits u hall fun _ => by rw [← hturn.2]; rfl⟩
    · next u hat =>
      obtain ⟨⟨h, rest, make, hwait⟩, ⟨r, hr, hrt⟩, hall⟩ := h
      simp only [turn, hat, some.injEq, Prod.mk.injEq] at hturn
      exact .inr ⟨h, u, rest, make, (hother (hne (by simp [hat, hwait]))).trans hwait,
        ⟨r, by rw [hother hrt]; exact (hl.wg u r).mp hr⟩,
        hwaits u hall fun hp => by simp [← hturn.2, Pc.retries] at hp⟩
    · exact h.elim

end Closing

/-! ### Runs -/

theorem Locked.init : Locked init where
  mux := by simp [Locks.init, Pc.holdsMux]
  mutex := by simp [Locks.init, Pc.holdsMutex]
  wg := by simp [Locks.init, Pc.retries]

theorem Cancels.init : Cancels init := by
  intro t u rest make h
  cases h

theorem disciplined {acts : List Action} {s : State} (h : Runs.exec next init acts = some s) :
    Locked s ∧ Cancels s :=
  exec_keeps (fun s => Locked s ∧ Cancels s)
    (fun _ _ _ hnext hs => ⟨hs.1.next hnext, hs.2.next hnext⟩) h ⟨.init, .init⟩

theorem not_deadlocked_init : ¬ init.Deadlocked := by
  rw [deadlocked_iff .init]
  rintro (⟨t, h, u, rest, make, hpc, -⟩ | ⟨t, u, rest, make, hpc, -⟩) <;> cases hpc

/-- **A run meets no deadlock if and only if none of its steps closes one.** -/
theorem noDeadlock_iff (acts : List Action) :
    (∀ acts₁ acts₂ s, acts = acts₁ ++ acts₂ → Runs.exec next init acts₁ = some s → ¬ s.Deadlocked) ↔
      ∀ acts₁ a acts₂ s s', acts = acts₁ ++ a :: acts₂ →
        Runs.exec next init acts₁ = some s → next s a = some s' → ¬ Closes s a := by
  constructor
  · intro h acts₁ a acts₂ s s' heq hrun hnext hcloses
    have hrun' : exec next init (acts₁ ++ [a]) = some s' :=
      exec_append_eq_some.mpr ⟨s, hrun, exec_cons_eq_some.mpr ⟨s', hnext, rfl⟩⟩
    refine h (acts₁ ++ [a]) acts₂ s' (by simp [heq]) hrun' ?_
    rw [deadlocked_iff (disciplined hrun').1]
    exact stuck_of_closes (disciplined hrun).1 hnext hcloses
  · intro h acts₁ acts₂ s heq hrun hdead
    obtain ⟨as₁, a, as₂, s₁, s₂, hacts, hrun₁, hnext, hno, hyes⟩ :=
      exec_change State.Deadlocked hrun not_deadlocked_init hdead
    have hdisc := disciplined hrun₁
    have hdisc₂ : Locked s₂ := hdisc.1.next hnext
    refine h as₁ a (as₂ ++ acts₂) s₁ s₂ (by simp [heq, hacts]) hrun₁ hnext ?_
    rw [deadlocked_iff hdisc.1] at hno
    rw [deadlocked_iff hdisc₂] at hyes
    exact closes_of_stuck hdisc.1 hdisc.2 hnext hyes hno

/-- One resolver; its probe has found no server and goes to deactivate it when an update goes to
stop it. -/
def probedWhileUpdated : List Action :=
  [.call 0 (.update 1), .go 0 true, .go 0 true,
    .call 1 .probe, .go 1 true, .go 1 true, .fork 1 2, .go 2 true, .go 2 true,
    .call 0 (.update 1), .go 0 true, .go 0 true]

/-- The update holds the server's mutex and waits for the resolver's, the probe the other way
round. -/
theorem probe_and_update_deadlock :
    ∃ s, Runs.exec next init probedWhileUpdated = some s ∧ s.Deadlocked := by
  have hpc : (exec next init probedWhileUpdated).map (fun s => (s.pc 0, s.pc 2)) =
      some (.updateLock 0 [] (some 1), .deactivateStart 0) := by decide +kernel
  obtain ⟨s, hs, hat⟩ := map_eq_some_iff.mp hpc
  obtain ⟨hupdate, hprobe⟩ := Prod.mk.inj hat
  exact ⟨s, hs, (deadlocked_iff (disciplined hs).1).mpr
    (.inl ⟨0, 2, 0, [], some 1, hupdate, hprobe⟩)⟩

end Netbird.Dns.Locks
