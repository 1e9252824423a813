/-
The unhealthy signal of the tunnel (`client/internal/tunnel/machine.go`, `health.go`).

Each call of `maintainConnection` has its own health checker, but all checkers signal over one
channel, which holds a value.  A checker signals at every failure from the threshold on, also
after its call has returned.

* **`ownFailures_iff`** — when a connection is given up for its own failures only.
-/
import Netbird.Lib.Runs
import Mathlib.Data.List.Infix

namespace Netbird.Health

open List

/-- A checker: its checks, the last one first and `true` if unhealthy, and whether it is about to
call `onUnhealthy`. -/
structure HealthChecker where
  consecutiveFailures : ℕ := 0
  calls : Bool := false
  checks : List Bool := []

def defaultConsecutiveFailures : ℕ := 3

def performCheck (h : HealthChecker) (unhealthy : Bool) : HealthChecker :=
  let failures := if unhealthy then h.consecutiveFailures + 1 else 0
  ⟨failures, unhealthy && defaultConsecutiveFailures ≤ failures, unhealthy :: h.checks⟩

/-- The tunnel: the call of `maintainConnection`, by number, whether it waits, the checker of each
call, and the channel, with the checker that sent what is in it. -/
structure Tunnel where
  call : ℕ := 0
  waits : Bool := false
  healthChecker : ℕ → HealthChecker := fun _ => {}
  unhealthyCh : Option ℕ := none

inductive Event
  | maintainConnection
  | performCheck (i : ℕ) (unhealthy : Bool)
  | onUnhealthy (i : ℕ)
  | unhealthy
  | done

/-- A step; the loop of a checker that was stopped may still take a tick. -/
def step (t : Tunnel) : Event → Tunnel
  | .maintainConnection => if t.waits then t else { t with call := t.call + 1, waits := true }
  | .performCheck i unhealthy =>
    let h := t.healthChecker i
    if 0 < i ∧ i ≤ t.call ∧ h.calls = false then
      { t with healthChecker := Function.update t.healthChecker i (performCheck h unhealthy) }
    else t
  | .onUnhealthy i =>
    let h := t.healthChecker i
    if h.calls then
      { t with
        healthChecker := Function.update t.healthChecker i { h with calls := false }
        unhealthyCh := t.unhealthyCh.or (some i) }
    else t
  | .unhealthy =>
    if t.waits ∧ t.unhealthyCh.isSome then { t with waits := false, unhealthyCh := none } else t
  | .done => { t with waits := false }

/-- The checker has found the tunnel unhealthy that many times in a row. -/
def HealthChecker.Failed (h : HealthChecker) : Prop :=
  replicate defaultConsecutiveFailures true <:+: h.checks

/-- If the call returns because of the signal, its checker has failed. -/
def OwnFailures (t : Tunnel) (e : Event) : Prop :=
  e = .unhealthy → t.waits → t.unhealthyCh.isSome → (t.healthChecker t.call).Failed

/-- If it does because of a signal of another checker, its own has failed as well. -/
def LateFails (t : Tunnel) (e : Event) : Prop :=
  e = .unhealthy → t.waits → ∀ i, t.unhealthyCh = some i → i ≠ t.call →
    (t.healthChecker t.call).Failed

/-- The failures a checker counts are its last checks, and it calls when it has failed. -/
structure HealthChecker.Counts (h : HealthChecker) : Prop where
  last : replicate h.consecutiveFailures true <+: h.checks
  failed : h.calls → h.Failed

/-- … and what is in the channel was sent by a checker that has failed. -/
structure Signals (t : Tunnel) : Prop where
  counts : ∀ i, (t.healthChecker i).Counts
  failed : ∀ i, t.unhealthyCh = some i → (t.healthChecker i).Failed

theorem HealthChecker.Counts.performCheck {h : HealthChecker} (hc : h.Counts) (unhealthy : Bool) :
    (performCheck h unhealthy).Counts := by
  have hlast : replicate (Health.performCheck h unhealthy).consecutiveFailures true <+:
      unhealthy :: h.checks := by
    cases unhealthy
    · exact nil_prefix
    · exact (prefix_cons_inj true).mpr hc.last
  refine ⟨hlast, fun hcalls => IsPrefix.isInfix (IsPrefix.trans ?_ hlast)⟩
  simp only [Health.performCheck, Bool.and_eq_true, decide_eq_true_eq] at hcalls
  obtain ⟨k, hk⟩ := Nat.exists_eq_add_of_le hcalls.2
  exact ⟨replicate k true, by rw [replicate_append_replicate, ← hk]; rfl⟩

theorem Signals.update {t : Tunnel} (h : Signals t) (i : ℕ) {c : HealthChecker} (hc : c.Counts)
    (hf : (t.healthChecker i).Failed → c.Failed) :
    Signals { t with healthChecker := Function.update t.healthChecker i c } := by
  refine ⟨fun j => ?_, fun j hj => ?_⟩ <;> obtain rfl | hne := eq_or_ne j i
  · simpa using hc
  · simpa [hne] using h.counts j
  · simpa using hf (h.failed j hj)
  · simpa [hne] using h.failed j hj

theorem Signals.step {t : Tunnel} (h : Signals t) (e : Event) : Signals (step t e) := by
  cases e with
  | maintainConnection =>
    rw [Health.step]
    split_ifs
    · exact h
    · exact ⟨h.counts, h.failed⟩
  | performCheck i unhealthy =>
    simp only [Health.step]
    split_ifs
    · exact h.update i ((h.counts i).performCheck unhealthy) infix_cons
    · exact h
  | onUnhealthy i =>
    simp only [Health.step]
    split_ifs with hcalls
    · have h' := h.update i (c := { t.healthChecker i with calls := false })
        ⟨(h.counts i).last, nofun⟩ id
      refine ⟨h'.counts, fun j hj => ?_⟩
      rcases hch : t.unhealthyCh with _ | k
      · obtain rfl : i = j := by simpa [hch] using hj
        simpa using! (h.counts i).failed hcalls
      · exact h'.failed j (by simpa [hch] using hj)
    · exact h
  | unhealthy =>
    rw [Health.step]
    split_ifs
    · exact ⟨h.counts, nofun⟩
    · exact h
  | done => exact ⟨h.counts, h.failed⟩

/-- **A connection is given up for its own failures only**, exactly if each signal of another
call's checker that ends it comes when its own checker has failed. -/
theorem ownFailures_iff (events : List Event) :
    Runs.Along step OwnFailures {} events ↔ Runs.Along step LateFails {} events := by
  refine Runs.Along.congr Signals (fun t e h => ?_) (fun t e h _ => h.step e)
    ⟨fun _ => ⟨⟨[], rfl⟩, nofun⟩, nofun⟩
  constructor
  · exact fun hown he hwaits i hi _ => hown he hwaits (by rw [hi]; rfl)
  · intro hlate he hwaits hsome
    obtain ⟨i, hi⟩ := Option.isSome_iff_exists.mp hsome
    by_cases hcall : i = t.call
    · exact hcall ▸ h.failed i hi
    · exact hlate he hwaits i hi hcall

/-- The first checker fails four times, and signals twice. -/
def lateSignal : List Event :=
  .maintainConnection :: replicate 3 (.performCheck 1 true) ++
    [.onUnhealthy 1, .unhealthy, .performCheck 1 true, .onUnhealthy 1, .maintainConnection,
      .unhealthy]

/-- The second signal ends the next connection, which has not been checked. -/
theorem given_up_unchecked : ¬ Runs.Along step OwnFailures {} lateSignal := by
  rintro ⟨-, -, -, -, -, -, -, -, -, h, -⟩
  exact absurd (h rfl rfl rfl) (show ¬ _ <:+: [] by decide)

end Netbird.Health
