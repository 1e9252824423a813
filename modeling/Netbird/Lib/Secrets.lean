/-
Secrets that are meant to be used once, kept in a cache whose operations are atomic one by one.

A caller reads the value of its key, checks it, and deletes it if it passes; reading and
deleting are two operations. A caller that has read a good value holds it, and is accepted once
it has deleted it.

* `lone_step_iff` — an operation lets in a second caller exactly if it reads a good value while
  another caller with the same secret holds it;
* `once_iff` — the same over runs in which all calls end.
-/
import Netbird.Lib.Runs

namespace Secrets

open Function

variable {K V S : Type} [DecidableEq K]

structure Caller (K V : Type) where
  key : K
  /-- The checks, at the time of the call. -/
  passes : V → Bool

inductive Phase (V : Type) where
  | waiting
  | holding (v : V)
  | accepted (v : V)
  | refused

namespace Phase

def isHolding : Phase V → Bool
  | .holding _ => true
  | _ => false

def isAccepted : Phase V → Bool
  | .accepted _ => true
  | _ => false

/-- Past the checks. -/
def letIn (p : Phase V) : Bool := p.isHolding || p.isAccepted

end Phase

structure State (K V : Type) where
  cache : K → Option V
  phase : ℕ → Phase V

inductive Event (K : Type) where
  | advance (i : ℕ)
  | expire (k : K)

variable (callers : ℕ → Caller K V) (secret : ℕ → S)

namespace State

def read (s : State K V) (i : ℕ) : Phase V :=
  match s.cache (callers i).key with
  | none => .refused
  | some v => if (callers i).passes v then .holding v else .refused

def next (s : State K V) (i : ℕ) : Phase V :=
  match s.phase i with
  | .waiting => s.read callers i
  | .holding v => .accepted v
  | p => p

def step (s : State K V) : Event K → State K V
  | .expire k => { s with cache := Function.update s.cache k none }
  | .advance i =>
    { cache := if (s.phase i).isHolding then Function.update s.cache (callers i).key none else s.cache
      phase := Function.update s.phase i (s.next callers i) }

def start (cache : K → Option V) : State K V := ⟨cache, fun _ => .waiting⟩

end State

/-- Of the callers with one secret, at most one is accepted. -/
def Once (s : State K V) : Prop :=
  ∀ i j, (s.phase i).isAccepted = true → (s.phase j).isAccepted = true → secret i = secret j → i = j

/-- Of the callers with one secret, at most one is past the checks. -/
def Lone (phase : ℕ → Phase V) : Prop :=
  ∀ i j, (phase i).letIn = true → (phase j).letIn = true → secret i = secret j → i = j

/-- No caller reads a good value while another one with its secret holds it. -/
def Apart (s : State K V) (e : Event K) : Prop :=
  ∀ i, e = .advance i → s.phase i = .waiting → (s.read callers i).isHolding = true →
    ∀ j, (s.phase j).isHolding = true → secret j ≠ secret i

/-- What an accepted caller has deleted is gone. -/
def Gone (s : State K V) : Prop :=
  ∀ i, (s.phase i).isAccepted = true → s.cache (callers i).key = none

variable {callers secret} {s : State K V}

omit [DecidableEq K] in
theorem isAccepted_read (i : ℕ) : (s.read callers i).isAccepted = false := by
  rw [State.read]
  split
  · rfl
  · split_ifs <;> rfl

omit [DecidableEq K] in
theorem passes_of_read {i : ℕ} (h : (s.read callers i).letIn = true) :
    ∃ v, s.cache (callers i).key = some v ∧ (callers i).passes v = true := by
  rcases hcache : s.cache (callers i).key with _ | v
  · rw [State.read, hcache] at h
    cases h
  · rw [State.read, hcache] at h
    dsimp only at h
    split_ifs at h with hpasses
    · exact ⟨v, rfl, hpasses⟩
    · cases h

theorem Gone.step (h : Gone callers s) (e : Event K) : Gone callers (s.step callers e) := by
  intro i hi
  cases e with
  | expire k =>
    have hgone := h i hi
    simp only [State.step, update_apply, hgone, ite_self]
  | advance j =>
    simp only [State.step, update_apply] at hi ⊢
    by_cases hij : i = j
    · subst hij
      rw [if_pos rfl, State.next] at hi
      cases hphase : s.phase i with
      | waiting =>
        rw [hphase] at hi
        exact absurd hi (by simp [isAccepted_read])
      | holding v => simp [Phase.isHolding]
      | accepted v =>
        have hgone := h i (by rw [hphase]; rfl)
        simpa [Phase.isHolding] using hgone
      | refused =>
        rw [hphase] at hi
        cases hi
    · have hgone := h i (by rwa [if_neg hij] at hi)
      split_ifs <;> simp [update_apply, hgone]

theorem lone_update_iff {phase : ℕ → Phase V} (h : Lone secret phase) (i : ℕ) (p : Phase V) :
    Lone secret (update phase i p) ↔
      (p.letIn = true → ∀ j, j ≠ i → (phase j).letIn = true → secret j ≠ secret i) := by
  constructor
  · intro hlone hp j hne hj hsecret
    refine hne (hlone j i ?_ ?_ hsecret)
    · rwa [update_of_ne hne]
    · rwa [update_self]
  · intro hothers j k hj hk hsecret
    rw [update_apply] at hj hk
    split_ifs at hj hk with hji hki hki
    · rw [hji, hki]
    · exact absurd (hji ▸ hsecret.symm) (hothers hj k hki hk)
    · exact absurd (hki ▸ hsecret) (hothers hk j hji hj)
    · exact h j k hj hk hsecret

/-- **One operation**: only a reading lets a caller in. -/
theorem lone_step_iff (hkey : ∀ i j, secret i = secret j → (callers i).key = (callers j).key)
    (hgone : Gone callers s) (h : Lone secret s.phase) (e : Event K) :
    Lone secret (s.step callers e).phase ↔ Apart callers secret s e := by
  cases e with
  | expire k => exact iff_of_true h fun i hi => by cases hi
  | advance i =>
    rw [show (s.step callers (.advance i)).phase = update s.phase i (s.next callers i)
      from rfl, lone_update_iff h]
    by_cases hphase : s.phase i = .waiting
    · have hnext : s.next callers i = s.read callers i := by rw [State.next, hphase]
      have hread : (s.read callers i).letIn = (s.read callers i).isHolding := by
        rw [Phase.letIn, isAccepted_read, Bool.or_false]
      rw [hnext, hread]
      constructor
      · rintro hothers i' ⟨⟩ - hholding j hj
        refine hothers hholding j ?_ (by rw [Phase.letIn, hj]; rfl)
        rintro rfl
        rw [hphase] at hj
        cases hj
      · intro hapart hholding j _ hj hsecret
        rcases Bool.or_eq_true_iff.mp hj with hj | hj
        · exact hapart i rfl hphase hholding j hj hsecret
        · -- who was accepted has deleted the value
          rw [State.read, ← hkey j i hsecret, hgone j hj] at hholding
          cases hholding
    · refine iff_of_true (fun hnext j hne hj hsecret => hne (h j i hj ?_ hsecret)) ?_
      · cases hp : s.phase i with
        | waiting => exact absurd hp hphase
        | holding v | accepted v => rfl
        | refused =>
          rw [State.next, hp] at hnext
          cases hnext
      · rintro i' ⟨⟩ hwaiting
        exact absurd hwaiting hphase

theorem letIn_run (es : List (Event K)) {s : State K V} {j : ℕ} (h : (s.phase j).letIn = true) :
    ((es.foldl (State.step callers) s).phase j).letIn = true := by
  refine List.foldlRecOn (motive := fun s : State K V => (s.phase j).letIn = true) es _ h
    fun s h e _ => ?_
  cases e with
  | expire k => exact h
  | advance i =>
    simp only [State.step, update_apply]
    split_ifs with hji
    · subst hji
      cases hp : s.phase j with
      | waiting | refused =>
        rw [hp] at h
        cases h
      | holding v | accepted v =>
        rw [State.next, hp]
        rfl
    · exact h

/-- Who is past the checks passes with what the cache had at the start. -/
theorem passes_of_letIn (cache : K → Option V) (es : List (Event K)) {i : ℕ}
    (h : ((es.foldl (State.step callers) (.start cache)).phase i).letIn = true) :
    ∃ v, cache (callers i).key = some v ∧ (callers i).passes v = true := by
  -- along the run, the cache only loses entries
  let Right (s : State K V) : Prop := (∀ k v, s.cache k = some v → cache k = some v) ∧
    ∀ i, (s.phase i).letIn = true → ∃ v, cache (callers i).key = some v ∧ (callers i).passes v = true
  have hright : Right (es.foldl (State.step callers) (.start cache)) := by
    refine List.foldlRecOn (motive := Right) es _ ⟨fun k v hv => hv, fun i hi => by cases hi⟩
      fun s hs e _ => ?_
    have hlost : ∀ k k' v, update s.cache k' none k = some v → cache k = some v := by
      intro k k' v hv
      rw [update_apply] at hv
      split_ifs at hv
      exact hs.1 k v hv
    cases e with
    | expire k' => exact ⟨fun k v => hlost k k' v, hs.2⟩
    | advance j =>
      refine ⟨fun k v hv => ?_, fun i hi => ?_⟩
      · simp only [State.step] at hv
        split_ifs at hv
        · exact hlost k _ v hv
        · exact hs.1 k v hv
      · simp only [State.step, update_apply] at hi
        split_ifs at hi with hij
        · subst hij
          cases hp : s.phase i with
          | waiting =>
            rw [State.next, hp] at hi
            obtain ⟨v, hv, hpasses⟩ := passes_of_read hi
            exact ⟨v, hs.1 _ v hv, hpasses⟩
          | holding v | accepted v => exact hs.2 i (by rw [hp]; rfl)
          | refused =>
            rw [State.next, hp] at hi
            cases hi
        · exact hs.2 i hi
  exact hright.2 i h

/-- **A whole run**, after which no caller is between its two operations. -/
theorem once_iff (hkey : ∀ i j, secret i = secret j → (callers i).key = (callers j).key)
    (cache : K → Option V) (es : List (Event K))
    (hdone : ∀ i, ((es.foldl (State.step callers) (.start cache)).phase i).isHolding = false) :
    Once secret (es.foldl (State.step callers) (.start cache)) ↔
      Runs.Along (State.step callers) (Apart callers secret) (.start cache) es := by
  have hrun : ∀ (es : List (Event K)) (s : State K V), Gone callers s → Lone secret s.phase →
      (Lone secret (es.foldl (State.step callers) s).phase ↔
        Runs.Along (State.step callers) (Apart callers secret) s es) := by
    intro es
    induction es with
    | nil => exact fun s _ h => iff_of_true h trivial
    | cons e es ih =>
      intro s hgone h
      have hstep := lone_step_iff hkey hgone h e
      rw [Runs.Along, ← hstep]
      constructor
      · intro hfinal
        have hnext : Lone secret (s.step callers e).phase := fun i j hi hj =>
          hfinal i j (letIn_run es hi) (letIn_run es hj)
        exact ⟨hnext, (ih _ (hgone.step e) hnext).mp hfinal⟩
      · rintro ⟨hnext, hrest⟩
        exact (ih _ (hgone.step e) hnext).mpr hrest
  refine Iff.trans ?_ (hrun es _ (fun i hi => by cases hi) fun i j hi => by cases hi)
  refine forall_congr' fun i => forall_congr' fun j => ?_
  rw [Phase.letIn, Phase.letIn, hdone i, hdone j, Bool.false_or, Bool.false_or]

end Secrets
