/-
The callbacks of a reference counter.

A counter asks `AddFunc` for a key that it does not hold, and `RemoveFunc` when the last
reference to a key goes, or for every key it holds when it is flushed. `Flush` forgets all keys,
whatever the callbacks answer, and `Clear` forgets them without asking.

What the callbacks see is a list of events. `Alternates` says what it should look like.

* `callbacks_alternate` — the events of every run alternate, and no count is zero;
* `flush_forgets_failed` — a key whose removal fails during `Flush` is forgotten.
-/
import Netbird.Client.RefCounter

namespace Netbird.RefCounter

open Function Keyed

/-! ### Calls and events -/

/-- The calls, with the answers of the callbacks. `Flush` visits the keys in any order. -/
inductive Call (Key O : Type) where
  | increment (key : Key) (answer : AddAnswer O)
  | incrementWithID (id : String) (key : Key) (answer : AddAnswer O)
  | decrement (key : Key) (answer : Option String)
  | decrementWithID (id : String) (answers : ℕ → Option String)
  | flush (visit : Keyed.Visit Key) (answers : Key → Option String)
  | clear

/-- A successful add, a call of `RemoveFunc` and whether the key is forgotten after it, and
`Clear`. -/
inductive Event (Key O : Type) where
  | added (key : Key) (out : O)
  | removed (key : Key) (out : O) (forgets : Bool)
  | cleared

namespace Counter

variable {Key O : Type} [DecidableEq Key]

/-! ### Alternation -/

/-- Which keys are there after an event, with their data. -/
def after (there : Key → Option O) : Event Key O → Key → Option O
  | .added key out => Function.update there key (some out)
  | .removed key _ forgets => if forgets then Function.update there key none else there
  | .cleared => fun _ => none

/-- A key is added while it is not there, and removed while it is, with the data of its add. -/
def Allowed (there : Key → Option O) : Event Key O → Prop
  | .added key _ => there key = none
  | .removed key out _ => there key = some out
  | .cleared => True

def Alternates (trace : List (Event Key O)) : Prop :=
  Runs.Along after Allowed (fun _ => none) trace

/-- The counter holds what is there, with a positive count. -/
structure Held (c : Counter Key O) (there : Key → Option O) : Prop where
  out : ∀ key, there key = (c.refCountMap.lookup key).map (·.out)
  count : ∀ key ref, c.refCountMap.lookup key = some ref → 0 < ref.count

/-- The events are allowed, and what is there after them is held. -/
def Keeps (there : Key → Option O) (es : List (Event Key O)) (c : Counter Key O) : Prop :=
  Runs.Along after Allowed there es ∧ c.Held (es.foldl after there)

variable {c : Counter Key O} {there : Key → Option O}

theorem Held.nothing (h : c.Held there) : Keeps there [] c := ⟨trivial, h⟩

theorem Keeps.append {es es' : List (Event Key O)} {c' : Counter Key O} (h : Keeps there es c)
    (h' : Keeps (es.foldl after there) es' c') : Keeps there (es ++ es') c' := by
  refine ⟨h.1.append h'.1, ?_⟩
  rw [List.foldl_append]
  exact h'.2

theorem held_empty (m : AList fun _ : String => List Key) :
    (⟨∅, m⟩ : Counter Key O).Held fun _ => none :=
  ⟨fun _ => rfl, fun key ref h => by simp at h⟩

/-- Storing a key with data that it has already, or that an add has just returned. -/
theorem Held.insert (h : c.Held there) (key : Key) {ref : Ref O} (hcount : 0 < ref.count)
    (m : AList fun _ : String => List Key) :
    (⟨c.refCountMap.insert key ref, m⟩ : Counter Key O).Held (update there key (some ref.out)) := by
  refine ⟨fun k => ?_, fun k r hk => ?_⟩
  · rw [update_apply, lookup_insert_ite]
    split_ifs
    · rfl
    · exact h.out k
  · rw [lookup_insert_ite] at hk
    split_ifs at hk
    · rwa [← Option.some.inj hk]
    · exact h.count k r hk

theorem Held.of_refs {c' : Counter Key O} (h : c.Held there)
    (hrefs : c'.refCountMap = c.refCountMap) : c'.Held there :=
  ⟨fun key => by rw [hrefs]; exact h.out key, fun key ref => by rw [hrefs]; exact h.count key ref⟩

/-! ### What a call does -/

variable [ToString Key] [Inhabited O]

section

variable (c : Counter Key O)

def flush (visit : Keyed.Visit Key) (answers : Key → Option String) : Counter Key O × List String :=
  (new, (visit.order c.refCountMap.keys).filterMap fun key =>
    (answers key).map fun err => "remove for key " ++ toString key ++ ": " ++ err)

def call : Call Key O → Counter Key O
  | .increment key answer => (c.increment key answer).1
  | .incrementWithID id key answer => (c.incrementWithID id key answer).1
  | .decrement key answer => (c.decrement key answer).1
  | .decrementWithID id answers => (c.decrementWithID id answers).1
  | .flush visit answers => (c.flush visit answers).1
  | .clear => new

def incrementEvents (key : Key) : AddAnswer O → List (Event Key O)
  | .added out => if (c.ref key).count = 0 then [.added key out] else []
  | .ignore | .failed _ => []

def decrementEvents (key : Key) (answer : Option String) : List (Event Key O) :=
  match c.refCountMap.lookup key with
  | none => []
  | some ref => if ref.count = 1 then [.removed key ref.out answer.isNone] else []

def decrementAllEvents (answers : ℕ → Option String) :
    ℕ → Counter Key O → List Key → List (Event Key O)
  | _, _, [] => []
  | i, c, key :: keys => c.decrementEvents key (answers i) ++
      decrementAllEvents answers (i + 1) (c.decrement key (answers i)).1 keys

def flushEvents (visit : Keyed.Visit Key) : List (Event Key O) :=
  (visit.order c.refCountMap.keys).map fun key => .removed key (c.ref key).out true

/-- What the callbacks see of a call. -/
def events : Call Key O → List (Event Key O)
  | .increment key answer | .incrementWithID _ key answer => c.incrementEvents key answer
  | .decrement key answer => c.decrementEvents key answer
  | .decrementWithID id answers => decrementAllEvents answers 0 c (Keyed.listAt c.idMap id)
  | .flush visit _ => c.flushEvents visit
  | .clear => [.cleared]

end

def trace (c : Counter Key O) : List (Call Key O) → List (Event Key O)
  | [] => []
  | x :: calls => c.events x ++ trace (c.call x) calls

/-! ### One call -/

omit [ToString Key] in
theorem ref_of_lookup {key : Key} {ref : Ref O} (h : c.refCountMap.lookup key = some ref) :
    c.ref key = ref := by
  rw [Counter.ref, h]
  rfl

variable (h : c.Held there)

include h

omit [ToString Key] in
/-- A key that is not held has no references, and only such a key. -/
theorem Held.count_eq_zero_iff {key : Key} :
    (c.ref key).count = 0 ↔ c.refCountMap.lookup key = none := by
  constructor
  · intro hzero
    rcases hlookup : c.refCountMap.lookup key with _ | ref
    · rfl
    · rw [ref_of_lookup hlookup] at hzero
      exact absurd hzero (Int.ne_of_gt (h.count key ref hlookup))
  · intro hlookup
    rw [Counter.ref, hlookup]
    rfl

theorem Held.increment (key : Key) (answer : AddAnswer O) :
    Keeps there (c.incrementEvents key answer) (c.increment key answer).1 := by
  by_cases hzero : (c.ref key).count = 0
  · have habsent : there key = none := by
      rw [h.out, h.count_eq_zero_iff.mp hzero]
      rfl
    cases answer with
    | ignore | failed err =>
      simp only [incrementEvents, Counter.increment, if_pos hzero]
      exact h.nothing
    | added out =>
      simp only [incrementEvents, Counter.increment, if_pos hzero]
      exact ⟨⟨habsent, trivial⟩, h.insert key (by simp [hzero]) c.idMap⟩
  · -- the key is there, with the same data
    obtain ⟨ref, hlookup⟩ :=
      Option.ne_none_iff_exists'.mp fun hn => hzero (h.count_eq_zero_iff.mpr hn)
    have hsame : update there key (some (c.ref key).out) = there := by
      rw [ref_of_lookup hlookup, update_eq_self_iff, h.out, hlookup]
      rfl
    have hpos : 0 < (c.ref key).count + 1 := by
      have := h.count key ref hlookup
      rw [ref_of_lookup hlookup]
      omega
    let next : Ref O := { c.ref key with count := (c.ref key).count + 1 }
    have hheld := h.insert key (show 0 < next.count from hpos) c.idMap
    have hnone : c.incrementEvents key answer = [] := by
      cases answer with
      | ignore | failed err => rfl
      | added out => exact if_neg hzero
    rw [hsame] at hheld
    simp only [hnone, Counter.increment, if_neg hzero]
    exact hheld.nothing

theorem Held.decrement (key : Key) (answer : Option String) :
    Keeps there (c.decrementEvents key answer) (c.decrement key answer).1 := by
  rw [decrementEvents, Counter.decrement]
  rcases hlookup : c.refCountMap.lookup key with _ | ref
  · exact h.nothing
  · have hthere : there key = some ref.out := by rw [h.out, hlookup]; rfl
    by_cases hone : ref.count = 1
    · simp only [if_pos hone]
      rcases answer with _ | err
      · refine ⟨⟨hthere, trivial⟩, fun k => ?_, fun k r hk => ?_⟩
        · change update there key none k = _
          rw [update_apply, lookup_erase_ite]
          split_ifs
          · rfl
          · exact h.out k
        · rw [lookup_erase_ite] at hk
          split_ifs at hk
          exact h.count k r hk
      · exact ⟨⟨hthere, trivial⟩, h⟩
    · simp only [if_neg hone]
      have hpos : 0 < ref.count - 1 := by
        have := h.count key ref hlookup
        omega
      let next : Ref O := { ref with count := ref.count - 1 }
      have hheld := h.insert key (show 0 < next.count from hpos) c.idMap
      refine Held.nothing ?_
      rwa [update_eq_self_iff.mpr hthere.symm] at hheld

theorem Held.decrementAll (answers : ℕ → Option String) (i : ℕ) (keys : List Key) :
    Keeps there (decrementAllEvents answers i c keys) (decrementAll answers i c keys).1 := by
  induction keys generalizing i c there with
  | nil => exact h.nothing
  | cons key keys ih =>
    have hfirst := h.decrement key (answers i)
    exact hfirst.append (ih hfirst.2 (i + 1))

/-- `Flush` removes each key once, and forgets all of them. -/
theorem Held.flush (visit : Keyed.Visit Key) (answers : Key → Option String) :
    Keeps there (c.flushEvents visit) (c.flush visit answers).1 := by
  -- from any point of the loop on: the keys still to come are those that are there
  have hloop : ∀ keys : List Key, keys.Nodup →
      Keeps (fun key => if key ∈ keys then some (c.ref key).out else none)
        (keys.map fun key => .removed key (c.ref key).out true) new := by
    intro keys hnodup
    induction keys with
    | nil => exact ⟨trivial, by simpa using! held_empty ∅⟩
    | cons key keys ih =>
      obtain ⟨hnot, hnodup⟩ := List.nodup_cons.mp hnodup
      have hafter : update (fun k => if k ∈ key :: keys then some (c.ref k).out else none) key none =
          fun k => if k ∈ keys then some (c.ref k).out else none := by
        funext k
        by_cases hk : k = key <;> simp [hk, hnot]
      obtain ⟨halong, hheld⟩ := hafter ▸ ih hnodup
      exact ⟨⟨by simp [Allowed], halong⟩, hheld⟩
  have hthere : there = fun key =>
      if key ∈ visit.order c.refCountMap.keys then some (c.ref key).out else none := by
    funext key
    have hmem : key ∈ visit.order c.refCountMap.keys ↔ (c.refCountMap.lookup key).isSome :=
      (visit.perm _).mem_iff.trans AList.lookup_isSome.symm
    simp only [h.out, hmem, Counter.ref]
    cases c.refCountMap.lookup key <;> rfl
  rw [hthere]
  exact hloop _ ((visit.perm _).nodup_iff.mpr c.refCountMap.keys_nodup)

/-- **One call** keeps the events in step with what is held. -/
theorem step_held (x : Call Key O) : Keeps there (c.events x) (c.call x) := by
  cases x with
  | increment key answer => exact h.increment key answer
  | incrementWithID id key answer =>
    obtain ⟨halong, hheld⟩ := h.increment key answer
    refine ⟨halong, hheld.of_refs ?_⟩
    simp only [call, incrementWithID]
    split
    · next heq => rw [heq]
    · next heq => rw [heq]
  | decrement key answer => exact h.decrement key answer
  | decrementWithID id answers =>
    obtain ⟨halong, hheld⟩ := h.decrementAll answers 0 (listAt c.idMap id)
    exact ⟨halong, hheld.of_refs rfl⟩
  | flush visit answers => exact h.flush visit answers
  | clear => exact ⟨⟨trivial, trivial⟩, held_empty ∅⟩

/-! ### Runs -/

omit h

/-- **The callbacks alternate along every run**: per key, an add and a remove that forgets it
take turns between two calls of `Clear`, starting with an add, and a remove has the data of the
latest add. No stored count is zero. An add that fails or is ignored and a remove that fails in
a decrement leave the references as they are; `Flush` forgets them all. -/
theorem callbacks_alternate (calls : List (Call Key O)) : Alternates (trace new calls) ∧
      (∀ n key ref, ((calls.take n).foldl call (new : Counter Key O)).refCountMap.lookup key =
        some ref → ref.count ≠ 0) ∧
      (∀ (c : Counter Key O) key answer, (c.ref key).count = 0 → (∀ out, answer ≠ .added out) →
        (c.increment key answer).1.refCountMap = c.refCountMap ∧
          ∀ id, (c.incrementWithID id key answer).1.refCountMap = c.refCountMap) ∧
      (∀ (c : Counter Key O) key err, (c.ref key).count = 1 →
        (c.decrement key (some err)).1.refCountMap = c.refCountMap) ∧
      ∀ (c : Counter Key O) visit answers, (c.flush visit answers).1.refCountMap = ∅ := by
  have hrun : ∀ (calls : List (Call Key O)) (c : Counter Key O) there, c.Held there →
      Keeps there (c.trace calls) (calls.foldl call c) := by
    intro calls
    induction calls with
    | nil => exact fun c there h => h.nothing
    | cons x calls ih =>
      intro c there h
      have hfirst := step_held h x
      exact hfirst.append (ih _ _ hfirst.2)
  refine ⟨(hrun calls new _ (held_empty ∅)).1, fun n key ref hlookup => ?_,
    fun c key answer hzero hfail => ?_, fun c key err hone => ?_, fun c visit answers => rfl⟩
  · exact Int.ne_of_gt ((hrun (calls.take n) new _ (held_empty ∅)).2.count key ref hlookup)
  · cases answer with
    | added out => exact absurd rfl (hfail out)
    | ignore | failed err =>
      simp only [incrementWithID, increment, if_pos hzero, implies_true, and_self]
  · have hlookup : c.refCountMap.lookup key = some (c.ref key) :=
      lookup_of_count_ne_zero (by rw [hone]; decide)
    simp only [decrement, hlookup, if_pos hone]

/-- A key whose removal fails during `Flush` is forgotten. -/
theorem flush_forgets_failed : (([.increment 1 (.added ())].foldl call
        (new : Counter ℕ Unit)).refCountMap.lookup 1).isSome = true ∧
      ([.increment 1 (.added ()), .flush .inOrder fun _ => some "busy"].foldl call
        (new : Counter ℕ Unit)).refCountMap.lookup 1 = none := by
  decide

end Counter

end Netbird.RefCounter
