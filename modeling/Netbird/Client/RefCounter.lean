/-
Reference counts that are grouped under ids (`routemanager/refcounter/refcounter.go`).

A `Counter` keeps two maps: the number of references of each key, and for each id the list
of keys that were taken under it.  `IncrementWithID` asks a callback to add a key that has no
reference yet, `DecrementWithID` gives back everything of an id and asks a callback to remove
the keys whose last reference goes.  What a callback answers is an input of the operation.

* `step_balanced_iff` — when an operation keeps the two maps in balance;
* `run_balanced_iff` — the same along every run.
-/
import Netbird.Lib.Keyed
import Netbird.Lib.Runs

namespace Netbird.RefCounter

open Keyed List

/-- What `AddFunc` returns: the data of the key, `ErrIgnore`, or another error. -/
inductive AddAnswer (O : Type) where
  | added (out : O)
  | ignore
  | failed (err : String)

structure Ref (O : Type) where
  count : Int
  out : O

structure Counter (Key O : Type) where
  refCountMap : AList fun _ : Key => Ref O
  idMap : AList fun _ : String => List Key

/-- `IncrementWithID` with the answer of `AddFunc` in case it is called; `DecrementWithID` with
the error of `RemoveFunc`, if any, for each place of the list of the id. -/
inductive Op (Key O : Type) where
  | incrementWithID (id : String) (key : Key) (answer : AddAnswer O)
  | decrementWithID (id : String) (answers : ℕ → Option String)

namespace Counter

variable {Key O : Type} [DecidableEq Key] [ToString Key] [Inhabited O]

def new : Counter Key O := ⟨∅, ∅⟩

variable (c : Counter Key O)

/-- `refCountMap[key]`: the zero value if there is none. -/
def ref (key : Key) : Ref O :=
  (c.refCountMap.lookup key).getD ⟨0, default⟩

def increment (key : Key) (answer : AddAnswer O) : Counter Key O × Ref O × Option String :=
  let ref := c.ref key
  let counted (ref : Ref O) : Counter Key O × Ref O × Option String :=
    ({ c with refCountMap := c.refCountMap.insert key { ref with count := ref.count + 1 } },
      { ref with count := ref.count + 1 }, none)
  if ref.count = 0 then
    match answer with
    | .ignore => (c, ref, none)
    | .failed err => (c, ref, some ("failed to add for key " ++ toString key ++ ": " ++ err))
    | .added out => counted { ref with out := out }
  else counted ref

def incrementWithID (id : String) (key : Key) (answer : AddAnswer O) :
    Counter Key O × Ref O × Option String :=
  match c.increment key answer with
  | (c, ref, some err) => (c, ref, some ("with ID: " ++ err))
  | (c, ref, none) => ({ c with idMap := Keyed.push c.idMap id key }, ref, none)

def decrement (key : Key) (answer : Option String) : Counter Key O × Ref O × Option String :=
  match c.refCountMap.lookup key with
  | none => (c, ⟨0, default⟩, none)
  | some ref =>
    if ref.count = 1 then
      match answer with
      | some err => (c, ref, some ("remove for key " ++ toString key ++ ": " ++ err))
      | none => ({ c with refCountMap := c.refCountMap.erase key }, ref, none)
    else
      ({ c with refCountMap := c.refCountMap.insert key { ref with count := ref.count - 1 } },
        { ref with count := ref.count - 1 }, none)

/-- The loop of `DecrementWithID`, from place `i` of the list on: the errors are collected. -/
def decrementAll (answers : ℕ → Option String) :
    ℕ → Counter Key O → List Key → Counter Key O × List String
  | _, c, [] => (c, [])
  | i, c, key :: keys =>
    let (c, _, err) := c.decrement key (answers i)
    let (c, errs) := decrementAll answers (i + 1) c keys
    (c, err.toList ++ errs)

def decrementWithID (id : String) (answers : ℕ → Option String) : Counter Key O × List String :=
  let (c', errs) := decrementAll answers 0 c (Keyed.listAt c.idMap id)
  ({ c' with idMap := c'.idMap.erase id }, errs)

def step : Op Key O → Counter Key O
  | .incrementWithID id key answer => (c.incrementWithID id key answer).1
  | .decrementWithID id answers => (c.decrementWithID id answers).1

/-! ### Balance -/

/-- How often the key stands in the lists of all ids. -/
def occurrences (key : Key) : ℕ :=
  Keyed.total (List.count key) c.idMap

/-- Every reference that is counted is in the list of an id, and the other way round. -/
def Balanced : Prop :=
  ∀ key, (c.ref key).count = c.occurrences key

/-- In this state, the callbacks that the operation calls do not ignore the first reference to
a key and do not fail to remove the key of a last one: at a place of the list of the id where
the list so far has every reference of the key. -/
def Answered : Op Key O → Prop
  | .incrementWithID _ key answer => (c.ref key).count = 0 → answer ≠ .ignore
  | .decrementWithID id answers =>
    ∀ before key after, Keyed.listAt c.idMap id = before ++ key :: after →
      (before ++ [key]).count key = (c.ref key).count → answers before.length = none

/-! ### One key -/

variable {c : Counter Key O} {key key' : Key} {answers : ℕ → Option String}

omit [ToString Key] in
theorem ref_insert_self (m : AList fun _ : String => List Key) (r : Ref O) :
    (⟨c.refCountMap.insert key r, m⟩ : Counter Key O).ref key = r := by
  rw [ref, AList.lookup_insert]
  rfl

omit [ToString Key] in
theorem ref_insert_of_ne (h : key' ≠ key) (m : AList fun _ : String => List Key) (r : Ref O) :
    (⟨c.refCountMap.insert key r, m⟩ : Counter Key O).ref key' = c.ref key' := by
  rw [ref, ref, AList.lookup_insert_ne h]

theorem idMap_decrement (c : Counter Key O) (key : Key) (answer : Option String) :
    (c.decrement key answer).1.idMap = c.idMap := by
  rw [decrement]
  split
  · rfl
  · split_ifs
    · split <;> rfl
    · rfl

theorem ref_decrement_of_ne (h : key' ≠ key) (answer : Option String) :
    (c.decrement key answer).1.ref key' = c.ref key' := by
  rw [decrement]
  split
  · rfl
  · split_ifs
    · split
      · rfl
      · rw [ref, ref, AList.lookup_erase_ne h]
    · exact ref_insert_of_ne h _ _

omit [ToString Key] in
theorem lookup_of_count_ne_zero (h : (c.ref key).count ≠ 0) :
    c.refCountMap.lookup key = some (c.ref key) := by
  rcases hlookup : c.refCountMap.lookup key with _ | r
  · rw [ref, hlookup] at h
    exact absurd rfl h
  · rw [ref, hlookup]
    rfl

theorem count_decrement_of_one_lt (h : 1 < (c.ref key).count) (answer : Option String) :
    ((c.decrement key answer).1.ref key).count = (c.ref key).count - 1 := by
  rw [decrement, lookup_of_count_ne_zero (by omega)]
  simp only [if_neg (show (c.ref key).count ≠ 1 by omega)]
  rw [ref_insert_self]

theorem count_decrement_of_one (h : (c.ref key).count = 1) (answer : Option String) :
    ((c.decrement key answer).1.ref key).count = if answer = none then 0 else 1 := by
  rw [decrement, lookup_of_count_ne_zero (by omega)]
  simp only [if_pos h]
  rcases answer with _ | err
  · rw [ref, AList.lookup_erase]
    rfl
  · exact h

/-! ### A list of keys -/

theorem idMap_decrementAll (i : ℕ) (c : Counter Key O) (keys : List Key) :
    (decrementAll answers i c keys).1.idMap = c.idMap := by
  induction keys generalizing i c with
  | nil => rfl
  | cons key keys ih =>
    exact (ih _ _).trans (idMap_decrement c key _)

theorem decrementAll_append (i : ℕ) (c : Counter Key O) (keys keys' : List Key) :
    (decrementAll answers i c (keys ++ keys')).1 =
      (decrementAll answers (i + keys.length) (decrementAll answers i c keys).1 keys').1 := by
  induction keys generalizing i c with
  | nil => rfl
  | cons key keys ih =>
    simp only [cons_append, decrementAll, length_cons]
    rw [ih, Nat.add_right_comm, Nat.add_assoc]

variable {keys : List Key}

theorem count_decrementAll_of_lt {i : ℕ} (h : (keys.count key : Int) < (c.ref key).count) :
    ((decrementAll answers i c keys).1.ref key).count = (c.ref key).count - keys.count key := by
  induction keys generalizing i c with
  | nil => simp [decrementAll]
  | cons k keys ih =>
    simp only [decrementAll]
    by_cases hk : k = key
    · subst hk
      rw [count_cons_self] at h ⊢
      have hstep := count_decrement_of_one_lt (show 1 < (c.ref k).count by omega) (answers i)
      rw [ih (by rw [hstep]; omega)]
      omega
    · rw [count_cons_of_ne hk] at h ⊢
      have hstep : (c.decrement k (answers i)).1.ref key = c.ref key :=
        ref_decrement_of_ne (Ne.symm hk) _
      rw [ih (by rw [hstep]; exact h), hstep]

theorem ref_decrementAll_of_not_mem {i : ℕ} (h : key ∉ keys) :
    (decrementAll answers i c keys).1.ref key = c.ref key := by
  induction keys generalizing i c with
  | nil => rfl
  | cons k keys ih =>
    rw [mem_cons, not_or] at h
    simp only [decrementAll]
    rw [ih h.2, ref_decrement_of_ne h.1]

/-- Where the list reaches the last reference, the answer at that place decides. -/
theorem count_decrementAll {before after : List Key} (hafter : key ∉ after)
    (h : ((before ++ [key]).count key : Int) = (c.ref key).count) :
    ((decrementAll answers 0 c (before ++ key :: after)).1.ref key).count =
      if answers before.length = none then 0 else 1 := by
  have hbefore : (before.count key : Int) = (c.ref key).count - 1 := by
    rw [count_append, count_singleton_self] at h
    omega
  have hone : ((decrementAll answers 0 c before).1.ref key).count = 1 := by
    rw [count_decrementAll_of_lt (by omega)]
    omega
  rw [decrementAll_append, Nat.zero_add]
  simp only [decrementAll]
  rw [ref_decrementAll_of_not_mem hafter, count_decrement_of_one hone]

/-! ### One operation -/

omit [ToString Key] [Inhabited O] in
theorem occurrences_eq (c : Counter Key O) (id : String) (key : Key) :
    c.occurrences key = (listAt c.idMap id).count key + total (count key) (c.idMap.erase id) := by
  rw [occurrences, total_erase _ _ id, listAt]
  cases c.idMap.lookup id <;> rfl

omit [ToString Key] [Inhabited O] in
theorem occurrences_push (c : Counter Key O) (m : AList fun _ : Key => Ref O) (id : String)
    (key key' : Key) : (⟨m, push c.idMap id key⟩ : Counter Key O).occurrences key' =
      c.occurrences key' + if key' = key then 1 else 0 := by
  have hsingle : [key].count key' = if key' = key then 1 else 0 := by
    by_cases h : key' = key
    · rw [h, count_singleton_self, if_pos rfl]
    · rw [count_eq_zero.mpr (by simpa using h), if_neg h]
  rw [occurrences_eq c id, occurrences, push, total_insert, count_append]
  omega

omit [DecidableEq Key] [ToString Key] in
theorem exists_last_of_mem {key : Key} (h : key ∈ keys) :
    ∃ before after, keys = before ++ key :: after ∧ key ∉ after := by
  obtain ⟨rest, front, hrev, hnot⟩ := eq_append_cons_of_mem (mem_reverse.mpr h)
  refine ⟨front.reverse, rest.reverse, ?_, ?_⟩
  · rw [← reverse_reverse keys, hrev]
    simp
  · rwa [mem_reverse]

theorem incrementWithID_balanced_iff (hc : c.Balanced) (id : String) (key : Key)
    (answer : AddAnswer O) : (c.step (.incrementWithID id key answer)).Balanced ↔
      c.Answered (.incrementWithID id key answer) := by
  -- a reference that is counted is listed too
  have hcounted : ∀ r : Ref O, r.count = (c.ref key).count + 1 →
      (⟨c.refCountMap.insert key r, push c.idMap id key⟩ : Counter Key O).Balanced := by
    intro r hr k
    have hk := hc k
    rw [occurrences_push]
    by_cases h : k = key
    · subst h
      rw [ref_insert_self, if_pos rfl, hr, hk]
      rfl
    · rw [ref_insert_of_ne h, if_neg h, hk]
      rfl
  simp only [step, incrementWithID, increment, Answered]
  split_ifs with hzero
  · cases answer with
    | added out =>
      refine iff_of_true (hcounted _ rfl) ?_
      simp [hzero]
    | failed err =>
      refine iff_of_true hc ?_
      simp [hzero]
    | ignore =>
      refine iff_of_false ?_ (by simp [hzero])
      intro h
      have hkey : (c.ref key).count = _ := h key
      rw [occurrences_push, if_pos rfl] at hkey
      omega
  · exact iff_of_true (hcounted _ rfl) fun h => absurd h hzero

theorem decrementWithID_balanced_iff (hc : c.Balanced) (id : String) (answers : ℕ → Option String) :
    (c.step (.decrementWithID id answers)).Balanced ↔ c.Answered (.decrementWithID id answers) := by
  have hmap : ∀ i keys, (decrementAll answers i c keys).1.idMap = c.idMap := fun i keys =>
    idMap_decrementAll i c keys
  have hrest : ∀ key, (c.step (.decrementWithID id answers)).occurrences key =
      total (count key) (c.idMap.erase id) := by
    intro key
    simp only [step, decrementWithID, occurrences, hmap]
  have hcount : ∀ key, (c.ref key).count =
      ((listAt c.idMap id).count key : Int) +
        total (count key) (c.idMap.erase id) := by
    intro key
    rw [hc key, occurrences_eq c id]
    rfl
  have href : ∀ key, (c.step (.decrementWithID id answers)).ref key =
      (decrementAll answers 0 c (listAt c.idMap id)).1.ref key := fun key => rfl
  have hsplit : ∀ (before : List Key) key after, (before ++ key :: after).count key =
      (before ++ [key]).count key + after.count key := by
    intro before key after
    rw [← count_append, append_assoc]
    rfl
  constructor
  · intro h before key after hlist hlast
    have hkey := h key
    have hbefore := hcount key
    rw [hrest, href, hlist] at hkey
    rw [hlist, hsplit] at hbefore
    have hafter : key ∉ after := count_eq_zero.mp (by omega)
    rw [count_decrementAll hafter hlast] at hkey
    by_contra hfail
    rw [if_neg hfail] at hkey
    omega
  · intro h key
    rw [hrest, href]
    have hkey := hcount key
    by_cases hmem : key ∈ listAt c.idMap id
    · obtain ⟨before, after, hlist, hafter⟩ := exists_last_of_mem hmem
      have hnone : after.count key = 0 := count_eq_zero.mpr hafter
      by_cases hlast : ((before ++ [key]).count key : Int) = (c.ref key).count
      · rw [hlist, hsplit] at hkey
        rw [hlist, count_decrementAll hafter hlast, if_pos (h before key after hlist hlast)]
        omega
      · rw [hlist, hsplit] at hkey
        rw [count_decrementAll_of_lt] <;> rw [hlist, hsplit] <;> omega
    · rw [ref_decrementAll_of_not_mem hmem, hkey, count_eq_zero.mpr hmem]
      simp

theorem step_balanced_iff (hc : c.Balanced) (op : Op Key O) :
    (c.step op).Balanced ↔ c.Answered op := by
  cases op with
  | incrementWithID id key answer => exact incrementWithID_balanced_iff hc id key answer
  | decrementWithID id answers => exact decrementWithID_balanced_iff hc id answers

/-! ### Runs -/

omit [ToString Key] in
theorem balanced_new : (new : Counter Key O).Balanced := fun _ => rfl

/-- **Grouped reference counts balance after each operation of a run exactly if, at each
operation, the callbacks that it calls neither ignore a first reference nor fail to remove the
key of a last one.** -/
theorem run_balanced_iff (ops : List (Op Key O)) :
    Runs.Along step (fun c op => (c.step op).Balanced) new ops ↔
      Runs.Along step Answered new ops :=
  Runs.Along.congr Balanced (fun _ op hc => step_balanced_iff hc op)
    (fun _ op hc h => (step_balanced_iff hc op).mpr h) balanced_new

/-- A key is ignored when it is taken under `a`, added when it is taken under `b`, and `a` is
given back. -/
def ignoredKey : Counter ℕ Unit :=
  [.incrementWithID "a" 1 .ignore, .incrementWithID "b" 1 (.added ()),
    .decrementWithID "a" fun _ => none].foldl step new

/-- The only reference to a key is given back and its removal fails. -/
def busyKey : Counter ℕ Unit :=
  [.incrementWithID "a" 1 (.added ()), .decrementWithID "a" fun _ => some "busy"].foldl step new

/-- The reference of `b` is released by `a`; the reference whose removal failed is in no list. -/
theorem counts_unbalanced : (¬ ignoredKey.Balanced ∧ (ignoredKey.ref 1).count = 0 ∧
        Keyed.listAt ignoredKey.idMap "b" = [1]) ∧
      ¬ busyKey.Balanced ∧ (busyKey.ref 1).count = 1 ∧ busyKey.occurrences 1 = 0 := by
  refine ⟨⟨fun h => absurd (h 1) ?_, ?_, ?_⟩, fun h => absurd (h 1) ?_, ?_, ?_⟩
  all_goals decide

end Counter

end Netbird.RefCounter
