/-
A reference counter that was written to the state file and read again.

A Go map may be nil: reading, deleting and clearing work as for an empty map, but a write
panics. `UnmarshalJSON` takes the maps over from the document as they are, so a map that is
missing or null there is nil afterwards. (It then replaces nil maps by empty ones, but in the
local variable that it has already copied.)

The document is given by the members of its two objects; how keys and data are written as JSON
is a codec.

* `usable_iff` — a counter never writes to a nil map exactly if both maps are there;
* `restored_usable_iff` — both, for a restored counter.
-/
import Netbird.Client.RefCalls

namespace Netbird.RefCounter

open Option

/-- How a value is written as JSON, or as the name of a member. -/
structure Codec (α J : Type) where
  encode : α → J
  decode : J → Option α
  decode_encode : ∀ a, decode (encode a) = some a

/-- The members of the two objects of a document; `none` if the document is null, the object is
missing or it is null. -/
structure Document (J : Type) where
  refCountMap : Option (List (String × Int × J)) := none
  idMap : Option (List (String × List String)) := none

/-- The maps of a counter, which may be nil. -/
structure Raw (Key O : Type) where
  refCountMap : Option (AList fun _ : Key => Ref O)
  idMap : Option (AList fun _ : String => List Key)

namespace Raw

variable {Key O J : Type} [DecidableEq Key] [ToString Key] [Inhabited O]

/-! ### Calls -/

/-- What reads find. -/
def counter (r : Raw Key O) : Counter Key O :=
  ⟨r.refCountMap.getD ∅, r.idMap.getD ∅⟩

/-- `increment`; `none` is a write to a nil map. -/
def increment (r : Raw Key O) (key : Key) (answer : AddAnswer O) :
    Option (Raw Key O × Option String) :=
  let (c, _, err) := r.counter.increment key answer
  let stored := r.refCountMap.map fun _ => ({ r with refCountMap := some c.refCountMap }, err)
  if (r.counter.ref key).count = 0 then
    match answer with
    | .ignore | .failed _ => some (r, err)
    | .added _ => stored
  else stored

def incrementWithID (r : Raw Key O) (id : String) (key : Key) (answer : AddAnswer O) :
    Option (Raw Key O) :=
  match r.increment key answer with
  | none => none
  | some (r, some _) => some r
  | some (r, none) => r.idMap.map fun m => { r with idMap := some (Keyed.push m id key) }

/-- The calls; a key that is found is in a map that is not nil. -/
def call (r : Raw Key O) : Call Key O → Option (Raw Key O)
  | .increment key answer => (r.increment key answer).map (·.1)
  | .incrementWithID id key answer => r.incrementWithID id key answer
  | .decrement key answer => some { r with
      refCountMap := r.refCountMap.map fun _ => (r.counter.decrement key answer).1.refCountMap }
  | .decrementWithID id answers => some
      { refCountMap := r.refCountMap.map fun _ =>
          (r.counter.decrementWithID id answers).1.refCountMap
        idMap := r.idMap.map (·.erase id) }
  | .flush _ _ | .clear => some ⟨r.refCountMap.map fun _ => ∅, r.idMap.map fun _ => ∅⟩

def loadData (_rm existingCounter : Raw Key O) : Raw Key O :=
  { refCountMap := existingCounter.refCountMap
    idMap := existingCounter.idMap }

/-- `Increment`, `IncrementWithID`, `Decrement` and `DecrementWithID`. -/
def counts : Call Key O → Bool
  | .increment .. | .incrementWithID .. | .decrement .. | .decrementWithID .. => true
  | .flush .. | .clear => false

/-- No sequence of the counting calls writes to a nil map. -/
def Usable (r : Raw Key O) : Prop :=
  ∀ calls : List (Call Key O), calls.all counts = true → (calls.foldlM call r).isSome = true

def ofCounter (c : Counter Key O) : Raw Key O := ⟨some c.refCountMap, some c.idMap⟩

/-- **With both maps there** the calls are those of the counter. -/
theorem call_ofCounter (c : Counter Key O) (x : Call Key O) :
    (ofCounter c).call x = some (ofCounter (c.call x)) := by
  have hcounter : (ofCounter c).counter = c := rfl
  have hincrement : ∀ key answer, (ofCounter c).increment key answer =
      some (ofCounter (c.increment key answer).1, (c.increment key answer).2.2) := by
    intro key answer
    simp only [increment, hcounter]
    by_cases hzero : (c.ref key).count = 0
    · cases answer <;> simp [Counter.increment, hzero, ofCounter]
    · simp [Counter.increment, hzero, ofCounter]
  cases x with
  | increment key answer => rw [call, hincrement]; rfl
  | incrementWithID id key answer =>
    rw [call, incrementWithID, hincrement, Counter.call, Counter.incrementWithID]
    obtain ⟨c', ref, err⟩ := c.increment key answer
    cases err <;> rfl
  | decrement key answer =>
    simp only [call, hcounter, Counter.call]
    have hid := Counter.idMap_decrement c key answer
    rw [ofCounter, ofCounter, hid]
    rfl
  | decrementWithID id answers =>
    simp only [call, hcounter, Counter.call, Counter.decrementWithID]
    rw [Counter.idMap_decrementAll]
    rfl
  | flush visit answers => rfl
  | clear => rfl

theorem usable_iff [Inhabited Key] (r : Raw Key O) :
    r.Usable ↔ r.refCountMap.isSome = true ∧ r.idMap.isSome = true := by
  obtain ⟨refs, ids⟩ := r
  constructor
  · intro h
    -- a first reference is stored, and then listed under an id
    have hwrites := h [.incrementWithID "" default (.added default)] rfl
    rcases refs with _ | m
    · simp [call, incrementWithID, increment, counter, Counter.ref] at hwrites
    · refine ⟨rfl, ?_⟩
      rcases ids with _ | ids
      · by_cases hzero : ((⟨some m, none⟩ : Raw Key O).counter.ref default).count = 0 <;>
          simp [call, incrementWithID, increment, Counter.increment, hzero] at hwrites
      · rfl
  · rintro ⟨hrefs, hids⟩ calls -
    obtain ⟨m, rfl⟩ := isSome_iff_exists.mp hrefs
    obtain ⟨ids, rfl⟩ := isSome_iff_exists.mp hids
    have hrun : ∀ (calls : List (Call Key O)) (c : Counter Key O),
        (calls.foldlM call (ofCounter c)).isSome = true := by
      intro calls
      induction calls with
      | nil => exact fun c => rfl
      | cons x calls ih =>
        intro c
        rw [List.foldlM_cons, call_ofCounter]
        exact ih _
    exact hrun calls ⟨m, ids⟩

/-! ### Documents -/

/-- A member that is missing or null leaves the map nil. -/
def decodeMap {κ V β : Type} [DecidableEq κ] (f : β → Option (κ × V)) :
    Option (List β) → Option (Option (AList fun _ : κ => V))
  | none => some none
  | some members => (members.mapM f).map fun l => some (l.foldl (fun m e => m.insert e.1 e.2) ∅)

variable (keys : Codec Key String) (outs : Codec O J)

def decodeRef (e : String × Int × J) : Option (Key × Ref O) := do
  let key ← keys.decode e.1
  let out ← outs.decode e.2.2
  pure (key, ⟨e.2.1, out⟩)

def decodeID (e : String × List String) : Option (String × List Key) := do
  let ks ← e.2.mapM keys.decode
  pure (e.1, ks)

/-- `UnmarshalJSON`; `none` if the document is not accepted. The nil maps are replaced after the
assignment, and only in the local variable. -/
def unmarshalJSON (doc : Document J) : Option (Raw Key O) := do
  let refCountMap ← decodeMap (decodeRef keys outs) doc.refCountMap
  let idMap ← decodeMap (decodeID keys) doc.idMap
  pure ⟨refCountMap, idMap⟩

def marshalJSON (r : Raw Key O) : Document J where
  refCountMap := r.refCountMap.map fun m =>
    m.entries.map fun e => (keys.encode e.1, e.2.count, outs.encode e.2.out)
  idMap := r.idMap.map fun m => m.entries.map fun e => (e.1, e.2.map keys.encode)

theorem isSome_decodeMap {κ V β : Type} [DecidableEq κ] {f : β → Option (κ × V)}
    {members : Option (List β)} {m : Option (AList fun _ : κ => V)}
    (h : decodeMap f members = some m) : m.isSome = members.isSome := by
  rcases members with _ | l
  · cases h; rfl
  · obtain ⟨l', -, rfl⟩ := map_eq_some_iff.mp h
    rfl

theorem mapM_encode {α β : Type} {f : α → Option β} {g : β → α} (h : ∀ b, f (g b) = some b)
    (l : List β) : (l.map g).mapM f = some l := by
  induction l with
  | nil => rfl
  | cons b l ih =>
    rw [List.map_cons, List.mapM_cons, h, ih]
    rfl

/-- **What is written is read back.** -/
theorem lookup_restored {κ V β : Type} [DecidableEq κ] {f : β → Option (κ × V)}
    {g : (_ : κ) × V → β} (h : ∀ e, f (g e) = some (e.1, e.2))
    (m : Option (AList fun _ : κ => V)) :
    ∃ m', decodeMap f (m.map fun m => m.entries.map g) = some m' ∧ m'.isSome = m.isSome ∧
      ∀ k, (m'.getD ∅).lookup k = (m.getD ∅).lookup k := by
  rcases m with _ | m
  · exact ⟨none, rfl, rfl, fun _ => rfl⟩
  · let pairs := m.entries.map fun e => (e.1, e.2)
    have hdecode : (m.entries.map g).mapM f = some pairs := by
      have hpairs : m.entries.map g = pairs.map fun e => g ⟨e.1, e.2⟩ := by
        rw [List.map_map]
        rfl
      rw [hpairs]
      exact mapM_encode (fun e => h ⟨e.1, e.2⟩) _
    refine ⟨some (pairs.foldl (fun m e => m.insert e.1 e.2) ∅), ?_, rfl, fun k => ?_⟩
    · rw [map_some, decodeMap, hdecode]
      rfl
    rw [getD_some, List.foldl_map]
    by_cases hk : k ∈ m.entries.map Sigma.fst
    · obtain ⟨e, he, rfl⟩ := List.mem_map.mp hk
      obtain ⟨e', he', hkey, hlookup⟩ := Keyed.exists_lookup_foldl_insert hk
      rw [hlookup, ← show e'.1 = e.1 from hkey]
      exact (AList.mem_lookup_iff.mpr he').symm
    · rw [Keyed.lookup_foldl_insert_of_not_mem hk]
      exact (AList.lookup_eq_none.mpr fun hmem => hk (AList.mem_keys.mp hmem)).symm

/-- **A restored counter** is usable, itself or taken over, exactly if both maps are in the
document; and writing a counter and reading it again gives the same counts, data and lists. -/
theorem restored_usable_iff [Inhabited Key] (doc : Document J) (r written : Raw Key O)
    (h : unmarshalJSON keys outs doc = some r) :
    ((r.Usable ∧ ∀ rm : Raw Key O, (rm.loadData r).Usable) ↔
      doc.refCountMap.isSome = true ∧ doc.idMap.isSome = true) ∧
    ∃ read, unmarshalJSON keys outs (marshalJSON keys outs written) = some read ∧
      (∀ key, read.counter.refCountMap.lookup key = written.counter.refCountMap.lookup key) ∧
      ∀ id, read.counter.idMap.lookup id = written.counter.idMap.lookup id := by
  constructor
  · obtain ⟨refs, hrefs, hrest⟩ := bind_eq_some_iff.mp h
    obtain ⟨ids, hids, hr⟩ := bind_eq_some_iff.mp hrest
    obtain rfl := some.inj hr
    rw [← isSome_decodeMap hrefs, ← isSome_decodeMap hids, ← usable_iff ⟨refs, ids⟩]
    exact ⟨And.left, fun husable => ⟨husable, fun _ => husable⟩⟩
  · obtain ⟨refs, hrefs, -, hlookup⟩ := lookup_restored (f := decodeRef keys outs)
      (g := fun e => (keys.encode e.1, e.2.count, outs.encode e.2.out))
      (fun e => by simp [decodeRef, keys.decode_encode, outs.decode_encode]) written.refCountMap
    obtain ⟨ids, hids, -, hlists⟩ := lookup_restored (f := decodeID keys)
      (g := fun e => (e.1, e.2.map keys.encode))
      (fun e => by simp [decodeID, mapM_encode keys.decode_encode]) written.idMap
    refine ⟨⟨refs, ids⟩, ?_, hlookup, hlists⟩
    rw [unmarshalJSON, marshalJSON, hrefs, hids]
    rfl

/-- Keys and data that are texts. -/
def textCodec : Codec String String := ⟨id, some, fun _ => rfl⟩

/-- A document with both maps gives a usable counter. -/
theorem two_references_usable :
    let doc : Document String :=
      ⟨some [("10.0.0.0/8", 2, "wg0")], some [("peer", ["10.0.0.0/8", "10.0.0.0/8"])]⟩
    ∃ r : Raw String String, unmarshalJSON textCodec textCodec doc = some r ∧ r.Usable :=
  ⟨_, rfl, ((restored_usable_iff textCodec textCodec
    ⟨some [("10.0.0.0/8", 2, "wg0")], some [("peer", ["10.0.0.0/8", "10.0.0.0/8"])]⟩ _ ⟨none, none⟩
    rfl).1.mpr ⟨rfl, rfl⟩).1⟩

/-- The empty document is accepted, and the first key that is added is a write to a nil map. -/
theorem empty_document_panics :
    ∃ r : Raw String String, unmarshalJSON textCodec textCodec {} = some r ∧
      ([.increment "10.0.0.0/8" (.added "wg0")].foldlM call r).isNone = true :=
  ⟨_, rfl, rfl⟩

end Raw

end Netbird.RefCounter
