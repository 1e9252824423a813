/-
The tables of the address mappings over a history of calls (`uspfilter/nat.go`).

`AddInternalDNATMapping` writes the mapping of an address and the way back, and
`RemoveInternalDNATMapping` removes both.  Neither looks at what the way back was.  An address that
is mapped again leaves the way back from its old target, and of two addresses with one target only
the last has a way back, which is removed with either of them.

* `agrees_call_iff` — which calls keep the tables in agreement;
* `reversible_iff` — the histories after which every mapping can be reversed.
-/
import Netbird.Firewall.Nat
import Netbird.Lib.Runs

namespace Netbird.Firewall.Dnat

open Runs Option Keyed

variable {n n' : Dnat} {isLocalIP : Bytes → Bool}

inductive Call where
  | add (isLocalIP : Bytes → Bool) (original translated : Bytes)
  | remove (original : Bytes)

/-- The tables after a call; one that is refused leaves them as they are. -/
def call (n : Dnat) : Call → Dnat
  | .add isLocalIP original translated =>
    match n.addInternalDNATMapping isLocalIP original translated with
    | .ok n' => n'
    | .error _ => n
  | .remove original =>
    match n.removeInternalDNATMapping original with
    | .ok (.ok n') => n'
    | _ => n

def new : Dnat := ⟨false, ∅, none⟩

/-- The two directions of `dnatBiMap`. -/
def forward (n : Dnat) (original : Bytes) : Option Bytes :=
  n.biMap.bind (·.forward.lookup original)

def reverse (n : Dnat) (translated : Bytes) : Option Bytes :=
  n.biMap.bind (·.reverse.lookup translated)

/-- **The tables agree**: the two directions with each other and with `dnatMappings`, and a packet
for a mapped address is translated and the reply to it translated back. -/
structure Agrees (n : Dnat) : Prop where
  table : ∀ o, n.forward o = n.mappings.lookup o
  back : ∀ t o, n.reverse t = some o → n.forward o = some t
  restored : ∀ o t, n.mappings.lookup o = some t →
    n.getDNATTranslation o = .ok (some t) ∧ n.findReverseDNATMapping t = .ok (some o)

/-! ### What every history keeps -/

structure Consistent (n : Dnat) : Prop where
  table : ∀ o, n.forward o = n.mappings.lookup o
  enabled : n.enabled = true ∨ n.mappings.keys = []

theorem Consistent.agrees_iff (hn : n.Consistent) :
    n.Agrees ↔ ∀ t o, n.reverse t = some o ↔ n.mappings.lookup o = some t := by
  have hmapped : ∀ {o t}, n.mappings.lookup o = some t → n.enabled = true ∧ ∃ b, n.biMap = some b := by
    intro o t h
    refine ⟨hn.enabled.resolve_right fun hnil => ?_, ?_⟩
    · have hmem := AList.lookup_isSome.mp (isSome_of_mem h)
      simp [AList.mem_keys, hnil] at hmem
    · obtain ⟨b, hb, -⟩ := bind_eq_some_iff.mp ((hn.table o).trans h)
      exact ⟨b, hb⟩
  constructor
  · intro h t o
    refine ⟨fun hr => hn.table o ▸ h.back t o hr, fun hm => ?_⟩
    obtain ⟨hen, b, hb⟩ := hmapped hm
    simpa [findReverseDNATMapping, reverse, hen, hb, Checked.deref] using (h.restored o t hm).2
  · intro h
    refine ⟨hn.table, fun t o hr => (hn.table o).trans ((h t o).mp hr), fun o t hm => ?_⟩
    obtain ⟨hen, b, hb⟩ := hmapped hm
    have hf := (hn.table o).trans hm
    have hr := (h t o).mpr hm
    simp only [forward, reverse, hb, bind_some] at hf hr
    simp [getDNATTranslation, findReverseDNATMapping, hen, hb, Checked.deref, hf, hr]

/-- The call is not refused. -/
def Accepts (isLocalIP : Bytes → Bool) (original translated : Bytes) : Prop :=
  original ≠ [] ∧ translated ≠ [] ∧ isLocalIP translated = false

/-- **An addition** writes the mapping and the way back. -/
theorem Consistent.add (hn : n.Consistent) {o t : Bytes} (h : Accepts isLocalIP o t) :
    (n.call (.add isLocalIP o t)).Consistent ∧
      (∀ x, (n.call (.add isLocalIP o t)).mappings.lookup x =
        if x = o then some t else n.mappings.lookup x) ∧
      ∀ x, (n.call (.add isLocalIP o t)).reverse x = if x = t then some o else n.reverse x := by
  obtain ⟨ho, ht, hlocal⟩ := h
  have htable := hn.table
  simp only [call, addInternalDNATMapping, ho, ht, hlocal, if_false, Bool.false_eq_true]
  rcases hb : n.biMap with _ | b
  · simp only [forward, hb, bind_none] at htable
    refine ⟨⟨fun x => ?_, .inl ?_⟩, fun x => ?_, fun x => ?_⟩
    · simp [forward, BiDNATMap.set]
    · simp
    · rw [lookup_insert_ite, AList.lookup_empty, htable]
    · exact (lookup_insert_ite ∅ t x o).trans (by simp [reverse, hb])
  · simp only [forward, hb, bind_some] at htable
    refine ⟨⟨fun x => ?_, .inl ?_⟩, fun x => ?_, fun x => ?_⟩
    · simp [forward, BiDNATMap.set, lookup_insert_ite, htable]
    · rcases hn.enabled with hen | hnil
      · simp [hen]
      · simp [AList.keys_insert, hnil]
    · exact lookup_insert_ite ..
    · simp [reverse, hb, BiDNATMap.set, lookup_insert_ite]

theorem call_of_not_accepts {o t : Bytes} (h : ¬Accepts isLocalIP o t) :
    n.call (.add isLocalIP o t) = n := by
  simp only [call, addInternalDNATMapping]
  grind [Accepts]

/-- **A removal** removes the mapping, and the way back from its target whoever owns it. -/
theorem Consistent.remove (hn : n.Consistent) {o t : Bytes} (h : n.mappings.lookup o = some t) :
    (n.call (.remove o)).Consistent ∧ (∀ x, (n.call (.remove o)).mappings.lookup x =
        if x = o then none else n.mappings.lookup x) ∧
      ∀ x, (n.call (.remove o)).reverse x = if x = t then none else n.reverse x := by
  have htable := hn.table
  obtain ⟨b, hb, hf⟩ := bind_eq_some_iff.mp ((htable o).trans h)
  simp only [forward, hb, bind_some] at htable
  simp only [call, removeInternalDNATMapping, h, hb, Checked.deref]
  refine ⟨⟨fun x => ?_, ?_⟩, fun x => lookup_erase_ite .., fun x => ?_⟩
  · simp [forward, BiDNATMap.delete, hf, lookup_erase_ite, htable]
  · by_cases hnil : (n.mappings.erase o).keys = []
    · exact .inr hnil
    · rcases hn.enabled with hen | hempty
      · exact .inl ((if_neg hnil).trans hen)
      · exact .inr (by simp [AList.keys_erase, hempty])
  · simp [reverse, hb, BiDNATMap.delete, hf, lookup_erase_ite]

theorem call_remove_of_none {o : Bytes} (h : n.mappings.lookup o = none) :
    n.call (.remove o) = n := by
  simp [call, removeInternalDNATMapping, h]

theorem Consistent.call (hn : n.Consistent) (c : Call) : (n.call c).Consistent := by
  cases c with
  | add isLocalIP o t =>
    by_cases h : Accepts isLocalIP o t
    · exact (hn.add h).1
    · rwa [call_of_not_accepts h]
  | remove o =>
    rcases h : n.mappings.lookup o with _ | t
    · rwa [call_remove_of_none h]
    · exact (hn.remove h).1

/-! ### The calls that keep the tables in agreement -/

/-- **An accepted addition is fresh**: the address is not mapped to another target, and the target
is not that of another address. -/
def Fresh (n : Dnat) : Call → Prop
  | .add isLocalIP original translated => Accepts isLocalIP original translated →
    (∀ t, n.mappings.lookup original = some t → t = translated) ∧
      ∀ o, n.mappings.lookup o = some translated → o = original
  | .remove _ => True

theorem agrees_call_iff (hn : n.Consistent) (h : n.Agrees) (c : Call) :
    (n.call c).Agrees ↔ n.Fresh c := by
  rw [hn.agrees_iff] at h
  cases c with
  | add isLocalIP o t =>
    by_cases hacc : Accepts isLocalIP o t
    · obtain ⟨hn', hm, hr⟩ := hn.add hacc
      simp only [hn'.agrees_iff, hm, hr, Fresh, hacc, forall_const]
      constructor
      · intro hall
        refine ⟨fun t' ht' => ?_, fun o' ho' => ?_⟩
        · have := hall t' o
          grind
        · have := hall t o'
          grind
      · rintro ⟨hsame, honly⟩ x y
        grind
    · simp [call_of_not_accepts hacc, hn.agrees_iff, h, Fresh, hacc]
  | remove o =>
    refine iff_of_true ?_ trivial
    rcases hm : n.mappings.lookup o with _ | t
    · rwa [call_remove_of_none hm, hn.agrees_iff]
    · obtain ⟨hn', hm', hr⟩ := hn.remove hm
      rw [hn'.agrees_iff]
      intro x y
      have := h t o
      grind

/-- **The tables agree after every call of a history exactly when every addition was fresh.** -/
theorem reversible_iff (calls : List Call) :
    Along call (fun n c => (n.call c).Agrees) new calls ↔
      Along call Fresh new calls := by
  have hnew : new.Consistent := ⟨fun _ => rfl, .inr rfl⟩
  refine Along.congr (fun n => n.Consistent ∧ n.Agrees) (fun n c h => agrees_call_iff h.1 h.2 c)
    (fun n c h hfresh => ⟨h.1.call c, (agrees_call_iff h.1 h.2 c).mpr hfresh⟩)
    ⟨hnew, hnew.agrees_iff.mpr fun t o => ?_⟩
  simp [reverse, new]

/-- Two addresses with one target: after the second is removed, the reply to the first is not
translated back. -/
theorem shared_target_not_restored :
    let first : Bytes := [10, 0, 0, 1]
    let second : Bytes := [10, 0, 0, 2]
    let target : Bytes := [10, 0, 0, 3]
    let calls : List Call :=
      [.add (fun _ => false) first target, .add (fun _ => false) second target, .remove second]
    let n := calls.foldl call new
    n.mappings.lookup first = some target ∧ n.getDNATTranslation first = .ok (some target) ∧
      n.findReverseDNATMapping target = .ok none := by
  decide

end Netbird.Firewall.Dnat
