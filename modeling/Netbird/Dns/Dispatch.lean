/-
The order in which the handler chain offers a query to its handlers.

`AddHandler` puts an entry behind those of its priority whose patterns have as many dots.  The dots
stand for the labels, which is right but for the root, with a dot and no label, and for escaped
dots.

* **`dispatch_eq`**, **`refuses_iff`** — the query goes through the matching entries up to the
  first that does not ask to continue, and is refused if there is none;
* **`specific_iff`** — when that is the order of the priorities and the labels.
-/
import Netbird.Dns.Chain
import Netbird.Lib.Runs

namespace Netbird.Dns

open List

/-- The dots of a name that are not escaped. -/
def separators : Name → ℕ
  | '\\' :: _ :: n => separators n
  | c :: n => if c = '.' then separators n + 1 else separators n
  | [] => 0

/-- The labels of a pattern, which ends in a dot.  The root has none. -/
def labels (pattern : Name) : ℕ := if pattern = ['.'] then 0 else separators pattern

section Order

variable {H : Type} (fm : NameMap) (matchSubdomains : H → Bool) (continues : HandlerEntry H → Bool)
  (limit : Option ℤ) (qname : Name) (hs : List (HandlerEntry H))

/-- The end of `dispatch`: no handler has answered. -/
def refuses : List (HandlerEntry H) → Bool
  | [] => true
  | e :: hs =>
    if limit.any (· < e.priority) then refuses hs
    else if isHandlerMatch fm qname e then if continues e then refuses hs else false
    else refuses hs

/-- The entries for the query, in the order of the chain. -/
def matching : List (HandlerEntry H) :=
  hs.filter fun e => ! limit.any (· < e.priority) && isHandlerMatch fm qname e

theorem dispatch_eq : dispatch fm continues limit qname hs =
    (matching fm limit qname hs).takeWhile continues ++
      ((matching fm limit qname hs).dropWhile continues).take 1 := by
  induction hs with
  | nil => rfl
  | cons e hs ih =>
    rw [dispatch, ih]
    by_cases hlimit : limit.any (· < e.priority) <;>
      by_cases hmatch : isHandlerMatch fm qname e <;>
      by_cases hcont : continues e <;> simp [matching, hlimit, hmatch, hcont]

theorem refuses_iff : refuses fm continues limit qname hs ↔
    ∀ e ∈ matching fm limit qname hs, continues e := by
  induction hs with
  | nil => simp [refuses, matching]
  | cons e hs ih =>
    rw [refuses]
    by_cases hlimit : limit.any (· < e.priority) <;>
      by_cases hmatch : isHandlerMatch fm qname e <;>
      by_cases hcont : continues e <;> simp [matching, hlimit, hmatch, hcont, ih]

/-- The first entry goes before the second: it has the higher priority, or the same one and as
many labels. -/
def Before (e e' : HandlerEntry H) : Prop :=
  e'.priority < e.priority ∨ e'.priority = e.priority ∧ labels e'.pattern ≤ labels e.pattern

instance : DecidableRel (Before (H := H)) := fun _ _ => inferInstanceAs (Decidable (_ ∨ _ ∧ _))

/-- The entries for a query are in that order. -/
def Specific : Prop := ∀ limit name, (matching fm limit (fm.lowered name) hs).Pairwise Before

/-- Some query goes to both entries. -/
def Meet (e e' : HandlerEntry H) : Prop :=
  ∃ name, isHandlerMatch fm (fm.lowered name) e ∧ isHandlerMatch fm (fm.lowered name) e'

/-- A new entry has more dots than the others of its priority that it meets only if it has as many
labels, and no more dots only if it has no more labels. -/
def Counts : Call H → Prop
  | .removeHandler _ _ => True
  | .addHandler pattern handler priority =>
    let new := newEntry fm matchSubdomains pattern handler priority
    ∀ e ∈ removeEntry fm new.origPattern priority hs, e.priority = priority → Meet fm e new →
      if e.pattern.count '.' < new.pattern.count '.' then labels e.pattern ≤ labels new.pattern
      else labels new.pattern ≤ labels e.pattern

variable {fm matchSubdomains hs}

theorem specific_iff_pairwise :
    Specific fm hs ↔ hs.Pairwise fun e e' => Meet fm e e' → Before e e' := by
  simp only [Specific, matching, pairwise_filter, Bool.and_eq_true]
  simp only [pairwise_iff_forall_sublist]
  constructor
  · rintro h e e' hsub ⟨name, he, he'⟩
    exact h none name hsub ⟨rfl, he⟩ ⟨rfl, he'⟩
  · exact fun h limit name e e' hsub he he' => h hsub ⟨name, he.2, he'.2⟩

/-! ### The place of an entry -/

/-- The second entry goes before the first by its dots. -/
def Lower (e e' : HandlerEntry H) : Prop :=
  e.priority < e'.priority ∨ e.priority = e'.priority ∧ e.pattern.count '.' < e'.pattern.count '.'

/-- The order of the chain, by dots, and what that makes of the queries. -/
structure Ranked (fm : NameMap) (hs : List (HandlerEntry H)) : Prop where
  sorted : hs.Pairwise fun e e' => ¬ Lower e e'
  specific : hs.Pairwise fun e e' => Meet fm e e' → Before e e'

theorem findHandlerPosition_cases (new : HandlerEntry H)
    (h : hs.Pairwise fun e e' => ¬ Lower e e') :
    (∀ e ∈ hs.take (findHandlerPosition new hs), ¬ Lower e new) ∧
      ∀ e ∈ hs.drop (findHandlerPosition new hs), Lower e new := by
  induction hs with
  | nil => exact ⟨nofun, nofun⟩
  | cons e hs ih =>
    obtain ⟨he, hrest⟩ := pairwise_cons.mp h
    by_cases hlower : Lower e new
    · have hpos : findHandlerPosition new (e :: hs) = 0 := by grind [findHandlerPosition, Lower]
      rw [hpos]
      refine ⟨nofun, forall_mem_cons.mpr ⟨hlower, fun e' he' => ?_⟩⟩
      have := he e' he'
      grind [Lower]
    · have hpos : findHandlerPosition new (e :: hs) = findHandlerPosition new hs + 1 := by
        grind [findHandlerPosition, Lower]
      rw [hpos]
      exact ⟨forall_mem_cons.mpr ⟨hlower, (ih hrest).1⟩, (ih hrest).2⟩

theorem removeEntry_sublist (pattern : Name) (priority : ℤ) :
    removeEntry fm pattern priority hs <+ hs := by
  rw [removeEntry, ← reverse_sublist, reverse_reverse]
  exact eraseP_sublist

theorem Ranked.step (h : Ranked fm hs) (c : Call H) :
    (Specific fm (call fm matchSubdomains hs c) ↔ Counts fm matchSubdomains hs c) ∧
      (Counts fm matchSubdomains hs c → Ranked fm (call fm matchSubdomains hs c)) := by
  rw [specific_iff_pairwise]
  cases c with
  | removeHandler pattern priority =>
    have hremoved : Ranked fm (removeHandler fm hs pattern priority) :=
      ⟨h.sorted.sublist (removeEntry_sublist ..), h.specific.sublist (removeEntry_sublist ..)⟩
    exact ⟨iff_of_true hremoved.specific trivial, fun _ => hremoved⟩
  | addHandler pattern handler priority =>
    simp only [call, addHandler, Counts]
    generalize hnew : newEntry fm matchSubdomains pattern handler priority = new
    have hprio : new.priority = priority := by rw [← hnew]; rfl
    have hsub : removeEntry fm new.origPattern priority hs <+ hs := removeEntry_sublist ..
    generalize removeEntry fm new.origPattern priority hs = rest at hsub ⊢
    have hsorted := h.sorted.sublist hsub
    have hspecific := h.specific.sublist hsub
    obtain ⟨hbefore, hafter⟩ := findHandlerPosition_cases new hsorted
    generalize findHandlerPosition new rest = pos at hbefore hafter ⊢
    -- a relation between the entries in order is one between the others, and the new one with each
    have hpair : ∀ R : HandlerEntry H → HandlerEntry H → Prop, rest.Pairwise R →
        ((rest.take pos ++ new :: rest.drop pos).Pairwise R ↔
          (∀ e ∈ rest.take pos, R e new) ∧ ∀ e ∈ rest.drop pos, R new e) := by
      intro R hR
      rw [← take_append_drop pos rest, pairwise_append] at hR
      simp only [pairwise_append, pairwise_cons, mem_cons, forall_eq_or_imp, imp_and, forall_and]
      tauto
    refine ⟨?iff, fun hcounts =>
      ⟨(hpair _ hsorted).mpr ⟨hbefore, fun e he => ?_⟩, Iff.mpr ?iff hcounts⟩⟩
    · rw [hpair _ hspecific]
      nth_rewrite 3 [← take_append_drop pos rest]
      rw [forall_mem_append]
      refine and_congr (forall₂_congr fun e he => ?_) (forall₂_congr fun e he => ?_)
      · have := hbefore e he
        grind [Lower, Before]
      · have := hafter e he
        have hcomm : Meet fm new e ↔ Meet fm e new := exists_congr fun _ => and_comm
        grind [Lower, Before]
    · have := hafter e he
      grind [Lower]

variable (fm matchSubdomains) in
/-- **Queries go to the most specific handler first** after each call, exactly if the dots of each
new entry compare to those of the entries it meets as its labels do.  In any case they go through
the matching entries up to the first that does not ask to continue, and are refused if there is
none. -/
theorem specific_iff (calls : List (Call H)) :
    (Runs.Along (call fm matchSubdomains) (fun hs c => Specific fm (call fm matchSubdomains hs c))
        [] calls ↔ Runs.Along (call fm matchSubdomains) (Counts fm matchSubdomains) [] calls) ∧
    ∀ continues limit name,
      let offers := matching fm limit (fm.lowered name) (chain fm matchSubdomains calls)
      dispatch fm continues limit (fm.lowered name) (chain fm matchSubdomains calls) =
          offers.takeWhile continues ++ (offers.dropWhile continues).take 1 ∧
        (refuses fm continues limit (fm.lowered name) (chain fm matchSubdomains calls) ↔
          ∀ e ∈ offers, continues e) := by
  refine ⟨Runs.Along.congr (Ranked fm) (fun hs c h => (h.step c).1) (fun hs c h => (h.step c).2)
    ⟨.nil, .nil⟩, fun continues limit name => ⟨?_, ?_⟩⟩
  · exact dispatch_eq ..
  · exact refuses_iff ..

/-- A handler for the root, and one for `com` of the same priority. -/
def rootCalls : List (Call Unit) := [.addHandler ['.'] () 1, .addHandler ['c', 'o', 'm'] () 1]

/-- The root is asked first. -/
theorem root_before_com : ¬ Runs.Along (call .ascii fun _ => false)
    (fun hs c => Specific .ascii (call .ascii (fun _ => false) hs c)) [] rootCalls := by
  rintro ⟨-, h, -⟩
  exact absurd (h none ['c', 'o', 'm', '.']) (by decide)

end Order

end Netbird.Dns
