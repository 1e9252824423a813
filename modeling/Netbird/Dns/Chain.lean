/-
The DNS handler chain (`client/internal/dns/handler_chain.go`).

Handlers are registered under a pattern and a priority; a query goes through the entries in
order, to each that matches its name, until one does not ask to continue.  Names and patterns
are lists of runes, lower-cased by any mapping that agrees with ASCII.

* `Lists.run` — a pattern and priority have at most one entry, the last one added and not
  removed;
* `mayOffer_chain_iff` — the entries a query may be offered to;
* `boundary_iff` — they are those whose pattern covers the name if and only if no registered
  wildcard matches the name inside a label.
-/
import Netbird.Lib.Keyed
import Netbird.Lib.Text
import Mathlib.Data.List.Infix

namespace Netbird.Dns

open List

/-- A domain name or a pattern, with its dots. -/
abbrev Name := List Char

/-! ### Fully qualified names -/

/-- How names are compared and completed: `dns.Fqdn` adds a dot to a name that has none at its
end, or only an escaped one. -/
structure NameMap extends FoldMap where
  fqdn : Name → Name
  fqdn_cases : ∀ n, fqdn n = n ∨ fqdn n = n ++ ['.']
  fqdn_dot : ∀ n, (fqdn n).getLast? = some '.'
  fqdn_root : fqdn ['.'] = ['.']

/-- Names in ASCII without escapes, for evaluation. -/
def NameMap.ascii : NameMap where
  toFoldMap := FoldMap.ascii
  fqdn n := if n.getLast? = some '.' then n else n ++ ['.']
  fqdn_cases n := by
    split_ifs
    · exact .inl rfl
    · exact .inr rfl
  fqdn_dot n := by
    split_ifs with h
    · exact h
    · exact getLast?_concat
  fqdn_root := if_pos rfl

/-- A name that agrees with its lower case still does when it is completed. -/
theorem NameMap.consistent_fqdn {fm : NameMap} {n : Name} (h : fm.Consistent n) :
    fm.Consistent (fm.fqdn n) := by
  rcases fm.fqdn_cases n with heq | heq
  · rwa [heq]
  · rw [heq]
    refine forall_mem_append.mpr ⟨h, forall_mem_singleton.mpr ?_⟩
    rw [fm.lower_ascii '.' (by decide)]
    rfl

/-- `strings.HasSuffix`. -/
def hasSuffix (s suffix : Name) : Bool := suffix.isSuffixOf s

/-- `strings.TrimSuffix`. -/
def trimSuffix (s suffix : Name) : Name :=
  if hasSuffix s suffix then s.take (s.length - suffix.length) else s

/-! ### The chain -/

structure HandlerEntry (H : Type) where
  handler : H
  priority : ℤ
  pattern : Name
  origPattern : Name
  isWildcard : Bool
  matchSubdomains : Bool
  deriving DecidableEq

section Chain

variable {H : Type} (fm : NameMap) (matchSubdomains : H → Bool)

/-- The entry `AddHandler` makes; `matchSubdomains` is what the handler answers, `false` if it is
no `SubdomainMatcher`. -/
def newEntry (pattern : Name) (handler : H) (priority : ℤ) : HandlerEntry H :=
  let origPattern := fm.lowered (fm.fqdn pattern)
  let isWildcard := ['*', '.'].isPrefixOf origPattern
  { handler := handler
    priority := priority
    pattern := if isWildcard then origPattern.drop 2 else origPattern
    origPattern := origPattern
    isWildcard := isWildcard
    matchSubdomains := matchSubdomains handler }

/-- The loop of `findHandlerPosition`: higher priorities first, then patterns with more dots. -/
def findHandlerPosition (new : HandlerEntry H) : List (HandlerEntry H) → ℕ
  | [] => 0
  | h :: hs =>
    if h.priority < new.priority then 0
    else if h.priority = new.priority ∧ h.pattern.count '.' < new.pattern.count '.' then 0
    else findHandlerPosition new hs + 1

/-- The loop of `removeEntry`, from the end, up to the first entry it removes. -/
def removeEntry (pattern : Name) (priority : ℤ) (hs : List (HandlerEntry H)) :
    List (HandlerEntry H) :=
  (hs.reverse.eraseP fun e =>
    fm.folded e.origPattern = fm.folded pattern ∧ e.priority = priority).reverse

/-- Replaces the entry of the pattern and priority, if there is one. -/
def addHandler (hs : List (HandlerEntry H)) (pattern : Name) (handler : H) (priority : ℤ) :
    List (HandlerEntry H) :=
  let entry := newEntry fm matchSubdomains pattern handler priority
  let hs := removeEntry fm entry.origPattern priority hs
  let pos := findHandlerPosition entry hs
  hs.take pos ++ entry :: hs.drop pos

def removeHandler (hs : List (HandlerEntry H)) (pattern : Name) (priority : ℤ) :
    List (HandlerEntry H) :=
  removeEntry fm (fm.fqdn pattern) priority hs

/-- A wildcard needs a dot before its suffix, which need not be the one next to it. -/
def isHandlerMatch (qname : Name) (e : HandlerEntry H) : Bool :=
  if e.pattern = ['.'] then true
  else if e.isWildcard then
    ((trimSuffix qname e.pattern).splitOn '.').length ≥ 2 ∧ hasSuffix qname e.pattern
  else if e.matchSubdomains then
    fm.folded qname = fm.folded e.pattern ∨ hasSuffix qname ('.' :: e.pattern)
  else fm.folded qname = fm.folded e.pattern

/-- The loop of `dispatch`: the entries whose handlers see the query.  Whether a handler asks to
continue is up to it; `ServeDNS` sets no limit. -/
def dispatch (continues : HandlerEntry H → Bool) (maxPriority : Option ℤ) (qname : Name) :
    List (HandlerEntry H) → List (HandlerEntry H)
  | [] => []
  | e :: hs =>
    if maxPriority.any (· < e.priority) then dispatch continues maxPriority qname hs
    else if isHandlerMatch fm qname e then
      if continues e then e :: dispatch continues maxPriority qname hs else [e]
    else dispatch continues maxPriority qname hs

/-- The calls on a chain. -/
inductive Call (H : Type)
  | addHandler (pattern : Name) (handler : H) (priority : ℤ)
  | removeHandler (pattern : Name) (priority : ℤ)

def call (hs : List (HandlerEntry H)) : Call H → List (HandlerEntry H)
  | .addHandler pattern handler priority => addHandler fm matchSubdomains hs pattern handler priority
  | .removeHandler pattern priority => removeHandler fm hs pattern priority

/-- The chain after the calls. -/
def chain (calls : List (Call H)) : List (HandlerEntry H) :=
  calls.foldl (call fm matchSubdomains) []

/-! ### What should be there -/

/-- The pattern without its case, and the priority. -/
abbrev Key := Name × ℤ

/-- The key a call is about, and what is registered under it afterwards: the pattern in lower
case and the handler, or nothing. -/
def Call.entry : Call H → Key × Option (Name × H)
  | .addHandler pattern handler priority =>
    ((fm.folded (fm.fqdn pattern), priority), some (fm.lowered (fm.fqdn pattern), handler))
  | .removeHandler pattern priority => ((fm.folded (fm.fqdn pattern), priority), none)

/-- The pattern that a call adds agrees with its lower case. -/
def Call.Consistent : Call H → Prop
  | .addHandler pattern _ _ => fm.Consistent pattern
  | .removeHandler _ _ => True

/-- What is registered under a key after the calls: the last call about it decides. -/
def registered (calls : List (Call H)) (k : Key) : Option (Name × H) :=
  calls.foldl (fun r c => if (c.entry fm).1 = k then (c.entry fm).2 else r) none

/-- The pattern covers the name, both in lower case: `.` covers every name, `*.d` the names
ending in `.d`, any other pattern itself and, if its handler matches subdomains, the names ending
in a dot and the pattern. -/
def Covers (pattern : Name) (subdomains : Bool) (qname : Name) : Prop :=
  pattern = ['.'] ∨ (∃ d, pattern = '*' :: '.' :: d ∧ '.' :: d <:+ qname) ∨
    ¬ ['*', '.'] <+: pattern ∧
      (fm.folded qname = fm.folded pattern ∨ subdomains ∧ '.' :: pattern <:+ qname)

end Chain

/-! ### The entries of a chain -/

section Entries

variable {H : Type} {fm : NameMap} {matchSubdomains : H → Bool}

def HandlerEntry.key (fm : NameMap) (e : HandlerEntry H) : Key :=
  (fm.folded e.origPattern, e.priority)

variable {hs : List (HandlerEntry H)}

theorem removeEntry_eq (h : (hs.map (·.key fm)).Nodup) (pattern : Name) (priority : ℤ) :
    removeEntry fm pattern priority hs = hs.filter (·.key fm ≠ (fm.folded pattern, priority)) := by
  have hrev : (hs.reverse.map (·.key fm)).Nodup := by
    rw [map_reverse]
    exact nodup_reverse.mpr h
  have heq := Keyed.eraseP_eq_filter hrev (fm.folded pattern, priority)
  simp only [HandlerEntry.key, Prod.mk.injEq] at heq
  rw [removeEntry, heq]
  simp [HandlerEntry.key]

variable (fm matchSubdomains) in
/-- The place of the new entry does not matter for what is in the chain. -/
theorem addHandler_perm (hs : List (HandlerEntry H)) (pattern : Name) (handler : H) (priority : ℤ) :
    (addHandler fm matchSubdomains hs pattern handler priority).Perm
      (newEntry fm matchSubdomains pattern handler priority ::
        removeEntry fm (fm.lowered (fm.fqdn pattern)) priority hs) := by
  refine perm_middle.trans (.cons _ ?_)
  rw [take_append_drop]
  exact .refl _

/-- The chain has the entries it should have, once each. -/
structure Lists (fm : NameMap) (matchSubdomains : H → Bool) (r : Key → Option (Name × H))
    (hs : List (HandlerEntry H)) : Prop where
  nodup : (hs.map (·.key fm)).Nodup
  made : ∀ e ∈ hs, ∃ pattern, e = newEntry fm matchSubdomains pattern e.handler e.priority
  registered : ∀ k pattern handler, r k = some (pattern, handler) ↔
    ∃ e ∈ hs, e.key fm = k ∧ e.origPattern = pattern ∧ e.handler = handler

namespace Lists

variable {r : Key → Option (Name × H)} {hs : List (HandlerEntry H)}

theorem nil : Lists fm matchSubdomains (fun _ => none) ([] : List (HandlerEntry H)) where
  nodup := nodup_nil
  made _ h := nomatch h
  registered := by simp

variable (h : Lists fm matchSubdomains r hs)

include h

theorem remove (pattern : Name) (priority : ℤ) : Lists fm matchSubdomains
      (fun k => if (fm.folded pattern, priority) = k then none else r k)
      (removeEntry fm pattern priority hs) := by
  rw [removeEntry_eq h.nodup]
  refine ⟨h.nodup.sublist (filter_sublist.map _), fun e he => h.made e (mem_filter.mp he).1, ?_⟩
  intro k p handler
  by_cases hk : (fm.folded pattern, priority) = k
  · simp only [hk, if_true]
    constructor
    · intro h'
      cases h'
    · rintro ⟨e, he, hek, -⟩
      simpa [hek] using (mem_filter.mp he).2
  · simp only [hk, if_false]
    rw [h.registered]
    refine exists_congr fun e => ?_
    rw [mem_filter]
    constructor
    · rintro ⟨he, hek, h'⟩
      exact ⟨⟨he, by simpa [hek] using Ne.symm hk⟩, hek, h'⟩
    · rintro ⟨⟨he, -⟩, h'⟩
      exact ⟨he, h'⟩

theorem add {pattern : Name} (hp : fm.Consistent pattern) (handler : H) (priority : ℤ) :
    Lists fm matchSubdomains
      (fun k => if (fm.folded (fm.fqdn pattern), priority) = k
        then some (fm.lowered (fm.fqdn pattern), handler) else r k)
      (addHandler fm matchSubdomains hs pattern handler priority) := by
  have hperm := addHandler_perm fm matchSubdomains hs pattern handler priority
  have hfolded := (NameMap.consistent_fqdn hp).folded_lowered
  have hremove := h.remove (fm.lowered (fm.fqdn pattern)) priority
  rw [hfolded] at hremove
  have hkey : (newEntry fm matchSubdomains pattern handler priority).key fm =
      (fm.folded (fm.fqdn pattern), priority) := congrArg (·, priority) hfolded
  refine ⟨(hperm.map _).nodup_iff.mpr ?_, fun e he => ?_, fun k p handler' => ?_⟩
  · rw [map_cons, nodup_cons, hkey]
    refine ⟨fun hmem => ?_, hremove.nodup⟩
    obtain ⟨e, he, hek⟩ := mem_map.mp hmem
    have hnone := (hremove.registered _ e.origPattern e.handler).mpr ⟨e, he, hek, rfl, rfl⟩
    simp at hnone
  · rcases mem_cons.mp (hperm.mem_iff.mp he) with rfl | he
    · exact ⟨pattern, rfl⟩
    · exact hremove.made e he
  · simp only [hperm.mem_iff, mem_cons, exists_eq_or_imp, hkey]
    by_cases hk : (fm.folded (fm.fqdn pattern), priority) = k
    · have hnone := hremove.registered k p handler'
      rw [← hnone]
      simp [hk, newEntry]
    · have hold := hremove.registered k p handler'
      rw [if_neg hk] at hold ⊢
      simp [hk, hold]

theorem call {c : Call H} (hc : c.Consistent fm) :
    Lists fm matchSubdomains (fun k => if (c.entry fm).1 = k then (c.entry fm).2 else r k)
      (call fm matchSubdomains hs c) := by
  cases c with
  | addHandler pattern handler priority => exact h.add hc handler priority
  | removeHandler pattern priority => exact h.remove (fm.fqdn pattern) priority

theorem calls {cs : List (Call H)} (hcs : ∀ c ∈ cs, c.Consistent fm) : Lists fm matchSubdomains
      (fun k => cs.foldl (fun v c => if (c.entry fm).1 = k then (c.entry fm).2 else v) (r k))
      (cs.foldl (Dns.call fm matchSubdomains) hs) := by
  induction cs generalizing r hs with
  | nil => exact h
  | cons c cs ih =>
    obtain ⟨hc, hcs⟩ := forall_mem_cons.mp hcs
    exact ih (h.call hc) hcs

omit h

/-- **After any calls the chain has the entries that are registered**, once each. -/
theorem run {calls : List (Call H)} (hcalls : ∀ c ∈ calls, c.Consistent fm) :
    Lists fm matchSubdomains (Dns.registered fm calls) (chain fm matchSubdomains calls) :=
  nil.calls hcalls

end Lists

/-! ### The entries a query is offered to -/

variable {qname : Name}

theorem dispatch_subset {continues : HandlerEntry H → Bool} {limit : Option ℤ} {e : HandlerEntry H}
    (h : e ∈ dispatch fm continues limit qname hs) : e ∈ hs ∧ isHandlerMatch fm qname e := by
  induction hs with
  | nil => cases h
  | cons e' hs ih =>
    unfold dispatch at h
    split_ifs at h with hlimit hmatch hcont
    · exact ⟨mem_cons_of_mem _ (ih h).1, (ih h).2⟩
    · rcases mem_cons.mp h with rfl | h
      · exact ⟨mem_cons_self, hmatch⟩
      · exact ⟨mem_cons_of_mem _ (ih h).1, (ih h).2⟩
    · obtain rfl := mem_singleton.mp h
      exact ⟨mem_cons_self, hmatch⟩
    · exact ⟨mem_cons_of_mem _ (ih h).1, (ih h).2⟩

/-- If every handler asks to continue, all that match see the query. -/
theorem mem_dispatch_of_match {e : HandlerEntry H} (he : e ∈ hs) (hm : isHandlerMatch fm qname e) :
    e ∈ dispatch fm (fun _ => true) none qname hs := by
  induction hs with
  | nil => cases he
  | cons e' hs ih =>
    unfold dispatch
    rcases mem_cons.mp he with rfl | he
    · simp [hm]
    · have := ih he
      by_cases hm' : isHandlerMatch fm qname e' <;> simp [hm', this]

/-- The chain may offer the query to the handler, under the pattern and priority: it does for
some answers of the handlers before it. -/
def MayOffer (fm : NameMap) (hs : List (HandlerEntry H)) (name pattern : Name) (priority : ℤ)
    (handler : H) : Prop :=
  ∃ continues, ∃ e ∈ dispatch fm continues none (fm.lowered name) hs,
    e.origPattern = pattern ∧ e.priority = priority ∧ e.handler = handler

theorem mayOffer_iff {name pattern : Name} {priority : ℤ} {handler : H} :
    MayOffer fm hs name pattern priority handler ↔
      ∃ e ∈ hs, isHandlerMatch fm (fm.lowered name) e ∧ e.origPattern = pattern ∧
        e.priority = priority ∧ e.handler = handler := by
  constructor
  · rintro ⟨continues, e, he, h⟩
    obtain ⟨he, hm⟩ := dispatch_subset he
    exact ⟨e, he, hm, h⟩
  · rintro ⟨e, he, hm, h⟩
    exact ⟨fun _ => true, e, mem_dispatch_of_match he hm, h⟩

/-! ### Patterns and names -/

theorem hasSuffix_iff {n suffix : Name} : hasSuffix n suffix ↔ suffix <:+ n := by
  rw [hasSuffix, isSuffixOf_iff_suffix]

theorem trimSuffix_append (u d : Name) : trimSuffix (u ++ d) d = u := by
  rw [trimSuffix, if_pos (hasSuffix_iff.mpr (suffix_append u d)), length_append,
    Nat.add_sub_cancel, take_left]

/-- How a wildcard matches: the name ends in the rest of the pattern, and has a dot somewhere
before it. -/
def Reaches (d qname : Name) : Prop :=
  d = ['.'] ∨ ∃ u, qname = u ++ d ∧ '.' ∈ u

theorem reaches_of_suffix {d : Name} (h : '.' :: d <:+ qname) : Reaches d qname := by
  obtain ⟨u, rfl⟩ := h
  exact .inr ⟨u ++ ['.'], by simp, by simp⟩

/-- What the match of an entry says about its pattern. -/
theorem isHandlerMatch_newEntry {pattern : Name} {handler : H} {priority : ℤ} :
    isHandlerMatch fm qname (newEntry fm matchSubdomains pattern handler priority) ↔
      fm.lowered (fm.fqdn pattern) = ['.'] ∨
      (∃ d, fm.lowered (fm.fqdn pattern) = '*' :: '.' :: d ∧ Reaches d qname) ∨
      ¬ ['*', '.'] <+: fm.lowered (fm.fqdn pattern) ∧
        (fm.folded qname = fm.folded (fm.lowered (fm.fqdn pattern)) ∨
          matchSubdomains handler ∧ '.' :: fm.lowered (fm.fqdn pattern) <:+ qname) := by
  unfold isHandlerMatch newEntry
  generalize fm.lowered (fm.fqdn pattern) = p
  by_cases hw : ['*', '.'] <+: p
  · obtain ⟨d, rfl⟩ := hw
    have hsplit : (2 ≤ ((trimSuffix qname d).splitOn '.').length ∧ hasSuffix qname d) ↔
        ∃ u, qname = u ++ d ∧ '.' ∈ u := by
      rw [Text.two_le_length_splitOn, hasSuffix_iff]
      constructor
      · rintro ⟨hdot, u, rfl⟩
        rw [trimSuffix_append] at hdot
        exact ⟨u, rfl, hdot⟩
      · rintro ⟨u, rfl, hdot⟩
        rw [trimSuffix_append]
        exact ⟨hdot, suffix_append u d⟩
    simp
    exact or_congr_right hsplit
  · have hw' : ['*', '.'].isPrefixOf p = false :=
      Bool.eq_false_iff.mpr fun h => hw (List.isPrefixOf_iff_prefix.mp h)
    have hnot : ¬ ∃ d, p = '*' :: '.' :: d ∧ Reaches d qname := by
      rintro ⟨d, rfl, -⟩
      exact hw ⟨d, rfl⟩
    by_cases hp : p = ['.']
    · simp [hp]
    · cases hs : matchSubdomains handler <;> simp [hp, hw, hw', hnot, hasSuffix_iff]

variable (fm matchSubdomains) in
/-- The entries a query may be offered to are the registered ones that match. -/
theorem mayOffer_chain_iff {calls : List (Call H)} (hcalls : ∀ c ∈ calls, c.Consistent fm)
    (name pattern : Name) (priority : ℤ) (handler : H) :
    MayOffer fm (chain fm matchSubdomains calls) name pattern priority handler ↔
      registered fm calls (fm.folded pattern, priority) = some (pattern, handler) ∧
        (pattern = ['.'] ∨ (∃ d, pattern = '*' :: '.' :: d ∧ Reaches d (fm.lowered name)) ∨
          ¬ ['*', '.'] <+: pattern ∧ (fm.folded (fm.lowered name) = fm.folded pattern ∨
            matchSubdomains handler ∧ '.' :: pattern <:+ fm.lowered name)) := by
  have hlists : Lists fm matchSubdomains _ _ := Lists.run hcalls
  rw [mayOffer_iff, hlists.registered]
  constructor
  · rintro ⟨e, he, hm, rfl, rfl, rfl⟩
    obtain ⟨p, hp⟩ := hlists.made e he
    rw [hp, isHandlerMatch_newEntry] at hm
    have horig : e.origPattern = fm.lowered (fm.fqdn p) := congrArg (·.origPattern) hp
    rw [← horig] at hm
    exact ⟨⟨e, he, rfl, rfl, rfl⟩, hm⟩
  · rintro ⟨⟨e, he, hek, rfl, rfl⟩, hm⟩
    obtain ⟨p, hp⟩ := hlists.made e he
    have horig : e.origPattern = fm.lowered (fm.fqdn p) := congrArg (·.origPattern) hp
    refine ⟨e, he, ?_, rfl, congrArg Prod.snd hek, rfl⟩
    rw [hp, isHandlerMatch_newEntry, ← horig]
    exact hm

section Boundary

variable (fm : NameMap) (matchSubdomains : H → Bool) (calls : List (Call H)) (name : Name)

/-- The chain may offer the query to the registered entries whose pattern covers its name, and to
no others. -/
def OffersCovering : Prop :=
  ∀ pattern priority handler,
    MayOffer fm (chain fm matchSubdomains calls) name pattern priority handler ↔
      registered fm calls (fm.folded pattern, priority) = some (pattern, handler) ∧
        Covers fm pattern (matchSubdomains handler) (fm.lowered name)

/-- No registered wildcard reaches the name inside a label. -/
def WildcardsKeepLabels : Prop :=
  ∀ d priority (handler : H),
    registered fm calls (fm.folded ('*' :: '.' :: d), priority) = some ('*' :: '.' :: d, handler) →
      Reaches d (fm.lowered name) → '.' :: d <:+ fm.lowered name

/-- **The entries a query may be offered to are those whose pattern covers its name**, if and only
if no registered wildcard reaches the name inside a label, after calls whose patterns agree with
their lower case. -/
theorem boundary_iff (hcalls : ∀ c ∈ calls, c.Consistent fm) :
    OffersCovering fm matchSubdomains calls name ↔ WildcardsKeepLabels fm calls name := by
  simp only [OffersCovering, WildcardsKeepLabels, mayOffer_chain_iff fm matchSubdomains hcalls]
  constructor
  · intro h d priority handler hreg hreach
    have hcovers := ((h _ priority handler).mp ⟨hreg, .inr (.inl ⟨d, rfl, hreach⟩)⟩).2
    rcases hcovers with hroot | ⟨d', hd', hsuffix⟩ | ⟨hplain, -⟩
    · simp at hroot
    · simp only [cons.injEq, true_and] at hd'
      exact hd' ▸ hsuffix
    · exact absurd ⟨d, rfl⟩ hplain
  · intro h pattern priority handler
    refine and_congr_right fun hreg => or_congr_right (or_congr_left ?_)
    refine exists_congr fun d => and_congr_right fun hd => ⟨?_, reaches_of_suffix⟩
    subst hd
    exact h d priority handler hreg

end Boundary

/-- A handler for `*.example.com`. -/
def exampleCalls : List (Call Unit) :=
  [.addHandler "*.example.com".toList () 100]

theorem exampleCalls_consistent : ∀ c ∈ exampleCalls, c.Consistent .ascii :=
  forall_mem_singleton.mpr (by decide : FoldMap.ascii.Consistent "*.example.com".toList)

theorem example_boundary_iff : (∀ c ∈ exampleCalls, c.Consistent .ascii) ∧
      (OffersCovering .ascii (fun _ => false) exampleCalls "foo.example.com.".toList ↔
        WildcardsKeepLabels .ascii exampleCalls "foo.example.com.".toList) :=
  ⟨exampleCalls_consistent, boundary_iff .ascii _ _ _ exampleCalls_consistent⟩

/-- The handler is offered `foo.badexample.com.`, which does not end in `.example.com.`. -/
theorem wildcard_crosses_label :
    ¬ OffersCovering .ascii (fun _ => false) exampleCalls "foo.badexample.com.".toList := by
  intro h
  have hoffer : MayOffer .ascii (chain .ascii (fun _ => false) exampleCalls)
      "foo.badexample.com.".toList "*.example.com.".toList 100 () :=
    mayOffer_iff.mpr (by decide)
  rcases ((h _ _ _).mp hoffer).2 with hroot | ⟨d, hd, hsuffix⟩ | ⟨hplain, -⟩
  · exact absurd hroot (by decide)
  · obtain rfl : "example.com.".toList = d := by simpa using hd
    exact absurd hsuffix (by decide)
  · exact absurd hplain (by decide)

end Entries

end Netbird.Dns
