/-
The stored status of a peer over the interleavings of its Sync streams.

A connect is dropped if the peer was seen since the stream started, and a disconnect if it was
seen since the stream that ends started; both write the time they compare with.  A
disconnect writes the present, so it drops the connect of a stream that started before it and
still waits for the lock.

* `Tracked` — the status belongs to the last stream whose connect was not dropped:
  `Tracked.step`, `Tracked.run`;
* `follows_iff` — when the status follows the stream that connected last.
-/
import Netbird.Sync.Streams

namespace Netbird.Sync

open Server List

variable {s : Server} {i j : ℕ} {p q : Phase} {t : Time}

/-! ### Streams and their start times -/

theorem lt_later (c : ℤ) (n : ℕ) : c < c + 1 + n := by omega

theorem startIn_eq_some : s.startIn p i = some t ↔ s.streams[i]? = some ⟨t, p⟩ := by
  unfold startIn
  rw [Option.bind_eq_some_iff]
  constructor
  · rintro ⟨x, hx, h⟩
    split_ifs at h with hp
    rw [hx, ← Option.some.inj h, ← hp]
  · intro h
    exact ⟨_, h, if_pos rfl⟩

theorem getElem?_setPhase : (s.setPhase i p).streams[j]? =
    if i = j then (s.streams[j]?).map ({ · with phase := p }) else s.streams[j]? := by
  simp only [setPhase, getElem?_modify]
  split_ifs with h
  · cases s.streams[j]? <;> rfl
  · simp

theorem streams_setPhase_setPhase :
    ((s.setPhase i p).setPhase i q).streams = (s.setPhase i q).streams := by
  refine ext_getElem? fun j => ?_
  rw [getElem?_setPhase, getElem?_setPhase, getElem?_setPhase]
  split_ifs
  · cases s.streams[j]? <;> rfl
  · rfl

theorem startIn_setPhase_ne (h : i ≠ j) : (s.setPhase i p).startIn q j = s.startIn q j := by
  unfold startIn
  rw [getElem?_setPhase, if_neg h]

theorem startIn_setPhase_self (hi : s.startIn p i = some t) (q : Phase) :
    (s.setPhase i q).startIn q i = some t := by
  rw [startIn_eq_some] at hi ⊢
  rw [getElem?_setPhase, if_pos rfl, hi]
  rfl

/-- What is known of a stream in one phase after a stream has got to another one. -/
theorem startIn_of_setPhase {u : Time} (hp : p ≠ q) (hj : (s.setPhase i q).startIn p j = some u) :
    j ≠ i ∧ s.startIn p j = some u := by
  by_cases hji : j = i
  · subst hji
    unfold startIn at hj
    rw [getElem?_setPhase] at hj
    cases hx : s.streams[j]? <;> simp [hx, hp.symm] at hj
  · exact ⟨hji, startIn_setPhase_ne (Ne.symm hji) ▸ hj⟩

/-- The streams stand in the order of their start times, all in the past. -/
structure Ordered (s : Server) : Prop where
  sorted : (s.streams.map (·.start)).Pairwise (· < ·)
  past : ∀ x ∈ s.streams, x.start ≤ s.clock

theorem Ordered.eq_of_start (h : Ordered s) {x y : Stream} (hx : s.streams[i]? = some x)
    (hy : s.streams[j]? = some y) (hxy : x.start = y.start) : i = j := by
  have hnodup : (s.streams.map (·.start)).Nodup := h.sorted.imp fun h => h.ne
  obtain ⟨hi, hxi⟩ := List.getElem?_eq_some_iff.mp hx
  obtain ⟨hj, hyj⟩ := List.getElem?_eq_some_iff.mp hy
  have hi' : i < (s.streams.map (·.start)).length := by simpa using hi
  have hj' : j < (s.streams.map (·.start)).length := by simpa using hj
  have heq : (s.streams.map (·.start))[i] = (s.streams.map (·.start))[j] := by
    simp [hxi, hyj, hxy]
  exact hnodup.getElem_inj_iff.mp heq

variable {s' : Server}

theorem forall_start (hstarts : s'.streams.map (·.start) = s.streams.map (·.start))
    {P : Time → Prop} (h : ∀ x ∈ s.streams, P x.start) : ∀ x ∈ s'.streams, P x.start := by
  rw [← forall_mem_map] at h ⊢
  exact hstarts ▸ h

theorem Ordered.of_starts (h : Ordered s)
    (hstarts : s'.streams.map (·.start) = s.streams.map (·.start)) (hclock : s.clock ≤ s'.clock) :
    Ordered s' where
  sorted := hstarts ▸ h.sorted
  past := forall_start (P := (· ≤ s'.clock)) hstarts fun x hx => (h.past x hx).trans hclock

theorem starts_setPhase : (s.setPhase i p).streams.map (·.start) = s.streams.map (·.start) := by
  refine ext_getElem? fun j => ?_
  rw [getElem?_map, getElem?_map, getElem?_setPhase]
  split_ifs
  · cases s.streams[j]? <;> rfl
  · rfl

theorem startIn_clock (clock : Time) (p : Phase) (i : ℕ) :
    Server.startIn { s with clock } p i = s.startIn p i := rfl

/-! ### Whose status it is -/

/-- The status belongs to the last stream whose connect was not dropped. -/
structure Tracked (s : Server) : Prop where
  ordered : Ordered s
  seen : s.status.lastSeen ≤ s.clock
  known : ∀ i, s.recorded = some i → i < s.streams.length
  /-- No stream that waits started when the peer was last seen, … -/
  waiting : ∀ i t, s.startIn .waiting i = some t → t ≠ s.status.lastSeen ∧ s.recorded ≠ some i
  /-- … and of the open ones only the recorded one may have. -/
  live : ∀ i t, s.startIn .live i = some t →
    t ≤ s.status.lastSeen ∧ (t = s.status.lastSeen ↔ s.recorded = some i)
  connected : s.status.connected = true ↔ ∃ i, s.recorded = some i ∧ s.isLive i

namespace Tracked

theorem init (lastSeen : Time) (isEphemeral isQueued loginExpired requiresApproval : Bool) :
    Tracked (.init lastSeen isEphemeral isQueued loginExpired requiresApproval) where
  ordered := ⟨List.Pairwise.nil, fun _ h => nomatch h⟩
  seen := le_rfl
  known _ h := nomatch h
  waiting _ _ h := nomatch h
  live _ _ h := nomatch h
  connected := ⟨fun h => (nomatch h), fun ⟨_, h, _⟩ => (nomatch h)⟩

variable (h : Tracked s)

include h

theorem later (n : ℕ) : Tracked { s with clock := s.clock + 1 + n } where
  ordered := h.ordered.of_starts rfl (lt_later s.clock n).le
  seen := h.seen.trans (lt_later s.clock n).le
  known := h.known
  waiting := h.waiting
  live := h.live
  connected := h.connected

theorem start (n : ℕ) : Tracked (step s ⟨n, .start⟩) := by
  have hlt := lt_later s.clock n
  have hstreams : (step s ⟨n, .start⟩).streams = s.streams ++ [⟨s.clock + 1 + n, .waiting⟩] := rfl
  have hnew : ∀ {p : Phase} {i : ℕ} {t : Time}, (step s ⟨n, .start⟩).startIn p i = some t ↔
      s.startIn p i = some t ∨ p = .waiting ∧ i = s.streams.length ∧ t = s.clock + 1 + n := by
    intro p i t
    rw [startIn_eq_some, startIn_eq_some, hstreams]
    rcases lt_or_ge i s.streams.length with hlen | hlen
    · rw [getElem?_append_left hlen]
      exact ⟨.inl, fun h => h.resolve_right fun h' => by omega⟩
    · rw [getElem?_append_right hlen, getElem?_eq_none hlen]
      by_cases hi : i = s.streams.length
      · simp [hi, eq_comm]
        tauto
      · simp [hi, Nat.sub_ne_zero_of_lt (lt_of_le_of_ne hlen (Ne.symm hi))]
  have hlive : ∀ i, (step s ⟨n, .start⟩).isLive i = s.isLive i := by
    intro i
    rw [Bool.eq_iff_iff, isLive, isLive, Option.isSome_iff_exists,
      Option.isSome_iff_exists]
    exact exists_congr fun t => hnew.trans (or_iff_left fun h => by cases h.1)
  refine
    { ordered := ⟨?_, ?_⟩
      seen := h.seen.trans hlt.le
      known := fun i hi => ?_
      waiting := fun i t hi => ?_
      live := fun i t hi => h.live i t ((hnew.mp hi).resolve_right fun h => by cases h.1)
      connected := h.connected.trans (exists_congr fun i => by rw [hlive]; rfl) }
  · rw [hstreams, map_append, pairwise_append]
    refine ⟨h.ordered.sorted, pairwise_singleton _ _, fun a ha b hb => ?_⟩
    obtain ⟨x, hx, rfl⟩ := mem_map.mp ha
    obtain rfl := mem_singleton.mp hb
    exact (h.ordered.past x hx).trans_lt hlt
  · rw [hstreams]
    exact forall_mem_append.mpr
      ⟨fun x hx => (h.ordered.past x hx).trans hlt.le, forall_mem_singleton.mpr le_rfl⟩
  · rw [hstreams, length_append]
    exact (h.known i hi).trans (Nat.lt_succ_self _)
  · rcases hnew.mp hi with hi | ⟨-, rfl, rfl⟩
    · exact h.waiting i t hi
    · exact ⟨(h.seen.trans_lt hlt).ne', fun hr => absurd (h.known _ hr) (lt_irrefl _)⟩

theorem of_eq (hstreams : s'.streams = s.streams)
    (hstatus : s'.status = s.status) (hclock : s'.clock = s.clock)
    (hrecorded : s'.recorded = s.recorded) : Tracked s' := by
  have hstart : s'.startIn = s.startIn := by
    funext p i
    rw [startIn, startIn, hstreams]
  exact
    { ordered := h.ordered.of_starts (by rw [hstreams]) hclock.ge
      seen := by rw [hstatus, hclock]; exact h.seen
      known := by rw [hrecorded, hstreams]; exact h.known
      waiting := by rw [hstart, hstatus, hrecorded]; exact h.waiting
      live := by rw [hstart, hstatus, hrecorded]; exact h.live
      connected := by simpa only [isLive, hstart, hstatus, hrecorded] using h.connected }

/-- A stream that is not the recorded one gets to a phase in which it does not wait. -/
theorem advance (hp : p ≠ .waiting) (hrec : s.recorded ≠ some i)
    (hlive : ∀ t, (s.setPhase i p).startIn .live i = some t → t < s.status.lastSeen) :
    Tracked (s.setPhase i p) where
  ordered := h.ordered.of_starts starts_setPhase le_rfl
  seen := h.seen
  known k hk := (h.known k hk).trans_eq (length_modify ..).symm
  waiting j u hj := h.waiting j u (startIn_of_setPhase hp.symm hj).2
  live j u hj := by
    by_cases hji : j = i
    · subst hji
      exact ⟨(hlive u hj).le, iff_of_false (hlive u hj).ne hrec⟩
    · exact h.live j u (startIn_setPhase_ne (Ne.symm hji) ▸ hj)
  connected := by
    refine h.connected.trans (exists_congr fun k => and_congr_right fun hk => ?_)
    have hki : i ≠ k := fun heq => hrec (heq ▸ hk)
    rw [isLive, isLive, startIn_setPhase_ne hki]

theorem finish (hrec : s.recorded ≠ some i) : Tracked (s.setPhase i .ended) :=
  h.advance (by decide) hrec fun _ ht => absurd rfl (startIn_of_setPhase (by decide) ht).1

theorem record (hi : s.startIn .waiting i = some t) (hlt : s.status.lastSeen < t) :
    Tracked ({ s with status := s.status.mark true t, recorded := some i }.setPhase i .live) where
  ordered := h.ordered.of_starts starts_setPhase le_rfl
  seen := h.ordered.past _ (mem_of_getElem? (startIn_eq_some.mp hi))
  known := by
    rintro _ ⟨⟩
    exact (List.getElem?_eq_some_iff.mp (startIn_eq_some.mp hi)).1.trans_eq (length_modify ..).symm
  waiting j u hj := by
    obtain ⟨hji, hj⟩ := startIn_of_setPhase (by decide) hj
    refine ⟨fun heq => hji ?_, fun heq => hji (Option.some.inj heq).symm⟩
    exact h.ordered.eq_of_start (startIn_eq_some.mp hj) (startIn_eq_some.mp hi) heq
  live j u hj := by
    by_cases hji : j = i
    · subst hji
      cases (startIn_setPhase_self hi .live).symm.trans hj
      exact ⟨le_rfl, iff_of_true rfl rfl⟩
    · rw [startIn_setPhase_ne (Ne.symm hji)] at hj
      have hu : u < t := (h.live j u hj).1.trans_lt hlt
      exact ⟨hu.le, iff_of_false hu.ne fun heq => hji (Option.some.inj heq).symm⟩
  connected := iff_of_true rfl
    ⟨i, rfl, Option.isSome_iff_exists.mpr ⟨t, startIn_setPhase_self hi .live⟩⟩

/-- A stream that waited is open, and its connect was dropped or recorded. -/
theorem connect (hi : s.startIn .waiting i = some t) : Tracked (s.connect i t .connects) := by
  obtain ⟨hne, hrec⟩ := h.waiting i t hi
  have hstatus : (s.connect i t .connects).status =
      if t ≤ s.status.lastSeen then s.status else s.status.mark true t := by
    simp [Server.connect, setPhase, onPeerConnected, markConnected, PeerStatus.markPeerConnected]
  by_cases hlt : s.status.lastSeen < t
  · exact (h.record hi hlt).of_eq rfl (hstatus.trans (if_neg hlt.not_ge)) rfl (if_pos hlt)
  · have hdropped : Tracked (s.setPhase i .live) := h.advance (by decide) hrec fun u hu => by
      cases (startIn_setPhase_self hi .live).symm.trans hu
      exact lt_of_le_of_ne (not_lt.mp hlt) hne
    exact hdropped.of_eq rfl (hstatus.trans (if_pos (not_lt.mp hlt))) rfl (if_neg hlt)

omit h

theorem cancel_streams : (s.cancelPeerRoutinesWithoutLock i t).streams = (s.setPhase i .ended).streams ∧
    (s.cancelPeerRoutinesWithoutLock i t).clock = s.clock ∧
    (s.cancelPeerRoutinesWithoutLock i t).recorded = s.recorded ∧
    (s.cancelPeerRoutinesWithoutLock i t).status = s.status.onPeerDisconnected t s.clock := by
  unfold cancelPeerRoutinesWithoutLock closeChannel queuePeer setPhase
    markDisconnected
  cases s.channel <;> cases s.isEphemeral <;> exact ⟨rfl, rfl, rfl, rfl⟩

include h

variable (hpast : ∀ x ∈ s.streams, x.start < s.clock)

include hpast

theorem disconnect (hrec : s.recorded = some i) :
    Tracked ({ s with status := s.status.mark false s.clock }.setPhase i .ended) where
  ordered := h.ordered.of_starts starts_setPhase le_rfl
  seen := le_rfl
  known k hk := (h.known k hk).trans_eq (length_modify ..).symm
  waiting j u hj := by
    obtain ⟨-, hj⟩ := startIn_of_setPhase (by decide) hj
    exact ⟨(hpast _ (mem_of_getElem? (startIn_eq_some.mp hj))).ne, (h.waiting j u hj).2⟩
  live j u hj := by
    obtain ⟨hji, hj⟩ := startIn_of_setPhase (by decide) hj
    have hu := hpast _ (mem_of_getElem? (startIn_eq_some.mp hj))
    refine ⟨hu.le, iff_of_false hu.ne fun hk => hji ?_⟩
    exact Option.some.inj (hk.symm.trans hrec)
  connected := by
    refine iff_of_false Bool.false_ne_true ?_
    rintro ⟨k, hk, hlive⟩
    obtain rfl : k = i := Option.some.inj (hk.symm.trans hrec)
    obtain ⟨u, hu⟩ := Option.isSome_iff_exists.mp hlive
    exact (startIn_of_setPhase (by decide) hu).1 rfl

/-- An open stream ends: it was the recorded one, or its disconnect is dropped. -/
theorem teardown (hi : s.startIn .live i = some t) : Tracked (s.teardown i t) := by
  obtain ⟨hle, heq⟩ := h.live i t hi
  obtain ⟨hstreams, hclock, hrecorded, hstatus⟩ := cancel_streams (s := s) (i := i) (t := t)
  by_cases hlt : t < s.status.lastSeen
  · have hrec : s.recorded ≠ some i := fun hr => hlt.ne (heq.mpr hr)
    refine (h.finish hrec).of_eq hstreams (hstatus.trans ?_) hclock hrecorded
    exact if_pos hlt
  · have hrec : s.recorded = some i := heq.mp (le_antisymm hle (not_lt.mp hlt))
    refine (h.disconnect hpast hrec).of_eq hstreams (hstatus.trans ?_) hclock hrecorded
    exact if_neg hlt

/-- A stream whose initial sync cannot be sent connects and ends in one section. -/
theorem sendFails (hi : s.startIn .waiting i = some t) : Tracked (s.connect i t .sendFails) := by
  have hpast' : ∀ x ∈ (s.connect i t .connects).streams, x.start < s.clock :=
    forall_start (P := (· < s.clock)) starts_setPhase hpast
  have hend := (h.connect hi).teardown hpast' (startIn_setPhase_self hi .live)
  obtain ⟨hstreams, hclock, hrecorded, hstatus⟩ :=
    cancel_streams (s := s.connect i t .connects) (i := i) (t := t)
  obtain ⟨hstreams', hclock', hrecorded', hstatus'⟩ :=
    cancel_streams (s := s.markConnected i t) (i := i) (t := t)
  refine hend.of_eq (hstreams'.trans (Eq.trans ?_ hstreams.symm)) (hstatus'.trans hstatus.symm)
    (hclock'.trans hclock.symm) (hrecorded'.trans hrecorded.symm)
  exact (streams_setPhase_setPhase (s := s) (p := .live)).symm

omit hpast

/-- **The status stays with the last stream whose connect was not dropped.** -/
theorem step (k : Tick) : Tracked (Sync.step s k) := by
  obtain ⟨n, a⟩ := k
  have hlater := h.later n
  have hpast : ∀ x ∈ s.streams, x.start < s.clock + 1 + n :=
    fun x hx => (h.ordered.past x hx).trans_lt (lt_later s.clock n)
  cases a with
  | start => exact h.start n
  | connect i o =>
    rw [Sync.step]
    rcases hi : s.startIn .waiting i with _ | t
    · simpa only [startIn_clock, hi] using hlater
    · simp only [startIn_clock, hi]
      cases o with
      | refused => exact hlater.finish (h.waiting i t hi).2
      | sendFails => exact hlater.sendFails hpast hi
      | connects => exact hlater.connect hi
  | teardown i =>
    rw [Sync.step]
    rcases hi : s.startIn .live i with _ | t
    · simpa only [startIn_clock, hi] using hlater
    · simp only [startIn_clock, hi]
      exact hlater.teardown hpast hi

theorem run (ticks : List Tick) : Tracked (ticks.foldl Sync.step s) :=
  foldlRecOn ticks Sync.step h fun _ hs k _ => hs.step k

end Tracked

/-! ### The newest stream -/

/-- No stream waits for the lock. -/
def Quiescent (s : Server) : Prop := ∀ i, s.startIn .waiting i = none

/-- The peer is stored as connected exactly if the stream that connected last is open. -/
def Follows (s : Server) : Prop :=
  s.status.connected = true ↔ ∃ i, s.lastConnect = some i ∧ s.isLive i

/-- The stream that connected last and the last one that was not dropped are both open or both
not. -/
def Abreast (s : Server) : Prop :=
  (∃ i, s.recorded = some i ∧ s.isLive i) ↔ ∃ i, s.lastConnect = some i ∧ s.isLive i

/-- **The stored status follows the newest stream** whenever no stream waits, if and only if
at all these moments no dropped connect has come between. -/
theorem follows_iff (lastSeen : Time) (isEphemeral isQueued loginExpired requiresApproval : Bool)
    (ticks : List Tick) : (∀ n, Quiescent ((ticks.take n).foldl step
          (.init lastSeen isEphemeral isQueued loginExpired requiresApproval)) →
        Follows ((ticks.take n).foldl step
          (.init lastSeen isEphemeral isQueued loginExpired requiresApproval))) ↔
      ∀ n, Quiescent ((ticks.take n).foldl step
          (.init lastSeen isEphemeral isQueued loginExpired requiresApproval)) →
        Abreast ((ticks.take n).foldl step
          (.init lastSeen isEphemeral isQueued loginExpired requiresApproval)) := by
  refine forall_congr' fun n => imp_congr_right fun _ => ?_
  have h := (Tracked.init lastSeen isEphemeral isQueued loginExpired requiresApproval).run
    (ticks.take n)
  unfold Follows Abreast
  rw [h.connected]

/-- The second stream starts before the first one ends and gets the lock after it. -/
def overtaken : List Tick :=
  [⟨0, .start⟩, ⟨0, .connect 0 .connects⟩, ⟨0, .start⟩, ⟨0, .teardown 0⟩,
    ⟨0, .connect 1 .connects⟩]

/-- Its connect is dropped: it is open, and the peer stored as disconnected. -/
theorem overtaken_stays_disconnected :
    ¬ ∀ n, Quiescent ((overtaken.take n).foldl step (.init 0 false false false false)) →
      Follows ((overtaken.take n).foldl step (.init 0 false false false false)) := by
  intro h
  have hq : Quiescent ((overtaken.take 5).foldl step (.init 0 false false false false)) := by
    intro i
    rcases i with _ | _ | i
    · decide
    · decide
    · rfl
  have hf := (h 5 hq).mpr ⟨1, by decide, by decide⟩
  exact absurd hf (by decide)

end Netbird.Sync
