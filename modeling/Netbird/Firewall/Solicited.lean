/-
What connection tracking admits.

A packet that a tracker takes for an answer belongs to an entry that an earlier packet in the
inverse direction has opened, for UDP and ICMP one that was seen within the timeout, for TCP one
that was not reset and did not reach the state Closed since.

A reset is processed on the entry that takes its packet.  With entries in both directions an
outbound packet is taken by the entry of the inverse tuple; a reset then ends that one, and the
entry of its own tuple stays open.

* `isValidInbound_solicited` — the three trackers.
-/
import Netbird.Firewall.ConntrackTcp

namespace Netbird.Conntrack

open Option

open Runs (Along)

/-! ### UDP and ICMP -/

namespace Tracker

variable {κ X P : Type} [DecidableEq κ] [FlowInfo X] (D : Datagram P κ X)

def after (timeout : ℤ) (cs : List (ℤ × Call P)) : Tracker κ X :=
  cs.foldl (step D) (new timeout)

/-- A packet on the inverse tuple has opened an entry, which is in the table since then and saw a
packet within the timeout. -/
def Answers (timeout : ℤ) (cs : List (ℤ × Call P)) (now : ℤ) (p : P) : Prop :=
  ∃ cs₁ c cs₂ q, cs = cs₁ ++ c :: cs₂ ∧ c.2.tracks = some q ∧
    D.key q = D.reverse (D.key p) ∧ D.opens q = true ∧
    (after D timeout cs₁).connections.lookup (D.reverse (D.key p)) = none ∧
    Along (step D) (fun t _ => D.reverse (D.key p) ∈ t.connections)
      (step D (after D timeout cs₁) c) cs₂ ∧
    ∃ cs₃ c' cs₄, c :: cs₂ = cs₃ ++ c' :: cs₄ ∧
      (after D timeout (cs₁ ++ cs₃)).target D c' = some (D.reverse (D.key p)) ∧
      now - c'.1 ≤ timeout

variable {D}

@[simp] theorem timeout_after (timeout : ℤ) (cs : List (ℤ × Call P)) :
    (after D timeout cs).timeout = timeout := by
  induction cs using List.reverseRecOn with
  | nil => rfl
  | append_singleton cs c ih => simpa [after] using ih

variable {t : Tracker κ X}

theorem lookup_step_eq_some {c : ℤ × Call P} {k : κ} {conn : Conn X}
    (h : (t.step D c).connections.lookup k = some conn) :
    (t.connections.lookup k = none ∧ ∃ q, c.2.tracks = some q ∧ D.key q = k ∧ D.opens q = true) ∨
      ∃ conn', t.connections.lookup k = some conn' := by
  have hchange := change_step (D := D) t c k
  rw [h] at hchange
  generalize hafter : some conn = after at hchange
  cases hchange with
  | same _ => exact .inr ⟨conn, hafter.symm⟩
  | seen _ hconn => exact .inr ⟨_, hconn⟩
  | opened _ hnone htracks hopens hkey => exact .inl ⟨hnone, _, htracks, hkey, hopens⟩
  | expired _ _ _ => nomatch hafter

theorem lastSeen_step {c : ℤ × Call P} {k : κ} {conn : Conn X}
    (h : (t.step D c).connections.lookup k = some conn) :
    (t.target D c = some k ∧ c.1 = conn.lastSeen) ∨ t.connections.lookup k = some conn := by
  have hchange := change_step (D := D) t c k
  rw [h] at hchange
  generalize hafter : some conn = after at hchange
  cases hchange with
  | same _ => exact .inr rfl
  | seen htarget _ | opened htarget _ _ _ _ =>
    obtain rfl := some.inj hafter
    exact .inl ⟨htarget, (Conn.seen_lastSeen ..).symm⟩
  | expired _ _ _ => nomatch hafter

omit [FlowInfo X] in
theorem of_isValidInbound {now : ℤ} {p : P} {size : ℕ}
    (h : (t.isValidInbound D now p size).1 = true) :
    ∃ conn, t.connections.lookup (D.reverse (D.key p)) = some conn ∧
      now - conn.lastSeen ≤ t.timeout := by
  unfold isValidInbound at h
  by_cases hreplies : D.replies p = true
  · rcases hconn : t.connections.lookup (D.reverse (D.key p)) with _ | conn
    · simp [hconn] at h
    · refine ⟨conn, rfl, ?_⟩
      simp only [hconn] at h
      by_cases hexp : conn.timeoutExceeded now t.timeout = true
      · simp [hexp] at h
      · exact Int.not_lt.mp fun hlt => hexp (decide_eq_true hlt)
  · simp [hreplies] at h

/-- **UDP and ICMP admit only answers.** -/
theorem answers {timeout : ℤ} {cs : List (ℤ × Call P)} {now : ℤ} {p : P} {size : ℕ}
    (h : ((after D timeout cs).isValidInbound D now p size).1 = true) :
    Answers D timeout cs now p := by
  obtain ⟨conn, hconn, hseen⟩ := of_isValidInbound h
  rw [timeout_after] at hseen
  -- where the entry was opened
  obtain ⟨cs₁, c, cs₂, rfl, ⟨hnone, q, htracks, hkey, hopens⟩, halong⟩ := Runs.exists_opening
    (step D) (new timeout) cs
    (fun t : Tracker κ X => t.connections.lookup (D.reverse (D.key p))) (fun _ => True)
    (fun t c => t.connections.lookup (D.reverse (D.key p)) = none ∧
      ∃ q, c.2.tracks = some q ∧ D.key q = D.reverse (D.key p) ∧ D.opens q = true)
    (fun _ _ _ _ => True) (fun e he => nomatch he)
    (fun t c conn' h' _ => (lookup_step_eq_some h').imp_right
      fun ⟨conn₀, h₀⟩ => ⟨conn₀, h₀, trivial, trivial⟩) hconn trivial
  -- where it was seen for the last time
  obtain ⟨cs₃, c', cs₄, hsplit, ⟨htarget, htime⟩, _⟩ := Runs.exists_opening
    (step D) (after D timeout cs₁) (c :: cs₂)
    (fun t : Tracker κ X => t.connections.lookup (D.reverse (D.key p)))
    (fun e => e.lastSeen = conn.lastSeen)
    (fun t c => t.target D c = some (D.reverse (D.key p)) ∧ c.1 = conn.lastSeen)
    (fun _ _ _ _ => True) (fun e he => nomatch hnone.symm.trans he)
    (fun t c conn' h' hlast => (lastSeen_step h').imp (fun ⟨ht, hc⟩ => ⟨ht, hc.trans hlast⟩)
      fun h₀ => ⟨conn', h₀, hlast, trivial⟩)
    (by simpa [after] using hconn) rfl
  refine ⟨cs₁, c, cs₂, q, rfl, htracks, hkey, hopens, hnone, ?_, cs₃, c', cs₄, hsplit, ?_, ?_⟩
  · refine halong.imp fun t c ⟨e, _, he, _⟩ => ?_
    exact AList.lookup_isSome.mp (by rw [he]; rfl)
  · simpa [after] using htarget
  · rw [htime]
    exact hseen

end Tracker

/-! ### TCP -/

namespace TCPTracker

def after (timeout waitTimeout : ℤ) (cs : List (ℤ × Call TCPPacket)) : TCPTracker :=
  cs.foldl step (new timeout waitTimeout)

/-- The call processes a reset on the entry of a tuple. -/
def Resets (t : TCPTracker) (c : ℤ × Call TCPPacket) (k : ConnKey) : Prop :=
  t.target c.2 = some k ∧ ∃ p, c.2.packet = some p ∧ hasFlag p.flags tcpRst = true

/-- The call tracks a packet with SYN that opens a new entry for its tuple. -/
def Opens (t : TCPTracker) (c : ℤ × Call TCPPacket) (k : ConnKey) : Prop :=
  t.target c.2 = some k ∧ ∃ q, c.2.tracks = some q ∧ q.key = k ∧ hasFlag q.flags tcpSyn = true ∧
    hasFlag q.flags tcpRst = false ∧ t.live k q.flags = false

/-- The call that opened the entry which a tuple has after the calls, and the calls before and
after it. -/
def Opening (timeout waitTimeout : ℤ) (cs : List (ℤ × Call TCPPacket)) (k : ConnKey)
    (cs₁ : List (ℤ × Call TCPPacket)) (c : ℤ × Call TCPPacket) (cs₂ : List (ℤ × Call TCPPacket)) :
    Prop :=
  cs = cs₁ ++ c :: cs₂ ∧ (after timeout waitTimeout cs₁).Opens c k ∧
    Along step (fun t c => ¬ t.Opens c k) (step (after timeout waitTimeout cs₁) c) cs₂

variable {c : ℤ × Call TCPPacket} {t : TCPTracker}

theorem lookup_step_eq_some {k : ConnKey}
    {conn : TCPConnTrack} (h : (t.step c).connections.lookup k = some conn) (hopen : conn.Open) :
    t.Opens c k ∨ ∃ conn' : TCPConnTrack, t.connections.lookup k = some conn' ∧ conn'.Open ∧
      ¬ t.Resets c k ∧ ¬ t.Opens c k := by
  have hchange := change_step t c k
  rw [h] at hchange
  generalize hafter : some conn = after at hchange
  cases hchange with
  | same htarget =>
    exact .inr ⟨conn, hafter.symm, hopen, fun h => htarget h.1, fun h => htarget h.1⟩
  | updated htarget hconn hflags hlive =>
    obtain rfl := some.inj hafter
    obtain ⟨hopen', hrst⟩ := hopen.of_updated
    refine .inr ⟨_, hconn, hopen', fun ⟨_, p, hp, hreset⟩ => ?_, fun ⟨_, q, hq, _, _, _, hq'⟩ => ?_⟩
    · rw [hp] at hflags
      obtain rfl : p.flags = _ := some.inj hflags
      rw [hrst] at hreset
      nomatch hreset
    · rw [Call.tracks_eq_packet hq] at hflags
      obtain rfl : q.flags = _ := some.inj hflags
      simp [live, hconn, hlive] at hq'
  | opened htarget hlive htracks hsyn hkey =>
    obtain rfl := some.inj hafter
    exact .inl ⟨htarget, _, htracks, hkey, hsyn, hopen.of_updated.2, hlive⟩
  | removed _ _ _ => nomatch hafter

theorem not_open_of_resets {k : ConnKey} (hreset : t.Resets c k) {conn : TCPConnTrack}
    (h : (t.step c).connections.lookup k = some conn) : ¬ conn.Open := by
  intro hopen
  obtain ⟨_, q, htracks, _, _, hrst, _⟩ | ⟨_, _, _, hno, _⟩ := lookup_step_eq_some h hopen
  · obtain ⟨_, p, hp, hreset⟩ := hreset
    have hpq : p = q := by
      rw [Call.tracks_eq_packet htracks] at hp
      exact (some.inj hp).symm
    rw [hpq, hrst] at hreset
    nomatch hreset
  · exact hno hreset

variable {p : TCPPacket}

theorem of_isValidInbound {now : ℤ} {size : ℕ} (h : (t.isValidInbound now p size).1 = true) :
    ∃ conn : TCPConnTrack, t.connections.lookup p.key.reverse = some conn ∧
      conn.info.tombstone = false := by
  unfold isValidInbound at h
  rcases hconn : t.connections.lookup p.key.reverse with _ | conn
  · simp [hconn] at h
  · refine ⟨conn, rfl, ?_⟩
    simp only [hconn] at h
    cases htomb : conn.info.tombstone
    · rfl
    · simp [TCPConnTrack.isSupersededBy, htomb] at h

/-- **TCP admits only packets of a connection** that a tracked SYN has opened, and that was
neither reset nor closed since. -/
theorem answers {timeout waitTimeout : ℤ} {cs : List (ℤ × Call TCPPacket)} {now : ℤ} {size : ℕ}
    (h : ((after timeout waitTimeout cs).isValidInbound now p size).1 = true) :
    (∃ conn : TCPConnTrack,
      (after timeout waitTimeout cs).connections.lookup p.key.reverse = some conn ∧ conn.Open) ∧
    ∃ cs₁ c cs₂, Opening timeout waitTimeout cs p.key.reverse cs₁ c cs₂ ∧
      Along step (fun t c => ¬ t.Resets c p.key.reverse ∧ ∃ conn : TCPConnTrack,
          t.connections.lookup p.key.reverse = some conn ∧ conn.Open)
        (step (after timeout waitTimeout cs₁) c) cs₂ := by
  obtain ⟨conn, hconn, htomb⟩ := of_isValidInbound h
  have hopen : conn.Open := by
    refine ⟨htomb, fun hclosed => ?_⟩
    rw [gone timeout waitTimeout cs hconn hclosed] at htomb
    nomatch htomb
  refine ⟨⟨conn, hconn, hopen⟩, ?_⟩
  obtain ⟨cs₁, c, cs₂, hcs, hopens, halong⟩ := Runs.exists_opening step (new timeout waitTimeout) cs
    (fun t => t.connections.lookup p.key.reverse) TCPConnTrack.Open
    (fun t c => t.Opens c p.key.reverse)
    (fun t c _ _ => ¬ t.Resets c p.key.reverse ∧ ¬ t.Opens c p.key.reverse)
    (fun e he => nomatch he) (fun t c conn' h' => lookup_step_eq_some h') hconn hopen
  exact ⟨cs₁, c, cs₂, ⟨hcs, hopens, halong.imp fun t c ⟨_, _, _, _, _, _, _, hno⟩ => hno⟩,
    halong.imp fun t c ⟨e, _, he, _, hgood, _, hno, _⟩ => ⟨hno, e, he, hgood⟩⟩

/-- After a reset of the entry, packets are admitted only after another SYN was tracked. -/
theorem opens_after_reset {timeout waitTimeout : ℤ} {cs₁ cs₂ : List (ℤ × Call TCPPacket)}
    {now : ℤ} {size : ℕ}
    (h : ((after timeout waitTimeout (cs₁ ++ c :: cs₂)).isValidInbound now p size).1 = true)
    (hreset : (after timeout waitTimeout cs₁).Resets c p.key.reverse) :
    ∃ c' ∈ cs₂, ∃ q, c'.2.tracks = some q ∧ q.key = p.key.reverse ∧
      hasFlag q.flags tcpSyn = true := by
  obtain ⟨⟨conn, hconn, hopen⟩, _⟩ := answers h
  obtain ⟨cs₃, c', cs₄, hcs, ⟨_, q, htracks, hkey, hsyn, _⟩, _⟩ :=
    Runs.exists_opening step
    (step (after timeout waitTimeout cs₁) c) cs₂
    (fun t => t.connections.lookup p.key.reverse) TCPConnTrack.Open
    (fun t c => t.Opens c p.key.reverse)
    (fun t c _ _ => ¬ t.Resets c p.key.reverse ∧ ¬ t.Opens c p.key.reverse)
    (fun e he => not_open_of_resets hreset he) (fun t c conn' h' => lookup_step_eq_some h')
    (by simpa [after] using hconn) hopen
  exact ⟨c', by simp [hcs], q, htracks, hkey, hsyn⟩

end TCPTracker

/-- **What connection tracking admits**, after every sequence of calls. A valid UDP or ICMP packet
has an entry that a packet on the inverse tuple opened, and that saw a packet within the timeout. A
valid TCP packet has one that a SYN on the inverse tuple opened, and that was neither reset nor
closed since; no reset was processed on the connection since then exactly if none was processed on
the entry of the packet's own tuple, and after every reset another SYN was tracked exactly if that
is so after those. -/
theorem isValidInbound_solicited (timeout now : ℤ) (size : ℕ) :
    (∀ cs p, ((Tracker.after udp timeout cs).isValidInbound udp now p size).1 = true →
      Tracker.Answers udp timeout cs now p) ∧
    (∀ cs p, ((Tracker.after icmp timeout cs).isValidInbound icmp now p size).1 = true →
      Tracker.Answers icmp timeout cs now p) ∧ ∀ waitTimeout cs p,
      ((TCPTracker.after timeout waitTimeout cs).isValidInbound now p size).1 = true →
        (∃ conn : TCPConnTrack,
          (TCPTracker.after timeout waitTimeout cs).connections.lookup p.key.reverse = some conn ∧
            conn.Open) ∧
        (∃ cs₁ c cs₂, TCPTracker.Opening timeout waitTimeout cs p.key.reverse cs₁ c cs₂ ∧
          Along TCPTracker.step
            (fun t c => ¬ t.Resets c p.key.reverse ∧ ∃ conn : TCPConnTrack,
              t.connections.lookup p.key.reverse = some conn ∧ conn.Open)
            (TCPTracker.step (TCPTracker.after timeout waitTimeout cs₁) c) cs₂ ∧
          (Along TCPTracker.step
              (fun t c => ¬ t.Resets c p.key.reverse ∧ ¬ t.Resets c p.key)
              (TCPTracker.step (TCPTracker.after timeout waitTimeout cs₁) c) cs₂ ↔
            Along TCPTracker.step (fun t c => ¬ t.Resets c p.key)
              (TCPTracker.step (TCPTracker.after timeout waitTimeout cs₁) c) cs₂)) ∧
        ((∀ cs₁ c cs₂, cs = cs₁ ++ c :: cs₂ →
            (TCPTracker.after timeout waitTimeout cs₁).Resets c p.key.reverse ∨
              (TCPTracker.after timeout waitTimeout cs₁).Resets c p.key →
            ∃ c' ∈ cs₂, ∃ q, c'.2.tracks = some q ∧ q.key = p.key.reverse ∧
              hasFlag q.flags tcpSyn = true) ↔ ∀ cs₁ c cs₂, cs = cs₁ ++ c :: cs₂ →
            (TCPTracker.after timeout waitTimeout cs₁).Resets c p.key →
            ∃ c' ∈ cs₂, ∃ q, c'.2.tracks = some q ∧ q.key = p.key.reverse ∧
              hasFlag q.flags tcpSyn = true) := by
  refine ⟨fun _ _ h => Tracker.answers h, fun _ _ h => Tracker.answers h, ?_⟩
  intro waitTimeout cs p h
  obtain ⟨hentry, cs₁, c, cs₂, hopening, halong⟩ := TCPTracker.answers h
  refine ⟨hentry, ⟨cs₁, c, cs₂, hopening, halong, ?_⟩, ?_⟩
  · have hno := halong.imp fun _ _ h => h.1
    exact ⟨fun h => h.imp fun _ _ h => h.2, fun h => hno.and h⟩
  · refine ⟨fun h d₁ d d₂ hd hreset => h d₁ d d₂ hd (.inr hreset), fun h' d₁ d d₂ hd hreset => ?_⟩
    rcases hreset with hreset | hreset
    · subst hd
      exact TCPTracker.opens_after_reset h hreset
    · exact h' d₁ d d₂ hd hreset

/-- A connection from port 1000 of the address 1 to port 80 of the address 2. -/
def sampleKey : ConnKey := ⟨[10, 0, 0, 1], [10, 0, 0, 2], 1000, 80⟩

def echoRequest : ICMPPacket := ⟨⟨[10, 0, 0, 1], [10, 0, 0, 2], 7⟩, ⟨8, 0⟩⟩

def echoReply : ICMPPacket := ⟨⟨[10, 0, 0, 2], [10, 0, 0, 1], 7⟩, ⟨0, 0⟩⟩

/-- A connection that is opened, reset and opened again. -/
def reopened : List (ℤ × Call TCPPacket) :=
  [(0, .trackOutbound ⟨sampleKey, tcpSyn⟩ 40), (1, .trackOutbound ⟨sampleKey, tcpRst⟩ 40),
    (2, .trackOutbound ⟨sampleKey, tcpSyn⟩ 40)]

theorem sample_answers_solicited :
    Tracker.Answers udp 30 [(0, .trackOutbound sampleKey 10)] 5 sampleKey.reverse ∧
      Tracker.Answers icmp 30 [(0, .trackOutbound echoRequest 10)] 5 echoReply ∧
      ∃ conn : TCPConnTrack,
        (TCPTracker.after 90 2 reopened).connections.lookup sampleKey = some conn ∧ conn.Open :=
  ⟨(isValidInbound_solicited 30 5 10).1 _ _ rfl, (isValidInbound_solicited 30 5 10).2.1 _ _ rfl,
    ((isValidInbound_solicited 90 3 40).2.2 2 reopened ⟨sampleKey.reverse, tcpSyn ||| tcpAck⟩
      rfl).1⟩

/-- The local side opens a connection, the remote side opens one on the same ports, and the local
side sends a reset. -/
def crossedReset : List (ℤ × Call TCPPacket) :=
  [(0, .trackOutbound ⟨sampleKey, tcpSyn⟩ 40),
    (1, .trackInbound ⟨sampleKey.reverse, tcpSyn⟩ [] 40 0),
    (2, .trackOutbound ⟨sampleKey, tcpRst⟩ 40)]

/-- The reset is processed on the entry of the inverse tuple, and a packet to the local side is
valid after it although no further packet was tracked. -/
theorem valid_after_crossed_reset :
    (TCPTracker.after 90 2 (crossedReset.take 2)).Resets (2, .trackOutbound ⟨sampleKey, tcpRst⟩ 40)
        sampleKey.reverse ∧ ((TCPTracker.after 90 2 crossedReset).isValidInbound 3
        ⟨sampleKey.reverse, tcpSyn ||| tcpAck⟩ 40).1 = true :=
  ⟨⟨rfl, _, rfl, rfl⟩, rfl⟩

end Netbird.Conntrack
