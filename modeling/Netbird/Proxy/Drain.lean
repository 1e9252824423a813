/-
The two copy loops of a TCP relay (`proxy/internal/tcp/relay.go`).

A direction that has read the end of its stream cancels the context of the relay, and a goroutine
that waits for this closes both connections.  What the other direction has not written by then is
lost.

* **`drains_iff`** — the schedules in which nothing is.
-/
import Netbird.Lib.Runs

namespace Netbird.Proxy.TcpRelay

open Function List

inductive Side where
  | src
  | dst
  deriving DecidableEq

/-- The copy loop that reads from one side, with what it has read in its buffer. -/
structure Copy where
  unread : List UInt8
  buf : List UInt8 := []
  written : List UInt8 := []
  done : Bool := false

/-- What is still to be written. -/
def Copy.left (c : Copy) : List UInt8 := c.buf ++ c.unread

structure Relay where
  copy : Side → Copy
  cancelled : Bool := false
  closed : Bool := false

/-- The scheduler picks a read of a direction, with the number of bytes beyond the first that
it returns, the write after it, or the goroutine that waits for the context. -/
inductive Event where
  | read (side : Side) (n : ℕ)
  | write (side : Side)
  | close

namespace Relay

def start (streams : Side → List UInt8) : Relay where
  copy side := { unread := streams side }

variable (r : Relay)

def set (side : Side) (c : Copy) : Relay := { r with copy := update r.copy side c }

/-- A direction ends and cancels the context. -/
def finish (side : Side) : Relay :=
  { r.set side { r.copy side with done := true } with cancelled := true }

/-- Reads and writes fail only on a connection that the relay has closed. -/
def step : Event → Relay
  | .read side n =>
    let c := r.copy side
    if c.done ∨ c.buf ≠ [] then r
    else if r.closed ∨ c.unread = [] then r.finish side
    else r.set side { c with buf := c.unread.take (n + 1), unread := c.unread.drop (n + 1) }
  | .write side =>
    let c := r.copy side
    if c.done ∨ c.buf = [] then r
    else if r.closed then r.finish side
    else r.set side { c with written := c.written ++ c.buf, buf := [] }
  | .close => { r with closed := r.closed || r.cancelled }

/-- The connections are closed only when both directions have written what they were sent. -/
def ClosesLate (e : Event) : Prop :=
  e = .close → r.cancelled = true → ∀ side, (r.copy side).left = []

/-- No direction has lost anything, and those that have ended have written everything. -/
structure Sound (streams : Side → List UInt8) : Prop where
  all : ∀ side, (r.copy side).written ++ (r.copy side).left = streams side
  ended : ∀ side, (r.copy side).done = true ∨ r.closed = true → (r.copy side).left = []

variable {r} {streams : Side → List UInt8} {side : Side}

theorem Sound.set (h : r.Sound streams) {c : Copy} {cancelled : Bool}
    (hall : c.written ++ c.left = streams side)
    (hended : c.done = true ∨ r.closed = true → c.left = []) :
    { r.set side c with cancelled := cancelled }.Sound streams where
  all := (forall_update_iff r.copy fun side c => c.written ++ c.left = streams side).mpr
    ⟨hall, fun side' _ => h.all side'⟩
  ended := (forall_update_iff r.copy fun _ c => c.done = true ∨ r.closed = true → c.left = []).mpr
    ⟨hended, fun side' _ => h.ended side'⟩

theorem Sound.step (h : r.Sound streams) (e : Event) (hlate : r.ClosesLate e) :
    (r.step e).Sound streams := by
  cases e with
  | read side n =>
    simp only [Relay.step]
    split_ifs with hidle hend
    · exact h
    · refine h.set (h.all side) fun _ => hend.elim (fun hc => h.ended side (.inr hc)) fun hnil => ?_
      exact append_eq_nil_iff.mpr ⟨not_not.mp (not_or.mp hidle).2, hnil⟩
    · push Not at hidle hend
      refine h.set ?_ fun hdone => absurd hdone (not_or.mpr ⟨hidle.1, hend.1⟩)
      rw [← h.all side, Copy.left, Copy.left, take_append_drop, hidle.2, nil_append]
  | write side =>
    simp only [Relay.step]
    split_ifs with hidle hclosed
    · exact h
    · exact h.set (h.all side) fun _ => h.ended side (.inr hclosed)
    · refine h.set ?_ fun hdone => absurd hdone (not_or.mpr ⟨(not_or.mp hidle).1, hclosed⟩)
      rw [← h.all side, Copy.left, Copy.left, nil_append, append_assoc]
  | close =>
    refine ⟨h.all, fun side hended => ?_⟩
    rcases hended with hdone | hclosed
    · exact h.ended side (.inl hdone)
    · exact (Bool.or_eq_true_iff.mp hclosed).elim (fun hc => h.ended side (.inr hc))
        fun hc => hlate rfl hc side

/-- Nothing is written to a closed connection. -/
theorem written_of_closed (h : r.closed = true) (e : Event) (side : Side) :
    (r.step e).closed = true ∧ ((r.step e).copy side).written = (r.copy side).written := by
  cases e with
  | close => exact ⟨Bool.or_eq_true_iff.mpr (.inl h), rfl⟩
  | read side' n | write side' =>
    simp only [step, h, true_or, if_true]
    split_ifs
    · exact ⟨h, rfl⟩
    · refine ⟨h, ?_⟩
      dsimp only [finish, set]
      rw [update_apply]
      split_ifs with hside
      · rw [hside]
      · rfl

theorem written_after_close (h : r.closed = true) (schedule : List Event) (side : Side) :
    ((schedule.foldl step r).copy side).written = (r.copy side).written := by
  induction schedule generalizing r with
  | nil => rfl
  | cons e schedule ih =>
    obtain ⟨hclosed, hwritten⟩ := written_of_closed h e side
    exact (ih hclosed).trans hwritten

/-- **The relay drains both streams** exactly if the connections are closed late. -/
theorem drains_iff (streams : Side → List UInt8) (schedule : List Event)
    (hdone : ∀ side, ((schedule.foldl step (start streams)).copy side).done = true) :
    (∀ side, ((schedule.foldl step (start streams)).copy side).written = streams side) ↔
      Runs.Along step ClosesLate (start streams) schedule := by
  have hstart : (start streams).Sound streams := ⟨fun _ => rfl, nofun⟩
  constructor
  · clear hdone
    generalize start streams = r at *
    induction schedule generalizing r with
    | nil => exact fun _ => trivial
    | cons e schedule ih =>
      intro hwritten
      have hlate : r.ClosesLate e := by
        rintro rfl hcancelled side
        -- from here on the side's stream is as it is
        have hclosed : (r.step .close).closed = true := Bool.or_eq_true_iff.mpr (.inr hcancelled)
        have hafter : _ = (r.copy side).written := written_after_close hclosed schedule side
        have hall := hstart.all side
        rwa [← hafter, ← foldl_cons, hwritten side, append_right_eq_self] at hall
      exact ⟨hlate, ih _ (hstart.step e hlate) hwritten⟩
  · intro hlate side
    have hsound := hlate.final (fun r e hr he => Sound.step hr e he) hstart
    rw [← hsound.all side, hsound.ended side (.inl (hdone side)), append_nil]

def oneByte : Side → List UInt8
  | .src => []
  | .dst => [1]

theorem oneByte_drains :
    let r := [.read .src 0, .read .dst 0, .write .dst, .read .dst 0, .close].foldl step
      (start oneByte)
    ∀ side, (r.copy side).written = oneByte side := by
  refine (drains_iff oneByte [.read .src 0, .read .dst 0, .write .dst, .read .dst 0, .close]
    fun side => by cases side <;> rfl).mpr ?_
  exact ⟨nofun, nofun, nofun, nofun, fun _ _ side => by cases side <;> rfl, trivial⟩

/-- The client sends nothing and the byte of the backend is lost. -/
theorem oneByte_lost :
    let r := [.read .src 0, .close, .read .dst 0].foldl step (start oneByte)
    (r.copy .src).done = true ∧ (r.copy .dst).done = true ∧ (r.copy .dst).written = [] := by
  decide

end Relay

end Netbird.Proxy.TcpRelay
