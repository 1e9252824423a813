/-
The login filter (`management/internals/shared/grpc/loginfilter.go`).

The logins of a key with one metadata hash are counted from the first of them or from the last ban,
and the time of that login stays the start of the window.  A burst that comes later than the
threshold after it is not banned, however many logins it has.

* **`burst_banned_iff`** — which bursts are.
-/
import Netbird.Lib.Runs
import Mathlib.Algebra.Ring.Int.Defs

namespace Netbird.LoginFilter

open Function List

/-- Times and durations are in nanoseconds. -/
def reconnThreshold : ℤ := 300000000000
def baseBlockDuration : ℤ := 600000000000
def reconnLimitForBan : ℕ := 30

structure PeerState where
  currentHash : UInt64
  sessionCounter : ℕ
  sessionStart : ℤ
  lastSeen : ℤ
  isBanned : Bool := false
  banLevel : ℕ := 0
  banExpiresAt : ℤ := 0
  metaChangeCounter : ℕ
  metaChangeWindowStart : ℤ

structure Login where
  wgPubKey : String
  metaHash : UInt64
  now : ℤ

abbrev Logged := String → Option PeerState

/-- The login begins a ban. -/
def PeerState.Bans (state : PeerState) (l : Login) : Prop :=
  l.metaHash = state.currentHash ∧ reconnLimitForBan < state.sessionCounter + 1 ∧
    l.now - state.sessionStart < reconnThreshold

instance (state : PeerState) (l : Login) : Decidable (state.Bans l) :=
  inferInstanceAs (Decidable (_ ∧ _))

/-- A login of a key that is logged. -/
def PeerState.login (state : PeerState) (l : Login) : PeerState :=
  let seen := { state with
    isBanned := state.isBanned && l.now ≤ state.banExpiresAt
    banLevel := if 2 * baseBlockDuration < l.now - state.lastSeen then 0 else state.banLevel
    lastSeen := l.now }
  if l.metaHash ≠ state.currentHash then
    let later := state.metaChangeWindowStart + reconnThreshold < l.now
    { seen with
      metaChangeWindowStart := if later then l.now else state.metaChangeWindowStart
      metaChangeCounter := if later then 1 else state.metaChangeCounter + 1
      currentHash := l.metaHash, sessionCounter := 1, sessionStart := l.now }
  else if state.Bans l then
    { seen with
      isBanned := true
      banLevel := seen.banLevel + 1
      -- in the source the product is converted to a Duration, which overflows from level 24 on
      banExpiresAt := l.now + baseBlockDuration * 2 ^ seen.banLevel
      sessionCounter := 0, sessionStart := l.now }
  else { seen with sessionCounter := state.sessionCounter + 1 }

/-- The first login of a key. -/
def firstLogin (l : Login) : PeerState where
  currentHash := l.metaHash
  sessionCounter := 1
  sessionStart := l.now
  lastSeen := l.now
  metaChangeWindowStart := l.now
  metaChangeCounter := 1

def addLogin (logged : Logged) (l : Login) : Logged :=
  update logged l.wgPubKey (some ((logged l.wgPubKey).elim (firstLogin l) (·.login l)))

def BeginsBan (logged : Logged) (l : Login) : Prop := ∃ state ∈ logged l.wgPubKey, state.Bans l

instance (logged : Logged) (l : Login) : Decidable (BeginsBan logged l) :=
  inferInstanceAs (Decidable (∃ state ∈ logged l.wgPubKey, state.Bans l))

/-- No login of the key begins a ban. -/
def Quiet (key : String) : Logged → List Login → Prop :=
  Runs.Along addLogin fun logged l => l.wgPubKey = key → ¬ BeginsBan logged l

variable {key : String} {hash : UInt64} {logged : Logged} {ls : List Login}
  (hhash : ∀ l ∈ ls, l.wgPubKey = key → l.metaHash = hash) (hquiet : Quiet key logged ls)

include hhash hquiet

/-- Logins with the hash of the state are counted. -/
theorem run_quiet {state : PeerState} (hstate : logged key = some state)
    (hcurrent : state.currentHash = hash) : ∃ state', ls.foldl addLogin logged key = some state' ∧
      state'.currentHash = hash ∧ state'.sessionStart = state.sessionStart ∧
      state'.sessionCounter = state.sessionCounter + ls.countP (·.wgPubKey = key) := by
  induction ls generalizing logged state with
  | nil => exact ⟨state, hstate, hcurrent, rfl, rfl⟩
  | cons l ls ih =>
    obtain ⟨hl, hls⟩ := forall_mem_cons.mp hhash
    obtain ⟨hban, hquiet⟩ := hquiet
    by_cases hkey : l.wgPubKey = key
    · have hnot : ¬ state.Bans l := fun h => hban hkey ⟨state, hkey ▸ hstate, h⟩
      have hlogin : addLogin logged l key = some (state.login l) := by
        rw [addLogin, hkey, update_self, hstate]
        rfl
      have hnext : (state.login l).currentHash = hash ∧
          (state.login l).sessionStart = state.sessionStart ∧
          (state.login l).sessionCounter = state.sessionCounter + 1 := by
        rw [PeerState.login, if_neg (by simp [hl hkey, hcurrent]), if_neg hnot]
        exact ⟨hcurrent, rfl, rfl⟩
      obtain ⟨state', h', hhash', hstart, hcount⟩ := ih hls hquiet hlogin hnext.1
      refine ⟨state', h', hhash', hstart.trans hnext.2.1, ?_⟩
      rw [hcount, hnext.2.2, countP_cons_of_pos (by simpa using hkey), Nat.add_assoc, Nat.add_comm 1]
    · have hsame : addLogin logged l key = some state := by
        rw [addLogin, update_of_ne (Ne.symm hkey), hstate]
      rw [countP_cons_of_neg (by simpa using hkey)]
      exact ih hls hquiet hsame hcurrent

/-- With a new hash the first login is the start. -/
theorem run_fresh (hfresh : ∀ state ∈ logged key, state.currentHash ≠ hash)
    (hpos : 0 < ls.countP (·.wgPubKey = key)) :
    ∃ state', ls.foldl addLogin logged key = some state' ∧ state'.currentHash = hash ∧
      (∃ l ∈ ls, l.wgPubKey = key ∧ state'.sessionStart = l.now) ∧
      state'.sessionCounter = ls.countP (·.wgPubKey = key) := by
  induction ls generalizing logged with
  | nil => exact absurd hpos (Nat.lt_irrefl 0)
  | cons l ls ih =>
    obtain ⟨hl, hls⟩ := forall_mem_cons.mp hhash
    obtain ⟨-, hquiet⟩ := hquiet
    by_cases hkey : l.wgPubKey = key
    · obtain ⟨state, hlogin, hnext⟩ : ∃ state, addLogin logged l key = some state ∧
          state.currentHash = hash ∧ state.sessionStart = l.now ∧ state.sessionCounter = 1 := by
        rw [addLogin, hkey, update_self]
        refine ⟨_, rfl, ?_⟩
        rcases hstate : logged key with _ | state
        · exact ⟨hl hkey, rfl, rfl⟩
        · rw [Option.elim, PeerState.login, if_pos (by simpa [hl hkey] using (hfresh state hstate).symm)]
          exact ⟨hl hkey, rfl, rfl⟩
      obtain ⟨state', h', hhash', hstart, hcount⟩ := run_quiet hls hquiet hlogin hnext.1
      refine ⟨state', h', hhash', ⟨l, mem_cons_self, hkey, hstart.trans hnext.2.1⟩, ?_⟩
      rw [hcount, hnext.2.2, countP_cons_of_pos (by simpa using hkey), Nat.add_comm]
    · rw [countP_cons_of_neg (by simpa using hkey)] at hpos ⊢
      have hsame : addLogin logged l key = logged key := update_of_ne (Ne.symm hkey) _ _
      obtain ⟨state', h', hhash', ⟨l', hl', hstart⟩, hcount⟩ :=
        ih hls hquiet (hsame ▸ hfresh) hpos
      exact ⟨state', h', hhash', ⟨l', mem_cons_of_mem l hl', hstart⟩, hcount⟩

omit hhash hquiet

/-- **A burst is banned** exactly if the logins with its hash that were counted before it began, if
there were any, began less than the threshold before its end. -/
theorem burst_banned_iff (before burst : List Login) (l : Login)
    (hcount : (burst ++ [l]).countP (·.wgPubKey = l.wgPubKey) = reconnLimitForBan + 1)
    (hhash : ∀ l' ∈ burst, l'.wgPubKey = l.wgPubKey → l'.metaHash = l.metaHash)
    (hwithin : ∀ l' ∈ burst, l'.wgPubKey = l.wgPubKey → l.now - l'.now < reconnThreshold)
    (hquiet : Quiet l.wgPubKey (before.foldl addLogin fun _ => none) burst) :
    BeginsBan ((before ++ burst).foldl addLogin fun _ => none) l ↔
      ∀ state ∈ before.foldl addLogin (fun _ => none) l.wgPubKey,
        state.currentHash = l.metaHash → l.now - state.sessionStart < reconnThreshold := by
  rw [foldl_append, BeginsBan]
  generalize before.foldl addLogin (fun _ => none) = logged at *
  have hburst : burst.countP (·.wgPubKey = l.wgPubKey) = reconnLimitForBan := by
    simpa [countP_append] using hcount
  by_cases hfresh : ∀ state ∈ logged l.wgPubKey, state.currentHash ≠ l.metaHash
  · obtain ⟨state', h', hhash', ⟨l', hl', hkey, hstart⟩, hcount'⟩ :=
      run_fresh hhash hquiet hfresh (by rw [hburst]; decide)
    refine iff_of_true ⟨state', h', hhash'.symm, by omega, ?_⟩ fun state hs hc => ?_
    · rw [hstart]
      exact hwithin l' hl' hkey
    · exact absurd hc (hfresh state hs)
  · push Not at hfresh
    obtain ⟨state, hstate, hcurrent⟩ := hfresh
    rw [Option.mem_def] at hstate
    obtain ⟨state', h', hhash', hstart, hcount'⟩ := run_quiet hhash hquiet hstate hcurrent
    have hlimit : reconnLimitForBan < state'.sessionCounter + 1 := by omega
    simp only [hstate, h', Option.mem_some_iff, exists_eq_left', forall_eq', PeerState.Bans,
      hhash', hcurrent, hlimit, hstart, true_and, forall_const]

/-- A burst with changed metadata, soon after a login of its key and one of another, is banned. -/
theorem changed_burst_banned :
    let l : Login := ⟨"k", 0, 10⟩
    let before := [{ l with metaHash := 1, now := 0 }, ⟨"other", 0, 5⟩]
    BeginsBan ((before ++ replicate 30 l).foldl addLogin fun _ => none) l := by
  refine (burst_banned_iff [⟨"k", 1, 0⟩, ⟨"other", 0, 5⟩] (replicate 30 ⟨"k", 0, 10⟩) ⟨"k", 0, 10⟩
    (by decide) (by decide) (by decide) (by unfold Quiet; decide +kernel)).mpr fun state hstate _ => ?_
  obtain rfl := Option.some.inj hstate
  decide

/-- A burst five minutes after the first login of its key is not banned. -/
theorem late_burst_not_banned :
    let l : Login := ⟨"k", 0, reconnThreshold⟩
    let burst := replicate 30 l
    let before := [{ l with now := 0 }]
    (before ++ burst ++ [l]).Pairwise (·.now ≤ ·.now) ∧
      (burst ++ [l]).countP (·.wgPubKey = l.wgPubKey) = reconnLimitForBan + 1 ∧
      Runs.Along addLogin (fun logged l => ¬ BeginsBan logged l) (fun _ => none)
        (before ++ burst ++ [l]) := by
  decide +kernel

end Netbird.LoginFilter
