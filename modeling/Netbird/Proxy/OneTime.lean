/-
The one-time secrets of the proxy service: tokens of services and states of logins.

`ValidateAndConsume` and `ValidateState` both read an entry of the shared cache, check, and
delete it afterwards. A state is checked before the cache is read; a call that fails there is
one that no value passes, since a reading alone changes nothing.

* `accepted_of_generated` — a token is accepted only for what it was generated for;
* `one_time_iff` — when at most one of the callers is accepted.
-/
import Netbird.Lib.Secrets
import Netbird.Lib.Text

namespace Netbird.OneTime

open Secrets

/-! ### Tokens -/

structure TokenMetadata where
  serviceID : String
  accountID : String
  expiresAt : ℕ

/-- A call of `GenerateToken`, with the token it draws. -/
structure Generated where
  token : String
  metadata : TokenMetadata

/-- A call of `ValidateAndConsume`, with the time at which it checks the expiry. -/
structure TokenCall where
  token : String
  accountID : String
  serviceID : String
  now : ℕ

variable (hashToken : String → String)

/-- The cache after the calls of `GenerateToken`. -/
def generateTokens (calls : List Generated) : String → Option TokenMetadata :=
  calls.foldl (fun cache g => Function.update cache (hashToken g.token) (some g.metadata))
    fun _ => none

def validateAndConsume (c : TokenCall) : Caller String TokenMetadata where
  key := hashToken c.token
  passes m := !decide (c.now > m.expiresAt) && m.accountID == c.accountID &&
    m.serviceID == c.serviceID

/-! ### States -/

/-- `base64.URLEncoding.DecodeString` and `generateHMAC`. -/
structure StateLib where
  decodeURL : String → Option String
  generateHMAC : String → String

/-- The checks of `ValidateState` before the verifier is taken; the redirect URL if they pass. -/
def StateLib.check (lib : StateLib) (state : String) : Except String String :=
  match Text.split state '|' with
  | [encodedURL, nonce, providedHMAC] =>
    match lib.decodeURL encodedURL with
    | none => .error "invalid state encoding"
    | some redirectURL =>
      if providedHMAC ≠ lib.generateHMAC (redirectURL ++ "|" ++ nonce) then
        .error "invalid state signature"
      else .ok redirectURL
  | _ => .error "invalid state format"

/-- `ValidateState`, which takes the verifier by `LoadAndDelete`. -/
def validateState (lib : StateLib) (state : String) : Caller String String where
  key := state
  passes _ := (lib.check state).isOk

/-! ### Single use -/

variable {hashToken} {calls : ℕ → TokenCall} {generated : List Generated}

theorem mem_of_generateTokens {key : String} {m : TokenMetadata}
    (h : generateTokens hashToken generated key = some m) :
    ∃ g ∈ generated, hashToken g.token = key ∧ g.metadata = m := by
  refine List.foldlRecOn (motive := fun cache : String → Option TokenMetadata => ∀ key m,
    cache key = some m → ∃ g ∈ generated, hashToken g.token = key ∧ g.metadata = m) generated _
    (fun _ _ hnone => by cases hnone) (fun cache hcache g hg key m hm => ?_) key m h
  rw [Function.update_apply] at hm
  split_ifs at hm with hkey
  · exact ⟨g, hg, hkey.symm, Option.some.inj hm⟩
  · exact hcache key m hm

/-- **A token is accepted** only with the account and the service it was generated for. -/
theorem accepted_of_generated {es : List (Event String)} {i : ℕ}
    (h : ((es.foldl (State.step fun i => validateAndConsume hashToken (calls i))
      (.start (generateTokens hashToken generated))).phase i).isAccepted = true) :
    ∃ g ∈ generated, hashToken g.token = hashToken (calls i).token ∧
      g.metadata.accountID = (calls i).accountID ∧ g.metadata.serviceID = (calls i).serviceID := by
  have hletIn : ((es.foldl (State.step fun i => validateAndConsume hashToken (calls i))
      (.start (generateTokens hashToken generated))).phase i).letIn = true := by
    rw [Phase.letIn, h, Bool.or_true]
  obtain ⟨m, hm, hpasses⟩ := passes_of_letIn _ es hletIn
  obtain ⟨g, hg, hkey, rfl⟩ := mem_of_generateTokens hm
  simp only [validateAndConsume, Bool.and_eq_true, beq_iff_eq] at hpasses
  exact ⟨g, hg, hkey, hpasses.1.2, hpasses.2⟩

/-- **Single use**: after any run in which all calls have ended, at most one of the callers with
the same token, or the same state, is accepted exactly if none of them reads a good value while
another one is between its reading and its deletion. A token is only accepted for the account
and the service it was generated for. -/
theorem one_time_iff (hashToken : String → String) (generated : List Generated)
    (calls : ℕ → TokenCall) (lib : StateLib) (verifiers : String → Option String)
    (states : ℕ → String) (es : List (Event String)) :
    let tokenCallers := fun i => validateAndConsume hashToken (calls i)
    let stateCallers := fun i => validateState lib (states i)
    let tokens := es.foldl (State.step tokenCallers) (.start (generateTokens hashToken generated))
    let logins := es.foldl (State.step stateCallers) (.start verifiers)
    ((∀ i, (tokens.phase i).isHolding = false) → (Once (fun i => (calls i).token) tokens ↔
      Runs.Along (State.step tokenCallers) (Apart tokenCallers fun i => (calls i).token)
        (.start (generateTokens hashToken generated)) es)) ∧
    ((∀ i, (logins.phase i).isHolding = false) → (Once states logins ↔
      Runs.Along (State.step stateCallers) (Apart stateCallers states) (.start verifiers) es)) ∧
    ∀ i, (tokens.phase i).isAccepted = true → ∃ g ∈ generated,
      hashToken g.token = hashToken (calls i).token ∧
        g.metadata.accountID = (calls i).accountID ∧ g.metadata.serviceID = (calls i).serviceID := by
  intro tokenCallers stateCallers tokens logins
  refine ⟨fun hdone => once_iff (fun i j h => ?_) _ es hdone,
    fun hdone => once_iff (fun i j h => h) _ es hdone, fun i hi => accepted_of_generated hi⟩
  exact congrArg hashToken h

/-- Two callers read the token before either of them deletes it: both are accepted. -/
theorem token_accepted_twice :
    let s := [Event.advance 0, .advance 1, .advance 0, .advance 1].foldl
      (State.step fun _ => validateAndConsume id ⟨"token", "account", "service", 1⟩)
      (.start (generateTokens id [⟨"token", ⟨"service", "account", 300⟩⟩]))
    (∀ i, (s.phase i).isHolding = false) ∧ ¬ Once (fun _ => "token") s := by
  refine ⟨fun i => ?_, fun honce => absurd (honce 0 1 (by decide) (by decide) rfl) (by decide)⟩
  match i with
  | 0 | 1 | n + 2 => rfl

end Netbird.OneTime
