/-
The local resolver (`local/local.go` and `resutil/resolve.go` of `client/internal/dns`).

The resolver answers from the records of its zones, follows CNAME records up to eight times, and
asks the system's resolver about targets outside its zones, under a context of its own that
`Stop` cancels.  What the outside answers is a parameter; under a cancelled context every
question to it fails.

* `foldl_serveDNS` — the resolver after a series of questions;
* `replyTo_inside`, `replyTo_outside` — which questions need the outside;
* `answers_cancelled_iff` — when a cancelled resolver answers like a live one.
-/
import Mathlib.Data.List.Rotate
import Netbird.Dns.Chain
import Netbird.Lib.Addr

namespace Netbird.Dns

/-! ### Records -/

namespace Rcode

def success : ℤ := 0
def serverFailure : ℤ := 2
def nameError : ℤ := 3
def notImplemented : ℤ := 4

/-- `resolveCNAMETarget`'s signal to follow the next CNAME. -/
def follow : ℤ := -1

end Rcode

def typeA : ℕ := 1
def typeNS : ℕ := 2
def typeCNAME : ℕ := 5
def typeSOA : ℕ := 6
def typeAAAA : ℕ := 28
def classINET : ℕ := 1

structure Question where
  name : Name
  qtype : ℕ
  qclass : ℕ
  deriving DecidableEq

/-- What a record holds: a CNAME's target, an address, or some other text. -/
inductive RData
  | cname (target : Name)
  | address (ip : List UInt8)
  | other (text : Name)
  deriving DecidableEq

structure RR where
  name : Name
  rrtype : ℕ
  cls : ℕ
  ttl : ℕ
  rdlength : ℕ
  data : RData
  deriving DecidableEq

structure SimpleRecord where
  name : Name
  type : ℕ
  cls : Name
  ttl : ℕ
  rdata : Name

/-- The length of the data in bytes, by the record's type. -/
def SimpleRecord.len (r : SimpleRecord) : ℕ :=
  if r.type = typeA then if r.rdata = [] then 0 else 4
  else if r.type = typeCNAME then
    if r.rdata = [] ∨ r.rdata = ['.'] then 1
    else ((String.ofList r.rdata).utf8ByteSize + 1) % 2 ^ 16
  else if r.type = typeAAAA then if r.rdata = [] then 0 else 16
  else 0

structure CustomZone where
  domain : Name
  records : List SimpleRecord
  searchDomainDisabled : Bool
  nonAuthoritative : Bool

/-! ### The outside -/

inductive LookupError
  | notFound
  | other
  deriving DecidableEq

inductive Network
  | ip4
  | ip6
  deriving DecidableEq

/-- What the system's resolver answers. -/
abbrev Outside := Network → Name → Except LookupError (List (List UInt8))

/-- The answers under a cancelled context. -/
def Outside.dead : Outside := fun _ _ => .error .other

def networkForQtype (qtype : ℕ) : Option Network :=
  if qtype = typeA then some .ip4 else if qtype = typeAAAA then some .ip6 else none

def getRcodeForNotFound (out : Outside) (name : Name) (qtype : ℕ) : ℤ :=
  let alternative : Option Network :=
    if qtype = typeAAAA then some .ip4 else if qtype = typeA then some .ip6 else none
  match alternative with
  | none => Rcode.nameError
  | some network =>
    match out network name with
    | .error .notFound => Rcode.nameError
    | _ => Rcode.success

def getRcodeForError (out : Outside) (name : Name) (qtype : ℕ) : LookupError → ℤ
  | .notFound => getRcodeForNotFound out name qtype
  | .other => Rcode.serverFailure

/-- The addresses, or the response code of the error. -/
def lookupIP (out : Outside) (network : Network) (name : Name) (qtype : ℕ) :
    Except ℤ (List (List UInt8)) :=
  match out network name with
  | .error e => .error (getRcodeForError out name qtype e)
  | .ok ips => .ok (ips.map Addr.unmap)

def ipsToRRs (name : Name) (ips : List (List UInt8)) (ttl : ℕ) : List RR :=
  ips.map fun ip =>
    { name := name
      rrtype := if Addr.is6 ip then typeAAAA else typeA
      cls := classINET
      ttl := ttl
      rdlength := 0
      data := .address ip }

/-! ### The resolver -/

structure Resolver where
  records : Question → Option (List RR)
  domains : Name → Bool
  /-- The zones, with whether they are non-authoritative. -/
  zones : Name → Option Bool
  /-- `Stop` was called. -/
  cancelled : Bool

structure LookupResult where
  records : List RR
  rcode : ℤ
  hasExternalData : Bool
  deriving DecidableEq

/-- What `ServeDNS` writes; with `zero` the chain goes on to the next handler. -/
structure Reply where
  authoritative : Bool
  answer : List RR
  rcode : ℤ
  zero : Bool
  deriving DecidableEq

def supportsWildcard (qtype : ℕ) : Bool := qtype ≠ typeNS ∧ qtype ≠ typeSOA

/-- The first label replaced by `*`. -/
def transformDomainToWildcard (name : Name) : Name :=
  '*' :: name.dropWhile (· ≠ '.')

def transformToWildcard (q : Question) : Question :=
  { q with name := transformDomainToWildcard q.name }

def responseFromWildRecords (originalName : Name) (wildRecords : List RR) : LookupResult :=
  { records := wildRecords.map fun r => { r with name := originalName }
    rcode := Rcode.success
    hasExternalData := false }

/-- The parents `findZone` goes through: what follows a dot, unless nothing does. -/
def parents : Name → List Name
  | [] => []
  | c :: n => if c = '.' ∧ n ≠ [] then n :: parents n else parents n

namespace Resolver

variable (fm : NameMap) (newRR : SimpleRecord → Option RR)

def empty (cancelled : Bool) : Resolver where
  records _ := none
  domains _ := false
  zones _ := none
  cancelled := cancelled

def new : Resolver := empty false

def stop (_ : Resolver) : Resolver := empty true

/-- `registerRecord`; a record that does not parse (`newRR` is `dns.NewRR` of its text) is only
logged. -/
def registerRecord (d : Resolver) (record : SimpleRecord) : Resolver :=
  match newRR record with
  | none => d
  | some rr =>
    let rr := { rr with rdlength := record.len }
    let q : Question := ⟨fm.lowered (fm.fqdn rr.name), rr.rrtype, rr.cls⟩
    { d with
      records := fun q' =>
        if q' = q then some ((d.records q).getD [] ++ [rr]) else d.records q'
      domains := fun n => n = q.name ∨ d.domains n }

def registerZone (d : Resolver) (zone : CustomZone) : Resolver :=
  let name := fm.lowered (fm.fqdn zone.domain)
  zone.records.foldl (registerRecord fm newRR)
    { d with zones := fun n => if n = name then some zone.nonAuthoritative else d.zones n }

def update (d : Resolver) (customZones : List CustomZone) : Resolver :=
  customZones.foldl (registerZone fm newRR) (empty d.cancelled)

section Lookup

variable (d : Resolver)

def findZone (qname : Name) : Option Bool :=
  let qname := fm.lowered (fm.fqdn qname)
  (qname :: parents qname).findSome? d.zones

def shouldFallthrough (qname : Name) : Bool := d.findZone fm qname = some true

def isInManagedZone (name : Name) : Bool := (d.findZone fm name).isSome

def hasRecordsForDomain (name : Name) (qtype : ℕ) : Bool :=
  d.domains name ∨ supportsWildcard qtype ∧ d.domains (transformDomainToWildcard name)

variable (q : Question)

def getRecords : List RR := (d.records q).getD []

def hasRecord : Bool := (d.records q).isSome

variable (out : Outside)

def resolveExternal (name : Name) (qtype : ℕ) : LookupResult :=
  match networkForQtype qtype with
  | none => ⟨[], Rcode.notImplemented, false⟩
  | some network =>
    match lookupIP (if d.cancelled then .dead else out) network name qtype with
    | .error rcode => ⟨[], rcode, true⟩
    | .ok ips => ⟨ipsToRRs name ips 60, Rcode.success, true⟩

def resolveCNAMETarget (targetName : Name) (targetType qclass : ℕ) : LookupResult :=
  let records := d.getRecords ⟨targetName, targetType, qclass⟩
  if records ≠ [] then ⟨records, Rcode.success, false⟩
  else if d.hasRecord ⟨targetName, typeCNAME, qclass⟩ then ⟨[], Rcode.follow, false⟩
  else if d.hasRecordsForDomain targetName targetType then ⟨[], Rcode.success, false⟩
  else if d.isInManagedZone fm targetName then ⟨[], Rcode.nameError, false⟩
  else d.resolveExternal out targetName targetType

def buildChainResult (chain : List RR) (target : LookupResult) : LookupResult :=
  { records := chain ++ target.records
    rcode := target.rcode
    hasExternalData := target.hasExternalData }

/-- The CNAME records of one round, its own or those of the wildcard. -/
def cnameRecords (targetType : ℕ) : List RR :=
  let records := d.getRecords q
  if records = [] ∧ supportsWildcard targetType then
    (responseFromWildRecords q.name (d.getRecords (transformToWildcard q))).records
  else records

/-- The loop of `lookupCNAMEChain`, with the rounds left and the records so far. -/
def followChain (out : Outside) (targetType : ℕ) : ℕ → List RR → Question → LookupResult
  | 0, chain, _ => ⟨chain, Rcode.success, false⟩
  | rounds + 1, chain, q =>
    match d.cnameRecords q targetType with
    | [] => ⟨chain, Rcode.success, false⟩
    | r :: rs =>
      let chain := chain ++ r :: rs
      match r.data with
      | .cname target =>
        let targetName := fm.lowered target
        let result := d.resolveCNAMETarget fm out targetName targetType q.qclass
        if result.rcode = Rcode.follow then
          followChain out targetType rounds chain ⟨targetName, typeCNAME, q.qclass⟩
        else buildChainResult chain result
      | _ => ⟨chain, Rcode.success, false⟩

def maxDepth : ℕ := 8

def lookupCNAMEChain (q : Question) (targetType : ℕ) : LookupResult :=
  d.followChain fm out targetType maxDepth [] q

/-- The question whose records answer: itself, or the wildcard if the name does not exist. -/
def recordKey : Question :=
  if (d.records q).isNone ∧ supportsWildcard q.qtype ∧ ¬ d.domains q.name then
    transformToWildcard q
  else q

/-- Without records of the type, a CNAME chain is followed. -/
def lookupRecords (q : Question) : LookupResult :=
  match d.records (d.recordKey q) with
  | none =>
    if q.qtype ≠ typeCNAME then d.lookupCNAMEChain fm out ⟨q.name, typeCNAME, q.qclass⟩ q.qtype
    else ⟨[], Rcode.nameError, false⟩
  | some records =>
    if d.recordKey q = q then ⟨records, Rcode.success, false⟩
    else responseFromWildRecords q.name records

/-- A question with several records moves the first one to the end. -/
def rotate : Resolver :=
  { d with
    records := fun q' =>
      if q' = d.recordKey q then
        match d.records q' with
        | some (r :: r' :: rs) => some (r' :: rs ++ [r])
        | records => records
      else d.records q' }

def determineRcode (result : LookupResult) : ℤ :=
  if result.rcode ≠ Rcode.success then result.rcode
  else if d.hasRecordsForDomain q.name q.qtype then Rcode.success
  else Rcode.nameError

def replyTo (q : Question) : Reply :=
  let result := d.lookupRecords fm out q
  let rcode := d.determineRcode q result
  if rcode = Rcode.nameError ∧ d.shouldFallthrough fm q.name then
    ⟨false, [], Rcode.nameError, true⟩
  else ⟨!result.hasExternalData, result.records, rcode, false⟩

def asked : Question := { q with name := fm.lowered (fm.fqdn q.name) }

/-- `ServeDNS`: the reply, and the resolver afterwards. -/
def serveDNS (q : Question) : Reply × Resolver :=
  (d.replyTo fm out (asked fm q), d.rotate (asked fm q))

end Lookup

def answers (out : Outside) : Resolver → List Question → List Reply
  | _, [] => []
  | d, q :: qs => (d.serveDNS fm out q).1 :: answers out (d.serveDNS fm out q).2 qs

theorem rotate_eq (d : Resolver) (q : Question) :
    d.rotate q = { d with
      records := fun k => (d.records k).map (·.rotate (if k = d.recordKey q then 1 else 0)) } := by
  refine congrArg (Resolver.mk · _ _ _) (funext fun k => ?_)
  split_ifs
  · rcases d.records k with _ | _ | ⟨r, _ | ⟨r', rs⟩⟩ <;> simp
  · simp

/-- **Questions only rotate**: each moves on, by one, the records that it is answered from. -/
theorem foldl_serveDNS (out : Outside) (d : Resolver) (qs : List Question) :
    qs.foldl (fun d q => (d.serveDNS fm out q).2) d = { d with
      records := fun k =>
        (d.records k).map (·.rotate (qs.countP fun q => d.recordKey (asked fm q) = k)) } := by
  induction qs generalizing d with
  | nil => simp
  | cons q qs ih =>
    have hkey : ∀ q', (d.rotate (asked fm q)).recordKey q' = d.recordKey q' := by
      simp [rotate_eq, recordKey]
    rw [List.foldl_cons, ih]
    simp only [serveDNS, hkey]
    rw [rotate_eq]
    refine congrArg (Resolver.mk · _ _ _) (funext fun k => ?_)
    simp [Function.comp_def, List.rotate_rotate, List.countP_cons, add_comm, eq_comm]

/-! ### Questions that lead outside -/

section Outside

variable (d : Resolver)

/-- `resolveCNAMETarget` passes the target to the system's resolver. -/
def Leaves (targetName : Name) (targetType qclass : ℕ) : Prop :=
  d.getRecords ⟨targetName, targetType, qclass⟩ = [] ∧
    d.hasRecord ⟨targetName, typeCNAME, qclass⟩ = false ∧
    d.hasRecordsForDomain targetName targetType = false ∧
    d.isInManagedZone fm targetName = false ∧ (networkForQtype targetType).isSome

instance (targetName : Name) (targetType qclass : ℕ) :
    Decidable (d.Leaves fm targetName targetType qclass) :=
  inferInstanceAs (Decidable (_ ∧ _ ∧ _ ∧ _ ∧ _))

/-- The target outside the zones that a chain of CNAMEs leads to, within the rounds. -/
def chainOutside (targetType : ℕ) : ℕ → Question → Option Name
  | 0, _ => none
  | rounds + 1, q =>
    match d.cnameRecords q targetType with
    | [] => none
    | r :: _ =>
      match r.data with
      | .cname target =>
        let targetName := fm.lowered target
        if d.Leaves fm targetName targetType q.qclass then some targetName
        else if d.getRecords ⟨targetName, targetType, q.qclass⟩ = [] ∧
            d.hasRecord ⟨targetName, typeCNAME, q.qclass⟩ then
          chainOutside targetType rounds ⟨targetName, typeCNAME, q.qclass⟩
        else none
      | _ => none

/-- The target outside the zones that a question leads to. -/
def outside (q : Question) : Option Name :=
  if d.records (d.recordKey q) = none ∧ q.qtype ≠ typeCNAME then
    d.chainOutside fm q.qtype maxDepth ⟨q.name, typeCNAME, q.qclass⟩
  else none

def StaysInside : Resolver → List Question → Prop
  | _, [] => True
  | d, q :: qs => d.outside fm (asked fm q) = none ∧ StaysInside (d.rotate (asked fm q)) qs

end Outside

/-! ### The context -/

section Context

variable {fm} {d : Resolver}

def live (d : Resolver) : Resolver := { d with cancelled := false }

/-- What the outside answers under the resolver's context. -/
def seen (d : Resolver) (out : Outside) : Outside := if d.cancelled then .dead else out

/-- The context only matters for what the outside answers. -/
theorem answers_live (out : Outside) (d : Resolver) (qs : List Question) :
    answers fm out d qs = answers fm (d.seen out) d.live qs := by
  induction qs generalizing d with
  | nil => rfl
  | cons q qs ih =>
    simp only [answers, serveDNS]
    rw [ih]
    rfl

end Context

/-! ### One question -/

section OneQuestion

attribute [local simp] Rcode.success Rcode.serverFailure Rcode.nameError Rcode.notImplemented
  Rcode.follow

variable {fm} {d : Resolver}

theorem getRcodeForError_ne_follow (out : Outside) (name : Name) (qtype : ℕ) (e : LookupError) :
    getRcodeForError out name qtype e ≠ Rcode.follow := by
  cases e with
  | other => simp [getRcodeForError]
  | notFound =>
    simp only [getRcodeForError, getRcodeForNotFound]
    generalize (if qtype = typeAAAA then some Network.ip4
      else if qtype = typeA then some Network.ip6 else none) = alternative
    rcases alternative with _ | network
    · simp
    · dsimp only
      split <;> simp

theorem resolveExternal_rcode_ne_follow (out : Outside) (name : Name) (qtype : ℕ) :
    (d.resolveExternal out name qtype).rcode ≠ Rcode.follow := by
  unfold resolveExternal lookupIP
  generalize (if d.cancelled then Outside.dead else out) = out'
  rcases networkForQtype qtype with _ | network
  · simp
  · rcases hout : out' network name with e | ips
    · simpa [hout] using getRcodeForError_ne_follow out' name qtype e
    · simp [hout]

variable {name : Name}

/-- What the chain makes of a target, by whether the target leaves the zones. -/
theorem resolveCNAMETarget_of_leaves {targetType qclass : ℕ}
    (h : d.Leaves fm name targetType qclass) (out : Outside) :
    d.resolveCNAMETarget fm out name targetType qclass = d.resolveExternal out name targetType := by
  obtain ⟨hrecords, hcname, hdomain, hzone, -⟩ := h
  simp [resolveCNAMETarget, hrecords, hcname, hdomain, hzone]

theorem resolveCNAMETarget_of_not_leaves {targetType qclass : ℕ}
    (h : ¬ d.Leaves fm name targetType qclass) (out : Outside) :
    d.resolveCNAMETarget fm out name targetType qclass =
        d.resolveCNAMETarget fm .dead name targetType qclass ∧
      (d.resolveCNAMETarget fm out name targetType qclass).rcode ≠ Rcode.serverFailure ∧
      ((d.resolveCNAMETarget fm out name targetType qclass).rcode = Rcode.follow ↔
        d.getRecords ⟨name, targetType, qclass⟩ = [] ∧ d.hasRecord ⟨name, typeCNAME, qclass⟩) := by
  unfold resolveCNAMETarget
  dsimp only
  split_ifs with hrecords hcname hdomain hzone
  · simp [hrecords]
  · simp [not_not.mp hrecords, hcname]
  · simp [hcname]
  · simp [hcname]
  · have hnetwork : networkForQtype targetType = none := by
      by_contra hne
      exact h ⟨not_not.mp hrecords, by simpa using hcname, by simpa using hdomain,
        by simpa using hzone, Option.isSome_iff_ne_none.mpr hne⟩
    simp [resolveExternal, hcname, hnetwork]

/-- A chain that stays inside does not depend on the outside, and never fails.  One that leads
outside ends with what the outside says about its target. -/
theorem followChain_cases (targetType : ℕ) (out : Outside) : ∀ rounds chain q,
    (d.chainOutside fm targetType rounds q = none → d.followChain fm out targetType rounds chain q =
          d.followChain fm .dead targetType rounds chain q ∧
        (d.followChain fm out targetType rounds chain q).rcode ≠ Rcode.serverFailure) ∧
    ∀ name, d.chainOutside fm targetType rounds q = some name →
      (networkForQtype targetType).isSome ∧ (d.followChain fm out targetType rounds chain q).rcode =
          (d.resolveExternal out name targetType).rcode
  | 0, _, _ => by simp [followChain, chainOutside]
  | rounds + 1, chain, q => by
    unfold chainOutside followChain
    rcases hr : d.cnameRecords q targetType with _ | ⟨r, rs⟩
    · simp
    · cases hdata : r.data with
      | cname target =>
        simp only [hdata]
        by_cases hleaves : d.Leaves fm (fm.lowered target) targetType q.qclass
        · refine ⟨fun h => by simp [hleaves] at h, fun name h => ?_⟩
          rw [if_pos hleaves] at h
          obtain rfl : fm.lowered target = name := Option.some.inj h
          refine ⟨hleaves.2.2.2.2, ?_⟩
          rw [resolveCNAMETarget_of_leaves hleaves,
            if_neg (resolveExternal_rcode_ne_follow out _ _)]
          rfl
        · obtain ⟨heq, hne, hfollow⟩ := resolveCNAMETarget_of_not_leaves hleaves out
          simp only [if_neg hleaves, ← heq, ← hfollow]
          split_ifs
          · exact followChain_cases targetType out rounds _ _
          · exact ⟨fun _ => ⟨rfl, hne⟩, nofun⟩
      | address ip | other text => simp [hdata]

variable {q : Question}

theorem replyTo_rcode_iff {out : Outside} : (d.replyTo fm out q).rcode = Rcode.serverFailure ↔
      (d.lookupRecords fm out q).rcode = Rcode.serverFailure := by
  have hreply : (d.replyTo fm out q).rcode = d.determineRcode q (d.lookupRecords fm out q) := by
    unfold replyTo
    dsimp only
    split_ifs with h
    · exact h.1.symm
    · rfl
  rw [hreply, determineRcode]
  split_ifs with hne <;> simp_all

/-- Without the outside the questions that lead there are answered with SERVFAIL; all others are
answered as always, and never so. -/
theorem replyTo_inside (h : d.outside fm q = none) (out : Outside) :
    d.replyTo fm out q = d.replyTo fm .dead q ∧
      (d.replyTo fm out q).rcode ≠ Rcode.serverFailure := by
  have hlookup : d.lookupRecords fm out q = d.lookupRecords fm .dead q ∧
      (d.lookupRecords fm out q).rcode ≠ Rcode.serverFailure := by
    unfold lookupRecords
    unfold outside at h
    rcases hr : d.records (d.recordKey q) with _ | records
    · by_cases hq : q.qtype ≠ typeCNAME
      · rw [if_pos ⟨hr, hq⟩] at h
        simp only [if_pos hq]
        exact (followChain_cases q.qtype out maxDepth [] _).1 h
      · simp [hq]
    · split_ifs <;> simp [responseFromWildRecords]
  exact ⟨by simp only [replyTo, hlookup.1], fun h => hlookup.2 (replyTo_rcode_iff.mp h)⟩

theorem replyTo_outside (h : d.outside fm q = some name) (hlive : d.cancelled = false) :
    (d.replyTo fm .dead q).rcode = Rcode.serverFailure ∧
      (d.replyTo fm (fun _ _ => .ok []) q).rcode ≠ Rcode.serverFailure := by
  unfold outside at h
  split_ifs at h with hq
  have hchain := fun out => (followChain_cases q.qtype out maxDepth [] _).2 name h
  obtain ⟨network, hnetwork⟩ := Option.isSome_iff_exists.mp (hchain .dead).1
  have hlookup : ∀ out, (d.lookupRecords fm out q).rcode =
      (d.resolveExternal out name q.qtype).rcode := by
    intro out
    unfold lookupRecords
    simp only [hq.1, if_pos hq.2]
    exact (hchain out).2
  rw [replyTo_rcode_iff, ne_eq, replyTo_rcode_iff, hlookup, hlookup]
  simp only [resolveExternal, hnetwork, hlive]
  exact ⟨rfl, by simp [lookupIP]⟩

end OneQuestion

/-! ### Series of questions -/

section Series

variable {fm}

theorem answers_inside {d : Resolver} {qs : List Question} (h : StaysInside fm d qs)
    (out : Outside) : answers fm out d qs = answers fm .dead d qs := by
  induction qs generalizing d with
  | nil => rfl
  | cons q qs ih =>
    simp only [answers, serveDNS]
    rw [(replyTo_inside h.1 out).1, ih h.2]

/-- If a resolver cut off from the outside answers like another one does, whatever the outside
says, then both keep inside. -/
theorem staysInside_of_answers {d d' : Resolver} (hd : d.cancelled = false)
    (hd' : d'.cancelled = false)
    (h : ∀ out qs, answers fm .dead d qs = answers fm out d' qs) (qs : List Question) :
    StaysInside fm d qs ∧ StaysInside fm d' qs := by
  induction qs generalizing d d' with
  | nil => exact ⟨trivial, trivial⟩
  | cons q qs ih =>
    have hreply : ∀ out, d.replyTo fm .dead (asked fm q) = d'.replyTo fm out (asked fm q) :=
      fun out => (List.cons.inj (h out [q])).1
    obtain ⟨hrest, hrest'⟩ :=
      @ih (d.rotate (asked fm q)) (d'.rotate (asked fm q)) hd hd'
        fun out qs => (List.cons.inj (h out (q :: qs))).2
    -- the second resolver: its reply would show whether the outside answers
    have hin' : d'.outside fm (asked fm q) = none := by
      rcases hout : d'.outside fm (asked fm q) with _ | name
      · rfl
      · obtain ⟨hdead, hok⟩ := replyTo_outside hout hd'
        exact absurd (by rw [← hreply, hreply .dead, hdead]) hok
    -- the first one: it would fail where the second does not
    have hin : d.outside fm (asked fm q) = none := by
      rcases hout : d.outside fm (asked fm q) with _ | name
      · rfl
      · refine absurd ?_ (replyTo_inside hin' .dead).2
        rw [← hreply]
        exact (replyTo_outside hout hd).1
    exact ⟨⟨hin, hrest⟩, hin', hrest'⟩

/-- **A cancelled resolver answers like a live one** if and only if the two would answer alike
were both live, and no series of questions to the live one leads outside. -/
theorem answers_cancelled_iff {d d' : Resolver} (hd : d.cancelled = true)
    (hd' : d'.cancelled = false) : (∀ out qs, answers fm out d qs = answers fm out d' qs) ↔
      (∀ out qs, answers fm out d.live qs = answers fm out d' qs) ∧ ∀ qs, StaysInside fm d' qs := by
  have hseen : ∀ out qs, answers fm out d qs = answers fm .dead d.live qs := by
    intro out qs
    rw [answers_live, seen, if_pos hd]
  simp only [hseen]
  constructor
  · intro h
    have hinside := staysInside_of_answers (rfl : d.live.cancelled = false) hd' h
    refine ⟨fun out qs => ?_, fun qs => (hinside qs).2⟩
    rw [answers_inside (hinside qs).1 out]
    exact h out qs
  · rintro ⟨hlive, hinside⟩ out qs
    rw [hlive, answers_inside (hinside qs) out]

end Series

end Resolver

end Netbird.Dns
