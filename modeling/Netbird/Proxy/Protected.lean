/-
Requests that are handled while the mapping worker changes the tables.

A request reads two tables at two moments: `Protect` the protection of its host, and later
`findTargetForRequest` the HTTP mapping.  The worker changes them in separate steps, a cleanup and
a setup both the protection first.  `ops` lists the steps of one message, and `of_process` says
that together they do to the tables what the message does.  Both tables are kept here with the
service mapping that each entry was made from.

The protection in force for a host is that of the mapping that is *announced* for it: the one in
the table of mappings, except that after the first step of a pair the second is anticipated
(`Inv.announced`).  A request is forwarded to a protected service without having passed its
protection exactly if the mapping it is routed to is not protected like the one announced when it
was checked (`protected_iff`).  This happens in three ways:

* it was checked between the two steps of a cleanup, when the host is unknown to `Protect`;
* the mapping was added after the check;
* the protection was changed by a new mapping after the check.
-/
import Netbird.Lib.Runs
import Netbird.Proxy.Auth
import Netbird.Proxy.Tables

namespace Netbird.Proxy

open Server Command Keyed

/-! ### The steps of a message -/

/-- A step of the worker on one of the two tables. -/
inductive Op
  | removeDomain (host : String)
  | removeMapping (host : String)
  | addDomain (m : ProxyMapping)
  | addMapping (m : ProxyMapping)

/-- The protected domains and the HTTP mappings, by host, with the service mapping an entry was
made from. -/
structure Served where
  domains : StringMap ProxyMapping := ∅
  mappings : StringMap ProxyMapping := ∅

def Served.apply (t : Served) : Op → Served
  | .removeDomain host => { t with domains := t.domains.erase host }
  | .removeMapping host => { t with mappings := t.mappings.erase host }
  | .addDomain m => { t with domains := t.domains.insert m.domain m }
  | .addMapping m => { t with mappings := t.mappings.insert m.domain m }

def cleanupOps (m : ProxyMapping) : List Op :=
  if m.domain ≠ "" then [.removeDomain m.domain, .removeMapping m.domain] else []

variable (cfg : Config)

def setupOps (m : ProxyMapping) : List Op :=
  match m.mode, m.path, domainConfig cfg m with
  | .http, _ :: _, .ok _ => [.addDomain m, .addMapping m]
  | _, _, _ => []

/-- The steps that undo a setup, if it fails in this state. -/
def undoOps (out : Outside) (m : ProxyMapping) (s : Server) : List Op :=
  match (Server.setupMappingRoutes cfg out m s).1 with
  | .ok _ => []
  | .error _ => cleanupOps m

/-- The steps of one message, in the order of `addMapping`, `modifyMapping` and
`removeMapping`. -/
def ops (out : Outside) (msg : Message) (s : Server) : List Op :=
  let m := msg.mapping
  let last := (s.loadMapping m.id).getD m
  match msg.type with
  | .created =>
    match Server.addPeer out m.accountId (serviceKeyForMapping m) m.id s with
    | (.ok _, s) => setupOps cfg m ++ undoOps cfg out m s
    | (.error _, _) => []
  | .modified =>
    cleanupOps last ++ (setupOps cfg m ++
      undoOps cfg out m (Server.cleanupMappingRoutes cfg last s))
  | .removed => cleanupOps last

/-! ### The steps do what the message does -/

/-- The tables of the proxy, seen through the service mappings they were made from. -/
structure Served.Of (t : Served) (s : Server) : Prop where
  domains : ∀ host, (t.domains.lookup host).map (domainConfig cfg) =
    (s.domains.lookup host).map .ok
  mappings : ∀ host, (t.mappings.lookup host).map (protoToMapping cfg) = s.mappings.lookup host

variable {cfg} {t : Served} {s s' : Server} {out : Outside} {m : ProxyMapping} {msg : Message}

/-- Neither of the two tables is changed. -/
def SameHTTP (s s' : Server) : Prop :=
  s'.domains = s.domains ∧ s'.mappings = s.mappings

instance : Std.Refl SameHTTP := ⟨fun _ => ⟨rfl, rfl⟩⟩

instance : IsTrans Server SameHTTP := ⟨fun _ _ _ h h' => ⟨h'.1.trans h.1, h'.2.trans h.2⟩⟩

theorem sameHTTP_onRouter (s : Server) (key : Option ℕ) (f : Router → Router) :
    SameHTTP s (s.onRouter key f) :=
  ⟨(sameBesideRouters_onRouter s key f).domains, (sameBesideRouters_onRouter s key f).mappings⟩

theorem Served.Of.congr (h : t.Of cfg s) (hsame : SameHTTP s s') : t.Of cfg s' :=
  ⟨by rw [hsame.1]; exact h.domains, by rw [hsame.2]; exact h.mappings⟩

theorem Served.Of.removeDomain (h : t.Of cfg s) (host : String) :
    (t.apply (.removeDomain host)).Of cfg (s.removeDomain host) where
  domains := fun host' => by
    simp only [apply, Server.removeDomain, Keyed.lookup_erase_ite]
    split
    · rfl
    · exact h.domains host'
  mappings := h.mappings

theorem Served.Of.removeMapping (h : t.Of cfg s) (host : String) :
    (t.apply (.removeMapping host)).Of cfg (s.removeHTTPMapping host) where
  domains := h.domains
  mappings := fun host' => by
    simp only [apply, removeHTTPMapping, Keyed.lookup_erase_ite]
    split
    · rfl
    · exact h.mappings host'

theorem Served.Of.addDomain (h : t.Of cfg s) {config : DomainConfig}
    (hconfig : domainConfig cfg m = .ok config) :
    (t.apply (.addDomain m)).Of cfg (s.addDomain m.domain config) where
  domains := fun host => by
    simp only [apply, Server.addDomain, Keyed.lookup_insert_ite]
    split
    · simp [hconfig]
    · exact h.domains host
  mappings := h.mappings

theorem Served.Of.addMapping (h : t.Of cfg s) :
    (t.apply (.addMapping m)).Of cfg (s.addHTTPMapping (protoToMapping cfg m)) where
  domains := h.domains
  mappings := fun host => by
    simp only [apply, addHTTPMapping, Keyed.lookup_insert_ite]
    have hhost : (protoToMapping cfg m).host = m.domain := rfl
    rw [hhost]
    split
    · rfl
    · exact h.mappings host

theorem Served.Of.cleanup (h : t.Of cfg s) (m : ProxyMapping) :
    ((cleanupOps m).foldl apply t).Of cfg (cleanupMappingRoutes cfg m s) := by
  -- the ports and the relay come after the two tables, and leave them alone
  have hrest : ∀ s₁ : Server, ∀ ports : List ℕ, SameHTTP s₁
      ((ports.foldl (cleanupPort cfg m) (s₁.deleteSvcPorts m.id)).removeUDPRelay m.id) :=
    fun s₁ ports =>
      have hsame := sameBesideRouters_foldl_cleanupPort cfg m ports (s₁.deleteSvcPorts m.id)
      ⟨hsame.domains, hsame.mappings⟩
  rw [cleanupOps, cleanupMappingRoutes]
  by_cases hdomain : m.domain = ""
  · simp only [hdomain, ne_eq, not_true_eq_false, if_false]
    exact h.congr (hrest s _)
  · simp only [hdomain, ne_eq, not_false_eq_true, if_true]
    refine ((h.removeDomain m.domain).removeMapping m.domain).congr ?_
    exact trans_of SameHTTP (sameHTTP_onRouter _ _ _) (hrest _ _)

section Setup

open Command

theorem ensures_onRouter (key : Option ℕ) (f : Router → Router) :
    Ensures SameHTTP (write (·.onRouter key f) : Command Server String Unit) :=
  .write fun _ => sameHTTP_onRouter _ _ _

theorem ensures_routerForPort (port : ℕ) : Ensures SameHTTP (routerForPort cfg out port) := by
  intro s
  rw [routerForPort]
  split
  · exact ⟨rfl, rfl⟩
  · split <;> exact ⟨rfl, rfl⟩

theorem ensures_setupTCPMapping : Ensures SameHTTP (setupTCPMapping cfg out m) := by
  refine .bind (.mapError _ (.ofResult _)) fun port => ?_
  split
  · exact .fail _
  · split
    · exact .fail _
    · refine .bind (.mapError _ (ensures_routerForPort port)) fun _ => ?_
      exact .bind (ensures_onRouter _ _) fun _ => .write fun _ => ⟨rfl, rfl⟩

theorem ensures_setupUDPMapping : Ensures SameHTTP (setupUDPMapping cfg out m) := by
  refine .bind (.mapError _ (.ofResult _)) fun port => ?_
  split
  · exact .fail _
  · refine .mapError _ ?_
    rw [addUDPRelay]
    split
    · exact .fail _
    · refine .bind (.write fun _ => ⟨rfl, rfl⟩) fun _ => ?_
      split
      · exact .fail _
      · refine .bind (.reads _) fun client => ?_
        split
        · exact .write fun _ => ⟨rfl, rfl⟩
        · exact .fail _

theorem ensures_setupTLSMapping : Ensures SameHTTP (setupTLSMapping cfg out m) := by
  refine .bind (.mapError _ (.ofResult _)) fun port => ?_
  split
  · exact .fail _
  · split
    · exact .fail _
    · refine .bind (.mapError _ (ensures_routerForPort port)) fun _ => ?_
      refine .bind (ensures_onRouter _ _) fun _ => .write fun s => ?_
      split <;> exact ⟨rfl, rfl⟩

end Setup

theorem Served.Of.setupHTTP (h : t.Of cfg s) (hmode : m.mode = .http) :
    ((setupOps cfg m).foldl apply t).Of cfg (setupHTTPMapping cfg m s).2 := by
  simp only [setupOps, setupHTTPMapping, hmode]
  rcases hpath : m.path with _ | ⟨p, ps⟩
  · exact h
  · have hroute : t.Of cfg (s.onRouter none (·.addRoute cfg.caseMap m.domain (httpRoute m))) :=
      h.congr (sameHTTP_onRouter _ _ _)
    rcases hconfig : domainConfig cfg m with e | config
    · exact hroute
    · exact (hroute.addDomain hconfig).addMapping

theorem Served.Of.setup (h : t.Of cfg s) (out : Outside) (m : ProxyMapping) :
    ((setupOps cfg m).foldl apply t).Of cfg (setupMappingRoutes cfg out m s).2 := by
  have hl4 : m.mode ≠ .http → setupOps cfg m = [] := by
    intro hmode
    simp only [setupOps]
    split
    · next hm _ _ => exact absurd hm hmode
    · rfl
  rw [setupMappingRoutes]
  cases hmode : m.mode with
  | http => exact h.setupHTTP hmode
  | tcp =>
    rw [hl4 (by simp [hmode])]
    exact h.congr (ensures_setupTCPMapping s)
  | udp =>
    rw [hl4 (by simp [hmode])]
    exact h.congr (ensures_setupUDPMapping s)
  | tls =>
    rw [hl4 (by simp [hmode])]
    exact h.congr (ensures_setupTLSMapping s)

/-- A setup, and what undoes it if it fails. -/
theorem Served.Of.setup_undo (h : t.Of cfg s) (out : Outside) (m : ProxyMapping)
    {undo : String → Command Server String Unit}
    (hundo : ∀ err s, SameHTTP (cleanupMappingRoutes cfg m s) (undo err s).2) :
    ((setupOps cfg m ++ undoOps cfg out m s).foldl apply t).Of cfg
      ((attempt (setupMappingRoutes cfg out m) >>= fun
        | .ok () => .write (·.storeMapping m)
        | .error err => undo err) s).2 := by
  have hsetup := h.setup out m
  rw [List.foldl_append, undoOps]
  rcases hresult : setupMappingRoutes cfg out m s with ⟨_ | _, s₁⟩
  · rw [hresult] at hsetup
    rw [attempt_bind_of_error hresult]
    exact (hsetup.cleanup m).congr (hundo _ _)
  · rw [hresult] at hsetup
    rw [attempt_bind_of_ok hresult]
    exact hsetup.congr ⟨rfl, rfl⟩

/-- **The steps of a message do to the two tables what the message does.** -/
theorem of_process (h : t.Of cfg s) (out : Outside) (msg : Message) :
    ((ops cfg out msg s).foldl Served.apply t).Of cfg (process cfg out msg s).2 := by
  obtain ⟨type, m⟩ := msg
  cases type with
  | created =>
    have hsame : SameHTTP s (addPeer out m.accountId (serviceKeyForMapping m) m.id s).2 := by
      rw [addPeer]
      split <;> exact ⟨rfl, rfl⟩
    simp only [ops, process]
    rcases hpeer : addPeer out m.accountId (serviceKeyForMapping m) m.id s with ⟨_ | _, s₁⟩
    · rw [hpeer] at hsame
      rw [addMapping, bind_of_error (mapError_of_error hpeer)]
      exact h.congr hsame
    · rw [hpeer] at hsame
      rw [addMapping, bind_of_ok (mapError_of_ok hpeer)]
      exact (h.congr hsame).setup_undo out m fun _ _ => ⟨rfl, rfl⟩
  | modified =>
    simp only [ops, process]
    rw [List.foldl_append, modifyMapping, write_bind]
    exact (h.cleanup _).setup_undo out m fun _ _ => ⟨rfl, rfl⟩
  | removed =>
    have hpeer : t.Of cfg ((s.removePeer m.accountId (serviceKeyForMapping m)).deleteMapping m.id) :=
      h.congr ⟨rfl, rfl⟩
    exact hpeer.cleanup _

/-! ### Requests among the steps -/

/-- A request that `Protect` has let through and that is not routed yet. -/
structure InFlight where
  request : Request
  /-- the mapping whose protection it was checked against, if its host had one -/
  checked : Option ProxyMapping
  /-- the mapping that was announced for its host at that moment -/
  announced : Option ProxyMapping

/-- The proxy with its worker in the middle of a message: `server` is the state that the message
leads to, `served` are the tables as they are now. -/
structure System where
  server : Server := {}
  served : Served := {}
  pending : List Op := []
  inFlight : AList (fun _ : ℕ => InFlight) := ∅

inductive Event
  /-- the worker takes the next message, if it is done with the one before -/
  | receive (out : Outside) (msg : Message)
  /-- the worker makes its next step -/
  | work
  /-- a new request reaches `Protect` -/
  | check (id : ℕ) (r : Request)
  /-- a request that was let through reaches `findTargetForRequest` -/
  | route (id : ℕ)

namespace System

/-- The mapping of a host once the pair of steps that the worker is in is done. -/
def announced (s : System) (host : String) : Option ProxyMapping :=
  match s.pending with
  | .removeMapping h :: _ => if host = h then none else s.served.mappings.lookup host
  | .addMapping m :: _ => if host = m.domain then some m else s.served.mappings.lookup host
  | _ => s.served.mappings.lookup host

variable (cfg : Config)

/-- `Protect`, with the protection that it found for the host. -/
def protect (r : Request) (checked : Option ProxyMapping) : Bool :=
  match checked with
  | none => true
  | some m =>
    match domainConfig cfg m with
    | .ok config => lets r config
    | .error _ => false

def step (s : System) : Event → System
  | .receive out msg =>
    if s.pending = [] then
      { s with server := (Server.process cfg out msg s.server).2
               pending := ops cfg out msg s.server }
    else s
  | .work =>
    match s.pending with
    | [] => s
    | op :: rest => { s with served := s.served.apply op, pending := rest }
  | .check id r =>
    let checked := s.served.domains.lookup (requestHost cfg r)
    if (s.inFlight.lookup id).isNone ∧ protect cfg r checked then
      { s with inFlight := s.inFlight.insert id
                ⟨r, checked, s.announced (requestHost cfg r)⟩ }
    else s
  | .route id => { s with inFlight := s.inFlight.erase id }

/-- The request that is forwarded when it is routed, and the service it is forwarded to. -/
def forwarded (s : System) (id : ℕ) : Option (InFlight × ProxyMapping) :=
  (s.inFlight.lookup id).bind fun f =>
    (s.served.mappings.lookup (requestHost cfg f.request)).bind fun m =>
      if (findTarget (protoToMapping cfg m) f.request.path).isSome then some (f, m) else none

end System

/-- The request was checked against the protection of the service, and passed. -/
def Passed (cfg : Config) (f : InFlight) (m : ProxyMapping) : Prop :=
  ∃ c config, f.checked = some c ∧ domainConfig cfg c = .ok config ∧
    domainConfig cfg m = .ok config ∧ lets f.request config

/-- The event does not forward a request to a protected service that it has not passed. -/
def Safe (cfg : Config) (s : System) (e : Event) : Prop :=
  ∀ id f m, e = .route id → s.forwarded cfg id = some (f, m) → IsProtected cfg m → Passed cfg f m

/-- A request that is routed to a protected service, because one of its paths begins the
request's, finds it protected like the mapping that was announced when it was checked. -/
def InTime (cfg : Config) (s : System) (e : Event) : Prop :=
  ∀ id f m, e = .route id → s.inFlight.lookup id = some f →
    s.served.mappings.lookup (requestHost cfg f.request) = some m →
    (∃ p ∈ (protoToMapping cfg m).paths, p.toList <+: f.request.path.toList) →
    IsProtected cfg m → ∃ c, f.announced = some c ∧ domainConfig cfg c = domainConfig cfg m

/-! ### The worker's steps come in pairs -/

/-- Both tables are changed for a host, the protection first. -/
inductive Paired : List Op → Prop
  | nil : Paired []
  | remove (host : String) {rest : List Op} (h : Paired rest) :
      Paired (.removeDomain host :: .removeMapping host :: rest)
  | add (m : ProxyMapping) {rest : List Op} (h : Paired rest) :
      Paired (.addDomain m :: .addMapping m :: rest)

theorem Paired.append {l l' : List Op} (h : Paired l) (h' : Paired l') : Paired (l ++ l') := by
  induction h with
  | nil => exact h'
  | remove host _ ih => exact .remove host ih
  | add m _ ih => exact .add m ih

theorem paired_cleanupOps (m : ProxyMapping) : Paired (cleanupOps m) := by
  rw [cleanupOps]
  split
  · exact .remove m.domain .nil
  · exact .nil

theorem paired_setupOps (m : ProxyMapping) : Paired (setupOps cfg m) := by
  rw [setupOps]
  split
  · exact .add m .nil
  · exact .nil

theorem paired_undoOps (out : Outside) (m : ProxyMapping) (s : Server) :
    Paired (undoOps cfg out m s) := by
  rw [undoOps]
  split
  · exact .nil
  · exact paired_cleanupOps m

theorem paired_ops (out : Outside) (msg : Message) (s : Server) : Paired (ops cfg out msg s) := by
  simp only [ops]
  split
  · split
    · exact (paired_setupOps _).append (paired_undoOps _ _ _)
    · exact .nil
  · exact (paired_cleanupOps _).append ((paired_setupOps _).append (paired_undoOps _ _ _))
  · exact paired_cleanupOps _

/-- Where the worker is: between two pairs, or between the two steps of one. -/
inductive Halfway : List Op → Prop
  | between {l : List Op} (h : Paired l) : Halfway l
  | removing (host : String) {rest : List Op} (h : Paired rest) :
      Halfway (.removeMapping host :: rest)
  | adding (m : ProxyMapping) {rest : List Op} (h : Paired rest) : Halfway (.addMapping m :: rest)

/-- **The protection in force is that of the announced mapping**, and the requests in flight were
checked against it. -/
structure Inv (cfg : Config) (s : System) : Prop where
  halfway : Halfway s.pending
  announced : ∀ host, s.served.domains.lookup host = s.announced host
  inFlight : ∀ id f, s.inFlight.lookup id = some f →
    f.checked = f.announced ∧ System.protect cfg f.request f.checked
  refines : (s.pending.foldl Served.apply s.served).Of cfg s.server

namespace Inv

variable {s : System}

theorem announced_of_paired (h : Paired s.pending) (host : String) :
    s.announced host = s.served.mappings.lookup host := by
  rw [System.announced]
  rcases h' : s.pending with _ | ⟨op, rest⟩
  · rfl
  · rw [h'] at h
    cases h <;> rfl

variable (hi : Inv cfg s)

include hi

theorem receive (out : Outside) (msg : Message) : Inv cfg (s.step cfg (.receive out msg)) := by
  rw [System.step]
  split
  · next hdone =>
    have hrefines : s.served.Of cfg s.server := by
      have h := hi.refines
      rwa [hdone] at h
    refine ⟨.between (paired_ops out msg s.server), fun host => ?_, hi.inFlight,
      of_process hrefines out msg⟩
    have hbefore : s.announced host = s.served.mappings.lookup host :=
      announced_of_paired (hdone ▸ .nil) host
    rw [announced_of_paired (by exact paired_ops out msg s.server), hi.announced, hbefore]
  · exact hi

/-- One step of the worker: the first of a pair makes the announcement, the second keeps it. -/
theorem work : Inv cfg (s.step cfg .work) := by
  rw [System.step]
  rcases hpending : s.pending with _ | ⟨op, rest⟩
  · exact hi
  · have hrefines : (rest.foldl Served.apply (s.served.apply op)).Of cfg s.server := by
      have h := hi.refines
      rwa [hpending] at h
    have hannounced := hi.announced
    have hhalfway := hi.halfway
    simp only [System.announced, hpending] at hannounced
    rw [hpending] at hhalfway
    cases hhalfway with
    | between h =>
      cases h with
      | remove host h =>
        refine ⟨.removing host h, fun host' => ?_, hi.inFlight, hrefines⟩
        simp only [System.announced, Served.apply, lookup_erase_ite, hannounced]
      | add m h =>
        refine ⟨.adding m h, fun host' => ?_, hi.inFlight, hrefines⟩
        simp only [System.announced, Served.apply, lookup_insert_ite, hannounced]
    | removing host h =>
      refine ⟨.between h, fun host' => ?_, hi.inFlight, hrefines⟩
      rw [announced_of_paired (by exact h)]
      simp only [Served.apply, lookup_erase_ite, hannounced]
    | adding m h =>
      refine ⟨.between h, fun host' => ?_, hi.inFlight, hrefines⟩
      rw [announced_of_paired (by exact h)]
      simp only [Served.apply, lookup_insert_ite, hannounced]

theorem check (id : ℕ) (r : Request) : Inv cfg (s.step cfg (.check id r)) := by
  simp only [System.step]
  split
  · next hlets =>
    refine ⟨hi.halfway, hi.announced, fun id' f hf => ?_, hi.refines⟩
    simp only [lookup_insert_ite] at hf
    split at hf
    · cases hf
      exact ⟨hi.announced _, hlets.2⟩
    · exact hi.inFlight id' f hf
  · exact hi

theorem route (id : ℕ) : Inv cfg (s.step cfg (.route id)) := by
  refine ⟨hi.halfway, hi.announced, fun id' f hf => ?_, hi.refines⟩
  simp only [System.step, lookup_erase_ite] at hf
  split at hf
  · cases hf
  · exact hi.inFlight id' f hf

theorem step (e : Event) : Inv cfg (s.step cfg e) := by
  cases e with
  | receive out msg => exact hi.receive out msg
  | work => exact hi.work
  | check id r => exact hi.check id r
  | route id => exact hi.route id

omit hi

theorem init (cfg : Config) : Inv cfg {} where
  halfway := .between .nil
  announced := fun _ => rfl
  inFlight := fun _ _ h => by cases h
  refines := ⟨fun _ => rfl, fun _ => rfl⟩

end Inv

/-! ### Whole runs -/

theorem forwarded_eq_some {s : System} {id : ℕ} {f : InFlight} {m : ProxyMapping} :
    s.forwarded cfg id = some (f, m) ↔ s.inFlight.lookup id = some f ∧
      s.served.mappings.lookup (requestHost cfg f.request) = some m ∧
      ∃ p ∈ (protoToMapping cfg m).paths, p.toList <+: f.request.path.toList := by
  rw [← findTarget_isSome_iff, System.forwarded]
  simp only [Option.bind_eq_some_iff, Option.ite_none_right_eq_some, Option.some.injEq,
    Prod.mk.injEq]
  constructor
  · rintro ⟨f', hf, m', hm, htarget, rfl, rfl⟩
    exact ⟨hf, hm, htarget⟩
  · rintro ⟨hf, hm, htarget⟩
    exact ⟨f, hf, m, hm, htarget, rfl, rfl⟩

theorem passed_iff {f : InFlight} {m : ProxyMapping} (hchecked : f.checked = f.announced)
    (hlets : System.protect cfg f.request f.checked) :
    Passed cfg f m ↔ ∃ c, f.announced = some c ∧ domainConfig cfg c = domainConfig cfg m := by
  rw [Passed, hchecked]
  constructor
  · rintro ⟨c, config, hc, hconfig, hm, -⟩
    exact ⟨c, hc, hconfig.trans hm.symm⟩
  · rintro ⟨c, hc, hsame⟩
    rw [hchecked, hc] at hlets
    simp only [System.protect] at hlets
    rcases hconfig : domainConfig cfg c with e | config
    · simp [hconfig] at hlets
    · exact ⟨c, config, hc, hconfig, hsame ▸ hconfig, by simpa [hconfig] using hlets⟩

theorem safe_iff_inTime {s : System} (hi : Inv cfg s) (e : Event) :
    Safe cfg s e ↔ InTime cfg s e := by
  constructor
  · intro h id f m he hf hm hpath hprot
    obtain ⟨hchecked, hlets⟩ := hi.inFlight id f hf
    exact (passed_iff hchecked hlets).mp
      (h id f m he (forwarded_eq_some.mpr ⟨hf, hm, hpath⟩) hprot)
  · intro h id f m he hforward hprot
    obtain ⟨hf, hm, hpath⟩ := forwarded_eq_some.mp hforward
    obtain ⟨hchecked, hlets⟩ := hi.inFlight id f hf
    exact (passed_iff hchecked hlets).mpr (h id f m he hf hm hpath hprot)

/-- **When a protected service is served unprotected.**  For every interleaving of messages, steps
of the worker and requests: every request that is forwarded to a protected service has passed its
protection if and only if every request that is routed to a protected service finds it protected
like the mapping that was announced for the host when the request was checked. -/
theorem protected_iff (cfg : Config) (events : List Event) :
    Runs.Along (System.step cfg) (Safe cfg) {} events ↔
      Runs.Along (System.step cfg) (InTime cfg) {} events :=
  Runs.Along.congr (Inv cfg) (fun _ e hi => safe_iff_inTime hi e) (fun _ e hi _ => hi.step e)
    (Inv.init cfg)

/-! ### A run -/

def gapConfig : Config where
  caseMap := .ascii
  toUpper := id
  splitHostPort := fun _ => none
  parseURL := some
  parsePrefix := fun _ => none
  decodeString := fun _ => .ok (List.replicate 32 0)
  mainPort := 443
  wireguardPort := 0
  maxDialTimeout := 0
  maxSessionIdleTimeout := 0
  forwardedProto := "https"
  crowdsec := false

/-- A service behind a password. -/
def lockedService : ProxyMapping :=
  { id := "app", accountId := "account", domain := "app.example", mode := .http
    path := [{ path := "/", target := "http://10.0.0.2" }], auth := { password := true } }

/-- A request without any credentials. -/
def stranger : Request := { host := "app.example", path := "/" }

/-- The service is created, and then modified without any change; the request comes after the
first step of the modification. -/
def gapEvents : List Event :=
  [.receive .ideal ⟨.created, lockedService⟩, .work, .work,
    .receive .ideal ⟨.modified, lockedService⟩, .work, .check 0 stranger]

/-- The stranger is forwarded to the service behind the password. -/
theorem stranger_forwarded_in_gap :
    (gapEvents.foldl (System.step gapConfig) {}).forwarded gapConfig 0 =
      some (⟨stranger, none, none⟩, lockedService) ∧ IsProtected gapConfig lockedService ∧
    (∃ config, domainConfig gapConfig lockedService = .ok config ∧ lets stranger config = false) ∧
    ¬ Safe gapConfig (gapEvents.foldl (System.step gapConfig) {}) (.route 0) := by
  have hforwarded : (gapEvents.foldl (System.step gapConfig) {}).forwarded gapConfig 0 =
      some (⟨stranger, none, none⟩, lockedService) := rfl
  have hprotected : IsProtected gapConfig lockedService := by decide
  refine ⟨hforwarded, hprotected, ⟨_, rfl, rfl⟩, fun h => ?_⟩
  obtain ⟨c, config, hc, -⟩ := h 0 _ _ rfl hforwarded hprotected
  cases hc

end Netbird.Proxy
