/-
Whether the tables of the proxy follow the mappings it was sent.

The reference is a proxy that was just started and given, as new services, the last mapping of
every service that is still there.  Management sends mappings with a domain, one service per
domain and per TCP port, and does not change the mode of a service.

A run follows the mappings exactly if no message diverges (`tables_follow_iff`), and `Diverges` says
of each message, given the mappings before it, whether it does.  The reasons are four:

* the fallback of a TCP service is never cleaned up, because cleanup looks for a route by the
  domain whenever the service has one;
* modifying a service leaves its registration as it is;
* creating a service again does not clean up after the mapping it replaces;
* removing or modifying an unknown service works with the mapping in the message.
-/
import Netbird.Lib.Owned
import Netbird.Lib.Runs
import Netbird.Proxy.Tables

namespace Netbird.Proxy

open Owned Server List Option

/-! ### The services that are there -/

/-- The last mappings of the services that are there after the message. -/
def nextLive (live : List ProxyMapping) (msg : Message) : List ProxyMapping :=
  let others := live.filter (·.id ≠ msg.mapping.id)
  match msg.type with
  | .created | .modified => others ++ [msg.mapping]
  | .removed => others

def fresh (cfg : Config) (live : List ProxyMapping) : Server :=
  Server.processMappings cfg {} (live.map fun m => (.ideal, ⟨.created, m⟩))

/-- The proxy, and the mappings it should have. -/
structure Progress where
  server : Server := {}
  live : List ProxyMapping := []

/-- The next message is processed. -/
def Progress.step (cfg : Config) (p : Progress) (msg : Outside × Message) : Progress :=
  { server := (Server.process cfg msg.1 msg.2 p.server).2, live := nextLive p.live msg.2 }

/-- Services that do not share a domain or a TCP port. -/
structure Separate (x y : ProxyMapping) : Prop where
  domain : x.domain ≠ y.domain
  port : x.mode = .tcp → y.mode = .tcp → x.listenPort ≠ y.listenPort

instance : Std.Symm Separate :=
  ⟨fun _ _ h => ⟨h.domain.symm, fun hx hy => (h.port hy hx).symm⟩⟩

/-- What management guarantees about a message, and that setting it up succeeds. -/
structure Guaranteed (cfg : Config) (p : Progress) (msg : Outside × Message) : Prop where
  domain : msg.2.mapping.domain ≠ ""
  mode : ∀ x ∈ p.live, x.id = msg.2.mapping.id → x.mode = msg.2.mapping.mode
  separate : (nextLive p.live msg.2).Pairwise Separate
  succeeds : (Server.process cfg msg.1 msg.2 p.server).1 = .ok ()

/-- The tables are those of a proxy that was just given the services. -/
def Follows (cfg : Config) (p : Progress) : Prop :=
  ∀ k, p.server.view k = (fresh cfg p.live).view k

/-- The registration of the service is not the one its mapping asks for. -/
def OtherClient (old m : ProxyMapping) : Prop :=
  old.accountId ≠ m.accountId ∨ (old.mode = .http ∨ old.mode = .tls) ∧ old.domain ≠ m.domain

/-- Whether the tables are wrong once a message is processed, if they were right before. -/
def Diverges (live : List ProxyMapping) (msg : Message) : Prop :=
  let m := msg.mapping
  match msg.type, live.find? (·.id = m.id) with
  | .created, none => False
  | .created, some old => OtherClient old m ∨ (old.mode = .http ∧ old.path ≠ [] ∧ m.path = []) ∨
      ((old.mode = .tcp ∨ old.mode = .tls) ∧ old.listenPort ≠ m.listenPort)
  | .modified, none => True
  | .modified, some old => OtherClient old m ∨ (old.mode = .tcp ∧ old.listenPort ≠ m.listenPort)
  | .removed, none => ∃ x ∈ live, x.domain = m.domain ∧
      ((x.mode = .http ∧ x.path ≠ []) ∨ ((x.mode = .http ∨ x.mode = .tls) ∧
        (m.mode = .http ∨ m.mode = .tls) ∧ x.accountId = m.accountId))
  | .removed, some old => OtherClient old m ∨ old.mode = .tcp

/-! ### The entries of separate services -/

section Entries

variable {cfg : Config} {x y m old : ProxyMapping} {k : Slot}

theorem isSome_entry_iff (hvalid : Valid cfg m) : (entry cfg m k).isSome ↔
    match k with
    | .sni router host id => host = cfg.caseMap.toLower m.domain ∧ id = m.id ∧
        (m.mode = .http ∧ router = none ∧ m.path ≠ [] ∨ m.mode = .tls ∧ router = m.router cfg)
    | .fallback router => m.mode = .tcp ∧ router = m.router cfg
    | .relay id => m.mode = .udp ∧ id = m.id
    | .mapping host | .domain host => m.mode = .http ∧ m.path ≠ [] ∧ host = m.domain
    | .client account key => account = m.accountId ∧ key = serviceKeyForMapping m := by
  cases k with
  | sni router host id =>
    simp only [entry]
    cases m.mode <;> grind
  | fallback router => simp [entry]
  | relay id => simp [entry]
  | mapping host => simp [entry]
  | domain host =>
    simp only [entry]
    by_cases h : m.mode = .http ∧ m.path ≠ [] ∧ host = m.domain
    · obtain ⟨config, hconfig⟩ := hvalid.config h.1 h.2.1
      simp [h, hconfig, Except.toOption]
    · simp [h]
  | client account key => simp [entry]

theorem entry_client :
    entry cfg m (.client m.accountId (serviceKeyForMapping m)) = some (.service m.id) := by
  simp [entry]

theorem of_entry_client {account id : String} {key : ServiceKey}
    (h : entry cfg x (.client account key) = some (.service id)) :
    x.id = id ∧ x.accountId = account ∧ serviceKeyForMapping x = key := by
  simp only [entry] at h
  split at h
  · next hslot => exact ⟨by simpa using h, hslot.1.symm, hslot.2.symm⟩
  · cases h

theorem entry_fallback (htcp : m.mode = .tcp) :
    entry cfg m (.fallback (m.router cfg)) = some (.route (l4Route cfg m .tcp)) := by
  simp [entry, htcp]

theorem router_inj (hx : Valid cfg x) (hy : Valid cfg y) (hxm : x.mode ≠ .http)
    (hym : y.mode ≠ .http) : x.router cfg = y.router cfg ↔ x.listenPort = y.listenPort := by
  have hxport := hx.port hxm
  have hyport := hy.port hym
  simp only [ProxyMapping.router, Config.routerKey]
  split <;> split <;> simp <;> omega

theorem serviceKey_inj (hmode : x.mode = y.mode) : serviceKeyForMapping x = serviceKeyForMapping y ↔
      ((x.mode = .http ∨ x.mode = .tls) → x.domain = y.domain) ∧
      ((x.mode = .tcp ∨ x.mode = .udp) → x.id = y.id) := by
  simp only [serviceKeyForMapping, ← hmode]
  cases x.mode <;> simp

theorem id_or_domain_of_serviceKey (h : serviceKeyForMapping x = serviceKeyForMapping y) :
    x.id = y.id ∨ x.domain = y.domain ∧ (x.mode = .http ∨ x.mode = .tls) ∧
      (y.mode = .http ∨ y.mode = .tls) := by
  simp only [serviceKeyForMapping] at h
  cases hx : x.mode <;> cases hy : y.mode <;> simp_all

theorem apart_of_separate (hx : Valid cfg x) (hy : Valid cfg y) (hid : x.id ≠ y.id)
    (hsep : Separate x y) : Apart (entry cfg) x y := by
  intro k
  by_contra hboth
  rw [not_or] at hboth
  have hkx := (isSome_entry_iff hx).mp (isSome_iff_ne_none.mpr hboth.1)
  have hky := (isSome_entry_iff hy).mp (isSome_iff_ne_none.mpr hboth.2)
  cases k with
  | sni router host id => exact hid (hkx.2.1.symm.trans hky.2.1)
  | fallback router =>
    have hport := (router_inj hx hy (by simp [hkx.1]) (by simp [hky.1])).mp (hkx.2.symm.trans hky.2)
    exact hsep.port hkx.1 hky.1 hport
  | relay id => exact hid (hkx.2.symm.trans hky.2)
  | mapping host | domain host => exact hsep.domain (hkx.2.2.symm.trans hky.2.2)
  | client account key =>
    exact (id_or_domain_of_serviceKey (hkx.2.symm.trans hky.2)).elim hid fun h => hsep.domain h.1

theorem pairwise_apart {l : List ProxyMapping} (hvalid : ∀ x ∈ l, Valid cfg x)
    (hids : (l.map (·.id)).Nodup) (hsep : l.Pairwise Separate) : l.Pairwise (Apart (entry cfg)) :=
  (hsep.and (pairwise_map.mp hids)).imp_of_mem fun hx hy h =>
    apart_of_separate (hvalid _ hx) (hvalid _ hy) h.2 h.1

/-- What a cleanup clears belongs to the service or to its domain. -/
theorem id_or_domain_of_cleared {ports : List ℕ} (hx : Valid cfg x)
    (hk : (entry cfg x k).isSome) (hcleared : Cleared cfg m ports k) :
    x.id = m.id ∨ x.domain = m.domain := by
  rw [isSome_entry_iff hx] at hk
  cases k with
  | sni router host id => exact .inl (hk.2.1.symm.trans hcleared.2.1)
  | fallback router => exact hcleared.elim
  | relay id => exact .inl (hk.2.symm.trans hcleared)
  | mapping host | domain host => exact .inr (hk.2.2.symm.trans hcleared)
  | client account key => exact hcleared.elim

/-! ### One mapping in the place of another -/

variable (hold : Server.Valid cfg old) (hm : Server.Valid cfg m) (hid : old.id = m.id)
  (hmode : old.mode = m.mode)

include hid hmode in
theorem not_otherClient_iff : ¬ OtherClient old m ↔
    old.accountId = m.accountId ∧ serviceKeyForMapping old = serviceKeyForMapping m := by
  rw [serviceKey_inj hmode, OtherClient]
  tauto

include hold hm hid hmode in
/-- Writing the new mapping over the old one. -/
theorem overwrites_iff : (∀ k, (entry cfg old k).isSome → (entry cfg m k).isSome) ↔
    ¬ (OtherClient old m ∨ (old.mode = .http ∧ old.path ≠ [] ∧ m.path = []) ∨
      ((old.mode = .tcp ∨ old.mode = .tls) ∧ old.listenPort ≠ m.listenPort)) := by
  simp only [isSome_entry_iff hold, isSome_entry_iff hm]
  constructor
  · rintro h (hclient | ⟨hhttp, hpath, hnil⟩ | ⟨hl4, hport⟩)
    · obtain ⟨hacc, hkey⟩ := h (.client old.accountId (serviceKeyForMapping old)) ⟨rfl, rfl⟩
      exact (not_otherClient_iff hid hmode).mpr ⟨hacc, hkey⟩ hclient
    · exact (h (.mapping old.domain) ⟨hhttp, hpath, rfl⟩).2.1 hnil
    · have hne : old.mode ≠ .http := by rcases hl4 with h | h <;> simp [h]
      refine hport ((router_inj hold hm hne (hmode ▸ hne)).mp ?_)
      rcases hl4 with htcp | htls
      · exact (h (.fallback (old.router cfg)) ⟨htcp, rfl⟩).2
      · obtain ⟨-, -, hhttp | htls'⟩ := h (.sni (old.router cfg)
          (cfg.caseMap.toLower old.domain) old.id) ⟨rfl, rfl, .inr ⟨htls, rfl⟩⟩
        · simp [← hmode, htls] at hhttp
        · exact htls'.2
  · intro hnot k hk
    obtain ⟨hclient, hpaths, hports⟩ := not_or.mp hnot |>.imp_right not_or.mp
    obtain ⟨hacc, hkey⟩ := (not_otherClient_iff hid hmode).mp hclient
    have hdomain := ((serviceKey_inj hmode).mp hkey).1
    have hrouter : old.mode = .tcp ∨ old.mode = .tls → old.router cfg = m.router cfg := by
      intro hl4
      have hne : old.mode ≠ .http := by rcases hl4 with h | h <;> simp [h]
      exact (router_inj hold hm hne (hmode ▸ hne)).mpr
        (by_contra fun hport => hports ⟨hl4, hport⟩)
    cases k with
    | sni router host id =>
      obtain ⟨rfl, rfl, ⟨hhttp, hmain, hpath⟩ | ⟨htls, hport⟩⟩ := hk
      · exact ⟨by rw [hdomain (.inl hhttp)], hid,
          .inl ⟨hmode ▸ hhttp, hmain, fun hnil => hpaths ⟨hhttp, hpath, hnil⟩⟩⟩
      · exact ⟨by rw [hdomain (.inr htls)], hid,
          .inr ⟨hmode ▸ htls, hport.trans (hrouter (.inr htls))⟩⟩
    | fallback router => exact ⟨hmode ▸ hk.1, hk.2.trans (hrouter (.inl hk.1))⟩
    | relay id => exact ⟨hmode ▸ hk.1, hk.2.trans hid⟩
    | mapping host | domain host =>
      exact ⟨hmode ▸ hk.1, fun hnil => hpaths ⟨hk.1, hk.2.1, hnil⟩,
        hk.2.2.trans (hdomain (.inl hk.1))⟩
    | client account key => exact ⟨hk.1.trans hacc, hk.2.trans hkey⟩

include hold in
/-- Of the places of a service, its cleanup leaves the registration and a fallback. -/
theorem cleared_of_isSome (hk : (entry cfg old k).isSome) :
    Cleared cfg old ((portsOf cfg old).getD []) k ∨
      k = .client old.accountId (serviceKeyForMapping old) ∨
      (old.mode = .tcp ∧ k = .fallback (old.router cfg)) := by
  rw [isSome_entry_iff hold] at hk
  cases k with
  | sni router host id =>
    refine .inl ⟨hk.1, hk.2.1, ?_⟩
    rcases hk.2.2 with ⟨-, hmain, -⟩ | ⟨htls, hport⟩
    · exact .inl hmain
    · by_cases hmain : old.listenPort.toNat = cfg.mainPort
      · exact .inl (by simp [hport, ProxyMapping.router, Config.routerKey, hmain])
      · exact .inr ⟨old.listenPort.toNat, by simp [portsOf, htls, hmain], hport⟩
  | fallback router => exact .inr (.inr ⟨hk.1, by rw [hk.2]⟩)
  | relay id => exact .inl hk.2
  | mapping host | domain host => exact .inl hk.2.2
  | client account key => exact .inr (.inl (by rw [hk.1, hk.2]))

end Entries

/-! ### The state before a message -/

/-- The tables, and what the proxy keeps to itself, are as the services ask for. -/
structure Right (cfg : Config) (p : Progress) : Prop where
  valid : ∀ x ∈ p.live, Server.Valid cfg x
  domain : ∀ x ∈ p.live, x.domain ≠ ""
  ids : (p.live.map (·.id)).Nodup
  separate : p.live.Pairwise Separate
  view : ∀ k, p.server.view k = held (entry cfg) p.live k
  stored : ∀ id, p.server.lastMappings.lookup id = p.live.find? (·.id = id)
  ports : ∀ id, p.server.svcPorts.lookup id = (p.live.find? (·.id = id)).bind (Server.portsOf cfg)

/-- After the message, the tables have the entries of each service. -/
def Matches (cfg : Config) (p : Progress) (msg : Outside × Message) : Prop :=
  ∀ k, (p.step cfg msg).server.view k = held (entry cfg) (nextLive p.live msg.2) k

section Live

variable {live : List ProxyMapping} {msg : Message} {old : ProxyMapping} {cfg : Config} {k : Slot}

theorem nodup_nextLive (hids : (live.map (·.id)).Nodup) :
    ((nextLive live msg).map (·.id)).Nodup := by
  have hothers : ((live.filter (·.id ≠ msg.mapping.id)).map (·.id)).Nodup :=
    hids.sublist (filter_sublist.map _)
  have hnew : msg.mapping.id ∉ (live.filter (·.id ≠ msg.mapping.id)).map (·.id) := by simp
  rw [nextLive]
  cases msg.type with
  | removed => exact hothers
  | _ =>
    simp only [map_append, map_cons, map_nil]
    exact nodup_append_comm.mp (nodup_cons.mpr ⟨hnew, hothers⟩)

theorem find?_nextLive (id : String) : (nextLive live msg).find? (·.id = id) =
    if id = msg.mapping.id then (if msg.type = .removed then none else some msg.mapping)
    else live.find? (·.id = id) := by
  have hothers := Keyed.find?_filter_ne ProxyMapping.id live msg.mapping.id id
  rw [nextLive]
  cases msg.type with
  | removed =>
    simp only [hothers]
    split <;> rfl
  | _ =>
    simp only [find?_append, hothers]
    by_cases h : id = msg.mapping.id
    · simp [h]
    · simp [h, Ne.symm h]

theorem mem_of_find {id : String} (h : live.find? (·.id = id) = some old) :
    old ∈ live ∧ old.id = id :=
  ⟨mem_of_find?_eq_some h, by simpa using find?_some h⟩

theorem filter_of_find_none {id : String} (h : live.find? (·.id = id) = none) :
    live.filter (·.id ≠ id) = live := by
  rw [find?_eq_none] at h
  exact filter_eq_self.mpr fun x hx => by simpa using h x hx

end Live

/-! ### One message -/

section Step

variable {cfg : Config} {p : Progress} {out : Outside} {msg : Message} {m old : ProxyMapping}
  {k : Slot}

theorem mem_nextLive {live : List ProxyMapping} {x : ProxyMapping} (hx : x ∈ nextLive live msg) :
    x ∈ live ∨ msg.type ≠ .removed ∧ x = msg.mapping := by
  rw [nextLive] at hx
  cases htype : msg.type with
  | removed =>
    simp only [htype] at hx
    exact .inl (mem_filter.mp hx).1
  | _ =>
    simp only [htype, mem_append, mem_singleton] at hx
    exact hx.imp (fun h => (mem_filter.mp h).1) fun h => ⟨by simp, h⟩

/-- A message that sets a mapping up has valid data. -/
theorem Guaranteed.valid (hg : Guaranteed cfg p (out, msg)) (htype : msg.type ≠ .removed) :
    Valid cfg msg.mapping := by
  have hok := hg.succeeds
  simp only [process] at hok
  cases hcase : msg.type with
  | created =>
    simp only [hcase] at hok
    exact (addMapping_eq_ok (Prod.ext hok rfl)).1
  | modified =>
    simp only [hcase] at hok
    exact (modifyMapping_eq_ok (Prod.ext hok rfl)).1
  | removed => exact absurd hcase htype

variable (hr : Right cfg p)

include hr

theorem Right.apart : p.live.Pairwise (Apart (entry cfg)) :=
  pairwise_apart hr.valid hr.ids hr.separate

theorem Right.valid_next (hg : Guaranteed cfg p (out, msg)) :
    ∀ x ∈ nextLive p.live msg, Valid cfg x ∧ x.domain ≠ "" := by
  intro x hx
  rcases mem_nextLive hx with hmem | ⟨htype, rfl⟩
  · exact ⟨hr.valid x hmem, hr.domain x hmem⟩
  · exact ⟨hg.valid htype, hg.domain⟩

theorem Right.apart_next (hg : Guaranteed cfg p (out, msg)) :
    (nextLive p.live msg).Pairwise (Apart (entry cfg)) :=
  pairwise_apart (fun x hx => (hr.valid_next hg x hx).1) (nodup_nextLive hr.ids) hg.separate

theorem Right.held_others {id : String} (hold : p.live.find? (·.id = id) = some old) :
    held (entry cfg) (p.live.filter (·.id ≠ id)) k =
      if (entry cfg old k).isSome then none else held (entry cfg) p.live k := by
  obtain ⟨hmem, hid⟩ := mem_of_find hold
  refine held_filter_of_mem hr.apart hmem fun y hy => ?_
  constructor
  · intro h
    exact inj_on_of_nodup_map hr.ids hy hmem (by simpa [hid] using h)
  · rintro rfl
    simpa using hid

theorem Right.held_next (hg : Guaranteed cfg p (out, msg))
    (htype : msg.type ≠ .removed) : held (entry cfg) (nextLive p.live msg) k =
      (entry cfg msg.mapping k <|>
        held (entry cfg) (p.live.filter (·.id ≠ msg.mapping.id)) k) := by
  have hnext : nextLive p.live msg =
      p.live.filter (·.id ≠ msg.mapping.id) ++ [msg.mapping] := by
    rw [nextLive]
    cases h : msg.type with
    | removed => exact absurd h htype
    | _ => rfl
  have hapart := hr.apart_next hg
  rw [hnext] at hapart ⊢
  refine held_concat fun y hy => ?_
  exact symm ((pairwise_append.mp hapart).2.2 y hy msg.mapping (mem_singleton_self _))

/-- A cleanup takes away what the service has, beside its registration and a fallback, and
nothing of the other services. -/
theorem Right.cleared_own {id : String} (hold : p.live.find? (·.id = id) = some old)
    (hclient : k ≠ .client old.accountId (serviceKeyForMapping old))
    (hfallback : ¬ (old.mode = .tcp ∧ k = .fallback (old.router cfg))) :
    (if Cleared cfg old ((portsOf cfg old).getD []) k then none
      else held (entry cfg) p.live k) =
      if (entry cfg old k).isSome then none else held (entry cfg) p.live k := by
  obtain ⟨hmem, -⟩ := mem_of_find hold
  by_cases hk : (entry cfg old k).isSome
  · have hcleared := (cleared_of_isSome (hr.valid old hmem) hk).resolve_right
      (not_or.mpr ⟨hclient, hfallback⟩)
    rw [if_pos hcleared, if_pos hk]
  · split
    · next hcleared =>
      refine (held_eq_none_iff.mpr fun x hx => ?_).symm
      by_contra hne
      have hxk : (entry cfg x k).isSome := isSome_iff_ne_none.mpr hne
      -- it would be a place of the service itself
      obtain rfl : x = old := by
        rcases id_or_domain_of_cleared (hr.valid x hx) hxk hcleared with hid | hdomain
        · exact inj_on_of_nodup_map hr.ids hx hmem hid
        · exact by_contra fun hne => (hr.separate.forall hx hmem hne).domain hdomain
      exact hk hxk
    · rfl

/-! ### Created -/

omit hr in
theorem view_client_written (s : Server) (account : String) (key : ServiceKey) :
    (written cfg m s).view (.client account key) = s.view (.client account key) := by
  rw [view, view, kept_written.2.1]

section

variable (hg : Guaranteed cfg p (out, ⟨.created, m⟩))

include hg

omit hr in
theorem server_created : (p.step cfg (out, ⟨.created, m⟩)).server =
      (written cfg m (p.server.registered m)).storeMapping m :=
  (addMapping_eq_ok (Prod.ext hg.succeeds rfl)).2

omit hr in
theorem view_created (k : Slot) :
    (p.step cfg (out, ⟨.created, m⟩)).server.view k = (entry cfg m k <|> p.server.view k) := by
  rw [server_created hg, view_storeMapping]
  by_cases hclient : ∃ account key, k = .client account key
  · obtain ⟨account, key, rfl⟩ := hclient
    rw [view_client_written, view_registered, entry]
    simp only [Slot.client.injEq]
    split <;> simp
  · rw [view_written (hg.valid (by simp)) hg.domain k fun a key h => hclient ⟨a, key, h⟩,
      view_registered, if_neg fun h => hclient ⟨_, _, h⟩]

theorem follows_created_new (hnew : p.live.find? (·.id = m.id) = none) :
    Matches cfg p (out, ⟨.created, m⟩) := by
  intro k
  rw [view_created hg, hr.held_next hg (by simp), filter_of_find_none hnew, hr.view]

theorem follows_created_iff (hold : p.live.find? (·.id = m.id) = some old) :
    Matches cfg p (out, ⟨.created, m⟩) ↔ ¬ Diverges p.live ⟨.created, m⟩ := by
  obtain ⟨hmem, hid⟩ := mem_of_find hold
  have hdiv := overwrites_iff (hr.valid old hmem) (hg.valid (by simp)) hid (hg.mode old hmem hid)
  simp only [Matches, Diverges, hold]
  rw [← hdiv]
  refine forall_congr' fun k => ?_
  rw [view_created hg, hr.held_next hg (by simp), hr.held_others hold, hr.view]
  rcases hm : entry cfg m k with _ | v
  · rcases ho : entry cfg old k with _ | v
    · simp
    · simp [held_of_mem hr.apart hmem ho]
  · simp

end

/-! ### Modified -/

theorem Right.domain_getD (hdomain : m.domain ≠ "") :
    ((p.live.find? (·.id = m.id)).getD m).domain ≠ "" ∧
      ((p.live.find? (·.id = m.id)).getD m).id = m.id := by
  cases hold : p.live.find? (·.id = m.id) with
  | none => exact ⟨hdomain, rfl⟩
  | some old =>
    obtain ⟨hmem, hid⟩ := mem_of_find hold
    exact ⟨hr.domain old hmem, hid⟩

theorem Right.view_cleanup (hdomain : m.domain ≠ "") (k : Slot) :
    (cleanupMappingRoutes cfg ((p.live.find? (·.id = m.id)).getD m) p.server).view k =
      if Cleared cfg ((p.live.find? (·.id = m.id)).getD m)
        (((p.live.find? (·.id = m.id)).bind (portsOf cfg)).getD []) k then none
      else held (entry cfg) p.live k := by
  rw [view_cleanupMappingRoutes (hr.domain_getD hdomain).1, (hr.domain_getD hdomain).2,
    hr.ports, hr.view]

section

variable (hg : Guaranteed cfg p (out, ⟨.modified, m⟩))

include hg

theorem server_modified : (p.step cfg (out, ⟨.modified, m⟩)).server = (written cfg m
      (cleanupMappingRoutes cfg ((p.live.find? (·.id = m.id)).getD m)
        p.server)).storeMapping m := by
  rw [← hr.stored]
  exact (modifyMapping_eq_ok (Prod.ext hg.succeeds rfl)).2

theorem view_modified_client (account : String) (key : ServiceKey) :
    (p.step cfg (out, ⟨.modified, m⟩)).server.view (.client account key) =
      held (entry cfg) p.live (.client account key) := by
  rw [server_modified hr hg, view_storeMapping, view_client_written,
    hr.view_cleanup hg.domain, if_neg (by exact id)]

theorem view_modified (hclient : ∀ account key, k ≠ .client account key) :
    (p.step cfg (out, ⟨.modified, m⟩)).server.view k = (entry cfg m k <|>
      if Cleared cfg ((p.live.find? (·.id = m.id)).getD m)
        (((p.live.find? (·.id = m.id)).bind (portsOf cfg)).getD []) k then none
      else held (entry cfg) p.live k) := by
  rw [server_modified hr hg, view_storeMapping,
    view_written (hg.valid (by simp)) hg.domain k hclient, hr.view_cleanup hg.domain]

/-- The registration of a service that was not there is missing. -/
theorem not_follows_modified_new (hnew : p.live.find? (·.id = m.id) = none) :
    ¬ Matches cfg p (out, ⟨.modified, m⟩) := by
  intro h
  have hk := h (.client m.accountId (serviceKeyForMapping m))
  rw [view_modified_client hr hg, hr.held_next hg (by simp), entry_client] at hk
  obtain ⟨x, hx, hxk⟩ := exists_of_held hk
  exact absurd (of_entry_client hxk).1 (by simpa using find?_eq_none.mp hnew x hx)

theorem follows_modified_iff (hold : p.live.find? (·.id = m.id) = some old) :
    Matches cfg p (out, ⟨.modified, m⟩) ↔ ¬ Diverges p.live ⟨.modified, m⟩ := by
  obtain ⟨hmem, hid⟩ := mem_of_find hold
  have hvo := hr.valid old hmem
  have hvm : Valid cfg m := hg.valid (by simp)
  have hmode : old.mode = m.mode := hg.mode old hmem hid
  have hnext : ∀ k, held (entry cfg) (nextLive p.live ⟨.modified, m⟩) k = (entry cfg m k <|>
      if (entry cfg old k).isSome then none else held (entry cfg) p.live k) := fun k => by
    rw [hr.held_next hg (by simp), hr.held_others hold]
  simp only [Matches, Diverges, hold, hnext]
  constructor
  · rintro h (hclient | ⟨htcp, hport⟩)
    · -- the place of the new registration holds the old one, if it is the same place
      have hk := h (.client m.accountId (serviceKeyForMapping m))
      rw [view_modified_client hr hg, entry_client] at hk
      obtain ⟨x, hx, hxk⟩ := exists_of_held hk
      obtain ⟨hxid, hslot⟩ := of_entry_client hxk
      obtain rfl : x = old := inj_on_of_nodup_map hr.ids hx hmem (hxid.trans hid.symm)
      exact (not_otherClient_iff hid hmode).mpr hslot hclient
    · -- the old fallback is still there
      have hk := h (.fallback (old.router cfg))
      have hrouter : old.router cfg ≠ m.router cfg := fun hr' =>
        hport ((router_inj hvo hvm (by simp [htcp]) (by simp [← hmode, htcp])).mp hr')
      have hentry : entry cfg old _ = _ := entry_fallback htcp
      have hnone : entry cfg m (.fallback (old.router cfg)) = none := by simp [entry, hrouter]
      rw [view_modified hr hg (by simp), hnone, hentry, if_neg (by exact id),
        held_of_mem hr.apart hmem hentry] at hk
      simp at hk
  · intro hnot k
    obtain ⟨hclient, hport⟩ := not_or.mp hnot
    obtain ⟨hacc, hkey⟩ := (not_otherClient_iff hid hmode).mp hclient
    by_cases hslot : ∃ account key, k = .client account key
    · obtain ⟨account, key, rfl⟩ := hslot
      have hsame : entry cfg m (.client account key) = entry cfg old (.client account key) := by
        simp only [entry, hacc, hkey, hid]
      rw [view_modified_client hr hg, hsame]
      rcases ho : entry cfg old (.client account key) with _ | v
      · simp
      · simp [held_of_mem hr.apart hmem ho]
    · rw [view_modified hr hg fun a key h => hslot ⟨a, key, h⟩]
      rcases hm : entry cfg m k with _ | v
      · simp only [hold, getD_some, bind_some]
        rw [hr.cleared_own hold fun h => hslot ⟨_, _, h⟩]
        rintro ⟨htcp, rfl⟩
        have hrouter : old.router cfg = m.router cfg :=
          (router_inj hvo hvm (by simp [htcp]) (by simp [← hmode, htcp])).mpr
            (by_contra fun hne => hport ⟨htcp, hne⟩)
        simp [entry, ← hmode, htcp, hrouter] at hm
      · simp

end

/-! ### Removed -/

theorem server_removed : (p.step cfg (out, ⟨.removed, m⟩)).server = cleanupMappingRoutes cfg
      ((p.live.find? (·.id = m.id)).getD m)
      ((p.server.removePeer m.accountId (serviceKeyForMapping m)).deleteMapping m.id) := by
  rw [← hr.stored]
  rfl

section

variable (hg : Guaranteed cfg p (out, ⟨.removed, m⟩))

include hg

theorem view_removed (k : Slot) : (p.step cfg (out, ⟨.removed, m⟩)).server.view k =
      if Cleared cfg ((p.live.find? (·.id = m.id)).getD m)
          (((p.live.find? (·.id = m.id)).bind (portsOf cfg)).getD []) k then none
      else if k = .client m.accountId (serviceKeyForMapping m) then none
      else held (entry cfg) p.live k := by
  have ⟨hdomain, hid⟩ := hr.domain_getD hg.domain
  rw [server_removed hr, view_cleanupMappingRoutes hdomain, hid, view_deleteMapping,
    view_removePeer, hr.view, ← hr.ports]
  rfl

theorem follows_removed_iff (hold : p.live.find? (·.id = m.id) = some old) :
    Matches cfg p (out, ⟨.removed, m⟩) ↔ ¬ Diverges p.live ⟨.removed, m⟩ := by
  obtain ⟨hmem, hid⟩ := mem_of_find hold
  have hmode : old.mode = m.mode := hg.mode old hmem hid
  simp only [Matches, Diverges, hold]
  simp only [view_removed hr hg, nextLive, hr.held_others hold, hold, getD_some,
    bind_some]
  constructor
  · rintro h (hclient | htcp)
    · -- the registration of the old mapping is still there
      have hk := h (.client old.accountId (serviceKeyForMapping old))
      have hne : ¬ (Slot.client old.accountId (serviceKeyForMapping old) =
          .client m.accountId (serviceKeyForMapping m)) := by
        rw [Slot.client.injEq, ← not_otherClient_iff hid hmode]
        exact not_not_intro hclient
      rw [if_neg (by exact id), if_neg hne, entry_client, held_of_mem hr.apart hmem entry_client] at hk
      simp at hk
    · have hk := h (.fallback (old.router cfg))
      rw [if_neg (by exact id), if_neg (by simp), entry_fallback htcp,
        held_of_mem hr.apart hmem (entry_fallback htcp)] at hk
      simp at hk
  · intro hnot k
    obtain ⟨hclient, htcp⟩ := not_or.mp hnot
    obtain ⟨hacc, hkey⟩ := (not_otherClient_iff hid hmode).mp hclient
    by_cases hk : k = .client old.accountId (serviceKeyForMapping old)
    · subst hk
      simp [entry, hacc, hkey]
    · rw [if_neg (show ¬ k = .client m.accountId (serviceKeyForMapping m) by rwa [← hacc, ← hkey]),
        hr.cleared_own hold hk fun h => htcp h.1]

theorem follows_removed_new_iff (hnew : p.live.find? (·.id = m.id) = none) :
    Matches cfg p (out, ⟨.removed, m⟩) ↔ ¬ Diverges p.live ⟨.removed, m⟩ := by
  simp only [Matches, Diverges, hnew]
  simp only [view_removed hr hg, nextLive, filter_of_find_none hnew, hnew, getD_none,
    bind_none]
  have hid : ∀ x ∈ p.live, x.id ≠ m.id := fun x hx => by
    simpa using find?_eq_none.mp hnew x hx
  constructor
  · rintro h ⟨x, hx, hdomain, ⟨hhttp, hpath⟩ | ⟨hxmode, hmmode, hacc⟩⟩
    · -- the HTTP mapping of another service is gone
      have hk := h (.mapping m.domain)
      have hentry : entry cfg x (.mapping m.domain) = some (.mapping (protoToMapping cfg x)) := by
        simp [entry, hhttp, hpath, hdomain]
      rw [if_pos (by exact rfl), held_of_mem hr.apart hx hentry] at hk
      cases hk
    · -- the registration of another service is gone
      have hk := h (.client m.accountId (serviceKeyForMapping m))
      have hkey : serviceKeyForMapping x = serviceKeyForMapping m := by
        rcases hxmode with hx' | hx' <;> rcases hmmode with hm' | hm' <;>
          simp [serviceKeyForMapping, hx', hm', hdomain]
      have hentry : entry cfg x (.client m.accountId (serviceKeyForMapping m)) =
          some (.service x.id) := by simp [entry, hacc, hkey]
      rw [if_pos rfl, held_of_mem hr.apart hx hentry] at hk
      cases hk
  · intro hnot k
    rw [← ite_or]
    split
    · next hk =>
      refine (held_eq_none_iff.mpr fun x hx => ?_).symm
      by_contra hne
      have hxk := (isSome_entry_iff (hr.valid x hx)).mp (isSome_iff_ne_none.mpr hne)
      rcases hk with hcleared | rfl
      · cases k with
        | sni router host id => exact hid x hx (hxk.2.1.symm.trans hcleared.2.1)
        | fallback router => exact hcleared
        | relay id => exact hid x hx (hxk.2.symm.trans hcleared)
        | mapping host | domain host =>
          exact hnot ⟨x, hx, hxk.2.2.symm.trans hcleared, .inl ⟨hxk.1, hxk.2.1⟩⟩
        | client account key => exact hcleared
      · rcases id_or_domain_of_serviceKey hxk.2.symm with h | ⟨hdomain, hxmode, hmmode⟩
        · exact hid x hx h
        · exact hnot ⟨x, hx, hdomain, .inr ⟨hxmode, hmmode, hxk.1.symm⟩⟩
    · rfl

end

/-! ### All messages -/

/-- **One message.**  From a state that is right, the tables are right after the message exactly
if it does not diverge. -/
theorem follows_step_iff (hg : Guaranteed cfg p (out, msg)) :
    Matches cfg p (out, msg) ↔ ¬ Diverges p.live msg := by
  obtain ⟨type, m⟩ := msg
  rcases hold : p.live.find? (·.id = m.id) with _ | old
  · cases type with
    | created => exact iff_of_true (follows_created_new hr hg hold) (by simp [Diverges, hold])
    | modified => exact iff_of_false (not_follows_modified_new hr hg hold) (by simp [Diverges, hold])
    | removed => exact follows_removed_new_iff hr hg hold
  · cases type with
    | created => exact follows_created_iff hr hg hold
    | modified => exact follows_modified_iff hr hg hold
    | removed => exact follows_removed_iff hr hg hold

theorem stored_step (hg : Guaranteed cfg p (out, msg)) (id : String) :
    (p.step cfg (out, msg)).server.lastMappings.lookup id =
      (nextLive p.live msg).find? (·.id = id) := by
  obtain ⟨type, m⟩ := msg
  rw [find?_nextLive, ← hr.stored]
  cases type with
  | created =>
    rw [server_created hg]
    simp [storeMapping, Keyed.lookup_insert_ite, kept_written.2.2, registered]
  | modified =>
    rw [server_modified hr hg]
    simp [storeMapping, Keyed.lookup_insert_ite, kept_written.2.2,
      lastMappings_cleanupMappingRoutes (hr.domain_getD hg.domain).1]
  | removed =>
    rw [server_removed hr,
      lastMappings_cleanupMappingRoutes (hr.domain_getD hg.domain).1]
    simp [deleteMapping, Keyed.lookup_erase_ite, removePeer]

theorem ports_step (hg : Guaranteed cfg p (out, msg)) (hdiv : ¬ Diverges p.live msg) (id : String) :
    (p.step cfg (out, msg)).server.svcPorts.lookup id =
      ((nextLive p.live msg).find? (·.id = id)).bind (portsOf cfg) := by
  obtain ⟨type, m⟩ := msg
  rw [find?_nextLive]
  have ⟨hdomain, hid⟩ := hr.domain_getD hg.domain
  cases type with
  | created =>
    rw [server_created hg]
    simp only [storeMapping, kept_written.1, registered, hr.ports]
    by_cases h : id = m.id
    · subst h
      -- the ports kept for the old mapping are those of the new one
      cases hold : p.live.find? (·.id = m.id) with
      | none => simp
      | some old =>
        obtain ⟨hmem, hid⟩ := mem_of_find hold
        have hmode : old.mode = m.mode := hg.mode old hmem hid
        simp only [Diverges, hold, not_or] at hdiv
        cases hm : m.mode <;> simp_all [portsOf]
    · simp [h]
  | modified =>
    rw [server_modified hr hg]
    simp only [storeMapping, kept_written.1, svcPorts_cleanupMappingRoutes hdomain, hid, hr.ports]
    by_cases h : id = m.id <;> simp [h]
  | removed =>
    rw [server_removed hr]
    simp only [svcPorts_cleanupMappingRoutes hdomain, hid, deleteMapping, removePeer, hr.ports]
    by_cases h : id = m.id <;> simp [h]

theorem Right.step (hg : Guaranteed cfg p (out, msg))
    (hdiv : ¬ Diverges p.live msg) : Right cfg (p.step cfg (out, msg)) where
  valid x hx := (hr.valid_next hg x hx).1
  domain x hx := (hr.valid_next hg x hx).2
  ids := nodup_nextLive hr.ids
  separate := hg.separate
  view := (follows_step_iff hr hg).mpr hdiv
  stored := stored_step hr hg
  ports := ports_step hr hg hdiv

end Step

/-! ### Whole runs -/

variable {cfg : Config}

theorem right_empty (cfg : Config) : Right cfg {} where
  valid := by simp
  domain := by simp
  ids := nodup_nil
  separate := List.Pairwise.nil
  view := fun k => by cases k with
    | sni router host id => cases router <;> rfl
    | fallback router => cases router <;> rfl
    | _ => rfl
  stored := fun _ => rfl
  ports := fun _ => rfl

/-- A proxy that was just given the services has the entries of each. -/
theorem right_fresh {live : List ProxyMapping} (hvalid : ∀ x ∈ live, Valid cfg x ∧ x.domain ≠ "")
    (hids : (live.map (·.id)).Nodup) (hsep : live.Pairwise Separate) : Right cfg ⟨fresh cfg live, live⟩ := by
  induction live using reverseRecOn with
  | nil => exact right_empty cfg
  | append_singleton live m ih =>
    have hsub : live.Sublist (live ++ [m]) := sublist_append_left live [m]
    have hm : m ∈ live ++ [m] := by simp
    have hright : Right cfg ⟨fresh cfg live, live⟩ :=
      ih (fun x hx => hvalid x (hsub.mem hx)) (hids.sublist (hsub.map _)) (hsep.sublist hsub)
    have hnew : ∀ x ∈ live, x.id ≠ m.id := by
      rw [map_append, nodup_append'] at hids
      exact fun x hx h => hids.2.2 (mem_map_of_mem hx) (by simp [h])
    have hfind : live.find? (·.id = m.id) = none :=
      find?_eq_none.mpr fun x hx => by simpa using hnew x hx
    have hnext : nextLive live ⟨.created, m⟩ = live ++ [m] := by
      simp only [nextLive, filter_of_find_none hfind]
    have hg : Guaranteed cfg ⟨fresh cfg live, live⟩ (.ideal, ⟨.created, m⟩) :=
      { domain := (hvalid m hm).2
        mode := fun x hx h => absurd h (hnew x hx)
        separate := hnext ▸ hsep
        succeeds := congrArg Prod.fst (addMapping_ideal (hvalid m hm).1) }
    have hstep := hright.step hg (by simp [Diverges, hfind])
    have hfresh : fresh cfg (live ++ [m]) =
        (Progress.step cfg ⟨fresh cfg live, live⟩ (.ideal, ⟨.created, m⟩)).server := by
      simp only [fresh, processMappings, map_append, map_cons, map_nil,
        foldl_append, foldl_cons, foldl_nil]
      rfl
    simpa only [hfresh, Progress.step, hnext] using hstep

/-- After a message, the tables are those of a new proxy exactly if it does not diverge. -/
theorem follows_next_iff {p : Progress} {msg : Outside × Message} (hr : Right cfg p)
    (hg : Guaranteed cfg p msg) : Follows cfg (p.step cfg msg) ↔ ¬ Diverges p.live msg.2 := by
  have hnext : Right cfg ⟨fresh cfg (nextLive p.live msg.2), nextLive p.live msg.2⟩ :=
    right_fresh (hr.valid_next hg) (nodup_nextLive hr.ids) hg.separate
  rw [← follows_step_iff hr hg]
  exact forall_congr' fun k => by rw [← hnext.view k]; rfl

theorem along_live_iff (cfg : Config) (Q : List ProxyMapping → Outside × Message → Prop)
    (p : Progress) (msgs : List (Outside × Message)) :
    Runs.Along (Progress.step cfg) (fun p msg => Q p.live msg) p msgs ↔
      Runs.Along (fun live msg => nextLive live msg.2) Q p.live msgs := by
  induction msgs generalizing p with
  | nil => exact Iff.rfl
  | cons msg msgs ih => exact and_congr_right fun _ => ih _

/-- **The tables follow the mappings exactly if no message diverges.**  For every sequence of
messages that management may send and whose setups succeed, the proxy has, after each message,
the tables of a proxy that was just given the last mappings of the services that are there, if
and only if none of the messages diverges from the mappings before it. -/
theorem tables_follow_iff (cfg : Config) (msgs : List (Outside × Message))
    (hg : Runs.Along (Progress.step cfg) (Guaranteed cfg) {} msgs) :
    Runs.Along (Progress.step cfg) (fun p msg => Follows cfg (p.step cfg msg)) {} msgs ↔
      Runs.Along (fun live msg => nextLive live msg.2) (fun live msg => ¬ Diverges live msg.2)
        [] msgs := by
  have hboth : Runs.Along (Progress.step cfg)
      (fun p msg => Guaranteed cfg p msg ∧ Follows cfg (p.step cfg msg)) {} msgs ↔
      Runs.Along (Progress.step cfg)
        (fun p msg => Guaranteed cfg p msg ∧ ¬ Diverges p.live msg.2) {} msgs :=
    Runs.Along.congr (Right cfg)
      (fun p msg hr => and_congr_right fun hg => follows_next_iff hr hg)
      (fun p msg hr h => hr.step h.1 h.2) (right_empty cfg)
  rw [← along_live_iff cfg (fun live msg => ¬ Diverges live msg.2) {}]
  constructor
  · intro h
    exact (hboth.mp (hg.and h)).imp fun _ _ h => h.2
  · intro h
    exact (hboth.mpr (hg.and h)).imp fun _ _ h => h.2

/-! ### Runs -/

def exampleConfig : Config where
  caseMap := .ascii
  toUpper := id
  splitHostPort := fun s => some (s, "")
  parseURL := some
  parsePrefix := fun _ => none
  decodeString := fun _ => .ok []
  mainPort := 443
  wireguardPort := 0
  maxDialTimeout := 0
  maxSessionIdleTimeout := 0
  forwardedProto := "https"
  crowdsec := false

def tcpService : ProxyMapping :=
  { id := "db", accountId := "account", domain := "db.example", mode := .tcp, listenPort := 5432
    path := [{ path := "", target := "10.0.0.1:5432" }] }

def httpService (domain : String) : ProxyMapping :=
  { id := "web", accountId := "account", domain, mode := .http
    path := [{ path := "/", target := "http://10.0.0.2" }] }

/-- Messages that come without a failure outside. -/
def sent (msgs : List Message) : List (Outside × Message) :=
  msgs.map fun msg => (.ideal, msg)

/-- A web service is created, modified and removed, and keeps its domain. -/
def webRun : List (Outside × Message) :=
  sent [⟨.created, httpService "a.example"⟩, ⟨.modified, httpService "a.example"⟩,
    ⟨.removed, httpService "a.example"⟩]

/-- A web service gets another domain before it is removed. -/
def movedRun : List (Outside × Message) :=
  sent [⟨.created, httpService "a.example"⟩, ⟨.modified, httpService "b.example"⟩,
    ⟨.removed, httpService "b.example"⟩]

/-- A TCP service is created and removed. -/
def tcpRun : List (Outside × Message) :=
  sent [⟨.created, tcpService⟩, ⟨.removed, tcpService⟩]

theorem tables_follow_iff_webRun :
    Runs.Along (Progress.step exampleConfig) (Guaranteed exampleConfig) {} webRun ∧
    Runs.Along (Progress.step exampleConfig)
      (fun p msg => Follows exampleConfig (p.step exampleConfig msg)) {} webRun := by
  have hg : Runs.Along (Progress.step exampleConfig) (Guaranteed exampleConfig) {} webRun :=
    ⟨⟨by decide, by simp, by simp [nextLive], rfl⟩,
      ⟨by decide, by simp [Progress.step, nextLive], by simp [Progress.step, nextLive], rfl⟩,
      ⟨by decide, by simp [Progress.step, nextLive], by simp [Progress.step, nextLive], rfl⟩,
      trivial⟩
  refine ⟨hg, (tables_follow_iff exampleConfig webRun hg).mpr ?_⟩
  simp [Runs.Along, webRun, sent, nextLive, Diverges, OtherClient, httpService]

/-- A TCP service that was removed still has its fallback, and a web service whose domain was
changed before it was removed still has its first registration. -/
theorem fallback_and_registration_left_behind :
    (Runs.Along (Progress.step exampleConfig) (Guaranteed exampleConfig) {} tcpRun ∧
      (tcpRun.foldl (Progress.step exampleConfig) {}).live = [] ∧
      (tcpRun.foldl (Progress.step exampleConfig) {}).server.view (.fallback (some 5432)) =
        some (.route (l4Route exampleConfig tcpService .tcp))) ∧
    (Runs.Along (Progress.step exampleConfig) (Guaranteed exampleConfig) {} movedRun ∧
      (movedRun.foldl (Progress.step exampleConfig) {}).live = [] ∧
      (movedRun.foldl (Progress.step exampleConfig) {}).server.view
        (.client "account" (.domain "a.example")) = some (.service "web")) ∧
    ∀ k, (fresh exampleConfig []).view k = none := by
  have htcp : Runs.Along (Progress.step exampleConfig) (Guaranteed exampleConfig) {} tcpRun :=
    ⟨⟨by decide, by simp, by simp [nextLive], rfl⟩,
      ⟨by decide, by simp [Progress.step, nextLive], by simp [Progress.step, nextLive], rfl⟩,
      trivial⟩
  have hmoved : Runs.Along (Progress.step exampleConfig) (Guaranteed exampleConfig) {} movedRun :=
    ⟨⟨by decide, by simp, by simp [nextLive], rfl⟩,
      ⟨by decide, by simp [Progress.step, nextLive, httpService],
        by simp [Progress.step, nextLive, httpService], rfl⟩,
      ⟨by decide, by simp [Progress.step, nextLive, httpService],
        by simp [Progress.step, nextLive, httpService], rfl⟩, trivial⟩
  exact ⟨⟨htcp, rfl, rfl⟩, ⟨hmoved, rfl, rfl⟩, (right_empty exampleConfig).view⟩

end Netbird.Proxy
