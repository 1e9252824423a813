/-
The address of a client behind trusted proxies (`proxy/internal/proxy/trustedproxy.go`).

`X-Forwarded-For` is read from its end, and the first address that is not trusted is the client's.
An entry that is not an address is skipped, so behind it the client's own part decides.

* **`unforgeable_iff`** — when that part does not matter.
-/
import Netbird.Lib.Text

namespace Netbird.TrustedProxy

open List Text

/-- What is used of `net/netip` and `strings`, with two texts for different addresses. -/
structure Netip where
  Addr : Type
  Prefix : Type
  zero : Addr
  isValid : Addr → Bool
  unmap : Addr → Addr
  contains : Prefix → Addr → Bool
  parseAddr : String → Option Addr
  parseAddrPort : String → Option Addr
  trimSpace : String → String
  parseAddr_empty : parseAddr "" = none
  sample : Bool → String
  sample_comma : ∀ b, ',' ∉ (sample b).toList
  sample_addr : ∀ b, (parseAddr (trimSpace (sample b))).isSome
  sample_ne : (parseAddr (trimSpace (sample true))).map unmap ≠
    (parseAddr (trimSpace (sample false))).map unmap

namespace Netip

variable (lib : Netip) (trusted : List lib.Prefix) (remoteAddr : String)

def isTrustedAddr (addr : lib.Addr) : Bool :=
  lib.isValid addr && trusted.any (lib.contains · addr)

def extractHostIP : lib.Addr :=
  match lib.parseAddrPort remoteAddr with
  | some addr => lib.unmap addr
  | none =>
    match lib.parseAddr remoteAddr with
    | some addr => lib.unmap addr
    | none => lib.zero

/-- The address of an entry of the header. -/
def entry (part : String) : Option lib.Addr :=
  let ip := lib.trimSpace part
  if ip = "" then none else (lib.parseAddr ip).map lib.unmap

/-- The address at which the walk through the entries stops. -/
def untrusted (part : String) : Option lib.Addr :=
  (lib.entry part).filter (! lib.isTrustedAddr trusted ·)

def resolveClientIP (xff : String) : lib.Addr :=
  let remoteIP := lib.extractHostIP remoteAddr
  if trusted.length = 0 ∨ ! lib.isTrustedAddr trusted remoteIP then remoteIP
  else if xff = "" then remoteIP
  else
    let parts := split xff ','
    match parts.reverse.findSome? (lib.untrusted trusted) with
    | some addr => addr
    | none => (parts.head?.bind lib.entry).getD remoteIP

variable {lib trusted remoteAddr} {c s : String}

theorem entry_eq (part : String) :
    lib.entry part = (lib.parseAddr (lib.trimSpace part)).map lib.unmap := by
  dsimp only [entry]
  split_ifs with h
  · rw [h, lib.parseAddr_empty, Option.map_none]
  · rfl

theorem split_forwarded : split (c ++ "," ++ s) ',' = split c ',' ++ split s ',' := by
  rw [split, split, split, ← map_append, String.toList_append, String.toList_append, append_assoc]
  exact congrArg _ (splitOnP_append_cons _ _ (by decide))

/-- The entries of the proxies come first, and the client's only after them. -/
theorem resolveClientIP_eq
    (htrusted : lib.isTrustedAddr trusted (lib.extractHostIP remoteAddr) = true) :
    lib.resolveClientIP trusted remoteAddr (c ++ "," ++ s) =
      (((split s ',').reverse.findSome? (lib.untrusted trusted)).or
        ((split c ',').reverse.findSome? (lib.untrusted trusted))).getD
          (((split c ',').head?.bind lib.entry).getD (lib.extractHostIP remoteAddr)) := by
  have hne : ¬ (trusted.length = 0 ∨ ! lib.isTrustedAddr trusted (lib.extractHostIP remoteAddr)) := by
    rintro (hnil | hnot)
    · rw [length_eq_zero_iff.mp hnil] at htrusted
      simp [isTrustedAddr] at htrusted
    · simp [htrusted] at hnot
  have hxff : c ++ "," ++ s ≠ "" := by
    intro h
    have := congrArg String.toList h
    simp at this
  have hhead : (split c ',' ++ split s ',').head? = (split c ',').head? := by
    refine head?_append_of_ne_nil _ ?_
    simp [split, splitOn]
  simp only [resolveClientIP, if_neg hne, if_neg hxff, split_forwarded, reverse_append,
    findSome?_append, hhead]
  split <;> simp [*]

/-- **The client does not choose its address** if the remote address is not trusted; if it is,
exactly if one of the entries of the proxies is an address that is not trusted. -/
theorem unforgeable_iff (lib : Netip) (trusted : List lib.Prefix) (remoteAddr s : String) :
    if lib.isTrustedAddr trusted (lib.extractHostIP remoteAddr) then
      ((∀ c c', lib.resolveClientIP trusted remoteAddr (c ++ "," ++ s) =
        lib.resolveClientIP trusted remoteAddr (c' ++ "," ++ s)) ↔
        ∃ part ∈ split s ',', (lib.untrusted trusted part).isSome)
    else ∀ xff, lib.resolveClientIP trusted remoteAddr xff = lib.extractHostIP remoteAddr := by
  split_ifs with htrusted
  · simp only [resolveClientIP_eq htrusted]
    rcases hfound : (split s ',').reverse.findSome? (lib.untrusted trusted) with _ | addr
    · rw [findSome?_eq_none_iff] at hfound
      refine iff_of_false (fun hsame => lib.sample_ne ?_) fun ⟨part, hpart, hsome⟩ => ?_
      · -- a single entry of the client is the result, be it trusted or not
        have hresult : ∀ b, some ((((split (lib.sample b) ',').reverse.findSome?
            (lib.untrusted trusted))).getD
              (((split (lib.sample b) ',').head?.bind lib.entry).getD (lib.extractHostIP remoteAddr))) =
            (lib.parseAddr (lib.trimSpace (lib.sample b))).map lib.unmap := by
          intro b
          have hsplit : split (lib.sample b) ',' = [lib.sample b] := by
            rw [split, splitOn_eq_singleton (lib.sample_comma b), map_singleton,
              String.ofList_toList]
          obtain ⟨addr, haddr⟩ := Option.isSome_iff_exists.mp (lib.sample_addr b)
          have hentry : lib.entry (lib.sample b) = some (lib.unmap addr) := by
            rw [entry_eq, haddr, Option.map_some]
          rw [hsplit, haddr]
          by_cases hin : lib.isTrustedAddr trusted (lib.unmap addr) = true <;>
            simp [untrusted, hentry, hin, Option.filter]
        rw [← hresult, ← hresult]
        exact congrArg some (hsame _ _)
      · rw [hfound part (mem_reverse.mpr hpart)] at hsome
        nomatch hsome
    · refine iff_of_true (fun _ _ => rfl) ?_
      obtain ⟨part, hpart, hsome⟩ := exists_of_findSome?_eq_some hfound
      exact ⟨part, mem_reverse.mp hpart, by rw [hsome]; rfl⟩
  · intro xff
    exact if_pos (.inr (by simpa using htrusted))

/-- Three addresses; the proxy is `10.0.0.1`. -/
abbrev threeHosts : Netip where
  Addr := ℕ
  Prefix := ℕ
  zero := 0
  isValid := (· ≠ 0)
  unmap := id
  contains := (· = ·)
  parseAddr s :=
    if s = "1.1.1.1" then some 1 else if s = "2.2.2.2" then some 2
    else if s = "10.0.0.1" then some 10 else none
  parseAddrPort _ := none
  trimSpace := id
  parseAddr_empty := by decide
  sample b := if b then "1.1.1.1" else "2.2.2.2"
  sample_comma := by decide
  sample_addr := by decide
  sample_ne := by decide

/-- The proxy has added an entry that is not an address, and the client chooses. -/
theorem unknown_entry_skipped :
    threeHosts.isTrustedAddr ([10] : List ℕ) (threeHosts.extractHostIP "10.0.0.1") = true ∧
      threeHosts.resolveClientIP ([10] : List ℕ) "10.0.0.1" ("1.1.1.1" ++ "," ++ "unknown") = 1 ∧
      threeHosts.resolveClientIP ([10] : List ℕ) "10.0.0.1" ("2.2.2.2" ++ "," ++ "unknown") = 2 := by
  decide +kernel

end Netip

end Netbird.TrustedProxy
