/-
The DNS label of a machine peer.

`GenerateUniqueDNSLabel` puts a sanitized host name in front of sixteen hexadecimal
digits of an HMAC over the fully qualified name.  The HMAC is the parameter `hmac`.

* `sanitizeForDNS_spec` — what is left of a host name: never empty, letters, digits
  and inner hyphens only;
* `validateDNSLabel_generate` — `ValidateDNSLabel` accepts every generated label.
-/
import Netbird.Lib.Checked
import Netbird.Lib.Text

namespace Mtls

open Checked

def maxDNSLabelLength : ℕ := 63

def hashSuffixLength : ℕ := 16

def dnsLabelHMACKey : String := "netbird-machine-tunnel-dns-label-v1"

/-- HMAC-SHA-256 of a message under a key. -/
abbrev Hmac := List UInt8 → List UInt8 → Vector UInt8 32

def fqdnFingerprint (hmac : Hmac) (hostname domain : String) : String :=
  let sum := hmac (bytes dnsLabelHMACKey) (bytes (hostname ++ "." ++ domain))
  Text.hexEncode (sum.toList.take (hashSuffixLength / 2))

/-! ### Sanitizing -/

def isLowerAlnum (c : Char) : Bool :=
  ('a' ≤ c && c ≤ 'z') || ('0' ≤ c && c ≤ '9')

/-- The rune map of `sanitizeForDNS`; `none` drops the rune. -/
def sanitizeRune (c : Char) : Option Char :=
  if 'a' ≤ c ∧ c ≤ 'z' then some c
  else if '0' ≤ c ∧ c ≤ '9' then some c
  else if c = '-' then some c
  else if 'A' ≤ c ∧ c ≤ 'Z' then some (Char.ofNat (c.toNat + 32))
  else if c = '_' ∨ c = '.' ∨ c = ' ' then some '-'
  else none

/-- `strings.Contains(s, "--")`. -/
def hasDoubleHyphen : List Char → Bool
  | '-' :: '-' :: _ => true
  | _ :: cs => hasDoubleHyphen cs
  | [] => false

/-- `strings.ReplaceAll(s, "--", "-")`. -/
def replaceDoubleHyphens : List Char → List Char
  | '-' :: '-' :: cs => '-' :: replaceDoubleHyphens cs
  | c :: cs => c :: replaceDoubleHyphens cs
  | [] => []

/-- The loop that replaces double hyphens until there are none.  Every round
shortens the text, so its length is enough fuel. -/
def collapseHyphens : ℕ → List Char → List Char
  | 0, cs => cs
  | fuel + 1, cs =>
    if hasDoubleHyphen cs then collapseHyphens fuel (replaceDoubleHyphens cs) else cs

/-- `sanitizeForDNS`, on runes. -/
def sanitizeForDNS (hostname : List Char) : List Char :=
  let result := Text.trimChar '-' (hostname.filterMap sanitizeRune)
  let result := collapseHyphens result.length result
  if result = [] then "peer".toList else result

/-! ### The label -/

/-- `GenerateUniqueDNSLabel`.  A sanitized host name is ASCII, so its bytes are its
runes and cutting bytes cuts runes. -/
def generateUniqueDNSLabel (cm : CaseMap) (hmac : Hmac) (hostname domain : String) : String :=
  let hostname := cm.toLower hostname
  let domain := cm.toLower domain
  let fqdnHash := (fqdnFingerprint hmac hostname domain).toList
  let sanitizedHostname := sanitizeForDNS hostname.toList
  let label := sanitizedHostname ++ '-' :: fqdnHash
  if label.length > maxDNSLabelLength then
    let maxHostLen := max (maxDNSLabelLength - hashSuffixLength - 1) 1
    let truncatedHostname := (sanitizedHostname.take maxHostLen).rdropWhile (· == '-')
    String.ofList (truncatedHostname ++ '-' :: fqdnHash)
  else String.ofList label

/-- The errors of `ValidateDNSLabel`. -/
inductive LabelError where
  | empty
  | tooLong (length : ℕ)
  | notRFC1123

/-- The regular expression `^[a-z0-9]([-a-z0-9]*[a-z0-9])?$`. -/
def matchesDNSLabel (cs : List Char) : Bool :=
  cs.head?.any isLowerAlnum && cs.getLast?.any isLowerAlnum &&
    cs.all fun c => isLowerAlnum c || c == '-'

def validateDNSLabel (label : String) : Except LabelError Unit :=
  if label.utf8ByteSize = 0 then .error .empty
  else if label.utf8ByteSize > maxDNSLabelLength then .error (.tooLong label.utf8ByteSize)
  else if matchesDNSLabel label.toList then .ok ()
  else .error .notRFC1123

/-! ### What sanitizing leaves -/

open List

/-- Lower-case letters, digits and hyphens. -/
def IsLabelChar (c : Char) : Prop :=
  isLowerAlnum c = true ∨ c = '-'

/-- A text of label characters that neither begins nor ends with a hyphen. -/
structure IsLabelText (cs : List Char) : Prop where
  chars : ∀ c ∈ cs, IsLabelChar c
  head : cs.head? ≠ some '-'
  last : cs.getLast? ≠ some '-'

theorem isLabelChar_of_sanitizeRune {c d : Char} (h : sanitizeRune c = some d) : IsLabelChar d := by
  unfold sanitizeRune at h
  split_ifs at h with h1 h2 h3 h4 h5
  · cases h
    exact .inl (by simp [isLowerAlnum, h1.1, h1.2])
  · cases h
    exact .inl (by simp [isLowerAlnum, h2.1, h2.2])
  · cases h
    exact .inr h3
  · cases h
    left
    -- the upper-case letters, one by one
    have hlo : 65 ≤ c.toNat := h4.1
    have hhi : c.toNat ≤ 90 := h4.2
    generalize c.toNat = n at hlo hhi
    interval_cases n <;> decide
  · cases h
    exact .inr rfl

variable (cs : List Char)

theorem replaceDoubleHyphens_sublist : (replaceDoubleHyphens cs).Sublist cs := by
  fun_induction replaceDoubleHyphens cs with
  | case1 cs ih => exact (ih.cons _).cons_cons _
  | case2 d cs h ih => exact ih.cons_cons _
  | case3 => exact .slnil

theorem head?_replaceDoubleHyphens : (replaceDoubleHyphens cs).head? = cs.head? := by
  fun_cases replaceDoubleHyphens cs <;> rfl

theorem getLast?_replaceDoubleHyphens : (replaceDoubleHyphens cs).getLast? = cs.getLast? := by
  fun_induction replaceDoubleHyphens cs with
  | case1 cs ih =>
    rw [getLast?_cons, ih, getLast?_cons_cons, getLast?_cons]
  | case2 c cs h ih =>
    rw [getLast?_cons, getLast?_cons, ih]
  | case3 => rfl

variable {cs : List Char}

theorem IsLabelText.replaceDoubleHyphens (h : IsLabelText cs) :
    IsLabelText (replaceDoubleHyphens cs) where
  chars := fun c hc => h.chars c ((replaceDoubleHyphens_sublist cs).mem hc)
  head := by rw [head?_replaceDoubleHyphens]; exact h.head
  last := by rw [getLast?_replaceDoubleHyphens]; exact h.last

theorem IsLabelText.collapseHyphens (fuel : ℕ) (h : IsLabelText cs) :
    IsLabelText (collapseHyphens fuel cs) := by
  induction fuel generalizing cs with
  | zero => exact h
  | succ fuel ih =>
    unfold Mtls.collapseHyphens
    split_ifs
    · exact ih h.replaceDoubleHyphens
    · exact h

/-- Cutting hyphens off the right keeps the first character and leaves no hyphen at
the end. -/
theorem isLabelText_rdropWhile (h : ∀ c ∈ cs, IsLabelChar c)
    (hhead : cs.head? ≠ some '-') : IsLabelText (cs.rdropWhile (· == '-')) where
  chars := fun c hc => h c ((List.rdropWhile_prefix _ _).subset hc)
  head := by
    obtain ⟨t, ht⟩ := List.rdropWhile_prefix (· == '-') cs
    rcases hcs : cs.rdropWhile (· == '-') with _ | ⟨d, ds⟩
    · simp
    · rw [hcs] at ht
      rw [← ht] at hhead
      exact hhead
  last := by
    intro hlast
    obtain ⟨ds, hds⟩ := getLast?_eq_some_iff.mp hlast
    have hne : cs.rdropWhile (· == '-') ≠ [] := by
      rw [hds]
      simp
    have hnot := rdropWhile_last_not (· == '-') cs hne
    simp [hds] at hnot

theorem isLabelText_trimChar (h : ∀ c ∈ cs, IsLabelChar c) :
    IsLabelText (Text.trimChar '-' cs) := by
  refine isLabelText_rdropWhile (fun c hc => h c ((dropWhile_suffix _).subset hc)) ?_
  intro hhead
  have hnot := head?_dropWhile_not (· == '-') cs
  rw [hhead] at hnot
  simp at hnot

/-- What is left of a host name: never empty, and fit for the front of a label. -/
theorem sanitizeForDNS_spec (hostname : List Char) :
    sanitizeForDNS hostname ≠ [] ∧ IsLabelText (sanitizeForDNS hostname) := by
  have hpeer : IsLabelText "peer".toList :=
    ⟨by simp [IsLabelChar, isLowerAlnum], by simp, by simp⟩
  have hchars : ∀ c ∈ hostname.filterMap sanitizeRune, IsLabelChar c := by
    intro c hc
    obtain ⟨d, -, hd⟩ := mem_filterMap.mp hc
    exact isLabelChar_of_sanitizeRune hd
  rw [sanitizeForDNS]
  split_ifs with hempty
  · exact ⟨by simp, hpeer⟩
  · exact ⟨hempty, (isLabelText_trimChar hchars).collapseHyphens _⟩

/-! ### The shape of the label -/

theorem isLowerAlnum_hexDigit {n : ℕ} (h : n < 16) : isLowerAlnum (Text.hexDigit n) = true := by
  interval_cases n <;> decide

theorem length_fqdnFingerprint (hmac : Hmac) (hostname domain : String) :
    (fqdnFingerprint hmac hostname domain).toList.length = hashSuffixLength := by
  rw [fqdnFingerprint, Text.length_hexEncode]
  simp [hashSuffixLength]

theorem isLowerAlnum_fqdnFingerprint (hmac : Hmac) (hostname domain : String) :
    ∀ c ∈ (fqdnFingerprint hmac hostname domain).toList, isLowerAlnum c = true := by
  intro c hc
  rw [fqdnFingerprint, Text.hexEncode, String.toList_ofList] at hc
  obtain ⟨b, -, hb⟩ := mem_flatMap.mp hc
  have hlt : b.toNat < 256 := b.toNat_lt
  rcases mem_pair.mp hb with rfl | rfl <;> exact isLowerAlnum_hexDigit (by omega)

/-- The host part of a label that had to be shortened. -/
theorem truncatedHostname_spec {n : ℕ} (hne : cs ≠ []) (h : IsLabelText cs) (hn : 0 < n) :
    (cs.take n).rdropWhile (· == '-') ≠ [] ∧ IsLabelText ((cs.take n).rdropWhile (· == '-')) ∧
      ((cs.take n).rdropWhile (· == '-')).length ≤ n := by
  obtain ⟨d, ds, rfl⟩ := exists_cons_of_ne_nil hne
  obtain ⟨m, rfl⟩ := Nat.exists_eq_succ_of_ne_zero hn.ne'
  have hd : d ≠ '-' := by
    rintro rfl
    exact h.head rfl
  refine ⟨?_, isLabelText_rdropWhile (fun c hc => h.chars c (mem_of_mem_take hc)) ?_, ?_⟩
  · intro hnil
    have := rdropWhile_eq_nil_iff.mp hnil d (by simp)
    exact hd (by simpa using this)
  · simpa using hd
  · calc _ ≤ ((d :: ds).take (m + 1)).length := (List.rdropWhile_prefix _ _).length_le
      _ ≤ m + 1 := by simp

/-- A generated label is a host part, a hyphen and the fingerprint of the lower-case
name; the host part is not empty and the whole has at most 63 characters. -/
theorem generateUniqueDNSLabel_spec (cm : CaseMap) (hmac : Hmac) (hostname domain : String) :
    ∃ host, (generateUniqueDNSLabel cm hmac hostname domain).toList =
        host ++ '-' :: (fqdnFingerprint hmac (cm.toLower hostname) (cm.toLower domain)).toList ∧
      host ≠ [] ∧ IsLabelText host ∧ host.length + 1 + hashSuffixLength ≤ maxDNSLabelLength := by
  obtain ⟨hne, htext⟩ := sanitizeForDNS_spec (cm.toLower hostname).toList
  have hfp := length_fqdnFingerprint hmac (cm.toLower hostname) (cm.toLower domain)
  rw [generateUniqueDNSLabel]
  split_ifs with hlong
  · obtain ⟨hne', htext', hlen⟩ := truncatedHostname_spec hne htext
      (show 0 < max (maxDNSLabelLength - hashSuffixLength - 1) 1 by decide)
    refine ⟨_, String.toList_ofList, hne', htext', ?_⟩
    have : max (maxDNSLabelLength - hashSuffixLength - 1) 1 + 1 + hashSuffixLength =
        maxDNSLabelLength := by decide
    omega
  · refine ⟨_, String.toList_ofList, hne, htext, ?_⟩
    simp only [length_append, length_cons, hfp] at hlong
    omega

/-- Equal labels have equal fingerprints: the fingerprint is the last 16 characters. -/
theorem fqdnFingerprint_eq_of_label_eq {cm : CaseMap} {hmac : Hmac}
    {hostname domain hostname' domain' : String}
    (h : generateUniqueDNSLabel cm hmac hostname domain =
      generateUniqueDNSLabel cm hmac hostname' domain') :
    fqdnFingerprint hmac (cm.toLower hostname) (cm.toLower domain) =
      fqdnFingerprint hmac (cm.toLower hostname') (cm.toLower domain') := by
  obtain ⟨host, hl, -⟩ := generateUniqueDNSLabel_spec cm hmac hostname domain
  obtain ⟨host', hl', -⟩ := generateUniqueDNSLabel_spec cm hmac hostname' domain'
  rw [h, hl'] at hl
  have hlen := length_fqdnFingerprint hmac (cm.toLower hostname) (cm.toLower domain)
  have hlen' := length_fqdnFingerprint hmac (cm.toLower hostname') (cm.toLower domain')
  have := (append_inj' hl (by simp [hlen, hlen'])).2
  simp only [cons.injEq, true_and] at this
  exact String.toList_inj.mp this.symm

/-! ### Validation -/

theorem utf8Size_of_isLabelChar {c : Char} (h : IsLabelChar c) : c.utf8Size = 1 := by
  rw [Char.utf8Size_eq_one_iff]
  rcases h with h | rfl
  · simp only [isLowerAlnum, Bool.or_eq_true, Bool.and_eq_true, decide_eq_true_eq] at h
    rcases h with ⟨-, hz⟩ | ⟨-, h9⟩
    · exact UInt32.le_trans hz (show 'z'.val ≤ 127 by decide)
    · exact UInt32.le_trans h9 (show '9'.val ≤ 127 by decide)
  · decide

/-- **Every generated label is valid**, so the IP-based fallback of `AddPeer` for
machine peers is never taken. -/
theorem validateDNSLabel_generate (cm : CaseMap) (hmac : Hmac) (hostname domain : String) :
    validateDNSLabel (generateUniqueDNSLabel cm hmac hostname domain) = .ok () := by
  obtain ⟨host, hl, hne, htext, hlen⟩ := generateUniqueDNSLabel_spec cm hmac hostname domain
  have hfp := length_fqdnFingerprint hmac (cm.toLower hostname) (cm.toLower domain)
  have halnum := isLowerAlnum_fqdnFingerprint hmac (cm.toLower hostname) (cm.toLower domain)
  generalize (fqdnFingerprint hmac (cm.toLower hostname) (cm.toLower domain)).toList = fp at *
  generalize generateUniqueDNSLabel cm hmac hostname domain = label at *
  have hchars : ∀ c ∈ label.toList, IsLabelChar c := by
    rw [hl, forall_mem_append, forall_mem_cons]
    exact ⟨htext.chars, .inr rfl, fun c hc => .inl (halnum c hc)⟩
  have hsize : label.utf8ByteSize = host.length + 1 + hashSuffixLength := by
    have := Text.utf8ByteSize_eq_length fun c hc => utf8Size_of_isLabelChar (hchars c hc)
    rw [String.ofList_toList, hl, length_append, length_cons] at this
    omega
  -- the first character comes from the host part, the last one from the fingerprint
  have hhead : label.toList.head?.any isLowerAlnum = true := by
    obtain ⟨d, ds, rfl⟩ := exists_cons_of_ne_nil hne
    have hd : isLowerAlnum d = true := by
      rcases htext.chars d mem_cons_self with hd | rfl
      · exact hd
      · exact absurd rfl htext.head
    rw [hl]
    simpa using hd
  have hlast : label.toList.getLast?.any isLowerAlnum = true := by
    have hfpne : fp ≠ [] := by
      rintro rfl
      cases hfp
    rw [hl, getLast?_append_of_ne_nil _ (by simp), getLast?_cons,
      getLast?_eq_some_getLast hfpne]
    exact halnum _ (getLast_mem hfpne)
  have hall : (label.toList.all fun c => isLowerAlnum c || c == '-') = true := by
    rw [all_eq_true]
    intro c hc
    rcases hchars c hc with h | h <;> simp [h]
  have hmatch : matchesDNSLabel label.toList = true := by
    rw [matchesDNSLabel, hhead, hlast, hall]
    rfl
  rw [validateDNSLabel, if_neg (by omega), if_neg (by omega), if_pos hmatch]

end Mtls
