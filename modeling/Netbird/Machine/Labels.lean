/-
The length of the DNS labels that `AddPeer` assigns.

`GetParsedDomainLabel` cuts to 59 bytes, which leaves room for four more; `getPeerIPDNSLabel`
then appends the last two bytes of the address, which takes up to eight. The first label of a
name and its ASCII form come from libraries, of which nothing is known but that the form is
ASCII.

* `freeLabel_legal_iff` — when the label is not empty and not too long.
-/
import Mathlib
import Netbird.Machine.Register

namespace Netbird

open Mtls String List Char

/-- `dns.SplitDomainName` and `idna.Punycode.ToASCII`. -/
structure HostLib where
  splitDomainName : String → List String
  toASCII : String → Except String String
  toASCII_ascii : ∀ s a, toASCII s = .ok a → ∀ c ∈ a.toList, c.toNat < 128

/-- `[a-zA-Z0-9-]`. -/
def isHostChar (c : Char) : Bool :=
  c.isAlphanum || c == '-'

/-- `invalidHostMatcher.ReplaceAllString(s, "-")`: one hyphen for each run of other characters.
The flag says whether the character before was one. -/
def replaceInvalid : Bool → List Char → List Char
  | _, [] => []
  | run, c :: cs =>
    if isHostChar c then c :: replaceInvalid false cs
    else if run then replaceInvalid true cs
    else '-' :: replaceInvalid true cs

def getParsedDomainLabel (cm : CaseMap) (lib : HostLib) (name : String) : Except Err String :=
  match lib.splitDomainName name with
  | [] => .error (.plain ("got empty label list for name \"" ++ name ++ "\""))
  | rawLabel :: _ =>
    match lib.toASCII rawLabel with
    | .error err => .error (.plain ("unable to convert host label to ASCII, error: " ++ err))
    | .ok ascii =>
      let validHost := cm.toLower (String.ofList (replaceInvalid false ascii.toList))
      .ok (if validHost.utf8ByteSize > 58 then String.ofList (validHost.toList.take 59) else validHost)

/-- The surroundings with the parsing of host names as the code has it. -/
def Deps.parsing (deps : Deps) (lib : HostLib) : Deps :=
  { deps with getParsedDomainLabel := Netbird.getParsedDomainLabel deps.caseMap lib }

/-! ### Lengths -/

theorem isHostChar_of_mem {run : Bool} {cs : List Char} :
    ∀ c ∈ replaceInvalid run cs, isHostChar c = true := by
  fun_induction replaceInvalid run cs with
  | case1 => simp
  | case2 run c cs hc ih => exact forall_mem_cons.mpr ⟨hc, ih⟩
  | case3 c cs hc ih => exact ih
  | case4 run c cs hc hrun ih => exact forall_mem_cons.mpr ⟨rfl, ih⟩

theorem replaceInvalid_eq_nil {cs : List Char} : replaceInvalid false cs = [] ↔ cs = [] := by
  rcases cs with _ | ⟨c, cs⟩
  · simp [replaceInvalid]
  · cases h : isHostChar c <;> simp [replaceInvalid, h]

theorem toNat_lt_of_isHostChar {c : Char} (h : isHostChar c = true) : c.toNat < 128 := by
  simp only [isHostChar, isAlphanum, isAlpha, isUpper, isLower, isDigit,
    Bool.or_eq_true, Bool.and_eq_true, decide_eq_true_eq, beq_iff_eq, UInt32.le_iff_toNat_le,
    ge_iff_le] at h
  have hval : c.toNat = c.val.toNat := rfl
  have hZ : 'Z'.val.toNat = 90 := rfl
  have hz : 'z'.val.toNat = 122 := rfl
  have h9 : '9'.val.toNat = 57 := rfl
  rcases h with h | rfl
  · omega
  · decide

theorem utf8Size_lower {c : Char} (cm : CaseMap) (h : isHostChar c = true) :
    (cm.lower c).utf8Size = 1 := by
  have hlt := toNat_lt_of_isHostChar h
  rw [cm.lower_ascii c hlt, utf8Size_eq_one_iff, UInt32.le_iff_toNat_le]
  have hval : c.toNat = c.val.toNat := rfl
  have hmax : (127 : UInt32).toNat = 127 := rfl
  by_cases hupper : c.val ≥ 'A'.val ∧ c.val ≤ 'Z'.val
  · have hshift : ('a'.val - 'A'.val).toNat = 32 := rfl
    have hZ := UInt32.le_iff_toNat_le.mp hupper.2
    have h90 : 'Z'.val.toNat = 90 := rfl
    rw [show c.toLower.val = c.val + ('a'.val - 'A'.val) by rw [Char.toLower, dif_pos hupper],
      UInt32.toNat_add]
    omega
  · rw [show c.toLower = c from dif_neg hupper]
    omega

/-- The ASCII form of the first label of a name. -/
def HostLib.asciiLabel (lib : HostLib) (name : String) : Option String :=
  (lib.splitDomainName name).head?.bind fun rawLabel => (lib.toASCII rawLabel).toOption

/-- **A parsed label** is as long as the cleaned first label, up to 59 bytes. -/
theorem utf8ByteSize_parsed {cm : CaseMap} {lib : HostLib} {name label : String}
    (h : getParsedDomainLabel cm lib name = .ok label) : ∃ ascii, lib.asciiLabel name = some ascii ∧
      label.utf8ByteSize = min (replaceInvalid false ascii.toList).length 59 := by
  rw [getParsedDomainLabel] at h
  split at h
  · cases h
  · next rawLabel rest hsplit =>
    split at h
    · cases h
    · next ascii hascii =>
      refine ⟨ascii, ?_, ?_⟩
      · rw [HostLib.asciiLabel, hsplit, head?_cons, Option.bind_some, hascii]
        rfl
      dsimp only at h
      let lowered := (replaceInvalid false ascii.toList).map cm.lower
      have hone : ∀ c ∈ lowered, c.utf8Size = 1 := by
        intro c hc
        obtain ⟨d, hd, rfl⟩ := mem_map.mp hc
        exact utf8Size_lower cm (isHostChar_of_mem d hd)
      have hhost : cm.toLower (ofList (replaceInvalid false ascii.toList)) =
          ofList lowered := by
        rw [CaseMap.toLower, toList_ofList]
      have hlength : lowered.length = (replaceInvalid false ascii.toList).length := length_map ..
      rw [hhost, Text.utf8ByteSize_eq_length hone, toList_ofList] at h
      rw [← Except.ok.inj h, ← hlength]
      split_ifs with hlong
      · rw [Text.utf8ByteSize_eq_length fun c hc => hone c (mem_of_mem_take hc),
          length_take, Nat.min_comm]
      · rw [Text.utf8ByteSize_eq_length hone]
        omega

/-! ### Legal labels -/

/-- Not empty and at most 63 bytes. -/
def LegalLength (label : String) : Prop :=
  0 < label.utf8ByteSize ∧ label.utf8ByteSize ≤ maxDNSLabelLength

/-- Machine peers are safe. Else the ASCII form of the first label is not empty, or, where the
address is appended, short enough for it. -/
def LabelFits (lib : HostLib) (peer : Peer) (ephemeral : Bool) (attempt : ℕ) (freeIP : IP) : Prop :=
  (peer.systemMeta.certDNSName ≠ "" ∧ peer.systemMeta.certDomain ≠ "") ∨
    ∀ ascii, lib.asciiLabel peer.systemMeta.hostname = some ascii →
      if ephemeral ∨ attempt > 1 then
        min (replaceInvalid false ascii.toList).length 59 + 1 +
          (freeIP.getD 2 0).toNat.repr.utf8ByteSize + 1 +
            (freeIP.getD 3 0).toNat.repr.utf8ByteSize ≤ 63
      else ascii ≠ ""

theorem legalLength_of_valid {label : String} (h : validateDNSLabel label = .ok ()) :
    LegalLength label := by
  rw [validateDNSLabel] at h
  split_ifs at h with hempty hlong
  exact ⟨by omega, by omega⟩

/-- **The label that is chosen** has a legal length exactly if it fits. A generated label is
always valid, and the same for names that differ in case only. -/
theorem freeLabel_legal_iff (deps : Deps) (lib : HostLib) (peer : Peer) (ephemeral : Bool)
    (attempt : ℕ) (freeIP : IP) (label : String)
    (h : freeLabel (deps.parsing lib) peer ephemeral attempt freeIP = .ok label) :
    (LegalLength label ↔ LabelFits lib peer ephemeral attempt freeIP) ∧ (∀ hostname domain,
        validateDNSLabel (generateUniqueDNSLabel deps.caseMap deps.hmac hostname domain) = .ok ()) ∧
      ∀ hostname hostname' domain domain',
        deps.caseMap.toLower hostname = deps.caseMap.toLower hostname' →
        deps.caseMap.toLower domain = deps.caseMap.toLower domain' →
          generateUniqueDNSLabel deps.caseMap deps.hmac hostname domain =
            generateUniqueDNSLabel deps.caseMap deps.hmac hostname' domain' := by
  refine ⟨?_, validateDNSLabel_generate _ _, fun hostname hostname' domain domain' hh hd => ?_⟩
  swap
  · rw [generateUniqueDNSLabel, generateUniqueDNSLabel, hh, hd]
  by_cases hcert : peer.systemMeta.certDNSName ≠ "" ∧ peer.systemMeta.certDomain ≠ ""
  · rw [freeLabel_of_cert hcert.1 hcert.2] at h
    rw [← Except.ok.inj h]
    exact iff_of_true (legalLength_of_valid (validateDNSLabel_generate _ _ _ _)) (.inl hcert)
  rw [freeLabel] at h
  rw [LabelFits, or_iff_right hcert, LegalLength, maxDNSLabelLength]
  -- with the last two bytes of the address, or the name alone
  split_ifs at h ⊢ with happended
  · obtain ⟨name, hname, rfl⟩ : ∃ name, (deps.parsing lib).getParsedDomainLabel
        peer.systemMeta.hostname = .ok name ∧ label = name ++ "-" ++
          (freeIP.getD 2 0).toNat.repr ++ "-" ++ (freeIP.getD 3 0).toNat.repr := by
      rw [getPeerIPDNSLabel] at h
      split at h
      · cases h
      · next name hname => exact ⟨name, hname, (Except.ok.inj h).symm⟩
    obtain ⟨ascii, hascii, hsize⟩ := utf8ByteSize_parsed hname
    have hhyphen : "-".utf8ByteSize = 1 := rfl
    simp only [utf8ByteSize_append, hsize, hhyphen, hascii, Option.some.injEq, forall_eq']
    omega
  · have hname : (deps.parsing lib).getParsedDomainLabel peer.systemMeta.hostname = .ok label := by
      rcases hparsed : (deps.parsing lib).getParsedDomainLabel peer.systemMeta.hostname with e | name
      · rw [hparsed] at h
        cases h
      · rw [hparsed] at h
        exact h
    obtain ⟨ascii, hascii, hsize⟩ := utf8ByteSize_parsed hname
    have hempty : (replaceInvalid false ascii.toList).length = 0 ↔ ascii = "" := by
      rw [List.length_eq_zero_iff, replaceInvalid_eq_nil, ← toList_inj]
      rfl
    simp only [hsize, hascii, Option.some.injEq, forall_eq', ne_eq, ← hempty]
    omega

def plainHosts : HostLib where
  splitDomainName := fun name => [name]
  toASCII := fun s => if s.toList.all (·.toNat < 128) then .ok s else .error "not ASCII"
  toASCII_ascii := by
    intro s a h c hc
    split_ifs at h with hascii
    obtain rfl := Except.ok.inj h
    exact of_decide_eq_true (List.all_eq_true.mp hascii c hc)

/-- A host name of 59 letters. -/
def longNamed : Peer :=
  { systemMeta := { hostname := String.ofList (List.replicate 59 'a') } }

theorem first_label_legal :
    ∃ label, freeLabel (labDeps.toDeps.parsing plainHosts) longNamed false 1 [100, 64, 100, 100] =
      .ok label ∧ LegalLength label := by
  refine ⟨_, rfl, (freeLabel_legal_iff labDeps.toDeps plainHosts longNamed false 1
    [100, 64, 100, 100] _ rfl).1.mpr (.inr ?_)⟩
  rintro ascii ⟨⟩
  decide

/-- At the second attempt the label has 67 bytes. -/
theorem second_label_too_long :
    ∃ label, freeLabel (labDeps.toDeps.parsing plainHosts) longNamed false 2 [100, 64, 100, 100] =
      .ok label ∧ label.utf8ByteSize = 67 :=
  ⟨_, rfl, by decide⟩

end Netbird
