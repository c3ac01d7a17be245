import WgDesktop.Signature.Balrog

/-!
# Updates

The signature of an update: the two functions that `signature/src/lib.rs` gives to C++, and
`Balrog::validateSignature` from `src/update/balrog.cpp`, which calls both with one text of
certificates. The first hashes the last certificate, the second verifies the chain;
`validateSignature_iff` says what the two together accept.
-/

namespace WgDesktop.Signature

open Bytes Runs

/-! ## Texts -/

/-- `CStr::from_ptr`: the bytes in front of the first zero byte. -/
def cStr (bytes : List Byte) : List Byte := bytes.takeWhile (· ≠ 0#8)

/-- `CStr::to_str`, which leaves the bytes as they are. -/
def toStr (bytes : List Byte) : Option (List Byte) :=
  if (ByteArray.mk (bytes.map UInt8.ofBitVec).toArray).validateUTF8 then some bytes else none

/-- The value of a hexadecimal digit. -/
def hexDigit (c : Char) : Option ℕ :=
  if '0' ≤ c ∧ c ≤ '9' then some (c.toNat - '0'.toNat)
  else if 'a' ≤ c ∧ c ≤ 'f' then some (c.toNat - 'a'.toNat + 10)
  else if 'A' ≤ c ∧ c ≤ 'F' then some (c.toNat - 'A'.toNat + 10)
  else none

/-- The bytes of digits, last digit first. -/
def pairDigits : List ℕ → List Byte
  | [] => []
  | [low] => [.ofNat 8 low]
  | low :: high :: digits => pairDigits digits ++ [.ofNat 8 (16 * high + low)]

/-- `QByteArray::fromHex`: other characters are skipped. -/
def fromHex (text : List Char) : List Byte := pairDigits (text.filterMap hexDigit).reverse

def balrogCertSubjectCn : List Byte := ascii "aus.content-signature.mozilla.org"

/-! ## The functions of the library -/

section Functions

variable (C : Crates) (sha256 : List Byte → BitVec 256)

/-- `compute_root_certificate_hash`: the bytes it writes, if it returns `true`. -/
def computeRootCertificateHash (x5u : List Byte) (rootHashLen : ℕ) : Option (List Byte) :=
  match parsePemChain C x5u with
  | .error _ => none
  | .ok pemChain =>
    match pemChain.getLast? with
    | none => none
    | some pem =>
      if pem.label ≠ "CERTIFICATE".toList then none
      else if rootHashLen ≠ 32 then none
      else some (toBytes (sha256 pem.contents))

/-- What C++ gets of a result: a panic ends the process. -/
def answer {α : Type} : Verify α → Option Bool
  | .ok _ => some true
  | .error (.error _) => some false
  | .error .panic => none

/-- `verify_content_signature`, at a time. -/
def verifyContentSignatureFfi (now : ℤ) (x5u input signature leafSubject : List Byte) :
    Option Bool :=
  match toStr (cStr signature), toStr (cStr leafSubject) with
  | some sigStr, some leafSubjectStr => answer do
    let pemChain ← parsePemChain C x5u
    let chain ← balrogNew C pemChain
    verify C input sigStr now leafSubjectStr chain
  | _, _ => some false

/-! ## The update -/

/-- `validateSignature`, at a time. -/
def validateSignature (fingerprints : List (List Char)) (now : ℤ)
    (x5uData updateData signatureBlob : List Byte) : Option Bool :=
  match computeRootCertificateHash C sha256 x5uData 32 with
  | none => some false
  | some rootHash =>
    if !(fingerprints.any fun fingerprint => rootHash = fromHex fingerprint) then some false
    else verifyContentSignatureFfi C now x5uData updateData signatureBlob balrogCertSubjectCn

/-! ## What is accepted -/

/-- The certificates that entries of a text hold, each with the bytes it was read from. -/
structure ReadFrom (pems : List Pem) (certificates : List (List Byte × X509Certificate)) :
    Prop where
  label : ∀ pem ∈ pems, pem.label = "CERTIFICATE".toList
  contents : certificates.map (·.1) = pems.map (·.contents)
  fromDer : ∀ certificate ∈ certificates, C.fromDer certificate.1 = .ok ([], certificate.2)

/-- An update that comes from the holder of a code signing certificate under a pinned root. -/
structure Authentic (fingerprints : List (List Char)) (now : ℤ)
    (x5uData updateData signatureBlob : List Byte)
    (certificates : List (List Byte × X509Certificate)) : Prop where
  parsed : ∃ pems, parsePemChain C x5uData = .ok pems ∧ ReadFrom C pems certificates
  /-- The last certificate, whose bytes have a pinned hash, has issued and signed itself. -/
  root : ∃ der root, certificates.getLast? = some (der, root) ∧
    toBytes (sha256 der) ∈ fingerprints.map fromHex ∧ Issued C now root root
  links : (certificates.map (·.2)).IsChain (Issued C now)
  valid : ∀ certificate ∈ certificates, certificate.2.ValidAt C now
  codeSigning : ∀ certificate ∈ certificates, certificate.2.extendedKeyUsage = .ok (some true)
  leaf : ∃ der leaf, certificates.head? = some (der, leaf) ∧ leaf.HasHostname balrogCertSubjectCn ∧
    leaf.Verifies C updateData (cStr signatureBlob)

end Functions

section Results

variable {C : Crates} {sha256 : List Byte → BitVec 256}

theorem toStr_balrogCertSubjectCn :
    toStr (cStr balrogCertSubjectCn) = some balrogCertSubjectCn := by
  decide

theorem toStr_eq_some {bytes text : List Byte} (h : toStr bytes = some text) : text = bytes := by
  unfold toStr at h
  split_ifs at h
  exact (Option.some.inj h).symm

theorem answer_eq_true {α : Type} {x : Verify α} : answer x = some true ↔ ∃ a, x = .ok a := by
  rcases x with e | a
  · cases e <;> simp [answer]
  · simp [answer]

theorem parseCertificate_eq_ok {pem : Pem} {x509 : X509Certificate} :
    parseCertificate C pem = .ok x509 ↔
      pem.label = "CERTIFICATE".toList ∧ C.fromDer pem.contents = .ok ([], x509) := by
  unfold parseCertificate
  rw [ite_fail_eq_ok, not_not, bind_eq_ok]
  refine and_congr_right fun _ => ?_
  constructor
  · rintro ⟨⟨tail, x509'⟩, hder, h⟩
    rw [liftX509_eq_ok] at hder
    obtain ⟨htail, h⟩ := ite_fail_eq_ok.mp h
    obtain rfl : x509' = x509 := Except.ok.inj h
    obtain rfl : tail = [] := by simpa using htail
    exact hder
  · intro hder
    exact ⟨([], x509), liftX509_eq_ok.mpr hder, rfl⟩

theorem mapM_parseCertificate_eq_ok {pems : List Pem} {chain : List X509Certificate} :
    pems.mapM (parseCertificate C) = .ok chain ↔
      ∃ certificates, certificates.map (·.2) = chain ∧ ReadFrom C pems certificates := by
  induction pems generalizing chain with
  | nil =>
    constructor
    · intro h
      obtain rfl : [] = chain := Except.ok.inj h
      exact ⟨[], rfl, by simp, rfl, by simp⟩
    · rintro ⟨certificates, rfl, h⟩
      obtain rfl : certificates = [] := by simpa using h.contents
      rfl
  | cons pem pems ih =>
    rw [List.mapM_cons, bind_eq_ok]
    constructor
    · rintro ⟨x509, hpem, h⟩
      obtain ⟨rest, hrest, h⟩ := bind_eq_ok.mp h
      obtain ⟨certificates, rfl, hread⟩ := ih.mp hrest
      obtain ⟨hlabel, hder⟩ := parseCertificate_eq_ok.mp hpem
      refine ⟨(pem.contents, x509) :: certificates, Except.ok.inj h, ?_, ?_, ?_⟩
      · exact List.forall_mem_cons.mpr ⟨hlabel, hread.label⟩
      · rw [List.map_cons, List.map_cons, hread.contents]
      · exact List.forall_mem_cons.mpr ⟨hder, hread.fromDer⟩
    · rintro ⟨certificates, rfl, h⟩
      obtain ⟨⟨der, x509⟩, rest, rfl⟩ : ∃ c rest, certificates = c :: rest := by
        cases certificates with
        | nil => simpa using h.contents
        | cons c rest => exact ⟨c, rest, rfl⟩
      obtain ⟨hlabel, hlabels⟩ := List.forall_mem_cons.mp h.label
      obtain ⟨hder, hders⟩ := List.forall_mem_cons.mp h.fromDer
      obtain ⟨rfl, hcontents⟩ : der = pem.contents ∧ rest.map (·.1) = pems.map (·.contents) := by
        simpa using h.contents
      refine ⟨x509, parseCertificate_eq_ok.mpr ⟨hlabel, hder⟩, bind_eq_ok.mpr ?_⟩
      exact ⟨rest.map (·.2), ih.mpr ⟨rest, rfl, hlabels, hcontents, hders⟩, rfl⟩

theorem balrogNew_eq_ok {pems : List Pem} {chain : List X509Certificate} :
    balrogNew C pems = .ok chain ↔ pems ≠ [] ∧
      ∃ certificates, certificates.map (·.2) = chain ∧ ReadFrom C pems certificates := by
  unfold balrogNew
  rw [ite_fail_eq_ok, mapM_parseCertificate_eq_ok]
  simp

theorem Trusted.valid {now : ℤ} {chain : List X509Certificate} (h : Trusted C now chain) :
    ∀ c ∈ chain, c.ValidAt C now := by
  intro c hc
  obtain ⟨i, hi, rfl⟩ := List.getElem_of_mem hc
  by_cases hnext : i + 1 < chain.length
  · exact (List.isChain_iff_getElem.mp h.links i hnext).subject_valid
  · obtain ⟨root, hlast, hroot⟩ := h.root
    rw [List.getLast?_eq_getElem?, show chain.length - 1 = i by omega,
      List.getElem?_eq_getElem hi, Option.some.injEq] at hlast
    rw [hlast]
    exact hroot.subject_valid

theorem computeRootCertificateHash_eq_some {x5uData hash : List Byte} :
    computeRootCertificateHash C sha256 x5uData 32 = some hash ↔
      ∃ pems pem, parsePemChain C x5uData = .ok pems ∧ pems.getLast? = some pem ∧
        pem.label = "CERTIFICATE".toList ∧ toBytes (sha256 pem.contents) = hash := by
  unfold computeRootCertificateHash
  cases parsePemChain C x5uData with
  | error e => simp
  | ok pems =>
    dsimp only
    constructor
    · intro h
      cases hlast : pems.getLast? with
      | none =>
        rw [hlast] at h
        cases h
      | some pem =>
        rw [hlast] at h
        dsimp only at h
        by_cases hlabel : pem.label = "CERTIFICATE".toList
        · rw [if_neg (not_not.mpr hlabel), if_neg (not_not.mpr rfl)] at h
          exact ⟨pems, pem, rfl, hlast, hlabel, Option.some.inj h⟩
        · rw [if_pos hlabel] at h
          cases h
    · rintro ⟨pems', pem, hpems, hlast, hlabel, rfl⟩
      obtain rfl : pems = pems' := Except.ok.inj hpems
      rw [hlast]
      dsimp only
      rw [if_neg (not_not.mpr hlabel), if_neg (not_not.mpr rfl)]

theorem verifyContentSignatureFfi_eq_true {now : ℤ} {x5u input signature leafSubject : List Byte} :
    verifyContentSignatureFfi C now x5u input signature leafSubject = some true ↔
      (toStr (cStr signature)).isSome ∧ (toStr (cStr leafSubject)).isSome ∧
        ∃ pems chain, parsePemChain C x5u = .ok pems ∧ balrogNew C pems = .ok chain ∧
          verify C input (cStr signature) now (cStr leafSubject) chain = .ok () := by
  unfold verifyContentSignatureFfi
  cases hsig : toStr (cStr signature) with
  | none => simp
  | some sigStr =>
    cases hleaf : toStr (cStr leafSubject) with
    | none => simp
    | some leafSubjectStr =>
      obtain rfl := toStr_eq_some hsig
      obtain rfl := toStr_eq_some hleaf
      simp only [Option.isSome_some, true_and, answer_eq_true, bind_eq_ok]
      constructor
      · rintro ⟨_, pems, hpems, chain, hchain, hverify⟩
        exact ⟨pems, chain, hpems, hchain, hverify⟩
      · rintro ⟨pems, chain, hpems, hchain, hverify⟩
        exact ⟨(), pems, hpems, chain, hchain, hverify⟩

theorem cStr_balrogCertSubjectCn : cStr balrogCertSubjectCn = balrogCertSubjectCn := by decide

theorem pinned_iff {fingerprints : List (List Char)} {hash : List Byte} :
    (fingerprints.any fun fingerprint => hash = fromHex fingerprint) = true ↔
      hash ∈ fingerprints.map fromHex := by
  rw [List.any_eq_true, List.mem_map]
  exact exists_congr fun fingerprint => and_congr_right fun _ => by
    rw [decide_eq_true_eq, eq_comm]

theorem ReadFrom.getLast? {pems : List Pem} {certificates : List (List Byte × X509Certificate)}
    (h : ReadFrom C pems certificates) :
    pems.getLast?.map (·.contents) = certificates.getLast?.map (·.1) := by
  rw [← List.getLast?_map, ← List.getLast?_map, h.contents]

theorem validateSignature_eq_true {fingerprints : List (List Char)} {now : ℤ}
    {x5uData updateData signatureBlob : List Byte} :
    validateSignature C sha256 fingerprints now x5uData updateData signatureBlob = some true ↔
      ∃ hash, computeRootCertificateHash C sha256 x5uData 32 = some hash ∧
        hash ∈ fingerprints.map fromHex ∧
        verifyContentSignatureFfi C now x5uData updateData signatureBlob balrogCertSubjectCn =
          some true := by
  unfold validateSignature
  cases computeRootCertificateHash C sha256 x5uData 32 with
  | none => simp
  | some hash =>
    simp only [Option.some.injEq, exists_eq_left', ← pinned_iff]
    cases hpinned : fingerprints.any fun fingerprint => hash = fromHex fingerprint <;> simp

/-- **Update authenticity.** An update is accepted exactly when its signature is a text and it comes
from the holder of a code signing certificate for updates, at the head of a chain whose last
certificate is the one that is pinned. -/
theorem validateSignature_iff {fingerprints : List (List Char)} {now : ℤ}
    {x5uData updateData signatureBlob : List Byte} :
    validateSignature C sha256 fingerprints now x5uData updateData signatureBlob = some true ↔
      (toStr (cStr signatureBlob)).isSome ∧ ∃ certificates,
        Authentic C sha256 fingerprints now x5uData updateData signatureBlob certificates := by
  rw [validateSignature_eq_true]
  constructor
  · rintro ⟨_, hhash, hpinned, hffi⟩
    obtain ⟨pems, pem, hpems, hlast, -, rfl⟩ := computeRootCertificateHash_eq_some.mp hhash
    obtain ⟨htext, -, pems', chain, hpems', hchain, hverify⟩ :=
      verifyContentSignatureFfi_eq_true.mp hffi
    -- both functions have parsed the same text
    obtain rfl : pems = pems' := by
      rw [hpems] at hpems'
      exact Except.ok.inj hpems'
    obtain ⟨-, certificates, rfl, hread⟩ := balrogNew_eq_ok.mp hchain
    obtain ⟨htrusted, hcode, leaf, hleaf, hhost, hverifies⟩ := verify_eq_ok.mp hverify
    obtain ⟨root, hroot, hself⟩ := htrusted.root
    rw [List.getLast?_map, Option.map_eq_some_iff] at hroot
    obtain ⟨⟨der, root⟩, hroot, rfl⟩ := hroot
    rw [List.head?_map, Option.map_eq_some_iff] at hleaf
    obtain ⟨⟨leafDer, leaf⟩, hleaf, rfl⟩ := hleaf
    have hder : pem.contents = der := by
      have hcontents := hread.getLast?
      rw [hlast, hroot] at hcontents
      exact Option.some.inj hcontents
    rw [cStr_balrogCertSubjectCn] at hhost
    rw [hder] at hpinned
    refine ⟨htext, certificates, ⟨pems, hpems, hread⟩, ⟨der, root, hroot, hpinned, hself⟩,
      htrusted.links, fun c hc => ?_, fun c hc => ?_, leafDer, leaf, hleaf, hhost, hverifies⟩
    · exact htrusted.valid c.2 (List.mem_map_of_mem hc)
    · exact hcode c.2 (List.mem_map_of_mem hc)
  · rintro ⟨htext, certificates, hauth⟩
    obtain ⟨pems, hpems, hread⟩ := hauth.parsed
    obtain ⟨der, root, hroot, hpinned, hself⟩ := hauth.root
    obtain ⟨leafDer, leaf, hleaf, hhost, hverifies⟩ := hauth.leaf
    have hcn : (toStr (cStr balrogCertSubjectCn)).isSome := by
      rw [toStr_balrogCertSubjectCn]
      rfl
    obtain ⟨pem, hlast, hder⟩ : ∃ pem, pems.getLast? = some pem ∧ pem.contents = der := by
      have hcontents := hread.getLast?
      rw [hroot] at hcontents
      exact Option.map_eq_some_iff.mp hcontents
    have hlabel := hread.label pem (List.mem_of_getLast? hlast)
    have hhash : computeRootCertificateHash C sha256 x5uData 32 = some (toBytes (sha256 der)) :=
      computeRootCertificateHash_eq_some.mpr ⟨pems, pem, hpems, hlast, hlabel, by rw [hder]⟩
    refine ⟨_, hhash, hpinned, ?_⟩
    refine verifyContentSignatureFfi_eq_true.mpr ⟨htext, hcn, pems, certificates.map (·.2), hpems,
      balrogNew_eq_ok.mpr ⟨?_, certificates, rfl, hread⟩, verify_eq_ok.mpr ⟨?_, ?_, ?_⟩⟩
    · rintro rfl
      simp at hlast
    · exact ⟨hauth.links, root, by rw [List.getLast?_map, hroot]; rfl, hself⟩
    · intro c hc
      obtain ⟨certificate, hmem, rfl⟩ := List.mem_map.mp hc
      exact hauth.codeSigning certificate hmem
    · exact ⟨leaf, by rw [List.head?_map, hleaf]; rfl, by rwa [cStr_balrogCertSubjectCn],
        hverifies⟩

example : validateSignature selfSignedCrates
    (fun _ => 0x97e8ba9cf12fb3de53cc42a4e6577ed64df493c247b414fea036818d3823560e#256)
    ["97e8ba9cf12fb3de53cc42a4e6577ed64df493c247b414fea036818d3823560e".toList] 50 [] []
    (ascii "AAAA") = some true := by
  rfl

end Results

end WgDesktop.Signature
