import WgDesktop.Lib.Der
import WgDesktop.Lib.Runs

/-!
# Content signatures

The verification of certificate chains and content signatures, from `signature/src/balrog.rs`.
The parsers and the cryptography are those of other crates; `Crates` names what the module
calls of them.

A content signature carries the two numbers of an ECDSA signature side by side:
`strictlyEncoded_iff` says which of them get their distinguished encoding, and `verify_ne_panic_iff`
which signatures stop the verification.
-/

namespace WgDesktop.Signature

open Bytes Runs

/-! ## Errors -/

/-- `X509Error`, with the errors that the module makes itself. -/
inductive X509Error where
  | invalidCertificate
  | signatureUnsupportedAlgorithm
  | other (code : ℕ)
  deriving DecidableEq, Repr

inductive BalrogError where
  | certificateNotFound
  | chainSubjectMismatch
  | certificateExpired
  | issuerUnauthorized
  | codeSignUnauthorized
  | rootHashParseFailed
  | rootHashMismatch
  | hostnameMismatch
  | signatureDecodeError
  | pemDecodeError (message : List Char)
  | x509ValidationError (reason : List Char)
  | x509 (error : X509Error)
  deriving DecidableEq, Repr

/-- How a function stops without a result: it returns an error, or panics. -/
inductive Stop where
  | panic
  | error (e : BalrogError)
  deriving DecidableEq, Repr

abbrev Verify := Except Stop

/-- `return Err(…)`. -/
def fail {α : Type} (e : BalrogError) : Verify α := .error (.error e)

/-- `?` on a result of `x509_parser`. -/
def liftX509 {α : Type} : Except X509Error α → Verify α
  | .ok a => .ok a
  | .error e => fail (.x509 e)

/-- `v[i]`. -/
def index {α : Type} (v : List α) (i : ℕ) : Verify α :=
  match v[i]? with
  | some a => .ok a
  | none => .error .panic

@[simp] theorem liftX509_eq_ok {α : Type} {x : Except X509Error α} {a : α} :
    liftX509 x = .ok a ↔ x = .ok a := by
  cases x <;> simp [liftX509, fail]

/-! ## What the crates give -/

/-- `asn1_rs`: the encodings of an integer and of a sequence with the given contents. -/
structure Asn1Rs where
  integerToDer : List Byte → Option (List Byte)
  sequenceToDer : List Byte → Option (List Byte)

/-- `Integer::new` and `Sequence` write the contents they are given, as they are. -/
structure Asn1Rs.Verbatim (A : Asn1Rs) : Prop where
  integer : ∀ content, A.integerToDer content = some (Der.element Der.integerTag content)
  sequence : ∀ content, A.sequenceToDer content = some (Der.element Der.sequenceTag content)

def Asn1Rs.der : Asn1Rs where
  integerToDer content := some (Der.element Der.integerTag content)
  sequenceToDer content := some (Der.element Der.sequenceTag content)

theorem Asn1Rs.verbatim_der : Asn1Rs.der.Verbatim := ⟨fun _ => rfl, fun _ => rfl⟩

structure Pem where
  label : List Char
  contents : List Byte
  deriving DecidableEq, Repr

/-- `GeneralName`. Strings are the bytes of their text. -/
inductive GeneralName where
  | dnsName (name : List Byte)
  | other
  deriving DecidableEq, Repr

abbrev Oid := List ℕ

def oidKeyTypeEcPublicKey : Oid := [1, 2, 840, 10045, 2, 1]
def oidSigEcdsaWithSha256 : Oid := [1, 2, 840, 10045, 4, 3, 2]
def oidSigEcdsaWithSha384 : Oid := [1, 2, 840, 10045, 4, 3, 3]

structure SubjectPublicKeyInfo where
  algorithm : Oid
  subjectPublicKey : List Byte
  deriving DecidableEq, Repr

/-- What the module reads of an `X509Certificate`. A name that is no string and an extension that is
given twice are errors. -/
structure X509Certificate where
  issuer : List Byte
  subject : List Byte
  commonNames : List (Except X509Error (List Byte))
  notBefore : ℤ
  notAfter : ℤ
  /-- `key_cert_sign` of the key usage. -/
  keyUsage : Except X509Error (Option Bool)
  isCa : Bool
  /-- `code_signing` of the extended key usage. -/
  extendedKeyUsage : Except X509Error (Option Bool)
  subjectAlternativeName : Except X509Error (Option (List GeneralName))
  publicKey : SubjectPublicKeyInfo

/-- `x509_parser`, `data_encoding` and `asn1_rs`. -/
structure Crates where
  /-- `Pem::iter_from_buffer`. -/
  iterFromBuffer : List Byte → List (Except (List Char) Pem)
  /-- `X509Certificate::from_der`, with the bytes behind the certificate. -/
  fromDer : List Byte → Except X509Error (List Byte × X509Certificate)
  /-- `ASN1Time::from_timestamp`. -/
  fromTimestamp : ℤ → Except X509Error ℤ
  /-- `Validity::is_valid_at`. Both bounds are times at which a certificate is valid. -/
  isValidAt : X509Certificate → ℤ → Bool
  isValidAt_iff : ∀ c t, isValidAt c t = true ↔ c.notBefore ≤ t ∧ t ≤ c.notAfter
  /-- `X509StructureValidator.chain(X509CertificateValidator)`, with the errors it logs. -/
  validate : X509Certificate → Bool × List (List Char)
  /-- `X509Certificate::verify_signature`. -/
  verifyCertificate : X509Certificate → SubjectPublicKeyInfo → Except X509Error Unit
  /-- `key_size` of the parsed key. -/
  keySize : SubjectPublicKeyInfo → Except X509Error ℕ
  /-- `x509_parser::verify::verify_signature`. -/
  verifySignature : SubjectPublicKeyInfo → Oid → List Byte → List Byte → Except X509Error Unit
  /-- `BASE64URL_NOPAD.decode`. -/
  decode : List Byte → Option (List Byte)
  asn1 : Asn1Rs

section Functions

variable (C : Crates)

/-! ## Parsing -/

def parsePemChain (input : List Byte) : Verify (List Pem) :=
  (C.iterFromBuffer input).mapM fun
    | .ok pem => .ok pem
    | .error message => fail (.pemDecodeError message)

/-- The loop of `Balrog::new`. -/
def parseCertificate (pem : Pem) : Verify X509Certificate := do
  if pem.label ≠ "CERTIFICATE".toList then fail (.x509 .invalidCertificate)
  else
    let (tail, x509) ← liftX509 (C.fromDer pem.contents)
    if !tail.isEmpty then fail (.x509 .invalidCertificate) else .ok x509

/-- `Balrog::new`: the chain. -/
def balrogNew (list : List Pem) : Verify (List X509Certificate) :=
  if list.isEmpty then fail .certificateNotFound else list.mapM (parseCertificate C)

/-! ## The chain -/

def verifyCertChainPair (currentTime : ℤ) (subject issuer : X509Certificate) : Verify Unit := do
  if subject.issuer ≠ issuer.subject then fail .chainSubjectMismatch
  else
    let asnTimestamp ← liftX509 (C.fromTimestamp currentTime)
    if !C.isValidAt subject asnTimestamp then fail .certificateExpired
    else if !C.isValidAt issuer asnTimestamp then fail .certificateExpired
    else
      match ← liftX509 issuer.keyUsage with
      | none => fail .issuerUnauthorized
      | some keyCertSign =>
        if !keyCertSign then fail .issuerUnauthorized
        else if !issuer.isCa then fail .issuerUnauthorized
        else
          let (ok, errors) := C.validate subject
          if !ok then fail (.x509ValidationError (errors.head?.getD "Unknown error".toList))
          else liftX509 (C.verifyCertificate subject issuer.publicKey)

/-- The loop of `verify_chain`, with the number of pairs that are left. -/
def verifyPairs (currentTime : ℤ) (chain : List X509Certificate) : ℕ → ℕ → Verify Unit
  | 0, _ => .ok ()
  | left + 1, i => do
    let subject ← index chain i
    let issuer ← index chain (i + 1)
    verifyCertChainPair C currentTime subject issuer
    verifyPairs currentTime chain left (i + 1)

def verifyChain (currentTime : ℤ) (chain : List X509Certificate) : Verify Unit := do
  if chain.isEmpty then fail .certificateNotFound
  else
    verifyPairs C currentTime chain (chain.length - 1) 0
    match chain.getLast? with
    | some rootCert => verifyCertChainPair C currentTime rootCert rootCert
    | none => .error .panic

/-! ## The host name -/

/-- Whether one of the common names is the host name. -/
def matchCommonName (hostname : List Byte) : List (Except X509Error (List Byte)) → Verify Bool
  | [] => .ok false
  | cn :: cns => do
    let name ← liftX509 cn
    if name = hostname then .ok true else matchCommonName hostname cns

def verifyLeafHostname (hostname : List Byte) (chain : List X509Certificate) : Verify Unit := do
  match chain.head? with
  | none => fail .certificateNotFound
  | some leaf =>
    if ← matchCommonName hostname leaf.commonNames then .ok ()
    else
      match ← liftX509 leaf.subjectAlternativeName with
      | some generalNames =>
        if .dnsName hostname ∈ generalNames then .ok () else fail .hostnameMismatch
      | none => fail .hostnameMismatch

/-! ## The signature -/

/-- A half of a signature, with a zero byte in front where its leading bit is set. -/
def unsignedHalf (half : List Byte) : Verify (List Byte) := do
  let first ← index half 0
  .ok (if first &&& 0x80#8 ≠ 0 then 0x00#8 :: half else half)

def ecdsaSignatureToAsn1 (A : Asn1Rs) (input : List Byte) : Verify (List Byte) := do
  let r ← unsignedHalf (input.take (input.length / 2))
  let s ← unsignedHalf (input.drop (input.length / 2))
  match [r, s].mapM A.integerToDer with
  | none => fail .signatureDecodeError
  | some items =>
    match A.sequenceToDer items.flatten with
    | none => fail .signatureDecodeError
    | some der => .ok der

/-- Whether a certificate is for code signing. -/
def X509Certificate.codeSignExt (c : X509Certificate) : Bool :=
  match c.extendedKeyUsage with
  | .ok (some codeSigning) => codeSigning
  | _ => false

def contentPrefix : List Byte :=
  ("Content-Signature:".toList ++ ['\x00']).map fun c => .ofNat 8 c.toNat

def verifyContentSignature (input signature : List Byte) (chain : List X509Certificate) :
    Verify Unit := do
  if chain.any fun x => !x.codeSignExt then fail .codeSignUnauthorized
  else
    match chain.head? with
    | none => fail .certificateNotFound
    | some leaf =>
      match C.decode signature with
      | none => fail .signatureDecodeError
      | some sigDecode =>
        let sigDer ← ecdsaSignatureToAsn1 C.asn1 sigDecode
        let pubkey := leaf.publicKey
        if pubkey.algorithm ≠ oidKeyTypeEcPublicKey then
          fail (.x509 .signatureUnsupportedAlgorithm)
        else
          let keybits ← liftX509 (C.keySize pubkey)
          let algorithm := if keybits ≤ 256 then oidSigEcdsaWithSha256 else oidSigEcdsaWithSha384
          liftX509 (C.verifySignature pubkey algorithm sigDer (contentPrefix ++ input))

def verify (input signature : List Byte) (currentTime : ℤ) (leafSubject : List Byte)
    (chain : List X509Certificate) : Verify Unit := do
  verifyChain C currentTime chain
  verifyLeafHostname leafSubject chain
  verifyContentSignature C input signature chain

end Functions

/-! ## The encoding of a signature -/

theorem and_0x80_ne_zero (b : Byte) : b &&& 0x80#8 ≠ 0 ↔ b.msb = true := by
  revert b
  decide

@[simp] theorem unsignedHalf_nil : unsignedHalf [] = .error .panic := rfl

/-- The zero byte goes where the contents of a number have one. -/
@[simp] theorem unsignedHalf_cons (b : Byte) (bs : List Byte) :
    unsignedHalf (b :: bs) = .ok (Der.contents (b :: bs)) := by
  have hindex : index (b :: bs) 0 = .ok b := rfl
  rw [unsignedHalf, hindex, Der.contents_cons]
  change Except.ok (if b &&& 0x80#8 ≠ 0 then _ else _) = _
  by_cases hmsb : b.msb = true
  · rw [if_pos ((and_0x80_ne_zero b).mpr hmsb), if_pos hmsb]
  · rw [if_neg fun h => hmsb ((and_0x80_ne_zero b).mp h), if_neg hmsb]

theorem unsignedHalf_of_ne_nil {bs : List Byte} (h : bs ≠ []) :
    unsignedHalf bs = .ok (Der.contents bs) := by
  obtain ⟨b, bs, rfl⟩ := List.exists_cons_of_ne_nil h
  exact unsignedHalf_cons b bs

theorem take_half_ne_nil {input : List Byte} (h : 2 ≤ input.length) :
    input.take (input.length / 2) ≠ [] := by
  rw [← List.length_pos_iff, List.length_take]
  omega

theorem drop_half_ne_nil {input : List Byte} (h : 1 ≤ input.length) :
    input.drop (input.length / 2) ≠ [] := by
  rw [← List.length_pos_iff, List.length_drop]
  omega

section Encoding

variable {A : Asn1Rs} {input : List Byte}

theorem ecdsaSignatureToAsn1_eq (hA : A.Verbatim) (h : 2 ≤ input.length) :
    ecdsaSignatureToAsn1 A input =
      .ok (Der.sequence [
        Der.element Der.integerTag (Der.contents (input.take (input.length / 2))),
        Der.element Der.integerTag (Der.contents (input.drop (input.length / 2)))]) := by
  rw [ecdsaSignatureToAsn1, unsignedHalf_of_ne_nil (take_half_ne_nil h),
    unsignedHalf_of_ne_nil (drop_half_ne_nil (by omega))]
  simp [bind, Except.bind, hA.integer, hA.sequence, Der.sequence]

/-- The only inputs that panic have less than two bytes. -/
theorem ecdsaSignatureToAsn1_panic_iff :
    ecdsaSignatureToAsn1 A input = .error .panic ↔ input.length < 2 := by
  constructor
  · intro hpanic
    by_contra hlen
    rw [ecdsaSignatureToAsn1, unsignedHalf_of_ne_nil (take_half_ne_nil (by omega)),
      unsignedHalf_of_ne_nil (drop_half_ne_nil (by omega))] at hpanic
    simp only [bind, Except.bind] at hpanic
    split at hpanic
    · simp [fail] at hpanic
    · split at hpanic
      · simp [fail] at hpanic
      · simp at hpanic
  · intro hlen
    have hempty : input.take (input.length / 2) = [] := by
      rw [List.take_eq_nil_iff]
      omega
    rw [ecdsaSignatureToAsn1, hempty, unsignedHalf_nil]
    rfl

/-- A half whose leading nine bits are zero. -/
def NineZeros (half : List Byte) : Prop := ∃ c rest, half = 0#8 :: c :: rest ∧ c.msb = false

theorem nineZeros_cons_cons (b c : Byte) (rest : List Byte) :
    NineZeros (b :: c :: rest) ↔ b = 0#8 ∧ c.msb = false := by
  simp [NineZeros]

/-- The signature becomes the distinguished encoding of its two numbers, and a strict reader
gets them back. -/
def StrictlyEncoded (A : Asn1Rs) (input : List Byte) : Prop :=
  let r := Der.value (input.take (input.length / 2))
  let s := Der.value (input.drop (input.length / 2))
  ∃ out, ecdsaSignatureToAsn1 A input = .ok out ∧
    out = Der.sequence [Der.integer r, Der.integer s] ∧
    Der.readIntegerPair out = some ((r : ℤ), (s : ℤ))

/-- The contents that two halves of a slice get are far from the longest. -/
theorem length_pair_lt {a b : List Byte} {tag : Byte} (ha : a.length < 2 ^ 63)
    (hb : b.length < 2 ^ 63) :
    a.length < Der.maxLength ∧ b.length < Der.maxLength ∧
      [Der.element tag a, Der.element tag b].flatten.length < Der.maxLength := by
  have hmax : 2 ^ 63 + 2 ^ 63 + 256 < Der.maxLength := by norm_num [Der.maxLength]
  have ha' : a.length < Der.maxLength := by omega
  have hb' : b.length < Der.maxLength := by omega
  have hea := Der.length_element_le ha' tag
  have heb := Der.length_element_le hb' tag
  refine ⟨ha', hb', ?_⟩
  simp only [List.flatten_cons, List.flatten_nil, List.length_append, List.length_nil]
  omega

/-- A reader gets the numbers of two halves back from their distinguished encoding. -/
theorem readIntegerPair_halves {r s : List Byte} (hr : r.length + 1 < 2 ^ 63)
    (hs : s.length + 1 < 2 ^ 63) :
    Der.readIntegerPair (Der.sequence [Der.integer (Der.value r), Der.integer (Der.value s)]) =
      some ((Der.value r : ℤ), (Der.value s : ℤ)) := by
  have hir := Der.length_integerContents_value_le r
  have his := Der.length_integerContents_value_le s
  obtain ⟨h₁, h₂, h₃⟩ := @length_pair_lt (Der.integerContents (Der.value r))
    (Der.integerContents (Der.value s)) Der.integerTag (by omega) (by omega)
  exact Der.readIntegerPair_sequence h₁ h₂ h₃

/-- The contents of two halves make up the distinguished encoding only where each of them is that of
its number. -/
theorem sequence_contents_eq_iff {r s : List Byte} (hr : r.length + 1 < 2 ^ 63)
    (hs : s.length + 1 < 2 ^ 63) (hrpos : 0 < Der.value r) (hspos : 0 < Der.value s) :
    Der.sequence [Der.element Der.integerTag (Der.contents r),
        Der.element Der.integerTag (Der.contents s)] =
      Der.sequence [Der.integer (Der.value r), Der.integer (Der.value s)] ↔
      ¬ NineZeros r ∧ ¬ NineZeros s := by
  have hcr := Der.length_contents_le r
  have hcs := Der.length_contents_le s
  have hir := Der.length_integerContents_value_le r
  have his := Der.length_integerContents_value_le s
  obtain ⟨h₁, h₂, h₃⟩ := @length_pair_lt (Der.contents r) (Der.contents s) Der.integerTag
    (by omega) (by omega)
  obtain ⟨h₄, h₅, h₆⟩ := @length_pair_lt (Der.integerContents (Der.value r))
    (Der.integerContents (Der.value s)) Der.integerTag (by omega) (by omega)
  rw [Der.integer, Der.integer, Der.sequence_pair_inj h₁ h₂ h₄ h₅ h₃ h₆,
    eq_comm, Der.integerContents_value hrpos, eq_comm (a := Der.contents s),
    Der.integerContents_value hspos]
  exact Iff.rfl

/-- **The encoding.** A signature of two positive halves, no longer than a slice can be, is encoded
strictly exactly when neither half starts with nine zero bits. -/
theorem strictlyEncoded_iff (hA : A.Verbatim) (heven : 2 ∣ input.length)
    (hlen : input.length < 2 ^ 63)
    (hr : 0 < Der.value (input.take (input.length / 2)))
    (hs : 0 < Der.value (input.drop (input.length / 2))) :
    StrictlyEncoded A input ↔
      ¬ NineZeros (input.take (input.length / 2)) ∧
        ¬ NineZeros (input.drop (input.length / 2)) := by
  have htwo : 2 ≤ input.length := by
    by_contra hshort
    have hempty : input.take (input.length / 2) = [] := by
      rw [List.take_eq_nil_iff]
      omega
    rw [hempty] at hr
    exact absurd hr (by simp)
  have hrlen : (input.take (input.length / 2)).length + 1 < 2 ^ 63 := by
    rw [List.length_take]
    omega
  have hslen : (input.drop (input.length / 2)).length + 1 < 2 ^ 63 := by
    rw [List.length_drop]
    omega
  rw [StrictlyEncoded, ecdsaSignatureToAsn1_eq hA htwo,
    ← sequence_contents_eq_iff hrlen hslen hr hs]
  constructor
  · rintro ⟨out, hout, heq, -⟩
    rw [Except.ok.injEq] at hout
    rw [hout, heq]
  · intro heq
    exact ⟨_, rfl, heq, by rw [heq, readIntegerPair_halves hrlen hslen]⟩

end Encoding

/-- A zero byte in front of a set bit belongs to the number. -/
theorem strictlyEncoded_sample :
    Asn1Rs.der.Verbatim ∧ StrictlyEncoded .der [0x00#8, 0x80#8, 0x01#8, 0x00#8] :=
  ⟨Asn1Rs.verbatim_der, (strictlyEncoded_iff Asn1Rs.verbatim_der (by decide) (by decide) (by decide)
    (by decide)).mpr
    ⟨(nineZeros_cons_cons 0x00#8 0x80#8 []).not.mpr (by decide),
      (nineZeros_cons_cons 0x01#8 0x00#8 []).not.mpr (by decide)⟩⟩

/-- A half with a leading zero byte keeps it: the encoding is not the distinguished one, and a
strict reader refuses it. -/
theorem padded_half_kept :
    ecdsaSignatureToAsn1 .der [0x00#8, 0x01#8, 0x01#8, 0x00#8] =
        .ok [0x30#8, 0x08#8, 0x02#8, 0x02#8, 0x00#8, 0x01#8, 0x02#8, 0x02#8, 0x01#8, 0x00#8] ∧
      Der.readIntegerPair
        [0x30#8, 0x08#8, 0x02#8, 0x02#8, 0x00#8, 0x01#8, 0x02#8, 0x02#8, 0x01#8, 0x00#8] = none ∧
      ¬ StrictlyEncoded .der [0x00#8, 0x01#8, 0x01#8, 0x00#8] := by
  have hout : ecdsaSignatureToAsn1 .der [0x00#8, 0x01#8, 0x01#8, 0x00#8] =
      .ok [0x30#8, 0x08#8, 0x02#8, 0x02#8, 0x00#8, 0x01#8, 0x02#8, 0x02#8, 0x01#8, 0x00#8] := by
    decide
  have hread : Der.readIntegerPair
      [0x30#8, 0x08#8, 0x02#8, 0x02#8, 0x00#8, 0x01#8, 0x02#8, 0x02#8, 0x01#8, 0x00#8] = none := by
    decide
  refine ⟨hout, hread, ?_⟩
  rintro ⟨out, hok, -, hpair⟩
  rw [hout, Except.ok.injEq] at hok
  rw [← hok, hread] at hpair
  cases hpair

/-! ## What the checks accept -/

section Checks

variable (C : Crates)

/-- A certificate that is valid at a time, given in seconds. -/
def X509Certificate.ValidAt (currentTime : ℤ) (c : X509Certificate) : Prop :=
  ∃ t, C.fromTimestamp currentTime = .ok t ∧ c.notBefore ≤ t ∧ t ≤ c.notAfter

/-- The issuer has named and signed the subject, as an authority that may sign certificates,
and both are valid. -/
structure Issued (currentTime : ℤ) (subject issuer : X509Certificate) : Prop where
  named : subject.issuer = issuer.subject
  subject_valid : subject.ValidAt C currentTime
  issuer_valid : issuer.ValidAt C currentTime
  keyCertSign : issuer.keyUsage = .ok (some true)
  isCa : issuer.isCa = true
  wellFormed : (C.validate subject).1 = true
  signed : C.verifyCertificate subject issuer.publicKey = .ok ()

/-- Every certificate of the chain is issued by the next one, and the last one by itself. -/
structure Trusted (currentTime : ℤ) (chain : List X509Certificate) : Prop where
  links : chain.IsChain (Issued C currentTime)
  root : ∃ root, chain.getLast? = some root ∧ Issued C currentTime root root

/-- The host name is a common name of the certificate, or else one of its alternative names. Names
that are read before it are well formed. -/
def X509Certificate.HasHostname (hostname : List Byte) (c : X509Certificate) : Prop :=
  (∃ before after, c.commonNames = before ++ .ok hostname :: after ∧
    ∀ cn ∈ before, ∃ name, cn = .ok name) ∨
  ((∀ cn ∈ c.commonNames, ∃ name, cn = .ok name) ∧
    ∃ generalNames, c.subjectAlternativeName = .ok (some generalNames) ∧
      .dnsName hostname ∈ generalNames)

variable {C} {currentTime : ℤ} {subject issuer : X509Certificate} {chain : List X509Certificate}

@[simp] theorem fail_ne_ok {α : Type} (e : BalrogError) (a : α) : (fail e : Verify α) ≠ .ok a := by
  simp [fail]

theorem fail_ne_panic {α : Type} (e : BalrogError) : (fail e : Verify α) ≠ .error .panic := by
  simp [fail]

theorem liftX509_ne_panic {α : Type} (x : Except X509Error α) : liftX509 x ≠ .error .panic := by
  cases x <;> simp [liftX509, fail]

theorem ite_fail_eq_ok {α : Type} {p : Prop} [Decidable p] {e : BalrogError} {x : Verify α}
    {a : α} :
    (if p then fail e else x) = .ok a ↔ ¬ p ∧ x = .ok a := by
  by_cases hp : p
  · simp [hp]
  · simp [hp]

theorem ite_ne_panic {α : Type} {p : Prop} [Decidable p] {x y : Verify α} (hx : x ≠ .error .panic)
    (hy : y ≠ .error .panic) : (if p then x else y) ≠ .error .panic := by
  split
  · exact hx
  · exact hy

theorem bind_ne_panic {α β : Type} {x : Verify α} {f : α → Verify β} (hx : x ≠ .error .panic)
    (hf : ∀ a, x = .ok a → f a ≠ .error .panic) : x >>= f ≠ .error .panic := by
  cases x with
  | error e => simpa [bind, Except.bind] using hx
  | ok a => exact hf a rfl

theorem check_bind_eq_ok {α : Type} {x : Verify Unit} {f : Unit → Verify α} {a : α} :
    x >>= f = .ok a ↔ x = .ok () ∧ f () = .ok a := by
  cases x with
  | error e => simp [bind, Except.bind]
  | ok u => simp [bind, Except.bind]

theorem check_bind_panic_iff {α : Type} {x : Verify Unit} {f : Unit → Verify α}
    (hx : x ≠ .error .panic) :
    x >>= f = .error .panic ↔ x = .ok () ∧ f () = .error .panic := by
  cases x with
  | error e => simpa [bind, Except.bind] using hx
  | ok u => simp [bind, Except.bind]

theorem index_eq_ok {α : Type} {v : List α} {i : ℕ} (h : i < v.length) : index v i = .ok v[i] := by
  rw [index, List.getElem?_eq_getElem h]

/-! ### Pairs -/

theorem verifyCertChainPair_eq_ok :
    verifyCertChainPair C currentTime subject issuer = .ok () ↔
      Issued C currentTime subject issuer := by
  simp only [verifyCertChainPair, ite_fail_eq_ok, bind_eq_ok, liftX509_eq_ok]
  constructor
  · rintro ⟨hnamed, t, ht, hsubject, hissuer, usage, husage, h⟩
    cases usage with
    | none => exact absurd h (fail_ne_ok _ _)
    | some keyCertSign =>
      simp only [ite_fail_eq_ok, liftX509_eq_ok] at h
      obtain ⟨hsign, hca, hvalid, hsigned⟩ := h
      have hs := (C.isValidAt_iff _ _).mp (by simpa using hsubject)
      have hi := (C.isValidAt_iff _ _).mp (by simpa using hissuer)
      have hsign : keyCertSign = true := by simpa using hsign
      exact ⟨by simpa using hnamed, ⟨t, ht, hs⟩, ⟨t, ht, hi⟩, by rw [husage, hsign],
        by simpa using hca, by simpa using hvalid, hsigned⟩
  · intro h
    obtain ⟨t, ht, hs⟩ := h.subject_valid
    obtain ⟨t', ht', hi⟩ := h.issuer_valid
    obtain rfl : t = t' := by
      rw [ht] at ht'
      exact Except.ok.inj ht'
    refine ⟨by simpa using h.named, t, ht, ?_, ?_, some true, h.keyCertSign, ?_⟩
    · simpa using (C.isValidAt_iff _ _).mpr hs
    · simpa using (C.isValidAt_iff _ _).mpr hi
    · simp [h.isCa, h.wellFormed, h.signed]

theorem verifyCertChainPair_ne_panic :
    verifyCertChainPair C currentTime subject issuer ≠ .error .panic := by
  unfold verifyCertChainPair
  refine ite_ne_panic (fail_ne_panic _) (bind_ne_panic (liftX509_ne_panic _) fun t _ => ?_)
  refine ite_ne_panic (fail_ne_panic _) (ite_ne_panic (fail_ne_panic _) ?_)
  refine bind_ne_panic (liftX509_ne_panic _) fun usage _ => ?_
  cases usage with
  | none => exact fail_ne_panic _
  | some keyCertSign =>
    refine ite_ne_panic (fail_ne_panic _) (ite_ne_panic (fail_ne_panic _) ?_)
    exact ite_ne_panic (fail_ne_panic _) (liftX509_ne_panic _)

/-! ### Chains -/

theorem verifyPairs_succ {left i : ℕ} (h : i + 1 < chain.length) :
    verifyPairs C currentTime chain (left + 1) i =
      verifyCertChainPair C currentTime chain[i] chain[i + 1] >>= fun _ =>
        verifyPairs C currentTime chain left (i + 1) := by
  rw [verifyPairs, index_eq_ok (by omega : i < chain.length), index_eq_ok h]
  rfl

theorem verifyPairs_eq_ok {left i : ℕ} (h : i + left < chain.length) :
    verifyPairs C currentTime chain left i = .ok () ↔
      ∀ k (_ : i ≤ k) (hk : k < i + left),
        Issued C currentTime (getElem chain k (by omega)) (getElem chain (k + 1) (by omega)) := by
  induction left generalizing i with
  | zero =>
    refine ⟨fun _ k hik hk => absurd hk (by omega), fun _ => rfl⟩
  | succ left ih =>
    rw [verifyPairs_succ (by omega), check_bind_eq_ok]
    constructor
    · rintro ⟨hpair, hrest⟩ k hik hk
      rcases Nat.eq_or_lt_of_le hik with rfl | hlt
      · exact verifyCertChainPair_eq_ok.mp hpair
      · exact (ih (by omega)).mp hrest k (by omega) (by omega)
    · intro hall
      exact ⟨verifyCertChainPair_eq_ok.mpr (hall i le_rfl (by omega)),
        (ih (by omega)).mpr fun k hik hk => hall k (by omega) (by omega)⟩

/-- **No index of the loop is out of range.** -/
theorem verifyPairs_ne_panic {left i : ℕ} (h : i + left < chain.length) :
    verifyPairs C currentTime chain left i ≠ .error .panic := by
  induction left generalizing i with
  | zero => simp [verifyPairs]
  | succ left ih =>
    rw [verifyPairs_succ (by omega)]
    exact bind_ne_panic verifyCertChainPair_ne_panic fun _ _ => ih (by omega)

theorem verifyChain_eq_ok :
    verifyChain C currentTime chain = .ok () ↔ Trusted C currentTime chain := by
  unfold verifyChain
  cases hlast : chain.getLast? with
  | none =>
    obtain rfl := List.getLast?_eq_none_iff.mp hlast
    constructor
    · intro h
      exact absurd h (fail_ne_ok _ _)
    · intro h
      obtain ⟨root, hroot, -⟩ := h.root
      simp at hroot
  | some root =>
    have hne : chain ≠ [] := by
      rintro rfl
      simp at hlast
    have hlen : 0 < chain.length := List.length_pos_iff.mpr hne
    have hpairs := @verifyPairs_eq_ok C currentTime chain (chain.length - 1) 0 (by omega)
    rw [if_neg (by simpa using hne), check_bind_eq_ok]
    constructor
    · rintro ⟨hlinks, hroot⟩
      rw [hpairs] at hlinks
      exact ⟨List.isChain_iff_getElem.mpr fun i hi => hlinks i (by omega) (by omega),
        root, hlast, verifyCertChainPair_eq_ok.mp hroot⟩
    · intro h
      obtain ⟨root', hlast', hroot⟩ := h.root
      obtain rfl : root = root' := by
        rw [hlast] at hlast'
        exact Option.some.inj hlast'
      exact ⟨hpairs.mpr fun k _ hk => List.isChain_iff_getElem.mp h.links k (by omega),
        verifyCertChainPair_eq_ok.mpr hroot⟩

theorem verifyChain_ne_panic : verifyChain C currentTime chain ≠ .error .panic := by
  unfold verifyChain
  by_cases hempty : chain.isEmpty = true
  · rw [if_pos hempty]
    exact fail_ne_panic _
  · have hne : chain ≠ [] := by simpa using hempty
    have hlen : 0 < chain.length := List.length_pos_iff.mpr hne
    rw [if_neg hempty, List.getLast?_eq_getLast_of_ne_nil hne]
    exact bind_ne_panic (verifyPairs_ne_panic (by omega)) fun _ _ => verifyCertChainPair_ne_panic

/-! ### The host name -/

section Hostname

variable {hostname : List Byte} {cns : List (Except X509Error (List Byte))}

theorem matchCommonName_eq_true :
    matchCommonName hostname cns = .ok true ↔
      ∃ before after, cns = before ++ .ok hostname :: after ∧
        ∀ cn ∈ before, ∃ name, cn = .ok name := by
  induction cns with
  | nil => simp [matchCommonName]
  | cons cn cns ih =>
    rw [matchCommonName, bind_eq_ok]
    constructor
    · rintro ⟨name, hname, h⟩
      rw [liftX509_eq_ok] at hname
      by_cases heq : name = hostname
      · exact ⟨[], cns, by rw [hname, heq]; rfl, by simp⟩
      · rw [if_neg heq] at h
        obtain ⟨before, after, rfl, hbefore⟩ := ih.mp h
        refine ⟨cn :: before, after, rfl, fun cn' hcn' => ?_⟩
        rcases List.mem_cons.mp hcn' with rfl | hcn'
        · exact ⟨name, hname⟩
        · exact hbefore cn' hcn'
    · rintro ⟨before, after, hsplit, hbefore⟩
      cases before with
      | nil =>
        obtain ⟨rfl, -⟩ : cn = .ok hostname ∧ cns = after := by simpa using hsplit
        exact ⟨hostname, rfl, if_pos rfl⟩
      | cons cn' before =>
        obtain ⟨rfl, rfl⟩ : cn = cn' ∧ cns = before ++ .ok hostname :: after := by
          simpa using hsplit
        obtain ⟨name, rfl⟩ := hbefore cn (by simp)
        refine ⟨name, rfl, ?_⟩
        split_ifs
        · rfl
        · exact ih.mpr ⟨before, after, rfl, fun cn hcn => hbefore cn (by simp [hcn])⟩

theorem exists_of_matchCommonName_eq_false (h : matchCommonName hostname cns = .ok false) :
    ∀ cn ∈ cns, ∃ name, cn = .ok name := by
  induction cns with
  | nil => simp
  | cons cn cns ih =>
    rw [matchCommonName, bind_eq_ok] at h
    obtain ⟨name, hname, h⟩ := h
    rw [liftX509_eq_ok] at hname
    split_ifs at h
    · cases h
    · exact List.forall_mem_cons.mpr ⟨⟨name, hname⟩, ih h⟩

theorem exists_matchCommonName_eq (h : ∀ cn ∈ cns, ∃ name, cn = .ok name) :
    ∃ found, matchCommonName hostname cns = .ok found := by
  induction cns with
  | nil => exact ⟨false, rfl⟩
  | cons cn cns ih =>
    obtain ⟨name, rfl⟩ := h cn (by simp)
    obtain ⟨found, hfound⟩ := ih fun cn hcn => h cn (by simp [hcn])
    by_cases heq : name = hostname
    · exact ⟨true, by simp [matchCommonName, liftX509, heq, bind, Except.bind]⟩
    · exact ⟨found, by simp [matchCommonName, liftX509, heq, bind, Except.bind, hfound]⟩

theorem matchCommonName_ne_panic : matchCommonName hostname cns ≠ .error .panic := by
  induction cns with
  | nil => simp [matchCommonName]
  | cons cn cns ih =>
    exact bind_ne_panic (liftX509_ne_panic _) fun name _ => ite_ne_panic (by simp) ih

theorem alternativeName_eq_ok {names : Option (List GeneralName)} :
    (match names with
      | some generalNames =>
        if .dnsName hostname ∈ generalNames then .ok () else fail .hostnameMismatch
      | none => fail .hostnameMismatch : Verify Unit) = .ok () ↔
      ∃ generalNames, names = some generalNames ∧ .dnsName hostname ∈ generalNames := by
  cases names with
  | none => simp
  | some generalNames =>
    by_cases hmem : GeneralName.dnsName hostname ∈ generalNames
    · simp [hmem]
    · simp [hmem]

theorem verifyLeafHostname_eq_ok :
    verifyLeafHostname hostname chain = .ok () ↔
      ∃ leaf, chain.head? = some leaf ∧ leaf.HasHostname hostname := by
  unfold verifyLeafHostname
  cases chain.head? with
  | none => simp
  | some leaf =>
    simp only [Option.some.injEq, exists_eq_left', X509Certificate.HasHostname]
    rw [bind_eq_ok, ← matchCommonName_eq_true]
    constructor
    · rintro ⟨found, hfound, h⟩
      cases found with
      | true => exact .inl hfound
      | false =>
        rw [if_neg (by simp), bind_eq_ok] at h
        obtain ⟨names, hnames, h⟩ := h
        rw [liftX509_eq_ok] at hnames
        obtain ⟨generalNames, rfl, hmem⟩ := alternativeName_eq_ok.mp h
        exact .inr ⟨exists_of_matchCommonName_eq_false hfound, generalNames, hnames, hmem⟩
    · rintro (hfound | ⟨hnames, generalNames, halt, hmem⟩)
      · exact ⟨true, hfound, rfl⟩
      · obtain ⟨found, hfound⟩ := @exists_matchCommonName_eq hostname _ hnames
        refine ⟨found, hfound, ?_⟩
        cases found with
        | true => rfl
        | false =>
          rw [if_neg (by simp), bind_eq_ok]
          exact ⟨some generalNames, liftX509_eq_ok.mpr halt,
            alternativeName_eq_ok.mpr ⟨generalNames, rfl, hmem⟩⟩

theorem verifyLeafHostname_ne_panic : verifyLeafHostname hostname chain ≠ .error .panic := by
  unfold verifyLeafHostname
  cases chain.head? with
  | none => exact fail_ne_panic _
  | some leaf =>
    refine bind_ne_panic matchCommonName_ne_panic fun found _ => ite_ne_panic (by simp) ?_
    refine bind_ne_panic (liftX509_ne_panic _) fun names _ => ?_
    cases names with
    | none => exact fail_ne_panic _
    | some generalNames => exact ite_ne_panic (by simp) (fail_ne_panic _)

end Hostname

/-! ### The signature -/

section Content

variable {input signature : List Byte}

theorem codeSignExt_iff {c : X509Certificate} :
    c.codeSignExt = true ↔ c.extendedKeyUsage = .ok (some true) := by
  unfold X509Certificate.codeSignExt
  rcases c.extendedKeyUsage with e | codeSigning
  · simp
  · cases codeSigning <;> simp

theorem all_codeSignExt_iff :
    ¬ (chain.any fun x => !x.codeSignExt) = true ↔
      ∀ c ∈ chain, c.extendedKeyUsage = .ok (some true) := by
  simp [List.any_eq_true, codeSignExt_iff]

/-- The certificate's key, which is one of an elliptic curve, verifies the prefixed input. -/
def X509Certificate.Verifies (C : Crates) (input signature : List Byte) (c : X509Certificate) :
    Prop :=
  c.publicKey.algorithm = oidKeyTypeEcPublicKey ∧
    ∃ sigDecode sigDer keybits, C.decode signature = some sigDecode ∧
      ecdsaSignatureToAsn1 C.asn1 sigDecode = .ok sigDer ∧ C.keySize c.publicKey = .ok keybits ∧
      C.verifySignature c.publicKey
        (if keybits ≤ 256 then oidSigEcdsaWithSha256 else oidSigEcdsaWithSha384) sigDer
        (contentPrefix ++ input) = .ok ()

theorem verifyContentSignature_eq_ok :
    verifyContentSignature C input signature chain = .ok () ↔
      (∀ c ∈ chain, c.extendedKeyUsage = .ok (some true)) ∧
        ∃ leaf, chain.head? = some leaf ∧ leaf.Verifies C input signature := by
  unfold verifyContentSignature
  rw [ite_fail_eq_ok, all_codeSignExt_iff]
  refine and_congr_right fun _ => ?_
  cases chain.head? with
  | none => simp
  | some leaf =>
    simp only [Option.some.injEq, exists_eq_left', X509Certificate.Verifies]
    cases hdecode : C.decode signature with
    | none => simp
    | some sigDecode =>
      simp only [bind_eq_ok, ite_fail_eq_ok, liftX509_eq_ok, not_not]
      constructor
      · rintro ⟨sigDer, hder, halgorithm, keybits, hkey, hverify⟩
        exact ⟨halgorithm, sigDecode, sigDer, keybits, rfl, hder, hkey, hverify⟩
      · rintro ⟨halgorithm, _, sigDer, keybits, hsome, hder, hkey, hverify⟩
        obtain rfl := Option.some.inj hsome
        exact ⟨sigDer, hder, halgorithm, keybits, hkey, hverify⟩

/-- The signature decodes to less than two bytes. -/
def Short (C : Crates) (signature : List Byte) : Prop :=
  ∃ sigDecode, C.decode signature = some sigDecode ∧ sigDecode.length < 2

theorem verifyContentSignature_panic_iff (hne : chain ≠ []) :
    verifyContentSignature C input signature chain = .error .panic ↔
      (∀ c ∈ chain, c.extendedKeyUsage = .ok (some true)) ∧ Short C signature := by
  unfold verifyContentSignature
  obtain ⟨leaf, rest, rfl⟩ := List.exists_cons_of_ne_nil hne
  by_cases hall : ∀ c ∈ leaf :: rest, c.extendedKeyUsage = .ok (some true)
  · rw [if_neg (all_codeSignExt_iff.mpr hall), List.head?_cons, Short]
    cases hdecode : C.decode signature with
    | none => simp [fail]
    | some sigDecode =>
      simp only [Option.some.injEq, exists_eq_left', ← ecdsaSignatureToAsn1_panic_iff (A := C.asn1)]
      refine ⟨fun h => ⟨hall, ?_⟩, fun ⟨_, h⟩ => ?_⟩
      · by_contra hder
        refine bind_ne_panic hder (fun sigDer _ => ?_) h
        refine ite_ne_panic (fail_ne_panic _) ?_
        exact bind_ne_panic (liftX509_ne_panic _) fun keybits _ => liftX509_ne_panic _
      · rw [h]
        rfl
  · rw [if_pos (not_not.mp fun hany => hall (all_codeSignExt_iff.mp hany))]
    exact iff_of_false (fail_ne_panic _) fun h => hall h.1

end Content

/-! ### All of it -/

section All

variable {input signature leafSubject : List Byte}

theorem verify_eq_ok :
    verify C input signature currentTime leafSubject chain = .ok () ↔
      Trusted C currentTime chain ∧ (∀ c ∈ chain, c.extendedKeyUsage = .ok (some true)) ∧
        ∃ leaf, chain.head? = some leaf ∧ leaf.HasHostname leafSubject ∧
          leaf.Verifies C input signature := by
  unfold verify
  rw [check_bind_eq_ok, check_bind_eq_ok, verifyChain_eq_ok, verifyLeafHostname_eq_ok,
    verifyContentSignature_eq_ok]
  constructor
  · rintro ⟨htrusted, ⟨leaf, hleaf, hhost⟩, hcode, leaf', hleaf', hverifies⟩
    obtain rfl : leaf = leaf' := by
      rw [hleaf] at hleaf'
      exact Option.some.inj hleaf'
    exact ⟨htrusted, hcode, leaf, hleaf, hhost, hverifies⟩
  · rintro ⟨htrusted, hcode, leaf, hleaf, hhost, hverifies⟩
    exact ⟨htrusted, ⟨leaf, hleaf, hhost⟩, hcode, leaf, hleaf, hverifies⟩

/-- **Panics.** The verification gets an answer unless a signature that decodes to less than two
bytes comes with a chain that passes every check before it. -/
theorem verify_ne_panic_iff (chain : List X509Certificate) :
    verify C input signature currentTime leafSubject chain ≠ .error .panic ↔
      ¬ (Trusted C currentTime chain ∧
        (∃ leaf, chain.head? = some leaf ∧ leaf.HasHostname leafSubject) ∧
        (∀ c ∈ chain, c.extendedKeyUsage = .ok (some true)) ∧ Short C signature) := by
  rw [not_iff_not, verify, check_bind_panic_iff verifyChain_ne_panic,
    check_bind_panic_iff verifyLeafHostname_ne_panic, verifyChain_eq_ok, verifyLeafHostname_eq_ok]
  refine and_congr_right fun _ => and_congr_right fun hhost => ?_
  refine verifyContentSignature_panic_iff ?_
  rintro rfl
  obtain ⟨leaf, hleaf, -⟩ := hhost
  simp at hleaf

end All

end Checks

/-! ### A chain of one certificate -/

def ascii (s : String) : List Byte := s.toList.map fun c => .ofNat 8 c.toNat

/-- A certificate that issued itself and may sign both certificates and code. -/
def selfSigned : X509Certificate where
  issuer := ascii "CN=aus.content-signature.mozilla.org"
  subject := ascii "CN=aus.content-signature.mozilla.org"
  commonNames := [.ok (ascii "aus.content-signature.mozilla.org")]
  notBefore := 0
  notAfter := 100
  keyUsage := .ok (some true)
  isCa := true
  extendedKeyUsage := .ok (some true)
  subjectAlternativeName := .ok none
  publicKey := ⟨oidKeyTypeEcPublicKey, []⟩

/-- Crates that read one certificate, and signatures of zero bytes. -/
def selfSignedCrates : Crates where
  iterFromBuffer input := [.ok ⟨"CERTIFICATE".toList, input⟩]
  fromDer _ := .ok ([], selfSigned)
  fromTimestamp t := .ok t
  isValidAt c t := decide (c.notBefore ≤ t ∧ t ≤ c.notAfter)
  isValidAt_iff _ _ := decide_eq_true_iff
  validate _ := (true, [])
  verifyCertificate _ _ := .ok ()
  keySize _ := .ok 384
  verifySignature _ _ _ _ := .ok ()
  decode signature :=
    if signature = ascii "AA" then some [0x00#8]
    else if signature = ascii "AAAA" then some [0x00#8, 0x00#8, 0x00#8]
    else none
  asn1 := .der

/-- A signature of one byte makes the verification of a trusted chain panic. -/
theorem one_byte_panics :
    balrogNew selfSignedCrates [⟨"CERTIFICATE".toList, [0x30#8, 0x00#8]⟩] = .ok [selfSigned] ∧
      verify selfSignedCrates [] (ascii "AA") 50 (ascii "aus.content-signature.mozilla.org")
        [selfSigned] = .error .panic :=
  ⟨rfl, rfl⟩

end WgDesktop.Signature
