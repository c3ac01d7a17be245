import WgDesktop.Lib.Runs
import WgDesktop.Settings.CryptoSettings

/-!
# Reads that fail

`CryptoSettings::readFile` call by call: it reads the device, checks what it got, asks the platform
for the key, and only then inserts into the map it was handed and sets the counter of the instance.
`readFile_allOrNothing` says what a read leaves; `readFile_agrees` that its results are those of the
`readFile` on whole files.
-/

namespace WgDesktop.CryptoSettings

open Bytes Runs

/-- What a read works on: the bytes left on the device, the map it was handed, the counter of the
instance, and what the platform's class keeps of the key. -/
structure Reader (P : Type) where
  device : List Byte
  map : SettingsMap
  lastNonce : BitVec 64
  platform : P

/-- A platform's `getKey`: the key, and what the class keeps then. -/
abbrev GetKey (P : Type) := Version → List Byte → P → List Byte × P

/-- A method that returns `true` or fails with `false`. -/
abbrev ReadM (P : Type) := ExceptT Unit (StateM (Reader P))

namespace Reader

section Functions

variable {P : Type} (t : Target) (A : Aead macSize) (J : JsonDocument)

/-- `device.read`: the next bytes, fewer at the end of the file. -/
def read (n : ℕ) : ReadM P (List Byte) := do
  let s ← get
  modify fun s => { s with device := s.device.drop n }
  return s.device.take n

def readAll : ReadM P (List Byte) := do
  let s ← get
  modify fun s => { s with device := [] }
  return s.device

/-- Returns `false` unless the condition holds. -/
def failUnless (p : Prop) [Decidable p] : ReadM P Unit := if p then pure () else throw ()

/-- The call of the virtual `getKey`. -/
def askKey (getKey : GetKey P) (version : Version) (metadata : List Byte) :
    ReadM P (List Byte) := do
  let s ← get
  let answer := getKey version metadata s.platform
  modify fun s => { s with platform := answer.2 }
  return answer.1

def insertField (field : String × Json) : ReadM P PUnit :=
  modify fun s => { s with map := s.map.insert field.1 field.2 }

/-- Inserts the fields of a JSON text into the map, one by one. -/
def insertJson (content : List Byte) : ReadM P PUnit := do
  let json := J.fromJson content
  failUnless (json.isObject = true)
  json.toObject.forM insertField

def readJsonFile : ReadM P PUnit := do
  let content ← readAll
  insertJson J content

/-- The header of an encrypted file and the metadata in it. -/
def readHeader (version : Version) : ReadM P (List Byte × List Byte) :=
  match version with
  | .noEncryption => throw ()
  | .encryptionChachaPolyV1 => pure ([version.toByte], [])
  | .encryptionChachaPolyV2 => do
    let fields ← read (encryptedV2HeaderSize - 1)
    let header := [version.toByte] ++ fields
    failUnless (header.length = encryptedV2HeaderSize)
    let metaLength := t.metaLength (header.getD 2 0) (header.getD 3 0)
    let rest ← read metaLength
    let header := header ++ rest
    failUnless (header.length = metaLength + encryptedV2HeaderSize)
    return (header, header.drop encryptedV2HeaderSize)

/-- The key of a file, of the right length. -/
def readKey (getKey : GetKey P) (version : Version) (metadata : List Byte) :
    ReadM P (List Byte) := do
  let key ← askKey getKey version metadata
  failUnless (¬ key.isEmpty = true)
  failUnless (key.length = keySize)
  return key

/-- `memcpy(&m_lastNonce, nonce.data(), sizeof(m_lastNonce))`. -/
def takeNonce (nonce : List Byte) : ReadM P PUnit :=
  modify fun s => { s with lastNonce := t.endian.word (nonce.take 8) }

def readEncryptedChachaPolyFile (getKey : GetKey P) (version : Version) : ReadM P PUnit := do
  let (header, metadata) ← readHeader t version
  let nonce ← read nonceSize
  failUnless (nonce.length = nonceSize)
  let mac ← read macSize
  failUnless (mac.length = macSize)
  let ciphertext ← readAll
  failUnless (ciphertext.length ≠ 0)
  let key ← readKey getKey version metadata
  match A.decrypt key nonce header ciphertext mac with
  | none => throw ()
  | some content => do
    insertJson J content
    takeNonce t nonce

/-- `readFile`, with the `getKey` of `s_instance` if there is an instance. -/
def readFile (getKey? : Option (GetKey P)) : ReadM P PUnit := do
  let version ← read 1
  failUnless (version.length = 1)
  match Version.ofByte? (version.getD 0 0), getKey? with
  | some .noEncryption, _ => readJsonFile J
  | _, none => throw ()
  | some version, some getKey => readEncryptedChachaPolyFile t A J getKey version
  | none, some _ => throw ()

end Functions

/-! ## A failure leaves the map and the counter -/

section Failures

variable {P : Type} {t : Target} {A : Aead macSize} {J : JsonDocument} {Q : Reader P → Prop}

/-- The property is one of the map and the counter only. -/
def OfMapAndNonce (Q : Reader P → Prop) : Prop :=
  ∀ s s', s'.map = s.map → s'.lastNonce = s.lastNonce → Q s → Q s'

theorem preserves_failUnless (p : Prop) [Decidable p] : Preserves Q (failUnless p) := by
  unfold failUnless
  split_ifs
  · exact preserves_pure _
  · exact preserves_throw _

variable (hQ : OfMapAndNonce Q)

include hQ

theorem preserves_read (n : ℕ) : Preserves Q (read n) := fun s hs => hQ s _ rfl rfl hs

theorem preserves_readAll : Preserves Q readAll := fun s hs => hQ s _ rfl rfl hs

theorem preserves_askKey (getKey : GetKey P) (version : Version) (metadata : List Byte) :
    Preserves Q (askKey getKey version metadata) := fun s hs => hQ s _ rfl rfl hs

theorem preserves_readKey (getKey : GetKey P) (version : Version) (metadata : List Byte) :
    Preserves Q (readKey getKey version metadata) := by
  refine (preserves_askKey hQ getKey version metadata).bind fun key => ?_
  refine (preserves_failUnless _).bind fun _ => ?_
  exact (preserves_failUnless _).bind fun _ => preserves_pure key

theorem preserves_readHeader (version : Version) : Preserves Q (readHeader t version) := by
  cases version with
  | noEncryption => exact preserves_throw ()
  | encryptionChachaPolyV1 => exact preserves_pure _
  | encryptionChachaPolyV2 =>
    refine (preserves_read hQ _).bind fun fields => ?_
    refine (preserves_failUnless _).bind fun _ => ?_
    refine (preserves_read hQ _).bind fun rest => ?_
    exact (preserves_failUnless _).bind fun _ => preserves_pure _

omit hQ in
theorem neverFails_insertFields (obj : Json.Object) :
    NeverFails (obj.forM insertField : ReadM P PUnit) :=
  neverFails_forM (fun _ => neverFails_modify _) obj

omit hQ in
theorem preservesOnFailure_insertJson {rest : ReadM P PUnit} (hrest : NeverFails rest)
    (content : List Byte) : PreservesOnFailure Q (insertJson J content >>= fun _ => rest) := by
  unfold insertJson
  rw [bind_assoc]
  refine (preserves_failUnless _).bind_onFailure fun _ => ?_
  exact ((neverFails_insertFields _).bind fun _ => hrest).preservesOnFailure

theorem preservesOnFailure_readJsonFile : PreservesOnFailure Q (readJsonFile J) := by
  refine (preserves_readAll hQ).bind_onFailure fun content => ?_
  refine (preserves_failUnless _).bind_onFailure fun _ => ?_
  exact (neverFails_insertFields _).preservesOnFailure

theorem preservesOnFailure_readEncryptedChachaPolyFile (getKey : GetKey P) (version : Version) :
    PreservesOnFailure Q (readEncryptedChachaPolyFile t A J getKey version) := by
  refine (preserves_readHeader hQ version).bind_onFailure fun ⟨header, metadata⟩ => ?_
  refine (preserves_read hQ nonceSize).bind_onFailure fun nonce => ?_
  refine (preserves_failUnless _).bind_onFailure fun _ => ?_
  refine (preserves_read hQ macSize).bind_onFailure fun mac => ?_
  refine (preserves_failUnless _).bind_onFailure fun _ => ?_
  refine (preserves_readAll hQ).bind_onFailure fun ciphertext => ?_
  refine (preserves_failUnless _).bind_onFailure fun _ => ?_
  refine (preserves_readKey hQ getKey version metadata).bind_onFailure fun key => ?_
  cases A.decrypt key nonce header ciphertext mac with
  | none => exact preservesOnFailure_throw ()
  | some content => exact preservesOnFailure_insertJson (neverFails_modify _) content

theorem preservesOnFailure_readFile (getKey? : Option (GetKey P)) :
    PreservesOnFailure Q (readFile t A J getKey?) := by
  refine (preserves_read hQ 1).bind_onFailure fun version => ?_
  refine (preserves_failUnless _).bind_onFailure fun _ => ?_
  split
  · exact preservesOnFailure_readJsonFile hQ
  · exact preservesOnFailure_throw ()
  · exact preservesOnFailure_readEncryptedChachaPolyFile hQ _ _
  · exact preservesOnFailure_throw ()

end Failures

/-! ## The results of a read -/

section Results

variable {P : Type} {t : Target} {A : Aead macSize} {J : JsonDocument}

theorem exec_read_bind {α : Type} (n : ℕ) (f : List Byte → ReadM P α) (s : Reader P) :
    exec (read n >>= f) s =
      exec (f (s.device.take n)) { s with device := s.device.drop n } :=
  exec_bind_ok rfl

theorem exec_readAll_bind {α : Type} (f : List Byte → ReadM P α) (s : Reader P) :
    exec (readAll >>= f) s = exec (f s.device) { s with device := [] } :=
  exec_bind_ok rfl

theorem exec_askKey_bind {α : Type} (getKey : GetKey P) (version : Version)
    (metadata : List Byte) (f : List Byte → ReadM P α) (s : Reader P) :
    exec (askKey getKey version metadata >>= f) s =
      exec (f (getKey version metadata s.platform).1)
        { s with platform := (getKey version metadata s.platform).2 } :=
  exec_bind_ok rfl

theorem exec_failUnless_bind {α : Type} (p : Prop) [Decidable p] (f : Unit → ReadM P α)
    (s : Reader P) :
    exec (failUnless p >>= f) s = if p then exec (f ()) s else (.error (), s) := by
  unfold failUnless
  split_ifs <;> rfl

theorem exec_insertFields (obj : Json.Object) (s : Reader P) :
    exec (obj.forM insertField) s =
      (.ok ⟨⟩, { s with map := obj.foldl (fun map field => map.insert field.1 field.2) s.map }) := by
  induction obj generalizing s with
  | nil => rfl
  | cons field obj ih =>
    show exec (insertField field >>= fun _ => obj.forM insertField) s = _
    rw [exec_bind, insertField, exec_modify]
    exact ih _

theorem exec_insertJson (content : List Byte) (s : Reader P) :
    exec (insertJson J content) s =
      match readJson J content s.map with
      | none => (.error (), s)
      | some map => (.ok ⟨⟩, { s with map := map }) := by
  unfold insertJson readJson
  rw [exec_failUnless_bind, exec_insertFields]
  cases hobject : (J.fromJson content).isObject with
  | false => simp [hobject]
  | true => simp [hobject]

theorem exec_readHeader (version : Version) (s : Reader P) :
    match CryptoSettings.readHeader t version s.device with
    | none => (exec (readHeader t version) s).1 = .error ()
    | some (header, metadata, device) =>
      exec (readHeader t version) s = (.ok (header, metadata), { s with device := device }) := by
  cases version with
  | noEncryption => rfl
  | encryptionChachaPolyV1 => rfl
  | encryptionChachaPolyV2 =>
    unfold CryptoSettings.readHeader readHeader
    simp only [exec_read_bind, exec_failUnless_bind, ne_eq, ite_not]
    split_ifs
    · rfl
    · rfl
    · rfl

/-- The instance of a read, by what its methods answer in it; the others are not called. -/
def asInstance (s : Reader P) (getKey : GetKey P) : CryptoSettings where
  lastNonce := s.lastNonce
  getPreferredVersion := .noEncryption
  getKey version metadata := (getKey version metadata s.platform).1
  getRenewedKey _ _ := []
  getMetaData := []

theorem getKey_asInstance (s : Reader P) (getKey : GetKey P) (version : Version)
    (metadata : List Byte) :
    (s.asInstance getKey).getKey version metadata = (getKey version metadata s.platform).1 := rfl

/-- What a method returns, with the instance it leaves, made of the counter by `c`. -/
def outcome {I : Type} (c : BitVec 64 → I) (r : Except Unit PUnit × Reader P) :
    Option (SettingsMap × I) :=
  match r.1 with
  | .ok _ => some (r.2.map, c r.2.lastNonce)
  | .error _ => none

theorem outcome_map {I K : Type} {c : BitVec 64 → I} {r : Except Unit PUnit × Reader P}
    (g : I → K) :
    (outcome c r).map (fun r => (r.1, g r.2)) = outcome (fun n => g (c n)) r := by
  unfold outcome
  cases r.1 <;> rfl

theorem exec_readKey_bind (getKey : GetKey P) (version : Version) (metadata : List Byte)
    (f : List Byte → ReadM P PUnit) (s : Reader P) :
    exec (readKey getKey version metadata >>= f) s =
      let answer := getKey version metadata s.platform
      if answer.1.isEmpty then (.error (), { s with platform := answer.2 })
      else if answer.1.length = keySize then exec (f answer.1) { s with platform := answer.2 }
      else (.error (), { s with platform := answer.2 }) := by
  unfold readKey
  simp only [bind_assoc, pure_bind, exec_askKey_bind, exec_failUnless_bind, ite_not]

theorem readJsonFile_agrees {I : Type} {c : BitVec 64 → I} (s : Reader P) :
    (readJson J s.device s.map).map (fun map => (map, c s.lastNonce)) =
      outcome c (exec (readJsonFile J) s) := by
  unfold readJsonFile
  rw [exec_readAll_bind, exec_insertJson]
  cases readJson J s.device s.map <;> rfl

theorem readEncryptedChachaPolyFile_agrees (getKey : GetKey P) (version : Version) (s : Reader P) :
    CryptoSettings.readEncryptedChachaPolyFile t A J (s.asInstance getKey) version s.device s.map =
      outcome (fun n => { s.asInstance getKey with lastNonce := n })
        (exec (readEncryptedChachaPolyFile t A J getKey version) s) := by
  have hheader := @exec_readHeader P t version s
  unfold CryptoSettings.readEncryptedChachaPolyFile readEncryptedChachaPolyFile
  generalize CryptoSettings.readHeader t version s.device = found at hheader
  cases found with
  | none =>
    rw [exec_bind]
    generalize exec (readHeader t version) s = r at hheader
    obtain ⟨result, s'⟩ := r
    obtain rfl : result = .error () := hheader
    rfl
  | some header =>
    obtain ⟨header, metadata, device⟩ := header
    rw [exec_bind_ok hheader]
    simp only [exec_read_bind, exec_readAll_bind, exec_failUnless_bind, exec_readKey_bind, ne_eq,
      ite_not]
    rw [getKey_asInstance]
    split_ifs
    · rfl
    · rfl
    · generalize A.decrypt _ _ _ _ _ = content?
      cases content? with
      | none => rfl
      | some content =>
        dsimp only
        rw [exec_bind, exec_insertJson]
        cases readJson J content s.map <;> rfl
    · rfl
    · rfl
    · rfl

/-- **One reader.** Call by call, a read makes of the device and the map what `readFile` makes of the
whole file. -/
theorem readFile_agrees (getKey? : Option (GetKey P)) (s : Reader P) :
    CryptoSettings.readFile t A J (getKey?.map s.asInstance) s.device s.map =
      outcome (fun n => getKey?.map fun getKey => { s.asInstance getKey with lastNonce := n })
        (exec (readFile t A J getKey?) s) := by
  obtain ⟨device, map, lastNonce, platform⟩ := s
  unfold readFile
  rw [exec_read_bind, exec_failUnless_bind]
  cases device with
  | nil => rfl
  | cons b device =>
    have hfirst : (List.take 1 (b :: device)).getD 0 0 = b := rfl
    rw [if_pos (by simp), hfirst]
    unfold CryptoSettings.readFile
    dsimp only
    have hencrypted (version : Version) (getKey : GetKey P) :=
      congrArg (Option.map fun r => (r.1, some r.2)) (@readEncryptedChachaPolyFile_agrees P t A J
        getKey version ⟨device, map, lastNonce, platform⟩)
    generalize Version.ofByte? b = version
    cases version with
    | none => cases getKey? <;> rfl
    | some version =>
      cases version with
      | noEncryption =>
        refine Eq.trans ?_ (readJsonFile_agrees ⟨device, map, lastNonce, platform⟩)
        rfl
      | encryptionChachaPolyV1 =>
        cases getKey? with
        | none => rfl
        | some getKey => exact (hencrypted _ getKey).trans (outcome_map some)
      | encryptionChachaPolyV2 =>
        cases getKey? with
        | none => rfl
        | some getKey => exact (hencrypted _ getKey).trans (outcome_map some)

end Results

end Reader

/-! ## What an accepted file is -/

/-- What stands between the version and the nonce: in the second version a reserved byte, the length
of the metadata, and the metadata. -/
def Layout (t : Target) (fields metadata : List Byte) : Version → Prop
  | .noEncryption => False
  | .encryptionChachaPolyV1 => fields = [] ∧ metadata = []
  | .encryptionChachaPolyV2 =>
    ∃ reserved low high, fields = [reserved, low, high] ∧ metadata.length = t.metaLength low high

/-- An encrypted file, in the parts its version lays out. -/
structure EncryptedFile (t : Target) where
  version : Version
  fields : List Byte
  metadata : List Byte
  nonce : List Byte
  mac : List Byte
  ciphertext : List Byte
  layout : Layout t fields metadata version
  length_nonce : nonce.length = nonceSize
  length_mac : mac.length = macSize
  ciphertext_ne_nil : ciphertext ≠ []

namespace EncryptedFile

variable {t : Target}

def header (f : EncryptedFile t) : List Byte := f.version.toByte :: f.fields ++ f.metadata

def bytes (f : EncryptedFile t) : List Byte := f.header ++ f.nonce ++ f.mac ++ f.ciphertext

/-- The tag is that of the ciphertext and of the header, with the metadata in it. -/
def Authentic (f : EncryptedFile t) (key : List Byte) : Prop :=
  f.mac = Chacha20Poly1305.mac key f.nonce f.header f.ciphertext

theorem authentic_of_decrypt {f : EncryptedFile t} {key content : List Byte}
    (h : Chacha20Poly1305.cipher.decrypt key f.nonce f.header f.ciphertext f.mac = some content) :
    f.Authentic key := by
  unfold Chacha20Poly1305.cipher Aead.ofStream at h
  dsimp only at h
  split_ifs at h with htag
  exact htag

end EncryptedFile

section Accepted

variable {t : Target} {A : Aead macSize} {J : JsonDocument}

theorem exists_layout_of_readHeader {version : Version}
    {device header metadata rest : List Byte}
    (h : readHeader t version device = some (header, metadata, rest)) :
    ∃ fields, Layout t fields metadata version ∧ header = version.toByte :: fields ++ metadata ∧
      device = fields ++ metadata ++ rest := by
  cases version with
  | noEncryption => simp [readHeader] at h
  | encryptionChachaPolyV1 =>
    obtain ⟨rfl, rfl, rfl⟩ := by simpa [readHeader] using h
    exact ⟨[], ⟨rfl, rfl⟩, rfl, rfl⟩
  | encryptionChachaPolyV2 =>
    rcases device with - | ⟨reserved, - | ⟨low, - | ⟨high, device⟩⟩⟩
    · simp [readHeader, encryptedV2HeaderSize] at h
    · simp [readHeader, encryptedV2HeaderSize] at h
    · simp [readHeader, encryptedV2HeaderSize] at h
    · rw [readHeader_v2] at h
      split_ifs at h with hshort
      obtain ⟨rfl, rfl, rfl⟩ := by simpa using h
      refine ⟨[reserved, low, high], ⟨reserved, low, high, rfl, ?_⟩, rfl, ?_⟩
      · rw [List.length_take]
        omega
      · simp

/-- A body that was read is authentic under the key the platform gave for its metadata. -/
theorem exists_encryptedFile_of_readEncryptedChachaPolyFile {c : CryptoSettings}
    {version : Version} {device : List Byte} {map : SettingsMap} {r : SettingsMap × CryptoSettings}
    (h : readEncryptedChachaPolyFile t A J c version device map = some r) :
    ∃ f : EncryptedFile t, f.version = version ∧ f.bytes = version.toByte :: device ∧
      ∃ content, A.decrypt (c.getKey version f.metadata) f.nonce f.header f.ciphertext f.mac =
        some content := by
  unfold readEncryptedChachaPolyFile at h
  cases hheader : readHeader t version device with
  | none => simp [hheader] at h
  | some found =>
    obtain ⟨header, metadata, rest⟩ := found
    obtain ⟨fields, hlayout, rfl, rfl⟩ := exists_layout_of_readHeader hheader
    rw [hheader] at h
    dsimp only at h
    split_ifs at h with hnonce hmac hciphertext hempty hsize
    let f : EncryptedFile t :=
      { version := version
        fields := fields
        metadata := metadata
        nonce := rest.take nonceSize
        mac := (rest.drop nonceSize).take macSize
        ciphertext := (rest.drop nonceSize).drop macSize
        layout := hlayout
        length_nonce := not_not.1 hnonce
        length_mac := not_not.1 hmac
        ciphertext_ne_nil := fun hnil => hciphertext (List.length_eq_zero_iff.2 hnil) }
    refine ⟨f, rfl, ?_, ?_⟩
    · show f.header ++ rest.take nonceSize ++ (rest.drop nonceSize).take macSize ++
        (rest.drop nonceSize).drop macSize = _
      rw [List.append_assoc, List.append_assoc, List.take_append_drop, List.take_append_drop]
      simp [EncryptedFile.header, f]
    · generalize hopen : A.decrypt _ _ _ _ _ = content? at h
      cases content? with
      | none => cases h
      | some content => exact ⟨content, hopen⟩

theorem exists_encryptedFile_of_readFile {c? : Option CryptoSettings} {file : List Byte}
    {map : SettingsMap} {r : SettingsMap × Option CryptoSettings}
    (hencrypted : file.head? ≠ some Version.noEncryption.toByte)
    (h : readFile t A J c? file map = some r) :
    ∃ c, c? = some c ∧ ∃ f : EncryptedFile t, f.bytes = file ∧ ∃ content,
      A.decrypt (c.getKey f.version f.metadata) f.nonce f.header f.ciphertext f.mac =
        some content := by
  cases file with
  | nil => cases h
  | cons b device =>
    cases hversion : Version.ofByte? b with
    | none =>
      unfold readFile at h
      dsimp only at h
      rw [hversion] at h
      cases c? <;> cases h
    | some version =>
      obtain rfl := Version.eq_toByte_of_ofByte? hversion
      have hplain : version ≠ .noEncryption := by
        rintro rfl
        exact hencrypted rfl
      cases c? with
      | none =>
        unfold readFile at h
        dsimp only at h
        rw [hversion] at h
        cases version with
        | noEncryption => exact absurd rfl hplain
        | encryptionChachaPolyV1 => cases h
        | encryptionChachaPolyV2 => cases h
      | some c =>
        rw [readFile_toByte hplain] at h
        obtain ⟨_, hbody, -⟩ := Option.map_eq_some_iff.1 h
        obtain ⟨f, rfl, hbytes, hopen⟩ := exists_encryptedFile_of_readEncryptedChachaPolyFile hbody
        exact ⟨c, rfl, f, hbytes, hopen⟩

end Accepted

namespace Reader

/-- **All or nothing.** Whatever the file, the key and the instance: a read that returns `false`
leaves the map and the counter as they were, and one that returns `true` for an encrypted file has
found the ciphertext authentic together with the header and the metadata in it. -/
theorem readFile_allOrNothing {P : Type} (t : Target) (J : JsonDocument)
    (getKey? : Option (GetKey P)) (s : Reader P) :
    let r := exec (readFile t Chacha20Poly1305.cipher J getKey?) s
    (r.1 = .error () → r.2.map = s.map ∧ r.2.lastNonce = s.lastNonce) ∧
      (r.1 = .ok ⟨⟩ → s.device.head? ≠ some Version.noEncryption.toByte →
        ∃ getKey, getKey? = some getKey ∧ ∃ f : EncryptedFile t, f.bytes = s.device ∧
          f.Authentic (getKey f.version f.metadata s.platform).1) := by
  intro r
  constructor
  · intro hfail
    have hQ : OfMapAndNonce fun s' : Reader P => s'.map = s.map ∧ s'.lastNonce = s.lastNonce :=
      fun _ _ hmap hnonce h => ⟨hmap.trans h.1, hnonce.trans h.2⟩
    exact preservesOnFailure_readFile hQ getKey? s ⟨rfl, rfl⟩ () hfail
  · intro hok hencrypted
    have hagrees := @readFile_agrees P t Chacha20Poly1305.cipher J getKey? s
    have haccepted : outcome (fun n => getKey?.map fun getKey =>
        { s.asInstance getKey with lastNonce := n }) r =
          some (r.2.map, getKey?.map fun getKey =>
            { s.asInstance getKey with lastNonce := r.2.lastNonce }) := by
      unfold outcome
      rw [hok]
    obtain ⟨c, hc, f, hbytes, content, hopen⟩ :=
      exists_encryptedFile_of_readFile hencrypted (hagrees.trans haccepted)
    obtain ⟨getKey, hgetKey, rfl⟩ := Option.map_eq_some_iff.1 hc
    exact ⟨getKey, hgetKey, f, hbytes, EncryptedFile.authentic_of_decrypt hopen⟩

end Reader

end WgDesktop.CryptoSettings
