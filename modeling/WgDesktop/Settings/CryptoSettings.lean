import WgDesktop.Lib.Json
import WgDesktop.Settings.Chacha20Poly1305

/-!
# Encrypted settings files

`CryptoSettings` of `cryptosettings.cpp`: the settings map as a JSON text, written in the clear or
encrypted with a nonce that counts up from the last one used. The platform's key store, its metadata
and its preferred file version are the answers of the virtual methods; Qt's JSON text format and the
cipher are parameters with the laws the code relies on.
-/

namespace WgDesktop

open Bytes

/-! ## The settings map -/

/-- `QSettings::SettingsMap`: values by key, in key order. A value is kept as the JSON value that
`QJsonValue::fromVariant` makes of it. -/
structure SettingsMap where
  fields : Json.Object
  sorted : fields.Sorted

namespace SettingsMap

def empty : SettingsMap := ⟨[], List.Pairwise.nil⟩

def insert (map : SettingsMap) (key : String) (value : Json) : SettingsMap :=
  ⟨map.fields.insert key value, map.sorted.insert key value⟩

@[ext] theorem ext {a b : SettingsMap} (h : a.fields = b.fields) : a = b := by
  cases a
  cases b
  simpa using h

/-- The object the writers build from the map. -/
def toObject (map : SettingsMap) : Json.Object :=
  map.fields.foldl (fun obj field => obj.insert field.1 field.2) []

@[simp] theorem toObject_eq (map : SettingsMap) : map.toObject = map.fields := by
  have h := Json.Object.foldl_insert (show ([] ++ map.fields : Json.Object).Sorted from map.sorted)
  rw [toObject]
  simpa using h

theorem fields_foldl_insert (obj : Json.Object) (map : SettingsMap) :
    (obj.foldl (fun map field => map.insert field.1 field.2) map).fields =
      obj.foldl (fun acc field => acc.insert field.1 field.2) map.fields := by
  induction obj generalizing map with
  | nil => rfl
  | cons field rest ih => rw [List.foldl_cons, List.foldl_cons, ih]; rfl

end SettingsMap

/-- `QJsonDocument`: the compact text of an object and its reader, `undefined` for a text that is
not a document. What the writer makes is an object to the reader. -/
structure JsonDocument where
  toJson : Json.Object → List Byte
  fromJson : List Byte → Json
  isObject_fromJson_toJson (obj : Json.Object) : (fromJson (toJson obj)).isObject = true
  toJson_ne_nil (obj : Json.Object) : toJson obj ≠ []

/-- The text format gives the map back. -/
def JsonDocument.Represents (J : JsonDocument) (map : SettingsMap) : Prop :=
  J.fromJson (J.toJson map.fields) = .obj map.fields

/-! ## Files -/

inductive Version where
  | noEncryption
  | encryptionChachaPolyV1
  | encryptionChachaPolyV2
  deriving DecidableEq, Repr

namespace Version

def toByte : Version → Byte
  | noEncryption => 0
  | encryptionChachaPolyV1 => 1
  | encryptionChachaPolyV2 => 2

/-- The version a file's first byte names, if it is a known one. -/
def ofByte? (b : Byte) : Option Version :=
  if b = 0 then some noEncryption
  else if b = 1 then some encryptionChachaPolyV1
  else if b = 2 then some encryptionChachaPolyV2
  else none

@[simp] theorem ofByte?_toByte (v : Version) : ofByte? v.toByte = some v := by
  cases v <;> rfl

theorem eq_toByte_of_ofByte? {b : Byte} {version : Version}
    (h : ofByte? b = some version) : b = version.toByte := by
  unfold ofByte? at h
  split_ifs at h with h₀ h₁ h₂
  · obtain rfl : noEncryption = version := Option.some.inj h
    exact h₀
  · obtain rfl : encryptionChachaPolyV1 = version := Option.some.inj h
    exact h₁
  · obtain rfl : encryptionChachaPolyV2 = version := Option.some.inj h
    exact h₂

end Version

/-- What the target leaves open: the order of a word's bytes and the sign of `char`. -/
structure Target where
  endian : Endian
  charSigned : Bool

namespace Target

/-- A `char`, promoted to `int`. -/
def char (t : Target) (b : Byte) : ℤ := if t.charSigned then b.toInt else b.toNat

/-- The metadata length the reader takes from bytes 2 and 3 of a header:
`quint16 metaLength = header[2] + (header[3] >> 8)`. -/
def metaLength (t : Target) (low high : Byte) : ℕ :=
  ((t.char low + t.char high >>> (8 : ℕ)) % 65536).toNat

/-- The number of values a nonnegative `char` has. -/
def charBound (t : Target) : ℕ := if t.charSigned then 128 else 256

end Target

/-- A platform's instance during one call: the nonce counter, and what its methods answer. -/
structure CryptoSettings where
  lastNonce : BitVec 64
  getPreferredVersion : Version
  getKey : Version → List Byte → List Byte
  /-- `getKey` once `resetKey` has been called. -/
  getRenewedKey : Version → List Byte → List Byte
  getMetaData : List Byte

/-- The device calls of a write, each of which may fail. -/
inductive WriteCall where
  | version
  | content
  | header
  | nonce
  | mac
  | cipher
  deriving DecidableEq, Repr

namespace CryptoSettings

def keySize : ℕ := 32
def nonceSize : ℕ := 12
def macSize : ℕ := 16
def encryptedV2HeaderSize : ℕ := 4

section Functions

variable (t : Target) (A : Aead macSize) (J : JsonDocument)

/-- Inserts the fields of a JSON text into the map. -/
def readJson (content : List Byte) (map : SettingsMap) : Option SettingsMap :=
  let json := J.fromJson content
  if !json.isObject then none
  else some (json.toObject.foldl (fun map field => map.insert field.1 field.2) map)

/-- The header of an encrypted file, the metadata in it, and the bytes behind it. The version byte
has been read. -/
def readHeader (version : Version) (device : List Byte) :
    Option (List Byte × List Byte × List Byte) :=
  match version with
  | .noEncryption => none
  | .encryptionChachaPolyV1 => some ([version.toByte], [], device)
  | .encryptionChachaPolyV2 =>
    let header := [version.toByte] ++ device.take (encryptedV2HeaderSize - 1)
    let device := device.drop (encryptedV2HeaderSize - 1)
    if header.length ≠ encryptedV2HeaderSize then none
    else
      let metaLength := t.metaLength (header.getD 2 0) (header.getD 3 0)
      let header := header ++ device.take metaLength
      if header.length ≠ metaLength + encryptedV2HeaderSize then none
      else some (header, header.drop encryptedV2HeaderSize, device.drop metaLength)

/-- Reads an encrypted file behind its version byte; the counter goes to the file's nonce. -/
def readEncryptedChachaPolyFile (c : CryptoSettings) (version : Version) (device : List Byte)
    (map : SettingsMap) : Option (SettingsMap × CryptoSettings) :=
  match readHeader t version device with
  | none => none
  | some (header, metadata, device) =>
    let nonce := device.take nonceSize
    let device := device.drop nonceSize
    if nonce.length ≠ nonceSize then none
    else
      let mac := device.take macSize
      let ciphertext := device.drop macSize
      if mac.length ≠ macSize then none
      else if ciphertext.length = 0 then none
      else
        let key := c.getKey version metadata
        if key.isEmpty then none
        else if key.length ≠ keySize then none
        else
          match A.decrypt key nonce header ciphertext mac with
          | none => none
          | some content =>
            match readJson J content map with
            | none => none
            | some map => some (map, { c with lastNonce := t.endian.word (nonce.take 8) })

/-- `readFile`, with `s_instance` and the empty device's error. -/
def readFile (c : Option CryptoSettings) (device : List Byte) (map : SettingsMap) :
    Option (SettingsMap × Option CryptoSettings) :=
  match device with
  | [] => none
  | b :: device =>
    match Version.ofByte? b, c with
    | some .noEncryption, c => (readJson J device map).map (·, c)
    | _, none => none
    | some version, some c =>
      (readEncryptedChachaPolyFile t A J c version device map).map fun r => (r.1, some r.2)
    | none, some _ => none

def resetKey (c : CryptoSettings) : CryptoSettings := { c with getKey := c.getRenewedKey }

/-- Counts the nonce up; at the top the key is reset and the count starts again. -/
def nextNonce (c : CryptoSettings) : CryptoSettings :=
  if c.lastNonce + 1 = BitVec.allOnes 64 then { c.resetKey with lastNonce := 0 }
  else { c with lastNonce := c.lastNonce + 1 }

/-- The nonce that carries the counter: its bytes, filled up with zeros. -/
def nonceBytes (n : BitVec 64) : List Byte :=
  t.endian.bytes n ++ List.replicate (nonceSize - 8) 0

/-- The header of a file, if the version and the metadata allow one. -/
def writeHeader (version : Version) (metadata : List Byte) : Option (List Byte) :=
  match version with
  | .noEncryption => none
  | .encryptionChachaPolyV1 => some [version.toByte]
  | .encryptionChachaPolyV2 =>
    if metadata.length > 65535 then none
    else some ([version.toByte, 0, BitVec.ofNat 8 metadata.length,
      BitVec.ofNat 8 (metadata.length >>> 8)] ++ metadata)

/-- The file of a settings text. -/
def encryptedFile (key header : List Byte) (n : BitVec 64) (content : List Byte) : List Byte :=
  let sealed := A.encrypt key (nonceBytes t n) header content
  header ++ nonceBytes t n ++ sealed.2 ++ sealed.1

/-- Writes an encrypted file. The nonce counts up also when the write then fails. -/
def writeEncryptedChachaPolyFile (fails : WriteCall → Bool) (c : CryptoSettings)
    (map : SettingsMap) : Option (List Byte) × CryptoSettings :=
  let content := J.toJson map.toObject
  let c := c.nextNonce
  let version := c.getPreferredVersion
  let key := c.getKey version []
  if key.isEmpty then (none, c)
  else if key.length ≠ keySize then (none, c)
  else
    match writeHeader version c.getMetaData with
    | none => (none, c)
    | some header =>
      if fails .header then (none, c)
      else if fails .nonce then (none, c)
      else if fails .mac then (none, c)
      else if fails .cipher then (none, c)
      else (some (encryptedFile t A key header c.lastNonce content), c)

def writeJsonFile (fails : WriteCall → Bool) (map : SettingsMap) : Option (List Byte) :=
  if fails .version then none
  else
    let content := J.toJson map.toObject
    if fails .content then none else some ([Version.noEncryption.toByte] ++ content)

/-- `writeFile`, with `s_instance`. -/
def writeFile (fails : WriteCall → Bool) (c : Option CryptoSettings) (map : SettingsMap) :
    Option (List Byte) × Option CryptoSettings :=
  match c with
  | none => (writeJsonFile J fails map, none)
  | some c =>
    match c.getPreferredVersion with
    | .noEncryption => (writeJsonFile J fails map, some c)
    | .encryptionChachaPolyV1 | .encryptionChachaPolyV2 =>
      let r := writeEncryptedChachaPolyFile t A J fails c map
      (r.1, some r.2)

end Functions

/-! ## The metadata length -/

section MetaLength

variable {t : Target}

theorem lengthBytes {n : ℕ} (hn : n ≤ 65535) :
    (BitVec.ofNat 8 n).toNat = n % 256 ∧ (BitVec.ofNat 8 (n >>> 8)).toNat = n / 256 := by
  rw [BitVec.toNat_ofNat, BitVec.toNat_ofNat, Nat.shiftRight_eq_div_pow]
  omega

/-- A `char` of the upper half is negative where `char` is signed. -/
theorem char_eq (t : Target) (b : Byte) :
    t.char b = b.toNat ∧ b.toNat < t.charBound ∨
      t.char b = b.toNat - 256 ∧ t.charBound = 128 ∧ 128 ≤ b.toNat := by
  have hb := b.isLt
  unfold Target.char Target.charBound
  split_ifs with hs
  · rw [BitVec.toInt_eq_toNat_cond]
    split_ifs with hlow
    · exact .inl ⟨rfl, by omega⟩
    · exact .inr ⟨by norm_num, rfl, by omega⟩
  · exact .inl ⟨rfl, by omega⟩

theorem charBound_eq (t : Target) : t.charBound = 128 ∨ t.charBound = 256 := by
  unfold Target.charBound
  split_ifs <;> simp

/-- Shifting a `char` right by its width leaves only its sign. -/
theorem metaLength_cases (t : Target) (low high : Byte) :
    (t.metaLength low high : ℤ) = t.char low % 65536 ∧ high.toNat < t.charBound ∨
      (t.metaLength low high : ℤ) = (t.char low - 1) % 65536 ∧ t.charBound = 128 ∧
        128 ≤ high.toNat := by
  have hb := high.isLt
  have hnonneg : 0 ≤ (t.char low + t.char high >>> (8 : ℕ)) % 65536 :=
    Int.emod_nonneg _ (by norm_num)
  unfold Target.metaLength
  rw [Int.toNat_of_nonneg hnonneg, Int.shiftRight_eq_div_pow]
  rcases char_eq t high with ⟨h, hlt⟩ | ⟨h, hbound, hge⟩
  · have hshift : t.char high / ((2 ^ 8 : ℕ) : ℤ) = 0 := by omega
    exact .inl ⟨by rw [hshift, add_zero], hlt⟩
  · have hshift : t.char high / ((2 ^ 8 : ℕ) : ℤ) = -1 := by omega
    exact .inr ⟨by rw [hshift]; rfl, hbound, hge⟩

theorem metaLength_eq {n : ℕ} (hn : n < t.charBound) :
    t.metaLength (BitVec.ofNat 8 n) (BitVec.ofNat 8 (n >>> 8)) = n := by
  have hbound := charBound_eq t
  obtain ⟨hlow, hhigh⟩ := lengthBytes (show n ≤ 65535 by omega)
  rcases metaLength_cases t (BitVec.ofNat 8 n) (BitVec.ofNat 8 (n >>> 8)) with h | h
  · rcases char_eq t (BitVec.ofNat 8 n) with hc | hc
    · omega
    · omega
  · omega

/-- A longer length is read as one that is too small, or as one past the end of a small file. -/
theorem metaLength_ne {n : ℕ} (hn : t.charBound ≤ n) (hmax : n ≤ 65535) :
    t.metaLength (BitVec.ofNat 8 n) (BitVec.ofNat 8 (n >>> 8)) < n ∨
      n + 30 < t.metaLength (BitVec.ofNat 8 n) (BitVec.ofNat 8 (n >>> 8)) := by
  have hbound := charBound_eq t
  obtain ⟨hlow, hhigh⟩ := lengthBytes hmax
  rcases metaLength_cases t (BitVec.ofNat 8 n) (BitVec.ofNat 8 (n >>> 8)) with h | h
  · rcases char_eq t (BitVec.ofNat 8 n) with hc | hc
    · omega
    · omega
  · rcases char_eq t (BitVec.ofNat 8 n) with hc | hc
    · omega
    · omega
end MetaLength

/-! ## Reading a written file -/

section Reading

variable {t : Target} {A : Aead macSize} {J : JsonDocument}

/-- The metadata a file of this version carries. -/
def storedMetaData (version : Version) (metadata : List Byte) : List Byte :=
  if version = .encryptionChachaPolyV2 then metadata else []

@[simp] theorem length_nonceBytes (n : BitVec 64) : (nonceBytes t n).length = nonceSize := by
  simp [nonceBytes, nonceSize]

theorem word_nonceBytes (n : BitVec 64) : t.endian.word ((nonceBytes t n).take 8) = n := by
  rw [nonceBytes, List.take_left' (by simp), Endian.word_bytes t.endian (by norm_num)]

theorem readHeader_v2 (t : Target) (reserved low high : Byte) (rest : List Byte) :
    readHeader t .encryptionChachaPolyV2 (reserved :: low :: high :: rest) =
      if rest.length < t.metaLength low high then none
      else some ([Version.encryptionChachaPolyV2.toByte, reserved, low, high] ++
        rest.take (t.metaLength low high), rest.take (t.metaLength low high),
        rest.drop (t.metaLength low high)) := by
  by_cases h : rest.length < t.metaLength low high
  · have hmin : min (t.metaLength low high) rest.length ≠ t.metaLength low high := by omega
    simp [readHeader, encryptedV2HeaderSize, h, hmin]
  · have hmin : min (t.metaLength low high) rest.length = t.metaLength low high := by omega
    simp [readHeader, encryptedV2HeaderSize, h, hmin]

theorem readHeader_writeHeader {version : Version} {metadata header : List Byte}
    (h : writeHeader version metadata = some header)
    (hmeta : version = .encryptionChachaPolyV2 → metadata.length < t.charBound) :
    ∃ tail, header = version.toByte :: tail ∧ ∀ rest, readHeader t version (tail ++ rest) =
      some (header, storedMetaData version metadata, rest) := by
  cases version with
  | noEncryption => simp [writeHeader] at h
  | encryptionChachaPolyV1 =>
    obtain rfl : [Version.encryptionChachaPolyV1.toByte] = header := by simpa [writeHeader] using h
    exact ⟨[], rfl, fun rest => rfl⟩
  | encryptionChachaPolyV2 =>
    obtain ⟨hlen, rfl⟩ : metadata.length ≤ 65535 ∧ [Version.encryptionChachaPolyV2.toByte, 0,
        BitVec.ofNat 8 metadata.length, BitVec.ofNat 8 (metadata.length >>> 8)] ++ metadata =
          header := by
      simpa [writeHeader] using h
    refine ⟨[0, BitVec.ofNat 8 metadata.length, BitVec.ofNat 8 (metadata.length >>> 8)] ++ metadata,
      rfl, fun rest => ?_⟩
    have hread := metaLength_eq (hmeta rfl)
    rw [List.append_assoc, List.cons_append, List.cons_append, List.cons_append, List.nil_append,
      readHeader_v2, hread, if_neg (by simp), List.take_left, List.drop_left]
    rfl

theorem readFile_toByte {version : Version} (hversion : version ≠ .noEncryption)
    (c : CryptoSettings) (device : List Byte) (map : SettingsMap) :
    readFile t A J (some c) (version.toByte :: device) map =
      (readEncryptedChachaPolyFile t A J c version device map).map fun r => (r.1, some r.2) := by
  cases version with
  | noEncryption => exact absurd rfl hversion
  | encryptionChachaPolyV1 => rfl
  | encryptionChachaPolyV2 => rfl

theorem ne_noEncryption_of_writeHeader {version : Version} {metadata header : List Byte}
    (h : writeHeader version metadata = some header) : version ≠ .noEncryption := by
  rintro rfl
  simp [writeHeader] at h

theorem readFile_encryptedFile {version : Version} {metadata header key content : List Byte}
    (h : writeHeader version metadata = some header)
    (hmeta : version = .encryptionChachaPolyV2 → metadata.length < t.charBound)
    (hcontent : content ≠ []) (n : BitVec 64) (c : CryptoSettings) (map : SettingsMap) :
    readFile t A J (some c) (encryptedFile t A key header n content) map =
      let key' := c.getKey version (storedMetaData version metadata)
      if key'.length ≠ keySize then none
      else
        let crypt := A.encrypt key (nonceBytes t n) header content
        match A.decrypt key' (nonceBytes t n) header crypt.1 crypt.2 with
        | none => none
        | some content =>
          (readJson J content map).map fun map => (map, some { c with lastNonce := n }) := by
  obtain ⟨tail, rfl, htail⟩ := readHeader_writeHeader h hmeta
  have hversion := ne_noEncryption_of_writeHeader h
  have hlen : 0 < content.length := List.length_pos_iff.2 hcontent
  have hfile : encryptedFile t A key (version.toByte :: tail) n content =
      version.toByte :: (tail ++ (nonceBytes t n ++
        ((A.encrypt key (nonceBytes t n) (version.toByte :: tail) content).2 ++
          (A.encrypt key (nonceBytes t n) (version.toByte :: tail) content).1))) := by
    simp [encryptedFile]
  rw [hfile, readFile_toByte hversion, readEncryptedChachaPolyFile, htail]
  dsimp only
  rw [List.take_left' (by simp), List.drop_left' (by simp), List.take_left' (by simp [macSize]),
    List.drop_left' (by simp [macSize]), word_nonceBytes]
  rw [if_neg (by simp), if_neg (by simp), if_neg (by simpa using hcontent)]
  generalize c.getKey version (storedMetaData version metadata) = key'
  by_cases hempty : key'.isEmpty
  · have hzero : key'.length ≠ keySize := by
      rw [List.isEmpty_iff.1 hempty]
      simp [keySize]
    simp [hempty, hzero]
  · by_cases hsize : key'.length = keySize
    · rw [if_neg hempty, if_neg (by simpa using hsize), if_neg (by simpa using hsize)]
      generalize A.decrypt key' _ _ _ _ = opened
      cases opened with
      | none => rfl
      | some content' =>
        dsimp only
        cases readJson J content' map <;> rfl
    · simp [hempty, hsize]

/-- **The counter follows the file.** A file that is accepted sets the counter to its nonce. -/
theorem lastNonce_of_readFile {version : Version} {metadata header key content : List Byte}
    (h : writeHeader version metadata = some header)
    (hmeta : version = .encryptionChachaPolyV2 → metadata.length < t.charBound)
    (hcontent : content ≠ []) {n : BitVec 64} {c : CryptoSettings} {map map' : SettingsMap}
    {c' : Option CryptoSettings}
    (hread : readFile t A J (some c) (encryptedFile t A key header n content) map =
      some (map', c')) : c' = some { c with lastNonce := n } := by
  rw [readFile_encryptedFile h hmeta hcontent] at hread
  dsimp only at hread
  split_ifs at hread
  split at hread
  · simp at hread
  · obtain ⟨_, -, heq⟩ := Option.map_eq_some_iff.1 hread
    exact (congrArg Prod.snd heq).symm

theorem readFile_of_getKey {version : Version} {metadata header key content : List Byte}
    (h : writeHeader version metadata = some header)
    (hmeta : version = .encryptionChachaPolyV2 → metadata.length < t.charBound)
    (hcontent : content ≠ []) (hsize : key.length = keySize) {n : BitVec 64} {c : CryptoSettings}
    (hkey : c.getKey version (storedMetaData version metadata) = key) (map : SettingsMap) :
    readFile t A J (some c) (encryptedFile t A key header n content) map =
      (readJson J content map).map fun map => (map, some { c with lastNonce := n }) := by
  rw [readFile_encryptedFile h hmeta hcontent]
  dsimp only
  rw [hkey, if_neg (by simpa using hsize), A.decrypt_encrypt]

end Reading

/-! ## Writing a file -/

section Writing

variable {t : Target} {A : Aead macSize} {J : JsonDocument}

/-- The key a write uses. -/
def fileKey (c : CryptoSettings) : List Byte := c.nextNonce.getKey c.getPreferredVersion []

@[simp] theorem getPreferredVersion_nextNonce (c : CryptoSettings) :
    c.nextNonce.getPreferredVersion = c.getPreferredVersion := by
  unfold nextNonce resetKey
  split_ifs <;> rfl

@[simp] theorem getMetaData_nextNonce (c : CryptoSettings) :
    c.nextNonce.getMetaData = c.getMetaData := by
  unfold nextNonce resetKey
  split_ifs <;> rfl

/-- An encrypted write counts the nonce up, whatever comes of it. -/
theorem snd_writeFile {fails : WriteCall → Bool} {c : CryptoSettings} {map : SettingsMap}
    (hversion : c.getPreferredVersion ≠ .noEncryption) :
    (writeFile t A J fails (some c) map).2 = some c.nextNonce := by
  have henc : (writeEncryptedChachaPolyFile t A J fails c map).2 = c.nextNonce := by
    unfold writeEncryptedChachaPolyFile
    dsimp only
    cases writeHeader c.nextNonce.getPreferredVersion c.nextNonce.getMetaData with
    | none => split_ifs <;> rfl
    | some header => split_ifs <;> rfl
  unfold writeFile
  dsimp only
  split
  · contradiction
  · rw [henc]
  · rw [henc]

/-- An encrypted write that succeeds makes the file of the next nonce. -/
theorem fst_writeFile_eq_some_iff {fails : WriteCall → Bool} {c : CryptoSettings}
    {map : SettingsMap} (hversion : c.getPreferredVersion ≠ .noEncryption) {bytes : List Byte} :
    (writeFile t A J fails (some c) map).1 = some bytes ↔
      c.fileKey.length = keySize ∧ (∀ call ∈ [WriteCall.header, .nonce, .mac, .cipher],
        fails call = false) ∧ ∃ header, writeHeader c.getPreferredVersion c.getMetaData =
          some header ∧ encryptedFile t A c.fileKey header c.nextNonce.lastNonce
            (J.toJson map.fields) = bytes := by
  have henc : (writeFile t A J fails (some c) map).1 =
      (writeEncryptedChachaPolyFile t A J fails c map).1 := by
    unfold writeFile
    dsimp only
    split
    · contradiction
    · rfl
    · rfl
  rw [henc]
  unfold writeEncryptedChachaPolyFile fileKey
  simp only [getPreferredVersion_nextNonce, getMetaData_nextNonce, SettingsMap.toObject_eq]
  generalize c.nextNonce.getKey c.getPreferredVersion [] = key
  by_cases hsize : key.length = keySize
  · have hempty : ¬ key.isEmpty = true := by
      intro hempty
      rw [List.isEmpty_iff.1 hempty] at hsize
      simp [keySize] at hsize
    rw [if_neg hempty, if_neg (by simpa using hsize)]
    cases hheader : writeHeader c.getPreferredVersion c.getMetaData with
    | none => simp
    | some header =>
      dsimp only
      split_ifs <;> simp_all
  · split_ifs <;> simp_all

theorem writeFile_plain {fails : WriteCall → Bool} {c : CryptoSettings} {map : SettingsMap}
    (hversion : c.getPreferredVersion = .noEncryption) :
    writeFile t A J fails (some c) map = (writeJsonFile J fails map, some c) := by
  unfold writeFile
  dsimp only
  rw [hversion]

end Writing

/-! ## The round trip -/

section RoundTrip

variable {t : Target} {A : Aead macSize} {J : JsonDocument}

/-- Every map the text format represents is read back from the file written for it, under every key
and with every cipher. -/
def RoundTrips (t : Target) (version : Version) (metadata : List Byte) : Prop :=
  ∀ (A : Aead macSize) (J : JsonDocument) (map : SettingsMap) (c reader : CryptoSettings),
    J.Represents map → c.getPreferredVersion = version → c.getMetaData = metadata →
    c.fileKey.length = keySize →
    reader.getKey version (storedMetaData version metadata) = c.fileKey →
    ∃ bytes, (writeFile t A J (fun _ => false) (some c) map).1 = some bytes ∧
      (readFile t A J (some reader) bytes .empty).map Prod.fst = some map

theorem readJson_toJson {map : SettingsMap} (h : J.Represents map) :
    readJson J (J.toJson map.fields) .empty = some map := by
  unfold readJson
  rw [h]
  refine congrArg some (SettingsMap.ext ?_)
  rw [Json.toObject, SettingsMap.fields_foldl_insert]
  exact map.toObject_eq

theorem exists_writeHeader {version : Version} (hversion : version ≠ .noEncryption)
    {metadata : List Byte} (hlen : metadata.length ≤ 65535) :
    ∃ header, writeHeader version metadata = some header := by
  cases version with
  | noEncryption => exact absurd rfl hversion
  | encryptionChachaPolyV1 => exact ⟨_, rfl⟩
  | encryptionChachaPolyV2 => exact ⟨_, if_neg (by omega)⟩

theorem roundTrips_of_lt {version : Version} {metadata : List Byte}
    (hlen : metadata.length ≤ 65535)
    (hmeta : version = .encryptionChachaPolyV2 → metadata.length < t.charBound) :
    RoundTrips t version metadata := by
  rintro A J map c reader hmap rfl rfl hsize hkey
  by_cases hplain : c.getPreferredVersion = .noEncryption
  · refine ⟨[Version.noEncryption.toByte] ++ J.toJson map.fields, ?_, ?_⟩
    · rw [writeFile_plain hplain]
      simp [writeJsonFile]
    · simp [readFile, readJson_toJson hmap]
  · obtain ⟨header, hheader⟩ := exists_writeHeader hplain hlen
    refine ⟨encryptedFile t A c.fileKey header c.nextNonce.lastNonce (J.toJson map.fields), ?_, ?_⟩
    · exact (fst_writeFile_eq_some_iff hplain).2 ⟨hsize, by simp, header, hheader, rfl⟩
    · rw [readFile_of_getKey hheader hmeta (J.toJson_ne_nil _) hsize hkey, readJson_toJson hmap]
      rfl

/-- The text format on the empty map. -/
def emptyDocument : JsonDocument where
  toJson _ := [0x7b, 0x7d]
  fromJson _ := .obj []
  isObject_fromJson_toJson _ := rfl
  toJson_ne_nil _ := by simp

/-- A cipher that leaves the text in the clear and tags one header with zeros, every other with
`b`. -/
def tagCipher (header : List Byte) (b : Byte) : Aead macSize :=
  Aead.ofStream (fun _ _ n => List.replicate n 0)
    (fun _ _ aad _ => List.replicate macSize (if aad = header then 0 else b))
    (fun _ _ n => by simp) (fun _ _ _ _ => by simp)

/-- Another header is opened only with a tag of `b`. -/
theorem decrypt_tagCipher {header aad key nonce ciphertext mac : List Byte} {b : Byte}
    (haad : aad ≠ header) (hmac : mac[0]? ≠ some b) :
    (tagCipher header b).decrypt key nonce aad ciphertext mac = none := by
  refine if_neg fun h => hmac ?_
  dsimp only at h
  rw [h, if_neg haad]
  rfl

/-- A file is rejected if the length the reader takes runs past its end, or if the cipher does not
open what the reader finds behind that length. -/
theorem readFile_v2_eq_none {reserved low high : Byte} {rest : List Byte} {c : CryptoSettings}
    {map : SettingsMap}
    (h : rest.length < t.metaLength low high ∨ ∀ key, A.decrypt key
      ((rest.drop (t.metaLength low high)).take nonceSize)
      ([Version.encryptionChachaPolyV2.toByte, reserved, low, high] ++
        rest.take (t.metaLength low high))
      (((rest.drop (t.metaLength low high)).drop nonceSize).drop macSize)
      (((rest.drop (t.metaLength low high)).drop nonceSize).take macSize) = none) :
    readFile t A J (some c)
      (Version.encryptionChachaPolyV2.toByte :: reserved :: low :: high :: rest) map = none := by
  have hbody : readEncryptedChachaPolyFile t A J c .encryptionChachaPolyV2
      (reserved :: low :: high :: rest) map = none := by
    rw [readEncryptedChachaPolyFile, readHeader_v2]
    by_cases hshort : rest.length < t.metaLength low high
    · rw [if_pos hshort]
    · rw [if_neg hshort]
      dsimp only
      rw [h.resolve_left hshort]
      split_ifs <;> rfl
  rw [readFile_toByte (by simp), hbody]
  rfl

/-- What the reader finds behind another metadata length, some cipher rejects. -/
theorem exists_readFile_eq_none {metadata header content : List Byte}
    (hmeta : t.charBound ≤ metadata.length)
    (hheader : writeHeader .encryptionChachaPolyV2 metadata = some header)
    (hcontent : content.length = 2) (key : List Byte) (nonce : BitVec 64) (c : CryptoSettings)
    (map : SettingsMap) :
    ∃ A : Aead macSize,
      readFile t A J (some c) (encryptedFile t A key header nonce content) map = none := by
  obtain ⟨hlen, hheader⟩ : metadata.length ≤ 65535 ∧ [Version.encryptionChachaPolyV2.toByte, 0,
      BitVec.ofNat 8 metadata.length, BitVec.ofNat 8 (metadata.length >>> 8)] ++ metadata =
        header := by
    simpa [writeHeader] using hheader
  have hread := metaLength_ne hmeta hlen
  generalize BitVec.ofNat 8 metadata.length = low at hheader hread
  generalize BitVec.ofNat 8 (metadata.length >>> 8) = high at hheader hread
  generalize hn : t.metaLength low high = n at hread
  -- the byte that stands where the reader looks for the tag
  let b := (metadata ++ nonceBytes t nonce).getD (n + nonceSize) 0
  refine ⟨tagCipher header (b + 1), ?_⟩
  have hfile : encryptedFile t (tagCipher header (b + 1)) key header nonce content =
      Version.encryptionChachaPolyV2.toByte :: 0 :: low :: high ::
        (metadata ++ nonceBytes t nonce ++
          ((tagCipher header (b + 1)).encrypt key (nonceBytes t nonce) header content).2 ++
          ((tagCipher header (b + 1)).encrypt key (nonceBytes t nonce) header content).1) := by
    rw [encryptedFile]
    nth_rewrite 1 [← hheader]
    simp
  rw [hfile]
  apply readFile_v2_eq_none
  rw [hn]
  rcases hread with hlt | hgt
  · right
    intro key'
    have hbound : n + nonceSize < (metadata ++ nonceBytes t nonce).length := by
      rw [List.length_append, length_nonceBytes]
      omega
    apply decrypt_tagCipher
    · intro heq
      have hlength := congrArg List.length heq
      simp only [← hheader, List.length_append, List.length_cons, List.length_nil,
        List.length_take] at hlength
      omega
    · have hb : (metadata ++ nonceBytes t nonce)[n + nonceSize]? = some b := by
        simp only [b, List.getD_eq_getElem?_getD, List.getElem?_eq_getElem hbound, Option.getD_some]
      rw [List.getElem?_take_of_lt (by simp [macSize]), List.getElem?_drop, List.getElem?_drop,
        List.append_assoc, Nat.add_zero, List.getElem?_append_left hbound, hb]
      simp
  · left
    simp only [List.length_append, length_nonceBytes, Aead.length_ciphertext, Aead.length_mac,
      hcontent]
    simp only [nonceSize, macSize]
    omega

theorem not_roundTrips {metadata : List Byte} (hlen : metadata.length ≤ 65535)
    (hmeta : t.charBound ≤ metadata.length) :
    ¬ RoundTrips t .encryptionChachaPolyV2 metadata := by
  intro h
  let key := List.replicate keySize (0 : Byte)
  let c : CryptoSettings := ⟨0, .encryptionChachaPolyV2, fun _ _ => key, fun _ _ => key, metadata⟩
  have hc : c.getPreferredVersion ≠ .noEncryption := by simp [c]
  have hkey : c.fileKey = key := by simp [fileKey, nextNonce, c]
  obtain ⟨header, hheader⟩ := exists_writeHeader hc hlen
  obtain ⟨A, hnone⟩ := @exists_readFile_eq_none t emptyDocument _ _ [0x7b, 0x7d] hmeta hheader rfl
    c.fileKey c.nextNonce.lastNonce c .empty
  obtain ⟨bytes, hwrite, hread⟩ := h A emptyDocument .empty c c rfl rfl rfl
    (by simp [hkey, key]) hkey.symm
  obtain ⟨-, -, header', hheader', rfl⟩ := (fst_writeFile_eq_some_iff hc).1 hwrite
  obtain rfl : header = header' := Option.some.inj (hheader.symm.trans hheader')
  have hempty : emptyDocument.toJson SettingsMap.empty.fields = [0x7b, 0x7d] := rfl
  rw [hempty, hnone] at hread
  simp at hread

/-- **The exact condition.** A file of the plain or the first encrypted version is always read back;
a file of the second one if and only if its metadata is shorter than a nonnegative `char`. -/
theorem roundTrips_iff (t : Target) (version : Version) {metadata : List Byte}
    (hlen : metadata.length ≤ 65535) :
    RoundTrips t version metadata ↔
      (version = .encryptionChachaPolyV2 → metadata.length < t.charBound) := by
  refine ⟨fun h hversion => ?_, roundTrips_of_lt hlen⟩
  by_contra hmeta
  rw [hversion] at h
  exact not_roundTrips hlen (not_lt.1 hmeta) h

/-- Eleven bytes of metadata are read back. -/
theorem roundTrips_iff_helloWorld :
    RoundTrips ⟨.little, true⟩ .encryptionChachaPolyV2 (List.replicate 11 0) :=
  (roundTrips_iff ⟨.little, true⟩ .encryptionChachaPolyV2 (by simp)).2 fun _ => by
    simp [Target.charBound]

/-- A hundred and twenty-eight bytes are not, where `char` is signed. -/
theorem not_roundTrips_replicate :
    ¬ ∀ version metadata, metadata.length ≤ 65535 → RoundTrips ⟨.little, true⟩ version metadata :=
  fun h => @not_roundTrips ⟨.little, true⟩ (List.replicate 128 0) (by simp)
    (by simp [Target.charBound]) (h .encryptionChachaPolyV2 _ (by simp))

end RoundTrip

end CryptoSettings

end WgDesktop
