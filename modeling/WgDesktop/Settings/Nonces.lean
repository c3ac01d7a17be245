import WgDesktop.Lib.Runs
import WgDesktop.Settings.CryptoSettings

/-!
# The nonces of encrypted settings files

A machine on which processes that read and write the settings file come and go. The nonce counter
lives in the process and starts at zero; the key lives in the platform's key store and outlasts the
process. What ties the two together is the read after the start, which takes the counter over from
the file that was written last, if that file is encrypted and can be opened.
-/

namespace WgDesktop.CryptoSettings

open Bytes Runs

/-! ## The machine -/

/-- A key of the platform's key store. -/
structure StoredKey where
  bytes : List Byte
  length_bytes : bytes.length = keySize
  deriving DecidableEq

structure Machine where
  /-- The counter of the running process. -/
  lastNonce : BitVec 64
  key : StoredKey
  /-- The file that was last written successfully. -/
  file : Option (List Byte)
  /-- History: key and counter of every write that produced an encrypted file. -/
  log : List (StoredKey × BitVec 64)
  /-- History: the process started when there were files under the key, and has not taken the
  counter over from one. -/
  stale : Bool

/-- A write with what the platform and the device answer, a read, a restart with the read that
follows it, and a new key. `next` is the key a reset during the write draws. -/
inductive Event where
  | write (map : SettingsMap) (version : Version) (keyAtHand : Bool) (metadata : List Byte)
      (fails : WriteCall → Bool) (next : StoredKey)
  | read (keyAtHand : Bool)
  | restart (keyAtHand : Bool)
  | resetKey (next : StoredKey)

namespace Machine

/-- The instance of the running process. -/
def process (m : Machine) (version : Version) (keyAtHand : Bool) (metadata : List Byte)
    (next : StoredKey) : CryptoSettings where
  lastNonce := m.lastNonce
  getPreferredVersion := version
  getKey _ _ := if keyAtHand then m.key.bytes else []
  getRenewedKey _ _ := if keyAtHand then next.bytes else []
  getMetaData := metadata

/-- Some file was encrypted with the key. -/
def used (m : Machine) (k : StoredKey) : Bool := m.log.any (·.1 = k)

/-- The next write counts to the top, so that it resets the key. -/
def wraps (m : Machine) : Bool := m.lastNonce + 1 = BitVec.allOnes 64

/-- The last file is an encrypted one and its key is at hand. -/
def reseeds (m : Machine) (keyAtHand : Bool) : Bool :=
  keyAtHand && m.file.any fun bytes => bytes.head? ≠ some Version.noEncryption.toByte

/-- The first machine: no file yet. -/
def initial (k : StoredKey) : Machine := ⟨0, k, none, [], false⟩

section Steps

variable (t : Target) (A : Aead macSize) (J : JsonDocument)

/-- The counter after a read of the last file. -/
def nonceAfterRead (m : Machine) (keyAtHand : Bool) : BitVec 64 :=
  match m.file with
  | none => m.lastNonce
  | some bytes =>
    match readFile t A J (some (m.process .noEncryption keyAtHand [] m.key)) bytes .empty with
    | some (_, some c) => c.lastNonce
    | _ => m.lastNonce

/-- Reads the last file. -/
def read (m : Machine) (keyAtHand : Bool) : Machine :=
  { m with lastNonce := m.nonceAfterRead t A J keyAtHand
           stale := m.stale && !m.reseeds keyAtHand }

def step (m : Machine) : Event → Machine
  | .write map version keyAtHand metadata fails next =>
    let c := m.process version keyAtHand metadata next
    let r := writeFile t A J fails (some c) map
    let encrypted := version ≠ .noEncryption
    let reset := encrypted && m.wraps
    let m := { m with
      lastNonce := (r.2.map (·.lastNonce)).getD m.lastNonce
      key := if reset then next else m.key
      stale := m.stale && !reset }
    match r.1 with
    | none => m
    | some bytes =>
      { m with file := some bytes
               log := if encrypted then m.log ++ [(m.key, m.lastNonce)] else m.log }
  | .read keyAtHand => m.read t A J keyAtHand
  | .restart keyAtHand =>
    { m with lastNonce := 0, stale := m.used m.key }.read t A J keyAtHand
  | .resetKey next => { m with key := next, stale := false }

end Steps

/-! ## The property and its condition -/

/-- No two files were encrypted with the same key and nonce. -/
def NoReuse (t : Target) (m : Machine) : Prop :=
  (m.log.map fun entry => (entry.1, nonceBytes t entry.2)).Nodup

/-- The counter, once taken over, is not below a nonce of the current key. -/
def CounterKept (m : Machine) : Prop :=
  m.stale = false → ∀ entry ∈ m.log, entry.1 = m.key → entry.2 ≤ m.lastNonce

/-- The key store draws keys that encrypted no file before. -/
def Fresh (m : Machine) : Event → Prop
  | .write _ version _ _ _ next =>
    version ≠ .noEncryption → m.wraps = true → m.used next = false
  | .resetKey next => m.used next = false
  | _ => True

/-- A process writes an encrypted file only after it took the counter over, and only one whose
metadata can be read back. -/
def Seeded (t : Target) (m : Machine) : Event → Prop
  | .write _ version _ metadata _ _ => version ≠ .noEncryption → m.stale = false ∧
      (version = .encryptionChachaPolyV2 → metadata.length < t.charBound)
  | _ => True

/-! ## The invariant -/

section Invariant

variable {t : Target} {A : Aead macSize} {J : JsonDocument} {m : Machine}

/-- The file is the encrypted one of this key and counter, with metadata that can be read back. -/
def EncryptedAs (t : Target) (A : Aead macSize) (J : JsonDocument) (bytes : List Byte)
    (entry : StoredKey × BitVec 64) : Prop :=
  ∃ version metadata header obj, writeHeader version metadata = some header ∧
    (version = .encryptionChachaPolyV2 → metadata.length < t.charBound) ∧
    bytes = encryptedFile t A entry.1.bytes header entry.2 (J.toJson obj)

/-- In the log the nonces of a key increase, and the files of the current key come last; the last
file, if encrypted, is the last entry's; and a counter that was taken over is not below the nonces
of the current key. -/
structure Inv (t : Target) (A : Aead macSize) (J : JsonDocument) (m : Machine) : Prop where
  top : m.lastNonce ≠ BitVec.allOnes 64
  log_top : ∀ entry ∈ m.log, entry.2 ≠ BitVec.allOnes 64
  increasing : m.log.Pairwise fun a b => a.1 = b.1 → a.2 < b.2
  current : m.used m.key = true → ∃ entry, m.log.getLast? = some entry ∧ entry.1 = m.key
  counter : m.stale = false → ∀ entry ∈ m.log, entry.1 = m.key → entry.2 ≤ m.lastNonce
  file : ∀ bytes, m.file = some bytes → bytes.head? ≠ some Version.noEncryption.toByte →
    ∃ entry, m.log.getLast? = some entry ∧ EncryptedAs t A J bytes entry

theorem used_eq_true {k : StoredKey} : m.used k = true ↔ ∃ entry ∈ m.log, entry.1 = k := by
  simp [used]

theorem used_eq_false {k : StoredKey} : m.used k = false ↔ ∀ entry ∈ m.log, entry.1 ≠ k := by
  simp [used]

theorem inv_initial (k : StoredKey) : Inv t A J (initial k) where
  top := show (0 : BitVec 64) ≠ BitVec.allOnes 64 by decide
  log_top _ h := by simp [initial] at h
  increasing := List.Pairwise.nil
  current h := by simp [initial, used] at h
  counter _ _ h := by simp [initial] at h
  file _ h := by simp [initial] at h

theorem nonceBytes_inj {a b : BitVec 64} : nonceBytes t a = nonceBytes t b ↔ a = b := by
  unfold nonceBytes
  rw [List.append_cancel_right_eq, Endian.bytes_inj _ (by norm_num)]

theorem Inv.noReuse (h : Inv t A J m) : NoReuse t m := by
  unfold NoReuse List.Nodup
  rw [List.pairwise_map]
  refine h.increasing.imp fun {a b} hlt heq => ?_
  obtain ⟨hkey, hnonce⟩ := Prod.mk.inj heq
  have hsame := hlt hkey
  rw [nonceBytes_inj.1 hnonce] at hsame
  exact BitVec.lt_irrefl _ hsame

theorem Inv.le_last (h : Inv t A J m) {entry last : StoredKey × BitVec 64} (hentry : entry ∈ m.log)
    (hkey : entry.1 = m.key) (hlast : m.log.getLast? = some last) :
    last.1 = m.key ∧ entry.2 ≤ last.2 := by
  have hlastKey : last.1 = m.key := by
    obtain ⟨last', hlast', hkey'⟩ := h.current (used_eq_true.2 ⟨entry, hentry, hkey⟩)
    rw [hlast'] at hlast
    rwa [← Option.some.inj hlast]
  refine ⟨hlastKey, ?_⟩
  obtain ⟨pre, hlog⟩ := List.getLast?_eq_some_iff.1 hlast
  have hincreasing := h.increasing
  rw [hlog] at hentry hincreasing
  rcases List.mem_append.1 hentry with hpre | hsame
  · have hlt := (List.pairwise_append.1 hincreasing).2.2 entry hpre last (by simp)
      (hkey.trans hlastKey.symm)
    exact BitVec.le_of_lt hlt
  · rw [List.mem_singleton.1 hsame]
    exact BitVec.le_refl _

/-! ### Reads -/

/-- A read leaves the counter, or takes it over from the last encrypted file. -/
theorem Inv.nonceAfterRead (h : Inv t A J m) (keyAtHand : Bool) :
    m.nonceAfterRead t A J keyAtHand = m.lastNonce ∨
      ∃ last, m.log.getLast? = some last ∧ m.nonceAfterRead t A J keyAtHand = last.2 := by
  unfold Machine.nonceAfterRead
  cases hfile : m.file with
  | none => exact .inl rfl
  | some bytes =>
    dsimp only
    generalize hc : m.process .noEncryption keyAtHand [] m.key = c
    have hlastNonce : c.lastNonce = m.lastNonce := by rw [← hc]; rfl
    by_cases hplain : bytes.head? = some Version.noEncryption.toByte
    · obtain ⟨rest, rfl⟩ : ∃ rest, bytes = Version.noEncryption.toByte :: rest := by
        cases bytes with
        | nil => simp at hplain
        | cons b rest => exact ⟨rest, by rw [Option.some.inj hplain]⟩
      left
      have hread : readFile t A J (some c) (Version.noEncryption.toByte :: rest) .empty =
          (readJson J rest .empty).map (·, some c) := rfl
      rw [hread]
      cases readJson J rest .empty with
      | none => rfl
      | some map => exact hlastNonce
    · obtain ⟨last, hlast, version, metadata, header, obj, hheader, hmeta, rfl⟩ :=
        h.file bytes hfile hplain
      cases hread : readFile t A J (some c)
          (encryptedFile t A last.1.bytes header last.2 (J.toJson obj)) .empty with
      | none => exact .inl rfl
      | some r =>
        obtain ⟨map, c'⟩ := r
        obtain rfl := lastNonce_of_readFile hheader hmeta (J.toJson_ne_nil obj) hread
        exact .inr ⟨last, hlast, rfl⟩

/-- With the key at hand, an encrypted last file of the current key is accepted. -/
theorem Inv.nonceAfterRead_of_reseeds (h : Inv t A J m) {keyAtHand : Bool}
    (hreseeds : m.reseeds keyAtHand = true) {last : StoredKey × BitVec 64}
    (hlast : m.log.getLast? = some last) (hkey : last.1 = m.key) :
    m.nonceAfterRead t A J keyAtHand = last.2 := by
  obtain ⟨rfl, bytes, hfile, hplain⟩ : keyAtHand = true ∧ ∃ bytes, m.file = some bytes ∧
      bytes.head? ≠ some Version.noEncryption.toByte := by
    simpa [reseeds, Option.any_eq_true] using hreseeds
  obtain ⟨last', hlast', version, metadata, header, obj, hheader, hmeta, rfl⟩ :=
    h.file bytes hfile hplain
  obtain rfl : last = last' := Option.some.inj (hlast.symm.trans hlast')
  have hjson : ∃ map, readJson J (J.toJson obj) .empty = some map := by
    unfold readJson
    simp [J.isObject_fromJson_toJson]
  obtain ⟨map, hmap⟩ := hjson
  have hread := @readFile_of_getKey t A J _ _ _ _ _ hheader hmeta (J.toJson_ne_nil obj)
    last.1.length_bytes last.2 (m.process .noEncryption true [] m.key)
    (by rw [hkey]; rfl) .empty
  unfold Machine.nonceAfterRead
  rw [hfile]
  dsimp only
  rw [hread, hmap]
  rfl

theorem Inv.read (h : Inv t A J m) (keyAtHand : Bool) : Inv t A J (m.read t A J keyAtHand) where
  top := by
    rcases h.nonceAfterRead keyAtHand with heq | ⟨last, hlast, heq⟩
    · exact fun htop => h.top (heq ▸ htop)
    · exact fun htop => h.log_top last (List.mem_of_getLast? hlast) (heq ▸ htop)
  log_top := h.log_top
  increasing := h.increasing
  current := h.current
  counter hstale entry hentry hkey := by
    change entry.2 ≤ m.nonceAfterRead t A J keyAtHand
    obtain ⟨last, hlast, hlastKey⟩ := h.current (used_eq_true.2 ⟨entry, hentry, hkey⟩)
    have hle := (h.le_last hentry hkey hlast).2
    by_cases hreseeds : m.reseeds keyAtHand = true
    · rw [h.nonceAfterRead_of_reseeds hreseeds hlast hlastKey]
      exact hle
    · have hstale' : m.stale = false := by simpa [Machine.read, hreseeds] using hstale
      rcases h.nonceAfterRead keyAtHand with heq | ⟨last', hlast', heq⟩
      · rw [heq]
        exact h.counter hstale' entry hentry hkey
      · rw [heq]
        exact (h.le_last hentry hkey hlast').2
  file := h.file

/-! ### Writes -/

/-- The machine after an encrypted write counted up, whatever then comes of the write. -/
def counted (m : Machine) (next : StoredKey) : Machine :=
  if m.wraps then { m with lastNonce := 0, key := next, stale := false }
  else { m with lastNonce := m.lastNonce + 1 }

/-- The machine after a write that produced an encrypted file. -/
def produced (m : Machine) (bytes : List Byte) : Machine :=
  { m with file := some bytes, log := m.log ++ [(m.key, m.lastNonce)] }

theorem log_counted (m : Machine) (next : StoredKey) : (m.counted next).log = m.log := by
  unfold counted
  split_ifs <;> rfl

theorem wraps_iff : m.wraps = true ↔ m.lastNonce + 1 = BitVec.allOnes 64 := decide_eq_true_iff

theorem counted_of_wraps (h : m.wraps = true) (next : StoredKey) :
    m.counted next = { m with lastNonce := 0, key := next, stale := false } := if_pos h

theorem counted_of_not_wraps (h : ¬ m.wraps = true) (next : StoredKey) :
    m.counted next = { m with lastNonce := m.lastNonce + 1 } := if_neg h

/-- The instance counts as the machine does, and the key of its file is the machine's. -/
theorem nextNonce_process (m : Machine) (version : Version) (keyAtHand : Bool)
    (metadata : List Byte) (next : StoredKey) :
    (m.process version keyAtHand metadata next).nextNonce.lastNonce = (m.counted next).lastNonce ∧
      (m.process version keyAtHand metadata next).fileKey =
        if keyAtHand then (m.counted next).key.bytes else [] := by
  unfold fileKey
  by_cases hwraps : m.wraps = true
  · have hnext : (m.process version keyAtHand metadata next).nextNonce =
        { (m.process version keyAtHand metadata next).resetKey with lastNonce := 0 } :=
      if_pos (wraps_iff.1 hwraps)
    rw [hnext, counted_of_wraps hwraps]
    exact ⟨rfl, rfl⟩
  · have hnext : (m.process version keyAtHand metadata next).nextNonce =
        { m.process version keyAtHand metadata next with lastNonce := m.lastNonce + 1 } :=
      if_neg (mt wraps_iff.2 hwraps)
    rw [hnext, counted_of_not_wraps hwraps]
    exact ⟨rfl, rfl⟩

theorem head?_writeJsonFile {fails : WriteCall → Bool} {map : SettingsMap} {bytes : List Byte}
    (h : writeJsonFile J fails map = some bytes) :
    bytes.head? = some Version.noEncryption.toByte := by
  unfold writeJsonFile at h
  split_ifs at h
  rw [← Option.some.inj h]
  rfl

theorem step_write_plain (map : SettingsMap) (keyAtHand : Bool) (metadata : List Byte)
    (fails : WriteCall → Bool) (next : StoredKey) :
    m.step t A J (.write map .noEncryption keyAtHand metadata fails next) =
      match writeJsonFile J fails map with
      | none => m
      | some bytes => { m with file := some bytes } := by
  simp only [step, writeFile, process]
  cases writeJsonFile J fails map <;> simp

/-- An encrypted write counts up, and produces the file of the new count or none. -/
theorem step_write_encrypted {version : Version} (hversion : version ≠ .noEncryption)
    (map : SettingsMap) (keyAtHand : Bool) (metadata : List Byte) (fails : WriteCall → Bool)
    (next : StoredKey) :
    m.step t A J (.write map version keyAtHand metadata fails next) =
      match (writeFile t A J fails (some (m.process version keyAtHand metadata next)) map).1 with
      | none => m.counted next
      | some bytes => (m.counted next).produced bytes := by
  have hcounted : m.counted next = { m with
      lastNonce := (m.process version keyAtHand metadata next).nextNonce.lastNonce
      key := if m.wraps then next else m.key
      stale := m.stale && !m.wraps } := by
    rw [(m.nextNonce_process version keyAtHand metadata next).1]
    by_cases hwraps : m.wraps = true
    · simp [counted_of_wraps hwraps, hwraps]
    · simp [counted_of_not_wraps hwraps, hwraps]
  have hsnd := @snd_writeFile t A J fails (m.process version keyAtHand metadata next) map hversion
  simp only [step, hsnd, hversion, ne_eq, not_false_eq_true, decide_true, Bool.true_and, if_true,
    Option.map_some, Option.getD_some, hcounted, produced]

/-- Counting up stays below the top, and goes above the nonces of the current key. -/
theorem Inv.counted (h : Inv t A J m) {next : StoredKey}
    (hfresh : m.wraps = true → m.used next = false) :
    Inv t A J (m.counted next) ∧ (m.stale = false →
      ∀ entry ∈ m.log, entry.1 = (m.counted next).key → entry.2 < (m.counted next).lastNonce) := by
  by_cases hwraps : m.wraps = true
  · have hunused := used_eq_false.1 (hfresh hwraps)
    rw [counted_of_wraps hwraps]
    refine ⟨⟨by simp, h.log_top, h.increasing, fun hused => ?_, ?_, h.file⟩, ?_⟩
    · obtain ⟨entry, hentry, hkey⟩ := used_eq_true.1 hused
      exact absurd hkey (hunused entry hentry)
    · exact fun _ entry hentry hkey => absurd hkey (hunused entry hentry)
    · exact fun _ entry hentry hkey => absurd hkey (hunused entry hentry)
  · have hlt : m.lastNonce < m.lastNonce + 1 := by
      have htop := h.top
      have hne : m.lastNonce.toNat ≠ 2 ^ 64 - 1 := fun heq =>
        htop (BitVec.eq_of_toNat_eq (by rw [heq]; decide))
      rw [BitVec.lt_def, BitVec.toNat_add]
      have hbound := m.lastNonce.isLt
      change _ < (m.lastNonce.toNat + 1) % 2 ^ 64
      omega
    have habove : m.stale = false → ∀ entry ∈ m.log, entry.1 = m.key →
        entry.2 < m.lastNonce + 1 := fun hstale entry hentry hkey =>
      Nat.lt_of_le_of_lt (h.counter hstale entry hentry hkey) hlt
    rw [counted_of_not_wraps hwraps]
    exact ⟨⟨mt wraps_iff.2 hwraps, h.log_top, h.increasing, h.current,
      fun hstale entry hentry hkey => BitVec.le_of_lt (habove hstale entry hentry hkey), h.file⟩,
      habove⟩

/-- A file of the current key and a counter above its nonces continues the log. -/
theorem Inv.produced (h : Inv t A J m) {bytes : List Byte}
    (habove : ∀ entry ∈ m.log, entry.1 = m.key → entry.2 < m.lastNonce)
    (hbytes : EncryptedAs t A J bytes (m.key, m.lastNonce)) : Inv t A J (m.produced bytes) where
  top := h.top
  log_top entry hentry := by
    rcases List.mem_append.1 hentry with hentry | hentry
    · exact h.log_top entry hentry
    · rw [List.mem_singleton.1 hentry]
      exact h.top
  increasing := by
    refine List.pairwise_append.2 ⟨h.increasing, List.pairwise_singleton _ _, ?_⟩
    intro a ha b hb
    rw [List.mem_singleton.1 hb]
    exact habove a ha
  current _ := ⟨(m.key, m.lastNonce), by simp [Machine.produced], rfl⟩
  counter _ entry hentry hkey := by
    rcases List.mem_append.1 hentry with hentry | hentry
    · exact BitVec.le_of_lt (habove entry hentry hkey)
    · rw [List.mem_singleton.1 hentry]
      exact BitVec.le_refl _
  file bytes' hfile _ := by
    obtain rfl : bytes = bytes' := Option.some.inj hfile
    exact ⟨(m.key, m.lastNonce), by simp [Machine.produced], hbytes⟩

theorem Inv.write {map : SettingsMap} {version : Version} {keyAtHand : Bool} {metadata : List Byte}
    {fails : WriteCall → Bool} {next : StoredKey} (h : Inv t A J m)
    (hfresh : m.Fresh (.write map version keyAtHand metadata fails next))
    (hseeded : m.Seeded t (.write map version keyAtHand metadata fails next)) :
    Inv t A J (m.step t A J (.write map version keyAtHand metadata fails next)) := by
  by_cases hversion : version = .noEncryption
  · subst hversion
    rw [step_write_plain]
    cases hjson : writeJsonFile J fails map with
    | none => exact h
    | some bytes =>
      refine ⟨h.top, h.log_top, h.increasing, h.current, h.counter, fun bytes' hfile hplain => ?_⟩
      obtain rfl : bytes = bytes' := Option.some.inj hfile
      exact absurd (head?_writeJsonFile hjson) hplain
  · obtain ⟨hcounted, habove⟩ := h.counted (hfresh hversion)
    obtain ⟨hstale, hmeta⟩ := hseeded hversion
    rw [step_write_encrypted hversion]
    cases hwrite : (writeFile t A J fails
      (some (m.process version keyAtHand metadata next)) map).1 with
    | none => exact hcounted
    | some bytes =>
      obtain ⟨hsize, -, header, hheader, rfl⟩ := (fst_writeFile_eq_some_iff hversion).1 hwrite
      obtain ⟨hnonce, hkey⟩ := m.nextNonce_process version keyAtHand metadata next
      have hhand : keyAtHand = true := by
        by_contra hhand
        rw [hkey, if_neg hhand] at hsize
        simp [keySize] at hsize
      rw [hkey, if_pos hhand, hnonce]
      refine hcounted.produced ?_ ⟨version, metadata, header, map.fields, hheader, hmeta, rfl⟩
      rw [log_counted]
      exact habove hstale

theorem Inv.step {e : Event} (h : Inv t A J m) (hguard : m.Fresh e ∧ m.Seeded t e) :
    Inv t A J (m.step t A J e) := by
  cases e with
  | write map version keyAtHand metadata fails next => exact h.write hguard.1 hguard.2
  | read keyAtHand => exact h.read keyAtHand
  | restart keyAtHand =>
    have hstart : Inv t A J { m with lastNonce := 0, stale := m.used m.key } := by
      refine ⟨by simp, h.log_top, h.increasing, h.current, ?_, h.file⟩
      exact fun hunused entry hentry hkey => absurd hkey (used_eq_false.1 hunused entry hentry)
    exact hstart.read keyAtHand
  | resetKey next =>
    have hunused := used_eq_false.1 hguard.1
    refine ⟨h.top, h.log_top, h.increasing, fun hused => ?_, ?_, h.file⟩
    · obtain ⟨entry, hentry, hkey⟩ := used_eq_true.1 hused
      exact absurd hkey (hunused entry hentry)
    · exact fun _ entry hentry hkey => absurd hkey (hunused entry hentry)

end Invariant

/-! ## Runs -/

def keyA : StoredKey := ⟨List.replicate keySize 0, by simp⟩
def keyB : StoredKey := ⟨List.replicate keySize 1, by simp⟩

/-- A write of the empty map that meets no failure. -/
def save (version : Version) : Event := .write .empty version true [] (fun _ => false) keyB

end Machine

end WgDesktop.CryptoSettings
