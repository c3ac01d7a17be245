import Mathlib.Data.Finset.Card
import Mathlib.Data.Finset.Range
import WgDesktop.Lib.Runs
import WgDesktop.Lib.TextTable

/-!
# `WindowsSplitTunnel`

The buffers of `src/platforms/windows/daemon/windowssplittunnel.cpp` that tell the driver which
programs do not use the tunnel and which processes there are. Both have a header, an entry for each
name and behind the entries the names, as the comments of the structures say, and `readBuffer` reads
them so.

`readBuffer_generateAppConfiguration_iff` is about the programs, whose names may be too long for an
entry, and `readBuffer_generateProcessBlob` about the processes, whose names are never too long.
-/

namespace WgDesktop.WindowsSplitTunnel

open Bytes TextTable

/-! ## The buffers -/

/-- A unit of `std::wstring` and `QString`. -/
abbrev WChar := BitVec 16

/-- The units of a text in memory. -/
def wbytes (s : List WChar) : List Byte := s.flatMap Endian.little.bytes

def sizeT (n : ℕ) : List Byte := Endian.little.bytes (BitVec.ofNat 64 n)

def ushort (n : ℕ) : List Byte := Endian.little.bytes (BitVec.ofNat 16 n)

section Buffer

variable {α : Type*} (size : ℕ) (entry : α → ℕ → List Byte → List Byte)

/-- What both functions do with a buffer of zeros: the entries and names one by one, and last the
header. -/
def generateBuffer (items : List (α × List Byte)) (bufferSize : ℕ) : List Byte :=
  overwrite
    (fill size entry (16 + size * items.length) 16 0 items (List.replicate bufferSize 0)) 0
    (sizeT items.length ++ sizeT bufferSize)

/-- Reads the header and the entries with their names. The length of the header is that of all. -/
def readBuffer (readEntry : List Byte → α × ℕ × ℕ) (bs : List Byte) :
    Option (List (α × List Byte)) :=
  (Endian.little.read 64 bs).bind fun numEntries =>
    (Endian.little.read 64 numEntries.2).bind fun totalLength =>
      if totalLength.1.toNat ≠ bs.length then none
      else
        readEntries size readEntry (totalLength.2.drop (size * numEntries.1.toNat))
          numEntries.1.toNat totalLength.2

end Buffer

/-! ### Programs -/

section Programs

variable (queryDosDevice : List WChar → Option (List WChar))

/-- The path with the device in place of the drive. The answer of `QueryDosDeviceW` is given. -/
def convertPath (path : List WChar) : List WChar :=
  match path.splitOn 0x2f with
  | [] => []
  | driveLetter :: parts =>
    if 0x3a ∉ driveLetter ∨ parts = [] then []
    else
      match queryDosDevice driveLetter with
      | none => []
      | some deviceName => [0x5c].intercalate (deviceName :: parts)

/-- `CONFIGURATION_ENTRY`, without the padding. -/
def configurationEntry (_ : Unit) (offset : ℕ) (name : List Byte) : List Byte :=
  sizeT offset ++ ushort name.length

def readConfigurationEntry (bs : List Byte) : Unit × ℕ × ℕ :=
  ((), (Endian.little.word (bs.take 8) : BitVec 64).toNat,
    (Endian.little.word ((bs.drop 8).take 2) : BitVec 16).toNat)

def generateAppConfiguration (appPaths : List (List WChar)) : List Byte :=
  let dosPaths := appPaths.map (convertPath queryDosDevice)
  let cummulatedStringSize := dosPaths.foldl (fun size dosPath => size + dosPath.length * 2) 0
  let bufferSize := 16 + 16 * appPaths.length + cummulatedStringSize
  generateBuffer 16 configurationEntry (dosPaths.map fun dosPath => ((), wbytes dosPath)) bufferSize

end Programs

/-! ### Processes -/

/-- `MAX_PATH`, the most that `K32GetProcessImageFileNameW` writes. -/
def maxPath : ℕ := 260

/-- `ProcessInfo`, with an empty path if it could not be read. -/
structure ProcessInfo where
  processId : BitVec 32
  parentProcessId : BitVec 32
  devicePath : List WChar
  length_le : devicePath.length ≤ maxPath
  deriving DecidableEq

/-- `QMap::insert`, with the map as the list of its values in the order of their keys. -/
def insertProcess (info : ProcessInfo) : List ProcessInfo → List ProcessInfo
  | [] => [info]
  | p :: processes =>
    if info.processId < p.processId then info :: p :: processes
    else if p.processId = info.processId then info :: processes
    else p :: insertProcess info processes

/-- A `HANDLE`. -/
abbrev Handle := BitVec 64

/-- `PROCESS_DISCOVERY_ENTRY`, without the padding. -/
def discoveryEntry (ids : Handle × Handle) (offset : ℕ) (name : List Byte) : List Byte :=
  Endian.little.bytes ids.1 ++ (Endian.little.bytes ids.2 ++
    if name = [] then sizeT 0 ++ ushort 0 else sizeT offset ++ ushort name.length)

def readDiscoveryEntry (bs : List Byte) : (Handle × Handle) × ℕ × ℕ :=
  ((Endian.little.word (bs.take 8), Endian.little.word ((bs.drop 8).take 8)),
    (Endian.little.word ((bs.drop 16).take 8) : BitVec 64).toNat,
    (Endian.little.word ((bs.drop 24).take 2) : BitVec 16).toNat)

/-- The processes of a snapshot. -/
def processes (snapshot : List ProcessInfo) : List ProcessInfo :=
  snapshot.foldl (fun processes info => insertProcess info processes) []

/-- What is written of a process. -/
def ProcessInfo.item (p : ProcessInfo) : (Handle × Handle) × List Byte :=
  ((p.processId.setWidth 64, p.parentProcessId.setWidth 64), wbytes p.devicePath)

def generateProcessBlob (snapshot : List ProcessInfo) : List Byte :=
  let processList := processes snapshot
  if processList = [] then []
  else
    let totalStringSize := processList.foldl (fun size p => size + p.devicePath.length * 2) 0
    let bufferSize := 16 + 32 * processList.length + totalStringSize
    generateBuffer 32 discoveryEntry (processList.map ProcessInfo.item) bufferSize

/-! ## Reading a buffer -/

@[simp] theorem length_sizeT (n : ℕ) : (sizeT n).length = 8 := Endian.length_bytes _ _

theorem toNat_sizeT {n : ℕ} (h : n < 2 ^ 64) : (BitVec.ofNat 64 n).toNat = n := by
  rw [BitVec.toNat_ofNat, Nat.mod_eq_of_lt h]

@[simp] theorem length_ushort (n : ℕ) : (ushort n).length = 2 := Endian.length_bytes _ _

@[simp] theorem length_wbytes (s : List WChar) : (wbytes s).length = s.length * 2 := by
  induction s with
  | nil => rfl
  | cons c s ih =>
    rw [wbytes, List.flatMap_cons, List.length_append, Endian.length_bytes, ← wbytes, ih,
      List.length_cons]
    omega

theorem wbytes_injective : Function.Injective wbytes := by
  intro s s' h
  induction s generalizing s' with
  | nil =>
    have hlen := congrArg List.length h
    rw [length_wbytes, length_wbytes] at hlen
    exact (List.eq_nil_of_length_eq_zero (by simpa using hlen.symm)).symm
  | cons c s ih =>
    cases s' with
    | nil =>
      have hlen := congrArg List.length h
      simp at hlen
    | cons c' s' =>
      rw [wbytes, wbytes, List.flatMap_cons, List.flatMap_cons] at h
      obtain ⟨hc, hs⟩ := List.append_inj h (by simp)
      rw [(Endian.bytes_inj .little (by decide)).mp hc, ih hs]

section Buffer

variable {α : Type*} {size : ℕ} {entry : α → ℕ → List Byte → List Byte}

theorem length_texts (items : List (α × List Byte)) (start : ℕ) :
    items.foldl (fun size item => size + item.2.length) start = start + (texts items).length := by
  induction items generalizing start with
  | nil => rfl
  | cons item items ih =>
    rw [List.foldl_cons, ih, texts_cons, List.length_append, Nat.add_assoc]

theorem generateBuffer_eq (hentry : ∀ a offset text, (entry a offset text).length ≤ size)
    (items : List (α × List Byte)) {bufferSize : ℕ}
    (hsize : bufferSize = 16 + size * items.length + (texts items).length) :
    generateBuffer size entry items bufferSize =
      sizeT items.length ++ (sizeT bufferSize ++ (entries size entry 0 items ++ texts items)) := by
  have hfill := @fill_eq _ size entry hentry items (List.replicate 16 0) []
    (16 + size * items.length) (by rw [List.length_replicate])
  rw [List.nil_append, List.nil_append, List.length_replicate, List.length_nil,
    List.replicate_append_replicate, List.replicate_append_replicate, ← Nat.add_assoc,
    ← hsize] at hfill
  rw [generateBuffer, hfill, overwrite_zero (by simp), List.append_assoc]

/-- **Reading a buffer.** The entries are read with their names, as far as their lengths fit. -/
theorem readBuffer_generateBuffer (hentry : ∀ a offset text, (entry a offset text).length ≤ size)
    {readEntry : List Byte → α × ℕ × ℕ}
    (hread : ∀ a offset text, offset + text.length < 2 ^ 64 →
      readEntry (padded size entry a offset text) = (a, offset, text.length % 2 ^ 16) ∨
        text = [] ∧ readEntry (padded size entry a offset text) = (a, 0, 0))
    (hpos : 0 < size) (items : List (α × List Byte)) {bufferSize : ℕ}
    (hsize : bufferSize = 16 + size * items.length + (texts items).length)
    (hbound : bufferSize < 2 ^ 64) :
    readBuffer size readEntry (generateBuffer size entry items bufferSize) =
      some (items.map fun item => (item.1, item.2.take (item.2.length % 2 ^ 16))) := by
  have hle : items.length ≤ size * items.length := Nat.le_mul_of_pos_left _ hpos
  have hnum : (BitVec.ofNat 64 items.length).toNat = items.length := toNat_sizeT (by omega)
  have htotal : (BitVec.ofNat 64 bufferSize).toNat = bufferSize := toNat_sizeT hbound
  have hlength : (sizeT items.length ++
      (sizeT bufferSize ++ (entries size entry 0 items ++ texts items))).length = bufferSize := by
    simp only [List.length_append, length_sizeT, length_entries hentry, hsize]
    omega
  rw [generateBuffer_eq hentry items hsize, readBuffer]
  simp only [sizeT] at hlength ⊢
  rw [Endian.read_append .little (by decide), Option.bind_some,
    Endian.read_append .little (by decide), Option.bind_some]
  simp only [htotal, hlength, hnum, ne_eq, not_true_eq_false, if_false]
  rw [List.drop_left' (length_entries hentry items 0)]
  have hall := readEntries_entries hentry hread items [] (texts items) (by
    rw [List.length_nil]
    omega)
  rwa [List.nil_append] at hall

end Buffer

/-! ## The programs -/

section Programs

variable (queryDosDevice : List WChar → Option (List WChar))

theorem length_configurationEntry (a : Unit) (offset : ℕ) (name : List Byte) :
    (configurationEntry a offset name).length ≤ 16 := by
  simp [configurationEntry]

theorem readConfigurationEntry_padded (a : Unit) (offset : ℕ) (name : List Byte)
    (h : offset + name.length < 2 ^ 64) :
    readConfigurationEntry (padded 16 configurationEntry a offset name) =
      (a, offset, name.length % 2 ^ 16) := by
  rw [padded, configurationEntry, List.append_assoc, readConfigurationEntry,
    List.take_left' (length_sizeT offset), List.drop_left' (length_sizeT offset),
    List.take_left' (length_ushort name.length), sizeT, ushort, Endian.word_bytes _ (by decide),
    Endian.word_bytes _ (by decide), toNat_sizeT (by omega), BitVec.toNat_ofNat]

theorem take_mod_eq_self_iff (name : List Byte) :
    name.take (name.length % 2 ^ 16) = name ↔ name.length < 2 ^ 16 := by
  rw [List.take_eq_self_iff]
  constructor
  · intro h
    exact h.trans_lt (Nat.mod_lt _ (by decide))
  · intro h
    rw [Nat.mod_eq_of_lt h]

/-- The size of the buffer for the programs. -/
def appBufferSize (appPaths : List (List WChar)) : ℕ :=
  16 + 16 * appPaths.length +
    (texts (appPaths.map fun path => ((), wbytes (convertPath queryDosDevice path)))).length

theorem generateAppConfiguration_eq (appPaths : List (List WChar)) :
    generateAppConfiguration queryDosDevice appPaths =
      generateBuffer 16 configurationEntry
        (appPaths.map fun path => ((), wbytes (convertPath queryDosDevice path)))
        (appBufferSize queryDosDevice appPaths) := by
  have hsize := length_texts
    (appPaths.map fun path => ((), wbytes (convertPath queryDosDevice path))) 0
  rw [List.foldl_map, Nat.zero_add] at hsize
  simp only [length_wbytes] at hsize
  rw [generateAppConfiguration, appBufferSize, ← hsize, List.foldl_map, List.map_map]
  rfl

/-- **Programs.** The driver reads the programs from the buffer when the path of each has less than
32768 units, and for longer ones it reads something else. -/
theorem readBuffer_generateAppConfiguration_iff (appPaths : List (List WChar))
    (hbound : appBufferSize queryDosDevice appPaths < 2 ^ 64) :
    readBuffer 16 readConfigurationEntry (generateAppConfiguration queryDosDevice appPaths) =
        some (appPaths.map fun path => ((), wbytes (convertPath queryDosDevice path))) ↔
      ∀ path ∈ appPaths, (convertPath queryDosDevice path).length < 2 ^ 15 := by
  rw [generateAppConfiguration_eq, readBuffer_generateBuffer length_configurationEntry
    (fun a offset text h => .inl (readConfigurationEntry_padded a offset text h)) (by decide) _
    (by rw [appBufferSize, List.length_map]) hbound, Option.some_inj, List.map_map,
    List.map_inj_left]
  refine forall₂_congr fun path hpath => ?_
  rw [Function.comp_apply, Prod.mk.injEq, take_mod_eq_self_iff, length_wbytes]
  constructor
  · rintro ⟨-, h⟩
    omega
  · exact fun h => ⟨rfl, by omega⟩

/-- Two programs on the drive `C:`, whose paths have its device in place of the drive. -/
theorem readBuffer_generateAppConfiguration_iff_calc :
    readBuffer 16 readConfigurationEntry
        (generateAppConfiguration (fun _ => some [0x44])
          [[0x43, 0x3a, 0x2f, 0x61], [0x43, 0x3a, 0x2f, 0x62, 0x63]]) =
      some [((), wbytes [0x44, 0x5c, 0x61]), ((), wbytes [0x44, 0x5c, 0x62, 0x63])] :=
  (readBuffer_generateAppConfiguration_iff (fun _ => some [0x44])
    [[0x43, 0x3a, 0x2f, 0x61], [0x43, 0x3a, 0x2f, 0x62, 0x63]] (by decide)).mpr (by decide)

end Programs

/-! ## The processes -/

section Processes

variable {info : ProcessInfo} {ps snapshot : List ProcessInfo}

/-- The keys of a map are in order. -/
def Sorted (ps : List ProcessInfo) : Prop := ps.Pairwise fun p q => p.processId < q.processId

theorem mem_insertProcess (h : Sorted ps) {p : ProcessInfo} :
    p ∈ insertProcess info ps ↔ p = info ∨ p ∈ ps ∧ p.processId ≠ info.processId := by
  induction ps with
  | nil => simp [insertProcess]
  | cons q ps ih =>
    obtain ⟨hq, hps⟩ := List.pairwise_cons.mp h
    rw [insertProcess]
    split_ifs with hlt heq
    · -- every key of the list is greater
      have hne : ∀ p ∈ q :: ps, p.processId ≠ info.processId := by
        intro p hp heq
        rcases List.mem_cons.mp hp with rfl | hp
        · exact BitVec.lt_irrefl _ (heq ▸ hlt)
        · exact BitVec.lt_asymm (heq ▸ hq p hp) hlt
      rw [List.mem_cons]
      exact or_congr_right (and_iff_left_of_imp (hne p)).symm
    · rw [List.mem_cons, List.mem_cons]
      refine or_congr_right ⟨fun hp => ⟨.inr hp, fun hsame => ?_⟩, fun ⟨hp, hne⟩ => ?_⟩
      · exact BitVec.lt_irrefl _ ((heq.trans hsame.symm) ▸ hq p hp)
      · exact hp.resolve_left fun hp => hne (hp ▸ heq)
    · rw [List.mem_cons, ih hps, List.mem_cons]
      constructor
      · rintro (rfl | rfl | ⟨hp, hne⟩)
        · exact .inr ⟨.inl rfl, heq⟩
        · exact .inl rfl
        · exact .inr ⟨.inr hp, hne⟩
      · rintro (rfl | ⟨rfl | hp, hne⟩)
        · exact .inr (.inl rfl)
        · exact .inl rfl
        · exact .inr (.inr ⟨hp, hne⟩)

theorem Sorted.insertProcess (h : Sorted ps) (info : ProcessInfo) :
    Sorted (insertProcess info ps) := by
  induction ps with
  | nil => exact List.pairwise_singleton _ _
  | cons q ps ih =>
    obtain ⟨hq, hps⟩ := List.pairwise_cons.mp h
    rw [WindowsSplitTunnel.insertProcess]
    split_ifs with hlt heq
    · refine List.pairwise_cons.mpr ⟨fun p hp => ?_, h⟩
      rcases List.mem_cons.mp hp with rfl | hp
      · exact hlt
      · exact BitVec.lt_trans hlt (hq p hp)
    · exact List.pairwise_cons.mpr ⟨fun p hp => heq ▸ hq p hp, hps⟩
    · refine List.pairwise_cons.mpr ⟨fun p hp => ?_, ih hps⟩
      rcases (mem_insertProcess hps).mp hp with rfl | ⟨hp, -⟩
      · exact BitVec.lt_of_le_ne (BitVec.not_lt.mp hlt) heq
      · exact hq p hp

theorem sorted_processes (snapshot : List ProcessInfo) : Sorted (processes snapshot) :=
  @Runs.foldl_invariant _ _ _ Sorted (fun _ info h => Sorted.insertProcess h info) []
    List.Pairwise.nil snapshot

theorem mem_processes_iff {p : ProcessInfo} : p ∈ processes snapshot ↔
    ∃ before after, snapshot = before ++ p :: after ∧
      ∀ q ∈ after, q.processId ≠ p.processId := by
  induction snapshot using List.reverseRecOn with
  | nil => simp [processes]
  | append_singleton snapshot info ih =>
    have hstep : processes (snapshot ++ [info]) = insertProcess info (processes snapshot) := by
      rw [processes, List.foldl_append]
      rfl
    rw [hstep, mem_insertProcess (sorted_processes snapshot), ih]
    constructor
    · rintro (rfl | ⟨⟨before, after, rfl, hafter⟩, hne⟩)
      · exact ⟨snapshot, [], rfl, List.forall_mem_nil _⟩
      · refine ⟨before, after ++ [info], by simp, fun q hq => ?_⟩
        rcases List.mem_append.mp hq with hq | hq
        · exact hafter q hq
        · exact List.mem_singleton.mp hq ▸ hne.symm
    · rintro ⟨before, after, hsplit, hafter⟩
      rcases List.eq_nil_or_concat after with rfl | ⟨after, last, rfl⟩
      · obtain ⟨-, hlast⟩ := List.append_inj' hsplit rfl
        exact .inl (List.cons.inj hlast).1.symm
      · rw [List.concat_eq_append] at hsplit hafter
        rw [← List.cons_append, ← List.append_assoc] at hsplit
        obtain ⟨rfl, hlast⟩ := List.append_inj' hsplit rfl
        obtain rfl := (List.cons.inj hlast).1
        rw [List.forall_mem_append] at hafter
        exact .inr ⟨⟨before, after, rfl, hafter.1⟩,
          (hafter.2 info (List.mem_singleton_self info)).symm⟩

theorem Sorted.length_le (h : Sorted ps) : ps.length ≤ 2 ^ 32 := by
  have hnodup : (ps.map fun p => p.processId.toNat).Nodup := by
    rw [List.Nodup, List.pairwise_map]
    exact h.imp fun hlt => Nat.ne_of_lt (BitVec.lt_def.mp hlt)
  have hsub : (ps.map fun p => p.processId.toNat).toFinset ⊆ Finset.range (2 ^ 32) := by
    intro n hn
    obtain ⟨p, -, rfl⟩ := List.mem_map.mp (List.mem_toFinset.mp hn)
    exact Finset.mem_range.mpr p.processId.isLt
  have hcard := Finset.card_le_card hsub
  rwa [List.toFinset_card_of_nodup hnodup, List.length_map, Finset.card_range] at hcard

theorem length_texts_le (ps : List ProcessInfo) :
    (texts (ps.map ProcessInfo.item)).length ≤ 520 * ps.length := by
  induction ps with
  | nil => exact Nat.le_refl 0
  | cons p ps ih =>
    have hp := p.length_le
    rw [maxPath] at hp
    rw [List.map_cons, ProcessInfo.item, texts_cons, List.length_append, length_wbytes,
      List.length_cons]
    omega

theorem length_discoveryEntry (ids : Handle × Handle) (offset : ℕ) (name : List Byte) :
    (discoveryEntry ids offset name).length ≤ 32 := by
  rw [discoveryEntry]
  split_ifs <;> simp

theorem readDiscoveryEntry_padded (ids : Handle × Handle) (offset : ℕ) (name : List Byte)
    (h : offset + name.length < 2 ^ 64) :
    readDiscoveryEntry (padded 32 discoveryEntry ids offset name) =
        (ids, offset, name.length % 2 ^ 16) ∨
      name = [] ∧ readDiscoveryEntry (padded 32 discoveryEntry ids offset name) = (ids, 0, 0) := by
  have hread : ∀ (n m : ℕ) (rest : List Byte),
      readDiscoveryEntry (Endian.little.bytes ids.1 ++
        (Endian.little.bytes ids.2 ++ (sizeT n ++ (ushort m ++ rest)))) =
        (ids, n % 2 ^ 64, m % 2 ^ 16) := by
    intro n m rest
    have hlen : ∀ id : Handle, (Endian.little.bytes id).length = 8 := fun id =>
      Endian.length_bytes _ _
    have hdrop16 : ∀ bs : List Byte, bs.drop 16 = (bs.drop 8).drop 8 := fun bs => by
      rw [List.drop_drop]
    have hdrop24 : ∀ bs : List Byte, bs.drop 24 = ((bs.drop 8).drop 8).drop 8 := fun bs => by
      rw [List.drop_drop, List.drop_drop]
    simp only [readDiscoveryEntry, hdrop16, hdrop24, List.drop_left' (hlen _),
      List.take_left' (hlen _), List.drop_left' (length_sizeT _), List.take_left' (length_sizeT _),
      List.take_left' (length_ushort _)]
    rw [sizeT, ushort, Endian.word_bytes _ (by decide), Endian.word_bytes _ (by decide),
      Endian.word_bytes _ (by decide), Endian.word_bytes _ (by decide), BitVec.toNat_ofNat,
      BitVec.toNat_ofNat]
  rw [padded, discoveryEntry]
  split_ifs with hname
  · refine .inr ⟨hname, ?_⟩
    simp only [List.append_assoc]
    exact hread 0 0 _
  · left
    simp only [List.append_assoc]
    rw [hread, Nat.mod_eq_of_lt (by omega : offset < 2 ^ 64)]

/-- **Processes.** The driver reads from the buffer each process once, in the order of their ids,
with its parent and its whole path as they came last in the snapshot. -/
theorem readBuffer_generateProcessBlob (snapshot : List ProcessInfo) (hne : snapshot ≠ []) :
    readBuffer 32 readDiscoveryEntry (generateProcessBlob snapshot) =
        some ((processes snapshot).map ProcessInfo.item) ∧
      Sorted (processes snapshot) ∧
      ∀ p, p ∈ processes snapshot ↔ ∃ before after, snapshot = before ++ p :: after ∧
        ∀ q ∈ after, q.processId ≠ p.processId := by
  have hsorted := sorted_processes snapshot
  refine ⟨?_, hsorted, fun p => mem_processes_iff⟩
  have hlast : snapshot.getLast hne ∈ processes snapshot :=
    mem_processes_iff.mpr ⟨snapshot.dropLast, [], (List.dropLast_append_getLast hne).symm,
      List.forall_mem_nil _⟩
  have hnonempty : processes snapshot ≠ [] := List.ne_nil_of_mem hlast
  have hlen := hsorted.length_le
  have htexts := length_texts_le (processes snapshot)
  have hsize := length_texts ((processes snapshot).map ProcessInfo.item) 0
  rw [List.foldl_map, Nat.zero_add] at hsize
  simp only [ProcessInfo.item, length_wbytes] at hsize
  rw [generateProcessBlob, if_neg hnonempty, hsize,
    readBuffer_generateBuffer length_discoveryEntry readDiscoveryEntry_padded (by decide) _
      (by rw [List.length_map]) (by omega), List.map_map]
  refine congrArg some (List.map_congr_left fun p hp => ?_)
  have hp := p.length_le
  rw [maxPath] at hp
  refine Prod.ext rfl ((take_mod_eq_self_iff _).mpr ?_)
  rw [ProcessInfo.item, length_wbytes]
  omega

theorem readBuffer_generateProcessBlob_two :
    readBuffer 32 readDiscoveryEntry
        (generateProcessBlob [⟨7, 4, [0x61], by decide⟩, ⟨4, 0, [], by decide⟩]) =
      some [((4, 0), []), ((7, 4), wbytes [0x61])] :=
  (readBuffer_generateProcessBlob [⟨7, 4, [0x61], by decide⟩, ⟨4, 0, [], by decide⟩]
    (List.cons_ne_nil _ _)).1

end Processes

end WgDesktop.WindowsSplitTunnel
