import Mathlib.Data.List.Sort
import WgDesktop.Lib.Json
import WgDesktop.Lib.Runs

/-!
# The device list

`DeviceModel` from `src/models/devicemodel.cpp`: the devices of the account that are shown, and
those whose removal is under way. A removal takes a device out of the shown ones until the server
has answered; a refresh in between leaves it there. The signals to the user interface and the copy
in the settings are left out.

A refresh with the text of the last one is skipped. `step_outcome` is what each call does when the
lists are those of that text, `run_outcome` the same for runs; `refresh_loses_device` is what the
skipped refresh misses.
-/

namespace WgDesktop

open Runs

/-- `Device`. The time is in milliseconds since the epoch. -/
structure Device where
  deviceName : List Char
  uniqueId : List Char
  createdAt : ℤ
  publicKey : List Char
  ipv4Address : List Char
  ipv6Address : List Char
  deriving DecidableEq, Repr

/-- What the device list uses of the libraries: `QJsonDocument::fromJson` for an object, the valid
dates that `QDateTime` reads, and how `std::sort` orders devices. -/
structure DeviceLibraries where
  fromJson : List UInt8 → Option Json.Object
  isoDate : List Char → Option ℤ
  sort : List Device → List Device
  perm_sort : ∀ l, (sort l).Perm l
  pairwise_sort : ∀ l, (sort l).Pairwise fun a b => b.createdAt ≤ a.createdAt

namespace Device

/-- `fromJson`, for a new device. -/
def fromJson (L : DeviceLibraries) (json : Json) : Option Device :=
  if !json.isObject then none
  else
    let obj := json.toObject
    match (obj.value "name").toString?, (obj.value "pubkey").toString?,
        (obj.value "created_at").toString?, (obj.value "ipv4_address").toString?,
        (obj.value "ipv6_address").toString? with
    | some name, some publicKey, some createdAt, some ipv4Address, some ipv6Address =>
      (L.isoDate createdAt).map fun date =>
        { deviceName := name
          uniqueId := (obj.value "unique_id").toString?.getD []
          createdAt := date
          publicKey
          ipv4Address
          ipv6Address }
    | _, _, _, _, _ => none

/-- `isCurrentDevice`, for keys with this public key. -/
def isCurrentDevice (key : List Char) (d : Device) : Bool := d.publicKey == key

end Device

structure DeviceModel where
  rawJson : List UInt8 := []
  devices : List Device := []
  removedDevices : List Device := []
  deriving DecidableEq, Repr

namespace DeviceModel

/-! ## The operations -/

/-- One turn of the loop of `moveCurrentDevice`. -/
def moveIfCurrent (key : List Char) (devices : List Device) (index : ℕ) : List Device :=
  match devices[index]? with
  | some d => if d.isCurrentDevice key then d :: devices.eraseIdx index else devices
  | none => devices

def moveCurrentDevice (key : List Char) (devices : List Device) : List Device :=
  (List.range devices.length).foldl (moveIfCurrent key) devices

variable (L : DeviceLibraries)

/-- The devices of an answer up to the first that is malformed, and whether there is none. -/
def readDevices : List Json → List Device × Bool
  | [] => ([], true)
  | value :: values =>
    match Device.fromJson L value with
    | none => ([], false)
    | some d =>
      let r := readDevices values
      (d :: r.1, r.2)

/-- The devices that an answer lists. -/
def answer (json : List UInt8) : List Device × Bool :=
  match L.fromJson json with
  | none => ([], false)
  | some obj =>
    if !obj.contains "devices" then ([], false)
    else if !(obj.value "devices").isArray then ([], false)
    else readDevices L (obj.value "devices").toArray

/-- `fromJsonInternal`. When it fails, the lists hold the devices in front of the malformed one. -/
def fromJsonInternal (m : DeviceModel) (key : List Char) (json : List UInt8) :
    Bool × DeviceModel :=
  let removedPublicKeys := m.removedDevices.map Device.publicKey
  let (incoming, ok) := answer L json
  let removedDevices := incoming.filter fun d => removedPublicKeys.contains d.publicKey
  let devices := incoming.filter fun d => !removedPublicKeys.contains d.publicKey
  if ok then
    (true, { rawJson := [], devices := moveCurrentDevice key (L.sort devices), removedDevices })
  else (false, { rawJson := [], devices, removedDevices })

def fromJson (m : DeviceModel) (key : List Char) (s : List UInt8) : Bool × DeviceModel :=
  if s ≠ [] ∧ m.rawJson = s then (true, m)
  else
    let (ok, m) := fromJsonInternal L m key s
    if ok then (true, { m with rawJson := s }) else (false, m)

def startDeviceRemovalFromPublicKey (m : DeviceModel) (publicKey : List Char) : DeviceModel :=
  match m.devices.find? (·.publicKey == publicKey) with
  | none => m
  | some d =>
    { m with
      devices := m.devices.eraseP (·.publicKey == publicKey)
      removedDevices := m.removedDevices ++ [d] }

def stopDeviceRemovalFromPublicKey (m : DeviceModel) (publicKey key : List Char) : DeviceModel :=
  match m.removedDevices.find? (·.publicKey == publicKey) with
  | none => m
  | some d =>
    { m with
      devices := moveCurrentDevice key (L.sort (m.devices ++ [d]))
      removedDevices := m.removedDevices.eraseP (·.publicKey == publicKey) }

def removeDeviceFromPublicKey (m : DeviceModel) (publicKey : List Char) : DeviceModel :=
  { m with
    devices := m.devices.eraseP (·.publicKey == publicKey)
    removedDevices := m.removedDevices.eraseP (·.publicKey == publicKey) }

/-- A call. `key` is the public key of the keys it is given. -/
inductive Operation where
  | fromJson (key : List Char) (s : List UInt8)
  | startDeviceRemoval (publicKey : List Char)
  | stopDeviceRemoval (publicKey key : List Char)
  | removeDevice (publicKey : List Char)
  deriving DecidableEq, Repr

def perform (m : DeviceModel) : Operation → DeviceModel
  | .fromJson key s => (m.fromJson L key s).2
  | .startDeviceRemoval publicKey => m.startDeviceRemovalFromPublicKey publicKey
  | .stopDeviceRemoval publicKey key => m.stopDeviceRemovalFromPublicKey L publicKey key
  | .removeDevice publicKey => m.removeDeviceFromPublicKey publicKey

/-! ## The order of the list -/

/-- The current device first, the others by decreasing time of creation. -/
def InOrder (key : List Char) (devices : List Device) : Prop :=
  ∃ current rest, devices = current ++ rest ∧ (∀ d ∈ current, d.publicKey = key) ∧
    (∀ d ∈ rest, d.publicKey ≠ key) ∧ rest.Pairwise fun a b => b.createdAt ≤ a.createdAt

/-- The turns up to `n` have moved the current devices among the first `n`. -/
theorem foldl_moveIfCurrent (key : List Char) (devices : List Device) {n : ℕ}
    (hn : n ≤ devices.length) :
    (List.range n).foldl (moveIfCurrent key) devices =
      ((devices.take n).filter (Device.isCurrentDevice key)).reverse ++
        (devices.take n).filter (fun d => !d.isCurrentDevice key) ++ devices.drop n := by
  induction n with
  | zero => simp
  | succ n ih =>
    have hlt : n < devices.length := by omega
    have htake : devices.take (n + 1) = devices.take n ++ [devices[n]] := by
      rw [List.take_add_one, List.getElem?_eq_getElem hlt, Option.toList_some]
    have hdrop : devices.drop n = devices[n] :: devices.drop (n + 1) :=
      List.drop_eq_getElem_cons hlt
    have hlen : ((devices.take n).filter (Device.isCurrentDevice key)).reverse.length +
        ((devices.take n).filter fun d => !d.isCurrentDevice key).length = n := by
      rw [List.length_reverse, ← List.length_eq_length_filter_add, List.length_take]
      omega
    rw [List.range_succ, List.foldl_append, ih (by omega), List.foldl_cons, List.foldl_nil,
      hdrop, htake, List.filter_append, List.filter_append, List.reverse_append]
    generalize ((devices.take n).filter (Device.isCurrentDevice key)).reverse = current at hlen ⊢
    generalize ((devices.take n).filter fun d => !d.isCurrentDevice key) = rest at hlen ⊢
    have hget : (current ++ rest ++ devices[n] :: devices.drop (n + 1))[n]? = some devices[n] := by
      rw [List.getElem?_append_right (by simp [hlen]), List.length_append, hlen]
      simp
    have herase : (current ++ rest ++ devices[n] :: devices.drop (n + 1)).eraseIdx n =
        current ++ rest ++ devices.drop (n + 1) := by
      rw [List.eraseIdx_append_of_length_le (by simp [hlen]), List.length_append, hlen]
      simp
    unfold moveIfCurrent
    rw [hget, herase]
    cases hcurrent : devices[n].isCurrentDevice key with
    | true => simp [hcurrent]
    | false => simp [hcurrent]

theorem moveCurrentDevice_eq (key : List Char) (devices : List Device) :
    moveCurrentDevice key devices =
      (devices.filter (Device.isCurrentDevice key)).reverse ++
        devices.filter fun d => !d.isCurrentDevice key := by
  rw [moveCurrentDevice, foldl_moveIfCurrent key devices le_rfl]
  simp

theorem perm_moveCurrentDevice (key : List Char) (devices : List Device) :
    (moveCurrentDevice key devices).Perm devices := by
  rw [moveCurrentDevice_eq]
  exact ((List.reverse_perm _).append_right _).trans (List.filter_append_perm _ _)

theorem inOrder_moveCurrentDevice (key : List Char) {devices : List Device}
    (h : devices.Pairwise fun a b => b.createdAt ≤ a.createdAt) :
    InOrder key (moveCurrentDevice key devices) := by
  refine ⟨_, _, moveCurrentDevice_eq key devices, fun d hd => ?_, fun d hd => ?_,
    h.sublist List.filter_sublist⟩
  · rw [List.mem_reverse, List.mem_filter, Device.isCurrentDevice, beq_iff_eq] at hd
    exact hd.2
  · rw [List.mem_filter, Device.isCurrentDevice, Bool.not_eq_true', beq_eq_false_iff_ne] at hd
    exact hd.2

theorem InOrder.sublist {key : List Char} {l devices : List Device} (h : InOrder key devices)
    (hl : l.Sublist devices) : InOrder key l := by
  obtain ⟨current, rest, rfl, hcurrent, hrest, hpairwise⟩ := h
  obtain ⟨l₁, l₂, rfl, h₁, h₂⟩ := List.sublist_append_iff.mp hl
  exact ⟨l₁, l₂, rfl, fun d hd => hcurrent d (h₁.subset hd), fun d hd => hrest d (h₂.subset hd),
    hpairwise.sublist h₂⟩

/-! ## What a call does -/

/-- The public keys in the two lists. -/
def publicKeys (m : DeviceModel) : List (List Char) :=
  (m.devices ++ m.removedDevices).map Device.publicKey

/-- The lists after a refresh with this key and answer. -/
structure Refreshed (key : List Char) (s : List UInt8) (m : DeviceModel) : Prop where
  disjoint : ∀ d ∈ m.devices, ∀ d' ∈ m.removedDevices, d.publicKey ≠ d'.publicKey
  together : (m.devices ++ m.removedDevices).Perm (answer L s).1
  order : InOrder key m.devices

/-- The devices are where they were or in the other list, and each once. -/
structure Kept (m m' : DeviceModel) : Prop where
  perm : (m'.devices ++ m'.removedDevices).Perm (m.devices ++ m.removedDevices)
  nodup : m'.publicKeys.Nodup

/-- A removal that failed: the device is shown again, in its place. -/
structure Restored (publicKey key : List Char) (m m' : DeviceModel) : Prop extends Kept m m' where
  shown : ∀ d ∈ m.removedDevices, d.publicKey = publicKey →
    d ∈ m'.devices ∧ InOrder key m'.devices

/-- What is asked of a call. -/
def Outcome (m : DeviceModel) : Operation → Prop
  | .fromJson key s =>
    (m.fromJson L key s).1 = true → Refreshed L key s (m.fromJson L key s).2
  | .startDeviceRemoval publicKey => Kept m (m.startDeviceRemovalFromPublicKey publicKey)
  | .stopDeviceRemoval publicKey key =>
    Restored publicKey key m (m.stopDeviceRemovalFromPublicKey L publicKey key)
  | .removeDevice _ => True

/-- The answer of a refresh names no device twice. -/
def UniqueKeys : Operation → Prop
  | .fromJson _ s => ((answer L s).1.map Device.publicKey).Nodup
  | _ => True

theorem perm_cons_eraseP {α : Type} {p : α → Bool} {l : List α} {a : α} (h : l.find? p = some a) :
    l.Perm (a :: l.eraseP p) := by
  obtain ⟨hp, as, bs, rfl, has⟩ := List.find?_eq_some_iff_append.mp h
  rw [List.eraseP_append_right _ (by simpa using has), List.eraseP_cons_of_pos hp]
  exact List.perm_middle

section Calls

variable {L} {m : DeviceModel}

theorem Kept.of_perm {m' : DeviceModel} (hnodup : m.publicKeys.Nodup)
    (h : (m'.devices ++ m'.removedDevices).Perm (m.devices ++ m.removedDevices)) : Kept m m' :=
  ⟨h, (h.map Device.publicKey).nodup_iff.mpr hnodup⟩

theorem kept_start (hnodup : m.publicKeys.Nodup) (publicKey : List Char) :
    Kept m (m.startDeviceRemovalFromPublicKey publicKey) := by
  unfold startDeviceRemovalFromPublicKey
  cases hfind : m.devices.find? (·.publicKey == publicKey) with
  | none => exact ⟨List.Perm.refl _, hnodup⟩
  | some d =>
    refine .of_perm hnodup ?_
    have hperm := (perm_cons_eraseP hfind).append_right m.removedDevices
    refine List.Perm.trans ?_ hperm.symm
    rw [← List.append_assoc]
    exact List.perm_append_singleton d _

theorem restored_stop (hnodup : m.publicKeys.Nodup) (publicKey key : List Char) :
    Restored publicKey key m (m.stopDeviceRemovalFromPublicKey L publicKey key) := by
  unfold stopDeviceRemovalFromPublicKey
  cases hfind : m.removedDevices.find? (·.publicKey == publicKey) with
  | none =>
    refine ⟨⟨List.Perm.refl _, hnodup⟩, fun d hd hkey => ?_⟩
    exact absurd hkey (by simpa using List.find?_eq_none.mp hfind d hd)
  | some d =>
    have hshown := (perm_moveCurrentDevice key (L.sort (m.devices ++ [d]))).trans
      (L.perm_sort (m.devices ++ [d]))
    have hperm : (moveCurrentDevice key (L.sort (m.devices ++ [d])) ++
        m.removedDevices.eraseP (·.publicKey == publicKey)).Perm (m.devices ++ m.removedDevices) := by
      refine (hshown.append_right _).trans ?_
      rw [List.append_assoc]
      exact (perm_cons_eraseP hfind).symm.append_left m.devices
    refine ⟨.of_perm hnodup hperm, fun d' hd' hkey => ⟨?_, ?_⟩⟩
    · -- the keys are different, so that it is the device that was found
      have hkey' : d.publicKey = publicKey := by simpa using List.find?_some hfind
      have hremoved : (m.removedDevices.map Device.publicKey).Nodup := by
        rw [publicKeys, List.map_append] at hnodup
        exact (List.nodup_append.mp hnodup).2.1
      obtain rfl : d' = d := List.inj_on_of_nodup_map hremoved hd'
        (List.mem_of_find?_eq_some hfind) (hkey.trans hkey'.symm)
      exact hshown.mem_iff.mpr (by simp)
    · exact inOrder_moveCurrentDevice key (L.pairwise_sort _)

theorem perm_fromJsonInternal (m : DeviceModel) (key : List Char) (s : List UInt8) :
    ((m.fromJsonInternal L key s).2.devices ++
      (m.fromJsonInternal L key s).2.removedDevices).Perm (answer L s).1 := by
  unfold fromJsonInternal
  rcases answer L s with ⟨incoming, ok⟩
  have hsplit := (List.perm_append_comm).trans (List.filter_append_perm
    (fun d : Device => (m.removedDevices.map Device.publicKey).contains d.publicKey) incoming)
  cases ok with
  | false => exact hsplit
  | true =>
    refine List.Perm.trans (List.Perm.append_right _ ?_) hsplit
    exact (perm_moveCurrentDevice key _).trans (L.perm_sort _)

theorem fromJson_of_not_skipped (key : List Char) {s : List UInt8}
    (hskip : ¬ (s ≠ [] ∧ m.rawJson = s)) :
    (m.fromJson L key s).1 = (answer L s).2 ∧
      ((m.fromJson L key s).2.devices ++ (m.fromJson L key s).2.removedDevices).Perm
        (answer L s).1 ∧
      ((answer L s).2 = false → (m.fromJson L key s).2.rawJson = []) ∧
      ((answer L s).2 = true → (m.fromJson L key s).2.rawJson = s ∧
        InOrder key (m.fromJson L key s).2.devices) := by
  have hperm := perm_fromJsonInternal (L := L) m key s
  have hinternal : (m.fromJsonInternal L key s).1 = (answer L s).2 ∧
      ((answer L s).2 = false → (m.fromJsonInternal L key s).2.rawJson = []) ∧
      ((answer L s).2 = true → InOrder key (m.fromJsonInternal L key s).2.devices) := by
    unfold fromJsonInternal
    rcases answer L s with ⟨incoming, ok⟩
    cases ok with
    | false => exact ⟨rfl, fun _ => rfl, fun h => absurd h Bool.false_ne_true⟩
    | true =>
      exact ⟨rfl, fun h => absurd h.symm Bool.false_ne_true, fun _ =>
        inOrder_moveCurrentDevice key (L.pairwise_sort _)⟩
  obtain ⟨hresult, hraw, horder⟩ := hinternal
  unfold fromJson
  rw [if_neg hskip]
  dsimp only
  cases hok : (answer L s).2 with
  | false =>
    rw [hok] at hresult
    rw [hresult]
    exact ⟨rfl, hperm, fun _ => hraw hok, fun h => absurd h Bool.false_ne_true⟩
  | true =>
    rw [hok] at hresult
    rw [hresult]
    exact ⟨rfl, hperm, fun h => absurd h.symm Bool.false_ne_true, fun _ => ⟨rfl, horder hok⟩⟩

end Calls

/-! ## Runs -/

/-- The model with what was done to it. -/
structure Track where
  model : DeviceModel := {}
  /-- No device was taken out since the lists were filled. -/
  whole : Bool := true
  /-- The key of the call that put the shown devices in order last. -/
  orderedFor : List Char := []

/-- Whether a refresh is skipped. -/
def skips (m : DeviceModel) (s : List UInt8) : Bool := s ≠ [] ∧ m.rawJson = s

def has (devices : List Device) (publicKey : List Char) : Bool :=
  devices.any (·.publicKey == publicKey)

def track (t : Track) (operation : Operation) : Track where
  model := t.model.perform L operation
  whole :=
    match operation with
    | .fromJson _ s => t.whole || !t.model.skips s
    | .removeDevice publicKey =>
      t.whole && !has (t.model.devices ++ t.model.removedDevices) publicKey
    | _ => t.whole
  orderedFor :=
    match operation with
    | .fromJson key s => if t.model.skips s then t.orderedFor else key
    | .stopDeviceRemoval publicKey key =>
      if has t.model.removedDevices publicKey then key else t.orderedFor
    | _ => t.orderedFor

/-- A refresh with the text of the last one finds the lists as that one left them: no device was
taken out, and they are in order for the same key. -/
def Unchanged (t : Track) : Operation → Prop
  | .fromJson key s => t.model.skips s = true → t.whole = true ∧ t.orderedFor = key
  | _ => True

/-- What holds between the calls. -/
structure Consistent (t : Track) : Prop where
  nodup : t.model.publicKeys.Nodup
  read : t.model.rawJson ≠ [] → (answer L t.model.rawJson).2 = true
  together : t.model.rawJson ≠ [] → t.whole = true →
    (t.model.devices ++ t.model.removedDevices).Perm (answer L t.model.rawJson).1
  order : t.model.rawJson ≠ [] → InOrder t.orderedFor t.model.devices

section Runs

variable {L} {t : Track}

theorem consistent_init : Consistent L {} :=
  ⟨List.nodup_nil, fun h => absurd rfl h, fun h => absurd rfl h, fun h => absurd rfl h⟩

/-- **One call.** -/
theorem Consistent.outcome (ht : Consistent L t) {operation : Operation}
    (hunique : UniqueKeys L operation) (hsame : Unchanged t operation) :
    Outcome L t.model operation := by
  cases operation with
  | fromJson key s =>
    intro hok
    have hrefreshed : ∀ {m : DeviceModel}, (m.devices ++ m.removedDevices).Perm (answer L s).1 →
        InOrder key m.devices → Refreshed L key s m := by
      intro m hperm horder
      refine ⟨fun d hd d' hd' heq => ?_, hperm, horder⟩
      have hnodup := (hperm.map Device.publicKey).nodup_iff.mpr hunique
      rw [List.map_append] at hnodup
      exact (List.nodup_append.mp hnodup).2.2 _ (List.mem_map_of_mem hd) _
        (List.mem_map_of_mem hd') heq
    by_cases hskip : s ≠ [] ∧ t.model.rawJson = s
    · obtain ⟨hwhole, rfl⟩ := hsame (decide_eq_true hskip)
      obtain ⟨hne, rfl⟩ := hskip
      have hsame : t.model.fromJson L t.orderedFor t.model.rawJson = (true, t.model) :=
        if_pos ⟨hne, rfl⟩
      rw [hsame]
      exact hrefreshed (ht.together hne hwhole) (ht.order hne)
    · obtain ⟨hresult, hperm, -, hread⟩ := fromJson_of_not_skipped (L := L) key hskip
      exact hrefreshed hperm (hread (hresult.symm.trans hok)).2
  | startDeviceRemoval publicKey => exact kept_start ht.nodup publicKey
  | stopDeviceRemoval publicKey key => exact restored_stop ht.nodup publicKey key
  | removeDevice publicKey => trivial

theorem consistent_fromJson (ht : Consistent L t) {key : List Char} {s : List UInt8}
    (hunique : ((answer L s).1.map Device.publicKey).Nodup) :
    Consistent L (track L t (.fromJson key s)) := by
  by_cases hskip : s ≠ [] ∧ t.model.rawJson = s
  · have hskips : t.model.skips s = true := decide_eq_true hskip
    have hsame : track L t (.fromJson key s) = t := by
      have hmodel : t.model.fromJson L key s = (true, t.model) := if_pos hskip
      simp only [track, perform, hmodel, hskips, Bool.not_true, Bool.or_false, if_true]
    rw [hsame]
    exact ht
  · have hskips : t.model.skips s = false := decide_eq_false hskip
    obtain ⟨-, hperm, hfailed, hread⟩ := fromJson_of_not_skipped (L := L) key hskip
    have hraw : (t.model.fromJson L key s).2.rawJson ≠ [] → (answer L s).2 = true := by
      intro hne
      by_contra hok
      exact hne (hfailed (Bool.eq_false_iff.mpr hok))
    refine ⟨(hperm.map Device.publicKey).nodup_iff.mpr hunique, fun hne => ?_, fun hne _ => ?_,
      fun hne => ?_⟩
    · change (answer L (t.model.fromJson L key s).2.rawJson).2 = true
      rw [(hread (hraw hne)).1]
      exact hraw hne
    · change List.Perm _ (answer L (t.model.fromJson L key s).2.rawJson).1
      rw [(hread (hraw hne)).1]
      exact hperm
    · have horder := (hread (hraw hne)).2
      simpa only [track, perform, hskips, Bool.false_eq_true, if_false] using horder

theorem consistent_start (ht : Consistent L t) (publicKey : List Char) :
    Consistent L (track L t (.startDeviceRemoval publicKey)) := by
  have hkept := kept_start ht.nodup publicKey
  have hraw : (t.model.startDeviceRemovalFromPublicKey publicKey).rawJson = t.model.rawJson := by
    unfold startDeviceRemovalFromPublicKey
    cases t.model.devices.find? (·.publicKey == publicKey) <;> rfl
  have hsub : (t.model.startDeviceRemovalFromPublicKey publicKey).devices.Sublist
      t.model.devices := by
    unfold startDeviceRemovalFromPublicKey
    cases t.model.devices.find? (·.publicKey == publicKey) with
    | none => exact List.Sublist.refl _
    | some d => exact List.eraseP_sublist
  refine ⟨hkept.nodup, fun hne => ?_, fun hne hwhole => ?_, fun hne => ?_⟩
  · change (answer L (t.model.startDeviceRemovalFromPublicKey publicKey).rawJson).2 = true
    rw [hraw]
    exact ht.read (hraw ▸ hne)
  · change List.Perm _ (answer L (t.model.startDeviceRemovalFromPublicKey publicKey).rawJson).1
    rw [hraw]
    exact hkept.perm.trans (ht.together (hraw ▸ hne) hwhole)
  · exact (ht.order (hraw ▸ hne)).sublist hsub

theorem consistent_stop (ht : Consistent L t) (publicKey key : List Char) :
    Consistent L (track L t (.stopDeviceRemoval publicKey key)) := by
  have hrestored := restored_stop (L := L) ht.nodup publicKey key
  have hraw : (t.model.stopDeviceRemovalFromPublicKey L publicKey key).rawJson =
      t.model.rawJson := by
    unfold stopDeviceRemovalFromPublicKey
    cases t.model.removedDevices.find? (·.publicKey == publicKey) <;> rfl
  refine ⟨hrestored.nodup, fun hne => ?_, fun hne hwhole => ?_, fun hne => ?_⟩
  · change (answer L (t.model.stopDeviceRemovalFromPublicKey L publicKey key).rawJson).2 = true
    rw [hraw]
    exact ht.read (hraw ▸ hne)
  · change List.Perm _ (answer L (t.model.stopDeviceRemovalFromPublicKey L publicKey key).rawJson).1
    rw [hraw]
    exact hrestored.perm.trans (ht.together (hraw ▸ hne) hwhole)
  · cases hhas : has t.model.removedDevices publicKey with
    | true =>
      obtain ⟨d, hd, hkey⟩ := List.any_eq_true.mp hhas
      simpa only [track, perform, hhas, if_true] using (hrestored.shown d hd (by simpa using hkey)).2
    | false =>
      have hfind : t.model.removedDevices.find? (·.publicKey == publicKey) = none :=
        List.find?_eq_none.mpr (by simpa [has] using hhas)
      have hsame : t.model.stopDeviceRemovalFromPublicKey L publicKey key = t.model := by
        rw [stopDeviceRemovalFromPublicKey, hfind]
      have horder := ht.order (hraw ▸ hne)
      simpa only [track, perform, hhas, hsame, Bool.false_eq_true, if_false] using horder

theorem consistent_remove (ht : Consistent L t) (publicKey : List Char) :
    Consistent L (track L t (.removeDevice publicKey)) := by
  have hsub : (t.model.removeDeviceFromPublicKey publicKey).devices.Sublist t.model.devices :=
    List.eraseP_sublist
  have hsub' : (t.model.removeDeviceFromPublicKey publicKey).removedDevices.Sublist
      t.model.removedDevices := List.eraseP_sublist
  refine ⟨ht.nodup.sublist ((hsub.append hsub').map _), ht.read, fun hne hwhole => ?_,
    fun hne => (ht.order hne).sublist hsub⟩
  -- nothing was taken out
  obtain ⟨hwhole, hnone⟩ := (Bool.and_eq_true _ _).mp hwhole
  have hnone : ∀ d ∈ t.model.devices ++ t.model.removedDevices,
      ¬ (d.publicKey == publicKey) = true := by
    rw [Bool.not_eq_true', has, List.any_eq_false] at hnone
    exact hnone
  have hleft : t.model.devices.eraseP (·.publicKey == publicKey) = t.model.devices :=
    List.eraseP_of_forall_not fun d hd => hnone d (List.mem_append_left _ hd)
  have hright : t.model.removedDevices.eraseP (·.publicKey == publicKey) =
      t.model.removedDevices :=
    List.eraseP_of_forall_not fun d hd => hnone d (List.mem_append_right _ hd)
  have htogether := ht.together hne hwhole
  rw [← hleft, ← hright] at htogether
  exact htogether

theorem Consistent.track (ht : Consistent L t) {operation : Operation}
    (hunique : UniqueKeys L operation) : Consistent L (track L t operation) := by
  cases operation with
  | fromJson key s => exact consistent_fromJson ht hunique
  | startDeviceRemoval publicKey => exact consistent_start ht publicKey
  | stopDeviceRemoval publicKey key => exact consistent_stop ht publicKey key
  | removeDevice publicKey => exact consistent_remove ht publicKey

theorem model_foldl_track (operations : List Operation) (t : Track) :
    (operations.foldl (track L) t).model = operations.foldl (perform L) t.model := by
  induction operations generalizing t with
  | nil => rfl
  | cons operation operations ih => exact ih (track L t operation)

end Runs

/-- **The device list in every run.** Each call does what is asked of it if no answer names a
device twice and every refresh that is skipped finds the lists unchanged. -/
theorem run_outcome (L : DeviceLibraries) {operations : List Operation}
    (hunique : ∀ operation ∈ operations, UniqueKeys L operation)
    (hsame : Guarded (track L) Unchanged {} operations) {n : ℕ} {operation : Operation}
    (h : operations[n]? = some operation) :
    Outcome L ((operations.take n).foldl (perform L) {}) operation := by
  have hconsistent : Consistent L ((operations.take n).foldl (track L) {}) :=
    Guarded.invariant (fun t operation ht hop => ht.track hop) consistent_init
      ((guarded_const _ operations).mpr hunique) n
  have houtcome := hconsistent.outcome (hunique operation (List.mem_of_getElem? h))
    (hsame.getElem? h)
  rwa [model_foldl_track] at houtcome

/-! ## A device that comes back -/

/-- A device of an answer. -/
def deviceEntry (publicKey createdAt : String) : Json :=
  .obj [("created_at", .str createdAt.toList), ("ipv4_address", .str "10.0.0.2/32".toList),
    ("ipv6_address", .str "fd00::2/128".toList), ("name", .str "laptop".toList),
    ("pubkey", .str publicKey.toList)]

/-- An answer with two devices. -/
def twoDevicesText : List UInt8 :=
  ("\x7b\"devices\":[\x7b\"created_at\":\"2024-01-01T00:00:00Z\",".toList ++
    "\"ipv4_address\":\"10.0.0.2/32\",\"ipv6_address\":\"fd00::2/128\",".toList ++
    "\"name\":\"laptop\",\"pubkey\":\"a\"\x7d,".toList ++
    "\x7b\"created_at\":\"2024-01-02T00:00:00Z\",".toList ++
    "\"ipv4_address\":\"10.0.0.2/32\",\"ipv6_address\":\"fd00::2/128\",".toList ++
    "\"name\":\"laptop\",\"pubkey\":\"b\"\x7d]\x7d".toList).map
    fun c => UInt8.ofNat c.toNat

def twoDevicesDocument : Json.Object :=
  [("devices", .arr [deviceEntry "a" "2024-01-01T00:00:00Z",
    deviceEntry "b" "2024-01-02T00:00:00Z"])]

def twoDevicesJson (data : List UInt8) : Option Json.Object :=
  if data = twoDevicesText then some twoDevicesDocument else none

/-- The libraries on this answer. -/
def twoDevicesLibraries : DeviceLibraries where
  fromJson := twoDevicesJson
  isoDate s :=
    if s = "2024-01-01T00:00:00Z".toList then some 1704067200000
    else if s = "2024-01-02T00:00:00Z".toList then some 1704153600000
    else none
  sort l := l.insertionSort fun a b => b.createdAt ≤ a.createdAt
  perm_sort l := List.perm_insertionSort _ l
  pairwise_sort l := by
    have : Std.Total fun a b : Device => b.createdAt ≤ a.createdAt :=
      ⟨fun a b => le_total b.createdAt a.createdAt⟩
    have : IsTrans Device fun a b => b.createdAt ≤ a.createdAt :=
      ⟨fun a b c hab hbc => le_trans hbc hab⟩
    exact List.pairwise_insertionSort _ l

/-- The device of an entry. -/
def entryDevice (publicKey : String) (createdAt : ℤ) : Device where
  deviceName := "laptop".toList
  uniqueId := []
  createdAt
  publicKey := publicKey.toList
  ipv4Address := "10.0.0.2/32".toList
  ipv6Address := "fd00::2/128".toList

theorem answer_twoDevices : answer twoDevicesLibraries twoDevicesText =
    ([entryDevice "a" 1704067200000, entryDevice "b" 1704153600000], true) := by
  have hlibrary : twoDevicesLibraries.fromJson = twoDevicesJson := rfl
  have hdocument : twoDevicesJson twoDevicesText = some twoDevicesDocument := by
    unfold twoDevicesJson
    generalize twoDevicesText = text
    exact if_pos rfl
  rw [answer, hlibrary, hdocument]
  rfl

theorem twoDevicesText_ne_nil : twoDevicesText ≠ [] := by decide

theorem fromJson_twoDevices : ({} : DeviceModel).fromJson twoDevicesLibraries "b".toList
    twoDevicesText = (true, {
      rawJson := twoDevicesText
      devices := [entryDevice "b" 1704153600000, entryDevice "a" 1704067200000] }) := by
  have hskip : ¬ (twoDevicesText ≠ [] ∧ ({} : DeviceModel).rawJson = twoDevicesText) :=
    fun h => h.1 h.2.symm
  rw [fromJson, if_neg hskip, fromJsonInternal, answer_twoDevices]
  rfl

/-- The answer comes twice, with a call in between. -/
def refreshTwice (between : Operation) : List Operation :=
  [.fromJson "b".toList twoDevicesText, between, .fromJson "b".toList twoDevicesText]

theorem uniqueKeys_refreshTwice {between : Operation}
    (h : UniqueKeys twoDevicesLibraries between) :
    ∀ operation ∈ refreshTwice between, UniqueKeys twoDevicesLibraries operation := by
  have hanswer : UniqueKeys twoDevicesLibraries (.fromJson "b".toList twoDevicesText) := by
    change ((answer twoDevicesLibraries twoDevicesText).1.map Device.publicKey).Nodup
    rw [answer_twoDevices]
    decide
  exact List.forall_mem_cons.mpr ⟨hanswer, List.forall_mem_cons.mpr ⟨h,
    List.forall_mem_cons.mpr ⟨hanswer, fun _ hmem => by cases hmem⟩⟩⟩

/-- With a removal under way the second answer is the same as the lists. -/
theorem run_outcome_twoDevices :
    Outcome twoDevicesLibraries
      (((refreshTwice (.startDeviceRemoval "a".toList)).take 2).foldl
        (perform twoDevicesLibraries) {}) (.fromJson "b".toList twoDevicesText) := by
  have hskips : ({} : DeviceModel).skips twoDevicesText = false :=
    decide_eq_false fun h => h.1 h.2.symm
  have hbetween : UniqueKeys twoDevicesLibraries (.startDeviceRemoval "a".toList) := trivial
  have hmiddle : ∀ t, Unchanged t (.startDeviceRemoval "a".toList) := fun _ => trivial
  refine run_outcome twoDevicesLibraries (uniqueKeys_refreshTwice hbetween) (n := 2)
    ⟨fun h => ?_, hmiddle _, fun _ => ⟨rfl, ?_⟩, trivial⟩ rfl
  · rw [hskips] at h
    cases h
  · change (if ({} : DeviceModel).skips twoDevicesText then [] else "b".toList) = _
    rw [hskips]
    rfl

/-- **The defect.** A device that was removed and is in the next answer is not shown, as the answer
has the text of the last one. -/
theorem refresh_loses_device :
    (∀ operation ∈ refreshTwice (.removeDevice "a".toList),
      UniqueKeys twoDevicesLibraries operation) ∧
      ¬ ∀ n operation, (refreshTwice (.removeDevice "a".toList))[n]? = some operation →
        Outcome twoDevicesLibraries (((refreshTwice (.removeDevice "a".toList)).take n).foldl
          (perform twoDevicesLibraries) {}) operation := by
  have hbetween : UniqueKeys twoDevicesLibraries (.removeDevice "a".toList) := trivial
  refine ⟨uniqueKeys_refreshTwice hbetween, fun h => ?_⟩
  have hstate : ((refreshTwice (.removeDevice "a".toList)).take 2).foldl
      (perform twoDevicesLibraries) {} = {
        rawJson := twoDevicesText
        devices := [entryDevice "b" 1704153600000] } := by
    simp only [refreshTwice, List.take_succ_cons, List.take_zero, List.foldl_cons, List.foldl_nil,
      perform, fromJson_twoDevices]
    generalize twoDevicesText = text
    rfl
  have houtcome := h 2 _ rfl
  rw [hstate] at houtcome
  have hskipped : ({
      rawJson := twoDevicesText
      devices := [entryDevice "b" 1704153600000] } : DeviceModel).fromJson twoDevicesLibraries
        "b".toList twoDevicesText = (true, {
          rawJson := twoDevicesText
          devices := [entryDevice "b" 1704153600000] }) := if_pos ⟨twoDevicesText_ne_nil, rfl⟩
  simp only [Outcome, hskipped, forall_const] at houtcome
  have hlength := houtcome.together.length_eq
  rw [answer_twoDevices] at hlength
  cases hlength

end DeviceModel

end WgDesktop
