import WgDesktop.Client.ServerCountryModel

/-!
# Port choice

`Server::choosePort` from `src/utils/models/server.cpp` with its assertions. The port ranges of a
server are laid end to end, and a random value modulo their length says which position is taken.
JSON fills in the ranges without a check; `choosesPort_iff` says which of them the function can
choose from.
-/

namespace WgDesktop

namespace Server

/-! ## The function -/

/-- The assertions of `choosePort`. -/
inductive PortFault where
  | unordered
  | tooLong
  | zeroLength
  | zeroPort
  deriving DecidableEq, Repr

/-- The loop that counts the ports, in 32 bits. -/
def lengthLoop : List (ℕ × ℕ) → ℕ → Except PortFault ℕ
  | [], length => .ok length
  | range :: ranges, length =>
    if range.1 ≤ range.2 then
      lengthLoop ranges ((length + (range.2 - range.1 + 1)) % 2 ^ 32)
    else .error .unordered

/-- `choosePort` as it runs, for a drawn 32-bit value. -/
def runChoosePort (s : Server) (drawn : ℕ) : Except PortFault ℕ :=
  if s.portRanges.isEmpty then .ok 0
  else
    match lengthLoop s.portRanges 0 with
    | .error fault => .error fault
    | .ok length =>
      if ¬ length < 65536 then .error .tooLong
      else if ¬ 0 < length then .error .zeroLength
      else
        let port := portLoop s.portRanges (drawn % length)
        if port = 0 then .error .zeroPort else .ok port

/-- The range on which the second loop stops, and what is left of the draw there. -/
def positionLoop : List (ℕ × ℕ) → ℕ → Option (ℕ × ℕ)
  | [], _ => none
  | range :: ranges, r =>
    let last := (range.2 + 2 ^ 32 - range.1) % 2 ^ 32
    if r ≤ last then some (0, r)
    else (positionLoop ranges ((r + 2 ^ 32 - (last + 1) % 2 ^ 32) % 2 ^ 32)).map
      fun position => (position.1 + 1, position.2)

theorem portLoop_eq (ranges : List (ℕ × ℕ)) (r : ℕ) :
    portLoop ranges r =
      ((positionLoop ranges r).map fun position =>
        (position.2 + (ranges.getD position.1 0).1) % 2 ^ 32).getD 0 := by
  induction ranges generalizing r with
  | nil => rfl
  | cons range ranges ih =>
    unfold portLoop positionLoop
    dsimp only
    split_ifs
    · rfl
    · rw [ih, Option.map_map]
      rfl

/-! ## The two loops -/

/-- The number of ports of the ranges. -/
def portTotal (ranges : List (ℕ × ℕ)) : ℕ := (ranges.map fun range => range.2 - range.1 + 1).sum

@[simp] theorem portTotal_nil : portTotal [] = 0 := rfl

@[simp] theorem portTotal_cons (range : ℕ × ℕ) (ranges : List (ℕ × ℕ)) :
    portTotal (range :: ranges) = range.2 - range.1 + 1 + portTotal ranges := by
  simp [portTotal]

/-- The ranges are in order. -/
def Ordered (ranges : List (ℕ × ℕ)) : Prop := ∀ range ∈ ranges, range.1 ≤ range.2

/-- The first loop counts the ports of ordered ranges, modulo the word size. -/
theorem lengthLoop_eq (ranges : List (ℕ × ℕ)) (length : ℕ) (hlength : length < 2 ^ 32) :
    (Ordered ranges → lengthLoop ranges length = .ok ((length + portTotal ranges) % 2 ^ 32)) ∧
      (¬ Ordered ranges → lengthLoop ranges length = .error .unordered) := by
  induction ranges generalizing length with
  | nil =>
    refine ⟨fun _ => ?_, fun h => absurd (by simp [Ordered]) h⟩
    rw [portTotal_nil, Nat.add_zero, Nat.mod_eq_of_lt hlength]
    rfl
  | cons range ranges ih =>
    have hcons : Ordered (range :: ranges) ↔ range.1 ≤ range.2 ∧ Ordered ranges :=
      List.forall_mem_cons
    rw [hcons, lengthLoop]
    by_cases horder : range.1 ≤ range.2
    · rw [if_pos horder]
      obtain ⟨hok, herror⟩ := ih ((length + (range.2 - range.1 + 1)) % 2 ^ 32)
        (Nat.mod_lt _ (by norm_num))
      rw [Nat.mod_add_mod, Nat.add_assoc, ← portTotal_cons] at hok
      exact ⟨fun h => hok h.2, fun h => herror fun hrest => h ⟨horder, hrest⟩⟩
    · rw [if_neg horder]
      exact ⟨fun h => absurd h.1 horder, fun _ => rfl⟩

/-- Without the assertions the count is the same. -/
theorem sum_wrapped {ranges : List (ℕ × ℕ)} (horder : Ordered ranges) :
    (ranges.map fun range => range.2 + 2 ^ 32 - range.1 + 1).sum % 2 ^ 32 =
      portTotal ranges % 2 ^ 32 := by
  induction ranges with
  | nil => rfl
  | cons range ranges ih =>
    have hle : range.1 ≤ range.2 := horder range (by simp)
    have hrest := ih fun r hr => horder r (by simp [hr])
    rw [List.map_cons, List.sum_cons, Nat.add_mod, hrest, ← Nat.add_mod, portTotal_cons]
    omega

theorem choosePort_of_run {s : Server} {drawn port : ℕ} (h : runChoosePort s drawn = .ok port) :
    choosePort s drawn = port := by
  unfold runChoosePort at h
  unfold choosePort
  dsimp only
  split_ifs at h ⊢ with hempty
  · exact Except.ok.inj h
  · obtain ⟨hok, herror⟩ := lengthLoop_eq s.portRanges 0 (by norm_num)
    by_cases horder : Ordered s.portRanges
    · rw [hok horder, Nat.zero_add] at h
      dsimp only at h
      rw [sum_wrapped horder]
      split_ifs at h
      exact Except.ok.inj h
    · rw [herror horder] at h
      cases h

/-- How many positions come before a range. -/
def offset (ranges : List (ℕ × ℕ)) (i : ℕ) : ℕ := portTotal (ranges.take i)

/-- `o` is an offset into range number `i`. -/
def Position (ranges : List (ℕ × ℕ)) (i o : ℕ) : Prop :=
  ∃ range, ranges[i]? = some range ∧ o ≤ range.2 - range.1

theorem Position.lt_total {ranges : List (ℕ × ℕ)} {i o : ℕ} (h : Position ranges i o) :
    offset ranges i + o < portTotal ranges := by
  induction ranges generalizing i with
  | nil =>
    obtain ⟨range, hrange, -⟩ := h
    simp at hrange
  | cons head ranges ih =>
    obtain ⟨range, hrange, ho⟩ := h
    cases i with
    | zero =>
      obtain rfl : head = range := by simpa using hrange
      simp only [offset, List.take_zero, portTotal_nil, portTotal_cons]
      omega
    | succ i =>
      have hrest := ih ⟨range, by simpa using hrange, ho⟩
      simp only [offset, List.take_succ_cons, portTotal_cons] at hrest ⊢
      omega

theorem exists_position (ranges : List (ℕ × ℕ)) {r : ℕ} (h : r < portTotal ranges) :
    ∃ i o, Position ranges i o ∧ r = offset ranges i + o := by
  induction ranges generalizing r with
  | nil => simp at h
  | cons range ranges ih =>
    rw [portTotal_cons] at h
    by_cases hle : r ≤ range.2 - range.1
    · exact ⟨0, r, ⟨range, rfl, hle⟩, by simp [offset]⟩
    · obtain ⟨i, o, ⟨range', hrange', ho⟩, hr⟩ :=
        ih (r := r - (range.2 - range.1 + 1)) (by omega)
      refine ⟨i + 1, o, ⟨range', by simpa using hrange', ho⟩, ?_⟩
      simp only [offset, List.take_succ_cons, portTotal_cons] at hr ⊢
      omega

theorem sub_mod_word {a b : ℕ} (hle : b ≤ a) (ha : a < 2 ^ 32) :
    (a + 2 ^ 32 - b) % 2 ^ 32 = a - b := by
  have hshift : a + 2 ^ 32 - b = a - b + 2 ^ 32 := by omega
  rw [hshift, Nat.add_mod_right, Nat.mod_eq_of_lt (by omega)]

/-- On ordered ranges of words the second loop finds the position of a draw. -/
theorem positionLoop_eq_some_iff {ranges : List (ℕ × ℕ)} (horder : Ordered ranges)
    (hwords : ∀ range ∈ ranges, range.2 < 2 ^ 32) {r i o : ℕ} (hr : r < 2 ^ 32) :
    positionLoop ranges r = some (i, o) ↔ Position ranges i o ∧ r = offset ranges i + o := by
  induction ranges generalizing r i with
  | nil => simp [positionLoop, Position]
  | cons range ranges ih =>
    have hle : range.1 ≤ range.2 := horder range (by simp)
    have hword : range.2 < 2 ^ 32 := hwords range (by simp)
    rw [positionLoop, sub_mod_word hle hword]
    by_cases hstop : r ≤ range.2 - range.1
    · rw [if_pos hstop, Option.some.injEq, Prod.mk.injEq]
      constructor
      · rintro ⟨rfl, rfl⟩
        exact ⟨⟨range, rfl, hstop⟩, by simp [offset]⟩
      · rintro ⟨⟨range', hrange', ho⟩, hoff⟩
        cases i with
        | zero => exact ⟨rfl, by simpa [offset] using hoff⟩
        | succ i =>
          simp only [offset, List.take_succ_cons, portTotal_cons] at hoff
          omega
    · -- the draw behind this range does not wrap around
      have hrest : (r + 2 ^ 32 - (range.2 - range.1 + 1) % 2 ^ 32) % 2 ^ 32 =
          r - (range.2 - range.1 + 1) := by
        rw [Nat.mod_eq_of_lt (by omega : range.2 - range.1 + 1 < 2 ^ 32),
          sub_mod_word (by omega) hr]
      have htail := @ih (fun r' hr' => horder r' (by simp [hr']))
        (fun r' hr' => hwords r' (by simp [hr'])) (r - (range.2 - range.1 + 1))
      rw [if_neg hstop, hrest]
      cases i with
      | zero =>
        refine iff_of_false (by simp) ?_
        rintro ⟨⟨range', hrange', ho⟩, hoff⟩
        obtain rfl : range = range' := by simpa using hrange'
        simp only [offset, List.take_zero, portTotal_nil] at hoff
        omega
      | succ i =>
        have hmap : (positionLoop ranges (r - (range.2 - range.1 + 1))).map
            (fun position => (position.1 + 1, position.2)) = some (i + 1, o) ↔
            positionLoop ranges (r - (range.2 - range.1 + 1)) = some (i, o) := by
          rw [Option.map_eq_some_iff]
          constructor
          · rintro ⟨⟨i', o'⟩, hpos, heq⟩
            simp only [Prod.mk.injEq, Nat.add_right_cancel_iff] at heq
            rw [hpos, heq.1, heq.2]
          · intro h
            exact ⟨(i, o), h, rfl⟩
        have hposition : Position (range :: ranges) (i + 1) o ↔ Position ranges i o := by
          simp [Position]
        rw [hmap, htail (by omega), hposition]
        simp only [offset, List.take_succ_cons, portTotal_cons]
        exact and_congr_right fun _ => by omega

/-! ## The choice -/

section Choice

variable {s : Server}

/-- No assertion fails, the port is one of the ranges and a valid one, and every position is taken
for one residue of the random value. -/
structure ChoosesPort (s : Server) : Prop where
  port : ∀ drawn < 2 ^ 32, ∃ port, runChoosePort s drawn = .ok port ∧ 1 ≤ port ∧ port ≤ 65535 ∧
    ∃ range ∈ s.portRanges, range.1 ≤ port ∧ port ≤ range.2
  once : ∃ length, lengthLoop s.portRanges 0 = .ok length ∧
    ∀ i o, Position s.portRanges i o →
      ∃! r, r < length ∧ positionLoop s.portRanges r = some (i, o)

/-- The ranges are in order, inside of the port numbers, and together not more than these. -/
structure PortsFit (ranges : List (ℕ × ℕ)) : Prop where
  valid : ∀ range ∈ ranges, 1 ≤ range.1 ∧ range.1 ≤ range.2 ∧ range.2 ≤ 65535
  total : portTotal ranges < 65536

theorem lengthLoop_zero {ranges : List (ℕ × ℕ)} (horder : Ordered ranges) :
    lengthLoop ranges 0 = .ok (portTotal ranges % 2 ^ 32) := by
  rw [(lengthLoop_eq ranges 0 (by norm_num)).1 horder, Nat.zero_add]

theorem portTotal_pos {ranges : List (ℕ × ℕ)} (hne : ranges ≠ []) : 0 < portTotal ranges := by
  obtain ⟨range, rest, rfl⟩ := List.exists_cons_of_ne_nil hne
  rw [portTotal_cons]
  omega

theorem runChoosePort_eq (horder : Ordered s.portRanges)
    (hwords : ∀ range ∈ s.portRanges, range.2 < 2 ^ 32) (htotal : portTotal s.portRanges < 65536)
    {drawn i o : ℕ} {range : ℕ × ℕ} (hrange : s.portRanges[i]? = some range)
    (ho : o ≤ range.2 - range.1)
    (hdrawn : drawn % portTotal s.portRanges = offset s.portRanges i + o) :
    runChoosePort s drawn =
      if o + range.1 = 0 then .error .zeroPort else .ok (o + range.1) := by
  have hmem : range ∈ s.portRanges := List.mem_of_getElem? hrange
  have hle := horder range hmem
  have hword := hwords range hmem
  have hne : s.portRanges ≠ [] := List.ne_nil_of_mem hmem
  have hempty : ¬ s.portRanges.isEmpty = true := by simpa using hne
  have hpos : 0 < portTotal s.portRanges := portTotal_pos hne
  have hlt : drawn % portTotal s.portRanges < portTotal s.portRanges := Nat.mod_lt _ hpos
  have hport : portLoop s.portRanges (drawn % portTotal s.portRanges) = o + range.1 := by
    rw [portLoop_eq, (positionLoop_eq_some_iff horder hwords (by omega)).mpr
      ⟨⟨range, hrange, ho⟩, hdrawn⟩, Option.map_some, Option.getD_some, List.getD_eq_getElem?_getD,
      hrange, Option.getD_some, Nat.mod_eq_of_lt (by omega)]
  have hlength : portTotal s.portRanges % 2 ^ 32 = portTotal s.portRanges :=
    Nat.mod_eq_of_lt (by omega)
  rw [runChoosePort, if_neg hempty, lengthLoop_zero horder]
  dsimp only
  rw [hlength, if_neg (not_not.mpr htotal), if_neg (not_not.mpr hpos), hport]

theorem choosesPort_of_fit (hne : s.portRanges ≠ []) (hfit : PortsFit s.portRanges) :
    ChoosesPort s := by
  have horder : Ordered s.portRanges := fun range hr => (hfit.valid range hr).2.1
  have hwords : ∀ range ∈ s.portRanges, range.2 < 2 ^ 32 := fun range hr => by
    have := (hfit.valid range hr).2.2
    omega
  have htotal := hfit.total
  refine ⟨fun drawn _ => ?_, portTotal s.portRanges % 2 ^ 32, lengthLoop_zero horder,
    fun i o hposition => ?_⟩
  · obtain ⟨i, o, ⟨range, hrange, ho⟩, hdrawn⟩ :=
      exists_position s.portRanges (Nat.mod_lt drawn (portTotal_pos hne))
    have hmem : range ∈ s.portRanges := List.mem_of_getElem? hrange
    obtain ⟨hfirst, hle, hlast⟩ := hfit.valid range hmem
    refine ⟨o + range.1, ?_, by omega, by omega, range, hmem, by omega, by omega⟩
    rw [runChoosePort_eq horder hwords htotal hrange ho hdrawn, if_neg (by omega)]
  · have hlt := hposition.lt_total
    rw [Nat.mod_eq_of_lt (by omega)]
    refine ⟨offset s.portRanges i + o, ⟨hlt, ?_⟩, fun r hr => ?_⟩
    · exact (positionLoop_eq_some_iff horder hwords (by omega)).mpr ⟨hposition, rfl⟩
    · exact ((positionLoop_eq_some_iff horder hwords (by omega)).mp hr.2).2

theorem ordered_of_run {drawn port : ℕ} (hne : s.portRanges ≠ [])
    (h : runChoosePort s drawn = .ok port) :
    Ordered s.portRanges ∧ portTotal s.portRanges % 2 ^ 32 < 65536 := by
  have hempty : ¬ s.portRanges.isEmpty = true := by simpa using hne
  obtain ⟨hok, herror⟩ := lengthLoop_eq s.portRanges 0 (by norm_num)
  rw [runChoosePort, if_neg hempty] at h
  by_cases horder : Ordered s.portRanges
  · rw [hok horder, Nat.zero_add] at h
    dsimp only at h
    split_ifs at h with hlong
    exact ⟨horder, hlong⟩
  · rw [herror horder] at h
    cases h

theorem fit_of_choosesPort (hne : s.portRanges ≠ [])
    (hwords : ∀ range ∈ s.portRanges, range.2 < 2 ^ 32) (h : ChoosesPort s) :
    PortsFit s.portRanges := by
  obtain ⟨port, hrun, -⟩ := h.port 0 (by norm_num)
  obtain ⟨horder, hlength⟩ := ordered_of_run hne hrun
  obtain ⟨length, hloop, honce⟩ := h.once
  obtain rfl : portTotal s.portRanges % 2 ^ 32 = length := by
    rw [lengthLoop_zero horder] at hloop
    exact Except.ok.inj hloop
  -- the last position has a residue of its own, so nothing was lost in the count
  have htotal : portTotal s.portRanges < 65536 := by
    have hpos := portTotal_pos hne
    obtain ⟨i, o, hposition, hlast⟩ :=
      exists_position s.portRanges (r := portTotal s.portRanges - 1) (by omega)
    obtain ⟨r, ⟨hr, hloop⟩, -⟩ := honce i o hposition
    have hat := ((positionLoop_eq_some_iff horder hwords (by omega)).mp hloop).2
    omega
  refine ⟨fun range hmem => ?_, htotal⟩
  have hle := horder range hmem
  obtain ⟨i, hrange⟩ := List.mem_iff_getElem?.mp hmem
  -- the two ends of a range are positions
  have hend : ∀ o ≤ range.2 - range.1, 1 ≤ o + range.1 ∧ o + range.1 ≤ 65535 := by
    intro o ho
    have hlt := Position.lt_total ⟨range, hrange, ho⟩
    obtain ⟨port, hrun, hone, hmax, -⟩ := h.port (offset s.portRanges i + o) (by omega)
    rw [runChoosePort_eq horder hwords htotal hrange ho (Nat.mod_eq_of_lt hlt)] at hrun
    split_ifs at hrun with hzero
    obtain rfl := Except.ok.inj hrun
    exact ⟨hone, hmax⟩
  have hfirst := hend 0 (Nat.zero_le _)
  have hlast := hend (range.2 - range.1) le_rfl
  omega

theorem word_of_fromJson {s₀ : Server} {obj : Json.Object} (h : s₀.fromJson obj = some s) :
    ∀ range ∈ s.portRanges, range.2 < 2 ^ 32 := by
  unfold fromJson at h
  split_ifs at h
  obtain ⟨ranges, hranges, rfl⟩ := Option.map_eq_some_iff.mp h
  have hword : ∀ v range, portRange v = some range → range.2 < 2 ^ 32 := by
    intro v range hv
    unfold portRange at hv
    split at hv
    · obtain rfl := Option.some.inj hv
      simp only [toUint32]
      omega
    · cases hv
  intro range hmem
  have hmap := Runs.mapM_eq_some.mp hranges
  obtain ⟨v, -, hv⟩ := List.mem_map.mp (hmap ▸ List.mem_map_of_mem hmem)
  exact hword v range hv

/-- **Port choice.** A server that was read chooses its port as it should exactly when its ranges
fit. -/
theorem choosesPort_iff {s₀ : Server} {obj : Json.Object} (h : s₀.fromJson obj = some s)
    (hne : s.portRanges ≠ []) : ChoosesPort s ↔ PortsFit s.portRanges :=
  ⟨fit_of_choosesPort hne (word_of_fromJson h), choosesPort_of_fit hne⟩

end Choice

/-! ## Documents -/

/-- A server with one port range. -/
def portEntry (first last : ℤ) : Json.Object :=
  [("hostname", .str "a".toList), ("ipv4_addr_in", .str "192.0.2.1".toList),
    ("ipv4_gateway", .str "10.64.0.1".toList), ("port_ranges", .arr [.arr [.num first, .num last]]),
    ("public_key", .str "b".toList), ("weight", .num 1)]

/-- The server that it stands for. -/
def ofPortEntry (first last : ℤ) : Server :=
  { hostname := .text "a".toList
    ipv4AddrIn := .text "192.0.2.1".toList
    ipv4Gateway := .text "10.64.0.1".toList
    portRanges := [(toUint32 (Json.num first).toInt, toUint32 (Json.num last).toInt)]
    publicKey := .text "b".toList
    weight := 1 }

theorem fromJson_portEntry (first last : ℤ) :
    fromJson {} (portEntry first last) = some (ofPortEntry first last) := rfl

theorem choosesPort_wireguard :
    ChoosesPort (ofPortEntry 51820 51830) ↔ PortsFit (ofPortEntry 51820 51830).portRanges :=
  choosesPort_iff (fromJson_portEntry 51820 51830) (List.cons_ne_nil _ _)

theorem ChoosesPort.port_zero {s : Server} (h : ChoosesPort s) :
    ∃ port, runChoosePort s 0 = .ok port ∧ port ≤ 65535 := by
  obtain ⟨port, hrun, -, hmax, -⟩ := h.port 0 (by norm_num)
  exact ⟨port, hrun, hmax⟩

/-- A range in the wrong order, one that begins at zero and one that ends above the port numbers. -/
theorem not_choosesPort :
    (fromJson {} (portEntry 5 3) = some (ofPortEntry 5 3) ∧ ¬ ChoosesPort (ofPortEntry 5 3)) ∧
      (fromJson {} (portEntry 0 0) = some (ofPortEntry 0 0) ∧ ¬ ChoosesPort (ofPortEntry 0 0)) ∧
      fromJson {} (portEntry 70000 70000) = some (ofPortEntry 70000 70000) ∧
        ¬ ChoosesPort (ofPortEntry 70000 70000) := by
  refine ⟨⟨fromJson_portEntry 5 3, fun h => ?_⟩, ⟨fromJson_portEntry 0 0, fun h => ?_⟩,
    fromJson_portEntry 70000 70000, fun h => ?_⟩
  · obtain ⟨port, hrun, -⟩ := h.port_zero
    have hfault : runChoosePort (ofPortEntry 5 3) 0 = .error .unordered := by decide
    rw [hfault] at hrun
    cases hrun
  · obtain ⟨port, hrun, -⟩ := h.port_zero
    have hfault : runChoosePort (ofPortEntry 0 0) 0 = .error .zeroPort := by decide
    rw [hfault] at hrun
    cases hrun
  · obtain ⟨port, hrun, hmax⟩ := h.port_zero
    have hport : runChoosePort (ofPortEntry 70000 70000) 0 = .ok 70000 := by decide +kernel
    rw [hport, Except.ok.injEq] at hrun
    omega

end Server

end WgDesktop
