import WgDesktop.Net.IPAddress

/-!
# Excluding prefixes

`IPAddress::excludeAddresses`, member and static. The member halves a prefix until one half is the
excluded prefix and keeps the other halves; the static one applies it to every prefix of a list,
for every exclusion in turn.

Both return the addresses of the difference and no others (`excludeAddress_spec`,
`excludeAddresses_covers`). The invariant of the halving loop is that the current pair is the two
halves of a canonical prefix which strictly contains the exclusion.
-/

namespace WgDesktop

open BitPrefix PiNat

namespace IPAddress

/-- The loop of the member `excludeAddresses`, on the current pair of halves and the result so
far. `none` stands for a failed assertion or a half that is not there. -/
def excludeLoop (ip : IPAddress) : ℕ → List IPAddress → List IPAddress → Option (List IPAddress)
  | 0, _, _ => none
  | fuel + 1, sn, result =>
    match sn with
    | l :: r :: _ =>
      if l != ip && r != ip then
        if ip.subnetOf l then excludeLoop ip fuel l.subnets (result ++ [r])
        else if ip.subnetOf r then excludeLoop ip fuel r.subnets (result ++ [l])
        else none
      else if l == ip then some (result ++ [r])
      else if r == ip then some (result ++ [l])
      else none
    | _ => none

/-- The member `excludeAddresses(ip)`. A round lengthens the prefix of the current halves by one
bit, and a prefix of 128 bits has no second half, so no execution makes more than 129 rounds. -/
def excludeAddress (p ip : IPAddress) : Option (List IPAddress) :=
  excludeLoop ip 129 p.subnets []

/-- What the static `excludeAddresses` keeps of `ip` for one exclusion. -/
def excludeOne (exclude ip : IPAddress) : Option (List IPAddress) :=
  if !ip.overlaps exclude then some [ip]
  else if exclude.subnetOf ip && exclude != ip then ip.excludeAddress exclude
  else some []

/-- The inner loop: `newResults` for one exclusion. -/
def excludeEach (exclude : IPAddress) : List IPAddress → Option (List IPAddress)
  | [] => some []
  | ip :: results => do
    let range ← excludeOne exclude ip
    let newResults ← excludeEach exclude results
    some (range ++ newResults)

/-- The static `excludeAddresses(sourceList, excludeList)`. -/
def excludeAddresses : List IPAddress → List IPAddress → Option (List IPAddress)
  | results, [] => some results
  | results, exclude :: excludeList => do
    let newResults ← excludeEach exclude results
    excludeAddresses newResults excludeList

/-- Some prefix of the list covers the address. -/
def CoversAny (l : List IPAddress) (a : QHostAddress) : Prop := ∃ p ∈ l, p.Covers a

@[simp] theorem coversAny_nil (a : QHostAddress) : ¬ CoversAny [] a := by simp [CoversAny]

@[simp] theorem coversAny_cons (p : IPAddress) (l : List IPAddress) (a : QHostAddress) :
    CoversAny (p :: l) a ↔ p.Covers a ∨ CoversAny l a := by simp [CoversAny]

@[simp] theorem coversAny_append (l l' : List IPAddress) (a : QHostAddress) :
    CoversAny (l ++ l') a ↔ CoversAny l a ∨ CoversAny l' a := by
  simp [CoversAny, or_and_right, exists_or]

/-! ## The member -/

/-- `pieces` is the difference of `p` and `ip`, in canonical prefixes. -/
structure Difference (p ip : IPAddress) (pieces : List IPAddress) : Prop where
  canonical : ∀ q ∈ pieces, q.Canonical
  covers : ∀ a, CoversAny pieces a ↔ p.Covers a ∧ ¬ ip.Covers a

theorem Difference.of_half {p l r ip : IPAddress} (h : Halves p l r) (hl : (l == ip) = true) :
    Difference p ip [r] := by
  refine ⟨fun q hq => by rw [List.mem_singleton.mp hq]; exact h.right, fun a => ?_⟩
  have hdis := h.disjoint a
  have hcov := h.covers a
  rw [coversAny_cons, hcov, ← covers_congr hl a]
  simp only [coversAny_nil, or_false]
  tauto

theorem Halves.swap {p l r : IPAddress} (h : Halves p l r) : Halves p r l where
  left := h.right
  right := h.left
  left_length := h.right_length
  right_length := h.left_length
  covers a := (h.covers a).trans or_comm
  disjoint a hc := h.disjoint a hc.symm

/-- The exclusion lies inside the half `l`: the difference is the other half and the difference
of `l`. -/
theorem Difference.cons {p l r ip : IPAddress} {pieces : List IPAddress} (h : Halves p l r)
    (hle : l.prefixLength.toNat ≤ ip.prefixLength.toNat) (hin : l.Covers ip.address)
    (hd : Difference l ip pieces) : Difference p ip (r :: pieces) := by
  refine ⟨?_, fun a => ?_⟩
  · intro q hq
    rcases List.mem_cons.mp hq with rfl | hq
    · exact h.right
    · exact hd.canonical q hq
  · have hsub : ip.Covers a → l.Covers a := fun hip => hin.of_start hle hip
    have hdis := h.disjoint a
    rw [coversAny_cons, hd.covers a, h.covers a]
    tauto

theorem Covers.exists_halves {p ip : IPAddress} (hin : p.Covers ip.address) (hp : p.Canonical)
    (hip : ip.Canonical) (hlt : p.prefixLength.toNat < ip.prefixLength.toNat) :
    ∃ l r, p.subnets = [l, r] ∧ Halves p l r := by
  apply subnets_eq hp
  have := hip.le_width
  rw [QHostAddress.width_of_protocol hin.1] at this
  omega

/-- At equal length, the half that covers the start of the exclusion is the exclusion. -/
theorem Canonical.beq_of_covers {q ip : IPAddress} (hq : q.Canonical) (hip : ip.Canonical)
    (hlen : q.prefixLength.toNat = ip.prefixLength.toNat) (hcov : q.Covers ip.address) :
    (q == ip) = true := by
  have hq0 := hq.nonneg
  have hip0 := hip.nonneg
  refine (beq_iff hq hip).mpr ⟨by omega, hcov.1.symm, ?_⟩
  rw [mem_cylinder_comm, ← hlen]
  exact hcov.2

theorem Canonical.beq_eq_false {q ip : IPAddress} (hq : q.Canonical) (hip : ip.Canonical)
    (hlt : q.prefixLength.toNat < ip.prefixLength.toNat) : (q == ip) = false := by
  rw [Bool.eq_false_iff]
  intro h
  have := ((beq_iff hq hip).mp h).1
  omega

theorem lt_of_subnetOf {p ip : IPAddress} (hp : p.Canonical) (hip : ip.Canonical)
    (hsub : ip.subnetOf p = true) (hne : (ip == p) = false) :
    p.prefixLength.toNat < ip.prefixLength.toNat := by
  obtain ⟨hle, hin⟩ := (subnetOf_iff hip.toValid hp.toValid).mp hsub
  refine lt_of_le_of_ne hle fun heq => ?_
  rw [(beq_iff hip hp).mpr ⟨heq.symm, hin⟩] at hne
  exact absurd hne (by simp)

/-- The pieces of a difference have no address in common. -/
structure Partition (p ip : IPAddress) (pieces : List IPAddress) : Prop
    extends Difference p ip pieces where
  disjoint : pieces.Pairwise fun q q' => ∀ a, ¬ (q.Covers a ∧ q'.Covers a)

theorem Partition.of_half {p l r ip : IPAddress} (h : Halves p l r) (hl : (l == ip) = true) :
    Partition p ip [r] :=
  ⟨Difference.of_half h hl, List.pairwise_singleton _ _⟩

theorem Partition.cons {p l r ip : IPAddress} {pieces : List IPAddress} (h : Halves p l r)
    (hle : l.prefixLength.toNat ≤ ip.prefixLength.toNat) (hin : l.Covers ip.address)
    (hd : Partition l ip pieces) : Partition p ip (r :: pieces) := by
  refine ⟨hd.toDifference.cons h hle hin, List.pairwise_cons.mpr ⟨fun q hq a ha => ?_, hd.disjoint⟩⟩
  -- the pieces lie in the other half
  have hl : l.Covers a := ((hd.covers a).mp ⟨q, hq, ha.2⟩).1
  exact h.disjoint a ⟨hl, ha.1⟩

/-! ### The loop -/

/-- What stops the member before it returns. -/
inductive SplitFault where
  | assertionFailed
  | missingHalf
  deriving DecidableEq, Repr

/-- The locals of the loop, and how often `subnets` has been called. -/
structure Split where
  sn : List IPAddress
  result : List IPAddress
  halvings : ℕ

/-- The loop's condition and body, or what follows the loop. -/
def Split.turn (ip : IPAddress) (s : Split) : Split ⊕ Except SplitFault (List IPAddress) :=
  match s.sn with
  | l :: r :: _ =>
    if l != ip && r != ip then
      if ip.subnetOf l then .inl ⟨l.subnets, s.result ++ [r], s.halvings + 1⟩
      else if ip.subnetOf r then .inl ⟨r.subnets, s.result ++ [l], s.halvings + 1⟩
      else .inr (.error .assertionFailed)
    else if l == ip then .inr (.ok (s.result ++ [r]))
    else if r == ip then .inr (.ok (s.result ++ [l]))
    else .inr (.error .assertionFailed)
  -- either `sn[0]` or `sn[1]` is read in every case
  | _ => .inr (.error .missingHalf)

/-- How the function ends and after how many halvings, if it does within `fuel` turns. -/
def Split.run (ip : IPAddress) : ℕ → Split → Option (Except SplitFault (List IPAddress) × ℕ)
  | 0, _ => none
  | fuel + 1, s =>
    match s.turn ip with
    | .inl s' => s'.run ip fuel
    | .inr r => some (r, s.halvings)

/-- The member `excludeAddresses(ip)` with its assertions. -/
def runExcludeAddress (p ip : IPAddress) (fuel : ℕ) :
    Option (Except SplitFault (List IPAddress) × ℕ) :=
  if p.subnets.length < 2 then some (.error .assertionFailed, 1)
  else Split.run ip fuel ⟨p.subnets, [], 1⟩

/-- `excludeLoop` forgets which fault it was, and the count. -/
theorem excludeLoop_eq_run (ip : IPAddress) (fuel : ℕ) (s : Split) :
    excludeLoop ip fuel s.sn s.result =
      (s.run ip fuel).bind fun r => r.1.toOption := by
  induction fuel generalizing s with
  | zero => rfl
  | succ fuel ih =>
    obtain ⟨sn, result, halvings⟩ := s
    match sn with
    | [] => rfl
    | [l] => rfl
    | l :: r :: rest =>
      rw [excludeLoop, Split.run, Split.turn]
      dsimp only
      split_ifs
      · exact ih ⟨l.subnets, result ++ [r], halvings + 1⟩
      · exact ih ⟨r.subnets, result ++ [l], halvings + 1⟩
      all_goals rfl

/-- One turn moves to a half that contains the exclusion and keeps the other half, as long as both
are shorter than the exclusion. -/
theorem Split.turn_inside {p ip : IPAddress} (hip : ip.Canonical) (hp : p.Canonical)
    (hin : p.Covers ip.address) (hlt : p.prefixLength.toNat + 1 < ip.prefixLength.toNat)
    (result : List IPAddress) (halvings : ℕ) :
    ∃ h other, Split.turn ip ⟨p.subnets, result, halvings⟩ =
        .inl ⟨h.subnets, result ++ [other], halvings + 1⟩ ∧
      Halves p h other ∧ h.Covers ip.address := by
  obtain ⟨l, r, hsub, hh⟩ := hin.exists_halves hp hip (by omega)
  have hp0 := hp.nonneg
  have hll := hh.left_length
  have hrl := hh.right_length
  have hl := hh.left.beq_eq_false hip (by omega)
  have hr := hh.right.beq_eq_false hip (by omega)
  rw [hsub, Split.turn]
  simp only [bne, hl, hr, Bool.not_false, Bool.and_self, if_true]
  by_cases hcl : l.Covers ip.address
  · have hsubnet := (subnetOf_iff hip.toValid hh.left.toValid).mpr ⟨by omega, hcl⟩
    exact ⟨l, r, by rw [if_pos hsubnet], hh, hcl⟩
  · have hcr : r.Covers ip.address := ((hh.covers ip.address).mp hin).resolve_left hcl
    have hnot : ¬ ip.subnetOf l = true :=
      fun h => hcl ((subnetOf_iff hip.toValid hh.left.toValid).mp h).2
    have hsubnet := (subnetOf_iff hip.toValid hh.right.toValid).mpr ⟨by omega, hcr⟩
    exact ⟨r, l, by rw [if_neg hnot, if_pos hsubnet], hh.swap, hcr⟩

/-- When the halves are as long as the exclusion, one of them is the exclusion and the other one is
the last piece. -/
theorem Split.turn_last {p ip : IPAddress} (hip : ip.Canonical) (hp : p.Canonical)
    (hin : p.Covers ip.address) (hlen : p.prefixLength.toNat + 1 = ip.prefixLength.toNat)
    (result : List IPAddress) (halvings : ℕ) :
    ∃ h other, Split.turn ip ⟨p.subnets, result, halvings⟩ = .inr (.ok (result ++ [other])) ∧
      Halves p h other ∧ (h == ip) = true := by
  obtain ⟨l, r, hsub, hh⟩ := hin.exists_halves hp hip (by omega)
  have hp0 := hp.nonneg
  have hll := hh.left_length
  have hrl := hh.right_length
  rw [hsub, Split.turn]
  by_cases hl : (l == ip) = true
  · exact ⟨l, r, by simp [hl, bne], hh, hl⟩
  · have hr : (r == ip) = true := by
      rcases (hh.covers ip.address).mp hin with h | h
      · exact absurd (hh.left.beq_of_covers hip (by omega) h) hl
      · exact hh.right.beq_of_covers hip (by omega) h
    exact ⟨r, l, by simp [hl, hr, bne], hh.swap, hr⟩

/-- The loop computes the difference, in as many prefixes as the exclusion has more bits, and halves
one prefix for each of them but the first. -/
theorem Split.run_spec {ip : IPAddress} (hip : ip.Canonical) (k : ℕ) {p : IPAddress}
    (hp : p.Canonical) (hin : p.Covers ip.address)
    (hlen : ip.prefixLength.toNat = p.prefixLength.toNat + (k + 1)) (result : List IPAddress)
    (halvings : ℕ) :
    ∃ pieces, (∀ fuel, k < fuel → Split.run ip fuel ⟨p.subnets, result, halvings⟩ =
        some (.ok (result ++ pieces), halvings + k)) ∧
      pieces.length = k + 1 ∧ Partition p ip pieces := by
  induction k generalizing p result halvings with
  | zero =>
    obtain ⟨h, other, hturn, hh, heq⟩ :=
      Split.turn_last hip hp hin (by omega) result halvings
    refine ⟨[other], fun fuel hfuel => ?_, rfl, Partition.of_half hh heq⟩
    obtain ⟨fuel, rfl⟩ : ∃ f, fuel = f + 1 := ⟨fuel - 1, by omega⟩
    rw [Split.run, hturn]
    rfl
  | succ k ih =>
    obtain ⟨h, other, hturn, hh, hcov⟩ :=
      Split.turn_inside hip hp hin (by omega) result halvings
    have hp0 := hp.nonneg
    have hhl := hh.left_length
    obtain ⟨pieces, hrun, hcount, hd⟩ :=
      ih hh.left hcov (by omega) (result ++ [other]) (halvings + 1)
    refine ⟨other :: pieces, fun fuel hfuel => ?_, by simp [hcount],
      hd.cons hh (by omega) hcov⟩
    obtain ⟨fuel, rfl⟩ : ∃ f, fuel = f + 1 := ⟨fuel - 1, by omega⟩
    rw [Split.run, hturn]
    dsimp only
    rw [hrun fuel (by omega), List.append_assoc, List.singleton_append,
      show halvings + 1 + k = halvings + (k + 1) by omega]

theorem excludeLoop_spec {ip : IPAddress} (hip : ip.Canonical) (k fuel : ℕ) {p : IPAddress}
    (result : List IPAddress) (hp : p.Canonical) (hin : p.Covers ip.address)
    (hlen : ip.prefixLength.toNat = p.prefixLength.toNat + (k + 1)) (hfuel : k < fuel) :
    ∃ pieces, excludeLoop ip fuel p.subnets result = some (result ++ pieces) ∧
      pieces.length = k + 1 ∧ Difference p ip pieces := by
  obtain ⟨pieces, hrun, hcount, hd⟩ := Split.run_spec hip k hp hin hlen result 0
  refine ⟨pieces, ?_, hcount, hd.toDifference⟩
  rw [excludeLoop_eq_run ip fuel ⟨p.subnets, result, 0⟩, hrun fuel hfuel]
  rfl

/-- **The member.** Splitting around a strict subnet returns the difference, in one prefix for each
bit the subnet is longer. -/
theorem excludeAddress_spec {p ip : IPAddress} (hp : p.Canonical) (hip : ip.Canonical)
    (hin : p.Covers ip.address) (hlt : p.prefixLength.toNat < ip.prefixLength.toNat) :
    ∃ pieces, p.excludeAddress ip = some pieces ∧
      pieces.length = ip.prefixLength.toNat - p.prefixLength.toNat ∧ Difference p ip pieces := by
  have hbits : ip.prefixLength.toNat ≤ 128 := hip.le_width.trans ip.address.width_le
  obtain ⟨pieces, hrun, hcount, hd⟩ :=
    excludeLoop_spec hip (ip.prefixLength.toNat - p.prefixLength.toNat - 1) 129 [] hp hin
      (by omega) (by omega)
  exact ⟨pieces, hrun, by omega, hd⟩

/-- **The split ends.** For a strict subnet the loop ends after one halving for each bit the subnet
is longer, without a fault, and returns as many canonical prefixes, which are disjoint and do not
overlap the subnet. -/
theorem excludeAddress_halvings {p ip : IPAddress} (hp : p.Canonical) (hip : ip.Canonical)
    (hsub : ip.subnetOf p = true) (hne : (ip == p) = false) :
    ∃ pieces,
      (∀ fuel, ip.prefixLength.toNat - p.prefixLength.toNat ≤ fuel →
        p.runExcludeAddress ip fuel =
          some (.ok pieces, ip.prefixLength.toNat - p.prefixLength.toNat)) ∧
      p.excludeAddress ip = some pieces ∧
      pieces.length = ip.prefixLength.toNat - p.prefixLength.toNat ∧
      (∀ q ∈ pieces, q.Canonical ∧ q.overlaps ip = false) ∧
      pieces.Pairwise fun q q' => ∀ a, ¬ (q.Covers a ∧ q'.Covers a) := by
  obtain ⟨hle, hin⟩ := (subnetOf_iff hip.toValid hp.toValid).mp hsub
  have hlt : p.prefixLength.toNat < ip.prefixLength.toNat := lt_of_subnetOf hp hip hsub hne
  obtain ⟨l, r, hhalves, -⟩ := hin.exists_halves hp hip hlt
  obtain ⟨pieces, hrun, hcount, hd⟩ :=
    Split.run_spec hip (ip.prefixLength.toNat - p.prefixLength.toNat - 1) hp hin (by omega) [] 1
  refine ⟨pieces, fun fuel hfuel => ?_, ?_, by omega, fun q hq => ?_, hd.disjoint⟩
  · have hlen : ¬ p.subnets.length < 2 := by simp [hhalves]
    rw [runExcludeAddress, if_neg hlen, hrun fuel (by omega), List.nil_append,
      show 1 + (ip.prefixLength.toNat - p.prefixLength.toNat - 1) =
        ip.prefixLength.toNat - p.prefixLength.toNat by omega]
  · have hbits : ip.prefixLength.toNat ≤ 128 := hip.le_width.trans ip.address.width_le
    rw [excludeAddress, excludeLoop_eq_run ip 129 ⟨p.subnets, [], 1⟩, hrun 129 (by omega)]
    rfl
  · have hq' := hd.canonical q hq
    refine ⟨hq', Bool.eq_false_iff.mpr fun ho => ?_⟩
    obtain ⟨a, hqa, hia⟩ := (overlaps_iff hq'.toValid hip.toValid).mp ho
    exact ((hd.covers a).mp ⟨q, hq, hqa⟩).2 hia

/-- One address taken out of all IPv6 addresses. -/
theorem excludeAddress_halvings_loopback :
    ∃ pieces,
      (∀ fuel, 128 ≤ fuel → (⟨.ipv6 0#128 [], 0⟩ : IPAddress).runExcludeAddress
        ⟨.ipv6 1#128 [], 128⟩ fuel = some (.ok pieces, 128)) ∧
      (⟨.ipv6 0#128 [], 0⟩ : IPAddress).excludeAddress ⟨.ipv6 1#128 [], 128⟩ = some pieces ∧
      pieces.length = 128 ∧
      (∀ q ∈ pieces, q.Canonical ∧ q.overlaps ⟨.ipv6 1#128 [], 128⟩ = false) ∧
      pieces.Pairwise fun q q' => ∀ a, ¬ (q.Covers a ∧ q'.Covers a) :=
  @excludeAddress_halvings ⟨.ipv6 0#128 [], 0⟩ ⟨.ipv6 1#128 [], 128⟩
    (by decide) (by decide) (by decide) (by decide)

/-! ## The static function -/

theorem excludeOne_spec {ip exclude : IPAddress} (hip : ip.Canonical) (he : exclude.Canonical) :
    ∃ range, excludeOne exclude ip = some range ∧ Difference ip exclude range := by
  unfold excludeOne
  have hover := overlaps_iff hip.toValid he.toValid
  by_cases ho : ip.overlaps exclude = true
  · obtain ⟨a, hia, hea⟩ := hover.mp ho
    simp only [ho, Bool.not_true, Bool.false_eq_true, if_false]
    by_cases hs : (exclude.subnetOf ip && exclude != ip) = true
    · rw [if_pos hs]
      rw [Bool.and_eq_true, bne, Bool.not_eq_true'] at hs
      obtain ⟨hle, hcov⟩ := (subnetOf_iff he.toValid hip.toValid).mp hs.1
      have hlt : ip.prefixLength.toNat < exclude.prefixLength.toNat :=
        lt_of_subnetOf hip he hs.1 hs.2
      obtain ⟨pieces, hrun, -, hd⟩ := excludeAddress_spec hip he hcov hlt
      exact ⟨pieces, hrun, hd⟩
    · rw [if_neg hs]
      -- the exclusion contains the whole prefix
      have hall : ∀ b, ip.Covers b → exclude.Covers b := by
        intro b hb
        by_cases hle : ip.prefixLength.toNat ≤ exclude.prefixLength.toNat
        · have hsub := (subnetOf_iff he.toValid hip.toValid).mpr ⟨hle, hia.of_common hle hea⟩
          have heq : (exclude == ip) = true := by simpa [hsub, bne] using hs
          exact (covers_congr heq b).mpr hb
        · exact (hea.of_common (by omega) hia).of_start (by omega) hb
      refine ⟨[], rfl, by simp, fun b => ?_⟩
      have := hall b
      simp only [coversAny_nil, false_iff]
      tauto
  · simp only [ho, Bool.not_false, if_true]
    refine ⟨[ip], rfl, fun q hq => by rw [List.mem_singleton.mp hq]; exact hip, fun b => ?_⟩
    have hdis : ip.Covers b → ¬ exclude.Covers b := fun hi hb => ho (hover.mpr ⟨b, hi, hb⟩)
    rw [coversAny_cons]
    simp only [coversAny_nil, or_false]
    tauto

theorem excludeEach_spec {exclude : IPAddress} (he : exclude.Canonical) :
    ∀ (results : List IPAddress), (∀ p ∈ results, p.Canonical) →
      ∃ newResults, excludeEach exclude results = some newResults ∧
        (∀ p ∈ newResults, p.Canonical) ∧
        ∀ a, CoversAny newResults a ↔ CoversAny results a ∧ ¬ exclude.Covers a := by
  intro results
  induction results with
  | nil =>
    intro _
    exact ⟨[], rfl, by simp, by simp⟩
  | cons ip results ih =>
    intro hres
    obtain ⟨range, hone, hd⟩ := excludeOne_spec (hres ip (by simp)) he
    obtain ⟨newResults, hrest, hcan, hcov⟩ := ih fun p hp => hres p (by simp [hp])
    refine ⟨range ++ newResults, by simp [excludeEach, hone, hrest], ?_, fun a => ?_⟩
    · intro p hp
      rcases List.mem_append.mp hp with hp | hp
      · exact hd.canonical p hp
      · exact hcan p hp
    · rw [coversAny_append, coversAny_cons, hd.covers, hcov, or_and_right]

/-- **Exclusion is set difference.** On canonical prefixes `excludeAddresses` returns, and the
returned prefixes cover exactly the addresses of some source prefix and of no excluded one. -/
theorem excludeAddresses_covers {source exclude : List IPAddress}
    (hs : ∀ p ∈ source, p.Canonical) (he : ∀ p ∈ exclude, p.Canonical) :
    ∃ results, excludeAddresses source exclude = some results ∧
      ∀ a, CoversAny results a ↔ CoversAny source a ∧ ¬ CoversAny exclude a := by
  induction exclude generalizing source with
  | nil => exact ⟨source, rfl, by simp⟩
  | cons ip exclude ih =>
    obtain ⟨newResults, heach, hcan, hcov⟩ := excludeEach_spec (he ip (by simp)) source hs
    obtain ⟨results, hrun, hall⟩ := ih hcan fun p hp => he p (by simp [hp])
    refine ⟨results, by simp [excludeAddresses, heach, hrun], fun a => ?_⟩
    rw [hall, hcov, coversAny_cons, not_or, and_assoc]

example : excludeAddresses [⟨.ipv4 0#32, 0⟩] [⟨.ipv4 0x40000000#32, 2⟩] =
    some [⟨.ipv4 0x80000000#32, 1⟩, ⟨.ipv4 0#32, 2⟩] := by decide

/-- Everything but one IPv4 and one IPv6 prefix. -/
theorem excludeAddresses_covers_default_routes :
    ∃ results, excludeAddresses [⟨.ipv4 0#32, 0⟩, ⟨.ipv6 0#128 [], 0⟩]
        [⟨.ipv4 0x0a000000#32, 8⟩, ⟨.ipv6 (0xfc#128 <<< 120) [], 7⟩] = some results ∧
      ∀ a, CoversAny results a ↔
        CoversAny [⟨.ipv4 0#32, 0⟩, ⟨.ipv6 0#128 [], 0⟩] a ∧
          ¬ CoversAny [⟨.ipv4 0x0a000000#32, 8⟩, ⟨.ipv6 (0xfc#128 <<< 120) [], 7⟩] a := by
  refine excludeAddresses_covers ?_ ?_
  · decide
  · decide

end IPAddress

end WgDesktop
