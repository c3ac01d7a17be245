import WgDesktop.Client.ServerCountryModel

/-!
# Weighted server choice

`Server::weightChooser` from `src/utils/models/server.cpp`, with the two ways in which it can fail:
the remainder that scales the draw, and the assertion behind the loop. Weights come from JSON
integers and are added in 32 bits, and a draw counts down to and including a weight.
`choosesWell_iff` says for which lists and draws the choice is what it is meant to be.
-/

namespace WgDesktop

namespace Server

/-- What stops `weightChooser`. -/
inductive ChooserFault where
  | divisionByZero
  | assertionFailed
  deriving DecidableEq, Repr

/-- `weightSum`, in 32 bits. -/
def weightSum (servers : List Server) : ℕ := (servers.map weight).sum % 2 ^ 32

/-- `weightChooser` as it runs, for a drawn 32-bit value. -/
def runWeightChooser (servers : List Server) (drawn : ℕ) : Except ChooserFault Server :=
  if servers.isEmpty then .ok {}
  else
    let modulus := (weightSum servers + 1) % 2 ^ 32
    if modulus = 0 then .error .divisionByZero
    else
      match weightLoop servers (drawn % modulus) with
      | some server => .ok server
      | none => .error .assertionFailed

theorem weightChooser_of_run {servers : List Server} {drawn : ℕ} {server : Server}
    (h : runWeightChooser servers drawn = .ok server) : weightChooser servers drawn = server := by
  unfold runWeightChooser weightSum at h
  unfold weightChooser
  dsimp only at h ⊢
  split_ifs at h ⊢ with hempty hzero
  · simpa using h
  · cases hloop : weightLoop servers
        (drawn % (((servers.map weight).sum % 2 ^ 32 + 1) % 2 ^ 32)) with
    | none =>
      rw [hloop] at h
      cases h
    | some s =>
      rw [hloop] at h
      exact Except.ok.inj h

/-! ## The loop -/

/-- A draw within the weights falls on a server, and on one that has a weight unless the draw was
zero. -/
theorem weightLoop_spec {servers : List Server} {r : ℕ} (hne : servers ≠ [])
    (hr : r ≤ (servers.map weight).sum) :
    ∃ server ∈ servers, weightLoop servers r = some server ∧ (0 < r → 0 < server.weight) := by
  induction servers generalizing r with
  | nil => exact absurd rfl hne
  | cons server servers ih =>
    rw [List.map_cons, List.sum_cons] at hr
    unfold weightLoop
    by_cases hreach : server.weight ≥ r
    · rw [if_pos hreach]
      exact ⟨server, by simp, rfl, fun h => by omega⟩
    · rw [if_neg hreach]
      have hrest : servers ≠ [] := by
        rintro rfl
        simp at hr
        omega
      obtain ⟨s, hs, hloop, hweight⟩ := ih hrest (by omega : r - server.weight ≤ _)
      exact ⟨s, by simp [hs], hloop, fun _ => hweight (by omega)⟩

/-- A draw of zero falls on the first server, whatever its weight. -/
theorem weightLoop_zero (server : Server) (servers : List Server) :
    weightLoop (server :: servers) 0 = some server := by
  rw [weightLoop, if_pos (Nat.zero_le _)]

/-! ## Servers of a document -/

/-- An entry of the server list with the given weight. -/
def entry (weight : ℤ) : Json.Object :=
  [("hostname", .str "a".toList), ("ipv4_addr_in", .str "192.0.2.1".toList),
    ("ipv4_gateway", .str "10.64.0.1".toList), ("port_ranges", .arr []),
    ("public_key", .str "b".toList), ("weight", .num weight)]

/-- The server that an entry stands for. -/
def ofEntry (weight : ℤ) : Server :=
  { hostname := .text "a".toList
    ipv4AddrIn := .text "192.0.2.1".toList
    ipv4Gateway := .text "10.64.0.1".toList
    publicKey := .text "b".toList
    weight := toUint32 (Json.num weight).toInt }

theorem fromJson_entry (weight : ℤ) : fromJson {} (entry weight) = some (ofEntry weight) := by
  simp [fromJson, entry, ofEntry, Json.Object.value, Json.isString, Json.isDouble, Json.isArray,
    Json.toArray, QString.ofJson, Json.toString?, Json.toInt, toUint32]

/-! ## The choice -/

/-- The choice is a server of the list, and one with a weight where there is one. -/
def ChoosesWell (servers : List Server) (drawn : ℕ) : Prop :=
  ∃ server ∈ servers, runWeightChooser servers drawn = .ok server ∧
    ((∃ s ∈ servers, 0 < s.weight) → 0 < server.weight)

/-- The weights do not add up to the largest 32-bit value, and a draw that is a multiple of one more
than their sum does not meet a first server without weight in front of others that have one. -/
def WellDrawn (servers : List Server) (drawn : ℕ) : Prop :=
  weightSum servers ≠ 2 ^ 32 - 1 ∧
    ¬ (servers.head?.any (·.weight = 0) ∧ (∃ s ∈ servers, 0 < s.weight) ∧
      weightSum servers + 1 ∣ drawn)

theorem weightSum_lt (servers : List Server) : weightSum servers < 2 ^ 32 :=
  Nat.mod_lt _ (by norm_num)

/-- The remainder never divides by zero unless the weights fill 32 bits. -/
theorem modulus_eq {servers : List Server} (h : weightSum servers ≠ 2 ^ 32 - 1) :
    (weightSum servers + 1) % 2 ^ 32 = weightSum servers + 1 := by
  have hlt := weightSum_lt servers
  exact Nat.mod_eq_of_lt (by omega)

/-- With weights that fill 32 bits the remainder divides by zero. -/
theorem runWeightChooser_of_full {servers : List Server} (hne : servers ≠ [])
    (hfull : weightSum servers = 2 ^ 32 - 1) (drawn : ℕ) :
    runWeightChooser servers drawn = .error .divisionByZero := by
  have hempty : ¬ servers.isEmpty = true := by simpa using hne
  unfold runWeightChooser
  dsimp only
  rw [if_neg hempty, hfull, if_pos (by norm_num)]

theorem runWeightChooser_of_ne_full {servers : List Server} (hne : servers ≠ [])
    (hfull : weightSum servers ≠ 2 ^ 32 - 1) (drawn : ℕ) :
    ∃ server ∈ servers, runWeightChooser servers drawn = .ok server ∧
      weightLoop servers (drawn % (weightSum servers + 1)) = some server ∧
      (0 < drawn % (weightSum servers + 1) → 0 < server.weight) := by
  have hempty : ¬ servers.isEmpty = true := by simpa using hne
  have hle : drawn % (weightSum servers + 1) ≤ (servers.map weight).sum := by
    have hdraw : drawn % (weightSum servers + 1) < weightSum servers + 1 :=
      Nat.mod_lt _ (Nat.succ_pos _)
    have hsum : weightSum servers ≤ (servers.map weight).sum := Nat.mod_le _ _
    omega
  obtain ⟨server, hmem, hloop, hweight⟩ := weightLoop_spec hne hle
  refine ⟨server, hmem, ?_, hloop, hweight⟩
  unfold runWeightChooser
  dsimp only
  rw [if_neg hempty, modulus_eq hfull, if_neg (Nat.succ_ne_zero _), hloop]

/-- **The assertion is never reached.** -/
theorem runWeightChooser_ne_assertionFailed (servers : List Server) (drawn : ℕ) :
    runWeightChooser servers drawn ≠ .error .assertionFailed := by
  by_cases hne : servers = []
  · subst hne
    simp [runWeightChooser]
  by_cases hfull : weightSum servers = 2 ^ 32 - 1
  · rw [runWeightChooser_of_full hne hfull]
    simp
  · obtain ⟨server, -, hrun, -⟩ := runWeightChooser_of_ne_full hne hfull drawn
    rw [hrun]
    simp

/-- **Weighted choice.** The choice is right exactly for the draws that are well drawn, whatever the
weights of the list are. -/
theorem choosesWell_iff (servers : List Server) (hne : servers ≠ []) (drawn : ℕ) :
    ChoosesWell servers drawn ↔ WellDrawn servers drawn := by
  by_cases hfull : weightSum servers = 2 ^ 32 - 1
  · constructor
    · rintro ⟨server, -, hok, -⟩
      rw [runWeightChooser_of_full hne hfull] at hok
      cases hok
    · intro h
      exact absurd hfull h.1
  · obtain ⟨first, rest, rfl⟩ := List.exists_cons_of_ne_nil hne
    obtain ⟨server, hmem, hrun, hloop, hweight⟩ := runWeightChooser_of_ne_full hne hfull drawn
    by_cases hzero : drawn % (weightSum (first :: rest) + 1) = 0
    · -- the draw falls on the first server
      have hfirst : server = first := by
        rw [hzero, weightLoop_zero] at hloop
        exact (Option.some.inj hloop).symm
      subst hfirst
      have hdvd : weightSum (server :: rest) + 1 ∣ drawn := Nat.dvd_of_mod_eq_zero hzero
      constructor
      · rintro ⟨s, -, hok, hs⟩
        rw [hrun, Except.ok.injEq] at hok
        subst hok
        refine ⟨hfull, fun ⟨hw, hpos, _⟩ => ?_⟩
        have hw : server.weight = 0 := by simpa using hw
        exact absurd (hs hpos) (by omega)
      · rintro ⟨-, hwell⟩
        refine ⟨server, hmem, hrun, fun hpos => ?_⟩
        by_contra hw
        have hw : server.weight = 0 := by omega
        exact hwell ⟨by simp [hw], hpos, hdvd⟩
    · constructor
      · intro _
        refine ⟨hfull, fun ⟨_, _, hdvd⟩ => hzero (Nat.mod_eq_zero_of_dvd hdvd)⟩
      · intro _
        exact ⟨server, hmem, hrun, fun _ => hweight (Nat.pos_of_ne_zero hzero)⟩

/-- Any draw is a good one when the first server has a weight. -/
theorem choosesWell_three_one :
    [ofEntry 3, ofEntry 1] ≠ [] ∧ ∀ drawn, ChoosesWell [ofEntry 3, ofEntry 1] drawn :=
  ⟨by simp, fun drawn => (choosesWell_iff [ofEntry 3, ofEntry 1] (by simp) drawn).mpr
    ⟨by decide, fun hwell => absurd hwell.1 (by decide)⟩⟩

/-- A single server of weight -1 makes the remainder divide by zero, and a draw of zero falls on a
server without weight in front of one that has a weight. -/
theorem choice_fails :
    (∀ n ∈ [-1, 0, 1], ∃ obj, fromJson {} obj = some (ofEntry n)) ∧
      ¬ ChoosesWell [ofEntry (-1)] 0 ∧ ¬ ChoosesWell [ofEntry 0, ofEntry 1] 0 := by
  refine ⟨fun n _ => ⟨entry n, fromJson_entry n⟩, ?_, ?_⟩
  · rintro ⟨server, -, hrun, -⟩
    have hfault : runWeightChooser [ofEntry (-1)] 0 = .error .divisionByZero := by decide
    rw [hfault] at hrun
    cases hrun
  · rintro ⟨server, -, hrun, hweight⟩
    have hfirst : runWeightChooser [ofEntry 0, ofEntry 1] 0 = .ok (ofEntry 0) := by decide
    rw [hfirst, Except.ok.injEq] at hrun
    subst hrun
    exact absurd (hweight ⟨ofEntry 1, by decide, by decide⟩) (by decide)

end Server

end WgDesktop
