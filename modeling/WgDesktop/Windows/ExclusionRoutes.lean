import WgDesktop.Windows.CapturedRoutes

/-!
# Exclusion routes

The first half of `windowsroutemonitor.cpp`. `Excluding` is what holds of the routes for the excluded
networks between two calls: the rows with their mark are those that the monitor knows of. When no call
fails it has lost none either, `KeptIn`, and each leads to where `chooseRoute` says.
-/

namespace WgDesktop.WindowsRouteMonitor

open Bytes BitPrefix PiNat

/-! ## What the exclusion routes leave alone -/

section ExclusionOnly

variable {sys : System} {s s' s'' : State} {row : Row}

variable (sys) in
/-- No route into the tunnel changed, and of the members, only the exclusion routes and metrics. -/
structure ExclusionOnly (s s' : State) : Prop where
  mem_iff : ∀ r, r.interfaceLuid = sys.luid → (r ∈ s'.table ↔ r ∈ s.table)
  unique : Unique s → Unique s'
  interfaces : s'.interfaces = s.interfaces
  clonedRoutes : s'.clonedRoutes = s.clonedRoutes
  defaultRouteCapture : s'.defaultRouteCapture = s.defaultRouteCapture

theorem ExclusionOnly.refl (s : State) : ExclusionOnly sys s s :=
  ⟨fun _ _ => Iff.rfl, id, rfl, rfl, rfl⟩

theorem ExclusionOnly.trans (h : ExclusionOnly sys s s') (h' : ExclusionOnly sys s' s'') :
    ExclusionOnly sys s s'' where
  mem_iff r hr := (h'.mem_iff r hr).trans (h.mem_iff r hr)
  unique := h'.unique ∘ h.unique
  interfaces := h'.interfaces.trans h.interfaces
  clonedRoutes := h'.clonedRoutes.trans h.clonedRoutes
  defaultRouteCapture := h'.defaultRouteCapture.trans h.defaultRouteCapture

theorem exclusionOnly_create (hrow : row.interfaceLuid ≠ sys.luid) (s : State) :
    ExclusionOnly sys s (createIpForwardEntry2 sys row s).2 where
  mem_iff r hr := by
    rw [mem_table_create, or_iff_left]
    rintro ⟨-, rfl⟩
    exact hrow hr
  unique := Unique.create
  interfaces := rfl
  clonedRoutes := rfl
  defaultRouteCapture := rfl

theorem exclusionOnly_delete (hrow : row.interfaceLuid ≠ sys.luid) (s : State) :
    ExclusionOnly sys s (deleteIpForwardEntry2 sys row s) where
  mem_iff r hr := by
    have hdiffer : row.same r = false :=
      Bool.eq_false_iff.mpr fun hsame => hrow ((Row.same_iff.mp hsame).1.trans hr)
    rw [deleteIpForwardEntry2]
    simp only
    split_ifs
    · rw [List.mem_filter, hdiffer]
      exact and_iff_left rfl
    · rfl
  unique := Unique.delete
  interfaces := rfl
  clonedRoutes := rfl
  defaultRouteCapture := rfl

/-- The copies do not notice. -/
theorem Capturing.exclusionOnly {Tunnel : Row → Prop} (h : Capturing sys Tunnel s)
    (honly : ExclusionOnly sys s s') : Capturing sys Tunnel s' where
  records := by
    rw [Records, honly.clonedRoutes]
    exact h.records
  age := by
    rw [honly.clonedRoutes]
    exact h.age
  known r hr htunnel := by
    rw [Recorded, honly.clonedRoutes]
    exact h.known r ((honly.mem_iff r htunnel).mp hr) htunnel
  off := by
    rw [honly.defaultRouteCapture, honly.clonedRoutes]
    exact h.off

end ExclusionOnly

/-! ## One exclusion route -/

section Update

variable {sys : System} {s s' : State} {data data' row : Row} {table : List Row}

/-- The choice depends on the destination, the mark and the metrics. -/
theorem chooseRoute_congr (hdest : data'.destinationPrefix = data.destinationPrefix)
    (hprotocol : data'.protocol = data.protocol) (hmetric : data'.metric = data.metric)
    (h4 : s'.interfaceMetricsIpv4 = s.interfaceMetricsIpv4)
    (h6 : s'.interfaceMetricsIpv6 = s.interfaceMetricsIpv6) (table : List Row) :
    chooseRoute sys s' data' table = chooseRoute sys s data table := by
  have hconsider : consider sys s' data' = consider sys s data := by
    funext choice row
    simp only [consider, routeMetric, hdest, hprotocol, hmetric, h4, h6]
  rw [chooseRoute, chooseRoute, hconsider, hdest]

variable (sys) in
/-- The route leads to where the loop says. -/
def ChosenBy (s : State) (table : List Row) (data : Row) : Prop :=
  data.interfaceLuid = (chooseRoute sys s data table).bestLuid ∧
    data.nextHop = (chooseRoute sys s data table).nexthop

theorem exists_of_bestLuid_ne (h : (chooseRoute sys s data table).bestLuid ≠ 0) :
    ∃ best ∈ table, isCandidate sys s data best = true ∧
      (chooseRoute sys s data table).bestLuid = best.interfaceLuid ∧
      (chooseRoute sys s data table).nexthop = best.nextHop ∧
      best.destinationPrefix.prefixLength ≠ data.destinationPrefix.prefixLength ∧
      ∀ row ∈ table, isCandidate sys s data row = true →
        rank s data row ≤ rank s data best := by
  rw [chooseRoute_eq] at h ⊢
  generalize hbest : (table.filter (isCandidate sys s data)).argmax (rank s data) = o at h ⊢
  cases o with
  | none => exact absurd rfl h
  | some best =>
    obtain ⟨hmem, hcandidate⟩ := List.mem_filter.mp (List.argmax_mem hbest)
    rw [Choice.ofRow] at h ⊢
    by_cases hlen : best.destinationPrefix.prefixLength = data.destinationPrefix.prefixLength
    · simp [hlen] at h
    · refine ⟨best, hmem, hcandidate, if_neg hlen, rfl, hlen, fun row hrow hcand => ?_⟩
      exact List.le_of_mem_argmax (List.mem_filter.mpr ⟨hrow, hcand⟩) hbest

variable (sys) in
/-- The row that the route becomes. -/
def moved (s : State) (data : Row) (table : List Row) : Row :=
  { data with
    interfaceLuid := (chooseRoute sys s data table).bestLuid
    nextHop := (chooseRoute sys s data table).nexthop }

variable (sys) in
/-- The state without the route as it was. -/
def cleared (s : State) (data : Row) : State :=
  if data.interfaceLuid ≠ 0 then deleteIpForwardEntry2 sys data s else s

variable (sys) in
/-- The state with the route. -/
def created (s : State) (data : Row) : State :=
  if data.interfaceLuid ≠ 0 then (createIpForwardEntry2 sys data s).2 else s

theorem updateExclusionRoute_cases (data : Row) (table : List Row) (s : State) :
    updateExclusionRoute sys data table s = (data, s) ∧ moved sys s data table = data ∨
      updateExclusionRoute sys data table s =
        (moved sys s data table, created sys (cleared sys s data) (moved sys s data table)) := by
  rw [updateExclusionRoute]
  by_cases hsame : data.interfaceLuid = (chooseRoute sys s data table).bestLuid ∧
      (chooseRoute sys s data table).nexthop = data.nextHop
  · refine .inl ⟨if_pos hsame, ?_⟩
    rw [moved, ← hsame.1, hsame.2]
  · exact .inr (if_neg hsame)

theorem updateExclusionRoute_data (data : Row) (table : List Row) (s : State) :
    (updateExclusionRoute sys data table s).1 = moved sys s data table := by
  rcases updateExclusionRoute_cases data table s with ⟨heq, hmoved⟩ | heq
  · rw [heq, hmoved]
  · rw [heq]

theorem bestLuid_ne_tunnel (h : (chooseRoute sys s data table).bestLuid ≠ 0) :
    (chooseRoute sys s data table).bestLuid ≠ sys.luid := by
  obtain ⟨best, -, hcandidate, hluid, -⟩ := exists_of_bestLuid_ne h
  rw [hluid]
  rw [isCandidate, decide_eq_true_eq] at hcandidate
  exact hcandidate.1

theorem exclusionOnly_update (hdata : data.interfaceLuid ≠ 0 → data.interfaceLuid ≠ sys.luid)
    (table : List Row) (s : State) :
    ExclusionOnly sys s (updateExclusionRoute sys data table s).2 := by
  have hcleared : ExclusionOnly sys s (cleared sys s data) := by
    rw [cleared]
    split_ifs with hold
    · exact exclusionOnly_delete (hdata hold) s
    · exact .refl s
  rcases updateExclusionRoute_cases data table s with ⟨heq, -⟩ | heq
  · rw [heq]
    exact .refl s
  · rw [heq]
    refine hcleared.trans ?_
    rw [created]
    split_ifs with hnew
    · exact exclusionOnly_create (bestLuid_ne_tunnel hnew) _
    · exact .refl _

theorem updateExclusionRoute_members (data : Row) (table : List Row) (s : State) :
    (updateExclusionRoute sys data table s).2.exclusionRoutes = s.exclusionRoutes ∧
      (updateExclusionRoute sys data table s).2.interfaceMetricsIpv4 = s.interfaceMetricsIpv4 ∧
      (updateExclusionRoute sys data table s).2.interfaceMetricsIpv6 = s.interfaceMetricsIpv6 := by
  rcases updateExclusionRoute_cases data table s with ⟨heq, -⟩ | heq
  · rw [heq]
    exact ⟨rfl, rfl, rfl⟩
  · rw [heq, created, cleared]
    split_ifs <;> exact ⟨rfl, rfl, rfl⟩

theorem chosenBy_moved (data : Row) (table : List Row) (s : State) :
    ChosenBy sys s table (moved sys s data table) := by
  rw [ChosenBy, @chooseRoute_congr sys s s data (moved sys s data table) rfl rfl rfl rfl rfl]
  exact ⟨rfl, rfl⟩

/-! ### The rows with the mark -/

/-- The routes with the mark are those of the entries. -/
def MarkedIn (entries : List (IPAddress × Row)) (s : State) : Prop :=
  ∀ r ∈ s.table, r.IsMarked → ∃ e ∈ entries, e.2.interfaceLuid ≠ 0 ∧ e.2.same r = true

/-- The routes of the entries are in the table. -/
def KeptIn (entries : List (IPAddress × Row)) (s : State) : Prop :=
  ∀ e ∈ entries, e.2.interfaceLuid ≠ 0 → e.2 ∈ s.table

theorem mem_table_cleared (hdel : ∀ n, sys.deletes n = true) {r : Row} :
    r ∈ (cleared sys s data).table ↔
      r ∈ s.table ∧ (data.interfaceLuid ≠ 0 → data.same r = false) := by
  rw [cleared]
  split_ifs with hold
  · rw [mem_table_delete hdel]
    exact and_congr_right fun _ => ⟨fun h _ => h, fun h => h hold⟩
  · exact (and_iff_left fun h => absurd h hold).symm

theorem mem_table_created {r : Row} (hr : r ∈ (created sys s data).table) :
    r ∈ s.table ∨ data.interfaceLuid ≠ 0 ∧ r = data := by
  rw [created] at hr
  split_ifs at hr with hnew
  · exact (mem_table_create.mp hr).imp_right fun h => ⟨hnew, h.2⟩
  · exact .inl hr

theorem mem_table_created_of_mem {r : Row} (hr : r ∈ s.table) : r ∈ (created sys s data).table := by
  rw [created]
  split_ifs
  · exact mem_table_create.mpr (.inl hr)
  · exact hr

variable {before after : List (IPAddress × Row)} {range : IPAddress}

theorem MarkedIn.update (hdel : ∀ n, sys.deletes n = true)
    (h : MarkedIn (before ++ (range, data) :: after) s) (table : List Row) :
    MarkedIn (before ++ (range, (updateExclusionRoute sys data table s).1) :: after)
      (updateExclusionRoute sys data table s).2 := by
  intro r hr hmark
  rcases updateExclusionRoute_cases data table s with ⟨heq, -⟩ | heq
  · rw [heq] at hr ⊢
    exact h r hr hmark
  · rw [heq] at hr ⊢
    rcases mem_table_created hr with hr | ⟨hnew, rfl⟩
    · obtain ⟨hr, hcleared⟩ := (mem_table_cleared hdel).mp hr
      obtain ⟨e, he, hne, hsame⟩ := h r hr hmark
      refine ⟨e, ?_, hne, hsame⟩
      simp only [List.mem_append, List.mem_cons] at he ⊢
      rcases he with he | rfl | he
      · exact .inl he
      · rw [hcleared hne] at hsame
        cases hsame
      · exact .inr (.inr he)
    · exact ⟨_, List.mem_append_right _ List.mem_cons_self, hnew, Row.same_self _⟩

/-- No route of the system stands where the exclusion route moves to. -/
theorem not_same_moved (hsnapshot : ∀ r ∈ s.table, r.IsForeign sys →
      r.destinationPrefix.siFamily = data.destinationPrefix.siFamily → r ∈ table)
    (hmark : data.IsMarked) (hvalid : data.destinationPrefix.Valid)
    (hne : (moved sys s data table).interfaceLuid ≠ 0) {r : Row} (hr : r ∈ s.table)
    (hforeign : ¬ r.IsMarked) : (moved sys s data table).same r = false := by
  by_contra hsame
  obtain ⟨hluid, hdest, -⟩ := Row.same_iff.mp (Bool.eq_true_of_not_eq_false hsame)
  have hdest : r.destinationPrefix = data.destinationPrefix := hdest.symm
  have htunnel : r.interfaceLuid ≠ sys.luid := hluid ▸ bestLuid_ne_tunnel hne
  obtain ⟨best, -, hcandidate, hbest, -, hlen, hmax⟩ := exists_of_bestLuid_ne hne
  rw [isCandidate, decide_eq_true_eq] at hcandidate
  obtain ⟨-, -, hcontains, hmetric⟩ := hcandidate
  have hmetric' : (routeMetric s data.destinationPrefix.siFamily r).isSome = true := by
    rw [routeMetric, Option.isSome_map] at hmetric ⊢
    rwa [← hluid, show (moved sys s data table).interfaceLuid = best.interfaceLuid from hbest]
  have hcandidate : isCandidate sys s data r = true := by
    rw [isCandidate, decide_eq_true_eq]
    refine ⟨htunnel, fun h => hforeign ⟨h.1.trans hmark.1, h.2.trans hmark.2⟩, ?_, hmetric'⟩
    rw [hdest]
    exact routeContainsDest_self hvalid
  have hmem : r ∈ table := hsnapshot r hr ⟨htunnel, hforeign⟩ (by rw [hdest])
  -- so the row for the same network would have been the best one
  have hlong : r.destinationPrefix.prefixLength.toNat ≤ best.destinationPrefix.prefixLength.toNat :=
    @Forwarding.length_le_of_key_le _ _ _ networks Row.destinationPrefix
      (fun row => (metricOf s data row).toNat) best r (hmax r hmem hcandidate)
  have hshort := prefixLength_le_of_contains hcontains
  rw [hdest] at hlong
  exact hlen (BitVec.le_antisymm hshort hlong)

theorem KeptIn.update (hsucc : ∀ n, sys.succeeds n = true) (hdel : ∀ n, sys.deletes n = true)
    (h : KeptIn (before ++ (range, data) :: after) s)
    (hmarked : MarkedIn (before ++ (range, data) :: after) s)
    (hother : ∀ e ∈ before ++ after, e.2.destinationPrefix ≠ data.destinationPrefix)
    (hsnapshot : ∀ r ∈ s.table, r.IsForeign sys →
      r.destinationPrefix.siFamily = data.destinationPrefix.siFamily → r ∈ table)
    (hmark : data.IsMarked) (hvalid : data.destinationPrefix.Valid) :
    KeptIn (before ++ (range, (updateExclusionRoute sys data table s).1) :: after)
      (updateExclusionRoute sys data table s).2 := by
  rcases updateExclusionRoute_cases data table s with ⟨heq, -⟩ | heq
  · rw [heq]
    exact h
  · rw [heq]
    intro e he hne
    have hkeep : ∀ e ∈ before ++ after, e.2.interfaceLuid ≠ 0 →
        e.2 ∈ (created sys (cleared sys s data) (moved sys s data table)).table := by
      intro e he hne
      refine mem_table_created_of_mem ((mem_table_cleared hdel).mpr ⟨h e ?_ hne, fun _ => ?_⟩)
      · simp only [List.mem_append, List.mem_cons] at he ⊢
        exact he.imp_right .inr
      · exact Bool.eq_false_iff.mpr fun hsame => hother e he (Row.same_iff.mp hsame).2.1.symm
    rcases List.mem_append.mp he with he | he
    · exact hkeep e (List.mem_append_left _ he) hne
    · rcases List.mem_cons.mp he with rfl | he
      · -- the moved route is created, as there is none where it leads
        rw [created, if_pos hne]
        refine mem_table_create.mpr (.inr ⟨(create_eq_true_iff hsucc).mpr fun r hr => ?_, rfl⟩)
        obtain ⟨hr, hcleared⟩ := (mem_table_cleared hdel).mp hr
        by_cases hown : r.IsMarked
        · obtain ⟨e, he, hluid, hsame⟩ := hmarked r hr hown
          by_contra hmoved
          have hdest : e.2.destinationPrefix = data.destinationPrefix :=
            (Row.same_iff.mp hsame).2.1.trans
              (Row.same_iff.mp (Bool.eq_true_of_not_eq_false hmoved)).2.1.symm
          simp only [List.mem_append, List.mem_cons] at he
          rcases he with he | rfl | he
          · exact hother e (List.mem_append_left _ he) hdest
          · rw [hcleared hluid] at hsame
            cases hsame
          · exact hother e (List.mem_append_right _ he) hdest
        · exact not_same_moved hsnapshot hmark hvalid hne hr hown
      · exact hkeep e (List.mem_append_right _ he) hne

theorem mem_foreign_update (hdel : ∀ n, sys.deletes n = true) (hunique : Unique s)
    (hmark : data.IsMarked) (hkept : data.interfaceLuid ≠ 0 → data ∈ s.table) {r : Row}
    (hr : r.IsForeign sys) :
    r ∈ (updateExclusionRoute sys data table s).2.table ↔ r ∈ s.table := by
  rcases updateExclusionRoute_cases data table s with ⟨heq, -⟩ | heq
  · rw [heq]
  · rw [heq]
    constructor
    · intro hmem
      rcases mem_table_created hmem with hmem | ⟨-, rfl⟩
      · exact ((mem_table_cleared hdel).mp hmem).1
      · exact absurd hmark hr.2
    · intro hmem
      refine mem_table_created_of_mem ((mem_table_cleared hdel).mpr ⟨hmem, fun hne => ?_⟩)
      by_contra hsame
      have heq := hunique.eq (hkept hne) hmem (Bool.eq_true_of_not_eq_false hsame)
      exact hr.2 (heq ▸ hmark)

end Update

/-! ## All exclusion routes -/

section Excluding

variable {sys : System} {s s' : State} {data : Row} {table : List Row} {range : IPAddress}
  {entries before after : List (IPAddress × Row)}

theorem IpAddressPrefix.prefixLength_ofIPAddress (p : IPAddress) :
    (ofIPAddress p).prefixLength = BitVec.ofInt 8 p.prefixLength := by
  obtain ⟨address, n⟩ := p
  cases address <;> rfl

theorem IpAddressPrefix.beq_of_ofIPAddress {p q : IPAddress} (hp : p.Valid) (hq : q.Valid)
    (h : ofIPAddress p = ofIPAddress q) : (p == q) = true := by
  have hlen : p.prefixLength = q.prefixLength := by
    rw [← hp.toNat_ofInt, ← hq.toNat_ofInt, ← prefixLength_ofIPAddress, h, prefixLength_ofIPAddress]
  have hpnull := hp.protocol
  have hqnull := hq.protocol
  obtain ⟨address, n⟩ := p
  obtain ⟨address', n'⟩ := q
  obtain rfl : n = n' := hlen
  show (address == address' && n == n) = true
  rw [Bool.and_eq_true, QHostAddress.beq_iff]
  refine ⟨?_, beq_self_eq_true n⟩
  cases address with
  | null => exact absurd rfl hpnull
  | ipv4 a =>
    cases address' with
    | null => exact absurd rfl hqnull
    | ipv4 b =>
      obtain rfl : a = b := toBytes_injective (by decide) (IpAddressPrefix.mk.inj h).2.1
      exact ⟨rfl, rfl⟩
    | ipv6 b t => simp [ofIPAddress, afInet, afInet6] at h
  | ipv6 a t =>
    cases address' with
    | null => exact absurd rfl hqnull
    | ipv4 b => simp [ofIPAddress, afInet, afInet6] at h
    | ipv6 b t' =>
      obtain rfl : a = b := toBytes_injective (by decide) (IpAddressPrefix.mk.inj h).2.1
      exact ⟨rfl, rfl⟩

theorem IpAddressPrefix.valid_ofIPAddress {p : IPAddress} (hp : p.Valid) :
    (ofIPAddress p).Valid := by
  have hlen := hp.toNat_ofInt
  have hle := hp.le_width
  have hnull := hp.protocol
  obtain ⟨address, n⟩ := p
  simp only at hlen hle
  cases address with
  | null => exact absurd rfl hnull
  | ipv4 a =>
    refine .inl ⟨rfl, length_toBytes a, ?_⟩
    show (BitVec.ofInt 8 n).toNat ≤ 32
    simp only [QHostAddress.width] at hle
    omega
  | ipv6 a t =>
    refine .inr ⟨rfl, length_toBytes a, ?_⟩
    show (BitVec.ofInt 8 n).toNat ≤ 128
    simp only [QHostAddress.width] at hle
    omega

theorem IPAddress.beq_comm (p q : IPAddress) : (p == q) = (q == p) := by
  show (p.address == q.address && p.prefixLength == q.prefixLength) =
    (q.address == p.address && q.prefixLength == p.prefixLength)
  rw [Bool.eq_iff_iff, Bool.and_eq_true, Bool.and_eq_true, QHostAddress.beq_iff,
    QHostAddress.beq_iff, beq_iff_eq, beq_iff_eq]
  exact ⟨fun h => ⟨⟨h.1.1.symm, h.1.2.symm⟩, h.2.symm⟩,
    fun h => ⟨⟨h.1.1.symm, h.1.2.symm⟩, h.2.symm⟩⟩

variable (sys) in
/-- What holds of the exclusion routes between two calls. -/
structure Excluding (entries : List (IPAddress × Row)) (s : State) : Prop where
  valid : ∀ e ∈ entries, e.1.Valid
  dest : ∀ e ∈ entries, e.2.destinationPrefix = .ofIPAddress e.1
  isMarked : ∀ e ∈ entries, e.2.IsMarked
  ne_tunnel : ∀ e ∈ entries, e.2.interfaceLuid ≠ 0 → e.2.interfaceLuid ≠ sys.luid
  keys : (entries.map Prod.fst).Pairwise fun p q => (p == q) = false
  marked : MarkedIn entries s

theorem Excluding.dest_ne (h : Excluding sys (before ++ (range, data) :: after) s) :
    ∀ e ∈ before ++ after, e.2.destinationPrefix ≠ data.destinationPrefix := by
  intro e he
  have hmem : e ∈ before ++ (range, data) :: after := by
    simp only [List.mem_append, List.mem_cons] at he ⊢
    exact he.imp_right .inr
  have hself : (range, data) ∈ before ++ (range, data) :: after :=
    List.mem_append_right _ List.mem_cons_self
  have hne : (e.1 == range) = false := by
    have hkeys := h.keys
    simp only [List.map_append, List.map_cons] at hkeys
    obtain ⟨-, hafter, hbefore⟩ := List.pairwise_append.mp hkeys
    rcases List.mem_append.mp he with he | he
    · exact hbefore _ (List.mem_map_of_mem he) _ List.mem_cons_self
    · rw [IPAddress.beq_comm]
      exact (List.pairwise_cons.mp hafter).1 _ (List.mem_map_of_mem he)
  rw [h.dest e hmem, h.dest _ hself]
  intro hdest
  rw [IpAddressPrefix.beq_of_ofIPAddress (h.valid e hmem) (h.valid _ hself) hdest] at hne
  cases hne

theorem Excluding.update (hdel : ∀ n, sys.deletes n = true)
    (h : Excluding sys (before ++ (range, data) :: after) s) (table : List Row) :
    Excluding sys (before ++ (range, (updateExclusionRoute sys data table s).1) :: after)
      (updateExclusionRoute sys data table s).2 := by
  have hmarked := h.marked.update hdel table
  rw [updateExclusionRoute_data] at hmarked ⊢
  have hall : ∀ {P : IPAddress × Row → Prop}, (∀ e ∈ before ++ (range, data) :: after, P e) →
      P (range, moved sys s data table) →
      ∀ e ∈ before ++ (range, moved sys s data table) :: after, P e := by
    intro P hP hnew
    rw [List.forall_mem_append, List.forall_mem_cons] at hP ⊢
    exact ⟨hP.1, hnew, hP.2.2⟩
  have hself : (range, data) ∈ before ++ (range, data) :: after :=
    List.mem_append_right _ List.mem_cons_self
  have hvalid : range.Valid := h.valid (range, data) hself
  have hdest : data.destinationPrefix = .ofIPAddress range := h.dest (range, data) hself
  have hmark : data.IsMarked := h.isMarked (range, data) hself
  refine ⟨hall h.valid hvalid, hall h.dest hdest, hall h.isMarked hmark,
    hall h.ne_tunnel bestLuid_ne_tunnel, ?_, hmarked⟩
  have hkeys := h.keys
  rwa [List.map_append, List.map_cons] at hkeys ⊢

/-- **The loop.** Each route leads to where it should, and the rest of the table stays. -/
theorem updateExclusionRoutes_spec (hdel : ∀ n, sys.deletes n = true) {s : State}
    (h : Excluding sys (before ++ after) s) :
    Excluding sys (before ++ (updateExclusionRoutes sys table after s).1)
        (updateExclusionRoutes sys table after s).2 ∧
      ExclusionOnly sys s (updateExclusionRoutes sys table after s).2 ∧
      (∀ e ∈ (updateExclusionRoutes sys table after s).1, ChosenBy sys s table e.2) ∧
      (updateExclusionRoutes sys table after s).2.interfaceMetricsIpv4 = s.interfaceMetricsIpv4 ∧
      (updateExclusionRoutes sys table after s).2.interfaceMetricsIpv6 = s.interfaceMetricsIpv6 := by
  induction after generalizing before s with
  | nil => exact ⟨h, .refl s, List.forall_mem_nil _, rfl, rfl⟩
  | cons e after ih =>
    obtain ⟨range, data⟩ := e
    have hself : (range, data) ∈ before ++ (range, data) :: after :=
      List.mem_append_right _ List.mem_cons_self
    have hstep := h.update hdel table
    have honly := exclusionOnly_update (h.ne_tunnel _ hself) table s
    obtain ⟨-, h4, h6⟩ := @updateExclusionRoute_members sys data table s
    have hdata := @updateExclusionRoute_data sys data table s
    rw [updateExclusionRoutes]
    generalize updateExclusionRoute sys data table s = first at hstep honly h4 h6 hdata
    obtain ⟨data', s'⟩ := first
    simp only at hstep honly h4 h6 hdata ⊢
    have hstep' : Excluding sys (before ++ [(range, data')] ++ after) s' := by
      rwa [List.append_assoc, List.singleton_append]
    obtain ⟨hrest, honly', hchosen, h4', h6'⟩ := ih hstep'
    rw [List.append_assoc, List.singleton_append] at hrest
    refine ⟨hrest, honly.trans honly', ?_, h4'.trans h4, h6'.trans h6⟩
    rw [List.forall_mem_cons]
    refine ⟨hdata ▸ chosenBy_moved data table s, fun e he => ?_⟩
    have hchosen' := hchosen e he
    rwa [ChosenBy, @chooseRoute_congr sys s s' e.2 e.2 rfl rfl rfl h4 h6] at hchosen'

/-- When no call fails, no route is lost, and those of the system stay. -/
theorem updateExclusionRoutes_kept (hsucc : ∀ n, sys.succeeds n = true)
    (hdel : ∀ n, sys.deletes n = true) {s : State} (h : Excluding sys (before ++ after) s)
    (hkept : KeptIn (before ++ after) s) (hunique : Unique s)
    (hsnapshot : ∀ r ∈ s.table, r.IsForeign sys → r ∈ table) :
    KeptIn (before ++ (updateExclusionRoutes sys table after s).1)
        (updateExclusionRoutes sys table after s).2 ∧
      ∀ r, r.IsForeign sys →
        (r ∈ (updateExclusionRoutes sys table after s).2.table ↔ r ∈ s.table) := by
  induction after generalizing before s with
  | nil => exact ⟨hkept, fun _ _ => Iff.rfl⟩
  | cons e after ih =>
    obtain ⟨range, data⟩ := e
    have hself : (range, data) ∈ before ++ (range, data) :: after :=
      List.mem_append_right _ List.mem_cons_self
    have hmark : data.IsMarked := h.isMarked (range, data) hself
    have hvalid : data.destinationPrefix.Valid := by
      rw [show data.destinationPrefix = .ofIPAddress range from h.dest (range, data) hself]
      exact IpAddressPrefix.valid_ofIPAddress (h.valid (range, data) hself)
    have hstep := h.update hdel table
    have hstepKept := hkept.update hsucc hdel h.marked h.dest_ne
      (fun r hr hforeign _ => hsnapshot r hr hforeign) hmark hvalid
    have hforeign : ∀ r, r.IsForeign sys →
        (r ∈ (updateExclusionRoute sys data table s).2.table ↔ r ∈ s.table) := fun r hr =>
      mem_foreign_update hdel hunique hmark (hkept (range, data) hself) hr
    have hunique' := (exclusionOnly_update (h.ne_tunnel _ hself) table s).unique hunique
    rw [updateExclusionRoutes]
    generalize updateExclusionRoute sys data table s = first at hstep hstepKept hforeign hunique'
    obtain ⟨data', s'⟩ := first
    simp only at hstep hstepKept hforeign hunique' ⊢
    rw [← List.singleton_append, ← List.append_assoc] at hstep hstepKept
    obtain ⟨hrest, hforeign'⟩ := ih hstep hstepKept hunique' fun r hr hown =>
      hsnapshot r ((hforeign r hown).mp hr) hown
    rw [List.append_assoc, List.singleton_append] at hrest
    exact ⟨hrest, fun r hr => (hforeign' r hr).trans (hforeign r hr)⟩

end Excluding

end WgDesktop.WindowsRouteMonitor
