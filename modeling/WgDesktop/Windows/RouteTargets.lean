import WgDesktop.Windows.RouteRuns

/-!
# Where packets go

Runs of the route monitor in which no call fails and the system takes none of its routes away. Then
the routes that the monitor knows of are in the table, `kept_run`, and of the routes of the system
none is touched. After `routeChanged` packets to an excluded network go where they would go without
the tunnel, and each of the other routes has a copy into the tunnel when routes are captured.
-/

namespace WgDesktop.WindowsRouteMonitor

open Bytes BitPrefix PiNat Runs

section Targets

variable {sys : System} {Tunnel : Row → Prop} {s s' : State} {data r : Row} {table : List Row}
  {family : BitVec 16} {entries : List (IPAddress × Row)}

/-! ## The routes for the excluded networks -/

/-- The system takes none of the monitor's routes away. -/
def Keeps (s : State) : Event → Prop
  | .system table _ => ∀ r ∈ s.table, r.IsMarked ∨ Recorded s r → r ∈ table
  | _ => True

theorem mem_snapshot (h : Inv sys Tunnel s) (hr : r ∈ (refreshed sys family s).table)
    (hforeign : r.IsForeign sys)
    (hfamily : family = afUnspec ∨ r.destinationPrefix.siFamily = family) :
    r ∈ snapshot family s :=
  List.mem_filter.mpr ⟨((tunnelOnly_refreshed h family).mem_iff r hforeign.1).mp hr,
    decide_eq_true hfamily⟩

theorem KeptIn.refreshed (hluid : sys.luid ≠ 0) (h : Inv sys Tunnel s)
    (hkept : KeptIn s.exclusionRoutes s) (family : BitVec 16) :
    KeptIn (refreshed sys family s).exclusionRoutes (refreshed sys family s) := by
  rw [(tunnelOnly_refreshed h family).exclusionRoutes]
  intro e he hne
  exact ((tunnelOnly_refreshed h family).mem_iff e.2 (h.excluding.luid_ne hluid e he)).mpr
    (hkept e he hne)

theorem kept_addExclusionRoute (hsucc : ∀ n, sys.succeeds n = true)
    (hdel : ∀ n, sys.deletes n = true) (hluid : sys.luid ≠ 0) (h : Inv sys Tunnel s)
    (hkept : KeptIn s.exclusionRoutes s) {range : IPAddress} (hvalid : range.Valid) :
    KeptIn (addExclusionRoute sys range s).2.exclusionRoutes (addExclusionRoute sys range s).2 := by
  rcases addExclusionRoute_cases range s with ⟨calls, heq⟩ | ⟨family, hnew, hfamily, heq⟩
  · rw [heq]
    exact hkept
  · rw [heq]
    have hread := inv_refreshed hdel h family
    rw [← show (refreshed sys family s).exclusionRoutes = s.exclusionRoutes from
      (tunnelOnly_refreshed h family).exclusionRoutes] at hnew
    have hcons := hread.excluding.cons hvalid hnew
    have hall : KeptIn ((range, exclusionRow range) :: (refreshed sys family s).exclusionRoutes)
        (refreshed sys family s) :=
      List.forall_mem_cons.mpr ⟨fun hne => absurd rfl hne, hkept.refreshed hluid h family⟩
    obtain ⟨hmembers, -⟩ := @updateExclusionRoute_members sys (exclusionRow range)
      (snapshot family s) (refreshed sys family s)
    simp only [hmembers]
    exact @KeptIn.update sys _ (exclusionRow range) _ [] _ range hsucc hdel hall hcons.marked
      (@Excluding.dest_ne sys _ _ range [] _ hcons)
      (fun r hr hforeign hsame => mem_snapshot h hr hforeign (.inr (hsame.trans hfamily.symm)))
      ⟨rfl, rfl⟩ (IpAddressPrefix.valid_ofIPAddress hvalid)

theorem kept_deleteExclusionRoute (hdel : ∀ n, sys.deletes n = true) (h : Inv sys Tunnel s)
    (hkept : KeptIn s.exclusionRoutes s) (range : IPAddress) :
    KeptIn (deleteExclusionRoute sys range s).2.exclusionRoutes
      (deleteExclusionRoute sys range s).2 := by
  rcases deleteExclusionRoute_cases range s with heq | ⟨key, data, calls, hfind, heq⟩
  · rwa [heq]
  · rw [heq]
    intro e he hne
    obtain ⟨he, hdest⟩ := (h.excluding.mem_filter hfind).mp he
    refine (mem_table_delete hdel).mpr ⟨hkept e he hne, Bool.eq_false_iff.mpr fun hsame => ?_⟩
    exact hdest (Row.same_iff.mp hsame).2.1.symm

theorem kept_routeChanged (hsucc : ∀ n, sys.succeeds n = true)
    (hdel : ∀ n, sys.deletes n = true) (hluid : sys.luid ≠ 0) (h : Inv sys Tunnel s)
    (hkept : KeptIn s.exclusionRoutes s) :
    KeptIn (routeChanged sys s).exclusionRoutes (routeChanged sys s) := by
  rw [routeChanged_eq (hsucc _)]
  have hread := inv_refreshed hdel h afUnspec
  exact (@updateExclusionRoutes_kept sys (snapshot afUnspec s) []
    (refreshed sys afUnspec s).exclusionRoutes hsucc hdel _ hread.excluding
    (hkept.refreshed hluid h afUnspec) hread.unique
    fun r hr hforeign => mem_snapshot h hr hforeign (.inl rfl)).1

theorem kept_step (hsucc : ∀ n, sys.succeeds n = true) (hdel : ∀ n, sys.deletes n = true)
    (hluid : sys.luid ≠ 0) (e : Event) (h : Inv sys Tunnel s)
    (hkept : KeptIn s.exclusionRoutes s) (hallowed : Allowed sys Tunnel s e) (hkeeps : Keeps s e) :
    KeptIn (step sys s e).exclusionRoutes (step sys s e) := by
  cases e with
  | system table interfaces =>
    exact fun e he hne => hkeeps _ (hkept e he hne) (.inl (h.excluding.isMarked e he))
  | addExclusionRoute range => exact kept_addExclusionRoute hsucc hdel hluid h hkept hallowed
  | deleteExclusionRoute range => exact kept_deleteExclusionRoute hdel h hkept range
  | flushExclusionRoutes => exact List.forall_mem_nil _
  | setDetaultRouteCapture enable =>
    cases enable with
    | true => exact hkept
    | false =>
      have honly : TunnelOnly sys { s with defaultRouteCapture := false }
          (flushClonedRoutes sys { s with defaultRouteCapture := false }) :=
        tunnelOnly_flushClonedRoutes h.capturing.records
      intro e he hne
      have he : e ∈ s.exclusionRoutes :=
        (show _ = s.exclusionRoutes from honly.exclusionRoutes) ▸ he
      exact (honly.mem_iff e.2 (h.excluding.luid_ne hluid e he)).mpr (hkept e he hne)
  | routeChanged => exact kept_routeChanged hsucc hdel hluid h hkept

/-! ## The copies -/

theorem Present.exclusionOnly (h : Present s) (hrecords : Records sys s)
    (honly : ExclusionOnly sys s s') : Present s' := by
  rintro d ⟨e, he, hsame⟩
  rw [honly.clonedRoutes] at he
  obtain ⟨r, hr, hsame'⟩ := h d ⟨e, he, hsame⟩
  refine ⟨r, (honly.mem_iff r ?_).mpr hr, hsame'⟩
  rw [(Row.same_iff.mp hsame').1, ← (Row.same_iff.mp hsame).1]
  exact (hrecords e he).2.2.1

theorem present_refreshed (hsucc : ∀ n, sys.succeeds n = true)
    (hdel : ∀ n, sys.deletes n = true) (h : Inv sys Tunnel s) (hpresent : Present s)
    (family : BitVec 16) : Present (refreshed sys family s) := by
  by_cases hcapture : s.defaultRouteCapture = true
  · exact (updateCapturedRoutes_complete hsucc hdel (inv_measured h family).capturing hpresent
      (validRows_snapshot h.wellformed family) hcapture).1
  · have hoff : (!(measured sys family s).defaultRouteCapture) = true := by
      show (!s.defaultRouteCapture) = true
      simpa using hcapture
    rw [refreshed, updateCapturedRoutes, if_pos hoff]
    exact hpresent

theorem present_step (hsucc : ∀ n, sys.succeeds n = true) (hdel : ∀ n, sys.deletes n = true)
    (hluid : sys.luid ≠ 0) (e : Event) (h : Inv sys Tunnel s) (hpresent : Present s)
    (hkeeps : Keeps s e) : Present (step sys s e) := by
  cases e with
  | system table interfaces =>
    intro d hd
    obtain ⟨r, hr, hsame⟩ := hpresent d hd
    obtain ⟨e, he, hsame'⟩ := hd
    rw [Row.same_comm] at hsame
    exact ⟨r, hkeeps r hr (.inr ⟨e, he, Row.same_trans hsame' hsame⟩), by rwa [Row.same_comm]⟩
  | addExclusionRoute range =>
    rcases addExclusionRoute_cases range s with ⟨calls, heq⟩ | ⟨family, -, -, heq⟩
    · rw [step, heq]
      exact hpresent
    · rw [step, heq]
      have hpresent' := (present_refreshed hsucc hdel h hpresent family).exclusionOnly
        (inv_refreshed hdel h family).capturing.records
        (exclusionOnly_exclusionRow sys range (snapshot family s) (refreshed sys family s))
      exact hpresent'
  | deleteExclusionRoute range =>
    rcases deleteExclusionRoute_cases range s with heq | ⟨key, data, calls, hfind, heq⟩
    · rwa [step, heq]
    · rw [step, heq]
      have hpresent' := hpresent.exclusionOnly h.capturing.records
        (exclusionOnly_delete (h.excluding.luid_ne hluid _ (List.mem_of_find?_eq_some hfind)) s)
      exact hpresent'
  | flushExclusionRoutes =>
    have hpresent' := hpresent.exclusionOnly h.capturing.records
      (exclusionOnly_deleteAll (h.excluding.luid_ne hluid) s)
    exact hpresent'
  | setDetaultRouteCapture enable =>
    cases enable with
    | true => exact hpresent
    | false =>
      rintro d ⟨e, he, -⟩
      cases he
  | routeChanged =>
    have hread := inv_refreshed hdel h afUnspec
    obtain ⟨-, honly, -⟩ := @updateExclusionRoutes_spec sys (snapshot afUnspec s) []
      (refreshed sys afUnspec s).exclusionRoutes hdel _ hread.excluding
    have hpresent' := (present_refreshed hsucc hdel h hpresent afUnspec).exclusionOnly
      hread.capturing.records honly
    rw [step, routeChanged_eq (hsucc _)]
    exact hpresent'

/-- The routes that the monitor knows of are in the table. -/
structure Kept (s : State) : Prop where
  exclusions : KeptIn s.exclusionRoutes s
  copies : Present s

theorem kept_run (hsucc : ∀ n, sys.succeeds n = true) (hdel : ∀ n, sys.deletes n = true)
    (hluid : sys.luid ≠ 0) {events : List Event}
    (h : Guarded (step sys) (fun s e => Allowed sys Tunnel s e ∧ Keeps s e) .empty events) :
    Inv sys Tunnel (events.foldl (step sys) .empty) ∧ Kept (events.foldl (step sys) .empty) := by
  have hrun := @Guarded.invariant _ _ (step sys) _ (fun s => Inv sys Tunnel s ∧ Kept s)
    (fun s e hs he => ⟨inv_step hdel hluid e hs.1 he.1,
      kept_step hsucc hdel hluid e hs.1 hs.2.exclusions he.1 he.2,
      present_step hsucc hdel hluid e hs.1 hs.2.copies he.2⟩)
    _ _ ⟨inv_empty, List.forall_mem_nil _, fun d ⟨e, he, _⟩ => by cases he⟩ h events.length
  rwa [List.take_length] at hrun

/-! ## Where the packets go -/

/-- The interface of the route is connected. -/
def Connected (s : State) (r : Row) : Prop :=
  (routeMetric s r.destinationPrefix.siFamily r).isSome = true

def cost (s : State) (r : Row) : ℕ := (metricOf s r r).toNat

variable (sys) in
/-- The routes that there would be without the monitor and the tunnel. -/
def outside (s : State) : Set Row := {r | r ∈ s.table ∧ r.IsForeign sys ∧ Connected s r}

variable (sys) in
/-- The routes that packets may follow. -/
def usable (s : State) : Set Row := {r | r ∈ s.table ∧ (r.IsForeign sys → Connected s r)}

/-- Where a route leads. -/
def Row.target (r : Row) : BitVec 64 × SockaddrInet := (r.interfaceLuid, r.nextHop)

theorem isCandidate_iff (hmark : data.IsMarked) (hdata : data.destinationPrefix.Valid)
    (hrow : r.IsForeign sys → r.destinationPrefix.Valid) :
    isCandidate sys s data r = true ↔
      (r.IsForeign sys ∧ Connected s r) ∧
        networks.Contains r.destinationPrefix data.destinationPrefix := by
  rw [isCandidate, decide_eq_true_eq, hmark.1, hmark.2]
  constructor
  · rintro ⟨htunnel, hforeign, hcontains, hmetric⟩
    have hcontains := (routeContainsDest_iff (hrow ⟨htunnel, hforeign⟩) hdata).mp hcontains
    refine ⟨⟨⟨htunnel, hforeign⟩, ?_⟩, hcontains⟩
    rwa [Connected, (contains_iff.mp hcontains).2.1]
  · rintro ⟨⟨hforeign, hmetric⟩, hcontains⟩
    refine ⟨hforeign.1, hforeign.2, (routeContainsDest_iff (hrow hforeign) hdata).mpr hcontains, ?_⟩
    rwa [← (contains_iff.mp hcontains).2.1]

theorem rank_eq_key (h : networks.Contains r.destinationPrefix data.destinationPrefix) :
    rank s data r = Forwarding.key networks Row.destinationPrefix (cost s) r := by
  rw [rank, Forwarding.key, cost, metricOf, metricOf, (contains_iff.mp h).2.1]
  rfl

/-- The route leads where the best route for all of the network leads. -/
theorem exists_bestFor (hmark : data.IsMarked) (hdata : data.destinationPrefix.Valid)
    (htable : ValidRows sys table)
    (hne : (chooseRoute sys s data table).bestLuid ≠ 0) :
    ∃ t, Forwarding.BestFor networks Row.destinationPrefix (cost s)
        {r | r ∈ table ∧ r.IsForeign sys ∧ Connected s r} data.destinationPrefix t ∧
      (chooseRoute sys s data table).bestLuid = t.interfaceLuid ∧
      (chooseRoute sys s data table).nexthop = t.nextHop := by
  obtain ⟨best, hmem, hcandidate, hluid, hnexthop, -, hmax⟩ := exists_of_bestLuid_ne hne
  obtain ⟨hbest, hcontains⟩ := (isCandidate_iff hmark hdata (htable best hmem)).mp hcandidate
  refine ⟨best, ⟨⟨hmem, hbest⟩, hcontains, fun row hrow hall => ?_⟩, hluid, hnexthop⟩
  rw [← rank_eq_key hall, ← rank_eq_key hcontains]
  exact hmax row hrow.1 ((isCandidate_iff hmark hdata (htable row hrow.1)).mpr ⟨hrow.2, hall⟩)

/-- There is a route for a network if the best one is for a larger network. -/
theorem bestLuid_ne_zero (hmark : data.IsMarked) (hdata : data.destinationPrefix.Valid)
    (htable : Wellformed sys table) {t : Row}
    (ht : Forwarding.BestFor networks Row.destinationPrefix (cost s)
      {r | r ∈ table ∧ r.IsForeign sys ∧ Connected s r} data.destinationPrefix t)
    (hshort : networks.length t.destinationPrefix < networks.length data.destinationPrefix) :
    (chooseRoute sys s data table).bestLuid ≠ 0 := by
  have hvalid : ValidRows sys table := fun row hrow hforeign => (htable row hrow hforeign).1
  have hmem : t ∈ table.filter (isCandidate sys s data) :=
    List.mem_filter.mpr ⟨ht.mem.1,
      (isCandidate_iff hmark hdata (hvalid t ht.mem.1)).mpr ⟨ht.mem.2, ht.contains⟩⟩
  rw [chooseRoute_eq]
  cases hbest : (table.filter (isCandidate sys s data)).argmax (rank s data) with
  | none =>
    rw [List.argmax_eq_none.mp hbest] at hmem
    cases hmem
  | some best =>
    obtain ⟨hin, hcandidate⟩ := List.mem_filter.mp (List.argmax_mem hbest)
    obtain ⟨hown, hcontains⟩ := (isCandidate_iff hmark hdata (hvalid best hin)).mp hcandidate
    have hlen := Forwarding.length_le_of_key_le (ht.le best ⟨hin, hown⟩ hcontains)
    have hne : best.destinationPrefix.prefixLength ≠ data.destinationPrefix.prefixLength := by
      intro heq
      rw [show networks.length best.destinationPrefix = networks.length data.destinationPrefix from
        congrArg BitVec.toNat heq] at hlen
      omega
    rw [Choice.ofRow, if_neg hne]
    exact (htable best hin hown.1).2

/-! ### After `routeChanged` -/

theorem map_fst_updateExclusionRoutes (table : List Row) (entries : List (IPAddress × Row))
    (s : State) :
    (updateExclusionRoutes sys table entries s).1.map Prod.fst = entries.map Prod.fst := by
  induction entries generalizing s with
  | nil => rfl
  | cons e entries ih => exact congrArg (e.1 :: ·) (ih _)

variable (sys) in
/-- What `routeChanged` leaves, in terms of the state that it began with. -/
structure Changed (s s' : State) : Prop where
  mem_tunnel_iff : ∀ r, r.interfaceLuid = sys.luid →
    (r ∈ s'.table ↔ r ∈ (refreshed sys afUnspec s).table)
  mem_iff : ∀ r, r.IsForeign sys → (r ∈ s'.table ↔ r ∈ snapshot afUnspec s)
  routeMetric : routeMetric s' = routeMetric (refreshed sys afUnspec s)
  chosen : ∀ e ∈ s'.exclusionRoutes,
    ChosenBy sys (refreshed sys afUnspec s) (snapshot afUnspec s) e.2
  keys : s'.exclusionRoutes.map Prod.fst = s.exclusionRoutes.map Prod.fst
  clonedRoutes : s'.clonedRoutes = (refreshed sys afUnspec s).clonedRoutes
  defaultRouteCapture : s'.defaultRouteCapture = s.defaultRouteCapture

theorem changed_routeChanged (hsucc : ∀ n, sys.succeeds n = true)
    (hdel : ∀ n, sys.deletes n = true) (hluid : sys.luid ≠ 0) (h : Inv sys Tunnel s)
    (hkept : KeptIn s.exclusionRoutes s) : Changed sys s (routeChanged sys s) := by
  have hread := inv_refreshed hdel h afUnspec
  have htunnel := tunnelOnly_refreshed h afUnspec
  obtain ⟨-, honly, hchosen, h4, h6⟩ := @updateExclusionRoutes_spec sys (snapshot afUnspec s) []
    (refreshed sys afUnspec s).exclusionRoutes hdel _ hread.excluding
  obtain ⟨-, hforeign⟩ := @updateExclusionRoutes_kept sys (snapshot afUnspec s) []
    (refreshed sys afUnspec s).exclusionRoutes hsucc hdel _ hread.excluding
    (hkept.refreshed hluid h afUnspec) hread.unique
    fun r hr hown => mem_snapshot h hr hown (.inl rfl)
  rw [routeChanged_eq (hsucc _)]
  refine ⟨honly.mem_iff, fun r hr => ?_, ?_, hchosen, ?_, honly.clonedRoutes, ?_⟩
  · rw [snapshot, List.mem_filter, and_iff_left (decide_eq_true (.inl rfl))]
    exact (hforeign r hr).trans (htunnel.mem_iff r hr.1)
  · funext family row
    simp only [routeMetric, h4, h6]
  · rw [map_fst_updateExclusionRoutes, htunnel.exclusionRoutes]
    rfl
  · exact honly.defaultRouteCapture.trans htunnel.defaultRouteCapture

theorem Changed.outside_eq (h : Changed sys s s') :
    outside sys s' = {r | r ∈ snapshot afUnspec s ∧ r.IsForeign sys ∧
      Connected (refreshed sys afUnspec s) r} := by
  ext r
  show r ∈ s'.table ∧ r.IsForeign sys ∧ Connected s' r ↔ _
  rw [Connected, h.routeMetric]
  constructor
  · rintro ⟨hr, hforeign, hconnected⟩
    exact ⟨(h.mem_iff r hforeign).mp hr, hforeign, hconnected⟩
  · rintro ⟨hr, hforeign, hconnected⟩
    exact ⟨(h.mem_iff r hforeign).mpr hr, hforeign, hconnected⟩

theorem Changed.cost_eq (h : Changed sys s s') : cost s' = cost (refreshed sys afUnspec s) := by
  funext r
  rw [cost, cost, metricOf, metricOf, h.routeMetric]

/-- Which networks are excluded does not depend on where their routes lead. -/
theorem Excluding.isRouteExcluded_eq (h : Excluding sys s.exclusionRoutes s)
    (dest : IpAddressPrefix) :
    isRouteExcluded s dest =
      (s.exclusionRoutes.map Prod.fst).any fun p => routeContainsDest (.ofIPAddress p) dest := by
  rw [isRouteExcluded, List.any_map, Bool.eq_iff_iff, List.any_eq_true, List.any_eq_true]
  refine exists_congr fun e => and_congr_right fun he => ?_
  rw [h.dest e he]
  rfl

theorem Changed.isCapturable_eq (hchanged : Changed sys s s') (h : Inv sys Tunnel s)
    (hinv : Inv sys Tunnel s') (row : Row) :
    isCapturable sys (measured sys afUnspec s) row = isCapturable sys s' row := by
  rw [isCapturable, isCapturable, hinv.excluding.isRouteExcluded_eq, hchanged.keys,
    (inv_measured h afUnspec).excluding.isRouteExcluded_eq]
  rfl

theorem Changed.exists_of_recorded (hchanged : Changed sys s s') (h : Inv sys Tunnel s)
    (hinv : Inv sys Tunnel s') {v : Row} (hv : Recorded s' v) :
    ∃ row ∈ s'.table, isCapturable sys s' row = true ∧ (row.clone sys).same v = true := by
  obtain ⟨c, hc, hsame⟩ := hv
  have hcapture : s.defaultRouteCapture = true := by
    by_contra hoff
    rw [hinv.capturing.off (hchanged.defaultRouteCapture.trans (by simpa using hoff))] at hc
    cases hc
  obtain ⟨hkeys, hvalid, hluid, hnext⟩ := hinv.capturing.records c hc
  rw [hchanged.clonedRoutes] at hc
  obtain ⟨row, hrow, hcapturable, hkey⟩ | ⟨hne, -⟩ :=
    (inv_measured h afUnspec).capturing.mem_update (validRows_snapshot h.wellformed afUnspec) hc
      hcapture
  · have hforeign := isForeign_of_isCapturable hcapturable
    rw [hkeys] at hkey
    have hdest : c.2.destinationPrefix = row.destinationPrefix := destinationPrefix_eq_of_key hvalid
      (validRows_snapshot h.wellformed afUnspec row hrow hforeign) hkey
    have hclone : (row.clone sys).same c.2 = true :=
      Row.same_iff.mpr ⟨hluid.symm, hdest.symm, by rw [hnext, hdest]; rfl⟩
    exact ⟨row, (hchanged.mem_iff row hforeign).mpr hrow,
      (hchanged.isCapturable_eq h hinv row).symm.trans hcapturable, Row.same_trans hclone hsame⟩
  · exact absurd rfl hne

/-- A copy is for a network that no excluded network contains. -/
theorem Changed.not_contains (hchanged : Changed sys s s') (h : Inv sys Tunnel s)
    (hinv : Inv sys Tunnel s') {v : Row} (hv : Recorded s' v) {e : IPAddress × Row}
    (he : e ∈ s'.exclusionRoutes) :
    ¬ networks.Contains e.2.destinationPrefix v.destinationPrefix := by
  obtain ⟨row, hrow, hcapturable, hsame⟩ := hchanged.exists_of_recorded h hinv hv
  have hrowValid := (hinv.wellformed row hrow (isForeign_of_isCapturable hcapturable)).1
  have hdest : v.destinationPrefix = row.destinationPrefix := (Row.same_iff.mp hsame).2.1.symm
  have hdataValid : e.2.destinationPrefix.Valid := by
    rw [hinv.excluding.dest e he]
    exact IpAddressPrefix.valid_ofIPAddress (hinv.excluding.valid e he)
  intro hcontains
  rw [hdest, ← routeContainsDest_iff hdataValid hrowValid] at hcontains
  have hexcluded : isRouteExcluded s' row.destinationPrefix = true :=
    List.any_eq_true.mpr ⟨e, he, hcontains⟩
  simp [isCapturable, hexcluded] at hcapturable

theorem usable_eq (s : State) :
    usable sys s = outside sys s ∪ {r | r ∈ s.table ∧ r.IsMarked} ∪
      {r | r ∈ s.table ∧ r.interfaceLuid = sys.luid} := by
  ext r
  show r ∈ s.table ∧ (r.IsForeign sys → Connected s r) ↔
    ((r ∈ s.table ∧ r.IsForeign sys ∧ Connected s r) ∨ r ∈ s.table ∧ r.IsMarked) ∨
      r ∈ s.table ∧ r.interfaceLuid = sys.luid
  rw [Row.IsForeign]
  tauto

/-- **Excluded networks.** After `routeChanged`, packets to an excluded network go where they would
go without the monitor and the tunnel, if they would go anywhere, and if what else the tunnel routes
is for larger networks. -/
theorem routeChanged_target (hsucc : ∀ n, sys.succeeds n = true)
    (hdel : ∀ n, sys.deletes n = true) (hluid : sys.luid ≠ 0) {events : List Event}
    (hrun : Guarded (step sys) (fun s e => Allowed sys Tunnel s e ∧ Keeps s e) .empty events) :
    let s := routeChanged sys (events.foldl (step sys) .empty)
    ∀ e ∈ s.exclusionRoutes, ∀ a ∈ networks.net (.ofIPAddress e.1),
      (∀ v ∈ s.table, Tunnel v → a ∈ networks.net v.destinationPrefix →
        networks.length v.destinationPrefix < networks.length (.ofIPAddress e.1)) →
      ∀ t ∈ outside sys s, a ∈ networks.net t.destinationPrefix →
        ∀ r, Forwarding.Best networks Row.destinationPrefix (cost s) (usable sys s) a r →
          ∃ t', Forwarding.Best networks Row.destinationPrefix (cost s) (outside sys s) a t' ∧
            r.target = t'.target := by
  obtain ⟨h, hkept⟩ := kept_run hsucc hdel hluid hrun
  have hinv := inv_routeChanged hdel h
  have hkept' := kept_routeChanged hsucc hdel hluid h hkept.exclusions
  have hchanged := changed_routeChanged hsucc hdel hluid h hkept.exclusions
  generalize events.foldl (step sys) .empty = s at *
  generalize routeChanged sys s = s' at *
  have hvalid : ValidRows sys (snapshot afUnspec s) := validRows_snapshot h.wellformed afUnspec
  have hsnapshot : Wellformed sys (snapshot afUnspec s) := fun r hr =>
    h.wellformed r (List.mem_filter.mp hr).1
  have hdataValid : ∀ e ∈ s'.exclusionRoutes, e.2.destinationPrefix.Valid := by
    intro e he
    rw [hinv.excluding.dest e he]
    exact IpAddressPrefix.valid_ofIPAddress (hinv.excluding.valid e he)
  intro s' e he a ha hlonger t ht hat r hr
  have husable : usable sys s' = outside sys s' ∪ {r | r ∈ s'.table ∧ r.IsMarked} ∪
      {r | r ∈ s'.table ∧ r.interfaceLuid = sys.luid} := usable_eq s'
  rw [husable] at hr
  refine @Forwarding.target_of_best _ _ _ _ networks Row.destinationPrefix (cost s')
    (outside sys s') {r | r ∈ s'.table ∧ r.IsMarked} {r | r ∈ s'.table ∧ r.interfaceLuid = sys.luid}
    a _ r Row.target {p | ∃ e ∈ s'.exclusionRoutes, .ofIPAddress e.1 = p}
    ?_ ?_ ?_ ⟨e, he, rfl⟩ ha ?_ t ht hat hr
  · -- the route of an entry leads where the best route for its network leads
    rintro x ⟨hx, hmark⟩
    obtain ⟨e', he', hne, hsame⟩ := hinv.excluding.marked x hx hmark
    obtain ⟨hluid', hdest', hnext'⟩ := Row.same_iff.mp hsame
    obtain ⟨hbest, hnexthop⟩ := hchanged.chosen e' he'
    rw [hbest] at hne
    obtain ⟨t', hfor, ht', hnext⟩ := exists_bestFor (hinv.excluding.isMarked e' he')
      (hdataValid e' he') hvalid hne
    rw [← hchanged.outside_eq, ← hchanged.cost_eq, hdest'] at hfor
    refine ⟨t', hfor, ?_⟩
    rw [Row.target, Row.target, ← hluid', ← hnext', hbest, hnexthop, ht', hnext]
  · -- a network with a best route for a larger one has a route of its own
    rintro p ⟨e', he', rfl⟩ t' hfor hshort
    rw [← hinv.excluding.dest e' he'] at hfor hshort ⊢
    rw [hchanged.outside_eq, hchanged.cost_eq] at hfor
    have hne := bestLuid_ne_zero (hinv.excluding.isMarked e' he') (hdataValid e' he') hsnapshot
      hfor hshort
    rw [← (hchanged.chosen e' he').1] at hne
    exact ⟨e'.2, ⟨hkept' e' he' hne, hinv.excluding.isMarked e' he'⟩, rfl⟩
  · exact (List.finite_toSet s'.table).subset fun r hr => hr.1
  · -- the tunnel's own routes are for larger networks, and the copies do not lie in this one
    rintro v ⟨hv, htunnel⟩ hav
    rcases hinv.capturing.known v hv htunnel with htunnel | hrecorded
    · exact hlonger v hv htunnel hav
    · by_contra hlong
      refine hchanged.not_contains h hinv hrecorded he ?_
      rw [hinv.excluding.dest e he]
      exact @Forwarding.Prefixes.Contains.of_mem _ _ _ networks id a v.destinationPrefix
        (.ofIPAddress e.1) ha hav (not_lt.mp hlong)

/-- The route for 10.0.0.0/8 over interface 7. -/
def tenRoute : Row :=
  { exclusionRow ten with interfaceLuid := 7, nextHop := defaultRoute.nextHop }

theorem excludeTen_guarded :
    Guarded (step host) (fun s e => Allowed host (· = tunnelRoute) s e ∧ Keeps s e) .empty
      excludeTen :=
  ⟨⟨systemChange_host, List.forall_mem_nil _⟩, ⟨trivial, trivial⟩, ⟨valid_ten, trivial⟩, trivial⟩

theorem routeChanged_target_ten :
    let s := routeChanged host (excludeTen.foldl (step host) .empty)
    ∃ t, Forwarding.Best networks Row.destinationPrefix (cost s) (outside host s)
        (afInet, addrBit [10, 1, 2, 3]) t ∧ tenRoute.target = t.target := by
  intro s
  have htable : s.table = [defaultRoute, tunnelRoute, tenRoute] := by decide
  have hroutes : s.exclusionRoutes = [(ten, tenRoute)] := rfl
  refine @routeChanged_target host (· = tunnelRoute) (fun _ => rfl) (fun _ => rfl) (by decide)
    excludeTen excludeTen_guarded (ten, tenRoute) (hroutes ▸ List.mem_singleton_self _)
    (afInet, addrBit [10, 1, 2, 3]) ?_ ?_ defaultRoute ?_ ?_ tenRoute ?_
  · exact ⟨rfl, show ∀ i < 8, addrBit [10, 1, 2, 3] i = addrBit [10, 0, 0, 0] i by decide⟩
  · rintro v - rfl -
    decide
  · exact ⟨by decide, ⟨by decide, by decide⟩, rfl⟩
  · exact ⟨rfl, fun i hi => absurd hi (Nat.not_lt_zero i)⟩
  · refine ⟨⟨by decide, fun h => absurd ⟨rfl, rfl⟩ h.2⟩,
      ⟨rfl, show ∀ i < 8, addrBit [10, 1, 2, 3] i = addrBit [10, 0, 0, 0] i by decide⟩,
      fun r hr _ => ?_⟩
    have hr : r ∈ [defaultRoute, tunnelRoute, tenRoute] := htable ▸ hr.1
    simp only [List.mem_cons, List.not_mem_nil, or_false] at hr
    rcases hr with rfl | rfl | rfl
    · exact Prod.Lex.toLex_le_toLex.mpr (.inl (by decide))
    · exact Prod.Lex.toLex_le_toLex.mpr (.inl (by decide))
    · exact le_rfl

/-- **Captured routes.** When routes are captured, the routes into the tunnel are after
`routeChanged` its own and the copies of the routes of the system that are capturable, and each of
these has a copy. -/
theorem routeChanged_captures (hsucc : ∀ n, sys.succeeds n = true)
    (hdel : ∀ n, sys.deletes n = true) (hluid : sys.luid ≠ 0) {events : List Event}
    (hrun : Guarded (step sys) (fun s e => Allowed sys Tunnel s e ∧ Keeps s e) .empty events) :
    let s := routeChanged sys (events.foldl (step sys) .empty)
    s.defaultRouteCapture = true →
      (∀ row ∈ s.table, isCapturable sys s row = true →
        ∃ v ∈ s.table, (row.clone sys).same v = true) ∧
      ∀ v ∈ s.table, v.interfaceLuid = sys.luid →
        Tunnel v ∨
          ∃ row ∈ s.table, isCapturable sys s row = true ∧ (row.clone sys).same v = true := by
  obtain ⟨h, hkept⟩ := kept_run hsucc hdel hluid hrun
  have hinv := inv_routeChanged hdel h
  have hchanged := changed_routeChanged hsucc hdel hluid h hkept.exclusions
  generalize events.foldl (step sys) .empty = s at *
  generalize routeChanged sys s = s' at *
  intro s' hcapture
  constructor
  · intro row hrow hcapturable
    have hon : s.defaultRouteCapture = true := hchanged.defaultRouteCapture.symm.trans hcapture
    obtain ⟨-, hcomplete⟩ := @updateCapturedRoutes_complete sys (measured sys afUnspec s)
      afUnspec Tunnel (snapshot afUnspec s) hsucc hdel (inv_measured h afUnspec).capturing
      hkept.copies (validRows_snapshot h.wellformed afUnspec) hon
    obtain ⟨v, hv, hsame⟩ := hcomplete row
      ((hchanged.mem_iff row (isForeign_of_isCapturable hcapturable)).mp hrow)
      ((hchanged.isCapturable_eq h hinv row).trans hcapturable)
    exact ⟨v, (hchanged.mem_tunnel_iff v (Row.same_iff.mp hsame).1.symm).mpr hv, hsame⟩
  · intro v hv htunnel
    exact (hinv.capturing.known v hv htunnel).imp_right (hchanged.exists_of_recorded h hinv)

/-- 172.16.0.0/12, over interface 7 too. -/
def officeRoute : Row :=
  { defaultRoute with
    destinationPrefix := { siFamily := afInet, addr := [172, 16, 0, 0], prefixLength := 12 } }

def captureOffice : List Event :=
  [.system [defaultRoute, tunnelRoute, officeRoute]
      [{ family := afInet, interfaceLuid := 7, connected := true, metric := 10 }],
    .setDetaultRouteCapture true, .addExclusionRoute ten]

theorem systemChange_office :
    SystemChange host (· = tunnelRoute) .empty [defaultRoute, tunnelRoute, officeRoute] where
  unique := by decide
  wellformed := by
    rw [Wellformed, List.forall_mem_cons, List.forall_mem_cons, List.forall_mem_singleton]
    exact ⟨fun _ => ⟨.inl (by decide), by decide⟩, fun h => absurd rfl h.1,
      fun _ => ⟨.inl (by decide), by decide⟩⟩
  own := by
    rw [List.forall_mem_cons, List.forall_mem_cons, List.forall_mem_singleton]
    exact ⟨.inl ⟨by decide, by decide⟩, .inr (.inl ⟨rfl, by decide⟩), .inl ⟨by decide, by decide⟩⟩

theorem routeChanged_captures_office :
    let s := routeChanged host (captureOffice.foldl (step host) .empty)
    (officeRoute ∈ s.table ∧ isCapturable host s officeRoute = true) ∧
      (∀ row ∈ s.table, isCapturable host s row = true →
        ∃ v ∈ s.table, (row.clone host).same v = true) ∧
      ∀ v ∈ s.table, v.interfaceLuid = host.luid →
        v = tunnelRoute ∨
          ∃ row ∈ s.table, isCapturable host s row = true ∧ (row.clone host).same v = true :=
  ⟨⟨by decide, by decide⟩,
    routeChanged_captures (fun _ => rfl) (fun _ => rfl) (by decide)
      (show Guarded _ _ _ captureOffice from ⟨⟨systemChange_office, List.forall_mem_nil _⟩,
        ⟨trivial, trivial⟩, ⟨valid_ten, trivial⟩, trivial⟩) rfl⟩

/-! ## The routes of the system -/

/-- A route that was created is none of the system. -/
theorem not_same_of_foreign (h : Inv sys Tunnel s) (hkept : KeptIn s.exclusionRoutes s)
    {e : IPAddress × Row} (he : e ∈ s.exclusionRoutes) (hr : r ∈ s.table)
    (hforeign : r.IsForeign sys) : e.2.same r = false := by
  by_contra hsame
  have hsame := Bool.eq_true_of_not_eq_false hsame
  by_cases h0 : e.2.interfaceLuid = 0
  · exact (h.wellformed r hr hforeign).2 ((Row.same_iff.mp hsame).1.symm.trans h0)
  · have heq := h.unique.eq (hkept e he h0) hr hsame
    exact hforeign.2 (heq ▸ h.excluding.isMarked e he)

theorem mem_foreign_flushExclusionRoutes (hdel : ∀ n, sys.deletes n = true)
    (h : Inv sys Tunnel s) (hkept : KeptIn s.exclusionRoutes s) (hforeign : r.IsForeign sys) :
    r ∈ (flushExclusionRoutes sys s).table ↔ r ∈ s.table := by
  refine (mem_table_deleteAll hdel _ s r).trans (and_iff_left_of_imp fun hr e he => ?_)
  exact not_same_of_foreign h hkept he hr hforeign

theorem mem_foreign_step (hsucc : ∀ n, sys.succeeds n = true) (hdel : ∀ n, sys.deletes n = true)
    (hluid : sys.luid ≠ 0) (h : Inv sys Tunnel s) (hkept : KeptIn s.exclusionRoutes s)
    (hforeign : r.IsForeign sys) {e : Event}
    (he : ∀ table interfaces, e ≠ .system table interfaces) :
    r ∈ (step sys s e).table ↔ r ∈ s.table := by
  cases e with
  | system table interfaces => exact absurd rfl (he table interfaces)
  | addExclusionRoute range =>
    rcases addExclusionRoute_cases range s with ⟨calls, heq⟩ | ⟨family, -, -, heq⟩
    · rw [step, heq]
    · rw [step, heq]
      exact (mem_foreign_update hdel (inv_refreshed hdel h family).unique ⟨rfl, rfl⟩
        (fun hne => absurd rfl hne) hforeign).trans
        ((tunnelOnly_refreshed h family).mem_iff r hforeign.1)
  | deleteExclusionRoute range =>
    rcases deleteExclusionRoute_cases range s with heq | ⟨key, data, calls, hfind, heq⟩
    · rw [step, heq]
    · rw [step, heq]
      refine (mem_table_delete hdel).trans (and_iff_left_of_imp fun hr => ?_)
      exact not_same_of_foreign h hkept (List.mem_of_find?_eq_some hfind) hr hforeign
  | flushExclusionRoutes => exact mem_foreign_flushExclusionRoutes hdel h hkept hforeign
  | setDetaultRouteCapture enable =>
    cases enable with
    | true => exact Iff.rfl
    | false =>
      have honly : TunnelOnly sys { s with defaultRouteCapture := false }
          (flushClonedRoutes sys { s with defaultRouteCapture := false }) :=
        tunnelOnly_flushClonedRoutes h.capturing.records
      exact honly.mem_iff r hforeign.1
  | routeChanged =>
    refine ((changed_routeChanged hsucc hdel hluid h hkept).mem_iff r hforeign).trans ?_
    rw [snapshot, List.mem_filter, and_iff_left (decide_eq_true (.inl rfl))]

/-- **The routes of the system stay.** No call of the monitor and not its destructor adds or removes
one. -/
theorem mem_foreign_run (hsucc : ∀ n, sys.succeeds n = true) (hdel : ∀ n, sys.deletes n = true)
    (hluid : sys.luid ≠ 0) {events : List Event}
    (hrun : Guarded (step sys) (fun s e => Allowed sys Tunnel s e ∧ Keeps s e) .empty events) :
    let s := events.foldl (step sys) .empty
    ∀ r : Row, r.IsForeign sys →
      (∀ e : Event, (∀ table interfaces, e ≠ .system table interfaces) →
        (r ∈ (step sys s e).table ↔ r ∈ s.table)) ∧
      (r ∈ (destroy sys s).table ↔ r ∈ s.table) := by
  obtain ⟨h, hkept⟩ := kept_run hsucc hdel hluid hrun
  intro s r hforeign
  refine ⟨fun e he => mem_foreign_step hsucc hdel hluid h hkept.exclusions hforeign he, ?_⟩
  have hflush := inv_flushExclusionRoutes hdel hluid h
  have honly := tunnelOnly_flushClonedRoutes hflush.capturing.records
  exact (honly.mem_iff r hforeign.1).trans
    (mem_foreign_flushExclusionRoutes hdel h hkept.exclusions hforeign)

theorem mem_foreign_run_ten :
    (∀ e : Event, (∀ table interfaces, e ≠ .system table interfaces) →
      (defaultRoute ∈ (step host (excludeTen.foldl (step host) .empty) e).table ↔
        defaultRoute ∈ (excludeTen.foldl (step host) .empty).table)) ∧
    (defaultRoute ∈ (destroy host (excludeTen.foldl (step host) .empty)).table ↔
      defaultRoute ∈ (excludeTen.foldl (step host) .empty).table) :=
  mem_foreign_run (fun _ => rfl) (fun _ => rfl) (by decide) excludeTen_guarded defaultRoute
    ⟨by decide, by decide⟩

end Targets

end WgDesktop.WindowsRouteMonitor
