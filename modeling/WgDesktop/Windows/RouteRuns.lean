import WgDesktop.Windows.ExclusionRoutes

/-!
# Runs of the route monitor

The calls of `WindowsRouteMonitor` in any order, and between them what the system does to its
routes and interfaces. `Inv` holds after every call, `inv_run`. So no route of the monitor is left
when it is destroyed.
-/

namespace WgDesktop.WindowsRouteMonitor

open Bytes BitPrefix PiNat Runs

section Runs

variable {sys : System} {Tunnel : Row → Prop} {s s' : State} {data r : Row} {table : List Row}
  {family : BitVec 16} {entries : List (IPAddress × Row)}

/-! ## What the calls do to rows that are not theirs -/

theorem mem_of_mem_delete (hr : r ∈ (deleteIpForwardEntry2 sys data s).table) : r ∈ s.table := by
  rw [deleteIpForwardEntry2] at hr
  simp only at hr
  split_ifs at hr
  · exact (List.mem_filter.mp hr).1
  · exact hr

theorem mem_of_mem_updateCapturedRoutes
    (hr : r ∈ (updateCapturedRoutes sys family table s).table) (hmark : r.IsMarked) :
    r ∈ s.table := by
  rw [updateCapturedRoutes] at hr
  split_ifs at hr
  · exact hr
  · have hcapture : r ∈ (table.foldl (captureRow sys) s).table → r ∈ s.table := by
      refine @foldl_invariant _ _ (captureRow sys) (fun s' => r ∈ s'.table → r ∈ s.table) ?_ s id
        table
      intro s' row hs' hr
      rcases captureRow_cases s' row with ⟨htable, -⟩ | ⟨htable, -⟩
      · exact hs' (htable ▸ hr)
      · rw [htable, List.mem_append, List.mem_singleton] at hr
        rcases hr with hr | rfl
        · exact hs' hr
        · exact absurd hmark.2 (show (0 : BitVec 32) ≠ exclusionRouteMetric by decide)
    generalize table.foldl (captureRow sys) s = s' at hr hcapture
    refine hcapture (@foldl_invariant _ _ (sweep sys family)
      (fun s'' => r ∈ s''.table → r ∈ s'.table) ?_ { s' with clonedRoutes := [] } id
      s'.clonedRoutes hr)
    intro s'' e hs'' hr
    rw [sweep] at hr
    split_ifs at hr
    · exact hs'' hr
    · exact hs'' (mem_of_mem_delete hr)

theorem mem_of_mem_updateExclusionRoute (hdata : data.IsMarked)
    (hr : r ∈ (updateExclusionRoute sys data table s).2.table) (hmark : ¬ r.IsMarked) :
    r ∈ s.table := by
  rcases updateExclusionRoute_cases data table s with ⟨heq, -⟩ | heq
  · rwa [heq] at hr
  · rw [heq] at hr
    rcases mem_table_created hr with hr | ⟨-, rfl⟩
    · rw [cleared] at hr
      split_ifs at hr
      · exact mem_of_mem_delete hr
      · exact hr
    · exact absurd hdata hmark

theorem mem_of_mem_updateExclusionRoutes (hentries : ∀ e ∈ entries, e.2.IsMarked)
    (hr : r ∈ (updateExclusionRoutes sys table entries s).2.table) (hmark : ¬ r.IsMarked) :
    r ∈ s.table := by
  induction entries generalizing s with
  | nil => exact hr
  | cons e entries ih =>
    rw [List.forall_mem_cons] at hentries
    exact mem_of_mem_updateExclusionRoute hentries.1 (ih hentries.2 hr) hmark

theorem mem_table_deleteAll (hdel : ∀ n, sys.deletes n = true) (entries : List (IPAddress × Row))
    (s : State) (r : Row) :
    r ∈ (deleteAll sys entries s).table ↔ r ∈ s.table ∧ ∀ e ∈ entries, e.2.same r = false := by
  induction entries generalizing s with
  | nil => simp [deleteAll]
  | cons e entries ih =>
    rw [deleteAll, List.foldl_cons, ← deleteAll, ih, mem_table_delete hdel, List.forall_mem_cons,
      and_assoc]

theorem exclusionOnly_deleteAll (h : ∀ e ∈ entries, e.2.interfaceLuid ≠ sys.luid) (s : State) :
    ExclusionOnly sys s (deleteAll sys entries s) := by
  induction entries generalizing s with
  | nil => exact .refl s
  | cons e entries ih =>
    rw [List.forall_mem_cons] at h
    exact (exclusionOnly_delete h.1 s).trans (ih h.2 _)

theorem tunnelOnly_flushClonedRoutes (h : Records sys s) :
    TunnelOnly sys s (flushClonedRoutes sys s) :=
  (tunnelOnly_foldl (fun s e he => tunnelOnly_delete (h e he).2.2.1 s) s).setClonedRoutes []

/-! ## The events -/

inductive Event
  /-- The routes and interfaces of the system are others, or the daemon set routes of the tunnel. -/
  | system (table : List Row) (interfaces : List InterfaceRow)
  | addExclusionRoute (range : IPAddress)
  | deleteExclusionRoute (range : IPAddress)
  | flushExclusionRoutes
  | setDetaultRouteCapture (enable : Bool)
  | routeChanged

variable (sys) in
def step (s : State) : Event → State
  | .system table interfaces => { s with table, interfaces }
  | .addExclusionRoute range => (addExclusionRoute sys range s).2
  | .deleteExclusionRoute range => (deleteExclusionRoute sys range s).2
  | .flushExclusionRoutes => flushExclusionRoutes sys s
  | .setDetaultRouteCapture enable => setDetaultRouteCapture sys enable s
  | .routeChanged => routeChanged sys s

variable (sys) in
/-- The rows of the system are for networks, and on interfaces. -/
def Wellformed (table : List Row) : Prop :=
  ∀ r ∈ table, r.IsForeign sys → r.destinationPrefix.Valid ∧ r.interfaceLuid ≠ 0

variable (sys Tunnel) in
/-- Only the monitor makes routes with its mark, and but for the tunnel's own all routes into it. -/
structure SystemChange (s : State) (table : List Row) : Prop where
  unique : table.Pairwise fun r r' => r.same r' = false
  wellformed : Wellformed sys table
  own : ∀ r ∈ table, r.IsForeign sys ∨ Tunnel r ∧ ¬ r.IsMarked ∨ r ∈ s.table

variable (sys Tunnel) in
/-- What may happen. A network that is no more excluded needs a table that can be read, as the
monitor does not look whether it could. -/
def Allowed (s : State) : Event → Prop
  | .system table _ => SystemChange sys Tunnel s table
  | .addExclusionRoute range => range.Valid
  | .deleteExclusionRoute _ => s.defaultRouteCapture = true → sys.succeeds (s.calls + 1) = true
  | _ => True

/-! ## The invariant -/

variable (sys Tunnel) in
/-- What holds between two calls. -/
structure Inv (s : State) : Prop where
  excluding : Excluding sys s.exclusionRoutes s
  capturing : Capturing sys Tunnel s
  unique : Unique s
  wellformed : Wellformed sys s.table

theorem Excluding.mono (h : Excluding sys entries s)
    (hmarked : ∀ r ∈ s'.table, r.IsMarked → r ∈ s.table) : Excluding sys entries s' where
  valid := h.valid
  dest := h.dest
  isMarked := h.isMarked
  ne_tunnel := h.ne_tunnel
  keys := h.keys
  marked r hr hmark := h.marked r (hmarked r hr hmark) hmark

theorem Excluding.luid_ne (hluid : sys.luid ≠ 0) (h : Excluding sys entries s) :
    ∀ e ∈ entries, e.2.interfaceLuid ≠ sys.luid := by
  intro e he
  by_cases h0 : e.2.interfaceLuid = 0
  · rw [h0]
    exact hluid.symm
  · exact h.ne_tunnel e he h0

theorem Inv.congr (h : Inv sys Tunnel s) (htable : s'.table = s.table)
    (hexclusions : s'.exclusionRoutes = s.exclusionRoutes)
    (hclones : s'.clonedRoutes = s.clonedRoutes)
    (hcapture : s'.defaultRouteCapture = s.defaultRouteCapture) : Inv sys Tunnel s' where
  excluding := by
    rw [hexclusions]
    exact h.excluding.mono fun r hr _ => htable ▸ hr
  capturing :=
    { records := by
        rw [Records, hclones]
        exact h.capturing.records
      age := by
        rw [hclones]
        exact h.capturing.age
      known := by
        rw [Known, htable]
        simp only [Recorded, hclones]
        exact h.capturing.known
      off := by
        rw [hcapture, hclones]
        exact h.capturing.off }
  unique := by
    rw [Unique, htable]
    exact h.unique
  wellformed := by
    rw [htable]
    exact h.wellformed

theorem inv_system (h : Inv sys Tunnel s) (hchange : SystemChange sys Tunnel s table)
    (interfaces : List InterfaceRow) : Inv sys Tunnel { s with table, interfaces } where
  excluding := by
    refine h.excluding.mono fun r hr hmark => ?_
    rcases hchange.own r hr with hforeign | ⟨-, hno⟩ | hr
    · exact absurd hmark hforeign.2
    · exact absurd hmark hno
    · exact hr
  capturing :=
    { records := h.capturing.records
      age := h.capturing.age
      known := by
        intro r hr htunnel
        rcases hchange.own r hr with hforeign | ⟨hr, -⟩ | hr
        · exact absurd htunnel hforeign.1
        · exact .inl hr
        · exact h.capturing.known r hr htunnel
      off := h.capturing.off }
  unique := hchange.unique
  wellformed := hchange.wellformed

/-! ### Reading the table -/

/-- The rows that `GetIpForwardTable2` returns. -/
def snapshot (family : BitVec 16) (s : State) : List Row :=
  s.table.filter fun r => family = afUnspec ∨ r.destinationPrefix.siFamily = family

variable (sys) in
/-- The state with the metrics of the interfaces. -/
def measured (family : BitVec 16) (s : State) : State :=
  updateInterfaceMetrics sys family { s with calls := s.calls + 1 }

variable (sys) in
/-- The state with the metrics and the copies. -/
def refreshed (family : BitVec 16) (s : State) : State :=
  updateCapturedRoutes sys family (snapshot family s) (measured sys family s)

theorem inv_measured (h : Inv sys Tunnel s) (family : BitVec 16) :
    Inv sys Tunnel (measured sys family s) := h.congr rfl rfl rfl rfl

theorem validRows_snapshot (h : Wellformed sys s.table) (family : BitVec 16) :
    ValidRows sys (snapshot family s) := fun r hr hforeign =>
  (h r (List.mem_filter.mp hr).1 hforeign).1

theorem tunnelOnly_refreshed (h : Inv sys Tunnel s) (family : BitVec 16) :
    TunnelOnly sys (measured sys family s) (refreshed sys family s) :=
  (inv_measured h family).capturing.tunnelOnly (validRows_snapshot h.wellformed family)

theorem inv_refreshed (hdel : ∀ n, sys.deletes n = true) (h : Inv sys Tunnel s)
    (family : BitVec 16) : Inv sys Tunnel (refreshed sys family s) where
  excluding := by
    rw [(tunnelOnly_refreshed h family).exclusionRoutes]
    exact h.excluding.mono fun r hr hmark =>
      mem_of_mem_updateCapturedRoutes (s := measured sys family s) hr hmark
  capturing :=
    (inv_measured h family).capturing.update hdel (validRows_snapshot h.wellformed family)
  unique := (tunnelOnly_refreshed h family).unique h.unique
  wellformed r hr hforeign :=
    h.wellformed r (((tunnelOnly_refreshed h family).mem_iff r hforeign.1).mp hr) hforeign

/-! ### The calls -/

theorem addExclusionRoute_cases (range : IPAddress) (s : State) :
    (∃ calls, (addExclusionRoute sys range s).2 = { s with calls }) ∨
      ∃ family, (s.exclusionRoutes.any (·.1 == range)) = false ∧
        family = (IpAddressPrefix.ofIPAddress range).siFamily ∧
        (addExclusionRoute sys range s).2 =
          { (updateExclusionRoute sys (exclusionRow range) (snapshot family s)
              (refreshed sys family s)).2 with
            exclusionRoutes :=
              (range, (updateExclusionRoute sys (exclusionRow range) (snapshot family s)
                (refreshed sys family s)).1) ::
              (updateExclusionRoute sys (exclusionRow range) (snapshot family s)
                (refreshed sys family s)).2.exclusionRoutes } := by
  rw [addExclusionRoute]
  split_ifs with hroutable hknown
  · exact .inl ⟨s.calls, rfl⟩
  · exact .inl ⟨s.calls, rfl⟩
  · simp only [getIpForwardTable2]
    cases sys.succeeds s.calls with
    | false => exact .inl ⟨_, rfl⟩
    | true => exact .inr ⟨_, Bool.eq_false_iff.mpr hknown, rfl, rfl⟩

theorem routeChanged_eq (hsucc : sys.succeeds s.calls = true) :
    routeChanged sys s =
      { (updateExclusionRoutes sys (snapshot afUnspec s) (refreshed sys afUnspec s).exclusionRoutes
          (refreshed sys afUnspec s)).2 with
        exclusionRoutes :=
          (updateExclusionRoutes sys (snapshot afUnspec s)
            (refreshed sys afUnspec s).exclusionRoutes (refreshed sys afUnspec s)).1 } := by
  rw [routeChanged, getIpForwardTable2, hsucc]
  rfl

/-- Without the table, nothing happens. -/
theorem routeChanged_of_not (hsucc : sys.succeeds s.calls = false) :
    routeChanged sys s = { s with calls := s.calls + 1 } := by
  rw [routeChanged, getIpForwardTable2, hsucc]
  rfl

/-- The networks differ, and so the first row is another network's. -/
theorem Excluding.cons (h : Excluding sys entries s) {range : IPAddress} (hvalid : range.Valid)
    (hnew : (entries.any (·.1 == range)) = false) :
    Excluding sys ((range, exclusionRow range) :: entries) s where
  valid := List.forall_mem_cons.mpr ⟨hvalid, h.valid⟩
  dest := List.forall_mem_cons.mpr ⟨rfl, h.dest⟩
  isMarked := List.forall_mem_cons.mpr ⟨⟨rfl, rfl⟩, h.isMarked⟩
  ne_tunnel := List.forall_mem_cons.mpr ⟨fun hne => absurd rfl hne, h.ne_tunnel⟩
  keys := by
    rw [List.map_cons, List.pairwise_cons]
    refine ⟨fun p hp => ?_, h.keys⟩
    obtain ⟨e, he, rfl⟩ := List.mem_map.mp hp
    rw [IPAddress.beq_comm]
    exact Bool.eq_false_iff.mpr (List.any_eq_false.mp hnew e he)
  marked r hr hmark := by
    obtain ⟨e, he, hsame⟩ := h.marked r hr hmark
    exact ⟨e, List.mem_cons_of_mem _ he, hsame⟩

variable (sys) in
theorem exclusionOnly_exclusionRow (range : IPAddress) (table : List Row) (s : State) :
    ExclusionOnly sys s (updateExclusionRoute sys (exclusionRow range) table s).2 :=
  exclusionOnly_update (fun hne => absurd rfl hne) table s

theorem inv_addExclusionRoute (hdel : ∀ n, sys.deletes n = true) (h : Inv sys Tunnel s)
    {range : IPAddress} (hvalid : range.Valid) :
    Inv sys Tunnel (addExclusionRoute sys range s).2 := by
  rcases addExclusionRoute_cases range s with ⟨calls, heq⟩ | ⟨family, hnew, -, heq⟩
  · rw [heq]
    exact h.congr rfl rfl rfl rfl
  · rw [heq]
    have hread := inv_refreshed hdel h family
    rw [← show (refreshed sys family s).exclusionRoutes = s.exclusionRoutes from
      (tunnelOnly_refreshed h family).exclusionRoutes] at hnew
    have hcons := hread.excluding.cons hvalid hnew
    have honly := exclusionOnly_exclusionRow sys range (snapshot family s) (refreshed sys family s)
    obtain ⟨hmembers, -⟩ := @updateExclusionRoute_members sys (exclusionRow range)
      (snapshot family s) (refreshed sys family s)
    refine ⟨?_, ?_, honly.unique hread.unique, fun r hr hforeign => ?_⟩
    · simp only [hmembers]
      exact (@Excluding.update sys _ _ range [] _ hdel hcons (snapshot family s)).mono
        fun r hr _ => hr
    · exact ⟨(hread.capturing.exclusionOnly honly).records,
        (hread.capturing.exclusionOnly honly).age, (hread.capturing.exclusionOnly honly).known,
        (hread.capturing.exclusionOnly honly).off⟩
    · exact hread.wellformed r
        (mem_of_mem_updateExclusionRoute ⟨rfl, rfl⟩ hr hforeign.2) hforeign

theorem inv_routeChanged (hdel : ∀ n, sys.deletes n = true) (h : Inv sys Tunnel s) :
    Inv sys Tunnel (routeChanged sys s) := by
  cases hsucc : sys.succeeds s.calls with
  | false =>
    rw [routeChanged_of_not hsucc]
    exact h.congr rfl rfl rfl rfl
  | true =>
    rw [routeChanged_eq hsucc]
    have hread := inv_refreshed hdel h afUnspec
    obtain ⟨hexcluding, honly, -⟩ := @updateExclusionRoutes_spec sys (snapshot afUnspec s) []
      (refreshed sys afUnspec s).exclusionRoutes hdel _ hread.excluding
    have hcapturing := hread.capturing.exclusionOnly honly
    exact ⟨hexcluding.mono fun r hr _ => hr,
      ⟨hcapturing.records, hcapturing.age, hcapturing.known, hcapturing.off⟩,
      honly.unique hread.unique, fun r hr hforeign => hread.wellformed r
        (mem_of_mem_updateExclusionRoutes hread.excluding.isMarked hr hforeign.2) hforeign⟩

theorem IpAddressPrefix.ofIPAddress_congr {p q : IPAddress} (h : (p == q) = true) :
    ofIPAddress p = ofIPAddress q := by
  obtain ⟨address, n⟩ := p
  obtain ⟨address', n'⟩ := q
  change (address == address' && n == n') = true at h
  rw [Bool.and_eq_true, QHostAddress.beq_iff, beq_iff_eq] at h
  obtain ⟨⟨hprotocol, hbits⟩, rfl⟩ := h
  cases address <;> cases address' <;>
    simp only [QHostAddress.protocol, QHostAddress.bit, getMsbD_injective.eq_iff,
      reduceCtorEq] at hprotocol hbits <;>
    simp only [ofIPAddress, hbits]

theorem IPAddress.beq_trans {p q r : IPAddress} (h : (p == q) = true) (h' : (q == r) = true) :
    (p == r) = true := by
  change (p.address == q.address && p.prefixLength == q.prefixLength) = true at h
  change (q.address == r.address && q.prefixLength == r.prefixLength) = true at h'
  show (p.address == r.address && p.prefixLength == r.prefixLength) = true
  rw [Bool.and_eq_true, QHostAddress.beq_iff, beq_iff_eq] at *
  exact ⟨⟨h.1.1.trans h'.1.1, h.1.2.trans h'.1.2⟩, h.2.trans h'.2⟩

/-- The entries that remain when one is taken out are those for other networks. -/
theorem Excluding.mem_filter (h : Excluding sys entries s) {range key : IPAddress}
    (hfind : entries.find? (·.1 == range) = some (key, data)) {e : IPAddress × Row} :
    e ∈ entries.filter (fun e => !(e.1 == range)) ↔
      e ∈ entries ∧ e.2.destinationPrefix ≠ data.destinationPrefix := by
  have hmem : (key, data) ∈ entries := List.mem_of_find?_eq_some hfind
  have hkey : (key == range) = true := @List.find?_some _ _ (key, data) _ hfind
  rw [List.mem_filter]
  refine and_congr_right fun he => ?_
  rw [Bool.not_eq_true', h.dest e he,
    show data.destinationPrefix = .ofIPAddress key from h.dest _ hmem]
  constructor
  · intro hne hdest
    have heq := IPAddress.beq_trans
      (IpAddressPrefix.beq_of_ofIPAddress (h.valid e he) (h.valid _ hmem) hdest) hkey
    rw [hne] at heq
    cases heq
  · intro hdest
    refine Bool.eq_false_iff.mpr fun heq => hdest ?_
    rw [IpAddressPrefix.ofIPAddress_congr heq, IpAddressPrefix.ofIPAddress_congr hkey]

theorem Excluding.sublist {entries' : List (IPAddress × Row)} (h : Excluding sys entries s)
    (hsub : entries'.Sublist entries) (hmarked : MarkedIn entries' s') :
    Excluding sys entries' s' where
  valid e he := h.valid e (hsub.mem he)
  dest e he := h.dest e (hsub.mem he)
  isMarked e he := h.isMarked e (hsub.mem he)
  ne_tunnel e he := h.ne_tunnel e (hsub.mem he)
  keys := h.keys.sublist (hsub.map _)
  marked := hmarked

/-- Nothing was excluded, or the entry for the network goes and its route with it. -/
theorem deleteExclusionRoute_cases (range : IPAddress) (s : State) :
    (deleteExclusionRoute sys range s).2 = s ∨
      ∃ key data calls, s.exclusionRoutes.find? (·.1 == range) = some (key, data) ∧
        (deleteExclusionRoute sys range s).2 =
          { deleteIpForwardEntry2 sys data s with
            calls
            exclusionRoutes := s.exclusionRoutes.filter fun e => !(e.1 == range) } := by
  rw [deleteExclusionRoute]
  cases hfind : s.exclusionRoutes.find? (·.1 == range) with
  | none => exact .inl rfl
  | some e =>
    obtain ⟨key, data⟩ := e
    simp only [fetchCapturedRoutes]
    split_ifs
    · exact .inr ⟨key, data, _, rfl, rfl⟩
    · exact .inr ⟨key, data, _, rfl, rfl⟩

theorem inv_deleteExclusionRoute (hdel : ∀ n, sys.deletes n = true) (hluid : sys.luid ≠ 0)
    (h : Inv sys Tunnel s) (range : IPAddress) :
    Inv sys Tunnel (deleteExclusionRoute sys range s).2 := by
  rcases deleteExclusionRoute_cases range s with heq | ⟨key, data, calls, hfind, heq⟩
  · rwa [heq]
  · rw [heq]
    have hmem : (key, data) ∈ s.exclusionRoutes := List.mem_of_find?_eq_some hfind
    have honly := exclusionOnly_delete (h.excluding.luid_ne hluid _ hmem) s
    have hcapturing := h.capturing.exclusionOnly honly
    refine ⟨h.excluding.sublist List.filter_sublist fun r hr hmark => ?_,
      ⟨hcapturing.records, hcapturing.age, hcapturing.known, hcapturing.off⟩,
      honly.unique h.unique, fun r hr hforeign => h.wellformed r (mem_of_mem_delete hr) hforeign⟩
    obtain ⟨hr, hdiffer⟩ := (mem_table_delete hdel).mp hr
    obtain ⟨e, he, hne, hsame⟩ := h.excluding.marked r hr hmark
    refine ⟨e, (h.excluding.mem_filter hfind).mpr ⟨he, fun hdest => ?_⟩, hne, hsame⟩
    -- the entry for this network is the one that was found
    obtain ⟨before, after, hsplit⟩ := List.append_of_mem hmem
    have hex := h.excluding
    rw [hsplit] at hex he
    rcases List.mem_append.mp he with he | he
    · exact hex.dest_ne e (List.mem_append_left _ he) hdest
    · rcases List.mem_cons.mp he with rfl | he
      · rw [hdiffer] at hsame
        cases hsame
      · exact hex.dest_ne e (List.mem_append_right _ he) hdest

theorem inv_flushExclusionRoutes (hdel : ∀ n, sys.deletes n = true) (hluid : sys.luid ≠ 0)
    (h : Inv sys Tunnel s) : Inv sys Tunnel (flushExclusionRoutes sys s) := by
  have honly := exclusionOnly_deleteAll (h.excluding.luid_ne hluid) s
  have hcapturing := h.capturing.exclusionOnly honly
  refine ⟨h.excluding.sublist (List.nil_sublist _) fun r hr hmark => ?_,
    ⟨hcapturing.records, hcapturing.age, hcapturing.known, hcapturing.off⟩,
    honly.unique h.unique, fun r hr hforeign =>
      h.wellformed r ((mem_table_deleteAll hdel _ s r).mp hr).1 hforeign⟩
  obtain ⟨hr, hdiffer⟩ := (mem_table_deleteAll hdel _ s r).mp hr
  obtain ⟨e, he, -, hsame⟩ := h.excluding.marked r hr hmark
  rw [hdiffer e he] at hsame
  cases hsame

theorem inv_flushClonedRoutes (hdel : ∀ n, sys.deletes n = true) (h : Inv sys Tunnel s)
    (defaultRouteCapture : Bool) :
    Inv sys Tunnel (flushClonedRoutes sys { s with defaultRouteCapture }) := by
  have honly : TunnelOnly sys { s with defaultRouteCapture }
      (flushClonedRoutes sys { s with defaultRouteCapture }) :=
    tunnelOnly_flushClonedRoutes h.capturing.records
  have hrest : ∀ r ∈ (flushClonedRoutes sys { s with defaultRouteCapture }).table,
      r ∈ s.table ∧ ∀ e ∈ s.clonedRoutes, e.2.same r = false := fun r hr =>
    (mem_table_deleteAll hdel _ { s with defaultRouteCapture } r).mp hr
  refine ⟨?_, ⟨List.forall_mem_nil _, List.forall_mem_nil _, fun r hr htunnel => ?_, fun _ => rfl⟩,
    honly.unique h.unique, fun r hr hforeign => h.wellformed r (hrest r hr).1 hforeign⟩
  · rw [honly.exclusionRoutes]
    exact h.excluding.mono fun r hr _ => (hrest r hr).1
  · obtain ⟨hr, hdiffer⟩ := hrest r hr
    refine (h.capturing.known r hr htunnel).imp_right fun ⟨e, he, hsame⟩ => ?_
    rw [hdiffer e he] at hsame
    cases hsame

theorem inv_setDetaultRouteCapture (hdel : ∀ n, sys.deletes n = true) (h : Inv sys Tunnel s)
    (enable : Bool) : Inv sys Tunnel (setDetaultRouteCapture sys enable s) := by
  cases enable with
  | true =>
    exact ⟨h.excluding.mono fun r hr _ => hr,
      ⟨h.capturing.records, h.capturing.age, h.capturing.known, fun hoff => by cases hoff⟩,
      h.unique, h.wellformed⟩
  | false => exact inv_flushClonedRoutes hdel h false

/-- **One step.** -/
theorem inv_step (hdel : ∀ n, sys.deletes n = true) (hluid : sys.luid ≠ 0) (e : Event)
    (h : Inv sys Tunnel s) (hallowed : Allowed sys Tunnel s e) : Inv sys Tunnel (step sys s e) := by
  cases e with
  | system table interfaces => exact inv_system h hallowed interfaces
  | addExclusionRoute range => exact inv_addExclusionRoute hdel h hallowed
  | deleteExclusionRoute range => exact inv_deleteExclusionRoute hdel hluid h range
  | flushExclusionRoutes => exact inv_flushExclusionRoutes hdel hluid h
  | setDetaultRouteCapture enable => exact inv_setDetaultRouteCapture hdel h enable
  | routeChanged => exact inv_routeChanged hdel h

/-- The monitor begins before the system has routes. -/
def State.empty : State where
  table := []
  interfaces := []

theorem inv_empty : Inv sys Tunnel .empty where
  excluding := ⟨List.forall_mem_nil _, List.forall_mem_nil _, List.forall_mem_nil _,
    List.forall_mem_nil _, List.Pairwise.nil, List.forall_mem_nil _⟩
  capturing := ⟨List.forall_mem_nil _, List.forall_mem_nil _, List.forall_mem_nil _, fun _ => rfl⟩
  unique := List.Pairwise.nil
  wellformed := List.forall_mem_nil _

theorem inv_run (hdel : ∀ n, sys.deletes n = true) (hluid : sys.luid ≠ 0) {events : List Event}
    (h : Guarded (step sys) (Allowed sys Tunnel) .empty events) :
    Inv sys Tunnel (events.foldl (step sys) .empty) := by
  have hrun := Guarded.invariant (fun s e hs he => inv_step hdel hluid e hs he) inv_empty h
    events.length
  rwa [List.take_length] at hrun

/-- **Nothing is left.** After the destructor the routes are those of the system and the tunnel's
own, whatever was called and whichever routes could not be created. -/
theorem destroy_run (hdel : ∀ n, sys.deletes n = true) (hluid : sys.luid ≠ 0)
    {events : List Event} (h : Guarded (step sys) (Allowed sys Tunnel) .empty events) :
    ∀ r ∈ (destroy sys (events.foldl (step sys) .empty)).table, r.IsForeign sys ∨ Tunnel r := by
  have hflush := inv_flushExclusionRoutes hdel hluid (inv_run hdel hluid h)
  have hinv := inv_flushClonedRoutes hdel hflush
    (flushExclusionRoutes sys (events.foldl (step sys) .empty)).defaultRouteCapture
  have honly := tunnelOnly_flushClonedRoutes hflush.capturing.records
  intro r hr
  by_cases htunnel : r.interfaceLuid = sys.luid
  · rcases hinv.capturing.known r hr htunnel with htunnel | ⟨e, he, -⟩
    · exact .inr htunnel
    · cases he
  · refine .inl ⟨htunnel, fun hmark => ?_⟩
    obtain ⟨e, he, -⟩ := hflush.excluding.marked r ((honly.mem_iff r htunnel).mp hr) hmark
    cases he

/-! A host with the tunnel as interface 1, whose default route is over interface 7. -/

def host : System where
  luid := 1
  succeeds _ := true
  deletes _ := true
  isLoopback _ := false
  isBroadcast _ := false
  isLinkLocal _ := false
  isMulticast _ := false

def defaultRoute : Row where
  interfaceLuid := 7
  destinationPrefix := { siFamily := afInet, addr := [0, 0, 0, 0], prefixLength := 0 }
  nextHop := { siFamily := afInet, data := [192, 168, 1, 1] }
  metric := 25
  protocol := mibIpprotoNetmgmt

def tunnelRoute : Row where
  interfaceLuid := 1
  destinationPrefix := { siFamily := afInet, addr := [0, 0, 0, 0], prefixLength := 1 }
  nextHop := .ofFamily afInet
  metric := 0
  protocol := mibIpprotoNetmgmt

/-- 10.0.0.0/8. -/
def ten : IPAddress where
  address := .ipv4 0x0a000000
  prefixLength := 8

theorem valid_ten : ten.Valid := by
  constructor <;> decide

def excludeTen : List Event :=
  [.system [defaultRoute, tunnelRoute]
      [{ family := afInet, interfaceLuid := 7, connected := true, metric := 10 }],
    .setDetaultRouteCapture true, .addExclusionRoute ten]

theorem systemChange_host :
    SystemChange host (· = tunnelRoute) .empty [defaultRoute, tunnelRoute] where
  unique := by decide
  wellformed := by
    rw [Wellformed, List.forall_mem_cons, List.forall_mem_singleton]
    exact ⟨fun _ => ⟨.inl (by decide), by decide⟩, fun h => absurd rfl h.1⟩
  own := by
    rw [List.forall_mem_cons, List.forall_mem_singleton]
    exact ⟨.inl ⟨by decide, by decide⟩, .inr (.inl ⟨rfl, by decide⟩)⟩

theorem destroy_run_ten :
    (excludeTen.foldl (step host) .empty).table.length = 3 ∧
      ∀ r ∈ (destroy host (excludeTen.foldl (step host) .empty)).table,
        r.IsForeign host ∨ r = tunnelRoute :=
  ⟨by decide, destroy_run (fun _ => rfl) (by decide) (show Guarded _ _ _ excludeTen from
    ⟨systemChange_host, trivial, valid_ten, trivial⟩)⟩

end Runs

end WgDesktop.WindowsRouteMonitor
