import WgDesktop.Lib.Runs
import WgDesktop.Windows.RouteMonitor

/-!
# Captured routes

The second half of `windowsroutemonitor.cpp`: with `m_defaultRouteCapture` every route of the system
outside the tunnel and the excluded networks has a copy that leads into the tunnel. A pass over the
table counts in `Age` which of the copies are still needed and deletes the others.

`Capturing` is what holds of the copies between two calls, and `Capturing.mem_update` and
`updateCapturedRoutes_complete` say that after a pass they are those of the table.
-/

namespace WgDesktop.WindowsRouteMonitor

open Bytes BitPrefix PiNat

/-! ## Calls -/

section Calls

variable {sys : System} {s : State} {row r : Row}

theorem Row.same_iff {r r' : Row} : r.same r' = true ↔
    r.interfaceLuid = r'.interfaceLuid ∧ r.destinationPrefix = r'.destinationPrefix ∧
      r.nextHop = r'.nextHop := decide_eq_true_iff

theorem Row.same_self (r : Row) : r.same r = true := Row.same_iff.mpr ⟨rfl, rfl, rfl⟩

theorem Row.same_comm (r r' : Row) : r.same r' = r'.same r := by
  rw [Bool.eq_iff_iff, Row.same_iff, Row.same_iff]
  exact ⟨fun h => ⟨h.1.symm, h.2.1.symm, h.2.2.symm⟩, fun h => ⟨h.1.symm, h.2.1.symm, h.2.2.symm⟩⟩

/-- No two routes of the table are the same. -/
def Unique (s : State) : Prop := s.table.Pairwise fun r r' => r.same r' = false

theorem mem_table_create : r ∈ (createIpForwardEntry2 sys row s).2.table ↔
    r ∈ s.table ∨ (createIpForwardEntry2 sys row s).1 = true ∧ r = row := by
  rw [createIpForwardEntry2]
  cases sys.succeeds s.calls && !s.table.any row.same <;> simp

theorem mem_table_delete (hdel : ∀ n, sys.deletes n = true) :
    r ∈ (deleteIpForwardEntry2 sys row s).table ↔ r ∈ s.table ∧ row.same r = false := by
  rw [deleteIpForwardEntry2, hdel]
  simp

theorem create_eq_true_iff (hsucc : ∀ n, sys.succeeds n = true) :
    (createIpForwardEntry2 sys row s).1 = true ↔ ∀ r ∈ s.table, row.same r = false := by
  rw [createIpForwardEntry2, hsucc]
  simp

theorem Unique.create (h : Unique s) : Unique (createIpForwardEntry2 sys row s).2 := by
  rw [Unique, createIpForwardEntry2]
  simp only
  split_ifs with hok
  · rw [Bool.and_eq_true, Bool.not_eq_true', List.any_eq_false] at hok
    refine List.pairwise_append.mpr ⟨h, List.pairwise_singleton _ _, fun r hr r' hr' => ?_⟩
    obtain rfl := List.mem_singleton.mp hr'
    rw [Row.same_comm]
    exact Bool.eq_false_iff.mpr (hok.2 r hr)
  · exact h

theorem Unique.delete (h : Unique s) : Unique (deleteIpForwardEntry2 sys row s) := by
  rw [Unique, deleteIpForwardEntry2]
  simp only
  split_ifs
  · exact h.filter _
  · exact h

theorem Unique.eq (h : Unique s) {r r' : Row} (hr : r ∈ s.table) (hr' : r' ∈ s.table)
    (hsame : r.same r' = true) : r = r' := by
  have hsymm : Std.Symm fun r r' : Row => r.same r' = false := ⟨fun a b hab => by
    rw [Row.same_comm]
    exact hab⟩
  by_contra hne
  have hdiffer : r.same r' = false := List.Pairwise.forall h hr hr' hne
  rw [hdiffer] at hsame
  cases hsame

end Calls

/-! ## What a pass leaves alone -/

section TunnelOnly

variable {sys : System} {s s' s'' : State} {row : Row}

variable (sys) in
/-- Of the routes, only some into the tunnel changed, and of the members, only the copies. -/
structure TunnelOnly (s s' : State) : Prop where
  mem_iff : ∀ r, r.interfaceLuid ≠ sys.luid → (r ∈ s'.table ↔ r ∈ s.table)
  unique : Unique s → Unique s'
  interfaces : s'.interfaces = s.interfaces
  exclusionRoutes : s'.exclusionRoutes = s.exclusionRoutes
  interfaceMetricsIpv4 : s'.interfaceMetricsIpv4 = s.interfaceMetricsIpv4
  interfaceMetricsIpv6 : s'.interfaceMetricsIpv6 = s.interfaceMetricsIpv6
  defaultRouteCapture : s'.defaultRouteCapture = s.defaultRouteCapture

theorem TunnelOnly.refl (s : State) : TunnelOnly sys s s :=
  ⟨fun _ _ => Iff.rfl, id, rfl, rfl, rfl, rfl, rfl⟩

theorem TunnelOnly.trans (h : TunnelOnly sys s s') (h' : TunnelOnly sys s' s'') :
    TunnelOnly sys s s'' where
  mem_iff r hr := (h'.mem_iff r hr).trans (h.mem_iff r hr)
  unique := h'.unique ∘ h.unique
  interfaces := h'.interfaces.trans h.interfaces
  exclusionRoutes := h'.exclusionRoutes.trans h.exclusionRoutes
  interfaceMetricsIpv4 := h'.interfaceMetricsIpv4.trans h.interfaceMetricsIpv4
  interfaceMetricsIpv6 := h'.interfaceMetricsIpv6.trans h.interfaceMetricsIpv6
  defaultRouteCapture := h'.defaultRouteCapture.trans h.defaultRouteCapture

theorem TunnelOnly.setClonedRoutes (h : TunnelOnly sys s s')
    (clonedRoutes : List (IPAddress × Row)) : TunnelOnly sys s { s' with clonedRoutes } :=
  ⟨h.mem_iff, h.unique, h.interfaces, h.exclusionRoutes, h.interfaceMetricsIpv4,
    h.interfaceMetricsIpv6, h.defaultRouteCapture⟩

theorem tunnelOnly_create (hrow : row.interfaceLuid = sys.luid) (s : State) :
    TunnelOnly sys s (createIpForwardEntry2 sys row s).2 where
  mem_iff r hr := by
    rw [mem_table_create, or_iff_left]
    rintro ⟨-, rfl⟩
    exact hr hrow
  unique := Unique.create
  interfaces := rfl
  exclusionRoutes := rfl
  interfaceMetricsIpv4 := rfl
  interfaceMetricsIpv6 := rfl
  defaultRouteCapture := rfl

theorem tunnelOnly_delete (hrow : row.interfaceLuid = sys.luid) (s : State) :
    TunnelOnly sys s (deleteIpForwardEntry2 sys row s) where
  mem_iff r hr := by
    have hdiffer : row.same r = false :=
      Bool.eq_false_iff.mpr fun hsame => hr ((Row.same_iff.mp hsame).1.symm.trans hrow)
    rw [deleteIpForwardEntry2]
    simp only
    split_ifs
    · rw [List.mem_filter, hdiffer]
      exact and_iff_left rfl
    · rfl
  unique := Unique.delete
  interfaces := rfl
  exclusionRoutes := rfl
  interfaceMetricsIpv4 := rfl
  interfaceMetricsIpv6 := rfl
  defaultRouteCapture := rfl

theorem tunnelOnly_captureRow (s : State) (row : Row) : TunnelOnly sys s (captureRow sys s row) := by
  rw [captureRow]
  split_ifs
  · exact .refl s
  · exact (TunnelOnly.refl s).setClonedRoutes _
  · have hcreate := @tunnelOnly_create sys (row.clone sys) rfl s
    generalize createIpForwardEntry2 sys (row.clone sys) s = result at hcreate
    obtain ⟨ok, s'⟩ := result
    cases ok with
    | false => exact hcreate
    | true => exact hcreate.setClonedRoutes _

theorem tunnelOnly_foldl {α : Type} {f : State → α → State}
    {as : List α} (h : ∀ s, ∀ a ∈ as, TunnelOnly sys s (f s a)) (s : State) :
    TunnelOnly sys s (as.foldl f s) := by
  induction as generalizing s with
  | nil => exact .refl s
  | cons a as ih =>
    exact (h s a List.mem_cons_self).trans (ih (fun s b hb => h s b (List.mem_cons_of_mem a hb)) _)

end TunnelOnly

/-! ## The pass -/

/-- The row has the mark of the routes for the excluded networks. -/
def Row.IsMarked (r : Row) : Prop :=
  r.protocol = mibIpprotoNetmgmt ∧ r.metric = exclusionRouteMetric

instance (r : Row) : Decidable r.IsMarked := inferInstanceAs (Decidable (_ ∧ _))

/-- The row is none of the daemon's. -/
def Row.IsForeign (sys : System) (r : Row) : Prop := r.interfaceLuid ≠ sys.luid ∧ ¬ r.IsMarked

section Pass

variable {sys : System} {s : State} {family : BitVec 16}

/-- The copies are records of routes into the tunnel under their own keys. -/
def Records (sys : System) (s : State) : Prop :=
  ∀ e ∈ s.clonedRoutes, e.1 = e.2.key ∧ e.2.destinationPrefix.Valid ∧
    e.2.interfaceLuid = sys.luid ∧ e.2.nextHop = .ofFamily e.2.destinationPrefix.siFamily

variable (sys) in
/-- After these rows, an entry was counted when one of them has its key. -/
structure Marked (rows : List Row) (s : State) : Prop where
  records : Records sys s
  age : ∀ e ∈ s.clonedRoutes,
    0 < e.2.age ↔ ∃ row ∈ rows, isCapturable sys s row = true ∧ (e.1 == row.key) = true

theorem IPAddress.beq_self (p : IPAddress) : (p == p) = true := by
  show (p.address == p.address && p.prefixLength == p.prefixLength) = true
  rw [Bool.and_eq_true, QHostAddress.beq_iff, beq_iff_eq]
  exact ⟨⟨rfl, rfl⟩, rfl⟩

theorem isCapturable_congr {s' : State} (h : s'.exclusionRoutes = s.exclusionRoutes) (row : Row) :
    isCapturable sys s' row = isCapturable sys s row := by
  rw [isCapturable, isCapturable, isRouteExcluded, isRouteExcluded, h]

theorem isForeign_of_isCapturable {row : Row} (h : isCapturable sys s row = true) :
    row.IsForeign sys := by
  rw [isCapturable, decide_eq_true_eq] at h
  exact ⟨h.1, h.2.2.1⟩

variable (sys) in
/-- The rows of the system have valid destinations. -/
def ValidRows (rows : List Row) : Prop :=
  ∀ row ∈ rows, row.IsForeign sys → row.destinationPrefix.Valid

theorem Marked.step {rows : List Row} (h : Marked sys rows s) {row : Row}
    (hrow : row.IsForeign sys → row.destinationPrefix.Valid) :
    Marked sys (rows ++ [row]) (captureRow sys s row) := by
  have hexists : ∀ k : IPAddress, (∃ row' ∈ rows ++ [row],
      isCapturable sys (captureRow sys s row) row' = true ∧ (k == row'.key) = true) ↔
      (∃ row' ∈ rows, isCapturable sys s row' = true ∧ (k == row'.key) = true) ∨
        isCapturable sys s row = true ∧ (k == row.key) = true := by
    intro k
    simp only [isCapturable_congr (tunnelOnly_captureRow s row).exclusionRoutes, List.mem_append,
      List.mem_singleton, or_and_right, exists_or, exists_eq_left]
  suffices hstep : Records sys (captureRow sys s row) ∧ ∀ e ∈ (captureRow sys s row).clonedRoutes,
      0 < e.2.age ↔ (∃ row' ∈ rows, isCapturable sys s row' = true ∧ (e.1 == row'.key) = true) ∨
        isCapturable sys s row = true ∧ (e.1 == row.key) = true from
    ⟨hstep.1, fun e he => (hstep.2 e he).trans (hexists e.1).symm⟩
  by_cases hcapturable : isCapturable sys s row = true
  · rw [captureRow, if_neg (by simp [hcapturable])]
    simp only [hcapturable, true_and]
    by_cases hany : (s.clonedRoutes.any (·.1 == row.key)) = true
    · -- the entries with the key of the row are counted once more
      rw [if_pos hany]
      constructor
      · intro e he
        obtain ⟨e', he', rfl⟩ := List.mem_map.mp he
        split_ifs
        · exact h.records e' he'
        · exact h.records e' he'
      · intro e he
        obtain ⟨e', he', rfl⟩ := List.mem_map.mp he
        split_ifs with hkey
        · simp [hkey]
        · rw [h.age e' he', or_iff_left hkey]
    · rw [if_neg hany]
      have hfresh : ∀ e ∈ s.clonedRoutes, ¬ (e.1 == row.key) = true := by
        simpa using hany
      generalize hcreate : createIpForwardEntry2 sys (row.clone sys) s = result
      have hclones : result.2.clonedRoutes = s.clonedRoutes := by rw [← hcreate]; rfl
      obtain ⟨ok, s'⟩ := result
      simp only at hclones
      cases ok with
      | false =>
        simp only
        rw [Records, hclones]
        exact ⟨h.records, fun e he => by rw [h.age e he, or_iff_left (hfresh e he)]⟩
      | true =>
        simp only [Records, hclones, List.forall_mem_cons]
        refine ⟨⟨⟨rfl, hrow (isForeign_of_isCapturable hcapturable), rfl, rfl⟩, h.records⟩, ?_,
          fun e he => ?_⟩
        · simp [IPAddress.beq_self]
        · rw [h.age e he, or_iff_left (hfresh e he)]
  · rw [captureRow, if_pos (by simp [hcapturable])]
    exact ⟨h.records, fun e he => by rw [h.age e he, or_iff_left fun hand => hcapturable hand.1]⟩

theorem marked_foldl (h : Marked sys [] s) {rows : List Row}
    (hrows : ValidRows sys rows) :
    Marked sys rows (rows.foldl (captureRow sys) s) := by
  induction rows using List.reverseRecOn with
  | nil => exact h
  | append_singleton rows row ih =>
    rw [ValidRows, List.forall_mem_append] at hrows
    rw [List.foldl_append, List.foldl_cons, List.foldl_nil]
    exact (ih hrows.1).step (hrows.2 row (List.mem_singleton_self row))

/-! ### The routes into the tunnel -/

/-- The route has a record. -/
def Recorded (s : State) (d : Row) : Prop := ∃ e ∈ s.clonedRoutes, e.2.same d = true

variable (sys) in
/-- Every route into the tunnel is recorded, or one of the daemon's own. -/
def Known (Tunnel : Row → Prop) (s : State) : Prop :=
  ∀ r ∈ s.table, r.interfaceLuid = sys.luid → Tunnel r ∨ Recorded s r

/-- What is recorded is in the table. -/
def Present (s : State) : Prop := ∀ d, Recorded s d → ∃ r ∈ s.table, r.same d = true

theorem Row.same_trans {a b c : Row} (h : a.same b = true) (h' : b.same c = true) :
    a.same c = true := by
  rw [Row.same_iff] at *
  exact ⟨h.1.trans h'.1, h.2.1.trans h'.2.1, h.2.2.trans h'.2.2⟩

/-- A row changes nothing but counts, or its copy is created and recorded. -/
theorem captureRow_cases (s : State) (row : Row) :
    (captureRow sys s row).table = s.table ∧
        (∀ d, Recorded (captureRow sys s row) d ↔ Recorded s d) ∨
      (captureRow sys s row).table = s.table ++ [row.clone sys] ∧
        ∀ d, Recorded (captureRow sys s row) d ↔ (row.clone sys).same d = true ∨ Recorded s d := by
  rw [captureRow]
  split_ifs
  · exact .inl ⟨rfl, fun d => Iff.rfl⟩
  · refine .inl ⟨rfl, fun d => ?_⟩
    simp only [Recorded, List.mem_map, exists_exists_and_eq_and]
    refine exists_congr fun e => and_congr_right fun _ => ?_
    split_ifs <;> rfl
  · rw [createIpForwardEntry2]
    cases sys.succeeds s.calls && !s.table.any (row.clone sys).same with
    | false => exact .inl ⟨rfl, fun d => Iff.rfl⟩
    | true =>
      refine .inr ⟨rfl, fun d => ?_⟩
      simp only [Recorded, List.mem_cons, exists_eq_or_imp]
      rfl

theorem Known.captureRow {Tunnel : Row → Prop} (h : Known sys Tunnel s) (row : Row) :
    Known sys Tunnel (captureRow sys s row) := by
  intro r hr htunnel
  rcases captureRow_cases s row with ⟨htable, hrecorded⟩ | ⟨htable, hrecorded⟩
  · rw [hrecorded]
    exact h r (htable ▸ hr) htunnel
  · rw [hrecorded]
    rw [htable, List.mem_append, List.mem_singleton] at hr
    rcases hr with hr | rfl
    · exact (h r hr htunnel).imp_right .inr
    · exact .inr (.inl (Row.same_self _))

theorem Present.captureRow (h : Present s) (row : Row) : Present (captureRow sys s row) := by
  intro d hd
  rcases captureRow_cases s row with ⟨htable, hrecorded⟩ | ⟨htable, hrecorded⟩
  · rw [htable]
    exact h d ((hrecorded d).mp hd)
  · rw [htable]
    rcases (hrecorded d).mp hd with hsame | hd
    · exact ⟨_, List.mem_append_right _ (List.mem_singleton_self _), hsame⟩
    · obtain ⟨r, hr, hsame⟩ := h d hd
      exact ⟨r, List.mem_append_left _ hr, hsame⟩

theorem mem_table_captureRow {r : Row} (hr : r ∈ s.table) (row : Row) :
    r ∈ (captureRow sys s row).table := by
  rcases captureRow_cases s row with ⟨htable, -⟩ | ⟨htable, -⟩
  · rwa [htable]
  · rw [htable]
    exact List.mem_append_left _ hr

theorem addr_eq_of_word {w : ℕ} (hw : 8 ∣ w) {a b : List Byte} (ha : a.length = w / 8)
    (hb : b.length = w / 8) (h : (Endian.big.word a : BitVec w) = Endian.big.word b) : a = b := by
  rw [← Endian.bytes_word .big hw ha, ← Endian.bytes_word .big hw hb, h]

theorem IpAddressPrefix.eq_of_address {p q : IpAddressPrefix} (hp : p.Valid) (hq : q.Valid)
    (haddress : (prefixToAddress p == prefixToAddress q) = true)
    (hlen : p.prefixLength = q.prefixLength) : p = q := by
  obtain ⟨family, addr, len⟩ := p
  obtain ⟨family', addr', len'⟩ := q
  obtain rfl : len = len' := hlen
  have hinet : ¬ afInet = afInet6 := by decide
  rw [QHostAddress.beq_iff] at haddress
  rcases hp with ⟨hfamily, ha, -⟩ | ⟨hfamily, ha, -⟩ <;>
    rcases hq with ⟨hfamily', hb, -⟩ | ⟨hfamily', hb, -⟩ <;>
      simp only at hfamily hfamily' ha hb <;> subst hfamily hfamily' <;>
        simp only [prefixToAddress, hinet, if_true, if_false, QHostAddress.protocol,
          QHostAddress.bit, getMsbD_injective.eq_iff, reduceCtorEq, true_and, false_and] at haddress
  · rw [addr_eq_of_word (by decide) ha hb haddress]
  · rw [addr_eq_of_word (by decide) ha hb haddress]

theorem destinationPrefix_eq_of_key {r r' : Row} (h : r.destinationPrefix.Valid)
    (h' : r'.destinationPrefix.Valid) (hkey : (r.key == r'.key) = true) :
    r.destinationPrefix = r'.destinationPrefix := by
  change (prefixToAddress r.destinationPrefix == prefixToAddress r'.destinationPrefix &&
    (r.destinationPrefix.prefixLength.toNat : ℤ) ==
      r'.destinationPrefix.prefixLength.toNat) = true at hkey
  obtain ⟨haddress, hlen⟩ := Bool.and_eq_true_iff.mp hkey
  rw [beq_iff_eq, Nat.cast_inj, BitVec.toNat_inj] at hlen
  exact IpAddressPrefix.eq_of_address h h' haddress hlen

theorem captureRow_complete (hsucc : ∀ n, sys.succeeds n = true) (hrecords : Records sys s)
    (hpresent : Present s) {row : Row} (hrow : row.destinationPrefix.Valid)
    (hcapturable : isCapturable sys s row = true) :
    ∃ r ∈ (captureRow sys s row).table, (row.clone sys).same r = true := by
  rw [captureRow, if_neg (by simp [hcapturable])]
  split_ifs with hany
  · obtain ⟨e, he, hkey⟩ := List.any_eq_true.mp hany
    obtain ⟨hkeys, hvalid, hluid, hnext⟩ := hrecords e he
    rw [hkeys] at hkey
    have hdest := destinationPrefix_eq_of_key hvalid hrow hkey
    have hsame : e.2.same (row.clone sys) = true :=
      Row.same_iff.mpr ⟨hluid, hdest, by rw [hnext, hdest]; rfl⟩
    obtain ⟨r, hr, hsame'⟩ := hpresent _ ⟨e, he, hsame⟩
    exact ⟨r, hr, by rwa [Row.same_comm]⟩
  · rw [createIpForwardEntry2, hsucc]
    cases hexists : s.table.any (row.clone sys).same with
    | false => exact ⟨_, List.mem_append_right _ (List.mem_singleton_self _), Row.same_self _⟩
    | true => exact List.any_eq_true.mp hexists

theorem foldl_captureRow_complete (hsucc : ∀ n, sys.succeeds n = true) (h : Marked sys [] s)
    (hpresent : Present s) {rows : List Row} (hrows : ValidRows sys rows) :
    Present (rows.foldl (captureRow sys) s) ∧
      ∀ row ∈ rows, isCapturable sys s row = true →
        ∃ r ∈ (rows.foldl (captureRow sys) s).table, (row.clone sys).same r = true := by
  induction rows using List.reverseRecOn with
  | nil => exact ⟨hpresent, List.forall_mem_nil _⟩
  | append_singleton rows row ih =>
    rw [ValidRows, List.forall_mem_append] at hrows
    obtain ⟨hpresent', hcomplete⟩ := ih hrows.1
    rw [List.foldl_append, List.foldl_cons, List.foldl_nil]
    refine ⟨hpresent'.captureRow row, fun row' hrow' hcapturable => ?_⟩
    rcases List.mem_append.mp hrow' with hmem | hmem
    · obtain ⟨r, hr, hsame⟩ := hcomplete row' hmem hcapturable
      exact ⟨r, mem_table_captureRow hr row, hsame⟩
    · obtain rfl := List.mem_singleton.mp hmem
      have hkeep : TunnelOnly sys s (rows.foldl (captureRow sys) s) :=
        tunnelOnly_foldl (fun s row _ => tunnelOnly_captureRow s row) s
      have hsame := @isCapturable_congr sys s _ hkeep.exclusionRoutes row'
      exact captureRow_complete hsucc (marked_foldl h hrows.1).records hpresent'
        (hrows.2 row' hmem (isForeign_of_isCapturable hcapturable)) (hsame.trans hcapturable)

/-! ### The entries that are kept -/

theorem clonedRoutes_foldl_sweep (entries : List (IPAddress × Row)) (s : State) :
    (entries.foldl (sweep sys family) s).clonedRoutes =
      s.clonedRoutes ++ (entries.filter fun e => isInUse family e.2).map fun e =>
        (e.1, { e.2 with age := 0 }) := by
  induction entries generalizing s with
  | nil => simp
  | cons e entries ih =>
    rw [List.foldl_cons, ih, sweep, List.filter_cons]
    split_ifs with huse
    · rw [List.map_cons, List.append_assoc]
      rfl
    · rfl

theorem mem_table_foldl_sweep (hdel : ∀ n, sys.deletes n = true)
    (entries : List (IPAddress × Row)) (s : State) (r : Row) :
    r ∈ (entries.foldl (sweep sys family) s).table ↔
      r ∈ s.table ∧ ∀ e ∈ entries, isInUse family e.2 = false → e.2.same r = false := by
  induction entries generalizing s with
  | nil => simp
  | cons e entries ih =>
    rw [List.foldl_cons, ih, List.forall_mem_cons, sweep]
    split_ifs with huse
    · simp [huse]
    · rw [mem_table_delete hdel]
      simp [huse, and_assoc]

/-! ### After the pass -/

/-- An entry of which a part remains needed has the network of a row, or one of the other family. -/
theorem Marked.isInUse_of_same {rows : List Row} (h : Marked sys rows s) {e e' : IPAddress × Row}
    (he : e ∈ s.clonedRoutes) (he' : e' ∈ s.clonedRoutes) (hsame : e.2.same e'.2 = true)
    (huse : isInUse family e.2 = true) : isInUse family e'.2 = true := by
  have hdest := (Row.same_iff.mp hsame).2.1
  have hkey : e.1 = e'.1 := by
    rw [(h.records e he).1, (h.records e' he').1, Row.key, Row.key, hdest]
  rw [isInUse, decide_eq_true_eq] at huse ⊢
  rwa [h.age e' he', ← hkey, ← h.age e he, ← hdest]

variable (sys) in
/-- What holds of the copies between two calls. -/
structure Capturing (Tunnel : Row → Prop) (s : State) : Prop where
  records : Records sys s
  age : ∀ e ∈ s.clonedRoutes, e.2.age = 0
  known : Known sys Tunnel s
  off : s.defaultRouteCapture = false → s.clonedRoutes = []

theorem Capturing.marked {Tunnel : Row → Prop} (h : Capturing sys Tunnel s) : Marked sys [] s where
  records := h.records
  age e he := by simp [h.age e he]

variable {Tunnel : Row → Prop} {table : List Row}

theorem tunnelOnly_foldl_sweep {entries : List (IPAddress × Row)}
    (h : ∀ e ∈ entries, e.2.interfaceLuid = sys.luid) (s : State) :
    TunnelOnly sys s (entries.foldl (sweep sys family) s) := by
  refine tunnelOnly_foldl (fun s e he => ?_) s
  rw [sweep]
  split_ifs
  · exact (TunnelOnly.refl s).setClonedRoutes _
  · exact tunnelOnly_delete (h e he) s

theorem Capturing.tunnelOnly (h : Capturing sys Tunnel s)
    (htable : ValidRows sys table) :
    TunnelOnly sys s (updateCapturedRoutes sys family table s) := by
  rw [updateCapturedRoutes]
  split_ifs
  · exact .refl s
  · have hmarked := marked_foldl h.marked htable
    have hmark : TunnelOnly sys s (table.foldl (captureRow sys) s) :=
      tunnelOnly_foldl (fun s row _ => tunnelOnly_captureRow s row) s
    exact (hmark.setClonedRoutes []).trans
      (tunnelOnly_foldl_sweep (fun e he => (hmarked.records e he).2.2.1) _)

/-- The copies after a pass are of rows of the table, or of the other family. -/
theorem Capturing.mem_update (h : Capturing sys Tunnel s)
    (htable : ValidRows sys table) {e : IPAddress × Row}
    (he : e ∈ (updateCapturedRoutes sys family table s).clonedRoutes)
    (hcapture : s.defaultRouteCapture = true) :
    (∃ row ∈ table, isCapturable sys s row = true ∧ (e.1 == row.key) = true) ∨
      family ≠ afUnspec ∧ e.2.destinationPrefix.siFamily ≠ family := by
  have hmarked := marked_foldl h.marked htable
  have hkeep : TunnelOnly sys s (table.foldl (captureRow sys) s) :=
    tunnelOnly_foldl (fun s row _ => tunnelOnly_captureRow s row) s
  rw [updateCapturedRoutes, if_neg (by simp [hcapture])] at he
  simp only [clonedRoutes_foldl_sweep, List.nil_append] at he
  obtain ⟨e', he', rfl⟩ := List.mem_map.mp he
  obtain ⟨hmem, huse⟩ := List.mem_filter.mp he'
  rw [isInUse, decide_eq_true_eq, hmarked.age e' hmem] at huse
  simpa only [isCapturable_congr hkeep.exclusionRoutes] using huse

theorem Capturing.update (hdel : ∀ n, sys.deletes n = true) (h : Capturing sys Tunnel s)
    (htable : ValidRows sys table) :
    Capturing sys Tunnel (updateCapturedRoutes sys family table s) := by
  have honly := @Capturing.tunnelOnly sys s family Tunnel table h htable
  rw [updateCapturedRoutes] at honly ⊢
  split_ifs at honly ⊢ with hcapture
  · exact h
  · have hmarked := marked_foldl h.marked htable
    have hknown : Known sys Tunnel (table.foldl (captureRow sys) s) :=
      Runs.foldl_invariant (fun s row hs => hs.captureRow row) h.known table
    generalize table.foldl (captureRow sys) s = s' at *
    refine ⟨?_, ?_, ?_, ?_⟩
    · intro e he
      simp only [clonedRoutes_foldl_sweep, List.nil_append] at he
      obtain ⟨e', he', rfl⟩ := List.mem_map.mp he
      exact hmarked.records e' (List.mem_filter.mp he').1
    · intro e he
      simp only [clonedRoutes_foldl_sweep, List.nil_append] at he
      obtain ⟨e', -, rfl⟩ := List.mem_map.mp he
      rfl
    · intro r hr htunnel
      obtain ⟨hr, hkept⟩ := (mem_table_foldl_sweep hdel _ _ r).mp hr
      refine (hknown r hr htunnel).imp_right fun ⟨e, he, hsame⟩ => ?_
      have huse : isInUse family e.2 = true := by
        by_contra hno
        rw [hkept e he (by simpa using hno)] at hsame
        cases hsame
      refine ⟨(e.1, { e.2 with age := 0 }), ?_, hsame⟩
      simp only [clonedRoutes_foldl_sweep, List.nil_append]
      exact List.mem_map.mpr ⟨e, List.mem_filter.mpr ⟨he, huse⟩, rfl⟩
    · intro hoff
      rw [honly.defaultRouteCapture] at hoff
      simp [hoff] at hcapture

/-- **The pass is complete.** Every route that can be captured has one into the tunnel. -/
theorem updateCapturedRoutes_complete (hsucc : ∀ n, sys.succeeds n = true)
    (hdel : ∀ n, sys.deletes n = true) (h : Capturing sys Tunnel s) (hpresent : Present s)
    (htable : ValidRows sys table)
    (hcapture : s.defaultRouteCapture = true) :
    Present (updateCapturedRoutes sys family table s) ∧
      ∀ row ∈ table, isCapturable sys s row = true →
        ∃ r ∈ (updateCapturedRoutes sys family table s).table, (row.clone sys).same r = true := by
  have hmarked := marked_foldl h.marked htable
  have hkeep : TunnelOnly sys s (table.foldl (captureRow sys) s) :=
    tunnelOnly_foldl (fun s row _ => tunnelOnly_captureRow s row) s
  obtain ⟨hpresent', hcomplete⟩ := foldl_captureRow_complete hsucc h.marked hpresent htable
  rw [updateCapturedRoutes, if_neg (by simp [hcapture])]
  have hcapturable := fun row => @isCapturable_congr sys s _ hkeep.exclusionRoutes row
  generalize table.foldl (captureRow sys) s = s' at *
  constructor
  · rintro d ⟨e, he, hsame⟩
    simp only [clonedRoutes_foldl_sweep, List.nil_append] at he
    obtain ⟨e', he', rfl⟩ := List.mem_map.mp he
    obtain ⟨hmem, huse⟩ := List.mem_filter.mp he'
    obtain ⟨r, hr, hsame'⟩ := hpresent' d ⟨e', hmem, hsame⟩
    refine ⟨r, (mem_table_foldl_sweep hdel _ _ r).mpr ⟨hr, fun e'' he'' hno => ?_⟩, hsame'⟩
    by_contra hremoved
    have hback : e''.2.same d = true := Row.same_trans (by simpa using hremoved) hsame'
    rw [Row.same_comm] at hback
    have hboth : e'.2.same e''.2 = true := Row.same_trans hsame hback
    rw [hmarked.isInUse_of_same hmem he'' hboth huse] at hno
    cases hno
  · intro row hrow hcap
    obtain ⟨r, hr, hsame⟩ := hcomplete row hrow hcap
    refine ⟨r, (mem_table_foldl_sweep hdel _ _ r).mpr ⟨hr, fun e he hno => ?_⟩, hsame⟩
    by_contra hremoved
    have hdest : e.2.destinationPrefix = row.destinationPrefix :=
      (Row.same_iff.mp (by simpa using hremoved)).2.1.trans (Row.same_iff.mp hsame).2.1.symm
    have hkey : (e.1 == row.key) = true := by
      rw [(hmarked.records e he).1, Row.key, hdest]
      exact IPAddress.beq_self _
    have hage := (hmarked.age e he).mpr ⟨row, hrow, (hcapturable row).trans hcap, hkey⟩
    rw [isInUse, decide_eq_false_iff_not, not_or] at hno
    exact hno.1 hage

end Pass

end WgDesktop.WindowsRouteMonitor
