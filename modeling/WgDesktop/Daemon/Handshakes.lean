import WgDesktop.Daemon.Interface

/-!
# Handshakes of the daemon

`Daemon::checkHandshake` polls the peers of the interface and reports the connections that had a
handshake. `connected_once` follows the reports through all runs of activations, deactivations and
polls: each comes from one entry of the connections, between its installation and the next change.
-/

namespace WgDesktop.Daemon

open Runs

/-! ## The poll -/

/-- `WireguardUtils::PeerStatus`, as far as the daemon looks at it. -/
structure PeerStatus where
  pubkey : QString
  handshake : ℤ

/-- One peer of the answer against one connection. -/
def checkStatus (r : ConnectionState × List Signal) (status : PeerStatus) :
    ConnectionState × List Signal :=
  if r.1.config.serverPublicKey != status.pubkey then r
  else if status.handshake ≠ 0 then
    ({ r.1 with date := some status.handshake }, r.2 ++ [.connected status.pubkey])
  else r

/-- One connection, and what is emitted for it. -/
def checkConnection (peers : List PeerStatus) (connection : ConnectionState) :
    ConnectionState × List Signal :=
  if connection.date.isSome then (connection, []) else peers.foldl checkStatus (connection, [])

/-- One turn of the loop over the connections. -/
def checkHop (peers : List PeerStatus) (s : State) (hop : HopType) : State :=
  match s.connections hop with
  | none => s
  | some connection =>
    { s with
      connections := Function.update s.connections hop (some (checkConnection peers connection).1)
      signals := s.signals ++ (checkConnection peers connection).2 }

/-- The keys of the map, in its order. -/
def hops : List HopType := [.singleHop, .multiHopEntry, .multiHopExit]

/-- The connections without a handshake. -/
def pendingHandshakes (s : State) : ℕ := ((connectionList s).filter (·.date.isNone)).length

/-- `Daemon::checkHandshake`, with the answer of `getPeerStatus`. The single-shot timer has fired. -/
def checkHandshake (peers : List PeerStatus) (s : State) : State :=
  let s := hops.foldl (checkHop peers) s
  { s with handshakeTimer := 0 < pendingHandshakes s }

/-! ## Runs -/

/-- What happens to the daemon: a request, or a poll with its answer. -/
inductive Event where
  | request (request : Request)
  | check (peers : List PeerStatus)

def react (B : Backend) (s : State) : Event → State
  | .request request => step B s request
  | .check peers => checkHandshake peers s

/-- The state after the first `n` events. -/
def stateAt (B : Backend) (es : List Event) (n : ℕ) : State := (es.take n).foldl (react B) {}

/-- The keys of an answer are different. -/
def Event.Unique : Event → Prop
  | .request _ => True
  | .check peers => (peers.map fun status => status.pubkey.chars).Nodup

/-- What an event emits for the connection of a hop. -/
def reports (s : State) : Event → HopType → List Signal
  | .request _, _ => []
  | .check peers, hop =>
    match s.connections hop with
    | none => []
    | some connection => (checkConnection peers connection).2

def Signal.isConnected : Signal → Bool
  | .connected _ => true
  | _ => false

/-- The entry of `config` for its hop was installed by the event `i`; at `j` it is still there and
has not been reported. -/
structure Awaits (B : Backend) (es : List Event) (i j : ℕ) (config : InterfaceConfig) : Prop where
  before : i < j
  installs : es[i]? = some (.request (.activate config))
  fresh : (stateAt B es i).connections config.hopType ≠ some { config }
  present : ∀ m, i < m → m ≤ j → (stateAt B es m).connections config.hopType = some { config }
  unreported : ∀ m e, i < m → m < j → es[m]? = some e →
    reports (stateAt B es m) e config.hopType = []

section Check

variable {peers : List PeerStatus} {connection : ConnectionState} {s : State} {hop : HopType}

/-- The loop over the answer leaves everything as it was, or the connection has a date after it. -/
theorem foldl_checkStatus_cases (r : ConnectionState × List Signal) :
    peers.foldl checkStatus r = r ∨ (peers.foldl checkStatus r).1.date ≠ none := by
  induction peers generalizing r with
  | nil => exact .inl rfl
  | cons status peers ih =>
    rw [List.foldl_cons]
    have hone : checkStatus r status = r ∨ (checkStatus r status).1.date ≠ none := by
      unfold checkStatus
      split_ifs
      · exact .inl rfl
      · exact .inr (by simp)
      · exact .inl rfl
    rcases hone with hsame | hdated
    · rw [hsame]
      exact ih r
    · rcases ih (checkStatus r status) with hsame | hlater
      · rw [hsame]
        exact .inr hdated
      · exact .inr hlater

theorem isConnected_foldl_checkStatus {r : ConnectionState × List Signal}
    (hr : ∀ signal ∈ r.2, signal.isConnected = true) :
    ∀ signal ∈ (peers.foldl checkStatus r).2, signal.isConnected = true := by
  induction peers generalizing r with
  | nil => exact hr
  | cons status peers ih =>
    rw [List.foldl_cons]
    refine ih ?_
    unfold checkStatus
    split_ifs
    · exact hr
    · intro signal hsignal
      rcases List.mem_append.mp hsignal with hbefore | hnew
      · exact hr signal hbefore
      · rw [List.mem_singleton.mp hnew]
        rfl
    · exact hr

/-- A connection without a handshake after a poll is the one from before, and was not reported. -/
theorem checkConnection_of_undated (h : (checkConnection peers connection).1.date = none) :
    checkConnection peers connection = (connection, []) := by
  unfold checkConnection at h ⊢
  split_ifs with hdated
  · rfl
  · rw [if_neg hdated] at h
    exact (foldl_checkStatus_cases _).resolve_right fun hne => hne h

theorem isConnected_of_mem_reports {e : Event} :
    ∀ signal ∈ reports s e hop, signal.isConnected = true := by
  unfold reports
  split
  · simp
  · split
    · simp
    · unfold checkConnection
      split_ifs
      · simp
      · exact isConnected_foldl_checkStatus (by simp)

theorem foldl_checkStatus_of_ne (r : ConnectionState × List Signal)
    (h : ∀ status ∈ peers, status.pubkey.chars ≠ r.1.config.serverPublicKey.chars) :
    peers.foldl checkStatus r = r := by
  induction peers with
  | nil => rfl
  | cons status peers ih =>
    have hne : (r.1.config.serverPublicKey != status.pubkey) = true := by
      rw [bne, Bool.not_eq_true', ← Bool.not_eq_true, QString.beq_iff]
      exact fun heq => h status (by simp) heq.symm
    rw [List.foldl_cons, checkStatus, if_pos hne]
    exact ih fun status' hstatus => h status' (by simp [hstatus])

/-- What a poll does to a connection without a handshake: nothing, or one peer of the answer is its
own and has one. -/
theorem checkConnection_cases (hunique : (peers.map fun status => status.pubkey.chars).Nodup)
    (hdate : connection.date = none) :
    checkConnection peers connection = (connection, []) ∨
      ∃ status ∈ peers, (status.pubkey == connection.config.serverPublicKey) = true ∧
        status.handshake ≠ 0 ∧ checkConnection peers connection =
          ({ connection with date := some status.handshake }, [.connected status.pubkey]) := by
  rw [checkConnection, if_neg (by simp [hdate])]
  induction peers with
  | nil => exact .inl rfl
  | cons status peers ih =>
    obtain ⟨hnew, hrest⟩ := List.nodup_cons.mp hunique
    rw [List.foldl_cons]
    by_cases hne : (connection.config.serverPublicKey != status.pubkey) = true
    · rw [checkStatus, if_pos hne]
      rcases ih hrest with hnone | ⟨status', hstatus, hreport⟩
      · exact .inl hnone
      · exact .inr ⟨status', List.mem_cons_of_mem _ hstatus, hreport⟩
    · have hkey : connection.config.serverPublicKey.chars = status.pubkey.chars := by
        rw [bne, Bool.not_eq_true', Bool.not_eq_false, QString.beq_iff] at hne
        exact hne
      have hothers : ∀ status' ∈ peers,
          status'.pubkey.chars ≠ connection.config.serverPublicKey.chars := by
        intro status' hstatus heq
        exact hnew (List.mem_map.mpr ⟨status', hstatus, heq.trans hkey⟩)
      rw [checkStatus, if_neg hne]
      by_cases hzero : status.handshake = 0
      · rw [if_neg (by simpa using hzero), foldl_checkStatus_of_ne _ hothers]
        exact .inl rfl
      · rw [if_pos hzero, foldl_checkStatus_of_ne _ hothers]
        exact .inr ⟨status, by simp, QString.beq_iff.mpr hkey.symm, hzero, rfl⟩

/-- A connection with a handshake is not polled. -/
theorem checkConnection_of_date (h : connection.date.isSome = true) :
    checkConnection peers connection = (connection, []) := by
  rw [checkConnection, if_pos h]

theorem connections_checkHop (hop' : HopType) : (checkHop peers s hop).connections hop' =
    if hop' = hop then (s.connections hop).map fun c => (checkConnection peers c).1
    else s.connections hop' := by
  unfold checkHop
  rcases hc : s.connections hop with _ | c
  · split_ifs with heq
    · rw [heq, hc]
      rfl
    · rfl
  · exact Function.update_apply ..

theorem foldl_checkHop (hs : List HopType) (hnodup : hs.Nodup) :
    (hs.foldl (checkHop peers) s).signals =
        s.signals ++ hs.flatMap (reports s (.check peers)) ∧
      ∀ hop, (hs.foldl (checkHop peers) s).connections hop =
        if hop ∈ hs then (s.connections hop).map fun c => (checkConnection peers c).1
        else s.connections hop := by
  induction hs generalizing s with
  | nil => simp
  | cons first hs ih =>
    obtain ⟨hnew, hnodup⟩ := List.nodup_cons.mp hnodup
    obtain ⟨hsignals, hconnections⟩ := ih (s := checkHop peers s first) hnodup
    have hfirst : (checkHop peers s first).signals =
        s.signals ++ reports s (.check peers) first := by
      unfold checkHop
      rcases hc : s.connections first with _ | c
      · simp [reports, hc]
      · simp [reports, hc]
    have hothers : ∀ hop ∈ hs, (checkHop peers s first).connections hop = s.connections hop := by
      intro hop hhop
      rw [connections_checkHop, if_neg]
      rintro rfl
      exact hnew hhop
    refine ⟨?_, fun hop => ?_⟩
    · rw [List.foldl_cons, hsignals, hfirst, List.flatMap_cons, List.append_assoc,
        List.flatMap_congr fun hop hhop => ?_]
      simp only [reports, hothers hop hhop]
    · rw [List.foldl_cons, hconnections hop]
      by_cases hmem : hop ∈ hs
      · rw [if_pos hmem, if_pos (List.mem_cons_of_mem _ hmem), hothers hop hmem]
      · rw [if_neg hmem, connections_checkHop]
        by_cases heq : hop = first
        · rw [if_pos heq, if_pos (by simp [heq]), heq]
        · rw [if_neg heq, if_neg (by simp [heq, hmem])]

end Check

/-! ## One event -/

section React

variable {B : Backend} {s : State} {hop : HopType} {c : ConnectionState}

theorem mem_hops (hop : HopType) : hop ∈ hops := by
  cases hop <;> decide

theorem connections_checkHandshake (peers : List PeerStatus) (hop : HopType) :
    (checkHandshake peers s).connections hop =
      (s.connections hop).map fun c => (checkConnection peers c).1 := by
  have := (@foldl_checkHop peers s hops (by decide)).2 hop
  rwa [if_pos (mem_hops hop)] at this

/-- A connection without a handshake was there before, or the event is its activation. -/
theorem undated_react {e : Event} (hc : (react B s e).connections hop = some c)
    (hdate : c.date = none) : s.connections hop = some c ∨
      ∃ config, e = .request (.activate config) ∧ hop = config.hopType ∧ c = { config } := by
  rcases e with (config | emitSignals) | peers
  · have hP : Observed fun t => ∀ hop c, t.connections hop = some c → c.date = none →
        s.connections hop = some c ∨ hop = config.hopType ∧ c = { config } := by
      intro t t' hsame _ ht hop c hc
      exact ht hop c (hsame ▸ hc)
    have hpreserves := preserves_activateWith (B := B) hP config
      (fun t ht hop c hc hdate => ?_) (fun _ _ _ _ hc => by simp at hc) (fun _ ht => ht) 2
    · rcases hpreserves s (fun hop c hc _ => .inl hc) hop c hc hdate with hbefore | ⟨hhop, hnew⟩
      · exact .inl hbefore
      · exact .inr ⟨config, rfl, hhop, hnew⟩
    · by_cases hhop : hop = config.hopType
      · subst hhop
        change Function.update t.connections config.hopType (some { config }) config.hopType =
          some c at hc
        rw [Function.update_self, Option.some.injEq] at hc
        exact .inr ⟨rfl, hc.symm⟩
      · refine ht hop c (Eq.trans ?_ hc) hdate
        exact (Function.update_of_ne hhop _ _).symm
  · have hP : Observed fun t => ∀ hop c, t.connections hop = some c → s.connections hop = some c := by
      intro t t' hsame _ ht hop c hc
      exact ht hop c (hsame ▸ hc)
    have hpreserves := preserves_deactivate (B := B) hP emitSignals
      (fun _ _ _ _ hc => by simp at hc) fun _ _ ht => ht
    exact .inl (hpreserves s (fun _ _ hc => hc) hop c hc)
  · change (checkHandshake peers s).connections hop = some c at hc
    rw [connections_checkHandshake, Option.map_eq_some_iff] at hc
    obtain ⟨before, hbefore, rfl⟩ := hc
    rw [hbefore]
    rw [checkConnection_of_undated hdate]
    exact .inl rfl

theorem signals_react (e : Event) :
    (react B s e).signals.filter Signal.isConnected =
      s.signals.filter Signal.isConnected ++ hops.flatMap (reports s e) := by
  have hP : Observed fun t =>
      t.signals.filter Signal.isConnected = s.signals.filter Signal.isConnected :=
    fun _ _ _ hsame ht => (congrArg (List.filter Signal.isConnected) hsame).trans ht
  have hemit : ∀ t : State, ∀ signal : Signal, signal.isConnected = false →
      t.signals.filter Signal.isConnected = s.signals.filter Signal.isConnected →
      (t.signals ++ [signal]).filter Signal.isConnected =
        s.signals.filter Signal.isConnected := by
    intro t signal hsignal ht
    rw [List.filter_append, ht, List.filter_cons, hsignal]
    simp
  rcases e with (config | emitSignals) | peers
  · rw [show hops.flatMap (reports s (.request (.activate config))) = [] from rfl, List.append_nil]
    exact preserves_activateWith (B := B) hP config (fun _ ht => ht) (fun _ ht => ht)
      (fun t ht => hemit t _ rfl ht) 2 s rfl
  · rw [show hops.flatMap (reports s (.request (.deactivate emitSignals))) = [] from rfl,
      List.append_nil]
    exact preserves_deactivate (B := B) hP emitSignals (fun _ ht => ht)
      (fun t _ ht => hemit t _ rfl ht) s rfl
  · have hsignals := (@foldl_checkHop peers s hops (by decide)).1
    show (hops.foldl (checkHop peers) s).signals.filter Signal.isConnected = _
    have hall : ∀ signal ∈ hops.flatMap (reports s (.check peers)), signal.isConnected = true := by
      intro signal hsignal
      obtain ⟨hop, -, hreport⟩ := List.mem_flatMap.mp hsignal
      exact isConnected_of_mem_reports signal hreport
    rw [hsignals, List.filter_append, List.filter_eq_self.mpr hall]

/-- A connection that has no handshake after an event was not reported by it. -/
theorem reports_eq_nil {e : Event} (hc : (react B s e).connections hop = some c)
    (hdate : c.date = none) : reports s e hop = [] := by
  rcases e with request | peers
  · rfl
  · change (checkHandshake peers s).connections hop = some c at hc
    rw [connections_checkHandshake, Option.map_eq_some_iff] at hc
    obtain ⟨before, hbefore, rfl⟩ := hc
    simp only [reports, hbefore, checkConnection_of_undated hdate]

theorem of_mem_reports {e : Event} {signal : Signal} (hunique : e.Unique)
    (hsignal : signal ∈ reports s e hop) : ∃ before peers,
      s.connections hop = some before ∧ before.date = none ∧ e = .check peers ∧
        reports s e hop = [signal] ∧ ∃ status ∈ peers,
          (status.pubkey == before.config.serverPublicKey) = true ∧ status.handshake ≠ 0 ∧
            signal = .connected status.pubkey ∧
              (react B s e).connections hop =
                some { before with date := some status.handshake } := by
  rcases e with request | peers
  · simp [reports] at hsignal
  · rcases hbefore : s.connections hop with _ | before
    · simp [reports, hbefore] at hsignal
    simp only [reports, hbefore] at hsignal ⊢
    have hdate : before.date = none := by
      by_contra hne
      rw [checkConnection_of_date (Option.isSome_iff_ne_none.mpr hne)] at hsignal
      simp at hsignal
    rcases checkConnection_cases hunique hdate with hnone | ⟨status, hstatus, hkey, hne, hreport⟩
    · rw [hnone] at hsignal
      simp at hsignal
    · rw [hreport] at hsignal
      obtain rfl : signal = .connected status.pubkey := List.mem_singleton.mp hsignal
      refine ⟨before, peers, rfl, hdate, rfl, by rw [hreport], status, hstatus, hkey, hne, rfl, ?_⟩
      show (checkHandshake peers s).connections hop = _
      rw [connections_checkHandshake, hbefore, Option.map_some, hreport]

end React

/-! ## All runs -/

section Runs

variable {B : Backend} {es : List Event}

theorem stateAt_succ {n : ℕ} {e : Event} (h : es[n]? = some e) :
    stateAt B es (n + 1) = react B (stateAt B es n) e := by
  rw [stateAt, List.take_add_one, h, List.foldl_append]
  rfl

theorem stateAt_end {n : ℕ} (h : es[n]? = none) : stateAt B es (n + 1) = stateAt B es n := by
  rw [stateAt, List.take_add_one, h]
  simp [stateAt]

/-- An entry goes on waiting as long as it is there without a handshake. -/
theorem Awaits.succ {i j : ℕ} {config : InterfaceConfig} (h : Awaits B es i j config)
    (hnext : (stateAt B es (j + 1)).connections config.hopType = some { config }) :
    Awaits B es i (j + 1) config := by
  refine ⟨Nat.lt_succ_of_lt h.before, h.installs, h.fresh, fun m him hmj => ?_,
    fun m e him hmj he => ?_⟩
  · rcases Nat.le_succ_iff.mp hmj with hle | rfl
    · exact h.present m him hle
    · exact hnext
  · rcases Nat.lt_succ_iff_lt_or_eq.mp hmj with hlt | rfl
    · exact h.unreported m e him hlt he
    · rw [stateAt_succ he] at hnext
      exact reports_eq_nil hnext rfl

theorem exists_awaits {j : ℕ} {hop : HopType} {c : ConnectionState}
    (hc : (stateAt B es j).connections hop = some c) (hdate : c.date = none) :
    ∃ i config, hop = config.hopType ∧ c = { config } ∧ Awaits B es i j config := by
  induction j with
  | zero => simp [stateAt] at hc
  | succ j ih =>
    rcases he : es[j]? with _ | e
    · have hbefore := hc
      rw [stateAt_end he] at hbefore
      obtain ⟨i, config, rfl, rfl, hawaits⟩ := ih hbefore
      exact ⟨i, config, rfl, rfl, hawaits.succ hc⟩
    · have hafter := hc
      rw [stateAt_succ he] at hafter
      by_cases hbefore : (stateAt B es j).connections hop = some c
      · obtain ⟨i, config, rfl, rfl, hawaits⟩ := ih hbefore
        exact ⟨i, config, rfl, rfl, hawaits.succ hc⟩
      · obtain ⟨config, rfl, rfl, rfl⟩ := (undated_react hafter hdate).resolve_left hbefore
        refine ⟨j, config, rfl, rfl, Nat.lt_succ_self j, he, hbefore, fun m hjm hmj => ?_,
          fun m e hjm hmj _ => absurd hmj (by omega)⟩
        obtain rfl : m = j + 1 := by omega
        exact hc

/-- **Handshakes are reported once.** In every run, the signals that report a handshake are those of
the polls, each for one connection of the map; a poll emits at most one for a connection, and then
a peer of its answer has that public key and a handshake, the connection has waited for it since
its installation, and has it from then on. -/
theorem connected_once (B : Backend) (es : List Event) (hunique : ∀ e ∈ es, e.Unique) (j : ℕ)
    (e : Event) (he : es[j]? = some e) :
    (stateAt B es (j + 1)).signals.filter Signal.isConnected =
        (stateAt B es j).signals.filter Signal.isConnected ++
          hops.flatMap (reports (stateAt B es j) e) ∧
      ∀ hop, (reports (stateAt B es j) e hop).length ≤ 1 ∧
        ∀ signal ∈ reports (stateAt B es j) e hop, ∃ i config peers,
          hop = config.hopType ∧ Awaits B es i j config ∧ e = .check peers ∧
            ∃ status ∈ peers, (status.pubkey == config.serverPublicKey) = true ∧
              status.handshake ≠ 0 ∧ signal = .connected status.pubkey ∧
                (stateAt B es (j + 1)).connections hop =
                  some { config, date := some status.handshake } := by
  have heunique := hunique e (List.mem_of_getElem? he)
  rw [stateAt_succ he]
  refine ⟨signals_react e, fun hop => ⟨?_, fun signal hsignal => ?_⟩⟩
  · rcases hlist : reports (stateAt B es j) e hop with _ | ⟨signal, rest⟩
    · simp
    · obtain ⟨-, -, -, -, -, hone, -⟩ := @of_mem_reports B _ _ _ signal heunique
        (hlist ▸ List.mem_cons_self)
      rw [← hlist, hone]
      simp
  · obtain ⟨before, peers, hbefore, hdate, rfl, -, status, hstatus, hkey, hne, hreport, hafter⟩ :=
      of_mem_reports (B := B) heunique hsignal
    obtain ⟨i, config, rfl, rfl, hawaits⟩ := exists_awaits hbefore hdate
    exact ⟨i, config, peers, rfl, hawaits, rfl, status, hstatus, hkey, hne, hreport, hafter⟩

/-- A hop comes up, is polled twice, and its handshake is reported by the second poll. -/
theorem connected_once_single_hop :
    reports (stateAt succeedingBackend
        [.request (.activate (hopConfig .singleHop "b" 0x0a000000#32)),
          .check [⟨.text "b".toList, 0⟩], .check [⟨.text "b".toList, 7⟩]] 2)
        (.check [⟨.text "b".toList, 7⟩]) .singleHop = [.connected (.text "b".toList)] ∧
      (reports (stateAt succeedingBackend
        [.request (.activate (hopConfig .singleHop "b" 0x0a000000#32)),
          .check [⟨.text "b".toList, 0⟩], .check [⟨.text "b".toList, 7⟩]] 2)
        (.check [⟨.text "b".toList, 7⟩]) .singleHop).length ≤ 1 := by
  refine ⟨by decide, ((connected_once succeedingBackend _ ?_ 2 _ rfl).2 .singleHop).1⟩
  simp [Event.Unique]

end Runs

end WgDesktop.Daemon
