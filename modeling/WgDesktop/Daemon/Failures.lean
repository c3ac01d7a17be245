import WgDesktop.Daemon.Interface
import Mathlib.Order.CompletePartialOrder

/-!
# Activations that fail

What `Daemon::activate` leaves when a call to the backend fails. The daemon does not undo what it
did before the failure: `leavesNoTrace_iff` says at which call it can fail with no trace left, and
`reportsFailureOnce_iff` when it reports the failure once.
-/

namespace WgDesktop.Daemon

open Runs

/-! ## Calls in order -/

section Calls

/-- Calls to the backend until one of them fails. -/
def callAll (B : Backend) (effects : List (State → State)) : DaemonM Unit := effects.forM (call B)

/-- Calls to the backend whose results are ignored. -/
def callAllIgnored (B : Backend) (effects : List (State → State)) : DaemonM Unit :=
  effects.forM (callIgnored B)

/-- The state after calls that succeed. -/
def after (effects : List (State → State)) (s : State) : State :=
  effects.foldl (fun s effect => { effect s with calls := s.calls + 1 }) s

variable {B : Backend} {effects effects' : List (State → State)} {s : State}

@[simp] theorem after_nil : after [] s = s := rfl

@[simp] theorem after_cons (effect : State → State) :
    after (effect :: effects) s = after effects { effect s with calls := s.calls + 1 } := rfl

theorem after_append : after (effects ++ effects') s = after effects' (after effects s) :=
  List.foldl_append

@[simp] theorem calls_after : (after effects s).calls = s.calls + effects.length := by
  induction effects generalizing s with
  | nil => rfl
  | cons effect effects ih =>
    rw [after_cons, ih, List.length_cons]
    dsimp only
    omega

theorem after_frame {α : Type*} (f : State → α) (hcalls : ∀ s n, f { s with calls := n } = f s)
    (h : ∀ effect ∈ effects, ∀ s, f (effect s) = f s) : f (after effects s) = f s := by
  induction effects generalizing s with
  | nil => rfl
  | cons effect effects ih =>
    rw [after_cons, ih fun e he => h e (by simp [he]), hcalls, h effect (by simp)]

theorem exec_call_ok {effect : State → State} (h : B.succeeds s.calls = true) :
    exec (call B effect) s = (.ok (), { effect s with calls := s.calls + 1 }) := by
  rw [exec_call, if_pos h]

theorem exec_call_error {effect : State → State} (h : B.succeeds s.calls = false) :
    exec (call B effect) s = (.error (), { s with calls := s.calls + 1 }) := by
  rw [exec_call, if_neg (by simp [h])]

theorem callAll_append : callAll B (effects ++ effects') =
    (do callAll B effects; callAll B effects') := List.forM_append

theorem callAllIgnored_append : callAllIgnored B (effects ++ effects') =
    (do callAllIgnored B effects; callAllIgnored B effects') := List.forM_append

theorem exec_callAll_ok (h : ∀ i < effects.length, B.succeeds (s.calls + i) = true) :
    exec (callAll B effects) s = (.ok (), after effects s) := by
  induction effects generalizing s with
  | nil => rfl
  | cons effect effects ih =>
    show exec (call B effect >>= fun _ => callAll B effects) s = _
    rw [exec_bind_ok (exec_call_ok (h 0 (by simp))), ih, after_cons]
    intro i hi
    have := h (i + 1) (by simpa using hi)
    rwa [show s.calls + 1 + i = s.calls + (i + 1) by omega]

theorem exec_callAll_error {k : ℕ} (hk : k < effects.length)
    (h : ∀ i < k, B.succeeds (s.calls + i) = true) (hfail : B.succeeds (s.calls + k) = false) :
    exec (callAll B effects) s =
      (.error (), { after (effects.take k) s with calls := s.calls + k + 1 }) := by
  induction effects generalizing s k with
  | nil => simp at hk
  | cons effect effects ih =>
    show exec (call B effect >>= fun _ => callAll B effects) s = _
    cases k with
    | zero =>
      rw [exec_bind, exec_call_error hfail]
      rfl
    | succ k =>
      rw [exec_bind_ok (exec_call_ok (h 0 (by omega))), ih (by simpa using hk)]
      · rw [List.take_succ_cons, after_cons]
        dsimp only
        rw [show s.calls + 1 + k + 1 = s.calls + (k + 1) + 1 by omega]
      · intro i hi
        have := h (i + 1) (by omega)
        rwa [show s.calls + 1 + i = s.calls + (i + 1) by omega]
      · rwa [show s.calls + 1 + k = s.calls + (k + 1) by omega]

theorem exec_callAllIgnored_ok (h : ∀ i < effects.length, B.succeeds (s.calls + i) = true) :
    exec (callAllIgnored B effects) s = (.ok (), after effects s) := by
  induction effects generalizing s with
  | nil => rfl
  | cons effect effects ih =>
    have hfirst : exec (callIgnored B effect) s =
        (.ok (), { effect s with calls := s.calls + 1 }) := by
      rw [callIgnored, exec_tryCatch, exec_call_ok (h 0 (by simp))]
    show exec (callIgnored B effect >>= fun _ => callAllIgnored B effects) s = _
    rw [exec_bind_ok hfirst, ih, after_cons]
    intro i hi
    have := h (i + 1) (by simpa using hi)
    rwa [show s.calls + 1 + i = s.calls + (i + 1) by omega]

/-- Calls whose results are ignored go on whatever fails, and keep what each effect keeps. -/
theorem exec_callAllIgnored (P : State → Prop) (hcalls : ∀ s n, P s → P { s with calls := n })
    (h : ∀ effect ∈ effects, ∀ s, P s → P (effect s)) (hs : P s) :
    ∃ s', exec (callAllIgnored B effects) s = (.ok (), s') ∧ P s' ∧
      s'.calls = s.calls + effects.length := by
  induction effects generalizing s with
  | nil => exact ⟨s, rfl, hs, rfl⟩
  | cons effect effects ih =>
    obtain ⟨s₁, hfirst, hs₁, hcalls₁⟩ : ∃ s₁, exec (callIgnored B effect) s = (.ok (), s₁) ∧ P s₁ ∧
        s₁.calls = s.calls + 1 := by
      rw [callIgnored, exec_tryCatch, exec_call]
      split_ifs
      · exact ⟨_, rfl, hcalls _ _ (h effect (by simp) s hs), rfl⟩
      · exact ⟨_, rfl, hcalls _ _ hs, rfl⟩
    obtain ⟨s', hrest, hs', hcalls'⟩ := ih (fun e he => h e (by simp [he])) hs₁
    refine ⟨s', ?_, hs', by rw [hcalls', hcalls₁, List.length_cons]; omega⟩
    show exec (callIgnored B effect >>= fun _ => callAllIgnored B effects) s = _
    rw [exec_bind_ok hfirst, hrest]

theorem exec_callAll_cases (B : Backend) (effects : List (State → State)) (s : State) :
    ((∀ i < effects.length, B.succeeds (s.calls + i) = true) ∧
        exec (callAll B effects) s = (.ok (), after effects s)) ∨
      ∃ k < effects.length, B.succeeds (s.calls + k) = false ∧
        exec (callAll B effects) s =
          (.error (), { after (effects.take k) s with calls := s.calls + k + 1 }) := by
  by_cases h : ∃ k, k < effects.length ∧ B.succeeds (s.calls + k) = false
  · classical
    obtain ⟨hk, hfail⟩ := Nat.find_spec h
    refine .inr ⟨Nat.find h, hk, hfail, exec_callAll_error hk (fun i hi => ?_) hfail⟩
    by_contra hne
    exact Nat.find_min h hi ⟨by omega, by simpa using hne⟩
  · have hall : ∀ i < effects.length, B.succeeds (s.calls + i) = true := fun i hi => by
      by_contra hne
      exact h ⟨i, hi, by simpa using hne⟩
    exact .inl ⟨hall, exec_callAll_ok hall⟩

end Calls

/-! ## The methods as calls -/

section Methods

variable {B : Backend}

/-- The effect of `updatePeer`. -/
def withPeer (config : InterfaceConfig) (s : State) : State :=
  { s with
    peers := config.serverPublicKey.chars :: s.peers
    peerConfigs := Function.update s.peerConfigs config.serverPublicKey.chars (some config) }

/-- The effect of `updateRoutePrefix`. -/
def withRoute (ip : IPAddress) (s : State) : State := { s with routes := ip :: s.routes }

/-- The effect of `deleteRoutePrefix`. -/
def withoutRoute (ip : IPAddress) (s : State) : State :=
  { s with routes := s.routes.filter (· != ip) }

/-- What creates the interface. -/
def interfaceEffects (hasIpUtils interfaceExists : Bool) : List (State → State) :=
  if interfaceExists then []
  else
    (fun s => { s with interfaceExists := true }) ::
      ((if hasIpUtils then [id, id] else []) ++ [id])

/-- What sets the resolvers, for a hop that has any. -/
def resolverEffects (B : Backend) (config : InterfaceConfig) : List (State → State) :=
  if config.hopType = .multiHopExit ∨ config.hopType = .singleHop then
    [fun s => { s with resolvers := resolversOf B config }]
  else []

/-- What brings up a hop. -/
def bringUpEffects (B : Backend) (config : InterfaceConfig) (interfaceExists : Bool) :
    List (State → State) :=
  interfaceEffects B.hasIpUtils interfaceExists ++
    withPeer config :: (resolverEffects B config ++ config.allowedIPAddressRanges.map withRoute)

/-- What removes the connections. -/
def cleanUpEffects (states : List ConnectionState) : List (State → State) :=
  states.flatMap fun c =>
    c.config.allowedIPAddressRanges.map withoutRoute ++ [withoutPeer c.config]

/-- What a successful activation ends with. -/
def finished (config : InterfaceConfig) (s : State) : State :=
  { setConnection config s with handshakeTimer := true }

theorem callAll_singleton (effect : State → State) : callAll B [effect] = call B effect := by
  show (call B effect >>= fun _ => pure ()) = _
  exact bind_pure_unit

theorem updateRoutes_eq (ranges : List IPAddress) :
    updateRoutes B ranges = callAll B (ranges.map withRoute) := by
  rw [updateRoutes, callAll, List.forM_eq_forM, List.forM_eq_forM, List.forM_map]
  rfl

theorem deleteRoutes_eq (ranges : List IPAddress) :
    deleteRoutes B ranges = callAllIgnored B (ranges.map withoutRoute) := by
  rw [deleteRoutes, callAllIgnored, List.forM_eq_forM, List.forM_eq_forM, List.forM_map]
  rfl

theorem maybeUpdateResolvers_eq (config : InterfaceConfig) :
    maybeUpdateResolvers B config = callAll B (resolverEffects B config) := by
  unfold maybeUpdateResolvers resolverEffects
  split_ifs
  · exact (callAll_singleton _).symm
  · rfl

theorem exec_ensureInterface (s : State) : exec (ensureInterface B) s =
    exec (callAll B (interfaceEffects B.hasIpUtils s.interfaceExists)) s := by
  unfold ensureInterface interfaceEffects setUpInterface addInterface
  rw [exec_bind, exec_get]
  dsimp only
  cases s.interfaceExists with
  | true => rfl
  | false =>
    cases B.hasIpUtils with
    | true => simp [callAll]
    | false => simp [callAll]

theorem exec_bringUp (config : InterfaceConfig) (s : State) : exec (bringUp B config) s =
    exec (do
      callAll B (bringUpEffects B config s.interfaceExists)
      modify (finished config)) s := by
  unfold bringUp bringUpEffects
  rw [exec_bind, exec_ensureInterface, callAll_append, bind_assoc, exec_bind, ← List.singleton_append,
    callAll_append, callAll_append, callAll_singleton, maybeUpdateResolvers_eq, updateRoutes_eq]
  simp only [bind_assoc]
  rfl

theorem cleanUp_eq (states : List ConnectionState) :
    states.forM (cleanUp B) = callAllIgnored B (cleanUpEffects states) := by
  induction states with
  | nil => rfl
  | cons c states ih =>
    have hone : cleanUp B c = callAllIgnored B
        (c.config.allowedIPAddressRanges.map withoutRoute ++ [withoutPeer c.config]) := by
      rw [callAllIgnored_append, ← deleteRoutes_eq]
      simp [cleanUp, callAllIgnored]
    rw [cleanUpEffects, List.flatMap_cons, callAllIgnored_append, ← hone]
    show (cleanUp B c >>= fun _ => states.forM (cleanUp B)) = _
    rw [ih, cleanUpEffects]

theorem exec_deactivate (s : State) : exec (deactivate B false) s =
    exec (do
      callAllIgnored B
        ((fun s => { s with resolvers := [] }) :: cleanUpEffects (connectionList s))
      modify fun s => { s with connections := fun _ => none }
      deleteInterface B) s := by
  have hrest : ∀ s, exec (do
      modify fun s => { s with connections := fun _ => none }
      tryCatch (deleteInterface B) fun _ => do
        if false then modify fun s => { s with signals := s.signals ++ [.disconnected] }
        throw ()
      if false then modify fun s => { s with signals := s.signals ++ [.disconnected] }) s =
      exec (do
        modify fun s => { s with connections := fun _ => none }
        deleteInterface B) s := by
    intro s
    rw [exec_bind_ok (exec_modify _ _), exec_bind_ok (exec_modify _ _), deleteInterface, exec_bind,
      exec_tryCatch, exec_call]
    dsimp only
    by_cases hok : B.succeeds s.calls = true
    · rw [if_pos hok]
      rfl
    · rw [if_neg hok]
      rfl
  obtain ⟨s₁, hrestore, hconn, -⟩ := @exec_callAllIgnored B
    [fun s => { s with resolvers := [] }] s (fun s₁ => s₁.connections = s.connections)
    (fun _ _ h => h) (by simp) rfl
  have hlist : connectionList s₁ = connectionList s := by
    rw [connectionList, hconn, connectionList]
  rw [← List.singleton_append, callAllIgnored_append, bind_assoc, exec_bind_ok hrestore]
  have hfirst : callAllIgnored B [fun s => { s with resolvers := [] }] =
      callIgnored B fun s => { s with resolvers := [] } := by
    show (callIgnored B _ >>= fun _ => pure ()) = _
    exact bind_pure_unit
  rw [hfirst] at hrestore
  unfold deactivate
  rw [exec_bind_ok hrestore, exec_bind_ok (exec_get s₁), hlist, cleanUp_eq, exec_bind, exec_bind]
  generalize exec (callAllIgnored B (cleanUpEffects (connectionList s))) s₁ = r
  obtain ⟨result, s₂⟩ := r
  cases result with
  | error e => rfl
  | ok u => exact hrest s₂

theorem switch_eq (current config : InterfaceConfig) : switch B current config = (do
    call B (withPeer config)
    tryCatch (callAll B (config.allowedIPAddressRanges.map withRoute)) fun _ => pure ()
    callAllIgnored B ((droppedRanges current config).map withoutRoute)
    callAll B
      (if config.serverPublicKey != current.serverPublicKey then [withoutPeer current] else [])
    modify (setConnection config)
    callAll B ((fun s => { s with resolvers := [] }) :: resolverEffects B config)
    modify (finished config)) := by
  have hrestore : callAll B ((fun s => { s with resolvers := [] }) :: resolverEffects B config) =
      (do restoreResolvers B; maybeUpdateResolvers B config) := by
    rw [maybeUpdateResolvers_eq]
    rfl
  unfold switch switchServer
  rw [hrestore, ← updateRoutes_eq, ← deleteRoutes_eq]
  split_ifs
  · rw [callAll_singleton]
    simp only [bind_assoc]
    rfl
  · simp only [bind_assoc]
    rfl

end Methods

/-! ## The one call that fails -/

section Failing

variable {B : Backend} {effects : List (State → State)} {s : State} {k : ℕ} {f : Unit → DaemonM Unit}

/-- From the given call on, none fails. -/
def Passes (B : Backend) (calls : ℕ) : Prop := ∀ i, B.succeeds (calls + i) = true

/-- From the given call on, the one `k` calls later is the only one to fail. -/
def FailsAt (B : Backend) (calls k : ℕ) : Prop := ∀ i, B.succeeds (calls + i) = (i != k)

theorem FailsAt.ok (h : FailsAt B s.calls k) {i : ℕ} (hi : i < k) :
    B.succeeds (s.calls + i) = true := by
  rw [h i]
  simpa using by omega

theorem FailsAt.error (h : FailsAt B s.calls k) : B.succeeds (s.calls + k) = false := by
  rw [h k]
  simp

theorem FailsAt.later {calls : ℕ} (h : FailsAt B calls k) {n : ℕ} (hn : n ≤ k) :
    FailsAt B (calls + n) (k - n) := by
  intro i
  rw [Nat.add_assoc, h (n + i), Bool.eq_iff_iff, bne_iff_ne, bne_iff_ne]
  omega

theorem FailsAt.passes {calls : ℕ} (h : FailsAt B calls k) {n : ℕ} (hn : k < n) :
    Passes B (calls + n) := by
  intro i
  rw [Nat.add_assoc, h (n + i), bne_iff_ne]
  omega

theorem Passes.later {calls : ℕ} (h : Passes B calls) (n : ℕ) : Passes B (calls + n) := by
  intro i
  rw [Nat.add_assoc]
  exact h (n + i)

theorem Passes.callAll (h : Passes B s.calls) :
    exec (callAll B effects >>= f) s = exec (f ()) (after effects s) :=
  exec_bind_ok (exec_callAll_ok fun i _ => h i)

theorem FailsAt.callAll_before (h : FailsAt B s.calls k) (hk : effects.length ≤ k) :
    exec (callAll B effects >>= f) s = exec (f ()) (after effects s) :=
  exec_bind_ok (exec_callAll_ok fun _ hi => h.ok (by omega))

theorem FailsAt.callAll_at (h : FailsAt B s.calls k) (hk : k < effects.length) :
    exec (callAll B effects >>= f) s =
      (.error (), { after (effects.take k) s with calls := s.calls + k + 1 }) := by
  rw [exec_bind, exec_callAll_error hk (fun _ hi => h.ok hi) h.error]

end Failing

/-! ## What is left -/

/-- What a failed activation has to leave alone. -/
structure Tables where
  connections : HopType → Option ConnectionState
  peers : List (List Char)
  peerConfigs : List Char → Option InterfaceConfig
  routes : List IPAddress

def State.tables (s : State) : Tables where
  connections := s.connections
  peers := s.peers
  peerConfigs := s.peerConfigs
  routes := s.routes

section Tables

variable {s : State} {effects : List (State → State)}

theorem tables_after_frame (h : ∀ effect ∈ effects, ∀ s, (effect s).tables = s.tables) :
    (after effects s).tables = s.tables := after_frame State.tables (fun _ _ => rfl) h

theorem tables_after_withRoute (ranges : List IPAddress) :
    (after (ranges.map withRoute) s).tables =
      { s.tables with routes := ranges.reverse ++ s.routes } := by
  induction ranges generalizing s with
  | nil => rfl
  | cons ip ranges ih =>
    rw [List.map_cons, after_cons, ih, List.reverse_cons, List.append_assoc]
    rfl

theorem tables_after_withoutRoute (ranges : List IPAddress) :
    (after (ranges.map withoutRoute) s).tables =
      { s.tables with routes := withoutRoutes ranges s.routes } := by
  induction ranges generalizing s with
  | nil =>
    rw [show withoutRoutes [] s.routes = s.routes by simp [withoutRoutes]]
    rfl
  | cons ip ranges ih =>
    rw [List.map_cons, after_cons, ih, ← List.singleton_append, withoutRoutes_append,
      show withoutRoutes [ip] s.routes = s.routes.filter (· != ip) by simp [withoutRoutes]]
    rfl

theorem eq_of_mem_interfaceEffects {hasIpUtils interfaceExists : Bool} {effect : State → State}
    (h : effect ∈ interfaceEffects hasIpUtils interfaceExists) :
    effect = (fun s => { s with interfaceExists := true }) ∨ effect = id := by
  cases interfaceExists with
  | true => simp [interfaceEffects] at h
  | false =>
    cases hasIpUtils with
    | true => simpa [interfaceEffects] using h
    | false => simpa [interfaceEffects] using h

theorem interfaceEffects_frame {hasIpUtils interfaceExists : Bool} :
    ∀ effect ∈ interfaceEffects hasIpUtils interfaceExists, ∀ s, (effect s).tables = s.tables := by
  intro effect heffect s
  rcases eq_of_mem_interfaceEffects heffect with rfl | rfl
  · rfl
  · rfl

theorem resolverEffects_frame {B : Backend} {config : InterfaceConfig} :
    ∀ effect ∈ resolverEffects B config, ∀ s, (effect s).tables = s.tables := by
  intro effect heffect s
  unfold resolverEffects at heffect
  split_ifs at heffect
  · obtain rfl : effect = fun s => { s with resolvers := resolversOf B config } := by
      simpa using heffect
    rfl
  · simp at heffect

theorem after_cleanUpEffects (states : List ConnectionState) :
    (after (cleanUpEffects states) s).connections = s.connections ∧
      (after (cleanUpEffects states) s).peers = withoutPeers states s.peers ∧
      (after (cleanUpEffects states) s).routes =
        withoutRoutes (states.flatMap fun c => c.config.allowedIPAddressRanges) s.routes := by
  induction states generalizing s with
  | nil => simp [cleanUpEffects, withoutPeers, withoutRoutes]
  | cons c states ih =>
    have hroutes := tables_after_withoutRoute (s := s) c.config.allowedIPAddressRanges
    rw [cleanUpEffects, List.flatMap_cons, after_append, after_append, List.flatMap_cons,
      withoutRoutes_append, withoutPeers_cons]
    generalize after (c.config.allowedIPAddressRanges.map withoutRoute) s = s₁ at hroutes
    obtain ⟨hconnections, hpeers, hrest⟩ :=
      ih (s := { withoutPeer c.config s₁ with calls := s₁.calls + 1 })
    have hconnections₁ : s₁.connections = s.connections := congrArg Tables.connections hroutes
    have hpeers₁ : s₁.peers = s.peers := congrArg Tables.peers hroutes
    have hroutes₁ : s₁.routes = withoutRoutes c.config.allowedIPAddressRanges s.routes :=
      congrArg Tables.routes hroutes
    refine ⟨hconnections.trans hconnections₁, hpeers.trans ?_, hrest.trans ?_⟩
    · dsimp only [withoutPeer]
      rw [hpeers₁]
    · dsimp only [withoutPeer]
      rw [hroutes₁]

/-- The peers and what they were set from, the routes and the connections are the same. -/
structure AsBefore (t t' : Tables) : Prop where
  connections : t'.connections = t.connections
  peers : ∀ key, key ∈ t'.peers ↔ key ∈ t.peers
  peerConfigs : t'.peerConfigs = t.peerConfigs
  routes : routeSet t'.routes = routeSet t.routes

/-- There are no connections, no peers and no routes. -/
structure Cleaned (t : Tables) : Prop where
  connections : t.connections = fun _ => none
  peers : t.peers = []
  routes : t.routes = []

/-- A failure leaves the tables as they were, or empty; a success has all routes of the
configuration. -/
def LeavesNoTrace (config : InterfaceConfig) (s : State) (r : Except Unit Unit × State) : Prop :=
  match r.1 with
  | .error _ => AsBefore s.tables r.2.tables ∨ Cleaned r.2.tables
  | .ok _ => routeSet config.allowedIPAddressRanges ⊆ routeSet r.2.routes

theorem AsBefore.refl (t : Tables) : AsBefore t t := ⟨rfl, fun _ => Iff.rfl, rfl, rfl⟩

end Tables

/-! ## A new hop -/

/-- The calls that create the interface. -/
def interfaceCalls (hasIpUtils interfaceExists : Bool) : ℕ :=
  if interfaceExists then 0 else if hasIpUtils then 4 else 2

/-- The calls that set the resolvers. -/
def resolverCalls (config : InterfaceConfig) : ℕ :=
  if config.hopType = .multiHopExit ∨ config.hopType = .singleHop then 1 else 0

/-- The calls up to the first route. -/
def preRouteCalls (hasIpUtils interfaceExists : Bool) (config : InterfaceConfig) : ℕ :=
  interfaceCalls hasIpUtils interfaceExists + 1 + resolverCalls config

section BringUp

variable {B : Backend} {s : State} {k : ℕ} {config : InterfaceConfig}

theorem length_interfaceEffects (hasIpUtils interfaceExists : Bool) :
    (interfaceEffects hasIpUtils interfaceExists).length =
      interfaceCalls hasIpUtils interfaceExists := by
  cases interfaceExists <;> cases hasIpUtils <;> rfl

theorem length_resolverEffects (B : Backend) (config : InterfaceConfig) :
    (resolverEffects B config).length = resolverCalls config := by
  unfold resolverEffects resolverCalls
  split_ifs <;> rfl

theorem length_bringUpEffects (B : Backend) (config : InterfaceConfig) (interfaceExists : Bool) :
    (bringUpEffects B config interfaceExists).length =
      preRouteCalls B.hasIpUtils interfaceExists config + config.allowedIPAddressRanges.length := by
  rw [bringUpEffects, List.length_append, List.length_cons, List.length_append, List.length_map,
    length_interfaceEffects, length_resolverEffects, preRouteCalls]
  omega

theorem tables_after_bringUp_early {interfaceExists : Bool}
    (hk : k ≤ interfaceCalls B.hasIpUtils interfaceExists) :
    (after ((bringUpEffects B config interfaceExists).take k) s).tables = s.tables := by
  rw [bringUpEffects, List.take_append_of_le_length (by rwa [length_interfaceEffects])]
  exact tables_after_frame fun effect heffect =>
    interfaceEffects_frame effect (List.mem_of_mem_take heffect)

theorem tables_after_bringUp_late {interfaceExists : Bool}
    (hk : interfaceCalls B.hasIpUtils interfaceExists < k) :
    (after ((bringUpEffects B config interfaceExists).take k) s).tables =
      { s.tables with
        peers := config.serverPublicKey.chars :: s.peers
        peerConfigs := Function.update s.peerConfigs config.serverPublicKey.chars (some config)
        routes :=
          (config.allowedIPAddressRanges.take
            (k - preRouteCalls B.hasIpUtils interfaceExists config)).reverse ++ s.routes } := by
  obtain ⟨j, rfl⟩ : ∃ j, k = interfaceCalls B.hasIpUtils interfaceExists + (j + 1) :=
    ⟨k - interfaceCalls B.hasIpUtils interfaceExists - 1, by omega⟩
  have hinterface := @tables_after_frame s _
    (@interfaceEffects_frame B.hasIpUtils interfaceExists)
  rw [bringUpEffects, ← length_interfaceEffects, List.take_length_add_append, List.take_succ_cons,
    after_append, after_cons, List.take_append, after_append, ← List.map_take,
    tables_after_withRoute, length_resolverEffects, length_interfaceEffects, preRouteCalls,
    show interfaceCalls B.hasIpUtils interfaceExists + (j + 1) -
      (interfaceCalls B.hasIpUtils interfaceExists + 1 + resolverCalls config) =
        j - resolverCalls config by omega]
  generalize after (interfaceEffects B.hasIpUtils interfaceExists) s = s₁ at hinterface
  have hresolvers := @tables_after_frame { withPeer config s₁ with calls := s₁.calls + 1 }
    ((resolverEffects B config).take j) fun effect heffect =>
      resolverEffects_frame effect (List.mem_of_mem_take heffect)
  generalize after ((resolverEffects B config).take j)
    { withPeer config s₁ with calls := s₁.calls + 1 } = s₂ at hresolvers
  have hroutes : s₂.routes = s.routes :=
    (congrArg Tables.routes hresolvers).trans (congrArg Tables.routes hinterface)
  have hpeers : s₁.peers = s.peers := congrArg Tables.peers hinterface
  have hpeerConfigs : s₁.peerConfigs = s.peerConfigs := congrArg Tables.peerConfigs hinterface
  have hconnections : s₁.connections = s.connections := congrArg Tables.connections hinterface
  rw [hresolvers, hroutes]
  show Tables.mk s₁.connections (config.serverPublicKey.chars :: s₁.peers)
    (Function.update s₁.peerConfigs config.serverPublicKey.chars (some config)) _ = _
  rw [hpeers, hpeerConfigs, hconnections]
  rfl

theorem exec_bringUp_at (h : FailsAt B s.calls k)
    (hk : k < preRouteCalls B.hasIpUtils s.interfaceExists config +
      config.allowedIPAddressRanges.length) :
    exec (bringUp B config) s =
      (.error (), { after ((bringUpEffects B config s.interfaceExists).take k) s with
        calls := s.calls + k + 1 }) := by
  rw [exec_bringUp, h.callAll_at (by rwa [length_bringUpEffects])]

theorem exec_bringUp_ok
    (h : ∀ i < preRouteCalls B.hasIpUtils s.interfaceExists config +
      config.allowedIPAddressRanges.length, B.succeeds (s.calls + i) = true) :
    exec (bringUp B config) s =
      (.ok (), finished config (after (bringUpEffects B config s.interfaceExists) s)) := by
  rw [exec_bringUp, exec_bind_ok (exec_callAll_ok (by rwa [length_bringUpEffects])), exec_modify]

theorem leavesNoTrace_bringUp_ok (t : State)
    (h : ∀ i < preRouteCalls B.hasIpUtils s.interfaceExists config +
      config.allowedIPAddressRanges.length, B.succeeds (s.calls + i) = true) :
    LeavesNoTrace config t (exec (bringUp B config) s) := by
  have hlate : interfaceCalls B.hasIpUtils s.interfaceExists <
      (bringUpEffects B config s.interfaceExists).length := by
    rw [length_bringUpEffects, preRouteCalls]
    omega
  have htables := @tables_after_bringUp_late B s _ config _ hlate
  rw [List.take_length, length_bringUpEffects, Nat.add_sub_cancel_left, List.take_length] at htables
  rw [exec_bringUp_ok h]
  intro key hkey
  show key ∈ routeSet (after (bringUpEffects B config s.interfaceExists) s).tables.routes
  rw [htables, mem_routeSet_append, mem_routeSet_reverse]
  exact .inl hkey

end BringUp

/-! ## The exact condition -/

/-- What setting the peer and some routes of a configuration would leave is there already. -/
structure Covered (s : State) (config : InterfaceConfig) (ranges : List IPAddress) : Prop where
  peer : config.serverPublicKey.chars ∈ s.peers
  peerConfig : s.peerConfigs config.serverPublicKey.chars = some config
  routes : routeSet ranges ⊆ routeSet s.routes

/-- No peer and no route but those of the connections. -/
def NoStrays (s : State) : Prop :=
  withoutPeers (connectionList s) s.peers = [] ∧
    withoutRoutes ((connectionList s).flatMap fun c => c.config.allowedIPAddressRanges) s.routes = []

/-- The calls before the interface is deleted. -/
def cleanUpCalls (s : State) : ℕ :=
  1 + ((connectionList s).map fun c => c.config.allowedIPAddressRanges.length + 1).sum

/-- The calls that delete the former peer of a hop. -/
def peerCalls (current : ConnectionState) (config : InterfaceConfig) : ℕ :=
  if config.serverPublicKey != current.config.serverPublicKey then 1 else 0

/-- The calls of `switchServer`. -/
def switchCalls (current : ConnectionState) (config : InterfaceConfig) : ℕ :=
  1 + config.allowedIPAddressRanges.length + (droppedRanges current.config config).length +
    peerCalls current config

/-- The call at `k` may fail in the activation of a new hop. -/
def NewTraceless (hasIpUtils : Bool) (config : InterfaceConfig) (s : State) (k : ℕ) : Prop :=
  interfaceCalls hasIpUtils s.interfaceExists < k →
    k < preRouteCalls hasIpUtils s.interfaceExists config + config.allowedIPAddressRanges.length →
      Covered s config (config.allowedIPAddressRanges.take
        (k - preRouteCalls hasIpUtils s.interfaceExists config))

/-- The call at `k` may fail in the switch of a hop to another server. -/
structure SwitchTraceless (current : ConnectionState) (config : InterfaceConfig) (s : State) (k : ℕ) :
    Prop where
  /-- The switch goes on without the routes from the failing one on. -/
  routes : 1 ≤ k → k ≤ config.allowedIPAddressRanges.length →
    routeSet config.allowedIPAddressRanges ⊆
      routeSet (config.allowedIPAddressRanges.take (k - 1)) ∪ routeSet s.routes
  peer : (config.serverPublicKey != current.config.serverPublicKey) = true →
    k = 1 + config.allowedIPAddressRanges.length + (droppedRanges current.config config).length →
      Covered s config config.allowedIPAddressRanges ∧
        Disjoint (routeSet (droppedRanges current.config config)) (routeSet s.routes)
  resolvers : switchCalls current config ≤ k → k ≤ switchCalls current config + resolverCalls config →
    current = { config } ∧ Covered s config config.allowedIPAddressRanges

/-- The call at `k` may fail in an activation that starts with a deactivation. -/
def RestartTraceless (hasIpUtils : Bool) (config : InterfaceConfig) (s : State) (k : ℕ) : Prop :=
  cleanUpCalls s ≤ k →
    k < cleanUpCalls s + 1 + preRouteCalls hasIpUtils false config +
      config.allowedIPAddressRanges.length →
      k ≤ cleanUpCalls s + 1 + interfaceCalls hasIpUtils false ∧ NoStrays s

/-- The calls at which an activation may fail without leaving a trace. -/
def Traceless (hasIpUtils : Bool) (config : InterfaceConfig) (s : State) (k : ℕ) : Prop :=
  match s.connections config.hopType with
  | none => NewTraceless hasIpUtils config s k
  | some current =>
    if supportServerSwitching current.config config then SwitchTraceless current config s k
    else RestartTraceless hasIpUtils config s k

section Exact

variable {B : Backend} {s : State} {k : ℕ} {config : InterfaceConfig}

theorem routeSet_append (l l' : List IPAddress) : routeSet (l ++ l') = routeSet l ∪ routeSet l' :=
  Set.ext fun _ => mem_routeSet_append

theorem routeSet_reverse (l : List IPAddress) : routeSet l.reverse = routeSet l :=
  Set.ext fun _ => mem_routeSet_reverse

theorem routeSet_withoutRoutes (ranges routes : List IPAddress) :
    routeSet (withoutRoutes ranges routes) = routeSet routes \ routeSet ranges :=
  Set.ext fun _ => mem_routeSet_withoutRoutes

theorem mem_cons_peers_iff {peer : List Char} {peers : List (List Char)} :
    (∀ key, key ∈ peer :: peers ↔ key ∈ peers) ↔ peer ∈ peers := by
  refine ⟨fun h => (h peer).mp (by simp), fun h key => ?_⟩
  rw [List.mem_cons]
  exact or_iff_right_of_imp fun heq => heq ▸ h

/-- Setting the peer and some routes changes nothing when they are there already. -/
theorem asBefore_iff_covered {ranges : List IPAddress} :
    AsBefore s.tables
        { s.tables with
          peers := config.serverPublicKey.chars :: s.peers
          peerConfigs := Function.update s.peerConfigs config.serverPublicKey.chars (some config)
          routes := ranges.reverse ++ s.routes } ↔
      Covered s config ranges := by
  have hroutes : routeSet (ranges.reverse ++ s.routes) = routeSet s.routes ↔
      routeSet ranges ⊆ routeSet s.routes := by
    rw [routeSet_append, routeSet_reverse, Set.union_eq_right]
  constructor
  · rintro ⟨-, hpeers, hpeerConfigs, hsame⟩
    exact ⟨mem_cons_peers_iff.mp hpeers, (Function.update_eq_self_iff.mp hpeerConfigs).symm,
      hroutes.mp hsame⟩
  · rintro ⟨hpeer, hpeerConfig, hsubset⟩
    exact ⟨rfl, mem_cons_peers_iff.mpr hpeer, Function.update_eq_self_iff.mpr hpeerConfig.symm,
      hroutes.mpr hsubset⟩

theorem leavesNoTrace_bringUp_iff (h : FailsAt B s.calls k) :
    LeavesNoTrace config s (exec (bringUp B config) s) ↔
      NewTraceless B.hasIpUtils config s k := by
  unfold NewTraceless
  by_cases hlast : k < preRouteCalls B.hasIpUtils s.interfaceExists config +
      config.allowedIPAddressRanges.length
  · rw [exec_bringUp_at h hlast]
    show AsBefore s.tables (after ((bringUpEffects B config s.interfaceExists).take k) s).tables ∨
      Cleaned (after ((bringUpEffects B config s.interfaceExists).take k) s).tables ↔ _
    by_cases hearly : k ≤ interfaceCalls B.hasIpUtils s.interfaceExists
    · rw [tables_after_bringUp_early hearly]
      exact ⟨fun _ hlate => absurd hlate (by omega), fun _ => .inl (AsBefore.refl _)⟩
    · have hlate : interfaceCalls B.hasIpUtils s.interfaceExists < k := by omega
      rw [tables_after_bringUp_late hlate, asBefore_iff_covered]
      refine ⟨fun hleft _ _ => ?_, fun hcovered => .inl (hcovered hlate hlast)⟩
      rcases hleft with hcovered | hcleaned
      · exact hcovered
      · exact absurd hcleaned.peers (by simp)
  · have hok := @leavesNoTrace_bringUp_ok B _ config s fun i hi => h.ok (by omega)
    exact ⟨fun _ _ hlt => absurd hlt hlast, fun _ => hok⟩

end Exact

/-! ## A switch -/

/-- The end of a switch, after the routes. -/
def switchEnd (B : Backend) (current config : InterfaceConfig) : DaemonM Unit := do
  callAll B (if config.serverPublicKey != current.serverPublicKey then [withoutPeer current] else [])
  modify (setConnection config)
  callAll B ((fun s => { s with resolvers := [] }) :: resolverEffects B config)
  modify (finished config)

section Switch

variable {B : Backend} {s : State} {k : ℕ} {config : InterfaceConfig} {current : ConnectionState}

theorem length_formerPeer : (if config.serverPublicKey != current.config.serverPublicKey then
    [withoutPeer current.config] else []).length = peerCalls current config := by
  unfold peerCalls
  split_ifs <;> rfl

theorem droppedRanges_self (config : InterfaceConfig) : droppedRanges config config = [] := by
  rw [droppedRanges, List.filter_eq_nil_iff]
  intro ip hip
  rw [Bool.not_eq_true', Bool.not_eq_false, List.any_eq_true]
  exact ⟨ip, hip, IPAddress.beq_iff_key.mpr rfl⟩

theorem disjoint_droppedRanges (last config : InterfaceConfig) :
    Disjoint (routeSet config.allowedIPAddressRanges) (routeSet (droppedRanges last config)) :=
  Set.disjoint_left.mpr fun _ hkey hdropped => (mem_routeSet_droppedRanges.mp hdropped).2 hkey

theorem subset_routeSet_withoutRoutes {last : InterfaceConfig} {routes : List IPAddress} :
    routeSet config.allowedIPAddressRanges ⊆
        routeSet (withoutRoutes (droppedRanges last config) routes) ↔
      routeSet config.allowedIPAddressRanges ⊆ routeSet routes := by
  rw [routeSet_withoutRoutes, Set.subset_sdiff]
  exact and_iff_left (disjoint_droppedRanges last config)

theorem tables_after_resolvers (s : State) {effects : List (State → State)}
    (h : effects ⊆ (fun s => { s with resolvers := [] }) :: resolverEffects B config) :
    (after effects s).tables = s.tables := by
  refine tables_after_frame fun effect heffect s => ?_
  rcases List.mem_cons.mp (h heffect) with rfl | hresolvers
  · rfl
  · exact resolverEffects_frame effect hresolvers s

/-- After the routes a switch that fails no more is one that succeeds. -/
theorem exec_switchEnd_ok (h : Passes B s.calls) : ∃ s',
    exec (switchEnd B current.config config) s = (.ok (), s') ∧ s'.routes = s.routes := by
  unfold switchEnd
  rw [h.callAll, exec_bind_ok (exec_modify _ _)]
  have hpeer : (after (if config.serverPublicKey != current.config.serverPublicKey then
      [withoutPeer current.config] else []) s).routes = s.routes := by
    split_ifs <;> rfl
  have hlater : Passes B (setConnection config (after
      (if config.serverPublicKey != current.config.serverPublicKey then
        [withoutPeer current.config] else []) s)).calls := by
    show Passes B (after _ s).calls
    rw [calls_after]
    exact h.later _
  rw [hlater.callAll, exec_modify]
  refine ⟨_, rfl, Eq.trans ?_ hpeer⟩
  exact congrArg Tables.routes (tables_after_resolvers _ (List.Subset.refl _))

/-- Undone by nothing, a deletion of the former peer that fails leaves what was done before. -/
theorem asBefore_iff_of_dropped :
    AsBefore s.tables
        { s.tables with
          peers := config.serverPublicKey.chars :: s.peers
          peerConfigs := Function.update s.peerConfigs config.serverPublicKey.chars (some config)
          routes := withoutRoutes (droppedRanges current.config config)
            (config.allowedIPAddressRanges.reverse ++ s.routes) } ↔
      Covered s config config.allowedIPAddressRanges ∧
        Disjoint (routeSet (droppedRanges current.config config)) (routeSet s.routes) := by
  have hroutes : routeSet (withoutRoutes (droppedRanges current.config config)
      (config.allowedIPAddressRanges.reverse ++ s.routes)) = routeSet s.routes ↔
      routeSet config.allowedIPAddressRanges ⊆ routeSet s.routes ∧
        Disjoint (routeSet (droppedRanges current.config config)) (routeSet s.routes) := by
    rw [routeSet_withoutRoutes, routeSet_append, routeSet_reverse]
    constructor
    · intro heq
      refine ⟨?_, ?_⟩
      · rw [← heq, Set.subset_sdiff]
        exact ⟨Set.subset_union_left, disjoint_droppedRanges _ _⟩
      · rw [← heq]
        exact Set.disjoint_sdiff_right
    · rintro ⟨hsubset, hdisjoint⟩
      rw [Set.union_eq_right.mpr hsubset]
      exact hdisjoint.symm.sdiff_eq_left
  constructor
  · rintro ⟨-, hpeers, hpeerConfigs, hsame⟩
    exact ⟨⟨mem_cons_peers_iff.mp hpeers, (Function.update_eq_self_iff.mp hpeerConfigs).symm,
      (hroutes.mp hsame).1⟩, (hroutes.mp hsame).2⟩
  · rintro ⟨⟨hpeer, hpeerConfig, hsubset⟩, hdisjoint⟩
    exact ⟨rfl, mem_cons_peers_iff.mpr hpeer, Function.update_eq_self_iff.mpr hpeerConfig.symm,
      hroutes.mpr ⟨hsubset, hdisjoint⟩⟩

/-- At the end of a switch, failing to set the resolvers leaves the switch. -/
theorem asBefore_switched_iff (hcurrent : s.connections config.hopType = some current)
    {s' : State}
    (hconnections : s'.connections =
      Function.update s.connections config.hopType (some { config }))
    (hrest : (config.serverPublicKey != current.config.serverPublicKey) = false →
      s'.peers = config.serverPublicKey.chars :: s.peers ∧
        s'.peerConfigs =
          Function.update s.peerConfigs config.serverPublicKey.chars (some config))
    (hroutes : s'.routes = withoutRoutes (droppedRanges current.config config)
      (config.allowedIPAddressRanges.reverse ++ s.routes)) :
    AsBefore s.tables s'.tables ∨ Cleaned s'.tables ↔
      current = { config } ∧ Covered s config config.allowedIPAddressRanges := by
  have hcleaned : ¬ Cleaned s'.tables := fun h => by
    have hnone : s'.connections config.hopType = none := congrFun h.connections config.hopType
    rw [hconnections, Function.update_self] at hnone
    simp at hnone
  rw [or_iff_left hcleaned]
  -- the tables, when the hop has the same configuration already
  have hsame : current = { config } → s'.tables =
      { s.tables with
        peers := config.serverPublicKey.chars :: s.peers
        peerConfigs := Function.update s.peerConfigs config.serverPublicKey.chars (some config)
        routes := withoutRoutes (droppedRanges current.config config)
          (config.allowedIPAddressRanges.reverse ++ s.routes) } := by
    rintro rfl
    obtain ⟨hpeers, hpeerConfigs⟩ := hrest (by simp [bne])
    rw [Function.update_eq_self_iff.mpr hcurrent.symm] at hconnections
    rw [State.tables, hconnections, hpeers, hpeerConfigs, hroutes]
    rfl
  constructor
  · intro h
    have heq : current = { config } := by
      have hhop := congrFun h.connections config.hopType
      change s'.connections config.hopType = s.connections config.hopType at hhop
      rw [hconnections, Function.update_self, hcurrent, Option.some.injEq] at hhop
      exact hhop.symm
    rw [hsame heq, asBefore_iff_of_dropped] at h
    exact ⟨heq, h.1⟩
  · rintro ⟨heq, hcovered⟩
    rw [hsame heq, asBefore_iff_of_dropped]
    refine ⟨hcovered, ?_⟩
    rw [heq, droppedRanges_self]
    exact Set.disjoint_left.mpr fun key hkey => by simp [routeSet] at hkey

theorem switch_eq_switchEnd (current config : InterfaceConfig) : switch B current config = (do
    call B (withPeer config)
    tryCatch (callAll B (config.allowedIPAddressRanges.map withRoute)) fun _ => pure ()
    callAllIgnored B ((droppedRanges current config).map withoutRoute)
    switchEnd B current config) := switch_eq current config

/-- A route that fails ends the loop, and the switch goes on. -/
theorem exec_switch_routes (h : FailsAt B s.calls k) (hk : 1 ≤ k)
    (hn : k ≤ config.allowedIPAddressRanges.length) :
    ∃ s', exec (switch B current.config config) s = (.ok (), s') ∧
      s'.routes = withoutRoutes (droppedRanges current.config config)
        ((config.allowedIPAddressRanges.take (k - 1)).reverse ++ s.routes) := by
  have hpeer : B.succeeds s.calls = true := h.ok (i := 0) hk
  rw [switch_eq_switchEnd, exec_bind_ok (exec_call_ok hpeer)]
  set s₁ : State := { withPeer config s with calls := s.calls + 1 }
  have h₁ : FailsAt B s₁.calls (k - 1) := h.later hk
  have hloop : exec (tryCatch (callAll B (config.allowedIPAddressRanges.map withRoute))
      fun _ => pure ()) s₁ =
      (.ok (), { after ((config.allowedIPAddressRanges.map withRoute).take (k - 1)) s₁ with
        calls := s₁.calls + (k - 1) + 1 }) := by
    rw [exec_tryCatch, exec_callAll_error (by simp; omega) (fun _ hi => h₁.ok hi) h₁.error]
    rfl
  rw [exec_bind_ok hloop]
  have hroutes : (after ((config.allowedIPAddressRanges.map withRoute).take (k - 1)) s₁).routes =
      (config.allowedIPAddressRanges.take (k - 1)).reverse ++ s.routes := by
    rw [← List.map_take]
    exact congrArg Tables.routes (tables_after_withRoute _)
  set s₂ : State := { after ((config.allowedIPAddressRanges.map withRoute).take (k - 1)) s₁ with
    calls := s₁.calls + (k - 1) + 1 }
  have h₂ : Passes B s₂.calls := by
    show Passes B (s₁.calls + (k - 1) + 1)
    rw [Nat.add_assoc]
    exact h₁.passes (by omega)
  rw [exec_bind_ok (exec_callAllIgnored_ok fun i _ => h₂ i)]
  obtain ⟨s', hexec, hroutes'⟩ := @exec_switchEnd_ok B
    (after ((droppedRanges current.config config).map withoutRoute) s₂) config current
    (by rw [calls_after]; exact h₂.later _)
  refine ⟨s', hexec, hroutes'.trans ?_⟩
  rw [← hroutes]
  exact congrArg Tables.routes (tables_after_withoutRoute _)

theorem exec_switch_late (h : FailsAt B s.calls k)
    (hn : config.allowedIPAddressRanges.length < k) :
    ∃ s₂, s₂.tables =
        { s.tables with
          peers := config.serverPublicKey.chars :: s.peers
          peerConfigs := Function.update s.peerConfigs config.serverPublicKey.chars (some config)
          routes := config.allowedIPAddressRanges.reverse ++ s.routes } ∧
      FailsAt B s₂.calls (k - (1 + config.allowedIPAddressRanges.length)) ∧
      exec (switch B current.config config) s = exec (do
        callAllIgnored B ((droppedRanges current.config config).map withoutRoute)
        switchEnd B current.config config) s₂ := by
  have hpeer : B.succeeds s.calls = true := h.ok (i := 0) (by omega)
  rw [switch_eq_switchEnd, exec_bind_ok (exec_call_ok hpeer)]
  set s₁ : State := { withPeer config s with calls := s.calls + 1 }
  have h₁ : FailsAt B s₁.calls (k - 1) := h.later (by omega)
  have hloop : exec (tryCatch (callAll B (config.allowedIPAddressRanges.map withRoute))
      fun _ => pure ()) s₁ =
      (.ok (), after (config.allowedIPAddressRanges.map withRoute) s₁) := by
    rw [exec_tryCatch, exec_callAll_ok fun i hi => h₁.ok (by simp at hi; omega)]
  refine ⟨_, tables_after_withRoute _, ?_, exec_bind_ok hloop⟩
  rw [calls_after, List.length_map, Nat.sub_add_eq]
  exact h₁.later (by omega)

/-- Deleting the dropped ranges keeps those of the configuration, whatever fails. -/
theorem exec_callAllIgnored_withoutRoute
    (h : routeSet config.allowedIPAddressRanges ⊆ routeSet s.routes) : ∃ s',
    exec (callAllIgnored B ((droppedRanges current.config config).map withoutRoute)) s =
        (.ok (), s') ∧
      routeSet config.allowedIPAddressRanges ⊆ routeSet s'.routes ∧
      s'.calls = s.calls + (droppedRanges current.config config).length := by
  have := @exec_callAllIgnored B ((droppedRanges current.config config).map withoutRoute) s
    (fun s => routeSet config.allowedIPAddressRanges ⊆ routeSet s.routes) (fun _ _ h => h)
    (fun effect heffect s hs key hkey => ?_) h
  · rwa [List.length_map] at this
  · obtain ⟨ip, hip, rfl⟩ := List.mem_map.mp heffect
    have hdropped : key ∉ routeSet [ip] := by
      rintro ⟨ip', hip', rfl⟩
      rw [List.mem_singleton.mp hip'] at hkey
      exact Set.disjoint_left.mp (disjoint_droppedRanges _ _) hkey ⟨ip, hip, rfl⟩
    show key ∈ routeSet (s.routes.filter (· != ip))
    rw [show s.routes.filter (· != ip) = withoutRoutes [ip] s.routes by simp [withoutRoutes],
      routeSet_withoutRoutes]
    exact ⟨hs hkey, hdropped⟩

/-- Once the former peer is gone and the new connection is recorded, the routes are those that were
left, and the peers too if the key is the same. -/
theorem tables_recorded {s₃ : State}
    (htables : s₃.tables =
      { s.tables with
        peers := config.serverPublicKey.chars :: s.peers
        peerConfigs := Function.update s.peerConfigs config.serverPublicKey.chars (some config)
        routes := withoutRoutes (droppedRanges current.config config)
          (config.allowedIPAddressRanges.reverse ++ s.routes) }) :
    let s₄ := setConnection config (after (if config.serverPublicKey !=
      current.config.serverPublicKey then [withoutPeer current.config] else []) s₃)
    s₄.connections = Function.update s.connections config.hopType (some { config }) ∧
      s₄.routes = withoutRoutes (droppedRanges current.config config)
        (config.allowedIPAddressRanges.reverse ++ s.routes) ∧
      ((config.serverPublicKey != current.config.serverPublicKey) = false →
        s₄.peers = config.serverPublicKey.chars :: s.peers ∧ s₄.peerConfigs =
          Function.update s.peerConfigs config.serverPublicKey.chars (some config)) := by
  set former := if config.serverPublicKey != current.config.serverPublicKey then
    [withoutPeer current.config] else [] with hformer
  have hroutes : (after former s₃).routes = s₃.routes := by
    rw [hformer]
    split_ifs <;> rfl
  have hconnections : (after former s₃).connections = s₃.connections := by
    rw [hformer]
    split_ifs <;> rfl
  refine ⟨?_, hroutes.trans (congrArg Tables.routes htables), fun hkey => ?_⟩
  · show Function.update (after former s₃).connections config.hopType (some { config }) = _
    rw [hconnections]
    exact congrArg (Function.update · config.hopType (some { config }))
      (congrArg Tables.connections htables)
  · have hnil : former = [] := by rw [hformer, hkey]; rfl
    show (after former s₃).peers = _ ∧ (after former s₃).peerConfigs = _
    rw [hnil, after_nil]
    exact ⟨congrArg Tables.peers htables, congrArg Tables.peerConfigs htables⟩

/-- The end of a switch, from a state with the routes set and the dropped ones removed. -/
theorem leavesNoTrace_switchEnd_iff {s₃ : State}
    (hcurrent : s.connections config.hopType = some current)
    (htables : s₃.tables =
      { s.tables with
        peers := config.serverPublicKey.chars :: s.peers
        peerConfigs := Function.update s.peerConfigs config.serverPublicKey.chars (some config)
        routes := withoutRoutes (droppedRanges current.config config)
          (config.allowedIPAddressRanges.reverse ++ s.routes) })
    (h : FailsAt B s₃.calls k) :
    LeavesNoTrace config s (exec (switchEnd B current.config config) s₃) ↔
      ((config.serverPublicKey != current.config.serverPublicKey) = true → k = 0 →
        Covered s config config.allowedIPAddressRanges ∧
          Disjoint (routeSet (droppedRanges current.config config)) (routeSet s.routes)) ∧
      (peerCalls current config ≤ k → k ≤ peerCalls current config + resolverCalls config →
        current = { config } ∧ Covered s config config.allowedIPAddressRanges) := by
  have hone : peerCalls current config =
      if config.serverPublicKey != current.config.serverPublicKey then 1 else 0 := rfl
  unfold switchEnd
  by_cases hpeer : k < peerCalls current config
  · have hkey : (config.serverPublicKey != current.config.serverPublicKey) = true := by
      by_contra hne
      rw [hone, if_neg hne] at hpeer
      omega
    have hk : k = 0 := by
      rw [hone, if_pos hkey] at hpeer
      omega
    subst hk
    rw [h.callAll_at (by rwa [length_formerPeer])]
    show AsBefore s.tables s₃.tables ∨ Cleaned s₃.tables ↔ _
    rw [htables, asBefore_iff_of_dropped, or_iff_left fun hcleaned => absurd hcleaned.peers (by simp)]
    exact ⟨fun hleft => ⟨fun _ _ => hleft, fun hle => absurd hle (by omega)⟩,
      fun hleft => hleft.1 hkey rfl⟩
  rw [h.callAll_before (by rw [length_formerPeer]; omega), exec_bind_ok (exec_modify _ _)]
  have h₄ := h.later (n := peerCalls current config) (by omega)
  rw [← length_formerPeer, ← calls_after, length_formerPeer] at h₄
  obtain ⟨hconnections, hroutes, hrest⟩ := tables_recorded htables
  set s₄ := setConnection config (after _ s₃)
  change FailsAt B s₄.calls (k - peerCalls current config) at h₄
  by_cases hlast : k ≤ peerCalls current config + resolverCalls config
  · rw [h₄.callAll_at (by rw [List.length_cons, length_resolverEffects]; omega)]
    have htables₄ := @tables_after_resolvers B config s₄ _
      (List.take_subset (k - peerCalls current config) _)
    show AsBefore s.tables (after _ s₄).tables ∨ Cleaned (after _ s₄).tables ↔ _
    rw [htables₄, asBefore_switched_iff hcurrent hconnections hrest hroutes]
    refine ⟨fun hleft => ⟨fun hkey hk => ?_, fun _ _ => hleft⟩, fun hleft => hleft.2 (by omega) hlast⟩
    rw [hone, if_pos hkey] at hpeer
    omega
  · rw [h₄.callAll_before (by rw [List.length_cons, length_resolverEffects]; omega), exec_modify]
    have htables₄ := @tables_after_resolvers B config s₄ _ (List.Subset.refl _)
    refine ⟨fun _ => ⟨fun hkey hk => ?_, fun _ hle => absurd hle hlast⟩, fun _ => ?_⟩
    · rw [hone, if_pos hkey] at hpeer
      omega
    · show routeSet config.allowedIPAddressRanges ⊆ routeSet (after _ s₄).tables.routes
      rw [htables₄]
      show _ ⊆ routeSet s₄.routes
      rw [hroutes, subset_routeSet_withoutRoutes, routeSet_append, routeSet_reverse]
      exact Set.subset_union_left

/-- **The switch of a connected hop.** -/
theorem leavesNoTrace_switch_iff (h : FailsAt B s.calls k)
    (hcurrent : s.connections config.hopType = some current) :
    LeavesNoTrace config s (exec (switch B current.config config) s) ↔
      SwitchTraceless current config s k := by
  have hcalls : switchCalls current config = 1 + config.allowedIPAddressRanges.length +
      (droppedRanges current.config config).length + peerCalls current config := rfl
  -- the call that sets the peer
  rcases Nat.eq_zero_or_pos k with rfl | hk
  · have hexec : exec (switch B current.config config) s =
        (.error (), { s with calls := s.calls + 1 }) := by
      rw [switch_eq_switchEnd, exec_bind, exec_call_error (h.error)]
    rw [hexec]
    refine ⟨fun _ => ⟨fun hk => absurd hk (by omega), fun _ hk => absurd hk (by omega),
      fun hk => absurd hk (by omega)⟩, fun _ => .inl (AsBefore.refl _)⟩
  -- a route
  by_cases hn : k ≤ config.allowedIPAddressRanges.length
  · obtain ⟨s', hexec, hroutes⟩ := @exec_switch_routes B s k config current h hk hn
    rw [hexec]
    show routeSet config.allowedIPAddressRanges ⊆ routeSet s'.routes ↔ _
    rw [hroutes, subset_routeSet_withoutRoutes, routeSet_append, routeSet_reverse]
    exact ⟨fun hsubset => ⟨fun _ _ => hsubset, fun _ hk => absurd hk (by omega),
      fun hk => absurd hk (by omega)⟩, fun hleft => hleft.routes hk hn⟩
  obtain ⟨s₂, htables, h₂, hexec⟩ := @exec_switch_late B s k config current h
    (by omega)
  rw [hexec]
  have hroutes₂ : s₂.routes = config.allowedIPAddressRanges.reverse ++ s.routes :=
    congrArg Tables.routes htables
  -- a route of the former configuration
  by_cases hd : k < 1 + config.allowedIPAddressRanges.length +
      (droppedRanges current.config config).length
  · obtain ⟨s₃, hexec₃, hsubset, hcalls₃⟩ := @exec_callAllIgnored_withoutRoute B s₂
      config current (by
        rw [hroutes₂, routeSet_append, routeSet_reverse]
        exact Set.subset_union_left)
    have h₃ : Passes B s₃.calls := by
      rw [hcalls₃]
      exact h₂.passes (by omega)
    obtain ⟨s', hexec', hroutes'⟩ := @exec_switchEnd_ok B s₃ config current h₃
    rw [exec_bind_ok hexec₃, hexec']
    show routeSet config.allowedIPAddressRanges ⊆ routeSet s'.routes ↔ _
    rw [hroutes']
    refine ⟨fun _ => ⟨fun _ hk => absurd hk (by omega), fun _ hk => absurd hk (by omega),
      fun hk => absurd hk (by omega)⟩, fun _ => hsubset⟩
  -- the rest
  have hdrop := @exec_callAllIgnored_ok B
    ((droppedRanges current.config config).map withoutRoute) s₂ fun i hi =>
      h₂.ok (by rw [List.length_map] at hi; omega)
  rw [exec_bind_ok hdrop]
  have h₃ := h₂.later (n := (droppedRanges current.config config).length) (by omega)
  rw [← Nat.sub_add_eq, ← List.length_map withoutRoute, ← calls_after, List.length_map] at h₃
  have htables₃ := tables_after_withoutRoute (s := s₂) (droppedRanges current.config config)
  rw [htables, hroutes₂] at htables₃
  rw [leavesNoTrace_switchEnd_iff hcurrent htables₃ h₃]
  constructor
  · rintro ⟨hpeer, hresolvers⟩
    refine ⟨fun _ hk => absurd hk hn, fun hne heq => hpeer hne (by omega), fun hle hlt => ?_⟩
    exact hresolvers (by omega) (by omega)
  · intro hleft
    refine ⟨fun hne heq => hleft.peer hne (by omega), fun hle hlt => ?_⟩
    exact hleft.resolvers (by omega) (by omega)

end Switch

/-! ## A restart -/

section Restart

variable {B : Backend} {s : State} {k : ℕ} {config : InterfaceConfig} {current : ConnectionState}

theorem length_cleanUpEffects (states : List ConnectionState) : (cleanUpEffects states).length =
    (states.map fun c => c.config.allowedIPAddressRanges.length + 1).sum := by
  rw [cleanUpEffects, List.length_flatMap]
  simp

/-- What `deactivate` does to each connection leaves the connections and the signals alone. -/
theorem cleanUpEffects_frame (states : List ConnectionState) :
    ∀ effect ∈ (fun s => { s with resolvers := [] }) :: cleanUpEffects states, ∀ t,
      t.connections = s.connections ∧ t.signals = s.signals →
        (effect t).connections = s.connections ∧ (effect t).signals = s.signals := by
  intro effect heffect t ht
  rcases List.mem_cons.mp heffect with rfl | hclean
  · exact ht
  · obtain ⟨c, -, hc⟩ := List.mem_flatMap.mp hclean
    rcases List.mem_append.mp hc with hroute | hpeer
    · obtain ⟨ip, -, rfl⟩ := List.mem_map.mp hroute
      exact ht
    · rw [List.mem_singleton.mp hpeer]
      exact ht

/-- A deactivation without signals, for every pattern of failures: only the deletion of the interface
decides. -/
structure Restarts (B : Backend) (s s₁ : State) : Prop where
  calls : s₁.calls = s.calls + cleanUpCalls s + 1
  connections : s₁.connections = fun _ => none
  signals : s₁.signals = s.signals
  cleaned : (∀ i < cleanUpCalls s, B.succeeds (s.calls + i) = true) →
    s₁.peers = withoutPeers (connectionList s) s.peers ∧
      s₁.routes = withoutRoutes
        ((connectionList s).flatMap fun c => c.config.allowedIPAddressRanges) s.routes
  result : (B.succeeds (s.calls + cleanUpCalls s) = true ∧ s₁.interfaceExists = false ∧
      exec (deactivate B false) s = (.ok (), s₁)) ∨
    (B.succeeds (s.calls + cleanUpCalls s) = false ∧ exec (deactivate B false) s = (.error (), s₁))

theorem exists_restarts (B : Backend) (s : State) : ∃ s₁, Restarts B s s₁ := by
  have hlength : ((fun s : State => { s with resolvers := [] }) ::
      cleanUpEffects (connectionList s)).length = cleanUpCalls s := by
    rw [List.length_cons, length_cleanUpEffects, cleanUpCalls]
    omega
  obtain ⟨s₂, hexec, ⟨-, hsignals⟩, hcalls⟩ := @exec_callAllIgnored B
    ((fun s => { s with resolvers := [] }) :: cleanUpEffects (connectionList s)) s
    (fun t => t.connections = s.connections ∧ t.signals = s.signals) (fun _ _ h => h)
    (cleanUpEffects_frame _) ⟨rfl, rfl⟩
  rw [hlength] at hcalls
  have hcleaned : (∀ i < cleanUpCalls s, B.succeeds (s.calls + i) = true) →
      s₂.peers = withoutPeers (connectionList s) s.peers ∧
        s₂.routes = withoutRoutes
          ((connectionList s).flatMap fun c => c.config.allowedIPAddressRanges) s.routes := by
    intro hall
    have hok := @exec_callAllIgnored_ok B
      ((fun s => { s with resolvers := [] }) :: cleanUpEffects (connectionList s)) s
      (by rwa [hlength])
    rw [hexec, Prod.mk.injEq] at hok
    rw [hok.2, after_cons]
    exact (after_cleanUpEffects _).2
  have hdeactivate := exec_deactivate (B := B) s
  rw [exec_bind_ok hexec, exec_bind_ok (exec_modify _ _), deleteInterface] at hdeactivate
  by_cases hok : B.succeeds (s.calls + cleanUpCalls s) = true
  · rw [exec_call_ok (by dsimp only; rwa [hcalls])] at hdeactivate
    refine ⟨{ s₂ with
      connections := fun _ => none
      interfaceExists := false
      calls := s₂.calls + 1 }, ?_, rfl, hsignals, hcleaned, .inl ⟨hok, rfl, hdeactivate⟩⟩
    dsimp only
    rw [hcalls]
  · have hfail : B.succeeds (s.calls + cleanUpCalls s) = false := by simpa using hok
    rw [exec_call_error (by dsimp only; rwa [hcalls])] at hdeactivate
    refine ⟨{ s₂ with connections := fun _ => none, calls := s₂.calls + 1 }, ?_, rfl, hsignals,
      hcleaned, .inr ⟨hfail, hdeactivate⟩⟩
    dsimp only
    rw [hcalls]

theorem leavesNoTrace_guardFailure (m : DaemonM Unit) (t : State) :
    LeavesNoTrace config t (exec (guardFailure m) s) ↔ LeavesNoTrace config t (exec m s) := by
  unfold guardFailure
  rw [exec_tryCatch]
  generalize exec m s = r
  obtain ⟨result, s'⟩ := r
  cases result with
  | error e => exact Iff.rfl
  | ok u => exact Iff.rfl

theorem exec_activateWith_new {fuel : ℕ} (h : s.connections config.hopType = none) :
    exec (activateWith B (fuel + 1) config) s = exec (guardFailure (bringUp B config)) s := by
  unfold activateWith guardFailure
  rw [exec_tryCatch, exec_tryCatch, exec_bind_ok (exec_get s), h]

theorem not_asBefore {s' : State} (hcurrent : s.connections config.hopType = some current)
    (hnone : s'.connections config.hopType = none) : ¬ AsBefore s.tables s'.tables := by
  intro hsame
  have hhop := congrFun hsame.connections config.hopType
  change s'.connections config.hopType = s.connections config.hopType at hhop
  rw [hnone, hcurrent] at hhop
  simp at hhop

theorem leavesNoTrace_restart_iff (h : FailsAt B s.calls k)
    (hcurrent : s.connections config.hopType = some current) :
    LeavesNoTrace config s (exec (do deactivate B false; activateWith B 1 config) s) ↔
      RestartTraceless B.hasIpUtils config s k := by
  obtain ⟨s₁, hs₁⟩ := exists_restarts B s
  have hnone : s₁.connections config.hopType = none := by rw [hs₁.connections]
  have hconnections : ¬ AsBefore s.tables s₁.tables := not_asBefore hcurrent hnone
  have hstrays : cleanUpCalls s ≤ k → (Cleaned s₁.tables ↔ NoStrays s) := by
    intro hk
    obtain ⟨hpeers, hroutes⟩ := hs₁.cleaned fun i hi => h.ok (by omega)
    constructor
    · intro hcleaned
      exact ⟨hpeers.symm.trans hcleaned.peers, hroutes.symm.trans hcleaned.routes⟩
    · rintro ⟨hnoPeers, hnoRoutes⟩
      exact ⟨hs₁.connections, hpeers.trans hnoPeers, hroutes.trans hnoRoutes⟩
  rcases hs₁.result with ⟨hdeleted, hexists, hexec⟩ | ⟨hfail, hexec⟩
  · rw [exec_bind_ok hexec, exec_activateWith_new hnone, leavesNoTrace_guardFailure]
    have hcalls : s₁.calls = s.calls + (cleanUpCalls s + 1) := hs₁.calls
    have hpre : preRouteCalls B.hasIpUtils false config =
      interfaceCalls B.hasIpUtils false + 1 + resolverCalls config := rfl
    unfold RestartTraceless
    by_cases hk : k < cleanUpCalls s + 1
    · -- what fails is ignored, or the deletion of the interface
      have hne : cleanUpCalls s ≠ k := by
        have := h (cleanUpCalls s)
        rw [hdeleted, eq_comm, bne_iff_ne] at this
        exact this
      have hok := @leavesNoTrace_bringUp_ok B s₁ config s fun i _ => by
        rw [hcalls]
        exact h.passes hk i
      exact ⟨fun _ hle => absurd hle (by omega), fun _ => hok⟩
    have h₁ : FailsAt B s₁.calls (k - (cleanUpCalls s + 1)) := by
      rw [hcalls]
      exact h.later (by omega)
    by_cases hlast : k < cleanUpCalls s + 1 + preRouteCalls B.hasIpUtils false config +
        config.allowedIPAddressRanges.length
    · rw [exec_bringUp_at h₁ (by rw [hexists]; omega), hexists]
      show AsBefore s.tables (after _ s₁).tables ∨ Cleaned (after _ s₁).tables ↔ _
      by_cases hearly : k ≤ cleanUpCalls s + 1 + interfaceCalls B.hasIpUtils false
      · rw [tables_after_bringUp_early (by omega), or_iff_right hconnections, hstrays (by omega)]
        exact ⟨fun hno _ _ => ⟨hearly, hno⟩, fun hleft => (hleft (by omega) hlast).2⟩
      · have htables := @tables_after_bringUp_late B s₁ (k - (cleanUpCalls s + 1)) config false
          (by omega)
        have hpeers := congrArg Tables.peers htables
        refine ⟨fun hleft => ?_, fun hleft => absurd (hleft (by omega) hlast).1 hearly⟩
        rcases hleft with hsame | hcleaned
        · exact absurd hsame (not_asBefore hcurrent
            ((congrFun (congrArg Tables.connections htables) config.hopType).trans hnone))
        · rw [hcleaned.peers] at hpeers
          simp at hpeers
    · have hok := @leavesNoTrace_bringUp_ok B s₁ config s fun i hi => by
        rw [hexists] at hi
        exact h₁.ok (by omega)
      exact ⟨fun _ _ hlt => absurd hlt hlast, fun _ => hok⟩
  · have hk : cleanUpCalls s = k := by
      have := h (cleanUpCalls s)
      rw [hfail, eq_comm, bne_eq_false_iff_eq] at this
      exact this
    rw [exec_bind, hexec]
    show AsBefore s.tables s₁.tables ∨ Cleaned s₁.tables ↔ _
    rw [or_iff_right hconnections, hstrays hk.le, RestartTraceless]
    exact ⟨fun hno _ _ => ⟨by omega, hno⟩, fun hleft => (hleft hk.le (by omega)).2⟩

end Restart

/-! ## The activation -/

/-- A backend of which one call fails. -/
def failing (addressText : HostAddressText) (hasIpUtils : Bool) (call : ℕ) : Backend where
  addressText := addressText
  hasIpUtils := hasIpUtils
  succeeds n := n != call

theorem failsAt_failing (addressText : HostAddressText) (hasIpUtils : Bool) (calls k : ℕ) :
    FailsAt (failing addressText hasIpUtils (calls + k)) calls k := by
  intro i
  show (calls + i != calls + k) = (i != k)
  rw [Bool.eq_iff_iff, bne_iff_ne, bne_iff_ne]
  omega

/-- **Traces.** The activation whose call at `k` fails leaves no trace, or succeeds with all its
routes, exactly when that call is one of those that may fail. -/
theorem leavesNoTrace_iff (addressText : HostAddressText) (hasIpUtils : Bool)
    (config : InterfaceConfig) (s : State) (k : ℕ) :
    LeavesNoTrace config s
        (exec (activate (failing addressText hasIpUtils (s.calls + k)) config) s) ↔
      Traceless hasIpUtils config s k := by
  have h := failsAt_failing addressText hasIpUtils s.calls k
  unfold activate activateWith Traceless
  rw [leavesNoTrace_guardFailure, exec_bind_ok (exec_get s)]
  rcases hcurrent : s.connections config.hopType with _ | current
  · exact leavesNoTrace_bringUp_iff h
  · dsimp only
    split_ifs with hswitch
    · exact leavesNoTrace_switch_iff h hcurrent
    · exact leavesNoTrace_restart_iff h hcurrent

/-- The only route fails, and the peer stays; and a switch whose route fails succeeds. -/
theorem failed_route_leaves_peer :
    ¬ LeavesNoTrace (hopConfig .singleHop "b" 0x0a000000#32) {}
        (exec (activate (failing (.ofTable [] []) true 6)
          (hopConfig .singleHop "b" 0x0a000000#32)) {}) ∧
      ¬ LeavesNoTrace (hopConfig .singleHop "c" 0x0b000000#32)
        (step succeedingBackend {} (.activate (hopConfig .singleHop "b" 0x0a000000#32)))
        (exec (activate (failing (.ofTable [] []) true 8)
            (hopConfig .singleHop "c" 0x0b000000#32))
          (step succeedingBackend {} (.activate (hopConfig .singleHop "b" 0x0a000000#32)))) := by
  refine ⟨fun h => ?_, fun h => ?_⟩
  · have hpeers : (exec (activate (failing (.ofTable [] []) true 6)
        (hopConfig .singleHop "b" 0x0a000000#32)) {}).2.peers = ["b".toList] := by decide
    rcases h with hsame | hcleaned
    · have hpeer : "b".toList ∈ ({} : State).peers := (hsame.peers "b".toList).mp
        (hpeers.symm ▸ List.mem_singleton_self _ : "b".toList ∈ State.peers _)
      exact absurd hpeer (by decide)
    · exact absurd (hpeers.symm.trans hcleaned.peers) (by decide)
  · have hroutes : (exec (activate (failing (.ofTable [] []) true 8)
        (hopConfig .singleHop "c" 0x0b000000#32)) (step succeedingBackend {}
          (.activate (hopConfig .singleHop "b" 0x0a000000#32)))).2.routes = [] := by decide
    have hroute := h ⟨⟨.ipv4 0x0b000000#32, 8⟩, List.mem_singleton_self _, rfl⟩
    rw [hroutes] at hroute
    obtain ⟨ip, hip, -⟩ := hroute
    simp at hip

/-! ## Reports -/

/-- The signal of a failed activation is emitted once, and that of a successful one not at all. -/
def ReportsOnce (s : State) (r : Except Unit Unit × State) : Prop :=
  r.2.signals.count .activationFailure =
    s.signals.count .activationFailure + if r.1.isOk then 0 else 1

instance (s : State) (r : Except Unit Unit × State) : Decidable (ReportsOnce s r) :=
  inferInstanceAs (Decidable (_ = _))

/-- The activation deactivates first, and what comes after it fails. -/
def RestartFails (B : Backend) (config : InterfaceConfig) (s : State) : Prop :=
  ∃ current, s.connections config.hopType = some current ∧
    supportServerSwitching current.config config = false ∧
    B.succeeds (s.calls + cleanUpCalls s) = true ∧
    ∃ i < preRouteCalls B.hasIpUtils false config + config.allowedIPAddressRanges.length,
      B.succeeds (s.calls + cleanUpCalls s + 1 + i) = false

section Reports

variable {B : Backend} {s : State} {config : InterfaceConfig}

theorem reportsOnce_guardFailure {m : DaemonM Unit} (s : State)
    (hm : Preserves (fun t => t.signals = s.signals) m) :
    ReportsOnce s (exec (guardFailure m) s) := by
  have hsignals := hm s rfl
  unfold guardFailure
  rw [exec_tryCatch]
  generalize exec m s = r at hsignals
  obtain ⟨result, s'⟩ := r
  cases result with
  | error e =>
    show (s'.signals ++ [Signal.activationFailure]).count .activationFailure = _ + 1
    rw [show s'.signals = s.signals from hsignals, List.count_append, List.count_singleton_self]
  | ok u =>
    show s'.signals.count Signal.activationFailure = _ + 0
    rw [show s'.signals = s.signals from hsignals, Nat.add_zero]

theorem isOk_guardFailure_bringUp : (exec (guardFailure (bringUp B config)) s).1.isOk = true ↔
    ∀ i < preRouteCalls B.hasIpUtils s.interfaceExists config +
      config.allowedIPAddressRanges.length, B.succeeds (s.calls + i) = true := by
  unfold guardFailure
  rw [exec_tryCatch, exec_bringUp, exec_bind, ← length_bringUpEffects]
  rcases exec_callAll_cases B (bringUpEffects B config s.interfaceExists) s with
    ⟨hall, hexec⟩ | ⟨k, hk, hfail, hexec⟩
  · rw [hexec]
    exact ⟨fun _ => hall, fun _ => rfl⟩
  · rw [hexec]
    refine ⟨fun hok => by simp [exec_bind, Except.isOk, Except.toBool] at hok, fun hall => ?_⟩
    rw [hall k hk] at hfail
    simp at hfail

theorem exec_activate_switch {current : ConnectionState}
    (hcurrent : s.connections config.hopType = some current)
    (hswitch : supportServerSwitching current.config config = true) :
    exec (activate B config) s = exec (guardFailure (switch B current.config config)) s := by
  unfold activate activateWith guardFailure
  rw [exec_tryCatch, exec_tryCatch, exec_bind_ok (exec_get s), hcurrent]
  dsimp only
  rw [if_pos hswitch]
  rfl

theorem exec_activate_restart {current : ConnectionState}
    (hcurrent : s.connections config.hopType = some current)
    (hswitch : supportServerSwitching current.config config = false) :
    exec (activate B config) s =
      exec (guardFailure (do deactivate B false; activateWith B 1 config)) s := by
  unfold activate
  rw [activateWith]
  unfold guardFailure
  rw [exec_tryCatch, exec_tryCatch, exec_bind_ok (exec_get s), hcurrent]
  dsimp only
  rw [if_neg (by simp [hswitch])]

/-- A guard around a part that reports its failure itself reports it again. -/
theorem reportsOnce_guardFailure_iff {m : DaemonM Unit} {s₁ : State}
    (hsignals : s₁.signals = s.signals) (hm : ReportsOnce s₁ (exec m s)) :
    ReportsOnce s (exec (guardFailure m) s) ↔ (exec m s).1.isOk = true := by
  unfold guardFailure
  rw [exec_tryCatch]
  generalize exec m s = r at hm
  obtain ⟨result, s₂⟩ := r
  cases result with
  | ok u =>
    refine iff_of_true ?_ rfl
    change s₂.signals.count .activationFailure = s₁.signals.count .activationFailure + 0 at hm
    show s₂.signals.count .activationFailure = s.signals.count .activationFailure + 0
    rw [hm, hsignals]
  | error e =>
    refine iff_of_false ?_ (by simp [Except.isOk, Except.toBool])
    change s₂.signals.count .activationFailure = s₁.signals.count .activationFailure + 1 at hm
    show (s₂.signals ++ [Signal.activationFailure]).count .activationFailure ≠
      s.signals.count .activationFailure + 1
    rw [List.count_append, hm, hsignals, List.count_singleton_self]
    omega

/-- A restart that fails in its deactivation reports that, and one that gets further does so unless
a call of the bring-up fails. -/
theorem reportsOnce_restart_iff (B : Backend) (config : InterfaceConfig) (s : State) :
    ReportsOnce s (exec (guardFailure (do deactivate B false; activateWith B 1 config)) s) ↔
      ¬ (B.succeeds (s.calls + cleanUpCalls s) = true ∧
        ∃ i < preRouteCalls B.hasIpUtils false config + config.allowedIPAddressRanges.length,
          B.succeeds (s.calls + cleanUpCalls s + 1 + i) = false) := by
  obtain ⟨s₁, hs₁⟩ := exists_restarts B s
  rcases hs₁.result with ⟨hdeleted, hexists, hexec⟩ | ⟨hfail, hexec⟩
  · have hnone : s₁.connections config.hopType = none := by rw [hs₁.connections]
    have hbody : exec (do deactivate B false; activateWith B 1 config) s =
        exec (guardFailure (bringUp B config)) s₁ :=
      (exec_bind_ok hexec).trans (exec_activateWith_new hnone)
    have hinner : ReportsOnce s₁ (exec (guardFailure (bringUp B config)) s₁) :=
      reportsOnce_guardFailure s₁ (preserves_bringUp (observed_signals _) config fun _ h => h)
    rw [reportsOnce_guardFailure_iff hs₁.signals (hbody ▸ hinner), hbody,
      isOk_guardFailure_bringUp, hexists, hs₁.calls]
    simp [hdeleted]
  · refine iff_of_true ?_ fun h => by simp [hfail] at h
    unfold guardFailure
    rw [exec_tryCatch, exec_bind, hexec]
    show (s₁.signals ++ [Signal.activationFailure]).count .activationFailure = _ + 1
    rw [hs₁.signals, List.count_append, List.count_singleton_self]

/-- **Reports.** An activation reports its failure once, and nothing when it succeeds, exactly when
it is not a restart that fails after the deactivation: there the inner call reports it and the
outer one again. -/
theorem reportsFailureOnce_iff (B : Backend) (config : InterfaceConfig) (s : State) :
    ReportsOnce s (exec (activate B config) s) ↔ ¬ RestartFails B config s := by
  rcases hcurrent : s.connections config.hopType with _ | current
  · have hexec : exec (activate B config) s = exec (guardFailure (bringUp B config)) s :=
      exec_activateWith_new hcurrent
    rw [hexec]
    refine iff_of_true (reportsOnce_guardFailure s
      (preserves_bringUp (observed_signals _) config fun _ h => h)) ?_
    rintro ⟨current, hsome, -⟩
    rw [hcurrent] at hsome
    simp at hsome
  cases hswitch : supportServerSwitching current.config config with
  | true =>
    rw [exec_activate_switch hcurrent hswitch]
    refine iff_of_true (reportsOnce_guardFailure s
      (preserves_switch (observed_signals _) config (fun _ h => h) _)) ?_
    rintro ⟨current', hsome, hnot, -⟩
    obtain rfl : current = current' := Option.some.inj (hcurrent.symm.trans hsome)
    rw [hswitch] at hnot
    simp at hnot
  | false =>
    rw [exec_activate_restart hcurrent hswitch, reportsOnce_restart_iff]
    refine not_congr ⟨fun h => ⟨current, hcurrent, hswitch, h⟩, ?_⟩
    rintro ⟨-, -, -, hrest⟩
    exact hrest

end Reports

/-- A connected hop gets another private key, and its route fails: two reports. -/
theorem restart_reports_twice :
    ¬ ReportsOnce
        (step succeedingBackend {} (.activate (hopConfig .singleHop "b" 0x0a000000#32)))
        (exec (activate (failing (.ofTable [] []) true 17)
            { hopConfig .singleHop "b" 0x0a000000#32 with privateKey := .text "z".toList })
          (step succeedingBackend {} (.activate (hopConfig .singleHop "b" 0x0a000000#32)))) := by
  decide

end WgDesktop.Daemon
