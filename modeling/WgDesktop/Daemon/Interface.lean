import WgDesktop.Daemon.Activate

/-!
# The interface of the daemon

What the methods of the daemon do to the interface when calls to the backend may fail: an activation
never removes it and has it when it succeeds, a deactivation leaves no connection and removes the
interface when it succeeds. So there is an interface whenever something is connected.
-/

namespace WgDesktop.Daemon

open Runs

/-- The method leaves the interface and the connections alone, also when it fails. -/
def Frames {α : Type} (m : DaemonM α) : Prop :=
  ∀ s, (exec m s).2.interfaceExists = s.interfaceExists ∧ (exec m s).2.connections = s.connections

section Frames

variable {α β : Type} {m : DaemonM α} {B : Backend}

theorem frames_pure (a : α) : Frames (pure a : DaemonM α) := fun _ => ⟨rfl, rfl⟩

/-- The rest of a sequence starts with the same interface and connections. -/
theorem Frames.elim {f : α → DaemonM β} {P : Except Unit β × State → Prop} {s : State}
    (hm : Frames m)
    (herror : ∀ s', s'.interfaceExists = s.interfaceExists → s'.connections = s.connections →
      P (.error (), s'))
    (hok : ∀ a s', s'.interfaceExists = s.interfaceExists → s'.connections = s.connections →
      P (exec (f a) s')) : P (exec (m >>= f) s) := by
  obtain ⟨hexists, hconn⟩ := hm s
  rw [exec_bind]
  generalize exec m s = r at hexists hconn
  obtain ⟨result, s'⟩ := r
  cases result with
  | error e => exact herror s' hexists hconn
  | ok a => exact hok a s' hexists hconn

theorem Frames.tryCatch {handler : Unit → DaemonM α} (hm : Frames m)
    (hhandler : ∀ e, Frames (handler e)) : Frames (tryCatch m handler) := by
  intro s
  obtain ⟨hexists, hconn⟩ := hm s
  rw [exec_tryCatch]
  generalize exec m s = r at hexists hconn
  obtain ⟨result, s'⟩ := r
  cases result with
  | error e => exact ⟨((hhandler e) s').1.trans hexists, ((hhandler e) s').2.trans hconn⟩
  | ok a => exact ⟨hexists, hconn⟩

theorem exec_call (B : Backend) (effect : State → State) (s : State) :
    exec (call B effect) s =
      if B.succeeds s.calls then (.ok (), { effect s with calls := s.calls + 1 })
      else (.error (), { s with calls := s.calls + 1 }) := by
  rw [call, exec_bind, exec_get]
  dsimp only
  split_ifs
  · rfl
  · rfl

theorem frames_call {effect : State → State} (h : ∀ s, (effect s).interfaceExists =
    s.interfaceExists ∧ (effect s).connections = s.connections) : Frames (call B effect) := by
  intro s
  rw [exec_call]
  split_ifs
  · exact h s
  · exact ⟨rfl, rfl⟩

theorem Frames.bind {f : α → DaemonM β} (hm : Frames m) (hf : ∀ a, Frames (f a)) :
    Frames (m >>= f) := by
  intro s
  refine hm.elim (P := fun r => r.2.interfaceExists = s.interfaceExists ∧
    r.2.connections = s.connections) (fun s' hexists hconn => ⟨hexists, hconn⟩) ?_
  intro a s' hexists hconn
  exact ⟨((hf a) s').1.trans hexists, ((hf a) s').2.trans hconn⟩

theorem frames_callIgnored {effect : State → State} (h : ∀ s, (effect s).interfaceExists =
    s.interfaceExists ∧ (effect s).connections = s.connections) : Frames (callIgnored B effect) :=
  (frames_call h).tryCatch fun _ => frames_pure ()

theorem frames_forM {f : β → DaemonM PUnit} (h : ∀ b, Frames (f b)) (bs : List β) :
    Frames (bs.forM f) := by
  induction bs with
  | nil => exact frames_pure _
  | cons b bs ih => exact (h b).bind fun _ => ih

theorem frames_updatePeer (config : InterfaceConfig) : Frames (updatePeer B config) :=
  frames_call fun _ => ⟨rfl, rfl⟩

theorem frames_updateRoutes (ranges : List IPAddress) : Frames (updateRoutes B ranges) := by
  refine frames_forM (fun ip => ?_) ranges
  unfold updateRoutePrefix
  exact frames_call fun _ => ⟨rfl, rfl⟩

theorem frames_deleteRoutes (ranges : List IPAddress) : Frames (deleteRoutes B ranges) := by
  refine frames_forM (fun ip => ?_) ranges
  unfold deleteRoutePrefix
  exact frames_callIgnored fun _ => ⟨rfl, rfl⟩

theorem frames_maybeUpdateResolvers (config : InterfaceConfig) :
    Frames (maybeUpdateResolvers B config) := by
  unfold maybeUpdateResolvers
  split_ifs
  · exact frames_call fun _ => ⟨rfl, rfl⟩
  · exact frames_pure _

theorem frames_setUpInterface : Frames (setUpInterface B) := by
  unfold setUpInterface
  split_ifs
  · exact (frames_call fun _ => ⟨rfl, rfl⟩).bind fun _ => frames_call fun _ => ⟨rfl, rfl⟩
  · exact frames_pure _

theorem frames_cleanUp (state : ConnectionState) : Frames (cleanUp B state) :=
  (frames_deleteRoutes _).bind fun _ => frames_callIgnored fun _ => ⟨rfl, rfl⟩

end Frames

/-! ## What a method preserves -/

/-- The property is one of the connections and the signals only. -/
def Observed (P : State → Prop) : Prop :=
  ∀ s s', s'.connections = s.connections → s'.signals = s.signals → P s → P s'

theorem observed_signals (l : List Signal) : Observed fun s => s.signals = l :=
  fun _ _ _ hsame h => hsame.trans h

section Preserves

variable {P : State → Prop} {B : Backend}

variable (hP : Observed P)

include hP

theorem preserves_call {effect : State → State} (hconn : ∀ s, (effect s).connections = s.connections)
    (hsignals : ∀ s, (effect s).signals = s.signals) : Preserves P (call B effect) := by
  intro s hs
  rw [exec_call]
  split_ifs
  · exact hP s _ (hconn s) (hsignals s) hs
  · exact hP s _ rfl rfl hs

theorem preserves_callIgnored {effect : State → State}
    (hconn : ∀ s, (effect s).connections = s.connections)
    (hsignals : ∀ s, (effect s).signals = s.signals) : Preserves P (callIgnored B effect) :=
  (preserves_call hP hconn hsignals).tryCatch fun _ => preserves_pure _

theorem preserves_updatePeer (config : InterfaceConfig) : Preserves P (updatePeer B config) :=
  preserves_call hP (fun _ => rfl) fun _ => rfl

theorem preserves_updateRoutes (ranges : List IPAddress) :
    Preserves P (updateRoutes B ranges) := by
  refine preserves_forM (fun ip => ?_) ranges
  unfold updateRoutePrefix
  exact preserves_call hP (fun _ => rfl) fun _ => rfl

theorem preserves_deleteRoutes (ranges : List IPAddress) :
    Preserves P (deleteRoutes B ranges) := by
  refine preserves_forM (fun ip => ?_) ranges
  unfold deleteRoutePrefix
  exact preserves_callIgnored hP (fun _ => rfl) fun _ => rfl

theorem preserves_maybeUpdateResolvers (config : InterfaceConfig) :
    Preserves P (maybeUpdateResolvers B config) := by
  unfold maybeUpdateResolvers
  split_ifs
  · exact preserves_call hP (fun _ => rfl) fun _ => rfl
  · exact preserves_pure _

theorem preserves_ensureInterface : Preserves P (ensureInterface B) := by
  have hcreate : Preserves P (addInterface B) := preserves_call hP (fun _ => rfl) fun _ => rfl
  have hid : Preserves P (call B id) := preserves_call hP (fun _ => rfl) fun _ => rfl
  have hsetUp : Preserves P (setUpInterface B) := by
    unfold setUpInterface
    split_ifs
    · exact hid.bind fun _ => hid
    · exact preserves_pure _
  intro s hs
  unfold ensureInterface
  rw [exec_bind_ok (exec_get s)]
  split_ifs
  · exact (hcreate.bind fun _ => hsetUp.bind fun _ => hid) s hs
  · exact hs

theorem preserves_cleanUp (state : ConnectionState) : Preserves P (cleanUp B state) := by
  have hpeer : Preserves P (callIgnored B (withoutPeer state.config)) :=
    preserves_callIgnored hP (fun _ => rfl) fun _ => rfl
  exact (preserves_deleteRoutes hP _).bind fun _ => hpeer

theorem preserves_deactivate (emitSignals : Bool)
    (hclear : ∀ s, P s → P { s with connections := fun _ => none })
    (hemit : ∀ s, emitSignals = true → P s → P { s with signals := s.signals ++ [.disconnected] }) :
    Preserves P (deactivate B emitSignals) := by
  have hdelete : Preserves P (deleteInterface B) := preserves_call hP (fun _ => rfl) fun _ => rfl
  have hrestore : Preserves P (callIgnored B fun s => { s with resolvers := [] }) :=
    preserves_callIgnored hP (fun _ => rfl) fun _ => rfl
  unfold deactivate
  refine hrestore.bind fun _ => ?_
  refine Preserves.bind (fun _ hs => hs) fun s => ?_
  refine (preserves_forM (preserves_cleanUp hP) _).bind fun _ => ?_
  refine (preserves_modify hclear).bind fun _ => ?_
  have hthrow : Preserves P (throw () : DaemonM Unit) := fun _ hs => hs
  cases emitSignals with
  | true =>
    have hdisconnected : Preserves P
        (modify fun s => { s with signals := s.signals ++ [.disconnected] } : DaemonM PUnit) :=
      preserves_modify fun s => hemit s rfl
    refine (hdelete.tryCatch fun _ => ?_).bind fun _ => hdisconnected
    exact hdisconnected.bind fun _ => hthrow
  | false => exact (hdelete.tryCatch fun _ => hthrow).bind fun _ => preserves_pure _

variable (config : InterfaceConfig) (hset : ∀ s, P s → P (setConnection config s))

include hset

theorem preserves_finishActivation : Preserves P (finishActivation config) :=
  preserves_modify fun s hs => hP (setConnection config s) _ rfl rfl (hset s hs)

theorem preserves_bringUp : Preserves P (bringUp B config) := by
  unfold bringUp
  refine (preserves_ensureInterface hP).bind fun _ => ?_
  refine (preserves_updatePeer hP config).bind fun _ => ?_
  refine (preserves_maybeUpdateResolvers hP config).bind fun _ => ?_
  refine (preserves_updateRoutes hP _).bind fun _ => ?_
  exact preserves_finishActivation hP config hset

theorem preserves_switchServer (current : InterfaceConfig) :
    Preserves P (switchServer B current config) := by
  unfold switchServer
  refine (preserves_updatePeer hP config).bind fun _ => ?_
  refine ((preserves_updateRoutes hP _).tryCatch fun _ => preserves_pure _).bind fun _ => ?_
  refine (preserves_deleteRoutes hP _).bind fun _ => ?_
  have hpeer : Preserves P (call B (withoutPeer current)) :=
    preserves_call hP (fun _ => rfl) fun _ => rfl
  split_ifs
  · exact hpeer.bind fun _ => preserves_modify hset
  · exact preserves_modify hset

end Preserves

/-! ## Deactivation -/

variable {B : Backend}

/-- The method cannot fail. -/
def Total (m : DaemonM Unit) : Prop := ∀ s, (exec m s).1 = .ok ()

theorem Total.bind {m m' : DaemonM Unit} (hm : Total m) (hm' : Total m') :
    Total (m >>= fun _ => m') := by
  intro s
  have hok := hm s
  rw [exec_bind]
  generalize exec m s = r at hok
  obtain ⟨result, s'⟩ := r
  subst hok
  exact hm' s'

theorem total_callIgnored (effect : State → State) : Total (callIgnored B effect) := by
  intro s
  rw [callIgnored, exec_tryCatch, exec_call]
  split_ifs
  · rfl
  · rfl

theorem total_forM {β : Type} {f : β → DaemonM Unit} (h : ∀ b, Total (f b)) (bs : List β) :
    Total (bs.forM f) := by
  induction bs with
  | nil => exact fun _ => rfl
  | cons b bs ih => exact (h b).bind ih

theorem total_cleanUp (state : ConnectionState) : Total (cleanUp B state) :=
  (total_forM (fun _ => total_callIgnored _) _).bind (total_callIgnored _)

/-- A sequence after a part that cannot fail and leaves the interface alone. -/
theorem Total.elim {m : DaemonM Unit} {f : Unit → DaemonM Unit} {P : Except Unit Unit × State → Prop}
    {s : State} (hm : Total m) (hframes : Frames m)
    (hok : ∀ s', s'.interfaceExists = s.interfaceExists → P (exec (f ()) s')) :
    P (exec (m >>= f) s) := by
  have hresult := hm s
  obtain ⟨hexists, -⟩ := hframes s
  rw [exec_bind]
  generalize exec m s = r at hresult hexists
  obtain ⟨result, s'⟩ := r
  subst hresult
  exact hok s' hexists

/-- What a deactivation leaves: no connections, and no interface unless it fails. -/
structure Deactivated (s : State) (r : Except Unit Unit × State) : Prop where
  connections : ∀ hop, r.2.connections hop = none
  interface : (r.1.isOk = true ∧ r.2.interfaceExists = false) ∨
    (r.1.isOk = false ∧ r.2.interfaceExists = s.interfaceExists)

theorem deactivated_deactivate (emitSignals : Bool) (s : State) :
    Deactivated s (exec (deactivate B emitSignals) s) := by
  unfold deactivate
  refine Total.elim (total_callIgnored _) (frames_callIgnored fun _ => ⟨rfl, rfl⟩) ?_
  intro s₁ hexists₁
  rw [exec_bind, exec_get]
  refine Total.elim (total_forM total_cleanUp _) (frames_forM frames_cleanUp _) ?_
  intro s₂ hexists₂
  have hexists := hexists₂.trans hexists₁
  rw [exec_bind, exec_modify]
  dsimp only
  rw [exec_bind, exec_tryCatch, deleteInterface, exec_call]
  by_cases hok : B.succeeds s₂.calls = true
  · rw [if_pos hok]
    cases emitSignals with
    | true => exact ⟨fun _ => rfl, .inl ⟨rfl, rfl⟩⟩
    | false => exact ⟨fun _ => rfl, .inl ⟨rfl, rfl⟩⟩
  · rw [if_neg hok]
    cases emitSignals with
    | true => exact ⟨fun _ => rfl, .inr ⟨rfl, hexists⟩⟩
    | false => exact ⟨fun _ => rfl, .inr ⟨rfl, hexists⟩⟩

/-! ## Activation -/

/-- There is an interface when something is connected. -/
def Up (s : State) : Prop := ∀ hop, s.connections hop ≠ none → s.interfaceExists = true

/-- What an activation leaves. -/
structure Activated (s : State) (r : Except Unit Unit × State) : Prop where
  up : Up s → Up r.2
  keeps : s.interfaceExists = true → r.2.interfaceExists = true
  success : r.1.isOk = true → r.2.interfaceExists = true

theorem Activated.guardFailure {m : DaemonM Unit} {s : State} (h : Activated s (exec m s)) :
    Activated s (exec (guardFailure m) s) := by
  unfold Daemon.guardFailure
  rw [exec_tryCatch]
  generalize exec m s = r at h
  obtain ⟨result, s'⟩ := r
  cases result with
  | error e =>
    exact ⟨h.up, h.keeps, fun hok => by simp [exec_bind, Except.isOk, Except.toBool] at hok⟩
  | ok a => exact h

/-- A part that leaves the interface and the connections alone, and what comes after it. -/
theorem Activated.after {m : DaemonM Unit} {f : Unit → DaemonM Unit} {s : State} (hm : Frames m)
    (hrest : ∀ s', s'.interfaceExists = s.interfaceExists → s'.connections = s.connections →
      Activated s' (exec (f ()) s')) : Activated s (exec (m >>= f) s) := by
  refine hm.elim (P := Activated s) (fun s' hexists hconn => ?_) fun _ s' hexists hconn => ?_
  · refine ⟨fun hup hop hne => ?_, fun hs => hexists.trans hs,
      fun hok => by simp [Except.isOk, Except.toBool] at hok⟩
    rw [hexists]
    rw [hconn] at hne
    exact hup hop hne
  · have h := hrest s' hexists hconn
    refine ⟨fun hup => h.up fun hop hne => ?_, fun hs => h.keeps (hexists.trans hs), h.success⟩
    rw [hexists]
    rw [hconn] at hne
    exact hup hop hne

theorem activated_finish (config : InterfaceConfig) {s : State} (hs : s.interfaceExists = true) :
    Activated s (exec (finishActivation config) s) :=
  ⟨fun _ _ _ => hs, fun _ => hs, fun _ => hs⟩

theorem activated_rest (config : InterfaceConfig) {s : State} (hs : s.interfaceExists = true) :
    Activated s (exec (do
      updatePeer B config
      maybeUpdateResolvers B config
      updateRoutes B config.allowedIPAddressRanges
      finishActivation config) s) := by
  refine Activated.after (frames_updatePeer config) fun s₁ h₁ _ => ?_
  refine Activated.after (frames_maybeUpdateResolvers config) fun s₂ h₂ _ => ?_
  refine Activated.after (frames_updateRoutes _) fun s₃ h₃ _ => ?_
  exact activated_finish config (h₃.trans (h₂.trans (h₁.trans hs)))

theorem ensureInterface_spec (s : State) :
    (exec (ensureInterface B) s).2.connections = s.connections ∧
      (s.interfaceExists = true → (exec (ensureInterface B) s).2.interfaceExists = true) ∧
      ((exec (ensureInterface B) s).1.isOk = true →
        (exec (ensureInterface B) s).2.interfaceExists = true) := by
  unfold ensureInterface
  rw [exec_bind, exec_get]
  dsimp only
  cases hs : s.interfaceExists with
  | true => exact ⟨rfl, fun _ => hs, fun _ => hs⟩
  | false =>
    have hsetUp : Frames (setUpInterface B >>= fun _ => call B id) :=
      frames_setUpInterface.bind fun _ => frames_call fun _ => ⟨rfl, rfl⟩
    rw [if_pos (by decide), addInterface, exec_bind, exec_call]
    by_cases hok : B.succeeds s.calls = true
    · rw [if_pos hok]
      obtain ⟨hexists, hconn⟩ := hsetUp { s with interfaceExists := true, calls := s.calls + 1 }
      exact ⟨hconn, fun _ => hexists, fun _ => hexists⟩
    · rw [if_neg hok]
      exact ⟨rfl, by simp, by simp [Except.isOk, Except.toBool]⟩

theorem activated_bringUp (config : InterfaceConfig) (s : State) :
    Activated s (exec (bringUp B config) s) := by
  obtain ⟨hconn, hkeeps, hsuccess⟩ := ensureInterface_spec (B := B) s
  unfold bringUp
  rw [exec_bind]
  generalize exec (ensureInterface B) s = r at hconn hkeeps hsuccess
  obtain ⟨result, s'⟩ := r
  cases result with
  | error e =>
    refine ⟨fun hup hop hne => hkeeps (hup hop ?_), hkeeps, by simp [Except.isOk, Except.toBool]⟩
    rw [← show s'.connections = s.connections from hconn]
    exact hne
  | ok a =>
    have hexists : s'.interfaceExists = true := hsuccess rfl
    have hrest := activated_rest (B := B) config hexists
    exact ⟨fun _ => hrest.up fun _ _ => hexists, fun _ => hrest.keeps hexists, hrest.success⟩

/-- The switch of a connected hop to another server. -/
def switch (B : Backend) (current config : InterfaceConfig) : DaemonM Unit := do
  switchServer B current config
  restoreResolvers B
  maybeUpdateResolvers B config
  finishActivation config

theorem interface_switchServer (current config : InterfaceConfig) (s : State) :
    (exec (switchServer B current config) s).2.interfaceExists = s.interfaceExists := by
  unfold switchServer
  refine (frames_updatePeer config).elim (P := fun r => r.2.interfaceExists = s.interfaceExists)
    (fun _ h _ => h) fun _ s₁ h₁ _ => ?_
  have hroutes : Frames (tryCatch (updateRoutes B config.allowedIPAddressRanges) fun _ => pure ()) :=
    (frames_updateRoutes _).tryCatch fun _ => frames_pure _
  refine hroutes.elim (P := fun r => r.2.interfaceExists = s.interfaceExists)
    (fun _ h _ => h.trans h₁) fun _ s₂ h₂ _ => ?_
  refine (frames_deleteRoutes _).elim (P := fun r => r.2.interfaceExists = s.interfaceExists)
    (fun _ h _ => h.trans (h₂.trans h₁)) fun _ s₃ h₃ _ => ?_
  have hexists := h₃.trans (h₂.trans h₁)
  split_ifs
  · have hpeer : Frames (call B (withoutPeer current)) := frames_call fun _ => ⟨rfl, rfl⟩
    refine hpeer.elim (P := fun r => r.2.interfaceExists = s.interfaceExists)
      (fun _ h _ => h.trans hexists) fun _ s₄ h₄ _ => h₄.trans hexists
  · exact hexists

theorem activated_switch (current config : InterfaceConfig) {s : State}
    (hs : s.interfaceExists = true) : Activated s (exec (switch B current config) s) := by
  have hserver := (interface_switchServer (B := B) current config s).trans hs
  unfold switch
  rw [exec_bind]
  generalize exec (switchServer B current config) s = r at hserver
  obtain ⟨result, s'⟩ := r
  cases result with
  | error e =>
    exact ⟨fun _ _ _ => hserver, fun _ => hserver, by simp [Except.isOk, Except.toBool]⟩
  | ok a =>
    have hrest : Activated s' (exec (do
        restoreResolvers B
        maybeUpdateResolvers B config
        finishActivation config) s') := by
      have hresolvers : Frames (restoreResolvers B) := frames_call fun _ => ⟨rfl, rfl⟩
      refine Activated.after hresolvers fun s₁ h₁ _ => ?_
      refine Activated.after (frames_maybeUpdateResolvers config) fun s₂ h₂ _ => ?_
      exact activated_finish config (h₂.trans (h₁.trans hserver))
    exact ⟨fun _ => hrest.up fun _ _ => hserver, fun _ => hrest.keeps hserver, hrest.success⟩

theorem preserves_switch {P : State → Prop} (hP : Observed P) (config : InterfaceConfig)
    (hset : ∀ s, P s → P (setConnection config s)) (current : InterfaceConfig) :
    Preserves P (switch B current config) := by
  unfold switch
  refine (preserves_switchServer hP config hset current).bind fun _ => ?_
  have hrestore : Preserves P (restoreResolvers B) := preserves_call hP (fun _ => rfl) fun _ => rfl
  refine hrestore.bind fun _ => ?_
  refine (preserves_maybeUpdateResolvers hP config).bind fun _ => ?_
  exact preserves_finishActivation hP config hset

/-- **What an activation preserves**, when its steps that touch connections and signals do. -/
theorem preserves_activateWith {P : State → Prop} (hP : Observed P) (config : InterfaceConfig)
    (hset : ∀ s, P s → P (setConnection config s))
    (hclear : ∀ s, P s → P { s with connections := fun _ => none })
    (hfail : ∀ s, P s → P { s with signals := s.signals ++ [.activationFailure] }) (fuel : ℕ) :
    Preserves P (activateWith B fuel config) := by
  induction fuel with
  | zero => exact fun _ hs => hs
  | succ fuel ih =>
    unfold activateWith guardFailure
    refine Preserves.tryCatch (Preserves.bind (fun _ hs => hs) fun s => ?_) fun _ =>
      (preserves_modify hfail).bind fun _ _ hs => hs
    cases s.connections config.hopType with
    | none => exact preserves_bringUp hP config hset
    | some current =>
      dsimp only
      split_ifs
      · exact preserves_switch hP config hset current.config
      · exact (preserves_deactivate hP false hclear fun _ h => absurd h (by simp)).bind fun _ => ih

end WgDesktop.Daemon
