import WgDesktop.Client.Controller

/-!
# Who may disconnect

The browser extension may ask for a connection of its own, which covers only its proxies, but must
not take away one that protects the whole device. What stands in its way is `m_initiator`, which is
not set when the VPN was up before the client started, and the states in which `activate` refuses,
which leave out a server switch.
-/

namespace WgDesktop

namespace Controller

/-- The requests of the browser extension. -/
def Event.byExtension : Event → Bool
  | .activate _ .extensionUser _ | .activateConfig _ .extensionUser => true
  | .deactivate .extensionUser => true
  | _ => false

/-- The signals of the implementation and the timers. -/
def Event.isBackend : Event → Bool
  | .implPermRequired | .implInitialized .. | .connected .. | .disconnected | .backendFailure ..
  | .handshakeTimeout | .pingSentAndReceived => true
  | _ => false

/-- The tunnel protects the whole device, or does so when what the client user has started is
complete. -/
def Protects (c : Controller) : Prop :=
  c.state = .on ∨
    (c.state = .confirming ∨ c.state = .switching ∨ c.state = .silentSwitching) ∧
      c.initiator ≠ .extensionUser

instance : DecidablePred Protects := fun _ => inferInstanceAs (Decidable (_ ∨ _))

/-- The states in which the device is no longer protected as a whole. -/
def Reduced (c : Controller) : Prop :=
  c.state = .disconnecting ∨ c.state = .off ∨ c.state = .onPartial

instance : DecidablePred Reduced := fun _ => inferInstanceAs (Decidable (_ ∨ _))

/-- A request takes no protection away: it does not have the implementation disconnect, and whatever
the backend signals afterwards, the controller gets into no such state that it would not have got
into without the request. -/
structure Harmless (c : Controller) (e : Env × Event) : Prop where
  implDeactivate : .implDeactivate ∉ (step c e).out
  reduced : ∀ es : List (Env × Event), (∀ e' ∈ es, e'.2.isBackend) →
    (run (step c e) es).Reduced → (run c es).Reduced

/-- When the controller refuses the extension: it knows that the client user has started the
connection, or it is not switching servers. -/
def Refuses (c : Controller) : Event → Prop
  | .deactivate _ => c.initiator = .clientUser
  | _ => c.inSwitch = false

theorem Event.byExtension_cases {e : Event} (he : e.byExtension) :
    (∃ data policy, e = .activate data .extensionUser policy) ∨
      (∃ config, e = .activateConfig config .extensionUser) ∨ e = .deactivate .extensionUser := by
  unfold Event.byExtension at he
  split at he
  case h_1 data policy => exact .inl ⟨data, policy, rfl⟩
  case h_2 config => exact .inr (.inl ⟨config, rfl⟩)
  case h_3 => exact .inr (.inr rfl)
  case h_4 => cases he

/-- A refused request changes nothing. -/
theorem step_eq_resetOut {c : Controller} {e : Env × Event} (he : e.2.byExtension)
    (hp : c.Protects) (hr : c.Refuses e.2) : step c e = c.resetOut := by
  obtain ⟨env, e⟩ := e
  have haccept (hs : c.inSwitch = false) : c.resetOut.acceptsActivation = false := by
    rcases hp with hp | ⟨hp | hp | hp, -⟩ <;> simp_all [acceptsActivation, inSwitch]
  obtain ⟨data, policy, rfl⟩ | ⟨config, rfl⟩ | rfl := Event.byExtension_cases he
  · obtain ⟨-, ha⟩ | ⟨hoff, -⟩ | ⟨ha, -⟩ :=
      c.resetOut.activate_cases env data .extensionUser policy
    · exact congrArg Prod.fst ha
    · rcases hp with hp | ⟨hp | hp | hp, -⟩ <;> simp [hp] at hoff
    · exact absurd (ha.symm.trans (haccept hr)) (by simp)
  · obtain ⟨-, ha⟩ | ⟨ha, -⟩ | ⟨ha, -⟩ | ⟨ha, -⟩ :=
      c.resetOut.activateConfig_cases env config .extensionUser
    · exact congrArg Prod.fst ha
    all_goals exact absurd (ha.symm.trans (haccept hr)) (by simp)
  · have hrank : c.resetOut.initiator.rank > ActivationPrincipal.rank .extensionUser := by
      change c.initiator.rank > _
      rw [show c.initiator = .clientUser from hr]
      decide
    change (c.resetOut.deactivate .extensionUser).1 = _
    rw [deactivate, if_pos hrank]

/-- The outputs of the event before do not matter. -/
theorem run_resetOut (c : Controller) (es : List (Env × Event)) :
    (run c.resetOut es).state = (run c es).state := by
  cases es with
  | nil => rfl
  | cons e es => rfl

theorem Harmless.of_refuses {c : Controller} {e : Env × Event} (he : e.2.byExtension)
    (hp : c.Protects) (hr : c.Refuses e.2) : c.Harmless e where
  implDeactivate := by
    rw [step_eq_resetOut he hp hr]
    simp
  reduced es _ := by
    rw [step_eq_resetOut he hp hr, Reduced, Reduced, run_resetOut]
    exact id

/-- **The extension takes no protection away** in a run in which the controller refuses each of its
requests that comes while the device is protected. -/
theorem harmless_of_guarded (es : List (Env × Event))
    (h : Runs.Guarded step (fun c e => e.2.byExtension → c.Protects → c.Refuses e.2) {} es)
    (n : ℕ) (e : Env × Event) (he : es[n]? = some e) (hext : e.2.byExtension)
    (hp : (run {} (es.take n)).Protects) : (run {} (es.take n)).Harmless e :=
  Harmless.of_refuses hext hp (h.getElem? he hext hp)

/-- The client user connects, and the extension asks to disconnect. -/
def connectedByClient : List (Env × Event) :=
  [(availableEnv, .initializeController),
   (availableEnv, .implInitialized true false),
   (availableEnv, .activate {} .clientUser .randomizeServerSelection),
   (availableEnv, .connected availableServer.publicKey),
   (availableEnv, .deactivate .extensionUser)]

theorem harmless_of_guarded_connectedByClient :
    (run {} (connectedByClient.take 4)).Protects ∧
      (run {} (connectedByClient.take 4)).Harmless (availableEnv, .deactivate .extensionUser) := by
  have hp : (run {} (connectedByClient.take 4)).Protects := by decide
  have hinit : (run {} (connectedByClient.take 4)).initiator = .clientUser := by decide
  have h : Runs.Guarded step (fun c e => e.2.byExtension → c.Protects → c.Refuses e.2) {}
      connectedByClient :=
    ⟨fun h => absurd h (by decide), fun h => absurd h (by decide), fun h => absurd h (by decide),
      fun h => absurd h (by decide), fun _ _ => hinit, trivial⟩
  exact ⟨hp, harmless_of_guarded connectedByClient h 4 _ rfl rfl hp⟩

/-- The VPN is up before the client starts, and the extension asks to disconnect. -/
def connectedAtStart : List (Env × Event) :=
  [(availableEnv, .initializeController),
   (availableEnv, .implInitialized true true),
   (availableEnv, .deactivate .extensionUser)]

/-- Nobody is known to have started the VPN, so the extension may end it. -/
theorem not_forall_harmless :
    ¬ ∀ (es : List (Env × Event)) (n : ℕ) (e : Env × Event), es[n]? = some e → e.2.byExtension →
      (run {} (es.take n)).Protects → (run {} (es.take n)).Harmless e := by
  intro h
  have hharm := h connectedAtStart 2 (availableEnv, .deactivate .extensionUser) rfl rfl (by decide)
  have hreduced : (run {} (connectedAtStart.take 2)).Reduced :=
    hharm.reduced [] (by simp) (by decide)
  exact absurd hreduced (by decide)

end Controller

end WgDesktop
