import WgDesktop.Client.Controller

/-!
# The order of the hops

A connection over several hops is activated hop by hop: the next hop is submitted when the handshake
of the one before it has been reported. The reports come from another process, may be late or
repeated, and belong to an attempt that has been given up meanwhile. `Activation` follows the
current attempt beside the controller: its hops, those that were confirmed, and those that were
submitted.
-/

namespace WgDesktop

namespace Controller

open scoped List

/-- A handshake reported by the implementation, or the end of the handshake timer. -/
inductive Signal where
  | connected (pubkey : QString)
  | timeout
  deriving DecidableEq, Repr

def Signal.event : Signal → Event
  | .connected pubkey => .connected pubkey
  | .timeout => .handshakeTimeout

/-- What `activateInternal` does to the queue: the first hop of a new attempt is submitted, or the
queue is dropped. -/
theorem activateInternal_queue (c : Controller) (env : Env) (dnsPort : DNSPortPolicy)
    (policy : ServerSelectionPolicy) (initiator : ActivationPrincipal) :
    let d := activateInternal env dnsPort policy initiator c
    submissions d.out = submissions c.out ∧ d.activationQueue = [] ∨
      ∃ first rest, ExitLast (first :: rest) ∧ d.activationQueue = first :: rest ∧
        submissions d.out = submissions c.out ++ [first] := by
  obtain ⟨-, h⟩ | ⟨-, -, h⟩ | ⟨-, -, first, rest, hlast, h⟩ :=
    c.activateInternal_cases env dnsPort policy initiator <;> rw [h]
  · refine Or.inl ⟨submissions_serverUnavailable _, ?_⟩
    rw [serverUnavailable_eq]
    rfl
  · exact Or.inl ⟨rfl, rfl⟩
  · refine Or.inr ⟨first, rest, hlast, ?_, submissions_submit _ _⟩
    rw [submit_eq]
    rfl

theorem handshakeTimeout_queue (c : Controller) (env : Env) :
    let d := c.handshakeTimeout env
    submissions d.out = submissions c.out ∧
        (d.activationQueue = [] ∨ d.activationQueue = c.activationQueue) ∨
      ∃ first rest, ExitLast (first :: rest) ∧ d.activationQueue = first :: rest ∧
        submissions d.out = submissions c.out ++ [first] := by
  have hexpired : submissions c.expired.out = submissions c.out := by
    simp [expired, emit, Output.submission]
  have hprofile : submissions c.profileExpired.out = submissions c.out := by
    simp [profileExpired, setError]
  have hqueue : c.profileExpired.activationQueue = c.activationQueue := by
    rw [profileExpired, setState_eq]
    rfl
  obtain ⟨-, h⟩ | ⟨-, -, h⟩ | ⟨-, -, -, h⟩ | ⟨-, -, -, -, h⟩ | ⟨-, -, -, -, h⟩ :=
    c.handshakeTimeout_cases env <;> rw [h]
  · exact Or.inl ⟨rfl, Or.inr rfl⟩
  · refine Or.inl ?_
    split_ifs
    · exact ⟨by simp [emit, Output.submission, hprofile], Or.inr hqueue⟩
    · exact ⟨hprofile, Or.inr hqueue⟩
  · refine Or.inl ⟨by rw [submissions_deactivate, hexpired], ?_⟩
    obtain ⟨-, hd⟩ | ⟨-, hd⟩ | ⟨-, -, hd⟩ := c.expired.deactivate_clientUser_cases <;> rw [hd]
    · rw [setState_eq]
      exact Or.inr rfl
    · exact Or.inr rfl
    · rw [tearDown_eq]
      exact Or.inl rfl
  · obtain ⟨hsub, hq⟩ | ⟨first, rest, hlast, hq, hsub⟩ :=
      activateInternal_queue { c.expired with connectionRetry := c.connectionRetry + 1 } env
        c.retryDnsPort .randomizeServerSelection c.initiator
    · exact Or.inl ⟨hsub.trans hexpired, Or.inl hq⟩
    · exact Or.inr ⟨first, rest, hlast, hq, hsub.trans (by rw [← hexpired])⟩
  · refine Or.inl ⟨by rw [submissions_serverUnavailable]; exact hexpired, Or.inr ?_⟩
    rw [serverUnavailable_eq]
    rfl

/-- The hop at the head of the queue, when the handshake is its own. -/
def confirmedBy (pubkey : QString) : List InterfaceConfig → List InterfaceConfig
  | [] => []
  | hop :: _ => if hop.serverPublicKey == pubkey then [hop] else []

/-- The controller with the attempt under way. -/
structure Activation where
  controller : Controller
  hops : List InterfaceConfig
  confirmed : List InterfaceConfig
  submitted : List InterfaceConfig

namespace Activation

/-- An attempt whose first hop has been submitted. -/
def start (c : Controller) : Activation :=
  { controller := c
    hops := c.activationQueue
    confirmed := []
    submitted := c.activationQueue.take 1 }

/-- One signal. A hop submitted after a timeout is the first one of a new attempt. -/
def step (a : Activation) (s : Env × Signal) : Activation :=
  let c := a.controller.step (s.1, s.2.event)
  match s.2 with
  | .connected pubkey =>
    { a with
      controller := c
      confirmed := a.confirmed ++ confirmedBy pubkey a.controller.activationQueue
      submitted := a.submitted ++ submissions c.out }
  | .timeout =>
    if submissions c.out = [] then { a with controller := c }
    else
      { controller := c
        hops := c.activationQueue
        confirmed := []
        submitted := submissions c.out }

def run (a : Activation) (ss : List (Env × Signal)) : Activation := ss.foldl step a

/-- The hops are submitted in their order, and none before the one in front of it is confirmed. -/
structure InOrder (a : Activation) : Prop where
  confirmed : a.confirmed <+: a.hops
  submitted : a.submitted <+ a.hops.take (a.confirmed.length + 1)

/-- What the signals preserve: the queue holds the hops that are not confirmed yet, unless it has
been dropped, and a new attempt ends with the exit server. -/
structure Inv (first : List InterfaceConfig) (a : Activation) : Prop extends InOrder a where
  queue : a.controller.activationQueue = [] ∨
    a.hops = a.confirmed ++ a.controller.activationQueue
  hops : a.hops = first ∨ ExitLast a.hops

theorem inv_start (c : Controller) : Inv c.activationQueue (start c) where
  confirmed := List.nil_prefix
  submitted := by simp [start]
  queue := Or.inr rfl
  hops := Or.inl rfl

section Step

variable {first : List InterfaceConfig} {a : Activation}

/-- A change of the controller that keeps the queue or drops it. -/
theorem Inv.of_queue (h : a.Inv first) (c : Controller)
    (hc : c.activationQueue = [] ∨ c.activationQueue = a.controller.activationQueue) :
    Inv first { a with controller := c } where
  confirmed := h.confirmed
  submitted := h.submitted
  queue := by
    obtain hc | hc := hc
    · exact Or.inl hc
    · rw [hc]
      exact h.queue
  hops := h.hops

theorem inv_timeout (h : a.Inv first) (env : Env) : (a.step (env, .timeout)).Inv first := by
  unfold step
  dsimp only [Signal.event]
  have hstep : a.controller.step (env, .handshakeTimeout) =
      a.controller.resetOut.handshakeTimeout env := rfl
  obtain ⟨hsub, hq⟩ | ⟨hop, rest, hlast, hq, hsub⟩ :=
    handshakeTimeout_queue a.controller.resetOut env
  · have hnone : submissions (a.controller.resetOut.handshakeTimeout env).out = [] := hsub
    rw [hstep, if_pos hnone]
    exact h.of_queue _ hq
  · rw [hstep, if_neg (by rw [hsub]; simp)]
    exact {
      confirmed := List.nil_prefix
      submitted := by
        rw [hsub, hq]
        simp
      queue := Or.inr rfl
      hops := by
        rw [hq]
        exact Or.inr hlast }

theorem inv_unconfirmed (h : a.Inv first) {env : Env} {pubkey : QString}
    (hnone : confirmedBy pubkey a.controller.activationQueue = [])
    (hsub : submissions (a.controller.step (env, .connected pubkey)).out = [])
    (hq : (a.controller.step (env, .connected pubkey)).activationQueue = [] ∨
      (a.controller.step (env, .connected pubkey)).activationQueue =
        a.controller.activationQueue) :
    (a.step (env, .connected pubkey)).Inv first := by
  unfold step
  dsimp only [Signal.event]
  rw [hnone, hsub, List.append_nil, List.append_nil]
  exact h.of_queue _ hq

theorem inv_confirmed (h : a.Inv first) {env : Env} {pubkey : QString} {hop : InterfaceConfig}
    {rest : List InterfaceConfig} (hq : a.controller.activationQueue = hop :: rest)
    (hk : hop.serverPublicKey.chars = pubkey.chars)
    (hq' : (a.controller.step (env, .connected pubkey)).activationQueue = rest)
    (hsub : submissions (a.controller.step (env, .connected pubkey)).out <+ rest.take 1) :
    (a.step (env, .connected pubkey)).Inv first := by
  have hby : confirmedBy pubkey (hop :: rest) = [hop] := by simp [confirmedBy, hk]
  have hhops : a.hops = a.confirmed ++ hop :: rest := by
    have := h.queue
    simpa [hq] using this
  have hbefore : a.submitted <+ a.confirmed ++ [hop] := by
    have := h.submitted
    rwa [hhops, List.take_length_add_append] at this
  unfold step
  dsimp only [Signal.event]
  rw [hq, hby]
  exact {
    confirmed := ⟨rest, by simp [hhops]⟩
    submitted := by
      have hlen : (a.confirmed ++ [hop]).length + 1 = a.confirmed.length + 2 := by simp
      have htake : a.hops.take (a.confirmed.length + 2) =
          a.confirmed ++ [hop] ++ rest.take 1 := by
        rw [hhops, List.take_length_add_append]
        simp
      change a.submitted ++ _ <+ a.hops.take ((a.confirmed ++ [hop]).length + 1)
      rw [hlen, htake]
      exact hbefore.append hsub
    queue := Or.inr (by rw [hq', hhops]; simp)
    hops := h.hops }

theorem connectionUp_queue {c : Controller} (h : c.activationQueue = []) :
    c.connectionUp.activationQueue = [] := by
  rw [connectionUp_eq]
  split_ifs
  · rw [tearDown_eq]
  · exact h

theorem inv_connected (h : a.Inv first) (env : Env) (pubkey : QString) :
    (a.step (env, .connected pubkey)).Inv first := by
  have hstep : a.controller.step (env, .connected pubkey) =
      a.controller.resetOut.connected env pubkey := rfl
  obtain ⟨hk, hc⟩ | ⟨hq, -, hc⟩ | ⟨hop, hq, hk, hc⟩ | ⟨hop, next, rest, hq, hk, hc⟩ :=
    a.controller.resetOut.connected_cases env pubkey
  · refine inv_unconfirmed h ?_ (by rw [hstep, hc]; rfl) (by rw [hstep, hc]; exact Or.inr rfl)
    cases hq : a.controller.activationQueue with
    | nil => rfl
    | cons hop rest =>
      have hk' : hop.serverPublicKey.chars ≠ pubkey.chars := (stray_iff_of_cons hq).mp hk
      simp [confirmedBy, hk']
  · rw [resetOut_activationQueue] at hq
    refine inv_unconfirmed h (by rw [hq]; rfl) (by rw [hstep, hc]; simp) ?_
    rw [hstep, hc]
    exact Or.inl (connectionUp_queue hq)
  · refine inv_confirmed h hq hk ?_ (by rw [hstep, hc]; simp)
    rw [hstep, hc]
    exact connectionUp_queue rfl
  · obtain hc | hc := hc
    · refine inv_confirmed h hq hk (by rw [hstep, hc]; rfl) ?_
      rw [hstep, hc]
      simp [emit, Output.submission]
    · refine inv_confirmed h hq hk (by rw [hstep, hc, submit_eq]) ?_
      rw [hstep, hc]
      simp

theorem inv_step (h : a.Inv first) (s : Env × Signal) : (a.step s).Inv first := by
  obtain ⟨env, pubkey | -⟩ := s
  · exact inv_connected h env pubkey
  · exact inv_timeout h env

end Step

theorem inv_run (c : Controller) (ss : List (Env × Signal)) :
    ((start c).run ss).Inv c.activationQueue :=
  @Runs.foldl_invariant _ _ step (Inv c.activationQueue) (fun _ s h => inv_step h s) _ (inv_start c)
    ss

section Up

variable {first : List InterfaceConfig} {a : Activation}

/-- A hop that a handshake has submitted is the one behind the hop that the handshake confirms. -/
theorem next_of_mem_submissions {env : Env} {pubkey : QString} {next : InterfaceConfig}
    (h : next ∈ submissions (a.step (env, .connected pubkey)).controller.out) :
    ∃ hop rest, a.controller.activationQueue = hop :: next :: rest ∧
      hop.serverPublicKey.chars = pubkey.chars := by
  have hstep : (a.step (env, .connected pubkey)).controller =
      a.controller.resetOut.connected env pubkey := rfl
  rw [hstep] at h
  obtain ⟨-, hc⟩ | ⟨-, -, hc⟩ | ⟨hop, -, -, hc⟩ | ⟨hop, next', rest, hq, hk, hc | hc⟩ :=
    a.controller.resetOut.connected_cases env pubkey
  · simp [hc] at h
  · simp [hc] at h
  · simp [hc] at h
  · simp [hc, emit, Output.submission] at h
  · obtain rfl : next = next' := by simpa [hc] using h
    exact ⟨hop, rest, hq, hk⟩

theorem confirmed_eq_of_cameUp (h : a.Inv first) {s : Env × Signal}
    (hpending : a.controller.activationQueue ≠ []) (hup : (a.step s).controller.cameUp) :
    (a.step s).confirmed = (a.step s).hops := by
  obtain ⟨env, pubkey | -⟩ := s
  · have hstep : (a.step (env, .connected pubkey)).controller =
        a.controller.resetOut.connected env pubkey := rfl
    rw [hstep] at hup
    obtain ⟨-, hc⟩ | ⟨hq, -, -⟩ | ⟨hop, hq, hk, -⟩ | ⟨hop, next, rest, -, -, hc | hc⟩ :=
      a.controller.resetOut.connected_cases env pubkey
    · simp [hc, cameUp] at hup
    · exact absurd hq hpending
    · rw [resetOut_activationQueue] at hq
      have hby : confirmedBy pubkey [hop] = [hop] := by simp [confirmedBy, hk]
      have hhops := h.queue
      simp only [hq, List.cons_ne_nil, false_or] at hhops
      simp only [step, hq, hby, hhops]
    · simp [hc, cameUp, emit, Output.isUp] at hup
    · rw [hc, cameUp_submit] at hup
      simp [cameUp] at hup
  · have hcontroller : (a.step (env, .timeout)).controller =
        a.controller.resetOut.handshakeTimeout env := by
      unfold step
      dsimp only [Signal.event]
      split_ifs <;> rfl
    rw [hcontroller, cameUp_handshakeTimeout] at hup
    simp [cameUp] at hup

end Up

/-- **The order of the hops.** Whatever the handshakes and timeouts after an attempt has begun: its
hops are submitted in their order, each behind the one that the handshake confirms; a new attempt
ends with the exit server; and the connection comes up from an attempt only when all of its hops are
confirmed. -/
theorem hops_in_order (c : Controller) (ss : List (Env × Signal)) :
    ((start c).run ss).InOrder ∧
      (((start c).run ss).hops = c.activationQueue ∨ ExitLast ((start c).run ss).hops) ∧
      (∀ env pubkey,
        ∀ next ∈ submissions (((start c).run ss).step (env, .connected pubkey)).controller.out,
          ∃ hop rest, ((start c).run ss).controller.activationQueue = hop :: next :: rest ∧
            hop.serverPublicKey.chars = pubkey.chars) ∧
      ∀ s, ((start c).run ss).controller.activationQueue ≠ [] →
        (((start c).run ss).step s).controller.cameUp →
        (((start c).run ss).step s).confirmed = (((start c).run ss).step s).hops := by
  have h := inv_run c ss
  exact ⟨h.toInOrder, h.hops, fun _ _ _ hnext => next_of_mem_submissions hnext,
    fun _ hpending hup => confirmed_eq_of_cameUp h hpending hup⟩

end Activation

end Controller

end WgDesktop
