import Mathlib.Logic.Function.Iterate
import WgDesktop.Client.Controller
import WgDesktop.Client.PingHelper

/-!
# `ConnectionHealth`

The monitor of the tunnel's health, from `src/connectionhealth.cpp`, on a desktop. The controller
calls `connectionStateChanged` within `setState`, so that the state the monitor looks up is the one
that it has handled last. Replies to pings wait in the event queue; a reply that comes out of it
late is what `quiet_iff` is about.
-/

namespace WgDesktop

open Runs
open Controller (State)

/-- `PING_TIME_UNSTABLE`, in milliseconds. -/
def pingTimeUnstable : ℤ := 1000

def pingLossUnstableThreshold : ℚ := 1 / 10

def pingBaselineEwmaDivisor : ℕ := 8

inductive ConnectionStability where
  | stable
  | unstable
  | noSignal
  deriving DecidableEq, Repr

/-- The monitor and what it is connected to: the state of the controller, the connections to
`statusUpdated` that are not used up, the senders of pings that exist and those of them that are to
be deleted, the replies that wait in the event queue, and the calls of `setStability`, each with the
state of the controller. -/
structure ConnectionHealth where
  state : State := .initializing
  stability : ConnectionStability := .stable
  noSignalTimer : Bool := false
  healthCheckTimer : Bool := false
  pingHelper : PingHelper := {}
  dnsPingTimer : Bool := false
  dnsPingSequence : BitVec 16 := 0#16
  dnsPingTimestamp : ℤ := 0
  dnsPingLatency : ℕ := 1000
  dnsPingInitialized : Bool := false
  statusConnections : ℕ := 0
  senders : ℕ := 0
  deletedSenders : ℕ := 0
  replies : List (BitVec 16) := []
  silentSwitches : ℕ := 0
  calls : List (State × ConnectionStability) := []

/-- `StateOn` and `StateOnPartial`. -/
def Controller.State.tunnelOn (state : State) : Bool := state == .on || state == .onPartial

namespace ConnectionHealth

/-- `PingHelper::stop`, with the sender that it deletes later. -/
def stopPings (s : ConnectionHealth) : ConnectionHealth :=
  { s with
    pingHelper := s.pingHelper.stop
    deletedSenders :=
      if s.pingHelper.pingTimer then s.deletedSenders + 1 else s.deletedSenders }

/-- `PingHelper::start`, with the sender that it creates. One that it had is not deleted. -/
def startPings (s : ConnectionHealth) : ConnectionHealth :=
  { s with
    pingHelper := s.pingHelper.start
    senders := s.senders + 1 }

def stop (s : ConnectionHealth) : ConnectionHealth :=
  { s.stopPings with
    noSignalTimer := false
    healthCheckTimer := false
    dnsPingTimer := false }

def startActive (s : ConnectionHealth) (gateway : QHostAddress) : ConnectionHealth :=
  if gateway.isNull || !s.state.tunnelOn then s
  else
    { s.startPings with
      noSignalTimer := true
      healthCheckTimer := true
      dnsPingTimer := false }

/-- `startIdle` at the time `now`, with a random number, when the sender is valid or not. -/
def startIdle (s : ConnectionHealth) (now : ℤ) (sequence : BitVec 16) (isValid : Bool) :
    ConnectionHealth :=
  let s :=
    { s.stopPings with
      noSignalTimer := false
      healthCheckTimer := false
      dnsPingSequence := sequence
      dnsPingInitialized := false
      dnsPingLatency := pingTimeUnstable.toNat }
  if isValid then { s with dnsPingTimer := true, dnsPingTimestamp := now } else s

def setStability (s : ConnectionHealth) (stability : ConnectionStability) : ConnectionHealth :=
  { s with
    calls := s.calls ++ [(s.state, stability)]
    silentSwitches :=
      if s.state ≠ .onPartial ∧ stability = .unstable then s.silentSwitches + 1
      else s.silentSwitches
    stability }

def healthCheckup (s : ConnectionHealth) (now : ℤ) : ConnectionHealth :=
  if !s.noSignalTimer then s.setStability .noSignal
  else if s.pingHelper.loss now > pingLossUnstableThreshold then s.setStability .unstable
  else if s.dnsPingInitialized ∧
      s.pingHelper.maximum > (pingTimeUnstable + s.dnsPingLatency) % 2 ^ 64 then
    s.setStability .unstable
  else s.setStability .stable

def connectionStateChanged (s : ConnectionHealth) (now : ℤ) (sequence : BitVec 16)
    (isValid : Bool) : ConnectionHealth :=
  match s.state with
  | .onPartial | .on => { s with statusConnections := s.statusConnections + 1 }
  | .off => s.startIdle now sequence isValid
  | _ => s.stop

/-- The slot of `pingSentAndReceived`. -/
def pingSentAndReceived (s : ConnectionHealth) (now : ℤ) : ConnectionHealth :=
  { s with noSignalTimer := true, healthCheckTimer := true }.healthCheckup now

/-- A reply reaches `PingHelper::pingReceived`. -/
def pingReceived (s : ConnectionHealth) (now : ℤ) (sequence : BitVec 16) : ConnectionHealth :=
  let result := s.pingHelper.pingReceived now sequence
  let s := { s with pingHelper := result.1 }
  match result.2 with
  | some _ => s.pingSentAndReceived now
  | none => s

/-- `updateDnsPingLatency`, on numbers of 64 bits. -/
def updateDnsPingLatency (s : ConnectionHealth) (latency : ℕ) : ConnectionHealth :=
  { s with
    dnsPingLatency :=
      if s.dnsPingInitialized then
        (s.dnsPingLatency * (pingBaselineEwmaDivisor - 1) + latency) % 2 ^ 64 /
          pingBaselineEwmaDivisor
      else latency
    dnsPingInitialized := true }

def dnsPingReceived (s : ConnectionHealth) (now : ℤ) (sequence : BitVec 16) : ConnectionHealth :=
  if sequence ≠ s.dnsPingSequence then s
  else s.updateDnsPingLatency ((now - s.dnsPingTimestamp) % 2 ^ 64).toNat

/-! ## Runs -/

/-- What may happen. A state that is set comes with what `startIdle` gets from outside. -/
inductive Event where
  | setState (state : State) (now : ℤ) (sequence : BitVec 16) (isValid : Bool)
  | statusUpdated (gateway : QHostAddress)
  | pingTimeout (now : ℤ)
  | recvPing (sequence : BitVec 16)
  | senderDeleted
  | deliverReply (now : ℤ)
  | noSignalTimeout
  | healthCheckTimeout (now : ℤ)
  | dnsPingTimeout (now : ℤ)
  | dnsPingReceived (now : ℤ) (sequence : BitVec 16)
  | dnsPingError

def step (s : ConnectionHealth) : Event → ConnectionHealth
  | .setState state now sequence isValid =>
    if s.state = state then s
    else { s with state }.connectionStateChanged now sequence isValid
  | .statusUpdated gateway =>
    (fun s => s.startActive gateway)^[s.statusConnections] { s with statusConnections := 0 }
  | .pingTimeout now =>
    if s.pingHelper.pingTimer then { s with pingHelper := s.pingHelper.nextPing now } else s
  | .recvPing sequence =>
    if s.senders = 0 then s else { s with replies := s.replies ++ [sequence] }
  | .senderDeleted =>
    if s.deletedSenders = 0 then s
    else { s with senders := s.senders - 1, deletedSenders := s.deletedSenders - 1 }
  | .deliverReply now =>
    match s.replies with
    | [] => s
    | sequence :: replies => { s with replies }.pingReceived now sequence
  | .noSignalTimeout => { s with noSignalTimer := false }
  | .healthCheckTimeout now => if s.healthCheckTimer then s.healthCheckup now else s
  | .dnsPingTimeout now =>
    if s.dnsPingTimer then
      { s with dnsPingSequence := s.dnsPingSequence + 1, dnsPingTimestamp := now }
    else s
  | .dnsPingReceived now sequence => s.dnsPingReceived now sequence
  | .dnsPingError => { s with dnsPingInitialized := false, dnsPingTimer := false }

def run (events : List Event) : ConnectionHealth := events.foldl step {}

/-! ## The monitor while the tunnel is off -/

/-- Off tunnel, no monitoring: the two timers do not run, and `setStability` was called with the
tunnel on only. -/
structure Quiet (s : ConnectionHealth) : Prop where
  noSignalTimer : s.state.tunnelOn = false → s.noSignalTimer = false
  healthCheckTimer : s.state.tunnelOn = false → s.healthCheckTimer = false
  calls : ∀ call ∈ s.calls, call.1.tunnelOn = true

/-- The reply that is delivered has the number in its place of the ring. -/
def Matches (s : ConnectionHealth) : Prop :=
  ∃ sequence replies, s.replies = sequence :: replies ∧
    (s.pingHelper.pingData (PingHelper.index sequence)).sequence = sequence

/-- The condition on one event: no reply is taken for a ping while the tunnel is off. -/
def guard (s : ConnectionHealth) : Event → Prop
  | .deliverReply _ => s.state.tunnelOn = false → ¬s.Matches
  | _ => True

variable {s : ConnectionHealth}

theorem quiet_init : Quiet {} := ⟨fun _ => rfl, fun _ => rfl, fun _ h => absurd h List.not_mem_nil⟩

theorem Quiet.of_eq {s' : ConnectionHealth} (h : Quiet s) (hstate : s'.state = s.state)
    (hnoSignal : s'.noSignalTimer = true → s.noSignalTimer = true)
    (hhealth : s'.healthCheckTimer = s.healthCheckTimer) (hcalls : s'.calls = s.calls) :
    Quiet s' := by
  refine ⟨fun hoff => ?_, fun hoff => ?_, hcalls ▸ h.calls⟩
  · rw [hstate] at hoff
    exact Bool.eq_false_iff.mpr fun htrue =>
      Bool.false_ne_true ((h.noSignalTimer hoff).symm.trans (hnoSignal htrue))
  · rw [hstate] at hoff
    exact hhealth.trans (h.healthCheckTimer hoff)

/-- With both timers off the state does not matter. -/
theorem quiet_of_stopped (hnoSignal : s.noSignalTimer = false)
    (hhealth : s.healthCheckTimer = false) (hcalls : ∀ call ∈ s.calls, call.1.tunnelOn = true) :
    Quiet s := ⟨fun _ => hnoSignal, fun _ => hhealth, hcalls⟩

theorem healthCheckup_spec (s : ConnectionHealth) (now : ℤ) :
    (s.healthCheckup now).state = s.state ∧
      (s.healthCheckup now).noSignalTimer = s.noSignalTimer ∧
      (s.healthCheckup now).healthCheckTimer = s.healthCheckTimer ∧
      ∃ stability, (s.healthCheckup now).calls = s.calls ++ [(s.state, stability)] := by
  unfold healthCheckup
  split_ifs <;> exact ⟨rfl, rfl, rfl, _, rfl⟩

theorem Quiet.healthCheckup (h : Quiet s) (hon : s.state.tunnelOn = true) (now : ℤ) :
    Quiet (s.healthCheckup now) := by
  obtain ⟨hstate, -, -, stability, hcalls⟩ := healthCheckup_spec s now
  have hne : (s.healthCheckup now).state.tunnelOn ≠ false := by
    rw [hstate, hon]
    exact Bool.true_eq_false_eq_False
  refine ⟨fun hoff => absurd hoff hne, fun hoff => absurd hoff hne, ?_⟩
  rw [hcalls]
  intro call hcall
  rcases List.mem_append.mp hcall with hcall | hcall
  · exact h.calls call hcall
  · obtain rfl := List.mem_singleton.mp hcall
    exact hon

theorem Quiet.startActive (h : Quiet s) (gateway : QHostAddress) :
    Quiet (s.startActive gateway) := by
  unfold ConnectionHealth.startActive
  split
  case isTrue => exact h
  case isFalse hgo =>
    have hon : s.state.tunnelOn = true := by
      simp only [Bool.or_eq_true, Bool.not_eq_true', not_or, Bool.not_eq_false] at hgo
      exact hgo.2
    refine ⟨fun hoff => ?_, fun hoff => ?_, h.calls⟩
    · exact absurd (hon.symm.trans hoff) Bool.true_eq_false_eq_False
    · exact absurd (hon.symm.trans hoff) Bool.true_eq_false_eq_False

/-- The handler of a state change leaves the timers alone or stops them. -/
theorem Quiet.setState (h : Quiet s) (state : State) (now : ℤ) (sequence : BitVec 16)
    (isValid : Bool) :
    Quiet ({ s with state }.connectionStateChanged now sequence isValid) := by
  have hactive : ∀ active : State, active.tunnelOn = true →
      Quiet { s with state := active, statusConnections := s.statusConnections + 1 } := by
    intro active hon
    have hne : active.tunnelOn ≠ false := ne_false_of_eq_true hon
    exact ⟨fun hoff => absurd hoff hne, fun hoff => absurd hoff hne, h.calls⟩
  cases state with
  | onPartial => exact hactive .onPartial rfl
  | on => exact hactive .on rfl
  | off =>
    show Quiet (startIdle _ now sequence isValid)
    unfold startIdle
    split <;> exact quiet_of_stopped rfl rfl h.calls
  | _ => exact quiet_of_stopped rfl rfl h.calls

theorem Quiet.statusUpdated (h : Quiet s) (gateway : QHostAddress) (n : ℕ) :
    Quiet ((fun s => s.startActive gateway)^[n] s) := by
  induction n generalizing s with
  | zero => exact h
  | succ n ih =>
    rw [Function.iterate_succ_apply]
    exact ih (h.startActive gateway)

/-! ## Replies -/

theorem pingReceived_of_ne {sequence : BitVec 16} (now : ℤ)
    (hne : (s.pingHelper.pingData (PingHelper.index sequence)).sequence ≠ sequence) :
    s.pingReceived now sequence = s := by
  simp only [pingReceived, PingHelper.pingReceived, if_neg hne]

/-- A reply that is taken for one to a ping starts the timers and has the health looked at. -/
theorem pingReceived_of_eq {sequence : BitVec 16} (now : ℤ)
    (heq : (s.pingHelper.pingData (PingHelper.index sequence)).sequence = sequence) :
    ∃ pingHelper, s.pingReceived now sequence =
      { s with pingHelper, noSignalTimer := true, healthCheckTimer := true }.healthCheckup now := by
  simp only [pingReceived, PingHelper.pingReceived, if_pos heq]
  exact ⟨_, rfl⟩

theorem Quiet.deliverReply (h : Quiet s) (now : ℤ) (hguard : s.guard (.deliverReply now)) :
    Quiet (s.step (.deliverReply now)) := by
  rw [step]
  split
  case h_1 => exact h
  case h_2 sequence replies hreplies =>
    by_cases heq : (s.pingHelper.pingData (PingHelper.index sequence)).sequence = sequence
    · have hon : s.state.tunnelOn = true := by
        by_contra hoff
        exact hguard (Bool.eq_false_iff.mpr hoff) ⟨sequence, replies, hreplies, heq⟩
      have hne : s.state.tunnelOn ≠ false := ne_false_of_eq_true hon
      obtain ⟨pingHelper, hreceived⟩ :=
        @pingReceived_of_eq { s with replies } sequence now heq
      rw [hreceived]
      apply Quiet.healthCheckup
      · exact ⟨fun hoff => absurd hoff hne, fun hoff => absurd hoff hne, h.calls⟩
      · exact hon
    · rw [@pingReceived_of_ne { s with replies } sequence now heq]
      exact h.of_eq rfl id rfl rfl

/-- A reply that is taken for one to a ping while the tunnel is off starts the monitoring. -/
theorem not_quiet_deliverReply (now : ℤ) (hoff : s.state.tunnelOn = false) (hmatch : s.Matches) :
    ¬Quiet (s.step (.deliverReply now)) := by
  obtain ⟨sequence, replies, hreplies, heq⟩ := hmatch
  obtain ⟨pingHelper, hreceived⟩ := @pingReceived_of_eq { s with replies } sequence now heq
  have hstep : s.step (.deliverReply now) = { s with replies }.pingReceived now sequence := by
    rw [step, hreplies]
  intro h
  obtain ⟨hstate, hnoSignal, -⟩ := healthCheckup_spec
    { s with replies, pingHelper, noSignalTimer := true, healthCheckTimer := true } now
  rw [hstep, hreceived] at h
  have hfalse := h.noSignalTimer (by rw [hstate]; exact hoff)
  rw [hnoSignal] at hfalse
  cases hfalse

/-! ## Every run -/

theorem quiet_step (e : Event) (h : Quiet s) (hguard : s.guard e) : Quiet (s.step e) := by
  cases e with
  | setState state now sequence isValid =>
    rw [step]
    split
    · exact h
    · exact h.setState state now sequence isValid
  | statusUpdated gateway =>
    have hused : Quiet { s with statusConnections := 0 } := h.of_eq rfl id rfl rfl
    exact hused.statusUpdated gateway s.statusConnections
  | deliverReply now => exact h.deliverReply now hguard
  | noSignalTimeout => exact h.of_eq rfl (fun htrue => by cases htrue) rfl rfl
  | healthCheckTimeout now =>
    rw [step]
    split
    case isTrue htimer =>
      refine h.healthCheckup (by_contra fun hoff => ?_) now
      rw [h.healthCheckTimer (Bool.eq_false_iff.mpr hoff)] at htimer
      cases htimer
    case isFalse => exact h
  | dnsPingReceived now sequence =>
    show Quiet (s.dnsPingReceived now sequence)
    unfold ConnectionHealth.dnsPingReceived
    split
    · exact h
    · exact h.of_eq rfl id rfl rfl
  | dnsPingError => exact h.of_eq rfl id rfl rfl
  | pingTimeout now =>
    rw [step]
    split
    · exact h.of_eq rfl id rfl rfl
    · exact h
  | recvPing sequence =>
    rw [step]
    split
    · exact h
    · exact h.of_eq rfl id rfl rfl
  | senderDeleted =>
    rw [step]
    split
    · exact h
    · exact h.of_eq rfl id rfl rfl
  | dnsPingTimeout now =>
    rw [step]
    split
    · exact h.of_eq rfl id rfl rfl
    · exact h

theorem not_quiet_step (e : Event) (hguard : ¬s.guard e) : ¬Quiet (s.step e) := by
  cases e with
  | deliverReply now =>
    rw [guard, Classical.not_imp, not_not] at hguard
    exact not_quiet_deliverReply now hguard.1 hguard.2
  | _ => exact absurd trivial hguard

/-- Off tunnel there is no monitoring in any state of a run, when none of its replies comes out of
the event queue too late and is still taken for one to a ping. -/
theorem quiet_iff (events : List Event) :
    (∀ n, Quiet ((events.take n).foldl step {})) ↔ Guarded step guard {} events :=
  @forall_take_iff_guarded _ _ step guard Quiet Quiet (fun _ e => quiet_step e) (fun _ h => h)
    (fun _ e _ => not_quiet_step e) _ quiet_init events

/-- A reply waits in the event queue while the tunnel is turned off. -/
def lateReply : List Event :=
  [.setState .on 0 0#16 true, .statusUpdated (.ipv4 0x0A400001#32), .pingTimeout 1000,
    .recvPing 0#16, .setState .off 1020 7#16 true, .deliverReply 1030]

/-- The timers run again, and the stability is set while the controller is off. -/
theorem lateReply_not_quiet :
    (run lateReply).state = .off ∧ (run lateReply).noSignalTimer = true ∧
      (run lateReply).healthCheckTimer = true ∧ (run lateReply).calls = [(.off, .stable)] ∧
      ¬∀ n, Quiet ((lateReply.take n).foldl step {}) := by
  have hoff : (run lateReply).state = .off := by decide +kernel
  have htimer : (run lateReply).noSignalTimer = true := by decide +kernel
  refine ⟨hoff, htimer, by decide +kernel, by decide +kernel, fun h => ?_⟩
  have hquiet : Quiet (run lateReply) := h 6
  have hfalse := hquiet.noSignalTimer (by rw [hoff]; rfl)
  rw [htimer] at hfalse
  cases hfalse

end ConnectionHealth

end WgDesktop
