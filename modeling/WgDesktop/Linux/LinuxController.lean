import WgDesktop.Daemon.Interface
import WgDesktop.Lib.Runs

/-!
# `LinuxController`

The client of the daemon, `src/platforms/linux/linuxcontroller.cpp`. It tells the controller
`disconnected` for a call that failed, for the daemon's own signal and for a daemon that went away,
each without a look at the others; and `Daemon::deactivate` sends its signal also when it fails.

`reportsOnce_iff` names exactly the runs in which every session is reported ended at most once and
no report is one of an earlier session.
-/

namespace WgDesktop.LinuxController

open Runs

/-! ## The controller -/

/-- The reply of the daemon to a call: an error, or what the method returned. -/
inductive Reply where
  | error
  | value (status : Bool)
  deriving DecidableEq, Repr

/-- What a handler of the controller does. -/
inductive Effect where
  | reportError
  | connected (pubkey : List Char)
  | disconnected
  deriving DecidableEq, Repr

def serviceName : List Char := "org.mozilla.vpn.dbus".toList

def dbusNameOwnerChanged (name prevOwner _newOwner : List Char) : List Effect :=
  if name ≠ serviceName then []
  else if prevOwner.isEmpty then []
  else [.reportError, .disconnected]

def operationCompleted : Reply → List Effect
  | .error => [.reportError, .disconnected]
  -- the daemon's signal is to come
  | .value true => []
  | .value false => [.reportError, .disconnected]

/-- The messages of the bus that the controller is connected to. -/
inductive Message where
  | connected (pubkey : List Char)
  | disconnected
  | serviceOwnerChanged (name prevOwner newOwner : List Char)
  | finished (reply : Reply)
  deriving DecidableEq, Repr

def handle : Message → List Effect
  | .connected pubkey => [.connected pubkey]
  | .disconnected => [.disconnected]
  | .serviceOwnerChanged name prevOwner newOwner => dbusNameOwnerChanged name prevOwner newOwner
  | .finished reply => operationCompleted reply

/-- How often the handler of a message emits `disconnected`. -/
def reports (message : Message) : ℕ := (handle message).count .disconnected

/-! ## The bus

Sessions are counted by the calls of `activate`; session 0 is the time before the first one. Of a
message on its way we note the session that caused it: that of the call it comes from, or that in
which the daemon went away. -/

/-- A `disconnected` that was emitted: in which session, and caused by which. -/
structure End where
  during : ℕ
  cause : ℕ
  deriving DecidableEq, Repr

/-- The calls that are not yet answered, by the session they belong to, the messages on their way
with the session that caused them, and the ends that were reported. All messages are noted. -/
structure State where
  session : ℕ := 0
  calls : List ℕ := []
  messages : List (ℕ × Message) := []
  ends : List End := []
  sent : List (ℕ × Message) := []

/-- What the daemon does with a call: its reply, and whether it emits `disconnected` before. -/
structure Outcome where
  reply : Reply
  signal : Bool
  deriving DecidableEq, Repr

def Outcome.messages (outcome : Outcome) : List Message :=
  (if outcome.signal then [.disconnected] else []) ++ [.finished outcome.reply]

/-- The calls of the controller, what the daemon and the bus send, and the deliveries. Calls and
messages are named by their place. -/
inductive Event where
  | activate
  | deactivate
  | answer (i : ℕ) (outcome : Outcome)
  | daemonConnected (pubkey : List Char)
  | nameOwnerChanged (name prevOwner newOwner : List Char)
  | deliver (i : ℕ)

namespace State

def activate (s : State) : State :=
  { s with session := s.session + 1, calls := s.calls ++ [s.session + 1] }

def deactivate (s : State) : State := { s with calls := s.calls ++ [s.session] }

/-- Messages caused by a session are put on their way. -/
def send (cause : ℕ) (messages : List Message) (s : State) : State :=
  { s with
    messages := s.messages ++ messages.map (cause, ·)
    sent := s.sent ++ messages.map (cause, ·) }

def answer (i : ℕ) (outcome : Outcome) (s : State) : State :=
  match s.calls[i]? with
  | none => s
  | some cause => { s with calls := s.calls.eraseIdx i }.send cause outcome.messages

/-- The ends that a message reports when it is handled in a session. -/
def endsOf (session : ℕ) (sent : ℕ × Message) : List End :=
  List.replicate (reports sent.2) ⟨session, sent.1⟩

def deliver (i : ℕ) (s : State) : State :=
  match s.messages[i]? with
  | none => s
  | some sent =>
    { s with messages := s.messages.eraseIdx i, ends := s.ends ++ endsOf s.session sent }

def step (s : State) : Event → State
  | .activate => s.activate
  | .deactivate => s.deactivate
  | .answer i outcome => s.answer i outcome
  | .daemonConnected pubkey => s.send s.session [.connected pubkey]
  | .nameOwnerChanged name prevOwner newOwner =>
    s.send s.session [.serviceOwnerChanged name prevOwner newOwner]
  | .deliver i => s.deliver i

end State

/-! ## The property -/

/-- After each `activate` at most one end is reported before the next one, and it is one that this
session caused. -/
structure EndsOnce (ends : List End) : Prop where
  once : ∀ session, 1 ≤ session → ends.countP (·.during = session) ≤ 1
  own : ∀ e ∈ ends, e.cause = e.during

theorem EndsOnce.of_perm {ends ends' : List End} (h : EndsOnce ends) (hp : ends.Perm ends') :
    EndsOnce ends' := by
  refine ⟨fun session hsession => ?_, fun e he => h.own e (hp.mem_iff.mpr he)⟩
  rw [← hp.countP_eq]
  exact h.once session hsession

theorem EndsOnce.of_append {ends more : List End} (h : EndsOnce (ends ++ more)) :
    EndsOnce ends := by
  refine ⟨fun session hsession => ?_, fun e he => h.own e (List.mem_append_left _ he)⟩
  have hle := h.once session hsession
  rw [List.countP_append] at hle
  omega

/-! ## The condition -/

/-- The messages that tell of an end: a reply that is an error or `false`, the daemon's signal, and
a daemon that loses its name. -/
def Message.endsSession : Message → Bool
  | .connected _ => false
  | .disconnected => true
  | .serviceOwnerChanged name prevOwner _ => name = serviceName && !prevOwner.isEmpty
  | .finished .error => true
  | .finished (.value status) => !status

theorem reports_eq (message : Message) : reports message = if message.endsSession then 1 else 0 := by
  cases message with
  | connected pubkey => rfl
  | disconnected => rfl
  | serviceOwnerChanged name prevOwner newOwner =>
    unfold reports handle dbusNameOwnerChanged Message.endsSession
    by_cases hname : name = serviceName
    · cases prevOwner with
      | nil => simp [hname]
      | cons c prevOwner => simp [hname]
    · simp [hname]
  | finished reply =>
    rcases reply with _ | status
    · rfl
    · cases status <;> rfl

theorem sum_reports (messages : List Message) :
    (messages.map reports).sum = messages.countP Message.endsSession := by
  induction messages with
  | nil => rfl
  | cons message messages ih =>
    rw [List.map_cons, List.sum_cons, ih, reports_eq, List.countP_cons, Nat.add_comm]

namespace State

/-- No message that tells of an end was sent for the current session. -/
def Running (s : State) : Prop := ∀ sent ∈ s.sent, sent.1 = s.session → ¬ sent.2.endsSession

/-- Of the messages caused by a session none tells of an end; or one does, it is the current session
that caused it, and none was sent for that before. -/
def Admits (s : State) (cause : ℕ) (messages : List Message) : Prop :=
  messages.countP Message.endsSession = 0 ∨
    cause = s.session ∧
      (s.session = 0 ∨ messages.countP Message.endsSession = 1 ∧ s.Running)

/-- No `activate` overtakes a message that tells of an end, and each session is sent one of these at
most. -/
def guard (s : State) : Event → Prop
  | .activate => ∀ sent ∈ s.messages, ¬ sent.2.endsSession
  | .answer i outcome => ∀ cause, s.calls[i]? = some cause → s.Admits cause outcome.messages
  | .nameOwnerChanged name prevOwner newOwner =>
    s.Admits s.session [.serviceOwnerChanged name prevOwner newOwner]
  | .deactivate | .daemonConnected _ | .deliver _ => True

/-! ## What a step does to the reports -/

/-- The ends reported so far and those that the messages on their way would report now. -/
def settled (s : State) : List End := s.ends ++ s.messages.flatMap (endsOf s.session)

theorem settled_send (s : State) (cause : ℕ) (messages : List Message) :
    (s.send cause messages).settled =
      s.settled ++ List.replicate (messages.countP Message.endsSession) ⟨s.session, cause⟩ := by
  have hsent : (messages.map (cause, ·)).flatMap (endsOf s.session) =
      List.replicate (messages.map reports).sum ⟨s.session, cause⟩ := by
    induction messages with
    | nil => rfl
    | cons message messages ih =>
      rw [List.map_cons, List.flatMap_cons, ih, endsOf, List.map_cons, List.sum_cons,
        List.replicate_add]
  rw [settled, settled, send]
  dsimp only
  rw [List.flatMap_append, hsent, sum_reports, List.append_assoc]

theorem settled_deliver (s : State) (i : ℕ) : (s.deliver i).settled.Perm s.settled := by
  unfold deliver
  cases hsent : s.messages[i]? with
  | none => exact List.Perm.refl _
  | some sent =>
    obtain ⟨hi, rfl⟩ := List.getElem?_eq_some_iff.mp hsent
    have hmessages := (List.getElem_cons_eraseIdx_perm hi).flatMap_right (endsOf s.session)
    rw [settled, settled]
    dsimp only
    rw [List.append_assoc, ← List.flatMap_cons]
    exact hmessages.append_left _

/-- A new session when no message that tells of an end is on its way. -/
theorem settled_activate {s : State} (h : ∀ sent ∈ s.messages, ¬ sent.2.endsSession) :
    s.activate.settled = s.settled := by
  have hnone : ∀ session, s.messages.flatMap (endsOf session) = [] := fun session => by
    refine List.flatMap_eq_nil_iff.mpr fun sent hsent => ?_
    rw [endsOf, reports_eq, if_neg (h sent hsent), List.replicate_zero]
  rw [settled, settled, activate, hnone, hnone]

/-- Calls and messages belong to sessions that have begun. -/
structure Started (s : State) : Prop where
  calls : ∀ cause ∈ s.calls, cause ≤ s.session
  messages : ∀ sent ∈ s.messages, sent.1 ≤ s.session

theorem Started.send {s : State} (hs : s.Started) {cause : ℕ} (hcause : cause ≤ s.session)
    (messages : List Message) : (s.send cause messages).Started := by
  refine ⟨hs.calls, fun sent hsent => ?_⟩
  rcases List.mem_append.mp hsent with hsent | hsent
  · exact hs.messages sent hsent
  · obtain ⟨message, -, rfl⟩ := List.mem_map.mp hsent
    exact hcause

theorem Started.step {s : State} (hs : s.Started) (e : Event) : (s.step e).Started := by
  cases e with
  | activate =>
    refine ⟨fun cause hcause => ?_, fun sent hsent => Nat.le_succ_of_le (hs.messages sent hsent)⟩
    rcases List.mem_append.mp hcause with hcause | hcause
    · exact Nat.le_succ_of_le (hs.calls cause hcause)
    · exact le_of_eq (List.mem_singleton.mp hcause)
  | deactivate =>
    refine ⟨fun cause hcause => ?_, hs.messages⟩
    rcases List.mem_append.mp hcause with hcause | hcause
    · exact hs.calls cause hcause
    · exact le_of_eq (List.mem_singleton.mp hcause)
  | answer i outcome =>
    show (s.answer i outcome).Started
    unfold answer
    cases hcall : s.calls[i]? with
    | none => exact hs
    | some cause =>
      have hrest : { s with calls := s.calls.eraseIdx i }.Started :=
        ⟨fun cause hcause => hs.calls cause (List.mem_of_mem_eraseIdx hcause), hs.messages⟩
      exact hrest.send (hs.calls cause (List.mem_of_getElem? hcall)) _
  | daemonConnected pubkey => exact hs.send le_rfl _
  | nameOwnerChanged name prevOwner newOwner => exact hs.send le_rfl _
  | deliver i =>
    show (s.deliver i).Started
    unfold deliver
    cases s.messages[i]? with
    | none => exact hs
    | some sent =>
      exact ⟨hs.calls, fun sent hsent => hs.messages sent (List.mem_of_mem_eraseIdx hsent)⟩

/-- What is settled when every message that tells of an end is reported in its own session. -/
def told (s : State) : List End :=
  (s.sent.filter fun sent => sent.2.endsSession).map fun sent => ⟨sent.1, sent.1⟩

theorem told_send (s : State) (cause : ℕ) (messages : List Message) :
    (s.send cause messages).told =
      s.told ++ List.replicate (messages.countP Message.endsSession) ⟨cause, cause⟩ := by
  have hnew : ((messages.map (cause, ·)).filter fun sent => sent.2.endsSession).map
      (fun sent => (⟨sent.1, sent.1⟩ : End)) =
      List.replicate (messages.countP Message.endsSession) ⟨cause, cause⟩ := by
    induction messages with
    | nil => rfl
    | cons message messages ih =>
      rw [List.map_cons, List.filter_cons, List.countP_cons]
      cases message.endsSession with
      | false => exact ih
      | true =>
        rw [if_pos rfl, List.map_cons, ih]
        exact List.replicate_succ.symm
  rw [told, told, send]
  dsimp only
  rw [List.filter_append, List.map_append, hnew]

/-- What holds in a run that meets the condition. -/
structure Inv (s : State) : Prop where
  started : s.Started
  endsOnce : EndsOnce s.settled
  settled : s.settled.Perm s.told

theorem Inv.countP_settled_eq_zero {s : State} (h : s.Inv) :
    s.settled.countP (·.during = s.session) = 0 ↔ s.Running := by
  rw [h.settled.countP_eq, List.countP_eq_zero, Running]
  simp only [told, List.mem_map, List.mem_filter, decide_eq_true_eq]
  constructor
  · exact fun hall sent hsent hsession hends => hall ⟨sent.1, sent.1⟩ ⟨sent, ⟨hsent, hends⟩, rfl⟩
      hsession
  · rintro hall _ ⟨sent, ⟨hsent, hends⟩, rfl⟩ hsession
    exact hall sent hsent hsession hends

/-- **New messages** keep the property exactly where they are admitted. -/
theorem Inv.endsOnce_send_iff {s : State} (h : s.Inv) (cause : ℕ) (messages : List Message) :
    EndsOnce (s.send cause messages).settled ↔ s.Admits cause messages := by
  rw [settled_send, Admits]
  generalize messages.countP Message.endsSession = n
  by_cases hn : n = 0
  · subst hn
    exact iff_of_true (by simpa using h.endsOnce) (Or.inl rfl)
  have hcount : (s.settled ++ List.replicate n (⟨s.session, cause⟩ : End)).countP
      (·.during = s.session) = s.settled.countP (·.during = s.session) + n := by
    simp [List.countP_append, List.countP_replicate]
  constructor
  · intro hmore
    have hown : cause = s.session :=
      hmore.own ⟨s.session, cause⟩ (List.mem_append_right _ (List.mem_replicate.mpr ⟨hn, rfl⟩))
    refine Or.inr ⟨hown, ?_⟩
    by_cases hzero : s.session = 0
    · exact Or.inl hzero
    · have hle := hmore.once s.session (Nat.one_le_iff_ne_zero.mpr hzero)
      rw [hcount] at hle
      have hbefore : s.settled.countP (·.during = s.session) = 0 := by omega
      exact Or.inr ⟨by omega, h.countP_settled_eq_zero.mp hbefore⟩
  · rintro (hn' | ⟨rfl, hadmits⟩)
    · exact absurd hn' hn
    · refine ⟨fun session hsession => ?_, fun e he => ?_⟩
      · by_cases hcurrent : session = s.session
        · subst hcurrent
          rcases hadmits with hzero | ⟨rfl, hrunning⟩
          · omega
          · rw [hcount, h.countP_settled_eq_zero.mpr hrunning]
        · have hother : (List.replicate n (⟨s.session, s.session⟩ : End)).countP
              (·.during = session) = 0 := by
            simp [List.countP_replicate, Ne.symm hcurrent]
          rw [List.countP_append, hother]
          exact h.endsOnce.once session hsession
      · rcases List.mem_append.mp he with he | he
        · exact h.endsOnce.own e he
        · rw [List.eq_of_mem_replicate he]

theorem Inv.send {s : State} (h : s.Inv) {cause : ℕ} (hcause : cause ≤ s.session)
    {messages : List Message} (hadmits : s.Admits cause messages) :
    (s.send cause messages).Inv := by
  refine ⟨h.started.send hcause messages, (h.endsOnce_send_iff cause messages).mpr hadmits, ?_⟩
  rw [settled_send, told_send]
  rcases hadmits with hnone | ⟨rfl, -⟩
  · rw [hnone]
    simpa using h.settled
  · exact h.settled.append_right _

/-- A new session keeps the property exactly where no message that tells of an end is on its way. -/
theorem Inv.endsOnce_activate_iff {s : State} (h : s.Inv) :
    EndsOnce s.activate.settled ↔ ∀ sent ∈ s.messages, ¬ sent.2.endsSession := by
  constructor
  · intro hmore sent hsent hends
    have hend : (⟨s.session + 1, sent.1⟩ : End) ∈ s.activate.settled := by
      refine List.mem_append_right _ (List.mem_flatMap.mpr ⟨sent, hsent, ?_⟩)
      exact List.mem_replicate.mpr ⟨by rw [reports_eq, if_pos hends]; decide, rfl⟩
    have hown : sent.1 = s.session + 1 := hmore.own _ hend
    have hle := h.started.messages sent hsent
    omega
  · intro hnone
    rw [settled_activate hnone]
    exact h.endsOnce

/-- **One step** keeps the property of the reports exactly where it meets the condition. -/
theorem Inv.endsOnce_step_iff {s : State} (h : s.Inv) (e : Event) :
    EndsOnce (s.step e).settled ↔ s.guard e := by
  cases e with
  | activate => exact h.endsOnce_activate_iff
  | deactivate => exact iff_of_true h.endsOnce trivial
  | answer i outcome =>
    show EndsOnce (s.answer i outcome).settled ↔ ∀ cause, s.calls[i]? = some cause → _
    unfold answer
    cases hcall : s.calls[i]? with
    | none => exact iff_of_true h.endsOnce fun cause hcause => by cases hcause
    | some cause =>
      have hsend : EndsOnce ({ s with calls := s.calls.eraseIdx i }.send cause
          outcome.messages).settled ↔ s.Admits cause outcome.messages :=
        h.endsOnce_send_iff cause outcome.messages
      rw [hsend]
      simp
  | daemonConnected pubkey =>
    exact iff_of_true ((h.endsOnce_send_iff s.session _).mpr (Or.inl rfl)) trivial
  | nameOwnerChanged name prevOwner newOwner => exact h.endsOnce_send_iff s.session _
  | deliver i => exact iff_of_true (h.endsOnce.of_perm (settled_deliver s i).symm) trivial

theorem Inv.step {s : State} (h : s.Inv) (e : Event) (hguard : s.guard e) : (s.step e).Inv := by
  cases e with
  | activate =>
    refine ⟨h.started.step .activate, h.endsOnce_activate_iff.mpr hguard, ?_⟩
    show s.activate.settled.Perm s.activate.told
    rw [settled_activate hguard]
    exact h.settled
  | deactivate => exact ⟨h.started.step .deactivate, h.endsOnce, h.settled⟩
  | answer i outcome =>
    show (s.answer i outcome).Inv
    unfold answer
    cases hcall : s.calls[i]? with
    | none => exact h
    | some cause =>
      have hrest : { s with calls := s.calls.eraseIdx i }.Inv :=
        ⟨⟨fun cause hcause => h.started.calls cause (List.mem_of_mem_eraseIdx hcause),
          h.started.messages⟩, h.endsOnce, h.settled⟩
      exact hrest.send (h.started.calls cause (List.mem_of_getElem? hcall)) (hguard cause hcall)
  | daemonConnected pubkey => exact h.send le_rfl (Or.inl rfl)
  | nameOwnerChanged name prevOwner newOwner => exact h.send le_rfl hguard
  | deliver i =>
    have htold : (s.deliver i).told = s.told := by
      unfold deliver
      cases s.messages[i]? <;> rfl
    refine ⟨h.started.step (.deliver i), h.endsOnce.of_perm (settled_deliver s i).symm, ?_⟩
    show (s.deliver i).settled.Perm (s.deliver i).told
    rw [htold]
    exact (settled_deliver s i).trans h.settled

/-! ## Deliveries -/

/-- Whatever is delivered from now on, in whatever order, the property holds. -/
def Safe (s : State) : Prop :=
  ∀ order : List ℕ, EndsOnce ((order.map Event.deliver).foldl step s).ends

theorem settled_deliveries (order : List ℕ) (s : State) :
    ((order.map Event.deliver).foldl step s).settled.Perm s.settled := by
  induction order generalizing s with
  | nil => exact List.Perm.refl _
  | cons i order ih =>
    rw [List.map_cons, List.foldl_cons]
    exact (ih _).trans (settled_deliver s i)

theorem messages_deliveries (s : State) :
    (((List.replicate s.messages.length 0).map Event.deliver).foldl step s).messages = [] := by
  generalize hn : s.messages.length = n
  induction n generalizing s with
  | zero => exact List.eq_nil_of_length_eq_zero hn
  | succ n ih =>
    rw [List.replicate_succ, List.map_cons, List.foldl_cons]
    refine ih _ ?_
    cases hmessages : s.messages with
    | nil => simp [hmessages] at hn
    | cons sent messages =>
      rw [hmessages, List.length_cons] at hn
      show (s.deliver 0).messages.length = n
      unfold deliver
      rw [hmessages]
      show messages.length = n
      omega

/-- What holds after every order of delivery is a property of the reports. -/
theorem safe_iff {s : State} : s.Safe ↔ EndsOnce s.settled := by
  constructor
  · intro h
    have hall := settled_deliveries (List.replicate s.messages.length 0) s
    rw [settled, messages_deliveries, List.flatMap_nil, List.append_nil] at hall
    exact (h (List.replicate s.messages.length 0)).of_perm hall
  · intro h order
    exact (h.of_perm (settled_deliveries order s).symm).of_append

end State

/-! ## The runs -/

/-- **A session's end is reported once**, and no report comes from an earlier session, in all states
of a run and whatever is then delivered, exactly in the runs all of whose steps meet the
condition. -/
theorem reportsOnce_iff (events : List Event) :
    (∀ (n : ℕ) (order : List ℕ),
      EndsOnce ((events.take n ++ order.map Event.deliver).foldl State.step {}).ends) ↔
      Guarded State.step State.guard {} events := by
  have hstart : State.Inv {} :=
    ⟨⟨by simp, by simp⟩, ⟨by simp [State.settled], by simp [State.settled]⟩, List.Perm.refl _⟩
  have hruns := @forall_take_iff_guarded _ _ State.step State.guard State.Inv State.Safe
    (fun s e h hguard => h.step e hguard) (fun s h => State.safe_iff.mpr h.endsOnce)
    (fun s e h hguard hsafe => hguard ((h.endsOnce_step_iff e).mp (State.safe_iff.mp hsafe)))
    _ hstart events
  rw [← hruns]
  refine forall_congr' fun n => forall_congr' fun order => ?_
  rw [List.foldl_append]

/-! ## A deactivation that fails -/

section Deactivation

open Daemon (DaemonM Backend Total callIgnored cleanUp connectionList)

variable {B : Backend}

/-- The method emits no signal. -/
def Quiet (m : DaemonM Unit) : Prop := ∀ s, (exec m s).2.signals = s.signals

theorem quiet_of_preserves {m : DaemonM Unit}
    (h : ∀ l, Preserves (fun s => s.signals = l) m) : Quiet m := fun s => h _ s rfl

theorem exists_exec_bind {m : DaemonM Unit} (htotal : Total m) (hquiet : Quiet m)
    (f : Unit → DaemonM Unit) (s : Daemon.State) :
    ∃ s', s'.signals = s.signals ∧ exec (m >>= f) s = exec (f ()) s' := by
  have hresult := htotal s
  have hsignals := hquiet s
  rw [exec_bind]
  generalize exec m s = r at hresult hsignals
  obtain ⟨result, s'⟩ := r
  subst hresult
  exact ⟨s', hsignals, rfl⟩

/-- **The daemon's signal** is emitted whatever `Daemon::deactivate` returns. -/
theorem signals_deactivate (s : Daemon.State) :
    (exec (Daemon.deactivate B true) s).2.signals = s.signals ++ [.disconnected] := by
  unfold Daemon.deactivate
  have hrestore : Quiet (callIgnored B fun s => { s with resolvers := [] }) :=
    quiet_of_preserves fun l =>
      Daemon.preserves_callIgnored (Daemon.observed_signals l) (fun _ => rfl) fun _ => rfl
  have hcleanUp (states : List Daemon.ConnectionState) : Quiet (states.forM (cleanUp B)) :=
    quiet_of_preserves fun l =>
      preserves_forM (Daemon.preserves_cleanUp (Daemon.observed_signals l)) states
  obtain ⟨s₁, hsignals₁, hexec₁⟩ := exists_exec_bind (Daemon.total_callIgnored _) hrestore _ s
  rw [hexec₁, exec_bind, exec_get]
  dsimp only
  obtain ⟨s₂, hsignals₂, hexec₂⟩ := exists_exec_bind
    (Daemon.total_forM Daemon.total_cleanUp (connectionList s₁)) (hcleanUp _) _ s₁
  rw [hexec₂, exec_bind, exec_modify]
  dsimp only
  rw [exec_bind, exec_tryCatch, Daemon.deleteInterface, Daemon.exec_call, ← hsignals₁, ← hsignals₂]
  by_cases hok : B.succeeds s₂.calls = true
  · rw [if_pos hok]
    rfl
  · rw [if_neg hok]
    rfl

/-- What a call of the daemon's `deactivate` answers. -/
def deactivation (B : Backend) (s : Daemon.State) : Outcome :=
  let r := exec (Daemon.deactivate B true) s
  { reply := .value r.1.isOk
    signal := decide (Daemon.Signal.disconnected ∈ r.2.signals.drop s.signals.length) }

/-- Failing, it sends two reports. -/
theorem deactivation_of_fails {s : Daemon.State}
    (h : (exec (Daemon.deactivate B true) s).1.isOk = false) :
    deactivation B s = ⟨.value false, true⟩ := by
  unfold deactivation
  dsimp only
  rw [h, signals_deactivate]
  simp

/-- A session that is activated and then deactivated by a call with this outcome. -/
def oneSession (outcome : Outcome) : List Event :=
  [.activate, .answer 0 ⟨.value true, false⟩, .deliver 0, .deactivate, .answer 0 outcome,
    .deliver 0, .deliver 0]

/-- Every failing `Daemon::deactivate` is reported twice. -/
theorem countP_oneSession {s : Daemon.State}
    (h : (exec (Daemon.deactivate B true) s).1.isOk = false) :
    ((oneSession (deactivation B s)).foldl State.step {}).ends.countP (·.during = 1) = 2 := by
  rw [deactivation_of_fails h]
  decide

end Deactivation

/-- A backend that cannot delete the interface. -/
def stuckBackend : Daemon.Backend where
  addressText := .ofTable [] []
  hasIpUtils := true
  succeeds n := n ≠ 1

/-- The daemon restores the resolvers, fails to delete the interface and sends both its signal and
`false`. -/
theorem stuck_deactivate_reported_twice :
    ¬ ∀ events : List Event, EndsOnce (events.foldl State.step {}).ends := by
  intro h
  have hfails : (exec (Daemon.deactivate stuckBackend true) {}).1.isOk = false := by decide
  have honce := (h (oneSession (deactivation stuckBackend {}))).once 1 le_rfl
  rw [countP_oneSession hfails] at honce
  omega

end WgDesktop.LinuxController
