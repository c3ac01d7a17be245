import Mathlib.Data.Int.Notation
import Mathlib.Data.Rat.Defs
import Mathlib.Algebra.Group.Int.Defs
import Mathlib.Algebra.Group.Nat.Defs
import WgDesktop.Lib.Runs
import WgDesktop.Lib.Window

/-!
# `PingHelper`

The pings through the tunnel, from `src/pinghelper.cpp`: each has a number of 16 bits, and a ring
keeps the time and the latency of the last of them. The sender and its addresses are left out, and
of the statistics those that nothing decides on. `Consistent` says what the ring holds, whatever
replies come; `justified_iff` says when a latency is that of an unanswered ping.
-/

namespace WgDesktop

open Runs Window

def pingStatsWindow : ℕ := 32

/-- `PING_TIMEOUT`, in milliseconds. -/
def pingTimeout : ℤ := 1000

structure PingSendData where
  timestamp : ℤ := -1
  latency : ℤ := -1
  sequence : BitVec 16 := 0#16
  deriving DecidableEq, Repr

/-- The ring, the number of the next ping, and whether the timer for it runs. -/
structure PingHelper where
  sequence : BitVec 16 := 0#16
  pingData : Fin pingStatsWindow → PingSendData := fun _ => {}
  pingTimer : Bool := false

namespace PingHelper

def index (sequence : BitVec 16) : Fin pingStatsWindow :=
  ⟨sequence.toNat % pingStatsWindow, Nat.mod_lt _ (by decide)⟩

def start (_ : PingHelper) : PingHelper := { pingTimer := true }

def stop (s : PingHelper) : PingHelper := { s with pingTimer := false }

/-- `nextPing` at the time `now`. -/
def nextPing (s : PingHelper) (now : ℤ) : PingHelper :=
  { s with
    pingData := Function.update s.pingData (index s.sequence)
      { timestamp := now, latency := -1, sequence := s.sequence }
    sequence := s.sequence + 1 }

/-- `pingReceived` at the time `now`, and the latency with which it emits `pingSentAndReceived`. -/
def pingReceived (s : PingHelper) (now : ℤ) (sequence : BitVec 16) : PingHelper × Option ℤ :=
  let data := s.pingData (index sequence)
  if data.sequence = sequence then
    let latency := now - data.timestamp
    ({ s with pingData := Function.update s.pingData (index sequence) { data with latency } },
      some latency)
  else (s, none)

/-- `maximum`: latencies from `UINT_MAX` on do not count. -/
def maximum (s : PingHelper) : ℤ :=
  (List.ofFn s.pingData).foldl (fun maxRtt data =>
    if data.latency ≥ 0 ∧ data.latency > maxRtt ∧ data.latency < 2 ^ 32 - 1 then data.latency
    else maxRtt) 0

/-- `loss` at the time `now`: pings that may still be in flight do not count. -/
def loss (s : PingHelper) (now : ℤ) : ℚ :=
  let sendBefore := now - pingTimeout
  let received := (List.ofFn s.pingData).countP fun data => data.latency ≥ 0
  let lost := (List.ofFn s.pingData).countP fun data =>
    data.latency < 0 ∧ data.timestamp > 0 ∧ data.timestamp < sendBefore
  if received + lost = 0 then 0 else lost / pingStatsWindow

/-! ## Runs -/

/-- A ping that was sent, and the latency that was last recorded for it. -/
structure SentPing where
  time : ℤ
  latency : Option ℤ := none
  deriving DecidableEq, Repr

/-- A latency that was recorded, and the latest ping with the number of the reply, as it was. -/
structure Recorded where
  ping : Option SentPing
  now : ℤ
  latency : ℤ
  deriving DecidableEq, Repr

/-- `PingHelper` with the pings sent since the latest start, latest first, and the latencies that
it has recorded. -/
structure Session where
  helper : PingHelper := {}
  pings : List SentPing := []
  recorded : List Recorded := []

inductive Event where
  | start
  | stop
  | timeout (now : ℤ)
  | reply (now : ℤ) (sequence : BitVec 16)

/-- The latest ping with a number, and how many were sent before it. -/
def pingOf (pings : List SentPing) (sequence : BitVec 16) : Option (ℕ × SentPing) :=
  latest (2 ^ 16) sequence.toNat pings

namespace Session

def received (s : Session) (now : ℤ) (sequence : BitVec 16) : Session :=
  let result := s.helper.pingReceived now sequence
  match result.2 with
  | none => { s with helper := result.1 }
  | some latency =>
    { helper := result.1
      pings := modifyLatest (2 ^ 16) sequence.toNat (fun p => { p with latency }) s.pings
      recorded := s.recorded ++ [⟨(pingOf s.pings sequence).map Prod.snd, now, latency⟩] }

def step (s : Session) : Event → Session
  | .start => { s with helper := s.helper.start, pings := [] }
  | .stop => { s with helper := s.helper.stop }
  | .timeout now =>
    if s.helper.pingTimer then
      { s with helper := s.helper.nextPing now, pings := { time := now } :: s.pings }
    else s
  | .reply now sequence => s.received now sequence

def run (events : List Event) : Session := events.foldl step {}

end Session

/-- The latency is that of a ping sent since the latest start and not answered before. -/
def Recorded.Justified (r : Recorded) : Prop :=
  ∃ p, r.ping = some p ∧ p.latency = none ∧ r.latency = r.now - p.time

/-- There is a ping that the number may mean, and of the last `pingStatsWindow` pings the one that
it means is not answered. -/
def Answerable (pings : List SentPing) (sequence : BitVec 16) : Prop :=
  (pings = [] → sequence ≠ 0#16) ∧
    ∀ n p, pingOf pings sequence = some (n, p) → pings.length ≤ n + pingStatsWindow →
      p.latency = none

/-! ## The ring -/

/-- What a place of the ring holds when a ping is the latest one there. A place without one has no
time; a reply may have left a latency in it. -/
def Holds : Option (ℕ × SentPing) → PingSendData → Prop
  | none, data => data.timestamp = -1 ∧ data.sequence = 0#16
  | some (n, p), data =>
    data = { timestamp := p.time, latency := p.latency.getD (-1), sequence := BitVec.ofNat 16 n }

/-- Each place has the latest ping whose number belongs there. -/
structure Consistent (s : PingHelper) (pings : List SentPing) : Prop where
  sequence : s.sequence = BitVec.ofNat 16 pings.length
  pingData : ∀ i : Fin pingStatsWindow, Holds (latest pingStatsWindow i pings) (s.pingData i)

section Ring

variable {s : PingHelper} {pings : List SentPing}

theorem consistent_start (s : PingHelper) : Consistent s.start [] := ⟨rfl, fun _ => ⟨rfl, rfl⟩⟩

theorem Consistent.nextPing (h : Consistent s pings) (now : ℤ) :
    Consistent (s.nextPing now) ({ time := now } :: pings) := by
  have hindex : (index s.sequence : ℕ) = pings.length % pingStatsWindow := by
    rw [h.sequence]
    show BitVec.toNat _ % 32 = pings.length % 32
    rw [BitVec.toNat_ofNat]
    omega
  constructor
  · show s.sequence + 1 = _
    rw [h.sequence, List.length_cons]
    apply BitVec.eq_of_toNat_eq
    simp [BitVec.toNat_add]
  · intro i
    show Holds _ (Function.update s.pingData _ _ i)
    rw [latest]
    by_cases hi : i = index s.sequence
    · rw [hi, Function.update_self, if_pos hindex.symm, h.sequence]
      rfl
    · have hne : ¬pings.length % pingStatsWindow = i := by
        rw [← hindex]
        exact fun heq => hi (Fin.ext heq.symm)
      rw [Function.update_of_ne hi, if_neg hne]
      exact h.pingData i

/-- The place of a number holds it when its latest ping is there, or nothing is and it is zero. -/
theorem Consistent.sequence_eq_iff (h : Consistent s pings) (sequence : BitVec 16) :
    (s.pingData (index sequence)).sequence = sequence ↔
      (pings = [] ∧ sequence = 0#16) ∨
        ∃ n p, pingOf pings sequence = some (n, p) ∧ pings.length ≤ n + pingStatsWindow := by
  have hholds : Holds (latest pingStatsWindow (sequence.toNat % pingStatsWindow) pings)
    (s.pingData (index sequence)) := h.pingData (index sequence)
  have hiff : ∀ n p, (latest pingStatsWindow (sequence.toNat % pingStatsWindow) pings =
      some (n, p) ∧ n % 2 ^ 16 = sequence.toNat) ↔
      (pingOf pings sequence = some (n, p) ∧ pings.length ≤ n + pingStatsWindow) :=
    fun n p => latest_iff (by decide) (by decide)
  simp only [← hiff]
  cases hlatest : latest pingStatsWindow (sequence.toNat % pingStatsWindow) pings with
  | none =>
    rw [hlatest] at hholds
    rw [latest_eq_none_iff (Nat.mod_lt _ (by decide))] at hlatest
    rw [hholds.2]
    constructor
    · rintro rfl
      exact Or.inl ⟨List.length_eq_zero_iff.mp (Nat.le_zero.mp hlatest), rfl⟩
    · rintro (⟨-, rfl⟩ | ⟨n, p, hsome, -⟩)
      · rfl
      · cases hsome
  | some found =>
    obtain ⟨n, p⟩ := found
    rw [hlatest] at hholds
    rw [show s.pingData (index sequence) = _ from hholds]
    have hne : pings ≠ [] := by
      rintro rfl
      cases hlatest
    constructor
    · intro hn
      refine Or.inr ⟨n, p, rfl, ?_⟩
      rw [← BitVec.toNat_ofNat]
      exact congrArg BitVec.toNat hn
    · rintro (⟨hnil, -⟩ | ⟨n', p', hsome, hn⟩)
      · exact absurd hnil hne
      · obtain ⟨rfl, rfl⟩ := Prod.mk.inj (Option.some.inj hsome)
        apply BitVec.eq_of_toNat_eq
        rw [← hn]
        exact BitVec.toNat_ofNat _ _

/-- A reply with another number is ignored, and there was nothing to answer. -/
theorem Consistent.answerable (h : Consistent s pings) {sequence : BitVec 16}
    (hne : (s.pingData (index sequence)).sequence ≠ sequence) : Answerable pings sequence := by
  rw [Ne, h.sequence_eq_iff, not_or] at hne
  refine ⟨fun hnil hzero => hne.1 ⟨hnil, hzero⟩, fun n p hping hlen => ?_⟩
  exact absurd ⟨n, p, hping, hlen⟩ hne.2

theorem Consistent.record (h : Consistent s pings) (now : ℤ) {sequence : BitVec 16} {n : ℕ}
    {p : SentPing} (hping : pingOf pings sequence = some (n, p))
    (hlen : pings.length ≤ n + pingStatsWindow) :
    s.pingReceived now sequence =
        ({ s with
            pingData := Function.update s.pingData (index sequence)
              ⟨p.time, now - p.time, sequence⟩ }, some (now - p.time)) ∧
      Consistent (s.pingReceived now sequence).1
        (modifyLatest (2 ^ 16) sequence.toNat (fun q => { q with latency := some (now - p.time) })
          pings) := by
  have hdvd : pingStatsWindow ∣ 2 ^ 16 := by decide
  obtain ⟨hlatest, hn⟩ := (latest_iff hdvd (by decide)).mpr ⟨hping, hlen⟩
  have hdata : s.pingData (index sequence) =
      ⟨p.time, p.latency.getD (-1), BitVec.ofNat 16 n⟩ := by
    have hholds : Holds (latest pingStatsWindow (sequence.toNat % pingStatsWindow) pings)
      (s.pingData (index sequence)) := h.pingData (index sequence)
    rw [hlatest] at hholds
    exact hholds
  have hsequence : BitVec.ofNat 16 n = sequence := by
    apply BitVec.eq_of_toNat_eq
    rw [BitVec.toNat_ofNat, hn]
  have hreceived : s.pingReceived now sequence =
      ({ s with
          pingData := Function.update s.pingData (index sequence)
            ⟨p.time, now - p.time, sequence⟩ }, some (now - p.time)) := by
    rw [pingReceived, hdata]
    dsimp only
    rw [if_pos hsequence, hsequence]
  have hindex : (index sequence : ℕ) = sequence.toNat % pingStatsWindow := rfl
  refine ⟨hreceived, ?_⟩
  rw [hreceived]
  refine ⟨by rw [length_modifyLatest]; exact h.sequence, fun i => ?_⟩
  show Holds _ (Function.update s.pingData _ _ i)
  rw [latest_modifyLatest hdvd hlatest hn]
  by_cases hi : i = index sequence
  · rw [hi, Function.update_self, if_pos hindex, ← hsequence]
    rfl
  · rw [Function.update_of_ne hi, if_neg fun heq => hi (Fin.ext (heq.trans hindex.symm))]
    exact h.pingData i

end Ring

/-! ## What is recorded -/

namespace Session

/-- The condition on one event. -/
def guard (s : Session) : Event → Prop
  | .reply _ sequence => Answerable s.pings sequence
  | _ => True

def Justified (s : Session) : Prop := ∀ r ∈ s.recorded, r.Justified

structure Inv (s : Session) : Prop where
  consistent : Consistent s.helper s.pings
  justified : s.Justified

variable {s : Session}

theorem inv_init : Inv {} := ⟨⟨rfl, fun _ => ⟨rfl, rfl⟩⟩, fun _ hr => absurd hr List.not_mem_nil⟩

theorem received_of_nil (h : Consistent s.helper s.pings) (hnil : s.pings = []) (now : ℤ) :
    Consistent (s.received now 0#16).helper (s.received now 0#16).pings ∧
      ∃ latency, (s.received now 0#16).recorded = s.recorded ++ [⟨none, now, latency⟩] := by
  obtain ⟨helper, pings, recorded⟩ := s
  obtain rfl : pings = [] := hnil
  have hsequence : (helper.pingData (index 0#16)).sequence = 0#16 :=
    (h.sequence_eq_iff 0#16).mpr (Or.inl ⟨rfl, rfl⟩)
  simp only [received, pingReceived, if_pos hsequence]
  refine ⟨⟨h.sequence, fun i => ?_⟩, _, rfl⟩
  show Holds none (Function.update helper.pingData _ _ i)
  have hi := h.pingData i
  by_cases heq : i = index 0#16
  · rw [heq, Function.update_self]
    exact ⟨(h.pingData (index 0#16)).1, hsequence⟩
  · rw [Function.update_of_ne heq]
    exact hi

theorem received_of_ping (h : Consistent s.helper s.pings) (now : ℤ) {sequence : BitVec 16} {n : ℕ}
    {p : SentPing} (hping : pingOf s.pings sequence = some (n, p))
    (hlen : s.pings.length ≤ n + pingStatsWindow) :
    Consistent (s.received now sequence).helper (s.received now sequence).pings ∧
      (s.received now sequence).recorded = s.recorded ++ [⟨some p, now, now - p.time⟩] := by
  obtain ⟨hreceived, hconsistent⟩ := h.record now hping hlen
  rw [hreceived] at hconsistent
  simp only [received, hreceived, hping]
  exact ⟨hconsistent, rfl⟩

theorem received_of_ne {sequence : BitVec 16}
    (hne : (s.helper.pingData (index sequence)).sequence ≠ sequence) (now : ℤ) :
    s.received now sequence = s := by
  simp only [received, pingReceived, if_neg hne]

/-- What one reply does: nothing, or it records a latency, which is justified if the reply had
something to answer. -/
theorem received_cases (h : Consistent s.helper s.pings) (now : ℤ) (sequence : BitVec 16) :
    Consistent (s.received now sequence).helper (s.received now sequence).pings ∧
      ((s.received now sequence = s ∧ Answerable s.pings sequence) ∨
        ∃ r, (s.received now sequence).recorded = s.recorded ++ [r] ∧
          (r.Justified ↔ Answerable s.pings sequence)) := by
  by_cases hsequence : (s.helper.pingData (index sequence)).sequence = sequence
  · rcases (h.sequence_eq_iff sequence).mp hsequence with ⟨hnil, rfl⟩ | ⟨n, p, hping, hlen⟩
    · obtain ⟨hconsistent, latency, hrecorded⟩ := received_of_nil h hnil now
      refine ⟨hconsistent, Or.inr ⟨_, hrecorded, iff_of_false ?_ fun hok => hok.1 hnil rfl⟩⟩
      rintro ⟨p, hp, -⟩
      cases hp
    · obtain ⟨hconsistent, hrecorded⟩ := received_of_ping h now hping hlen
      refine ⟨hconsistent, Or.inr ⟨_, hrecorded, ?_⟩⟩
      have hne : s.pings ≠ [] := by
        rintro hnil
        rw [hnil] at hping
        cases hping
      constructor
      · rintro ⟨p', hp', hlatency, -⟩
        obtain rfl : p = p' := Option.some.inj hp'
        refine ⟨fun hnil => absurd hnil hne, fun n' p' hping' _ => ?_⟩
        rw [hping] at hping'
        obtain ⟨-, rfl⟩ := Prod.mk.inj (Option.some.inj hping')
        exact hlatency
      · intro hok
        exact ⟨p, rfl, hok.2 n p hping hlen, rfl⟩
  · rw [received_of_ne hsequence]
    exact ⟨h, Or.inl ⟨rfl, h.answerable hsequence⟩⟩

theorem consistent_step (h : Consistent s.helper s.pings) (e : Event) :
    Consistent (s.step e).helper (s.step e).pings := by
  cases e with
  | start => exact consistent_start s.helper
  | stop => exact ⟨h.sequence, h.pingData⟩
  | timeout now =>
    rw [step]
    split
    · exact h.nextPing now
    · exact h
  | reply now sequence => exact (received_cases h now sequence).1

theorem recorded_step {e : Event} (h : ∀ now sequence, e ≠ .reply now sequence) :
    (s.step e).recorded = s.recorded := by
  cases e with
  | start => rfl
  | stop => rfl
  | timeout now =>
    rw [step]
    split <;> rfl
  | reply now sequence => exact absurd rfl (h now sequence)

theorem inv_step (e : Event) (h : Inv s) (hguard : s.guard e) : Inv (s.step e) := by
  refine ⟨consistent_step h.consistent e, ?_⟩
  cases e with
  | reply now sequence =>
    rcases (received_cases h.consistent now sequence).2 with ⟨hsame, -⟩ | ⟨r, hrecorded, hiff⟩
    · rw [step, hsame]
      exact h.justified
    · rw [Justified, step, hrecorded]
      intro r' hr'
      rcases List.mem_append.mp hr' with hr' | hr'
      · exact h.justified r' hr'
      · obtain rfl := List.mem_singleton.mp hr'
        exact hiff.mpr hguard
  | _ =>
    rw [Justified, recorded_step fun now sequence heq => by cases heq]
    exact h.justified

theorem not_justified_step (e : Event) (h : Inv s) (hguard : ¬s.guard e) :
    ¬(s.step e).Justified := by
  cases e with
  | reply now sequence =>
    rcases (received_cases h.consistent now sequence).2 with ⟨-, hok⟩ | ⟨r, hrecorded, hiff⟩
    · exact absurd hok hguard
    · rw [Justified, step, hrecorded]
      intro hjustified
      exact hguard (hiff.mp (hjustified r (by simp)))
  | _ => exact absurd trivial hguard

theorem justified_of_step (e : Event) (h : (s.step e).Justified) : s.Justified := by
  cases e with
  | reply now sequence =>
    intro r hr
    refine h r ?_
    rw [step, received]
    split
    · exact hr
    · exact List.mem_append_left _ hr
  | _ =>
    rw [Justified, recorded_step fun now sequence heq => by cases heq] at h
    exact h

/-- The ring is in order in every run; the latencies of a run are those of pings that were sent
since the latest start and not answered before, when each of its replies has something to answer. -/
theorem justified_iff (events : List Event) :
    Consistent (run events).helper (run events).pings ∧
      ((run events).Justified ↔ Guarded step guard {} events) := by
  constructor
  · exact @foldl_invariant _ _ step (fun s => Consistent s.helper s.pings)
      (fun s e h => consistent_step h e) _ inv_init.consistent events
  · exact @guarded_iff _ _ step guard Inv Justified (fun s e => inv_step e)
      (fun s h => h.justified) (fun s e => not_justified_step e) (fun s e => justified_of_step e) _
      inv_init events

/-- A reply that was on its way when the tunnel was started again, and two replies to one ping. -/
theorem run_unjustified :
    (run [.start, .reply 5000 0#16]).recorded = [⟨none, 5000, 5001⟩] ∧
      ¬(run [.start, .reply 5000 0#16]).Justified ∧
      (run [.start, .timeout 1000, .reply 1030 0#16, .reply 1070 0#16]).recorded =
        [⟨some ⟨1000, none⟩, 1030, 30⟩, ⟨some ⟨1000, some 30⟩, 1070, 70⟩] ∧
      ¬(run [.start, .timeout 1000, .reply 1030 0#16, .reply 1070 0#16]).Justified := by
  have hfirst : (run [.start, .reply 5000 0#16]).recorded = [⟨none, 5000, 5001⟩] := by decide
  have hsecond : (run [.start, .timeout 1000, .reply 1030 0#16, .reply 1070 0#16]).recorded =
      [⟨some ⟨1000, none⟩, 1030, 30⟩, ⟨some ⟨1000, some 30⟩, 1070, 70⟩] := by decide
  refine ⟨hfirst, fun h => ?_, hsecond, fun h => ?_⟩
  · obtain ⟨p, hp, -⟩ := h ⟨none, 5000, 5001⟩ (by rw [hfirst]; exact List.mem_singleton.mpr rfl)
    cases hp
  · obtain ⟨p, hp, hlatency, -⟩ := h ⟨some ⟨1000, some 30⟩, 1070, 70⟩ (by
      rw [hsecond]
      exact List.mem_cons_of_mem _ (List.mem_singleton.mpr rfl))
    obtain rfl := Option.some.inj hp
    cases hlatency

end Session

end PingHelper

end WgDesktop
