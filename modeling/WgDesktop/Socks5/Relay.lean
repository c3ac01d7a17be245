import WgDesktop.Socks5.ProxyConnection

/-!
# The relay of a proxy connection

`ProxyConnection` in the state `Proxy`, between the client and the destination, where a write may
take fewer bytes than it is given. The destination's bytes go out behind the reply to the handshake.
`relays_iff` says when all bytes get through, in order.
-/

namespace WgDesktop

open Bytes Runs
open ProxyConnection (maxConnectionBuffer)

/-- The way of the bytes from one socket to the other: those that the other one is to write in all,
those that wait on the first, and those that the other one has to write and has written; and the
high watermark. -/
structure Pipe where
  given : List Byte := []
  unread : List Byte := []
  bytesToWrite : List Byte := []
  written : List Byte := []
  watermark : ℕ := 0

namespace Pipe

/-- `proxy`, with the numbers of bytes that the writes would take. -/
def proxy (p : Pipe) (writes : List ℕ) : Pipe :=
  let r := ProxyConnection.proxy p.unread p.bytesToWrite writes
  { p with
    unread := r.1
    bytesToWrite := r.2
    watermark := max p.watermark r.2.length }

def arrive (p : Pipe) (chunk : List Byte) : Pipe :=
  { p with given := p.given ++ chunk, unread := p.unread ++ chunk }

/-- The socket has written some of its bytes. -/
def write (p : Pipe) (count : ℕ) : Pipe :=
  { p with
    bytesToWrite := p.bytesToWrite.drop count
    written := p.written ++ p.bytesToWrite.take count }

/-- How many bytes are read at once. -/
def room (p : Pipe) : ℕ := ProxyConnection.room p.unread p.bytesToWrite

/-- The write takes the bytes that are read. -/
def WritesAll (p : Pipe) (writes : List ℕ) : Prop :=
  ProxyConnection.WritesAll p.unread p.bytesToWrite writes

/-- Nothing is lost, repeated or out of order. -/
def Conserved (p : Pipe) : Prop := p.given = p.written ++ p.bytesToWrite ++ p.unread

end Pipe

/-- What is left of the reply to the handshake when the connection is established. A reply is a few
bytes long, so that there is room behind it. -/
structure Negotiation where
  bytes : List Byte
  length_lt : bytes.length < maxConnectionBuffer

/-- `up` is from the client to the destination. -/
inductive Direction where
  | up
  | down
  deriving DecidableEq, Repr

/-- A connection, whether its state is `Proxy`, and the calls of `clientReadyRead` that are
queued. -/
structure Relay where
  established : Bool := false
  pipe : Direction → Pipe := fun _ => {}
  recvIgnoreBytes : ℕ := 0
  queued : ℕ := 0

namespace Relay

def setPipe (s : Relay) (dir : Direction) (p : Pipe) : Relay :=
  { s with pipe := Function.update s.pipe dir p }

/-- What may happen: the state becomes `Proxy`, with bytes behind the request, bytes arrive, bytes
were written, or a queued call is made. -/
inductive Event where
  | established (negotiation : Negotiation) (payload : List Byte)
  | arrive (dir : Direction) (chunk : List Byte)
  | written (dir : Direction) (count : ℕ)
  | call

/-- What a handler does before it calls `proxy`, and for which direction it does. -/
def prepare (s : Relay) : Event → Relay × Option Direction
  | .established negotiation payload =>
    if s.established then (s, none)
    else
      ({ established := true
         pipe := fun
          | .up => { given := payload, unread := payload }
          | .down => { given := negotiation.bytes, bytesToWrite := negotiation.bytes }
         recvIgnoreBytes := negotiation.bytes.length }, some .up)
  | .arrive dir chunk =>
    if s.established then (s.setPipe dir ((s.pipe dir).arrive chunk), some dir) else (s, none)
  | .written .up count =>
    if min count (s.pipe .up).bytesToWrite.length = 0 then (s, none)
    else ({ s.setPipe .up ((s.pipe .up).write count) with queued := s.queued + 1 }, none)
  | .written .down count =>
    -- `clientBytesWritten`
    let bytes := min count (s.pipe .down).bytesToWrite.length
    let s' := s.setPipe .down ((s.pipe .down).write count)
    if bytes = 0 then (s, none)
    else if s.recvIgnoreBytes ≥ bytes then
      ({ s' with recvIgnoreBytes := s.recvIgnoreBytes - bytes }, none)
    else ({ s' with recvIgnoreBytes := 0 }, some .down)
  | .call => if s.queued = 0 then (s, none) else ({ s with queued := s.queued - 1 }, some .up)

/-- One event, with the numbers of bytes that the writes would take. -/
def step (s : Relay) (e : Event × List ℕ) : Relay :=
  match s.prepare e.1 with
  | (s', none) => s'
  | (s', some dir) => s'.setPipe dir ((s'.pipe dir).proxy e.2)

/-- All bytes that wait for it are written, and the call that this queues is made. -/
def drain (s : Relay) (writes : List ℕ) : Direction → Relay
  | .up => (s.step (.written .up (s.pipe .up).bytesToWrite.length, [])).step (.call, writes)
  | .down => s.step (.written .down (s.pipe .down).bytesToWrite.length, writes)

/-- All bytes get through in order, no more wait to be written than the limit allows, and what was
left unread goes on when those are written. -/
structure Relays (s : Relay) : Prop where
  conserved : ∀ dir, (s.pipe dir).Conserved
  bounded : ∀ dir, (s.pipe dir).bytesToWrite.length ≤ maxConnectionBuffer
  forwards : ∀ dir writes,
    ((s.pipe dir).write (s.pipe dir).bytesToWrite.length).WritesAll writes →
      ((s.drain writes dir).pipe dir).bytesToWrite = (s.pipe dir).unread.take maxConnectionBuffer

/-- The condition on one event: the write of the handler, if it makes one, is not short. -/
def guard (s : Relay) (e : Event × List ℕ) : Prop :=
  ∀ dir, (s.prepare e.1).2 = some dir → ((s.prepare e.1).1.pipe dir).WritesAll e.2

end Relay

/-! ## One copy -/

namespace Pipe

variable {p : Pipe} {writes : List ℕ}

theorem proxy_of_writesAll (h : p.WritesAll writes) :
    p.proxy writes =
      { p with
        unread := p.unread.drop p.room
        bytesToWrite := p.bytesToWrite ++ p.unread.take p.room
        watermark := max p.watermark (p.bytesToWrite.length + p.room) } := by
  have hlength : (p.bytesToWrite ++ p.unread.take p.room).length =
      p.bytesToWrite.length + p.room := by
    rw [List.length_append, List.length_take, room, ProxyConnection.room]
    omega
  rw [proxy, ProxyConnection.proxy_of_writesAll h, ← hlength]
  rfl

theorem Conserved.arrive (h : p.Conserved) (chunk : List Byte) : (p.arrive chunk).Conserved := by
  show p.given ++ chunk = p.written ++ p.bytesToWrite ++ (p.unread ++ chunk)
  rw [show p.given = _ from h, List.append_assoc]

theorem Conserved.write (h : p.Conserved) (count : ℕ) : (p.write count).Conserved := by
  show p.given = p.written ++ p.bytesToWrite.take count ++ p.bytesToWrite.drop count ++ p.unread
  rw [List.append_assoc p.written, List.take_append_drop]
  exact h

theorem Conserved.proxy (h : p.Conserved) (hwrites : p.WritesAll writes) :
    (p.proxy writes).Conserved := by
  rw [proxy_of_writesAll hwrites]
  show p.given = p.written ++ (p.bytesToWrite ++ p.unread.take p.room) ++ p.unread.drop p.room
  rw [← List.append_assoc, List.append_assoc _ (p.unread.take _), List.take_append_drop]
  exact h

theorem Conserved.not_proxy (h : p.Conserved) (hshort : ¬p.WritesAll writes) :
    ¬(p.proxy writes).Conserved := by
  intro hproxy
  have hlost := ProxyConnection.length_proxy_of_short hshort
  have hbefore := congrArg List.length h
  have hafter : p.given.length =
      (p.written ++ (ProxyConnection.proxy p.unread p.bytesToWrite writes).2 ++
        (ProxyConnection.proxy p.unread p.bytesToWrite writes).1).length :=
    congrArg List.length hproxy
  simp only [List.length_append] at hbefore hafter
  omega

end Pipe

/-! ## One step -/

namespace Relay

variable {s : Relay} {dir : Direction} {writes : List ℕ}

@[simp] theorem setPipe_pipe_self (s : Relay) (dir : Direction) (p : Pipe) :
    (s.setPipe dir p).pipe dir = p := Function.update_self ..

theorem setPipe_pipe_of_ne (s : Relay) {dir dir' : Direction} (h : dir' ≠ dir) (p : Pipe) :
    (s.setPipe dir p).pipe dir' = s.pipe dir' := Function.update_of_ne h ..

/-- What was left unread has a reason to go on: a call that is queued, or bytes whose writing calls
the handler. -/
def Flow (s : Relay) : Direction → Prop
  | .up => (s.pipe .up).unread ≠ [] →
      0 < s.queued ∨ maxConnectionBuffer ≤ (s.pipe .up).bytesToWrite.length
  | .down => (s.pipe .down).unread ≠ [] →
      s.recvIgnoreBytes < (s.pipe .down).bytesToWrite.length

/-- The part of the invariant that holds within a handler, too. -/
structure Sound (s : Relay) : Prop where
  conserved : ∀ dir, (s.pipe dir).Conserved
  bounded : ∀ dir, (s.pipe dir).bytesToWrite.length ≤ maxConnectionBuffer
  recvIgnoreBytes : s.recvIgnoreBytes < maxConnectionBuffer

structure Inv (s : Relay) : Prop where
  sound : Sound s
  flow : ∀ dir, Flow s dir

theorem inv_init : Inv {} :=
  ⟨⟨fun _ => rfl, fun _ => Nat.zero_le _, by decide⟩, fun dir => by
    cases dir <;> exact fun h => absurd rfl h⟩

theorem Sound.setPipe (h : Sound s) {p : Pipe} (hconserved : p.Conserved)
    (hbounded : p.bytesToWrite.length ≤ maxConnectionBuffer) : Sound (s.setPipe dir p) := by
  refine ⟨fun dir' => ?_, fun dir' => ?_, h.recvIgnoreBytes⟩
  · by_cases hdir : dir' = dir
    · rw [hdir, setPipe_pipe_self]
      exact hconserved
    · rw [setPipe_pipe_of_ne s hdir]
      exact h.conserved dir'
  · by_cases hdir : dir' = dir
    · rw [hdir, setPipe_pipe_self]
      exact hbounded
    · rw [setPipe_pipe_of_ne s hdir]
      exact h.bounded dir'

theorem Sound.write (h : Sound s) (dir : Direction) (count : ℕ) :
    Sound (s.setPipe dir ((s.pipe dir).write count)) := by
  refine h.setPipe ((h.conserved dir).write count) ?_
  show (List.drop count _).length ≤ _
  rw [List.length_drop]
  exact (Nat.sub_le ..).trans (h.bounded dir)

theorem Sound.prepare (h : Sound s) (e : Event) : Sound (s.prepare e).1 := by
  cases e with
  | established negotiation payload =>
    rw [Relay.prepare]
    split
    · exact h
    · refine ⟨fun dir => ?_, fun dir => ?_, negotiation.length_lt⟩
      · cases dir with
        | up => rfl
        | down => exact (List.append_nil negotiation.bytes).symm
      · cases dir with
        | up => exact Nat.zero_le _
        | down => exact negotiation.length_lt.le
  | arrive dir chunk =>
    rw [Relay.prepare]
    split
    · exact h.setPipe ((h.conserved dir).arrive chunk) (h.bounded dir)
    · exact h
  | written dir count =>
    have hwrite := h.write dir count
    cases dir with
    | up =>
      rw [Relay.prepare]
      split
      · exact h
      · exact ⟨hwrite.conserved, hwrite.bounded, hwrite.recvIgnoreBytes⟩
    | down =>
      rw [Relay.prepare]
      split_ifs
      · exact h
      · exact ⟨hwrite.conserved, hwrite.bounded, (Nat.sub_le ..).trans_lt h.recvIgnoreBytes⟩
      · exact ⟨hwrite.conserved, hwrite.bounded, Nat.zero_lt_of_lt h.recvIgnoreBytes⟩
  | call =>
    rw [Relay.prepare]
    split
    · exact h
    · exact ⟨h.conserved, h.bounded, h.recvIgnoreBytes⟩

theorem flow_up_of_eq {s' : Relay} (h : Flow s .up) (hpipe : s'.pipe .up = s.pipe .up)
    (hqueued : s.queued ≤ s'.queued) : Flow s' .up := by
  show (s'.pipe .up).unread ≠ [] → _
  rw [hpipe]
  exact fun hunread => (h hunread).imp_left fun hpos => hpos.trans_le hqueued

theorem flow_down_of_eq {s' : Relay} (h : Flow s .down) (hpipe : s'.pipe .down = s.pipe .down)
    (hignore : s'.recvIgnoreBytes = s.recvIgnoreBytes) : Flow s' .down := by
  show (s'.pipe .down).unread ≠ [] → _
  rw [hpipe, hignore]
  exact h

theorem flow_setPipe {dir' : Direction} (h : Flow s dir) (hne : dir ≠ dir') (p : Pipe) :
    Flow (s.setPipe dir' p) dir := by
  have hpipe := setPipe_pipe_of_ne s hne p
  cases dir with
  | up => exact flow_up_of_eq h hpipe (le_refl _)
  | down => exact flow_down_of_eq h hpipe rfl

/-- The handlers keep the flow in each direction for which they do not copy. -/
theorem flow_prepare (h : ∀ dir, Flow s dir) (e : Event) (hdir : (s.prepare e).2 ≠ some dir) :
    Flow (s.prepare e).1 dir := by
  cases e with
  | established negotiation payload =>
    rw [prepare] at hdir ⊢
    split_ifs at hdir ⊢
    · exact h dir
    · cases dir with
      | up => exact absurd rfl hdir
      | down => exact fun hunread => absurd rfl hunread
  | arrive dir' chunk =>
    rw [prepare] at hdir ⊢
    split_ifs at hdir ⊢
    · exact flow_setPipe (h dir) (fun heq => hdir (congrArg some heq.symm)) _
    · exact h dir
  | written dir' count =>
    have hne : Direction.up ≠ .down := fun heq => by cases heq
    cases dir' with
    | up =>
      rw [prepare]
      split
      · exact h dir
      · cases dir with
        | up => exact fun _ => Or.inl (Nat.succ_pos _)
        | down =>
          have hflow := flow_setPipe (h .down) hne.symm ((s.pipe .up).write count)
          exact flow_down_of_eq hflow rfl rfl
    | down =>
      rw [prepare] at hdir ⊢
      split_ifs at hdir ⊢ with hnone hignore
      · exact h dir
      · cases dir with
        | up =>
          have hflow := flow_setPipe (h .up) hne ((s.pipe .down).write count)
          exact flow_up_of_eq hflow rfl (le_refl _)
        | down =>
          show ((s.setPipe .down _).pipe .down).unread ≠ [] →
            s.recvIgnoreBytes - min count (s.pipe .down).bytesToWrite.length <
              ((s.setPipe .down _).pipe .down).bytesToWrite.length
          rw [setPipe_pipe_self]
          intro hunread
          have hlt := h .down hunread
          show _ < (List.drop count (s.pipe .down).bytesToWrite).length
          rw [List.length_drop]
          omega
      · cases dir with
        | up =>
          have hflow := flow_setPipe (h .up) hne ((s.pipe .down).write count)
          exact flow_up_of_eq hflow rfl (le_refl _)
        | down => exact absurd rfl hdir
  | call =>
    rw [prepare] at hdir ⊢
    split_ifs at hdir ⊢
    · exact h dir
    · cases dir with
      | up => exact absurd rfl hdir
      | down => exact h .down

/-- After a copy there is nothing to read, or the other socket is full. -/
theorem full_of_copied (h : Sound s) (hwrites : (s.pipe dir).WritesAll writes)
    (hunread : ((s.pipe dir).proxy writes).unread ≠ []) :
    ((s.pipe dir).proxy writes).bytesToWrite.length = maxConnectionBuffer := by
  have hbounded := h.bounded dir
  rw [Pipe.proxy_of_writesAll hwrites] at hunread ⊢
  have hlt : (s.pipe dir).room < (s.pipe dir).unread.length := by
    by_contra hle
    exact hunread (List.drop_eq_nil_of_le (by omega))
  show (List.append _ (List.take _ _)).length = _
  rw [List.append_eq, List.length_append, List.length_take]
  unfold Pipe.room ProxyConnection.room at hlt ⊢
  omega

theorem inv_copied (h : Sound s) (hflow : ∀ dir', dir' ≠ dir → Flow s dir')
    (hwrites : (s.pipe dir).WritesAll writes) :
    Inv (s.setPipe dir ((s.pipe dir).proxy writes)) := by
  have hbounded : ((s.pipe dir).proxy writes).bytesToWrite.length ≤ maxConnectionBuffer := by
    have hle := h.bounded dir
    rw [Pipe.proxy_of_writesAll hwrites]
    show (List.append _ (List.take _ _)).length ≤ _
    rw [List.append_eq, List.length_append, List.length_take]
    unfold Pipe.room ProxyConnection.room
    omega
  refine ⟨h.setPipe ((h.conserved dir).proxy hwrites) hbounded, fun dir' => ?_⟩
  by_cases hdir : dir' = dir
  · rw [hdir]
    cases dir with
    | up =>
      show ((s.setPipe .up _).pipe .up).unread ≠ [] → _
      rw [setPipe_pipe_self]
      exact fun hunread => Or.inr (full_of_copied h hwrites hunread).ge
    | down =>
      show ((s.setPipe .down _).pipe .down).unread ≠ [] → _
      rw [setPipe_pipe_self]
      exact fun hunread => h.recvIgnoreBytes.trans_eq (full_of_copied h hwrites hunread).symm
  · exact flow_setPipe (hflow dir' hdir) hdir _

theorem step_of_none {e : Event × List ℕ} (h : (s.prepare e.1).2 = none) :
    s.step e = (s.prepare e.1).1 := by
  rw [step]
  split
  case h_1 s' heq => rw [heq]
  case h_2 s' dir heq =>
    rw [heq] at h
    cases h

theorem step_of_some {e : Event × List ℕ} (h : (s.prepare e.1).2 = some dir) :
    s.step e =
      (s.prepare e.1).1.setPipe dir (((s.prepare e.1).1.pipe dir).proxy e.2) := by
  rw [step]
  split
  case h_1 s' heq =>
    rw [heq] at h
    cases h
  case h_2 s' dir' heq =>
    rw [heq] at h ⊢
    obtain rfl : dir' = dir := Option.some.inj h
    rfl

theorem inv_step (e : Event × List ℕ) (h : Inv s) (hguard : s.guard e) : Inv (s.step e) := by
  have hsound := h.sound.prepare e.1
  cases hcopied : (s.prepare e.1).2 with
  | none =>
    rw [step_of_none hcopied]
    refine ⟨hsound, fun dir => flow_prepare h.flow e.1 ?_⟩
    rw [hcopied]
    exact fun heq => by cases heq
  | some dir =>
    rw [step_of_some hcopied]
    refine inv_copied hsound (fun dir' hne => flow_prepare h.flow e.1 ?_) (hguard dir hcopied)
    rw [hcopied]
    exact fun heq => hne (Option.some.inj heq).symm

theorem not_conserved_step (e : Event × List ℕ) (h : Inv s) (hguard : ¬s.guard e) :
    ¬∀ dir, ((s.step e).pipe dir).Conserved := by
  unfold guard at hguard
  push Not at hguard
  obtain ⟨dir, hcopied, hshort⟩ := hguard
  rw [step_of_some hcopied]
  intro hconserved
  have hdir := hconserved dir
  rw [setPipe_pipe_self] at hdir
  exact ((h.sound.prepare e.1).conserved dir).not_proxy hshort hdir

/-! ## What was left unread -/

theorem bytesToWrite_proxy_of_nil {p : Pipe} (hnil : p.bytesToWrite = [])
    (hwrites : p.WritesAll writes) :
    (p.proxy writes).bytesToWrite = p.unread.take maxConnectionBuffer := by
  have hroom : p.room = min p.unread.length maxConnectionBuffer := by
    rw [Pipe.room, ProxyConnection.room, hnil, List.length_nil, Nat.sub_zero]
  rw [Pipe.proxy_of_writesAll hwrites, hnil, List.nil_append, hroom, List.take_eq_take_iff]
  omega

theorem call_forwards (hflow : Flow s .up) (hnil : (s.pipe .up).bytesToWrite = [])
    (hwrites : (s.pipe .up).WritesAll writes) :
    ((s.step (.call, writes)).pipe .up).bytesToWrite =
      (s.pipe .up).unread.take maxConnectionBuffer := by
  by_cases hqueued : s.queued = 0
  · have hunread : (s.pipe .up).unread = [] := by
      by_contra hne
      rcases hflow hne with hpos | hfull
      · omega
      · rw [hnil] at hfull
        exact absurd hfull (by decide)
    have hprepare : s.prepare .call = (s, none) := if_pos hqueued
    rw [step_of_none (congrArg Prod.snd hprepare), hprepare, hnil, hunread, List.take_nil]
  · have hprepare : s.prepare .call = ({ s with queued := s.queued - 1 }, some .up) :=
      if_neg hqueued
    rw [step_of_some (congrArg Prod.snd hprepare), setPipe_pipe_self, hprepare]
    exact bytesToWrite_proxy_of_nil hnil hwrites

theorem forwards_up (h : Inv s)
    (hwrites : ((s.pipe .up).write (s.pipe .up).bytesToWrite.length).WritesAll writes) :
    ((s.drain writes .up).pipe .up).bytesToWrite =
      (s.pipe .up).unread.take maxConnectionBuffer := by
  have hnone : (s.prepare (.written .up (s.pipe .up).bytesToWrite.length)).2 = none := by
    rw [prepare]
    split <;> rfl
  have hdrained := inv_step (.written .up (s.pipe .up).bytesToWrite.length, []) h fun dir hdir => by
    rw [hnone] at hdir
    cases hdir
  have hpipe : (s.step (.written .up (s.pipe .up).bytesToWrite.length, [])).pipe .up =
      (s.pipe .up).write (s.pipe .up).bytesToWrite.length := by
    rw [step_of_none hnone, prepare]
    split
    case isTrue hzero =>
      rw [Nat.min_self] at hzero
      rw [hzero, Pipe.write, List.drop_zero, List.take_zero, List.append_nil]
    case isFalse => exact setPipe_pipe_self s .up _
  rw [← hpipe] at hwrites
  have hnil : ((s.step (.written .up (s.pipe .up).bytesToWrite.length, [])).pipe .up).bytesToWrite =
      [] := by
    rw [hpipe]
    exact List.drop_length
  have hforwards := call_forwards (hdrained.flow .up) hnil hwrites
  rw [hpipe] at hforwards
  exact hforwards

theorem forwards_down (h : Inv s)
    (hwrites : ((s.pipe .down).write (s.pipe .down).bytesToWrite.length).WritesAll writes) :
    ((s.drain writes .down).pipe .down).bytesToWrite =
      (s.pipe .down).unread.take maxConnectionBuffer := by
  have hflow := h.flow .down
  have hdrop : ((s.pipe .down).write (s.pipe .down).bytesToWrite.length).bytesToWrite = [] :=
    List.drop_length
  have hpipe := setPipe_pipe_self s .down ((s.pipe .down).write (s.pipe .down).bytesToWrite.length)
  have hunread : ∀ {n}, (s.pipe .down).bytesToWrite.length ≤ n → n ≤ s.recvIgnoreBytes →
      (s.pipe .down).unread = [] := by
    intro n hle hignore
    by_contra hne
    have hlt := hflow hne
    omega
  show ((s.step (.written .down _, writes)).pipe .down).bytesToWrite = _
  rw [step, prepare, Nat.min_self]
  split_ifs with hzero hignore
  · show (s.pipe .down).bytesToWrite = _
    rw [hunread (Nat.le_zero.mpr hzero) (Nat.zero_le _), List.length_eq_zero_iff.mp hzero,
      List.take_nil]
  · refine (congrArg Pipe.bytesToWrite hpipe).trans ?_
    rw [hdrop, hunread (le_refl _) hignore, List.take_nil]
  · refine (congrArg Pipe.bytesToWrite (setPipe_pipe_self _ .down _)).trans ?_
    refine (congrArg (fun p => (Pipe.proxy p writes).bytesToWrite) hpipe).trans ?_
    exact bytesToWrite_proxy_of_nil hdrop hwrites

theorem Inv.relays (h : Inv s) : Relays s where
  conserved := h.sound.conserved
  bounded := h.sound.bounded
  forwards dir writes hwrites := by
    cases dir with
    | up => exact forwards_up h hwrites
    | down => exact forwards_down h hwrites

/-- **The relay.** All bytes get through in every state of a run, when none of its writes is
short. -/
theorem relays_iff (events : List (Event × List ℕ)) :
    (∀ n, Relays ((events.take n).foldl step {})) ↔ Guarded step guard {} events :=
  @forall_take_iff_guarded _ _ step guard Inv Relays (fun _ e => inv_step e) (fun _ h => h.relays)
    (fun _ e h hguard hrelays => not_conserved_step e h hguard hrelays.conserved) _ inv_init events

/-- Three bytes arrive from the client, and the socket of the destination takes two of them; then
one more arrives. -/
def shortWrite : List (Event × List ℕ) :=
  [(.established ⟨[0x05, 0x00], by decide⟩ [], []), (.arrive .up [0x61, 0x62, 0x63], [2]),
    (.arrive .up [0x64], [])]

/-- The third byte is lost, and the fourth one follows the second. -/
theorem shortWrite_loses :
    ((shortWrite.foldl step {}).pipe .up).given = [0x61, 0x62, 0x63, 0x64] ∧
      ((shortWrite.foldl step {}).pipe .up).bytesToWrite = [0x61, 0x62, 0x64] ∧
      ((shortWrite.foldl step {}).pipe .up).unread = [] ∧
      ¬∀ n, Relays ((shortWrite.take n).foldl step {}) := by
  have hgiven : ((shortWrite.foldl step {}).pipe .up).given = [0x61, 0x62, 0x63, 0x64] := by
    decide +kernel
  have hqueue : ((shortWrite.foldl step {}).pipe .up).bytesToWrite = [0x61, 0x62, 0x64] := by
    decide +kernel
  have hunread : ((shortWrite.foldl step {}).pipe .up).unread = [] := by
    decide +kernel
  have hwritten : ((shortWrite.foldl step {}).pipe .up).written = [] := by
    decide +kernel
  refine ⟨hgiven, hqueue, hunread, fun h => ?_⟩
  have hrelays : Relays (shortWrite.foldl step {}) := h 3
  have hconserved := hrelays.conserved .up
  rw [Pipe.Conserved, hgiven, hwritten, hqueue, hunread] at hconserved
  exact absurd hconserved (by decide)

end Relay

end WgDesktop
