import WgDesktop.Lib.Bytes
import WgDesktop.Lib.Json
import WgDesktop.Lib.Lines
import WgDesktop.Lib.Runs

/-!
# `LocalSocketController`

The client's end of the socket to the daemon, from `src/localsocketcontroller.cpp`: replies are
lines of JSON that are collected in a buffer, and a lost connection is opened again after a while.
Nobody empties the buffer, so the end of a reply that did not arrive is joined to the first line of
the next connection; `framed_iff` says when that matters. The daemon's end
(`src/daemon/daemonlocalserverconnection.cpp`) has a buffer for each connection (`server_framed`).
-/

namespace WgDesktop.LocalSocketController

open Bytes Runs

/-! ## Lines of bytes -/

def newline : Byte := 10#8

/-- `QByteArray::trimmed` takes the ASCII white space for blanks. -/
def isSpace (b : Byte) : Bool := b = 32#8 || (9#8 ≤ b && b ≤ 13#8)

/-- The commands of a stream: its finished lines, trimmed, unless they are blank. -/
def commandsOf (stream : List Byte) : List (List Byte) := Lines.commands newline isSpace stream

/-- The command in a line, if it is not blank. -/
def commandOf (line : List Byte) : List (List Byte) :=
  if Lines.trim isSpace line = [] then [] else [Lines.trim isSpace line]

/-! ## The controller -/

/-- `m_daemonState`. -/
inductive DaemonState where
  | unknown
  | initializing
  | ready
  deriving DecidableEq, Repr

inductive Signal where
  | initialized (connected : Bool) (date : List Char)
  | statusUpdated (status : Json.Object)
  | connected (pubkey : List Char)
  | disconnected
  | backendFailure (errorCode : ℤ)
  | backendLogs (text : List Char)

/-- A connection to the daemon: what the buffer held when it was opened, the bytes that arrived on
it and the commands that were parsed. -/
structure Connection where
  carried : List Byte
  received : List Byte := []
  commands : List (List Byte) := []

/-- The fields of the class, what it has emitted, and its connections, the last one first. -/
structure State where
  daemonState : DaemonState := .unknown
  buffer : List Byte := []
  initializingInterval : ℕ := 500
  initializingTimer : Bool := false
  splitTunnelSupported : Bool := false
  logReceiver : Bool := false
  signals : List Signal := []
  connections : List Connection := []

/-- `QJsonDocument::fromJson` for an object, and which texts `QDateTime::fromString` reads. -/
structure Decoder where
  fromJson : List Byte → Option Json.Object
  isDate : List Char → Bool

def emit (s : State) (signal : Signal) : State := { s with signals := s.signals ++ [signal] }

def initializeInternal (s : State) : State :=
  { s with
    initializingInterval :=
      if s.daemonState ≠ .initializing then 500
      else if s.initializingInterval < 16000 then s.initializingInterval * 2
      else s.initializingInterval
    daemonState := .initializing
    connections := { carried := s.buffer } :: s.connections }

/-- Also the handler of `disconnected` and of a reply that takes too long. -/
def errorOccurred (s : State) : State :=
  let s :=
    if s.daemonState ≠ .initializing then emit (emit s (.backendFailure 0)) .disconnected else s
  { s with initializingTimer := true }

def disconnectInternal (s : State) : State :=
  emit { s with daemonState := .ready, initializingTimer := false } .disconnected

/-- The features that a status lists. -/
def features (obj : Json.Object) : List (List Char) :=
  match obj.value "features" with
  | .arr values => values.map fun v => v.toString?.getD []
  | _ => []

/-- The first status of a connection. -/
def firstStatus (D : Decoder) (s : State) (obj : Json.Object) : State :=
  let s := { s with daemonState := .ready }
  match obj.value "connected" with
  | .bool false => emit s (.initialized false [])
  | .bool true =>
    match obj.value "date" with
    | .str date => if D.isDate date then emit s (.initialized true date) else s
    | _ => s
  | _ => s

/-- The commands of a daemon that is ready. -/
def readyCommand (s : State) (obj : Json.Object) (type : List Char) : State :=
  if type = "status".toList then emit s (.statusUpdated obj)
  else if type = "disconnected".toList then disconnectInternal s
  else if type = "connected".toList then
    match obj.value "pubkey" with
    | .str pubkey => emit s (.connected pubkey)
    | _ => s
  else if type = "backendFailure".toList then
    emit s (.backendFailure (obj.value "errorCode").toInt)
  else if type = "logs".toList ∧ s.logReceiver then
    let text :=
      ((obj.value "logs").toString?.getD []).map fun c => if c = '|' then '\n' else c
    emit { s with logReceiver := false } (.backendLogs text)
  else s

def parseCommand (D : Decoder) (s : State) (command : List Byte) : State :=
  match D.fromJson command with
  | none => s
  | some obj =>
    match obj.value "type" with
    | .str type =>
      let s :=
        if type = "status".toList then
          { s with splitTunnelSupported := "splitTunnel".toList ∈ features obj }
        else s
      if type = "status".toList ∧ s.daemonState = .initializing then firstStatus D s obj
      else if s.daemonState ≠ .ready then s
      else readyCommand s obj type
    | _ => s

/-! ## Reading -/

/-- The buffer and the connections are not touched. -/
def Frame (s s' : State) : Prop := s'.buffer = s.buffer ∧ s'.connections = s.connections

theorem frame_firstStatus (D : Decoder) (s : State) (obj : Json.Object) :
    Frame s (firstStatus D s obj) := by
  unfold firstStatus
  dsimp only
  split
  · exact ⟨rfl, rfl⟩
  · split
    · split_ifs
      · exact ⟨rfl, rfl⟩
      · exact ⟨rfl, rfl⟩
    · exact ⟨rfl, rfl⟩
  · exact ⟨rfl, rfl⟩

theorem frame_readyCommand (s : State) (obj : Json.Object) (type : List Char) :
    Frame s (readyCommand s obj type) := by
  unfold readyCommand
  split_ifs
  · exact ⟨rfl, rfl⟩
  · exact ⟨rfl, rfl⟩
  · split
    · exact ⟨rfl, rfl⟩
    · exact ⟨rfl, rfl⟩
  · exact ⟨rfl, rfl⟩
  · exact ⟨rfl, rfl⟩
  · exact ⟨rfl, rfl⟩

theorem frame_parseCommand (D : Decoder) (s : State) (command : List Byte) :
    Frame s (parseCommand D s command) := by
  unfold parseCommand
  split
  · exact ⟨rfl, rfl⟩
  · split
    · rename_i type _
      dsimp only
      set s' : State := if type = "status".toList then _ else s with hs'
      have hframe : Frame s s' := by
        rw [hs']
        split_ifs
        · exact ⟨rfl, rfl⟩
        · exact ⟨rfl, rfl⟩
      have htrans : ∀ t, Frame s' t → Frame s t := fun t ht =>
        ⟨ht.1.trans hframe.1, ht.2.trans hframe.2⟩
      split_ifs
      · exact htrans _ (frame_firstStatus D s' _)
      · exact hframe
      · exact htrans _ (frame_readyCommand s' _ _)
    · exact ⟨rfl, rfl⟩

/-- A command is parsed, and counted to the current connection. -/
def handleCommand (D : Decoder) (s : State) (command : List Byte) : State :=
  parseCommand D
    { s with
      connections := s.connections.modifyHead fun c =>
        { c with commands := c.commands ++ [command] } }
    command

/-- Blank lines are passed over. -/
def handleLine (D : Decoder) (s : State) (line : List Byte) : State :=
  let command := Lines.trim isSpace line
  if command = [] then s else handleCommand D s command

@[simp] theorem buffer_handleLine (D : Decoder) (s : State) (line : List Byte) :
    (handleLine D s line).buffer = s.buffer := by
  unfold handleLine
  dsimp only
  split_ifs
  · rfl
  · exact (frame_parseCommand D _ _).1

/-- The loop of `readData`. -/
def drain (D : Decoder) (s : State) : State :=
  match _h : s.buffer.idxOf? newline with
  | none => s
  | some pos =>
    drain D (handleLine D { s with buffer := s.buffer.drop (pos + 1) } (s.buffer.take pos))
termination_by s.buffer.length
decreasing_by
  obtain ⟨hlt, -⟩ := List.idxOf?_eq_some_iff.mp _h
  rw [buffer_handleLine, List.length_drop]
  omega

def readData (D : Decoder) (s : State) (input : List Byte) : State :=
  drain D
    { s with
      buffer := s.buffer ++ input
      connections := s.connections.modifyHead fun c => { c with received := c.received ++ input } }

theorem connections_handleLine (D : Decoder) (s : State) (line : List Byte) :
    (handleLine D s line).connections = s.connections.modifyHead fun c =>
      { c with commands := c.commands ++ commandOf line } := by
  unfold handleLine commandOf
  dsimp only
  split_ifs with hblank
  · cases hs : s.connections with
    | nil => rfl
    | cons c cs => simp
  · exact (frame_parseCommand D _ _).2

/-- **The loop.** The commands of the buffer are parsed, and the unfinished line stays. -/
theorem drain_spec (D : Decoder) (s : State) :
    (drain D s).buffer = Lines.rest newline s.buffer ∧
      (drain D s).connections = s.connections.modifyHead fun c =>
        { c with commands := c.commands ++ commandsOf s.buffer } := by
  fun_induction drain D s with
  | case1 s hnone =>
    have hnot := List.idxOf?_eq_none_iff.mp hnone
    rw [commandsOf, Lines.commands_of_not_mem hnot, Lines.rest, Lines.cut_of_not_mem hnot]
    refine ⟨rfl, ?_⟩
    cases hs : s.connections with
    | nil => rfl
    | cons c cs => simp
  | case2 s pos hpos ih =>
    obtain ⟨hnot, hbuffer⟩ := Lines.line_of_idxOf? hpos
    rw [buffer_handleLine] at ih
    obtain ⟨ihbuffer, ihconnections⟩ := ih
    have hrest : Lines.rest newline s.buffer = Lines.rest newline (s.buffer.drop (pos + 1)) := by
      conv_lhs => rw [hbuffer]
      exact Lines.rest_line hnot _
    have hcommands : commandsOf s.buffer =
        commandOf (s.buffer.take pos) ++ commandsOf (s.buffer.drop (pos + 1)) := by
      conv_lhs => rw [hbuffer]
      exact Lines.commands_line hnot _
    refine ⟨ihbuffer.trans hrest.symm, ?_⟩
    rw [ihconnections, connections_handleLine, hcommands]
    cases hs : s.connections with
    | nil => rfl
    | cons c cs => simp [List.append_assoc]

theorem readData_spec (D : Decoder) (s : State) (input : List Byte) :
    (readData D s input).buffer = Lines.rest newline (s.buffer ++ input) ∧
      (readData D s input).connections = s.connections.modifyHead fun c =>
        { c with
          received := c.received ++ input
          commands := c.commands ++ commandsOf (s.buffer ++ input) } := by
  obtain ⟨hbuffer, hconnections⟩ := drain_spec D
    { s with
      buffer := s.buffer ++ input
      connections := s.connections.modifyHead fun c => { c with received := c.received ++ input } }
  refine ⟨hbuffer, hconnections.trans ?_⟩
  cases s.connections with
  | nil => rfl
  | cons c cs => rfl

/-! ## Runs -/

/-- What happens to the controller; `start` is the call of its `initialize`. What it writes does not
matter here, and a reply that it waits for may take too long at any time. -/
inductive Event where
  | start
  | timeout
  | readyRead (input : List Byte)
  | errorOccurred
  | getBackendLogs

def step (D : Decoder) (s : State) : Event → State
  | .start => initializeInternal s
  | .timeout =>
    if s.initializingTimer then initializeInternal { s with initializingTimer := false } else s
  | .readyRead input => if s.connections.isEmpty then s else readData D s input
  | .errorOccurred => LocalSocketController.errorOccurred s
  | .getBackendLogs => { s with logReceiver := s.daemonState = .ready }

/-- Each connection starts with the unfinished line that the one before it left. -/
def Chained : List Connection → Prop
  | [] => True
  | [c] => c.carried = []
  | c :: c' :: cs =>
    c.carried = Lines.rest newline (c'.carried ++ c'.received) ∧ Chained (c' :: cs)

/-- What the buffer has to do with the connections. -/
structure Inv (s : State) : Prop where
  commands : ∀ c ∈ s.connections, c.commands = commandsOf (c.carried ++ c.received)
  carried : ∀ c ∈ s.connections, newline ∉ c.carried
  buffer : s.buffer = match s.connections with
    | [] => []
    | c :: _ => Lines.rest newline (c.carried ++ c.received)
  chained : Chained s.connections

theorem inv_init : Inv {} := ⟨by simp, by simp, rfl, trivial⟩

theorem Inv.of_frame {s s' : State} (h : Inv s) (hframe : Frame s s') : Inv s' := by
  obtain ⟨hbuffer, hconnections⟩ := hframe
  obtain ⟨hcommands, hcarried, hbuf, hchained⟩ := h
  rw [← hconnections] at hcommands hcarried hbuf hchained
  exact ⟨hcommands, hcarried, hbuffer.trans hbuf, hchained⟩

theorem Inv.initializeInternal {s : State} (h : Inv s) : Inv (initializeInternal s) := by
  have hnot : newline ∉ s.buffer := by
    rw [h.buffer]
    cases s.connections with
    | nil => simp
    | cons c cs => exact Lines.sep_not_mem_rest _
  have hrest : Lines.rest newline s.buffer = s.buffer := by
    rw [Lines.rest, Lines.cut_of_not_mem hnot]
  unfold LocalSocketController.initializeInternal
  refine ⟨?_, ?_, ?_, ?_⟩
  · intro c hc
    rcases List.mem_cons.mp hc with rfl | hc
    · simp [commandsOf, Lines.commands_of_not_mem hnot]
    · exact h.commands c hc
  · intro c hc
    rcases List.mem_cons.mp hc with rfl | hc
    · exact hnot
    · exact h.carried c hc
  · simp [hrest]
  · have hbuf := h.buffer
    have hchained := h.chained
    cases hs : s.connections with
    | nil =>
      rw [hs] at hbuf
      exact hbuf
    | cons c cs =>
      rw [hs] at hbuf hchained
      exact ⟨hbuf, hchained⟩

theorem Inv.readData {s : State} (h : Inv s) (D : Decoder) {c : Connection} {cs : List Connection}
    (hs : s.connections = c :: cs) (input : List Byte) : Inv (readData D s input) := by
  obtain ⟨hcommands, hcarried, hbuf, hchained⟩ := h
  rw [hs] at hcommands hcarried hbuf hchained
  obtain ⟨hbuffer, hconnections⟩ := readData_spec D s input
  rw [hs, List.modifyHead_cons] at hconnections
  have hall : commandsOf (c.carried ++ (c.received ++ input)) =
      c.commands ++ commandsOf (s.buffer ++ input) := by
    rw [← List.append_assoc, commandsOf, Lines.commands_append, hcommands c (by simp), hbuf]
    rfl
  refine ⟨?_, ?_, ?_, ?_⟩
  · rw [hconnections]
    intro c' hc'
    rcases List.mem_cons.mp hc' with rfl | hc'
    · exact hall.symm
    · exact hcommands c' (by simp [hc'])
  · rw [hconnections]
    intro c' hc'
    rcases List.mem_cons.mp hc' with rfl | hc'
    · exact hcarried c (by simp)
    · exact hcarried c' (by simp [hc'])
  · rw [hbuffer, hconnections]
    dsimp only
    rw [← List.append_assoc, Lines.rest_append (c.carried ++ c.received), hbuf]
  · rw [hconnections]
    cases cs with
    | nil => exact hchained
    | cons c' cs => exact hchained

theorem Inv.step {s : State} (h : Inv s) (D : Decoder) (e : Event) : Inv (step D s e) := by
  cases e with
  | start => exact h.initializeInternal
  | timeout =>
    rw [LocalSocketController.step]
    split_ifs
    · have hs : Inv { s with initializingTimer := false } := h.of_frame ⟨rfl, rfl⟩
      exact hs.initializeInternal
    · exact h
  | readyRead input =>
    rw [LocalSocketController.step]
    cases hs : s.connections with
    | nil => exact h
    | cons c cs => exact h.readData D hs input
  | errorOccurred =>
    refine h.of_frame ?_
    rw [LocalSocketController.step, LocalSocketController.errorOccurred]
    split_ifs
    · exact ⟨rfl, rfl⟩
    · exact ⟨rfl, rfl⟩
  | getBackendLogs => exact h.of_frame ⟨rfl, rfl⟩

theorem inv_foldl (D : Decoder) (events : List Event) :
    Inv (events.foldl (LocalSocketController.step D) {}) :=
  foldl_invariant (fun _ e hs => hs.step D e) inv_init events

/-- **Framing.** In every run, whatever the segments and the points at which connections are lost,
the commands parsed on a connection are the lines of the bytes that arrived on it exactly when the
unfinished line left from before is blank, or no line was finished on it. The first connection
starts with nothing, each further one with what the one before left. -/
theorem framed_iff (D : Decoder) (events : List Event) :
    let s := events.foldl (step D) {}
    (∀ c ∈ s.connections, c.commands = commandsOf c.received ↔
      (∀ b ∈ c.carried, isSpace b = true) ∨ newline ∉ c.received) ∧ Chained s.connections := by
  intro s
  have h : Inv s := inv_foldl D events
  refine ⟨fun c hc => ?_, h.chained⟩
  rw [h.commands c hc]
  exact Lines.commands_append_iff (h.carried c hc) c.received

/-! ### A reply that is cut off -/

def ascii (text : String) : List Byte := text.toList.map fun c => BitVec.ofNat 8 c.toNat

/-- The beginning of a reply, and a status. -/
def fragment : List Byte := ascii "\x7b\"ty"
def status : List Byte := ascii "\x7b\"type\":\"status\"\x7d"

/-- The daemon is lost in the middle of a reply, and sends a status on the next connection. -/
def cutOff : List Event :=
  [.start, .readyRead fragment, .errorOccurred, .timeout, .readyRead (status ++ [newline])]

/-- A decoder that reads no object, as none is read from the command below. -/
def noObject : Decoder := ⟨fun _ => none, fun _ => false⟩

/-- The rest of the old connection is joined to the first line of the new one. -/
theorem not_framed_cutOff :
    ∃ c ∈ (cutOff.foldl (step noObject) {}).connections, c.received = status ++ [newline] ∧
      c.commands = [fragment ++ status] ∧ c.commands ≠ commandsOf c.received := by
  obtain ⟨hbuffer, hconnections⟩ := readData_spec noObject (step noObject {} .start) fragment
  set s := readData noObject (step noObject {} .start) fragment
  have hfragment : s.buffer = fragment := hbuffer.trans (by decide)
  set s' := step noObject (step noObject s .errorOccurred) .timeout with hs'
  have hreopen : s'.buffer = fragment ∧
      s'.connections = { carried := fragment } :: s.connections := by
    have herror : (errorOccurred s).buffer = s.buffer ∧
        (errorOccurred s).connections = s.connections ∧
        (errorOccurred s).initializingTimer = true := by
      unfold errorOccurred
      split_ifs
      · exact ⟨rfl, rfl, rfl⟩
      · exact ⟨rfl, rfl, rfl⟩
    rw [hs', step, step, if_pos herror.2.2, initializeInternal]
    exact ⟨herror.1.trans hfragment, by rw [herror.1, herror.2.1, hfragment]⟩
  have hlast := (readData_spec noObject s' (status ++ [newline])).2
  rw [hreopen.1, hreopen.2, List.modifyHead_cons] at hlast
  have hrun : cutOff.foldl (step noObject) {} = readData noObject s' (status ++ [newline]) := by
    have hopen' : s'.connections.isEmpty = false := by rw [hreopen.2]; rfl
    simp only [cutOff, List.foldl_cons, List.foldl_nil]
    change step noObject s' (.readyRead (status ++ [newline])) = _
    rw [step, hopen']
    rfl
  rw [hrun, hlast]
  exact ⟨_, List.mem_cons_self, by decide⟩

/-! ## The daemon's end -/

namespace Server

/-- `DaemonLocalServerConnection`, a new object for each connection: its buffer and the commands it
has parsed. -/
structure State where
  buffer : List Byte := []
  commands : List (List Byte) := []

def handleLine (s : State) (line : List Byte) : State :=
  let command := Lines.trim isSpace line
  if command = [] then s else { s with commands := s.commands ++ [command] }

@[simp] theorem buffer_handleLine (s : State) (line : List Byte) :
    (handleLine s line).buffer = s.buffer := by
  unfold handleLine
  dsimp only
  split_ifs
  · rfl
  · rfl

theorem commands_handleLine (s : State) (line : List Byte) :
    (handleLine s line).commands = s.commands ++ commandOf line := by
  unfold handleLine commandOf
  dsimp only
  split_ifs
  · simp
  · rfl

/-- `readData`: the socket is read when no line is left in the buffer. -/
def readData (s : State) (available : List Byte) : State :=
  match _h : s.buffer.idxOf? newline with
  | none =>
    if available = [] then s else readData { s with buffer := s.buffer ++ available } []
  | some pos =>
    readData (handleLine { s with buffer := s.buffer.drop (pos + 1) } (s.buffer.take pos)) available
termination_by s.buffer.length + 2 * available.length
decreasing_by
  · rename_i hne
    have := List.length_pos_iff.mpr hne
    simp only [List.length_append, List.length_nil]
    omega
  · obtain ⟨hlt, -⟩ := List.idxOf?_eq_some_iff.mp _h
    rw [buffer_handleLine, List.length_drop]
    omega

/-- The commands of what is in the buffer and in the socket are parsed. -/
theorem readData_spec (s : State) (available : List Byte) :
    (readData s available).buffer = Lines.rest newline (s.buffer ++ available) ∧
      (readData s available).commands = s.commands ++ commandsOf (s.buffer ++ available) := by
  fun_induction readData s available with
  | case1 s hnone =>
    have hnot := List.idxOf?_eq_none_iff.mp hnone
    rw [List.append_nil, commandsOf, Lines.commands_of_not_mem hnot, Lines.rest,
      Lines.cut_of_not_mem hnot, List.append_nil]
    exact ⟨rfl, rfl⟩
  | case2 s available hnone hne ih => simpa using ih
  | case3 s available pos hpos ih =>
    obtain ⟨hnot, hbuffer⟩ := Lines.line_of_idxOf? hpos
    rw [buffer_handleLine] at ih
    obtain ⟨ihbuffer, ihcommands⟩ := ih
    have hstream : s.buffer ++ available =
        s.buffer.take pos ++ newline :: (s.buffer.drop (pos + 1) ++ available) := by
      conv_lhs => rw [hbuffer]
      rw [List.append_assoc, List.cons_append]
    have hcommands : commandsOf (s.buffer ++ available) =
        commandOf (s.buffer.take pos) ++ commandsOf (s.buffer.drop (pos + 1) ++ available) := by
      rw [hstream]
      exact Lines.commands_line hnot _
    refine ⟨ihbuffer.trans ?_, ?_⟩
    · rw [hstream, Lines.rest_line hnot]
    · rw [ihcommands, commands_handleLine, hcommands, List.append_assoc]

/-- The commands of a connection are the lines of its stream, however it arrives. -/
theorem server_framed (segments : List (List Byte)) :
    (segments.foldl readData {}).commands = commandsOf segments.flatten := by
  have h : ∀ (s : State) (stream : List Byte), s.buffer = Lines.rest newline stream →
      s.commands = commandsOf stream →
      (segments.foldl readData s).commands = commandsOf (stream ++ segments.flatten) := by
    induction segments with
    | nil => simp
    | cons segment segments ih =>
      intro s stream hbuffer hcommands
      obtain ⟨hbuffer', hcommands'⟩ := readData_spec s segment
      rw [List.foldl_cons, List.flatten_cons, ← List.append_assoc]
      refine ih _ _ ?_ ?_
      · rw [hbuffer', hbuffer, ← Lines.rest_append]
      · rw [hcommands', hbuffer, hcommands, commandsOf, commandsOf, commandsOf,
          ← Lines.commands_append]
  exact h {} [] rfl rfl

end Server

end WgDesktop.LocalSocketController
