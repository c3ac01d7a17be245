import WgDesktop.Lib.LineTails
import WgDesktop.Logs.Collection

/-!
# The log file

`LogHandler::addLog`, `openLogFile` and `setLogDevice` of `src/utils/loghandler.cpp`, which call one
another in debug builds. A file that has grown too big is cut down to the lines in its last half.
`returns_iff` says which calls come back, and `rotates_iff` when every call does and the file is the
tail of all that was written.
-/

namespace WgDesktop.LogHandler

open LineTails LogSerializeHelper

/-! ## The entries -/

inductive LogLevel where
  | trace
  | debug
  | info
  | warning
  | error
  deriving DecidableEq, Repr

structure QDateTime where
  day : Fin 32
  month : Fin 13
  year : Fin 10000
  hour : Fin 24
  minute : Fin 60
  second : Fin 60
  msec : Fin 1000
  deriving DecidableEq, Repr

/-- A number with the given digits, leading zeros included. -/
def digits : ℕ → ℕ → List Char
  | 0, _ => []
  | count + 1, n => digits count (n / 10) ++ [Char.ofNat (48 + n % 10)]

/-- The format `dd.MM.yyyy hh:mm:ss.zzz`. -/
def QDateTime.toString (t : QDateTime) : List Char :=
  digits 2 t.day ++ '.' :: digits 2 t.month ++ '.' :: digits 4 t.year ++ ' ' ::
    digits 2 t.hour ++ ':' :: digits 2 t.minute ++ ':' :: digits 2 t.second ++ '.' ::
    digits 3 t.msec

structure Log where
  logLevel : LogLevel := .debug
  dateTime : QDateTime
  file : List Char := []
  function : List Char := []
  className : List Char := []
  message : List Char := []
  line : ℤ := -1
  fromQT : Bool := false
  deriving DecidableEq, Repr

def LogLevel.name : LogLevel → String
  | .trace => "Trace: "
  | .debug => "Debug: "
  | .info => "Info: "
  | .warning => "Warning: "
  | .error => "Error: "

/-- The part of a path behind its last slash. -/
def baseName (file : List Char) : List Char := (file.reverse.takeWhile fun c => c ≠ '/').reverse

/-- Where a message of Qt comes from. -/
def origin (log : Log) : List Char :=
  if log.file = [] ∧ log.function = [] then []
  else
    " (".toList ++
      (if log.file = [] then []
        else baseName log.file ++
          (if 0 ≤ log.line then ':' :: (toString log.line).toList else []) ++
          (if log.function = [] then [] else ", ".toList)) ++
      log.function ++ ")".toList

/-- The entry up to the end of its line. -/
def entry (log : Log) : List Char :=
  '[' :: log.dateTime.toString ++ "] ".toList ++
    (if log.className = [] then [] else '(' :: log.className ++ ") ".toList) ++
    log.logLevel.name.toList ++ log.message ++ (if log.fromQT then origin log else [])

def prettyOutput (log : Log) : Bytes := (entry log ++ ['\n']).flatMap String.utf8EncodeChar

/-! ## The file -/

def logMaxFileSize : ℕ := 204800

theorem half_lt : logMaxFileSize / 2 < logMaxFileSize := by
  unfold logMaxFileSize
  omega

attribute [local irreducible] logMaxFileSize

/-- The build, whether `messageQTHandler` is installed, and the log file, with its directory as the
names on the way to the root. The name is one that can be opened: `PATH_MAX` is 4096. -/
structure Config where
  debug : Bool
  messageHandler : Bool
  directory : List String
  filename : List Char
  short : (filename.flatMap String.utf8EncodeChar).length < 4096

/-- What a call of `openLogFile` meets: the time, the directories that are there or can be made, and
whether the file can be renamed and opened, to append, to read and anew. -/
structure Attempt where
  now : QDateTime
  dirExists : List String → Bool
  mkdir : List String → Bool
  rename : Bool
  openAppend : Bool
  openRead : Bool
  openNew : Bool

/-- `m_output`: a device may have been set without being open. -/
inductive Output where
  | null
  | unopened
  | opened
  deriving DecidableEq, Repr

/-- The handler, with the content of the log file, if there is one, the calls of `openLogFile` so
far and the entries that `logEntryAdded` was emitted for. -/
structure State where
  file : Option Bytes
  output : Output := .null
  opened : ℕ := 0
  logEntryAdded : List Bytes := []
  deriving DecidableEq, Repr

def State.size (s : State) : ℕ := (s.file.getD []).length

/-- The root is always there. -/
def makeLogDir (a : Attempt) : List String → Bool
  | [] => true
  | name :: parent =>
    if a.dirExists (name :: parent) then true
    else if makeLogDir a parent then a.mkdir (name :: parent)
    else false

/-- What comes in when a file is read as text: the carriage returns are left out. -/
def readText (content : Bytes) : Bytes := content.filter fun b => b ≠ 13

/-- The last half of what a file may hold, from the next line on. -/
def tail (content : Bytes) : Bytes :=
  afterLine 10 (content.drop (content.length - logMaxFileSize / 2))

section Operations

variable (cfg : Config) (attempts : ℕ → Attempt)

/-- The entry that names the log file. -/
def fileLog (now : QDateTime) : Log :=
  { dateTime := now
    className := "LogHandler".toList
    message := "Log file: ".toList ++ cfg.filename }

/-- The functions call one another through `addLog`, which is given here; nothing comes of a call
that does not return. -/
def setLogDevice (addLog : State → Log → Option State) (now : QDateTime) (s : State) :
    Option State :=
  if cfg.debug then addLog s (fileLog cfg now) else some s

def openLogFile (addLog : State → Log → Option State) (s : State) : Option State :=
  let a := attempts s.opened
  let s := { s with output := .null, opened := s.opened + 1 }
  if !makeLogDir a cfg.directory then some s
  else if s.size < logMaxFileSize then
    if !a.openAppend then some s
    else
      setLogDevice cfg addLog a.now { s with output := .opened, file := some (s.file.getD []) }
  else if !a.rename then setLogDevice cfg addLog a.now { s with output := .unopened }
  else if !a.openRead || !a.openNew then some { s with file := none }
  else
    setLogDevice cfg addLog a.now
      { s with output := .opened, file := some (readText (tail (s.file.getD []))) }

/-- A write to a device that is not open makes Qt warn. The handler of the warning waits for the
mutex that `addLog` holds, unless the entry came through the handler itself, in which Qt does not
call it again. -/
def blocks (inHandler : Bool) : Bool := cfg.messageHandler && !inHandler

def writeEntry (inHandler : Bool) (s : State) (buffer : Bytes) : Option State :=
  match s.output with
  | .null => some s
  | .unopened => if blocks cfg inHandler then none else some s
  | .opened => some { s with file := some (s.file.getD [] ++ buffer) }

/-- `addLog` with the lock held, and so many calls of it deep. -/
def addLogLocked (inHandler : Bool) : ℕ → State → Log → Option State
  | 0, _, _ => none
  | depth + 1, s, log => do
    let s ←
      if s.output ≠ .null ∧ logMaxFileSize ≤ s.size then
        openLogFile cfg attempts (addLogLocked inHandler depth) s
      else some s
    let s ← writeEntry cfg inHandler s (prettyOutput log)
    some { s with logEntryAdded := s.logEntryAdded ++ [prettyOutput log] }

/-- `messageQTHandler` is what makes an entry from Qt. -/
def addLog (depth : ℕ) (s : State) (log : Log) : Option State :=
  addLogLocked cfg attempts log.fromQT depth s log

/-- The constructor, over the log file that is there. -/
def construct (depth : ℕ) (old : Bytes) : Option State :=
  openLogFile cfg attempts (addLogLocked cfg attempts false depth) { file := some old }

end Operations

/-! ## What is required -/

section Required

variable (cfg : Config) (attempts : ℕ → Attempt) (old : Bytes)

/-- The handler after the constructor and some calls, each of which has returned. -/
inductive Reached : List Log → State → Prop
  | construct {depth : ℕ} {s : State} (h : construct cfg attempts depth old = some s) :
    Reached [] s
  | addLog {logs : List Log} {log : Log} {depth : ℕ} {s s' : State} (hs : Reached logs s)
    (h : addLog cfg attempts depth s log = some s') : Reached (logs ++ [log]) s'

/-- Whatever a call of `openLogFile` may need succeeds. -/
def Succeeds (a : Attempt) : Prop :=
  makeLogDir a cfg.directory = true ∧ a.rename = true ∧ a.openAppend = true ∧ a.openRead = true ∧
    a.openNew = true

/-- The file is the tail of the old content and all entries, ends with the newest one and was not
too big before that. -/
def KeepsTail (s : State) (log : Log) : Prop :=
  ∃ content, s.file = some (content ++ prettyOutput log) ∧ content.length < logMaxFileSize ∧
    IsTail 10 (content ++ prettyOutput log) (old ++ s.logEntryAdded.flatten)

/-- Every call returns, and while all goes well the file is such a tail after each. -/
structure Rotates (logs : List Log) : Prop where
  constructed : ∃ depth s, construct cfg attempts depth old = some s
  returns : ∀ before log after s, logs = before ++ log :: after →
    Reached cfg attempts old before s → ∃ depth s', addLog cfg attempts depth s log = some s'
  tail : ∀ before log after s, logs = before ++ log :: after →
    Reached cfg attempts old (before ++ [log]) s →
    (∀ i < s.opened, Succeeds cfg (attempts i)) → KeepsTail old s log

/-- A file that is too big stays what it is. -/
def Stuck (a : Attempt) : Prop := makeLogDir a cfg.directory = true ∧ a.rename = false

/-- The file is opened again by the next call. -/
def Rotating (s : State) : Prop := s.output ≠ .null ∧ logMaxFileSize ≤ s.size

/-- Where a file that is too big cannot be renamed: a debug build tries again until something else
happens, and a release build writes to a device that is not open. -/
def Escapes (inHandler : Bool) (s : State) : Prop :=
  if cfg.debug then ∃ i, s.opened ≤ i ∧ ¬Stuck cfg (attempts i)
  else Stuck cfg (attempts s.opened) → blocks cfg inHandler = false

/-- The condition: a file that is too big can be renamed in the end, what is kept of it has no
carriage returns, and what is kept of the old file is something. -/
structure Guarded (logs : List Log) : Prop where
  start : cfg.debug = true → logMaxFileSize ≤ old.length → ∃ i, ¬Stuck cfg (attempts i)
  startKeeps : logs ≠ [] → Succeeds cfg (attempts 0) → logMaxFileSize ≤ old.length →
    10 ∈ old.drop (old.length - logMaxFileSize / 2) ∧ 13 ∉ LogHandler.tail old
  escapes : ∀ before log after s, logs = before ++ log :: after →
    Reached cfg attempts old before s → Rotating s → Escapes cfg attempts log.fromQT s
  keeps : ∀ before log after s, logs = before ++ log :: after →
    Reached cfg attempts old before s → Rotating s →
    (∀ i ≤ s.opened, Succeeds cfg (attempts i)) → 13 ∉ LogHandler.tail (s.file.getD [])

end Required

/-! ## Opening the file -/

variable {cfg : Config} {attempts : ℕ → Attempt} {s t s' : State} {log : Log} {depth : ℕ}
  {inHandler : Bool} {old : Bytes}

theorem length_readText_le (l : Bytes) : (readText l).length ≤ l.length :=
  List.length_filter_le _ l

theorem length_tail_le (content : Bytes) :
    (LogHandler.tail content).length ≤ logMaxFileSize / 2 := by
  have h := @length_afterLine_le _ 10 _ (content.drop (content.length - logMaxFileSize / 2))
  rw [List.length_drop] at h
  rw [LogHandler.tail]
  omega

/-- What `openLogFile` does: without a file it gives up; otherwise it sets a device, which is open
with a file that is small enough, or stuck. -/
theorem openLogFile_cases (cfg : Config) (attempts : ℕ → Attempt) (s : State) :
    (∃ t, t.output = .null ∧ t.opened = s.opened + 1 ∧
      (logMaxFileSize ≤ s.size → ¬Stuck cfg (attempts s.opened)) ∧
      ∀ f, openLogFile cfg attempts f s = some t) ∨
    (∃ t, t.output = .opened ∧ t.size < logMaxFileSize ∧ t.opened = s.opened + 1 ∧
      (logMaxFileSize ≤ s.size → ¬Stuck cfg (attempts s.opened)) ∧
      ∀ f, openLogFile cfg attempts f s = setLogDevice cfg f (attempts s.opened).now t) ∨
    (logMaxFileSize ≤ s.size ∧ Stuck cfg (attempts s.opened) ∧
      ∀ f, openLogFile cfg attempts f s = setLogDevice cfg f (attempts s.opened).now
        { s with output := .unopened, opened := s.opened + 1 }) := by
  by_cases hdir : makeLogDir (attempts s.opened) cfg.directory = true
  · by_cases hsmall : (s.file.getD []).length < logMaxFileSize
    · by_cases hopen : (attempts s.opened).openAppend = true
      · refine .inr (.inl ⟨{ s with
          output := .opened, opened := s.opened + 1, file := some (s.file.getD []) },
          rfl, hsmall, rfl, fun h => absurd h (Nat.not_le.mpr hsmall), fun f => ?_⟩)
        simp [openLogFile, State.size, hdir, hopen, hsmall]
      · refine .inl ⟨{ s with output := .null, opened := s.opened + 1 }, rfl, rfl,
          fun h => absurd h (Nat.not_le.mpr hsmall), fun f => ?_⟩
        simp [openLogFile, State.size, hdir, hopen, hsmall]
    · by_cases hrename : (attempts s.opened).rename = true
      · have hfree : ¬Stuck cfg (attempts s.opened) := fun h => by
          rw [h.2] at hrename
          cases hrename
        by_cases hopen : ((attempts s.opened).openRead && (attempts s.opened).openNew) = true
        · obtain ⟨hread, hnew⟩ := Bool.and_eq_true_iff.mp hopen
          refine .inr (.inl ⟨{ s with
            output := .opened, opened := s.opened + 1,
            file := some (readText (LogHandler.tail (s.file.getD []))) },
            rfl, ?_, rfl, fun _ => hfree, fun f => ?_⟩)
          · have h1 := length_readText_le (LogHandler.tail (s.file.getD []))
            have h2 := length_tail_le (s.file.getD [])
            rw [State.size, Option.getD_some]
            exact Nat.lt_of_le_of_lt (Nat.le_trans h1 h2) half_lt
          · simp [openLogFile, State.size, hdir, hsmall, hrename, hread, hnew]
        · refine .inl ⟨{ s with output := .null, opened := s.opened + 1, file := none }, rfl, rfl,
            fun _ => hfree, fun f => ?_⟩
          have hfail : (!(attempts s.opened).openRead || !(attempts s.opened).openNew) = true := by
            rw [← Bool.not_and, Bool.eq_false_iff.mpr hopen]
            rfl
          simp [openLogFile, State.size, hdir, hsmall, hrename, hfail]
      · have hstuck : Stuck cfg (attempts s.opened) := ⟨hdir, by simpa using hrename⟩
        refine .inr (.inr ⟨Nat.le_of_not_lt hsmall, hstuck, fun f => ?_⟩)
        simp [openLogFile, State.size, hdir, hsmall, hrename]
  · refine .inl ⟨{ s with output := .null, opened := s.opened + 1 }, rfl, rfl,
      fun _ h => hdir h.1, fun f => ?_⟩
    simp [openLogFile, hdir]

/-! ## Which calls return -/

/-- A device that is not open has a file that is too big. -/
def Sane (s : State) : Prop := s.output = .unopened → logMaxFileSize ≤ s.size

theorem Sane.output_ne (h : Sane s) (hrot : ¬Rotating s) : s.output ≠ .unopened := fun hout =>
  hrot ⟨by rw [hout]; exact nofun, h hout⟩

theorem writeEntry_of_ne (h : s.output ≠ .unopened) (buffer : Bytes) :
    ∃ t, writeEntry cfg inHandler s buffer = some t ∧ t.output = s.output := by
  rw [writeEntry]
  cases hout : s.output with
  | null => exact ⟨s, rfl, hout⟩
  | unopened => exact absurd hout h
  | opened => exact ⟨_, rfl, rfl⟩

theorem addLogLocked_of_not_rotating (hrot : ¬Rotating s) :
    addLogLocked cfg attempts inHandler (depth + 1) s log = (do
      let t ← writeEntry cfg inHandler s (prettyOutput log)
      some { t with logEntryAdded := t.logEntryAdded ++ [prettyOutput log] }) := by
  have hnot : ¬(s.output ≠ .null ∧ logMaxFileSize ≤ s.size) := hrot
  rw [addLogLocked, if_neg hnot]
  rfl

theorem addLogLocked_of_rotating (hrot : Rotating s) :
    addLogLocked cfg attempts inHandler (depth + 1) s log = (do
      let s ← openLogFile cfg attempts (addLogLocked cfg attempts inHandler depth) s
      let t ← writeEntry cfg inHandler s (prettyOutput log)
      some { t with logEntryAdded := t.logEntryAdded ++ [prettyOutput log] }) := by
  have hyes : s.output ≠ .null ∧ logMaxFileSize ≤ s.size := hrot
  rw [addLogLocked, if_pos hyes]

/-- A call on a device that is open or missing, with a file that is small enough. -/
theorem addLogLocked_returns (hrot : ¬Rotating s) (h : s.output ≠ .unopened) :
    ∃ t, addLogLocked cfg attempts inHandler (depth + 1) s log = some t ∧ t.output = s.output := by
  obtain ⟨t, ht, hout⟩ := @writeEntry_of_ne cfg s inHandler h (prettyOutput log)
  rw [addLogLocked_of_not_rotating hrot, ht]
  exact ⟨_, rfl, hout⟩

theorem addLogLocked_of_opened (hrot : Rotating s) (h : t.output ≠ .unopened)
    (hopen : openLogFile cfg attempts (addLogLocked cfg attempts inHandler depth) s = some t) :
    ∃ u, addLogLocked cfg attempts inHandler (depth + 1) s log = some u ∧
      u.output ≠ .unopened := by
  obtain ⟨u, hu, hout⟩ := @writeEntry_of_ne cfg t inHandler h (prettyOutput log)
  rw [addLogLocked_of_rotating hrot, hopen]
  dsimp only [Option.bind_eq_bind, Option.bind_some]
  rw [hu]
  exact ⟨_, rfl, by rw [← hout] at h; exact h⟩

theorem not_rotating_of_size (h : s.size < logMaxFileSize) : ¬Rotating s := fun hrot =>
  Nat.not_le.mpr h hrot.2

theorem setLogDevice_opened (hout : s.output = .opened) (hsize : s.size < logMaxFileSize)
    (now : QDateTime) :
    ∃ t, setLogDevice cfg (addLogLocked cfg attempts inHandler (depth + 1)) now s = some t ∧
      t.output ≠ .unopened := by
  rw [setLogDevice]
  split
  · obtain ⟨t, ht, htout⟩ := @addLogLocked_returns cfg attempts s (fileLog cfg now) depth inHandler
      (not_rotating_of_size hsize) (by rw [hout]; exact nofun)
    exact ⟨t, ht, by rw [htout, hout]; exact nofun⟩
  · exact ⟨s, rfl, by rw [hout]; exact nofun⟩

theorem returns_of_free (hs : Sane s) (hfree : Rotating s → ¬Stuck cfg (attempts s.opened)) :
    ∃ depth t, addLogLocked cfg attempts inHandler depth s log = some t ∧
      t.output ≠ .unopened := by
  by_cases hrot : Rotating s
  · rcases openLogFile_cases cfg attempts s with
      ⟨t, hout, -, -, hopen⟩ | ⟨t, hout, hsize, -, -, hopen⟩ | ⟨-, hstuck, -⟩
    · exact ⟨1, addLogLocked_of_opened hrot (by rw [hout]; exact nofun) (hopen _)⟩
    · obtain ⟨u, hu, hne⟩ := @setLogDevice_opened cfg attempts t 0 inHandler hout hsize
        (attempts s.opened).now
      exact ⟨2, addLogLocked_of_opened hrot hne ((hopen _).trans hu)⟩
    · exact absurd hstuck (hfree hrot)
  · obtain ⟨t, ht, hout⟩ := @addLogLocked_returns cfg attempts s log 0 inHandler hrot
      (hs.output_ne hrot)
    exact ⟨1, t, ht, by rw [hout]; exact hs.output_ne hrot⟩

theorem setLogDevice_release (hdebug : cfg.debug = false) (f : State → Log → Option State)
    (now : QDateTime) (s : State) : setLogDevice cfg f now s = some s := by
  rw [setLogDevice, if_neg (by rw [hdebug]; exact Bool.false_ne_true)]

/-- The state in which a debug build calls `addLog` for a file that is stuck. -/
theorem openLogFile_stuck (hdebug : cfg.debug = true) (hsize : logMaxFileSize ≤ s.size)
    (hstuck : Stuck cfg (attempts s.opened)) (f : State → Log → Option State) :
    openLogFile cfg attempts f s =
      f { s with output := .unopened, opened := s.opened + 1 }
        (fileLog cfg (attempts s.opened).now) := by
  rcases openLogFile_cases cfg attempts s with
    ⟨t, -, -, hfree, -⟩ | ⟨t, -, -, -, hfree, -⟩ | ⟨-, -, hopen⟩
  · exact absurd hstuck (hfree hsize)
  · exact absurd hstuck (hfree hsize)
  · rw [hopen, setLogDevice, if_pos hdebug]

/-- In a debug build the file is tried again until it is not stuck. -/
theorem returns_of_debug (hdebug : cfg.debug = true) (k : ℕ) {s : State} {log : Log} (hs : Sane s)
    (hfree : ¬Stuck cfg (attempts (s.opened + k))) :
    ∃ depth t, addLogLocked cfg attempts inHandler depth s log = some t ∧
      t.output ≠ .unopened := by
  induction k generalizing s log with
  | zero => exact returns_of_free hs fun _ => hfree
  | succ k ih =>
    by_cases hstuck : Rotating s ∧ Stuck cfg (attempts s.opened)
    · obtain ⟨hrot, hstuck⟩ := hstuck
      have hfree' : ¬Stuck cfg (attempts (s.opened + 1 + k)) := by
        rwa [Nat.add_assoc, Nat.add_comm 1 k]
      obtain ⟨depth, t, ht, hne⟩ := @ih
        { s with output := .unopened, opened := s.opened + 1 }
        (fileLog cfg (attempts s.opened).now) (fun _ => hrot.2) hfree'
      exact ⟨depth + 1, addLogLocked_of_opened hrot hne
        ((openLogFile_stuck hdebug hrot.2 hstuck _).trans ht)⟩
    · exact returns_of_free hs fun hrot hs => hstuck ⟨hrot, hs⟩

/-- Where the file stays stuck, no call of a debug build comes back. -/
theorem not_returns_of_stuck (hdebug : cfg.debug = true) (hrot : Rotating s)
    (hstuck : ∀ i, s.opened ≤ i → Stuck cfg (attempts i)) (depth : ℕ) :
    addLogLocked cfg attempts inHandler depth s log = none := by
  induction depth generalizing s log with
  | zero => rfl
  | succ depth ih =>
    have hnested := @ih { s with output := .unopened, opened := s.opened + 1 }
      (fileLog cfg (attempts s.opened).now) ⟨nofun, hrot.2⟩
      (fun i hi => hstuck i (Nat.le_of_succ_le hi))
    rw [addLogLocked_of_rotating hrot,
      openLogFile_stuck hdebug hrot.2 (hstuck _ (Nat.le_refl _)), hnested]
    rfl

/-- A release build that is stuck writes to a device that is not open. -/
theorem addLogLocked_release (hdebug : cfg.debug = false) (hrot : Rotating s)
    (hstuck : Stuck cfg (attempts s.opened)) :
    addLogLocked cfg attempts inHandler (depth + 1) s log =
      if blocks cfg inHandler then none
      else some
        { s with
          output := .unopened
          opened := s.opened + 1
          logEntryAdded := s.logEntryAdded ++ [prettyOutput log] } := by
  rcases openLogFile_cases cfg attempts s with
    ⟨t, -, -, hfree, -⟩ | ⟨t, -, -, -, hfree, -⟩ | ⟨-, -, hopen⟩
  · exact absurd hstuck (hfree hrot.2)
  · exact absurd hstuck (hfree hrot.2)
  · rw [addLogLocked_of_rotating hrot, hopen, setLogDevice_release hdebug]
    dsimp only [Option.bind_eq_bind, Option.bind_some, writeEntry]
    split <;> rfl

/-- In a debug build a call returns unless the file is too big and stuck for ever. -/
theorem returns_debug_iff (hdebug : cfg.debug = true) (hs : Sane s) :
    (∃ depth t, addLogLocked cfg attempts inHandler depth s log = some t) ↔
      (Rotating s → ∃ i, s.opened ≤ i ∧ ¬Stuck cfg (attempts i)) := by
  constructor
  · rintro ⟨depth, t, ht⟩ hrot
    by_contra hnone
    have hstuck : ∀ i, s.opened ≤ i → Stuck cfg (attempts i) := fun i hi => by
      by_contra hfree
      exact hnone ⟨i, hi, hfree⟩
    rw [not_returns_of_stuck hdebug hrot hstuck] at ht
    cases ht
  · intro h
    by_cases hrot : Rotating s
    · obtain ⟨i, hi, hfree⟩ := h hrot
      obtain ⟨k, rfl⟩ := Nat.exists_eq_add_of_le hi
      obtain ⟨depth, t, ht, -⟩ := @returns_of_debug cfg attempts inHandler hdebug k s log hs hfree
      exact ⟨depth, t, ht⟩
    · obtain ⟨depth, t, ht, -⟩ := @returns_of_free cfg attempts s log inHandler hs
        fun hrot' => absurd hrot' hrot
      exact ⟨depth, t, ht⟩

/-- In a release build it returns unless it waits for its own mutex. -/
theorem returns_release_iff (hdebug : cfg.debug = false) (hs : Sane s) :
    (∃ depth t, addLogLocked cfg attempts inHandler depth s log = some t) ↔
      (Rotating s → Stuck cfg (attempts s.opened) → blocks cfg inHandler = false) := by
  by_cases hstuck : Rotating s ∧ Stuck cfg (attempts s.opened)
  · obtain ⟨hrot, hstuck⟩ := hstuck
    cases hblocks : blocks cfg inHandler with
    | false =>
      refine iff_of_true ⟨1, ?_⟩ fun _ _ => rfl
      rw [addLogLocked_release hdebug hrot hstuck, hblocks]
      exact ⟨_, rfl⟩
    | true =>
      refine iff_of_false ?_ fun h => absurd (h hrot hstuck) nofun
      rintro ⟨depth, t, ht⟩
      cases depth with
      | zero => cases ht
      | succ depth =>
        rw [addLogLocked_release hdebug hrot hstuck, hblocks] at ht
        cases ht
  · refine iff_of_true ?_ fun hrot hs => absurd ⟨hrot, hs⟩ hstuck
    obtain ⟨depth, t, ht, -⟩ := @returns_of_free cfg attempts s log inHandler hs
      fun hrot hs => hstuck ⟨hrot, hs⟩
    exact ⟨depth, t, ht⟩

/-- **Which calls return.** -/
theorem returns_iff (hs : Sane s) :
    (∃ depth t, addLogLocked cfg attempts inHandler depth s log = some t) ↔
      (Rotating s → Escapes cfg attempts inHandler s) := by
  cases hdebug : cfg.debug with
  | true => rw [returns_debug_iff hdebug hs, Escapes, if_pos hdebug]
  | false =>
    rw [returns_release_iff hdebug hs, Escapes, if_neg (by rw [hdebug]; exact Bool.false_ne_true)]

/-! ## What a call leaves -/

theorem writeEntry_eq_some {buffer : Bytes} (h : writeEntry cfg inHandler s buffer = some t) :
    t.opened = s.opened ∧ t.output = s.output ∧ (s.output = .unopened → t = s) := by
  rw [writeEntry] at h
  cases hout : s.output with
  | null =>
    rw [hout] at h
    obtain rfl : s = t := Option.some.inj h
    exact ⟨rfl, hout, nofun⟩
  | unopened =>
    rw [hout] at h
    dsimp only at h
    split at h
    · cases h
    · obtain rfl : s = t := Option.some.inj h
      exact ⟨rfl, hout, fun _ => rfl⟩
  | opened =>
    rw [hout] at h
    obtain rfl := Option.some.inj h
    exact ⟨rfl, rfl, nofun⟩

/-- A result comes from a write, after `openLogFile` where the file is too big. -/
theorem addLogLocked_eq_some (h : addLogLocked cfg attempts inHandler (depth + 1) s log = some s') :
    ∃ t u, (Rotating s →
        openLogFile cfg attempts (addLogLocked cfg attempts inHandler depth) s = some t) ∧
      (¬Rotating s → t = s) ∧ writeEntry cfg inHandler t (prettyOutput log) = some u ∧
      s' = { u with logEntryAdded := u.logEntryAdded ++ [prettyOutput log] } := by
  by_cases hrot : Rotating s
  · rw [addLogLocked_of_rotating hrot, Option.bind_eq_bind, Option.bind_eq_some_iff] at h
    obtain ⟨t, ht, h⟩ := h
    obtain ⟨u, hu, h⟩ := Option.bind_eq_some_iff.mp h
    exact ⟨t, u, fun _ => ht, fun hnot => absurd hrot hnot, hu, (Option.some.inj h).symm⟩
  · rw [addLogLocked_of_not_rotating hrot, Option.bind_eq_bind, Option.bind_eq_some_iff] at h
    obtain ⟨u, hu, h⟩ := h
    exact ⟨s, u, fun hyes => absurd hyes hrot, fun _ => rfl, hu, (Option.some.inj h).symm⟩

/-- What a call keeps: a device that is not open has a file that is too big, and each call of
`openLogFile` is counted. -/
structure Advances (s s' : State) : Prop where
  sane : Sane s'
  le : s.opened ≤ s'.opened
  lt : Rotating s → s.opened < s'.opened

theorem openLogFile_sane
    (ih : ∀ s log s', Sane s → addLogLocked cfg attempts inHandler depth s log = some s' →
      Advances s s')
    (h : openLogFile cfg attempts (addLogLocked cfg attempts inHandler depth) s = some t) :
    Sane t ∧ s.opened < t.opened := by
  have hset : ∀ u now, Sane u → u.opened = s.opened + 1 →
      setLogDevice cfg (addLogLocked cfg attempts inHandler depth) now u = some t →
      Sane t ∧ s.opened < t.opened := by
    intro u now hu hopened hdevice
    rw [setLogDevice] at hdevice
    split at hdevice
    · obtain ⟨hsane, hle, -⟩ := ih u _ t hu hdevice
      exact ⟨hsane, by omega⟩
    · obtain rfl := Option.some.inj hdevice
      exact ⟨hu, by omega⟩
  rcases openLogFile_cases cfg attempts s with
    ⟨u, hout, hopened, -, hopen⟩ | ⟨u, hout, -, hopened, -, hopen⟩ | ⟨hsize, -, hopen⟩
  · obtain rfl : u = t := Option.some.inj ((hopen _).symm.trans h)
    exact ⟨fun hnot => absurd (hout.symm.trans hnot) nofun, by omega⟩
  · exact hset u _ (fun hnot => absurd (hout.symm.trans hnot) nofun) hopened
      ((hopen _).symm.trans h)
  · refine hset _ _ ?_ rfl ((hopen _).symm.trans h)
    exact fun _ => hsize

theorem addLogLocked_advances (hs : Sane s)
    (h : addLogLocked cfg attempts inHandler depth s log = some s') : Advances s s' := by
  induction depth generalizing s log s' with
  | zero => cases h
  | succ depth ih =>
    obtain ⟨t, u, hopen, hsame, hwrite, rfl⟩ := addLogLocked_eq_some h
    obtain ⟨hopened, hout, hunopened⟩ := writeEntry_eq_some hwrite
    have hsane : ∀ hst : Sane t, Sane u := fun hst hnot => by
      have htout : t.output = .unopened := hout.symm.trans hnot
      rw [hunopened htout]
      exact hst htout
    by_cases hrot : Rotating s
    · obtain ⟨ht, hlt⟩ := openLogFile_sane (fun _ _ _ => ih) (hopen hrot)
      refine ⟨hsane ht, ?_, fun _ => ?_⟩
      · exact (Nat.le_of_lt hlt).trans (Nat.le_of_eq hopened.symm)
      · exact hlt.trans_le (Nat.le_of_eq hopened.symm)
    · obtain rfl := hsame hrot
      exact ⟨hsane hs, Nat.le_of_eq hopened.symm, fun hyes => absurd hyes hrot⟩

theorem construct_advances (h : construct cfg attempts depth old = some s) :
    Sane s ∧ 0 < s.opened :=
  openLogFile_sane (fun _ _ _ hs h => addLogLocked_advances hs h) h

theorem Reached.sane {logs : List Log} (h : Reached cfg attempts old logs s) : Sane s := by
  induction h with
  | construct h => exact (construct_advances h).1
  | addLog _ h ih => exact (addLogLocked_advances ih h).sane

/-- The constructor returns, too, unless a debug build is stuck with the file. -/
theorem construct_returns_iff (cfg : Config) (attempts : ℕ → Attempt) (old : Bytes) :
    (∃ depth s, construct cfg attempts depth old = some s) ↔
      (cfg.debug = true → logMaxFileSize ≤ old.length → ∃ i, ¬Stuck cfg (attempts i)) := by
  constructor
  · rintro ⟨depth, t, ht⟩ hdebug hsize
    by_contra hnone
    have hstuck : ∀ i, Stuck cfg (attempts i) := fun i => by
      by_contra hfree
      exact hnone ⟨i, hfree⟩
    have hopen := @openLogFile_stuck cfg attempts { file := some old } hdebug hsize (hstuck 0)
      (addLogLocked cfg attempts false depth)
    have hrot : Rotating { file := some old, output := .unopened, opened := 1 } := ⟨nofun, hsize⟩
    have hnone := @not_returns_of_stuck cfg attempts _ (fileLog cfg (attempts 0).now) false hdebug
      hrot (fun i _ => hstuck i) depth
    rw [construct, hopen, hnone] at ht
    cases ht
  · intro h
    rcases openLogFile_cases cfg attempts { file := some old } with
      ⟨t, -, -, -, hopen⟩ | ⟨t, hout, hsize, -, -, hopen⟩ | ⟨hsize, hstuck, hopen⟩
    · exact ⟨0, t, hopen _⟩
    · obtain ⟨u, hu, -⟩ := @setLogDevice_opened cfg attempts t 0 false hout hsize (attempts 0).now
      exact ⟨1, u, (hopen _).trans hu⟩
    · cases hdebug : cfg.debug with
      | true =>
        obtain ⟨i, hfree⟩ := h hdebug hsize
        cases i with
        | zero => exact absurd hstuck hfree
        | succ k =>
          rw [Nat.add_comm] at hfree
          obtain ⟨depth, t, ht, -⟩ := @returns_of_debug cfg attempts false hdebug k
            { file := some old, output := .unopened, opened := 1 } (fileLog cfg (attempts 0).now)
            (fun _ => hsize) hfree
          exact ⟨depth, t, (openLogFile_stuck hdebug hsize hstuck _).trans ht⟩
      | false =>
        exact ⟨0, _, (hopen _).trans (setLogDevice_release hdebug _ _ _)⟩

/-! ## While all goes well -/

/-- What a debug build writes when it has set a device. -/
def fileEntries (cfg : Config) (now : QDateTime) : List Bytes :=
  if cfg.debug then [prettyOutput (fileLog cfg now)] else []

theorem fileEntries_debug (hdebug : cfg.debug = true) (now : QDateTime) :
    fileEntries cfg now = [prettyOutput (fileLog cfg now)] := if_pos hdebug

theorem fileEntries_release (hdebug : cfg.debug = false) (now : QDateTime) :
    fileEntries cfg now = [] := if_neg (by rw [hdebug]; exact Bool.false_ne_true)

theorem length_digits (count n : ℕ) : (digits count n).length = count := by
  induction count generalizing n with
  | zero => rfl
  | succ count ih => rw [digits, List.length_append, ih, List.length_singleton]

theorem getLast?_prettyOutput (log : Log) : (prettyOutput log).getLast? = some 10 := by
  rw [prettyOutput, List.flatMap_append, List.getLast?_append]
  rfl

theorem length_toString (t : QDateTime) : t.toString.length = 23 := by
  simp [QDateTime.toString, length_digits]

theorem length_encode_le (l : List Char) :
    (l.flatMap String.utf8EncodeChar).length ≤ 4 * l.length := by
  induction l with
  | nil => exact Nat.le_refl 0
  | cons c l ih =>
    have hc := Char.utf8Size_le_four c
    rw [← String.length_utf8EncodeChar] at hc
    rw [List.flatMap_cons, List.length_append, List.length_cons]
    omega

theorem entry_fileLog (cfg : Config) (now : QDateTime) :
    entry (fileLog cfg now) =
      '[' :: now.toString ++ "] (LogHandler) Debug: Log file: ".toList ++ cfg.filename := by
  simp [entry, fileLog, LogLevel.name]

theorem length_fileEntries_lt (cfg : Config) (now : QDateTime) :
    logMaxFileSize / 2 + (fileEntries cfg now).flatten.length < logMaxFileSize := by
  have hentry : (prettyOutput (fileLog cfg now)).length < 5000 := by
    have hhead := length_encode_le
      ('[' :: now.toString ++ "] (LogHandler) Debug: Log file: ".toList)
    have hshort := cfg.short
    have hlength :
        ('[' :: now.toString ++ "] (LogHandler) Debug: Log file: ".toList).length = 56 := by
      rw [List.length_append, List.length_cons, length_toString]
      rfl
    have hend : (['\n'].flatMap String.utf8EncodeChar).length = 1 := rfl
    rw [prettyOutput, entry_fileLog, List.flatMap_append, List.flatMap_append, List.length_append,
      List.length_append]
    omega
  have hmax : logMaxFileSize / 2 + 5000 < logMaxFileSize := by
    unfold logMaxFileSize
    omega
  rw [fileEntries]
  split
  · rw [List.flatten_singleton]
    omega
  · have := half_lt
    simpa using this

/-- The content of a file once it is opened. -/
def cut (content : Bytes) : Bytes :=
  if content.length < logMaxFileSize then content else readText (LogHandler.tail content)

/-- The state once `openLogFile` has succeeded. -/
def reopened (cfg : Config) (attempts : ℕ → Attempt) (s : State) : State :=
  { file := some (cut (s.file.getD []) ++ (fileEntries cfg (attempts s.opened).now).flatten)
    output := .opened
    opened := s.opened + 1
    logEntryAdded := s.logEntryAdded ++ fileEntries cfg (attempts s.opened).now }

theorem size_cut_lt (content : Bytes) : (cut content).length < logMaxFileSize := by
  rw [cut]
  split
  · assumption
  · exact Nat.lt_of_le_of_lt ((length_readText_le _).trans (length_tail_le content)) half_lt

/-- A file that was too big has room again. -/
theorem length_reopened_lt {content : Bytes} (hsize : logMaxFileSize ≤ content.length)
    (cfg : Config) (now : QDateTime) :
    (cut content ++ (fileEntries cfg now).flatten).length < logMaxFileSize := by
  have hentries := length_fileEntries_lt cfg now
  have hread := length_readText_le (LogHandler.tail content)
  have htail := length_tail_le content
  rw [List.length_append, cut, if_neg (Nat.not_lt.mpr hsize)]
  omega

theorem openLogFile_of_succeeds (hs : Succeeds cfg (attempts s.opened))
    (f : State → Log → Option State) :
    openLogFile cfg attempts f s = setLogDevice cfg f (attempts s.opened).now
      { s with
        file := some (cut (s.file.getD [])), output := .opened, opened := s.opened + 1 } := by
  obtain ⟨hdir, hrename, happend, hread, hnew⟩ := hs
  by_cases hsmall : (s.file.getD []).length < logMaxFileSize
  · simp [openLogFile, State.size, cut, hdir, happend, hsmall]
  · simp [openLogFile, State.size, cut, hdir, hrename, hread, hnew, hsmall]

theorem addLogLocked_opened (hout : s.output = .opened) (hrot : ¬Rotating s) :
    addLogLocked cfg attempts inHandler (depth + 1) s log =
      some { s with
        file := some (s.file.getD [] ++ prettyOutput log)
        logEntryAdded := s.logEntryAdded ++ [prettyOutput log] } := by
  rw [addLogLocked_of_not_rotating hrot, writeEntry, hout]
  rfl

theorem openLogFile_succeeds (hs : Succeeds cfg (attempts s.opened))
    (h : openLogFile cfg attempts (addLogLocked cfg attempts inHandler depth) s = some t) :
    t = reopened cfg attempts s := by
  rw [openLogFile_of_succeeds hs] at h
  cases hdebug : cfg.debug with
  | true =>
    rw [setLogDevice, if_pos hdebug] at h
    cases depth with
    | zero => cases h
    | succ depth =>
      have hrot : ¬Rotating { s with
          file := some (cut (s.file.getD [])), output := .opened, opened := s.opened + 1 } :=
        not_rotating_of_size (size_cut_lt _)
      rw [addLogLocked_opened rfl hrot] at h
      rw [← Option.some.inj h, reopened, fileEntries_debug hdebug, List.flatten_singleton]
      rfl
  | false =>
    rw [setLogDevice_release hdebug] at h
    rw [← Option.some.inj h, reopened, fileEntries_release hdebug, List.flatten_nil,
      List.append_nil, List.append_nil]

/-- A call while all goes well: the entry is written behind what is kept. -/
theorem addLogLocked_succeeds (hout : s.output = .opened)
    (hs : Rotating s → Succeeds cfg (attempts s.opened))
    (h : addLogLocked cfg attempts inHandler depth s log = some s') :
    ∃ t, (Rotating s → t = reopened cfg attempts s) ∧ (¬Rotating s → t = s) ∧
      s' = { t with
        file := some (t.file.getD [] ++ prettyOutput log)
        logEntryAdded := t.logEntryAdded ++ [prettyOutput log] } := by
  cases depth with
  | zero => cases h
  | succ depth =>
    obtain ⟨t, u, hopen, hsame, hwrite, rfl⟩ := addLogLocked_eq_some h
    have htout : t.output = .opened := by
      by_cases hrot : Rotating s
      · rw [openLogFile_succeeds (hs hrot) (hopen hrot)]
        rfl
      · rw [hsame hrot, hout]
    refine ⟨t, fun hrot => openLogFile_succeeds (hs hrot) (hopen hrot), hsame, ?_⟩
    rw [writeEntry, htout] at hwrite
    rw [← Option.some.inj hwrite, htout]

/-! ## The tail -/

/-- The handler of a run that goes well: the device is open, and a file that is too big ends a
line. -/
structure Open (s : State) (content : Bytes) : Prop where
  output : s.output = .opened
  file : s.file = some content
  line : content.getLast? = some 10 ∨ content.length < logMaxFileSize

theorem Open.rotating_iff {content : Bytes} (h : Open s content) :
    Rotating s ↔ logMaxFileSize ≤ content.length := by
  rw [Rotating, State.size, h.file, h.output]
  exact ⟨fun hrot => hrot.2, fun hsize => ⟨nofun, hsize⟩⟩

theorem drop_lt {content : Bytes} (hsize : logMaxFileSize ≤ content.length) :
    content.length - logMaxFileSize / 2 < content.length := by
  have hpos : 0 < logMaxFileSize / 2 := by
    unfold logMaxFileSize
    omega
  have := half_lt
  omega

theorem isTail_readText_iff {cutOff kept : Bytes} (h : EndsLine 10 cutOff) :
    IsTail 10 (readText kept) (cutOff ++ kept) ↔ 13 ∉ kept := by
  rw [readText, isTail_filter_iff _ rfl, and_iff_right h]
  constructor
  · intro hall hmem
    exact absurd (hall 13 hmem) (by decide)
  · intro hnot b hb
    rw [decide_eq_true_iff]
    rintro rfl
    exact hnot hb

/-- What is kept of a file that is too big and ends a line, as a tail of all that was written. -/
theorem isTail_cut_iff {content all : Bytes} (hsize : logMaxFileSize ≤ content.length)
    (hline : content.getLast? = some 10) (htail : IsTail 10 content all) :
    IsTail 10 (cut content) all ↔ 13 ∉ LogHandler.tail content := by
  obtain ⟨q, rfl, hq⟩ := htail
  obtain ⟨p, hp, hlast⟩ := exists_afterLine_drop (mem_drop_of_getLast? (drop_lt hsize) hline)
  have hall : q ++ content = (q ++ p) ++ LogHandler.tail content := by
    rw [List.append_assoc, LogHandler.tail, ← hp]
  rw [cut, if_neg (Nat.not_lt.mpr hsize), hall]
  exact isTail_readText_iff (hq.append (.inr hlast))

/-- What is kept of the old file, which need not end a line. -/
theorem isTail_cut_self_iff {content : Bytes} (hsize : logMaxFileSize ≤ content.length) :
    IsTail 10 (cut content) content ↔
      10 ∈ content.drop (content.length - logMaxFileSize / 2) ∧
        13 ∉ LogHandler.tail content := by
  rw [cut, if_neg (Nat.not_lt.mpr hsize)]
  by_cases hmem : 10 ∈ content.drop (content.length - logMaxFileSize / 2)
  · obtain ⟨p, hp, hlast⟩ := exists_afterLine_drop hmem
    have hkept := @isTail_readText_iff p (LogHandler.tail content) (.inr hlast)
    rw [and_iff_right hmem, ← hkept, LogHandler.tail, ← hp]
  · have hnone : LogHandler.tail content = [] := afterLine_of_notMem hmem
    refine iff_of_false ?_ fun h => hmem h.1
    rw [hnone, readText, List.filter_nil, isTail_nil_iff]
    rintro (hnil | hlast)
    · have hpos := drop_lt hsize
      rw [hnil] at hpos
      exact absurd hpos (Nat.not_lt_zero _)
    · exact hmem (mem_drop_of_getLast? (drop_lt hsize) hlast)

/-- The handler of a run that goes well: the file is the tail of all that was written. -/
def Sound (old : Bytes) (s : State) : Prop :=
  ∃ content, Open s content ∧ IsTail 10 content (old ++ s.logEntryAdded.flatten)

theorem KeepsTail.sound (h : KeepsTail old s log) (hout : s.output = .opened) : Sound old s := by
  obtain ⟨content, hfile, -, htail⟩ := h
  refine ⟨_, ⟨hout, hfile, .inl ?_⟩, htail⟩
  rw [List.getLast?_append, getLast?_prettyOutput, Option.some_or]

theorem keepsTail_iff {content : Bytes} (hfile : t.file = some content)
    (hsize : content.length < logMaxFileSize)
    (hs' : s' = { t with
      file := some (t.file.getD [] ++ prettyOutput log)
      logEntryAdded := t.logEntryAdded ++ [prettyOutput log] }) :
    KeepsTail old s' log ↔ IsTail 10 content (old ++ t.logEntryAdded.flatten) := by
  have hnow : s'.file = some (content ++ prettyOutput log) := by rw [hs', hfile, Option.getD_some]
  have hall : old ++ s'.logEntryAdded.flatten =
      (old ++ t.logEntryAdded.flatten) ++ prettyOutput log := by
    rw [hs', List.flatten_concat, List.append_assoc]
  rw [KeepsTail, hall]
  constructor
  · rintro ⟨content', hfile', -, htail⟩
    rw [← Option.some.inj (hnow.symm.trans hfile')] at htail
    exact (isTail_append_iff _).mp htail
  · exact fun htail => ⟨content, hnow, hsize, (isTail_append_iff _).mpr htail⟩

theorem keepsTail_of_small {content : Bytes} (ho : Open s content)
    (hsize : content.length < logMaxFileSize)
    (h : addLogLocked cfg attempts inHandler depth s log = some s') :
    s'.output = .opened ∧ s'.opened = s.opened ∧
      (KeepsTail old s' log ↔ IsTail 10 content (old ++ s.logEntryAdded.flatten)) := by
  have hrot : ¬Rotating s := fun hrot => Nat.not_le.mpr hsize (ho.rotating_iff.mp hrot)
  obtain ⟨t, -, hsame, hs'⟩ := addLogLocked_succeeds ho.output (fun hyes => absurd hyes hrot) h
  obtain rfl := hsame hrot
  exact ⟨by rw [hs']; exact ho.output, by rw [hs'], keepsTail_iff ho.file hsize hs'⟩

/-- **One call while all goes well.** The file stays a tail just when what is kept of it has no
carriage returns. -/
theorem Sound.addLog (hs : Sound old s) (hsucceeds : Rotating s → Succeeds cfg (attempts s.opened))
    (h : addLogLocked cfg attempts inHandler depth s log = some s') :
    s'.output = .opened ∧ s'.opened ≤ s.opened + 1 ∧
      (KeepsTail old s' log ↔ (Rotating s → 13 ∉ LogHandler.tail (s.file.getD []))) := by
  obtain ⟨content, ho, htail⟩ := hs
  by_cases hsize : content.length < logMaxFileSize
  · have hrot : ¬Rotating s := fun hrot => Nat.not_le.mpr hsize (ho.rotating_iff.mp hrot)
    obtain ⟨hout, hopened, hiff⟩ := @keepsTail_of_small cfg attempts s s' log depth inHandler old
      content ho hsize h
    exact ⟨hout, by omega, iff_of_true (hiff.mpr htail) fun hyes => absurd hyes hrot⟩
  · have hbig := Nat.le_of_not_lt hsize
    have hrot : Rotating s := ho.rotating_iff.mpr hbig
    have hline := ho.line.resolve_right hsize
    obtain ⟨t, hopen, -, hs'⟩ := addLogLocked_succeeds ho.output hsucceeds h
    obtain rfl := hopen hrot
    have hcontent : s.file.getD [] = content := by rw [ho.file, Option.getD_some]
    have hlength := length_reopened_lt hbig cfg (attempts s.opened).now
    refine ⟨by rw [hs']; rfl, by rw [hs', reopened], ?_⟩
    rw [keepsTail_iff (by rw [reopened, hcontent]) hlength hs', imp_iff_right hrot, hcontent,
      ← isTail_cut_iff hbig hline htail, reopened, List.flatten_append, ← List.append_assoc,
      isTail_append_iff]

/-! ## The start -/

theorem construct_succeeds (hs : Succeeds cfg (attempts 0))
    (h : construct cfg attempts depth old = some s) :
    s = reopened cfg attempts { file := some old } := openLogFile_succeeds hs h

theorem getLast?_fileEntries (hdebug : cfg.debug = true) (now : QDateTime) :
    (fileEntries cfg now).flatten.getLast? = some 10 := by
  rw [fileEntries_debug hdebug, List.flatten_singleton, getLast?_prettyOutput]

theorem sound_construct_iff (hs : Succeeds cfg (attempts 0))
    (h : construct cfg attempts depth old = some s) :
    ∃ content, Open s content ∧
      (logMaxFileSize ≤ old.length → content.length < logMaxFileSize) ∧
      (IsTail 10 content (old ++ s.logEntryAdded.flatten) ↔ (logMaxFileSize ≤ old.length →
        10 ∈ old.drop (old.length - logMaxFileSize / 2) ∧ 13 ∉ LogHandler.tail old)) := by
  obtain rfl := construct_succeeds hs h
  refine ⟨cut old ++ (fileEntries cfg (attempts 0).now).flatten, ⟨rfl, rfl, ?_⟩,
    fun hsize => length_reopened_lt hsize cfg _, ?_⟩
  · cases hdebug : cfg.debug with
    | true => exact .inl (by rw [List.getLast?_append, getLast?_fileEntries hdebug, Option.some_or])
    | false =>
      right
      rw [fileEntries_release hdebug, List.flatten_nil, List.append_nil]
      exact size_cut_lt old
  · show IsTail 10 _ (old ++ ([] ++ fileEntries cfg (attempts 0).now).flatten) ↔ _
    rw [List.nil_append, isTail_append_iff]
    by_cases hsize : logMaxFileSize ≤ old.length
    · rw [isTail_cut_self_iff hsize, imp_iff_right hsize]
    · rw [cut, if_pos (Nat.lt_of_not_le hsize)]
      exact iff_of_true (IsTail.refl old) fun hyes => absurd hyes hsize

/-! ## Every run -/

variable {logs before after : List Log}

theorem Reached.exists_before (h : Reached cfg attempts old (before ++ [log]) s') :
    ∃ depth s, Reached cfg attempts old before s ∧
      LogHandler.addLog cfg attempts depth s log = some s' := by
  generalize hlogs : before ++ [log] = logs at h
  cases h with
  | construct h => exact absurd hlogs (List.append_ne_nil_of_right_ne_nil _ nofun)
  | addLog hs h =>
    obtain ⟨rfl, hlog⟩ := List.append_inj' hlogs rfl
    obtain rfl := List.singleton_injective hlog
    exact ⟨_, _, hs, h⟩

theorem succeeds_of_advances (h : Advances s s')
    (hs : ∀ i < s'.opened, Succeeds cfg (attempts i)) :
    (∀ i < s.opened, Succeeds cfg (attempts i)) ∧
      (Rotating s → ∀ i ≤ s.opened, Succeeds cfg (attempts i)) :=
  ⟨fun i hi => hs i (hi.trans_le h.le), fun hrot i hi => hs i (hi.trans_lt (h.lt hrot))⟩

/-- In a run that meets the condition, and goes well, the file stays the tail. -/
theorem Guarded.sound (hg : Guarded cfg attempts old logs)
    (hreached : Reached cfg attempts old before s) (hlogs : logs = before ++ log :: after)
    (hs : ∀ i < s.opened, Succeeds cfg (attempts i)) : Sound old s := by
  induction hreached generalizing log after with
  | construct h =>
    have hfirst := hs 0 (construct_advances h).2
    obtain ⟨content, ho, -, hiff⟩ := sound_construct_iff hfirst h
    refine ⟨content, ho, hiff.mpr fun hsize => hg.startKeeps ?_ hfirst hsize⟩
    rw [hlogs]
    exact nofun
  | @addLog before log' depth s s' hbefore h ih =>
    have hadvances := addLogLocked_advances hbefore.sane h
    obtain ⟨hold, hnext⟩ := succeeds_of_advances hadvances hs
    have hlogs' : logs = before ++ log' :: (log :: after) := by
      rw [hlogs, List.append_assoc]
      rfl
    obtain ⟨hout, -, hkeeps⟩ :=
      (ih hlogs' hold).addLog (fun hrot => hnext hrot _ (Nat.le_refl _)) h
    refine (hkeeps.mpr fun hrot => ?_).sound hout
    exact hg.keeps before log' _ s hlogs' hbefore hrot (hnext hrot)

theorem Rotates.sound (hr : Rotates cfg attempts old logs)
    (hreached : Reached cfg attempts old before s) (hlogs : logs = before ++ log :: after)
    (hs : ∀ i < s.opened, Succeeds cfg (attempts i)) : Sound old s := by
  induction hreached generalizing log after with
  | @construct depth s h =>
    obtain ⟨content, ho, hshort, hiff⟩ := sound_construct_iff (hs 0 (construct_advances h).2) h
    refine ⟨content, ho, hiff.mpr fun hsize => ?_⟩
    -- the next call finds a short file and writes behind it
    obtain ⟨depth', s', h'⟩ := hr.returns [] log after s hlogs (.construct h)
    obtain ⟨-, hopened, hkeeps⟩ := keepsTail_of_small ho (hshort hsize) h'
    have htail := hr.tail [] log after s' hlogs (.addLog (.construct h) h')
      fun i hi => hs i (hopened ▸ hi)
    exact hiff.mp (hkeeps.mp htail) hsize
  | @addLog before log' depth s s' hbefore h ih =>
    obtain ⟨hold, hnext⟩ := succeeds_of_advances (addLogLocked_advances hbefore.sane h) hs
    have hlogs' : logs = before ++ log' :: (log :: after) := by
      rw [hlogs, List.append_assoc]
      rfl
    obtain ⟨hout, -⟩ := (ih hlogs' hold).addLog (fun hrot => hnext hrot _ (Nat.le_refl _)) h
    exact (hr.tail before log' _ s' hlogs' (.addLog hbefore h) hs).sound hout

/-- **The log file.** Whatever the old file, the entries and the failures: every call returns, and
the file is the tail of all that was written while nothing fails, just when a file that is too big
can be renamed in the end and has no carriage returns in what is kept of it. -/
theorem rotates_iff (cfg : Config) (attempts : ℕ → Attempt) (old : Bytes) (logs : List Log) :
    Rotates cfg attempts old logs ↔ Guarded cfg attempts old logs := by
  constructor
  · intro hr
    refine ⟨(construct_returns_iff cfg attempts old).mp hr.constructed, fun hne hfirst => ?_,
      fun before log after s hlogs hreached => ?_,
      fun before log after s hlogs hreached hrot hs => ?_⟩
    · obtain ⟨log, after, rfl⟩ := List.exists_cons_of_ne_nil hne
      obtain ⟨depth, s, h⟩ := hr.constructed
      obtain ⟨content, ho, -, hiff⟩ := sound_construct_iff hfirst h
      have hopened : s.opened = 1 := by rw [construct_succeeds hfirst h]; rfl
      obtain ⟨content', ho', htail⟩ := hr.sound (.construct h) rfl fun i hi => by
        obtain rfl : i = 0 := by omega
        exact hfirst
      obtain rfl : content = content' := Option.some.inj (ho.file.symm.trans ho'.file)
      exact hiff.mp htail
    · exact (returns_iff hreached.sane).mp (hr.returns before log after s hlogs hreached)
    · obtain ⟨depth, s', h⟩ := hr.returns before log after s hlogs hreached
      have hsound := hr.sound hreached hlogs fun i hi => hs i (Nat.le_of_lt hi)
      obtain ⟨-, hopened, hkeeps⟩ := hsound.addLog (fun _ => hs _ (Nat.le_refl _)) h
      have htail := hr.tail before log after s' hlogs (.addLog hreached h) fun i hi =>
        hs i (Nat.le_of_lt_succ (hi.trans_le hopened))
      exact hkeeps.mp htail hrot
  · intro hg
    refine ⟨(construct_returns_iff cfg attempts old).mpr hg.start,
      fun before log after s hlogs hreached => ?_,
      fun before log after s' hlogs hreached hs => ?_⟩
    · exact (returns_iff hreached.sane).mpr (hg.escapes before log after s hlogs hreached)
    · obtain ⟨depth, s, hbefore, h⟩ := hreached.exists_before
      obtain ⟨hold, hnext⟩ := succeeds_of_advances (addLogLocked_advances hbefore.sane h) hs
      have hsound := hg.sound hbefore hlogs hold
      obtain ⟨-, -, hkeeps⟩ := hsound.addLog (fun hrot => hnext hrot _ (Nat.le_refl _)) h
      exact hkeeps.mpr fun hrot => hg.keeps before log after s hlogs hbefore hrot (hnext hrot)

/-- A debug build of the application. -/
def debugBuild : Config where
  debug := true
  messageHandler := true
  directory := ["share", ".local"]
  filename := ".local/share/mozillavpn.log".toList
  short := by decide

/-- A backup that is there already keeps the file from being renamed. -/
def backupExists : Attempt where
  now := ⟨1, 1, 2025, 0, 0, 0, 0⟩
  dirExists := fun _ => true
  mkdir := fun _ => true
  rename := false
  openAppend := true
  openRead := true
  openNew := true

/-- With a file that is too big, the handler is never made. -/
theorem not_rotates_backupExists :
    ¬Rotates debugBuild (fun _ => backupExists) (List.replicate logMaxFileSize 10) [] := by
  intro h
  have hsize : logMaxFileSize ≤ (List.replicate logMaxFileSize (10 : UInt8)).length := by
    rw [List.length_replicate]
  obtain ⟨i, hfree⟩ := (construct_returns_iff _ _ _).mp h.constructed rfl hsize
  exact hfree ⟨rfl, rfl⟩

end WgDesktop.LogHandler
