import Mathlib.Data.Int.Notation
import Mathlib.Data.List.Perm.Basic
import WgDesktop.Lib.Runs

/-!
# Latency measurement

`ServerLatency` from `src/serverlatency.cpp`: a run pings the servers, a few at a time and each
again when it does not answer, and stores how long the answers take. The scores computed from the
latencies, the timers that begin a run and the signals to the user interface are left out.

A reply is known by a number of 16 bits, which begins at zero in every run, and it waits in the
event queue. The model keeps what the program does not: the run and the server of each ping, and
which ping a queued reply answers. A run whose replies are not mistaken for others keeps
`Consistent`, and is as `measured_run` says; `stale_reply` is a run in which one is.
-/

namespace WgDesktop

open Runs

def serverLatencyMaxParallel : ℕ := 8

def serverLatencyMaxRetries : ℕ := 2

/-- `SERVER_LATENCY_TIMEOUT`, in milliseconds. -/
def serverLatencyTimeout : ℕ := 5000

/-- `ServerPingRecord`. Distances are `double`s. -/
structure ServerPingRecord (δ : Type) where
  publicKey : List Char
  countryCode : List Char
  cityName : List Char
  timestamp : ℕ
  sequence : UInt16
  distance : δ
  retries : ℕ

/-- A city of the server list, and how far it is. -/
structure LatencyCity (δ : Type) where
  country : List Char
  name : List Char
  servers : List (List Char)
  distance : δ

/-- A ping that was sent. -/
structure Ping where
  run : ℕ
  publicKey : List Char
  sequence : UInt16
  timestamp : ℕ
  deriving DecidableEq, Repr

/-- A latency that was stored, in which run and for which reply. -/
structure StoredLatency where
  publicKey : List Char
  msec : ℤ
  run : Option ℕ
  origin : Ping
  deriving DecidableEq, Repr

/-- `ServerLatency` and its surroundings. A ping sender is known by the number of its run. -/
structure ServerLatency (δ : Type) where
  sequence : UInt16 := 0
  pingSender : Option ℕ := none
  pingSendQueue : List (ServerPingRecord δ) := []
  pingReplyList : List (ServerPingRecord δ) := []
  pingSendTotal : ℕ := 0
  latency : List Char → Option ℤ := fun _ => none
  sumLatencyMsec : ℤ := 0
  wantRefresh : Bool := false
  /-- The number of runs so far. -/
  runs : ℕ := 0
  /-- All pings, in the order in which they were sent. -/
  sent : List Ping := []
  /-- The event queue: the pings whose replies have arrived. -/
  replies : List Ping := []
  /-- All latencies that were stored. -/
  stored : List StoredLatency := []

namespace ServerLatency

variable {δ : Type}

/-- The ping of a record. -/
def pingOf (run : ℕ) (record : ServerPingRecord δ) : Ping where
  run
  publicKey := record.publicKey
  sequence := record.sequence
  timestamp := record.timestamp

/-! ## The operations -/

/-- `sendPing`, to the address of the record's server. -/
def sendPing (run : ℕ) (record : ServerPingRecord δ) (s : ServerLatency δ) : ServerLatency δ :=
  { s with sent := s.sent ++ [pingOf run record] }

def stop (s : ServerLatency δ) : ServerLatency δ :=
  { s with pingSendQueue := [], pingReplyList := [], pingSendTotal := 0, pingSender := none }

def clear (s : ServerLatency δ) : ServerLatency δ :=
  { s with latency := fun _ => none, sumLatencyMsec := 0 }

def setLatency (pubkey : List Char) (msec : ℤ) (origin : Ping) (s : ServerLatency δ) :
    ServerLatency δ :=
  { s with
    sumLatencyMsec := s.sumLatencyMsec - (s.latency pubkey).getD 0 + msec
    latency := fun key => if key = pubkey then some msec else s.latency key
    stored := s.stored ++ [⟨pubkey, msec, s.pingSender, origin⟩] }

/-- One turn of the first loop of `maybeSendPings`, for a record that has timed out. -/
def retryTurn (run now : ℕ) (record : ServerPingRecord δ) (s : ServerLatency δ) :
    ServerLatency δ :=
  let s :=
    if record.retries < serverLatencyMaxRetries then
      let retry : ServerPingRecord δ :=
        { record with retries := record.retries + 1, sequence := s.sequence, timestamp := now }
      sendPing run retry
        { s with sequence := s.sequence + 1, pingReplyList := s.pingReplyList ++ [retry] }
    else s
  { s with pingReplyList := s.pingReplyList.tail }

/-- The records that have timed out. -/
def timedOut (now : ℕ) (s : ServerLatency δ) : ℕ :=
  s.pingReplyList.countP fun record => record.timestamp + serverLatencyTimeout ≤ now

theorem timedOut_retryTurn (run : ℕ) {now : ℕ} {record : ServerPingRecord δ} {s : ServerLatency δ}
    {rest : List (ServerPingRecord δ)} (h : s.pingReplyList = record :: rest)
    (hold : ¬ record.timestamp + serverLatencyTimeout > now) :
    timedOut now (retryTurn run now record s) < timedOut now s := by
  have hle : record.timestamp + serverLatencyTimeout ≤ now := by omega
  have hnew : ¬ now + serverLatencyTimeout ≤ now := by
    unfold serverLatencyTimeout
    omega
  unfold retryTurn timedOut sendPing
  split_ifs
  · simp [h, hle, hnew]
  · simp [h, hle]

/-- The first loop of `maybeSendPings`. -/
def retryTimedOut (run now : ℕ) (s : ServerLatency δ) : ServerLatency δ :=
  match h : s.pingReplyList with
  | [] => s
  | record :: _ =>
    if hold : record.timestamp + serverLatencyTimeout > now then s
    else
      have := timedOut_retryTurn run h hold
      retryTimedOut run now (retryTurn run now record s)
termination_by timedOut now s

/-- One turn of the second loop. -/
def sendTurn (run now : ℕ) (first : ServerPingRecord δ) (s : ServerLatency δ) : ServerLatency δ :=
  let record : ServerPingRecord δ :=
    { first with sequence := s.sequence, timestamp := now, retries := 0 }
  sendPing run record
    { s with
      pingSendQueue := s.pingSendQueue.tail
      sequence := s.sequence + 1
      pingReplyList := s.pingReplyList ++ [record] }

/-- The second loop of `maybeSendPings`. -/
def sendQueued (run now : ℕ) (s : ServerLatency δ) : ServerLatency δ :=
  match h : s.pingSendQueue with
  | [] => s
  | first :: _ =>
    if s.pingReplyList.length < serverLatencyMaxParallel then
      have : (sendTurn run now first s).pingSendQueue.length < s.pingSendQueue.length := by
        simp [sendTurn, sendPing, h]
      sendQueued run now (sendTurn run now first s)
    else s
termination_by s.pingSendQueue.length

def maybeSendPings (now : ℕ) (s : ServerLatency δ) : ServerLatency δ :=
  match s.pingSender with
  | none => s
  | some run =>
    let s := sendQueued run now (retryTimedOut run now s)
    if s.pingReplyList.isEmpty then stop s else s

section Start

variable (ge : δ → δ → Bool)

/-- The servers of a city stand in front of the first record that is as far. -/
def insertCity (queue : List (ServerPingRecord δ)) (city : LatencyCity δ) :
    List (ServerPingRecord δ) :=
  queue.takeWhile (fun record => !ge record.distance city.distance) ++
    city.servers.foldl (fun back pubkey =>
      { publicKey := pubkey
        countryCode := city.country
        cityName := city.name
        timestamp := 0
        sequence := 0
        distance := city.distance
        retries := 0 } :: back)
      (queue.dropWhile fun record => !ge record.distance city.distance)

/-- `start`, when the feature is there or not, the controller is off or not, and for the cities of
the server list. -/
def start (supported off : Bool) (cities : List (LatencyCity δ)) (now : ℕ) (s : ServerLatency δ) :
    ServerLatency δ :=
  if !supported then clear s
  else if !off then { s with wantRefresh := true }
  else
    match s.pingSender with
    | some _ => s
    | none =>
      let pingSendQueue := cities.foldl (insertCity ge) s.pingSendQueue
      maybeSendPings now
        { s with
          sequence := 0
          wantRefresh := false
          pingSender := some s.runs
          runs := s.runs + 1
          pingSendQueue
          pingSendTotal := pingSendQueue.length }

def refresh (supported off : Bool) (cities : List (LatencyCity δ)) (now : ℕ)
    (s : ServerLatency δ) : ServerLatency δ :=
  match s.pingSender with
  | some _ => s
  | none => start ge supported off cities now (clear s)

def stateChanged (supported off : Bool) (cities : List (LatencyCity δ)) (now : ℕ)
    (s : ServerLatency δ) : ServerLatency δ :=
  if !off then stop s
  else if s.wantRefresh then start ge supported off cities now s
  else s

end Start

/-- `recvPing` for the reply to a ping, of which it gets the number. -/
def recvPing (received now : ℕ) (ping : Ping) (s : ServerLatency δ) : ServerLatency δ :=
  match s.pingReplyList.find? (·.sequence == ping.sequence) with
  | none => s
  | some record =>
    let latency : ℤ := received - record.timestamp
    let s := if latency ≤ 4294967295 then setLatency record.publicKey latency ping s else s
    maybeSendPings now
      { s with pingReplyList := s.pingReplyList.eraseP (·.sequence == ping.sequence) }

/-- What happens: a call, a timeout, a reply from the network to a ping that was sent at any time,
or the first event of the queue. -/
inductive Event (δ : Type) where
  | start (supported off : Bool) (cities : List (LatencyCity δ)) (now : ℕ)
  | refresh (supported off : Bool) (cities : List (LatencyCity δ)) (now : ℕ)
  | stateChanged (supported off : Bool) (cities : List (LatencyCity δ)) (now : ℕ)
  | stop
  | timeout (now : ℕ)
  | arrive (ping : Ping)
  | deliver (received now : ℕ)

def step (ge : δ → δ → Bool) (s : ServerLatency δ) : Event δ → ServerLatency δ
  | .start supported off cities now => start ge supported off cities now s
  | .refresh supported off cities now => refresh ge supported off cities now s
  | .stateChanged supported off cities now => stateChanged ge supported off cities now s
  | .stop => stop s
  | .timeout now => maybeSendPings now s
  | .arrive ping => if ping ∈ s.sent then { s with replies := s.replies ++ [ping] } else s
  | .deliver received now =>
    match s.replies with
    | [] => s
    | ping :: replies => recvPing received now ping { s with replies }

/-! ## The invariant -/

/-- How often a server was pinged in a run. -/
def pings (s : ServerLatency δ) (run : ℕ) (key : List Char) : ℕ :=
  s.sent.countP fun ping => ping.run = run ∧ ping.publicKey = key

/-- The servers of a list of records. -/
def keys (records : List (ServerPingRecord δ)) : List (List Char) :=
  records.map (·.publicKey)

@[simp] theorem keys_append (front back : List (ServerPingRecord δ)) :
    keys (front ++ back) = keys front ++ keys back :=
  List.map_append

/-- The latency belongs to a ping of its server in its run. -/
def Genuine (entry : StoredLatency) : Prop :=
  entry.run = some entry.origin.run ∧ entry.origin.publicKey = entry.publicKey

/-- What holds of the past. -/
structure History (s : ServerLatency δ) : Prop where
  past : ∀ ping ∈ s.sent, ping.run < s.runs
  pinged : ∀ run key, pings s run key ≤ 1 + serverLatencyMaxRetries
  replies : s.replies ⊆ s.sent
  stored : ∀ entry ∈ s.stored, Genuine entry ∧ entry.origin ∈ s.sent
  latency : ∀ key msec, s.latency key = some msec →
    ∃ entry ∈ s.stored, entry.publicKey = key ∧ entry.msec = msec

/-- What holds of the two lists in a run. -/
structure Lists (run : ℕ) (s : ServerLatency δ) : Prop where
  current : run + 1 = s.runs
  nodup : (keys (s.pingReplyList ++ s.pingSendQueue)).Nodup
  outstanding : ∀ record ∈ s.pingReplyList,
    pings s run record.publicKey = record.retries + 1 ∧ record.retries ≤ serverLatencyMaxRetries
  waiting : ∀ record ∈ s.pingSendQueue, pings s run record.publicKey = 0
  order : (s.pingReplyList.map (pingOf run)).Sublist s.sent
  parallel : s.pingReplyList.length ≤ serverLatencyMaxParallel

/-- **The invariant.** -/
structure Consistent (s : ServerLatency δ) : Prop where
  history : History s
  idle : s.pingSender = none → s.pingReplyList = [] ∧ s.pingSendQueue = []
  lists : ∀ run, s.pingSender = some run → Lists run s

theorem History.of_eq {s s' : ServerLatency δ} (h : History s) (hruns : s.runs ≤ s'.runs)
    (hsent : s'.sent = s.sent) (hreplies : s'.replies ⊆ s.replies) (hstored : s'.stored = s.stored)
    (hlatency : ∀ key msec, s'.latency key = some msec → s.latency key = some msec) :
    History s' where
  past ping hping := Nat.lt_of_lt_of_le (h.past ping (hsent ▸ hping)) hruns
  pinged run key := by
    unfold pings
    rw [hsent]
    exact h.pinged run key
  replies ping hping := hsent ▸ h.replies (hreplies hping)
  stored entry hentry := by
    rw [hsent]
    exact h.stored entry (hstored ▸ hentry)
  latency key msec hkey := by
    rw [hstored]
    exact h.latency key msec (hlatency key msec hkey)

/-! ### Sending -/

section Send

variable {run : ℕ} {s : ServerLatency δ} {record : ServerPingRecord δ}
  {list queue : List (ServerPingRecord δ)} {sequence : UInt16}

/-- The state after the ping of a record, which joins some of the records that were outstanding. -/
def sendRecord (run : ℕ) (sequence : UInt16) (record : ServerPingRecord δ)
    (list queue : List (ServerPingRecord δ)) (s : ServerLatency δ) : ServerLatency δ :=
  { s with
    sequence
    pingReplyList := list ++ [record]
    pingSendQueue := queue
    sent := s.sent ++ [pingOf run record] }

theorem retryTurn_eq {now : ℕ} (h : s.pingReplyList = record :: list) :
    retryTurn run now record s =
      if record.retries < serverLatencyMaxRetries then
        sendRecord run (s.sequence + 1)
          { record with retries := record.retries + 1, sequence := s.sequence, timestamp := now }
          list s.pingSendQueue s
      else { s with pingReplyList := list } := by
  unfold retryTurn sendRecord sendPing
  split_ifs <;> simp [h]

theorem sendTurn_eq {now : ℕ} (h : s.pingSendQueue = record :: queue) :
    sendTurn run now record s =
      sendRecord run (s.sequence + 1)
        { record with sequence := s.sequence, timestamp := now, retries := 0 }
        s.pingReplyList queue s := by
  simp [sendTurn, sendRecord, sendPing, h]

/-- A ping counts for its own run and server. -/
theorem pings_sendRecord (run' : ℕ) (key : List Char) :
    pings (sendRecord run sequence record list queue s) run' key =
      pings s run' key + if run = run' ∧ record.publicKey = key then 1 else 0 := by
  simp [pings, sendRecord, pingOf, List.countP_append, List.countP_singleton]

theorem pings_sendRecord_of_mem {other : ServerPingRecord δ} {records : List (ServerPingRecord δ)}
    (hnew : record.publicKey ∉ keys records) (hother : other ∈ records) :
    pings (sendRecord run sequence record list queue s) run other.publicKey =
      pings s run other.publicKey := by
  have hne : record.publicKey ≠ other.publicKey := fun h =>
    hnew (List.mem_map.mpr ⟨other, hother, h.symm⟩)
  simp [pings_sendRecord, hne]

/-- **Sending.** A server that was pinged `retries` times in the run may be pinged once more. -/
theorem History.send (h : History s) (hrun : run < s.runs)
    (hpings : pings s run record.publicKey = record.retries)
    (hretries : record.retries ≤ serverLatencyMaxRetries) :
    History (sendRecord run sequence record list queue s) where
  past ping hping := by
    rcases List.mem_append.mp hping with hping | hping
    · exact h.past ping hping
    · obtain rfl : ping = pingOf run record := by simpa using hping
      exact hrun
  pinged run' key := by
    rw [pings_sendRecord]
    split_ifs with hkey
    · obtain ⟨rfl, rfl⟩ := hkey
      omega
    · exact h.pinged run' key
  replies ping hping := List.mem_append_left _ (h.replies hping)
  stored entry hentry :=
    ⟨(h.stored entry hentry).1, List.mem_append_left _ (h.stored entry hentry).2⟩
  latency := h.latency

theorem Lists.send (h : Lists run s) (hlist : list.Sublist s.pingReplyList)
    (hqueue : queue.Sublist s.pingSendQueue) (hnew : record.publicKey ∉ keys (list ++ queue))
    (hroom : list.length < serverLatencyMaxParallel)
    (hpings : pings s run record.publicKey = record.retries)
    (hretries : record.retries ≤ serverLatencyMaxRetries) :
    Lists run (sendRecord run sequence record list queue s) where
  current := h.current
  nodup := by
    have hold : (keys (list ++ queue)).Nodup :=
      h.nodup.sublist ((hlist.append hqueue).map _)
    have hperm : (list ++ [record] ++ queue).Perm (record :: (list ++ queue)) := by
      simp
    show (keys (list ++ [record] ++ queue)).Nodup
    rw [keys, (hperm.map _).nodup_iff]
    exact List.nodup_cons.mpr ⟨hnew, hold⟩
  outstanding other hother := by
    rcases List.mem_append.mp hother with hother | hother
    · rw [pings_sendRecord_of_mem hnew (List.mem_append_left _ hother)]
      exact h.outstanding other (hlist.subset hother)
    · obtain rfl : other = record := by simpa using hother
      exact ⟨by simp [pings_sendRecord, hpings], hretries⟩
  waiting other hother := by
    rw [pings_sendRecord_of_mem hnew (List.mem_append_right _ hother)]
    exact h.waiting other (hqueue.subset hother)
  order := by
    show ((list ++ [record]).map (pingOf run)).Sublist (s.sent ++ [pingOf run record])
    rw [List.map_append]
    exact ((hlist.map _).trans h.order).append (List.Sublist.refl _)
  parallel := by
    simpa [sendRecord] using Nat.succ_le_of_lt hroom

theorem Lists.of_eq {s' : ServerLatency δ} (h : Lists run s) (hruns : s'.runs = s.runs)
    (hlist : s'.pingReplyList = s.pingReplyList) (hqueue : s'.pingSendQueue = s.pingSendQueue)
    (hsent : s'.sent = s.sent) : Lists run s' where
  current := hruns ▸ h.current
  nodup := by
    rw [hlist, hqueue]
    exact h.nodup
  outstanding record hrecord := by
    unfold pings
    rw [hsent]
    exact h.outstanding record (hlist ▸ hrecord)
  waiting record hrecord := by
    unfold pings
    rw [hsent]
    exact h.waiting record (hqueue ▸ hrecord)
  order := by
    rw [hlist, hsent]
    exact h.order
  parallel := hlist ▸ h.parallel

theorem Lists.drop (h : Lists run s) (hlist : list.Sublist s.pingReplyList) :
    Lists run { s with pingReplyList := list } where
  current := h.current
  nodup := h.nodup.sublist ((hlist.append_right _).map _)
  outstanding record hrecord := h.outstanding record (hlist.subset hrecord)
  waiting := h.waiting
  order := (hlist.map _).trans h.order
  parallel := Nat.le_trans hlist.length_le h.parallel

end Send

/-! ### The loops -/

/-- The invariant while a run is on. -/
structure Measuring (run : ℕ) (s : ServerLatency δ) : Prop where
  sender : s.pingSender = some run
  history : History s
  lists : Lists run s

theorem Measuring.consistent {run : ℕ} {s : ServerLatency δ} (h : Measuring run s) :
    Consistent s where
  history := h.history
  idle hnone := by simp [h.sender] at hnone
  lists run' hrun' := by
    obtain rfl : run = run' := by simpa [h.sender] using hrun'
    exact h.lists

theorem Consistent.measuring {run : ℕ} {s : ServerLatency δ} (h : Consistent s)
    (hsender : s.pingSender = some run) : Measuring run s :=
  ⟨hsender, h.history, h.lists run hsender⟩

section Loops

variable {run now : ℕ} {s : ServerLatency δ} {record : ServerPingRecord δ}
  {list queue rest : List (ServerPingRecord δ)} {sequence : UInt16}

theorem Measuring.drop (h : Measuring run s) (hlist : list.Sublist s.pingReplyList) :
    Measuring run { s with pingReplyList := list } where
  sender := h.sender
  history := h.history.of_eq (Nat.le_refl _) rfl (List.Subset.refl _) rfl fun _ _ => id
  lists := h.lists.drop hlist

theorem Measuring.send (h : Measuring run s) (hlist : list.Sublist s.pingReplyList)
    (hqueue : queue.Sublist s.pingSendQueue) (hnew : record.publicKey ∉ keys (list ++ queue))
    (hroom : list.length < serverLatencyMaxParallel)
    (hpings : pings s run record.publicKey = record.retries)
    (hretries : record.retries ≤ serverLatencyMaxRetries) :
    Measuring run (sendRecord run sequence record list queue s) where
  sender := h.sender
  history := by
    have hrun : run < s.runs := by
      have hcurrent := h.lists.current
      omega
    exact h.history.send hrun hpings hretries
  lists := h.lists.send hlist hqueue hnew hroom hpings hretries

theorem Measuring.retryTurn (h : Measuring run s) (hlist : s.pingReplyList = record :: rest) :
    Measuring run (retryTurn run now record s) := by
  have hrest : rest.Sublist s.pingReplyList := hlist ▸ List.sublist_cons_self record rest
  rw [retryTurn_eq hlist]
  split_ifs with hretries
  · obtain ⟨hpings, -⟩ := h.lists.outstanding record (by simp [hlist])
    have hnew : record.publicKey ∉ keys (rest ++ s.pingSendQueue) := by
      have hnodup := h.lists.nodup
      rw [hlist] at hnodup
      exact (List.nodup_cons.mp hnodup).1
    have hroom : rest.length < serverLatencyMaxParallel := by
      have hparallel := h.lists.parallel
      rw [hlist, List.length_cons] at hparallel
      omega
    exact h.send hrest (List.Sublist.refl _) hnew hroom hpings hretries
  · exact h.drop hrest

theorem Measuring.sendTurn (h : Measuring run s) (hqueue : s.pingSendQueue = record :: rest)
    (hroom : s.pingReplyList.length < serverLatencyMaxParallel) :
    Measuring run (sendTurn run now record s) := by
  have hrest : rest.Sublist s.pingSendQueue := hqueue ▸ List.sublist_cons_self record rest
  have hpings : pings s run record.publicKey = 0 := h.lists.waiting record (by simp [hqueue])
  have hnew : record.publicKey ∉ keys (s.pingReplyList ++ rest) := by
    have hnodup := h.lists.nodup
    have hperm : (s.pingReplyList ++ record :: rest).Perm (record :: (s.pingReplyList ++ rest)) :=
      List.perm_middle
    rw [hqueue, keys, (hperm.map _).nodup_iff] at hnodup
    exact (List.nodup_cons.mp hnodup).1
  rw [sendTurn_eq hqueue]
  exact h.send (List.Sublist.refl _) hrest hnew hroom hpings (Nat.zero_le _)

theorem Measuring.retryTimedOut (h : Measuring run s) :
    Measuring run (retryTimedOut run now s) := by
  fun_induction ServerLatency.retryTimedOut run now s with
  | case1 s hnil => exact h
  | case2 s record rest hlist hnew => exact h
  | case3 s record rest hlist hold hless ih => exact ih (h.retryTurn hlist)

theorem Measuring.sendQueued (h : Measuring run s) : Measuring run (sendQueued run now s) := by
  fun_induction ServerLatency.sendQueued run now s with
  | case1 s hnil => exact h
  | case2 s record rest hqueue hroom hless ih => exact ih (h.sendTurn hqueue hroom)
  | case3 s record rest hqueue hfull => exact h

end Loops

/-! ### The servers of a run -/

section Cities

variable (ge : δ → δ → Bool)

theorem keys_foldl_cons {f : List Char → ServerPingRecord δ}
    (hf : ∀ pubkey, (f pubkey).publicKey = pubkey)
    (servers : List (List Char)) (back : List (ServerPingRecord δ)) :
    keys (servers.foldl (fun back pubkey => f pubkey :: back) back) =
      servers.reverse ++ keys back := by
  induction servers generalizing back with
  | nil => rfl
  | cons pubkey servers ih =>
    rw [List.foldl_cons, ih]
    simp [keys, hf]

theorem keys_insertCity (queue : List (ServerPingRecord δ)) (city : LatencyCity δ) :
    (keys (insertCity ge queue city)).Perm (keys queue ++ city.servers) := by
  unfold insertCity
  rw [keys_append, keys_foldl_cons fun _ => rfl]
  have hqueue := List.takeWhile_append_dropWhile
    (p := fun record => !ge record.distance city.distance) (l := queue)
  conv_rhs => rw [← hqueue, keys_append, List.append_assoc]
  exact (((List.reverse_perm _).append_right _).trans List.perm_append_comm).append_left _

theorem keys_insertCities (cities : List (LatencyCity δ)) (queue : List (ServerPingRecord δ)) :
    (keys (cities.foldl (insertCity ge) queue)).Perm
      (keys queue ++ cities.flatMap (·.servers)) := by
  induction cities generalizing queue with
  | nil => simp
  | cons city cities ih =>
    rw [List.foldl_cons, List.flatMap_cons, ← List.append_assoc]
    exact (ih _).trans ((keys_insertCity ge queue city).append_right _)

end Cities

/-! ### The operations keep the invariant -/

section Operations

variable {s : ServerLatency δ}

theorem Consistent.stop (h : Consistent s) : Consistent (stop s) where
  history := h.history.of_eq (Nat.le_refl _) rfl (List.Subset.refl _) rfl fun _ _ => id
  idle _ := ⟨rfl, rfl⟩
  lists run hrun := by simp [ServerLatency.stop] at hrun

theorem Consistent.clear (h : Consistent s) : Consistent (clear s) where
  history :=
    h.history.of_eq (Nat.le_refl _) rfl (List.Subset.refl _) rfl (by simp [ServerLatency.clear])
  idle := h.idle
  lists run hrun := (h.lists run hrun).of_eq rfl rfl rfl rfl

theorem Consistent.maybeSendPings (h : Consistent s) (now : ℕ) :
    Consistent (maybeSendPings now s) := by
  unfold ServerLatency.maybeSendPings
  cases hsender : s.pingSender with
  | none => exact h
  | some run =>
    have hloops : Measuring run (sendQueued run now (retryTimedOut run now s)) :=
      (h.measuring hsender).retryTimedOut.sendQueued
    show Consistent (if _ then _ else _)
    split_ifs
    · exact hloops.consistent.stop
    · exact hloops.consistent

theorem History.pings_runs (h : History s) (key : List Char) : pings s s.runs key = 0 := by
  refine List.countP_eq_zero.mpr fun ping hping => ?_
  have hpast := h.past ping hping
  simp only [decide_eq_true_eq, not_and]
  omega

theorem Consistent.start (h : Consistent s) (ge : δ → δ → Bool) (supported off : Bool)
    (cities : List (LatencyCity δ)) (now : ℕ)
    (hcities : supported → off → s.pingSender = none → (cities.flatMap (·.servers)).Nodup) :
    Consistent (start ge supported off cities now s) := by
  unfold ServerLatency.start
  split_ifs with hsupported hoff
  · exact h.clear
  · exact ⟨h.history.of_eq (Nat.le_refl _) rfl (List.Subset.refl _) rfl fun _ _ => id, h.idle,
      fun run hrun => (h.lists run hrun).of_eq rfl rfl rfl rfl⟩
  cases hsender : s.pingSender with
  | some run => exact h
  | none =>
    obtain ⟨hlist, hqueue⟩ := h.idle hsender
    have hnodup := hcities (by simpa using hsupported) (by simpa using hoff) hsender
    apply Consistent.maybeSendPings
    refine (show Measuring s.runs _ from ⟨rfl, ?_, ?_⟩).consistent
    · exact h.history.of_eq (Nat.le_succ _) rfl (List.Subset.refl _) rfl fun _ _ => id
    · refine ⟨rfl, ?_, ?_, ?_, ?_, ?_⟩
      · show (keys (s.pingReplyList ++ cities.foldl (insertCity ge) s.pingSendQueue)).Nodup
        rw [hlist, hqueue, List.nil_append, (keys_insertCities ge cities []).nodup_iff]
        simpa [keys] using hnodup
      · simp [hlist]
      · exact fun record _ => h.history.pings_runs record.publicKey
      · simp [hlist]
      · simp [hlist]

theorem Consistent.refresh (h : Consistent s) (ge : δ → δ → Bool) (supported off : Bool)
    (cities : List (LatencyCity δ)) (now : ℕ)
    (hcities : supported → off → s.pingSender = none → (cities.flatMap (·.servers)).Nodup) :
    Consistent (refresh ge supported off cities now s) := by
  unfold ServerLatency.refresh
  cases hsender : s.pingSender with
  | some run => exact h
  | none => exact h.clear.start ge supported off cities now hcities

theorem Consistent.stateChanged (h : Consistent s) (ge : δ → δ → Bool) (supported off : Bool)
    (cities : List (LatencyCity δ)) (now : ℕ)
    (hcities : supported → off → s.wantRefresh → s.pingSender = none →
      (cities.flatMap (·.servers)).Nodup) :
    Consistent (stateChanged ge supported off cities now s) := by
  unfold ServerLatency.stateChanged
  split_ifs with hoff hwant
  · exact h.stop
  · exact h.start ge supported off cities now fun hsupported hoff => hcities hsupported hoff hwant
  · exact h

/-- The reply is no other's: where an outstanding record has its number, the ping belongs to this
run, in which only one server was pinged under that number. -/
def Expected (s : ServerLatency δ) (ping : Ping) : Prop :=
  ∀ record ∈ s.pingReplyList, record.sequence = ping.sequence →
    s.pingSender = some ping.run ∧ ∀ other ∈ s.sent,
      other.run = ping.run → other.sequence = ping.sequence → other.publicKey = ping.publicKey

theorem Consistent.publicKey_eq (h : Consistent s) {ping : Ping} (hexpected : Expected s ping)
    {record : ServerPingRecord δ} (hrecord : record ∈ s.pingReplyList)
    (hsequence : record.sequence = ping.sequence) :
    s.pingSender = some ping.run ∧ record.publicKey = ping.publicKey := by
  obtain ⟨hsender, hother⟩ := hexpected record hrecord hsequence
  have horder := (h.lists ping.run hsender).order
  have hsent : pingOf ping.run record ∈ s.sent :=
    horder.subset (List.mem_map.mpr ⟨record, hrecord, rfl⟩)
  exact ⟨hsender, hother _ hsent rfl hsequence⟩

theorem Measuring.setLatency {run : ℕ} {ping : Ping} (h : Measuring run s) (hsent : ping ∈ s.sent)
    (hrun : ping.run = run) (msec : ℤ) :
    Measuring run (setLatency ping.publicKey msec ping s) where
  sender := h.sender
  history :=
    { past := h.history.past
      pinged := h.history.pinged
      replies := h.history.replies
      stored := fun entry hentry => by
        rcases List.mem_append.mp hentry with hentry | hentry
        · exact h.history.stored entry hentry
        · obtain rfl : entry = ⟨ping.publicKey, msec, s.pingSender, ping⟩ := by simpa using hentry
          exact ⟨⟨by rw [h.sender, hrun], rfl⟩, hsent⟩
      latency := fun key value hvalue => by
        simp only [ServerLatency.setLatency] at hvalue ⊢
        split_ifs at hvalue with hkey
        · exact ⟨_, List.mem_append_right _ (List.mem_singleton_self _), hkey.symm,
            Option.some.inj hvalue⟩
        · obtain ⟨entry, hentry, hfound⟩ := h.history.latency key value hvalue
          exact ⟨entry, List.mem_append_left _ hentry, hfound⟩ }
  lists := h.lists.of_eq rfl rfl rfl rfl

theorem Consistent.recvPing (h : Consistent s) {ping : Ping} (hsent : ping ∈ s.sent)
    (hexpected : Expected s ping) (received now : ℕ) :
    Consistent (recvPing received now ping s) := by
  unfold ServerLatency.recvPing
  cases hfind : s.pingReplyList.find? (·.sequence == ping.sequence) with
  | none => exact h
  | some record =>
    have hsequence : record.sequence = ping.sequence := by simpa using List.find?_some hfind
    obtain ⟨hsender, hkey⟩ :=
      h.publicKey_eq hexpected (List.mem_of_find?_eq_some hfind) hsequence
    have hmeasuring := h.measuring hsender
    apply Consistent.maybeSendPings
    refine (show Measuring ping.run _ from ?_).consistent
    apply Measuring.drop _ List.eraseP_sublist
    split_ifs
    · rw [hkey]
      exact hmeasuring.setLatency hsent rfl _
    · exact hmeasuring

/-- What a step must meet: a run is started for servers that differ, and a reply that is taken from
the queue is an expected one. -/
def Guard (s : ServerLatency δ) : Event δ → Prop
  | .start supported off cities _ | .refresh supported off cities _ =>
    supported → off → s.pingSender = none → (cities.flatMap (·.servers)).Nodup
  | .stateChanged supported off cities _ =>
    supported → off → s.wantRefresh → s.pingSender = none → (cities.flatMap (·.servers)).Nodup
  | .deliver _ _ => ∀ ping ∈ s.replies.head?, Expected s ping
  | _ => True

/-- **One step keeps the invariant.** -/
theorem Consistent.step {event : Event δ} (h : Consistent s) (ge : δ → δ → Bool)
    (hguard : Guard s event) : Consistent (step ge s event) := by
  cases event with
  | start supported off cities now => exact h.start ge supported off cities now hguard
  | refresh supported off cities now => exact h.refresh ge supported off cities now hguard
  | stateChanged supported off cities now =>
    exact h.stateChanged ge supported off cities now hguard
  | stop => exact h.stop
  | timeout now => exact h.maybeSendPings now
  | arrive ping =>
    show Consistent (if ping ∈ s.sent then _ else _)
    split_ifs with hsent
    · refine ⟨⟨h.history.past, h.history.pinged, ?_, h.history.stored, h.history.latency⟩, h.idle,
        fun run hrun => (h.lists run hrun).of_eq rfl rfl rfl rfl⟩
      exact List.append_subset.mpr ⟨h.history.replies, by simpa using hsent⟩
    · exact h
  | deliver received now =>
    simp only [ServerLatency.step]
    cases hreplies : s.replies with
    | nil => exact h
    | cons ping replies =>
      have hsub : ping :: replies ⊆ s.sent := hreplies ▸ h.history.replies
      have hrest : Consistent { s with replies } :=
        ⟨h.history.of_eq (Nat.le_refl _) rfl (by simp [hreplies]) rfl fun _ _ => id, h.idle,
          fun run hrun => (h.lists run hrun).of_eq rfl rfl rfl rfl⟩
      have hexpected : Expected s ping := hguard ping (by simp [hreplies])
      exact hrest.recvPing (hsub List.mem_cons_self) hexpected received now

end Operations

theorem consistent_init : Consistent ({} : ServerLatency δ) where
  history :=
    { past := by simp
      pinged := by simp [pings]
      replies := by simp
      stored := by simp
      latency := by simp }
  idle := by simp
  lists := by simp

/-! ## Runs -/

/-- What a measurement promises: the latencies come from replies to pings of their servers in their
runs, few pings are outstanding, no server is pinged too often, and the outstanding records come in
the order in which they were sent, by their clocks where these do not go back. -/
structure Measured (s : ServerLatency δ) : Prop where
  latency : ∀ key msec, s.latency key = some msec →
    ∃ entry ∈ s.stored, entry.publicKey = key ∧ entry.msec = msec
  stored : ∀ entry ∈ s.stored, entry.run = some entry.origin.run ∧
    entry.origin.publicKey = entry.publicKey ∧ entry.origin ∈ s.sent
  parallel : s.pingReplyList.length ≤ serverLatencyMaxParallel
  pinged : ∀ run key, pings s run key ≤ 1 + serverLatencyMaxRetries
  idle : s.pingSender = none → s.pingReplyList = []
  order : ∀ run, s.pingSender = some run → (s.pingReplyList.map (pingOf run)).Sublist s.sent
  sorted : s.sent.Pairwise (fun ping later => ping.timestamp ≤ later.timestamp) →
    s.pingReplyList.Pairwise fun record later => record.timestamp ≤ later.timestamp

theorem Consistent.measured {s : ServerLatency δ} (h : Consistent s) : Measured s where
  latency := h.history.latency
  stored entry hentry :=
    let ⟨⟨hrun, hkey⟩, hsent⟩ := h.history.stored entry hentry
    ⟨hrun, hkey, hsent⟩
  parallel := by
    cases hsender : s.pingSender with
    | none => simp [(h.idle hsender).1]
    | some run => exact (h.lists run hsender).parallel
  pinged := h.history.pinged
  idle hnone := (h.idle hnone).1
  order run hrun := (h.lists run hrun).order
  sorted hsent := by
    cases hsender : s.pingSender with
    | none => simp [(h.idle hsender).1]
    | some run =>
      have horder := hsent.sublist (h.lists run hsender).order
      rw [List.pairwise_map] at horder
      exact horder

/-- **Latency measurement.** In a run that starts only for servers that differ and takes only
expected replies from the queue, every state is as promised. -/
theorem measured_run (ge : δ → δ → Bool) {events : List (Event δ)}
    (hguard : Guarded (step ge) Guard {} events) (n : ℕ) :
    Measured ((events.take n).foldl (step ge) {}) :=
  (hguard.invariant (fun _ _ h => h.step ge) consistent_init n).measured

/-! ### Runs for one server -/

theorem retryTimedOut_of_nil {run now : ℕ} {s : ServerLatency δ} (h : s.pingReplyList = []) :
    retryTimedOut run now s = s := by
  unfold retryTimedOut
  split
  · rfl
  · simp_all

theorem sendQueued_of_nil {run now : ℕ} {s : ServerLatency δ} (h : s.pingSendQueue = []) :
    sendQueued run now s = s := by
  unfold sendQueued
  split
  · rfl
  · simp_all

theorem maybeSendPings_of_nil {now : ℕ} {s : ServerLatency δ} (hsender : s.pingSender.isSome)
    (hlist : s.pingReplyList = []) (hqueue : s.pingSendQueue = []) :
    maybeSendPings now s = stop s := by
  obtain ⟨run, hsender⟩ := Option.isSome_iff_exists.mp hsender
  simp [maybeSendPings, hsender, retryTimedOut_of_nil hlist, sendQueued_of_nil hqueue, hlist]

/-- A city with one server, at no distance. -/
def oneServer (pubkey : List Char) : LatencyCity ℕ := ⟨['s', 'e'], ['M'], [pubkey], 0⟩

/-- The first ping of a run for one server. -/
def oneRecord (pubkey : List Char) (now : ℕ) : ServerPingRecord ℕ :=
  ⟨pubkey, ['s', 'e'], ['M'], now, 0, 0, 0⟩

theorem start_oneServer {s : ServerLatency ℕ} (ge : ℕ → ℕ → Bool) (hsender : s.pingSender = none)
    (hlist : s.pingReplyList = []) (hqueue : s.pingSendQueue = []) (pubkey : List Char) (now : ℕ) :
    start ge true true [oneServer pubkey] now s =
      { s with
        sequence := 1
        wantRefresh := false
        pingSender := some s.runs
        runs := s.runs + 1
        pingSendQueue := []
        pingReplyList := [oneRecord pubkey now]
        pingSendTotal := 1
        sent := s.sent ++ [⟨s.runs, pubkey, 0, now⟩] } := by
  simp only [start, hsender, oneServer, List.foldl, insertCity, hqueue, maybeSendPings]
  rw [retryTimedOut_of_nil (by exact hlist), sendQueued]
  simp [sendQueued_of_nil, sendTurn, sendPing, hlist, oneRecord, pingOf, serverLatencyMaxParallel]

theorem measured_run_oneServer :
    Measured (([.start true true [oneServer ['a']] 0, .arrive ⟨0, ['a'], 0, 0⟩, .deliver 20 20] :
      List (Event ℕ)).foldl (step fun d e => e ≤ d) {}) := by
  refine measured_run _ (show Guarded _ Guard {} [_, _, _] from ⟨?_, ?_, ?_, trivial⟩) 3
  · simp [Guard, oneServer]
  · trivial
  · simp [step, start_oneServer, Guard, Expected, oneRecord]

/-- A reply that waits in the queue while its run is stopped and the next one is started. -/
theorem stale_reply :
    ¬ ∀ events : List (Event ℕ), Measured (events.foldl (step fun d e => e ≤ d) {}) := by
  intro h
  have hstored := (h [.start true true [oneServer ['a']] 0, .arrive ⟨0, ['a'], 0, 0⟩, .stop,
    .start true true [oneServer ['b']] 10, .deliver 30 30]).stored
  simp [step, start_oneServer, stop, recvPing, oneRecord, setLatency, maybeSendPings_of_nil]
    at hstored

end ServerLatency

end WgDesktop
