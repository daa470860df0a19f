import TunForge.SerialNumber

/-! The timeouts of lwIP: the list that `sys_timeout` keeps, the handlers that schedule themselves
again, and `sys_check_timeouts`, which the dispatch timer of `TFIPStack` calls.

The clock of the model counts milliseconds without end; `sys_now` is its low 32 bits. That is an
assumption on the compiler: `sys_now` converts a `double` to `u32_t`, which C leaves undefined from
2^32 ms on, and lwIP asks for a count that wraps. The `due` fields carry a time on that clock beside
the one the code stores, and no function decides by them. -/
namespace TunForge.Timeouts
open SerialNumber

def tcpTmrInterval : ℕ := 250

def ipTmrInterval : ℕ := 1000

/-- `LWIP_NUM_SYS_TIMEOUT_INTERNAL`: one for TCP and one for the reassembly of datagrams. -/
def mempNumSysTimeout : ℕ := 2

inductive CyclicHandler
  | tcpTmr
  | ipReassTmr
  deriving DecidableEq

/-- `struct lwip_cyclic_timer`. -/
structure CyclicTimer where
  intervalMs : ℕ
  handler : CyclicHandler
  deriving DecidableEq

def lwipCyclicTimers : List CyclicTimer := [⟨tcpTmrInterval, .tcpTmr⟩, ⟨ipTmrInterval, .ipReassTmr⟩]

inductive Handler
  | tcpipTcpTimer
  | lwipCyclicTimer (cyclic : CyclicTimer)
  deriving DecidableEq

/-- `struct sys_timeo`. -/
structure Timeout where
  time : Seq
  h : Handler
  due : ℕ
  deriving DecidableEq

/-- What the handlers call. -/
inductive Job
  | tcpFasttmr
  | tcpSlowtmr
  | ipReassTmr
  deriving DecidableEq

structure Call where
  job : Job
  due : ℕ
  clock : ℕ
  deriving DecidableEq

/-- The static variables of `timeouts.c` and `tcp_timer`, whether there is an active or a TIME-WAIT
pcb, and the clock. `base` is when the timeouts were last checked or restarted, `calls` what has
been called. -/
structure Timers where
  nextTimeout : List Timeout
  currentTimeoutDueTime : Seq
  currentDue : ℕ
  tcpipTcpTimerActive : Bool
  tcpTimer : BitVec 8
  pcbs : Bool
  clock : ℕ
  base : ℕ
  calls : List Call
  deriving DecidableEq

/-- `sys_now`, if the conversion to `u32_t` wraps. -/
def sysNow (s : Timers) : Seq := BitVec.ofNat 32 s.clock

/-- `TIME_LESS_THAN` of two timeouts. -/
def Earlier (x y : Timeout) : Prop := lt x.time y.time = true

instance : DecidableRel Earlier := fun x y => inferInstanceAs (Decidable (lt x.time y.time = true))

/-- `sys_timeout_abs`. It gives up if the pool is empty. -/
def sysTimeoutAbs (absTime : Seq) (due : ℕ) (h : Handler) (s : Timers) : Timers :=
  if s.nextTimeout.length < mempNumSysTimeout then
    { s with nextTimeout := s.nextTimeout.orderedInsert Earlier ⟨absTime, h, due⟩ }
  else s

def sysTimeout (msecs : ℕ) (h : Handler) (s : Timers) : Timers :=
  sysTimeoutAbs (sysNow s + BitVec.ofNat 32 msecs) (s.clock + msecs) h s

def call (job : Job) (s : Timers) : Timers :=
  { s with calls := s.calls ++ [⟨job, s.currentDue, s.clock⟩] }

/-- `tcp_tmr`: the slow timer runs every second time. -/
def tcpTmr (s : Timers) : Timers :=
  let s := call .tcpFasttmr s
  let s := { s with tcpTimer := s.tcpTimer + 1 }
  if s.tcpTimer &&& 1 ≠ 0 then call .tcpSlowtmr s else s

/-- What a handler does beside its timers: it takes time, and `tcp_tmr` may remove pcbs. -/
structure Round where
  elapsed : ℕ
  pcbs : Bool
  deriving DecidableEq

/-- `tcpip_tcp_timer`. -/
def tcpipTcpTimer (r : Round) (s : Timers) : Timers :=
  let s := tcpTmr s
  let s := { s with clock := s.clock + r.elapsed, pcbs := r.pcbs }
  if s.pcbs then sysTimeout tcpTmrInterval .tcpipTcpTimer s
  else { s with tcpipTcpTimerActive := false }

def cyclicHandler : CyclicHandler → Timers → Timers
  | .tcpTmr, s => tcpTmr s
  | .ipReassTmr, s => call .ipReassTmr s

/-- `lwip_cyclic_timer`. -/
def lwipCyclicTimer (cyclic : CyclicTimer) (r : Round) (s : Timers) : Timers :=
  let s := cyclicHandler cyclic.handler s
  let s := { s with clock := s.clock + r.elapsed }
  let interval := BitVec.ofNat 32 cyclic.intervalMs
  let nextTimeoutTime := s.currentTimeoutDueTime + interval
  -- a timer that would expire again at once starts over from now
  if lt nextTimeoutTime (sysNow s) then
    sysTimeoutAbs (sysNow s + interval) (s.clock + cyclic.intervalMs) (.lwipCyclicTimer cyclic) s
  else sysTimeoutAbs nextTimeoutTime (s.currentDue + cyclic.intervalMs) (.lwipCyclicTimer cyclic) s

/-- `sys_timeouts_init`: the timer of TCP starts on demand. -/
def sysTimeoutsInit (s : Timers) : Timers :=
  (lwipCyclicTimers.drop 1).foldl
    (fun s cyclic => sysTimeout cyclic.intervalMs (.lwipCyclicTimer cyclic) s) s

/-- `tcp_timer_needed`. -/
def tcpTimerNeeded (s : Timers) : Timers :=
  if !s.tcpipTcpTimerActive && s.pcbs then
    sysTimeout tcpTmrInterval .tcpipTcpTimer { s with tcpipTcpTimerActive := true }
  else s

def runHandler : Handler → Round → Timers → Timers
  | .tcpipTcpTimer, r, s => tcpipTcpTimer r s
  | .lwipCyclicTimer cyclic, r, s => lwipCyclicTimer cyclic r s

/-- A timeout that has expired leaves the list before its handler runs. -/
def expire (t : Timeout) (rest : List Timeout) (r : Round) (s : Timers) : Timers :=
  runHandler t.h r { s with
    nextTimeout := rest, currentTimeoutDueTime := t.time, currentDue := t.due }

/-- The loop of `sys_check_timeouts`. A handler without a round takes no time. -/
def checkLoop (now : Seq) : ℕ → List Round → Timers → Timers
  | 0, _, s => s
  | fuel + 1, rounds, s =>
    match s.nextTimeout with
    | [] => s
    | t :: rest =>
      if lt now t.time then s else checkLoop now fuel rounds.tail
        (expire t rest (rounds.headD ⟨0, s.pcbs⟩) s)

/-- `sys_check_timeouts`. Every timeout expires at most twice. -/
def sysCheckTimeouts (rounds : List Round) (s : Timers) : Timers :=
  checkLoop (sysNow s) (2 * s.nextTimeout.length + 1) rounds s

/-- `sys_restart_timeouts`. -/
def sysRestartTimeouts (s : Timers) : Timers :=
  match s.nextTimeout with
  | [] => s
  | first :: _ =>
    { s with nextTimeout := s.nextTimeout.map fun t =>
        { t with time := t.time - first.time + sysNow s, due := t.due - first.due + s.clock } }

inductive Event
  | elapse (ms : ℕ)
  /-- `TCP_REG` of an active or a TIME-WAIT pcb. -/
  | tcpReg
  /-- `TCP_RMV` of the last one. -/
  | tcpRmv
  /-- The dispatch timer. -/
  | check (rounds : List Round)
  /-- `start` of `TFIPStack`. -/
  | start
  deriving DecidableEq

def step (s : Timers) : Event → Timers
  | .elapse ms => { s with clock := s.clock + ms }
  | .tcpReg => tcpTimerNeeded { s with pcbs := true }
  | .tcpRmv => { s with pcbs := false }
  | .check rounds => { sysCheckTimeouts rounds s with base := s.clock }
  | .start => { sysRestartTimeouts s with base := s.clock }

/-- After `lwip_init`. -/
def initial (clock : ℕ) : Timers :=
  sysTimeoutsInit ⟨[], 0, 0, false, 0, false, clock, clock, []⟩

end TunForge.Timeouts
