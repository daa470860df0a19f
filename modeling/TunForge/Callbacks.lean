import TunForge.Connection

/-! The lwIP callbacks of `TFTCPConnection.m`, the accept bridge of `TFIPStack.m`,
and the blocks that the two queues run. -/
namespace TunForge.Callbacks
open PbufChain LwipTypes Tcp Connection

variable {P : Type}

/-- `handlePeerFINLocked`. -/
def handlePeerFINLocked (s : Sys P) : Sys P :=
  if s.conn.readEOF then s
  else
    let s := { s with conn := { s.conn with readEOF := true } }
    s.postIf s.conn.handlers.onReadEOF .readEOF

/-- The payload is handed to a readable handler: its bytes are counted and the block posted. -/
def handOver (b : CBlock) (tot : ℕ) (s : Sys P) : Sys P :=
  let s := s.post b
  { s with log := { s.log with handed := s.log.handed + tot } }

def freeIfSome (p : Option Pbuf) (s : Sys P) : Sys P :=
  match p with
  | none => s
  | some p => s.free (.pbuf p)

/-- `kTCPNewStateRejectTimeoutMs`. -/
def newStateRejectTimeoutMs : ℕ := 10000

/-- A connection still in `New` whose `u32_t` age has reached the limit. -/
def newStateTimedOut (s : Sys P) : Bool :=
  decide (s.conn.state = .new) &&
    decide (newStateRejectTimeoutMs ≤
      (s.env.now + (2 ^ 32 - s.conn.newStateStartMs % 2 ^ 32)) % 2 ^ 32)

/-! ### Accepting -/

/-- The fields `initWithTCPPcb:` sets. -/
def newConn (now : ℕ) : Conn where
  pcb := true
  newStateStartMs := now
  alive := true
  writable := false
  readEOF := false
  writeFIN := false
  state := .new
  terminationReason := .none
  didNotifyActive := false
  didNotifyTerminated := false
  pendingClose := false
  recvEnabled := false
  inflightAckBytes := 0
  handlers := noHandlers

/-- What `setupPcb` leaves in the callback fields of the pcb. -/
def attachedHooks : Hooks := ⟨.conn, .tf, true, true, 2, true, true⟩

/-- `setupPcb`: the bridge object, the callbacks and the ext-arg reference. -/
def setupPcb (s : Sys P) : Sys P :=
  { s.callLwip .attach id with
    ref := ⟨true, true⟩
    hooks := attachedHooks
    extHeld := true }

/-- `initWithTCPPcb:`. -/
def initWithTCPPcb (s : Sys P) : Sys P :=
  setupPcb { s with connExists := true, conn := newConn s.env.now }

/-- No connection object exists yet; the fields of `conn` are read by nobody. -/
def noConn : Conn := { newConn 0 with
    pcb := false, alive := false, state := .closed, didNotifyTerminated := true }

def emptyLog : Log := ⟨[], [], [], [], [], [], 0, 0⟩

/-- The callback fields that `tcp_alloc` and the listening pcb give a new pcb. -/
def openedHooks : Hooks := ⟨.stack, .recvNull, false, false, 0, false, false⟩

/-- A freshly opened pcb in `SYN_RCVD`, which has not been accepted yet. -/
def opened (pcb : P) (env : TfEnv) : Sys P where
  pcb := some pcb
  hooks := openedHooks
  connExists := false
  conn := noConn
  ref := ⟨false, false⟩
  extHeld := false
  extGiven := 0
  connectionsQueue := []
  packetsQueue := []
  completions := []
  acceptPending := false
  env := env
  log := emptyLog

/-! ### The queues -/

/-- Blocks that run only for a connection that is still alive. -/
def needsAlive : CBlock → Bool
  | .accepted | .terminated _ => false
  | _ => true

/-- What a block finds when it runs. The accept block retains the connection itself. -/
def blockOutcome (b : CBlock) (s : Sys P) : Outcome :=
  if b = .accepted then .called
  else if !s.connExists then .gone
  else if needsAlive b && !s.conn.alive then .dead
  else .called

/-- What running a block leaves behind: a delivered chain waits for the handler's completion,
an undelivered one goes back to packetsQueue to be freed. -/
def afterBlock (b : CBlock) (out : Outcome) (s : Sys P) : Sys P :=
  match b with
  | .readableBytes p _ _ =>
    if out = .called then { s with completions := s.completions ++ [p] }
    else { s with packetsQueue := s.packetsQueue ++ [.release p] }
  | .accepted => { s with acceptPending := true }
  | _ => s

/-- connectionsQueue runs its next block. -/
def runConnectionsBlock (s : Sys P) : Sys P :=
  match s.connectionsQueue with
  | [] => s
  | b :: rest =>
    let out := blockOutcome b s
    let s := afterBlock b out s
    { s with connectionsQueue := rest, log := { s.log with trace := s.log.trace ++ [(b, out)] } }

/-- The user has been given the connection and still holds it, so it can call its methods. -/
def held (s : Sys P) : Bool := s.connExists && decide (CBlock.accepted ∉ s.connectionsQueue)

/-- What happens on the application's side of a connection: method calls and block properties
set by a holder of the object, blocks run by the two queues, completions and the answer to the
accept callback, the release of the object, and changes of the surroundings. -/
inductive AppEvent
  | api (c : ApiCall)
  | setHandlers (handlers : Handlers)
  | runConnectionsBlock
  | runPacketsBlock
  | callCompletion (p : Pbuf) (onPackets : Bool)
  | callAcceptHandler (accept onPackets : Bool)
  | release
  | env (env : TfEnv)
  deriving DecidableEq

section

variable [RawApi P]

/-! ### Callbacks that use the raw API -/

/-- `shouldAllowRecv:`. -/
def shouldAllowRecv (s : Sys P) : Bool :=
  s.conn.recvEnabled && s.conn.alive && decide (s.conn.state = .active) && tfTcpReadReady s

/-- `tf_tcp_recv` for a payload that passed the gate: zero-copy delivery, copying delivery, or
no handler at all. -/
def deliver (p : Pbuf) (s : Sys P) : Sys P :=
  let tot := p.totLen
  let s := updateInflightAckBytes tot s
  if s.conn.handlers.onReadableBytes then
    if s.env.malloc then handOver (.readableBytes p p.payloads tot) tot s
    else s.free (.pbuf p)
  else if s.conn.handlers.onReadable then
    if s.env.malloc then
      handOver (.readable (p.copyPartial tot 0)) tot
        (acknowledgeDeliveredBytes tot (s.free (.pbuf p)))
    else s.free (.pbuf p)
  else (s.callLwip (.recved tot) (RawApi.recved · tot)).free (.pbuf p)

/-- `tf_tcp_recv`. `ERR_MEM` leaves the chain with lwIP. -/
def tfTcpRecv (arg : CallbackArg) (p : Option Pbuf) (err : Err) (s : Sys P) : Sys P × Err :=
  if !tfConnFromArg arg s || !s.conn.alive || !s.conn.pcb then (freeIfSome p s, .ok)
  else if err ≠ .ok then (abortLocked .abort (freeIfSome p s), .ok)
  else
    match p with
    | none => (handlePeerFINLocked s, .ok)
    | some p =>
      if p.totLen = 0 then (s.free (.pbuf p), .ok)
      else if !shouldAllowRecv s then (s, .mem)
      else (deliver p s, .ok)

/-- `tf_tcp_sent`. -/
def tfTcpSent (arg : CallbackArg) (len : ℕ) (s : Sys P) : Sys P :=
  if !tfConnFromArg arg s || !s.conn.alive || !s.conn.pcb then s
  else
    let s := updateWritableLocked (tfTcpWriteReady s) s
    s.postIf s.conn.handlers.onSentBytes (.sentBytes len)

/-- `tf_tcp_poll`. -/
def tfTcpPoll (arg : CallbackArg) (s : Sys P) : Sys P :=
  if !tfConnFromArg arg s || !s.conn.alive || !s.conn.pcb then s
  else if newStateTimedOut s then abortLocked .abort s
  else
    let s := updateWritableLocked (tfTcpWriteReady s) s
    if s.conn.pendingClose then tryGracefulCloseLocked s else s

/-- `TCP_EVENT_RECV` for a payload. A pcb without a receive callback has its data dropped by
`tcp_recv_null`. -/
def eventRecv (p : Pbuf) (s : Sys P) : Sys P × Err :=
  match s.hooks.recv with
  | .tf =>
    let (s, err) := tfTcpRecv s.hooks.arg (some p) .ok (noteCall .recv s.hooks.arg s)
    ({ s with log := { s.log with offers := s.log.offers ++ [⟨p, err = .ok⟩] } }, err)
  | _ => ({ s with pcb := s.pcb.map (RawApi.recved · p.totLen) }, .ok)

/-- `TCP_EVENT_CLOSED`. A pcb that has not been accepted closes itself. -/
def eventClosed (s : Sys P) : Sys P :=
  match s.hooks.recv with
  | .tf => (tfTcpRecv s.hooks.arg none .ok (noteCall .recv s.hooks.arg s)).1
  | .null => s
  | .recvNull =>
    match s.pcb.map RawApi.close with
    | none => s
    | some .freed => tcpFree s
    | some (.returned pcb _) => { s with pcb := some pcb }

/-- `TCP_EVENT_SENT`. -/
def eventSent (len : ℕ) (s : Sys P) : Sys P :=
  if s.hooks.sent then tfTcpSent s.hooks.arg len (noteCall .sent s.hooks.arg s) else s

/-- `TCP_EVENT_POLL`. -/
def eventPoll (s : Sys P) : Sys P :=
  if s.hooks.poll then tfTcpPoll s.hooks.arg (noteCall .poll s.hooks.arg s) else s

/-- `tunforge_accept`. Without a delegate the new pcb is aborted and the connection object,
which nobody has seen, goes with it. -/
def tunforgeAccept (s : Sys P) : Sys P × Err :=
  let s := s.callLwip .backlogDelayed RawApi.backlogDelayed
  if !s.env.stack then (tcpAbort s, .abrt)
  else
    let s := initWithTCPPcb s
    if !s.env.delegate then
      ({ tcpAbort s with connExists := false }, .abrt)
    else (s.post .accepted, .ok)

/-! ### packetsQueue blocks and the application's events -/

/-- What a packetsQueue block does. -/
def performPackets (b : PBlock) (s : Sys P) : Sys P :=
  match b with
  | .release p => (s.free (.slices p)).free (.pbuf p)
  | .decision accept => if accept then s else abort s

/-- packetsQueue runs its next posted block. -/
def runPacketsBlock (s : Sys P) : Sys P :=
  match s.packetsQueue with
  | [] => s
  | b :: rest => performPackets b { s with packetsQueue := rest }

/-- `packetsPerformAsync:`, which runs the block at once when it is called on packetsQueue. -/
def packetsPerformAsync (onPackets : Bool) (b : PBlock) (s : Sys P) : Sys P :=
  if onPackets then performPackets b s else { s with packetsQueue := s.packetsQueue ++ [b] }

/-- The user calls the completion of a delivered chain; it does so once. -/
def callCompletion (p : Pbuf) (onPackets : Bool) (s : Sys P) : Sys P :=
  if p ∈ s.completions then
    packetsPerformAsync onPackets (.release p) { s with completions := s.completions.erase p }
  else s

/-- The user answers `didAcceptNewTCPConnection`; it does so at most once. -/
def callAcceptHandler (accept onPackets : Bool) (s : Sys P) : Sys P :=
  if s.acceptPending then
    packetsPerformAsync onPackets (.decision accept) { s with acceptPending := false }
  else s

def appStep (s : Sys P) : AppEvent → Sys P
  | .api c => if held s then apiCall s c else s
  | .setHandlers handlers =>
    if held s then { s with conn := { s.conn with handlers := handlers } } else s
  | .runConnectionsBlock => runConnectionsBlock s
  | .runPacketsBlock => runPacketsBlock s
  | .callCompletion p onPackets => callCompletion p onPackets s
  | .callAcceptHandler accept onPackets => callAcceptHandler accept onPackets s
  | .release => releaseConnection s
  | .env env => { s with env := env }

end

end TunForge.Callbacks
