import TunForge.Tcp

/-! `TFTCPConnection`: its fields, its bridge object `TFObjectRef`, the two
dispatch queues, and its methods. The methods are generic in the lwIP control
block, which they reach only through the raw API. -/
namespace TunForge.Connection
open PbufChain LwipTypes Tcp

/-- `TFTCPConnectionState`. -/
inductive ConnState | new | active | closing | closed
  deriving DecidableEq, Repr

def ConnState.rank : ConnState → ℕ
  | new => 0
  | active => 1
  | closing => 2
  | closed => 3

/-- `TFTCPConnectionTerminationReason`. -/
inductive Reason | none | close | reset | abort | destroyed
  deriving DecidableEq, Repr

/-- Which of the block properties are set. -/
structure Handlers where
  onActivated : Bool
  onReadable : Bool
  onReadableBytes : Bool
  onWritableChanged : Bool
  onSentBytes : Bool
  onReadEOF : Bool
  onTerminated : Bool
  deriving DecidableEq, Repr

def noHandlers : Handlers := ⟨false, false, false, false, false, false, false⟩

/-- The fields of a `TFTCPConnection`. The only pcb it ever refers to is the one it was made
with, so `pcb` says whether that pointer is still set. -/
structure Conn where
  pcb : Bool
  newStateStartMs : ℕ
  alive : Bool
  writable : Bool
  readEOF : Bool
  writeFIN : Bool
  state : ConnState
  terminationReason : Reason
  didNotifyActive : Bool
  didNotifyTerminated : Bool
  pendingClose : Bool
  recvEnabled : Bool
  inflightAckBytes : ℕ
  handlers : Handlers
  deriving DecidableEq, Repr

/-- A `TFObjectRef`: a weak reference to the connection and a flag. -/
structure ObjectRef where
  object : Bool
  alive : Bool
  deriving DecidableEq, Repr

/-- `callback_arg` of the pcb: unset, the stack's reference that the listening pcb hands down,
or the connection's `TFObjectRef`. -/
inductive CallbackArg | null | stack | conn
  deriving DecidableEq, Repr

/-- The receive callback of the pcb; a fresh pcb has `tcp_recv_null`. -/
inductive RecvFn | null | recvNull | tf
  deriving DecidableEq, Repr

/-- The callback fields of the pcb. -/
structure Hooks where
  arg : CallbackArg
  recv : RecvFn
  sent : Bool
  poll : Bool
  pollInterval : ℕ
  errf : Bool
  ext : Bool
  deriving DecidableEq, Repr

/-- Blocks on connectionsQueue. Each captures the handler it was posted for; the readable
block captures the chain, its slices and their total length. -/
inductive CBlock
  | accepted
  | activated
  | readableBytes (p : Pbuf) (slices : List Bytes) (tot : ℕ)
  | readable (data : Bytes)
  | writableChanged (newValue : Bool)
  | sentBytes (len : ℕ)
  | readEOF
  | terminated (reason : Reason)
  deriving DecidableEq, Repr

/-- Blocks on packetsQueue: freeing a delivered chain with its slice array, and the answer to
`didAcceptNewTCPConnection`. -/
inductive PBlock
  | release (p : Pbuf)
  | decision (accept : Bool)
  deriving DecidableEq, Repr

/-- What became of a block when it ran: it called the user, or it found the connection no
longer alive, or its object gone. -/
inductive Outcome | called | dead | gone
  deriving DecidableEq, Repr

/-- Raw API calls made by TunForge. -/
inductive LwipCall
  | recved (len : ℕ)
  | write (len : ℕ)
  | output
  | shutdown
  | close
  | abort
  | backlogAccepted
  | backlogDelayed
  | attach
  | detach
  deriving DecidableEq, Repr

/-- Memory TunForge gives back: a chain by `pbuf_free`, a slice array by `free`. -/
inductive Freed
  | pbuf (p : Pbuf)
  | slices (p : Pbuf)
  deriving DecidableEq, Repr

/-- The callbacks that lwIP invokes with the connection's `TFObjectRef`. -/
inductive Callback | recv | sent | poll | err
  deriving DecidableEq, Repr

/-- One payload offered to the receive callback, and whether it was taken. -/
structure Offer where
  p : Pbuf
  accepted : Bool
  deriving DecidableEq, Repr

/-- History, read by no part of the program: callbacks into TunForge with the owner count of
their argument, raw API calls, blocks posted, blocks run, offers, memory freed, and the bytes
handed to readable handlers and credited back for them. -/
structure Log where
  calls : List (Callback × ℕ)
  lwip : List LwipCall
  posted : List CBlock
  trace : List (CBlock × Outcome)
  offers : List Offer
  freed : List Freed
  handed : ℕ
  credited : ℕ
  deriving DecidableEq, Repr

/-- What TunForge takes from its surroundings: whether `malloc` succeeds, `sys_now`, whether
the stack and its delegate exist, and whether the owner lets go of the connection object
while `tcp_abandon` or `tcp_slowtmr` is between freeing the pcb and the err callback. -/
structure TfEnv where
  malloc : Bool
  now : ℕ
  stack : Bool
  delegate : Bool
  releaseInGap : Bool
  deriving DecidableEq, Repr

/-- One connection with all that surrounds it. `pcb` is `none` once lwIP has freed it. The
ext-arg reference to the bridge object is outstanding while `extHeld`, and has been given
back `extGiven` times. -/
structure Sys (P : Type) where
  pcb : Option P
  hooks : Hooks
  connExists : Bool
  conn : Conn
  ref : ObjectRef
  extHeld : Bool
  extGiven : ℕ
  connectionsQueue : List CBlock
  packetsQueue : List PBlock
  completions : List Pbuf
  acceptPending : Bool
  env : TfEnv
  log : Log

/-- Owners of the bridge object: the connection's strong `pcbRef` and the ext-arg reference. -/
def Sys.owners {P : Type} (s : Sys P) : ℕ :=
  (if s.connExists then 1 else 0) + if s.extHeld then 1 else 0

/-- The part of the raw API that TunForge uses on a connection's pcb. -/
class RawApi (P : Type) where
  rcvWnd : P → ℕ
  rcvLowWater : P → ℕ
  sndBuf : P → ℕ
  inTimeWait : P → Bool
  recved : P → ℕ → P
  write : P → Bytes → P × Err
  output : P → P
  shutdownTx : P → P
  close : P → CloseOutcome P
  backlogAccepted : P → P
  backlogDelayed : P → P

variable {P : Type}

namespace Sys

/-- `connectionsPerformAsync:` from packetsQueue. -/
def post (b : CBlock) (s : Sys P) : Sys P :=
  { s with
    connectionsQueue := s.connectionsQueue ++ [b]
    log := { s.log with posted := s.log.posted ++ [b] } }

/-- Post a block if its handler is set. -/
def postIf (set : Bool) (b : CBlock) (s : Sys P) : Sys P :=
  let bs := if set then [b] else []
  { s with
    connectionsQueue := s.connectionsQueue ++ bs
    log := { s.log with posted := s.log.posted ++ bs } }

/-- A raw API call that changes nothing but the pcb. -/
def callLwip (c : LwipCall) (f : P → P) (s : Sys P) : Sys P :=
  { s with pcb := s.pcb.map f, log := { s.log with lwip := s.log.lwip ++ [c] } }

def free (m : Freed) (s : Sys P) : Sys P :=
  { s with log := { s.log with freed := s.log.freed ++ [m] } }

end Sys

def detachedHooks (ext : Bool) : Hooks := ⟨.null, .null, false, false, 0, false, ext⟩

/-- `clearCallbackLocked`. -/
def clearCallbackLocked (s : Sys P) : Sys P :=
  let s := if s.conn.pcb then
      { s.callLwip .detach id with hooks := detachedHooks s.hooks.ext }
    else s
  { s with ref := ⟨false, false⟩ }

/-- `terminateLocked:`. -/
def terminateLocked (reason : Reason) (s : Sys P) : Sys P :=
  if s.conn.didNotifyTerminated then s
  else
    let s := { s with conn := { s.conn with didNotifyTerminated := true } }
    let s := if s.conn.pcb then clearCallbackLocked s else s
    let s := { s with conn := { s.conn with
      alive := false, state := .closed, terminationReason := reason, pendingClose := false } }
    s.postIf s.conn.handlers.onTerminated (.terminated reason)

/-- `receivedPcbDestroyed`. -/
def receivedPcbDestroyed (s : Sys P) : Sys P :=
  if s.conn.didNotifyTerminated then s
  else terminateLocked .destroyed { s with conn := { s.conn with pcb := false } }

/-- `tf_tcp_extarg_destroy`, which ends with `TFObjectRefRelease`. -/
def tfTcpExtargDestroy (s : Sys P) : Sys P :=
  let obj := s.ref.object && s.connExists
  let s := { s with ref := ⟨false, false⟩ }
  let s := if obj then receivedPcbDestroyed s else s
  { s with extHeld := false, extGiven := s.extGiven + 1 }

/-- `tcp_free`: the ext-arg destroy callback, then the memory of the pcb is given back. -/
def tcpFree (s : Sys P) : Sys P :=
  let s := if s.hooks.ext then tfTcpExtargDestroy s else s
  { s with pcb := none, hooks := detachedHooks false }

/-- `tf_conn_from_arg`: the argument leads to the connection object. -/
def tfConnFromArg (arg : CallbackArg) (s : Sys P) : Bool :=
  decide (arg = .conn) && s.ref.alive && s.ref.object && s.connExists

/-- `tf_tcp_err`. -/
def tfTcpErr (arg : CallbackArg) (err : Err) (s : Sys P) : Sys P :=
  if tfConnFromArg arg s && s.conn.alive then
    terminateLocked (if err = .rst then .reset else .abort)
      { s with conn := { s.conn with pcb := false } }
  else s

/-- Record that lwIP invokes a callback with the bridge object, and with how many owners. -/
def noteCall (cb : Callback) (arg : CallbackArg) (s : Sys P) : Sys P :=
  if arg = .conn then { s with log := { s.log with calls := s.log.calls ++ [(cb, s.owners)] } }
  else s

/-- `TCP_EVENT_ERR` with the callback and argument that were read from the pcb. -/
def eventErr (hooks : Hooks) (err : Err) (s : Sys P) : Sys P :=
  if hooks.errf then tfTcpErr hooks.arg err (noteCall .err hooks.arg s) else s

/-- The owner drops its last reference, and with it an accept handler it has not called. The
object is deallocated unless the accept block or the block with its answer still retains it.
There is no `dealloc` method: nothing is detached. -/
def releaseConnection (s : Sys P) : Sys P :=
  if CBlock.accepted ∈ s.connectionsQueue ∨ PBlock.decision false ∈ s.packetsQueue ∨
      PBlock.decision true ∈ s.packetsQueue then s
  else { s with connExists := false, acceptPending := false }

/-- Free the pcb, then report `ERR_ABRT` through the err callback saved before, as `tcp_abandon`
and the removal branch of `tcp_slowtmr` do. With `gap` the owner lets go in between. -/
def freeThenErr (gap : Bool) (s : Sys P) : Sys P :=
  let hooks := s.hooks
  let s := tcpFree s
  let s := if gap then releaseConnection s else s
  eventErr hooks .abrt s

/-- What follows an `ERR_OK` from `tcp_close`: the pcb may be gone and is not touched again. -/
def closeSucceeded (s : Sys P) : Sys P :=
  terminateLocked .close { s with conn := { s.conn with pcb := false, pendingClose := false } }

/-- `notifyActiveOnceLocked`. -/
def notifyActiveOnceLocked (s : Sys P) : Sys P :=
  if s.conn.didNotifyActive then s
  else
    let s := { s with conn := { s.conn with didNotifyActive := true } }
    s.postIf s.conn.handlers.onActivated .activated

/-- `setInboundDeliveryEnabled:`. -/
def setInboundDeliveryEnabled (enabled : Bool) (s : Sys P) : Sys P :=
  { s with conn := { s.conn with recvEnabled := enabled } }

/-- An `NSUInteger` read as an `NSInteger`. -/
def nsInteger (n : ℕ) : ℤ := if n < 2 ^ 63 then n else n - 2 ^ 64

/-- `updateInflightAckBytes:`. -/
def updateInflightAckBytes (delta : ℤ) (s : Sys P) : Sys P :=
  let inflight := s.conn.inflightAckBytes
  let inflight :=
    if 0 ≤ delta then (inflight + delta.toNat) % 2 ^ 64
    else if inflight ≤ (-delta).toNat then 0 else inflight - (-delta).toNat
  { s with conn := { s.conn with inflightAckBytes := inflight } }

/-- `updateWritableLocked:`. -/
def updateWritableLocked (newValue : Bool) (s : Sys P) : Sys P :=
  if s.conn.writable = newValue then s
  else
    let s := { s with conn := { s.conn with writable := newValue } }
    s.postIf s.conn.handlers.onWritableChanged (.writableChanged newValue)

/-- `TFTCPWriteStatus`. -/
inductive WriteStatus | ok | wouldBlock | closed | overflow | error
  deriving DecidableEq, Repr

section

variable [RawApi P]

/-- `tcp_abandon` as far as it reaches beyond the pcb. A TIME-WAIT pcb is freed silently. -/
def tcpAbandon (gap : Bool) (s : Sys P) : Sys P :=
  match s.pcb with
  | none => s
  | some pcb => if RawApi.inTimeWait pcb then tcpFree s else freeThenErr gap s

/-- `tcp_abort` called by TunForge, whose caller holds the connection object throughout. -/
def tcpAbort (s : Sys P) : Sys P := tcpAbandon false (s.callLwip .abort id)

/-- `abortLocked:`. -/
def abortLocked (reason : Reason) (s : Sys P) : Sys P :=
  if !s.conn.alive || s.conn.state = .closed then s
  else
    let s := { s with conn := { s.conn with state := .closing } }
    let s := if s.conn.pcb then
        let s := clearCallbackLocked s
        let s := { s with conn := { s.conn with pcb := false } }
        tcpAbort s
      else s
    terminateLocked reason s

/-- `tryGracefulCloseLocked`. -/
def tryGracefulCloseLocked (s : Sys P) : Sys P :=
  if !s.conn.alive || s.conn.state = .closed then s
  else if !s.conn.pcb then terminateLocked .close s
  else
    let s := { s with conn := { s.conn with state := .closing } }
    match s.pcb.map RawApi.close with
    | none => s
    | some .freed => closeSucceeded (tcpFree (s.callLwip .close id))
    | some (.returned pcb err) =>
      let s := s.callLwip .close fun _ => pcb
      match err with
      | .ok => closeSucceeded s
      | .mem => { s with conn := { s.conn with pendingClose := true } }
      | _ => abortLocked .abort s

/-- `gracefulClose`. -/
def gracefulClose (s : Sys P) : Sys P :=
  if !s.conn.alive then s
  else if !s.conn.pcb then terminateLocked .close s
  else tryGracefulCloseLocked s

/-- `abort`. -/
def abort (s : Sys P) : Sys P := abortLocked .abort s

/-- `markActive`. -/
def markActive (s : Sys P) : Sys P :=
  if !s.conn.alive || !s.conn.pcb then s
  else if s.conn.state ≠ .new then s
  else
    let s := { s with conn := { s.conn with state := .active } }
    notifyActiveOnceLocked (s.callLwip .backlogAccepted RawApi.backlogAccepted)

/-- The chunk loop of `acknowledgeDeliveredBytes:`; `tcp_recved` takes a `u16_t`. -/
def recvedLoop : ℕ → ℕ → Sys P → Sys P
  | 0, _, s => s
  | fuel + 1, remaining, s =>
    if remaining = 0 then s
    else
      let chunk := min remaining 0xFFFF
      recvedLoop fuel (remaining - chunk) (s.callLwip (.recved chunk) (RawApi.recved · chunk))

/-- `acknowledgeDeliveredBytes:`. -/
def acknowledgeDeliveredBytes (bytes : ℕ) (s : Sys P) : Sys P :=
  if !s.conn.alive || !s.conn.pcb then s
  else if s.conn.state ≠ .active then s
  else if bytes = 0 ∨ s.conn.inflightAckBytes = 0 then s
  else
    let credit := min bytes s.conn.inflightAckBytes
    let s := recvedLoop credit credit s
    let s := { s with log := { s.log with credited := s.log.credited + credit } }
    updateInflightAckBytes (-nsInteger credit) s

/-- `tf_tcp_write_ready`. -/
def tfTcpWriteReady (s : Sys P) : Bool :=
  match s.pcb with
  | none => false
  | some pcb => decide (tcpSndLowat ≤ RawApi.sndBuf pcb)

/-- `tf_tcp_read_ready`. -/
def tfTcpReadReady (s : Sys P) : Bool :=
  match s.pcb with
  | none => false
  | some pcb => decide (RawApi.rcvLowWater pcb ≤ RawApi.rcvWnd pcb)

/-- `writeBytes:length:`, with the count and status of its `TFTCPWriteResult`. -/
def writeBytes (bytes : Bytes) (s : Sys P) : Sys P × ℕ × WriteStatus :=
  if bytes = [] then (s, 0, .overflow)
  else if 0xFFFF < bytes.length then (s, 0, .overflow)
  else if !s.conn.alive || !s.conn.pcb || s.conn.state ≠ .active || s.conn.writeFIN then
    (s, 0, .closed)
  else
    match s.pcb.map (RawApi.write · bytes) with
    | none => (s, 0, .closed)
    | some (pcb, err) =>
      let s := s.callLwip (.write bytes.length) fun _ => pcb
      match err with
      | .ok =>
        let s := s.callLwip .output RawApi.output
        (updateWritableLocked (tfTcpWriteReady s) s, bytes.length, .ok)
      | .mem => (updateWritableLocked false s, 0, .wouldBlock)
      | _ => (abortLocked .abort s, 0, .error)

/-- `writeData:`. -/
def writeData (data : Bytes) (s : Sys P) : Sys P × ℕ × WriteStatus :=
  if 0xFFFF < data.length then (s, 0, .overflow) else writeBytes data s

/-- `shutdownWrite`. -/
def shutdownWrite (s : Sys P) : Sys P :=
  if !s.conn.alive || !s.conn.pcb then s
  else if s.conn.state = .closed then s
  else if s.conn.writeFIN then s
  else
    let s := { s with conn := { s.conn with writeFIN := true } }
    (s.callLwip .shutdown RawApi.shutdownTx).callLwip .output RawApi.output

/-- The methods of `TFTCPConnection.h`. -/
inductive ApiCall
  | markActive
  | setInboundDeliveryEnabled (enabled : Bool)
  | acknowledgeDeliveredBytes (bytes : ℕ)
  | writeBytes (bytes : Bytes)
  | writeData (data : Bytes)
  | shutdownWrite
  | gracefulClose
  | abort
  deriving DecidableEq, Repr

def apiCall (s : Sys P) : ApiCall → Sys P
  | .markActive => markActive s
  | .setInboundDeliveryEnabled enabled => setInboundDeliveryEnabled enabled s
  | .acknowledgeDeliveredBytes bytes => acknowledgeDeliveredBytes bytes s
  | .writeBytes bytes => (writeBytes bytes s).1
  | .writeData data => (writeData data s).1
  | .shutdownWrite => shutdownWrite s
  | .gracefulClose => gracefulClose s
  | .abort => abort s

end

end TunForge.Connection
