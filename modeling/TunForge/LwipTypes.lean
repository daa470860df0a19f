import TunForge.SerialNumber
import TunForge.PbufChain

/-! The data of the lwIP TCP layer: option sets, error codes, segments and the
protocol control block. -/
namespace TunForge.LwipTypes
open SerialNumber PbufChain

/-- The two option sets, `lwipopts_ios.h` and `lwipopts_macos.h`. -/
inductive Platform | ios | macos
  deriving DecidableEq, Repr

namespace Platform

def lwipWndScale : Platform → Bool
  | ios => false
  | macos => true

def tcpWnd : Platform → ℕ
  | ios => 32 * 1024
  | macos => 65535

def tcpSndBuf : Platform → ℕ
  | ios => 16 * 1024
  | macos => 512 * 1024

/-- `TCP_RCVLOWAT`, which only the macOS options define. -/
def tcpRcvLowat : Platform → Option ℕ
  | ios => none
  | macos => some (2 * 1460)

/-- The range of `tcpwnd_size_t`, which is 32 bits wide only with window scaling. -/
def wndMod (o : Platform) : ℕ := if o.lwipWndScale then 2 ^ 32 else 2 ^ 16

end Platform

def tcpMss : ℕ := 1460

def tcpSndLowat : ℕ := 2 * tcpMss

/-- `TCP_SND_QUEUELEN`. -/
def tcpSndQueuelen (o : Platform) : ℕ := 2 * (o.tcpSndBuf / tcpMss)

/-- `TCP_WND_UPDATE_THRESHOLD`. -/
def tcpWndUpdateThreshold (o : Platform) : ℕ := min (o.tcpWnd / 4) (tcpMss * 4)

inductive TcpState
  | closed | listen | synSent | synRcvd | established | finWait1 | finWait2 | closeWait
  | closing | lastAck | timeWait
  deriving DecidableEq, Repr

/-- The value of the C enumerator, for the order tests of `tcp_receive`. -/
def TcpState.rank : TcpState → ℕ
  | closed => 0
  | listen => 1
  | synSent => 2
  | synRcvd => 3
  | established => 4
  | finWait1 => 5
  | finWait2 => 6
  | closeWait => 7
  | closing => 8
  | lastAck => 9
  | timeWait => 10

/-- `err_t`. -/
inductive Err
  | ok | mem | buf | timeout | rte | inprogress | val | wouldblock | use | already | isconn
  | conn | intf | abrt | rst | clsd | arg
  deriving DecidableEq, Repr

/-- An incoming segment as `tcp_input` has parsed it. It came in one IPv4 packet, so its
payload leaves room for the two headers in a 16-bit total length. -/
structure Segment where
  seqno : Seq
  ackno : Seq
  syn : Bool
  fin : Bool
  rst : Bool
  ack : Bool
  wnd : ℕ
  mss : Option ℕ
  wndScale : Option ℕ
  p : Pbuf
  fits : p.size + 40 < 2 ^ 16
  deriving DecidableEq

/-- The global `tcplen`: payload plus one for SYN or FIN. -/
def Segment.tcplen (seg : Segment) : ℕ := seg.p.size + if seg.fin || seg.syn then 1 else 0

/-- A `tcp_seg` of the receive side. `len` is kept beside the pbuf, as in the source. -/
structure RxSeg where
  seqno : Seq
  len : ℕ
  fin : Bool
  p : Pbuf
  deriving DecidableEq, Repr

/-- `TCP_TCPLEN`; a SYN never reaches the receive queues. -/
def RxSeg.tcplen (seg : RxSeg) : ℕ := seg.len + if seg.fin then 1 else 0

/-- The first sequence number after the payload. -/
def RxSeg.textEnd (seg : RxSeg) : Seq := seg.seqno + BitVec.ofNat 32 seg.len

/-- A `tcp_seg` of the send side; `clen` counts the cells of its pbuf. -/
structure TxSeg where
  seqno : Seq
  data : Bytes
  optlen : ℕ
  clen : ℕ
  syn : Bool
  fin : Bool
  deriving DecidableEq, Repr

def TxSeg.tcplen (seg : TxSeg) : ℕ := seg.data.length + if seg.fin || seg.syn then 1 else 0

/-- The send half of a pcb. -/
structure Tx where
  sndNxt : Seq
  lastack : Seq
  sndLbb : Seq
  sndWl1 : Seq
  sndWl2 : Seq
  sndWnd : ℕ
  sndWndMax : ℕ
  sndScale : ℕ
  sndBuf : ℕ
  sndQueuelen : ℕ
  unsentOversize : ℕ
  unsent : List TxSeg
  unacked : List TxSeg
  nagleMemErr : Bool
  finQueued : Bool
  deriving DecidableEq, Repr

/-- What lwIP takes from its surroundings: whether its pools can serve a request,
whether the peer's window admits the first unsent segment and how many segments
congestion control and Nagle let out after it, whether the retransmission or
persist limit has been reached, the retransmission timeout in ticks, whether
`tcp_route` finds a way to the peer, and whether the next duplicate
acknowledgement is the third, which `tcp_rexmit_fast` answers. `later` has the
window and the number for the calls of `tcp_output` that follow the next one. -/
structure Env where
  mem : Bool
  headFits : Bool
  quota : ℕ
  exhausted : Bool
  rto : ℕ
  route : Bool
  fastRexmit : Bool
  later : List (Bool × ℕ)
  deriving DecidableEq, Repr

/-- The surroundings after a call of `tcp_output`. -/
def Env.next (env : Env) : Env :=
  match env.later with
  | [] => env
  | (headFits, quota) :: later => { env with headFits := headFits, quota := quota, later := later }

@[simp] lemma Env.next_route (env : Env) : env.next.route = env.route := by
  unfold Env.next
  split <;> rfl

/-- Which of the global pcb lists holds the pcb. -/
inductive PcbList | active | timeWait | unlisted
  deriving DecidableEq, Repr

/-- `refused_data` together with its `PBUF_FLAG_TCP_FIN`. -/
structure Refused where
  p : Pbuf
  fin : Bool
  deriving DecidableEq, Repr

/-- The receive half of a pcb. -/
structure Rx where
  rcvNxt : Seq
  rcvWnd : ℕ
  rcvAnnWnd : ℕ
  rcvAnnRightEdge : Seq
  ooseq : List RxSeg
  refusedData : Option Refused
  deriving DecidableEq, Repr

/-- A `struct tcp_pcb`, with the timer tick count and with the two globals
`tcp_input_pcb` (does it point here) and `recv_flags & TF_CLOSED`. -/
structure Pcb (o : Platform) where
  state : TcpState
  list : PcbList
  listener : Bool
  mss : ℕ
  tmr : ℕ
  polltmr : ℕ
  ackDelay : Bool
  ackNow : Bool
  closePend : Bool
  rxClosed : Bool
  wndScale : Bool
  backlogPend : Bool
  rx : Rx
  tx : Tx
  env : Env
  ticks : ℕ
  inputPcb : Bool
  closed : Bool
  deriving DecidableEq, Repr

/-- `TCP_WND_MAX`. -/
def Pcb.wndMax {o : Platform} (pcb : Pcb o) : ℕ :=
  if o.lwipWndScale then if pcb.wndScale then o.tcpWnd else min o.tcpWnd 0xFFFF else o.tcpWnd

lemma tcpWnd_le (o : Platform) : o.tcpWnd ≤ 0xFFFF := by cases o <;> decide

lemma tcpWnd_lt_wndMod (o : Platform) : o.tcpWnd < o.wndMod := by cases o <;> decide

@[simp] lemma Pcb.wndMax_eq {o : Platform} (pcb : Pcb o) : pcb.wndMax = o.tcpWnd := by
  have := tcpWnd_le o
  unfold Pcb.wndMax
  split_ifs <;> simp [this]

end TunForge.LwipTypes
