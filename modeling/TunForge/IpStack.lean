import TunForge.BacklogSlots

/-! The whole stack: `TFIPStack` with its netif and listener, and all the connections lwIP
knows of, each of which is a connection of the running stack. -/
namespace TunForge.IpStack
open SerialNumber LwipTypes TcpIn Tcp Connection Callbacks Stack WorkFrames BacklogSlots

variable {o : Platform}

/-! ### Addresses -/

/-- A connection as its pcb knows it. -/
structure FourTuple where
  localIp : BitVec 32
  localPort : BitVec 16
  remoteIp : BitVec 32
  remotePort : BitVec 16
  deriving DecidableEq

/-- The addresses and ports of an arriving segment. -/
structure Header where
  srcIp : BitVec 32
  srcPort : BitVec 16
  dstIp : BitVec 32
  dstPort : BitVec 16
  deriving DecidableEq

/-- The pcb the segment is for: its destination is the local side. -/
def Header.tuple (hdr : Header) : FourTuple := ⟨hdr.dstIp, hdr.dstPort, hdr.srcIp, hdr.srcPort⟩

/-- `TFTCPConnectionInfo`. -/
structure Info where
  srcIP : String
  srcPort : BitVec 16
  dstIP : String
  dstPort : BitVec 16
  deriving DecidableEq

/-- `tf_ipv4_to_string`. -/
def tfIpv4ToString (addr : BitVec 32) : String :=
  let octet (n : ℕ) : String := toString (addr.toNat / 256 ^ n % 256)
  octet 3 ++ "." ++ octet 2 ++ "." ++ octet 1 ++ "." ++ octet 0

/-- The `info` that `initWithTCPPcb:` reads off the pcb: the peer is the source. -/
def connectionInfo (t : FourTuple) : Info :=
  ⟨tfIpv4ToString t.remoteIp, t.remotePort, tfIpv4ToString t.localIp, t.localPort⟩

/-- The local address of the virtual netif, 198.18.0.1. -/
def netifAddr : BitVec 32 := 0xC6120001

/-! ### State -/

/-- A pcb with the connection made for it. `syn` remembers the SYN it came of; `listener` is the
listen pcb it points to as long as its own flag says so, and `arg` the callback argument it was
given. Once the pcb has been freed only the connection object is left. -/
structure Link (o : Platform) where
  syn : Header
  tuple : FourTuple
  listener : ℕ
  arg : Option ℕ
  info : Option Info
  sys : State o

structure ListenPcb where
  id : ℕ
  backlog : ℕ
  acceptsPending : ℕ
  callbackArg : Option ℕ
  deriving DecidableEq

/-- `tunforge_virtual_netif`, with its place on `netif_list` and as `netif_default`. -/
structure Netif where
  onList : Bool
  isDefault : Bool
  up : Bool
  hasAddr : Bool
  hasInput : Bool
  state : Option ℕ
  deriving DecidableEq

/-- A `TFObjectRef` to the stack, with how often it was retained for lwIP and released again. -/
structure StackRef where
  alive : Bool
  retained : ℕ
  released : ℕ
  deriving DecidableEq

/-- The callbacks into `TFIPStack`. -/
inductive Callback | accept | output
  deriving DecidableEq

/-- A callback with its argument, and whether that had been released or invalidated by then. -/
structure Call where
  callback : Callback
  arg : Option ℕ
  stale : Bool
  deriving DecidableEq

/-- `tcp_active_pcbs` and `tcp_tw_pcbs` are the links whose pcb is on that list, in this order;
`miscounted` says that `accepts_pending` has been zero at a decrement or has wrapped. -/
structure Host (o : Platform) where
  links : List (Link o)
  listenPcbs : List ListenPcb
  netif : Netif
  refs : List StackRef
  stackRef : Option ℕ
  state : Option ℕ
  ready : Bool
  listener : Option ℕ
  timer : Bool
  nextId : ℕ
  calls : List Call
  miscounted : Bool

/-- After `initPrivate`. -/
def boot (o : Platform) : Host o where
  links := []
  listenPcbs := []
  netif := ⟨false, false, false, false, false, none⟩
  refs := [⟨true, 0, 0⟩]
  stackRef := some 0
  state := none
  ready := false
  listener := none
  timer := false
  nextId := 0
  calls := []
  miscounted := false

/-! ### Callbacks into the stack -/

/-- `get_stack_from_arg` finds the stack. -/
def Host.refAlive (h : Host o) (arg : Option ℕ) : Bool :=
  arg.any fun r => h.refs[r]?.any fun ref => ref.alive

/-- The argument is a reference that has been invalidated or released. -/
def Host.stale (h : Host o) (arg : Option ℕ) : Bool :=
  arg.any fun r => !h.refs[r]?.any fun ref => ref.alive && decide (ref.released < ref.retained)

def Host.call (c : Callback) (arg : Option ℕ) (h : Host o) : Host o :=
  { h with calls := h.calls ++ [⟨c, arg, h.stale arg⟩] }

/-- `ip4_route` finds the netif for a destination. -/
def Host.route (h : Host o) (dest : BitVec 32) : Bool :=
  h.netif.up && h.netif.hasAddr &&
    (h.netif.onList && (decide (dest.toNat / 2 ^ 16 = netifAddr.toNat / 2 ^ 16) ||
      decide (dest = 0)) ||
      h.netif.isDefault && !decide (dest.toNat / 2 ^ 24 = 127))

/-- `netif->output`, which is `tunforge_output`. -/
def Host.output (h : Host o) : Host o := h.call .output h.netif.state

/-- An IP packet that lwIP sends to `dest`. -/
def Host.send (h : Host o) (dest : BitVec 32) : Host o := if h.route dest then h.output else h

/-! ### Connections -/

/-- Backlog calls for a pcb whose listener is `id` and whose flag is `pend`. -/
def charge (id : ℕ) (pend : Bool) (cs : List BacklogCall) (h : Host o) : Host o :=
  match h.listenPcbs.find? fun lp => lp.id = id with
  | none => h
  | some lp =>
    let t := cs.foldl backlogCall ⟨pend, lp.acceptsPending, h.miscounted⟩
    { h with
      listenPcbs := h.listenPcbs.map fun q => if q.id = id then { q with
        acceptsPending := t.pending } else q
      miscounted := t.failed }

/-- The backlog calls that an event makes for a pcb. -/
def chargeCalls (l : Link o) (e : Event) (h : Host o) : Host o :=
  match l.sys.pcb with
  | none => h
  | some p => if p.listener then charge l.listener p.backlogPend (backlogCalls l.sys e) h else h

/-- An event of one connection. -/
def stepLink (i : ℕ) (e : Event) (h : Host o) : Host o :=
  match h.links[i]? with
  | none => h
  | some l => { chargeCalls l e h with links := h.links.set i { l with sys := step l.sys e } }

/-- An event that lwIP takes all connections meeting `p` through, one after the other. -/
def stepAll (p : Link o → Bool) (e : Event) (h : Host o) : Host o :=
  (List.range h.links.length).foldl (fun h i => if h.links[i]?.any p then stepLink i e h else h) h

/-- The accept callback is called for the link: the argument is the one its pcb was given, and the
connection object is made if that leads to the stack. -/
def acceptLink (i : ℕ) (l : Link o) (h : Host o) : Host o :=
  let h := h.call .accept l.arg
  if h.refAlive l.arg then { h with
    links := h.links.modify i fun l => { l with info := some (connectionInfo l.tuple) } }
  else h

/-- A segment for the pcb of a link. -/
def inputLink (i : ℕ) (seg : Segment) (h : Host o) : Host o :=
  match h.links[i]? with
  | none => h
  | some l =>
    let h := stepLink i (.app (.env { l.sys.env with stack := h.refAlive l.arg })) h
    stepLink i (.segment seg) (if acceptCall l.sys seg then acceptLink i l h else h)

def Link.onList (list : PcbList) (l : Link o) : Bool :=
  l.sys.pcb.any fun p => decide (p.list = list)

def Link.matches (list : PcbList) (t : FourTuple) (l : Link o) : Bool :=
  l.onList list && decide (l.tuple = t)

def moveToFront (i : ℕ) (ls : List (Link o)) : List (Link o) :=
  match ls[i]? with
  | none => ls
  | some l => l :: ls.eraseIdx i

/-! ### New pcbs -/

/-- `MEMP_NUM_TCP_PCB`. -/
def memNumTcpPcb : Platform → ℕ
  | .ios => 256
  | .macos => 512

/-- The pool has a pcb left. -/
def Host.freePcb (h : Host o) : Bool :=
  decide (h.links.countP (fun l => l.sys.pcb.isSome) < memNumTcpPcb o)

/-- The link whose pcb meets `p` and has been inactive for longest, the last of several. -/
def oldest (p : Pcb o → Bool) (ls : List (Link o)) : Option ℕ :=
  (ls.zipIdx.foldl (fun (best : ℕ × Option ℕ) l =>
    match l.1.sys.pcb with
    | some q =>
      if p q ∧ best.1 ≤ (q.ticks - q.tmr) % 2 ^ 32 then ((q.ticks - q.tmr) % 2 ^ 32, some l.2)
      else best
    | none => best) (0, none)).2

def killOldest (p : Pcb o → Bool) (e : Event) (h : Host o) : Host o :=
  match oldest p h.links with
  | some i => stepLink i e h
  | none => h

/-- `tcp_alloc`. All pcbs have the same priority, so `tcp_kill_prio` finds none to kill. -/
def tcpAlloc (h : Host o) : Host o × Bool :=
  if h.freePcb then (h, true)
  else
    let h := stepAll (fun _ => true) .handleClosepend h
    let h := killOldest (fun q => decide (q.list = .timeWait)) .killTimewait h
    if h.freePcb then (h, true)
    else
      let h := killOldest (fun q => decide (q.list = .active ∧ q.state = .lastAck)) .killState h
      if h.freePcb then (h, true)
      else
        let h := killOldest (fun q => decide (q.list = .active ∧ q.state = .closing)) .killState h
        (h, h.freePcb)

/-- What lwIP has at hand when it answers a SYN. -/
structure Opening where
  iss : Seq
  env : Env
  ticks : ℕ
  tf : TfEnv

/-- `tcp_listen_input` for a SYN. A pcb whose SYN|ACK cannot be queued is abandoned again, and
gives its slot back. -/
def listenInput (lp : ListenPcb) (hdr : Header) (seg : Segment) (op : Opening) (h : Host o) :
    Host o :=
  if seg.rst then h
  else if lp.backlog ≤ lp.acceptsPending then h
  else
    match tcpAlloc h with
    | (h, false) => h.call .accept lp.callbackArg
    | (h, true) =>
      match tcpListenInput o seg op.iss op.env op.ticks with
      | none => charge lp.id false [.delayed, .accepted] h
      | some pcb =>
        { charge lp.id false [.delayed] h with
          links := ⟨hdr, hdr.tuple, lp.id, lp.callbackArg, none, opened pcb op.tf⟩ :: h.links }

/-- `tcp_input`: the active pcbs are tried first, the one that matches moving to the front, then
those in TIME-WAIT, and then a SYN goes to the listener whatever it is addressed to. The listener's
answers to other segments make no pcb. -/
def tcpInput (hdr : Header) (seg : Segment) (op : Opening) (h : Host o) : Host o :=
  match h.links.findIdx? (Link.matches .active hdr.tuple) with
  | some i => inputLink 0 seg { h with links := moveToFront i h.links }
  | none =>
    match h.links.findIdx? (Link.matches .timeWait hdr.tuple) with
    | some i => inputLink i seg h
    | none =>
      match h.listenPcbs with
      | [] => h
      | lp :: _ => if seg.syn && !seg.ack then listenInput lp hdr seg op h else h

/-! ### `TFIPStack` -/

def modRef (arg : Option ℕ) (f : StackRef → StackRef) (h : Host o) : Host o :=
  match arg with
  | none => h
  | some r => { h with refs := h.refs.modify r f }

/-- `tcp_new`, `tcp_bind`, `tcp_listen` and what becomes of a failure: without a pcb the later
calls do nothing and there is no listener. -/
def setupListener (dests : List (BitVec 32)) (h : Host o) : Host o :=
  let (h, pcb) := tcpAlloc h
  let h := dests.foldl Host.send h
  if pcb && decide (h.listenPcbs.length < 32) then
    { h with
      listenPcbs := ⟨h.nextId, 0xFF, 0, h.state⟩ :: h.listenPcbs
      listener := some h.nextId
      nextId := h.nextId + 1 }
  else { h with listener := none }

/-- `setupLockedOnLWIPQueue`; `dests` are the destinations of what `tcp_new` sends when it makes
closing pcbs go on. -/
def setupLockedOnLWIPQueue (dests : List (BitVec 32)) (h : Host o) : Host o :=
  if h.ready then h
  else
    let h := modRef h.stackRef (fun ref => { ref with retained := ref.retained + 1 }) { h with
      ready := true }
    setupListener dests { h with
      state := h.stackRef, netif := ⟨true, true, true, true, true, h.stackRef⟩ }

def start (dests : List (BitVec 32)) (h : Host o) : Host o :=
  let h := if h.refAlive h.stackRef then h
    else { h with refs := h.refs ++ [⟨true, 0, 0⟩], stackRef := some h.refs.length }
  setupLockedOnLWIPQueue dests { h with timer := true }

/-- `tcp_close` of the listener: no pcb points to it any more. -/
def closeListener (h : Host o) : Host o :=
  match h.listener with
  | none => h
  | some id =>
    let h := stepAll (fun l => decide (l.listener = id)) .listenerClosed h
    { h with listenPcbs := h.listenPcbs.filter fun lp => lp.id ≠ id, listener := none }

/-- `netif_set_down` and `netif_remove`, which aborts the connections bound to the address of the
netif; `dests` are the destinations of the resets it tries to send. -/
def removeNetif (dests : List (BitVec 32)) (h : Host o) : Host o :=
  let h := { h with netif := { h.netif with up := false } }
  let h := if h.netif.hasAddr then
      dests.foldl Host.send (stepAll (fun l => decide (l.tuple.localIp = netifAddr))
        .netifIpAddrChanged h)
    else h
  { h with netif := { h.netif with isDefault := false, onList := false } }

def stop (dests : List (BitVec 32)) (h : Host o) : Host o :=
  let h := modRef h.stackRef (fun ref => { ref with alive := false }) { h with timer := false }
  let h := closeListener { h with stackRef := none, ready := false }
  let h := if h.netif.state = h.state then
      let h := removeNetif dests h
      { h with netif := { h.netif with state := none } }
    else h
  let h := modRef h.state (fun ref => { ref with released := ref.released + 1 }) h
  { h with state := none }

/-- A packet for `inputPacket:`: a TCP segment that passes lwIP's checks, or anything else. The
packets sent in answer go to `dests`, or straight back through the netif. -/
structure Packet where
  tcp : Option (Header × Segment × Opening)
  dests : List (BitVec 32)
  replies : ℕ

/-- `inputPacket:`. -/
def inputPacket (p : Packet) (h : Host o) : Host o :=
  if !(h.refAlive h.stackRef && h.ready && h.netif.hasInput) then h
  else
    let h := match p.tcp with
      | some (hdr, seg, op) => tcpInput hdr seg op h
      | none => h
    p.replies.repeat Host.output (p.dests.foldl Host.send h)

/-- The events of a connection that come from elsewhere: segments and the ends of listener and
netif reach it through the stack. -/
def fromStack : Event → Bool
  | .segment _ | .listenerClosed | .netifIpAddrChanged => true
  | _ => false

/-- What can happen to the stack. Timers, method calls and changes of the surroundings reach the
connections one by one. -/
inductive HostEvent
  | start (dests : List (BitVec 32))
  | stop (dests : List (BitVec 32))
  | inputPacket (p : Packet)
  | link (i : ℕ) (e : Event) (dests : List (BitVec 32))

def hostStep (h : Host o) : HostEvent → Host o
  | .start dests => start dests h
  | .stop dests => stop dests h
  | .inputPacket p => inputPacket p h
  | .link i e dests => if fromStack e then h else dests.foldl Host.send (stepLink i e h)

end TunForge.IpStack
