import TunForge.StackLifecycle

/-! Segments that no connection claims. `tcp_input` has two rules for them: TunForge's own, which
gives every pure SYN to the listener, and lwIP's, which goes by the port the listener is bound
to. -/
namespace TunForge.Demultiplexer
open SerialNumber PbufChain LwipTypes TcpIn Tcp Connection Callbacks Stack
open StackRuns BacklogSlots IpStack HostRuns StackLifecycle

variable {o : Platform} {h : Host o} {lp : ListenPcb}

/-- A reset that `tcp_rst_netif` is asked to send. -/
structure Reset where
  seqno : Seq
  ackno : Seq
  tuple : FourTuple
  deriving DecidableEq

/-- What a segment leads to: the stack, the pcb made for it and not yet registered, and a reset.
What a pcb that matches sends by itself is no part of it. -/
structure Answer (o : Platform) where
  host : Host o
  pcb : Option (Link o)
  reset : Option Reset

def Answer.register (a : Answer o) : Host o :=
  match a.pcb with
  | none => a.host
  | some l => { a.host with links := l :: a.host.links }

/-- `tcp_rst_netif` as it is called for a segment. -/
def tcpRst (hdr : Header) (seg : Segment) : Reset := ⟨seg.ackno, seg.seqno + seg.tcplen, hdr.tuple⟩

/-- `tcp_listen_input`, for every combination of flags. -/
def listenAnswer (lp : ListenPcb) (hdr : Header) (seg : Segment) (op : Opening) (h : Host o) :
    Answer o :=
  if seg.rst then ⟨h, none, none⟩
  else if seg.ack then ⟨h, none, some (tcpRst hdr seg)⟩
  else if seg.syn then
    if lp.backlog ≤ lp.acceptsPending then ⟨h, none, none⟩
    else
      match tcpAlloc h with
      | (h, false) => ⟨h.call .accept lp.callbackArg, none, none⟩
      | (h, true) =>
        match tcpListenInput o seg op.iss op.env op.ticks with
        | none => ⟨charge lp.id false [.delayed, .accepted] h, none, none⟩
        | some pcb =>
          ⟨charge lp.id false [.delayed] h,
            some ⟨hdr, hdr.tuple, lp.id, lp.callbackArg, none, opened pcb op.tf⟩, none⟩
  else ⟨h, none, none⟩

/-- No pcb was found for the segment. -/
def noMatch (hdr : Header) (seg : Segment) (h : Host o) : Answer o :=
  ⟨h, none, if seg.rst then none else some (tcpRst hdr seg)⟩

/-- `tcp_input` for a segment that neither an active nor a waiting pcb matches; `port` is the
`local_port` of the listener, which is bound to any address. -/
def unclaimed (port : BitVec 16) (hdr : Header) (seg : Segment) (op : Opening) (h : Host o) :
    Answer o :=
  match h.listenPcbs with
  | [] => noMatch hdr seg h
  | lp :: _ =>
    if seg.syn && !seg.ack then listenAnswer lp hdr seg op h
    else if port = hdr.dstPort then listenAnswer lp hdr seg op h
    else noMatch hdr seg h

/-- The segment matches a pcb. -/
def claimed (hdr : Header) (h : Host o) : Bool :=
  h.links.any (Link.matches .active hdr.tuple) || h.links.any (Link.matches .timeWait hdr.tuple)

/-- `tcp_input`, with what it answers to a segment that no pcb matches. -/
def demultiplex (port : BitVec 16) (hdr : Header) (seg : Segment) (op : Opening) (h : Host o) :
    Answer o :=
  if claimed hdr h then ⟨IpStack.tcpInput hdr seg op h, none, none⟩ else unclaimed port hdr seg op h

/-! ### The same stack as before -/

lemma register_listenAnswer {seg : Segment} (hsyn : seg.syn = true) (hack : seg.ack = false)
    (lp : ListenPcb) (hdr : Header) (op : Opening) (h : Host o) :
    (listenAnswer lp hdr seg op h).register = listenInput lp hdr seg op h := by
  unfold listenAnswer listenInput
  simp only [hack, hsyn, Bool.false_eq_true, if_false, if_true]
  split_ifs
  · rfl
  · rfl
  · rcases tcpAlloc h with ⟨t, b⟩
    cases b with
    | false => rfl
    | true =>
      cases hnew : tcpListenInput o seg op.iss op.env op.ticks with
      | none => simp [Answer.register]
      | some pcb => simp [Answer.register]

lemma listenAnswer_other {seg : Segment} (hflags : (seg.syn && !seg.ack) = false) (lp : ListenPcb)
    (hdr : Header) (op : Opening) (h : Host o) :
    listenAnswer lp hdr seg op h = ⟨h, none, if seg.ack && !seg.rst then some (tcpRst hdr seg)
      else none⟩ := by
  unfold listenAnswer
  cases hr : seg.rst <;> cases ha : seg.ack <;> cases hs : seg.syn <;> simp_all

lemma register_demultiplex (port : BitVec 16) (hdr : Header) (seg : Segment) (op : Opening)
    (h : Host o) :
    (demultiplex port hdr seg op h).register = IpStack.tcpInput hdr seg op h := by
  -- registering the new pcb gives the stack that `tcpInput` leaves
  unfold demultiplex
  split_ifs with hc
  · rfl
  · simp only [claimed, Bool.or_eq_true, not_or, Bool.not_eq_true] at hc
    have hactive : h.links.findIdx? (Link.matches .active hdr.tuple) = none := by
      rw [List.findIdx?_eq_none_iff]
      exact fun l hl => by simpa using List.any_eq_false.mp hc.1 l hl
    have hwait : h.links.findIdx? (Link.matches .timeWait hdr.tuple) = none := by
      rw [List.findIdx?_eq_none_iff]
      exact fun l hl => by simpa using List.any_eq_false.mp hc.2 l hl
    unfold IpStack.tcpInput unclaimed
    rw [hactive, hwait]
    cases hl : h.listenPcbs with
    | nil => rfl
    | cons lp rest =>
      dsimp only
      split_ifs with hsyn hport
      · simp only [Bool.and_eq_true, Bool.not_eq_true'] at hsyn
        exact register_listenAnswer hsyn.1 hsyn.2 lp hdr op h
      · rw [listenAnswer_other (by simpa using hsyn)]
        rfl
      · rfl

/-! ### Renaming the destination port -/

def Header.to (d : BitVec 16) (hdr : Header) : Header := { hdr with dstPort := d }

def FourTuple.to (d : BitVec 16) (t : FourTuple) : FourTuple := { t with localPort := d }

/-- The answer with the port the segment was addressed to replaced in the new pcb and the reset. -/
def Answer.renamed (d : BitVec 16) (a : Answer o) : Answer o where
  host := a.host
  pcb := a.pcb.map fun l => { l with syn := Header.to d l.syn, tuple := FourTuple.to d l.tuple }
  reset := a.reset.map fun r => { r with tuple := FourTuple.to d r.tuple }

lemma listenAnswer_renamed (lp : ListenPcb) (hdr : Header) (d : BitVec 16) (seg : Segment)
    (op : Opening) (h : Host o) :
    listenAnswer lp (Header.to d hdr) seg op h = (listenAnswer lp hdr seg op h).renamed d := by
  unfold listenAnswer
  split_ifs
  · rfl
  · rfl
  · rfl
  · rcases tcpAlloc h with ⟨t, b⟩
    cases b with
    | false => rfl
    | true => cases tcpListenInput o seg op.iss op.env op.ticks <;> rfl
  · rfl

lemma noMatch_renamed (hdr : Header) (d : BitVec 16) (seg : Segment) (h : Host o) :
    noMatch (Header.to d hdr) seg h = (noMatch hdr seg h).renamed d := by
  unfold noMatch
  split_ifs <;> rfl

lemma listenAnswer_eq_noMatch {seg : Segment} (hflags : (seg.syn && !seg.ack) = false)
    (hf : seg.ack = true ∨ seg.rst = true) (lp : ListenPcb) (hdr : Header) (op : Opening)
    (h : Host o) :
    listenAnswer lp hdr seg op h = noMatch hdr seg h := by
  rw [listenAnswer_other hflags, noMatch]
  cases hr : seg.rst <;> cases ha : seg.ack <;> simp_all

lemma demultiplex_single (hl : h.listenPcbs = [lp]) {hdr : Header} (hc : claimed hdr h = false)
    (port : BitVec 16) (seg : Segment) (op : Opening) :
    demultiplex port hdr seg op h =
      if seg.syn && !seg.ack || decide (port = hdr.dstPort) then listenAnswer lp hdr seg op h
      else noMatch hdr seg h := by
  unfold demultiplex unclaimed
  rw [if_neg (by simp [hc]), hl]
  by_cases hsyn : (seg.syn && !seg.ack) = true
  · simp [hsyn]
  · by_cases hport : port = hdr.dstPort
    · simp [hport]
    · simp [hsyn, hport]

lemma bare_answers {seg : Segment} (hsyn : seg.syn = false) (hack : seg.ack = false)
    (hrst : seg.rst = false) (lp : ListenPcb) (hdr : Header) (op : Opening) (h : Host o) :
    (listenAnswer lp hdr seg op h).reset = none ∧
    (noMatch hdr seg h).reset = some (tcpRst hdr seg) := by
  simp [listenAnswer, noMatch, hsyn, hack, hrst]

/-- The answer to an unclaimed segment does not depend on its destination port, unless it carries
neither SYN nor ACK nor RST and one of the two ports is the listener's own. -/
theorem port_independence (hl : h.listenPcbs = [lp]) (port d₁ d₂ : BitVec 16) (hdr : Header)
    (seg : Segment) (op : Opening) (h₁ : claimed (Header.to d₁ hdr) h = false)
    (h₂ : claimed (Header.to d₂ hdr) h = false) :
    demultiplex port (Header.to d₂ hdr) seg op h =
      (demultiplex port (Header.to d₁ hdr) seg op h).renamed d₂ ↔ (d₁ = port ↔ d₂ = port) ∨
      seg.syn = true ∨ seg.ack = true ∨ seg.rst = true := by
  have hlisten : listenAnswer lp (Header.to d₂ hdr) seg op h =
      (listenAnswer lp (Header.to d₁ hdr) seg op h).renamed d₂ :=
    listenAnswer_renamed lp (Header.to d₁ hdr) d₂ seg op h
  have hnone : noMatch (Header.to d₂ hdr) seg h = (noMatch (Header.to d₁ hdr) seg h).renamed d₂ :=
    noMatch_renamed (Header.to d₁ hdr) d₂ seg h
  rw [demultiplex_single hl h₁, demultiplex_single hl h₂]
  cases hpure : seg.syn && !seg.ack with
  | true =>
    simp only [Bool.and_eq_true] at hpure
    simp [hlisten, hpure.1]
  | false =>
    simp only [Bool.false_or, decide_eq_true_eq]
    by_cases hf : seg.ack = true ∨ seg.rst = true
    · -- the two rules agree, whatever the ports
      rw [listenAnswer_eq_noMatch hpure hf, listenAnswer_eq_noMatch hpure hf, ite_self, ite_self]
      exact ⟨fun _ => .inr (.inr hf), fun _ => hnone⟩
    · rw [not_or, Bool.not_eq_true, Bool.not_eq_true] at hf
      obtain ⟨hack, hrst⟩ := hf
      have hsyn : seg.syn = false := by simpa [hack] using hpure
      have hbare := fun hdr => bare_answers hsyn hack hrst lp hdr op h
      simp only [hsyn, hack, hrst, Bool.false_eq_true, or_false]
      rw [show (Header.to d₁ hdr).dstPort = d₁ from rfl, show (Header.to d₂ hdr).dstPort =
        d₂ from rfl]
      rw [eq_comm (a := d₁), eq_comm (a := d₂)]
      by_cases hd₁ : port = d₁ <;> by_cases hd₂ : port = d₂
      · rw [if_pos hd₁, if_pos hd₂]
        exact ⟨fun _ => iff_of_true hd₁ hd₂, fun _ => hlisten⟩
      · rw [if_pos hd₁, if_neg hd₂]
        refine ⟨fun heq => ?_, fun hiff => absurd (hiff.mp hd₁) hd₂⟩
        have hreset := congrArg Answer.reset heq
        simp [Answer.renamed, hbare] at hreset
      · rw [if_neg hd₁, if_pos hd₂]
        refine ⟨fun heq => ?_, fun hiff => absurd (hiff.mpr hd₂) hd₁⟩
        have hreset := congrArg Answer.reset heq
        simp [Answer.renamed, hbare] at hreset
      · rw [if_neg hd₁, if_neg hd₂]
        exact ⟨fun _ => iff_of_false hd₁ hd₂, fun _ => hnone⟩

/-! ### A FIN out of the blue -/

/-- The stack after its start: one listener and no connection. -/
def idle (o : Platform) : Host o := hostStep (boot o) (.start [])

/-- A FIN without ACK, from nowhere. -/
def bareFin : Segment := { ackSegment 100 0 with fin := true, ack := false }

/-- Where the listener got port 49152, a bare FIN is dropped there and reset at port 80. -/
theorem listener_port_shows :
    (∃ lp, (idle .ios).listenPcbs = [lp]) ∧
    claimed (Header.to 49152 (peer 1)) (idle .ios) = false ∧
    claimed (Header.to 80 (peer 1)) (idle .ios) = false ∧
    (demultiplex 49152 (Header.to 49152 (peer 1)) bareFin ⟨6510, calmEnv, 0, calmTf⟩
      (idle .ios)).reset = none ∧
    (demultiplex 49152 (Header.to 80 (peer 1)) bareFin ⟨6510, calmEnv, 0, calmTf⟩
      (idle .ios)).reset = some ⟨0, 101, (Header.to 80 (peer 1)).tuple⟩ := by
  refine ⟨⟨_, rfl⟩, ?_, ?_, ?_, ?_⟩ <;> decide

/-- A stray acknowledgement is reset at both ports. -/
theorem port_independence_ack :
    demultiplex 49152 (Header.to 80 (peer 1)) (ackSegment 100 0) ⟨6510, calmEnv, 0, calmTf⟩
      (idle .ios) = (demultiplex 49152 (Header.to 49152 (peer 1)) (ackSegment 100 0)
        ⟨6510, calmEnv, 0, calmTf⟩ (idle .ios)).renamed 80 :=
  (port_independence (h := idle .ios) rfl 49152 49152 80 (peer 1) (ackSegment 100 0) _ (by decide)
    (by decide)).mpr
    (by decide)

end TunForge.Demultiplexer
