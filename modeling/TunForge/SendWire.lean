import TunForge.SendStream

/-! What the send side puts on the wire: nothing but the accepted bytes at their places, every one
of them before it counts as sent, and never more than the peer's largest window. -/
namespace TunForge.SendEngine
open SerialNumber PbufChain LwipTypes TcpOut TcpIn Tcp Stack PcbFrames SendQueue WorkFrames
  TiledQueue
open WriteAdmission (mssLocal_pos)
open StackRuns (ackSegment openingSyn calmEnv)

variable {o : Platform} {g : Discipline} {s s' : Sender o} {iss : Seq} {acc : Bytes}
  {a la nx pos : ℕ}
variable {q : List (TxSeg × Bool)} {seg : TxSeg}

def Shut (st : TcpState) : Prop := closeTarget st = none ∧ st ≠ .synSent

/-- A segment on the wire carries what stands at position `pos` of the stream, the SYN only at its
beginning and the FIN only at its end. -/
structure GenuineAt (iss : Seq) (acc : Bytes) (pos : ℕ) (seg : TxSeg) : Prop where
  seqno : seg.seqno = seqAt iss pos
  data : seg.data ≠ [] → 1 ≤ pos ∧ seg.data <+: acc.drop (pos - 1)
  syn : seg.syn = true → pos = 0 ∧ seg.data = []
  fin : seg.fin = true → pos + seg.data.length = acc.length + 1

def Genuine (iss : Seq) (acc : Bytes) (seg : TxSeg) : Prop := ∃ pos, GenuineAt iss acc pos seg

def Carried (iss : Seq) (acc : Bytes) (wire : List TxSeg) (k : ℕ) : Prop :=
  ∃ seg ∈ wire, ∃ pos, GenuineAt iss acc pos seg ∧ pos ≤ k ∧ k < pos + seg.tcplen

/-- How far the peer has come: the SYN is acknowledged once the handshake is complete and nothing
is accepted before that. -/
structure Reached (g : Discipline) (s : Sender o) (a la : ℕ) (q : List (TxSeg × Bool)) : Prop where
  greeting : s.pcb.state = .synRcvd → la = 0 ∧ s.accepted = []
  begun : s.pcb.state ≠ .synRcvd → 1 ≤ la
  close : g.wholeAcks = true → Close a la q

/-- The queue is in place while the pcb is active; afterwards it is empty for good. -/
structure InPlace (g : Discipline) (iss : Seq) (s : Sender o) : Prop where
  queue : (s.pcb.list = .active ∧ ∃ a la nx q, Stream iss s.accepted s.tx a la nx q ∧
      Reached g s a la q ∧
      (g.routed = true → ∀ k, 1 ≤ k → k < nx → Carried iss s.accepted s.wire k)) ∨
    (s.pcb.list = .timeWait ∧ s.pcb.state = .timeWait ∧ s.tx.unacked = [] ∧ s.tx.unsent = [])
  shut : s.tx.finQueued = true → Shut s.pcb.state
  noFin : s.tx.finQueued = false → ∀ seg ∈ s.wire, seg.fin = false
  persist : 0 < s.persist.backoff → s.tx.unacked = []
  wire : ∀ seg ∈ s.wire, Genuine iss s.accepted seg

lemma Placed.carries (h : Placed iss acc pos seg) (hd : seg.data ≠ []) :
    1 ≤ pos ∧ seg.data <+: acc.drop (pos - 1) := by
  refine h.data ?_
  by_contra hs
  exact hd (h.syn (by simpa using hs)).2.1

lemma Placed.genuine (h : Placed iss acc pos seg) : GenuineAt iss acc pos seg :=
  ⟨h.seqno, h.carries, fun hs => ⟨(h.syn hs).1, (h.syn hs).2.1⟩, h.fin⟩

lemma GenuineAt.append (h : GenuineAt iss acc pos seg) (hf : seg.fin = false) (data : Bytes) :
    GenuineAt iss (acc ++ data) pos seg := by
  refine ⟨h.seqno, fun hd => ⟨(h.data hd).1, ?_⟩, h.syn, fun h => ?_⟩
  · rw [List.drop_append]
    exact (h.data hd).2.trans (List.prefix_append _ _)
  · rw [hf] at h
    cases h

lemma Carried.append {wire : List TxSeg} {k : ℕ} (h : Carried iss acc wire k) (seg : TxSeg) :
    Carried iss acc (wire ++ [seg]) k := by
  obtain ⟨x, hx, hcover⟩ := h
  exact ⟨x, by simp [hx], hcover⟩

/-! ### Moves that send nothing -/

lemma InPlace.update (h : InPlace g iss s) (hacc : s'.accepted = s.accepted)
    (hwire : s'.wire = s.wire) (hcore : s'.pcb.state = s.pcb.state ∧ s'.pcb.list = s.pcb.list)
    (hfin : s'.tx.finQueued = s.tx.finQueued)
    (hpersist : 0 < s'.persist.backoff → s'.tx.unacked = [])
    (hempty : s.tx.unacked = [] → s.tx.unsent = [] → s'.tx.unacked = [] ∧ s'.tx.unsent = [])
    (hstream : s.pcb.list = .active → ∀ {a la nx q}, Stream iss s.accepted s.tx a la nx q →
      ∃ q', Stream iss s.accepted s'.tx a la nx q' ∧
      (Close a la q → Close a la q')) : InPlace g iss s' where
  queue := by
  -- a change of the send half that keeps the queue in place
    rcases h.queue with ⟨hl, a, la, nx, q, hst, hre, hcar⟩ | ⟨hl, htw, h1, h2⟩
    · obtain ⟨q', hst', hclose⟩ := hstream hl hst
      have hre' : Reached g s' a la q' := by
        refine ⟨fun hs => ?_, fun hs => hre.begun (hcore.1 ▸ hs), fun hg => hclose (hre.close hg)⟩
        rw [hacc]
        exact hre.greeting (hcore.1 ▸ hs)
      rw [hcore.2, hacc, hwire]
      exact .inl ⟨hl, a, la, nx, q', hst', hre', hcar⟩
    · rw [hcore.1, hcore.2]
      exact .inr ⟨hl, htw, hempty h1 h2⟩
  shut := by
    rw [hfin, hcore.1]
    exact h.shut
  noFin := by
    rw [hfin, hwire]
    exact h.noFin
  persist := hpersist
  wire := by
    rw [hwire, hacc]
    exact h.wire

lemma InPlace.counters (h : InPlace g iss s) (hacc : s'.accepted = s.accepted)
    (hwire : s'.wire = s.wire) (hcore : s'.pcb.state = s.pcb.state ∧ s'.pcb.list = s.pcb.list)
    (heq : ∃ wl1 wl2 sc ov buf len err, s'.tx = { s.tx with
      sndWl1 := wl1, sndWl2 := wl2, sndScale := sc, unsentOversize := ov, sndBuf := buf,
      sndQueuelen := len, nagleMemErr := err })
    (hpersist : 0 < s'.persist.backoff → s.tx.unacked = []) : InPlace g iss s' := by
  obtain ⟨wl1, wl2, sc, ov, buf, len, err, htx⟩ := heq
  refine h.update hacc hwire hcore (by rw [htx]) (fun hp => by rw [htx]; exact hpersist hp)
    (fun h1 h2 => by rw [htx]; exact ⟨h1, h2⟩) fun _ {a la nx q} hst => ⟨q, ?_, id⟩
  exact hst.of_eq ⟨_, _, _, _, _, _, _, htx⟩

lemma advance_keeps {st st' : TcpState} (h : Advance st st') :
    (st = .timeWait → st' = .timeWait) ∧ (Shut st → Shut st') := by
  cases h with
  | stay => exact ⟨id, id⟩
  | peerFin => exact ⟨nofun, fun h => absurd h.1 nofun⟩
  | bothFin | finAcked => exact ⟨nofun, fun _ => ⟨rfl, nofun⟩⟩

lemma InPlace.quiet (h : InPlace g iss s) (hq : Quiet s s') : InPlace g iss s' := by
  obtain ⟨ov, err, htx⟩ := hq.tx
  obtain ⟨htime, hshut⟩ := advance_keeps hq.state
  have hsyn := advance_synRcvd hq.state
  have hrest := hq.rest
  have hother : InPlace g iss (s'.mapPcb fun pcb => { pcb with state := s.pcb.state }) :=
    h.counters (by rw [hrest]; rfl) (by rw [hrest]; rfl) ⟨rfl, hq.list⟩ ⟨_, _, _, _, _, _, _, htx⟩
      (by rw [hrest]; exact h.persist)
  refine ⟨?_, fun hfin => hshut (hother.shut hfin), hother.noFin, hother.persist, hother.wire⟩
  rcases hother.queue with ⟨hl, a, la, nx, q, hstream, hre, hcar⟩ | ⟨hl, htw, hempty⟩
  · refine .inl ⟨hl, a, la, nx, q, hstream,
      ⟨fun hs => ?_, fun hs => hre.begun (hsyn.not.1 hs), hre.close⟩, hcar⟩
    exact hre.greeting (hsyn.1 hs)
  · exact .inr ⟨hl, htime htw, hempty⟩

lemma rexmit_empty {tx : Tx} (h : tx.unacked = []) : TcpOut.tcpRexmit tx = tx := by
  rw [TcpOut.tcpRexmit, h]

lemma InPlace.rexmit (hled : Ledger s) (h : InPlace g iss s) {c : Congestion} {r : RoundTrip}
    {x : Rexmit} :
    InPlace g iss ({ s with
      pcb := { s.pcb with tx := TcpOut.tcpRexmit s.tx }, cong := c, trip := r,
      rexmit := x } : Sender o) := by
  refine h.update rfl rfl ⟨rfl, rfl⟩ ?_ (fun hp => ?_) (fun h1 h2 => ?_) fun hl {a la nx q} hst =>
    ?_
  · simp only [Sender.tx, TcpOut.tcpRexmit]
    split <;> rfl
  · change (TcpOut.tcpRexmit s.tx).unacked = []
    rw [rexmit_empty (h.persist hp)]
    exact h.persist hp
  · change (TcpOut.tcpRexmit s.tx).unacked = [] ∧ (TcpOut.tcpRexmit s.tx).unsent = []
    rw [rexmit_empty h1]
    exact ⟨h1, h2⟩
  · obtain ⟨q', hst', hsame⟩ := hst.rexmit (hst.short (hled.books hl))
    exact ⟨q', hst', fun hc => ⟨hc.le, hsame ▸ hc.head⟩⟩

lemma InPlace.tcpRexmit (hled : Ledger s) (h : InPlace g iss s) : InPlace g iss (tcpRexmit s) := by
  unfold SendEngine.tcpRexmit
  split_ifs
  · exact h
  · exact h.rexmit hled

lemma InPlace.duplicate (hled : Ledger s) (h : InPlace g iss s) :
    InPlace g iss (duplicateAck s) := by
  obtain ⟨tx, c, r, x, rfl | rfl, -, -, heq⟩ := duplicateAck_eq s <;> rw [heq]
  · exact h.counters rfl rfl ⟨rfl, rfl⟩ ⟨_, _, _, _, _, _, _, rfl⟩ h.persist
  · exact h.rexmit hled

lemma InPlace.timeout (hled : Ledger s) (h : InPlace g iss s) (hord : InOrder s.tx) :
    InPlace g iss (backOff (tcpRexmitRtoPrepare s)) := by
  unfold tcpRexmitRtoPrepare
  split
  · exact h.counters rfl rfl ⟨rfl, rfl⟩ ⟨_, _, _, _, _, _, _, rfl⟩ h.persist
  · refine h.update rfl rfl ⟨rfl, rfl⟩ rfl (fun _ => rfl)
      (fun h1 h2 => ⟨rfl, ?_⟩) fun hl {a la nx q} hst => ?_
    · simp [backOff, Sender.setTx, Sender.tx, TcpOut.tcpRexmitRtoPrepare] at h1 h2 ⊢
      exact ⟨h1, h2⟩
    · refine ⟨_, hst.timeout (hst.short (hled.books hl)) hord, fun hc => ⟨hc.le, ?_⟩⟩
      rw [pieces_markAll]
      exact hc.head

lemma InPlace.ack (hled : Ledger s) (h : InPlace g iss s) {ackno : Seq}
    (hnew : between ackno (s.tx.lastack + 1) s.tx.sndNxt = true)
    (hwhole : g.wholeAcks = true → Aligned (ackNewData o s.tx ackno).1)
    {pcb : Pcb o} (htx : pcb.tx = (acknowledged ackno s).1.tx) (hlist : pcb.list = s.pcb.list)
    (hopen : pcb.state ≠ .synRcvd) (hshut : Shut s.pcb.state → Shut pcb.state)
    (hstay : s.pcb.state = .timeWait → pcb.state = .timeWait) {c : Congestion} {r : RoundTrip}
    {x : Rexmit} :
    InPlace g iss ({ s with pcb := pcb, cong := c, trip := r, rexmit := x } : Sender o) where
  queue := by
  -- an acknowledgement of new data. The pcb may go on to another state with it
    change (pcb.list = .active ∧ ∃ a la nx q, Stream iss s.accepted pcb.tx a la nx q ∧ _) ∨
      (pcb.list = .timeWait ∧ pcb.state = .timeWait ∧ pcb.tx.unacked = [] ∧ pcb.tx.unsent = [])
    rw [htx, hlist]
    rcases h.queue with ⟨hl, a, la, nx, q, hst, -, hcar⟩ | ⟨hl, htw, h1, h2⟩
    · have hbooks := hled.books hl
      obtain ⟨b, p, q', hlt, hst', hhead⟩ := hst.ack (o := o) (hst.short hbooks) hnew
      refine .inl ⟨hl, b, p, nx, q', hst',
        ⟨fun hs => absurd hs hopen, fun _ => ?_, fun hg => ⟨?_, hhead⟩⟩, hcar⟩
      · omega
      · exact hst'.aligned (hst'.short (hbooks.ack ackno)) (hwhole hg)
    · exact .inr ⟨hl, hstay htw, freed_nil h1, freed_nil h2⟩
  shut := by
    change pcb.tx.finQueued = true → _
    rw [htx]
    exact fun hf => hshut (h.shut hf)
  noFin := by
    change pcb.tx.finQueued = false → _
    rw [htx]
    exact h.noFin
  persist := by
    change _ → pcb.tx.unacked = []
    rw [htx]
    exact fun hp => freed_nil (h.persist hp)
  wire := h.wire

lemma InPlace.split (h : InPlace g iss s) (keep n : ℕ)
    (hfin : ∀ seg ∈ s.tx.unsent.head?, seg.fin = true → seg.data.length ≤ n) :
    InPlace g iss (tcpSplitUnsentSeg keep n s).1 := by
  rcases tcpSplitUnsentSeg_tx keep n s with heq | ⟨seg, rest, ov, hu, h0, hn, heq⟩ <;> rw [heq]
  · exact h
  have hf : seg.fin = false := by
    by_contra hf
    have := hfin seg (by simp [hu]) (by simpa using hf)
    omega
  refine h.update rfl rfl ⟨rfl, rfl⟩ rfl h.persist (fun h1 h2 => ?_) fun hl {a la nx q} hst => ?_
  · rw [hu] at h2
    cases h2
  · exact hst.split hu hf h0 hn

/-! ### Moves that send, or change the stream -/

lemma InPlace.timeWait (h : InPlace g iss s)
    (hst : s.pcb.state = .finWait1 ∨ s.pcb.state = .finWait2 ∨ s.pcb.state = .closing) :
    InPlace g iss (s.mapPcb enterTimeWait) := by
  have hpurge := (enterTimeWait_eq hst).1
  refine ⟨.inr ⟨rfl, rfl, ?_, ?_⟩, fun _ => ⟨rfl, nofun⟩, ?_, fun _ => ?_, h.wire⟩
  · exact congrArg Tx.unacked hpurge
  · exact congrArg Tx.unsent hpurge
  · change (enterTimeWait s.pcb).tx.finQueued = false → _
    rw [hpurge]
    exact h.noFin
  · exact congrArg Tx.unacked hpurge

lemma InPlace.wired (h : InPlace g iss s) (hgen : Genuine iss s.accepted seg)
    (hf : s.tx.finQueued = false → seg.fin = false) :
    (s.tx.finQueued = false → ∀ x ∈ s.wire ++ [seg], x.fin = false) ∧
    ∀ x ∈ s.wire ++ [seg], Genuine iss s.accepted x := by
  simp only [List.mem_append, List.mem_singleton]
  refine ⟨fun hfin x hx => ?_, fun x hx => ?_⟩
  · rcases hx with hx | rfl
    · exact h.noFin hfin x hx
    · exact hf hfin
  · rcases hx with hx | rfl
    · exact h.wire x hx
    · exact hgen

lemma carried_append {wire : List TxSeg} {n : ℕ}
    (hcar : ∀ k, 1 ≤ k → k < nx → Carried iss acc wire k) (hgen : GenuineAt iss acc pos seg)
    (hpos : pos ≤ nx) (hn : 1 ≤ pos → n ≤ seg.tcplen) (h0 : pos = 0 → n ≤ 1) :
    ∀ k, 1 ≤ k → k < max nx (pos + n) → Carried iss acc (wire ++ [seg]) k := by
  intro k hk hlt
  by_cases hold : k < nx
  · exact (hcar k hk hold).append seg
  · have hpos : 1 ≤ pos := by
      by_contra h
      have := h0 (by omega)
      omega
    have := hn hpos
    exact ⟨seg, by simp, pos, hgen, by omega, by omega⟩

lemma InPlace.send (hled : Ledger s) (h : InPlace g iss s) {rest : List TxSeg}
    (hu : s.tx.unsent = seg :: rest) (hw : reach s.tx seg ≤ s.tx.sndWnd)
    (hp : s.persist.backoff = 0) : InPlace g iss (tcpOutputSegment seg rest s) := by
  rcases h.queue with ⟨hl, a, la, nx, q, hst, hre, hcar⟩ | ⟨-, -, -, hnil⟩
  · obtain ⟨p, q', hst', hsame, hplaced, hle, hf⟩ := hst.send (hst.short (hled.books hl)) hu hw
    have hre' : Reached g (tcpOutputSegment seg rest s) a la q' :=
      ⟨hre.greeting, hre.begun, fun hg => ⟨(hre.close hg).le, hsame ▸ (hre.close hg).head⟩⟩
    obtain ⟨hnofin, hgen⟩ := h.wired ⟨p, hplaced.genuine⟩ hf
    have hcar' := fun hg => carried_append (hcar hg) hplaced.genuine hle (fun _ => le_rfl)
      fun h0 => (h0 ▸ hplaced).at_zero.le
    exact ⟨.inl ⟨hl, a, la, _, q', hst', hre', hcar'⟩, h.shut, hnofin,
      fun hpos => absurd hp hpos.ne', hgen⟩
  · rw [hnil] at hu
    cases hu

lemma Placed.probe (h : Placed iss acc pos seg) :
    GenuineAt iss acc pos (probeOf seg) ∧ ((probeOf seg).fin = true → seg.fin = true) ∧
    (1 ≤ pos → 1 ≤ (probeOf seg).tcplen) := by
  -- a probe is genuine, and carries a number unless it stands for the SYN
  by_cases hfin : (seg.fin && decide (seg.data = [])) = true
  · have hprobe : probeOf seg = ⟨seg.seqno, [], 0, 1, false, true⟩ := by simp [probeOf, hfin]
    simp only [Bool.and_eq_true, decide_eq_true_eq] at hfin
    have hend := h.fin hfin.1
    rw [hfin.2] at hend
    rw [hprobe]
    exact ⟨⟨h.seqno, (absurd rfl ·), (absurd · Bool.false_ne_true), fun _ => hend⟩, fun _ => hfin.1,
      fun _ => by simp [TxSeg.tcplen]⟩
  · have hprobe : probeOf seg = ⟨seg.seqno, seg.data.take 1, 0, 1, false, false⟩ := by
      simp [probeOf, hfin]
    rw [hprobe]
    refine ⟨⟨h.seqno, fun hd => ?_, (absurd · Bool.false_ne_true), (absurd · Bool.false_ne_true)⟩,
      (absurd · Bool.false_ne_true), fun hpos => ?_⟩
    · obtain ⟨hpos, hdata⟩ := h.carries fun h0 => hd (by simp [h0])
      exact ⟨hpos, (List.take_prefix 1 _).trans hdata⟩
    · have hne : seg.data ≠ [] := by
        intro h0
        have hlen := h.nonempty
        simp only [h0, decide_true, Bool.and_true] at hfin
        simp [TxSeg.tcplen, h0, hfin, h.not_syn hpos] at hlen
      have := List.length_pos_iff.2 hne
      simp only [TxSeg.tcplen, List.length_take]
      omega

/-- A probe that has memory. Without a route it does not leave, but that is ruled out where every
number below `snd_nxt` is to have been on the wire. -/
lemma InPlace.probed (hled : Ledger s) (hr : Routed g s) (h : InPlace g iss s)
    (hp : 0 < s.persist.backoff) {rest : List TxSeg} (hu : s.tx.unsent = seg :: rest) :
    InPlace g iss ({ s with
      pcb := { s.pcb with rx := announce s.pcb.rx, tx := advanceNxt (seg.seqno + 1) s.tx }
      persist := countProbe s.persist
      wire := if s.pcb.env.route then s.wire ++ [probeOf seg] else s.wire } : Sender o) := by
  rcases h.queue with ⟨hl, a, la, nx, q, hst, hre, hcar⟩ | ⟨-, -, -, hnil⟩
  · obtain ⟨hplaced, hf, hst'⟩ := hst.probe (hst.short (hled.books hl)) (h.persist hp) hu
    obtain ⟨hgen, hfin, hlen⟩ := hplaced.probe
    obtain ⟨hnofin, hwire⟩ := h.wired ⟨a, hgen⟩ fun hq => by
      by_contra hc
      rw [hf hq] at hfin
      exact absurd (hfin (by simpa using hc)) nofun
    have hre' : ∀ t : Sender o, t.pcb.state = s.pcb.state → t.accepted = s.accepted →
        Reached g t a la q := by
      intro t ht hacc
      refine ⟨fun hs => ?_, fun hs => hre.begun (ht ▸ hs), hre.close⟩
      rw [hacc]
      exact hre.greeting (ht ▸ hs)
    cases hroute : s.pcb.env.route with
    | true =>
      have hcar' := fun hg => carried_append (hcar hg) hgen (hst.freed.trans hst.acked) hlen
        fun _ => le_rfl
      exact ⟨.inl ⟨hl, a, la, _, q, hst', hre' _ rfl rfl, hcar'⟩, h.shut, hnofin,
        fun _ => h.persist hp, hwire⟩
    | false =>
      refine ⟨.inl ⟨hl, a, la, _, q, hst', hre' _ rfl rfl, fun hg => ?_⟩, h.shut, h.noFin,
        fun _ => h.persist hp, h.wire⟩
      rw [hr hg] at hroute
      cases hroute
  · rw [hnil] at hu
    cases hu

lemma InPlace.probe (hled : Ledger s) (hr : Routed g s) (h : InPlace g iss s)
    (hp : 0 < s.persist.backoff) : InPlace g iss (tcpZeroWindowProbe s).1 := by
  cases hu : s.tx.unsent with
  | nil =>
    unfold tcpZeroWindowProbe
    rw [hu]
    exact h
  | cons seg rest =>
    cases hmem : s.pcb.env.mem with
    | false =>
      rw [probe_unsent hu hmem]
      exact h.counters rfl rfl ⟨rfl, rfl⟩ ⟨_, _, _, _, _, _, _, rfl⟩ fun _ => h.persist hp
    | true =>
      rw [probe_sent hu hmem]
      exact h.probed hled hr hp hu

lemma InPlace.write (hled : Ledger s) (h : InPlace g iss s) {data : Bytes} {pcb : Pcb o}
    (hw : tcpWrite s.pcb data = (pcb, .ok)) (hopen : s.pcb.state ≠ .synRcvd) (hord : InOrder s.tx) :
    InPlace g iss ({ s with pcb := pcb, accepted := s.accepted ++ data } : Sender o) := by
  -- the application can write only while the pcb has no FIN queued
  obtain ⟨pos, cells, segs, ov, hwritten, rfl⟩ := tcpWrite_ok hled.mss hw
  have hfin : s.tx.finQueued = false := by
    by_contra hf
    obtain ⟨hnone, hsent⟩ := h.shut (by simpa using hf)
    rcases hwritten.state with he | he | he | he
    · simp [he, closeTarget] at hnone
    · simp [he, closeTarget] at hnone
    · exact hsent he
    · exact hopen he
  have hgen : ∀ {p x}, x ∈ s.wire → GenuineAt iss s.accepted p x →
      GenuineAt iss (s.accepted ++ data) p x :=
    fun hx hp => hp.append (h.noFin hfin _ hx) data
  refine ⟨?_, fun hf => absurd (hfin ▸ hf) Bool.false_ne_true, h.noFin, h.persist,
    fun x hx => (h.wire x hx).imp fun _ => hgen hx⟩
  rcases h.queue with ⟨hl, a, la, nx, q, hst, hre, hcar⟩ | ⟨-, htw, -⟩
  · have hla := hre.begun hopen
    obtain ⟨q', hst', hclose⟩ :=
      hst.write s.pcb (hst.short (hled.books hl)) hled.mss hord hla hfin hwritten ov
    refine .inl ⟨hl, a, la, nx, q', hst',
      ⟨fun hs => absurd hs hopen, fun _ => hla, fun hg => hclose (hre.close hg)⟩,
      fun hg k hk hlt => ?_⟩
    obtain ⟨x, hx, p, hp, hcover⟩ := hcar hg k hk hlt
    exact ⟨x, hx, p, hgen hx hp, hcover⟩
  · rcases hwritten.state with he | he | he | he <;> rw [he] at htw <;> cases htw

lemma InPlace.fin (hled : Ledger s) (h : InPlace g iss s) {pcb : Pcb o} {next : TcpState}
    (hf : tcpSendFin s.pcb = (pcb, .ok)) (hnext : closeTarget s.pcb.state = some next)
    (hopen : s.pcb.state ≠ .synRcvd) (hord : InOrder s.tx) :
    InPlace g iss ({ s with pcb := { pcb with state := next } } : Sender o) := by
  have hlist : pcb.list = s.pcb.list := by
    have hcore := (same_tcpSendFin s.pcb).1
    rw [hf] at hcore
    exact list_of_core hcore
  have hfin : s.tx.finQueued = false := by
    by_contra hq
    have := (h.shut (by simpa using hq)).1
    rw [hnext] at this
    cases this
  have hshut : Shut next := by
    unfold closeTarget at hnext
    split at hnext <;> cases hnext <;> exact ⟨rfl, nofun⟩
  rcases h.queue with ⟨hl, a, la, nx, q, hst, hre, hcar⟩ | ⟨-, htw, -⟩
  · have hla := hre.begun hopen
    obtain ⟨hq, q', hst', hclose⟩ := hst.fin s.pcb (hst.short (hled.books hl)) hord hla hfin hf
    have hne : next ≠ .synRcvd := fun hs => by
      rw [hs] at hshut
      exact absurd hshut.1 nofun
    refine ⟨.inl ⟨hlist.trans hl, a, la, nx, q', hst',
      ⟨fun hs => absurd hs hne, fun _ => hla, fun hg => hclose (hre.close hg)⟩, hcar⟩,
      fun _ => hshut, fun hq' => ?_, fun hp => ?_, h.wire⟩
    · exact absurd (hq.symm.trans hq') nofun
    · have hun : pcb.tx.unacked = s.pcb.tx.unacked := by
        rcases tcpSendFin_ok hf with ⟨_, _, _, _, _, rfl⟩ | ⟨-, rfl⟩ <;> rfl
      exact hun.trans (h.persist hp)
  · rw [htw] at hnext
    cases hnext

lemma inPlace_move (hg : g.ordered = true) (hled : Ledger s) (hr : Routed g s)
    (h : InPlace g iss s) (hm : Move g s s') : InPlace g iss s' := by
  cases hm with
  | quiet hq => exact h.quiet hq
  | options seg =>
    obtain ⟨sc, hsc⟩ := tcpParseopt_tx s.pcb seg
    have hcore := core_tcpParseopt s.pcb seg
    exact h.counters rfl rfl ⟨state_of_core hcore, list_of_core hcore⟩
      ⟨_, _, _, _, _, _, _, hsc⟩ h.persist
  | establish ackno pcb hstate hopen _ hnew hwhole _ htx _ hlist =>
    obtain ⟨r, -, hr⟩ := measureRtt_eq ackno (acknowledged ackno s).1
    rw [hr]
    refine h.ack hled hnew hwhole htx hlist ?_ (fun hs => ?_) fun hs => ?_
    · rcases hopen with he | he <;> rw [he] <;> decide
    · rw [hstate] at hs
      exact absurd hs.1 nofun
    · rw [hstate] at hs
      cases hs
  | timeWait hst => exact h.timeWait hst
  | window seg =>
    obtain ⟨_, _, _, _, heq, -⟩ := updateSndWnd_eq s.tx seg
    have hun : (updateSndWnd s.tx seg).unacked = s.tx.unacked := by rw [heq]
    have hfin : (updateSndWnd s.tx seg).finQueued = s.tx.finQueued := by rw [heq]
    exact h.update rfl rfl ⟨rfl, rfl⟩ hfin (fun hp => hun.trans (h.persist hp))
      (fun h1 h2 => ⟨hun.trans h1, (congrArg Tx.unsent heq).trans h2⟩)
      fun _ {a la nx q} hst => ⟨q, hst.newWindow seg, id⟩
  | ack ackno hopen _ hnew hwhole => exact h.ack hled hnew hwhole rfl rfl hopen id id
  | duplicate => exact h.duplicate hled
  | measure | countRexmit | tickTimer | route =>
    exact h.counters rfl rfl ⟨rfl, rfl⟩ ⟨_, _, _, _, _, _, _, rfl⟩ h.persist
  | resendSyn => exact h.tcpRexmit hled
  | timeout _ _ hord => exact h.timeout hled (hord hg)
  | send seg rest hu hw hp => exact h.send hled hu hw hp
  | startPersist hun => exact h.counters rfl rfl ⟨rfl, rfl⟩ ⟨_, _, _, _, _, _, _, rfl⟩ fun _ => hun
  | persist p hp =>
    refine h.counters rfl rfl ⟨rfl, rfl⟩ ⟨_, _, _, _, _, _, _, rfl⟩ fun hpos => h.persist
      (hp.resolve_left ?_)
    exact Nat.ne_of_gt hpos
  | probe hp => exact h.probe hled hr hp
  | split keep h0 hfin =>
    exact h.split keep _ fun seg hseg hf => (hfin hg seg hseg hf).resolve_left h0
  | write data pcb hw hopen hord => exact h.write hled hw hopen (hord hg)
  | fin pcb next hf hnext hopen hord => exact h.fin hled hf hnext hopen (hord hg)

/-! ### The results -/

lemma Fresh.inPlace (g : Discipline) (h : Fresh iss s) : InPlace g iss s := by
  obtain ⟨wl1, sc, wnd, opt, htx⟩ := h.tx
  have hrest := h.rest
  have hwire : s.wire = [] := by rw [hrest]; rfl
  have hacc : s.accepted = [] := by rw [hrest]; rfl
  have hpersist : s.persist.backoff = 0 := by rw [hrest]; rfl
  refine ⟨.inl ⟨h.list, 0, 0, 0, [(⟨iss, [], opt, 1, true, false⟩, false)], ?_, ?_,
    fun _ k _ hk => absurd hk nofun⟩, ?_, ?_, fun hp => absurd hpersist hp.ne', ?_⟩
  · rw [htx, hacc]
    exact {
      unacked := rfl
      unsent := rfl
      tiles := ⟨⟨⟨(seqAt_zero iss).symm, Nat.one_pos, fun _ => ⟨rfl, rfl, rfl⟩, nofun, nofun⟩,
        nofun⟩, trivial⟩
      finish := rfl
      lbb := fun _ => rfl
      lastack := (seqAt_zero iss).symm
      sndNxt := (seqAt_zero iss).symm
      freed := le_rfl
      acked := le_rfl
      within := Nat.zero_le _
      synFreed := .inl rfl
      window := le_rfl
      flight := Nat.zero_le _ }
  · exact ⟨fun _ => ⟨rfl, hacc⟩, fun hs => absurd h.state hs,
      fun _ => ⟨Nat.zero_le _, fun _ _ => Nat.zero_le _⟩⟩
  · rw [htx]
    exact nofun
  · rw [hwire]
    exact fun _ => nofun
  · rw [hwire]
    exact nofun

theorem inPlace_run {syn : Segment} (hg : g.ordered = true) (h : Opened syn iss s)
    (hr : Routed g s) {es : List Event} (hes : Runs.Along step (Respects g) (some s) es) :
    Alive (fun t => Ledger t ∧ InPlace g iss t) (Runs.run step (some s) es) := by
  have hrun : Alive (fun t => Ledger t ∧ Routed g t ∧ InPlace g iss t)
      (Runs.run step (some s) es) := by
    refine opened_keeps (fun a b hI hm => ?_) (fun s₀ hf henv => ?_) h hes
    · exact ⟨ledger_move hI.1 hm, routed_move hI.2.1 hm, inPlace_move hg hI.1 hI.2.1 hI.2.2 hm⟩
    · refine ⟨hf.ledger, ?_, hf.inPlace g⟩
      unfold Routed
      rw [henv]
      exact hr
  exact hrun.imp fun _ ht => ⟨ht.1, ht.2.2⟩

/-- Whatever is lost, retransmitted, split or probed, every segment that goes out carries the
accepted bytes that belong at its sequence number, and the FIN only behind the last of them. -/
theorem wire_genuine {syn : Segment} (h : Opened syn iss s) {es : List Event}
    (hes : Runs.Along step (Respects { ordered := true }) (some s) es) :
    Alive (fun t => ∀ seg ∈ t.wire, Genuine iss t.accepted seg) (Runs.run step (some s) es) :=
  (inPlace_run rfl h (routed_free rfl) hes).imp fun _ ht => ht.2.wire

lemma lossRun_respects : Runs.Along step (Respects { ordered := true })
    (some (greeted .ios)) lossRun := by
  decide +kernel

theorem wire_genuine_lossRun :
    let t := Runs.run step (some (greeted .ios)) lossRun
    Alive (fun t => ∀ seg ∈ t.wire, Genuine 6510 t.accepted seg) t ∧
      t.map (fun t => t.wire.map TxSeg.data) = some [[], [1, 2, 3], [1, 2, 3]] :=
  ⟨wire_genuine (greeted_opened .ios) lossRun_respects, by decide +kernel⟩

/-- Byte `i` of the accepted ones was on the wire under its number. -/
def ByteSent (iss : Seq) (t : Sender o) (i : ℕ) : Prop :=
  ∃ seg ∈ t.wire, ∃ k, seg.seqno + BitVec.ofNat 32 k = seqAt iss (i + 1) ∧
    seg.data[k]? = t.accepted[i]?

lemma tiles_data (h : Tiles qlen (Spot iss acc nx) a q)
    (hend : acc.length + 1 ≤ a + extent qlen q) :
    (pieces q).flatMap TxSeg.data = acc.drop (a - 1) := by
  -- the bytes in the queue are those from position `a` on
  induction q generalizing a with
  | nil => exact (List.drop_eq_nil_iff.2 (by rw [extent_nil] at hend; omega)).symm
  | cons x q ih =>
    obtain ⟨hx, hq⟩ := h
    have hend' : acc.length + 1 ≤ a + qlen x + extent qlen q := by
      rw [extent_cons] at hend
      omega
    rw [pieces_cons, List.flatMap_cons, ih hq hend']
    rcases Bool.eq_false_or_eq_true x.1.syn with hs | hs
    · obtain ⟨rfl, hd, -⟩ := hx.placed.syn hs
      rw [qlen, hx.placed.tcplen_syn hs, hd]
      rfl
    · obtain ⟨hpos, rest, hrest⟩ := hx.placed.data hs
      have hafter : acc.drop (a + x.1.data.length - 1) = rest := by
        rw [show a + x.1.data.length - 1 = a - 1 + x.1.data.length by omega, ← List.drop_drop,
          ← hrest, List.drop_left]
      rw [← hrest, ← hafter]
      congr 1
      rcases Bool.eq_false_or_eq_true x.1.fin with hf | hf
      · have h1 := hx.placed.tcplen_fin hf
        have h2 := hx.placed.fin hf
        rw [qlen, List.drop_eq_nil_iff.2 (by omega), List.drop_eq_nil_iff.2 (by omega)]
      · rw [qlen, tcplen_plain hs hf]

lemma byteSent_of_carried {i : ℕ} (hi : i < s.accepted.length)
    (hcar : Carried iss s.accepted s.wire (i + 1)) :
    ByteSent iss s i := by
  -- a position on the wire is a byte, if it is one of the accepted ones
  obtain ⟨seg, hseg, pos, hgen, hle, hlt⟩ := hcar
  have hin : i + 1 < pos + seg.data.length := by
    by_contra hout
    unfold TxSeg.tcplen at hlt
    split_ifs at hlt with hflag
    · rcases Bool.or_eq_true_iff.1 hflag with hf | hs
      · have := hgen.fin hf
        omega
      · obtain ⟨rfl, hd⟩ := hgen.syn hs
        simp [hd] at hlt
    · omega
  obtain ⟨hpos, rest, hrest⟩ := hgen.data fun h0 => by
    rw [h0, List.length_nil] at hin
    omega
  refine ⟨seg, hseg, i + 1 - pos, ?_, ?_⟩
  · rw [hgen.seqno, seqAt_add, Nat.add_sub_of_le hle]
  · have hget : (s.accepted.drop (pos - 1))[i + 1 - pos]? = s.accepted[i]? := by
      rw [List.getElem?_drop]
      congr 1
      omega
    rw [← hget, ← hrest, List.getElem?_append_left (by omega)]

/-- Each segment starts at the number at which the one before it ends, the first at `seqno`. -/
def Consecutive (seqno : Seq) : List TxSeg → Prop
  | [] => True
  | seg :: rest => seg.seqno = seqno ∧ Consecutive (seqno + BitVec.ofNat 32 seg.tcplen) rest

lemma tiles_consecutive (h : Tiles qlen (Spot iss acc nx) a q) :
    Consecutive (seqAt iss a) (pieces q) := by
  induction q generalizing a with
  | nil => trivial
  | cons x q ih =>
    obtain ⟨hx, hq⟩ := h
    refine ⟨hx.placed.seqno, ?_⟩
    rw [seqAt_add]
    exact ih hq

/-- The queues of `t`, put in the order of their numbers, start at position `pos` of the stream
and hold what was accepted from there on; every byte before it was on the wire. The SYN stands at
position zero. -/
structure CompleteFrom (iss : Seq) (t : Sender o) (pos : ℕ) (queue : List TxSeg) : Prop where
  queued : queue.Perm (outbound t.tx)
  inOrder : Consecutive (seqAt iss pos) queue
  rest : queue.flatMap TxSeg.data = t.accepted.drop (pos - 1)
  sent : ∀ i, i + 1 < pos → i < t.accepted.length → ByteSent iss t i

/-- No accepted byte is ever lost: while the pcb is active, what is queued is, in the order of the
sequence numbers, the end of the accepted bytes, and every byte before it was on the wire under
its number. -/
theorem send_complete {syn : Segment} (h : Opened syn iss s) (hroute : s.pcb.env.route = true)
    {es : List Event}
    (hes : Runs.Along step (Respects { ordered := true, routed := true }) (some s) es) :
    Alive (fun t => t.pcb.list = .active → ∃ pos queue, CompleteFrom iss t pos queue)
      (Runs.run step (some s) es) := by
  refine (inPlace_run rfl h (fun _ => hroute) hes).imp fun t ht hl => ?_
  rcases ht.2.queue with ⟨-, a, la, nx, q, hst, -, hcar⟩ | ⟨htw, -⟩
  · have hend := hst.finish
    have h1 := hst.freed
    have h2 := hst.acked
    refine ⟨a, pieces q, ?_, tiles_consecutive hst.tiles, tiles_data hst.tiles (by omega), ?_⟩
    · rw [outbound, hst.unacked, hst.unsent]
      exact (perm_pieces q).symm
    · intro i hi hlen
      exact byteSent_of_carried hlen (hcar rfl (i + 1) (by omega) (by omega))
  · rw [hl] at htw
    cases htw

theorem send_complete_lossRun :
    let t := Runs.run step (some (greeted .ios)) lossRun
    Alive (fun t => t.pcb.list = .active → ∃ pos queue, CompleteFrom 6510 t pos queue) t ∧
      t.map (fun t => (t.pcb.list, t.accepted, outbound t.tx)) = some (.active, [1, 2, 3], []) :=
  ⟨send_complete (greeted_opened .ios) rfl (by decide +kernel), by decide +kernel⟩

/-- What is in flight never exceeds the largest window the peer announced by more than the one
number that a SYN, a FIN or a probe takes. -/
theorem flight_within_window {syn : Segment} (h : Opened syn iss s) {es : List Event}
    (hes : Runs.Along step (Respects { ordered := true }) (some s) es) :
    Alive (fun t => t.pcb.list = .active → (t.tx.sndNxt - t.tx.lastack).toNat ≤ t.tx.sndWndMax + 1)
      (Runs.run step (some s) es) := by
  refine (inPlace_run rfl h (routed_free rfl) hes).imp fun t ht hl => ?_
  rcases ht.2.queue with ⟨-, a, la, nx, q, hst, -⟩ | ⟨htw, -⟩
  · have hshort := hst.short (ht.1.books hl)
    have hwithin := hst.within
    have hfreed := hst.freed
    have hflight := hst.flight
    rw [hst.sndNxt, hst.lastack]
    have hoff : (seqAt iss nx - seqAt iss la).toNat = nx - la :=
      off_seqAt hst.acked (by unfold half; omega)
    omega
  · rw [hl] at htw
    cases htw

theorem flight_within_window_lossRun :
    let t := Runs.run step (some (greeted .ios)) (lossRun.take 4)
    Alive (fun t => t.pcb.list = .active →
      (t.tx.sndNxt - t.tx.lastack).toNat ≤ t.tx.sndWndMax + 1) t ∧
      t.map (fun t => ((t.tx.sndNxt - t.tx.lastack).toNat, t.tx.sndWndMax)) = some (3, 1000) :=
  ⟨flight_within_window (greeted_opened .ios) (by decide +kernel), by decide +kernel⟩

end TunForge.SendEngine
