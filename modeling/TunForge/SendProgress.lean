import TunForge.SendTimers
import TunForge.SendWire

/-! As long as there is something to send, something is under way: after every event a segment is
in flight and timed, or the persist timer waits for the window to open. And a peer that stays
silent is given up. -/
namespace TunForge.SendEngine
open SerialNumber PbufChain LwipTypes TcpOut TcpIn Tcp Stack PcbFrames SendQueue WorkFrames
  TiledQueue
open WriteAdmission (mssLocal_pos)
open StackRuns (ackSegment openingSyn calmEnv)

variable {o : Platform} {g : Discipline} {s s' t : Sender o} {iss : Seq}

/-! ### Segments fit the segment size -/

/-- No queued segment is larger than what `tcp_write` would make now. -/
structure Small (s : Sender o) : Prop where
  len : ∀ seg ∈ outbound s.tx, seg.syn = false → seg.data.length + seg.optlen ≤ mssLocal s.pcb
  wnd : 2 ≤ s.tx.sndWndMax

lemma mssLocal_eq {pcb : Pcb o} (hmss : 0 < pcb.mss) (h : 2 ≤ pcb.tx.sndWndMax) :
    mssLocal pcb = min pcb.mss (min (pcb.tx.sndWndMax / 2) 0xFFFF) := by
  unfold mssLocal
  dsimp only
  rw [if_neg (by omega)]

lemma mssLocal_le (pcb : Pcb o) : mssLocal pcb ≤ pcb.mss := by
  unfold mssLocal
  dsimp only
  split_ifs
  · exact le_rfl
  · exact min_le_left _ _

lemma Small.of_mem (hled : Ledger s) (h : Small s)
    (hmem : ∀ seg ∈ outbound s'.tx, seg ∈ outbound s.tx) (hmss : s'.pcb.mss = s.pcb.mss)
    (hwnd : s.tx.sndWndMax ≤ s'.tx.sndWndMax) : Small s' := by
  have h2 := h.wnd
  have hpos := hled.mss.1
  have hle : mssLocal s.pcb ≤ mssLocal s'.pcb := by
    unfold Sender.tx at h2 hwnd
    rw [mssLocal_eq hpos h2, mssLocal_eq (hmss ▸ hpos) (h2.trans hwnd), hmss]
    omega
  exact ⟨fun seg hseg hsyn => (h.len seg (hmem seg hseg) hsyn).trans hle, h2.trans hwnd⟩

lemma mem_noteSent {tx : Tx} {seg : TxSeg} {rest : List TxSeg} (hu : tx.unsent = seg :: rest)
    {x : TxSeg} (hx : x ∈ outbound (noteSent tx seg rest)) : x ∈ outbound tx := by
  by_cases h0 : seg.tcplen = 0
  · unfold noteSent outbound at hx
    dsimp only at hx
    rw [if_pos h0] at hx
    rw [outbound, hu]
    simp only [List.mem_append, List.mem_cons] at hx ⊢
    tauto
  · exact (perm_noteSent hu (Nat.pos_of_ne_zero h0)).mem_iff.1 hx

lemma mem_ackNewData {tx : Tx} (ackno : Seq) {x : TxSeg}
    (hx : x ∈ outbound (ackNewData o tx ackno).1) : x ∈ outbound tx := by
  simp only [ackNewData, outbound, List.mem_append] at hx ⊢
  exact hx.imp ((tcpFreeAckedSegments_sums ackno tx.unacked).2.2 x)
    ((tcpFreeAckedSegments_sums ackno tx.unsent).2.2 x)

lemma rexmit_sndWndMax (tx : Tx) : (TcpOut.tcpRexmit tx).sndWndMax = tx.sndWndMax := by
  unfold TcpOut.tcpRexmit
  split <;> rfl

lemma cut_len {m : ℕ} {seqno : Seq} {data : Bytes} {segs : List TxSeg} (h : Cut m seqno data segs) :
    ∀ seg ∈ segs, seg.data.length + seg.optlen ≤ m := by
  induction segs generalizing seqno data with
  | nil => exact nofun
  | cons seg segs ih =>
    obtain ⟨-, rfl, hcut⟩ := h
    intro x hx
    rcases List.mem_cons.1 hx with rfl | hx
    · simp only [List.length_take]
      omega
    · exact ih hcut x hx

lemma Small.write (hled : Ledger s) (h : Small s) {data : Bytes} {pos cells ov : ℕ}
    {segs : List TxSeg} (hw : Written s.pcb data pos cells segs) {acc : Bytes} :
    Small ({ s with
      pcb := { s.pcb with tx := writtenTx s.pcb data pos cells segs ov },
      accepted := acc } : Sender o) := by
  have hsame : mssLocal ({ s.pcb with tx := writtenTx s.pcb data pos cells segs ov } : Pcb o) =
    mssLocal s.pcb := rfl
  refine ⟨fun x hx hsyn => ?_, h.wnd⟩
  have hold := h.len
  dsimp only at *
  rw [hsame]
  simp only [Sender.tx, writtenTx, outbound, List.mem_append] at hx hold
  rcases hx with hx | hx | hx
  · exact hold x (.inl hx) hsyn
  · rcases growLast_eq (l := s.pcb.tx.unsent) (data.take pos) cells with
      ⟨-, hg⟩ | ⟨front, last, hu, hg⟩
    · rw [hg] at hx
      cases hx
    · rw [hg] at hx
      simp only [List.mem_append, List.mem_singleton] at hx
      rcases hx with hx | rfl
      · exact hold x (.inr (by simp [hu, hx])) hsyn
      · have hlast := hold last (.inr (by simp [hu])) hsyn
        have hroom := hw.room last (by simp [hu])
        have hsmall : mssLocal s.pcb < 2 ^ 16 := by
          have := mssLocal_le s.pcb
          have := hled.mss.2
          have : tcpMss = 1460 := rfl
          omega
        simp only [List.length_append, List.length_take]
        omega
  · exact cut_len hw.cut x hx

lemma InPlace.plain (h : InPlace g iss s) {seg : TxSeg} {rest : List TxSeg} {n : ℕ}
    (hu : s.tx.unsent = seg :: rest) (hn : n < seg.data.length) : seg.syn = false := by
  rcases h.queue with ⟨-, a, la, nx, q, hst, -⟩ | ⟨-, -, -, hnil⟩
  · obtain ⟨pre, post, rfl, -⟩ := exists_first (hst.unsent ▸ hu)
    by_contra hs
    rw [(hst.at.2.1.placed.syn (by simpa using hs)).2.1, List.length_nil] at hn
    omega
  · rw [hnil] at hu
    cases hu

lemma small_move (hg : g.steadyMss = true) (hled : Ledger s) (hpl : InPlace g iss s) (h : Small s)
    (hm : Move g s s') : Small s' := by
  cases hm with
  | quiet hq =>
    obtain ⟨ov, err, htx⟩ := hq.tx
    refine h.of_mem hled (fun x hx => ?_) hq.mss ?_
    · rw [Sender.tx, htx] at hx
      exact hx
    · rw [Sender.tx, Sender.tx, htx]
  | options seg hsteady =>
    obtain ⟨sc, hsc⟩ := tcpParseopt_tx s.pcb seg
    refine h.of_mem hled (fun x hx => ?_) (hsteady hg) ?_
    · rw [Sender.tx, Sender.mapPcb, hsc] at hx
      exact hx
    · rw [Sender.tx, Sender.tx, Sender.mapPcb, hsc]
  | establish ackno pcb _ _ _ _ _ _ htx hmss =>
    refine h.of_mem hled (fun x hx => mem_ackNewData (o := o) ackno ?_) hmss ?_
    · rw [Sender.tx, htx] at hx
      exact hx
    · rw [Sender.tx, Sender.tx, htx]
      exact le_rfl
  | timeWait hst =>
    have hpurge := enterTimeWait_eq hst
    refine h.of_mem hled (fun x hx => ?_) hpurge.2 ?_
    · rw [Sender.tx, Sender.mapPcb, hpurge.1] at hx
      cases hx
    · rw [Sender.tx, Sender.tx, Sender.mapPcb, hpurge.1]
      exact le_rfl
  | window seg =>
    obtain ⟨_, _, _, _, heq, hmax, -⟩ := updateSndWnd_eq s.tx seg
    refine h.of_mem hled (fun x hx => ?_) rfl ?_
    · change x ∈ outbound (updateSndWnd s.tx seg) at hx
      rw [heq] at hx
      exact hx
    · change _ ≤ (updateSndWnd s.tx seg).sndWndMax
      rw [heq]
      exact hmax
  | ack ackno => exact h.of_mem hled (fun x hx => mem_ackNewData ackno hx) rfl le_rfl
  | duplicate =>
    obtain ⟨tx, c, r, x, rfl | rfl, -, -, heq⟩ := duplicateAck_eq s <;> rw [heq]
    · exact ⟨h.len, h.wnd⟩
    · exact h.of_mem hled (fun x hx => (perm_tcpRexmit s.tx).mem_iff.1 hx) rfl
        (rexmit_sndWndMax s.tx).ge
  | measure | countRexmit | startPersist | persist | tickTimer | route => exact ⟨h.len, h.wnd⟩
  | resendSyn =>
    unfold tcpRexmit
    split_ifs
    · exact h
    · exact h.of_mem hled (fun x hx => (perm_tcpRexmit s.tx).mem_iff.1 hx) rfl
        (rexmit_sndWndMax s.tx).ge
  | timeout =>
    unfold tcpRexmitRtoPrepare
    split
    · exact ⟨h.len, h.wnd⟩
    · exact h.of_mem hled (fun x hx => hx) rfl le_rfl
  | send seg rest hu => exact h.of_mem hled (fun x hx => mem_noteSent hu hx) rfl le_rfl
  | probe =>
    obtain ⟨nxt, rx, heq⟩ := probe_pcb s
    refine h.of_mem hled (fun x hx => ?_) (by rw [heq]) ?_
    · rw [Sender.tx, heq] at hx
      exact hx
    · rw [Sender.tx, Sender.tx, heq]
      exact le_rfl
  | split keep =>
    rcases tcpSplitUnsentSeg_tx keep (s.tx.sndWnd % 2 ^ 16) s with
      heq | ⟨seg, rest, ov, hu, h0, hn, heq⟩ <;> rw [heq]
    · exact h
    have hsyn : seg.syn = false := hpl.plain hu hn
    have hseg := h.len seg (by simp [outbound, hu]) hsyn
    refine ⟨fun x hx hx' => ?_, h.wnd⟩
    simp only [Sender.setTx, Sender.tx, outbound, List.mem_append, List.mem_cons] at hx
    change _ ≤ mssLocal s.pcb
    rcases hx with hx | rfl | rfl | hx
    · exact h.len x (by simp [outbound, Sender.tx, hx]) hx'
    · simp only [splitHead, List.length_take]
      omega
    · simp only [splitTail, List.length_drop]
      omega
    · exact h.len x (by simp [outbound, hu, hx]) hx'
  | write data pcb hw =>
    obtain ⟨pos, cells, segs, ov, hwritten, rfl⟩ := tcpWrite_ok hled.mss hw
    exact h.write hled hwritten
  | fin pcb next hf =>
    have hlen := h.len
    rcases tcpSendFin_ok hf with ⟨front, last, hu, -, -, rfl⟩ | ⟨-, rfl⟩
    · refine ⟨fun x hx hsyn => ?_, h.wnd⟩
      simp only [Sender.tx, outbound, hu, List.mem_append, List.mem_singleton] at hx hlen
      rcases hx with hx | hx | rfl
      · exact hlen x (.inl hx) hsyn
      · exact hlen x (.inr (.inl hx)) hsyn
      · exact hlen last (.inr (.inr rfl)) hsyn
    · refine ⟨fun x hx hsyn => ?_, h.wnd⟩
      simp only [Sender.tx, outbound, List.mem_append, List.mem_singleton] at hx hlen
      rcases hx with hx | hx | rfl
      · exact hlen x (.inl hx) hsyn
      · exact hlen x (.inr hx) hsyn
      · exact Nat.zero_le _

/-! ### A sound sender -/

/-- A peer that agrees on one segment size and acknowledges whole segments, a route to it, and
retransmissions that are not held back when the queue changes. -/
def fair : Discipline :=
  { ordered := true, steadyMss := true, wholeAcks := true, routed := true }

structure Healthy (iss : Seq) (s : Sender o) : Prop where
  ledger : Ledger s
  routed : Routed fair s
  place : InPlace fair iss s
  timed : Timed s
  sound : Sound s
  small : Small s
  rto : s.trip.rto ≤ 0x7FFF

lemma healthy_move (h : Healthy iss s) (hm : Move fair s s') : Healthy iss s' where
  ledger := ledger_move h.ledger hm
  routed := routed_move h.routed hm
  place := inPlace_move rfl h.ledger h.routed h.place hm
  timed := timed_move h.ledger h.timed hm
  sound := sound_move rfl h.ledger h.sound hm
  small := small_move rfl h.ledger h.place h.small hm
  rto := rto_move h.rto hm

lemma Healthy.moves (h : Healthy iss s) (hm : Moves fair s s') : Healthy iss s' :=
  hm.keeps (fun _ _ => healthy_move) h

lemma Healthy.active (h : Healthy iss s) {seg : TxSeg} {rest : List TxSeg}
    (hu : s.tx.unsent = seg :: rest) :
    s.pcb.list = .active := by
  rcases h.place.queue with ⟨hl, -⟩ | ⟨-, -, -, hnil⟩
  · exact hl
  · rw [hnil] at hu
    cases hu

/-- With nothing in flight the first segment reaches no farther than its data, and the congestion
window has room for it. -/
lemma Healthy.head (h : Healthy iss s) {seg : TxSeg} {rest : List TxSeg}
    (hu : s.tx.unsent = seg :: rest) (hnil : s.tx.unacked = []) :
    reach s.tx seg + (s.tx.lastack - seg.seqno).toNat = seg.data.length ∧
    reach s.tx seg ≤ s.cong.cwnd ∧
      seg.data.length ≤ s.pcb.mss := by
  rcases h.place.queue with ⟨hl, a, la, nx, q, hst, hre, -⟩ | ⟨-, -, -, hempty⟩
  · have hshort := hst.short (h.ledger.books hl)
    obtain ⟨pre, post, rfl, hpre, -⟩ := exists_first (hst.unsent ▸ hu)
    obtain rfl : pre = [] := hst.no_flight hpre hnil
    have hplaced : Placed iss s.accepted a seg := hst.at.2.1.placed
    have hfreed := hst.freed
    have hle : la ≤ a + seg.data.length := (hre.close rfl).head seg rfl
    have hlen := (tcplen_le seg).1
    rw [extent_middle, extent_nil] at hshort
    have hreach : reach s.tx seg = a + seg.data.length - la := by
      unfold reach
      rw [hplaced.seqno, hst.lastack, sub_add_eq_add_sub, seqAt_add]
      exact off_seqAt hle (by unfold half; omega)
    have hsize : seg.data.length ≤ s.pcb.mss := by
      rcases Bool.eq_false_or_eq_true seg.syn with hs | hs
      · rw [(hplaced.syn hs).2.1]
        exact Nat.zero_le _
      · have hsmall := h.small.len seg (by simp [outbound, hu]) hs
        have := mssLocal_le s.pcb
        omega
    have hdone : (s.tx.lastack - seg.seqno).toNat = la - a := by
      rw [hplaced.seqno, hst.lastack]
      exact off_seqAt hfreed (by unfold half; omega)
    refine ⟨by omega, ?_, hsize⟩
    by_cases hsyn : s.pcb.state = .synRcvd
    · -- only the SYN is queued before the handshake is complete
      obtain ⟨rfl, -⟩ := hre.greeting hsyn
      obtain rfl : a = 0 := by omega
      rw [hreach, (hplaced.syn hplaced.syn_of_zero).2.1]
      exact Nat.zero_le _
    · have := h.sound.cwnd_ge hsyn
      omega
  · rw [hempty] at hu
    cases hu

/-! ### Something is under way -/

/-- Nothing waits to be sent, or a segment is in flight, or the window holds the first segment
back and the persist timer runs. -/
def Running (s : Sender o) : Prop :=
  s.tx.unsent = [] ∨ s.tx.unacked ≠ [] ∨
    (0 < s.persist.backoff ∧ ∀ seg ∈ s.tx.unsent.head?, s.tx.sndWnd < reach s.tx seg)

/-- A change that neither the queues nor the window notice. -/
structure Still (s s' : Sender o) : Prop where
  unsent : s'.tx.unsent = s.tx.unsent
  unacked : s'.tx.unacked = s.tx.unacked
  lastack : s'.tx.lastack = s.tx.lastack
  sndWnd : s'.tx.sndWnd = s.tx.sndWnd
  persist : 0 < s.persist.backoff → 0 < s'.persist.backoff
  idle : s'.pcb.inputPcb = s.pcb.inputPcb

lemma Still.refl (s : Sender o) : Still s s := ⟨rfl, rfl, rfl, rfl, id, rfl⟩

lemma Still.trans {u : Sender o} (h : Still s t) (h' : Still t u) : Still s u :=
  ⟨h'.unsent.trans h.unsent, h'.unacked.trans h.unacked, h'.lastack.trans h.lastack,
    h'.sndWnd.trans h.sndWnd, h'.persist ∘ h.persist, h'.idle.trans h.idle⟩

lemma Running.of_still (h : Running s) (hs : Still s s') : Running s' := by
  unfold Running reach
  rw [hs.unsent, hs.unacked, hs.lastack, hs.sndWnd]
  exact h.imp_right (Or.imp_right fun hp => ⟨hs.persist hp.1, hp.2⟩)

lemma insertUnacked_ne_nil (seg : TxSeg) (l : List TxSeg) : insertUnacked seg l ≠ [] := by
  have hlen := (perm_insertUnacked seg l).length_eq
  intro h
  rw [h] at hlen
  cases hlen

lemma noteSent_ne_nil {tx : Tx} {seg : TxSeg} (rest : List TxSeg)
    (h : 0 < seg.tcplen ∨ tx.unacked ≠ []) :
    (noteSent tx seg rest).unacked ≠ [] := by
  unfold noteSent
  dsimp only
  split_ifs with h0
  · exact h.resolve_left (by omega)
  · split
    · exact nofun
    · split_ifs
      · exact insertUnacked_ne_nil seg _
      · simp

lemma outputLoop_flight {wnd : ℕ} (fuel : ℕ) (s : Sender o) (h : s.tx.unacked ≠ []) :
    (outputLoop wnd fuel s).tx.unacked ≠ [] := by
  induction fuel generalizing s with
  | zero => exact h
  | succ fuel ih =>
    unfold outputLoop
    split
    · exact h
    · rename_i seg rest hu
      split_ifs
      · exact h
      · exact ih _ (noteSent_ne_nil rest (.inr h))
      · exact h

lemma outputLoop_first {wnd : ℕ} (fuel : ℕ) {seg : TxSeg} {rest : List TxSeg}
    (hu : s.tx.unsent = seg :: rest) (hfit : reach s.tx seg ≤ wnd) (hnil : s.tx.unacked = [])
    (hpos : 0 < seg.tcplen) :
    (outputLoop wnd (fuel + 1) (stopPersist s)).tx.unacked ≠ [] := by
  have hnagle : tcpDoOutputNagle (stopPersist s) = true := by
    have : (stopPersist s).tx.unacked = [] := hnil
    simp [tcpDoOutputNagle, this]
  have hu' : (stopPersist s).tx.unsent = seg :: rest := hu
  have hfit' : reach (stopPersist s).tx seg ≤ wnd := hfit
  unfold outputLoop
  rw [hu']
  dsimp only
  rw [if_pos hfit', if_neg (by simp [hnagle])]
  exact outputLoop_flight _ _ (noteSent_ne_nil rest (.inl hpos))

lemma outputSegments_first {seg : TxSeg} {rest : List TxSeg} (hu : s.tx.unsent = seg :: rest)
    (hfit : reach s.tx seg ≤ sendWindow s) (hnil : s.tx.unacked = []) (hpos : 0 < seg.tcplen) :
    (outputSegments s).tx.unacked ≠ [] := by
  have hfirst := outputLoop_first rest.length hu hfit hnil hpos
  unfold outputSegments
  rw [hu]
  exact hfirst

lemma still_outputDone (s : Sender o) : Still s (outputDone s) := ⟨rfl, rfl, rfl, rfl, id, rfl⟩

lemma still_pcb {pcb : Pcb o} (htx : pcb.tx = s.pcb.tx) (hin : pcb.inputPcb = s.pcb.inputPcb) :
    Still s { s with pcb := pcb } := by
  refine ⟨?_, ?_, ?_, ?_, id, hin⟩ <;> rw [Sender.tx, htx] <;> rfl

lemma still_outputAck (s : Sender o) : Still s (outputAck s) := by
  unfold outputAck
  split_ifs
  · exact still_pcb (tx_tcpSendEmptyAck _) (inputPcb_of_core (same_tcpSendEmptyAck _).1)
  · exact still_outputDone s

lemma running_tcpOutput (h : Healthy iss s) (hidle : s.pcb.inputPcb = false) :
    Running (tcpOutput s) := by
  -- `tcp_output` leaves nothing waiting that is not under way
  have hout := outputs_tcpOutput s
  generalize tcpOutput s = t at hout ⊢
  cases hout with
  | busy hin =>
    rw [hidle] at hin
    cases hin
  | lost seg rest _ hu hroute =>
    rw [h.routed rfl] at hroute
    cases hroute
  | ack _ hu => exact .inl ((still_outputAck s).unsent.trans hu)
  | held seg rest _ hu _ hfit =>
    refine Running.of_still ?_ (still_outputAck _)
    have hpcb := startPersist_pcb (sendWindow s) s
    unfold Running
    rw [Sender.tx, hpcb]
    by_cases hnil : s.tx.unacked = []
    · -- the congestion window has room, so it is the peer that holds the segment back
      obtain ⟨-, hcwnd, -⟩ := h.head hu hnil
      have hwnd : sendWindow s = s.tx.sndWnd := by
        unfold sendWindow at hfit ⊢
        omega
      refine .inr (.inr ⟨?_, fun x hx => ?_⟩)
      · unfold startPersist
        split_ifs with hp
        · exact Nat.one_pos
        · exact Nat.pos_of_ne_zero fun h0 => hp ⟨hwnd, hnil, h0⟩
      · change x ∈ s.tx.unsent.head? at hx
        rw [hu] at hx
        obtain rfl : seg = x := Option.some.inj hx
        exact hwnd ▸ hfit
    · exact .inr (.inl hnil)
  | sent seg rest _ hu _ hfit =>
    refine .inr (.inl ?_)
    by_cases hnil : s.tx.unacked = []
    · have hpos := (h.ledger.books (h.active hu)).nonempty seg (by simp [outbound, hu])
      exact outputSegments_first hu hfit hnil hpos
    · exact outputLoop_flight _ (stopPersist s) hnil

/-- An event leaves everything as it is, or comes to `tcp_output`. -/
inductive Settles (g : Discipline) (s s' : Sender o) : Prop
  | still (h : Still s s')
  | output (t : Sender o) (hm : Moves g s t) (hidle : t.pcb.inputPcb = false)
      (h : Still (tcpOutput t) s')

lemma Settles.then_still (h : Settles g s t) (hs : Still t s') : Settles g s s' := by
  cases h with
  | still h => exact .still (h.trans hs)
  | output u hm hidle h => exact .output u hm hidle (h.trans hs)

lemma Settles.trans (h : Settles g s t) (hmoves : Moves g s t) (h' : Settles g t s') :
    Settles g s s' := by
  cases h' with
  | still hs => exact h.then_still hs
  | output u hm hidle hs => exact .output u (hmoves.trans hm) hidle hs

/-! What the application and the fast timer ask for comes to `tcp_output` with the timers as they
were and the same first segment, unless that has grown. -/

structure Calm (s s' : Sender o) : Prop extends Still s s' where
  sameRexmit : s'.rexmit = s.rexmit
  samePersist : s'.persist = s.persist
  mem : s'.pcb.env.mem = s.pcb.env.mem

lemma Calm.refl (s : Sender o) : Calm s s := ⟨.refl s, rfl, rfl, rfl⟩

lemma calm_pcb {pcb : Pcb o} (htx : pcb.tx = s.pcb.tx) (hin : pcb.inputPcb = s.pcb.inputPcb)
    (hmem : pcb.env.mem = s.pcb.env.mem) : Calm s { s with pcb := pcb } :=
  ⟨still_pcb htx hin, rfl, rfl, hmem⟩

structure Grows (s t : Sender o) : Prop where
  unacked : t.tx.unacked = s.tx.unacked
  lastack : t.tx.lastack = s.tx.lastack
  sndWnd : t.tx.sndWnd = s.tx.sndWnd
  rexmit : t.rexmit = s.rexmit
  persist : t.persist = s.persist
  idle : t.pcb.inputPcb = s.pcb.inputPcb
  mem : t.pcb.env.mem = s.pcb.env.mem
  head : ∀ seg ∈ s.tx.unsent.head?, ∃ seg' ∈ t.tx.unsent.head?, seg'.seqno = seg.seqno ∧
    seg.data.length ≤ seg'.data.length

lemma Calm.grows (h : Calm s t) : Grows s t where
  unacked := h.unacked
  lastack := h.lastack
  sndWnd := h.sndWnd
  rexmit := h.sameRexmit
  persist := h.samePersist
  idle := h.idle
  mem := h.mem
  head seg hseg := ⟨seg, h.unsent ▸ hseg, rfl, le_rfl⟩

inductive Orderly (g : Discipline) (s s' : Sender o) : Prop
  | calm (h : Calm s s')
  | output (t : Sender o) (hm : Moves g s t) (hg : Grows s t) (h : Calm (tcpOutput t) s')

lemma Calm.trans {u : Sender o} (h : Calm s t) (h' : Calm t u) : Calm s u :=
  ⟨h.toStill.trans h'.toStill, h'.sameRexmit.trans h.sameRexmit, h'.samePersist.trans h.samePersist,
    h'.mem.trans h.mem⟩

lemma Orderly.after_calm (hc : Calm s t) (hm : Moves g s t) (h : Orderly g t s') :
    Orderly g s s' := by
  cases h with
  | calm h => exact .calm (hc.trans h)
  | output u hmoves hg h =>
    exact .output u (hm.trans hmoves) ⟨hg.unacked.trans hc.unacked, hg.lastack.trans hc.lastack,
      hg.sndWnd.trans hc.sndWnd, hg.rexmit.trans hc.sameRexmit, hg.persist.trans hc.samePersist,
      hg.idle.trans hc.idle, hg.mem.trans hc.mem, fun seg hseg => hg.head seg (hc.unsent ▸ hseg)⟩ h

lemma Orderly.settles (hidle : s.pcb.inputPcb = false) (h : Orderly g s s') : Settles g s s' := by
  cases h with
  | calm h => exact .still h.toStill
  | output t hm hg h => exact .output t hm (hg.idle.trans hidle) h.toStill

lemma orderly_output (f : Pcb o → Pcb o) (hmem : (f s.pcb).env.mem = s.pcb.env.mem)
    (htx : (f s.pcb).tx = s.pcb.tx) (hside : side (f s.pcb) = side s.pcb)
    (hcore : core (f s.pcb) = core s.pcb) :
    Orderly g s (tcpOutput (s.mapPcb f)) :=
  .output _ (.single (.quiet (quiet_of_core htx hside hcore)))
    (calm_pcb htx (inputPcb_of_core hcore) hmem).grows (.refl _)

lemma growLast_head {l segs : List TxSeg} {data : Bytes} {n : ℕ} :
    ∀ seg ∈ l.head?, ∃ seg' ∈ (growLast l data n ++ segs).head?, seg'.seqno = seg.seqno ∧
    seg.data.length ≤ seg'.data.length := by
  intro seg hseg
  rcases growLast_eq (l := l) data n with ⟨rfl, -⟩ | ⟨pre, last, rfl, hg⟩
  · cases hseg
  · rw [hg]
    cases pre with
    | nil =>
      obtain rfl : last = seg := Option.some.inj hseg
      exact ⟨_, rfl, rfl, by simp⟩
    | cons x pre => exact ⟨seg, hseg, rfl, le_rfl⟩

lemma orderly_write (data : Bytes) (hled : Ledger s) (hopen : s.pcb.state ≠ .synRcvd)
    (h : g.ordered = true → InOrder s.tx) : Orderly g s (write data s) := by
  unfold write
  split
  · rename_i pcb hw
    refine .output _ (.single (.write data pcb hw hopen h)) ?_ (.refl _)
    obtain ⟨pos, cells, segs, ov, -, rfl⟩ := tcpWrite_ok hled.mss hw
    exact ⟨rfl, rfl, rfl, rfl, rfl, rfl, rfl, growLast_head⟩
  · rename_i pcb err hok hw
    obtain ⟨b, rfl⟩ := tcpWrite_fails hw hok
    exact .calm ⟨⟨rfl, rfl, rfl, rfl, id, rfl⟩, rfl, rfl, rfl⟩

lemma grows_fin {pcb : Pcb o} {next : TcpState} (h : tcpSendFin s.pcb = (pcb, .ok)) :
    Grows s { s with pcb := { pcb with state := next } } := by
  rcases tcpSendFin_ok h with ⟨front, last, hu, -, -, rfl⟩ | ⟨-, rfl⟩
  · refine ⟨rfl, rfl, rfl, rfl, rfl, rfl, rfl, fun seg hseg => ?_⟩
    rw [Sender.tx, hu] at hseg
    cases front with
    | nil =>
      obtain rfl : last = seg := Option.some.inj hseg
      exact ⟨_, rfl, rfl, le_rfl⟩
    | cons x front => exact ⟨seg, hseg, rfl, le_rfl⟩
  · refine ⟨rfl, rfl, rfl, rfl, rfl, rfl, rfl, fun seg hseg => ⟨seg, ?_, rfl, le_rfl⟩⟩
    exact List.mem_head?_append_of_mem_head? hseg

lemma orderly_close (hopen : s.pcb.state ≠ .synRcvd) (h : g.ordered = true → InOrder s.tx) :
    Orderly g s (tcpCloseShutdownFin s) := by
  unfold tcpCloseShutdownFin
  split
  · exact .calm (.refl s)
  · rename_i next hnext
    split
    · rename_i pcb hfin
      rw [if_neg hopen]
      exact .output _ (.single (.fin pcb next hfin hnext hopen h)) (grows_fin hfin) (.refl _)
    · rename_i pcb err hok hfin
      obtain ⟨b, rfl⟩ := tcpSendFin_fails hfin hok
      exact .calm ⟨⟨rfl, rfl, rfl, rfl, id, rfl⟩, rfl, rfl, rfl⟩

lemma orderly_shutdown (hopen : s.pcb.state ≠ .synRcvd) (h : g.ordered = true → InOrder s.tx) :
    Orderly g s (tcpShutdownTx s) := by
  unfold tcpShutdownTx
  split
  · exact orderly_close hopen h
  · exact orderly_close hopen h
  · exact orderly_close hopen h
  · exact .calm (.refl s)

lemma orderly_tcpClose (hopen : s.pcb.state ≠ .synRcvd) (h : g.ordered = true → InOrder s.tx)
    (hs : tcpClose s = some s') : Orderly g s s' := by
  have hmark : Calm s (s.mapPcb fun pcb => { pcb with rxClosed := true }) := calm_pcb rfl rfl rfl
  have hmoves : Moves g s (s.mapPcb fun pcb => { pcb with rxClosed := true }) :=
    .single (.quiet (quiet_pcb rfl rfl rfl rfl (.stay _) id))
  rw [tcpClose_some hs]
  exact .after_calm hmark hmoves (orderly_close hopen h)

lemma orderly_closeStep (h : g.ordered = true → InOrder s.tx)
    (hs : step (some s) .close = some s') : Orderly g s s' := by
  simp only [step] at hs
  split_ifs at hs with hopen
  · obtain rfl := Option.some.inj hs
    exact .calm (.refl s)
  · exact orderly_tcpClose hopen h hs

lemma orderly_recved (len : ℕ) (s : Sender o) : Orderly g s (tcpRecved len s) := by
  unfold tcpRecved
  dsimp only
  generalize tcpUpdateRcvAnnWnd o s.pcb.mss _ = r
  split_ifs
  · exact orderly_output (fun pcb => tcpAckNow { pcb with rx := r.1 }) rfl rfl rfl rfl
  · exact .calm (calm_pcb rfl rfl rfl)

lemma orderly_fasttmrAck (s : Sender o) : Orderly g s (fasttmrAck s) ∧ Moves g s (fasttmrAck s) ∧
    core (fasttmrAck s).pcb = core s.pcb := by
  unfold fasttmrAck
  split_ifs
  · refine ⟨?_, moves_mapQuiet (moves_quiet_output tcpAckNow rfl rfl rfl)
      (fun pcb => { pcb with ackDelay := false, ackNow := false }) rfl rfl rfl rfl (.stay _) id,
        core_tcpOutput (s.mapPcb tcpAckNow)⟩
    have hgrows : Calm s (s.mapPcb tcpAckNow) := calm_pcb rfl rfl rfl
    exact .output (s.mapPcb tcpAckNow) (.single (.quiet (quiet_of_core rfl rfl rfl))) hgrows.grows
      (calm_pcb rfl rfl rfl)
  · exact ⟨.calm (.refl s), .refl, rfl⟩

lemma orderly_fasttmrFin (hopen : (fasttmrAck s).pcb.closePend = true →
    (fasttmrAck s).pcb.state ≠ .synRcvd) (h :
    g.ordered = true → InOrder (fasttmrAck s).tx) : Orderly g (fasttmrAck s) (tcpFasttmr s) := by
  unfold tcpFasttmr
  dsimp only
  split_ifs with hcp
  · have hclear : Calm (fasttmrAck s)
        ((fasttmrAck s).mapPcb fun pcb => { pcb with closePend := false }) := calm_pcb rfl rfl rfl
    exact .after_calm hclear (.single (.quiet (quiet_pcb rfl rfl rfl rfl (.stay _) nofun)))
      (orderly_close (hopen hcp) h)
  · exact .calm (.refl _)

lemma settles_timewait (seg : Segment) (hidle : s.pcb.inputPcb = false) :
    Settles g s (tcpTimewaitInput seg s) := by
  have hrestart : Still s (s.mapPcb fun pcb => { pcb with tmr := pcb.ticks }) := still_pcb rfl rfl
  unfold tcpTimewaitInput
  dsimp only
  split_ifs
  · exact .still (.refl s)
  · exact .still (.refl s)
  · exact (orderly_output (fun pcb => tcpAckNow { pcb with tmr := pcb.ticks }) rfl rfl rfl
      rfl).settles hidle
  · exact (orderly_output tcpAckNow rfl rfl rfl rfl).settles hidle
  · exact .still hrestart
  · exact .still (.refl s)

lemma settles_tcpInput {seg : Segment} (hidle : s.pcb.inputPcb = false)
    (h : Respects g (some s) (.segment seg)) (hs : tcpInput seg s = some s') : Settles g s s' := by
  unfold tcpInput at hs
  cases hlist : s.pcb.list with
  | active =>
    rw [hlist] at hs
    dsimp only at hs
    split_ifs at hs
    obtain rfl := Option.some.inj hs
    obtain ⟨t, ht, hin, heq⟩ :=
      moves_inputDone (g := g) (tcpProcess (s.mapPcb fun pcb => { pcb with inputPcb := true }) seg)
    rw [heq]
    exact .output t ((moves_received h).trans ht) hin (.refl _)
  | timeWait =>
    rw [hlist] at hs
    obtain rfl := Option.some.inj hs
    exact settles_timewait seg hidle
  | unlisted =>
    rw [hlist] at hs
    obtain rfl := Option.some.inj hs
    exact .still (.refl s)

lemma split_fails {keep n : ℕ} {err : Err} (h : tcpSplitUnsentSeg keep n s = (t, err))
    (herr : err ≠ .ok) : t = s := by
  have hfst : (tcpSplitUnsentSeg keep n s).1 = t := congrArg Prod.fst h
  have hsnd : (tcpSplitUnsentSeg keep n s).2 = err := congrArg Prod.snd h
  unfold tcpSplitUnsentSeg at hfst hsnd
  dsimp only at hfst hsnd
  rcases tcpSplitUnsentSeg_cases keep n s.pcb with heq | ⟨seg, rest, -, -, -, -, heq⟩
  · rw [heq] at hfst
    exact hfst.symm
  · rw [heq] at hsnd
    exact absurd hsnd.symm herr

lemma still_nextSlot (s : Sender o) : Still s { s with persist := nextSlot s.persist } :=
  ⟨rfl, rfl, rfl, rfl, backoff_nextSlot, rfl⟩

lemma still_probe (s : Sender o) : Still s (tcpZeroWindowProbe s).1 := by
  obtain ⟨nxt, rx, heq⟩ := probe_pcb s
  refine ⟨?_, ?_, ?_, ?_, fun hp => (probe_backoff s).symm ▸ hp, inputPcb_of_core (core_probe s)⟩
    <;> rw [Sender.tx, heq]

lemma settles_persistFire (keep : ℕ) (hidle : s.pcb.inputPcb = false)
    (hfin : g.ordered = true → FinWhole s.tx) :
    Settles g s (persistFire keep s) := by
  unfold persistFire
  split_ifs with h0
  · have hprobe := still_probe s
    generalize tcpZeroWindowProbe s = r at hprobe
    split
    · exact .still (hprobe.trans (still_nextSlot _))
    · exact .still hprobe
  · have hsplit : Move g s (tcpSplitUnsentSeg keep (s.tx.sndWnd % 2 ^ 16) s).1 :=
      .split keep h0 hfin
    have hcore := core_split keep (s.tx.sndWnd % 2 ^ 16) s
    split
    · rename_i t hok
      rw [hok] at hsplit hcore
      have hout : Settles g s (tcpOutput t) :=
        .output t (.single hsplit) ((inputPcb_of_core hcore).trans hidle) (.refl _)
      split_ifs
      · exact hout.then_still (still_nextSlot _)
      · exact hout
    · rename_i t err hne hfail
      obtain rfl := split_fails hfail hne
      exact .still (still_nextSlot _)

lemma settles_sendTick (keep : ℕ) (hidle : s.pcb.inputPcb = false)
    (h : g.ordered = true → TickOk s) :
    Settles g s (sendTick keep s) := by
  unfold sendTick
  split_ifs with hp
  · have hcount : Still s { s with persist := { s.persist with cnt := s.persist.cnt + 1 } } :=
      ⟨rfl, rfl, rfl, rfl, id, rfl⟩
    unfold persistTick
    dsimp only
    split_ifs
    · refine Settles.trans (.still hcount) (.single (.persist _ (.inr hp))) ?_
      exact settles_persistFire keep hidle fun hg => (h hg).2 hp
    · exact .still hcount
    · exact settles_persistFire keep hidle fun hg => (h hg).2 hp
    · exact .still (.refl s)
  · have htick : Still s { s with rexmit := tickTimer s.rexmit } := ⟨rfl, rfl, rfl, rfl, id, rfl⟩
    have hcore := core_tcpRexmitRtoPrepare { s with rexmit := tickTimer s.rexmit }
    unfold rexmitTick rexmitFire tcpRexmitRtoCommit
    dsimp only
    split_ifs with hdue hq
    · exact .still htick
    · refine .output _ (.head .tickTimer
        (.head (.timeout ?_ hq fun hg => (h hg).1) (.single .countRexmit)))
        ((inputPcb_of_core hcore).trans hidle) (.refl _)
      exact Nat.eq_zero_of_not_pos hp
    · exact .still htick

lemma settles_tcpSlowtmr {keep : ℕ} (hidle : s.pcb.inputPcb = false)
    (h : g.ordered = true → TickOk s) (hs : tcpSlowtmr keep s = some s') : Settles g s s' := by
  have htick : Still s (s.mapPcb fun pcb => { pcb with ticks := pcb.ticks + 1 }) :=
    still_pcb rfl rfl
  have hmove : Move g s (s.mapPcb fun pcb => { pcb with ticks := pcb.ticks + 1 }) :=
    .quiet (quiet_pcb rfl rfl rfl rfl (.stay _) id)
  unfold tcpSlowtmr slowtmrActive at hs
  dsimp only at hs
  split at hs
  · split_ifs at hs
    obtain rfl := Option.some.inj hs
    refine Settles.then_still (Settles.trans (.still htick) (.single hmove)
      (settles_sendTick keep hidle h)) ?_
    refine Still.trans (still_pcb rfl rfl) (still_pcb ?_ (inputPcb_of_core (core_dropStaleOoseq _)))
    unfold dropStaleOoseq
    split_ifs <;> rfl
  · split_ifs at hs
    obtain rfl := Option.some.inj hs
    exact .still htick
  · obtain rfl := Option.some.inj hs
    exact .still htick

/-- Every event settles. -/
theorem settles_step {e : Event} (hled : Ledger s) (hidle : s.pcb.inputPcb = false)
    (hopen : PendOpen s) (h : Respects g (some s) e) (hs : step (some s) e = some s') :
    Settles g s s' := by
  have happ : ∀ f : Sender o → Sender o, (s.pcb.state ≠ .synRcvd → Settles g s (f s)) →
      Settles g s (whenOpen f s) := by
    intro f hf
    unfold whenOpen
    split_ifs with hst
    · exact .still (.refl s)
    · exact hf hst
  cases e with
  | write data =>
    obtain rfl := Option.some.inj hs
    exact happ _ fun hst => (orderly_write data hled hst h).settles hidle
  | shutdown =>
    obtain rfl := Option.some.inj hs
    exact happ _ fun hst => (orderly_shutdown hst h).settles hidle
  | close => exact (orderly_closeStep h hs).settles hidle
  | recved len =>
    obtain rfl := Option.some.inj hs
    exact happ _ fun _ => (orderly_recved len s).settles hidle
  | output =>
    obtain rfl := Option.some.inj hs
    exact .output s .refl hidle (.refl _)
  | segment seg => exact settles_tcpInput hidle h hs
  | fasttmr =>
    obtain rfl := Option.some.inj hs
    unfold whenActive
    split_ifs
    · obtain ⟨hack, hmoves, hcore⟩ := orderly_fasttmrAck (g := g) s
      refine (hack.settles hidle).trans hmoves ((orderly_fasttmrFin (fun hp => ?_) h).settles ?_)
      · rw [state_of_core hcore]
        exact hopen (closePend_of_core hcore ▸ hp)
      · exact (inputPcb_of_core hcore).trans hidle
    · exact .still (.refl s)
  | slowtmr keep => exact settles_tcpSlowtmr hidle h hs
  | mem | route =>
    obtain rfl := Option.some.inj hs
    exact .still (still_pcb rfl rfl)

/-! ### The result -/

structure Live (iss : Seq) (s : Sender o) : Prop where
  healthy : Healthy iss s
  pend : PendOpen s
  idle : s.pcb.inputPcb = false
  running : Running s

lemma Live.settle (h : Live iss s) (hmoves : Moves fair s s') (hs : Settles fair s s') :
    Live iss s' := by
  have hhealthy := h.healthy.moves hmoves
  have hpend : PendOpen s' := hmoves.keeps (fun _ _ => pendOpen_move) h.pend
  cases hs with
  | still hst => exact ⟨hhealthy, hpend, hst.idle.trans h.idle, h.running.of_still hst⟩
  | output t hm hidle hst =>
    have hrun := running_tcpOutput (h.healthy.moves hm) hidle
    exact ⟨hhealthy, hpend, hst.idle.trans ((inputPcb_of_core (core_tcpOutput t)).trans hidle),
      hrun.of_still hst⟩

lemma live_step {e : Event} (h : Live iss s) (he : Respects fair (some s) e)
    (hs : step (some s) e = some s') : Live iss s' :=
  h.settle (moves_step h.pend he hs) (settles_step h.healthy.ledger h.idle h.pend he hs)

lemma Fresh.healthy (h : Fresh iss s) (hwnd : 2 ≤ s.tx.sndWndMax)
    (hroute : s.pcb.env.route = true) : Healthy iss s := by
  refine ⟨h.ledger, fun _ => hroute, h.inPlace fair, h.timed, h.sound,
    ⟨fun seg hseg hs => ?_, hwnd⟩, ?_⟩
  · obtain ⟨wl1, sc, wnd, opt, htx⟩ := h.tx
    rw [htx] at hseg
    obtain rfl := List.mem_singleton.1 hseg
    cases hs
  · rw [h.rest]
    norm_num [newSender, tcpRtoTime]

lemma Opened.live {syn : Segment} (hwnd : 2 ≤ syn.wnd) (h : Opened syn iss s)
    (hroute : s.pcb.env.route = true) : Live iss s := by
  obtain ⟨s₀, hfresh, rfl, hmax⟩ := fresh_of_opened h
  rw [env_tcpOutput] at hroute
  have hhealthy := hfresh.healthy (hmax ▸ hwnd) hroute
  have hcore := core_tcpOutput s₀
  refine ⟨hhealthy.moves (moves_tcpOutput s₀), fun hp => ?_,
    (inputPcb_of_core hcore).trans hfresh.idle, running_tcpOutput hhealthy hfresh.idle⟩
  rw [closePend_of_core hcore, hfresh.pend] at hp
  cases hp

theorem live_run (h : Live iss s) {es : List Event}
    (hes : Runs.Along step (Respects fair) (some s) es) :
    Alive (Live iss) (Runs.run step (some s) es) := by
  refine Runs.invariant step (Alive (Live iss)) (fun t e ht he => ?_) (s := some s) h hes
  cases t with
  | none => trivial
  | some t =>
    cases hs : step (some t) e with
    | none => trivial
    | some t' => exact live_step ht he hs

/-- With a route to the peer, between any two events, if a segment is queued at all, then the
retransmission timer times one that is in flight, or nothing is in flight, the peer's window holds
the first one back and the persist timer runs. -/
theorem no_stall {syn : Segment} (hwnd : 2 ≤ syn.wnd) (h : Opened syn iss s)
    (hroute : s.pcb.env.route = true) {es : List Event}
    (hes : Runs.Along step (Respects fair) (some s) es) :
    Alive (fun t => outbound t.tx ≠ [] → (t.tx.unacked ≠ [] ∧ 0 ≤ t.rexmit.rtime) ∨
      (t.tx.unacked = [] ∧ 0 < t.persist.backoff ∧ ∀ seg ∈ t.tx.unsent.head?,
        t.tx.sndWnd < reach t.tx seg))
      (Runs.run step (some s) es) := by
  refine (live_run (h.live hwnd hroute) hes).imp fun t ht hq => ?_
  by_cases hnil : t.tx.unacked = []
  · rcases ht.running with hun | hun | ⟨hp, hfit⟩
    · exact absurd (by rw [outbound, hnil, hun]; rfl) hq
    · exact absurd hnil hun
    · exact .inr ⟨hnil, hp, hfit⟩
  · exact .inl ⟨hnil, ht.healthy.timed.rexmit hnil⟩

/-- A peer that closes its window once the connection is open. -/
def closedWindowRun : List Event :=
  [.segment { ackSegment 101 6511 with wnd := 0 }, .write [1, 2, 3]]

theorem no_stall_closedWindowRun :
    let t := Runs.run step (some (greeted .ios)) closedWindowRun
    Alive (fun t => outbound t.tx ≠ [] → (t.tx.unacked ≠ [] ∧ 0 ≤ t.rexmit.rtime) ∨
      (t.tx.unacked = [] ∧ 0 < t.persist.backoff ∧ ∀ seg ∈ t.tx.unsent.head?,
        t.tx.sndWnd < reach t.tx seg)) t ∧
      t.map (fun t => ((outbound t.tx).length, t.tx.unacked, t.persist.backoff)) =
        some (1, [], 1) :=
  ⟨no_stall (by decide) (greeted_opened .ios) rfl (by decide +kernel), by decide +kernel⟩

end TunForge.SendEngine
