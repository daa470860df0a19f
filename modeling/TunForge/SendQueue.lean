import TunForge.WellFormed

/-! The send queue of a pcb: what each operation of lwIP leaves in it, and where the FIN goes.
Nothing is ever queued behind a FIN, unless a retransmission has left the queue out of order
when the FIN is put into it. -/
namespace TunForge.SendQueue
open SerialNumber PbufChain LwipTypes TcpOut TcpIn Tcp Connection PcbFrames InputCases Stack

variable {o : Platform} {p q r : Pcb o} {tx tx' : Tx} {f seg : TxSeg} {l : List TxSeg}

/-- All that is queued for the peer. -/
def outbound (tx : Tx) : List TxSeg := tx.unacked ++ tx.unsent

/-- Every byte of `tx` is still queued in `tx'`, at its sequence number. -/
def StillQueued (tx tx' : Tx) : Prop :=
  ∀ seg ∈ outbound tx, seg.data ≠ [] → ∃ seg' ∈ outbound tx', seg'.seqno = seg.seqno ∧
    seg'.data = seg.data

/-- A FIN is queued, and nothing behind it. -/
def FinLast (tx : Tx) : Prop := ∃ f, (outbound tx).getLast? = some f ∧ f.fin = true

/-- Nothing that is queued starts behind a FIN. -/
def FinTrails (tx : Tx) : Prop :=
  ∀ f ∈ outbound tx, f.fin = true → ∀ a ∈ outbound tx, lt f.seqno a.seqno = false

/-- No FIN is queued before the sending side is closed, and then it trails. -/
structure FinOrder (p : Pcb o) : Prop where
  past : ∀ f ∈ outbound p.tx, f.fin = true → closeTarget p.state = none
  trails : FinTrails p.tx

lemma StillQueued.refl (tx : Tx) : StillQueued tx tx := fun seg hseg _ => ⟨seg, hseg, rfl, rfl⟩

lemma StillQueued.trans {tx₁ tx₂ tx₃ : Tx} (h : StillQueued tx₁ tx₂) (h' : StillQueued tx₂ tx₃) :
    StillQueued tx₁ tx₃ := by
  intro seg hseg hd
  obtain ⟨seg', hseg', h1, h2⟩ := h seg hseg hd
  obtain ⟨seg'', hseg'', h3, h4⟩ := h' seg' hseg' (h2 ▸ hd)
  exact ⟨seg'', hseg'', h3.trans h1, h4.trans h2⟩

lemma StillQueued.of_mem (h : ∀ seg ∈ outbound tx, seg.data ≠ [] → seg ∈ outbound tx') :
    StillQueued tx tx' :=
  fun seg hseg hd => ⟨seg, h seg hseg hd, rfl, rfl⟩

/-! ### Work that queues nothing -/

/-- The queue has lost segments or none, and a sending side that was closed still is. -/
structure Sheds (p q : Pcb o) : Prop where
  mem : ∀ a ∈ outbound q.tx, a ∈ outbound p.tx
  past : closeTarget p.state = none → closeTarget q.state = none

lemma Sheds.refl (p : Pcb o) : Sheds p p := ⟨fun _ h => h, id⟩

lemma Sheds.trans (h : Sheds p q) (h' : Sheds q r) : Sheds p r :=
  ⟨fun a ha => h.mem a (h'.mem a ha), fun hp => h'.past (h.past hp)⟩

lemma sheds_of_tx (h : q.tx = p.tx) (hs : closeTarget p.state = none → closeTarget q.state = none) :
    Sheds p q :=
  ⟨fun _ ha => h ▸ ha, hs⟩

lemma Sheds.of_tx (h : Sheds q r) (htx : q.tx = p.tx)
    (hs : closeTarget p.state = none → closeTarget q.state = none) :
    Sheds p r :=
  (sheds_of_tx htx hs).trans h

lemma FinOrder.shed (h : FinOrder p) (hq : Sheds p q) : FinOrder q := by
  refine ⟨fun f hf hfin => ?_, fun f hf hfin a ha => ?_⟩
  · exact hq.past (h.past f (hq.mem f hf) hfin)
  · exact h.trails f (hq.mem f hf) hfin a (hq.mem a ha)

lemma mem_insertUnacked {a : TxSeg} : a ∈ insertUnacked seg l ↔ a = seg ∨ a ∈ l := by
  induction l with
  | nil => simp [insertUnacked]
  | cons c cs ih =>
    unfold insertUnacked
    split_ifs
    · simp only [List.mem_cons, ih]
      tauto
    · simp only [List.mem_cons]

lemma mem_noteSent {a : TxSeg} {rest : List TxSeg} :
    a ∈ (noteSent tx seg rest).unacked ↔ (a = seg ∧ seg.tcplen ≠ 0) ∨ a ∈ tx.unacked := by
  unfold noteSent
  dsimp only
  split_ifs with h0
  · simp [h0]
  · cases hlast : tx.unacked.getLast? with
    | none => simp [List.getLast?_eq_none_iff.1 hlast, h0]
    | some last =>
      dsimp only
      split_ifs
      · simp [mem_insertUnacked, h0]
      · simp [h0, or_comm]

lemma outbound_noteSent {rest : List TxSeg} (hu : tx.unsent = seg :: rest) :
    ∀ a ∈ outbound (noteSent tx seg rest), a ∈ outbound tx := by
  intro a ha
  have hunsent : (noteSent tx seg rest).unsent = rest := rfl
  rw [outbound, List.mem_append, mem_noteSent, hunsent] at ha
  rw [outbound, List.mem_append, hu, List.mem_cons]
  tauto

lemma outbound_sendSegments (n : ℕ) (tx : Tx) :
    ∀ a ∈ outbound (sendSegments n tx), a ∈ outbound tx := by
  induction n generalizing tx with
  | zero => exact fun a ha => ha
  | succ n ih =>
    unfold sendSegments
    cases hu : tx.unsent with
    | nil => exact fun a ha => ha
    | cons d ds => exact fun a ha => outbound_noteSent hu a (ih _ a ha)

lemma tx_tcpSendEmptyAck (p : Pcb o) : (tcpSendEmptyAck p).tx = p.tx := by
  unfold tcpSendEmptyAck
  split_ifs <;> rfl

lemma sheds_tcpOutput (p : Pcb o) : Sheds p (tcpOutput p) := by
  have hstate : (tcpOutput p).state = p.state := state_of_core (same_tcpOutput p).1
  refine ⟨?_, fun h => hstate ▸ h⟩
  unfold tcpOutput outputNow
  split_ifs
  · exact fun a ha => ha
  · exact fun a ha => ha
  · rw [tx_tcpSendEmptyAck]
    exact fun a ha => ha
  · exact fun a ha => ha
  · exact fun a ha => ha
  · exact outbound_sendSegments p.env.quota p.tx

lemma sheds_tcpRecved (p : Pcb o) (len : ℕ) : Sheds p (tcpRecved p len) := by
  rw [tcpRecved_eq]
  dsimp only
  split_ifs
  · exact (sheds_tcpOutput _).of_tx rfl id
  · exact sheds_of_tx rfl id

lemma sheds_foldl_recved (ns : List ℕ) (p : Pcb o) : Sheds p (ns.foldl RawApi.recved p) := by
  induction ns generalizing p with
  | nil => exact .refl p
  | cons n ns ih => exact (sheds_tcpRecved p n).trans (ih _)

lemma outbound_tcpRexmit (tx : Tx) : ∀ a ∈ outbound (tcpRexmit tx), a ∈ outbound tx := by
  intro a ha
  unfold tcpRexmit at ha
  cases hun : tx.unacked with
  | nil =>
    rw [hun] at ha
    exact ha
  | cons d ds =>
    rw [hun] at ha
    simp only [outbound, List.mem_append, mem_insertUnacked, hun, List.mem_cons] at ha ⊢
    tauto

lemma sheds_tcpRexmit (p : Pcb o) : Sheds p { p with tx := tcpRexmit p.tx } :=
  ⟨outbound_tcpRexmit p.tx, id⟩

lemma sheds_tcpRexmitRtoPrepare (p : Pcb o) :
    Sheds p { p with tx := tcpRexmitRtoPrepare p.tx } := by
  refine ⟨fun a ha => ?_, id⟩
  simpa [outbound, tcpRexmitRtoPrepare] using ha

lemma sheds_tcpTimewaitInput (p : Pcb o) (seg : Segment) : Sheds p (tcpTimewaitInput p seg) := by
  have hout : ∀ q : Pcb o, q.tx = p.tx → q.state = p.state → Sheds p (tcpOutput (tcpAckNow q)) := by
    intro q htx hs
    exact (sheds_tcpOutput _).of_tx htx fun h => hs ▸ h
  simp only [tcpTimewaitInput]
  split_ifs
  · exact .refl p
  · exact .refl p
  · exact hout _ rfl rfl
  · exact hout _ rfl rfl
  · exact sheds_of_tx rfl id
  · exact .refl p

lemma sheds_dropStaleOoseq (p : Pcb o) : Sheds p (dropStaleOoseq p) := by
  unfold dropStaleOoseq
  split_ifs
  · exact sheds_of_tx rfl id
  · exact .refl p

/-! ### A segment arrives -/

lemma mem_tcpFreeAckedSegments (ackno : Seq) : ∀ a ∈ (tcpFreeAckedSegments ackno l).1, a ∈ l := by
  induction l with
  | nil => exact fun a ha => ha
  | cons d ds ih =>
    unfold tcpFreeAckedSegments
    split_ifs
    · exact fun a ha => List.mem_cons_of_mem d (ih a ha)
    · exact fun a ha => ha

lemma outbound_ackNewData (tx : Tx) (ackno : Seq) :
    ∀ a ∈ outbound (ackNewData o tx ackno).1, a ∈ outbound tx := by
  intro a ha
  simp only [outbound, ackNewData, List.mem_append] at ha ⊢
  exact ha.imp (mem_tcpFreeAckedSegments ackno a) (mem_tcpFreeAckedSegments ackno a)

lemma outbound_updateSndWnd (tx : Tx) (seg : Segment) :
    outbound (updateSndWnd tx seg) = outbound tx := by
  unfold updateSndWnd
  dsimp only
  split_ifs <;> rfl

lemma sheds_tcpReceiveAck (p : Pcb o) (seg : Segment) : Sheds p (tcpReceiveAck p seg).1 := by
  have hstate : (tcpReceiveAck p seg).1.state = p.state :=
    state_of_core (same_tcpReceiveAck p seg).1
  refine ⟨?_, fun h => hstate ▸ h⟩
  have hwnd := outbound_updateSndWnd p.tx seg
  simp only [tcpReceiveAck]
  split_ifs
  · exact fun a ha => hwnd ▸ outbound_tcpRexmit _ a ha
  · exact fun a ha => hwnd ▸ ha
  · exact fun a ha => hwnd ▸ outbound_ackNewData _ _ a ha
  · rw [tx_tcpSendEmptyAck]
    exact fun a ha => hwnd ▸ ha
  · exact fun a ha => ha

lemma tx_tcpReceiveText (p : Pcb o) (seg : Segment) : (tcpReceiveText p seg).pcb.tx = p.tx := by
  have hack : ∀ q : Pcb o, (tcpAck q).tx = q.tx := by
    intro q
    unfold tcpAck
    split_ifs <;> rfl
  unfold tcpReceiveText
  dsimp only
  split_ifs <;> simp [hack, tx_tcpSendEmptyAck, tcpAckNow]

lemma sheds_tcpReceive (p : Pcb o) (seg : Segment) : Sheds p (tcpReceive p seg).pcb := by
  have hack := sheds_tcpReceiveAck p seg
  refine ⟨?_, fun h => ?_⟩
  · unfold tcpReceive
    dsimp only
    split_ifs
    · dsimp only
      rw [tx_tcpReceiveText]
      exact hack.mem
    · exact hack.mem
    · exact hack.mem
  · rcases core_tcpReceive p seg with hc | ⟨hs, -⟩
    · rwa [state_of_core hc]
    · simp [hs, closeTarget] at h

lemma sheds_enterTimeWait (p : Pcb o) : Sheds p (enterTimeWait p) := by
  refine ⟨fun a ha => ?_, fun _ => rfl⟩
  revert ha
  simp only [enterTimeWait, tcpPcbPurge]
  split_ifs
  · exact fun ha => absurd ha (by simp [outbound])
  · exact id

lemma sheds_processState (p : Pcb o) (seg : Segment) : Sheds p (processState p seg).pcb := by
  -- whatever state a segment leads to, a closed sending side is not opened again
  have hrec := sheds_tcpReceive p seg
  have hopen : ∀ {q : Pcb o}, q.tx = (tcpReceive p seg).pcb.tx → closeTarget p.state ≠ none →
      Sheds p q :=
    fun htx hne => ⟨fun a ha => hrec.mem a (htx ▸ ha), fun h => absurd h hne⟩
  have hshut : ∀ {q : Pcb o}, q.tx = (tcpReceive p seg).pcb.tx → closeTarget q.state = none →
      Sheds p q :=
    fun htx hq => ⟨fun a ha => hrec.mem a (htx ▸ ha), fun _ => hq⟩
  have hwait : Sheds p (enterTimeWait (tcpAckNow (tcpReceive p seg).pcb)) :=
    hrec.trans ((sheds_enterTimeWait _).of_tx rfl id)
  unfold processState
  cases hs : p.state with
  | synRcvd =>
    dsimp only
    split_ifs
    · exact ⟨(sheds_tcpRexmit p).mem, fun h => by simp [hs, closeTarget] at h⟩
    · exact .refl p
  | established =>
    dsimp only
    split_ifs
    · exact hopen rfl (by simp [hs, closeTarget])
    · exact hrec
  | closeWait =>
    dsimp only
    split_ifs
    · exact hopen rfl (by simp [hs, closeTarget])
    · exact hrec
  | finWait1 =>
    dsimp only
    split_ifs
    · exact hwait
    · exact hshut rfl rfl
    · exact hshut rfl rfl
    · exact hrec
  | finWait2 =>
    dsimp only
    split_ifs
    · exact hwait
    · exact hrec
  | closing =>
    dsimp only
    split_ifs
    · exact hrec.trans (sheds_enterTimeWait _)
    · exact hrec
  | lastAck =>
    dsimp only
    split_ifs
    · exact hrec.trans (sheds_of_tx rfl id)
    · exact hrec
  | _ => exact .refl p

lemma outbound_tcpParseopt (p : Pcb o) (seg : Segment) :
    outbound (tcpParseopt p seg).tx = outbound p.tx := by
  unfold tcpParseopt
  cases seg.mss <;> cases seg.wndScale <;> simp <;> split_ifs <;> rfl

lemma sheds_noteActivity (p : Pcb o) (seg : Segment) : Sheds p (noteActivity p seg) := by
  have hstate : (noteActivity p seg).state = p.state := state_of_core (core_noteActivity p seg)
  refine ⟨fun a ha => ?_, fun h => hstate ▸ h⟩
  rw [noteActivity, outbound_tcpParseopt] at ha
  split_ifs at ha <;> exact ha

lemma sheds_tcpProcess (p : Pcb o) (seg : Segment) : Sheds p (tcpProcess p seg).pcb := by
  unfold tcpProcess
  split_ifs
  · exact sheds_of_tx rfl id
  · exact sheds_of_tx rfl id
  · exact .refl p
  · exact sheds_of_tx rfl id
  · exact (sheds_noteActivity p seg).trans (sheds_processState _ seg)

lemma sheds_processEstablished (hs : p.state = .established) (seg : Segment) :
    Sheds p (processEstablished p seg).pcb := by
  have hrec : Sheds p (tcpReceive { p with state := .established } seg).pcb :=
    (sheds_tcpReceive _ seg).of_tx rfl fun h => by simp [hs, closeTarget] at h
  unfold processEstablished
  dsimp only
  split_ifs
  · exact ⟨hrec.mem, fun h => by simp [hs, closeTarget] at h⟩
  · exact hrec

/-! ### Writing -/

lemma fin_newSegments {m fuel queuelen oversize : ℕ} {seqno : Seq} {first : Bool} {data : Bytes}
    {segs : List TxSeg} {out : ℕ × ℕ}
    (h : newSegments p m fuel seqno first queuelen oversize data = some (segs, out)) :
    ∀ a ∈ segs, a.fin = false := by
  induction fuel generalizing seqno first queuelen oversize data segs out with
  | zero =>
    cases h
    exact fun a ha => absurd ha (by simp)
  | succ fuel ih =>
    unfold newSegments at h
    dsimp only at h
    split_ifs at h
    · cases h
      exact fun a ha => absurd ha (by simp)
    · split at h
      · cases h
      · next hrest =>
        cases h
        intro a ha
        rcases List.mem_cons.1 ha with rfl | ha
        · rfl
        · exact ih hrest a ha

lemma fin_growLast {data : Bytes} {cells : ℕ} :
    ∀ a ∈ growLast l data cells, a.fin = true → ∃ b ∈ l, b.fin = true := by
  intro a ha hfin
  unfold growLast at ha
  cases hlast : l.getLast? with
  | none =>
    rw [hlast] at ha
    exact ⟨a, ha, hfin⟩
  | some last =>
    rw [hlast] at ha
    rcases List.mem_append.1 ha with ha | ha
    · exact ⟨a, List.mem_of_mem_dropLast ha, hfin⟩
    · obtain rfl := List.mem_singleton.1 ha
      exact ⟨last, List.mem_of_getLast? hlast, hfin⟩

lemma finOrder_tcpWrite (h : FinOrder p) (hs : p.state ≠ .synSent) (data : Bytes) :
    FinOrder (tcpWrite p data).1 := by
  -- `tcp_write` takes nothing once the sending side is closed, and never queues a FIN
  have hsame : ∀ {q : Pcb o}, outbound q.tx = outbound p.tx → q.state = p.state → FinOrder q :=
    fun hq hst => h.shed ⟨fun _ ha => hq ▸ ha, fun hp => hst ▸ hp⟩
  unfold tcpWrite
  cases hcheck : tcpWriteChecks p data.length with
  | ok =>
    have hopen : closeTarget p.state ≠ none := by
      unfold tcpWriteChecks at hcheck
      rw [ite_eq_iff] at hcheck
      rcases hcheck with ⟨-, herr⟩ | ⟨hstate, -⟩
      · cases herr
      · revert hs hstate
        cases p.state <;> simp [closeTarget]
    have hnone : ∀ f ∈ outbound p.tx, ¬ f.fin = true := fun f hf hfin => hopen (h.past f hf hfin)
    dsimp only
    split
    · exact hsame rfl rfl
    · split
      · exact hsame rfl rfl
      · next segs _ _ hsegs =>
        have hplain : ∀ d n, ∀ f ∈ p.tx.unacked ++ (growLast p.tx.unsent d n ++ segs),
            ¬ f.fin = true := by
          intro d n f hf hfin
          rcases List.mem_append.1 hf with hf | hf
          · exact hnone f (List.mem_append_left _ hf) hfin
          rcases List.mem_append.1 hf with hf | hf
          · obtain ⟨b, hb, hbfin⟩ := fin_growLast f hf hfin
            exact hnone b (List.mem_append_right _ hb) hbfin
          · simp [fin_newSegments hsegs f hf] at hfin
        exact ⟨fun f hf hfin => absurd hfin (hplain _ _ f hf),
          fun f hf hfin => absurd hfin (hplain _ _ f hf)⟩
  | mem => exact hsame rfl rfl
  | _ => exact hsame rfl rfl

/-! ### The persist timer -/

/-- The point at which the persist timer cuts the first unsent segment, if it cuts it. -/
def cutPoint (p : Pcb o) : Option Seq :=
  match p.tx.unsent with
  | [] => none
  | useg :: _ =>
    let split := p.tx.sndWnd % 2 ^ 16
    if split = 0 ∨ useg.data.length ≤ split ∨ !p.env.mem then none
    else some (useg.seqno + BitVec.ofNat 32 split)

/-- No queued FIN segment starts ahead of the cut, least of all the one that is cut. -/
def CutFits (p : Pcb o) : Prop :=
  ∀ c ∈ cutPoint p, ∀ f ∈ outbound p.tx, f.fin = true → lt f.seqno c = false

instance (p : Pcb o) : Decidable (CutFits p) := inferInstanceAs (Decidable (∀ c ∈ _, _))

lemma lt_add_of_pos (a : Seq) {n : ℕ} (h0 : 0 < n) (hn : n < half) :
    lt a (a + BitVec.ofNat 32 n) = true := by
  have hoff : off a (a + BitVec.ofNat 32 n) = n := off_base_add (hn.trans (by decide))
  rw [lt_iff (r := a) (by rw [off_self]; decide) (by rwa [hoff]), off_self, hoff]
  exact h0

lemma finOrder_splitFirst {keep split : ℕ} {rest : List TxSeg} (h : FinOrder p)
    (hu : p.tx.unsent = seg :: rest) (h0 : 0 < split) (hsplit : split < half)
    (hcut : ∀ f ∈ outbound p.tx, f.fin = true →
      lt f.seqno (seg.seqno + BitVec.ofNat 32 split) = false) :
    FinOrder ({ p with tx := splitFirst keep split seg rest p.tx } : Pcb o) := by
  -- a segment is cut in two, and neither part starts behind a FIN
  have hseg : seg ∈ outbound p.tx := by simp [outbound, hu]
  have hplain : seg.fin = false := by
    by_contra hfin
    have hlt := hcut seg hseg (by simpa using hfin)
    rw [lt_add_of_pos seg.seqno h0 hsplit] at hlt
    cases hlt
  -- a FIN that is queued now was queued before
  have hold : ∀ f ∈ outbound (splitFirst keep split seg rest p.tx), f.fin = true →
      f ∈ outbound p.tx := by
    intro f hf hfin
    simp only [outbound, splitFirst, List.mem_append, List.mem_cons] at hf
    simp only [outbound, List.mem_append, hu, List.mem_cons]
    rcases hf with hf | rfl | rfl | hf
    · exact .inl hf
    · simp [splitHead, hplain] at hfin
    · simp [splitTail, hplain] at hfin
    · exact .inr (.inr hf)
  refine ⟨fun f hf hfin => h.past f (hold f hf hfin) hfin, fun f hf hfin a ha => ?_⟩
  have hf' := hold f hf hfin
  simp only [outbound, splitFirst, List.mem_append, List.mem_cons] at ha
  rcases ha with ha | rfl | rfl | ha
  · exact h.trails f hf' hfin a (List.mem_append_left _ ha)
  · exact h.trails f hf' hfin seg hseg
  · exact hcut f hf' hfin
  · exact h.trails f hf' hfin a (by simp [outbound, hu, ha])

lemma sheds_tcpZeroWindowProbe (p : Pcb o) : Sheds p (tcpZeroWindowProbe p).1 := by
  obtain ⟨edge, nxt, heq⟩ := tcpZeroWindowProbe_eq p
  rw [heq]
  exact ⟨fun _ ha => ha, id⟩

lemma finOrder_persistFire (keep : ℕ) (h : FinOrder p) (hcut : CutFits p) :
    FinOrder (persistFire keep p) := by
  unfold persistFire
  split_ifs with h0
  · exact h.shed (sheds_tcpZeroWindowProbe p)
  · have hsplit : FinOrder (tcpSplitUnsentSeg keep (p.tx.sndWnd % 2 ^ 16) p).1 := by
      rcases tcpSplitUnsentSeg_cases keep (p.tx.sndWnd % 2 ^ 16) p with
        heq | ⟨useg, rest, hu, hpos, hlen, hmem, heq⟩
      · rw [heq]
        exact h
      · have hpoint : cutPoint p = some (useg.seqno + BitVec.ofNat 32 (p.tx.sndWnd % 2 ^ 16)) := by
          unfold cutPoint
          rw [hu]
          dsimp only
          rw [if_neg]
          rintro (hcut | hcut | hcut)
          · omega
          · omega
          · simp [hmem] at hcut
        rw [heq]
        refine finOrder_splitFirst h hu hpos ?_ (hcut _ hpoint)
        exact (Nat.mod_lt _ (by decide)).trans (by decide)
    generalize tcpSplitUnsentSeg keep (p.tx.sndWnd % 2 ^ 16) p = res at hsplit
    obtain ⟨q, err⟩ := res
    cases err with
    | ok => exact hsplit.shed (sheds_tcpOutput q)
    | _ => exact hsplit

/-! ### The FIN -/

/-- The sequence number of the segment that `tcp_send_fin` makes a FIN of. -/
def finSeqno (tx : Tx) : Seq :=
  match tx.unsent.getLast? with
  | some last => if !last.syn && !last.fin then last.seqno else tx.sndLbb
  | none => tx.sndLbb

/-- No queued segment starts behind the one that is to carry the FIN. -/
def Tailed (tx : Tx) : Prop := ∀ seg ∈ outbound tx, lt (finSeqno tx) seg.seqno = false

instance (tx : Tx) : Decidable (Tailed tx) := inferInstanceAs (Decidable (∀ seg ∈ _, _))

/-- A FIN, if closing queues one now, goes behind all there is. -/
def FinFits (p : Pcb o) : Prop := closeTarget p.state ≠ none → Tailed p.tx

instance (p : Pcb o) : Decidable (FinFits p) := inferInstanceAs (Decidable (_ → _))

/-- `f` is the last segment in the queue and in sequence. -/
structure Ending (f : TxSeg) (tx : Tx) : Prop where
  last : (outbound tx).getLast? = some f
  order : ∀ a ∈ outbound tx, lt f.seqno a.seqno = false

lemma getLast?_outbound (h : tx.unsent ≠ []) : (outbound tx).getLast? = tx.unsent.getLast? := by
  unfold outbound
  rw [List.getLast?_append_of_ne_nil _ h]

lemma ending_noteSent {rest : List TxSeg} (h : Ending f tx) (hf : f.tcplen ≠ 0)
    (hu : tx.unsent = seg :: rest) :
    Ending f (noteSent tx seg rest) := by
  have hne : tx.unsent ≠ [] := by simp [hu]
  have hlast := h.last
  rw [getLast?_outbound hne, hu] at hlast
  refine ⟨?_, fun a ha => h.order a (outbound_noteSent hu a ha)⟩
  cases rest with
  | cons d ds =>
    have hrest : (noteSent tx seg (d :: ds)).unsent = d :: ds := rfl
    rw [getLast?_outbound (by simp [hrest]), hrest]
    simpa using hlast
  | nil =>
    obtain rfl : seg = f := by simpa using hlast
    -- the last segment goes behind all that is unacknowledged
    have hnil : outbound (noteSent tx seg []) = (noteSent tx seg []).unacked := List.append_nil _
    rw [hnil]
    unfold noteSent
    dsimp only
    rw [if_neg hf]
    cases hun : tx.unacked.getLast? with
    | none => rfl
    | some last =>
      have hmem : last ∈ outbound tx := List.mem_append_left _ (List.mem_of_getLast? hun)
      dsimp only
      rw [h.order last hmem, if_neg (by simp), List.getLast?_concat]

lemma stillQueued_noteSent {rest : List TxSeg} (hu : tx.unsent = seg :: rest) :
    StillQueued tx (noteSent tx seg rest) := by
  refine .of_mem fun a ha hd => ?_
  have hunsent : (noteSent tx seg rest).unsent = rest := rfl
  rw [outbound, List.mem_append, hu, List.mem_cons] at ha
  rw [outbound, List.mem_append, mem_noteSent, hunsent]
  rcases ha with ha | rfl | ha
  · exact .inl (.inr ha)
  · refine .inl (.inl ⟨rfl, ?_⟩)
    have hlen : 0 < a.data.length := List.length_pos_of_ne_nil hd
    unfold TxSeg.tcplen
    omega
  · exact .inr ha

lemma sendSegments_spec (n : ℕ) (hf : f.tcplen ≠ 0) (h : Ending f tx) :
    Ending f (sendSegments n tx) ∧ StillQueued tx (sendSegments n tx) := by
  induction n generalizing tx with
  | zero => exact ⟨h, .refl tx⟩
  | succ n ih =>
    unfold sendSegments
    cases hu : tx.unsent with
    | nil => exact ⟨h, .refl tx⟩
    | cons d ds =>
      obtain ⟨h1, h2⟩ := ih (ending_noteSent h hf hu)
      exact ⟨h1, (stillQueued_noteSent hu).trans h2⟩

lemma tcpOutput_queue (hf : f.tcplen ≠ 0) (h : Ending f p.tx) :
    Ending f (tcpOutput p).tx ∧ StillQueued p.tx (tcpOutput p).tx := by
  have hsame : ∀ {q : Pcb o}, outbound q.tx = outbound p.tx → Ending f q.tx ∧
      StillQueued p.tx q.tx :=
    fun hq => ⟨⟨hq ▸ h.last, hq ▸ h.order⟩, .of_mem fun a ha _ => hq ▸ ha⟩
  unfold tcpOutput outputNow
  split_ifs
  · exact hsame rfl
  · exact hsame rfl
  · exact hsame (by rw [tx_tcpSendEmptyAck])
  · exact hsame rfl
  · exact hsame rfl
  · obtain ⟨h1, h2⟩ := sendSegments_spec p.env.quota hf h
    exact ⟨⟨h1.last, h1.order⟩, h2⟩

lemma lt_self (a : Seq) : lt a a = false := by simp [lt, half]

lemma ending_concat (hun : tx'.unacked = tx.unacked) (hus : tx'.unsent = l ++ [f])
    (horder : ∀ a ∈ tx.unacked ++ l, lt f.seqno a.seqno = false) : Ending f tx' := by
  refine ⟨?_, fun a ha => ?_⟩
  · rw [getLast?_outbound (by simp [hus]), hus, List.getLast?_concat]
  · rw [outbound, hun, hus, ← List.append_assoc, List.mem_append, List.mem_singleton] at ha
    rcases ha with ha | rfl
    · exact horder a ha
    · exact lt_self _

structure FinBehind (f : TxSeg) (tx tx' : Tx) : Prop where
  fin : f.fin = true
  ending : Ending f tx'
  still : StillQueued tx tx'
  only : ∀ a ∈ outbound tx', a.fin = true → a = f ∨ a ∈ outbound tx

/-- What `tcp_send_fin` comes to: the FIN is queued behind all there is, or it is not queued at
all. -/
def FinSent (p : Pcb o) (r : Pcb o × Err) : Prop :=
  r.1.state = p.state ∧ ((r.2 = .ok ∧ ∃ f, FinBehind f p.tx r.1.tx) ∨
    (r.2 ≠ .ok ∧ outbound r.1.tx = outbound p.tx))

lemma finSent_enqueue (ht : Tailed p.tx) (hfin : finSeqno p.tx = p.tx.sndLbb) :
    FinSent p (tcpEnqueueFlags p false true) := by
  unfold Tailed at ht
  rw [hfin] at ht
  cases hm : p.env.mem with
  | false =>
    simp only [tcpEnqueueFlags, hm, Bool.false_eq_true, if_false]
    exact ⟨rfl, .inr ⟨by simp, rfl⟩⟩
  | true =>
    simp only [tcpEnqueueFlags, hm, if_true]
    refine ⟨rfl, .inl ⟨rfl, _, ?_, ending_concat rfl rfl ht, .of_mem fun a ha _ => ?_,
      fun a ha _ => ?_⟩⟩
    · rfl
    · rw [outbound, List.mem_append] at ha ⊢
      exact ha.imp_right fun h => List.mem_append_left _ h
    · rw [outbound, ← List.append_assoc, List.mem_append, List.mem_singleton] at ha
      exact ha.symm

lemma finSent_tcpSendFin (ht : Tailed p.tx) : FinSent p (tcpSendFin p) := by
  unfold tcpSendFin
  cases hlast : p.tx.unsent.getLast? with
  | none => exact finSent_enqueue ht (by simp [finSeqno, hlast])
  | some last =>
    dsimp only
    split_ifs with hplain
    · have hsplit : p.tx.unsent = p.tx.unsent.dropLast ++ [last] :=
        (List.dropLast_append_getLast? last hlast).symm
      have hmem : ∀ a, a ∈ outbound p.tx ↔ a ∈ p.tx.unacked ++ p.tx.unsent.dropLast ∨ a = last := by
        intro a
        rw [outbound, hsplit, List.dropLast_concat, ← List.append_assoc, List.mem_append,
          List.mem_singleton]
      have hmem' : ∀ a, a ∈ p.tx.unacked ++ (p.tx.unsent.dropLast ++ [{ last with fin := true }]) ↔
          a ∈ p.tx.unacked ++ p.tx.unsent.dropLast ∨ a = { last with fin := true } := by
        intro a
        rw [← List.append_assoc, List.mem_append, List.mem_singleton]
      have hfin : finSeqno p.tx = last.seqno := by simp only [finSeqno, hlast, hplain, if_true]
      unfold Tailed at ht
      rw [hfin] at ht
      refine ⟨rfl, .inl ⟨rfl, { last with fin := true }, rfl,
        ending_concat rfl rfl fun a ha => ht a ?_, fun a ha _ => ?_, fun a ha _ => ?_⟩⟩
      · exact (hmem a).2 (.inl ha)
      · rcases (hmem a).1 ha with ha | rfl
        · exact ⟨a, (hmem' a).2 (.inl ha), rfl, rfl⟩
        · exact ⟨{ a with fin := true }, (hmem' _).2 (.inr rfl), rfl, rfl⟩
      · rcases (hmem' a).1 ha with ha | ha
        · exact .inr ((hmem a).2 (.inl ha))
        · exact .inl ha
    · exact finSent_enqueue ht (by simp only [finSeqno, hlast, hplain]; rfl)

lemma tcpCloseShutdownFin_spec (h : FinOrder p) (ht : FinFits p) :
    StillQueued p.tx (tcpCloseShutdownFin p).tx ∧ FinOrder (tcpCloseShutdownFin p) ∧
      (closeTarget p.state ≠ none → (tcpCloseShutdownFin p).closePend = true ∨
        FinLast (tcpCloseShutdownFin p).tx) := by
  -- closing the sending side leaves every byte queued, ahead of the FIN if there is one now
  unfold tcpCloseShutdownFin
  cases hc : closeTarget p.state with
  | none => exact ⟨.refl p.tx, h, fun hne => absurd rfl hne⟩
  | some next =>
    have hopen : closeTarget p.state ≠ none := by simp [hc]
    have hsent := finSent_tcpSendFin (ht hopen)
    generalize tcpSendFin p = res at hsent
    obtain ⟨q, err⟩ := res
    obtain ⟨hstate, ⟨herr, f, hfin⟩ | ⟨herr, hsame⟩⟩ := hsent
    · have hok : err = .ok := herr
      subst hok
      dsimp only at hstate hfin ⊢
      generalize hu : ({ (if p.state = .synRcvd then tcpBacklogAccepted q else q) with
        state := next } : Pcb o) = u
      have htx : u.tx = q.tx := by
        rw [← hu]
        dsimp only
        split_ifs <;> rfl
      have hnext : closeTarget u.state = none := by
        rw [← hu]
        revert hc
        cases p.state <;> simp [closeTarget] <;> rintro rfl <;> rfl
      have hlen : f.tcplen ≠ 0 := by simp [TxSeg.tcplen, hfin.fin]
      obtain ⟨h1, h2⟩ := tcpOutput_queue (p := u) hlen (htx ▸ hfin.ending)
      rw [htx] at h2
      have horder : FinOrder u := by
        refine ⟨fun _ _ _ => hnext, fun g hg hgfin => ?_⟩
        rw [htx] at hg ⊢
        -- nothing was a FIN before
        rcases hfin.only g hg hgfin with rfl | hold
        · exact hfin.ending.order
        · exact absurd (h.past g hold hgfin) hopen
      exact ⟨hfin.still.trans h2, horder.shed (sheds_tcpOutput u),
        fun _ => .inr ⟨f, h1.last, hfin.fin⟩⟩
    · have hkept : FinOrder ({ q with closePend := true } : Pcb o) :=
        h.shed ⟨fun _ ha => hsame ▸ ha, fun hp => hstate ▸ hp⟩
      cases err with
      | ok => exact absurd rfl herr
      | _ => exact ⟨.of_mem fun a ha _ => hsame ▸ ha, hkept, fun _ => .inl rfl⟩

end TunForge.SendQueue
