import TunForge.WindowLedger
import TunForge.SendOrder

/-! A graceful close: with nothing unread the connection ends by a FIN behind all queued bytes,
unless a retransmission has left the send queue out of order or the persist timer has split a
segment with a FIN. -/
namespace TunForge.GracefulClose
open SerialNumber PbufChain LwipTypes TcpOut TcpIn Tcp Connection Callbacks Stack StackRuns
open Boundary Termination BoundaryRule PcbFrames InputCases WellFormed
open Inflow InflowEvents InboundRule ReceiveBuffer WindowLedger OrderlyClose SendQueue SendOrder

variable {o : Platform} {s s₀ : State o} {e : Event} {p : Pcb o}

/-- The peer keeps to its window, the counter stays within its range, a FIN that is queued goes
behind all there is, and the persist timer cuts nothing off behind a FIN. -/
def Gentle (s : State o) (e : Event) : Prop := KeepsOrder s e ∧ NoWrap s ∧ Timely s e ∧ Unsplit s e

instance (s : State o) (e : Event) : Decidable (Gentle s e) := inferInstanceAs (Decidable (_ ∧ _))

structure Closable (s : State o) : Prop where
  sound : Sound s
  stored : ∀ p, s.pcb = some p → Stored .rest p
  ledger : ∃ t, Ledger False t .rest (view s)
  ordered : Ordered s

lemma closable_step (h : Closable s) (hok : Gentle s e) : Closable (step s e) := by
  obtain ⟨ho, hwrap, ht, hu⟩ := hok
  obtain ⟨t, hled⟩ := h.ledger
  exact ⟨sound_step h.sound e, stored_step h.sound ho h.stored,
    ⟨s, ledger_step h.sound ho hwrap (fun hf => hf.elim) h.stored hled⟩,
    ordered_step h.sound h.ordered ht hu⟩

lemma closable_initial (h : Initial s) : Closable s :=
  ⟨sound_initial h, stored_initial h, ⟨s, ledger_initial h⟩, ordered_initial h⟩

lemma Closable.unread (h : Closable s) (hl : living s = true) (hp : s.pcb = some p)
    (hzero : s.conn.inflightAckBytes = 0) (hr : p.rx.refusedData = none) :
    unreadData p = false := by
  obtain ⟨t, hled⟩ := h.ledger
  have hmax : p.rx.rcvWnd ≤ o.tcpWnd := (h.stored p hp).boxed.wnd
  have hlower := (hled.account hl p hp).lower
  have hheld := heldBack_of_none hr
  simp only [view, load, hzero, hheld] at hlower
  unfold unreadData
  rw [hr, Pcb.wndMax_eq]
  rcases (h.sound.wf.pcb p hp).listed with ⟨hact, -⟩ | ⟨-, hs⟩
  · have hfull : p.rx.rcvWnd = o.tcpWnd := by
      have := hlower (.inr (.inl hact))
      omega
    simp [hfull]
  · simp [hs]

/-- In every run in which the peer keeps to its window, the counter stays within its range and
each FIN finds the send queue in order, closing a connection with nothing in flight and nothing
refused resets nobody and drops nothing: every queued byte stays queued, nothing is queued
behind a FIN, and the FIN is queued last or left pending. -/
theorem graceful_close_keeps_bytes (h₀ : Initial s₀) {es : List Event}
    (hes : Runs.Along step Gentle s₀ es) (hl : living (Runs.run step s₀ es) = true)
    (hp : (Runs.run step s₀ es).pcb = some p)
    (hzero : (Runs.run step s₀ es).conn.inflightAckBytes = 0) (hr : p.rx.refusedData = none)
    (hfit : FinFits p) :
    let s := Runs.run step s₀ es
    let t := gracefulClose s
    t.conn.terminationReason = .close ∧ t.log.lwip = s.log.lwip ++ [.close] ∧
      ∃ q, t.pcb = some q ∧ StillQueued p.tx q.tx ∧ FinTrails q.tx ∧
        (closeTarget p.state ≠ none → q.closePend = true ∨ FinLast q.tx) := by
  intro s
  have hrun : Closable s := Runs.invariant step Closable (fun s e h he => closable_step h he)
    (closable_initial h₀) hes
  have hun := hrun.unread hl hp hzero hr
  have hw := hrun.sound.wf
  simp only [living, Bool.and_eq_true] at hl
  have ha := hw.coherent.toAttached hl.1 hl.2
  have heq : gracefulClose s = tryGracefulCloseLocked s := by
    unfold gracefulClose
    rw [if_neg (by simp [ha.alive]), if_neg (by simp [ha.pcb])]
  rcases tryGracefulCloseLocked_stack hw ha with ⟨p', hp', hu, -⟩ | ⟨p', hp', -, -, hclose⟩
  · cases hp.symm.trans hp'
    simp [hun] at hu
  · cases hp.symm.trans hp'
    have hord := hrun.ordered p hp
    obtain ⟨hstill, hfin, hlast⟩ :=
      tcpCloseShutdownFin_spec (p := { p with rxClosed := true }) ⟨hord.past, hord.trails⟩ hfit
    dsimp only
    rw [heq, hclose]
    exact ⟨rfl, rfl, _, rfl, hstill, hfin.trails, hlast⟩

/-- Three bytes have been written and not been acknowledged when the connection is closed. -/
theorem graceful_close_keeps_bytes_unacked :
    let s := Runs.run step (listening .ios) (opening ++ [.app (.api (.writeData [1, 2, 3]))])
    let t := gracefulClose s
    t.conn.terminationReason = .close ∧ t.log.lwip = s.log.lwip ++ [.close] ∧
      ∃ p q, s.pcb = some p ∧ (outbound p.tx).map TxSeg.data = [[1, 2, 3]] ∧ t.pcb = some q ∧
        StillQueued p.tx q.tx ∧
        FinTrails q.tx ∧ (closeTarget p.state ≠ none → q.closePend = true ∨ FinLast q.tx) := by
  have hes : Runs.Along step Gentle (listening .ios)
      (opening ++ [.app (.api (.writeData [1, 2, 3]))]) := by decide
  have hp : (Runs.run step (listening .ios) (opening ++ [.app (.api (.writeData [1, 2, 3]))])).pcb =
      some ((Runs.run step (listening .ios)
        (opening ++ [.app (.api (.writeData [1, 2, 3]))])).pcb.get (by decide)) := by simp
  obtain ⟨h1, h2, q, h3⟩ := graceful_close_keeps_bytes (listening_initial .ios) hes (by decide) hp
    (by decide) (by decide)
    (by decide)
  exact ⟨h1, h2, _, q, hp, by decide, h3⟩

/-- The peer acknowledges the first of three segments and closes its window. -/
def windowShut : Segment := { ackSegment 101 7971 with wnd := 0 }

/-- Three segments are sent. The acknowledgement of the first shuts the peer's window, and three
duplicates of it move the second back to the unsent queue, which it cannot leave. -/
def overtaken : List Event :=
  [.segment { ackSegment 101 6511 with wnd := 8760 }, .app .runConnectionsBlock,
    .app (.setHandlers readers), .app (.api .markActive),
    .app (.api (.writeData (List.replicate 4380 1))), .env { calmEnv with headFits := false },
    .segment windowShut, .segment windowShut, .segment windowShut,
    .env { calmEnv with headFits := false, fastRexmit := true }, .segment windowShut]

/-- A segment with a FIN does not fit the peer's window of 200 bytes, and the persist timer splits
it. -/
def cutInTwo : List Event :=
  [.segment { ackSegment 101 6511 with wnd := 200 }, .app .runConnectionsBlock,
    .app (.setHandlers readers), .app (.api .markActive), .env { calmEnv with headFits := false },
    .app (.api (.writeData (List.replicate 500 1))), .app (.api .shutdownWrite),
    .env { calmEnv with quota := 1 }, .persist 1]

/-- Each queued segment: where it starts, its length and whether it is a FIN. -/
def queue (s : State o) : Option (List (Seq × ℕ × Bool)) :=
  s.pcb.map fun p => (outbound p.tx).map fun seg => (seg.seqno, seg.data.length, seg.fin)

/-- The run keeps to the receive window, and leaves an open connection with nothing unread. -/
def Quiescent (es : List Event) : Prop :=
  let s := Runs.run step (listening .ios) es
  Runs.Along step KeepsOrder (listening .ios) es ∧ living s = true ∧ s.conn.inflightAckBytes = 0 ∧
    ∀ p ∈ s.pcb, p.rx.refusedData = none

instance (es : List Event) : Decidable (Quiescent es) := inferInstanceAs (Decidable (_ ∧ _))

/-- In one run the close puts the FIN on the second segment, ahead of the bytes of the third. In
another the segment it finds split has left a FIN in front of 300 bytes. -/
theorem graceful_close_cuts_stream :
    let s := Runs.run step (listening .ios) overtaken
    let s' := Runs.run step (listening .ios) cutInTwo
    Initial (listening .ios) ∧
      (Quiescent overtaken ∧ Runs.Along step Gentle (listening .ios) overtaken ∧
        queue s = some [(9431, 1460, false), (7971, 1460, false)] ∧
        (gracefulClose s).conn.terminationReason = .close ∧
        queue (gracefulClose s) = some [(9431, 1460, false), (7971, 1460, true)]) ∧
      (Quiescent cutInTwo ∧ (gracefulClose s').conn.terminationReason = .close ∧
        queue (gracefulClose s') = some [(6511, 200, true), (6711, 300, true)]) :=
  ⟨listening_initial .ios, by decide +kernel⟩

end TunForge.GracefulClose
