import TunForge.InflowSteps
import TunForge.OrderlyClose

/-! Zero-copy delivery and copying delivery of one chain: the same bytes, and the same credit
once the slices have been acknowledged. -/
namespace TunForge.DeliveryPaths
open SerialNumber PbufChain LwipTypes TcpOut TcpIn Tcp Connection Callbacks Stack
open PcbFrames Inflow InflowSteps StackRuns OrderlyClose

/-! ### Chains with their `tot_len` fields -/

/-- A cell of a chain, with the `tot_len` it carries. -/
structure Link where
  cell : Cell
  totLen : ℕ
  deriving DecidableEq, Repr

/-- Each `tot_len` is the cell's own `len` plus the `tot_len` of the next cell. -/
def Linked : List Link → Prop
  | [] => True
  | l :: ls => l.totLen = l.cell.payload.length + (ls.head?.map Link.totLen).getD 0 ∧ Linked ls

instance decidableLinked : (ls : List Link) → Decidable (Linked ls)
  | [] => inferInstanceAs (Decidable True)
  | l :: ls =>
    have := decidableLinked ls
    inferInstanceAs (Decidable
      (l.totLen = l.cell.payload.length + (ls.head?.map Link.totLen).getD 0 ∧ Linked ls))

/-- A well-formed chain; an empty cell is one too. -/
structure Chain where
  head : Link
  next : List Link
  linked : Linked (head :: next)
  fits : head.totLen ≤ 0xFFFF

def Chain.pbuf (c : Chain) : Pbuf := ⟨(c.head :: c.next).map Link.cell⟩

lemma size_linked (ls : List Link) (h : Linked ls) :
    Pbuf.size ⟨ls.map Link.cell⟩ = (ls.head?.map Link.totLen).getD 0 := by
  induction ls with
  | nil => rfl
  | cons l ls ih =>
    obtain ⟨hl, hls⟩ := h
    have hrest := ih hls
    simp only [Pbuf.size, Pbuf.payloads, List.map_cons, List.sum_cons] at hrest ⊢
    rw [hrest]
    exact hl.symm

lemma Chain.size_pbuf (c : Chain) : c.pbuf.size = c.head.totLen :=
  size_linked (c.head :: c.next) c.linked

lemma Chain.totLen_pbuf (c : Chain) : c.pbuf.totLen = c.head.totLen := by
  have hfits := c.fits
  rw [Pbuf.totLen_eq (by rw [c.size_pbuf]; omega), c.size_pbuf]

/-! ### What an acknowledgement reads -/

variable {o : Platform} {s t u : State o}

/-- The receive window of the pcb. -/
def window (s : State o) : Option ℕ := s.pcb.map (·.rx.rcvWnd)

/-- The two states agree on all that decides what `acknowledgeDeliveredBytes:` does to the
counter and to the window. -/
structure Alike (s t : State o) : Prop where
  window : window t = window s
  alive : t.conn.alive = s.conn.alive
  attached : t.conn.pcb = s.conn.pcb
  state : t.conn.state = s.conn.state
  count : t.conn.inflightAckBytes = s.conn.inflightAckBytes

lemma Alike.refl (s : State o) : Alike s s := ⟨rfl, rfl, rfl, rfl, rfl⟩

lemma Alike.trans (h : Alike s t) (h' : Alike t u) : Alike s u :=
  ⟨h'.window.trans h.window, h'.alive.trans h.alive, h'.attached.trans h.attached,
    h'.state.trans h.state, h'.count.trans h.count⟩

lemma alike_runConnectionsBlock (s : State o) : Alike s (runConnectionsBlock s) := by
  unfold runConnectionsBlock afterBlock
  cases s.connectionsQueue with
  | nil => exact .refl s
  | cons b rest =>
    cases b
    case readableBytes =>
      dsimp only
      split_ifs <;> exact ⟨rfl, rfl, rfl, rfl, rfl⟩
    all_goals exact ⟨rfl, rfl, rfl, rfl, rfl⟩

lemma alike_runBlocks (k : ℕ) (s : State o) : Alike s (runConnectionsBlock^[k] s) := by
  induction k generalizing s with
  | zero => exact .refl s
  | succ k ih => exact (alike_runConnectionsBlock s).trans (ih (runConnectionsBlock s))

lemma alike_modPcb {f : Pcb o → Pcb o} (hf : ∀ p, (f p).rx.rcvWnd = p.rx.rcvWnd) (s : State o) :
    Alike s (modPcb f s) := by
  refine ⟨?_, rfl, rfl, rfl, rfl⟩
  simp [window, modPcb, Function.comp_def, hf]

lemma window_recved (n : ℕ) (c : LwipCall) (s : State o) :
    window (s.callLwip c (RawApi.recved · n)) =
      (window s).map fun w =>
        if o.tcpWnd < (w + n) % o.wndMod ∨ (w + n) % o.wndMod < w then o.tcpWnd
        else (w + n) % o.wndMod := by
  unfold window
  cases hp : s.pcb with
  | none => simp [Sys.callLwip, hp]
  | some p =>
    have hwnd : (tcpRecved p n).rx.rcvWnd = creditedWnd p n :=
      congrArg Inbox.rcvWnd (tcpRecved_frame p n).2
    simp only [Sys.callLwip, hp, Option.map_some]
    refine congrArg some (hwnd.trans ?_)
    simp only [creditedWnd, Pcb.wndMax_eq]

lemma alike_recvedLoop (h : Alike s t) (fuel n : ℕ) :
    Alike (recvedLoop fuel n s) (recvedLoop fuel n t) := by
  induction fuel generalizing s t n with
  | zero => exact h
  | succ fuel ih =>
    unfold recvedLoop
    split_ifs
    · exact h
    · apply ih
      refine ⟨?_, h.alive, h.attached, h.state, h.count⟩
      rw [window_recved, window_recved, h.window]

lemma alike_acknowledge (h : Alike s t) (n : ℕ) :
    Alike (acknowledgeDeliveredBytes n s) (acknowledgeDeliveredBytes n t) := by
  unfold acknowledgeDeliveredBytes
  rw [h.alive, h.attached, h.state, h.count]
  split_ifs
  · exact h
  · exact h
  · exact h
  · have hloop := alike_recvedLoop h (min n s.conn.inflightAckBytes) (min n s.conn.inflightAckBytes)
    refine ⟨hloop.window, hloop.alive, hloop.attached, hloop.state, ?_⟩
    simp only [updateInflightAckBytes]
    rw [hloop.count]

/-! ### The two paths -/

def withHandlers (h : Handlers) (s : State o) : State o :=
  { s with conn := { s.conn with handlers := h } }

/-- A payload that arrives now is taken. -/
structure Receptive (s : State o) : Prop where
  object : tfConnFromArg s.hooks.arg s = true
  alive : s.conn.alive = true
  attached : s.conn.pcb = true
  gate : shouldAllowRecv s = true
  memory : s.env.malloc = true

lemma tfTcpRecv_receptive {p : Pbuf} (h : Receptive s) (hp : p.totLen ≠ 0) (g : Handlers) :
    tfTcpRecv s.hooks.arg (some p) .ok (withHandlers g s) =
      (deliver p (withHandlers g s), .ok) := by
  have hobj : tfConnFromArg s.hooks.arg (withHandlers g s) = true := h.object
  have halive : (withHandlers g s).conn.alive = true := h.alive
  have hattached : (withHandlers g s).conn.pcb = true := h.attached
  have hgate : shouldAllowRecv (withHandlers g s) = true := h.gate
  simp [tfTcpRecv, hobj, halive, hattached, hgate, hp]

lemma queue_acknowledge (h : s.pcb.isSome) (n : ℕ) :
    (acknowledgeDeliveredBytes n s).connectionsQueue = s.connectionsQueue := by
  obtain ⟨p, hp⟩ := Option.isSome_iff_exists.mp h
  rcases acknowledge_cases n hp with ⟨hsame, -⟩ | ⟨-, q, -, hv⟩
  · rw [hsame]
  · exact congrArg View.queue hv

lemma Receptive.pcb (h : Receptive s) : s.pcb.isSome := by
  have hgate := h.gate
  unfold shouldAllowRecv tfTcpReadReady at hgate
  cases hp : s.pcb with
  | none => simp [hp] at hgate
  | some p => rfl

/-- The state in which the chain has been counted, the last that both paths go through. -/
def counting (c : Chain) (g : Handlers) (s : State o) : State o :=
  updateInflightAckBytes c.head.totLen (withHandlers g s)

lemma queue_copied (c : Chain) (g : Handlers) (h : Receptive s) :
    (acknowledgeDeliveredBytes c.head.totLen
      ((counting c g s).free (.pbuf c.pbuf))).connectionsQueue =
      s.connectionsQueue := queue_acknowledge (s := (counting c g s).free (.pbuf c.pbuf)) h.pcb _

lemma deliver_slices (c : Chain) {g : Handlers} (hg : g.onReadableBytes = true) (h : Receptive s) :
    deliver c.pbuf (withHandlers g s) =
      handOver (.readableBytes c.pbuf c.pbuf.payloads c.head.totLen) c.head.totLen
        (counting c g s) := by
  have hmem : (withHandlers g s).env.malloc = true := h.memory
  have hset : (withHandlers g s).conn.handlers.onReadableBytes = true := hg
  unfold deliver
  rw [c.totLen_pbuf]
  simp only [updateInflightAckBytes, counting, hmem, hset, if_true]

lemma deliver_copy (c : Chain) {g : Handlers} (hg : g.onReadableBytes = false)
    (hg' : g.onReadable = true) (h : Receptive s) :
    deliver c.pbuf (withHandlers g s) =
      handOver (.readable (c.pbuf.copyPartial c.head.totLen 0)) c.head.totLen
        (acknowledgeDeliveredBytes c.head.totLen ((counting c g s).free (.pbuf c.pbuf))) := by
  have hmem : (withHandlers g s).env.malloc = true := h.memory
  have hset : (withHandlers g s).conn.handlers.onReadableBytes = false := hg
  have hset' : (withHandlers g s).conn.handlers.onReadable = true := hg'
  unfold deliver
  rw [c.totLen_pbuf]
  simp [updateInflightAckBytes, counting, hmem, hset, hset']

lemma Chain.flatten_payloads (c : Chain) :
    c.pbuf.payloads.flatten = c.pbuf.copyPartial c.head.totLen 0 := by
  rw [Pbuf.copyPartial_eq, List.drop_zero, List.take_of_length_le]
  · rfl
  · rw [Pbuf.length_bytes, c.size_pbuf]

/-- A chain read through its slices and through the copy: the same bytes. Once the slices are
acknowledged, however many blocks have run and whatever lwIP has done to the pcb apart from its
window, the counter and the window are as the copying path leaves them. -/
theorem delivery_paths_agree (c : Chain) (hpos : 1 ≤ c.head.totLen) (h : Receptive s)
    (g : Handlers) :
    let z := tfTcpRecv s.hooks.arg (some c.pbuf) .ok
      (withHandlers { g with onReadableBytes := true } s)
    let y := tfTcpRecv s.hooks.arg (some c.pbuf) .ok
      (withHandlers { g with onReadableBytes := false, onReadable := true } s)
    z.2 = .ok ∧ y.2 = .ok ∧
    ∃ (slices : List Bytes) (data : Bytes),
      z.1.connectionsQueue = s.connectionsQueue ++ [.readableBytes c.pbuf slices c.head.totLen] ∧
      y.1.connectionsQueue = s.connectionsQueue ++ [.readable data] ∧
      slices.flatten = data ∧ slices.length = (c.head :: c.next).length ∧
      (slices.map List.length).sum = c.head.totLen ∧
      ∀ (f : Pcb o → Pcb o) (k : ℕ), (∀ p, (f p).rx.rcvWnd = p.rx.rcvWnd) →
        let w := acknowledgeDeliveredBytes c.head.totLen (runConnectionsBlock^[k] (modPcb f z.1))
        w.conn.inflightAckBytes = y.1.conn.inflightAckBytes ∧ window w = window y.1 := by
  have hne : c.pbuf.totLen ≠ 0 := by
    rw [c.totLen_pbuf]
    omega
  dsimp only
  rw [tfTcpRecv_receptive h hne, tfTcpRecv_receptive h hne, deliver_slices c rfl h,
    deliver_copy c rfl rfl h]
  refine ⟨rfl, rfl, c.pbuf.payloads, _, rfl, ?_, c.flatten_payloads, ?_, c.size_pbuf,
    fun f k hf => ?_⟩
  · exact congrArg (· ++ _) (queue_copied c _ h)
  · simp [Pbuf.payloads, Chain.pbuf]
  · -- the zero-copy path acknowledges after the block has been posted, the copying path before
    let z := handOver (.readableBytes c.pbuf c.pbuf.payloads c.head.totLen) c.head.totLen
      (counting c { g with onReadableBytes := true } s)
    have hstart : Alike ((counting c { g with onReadableBytes := false, onReadable := true } s).free
      (.pbuf c.pbuf)) z :=
      ⟨rfl, rfl, rfl, rfl, rfl⟩
    have hlater := (hstart.trans (alike_modPcb hf z)).trans (alike_runBlocks k (modPcb f z))
    have hack := alike_acknowledge hlater c.head.totLen
    exact ⟨hack.count, hack.window⟩

/-- Three bytes in three cells, the second of them empty. -/
def threeCells : Chain where
  head := ⟨⟨1, [7, 8]⟩, 3⟩
  next := [⟨⟨2, []⟩, 1⟩, ⟨⟨3, [9]⟩, 1⟩]
  linked := by decide
  fits := by decide

theorem delivery_paths_agree_threeCells :
    ∃ (slices : List Bytes) (data : Bytes), slices.flatten = data ∧ slices.length = 3 ∧
      (tfTcpRecv .conn (some threeCells.pbuf) .ok
        (withHandlers { readers with onReadableBytes := true }
          (Runs.run step (listening .ios) opening))).1.connectionsQueue =
          [.readableBytes threeCells.pbuf slices 3] := by
  have h : Receptive (Runs.run step (listening .ios) opening) := by
    constructor <;> decide
  obtain ⟨-, -, slices, data, hz, -, hflat, hlen, -⟩ :=
    delivery_paths_agree threeCells (by decide) h readers
  exact ⟨slices, data, hflat, hlen, hz⟩

end TunForge.DeliveryPaths
