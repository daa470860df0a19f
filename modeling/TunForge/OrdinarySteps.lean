import TunForge.Callbacks

/-! The steps of TunForge that leave the life cycle of a connection alone, as one
frame relation. -/
namespace TunForge.OrdinarySteps
open PbufChain LwipTypes Tcp Connection Callbacks

variable {P : Type} {s : Sys P}

/-- Delivery blocks: they carry received bytes. -/
def isReadable : CBlock → Bool
  | .readableBytes _ _ _ | .readable _ => true
  | _ => false

/-- Blocks that only tell how the sending side is doing. -/
def isHint : CBlock → Bool
  | .writableChanged _ | .sentBytes _ => true
  | _ => false

lemma isReadable_of_hint {b : CBlock} (h : isHint b = true) : isReadable b = false := by
  cases b with
  | writableChanged | sentBytes => rfl
  | _ => cases h

/-- How far a step may reach beyond the pcb: it posts hints at most, or it may also deliver or
free received data. -/
inductive Scope | hints | delivery
  deriving DecidableEq

def Scope.posts : Scope → CBlock → Bool
  | hints, b => isHint b
  | delivery, b => isHint b || isReadable b

/-- Steps that neither begin nor end a connection and do not move its state: they may work on
the pcb, change other fields of the connection, and post blocks within their scope while the
connection is alive. Every callback they note was made with the pcb's argument. -/
structure Ordinary (k : Scope) (s t : Sys P) : Prop where
  pcb : t.conn.pcb = s.conn.pcb
  alive : t.conn.alive = s.conn.alive
  state : t.conn.state = s.conn.state
  readEOF : t.conn.readEOF = s.conn.readEOF
  announced : t.conn.didNotifyActive = s.conn.didNotifyActive
  notified : t.conn.didNotifyTerminated = s.conn.didNotifyTerminated
  reason : t.conn.terminationReason = s.conn.terminationReason
  pending : t.conn.pendingClose = s.conn.pendingClose
  isSome : t.pcb.isSome = s.pcb.isSome
  hooks : t.hooks = s.hooks
  ref : t.ref = s.ref
  ext : t.extHeld = s.extHeld ∧ t.extGiven = s.extGiven
  exist : t.connExists = s.connExists
  packets : t.packetsQueue = s.packetsQueue ∧ t.completions = s.completions
  accept : t.acceptPending = s.acceptPending
  attaches : t.log.lwip.count .attach = s.log.lwip.count .attach
  trace : t.log.trace = s.log.trace
  env : t.env = s.env
  freed : k = .hints → t.log.freed = s.log.freed
  calls : ∃ cs, t.log.calls = s.log.calls ++ cs ∧ ∀ c ∈ cs, c.2 = s.owners ∧ s.hooks.arg = .conn
  posts : ∃ bs, t.connectionsQueue = s.connectionsQueue ++ bs ∧ t.log.posted = s.log.posted ++ bs ∧
    ∀ b ∈ bs, k.posts b = true ∧ s.conn.alive = true

variable {k : Scope}

@[refl] lemma Ordinary.refl (s : Sys P) : Ordinary k s s := by constructor <;> simp

lemma Ordinary.owners {t : Sys P} (h : Ordinary k s t) : t.owners = s.owners := by
  simp [Sys.owners, h.exist, h.ext.1]

lemma Ordinary.trans {t u : Sys P} (h : Ordinary k s t) (h' : Ordinary k t u) : Ordinary k s u := by
  obtain ⟨bs, hq, hp, hb⟩ := h.posts
  obtain ⟨bs', hq', hp', hb'⟩ := h'.posts
  obtain ⟨cs, hc, hcs⟩ := h.calls
  obtain ⟨cs', hc', hcs'⟩ := h'.calls
  rw [h.alive] at hb'
  rw [h.owners, h.hooks] at hcs'
  refine ⟨h'.pcb.trans h.pcb, h'.alive.trans h.alive, h'.state.trans h.state,
    h'.readEOF.trans h.readEOF, h'.announced.trans h.announced, h'.notified.trans h.notified,
    h'.reason.trans h.reason, h'.pending.trans h.pending, h'.isSome.trans h.isSome,
    h'.hooks.trans h.hooks, h'.ref.trans h.ref, ⟨h'.ext.1.trans h.ext.1, h'.ext.2.trans h.ext.2⟩,
    h'.exist.trans h.exist, ⟨h'.packets.1.trans h.packets.1, h'.packets.2.trans h.packets.2⟩,
    h'.accept.trans h.accept, h'.attaches.trans h.attaches, h'.trace.trans h.trace,
    h'.env.trans h.env, fun hs => (h'.freed hs).trans (h.freed hs), ⟨cs ++ cs', ?_, ?_⟩, bs ++ bs',
    ?_, ?_, ?_⟩
  · rw [hc', hc, List.append_assoc]
  · intro c hmem
    rcases List.mem_append.1 hmem with hm | hm
    · exact hcs c hm
    · exact hcs' c hm
  · rw [hq', hq, List.append_assoc]
  · rw [hp', hp, List.append_assoc]
  · intro b hmem
    rcases List.mem_append.1 hmem with hm | hm
    · exact hb b hm
    · exact hb' b hm

lemma ordinary_callLwip {c : LwipCall} (f : P → P) (hc : c ≠ .attach) :
    Ordinary k s (s.callLwip c f) := by
  constructor <;> simp [Sys.callLwip, hc]

lemma ordinary_pcb (f : P → P) : Ordinary k s { s with pcb := s.pcb.map f } := by
  constructor <;> simp

lemma ordinary_free (m : Freed) : Ordinary .delivery s (s.free m) := by
  constructor <;> simp [Sys.free]

lemma ordinary_postIf {set : Bool} {b : CBlock} (hb : k.posts b = true) (ha : s.conn.alive = true) :
    Ordinary k s (s.postIf set b) := by
  constructor <;> simp only [Sys.postIf, and_self, implies_true]
  · exact ⟨[], by simp⟩
  · refine ⟨if set then [b] else [], rfl, rfl, ?_⟩
    split_ifs <;> simp [hb, ha]

lemma noteCall_pcb (cb : Callback) (arg : CallbackArg) (s : Sys P) :
    (noteCall cb arg s).pcb = s.pcb := by
  unfold noteCall
  split_ifs <;> rfl

lemma noteCall_conn (cb : Callback) (arg : CallbackArg) (s : Sys P) :
    (noteCall cb arg s).conn = s.conn := by
  unfold noteCall
  split_ifs <;> rfl

lemma updateWritableLocked_pcb (v : Bool) (s : Sys P) : (updateWritableLocked v s).pcb = s.pcb := by
  unfold updateWritableLocked
  split_ifs <;> rfl

lemma updateWritableLocked_pendingClose (v : Bool) (s : Sys P) :
    (updateWritableLocked v s).conn.pendingClose = s.conn.pendingClose := by
  unfold updateWritableLocked
  split_ifs <;> rfl

lemma ordinary_noteCall (cb : Callback) : Ordinary k s (noteCall cb s.hooks.arg s) := by
  unfold noteCall
  split_ifs with h
  · constructor <;> simp [h]
  · exact .refl s

lemma ordinary_updateWritableLocked (v : Bool) (ha : s.conn.alive = true) :
    Ordinary k s (updateWritableLocked v s) := by
  unfold updateWritableLocked
  split_ifs
  · exact .refl s
  · refine Ordinary.trans ?_ (ordinary_postIf (by cases k <;> rfl) ha)
    constructor <;> simp

lemma ordinary_updateInflight (d : ℤ) : Ordinary k s (updateInflightAckBytes d s) := by
  constructor <;> simp [updateInflightAckBytes]

lemma ordinary_handOver {b : CBlock} {tot : ℕ} (hb : isReadable b = true)
    (ha : s.conn.alive = true) :
    Ordinary .delivery s (handOver b tot s) := by
  constructor <;> simp [handOver, Sys.post, Scope.posts, hb, ha]

lemma ordinary_freeIfSome (p : Option Pbuf) : Ordinary .delivery s (freeIfSome p s) := by
  cases p
  · exact .refl s
  · exact ordinary_free _

section

variable [RawApi P]

lemma ordinary_recvedLoop (fuel remaining : ℕ) : Ordinary k s (recvedLoop fuel remaining s) := by
  induction fuel generalizing remaining s with
  | zero => exact .refl s
  | succ fuel ih =>
    unfold recvedLoop
    split_ifs
    · exact .refl s
    · exact (ordinary_callLwip _ (by simp)).trans (ih _)

lemma ordinary_acknowledge (n : ℕ) : Ordinary k s (acknowledgeDeliveredBytes n s) := by
  unfold acknowledgeDeliveredBytes
  split_ifs
  · exact .refl s
  · exact .refl s
  · exact .refl s
  · have hloop : Ordinary k s (recvedLoop (min n s.conn.inflightAckBytes)
        (min n s.conn.inflightAckBytes) s) :=
      ordinary_recvedLoop _ _
    refine Ordinary.trans (hloop.trans ?_) (ordinary_updateInflight _)
    constructor <;> simp

lemma ordinary_shutdownWrite : Ordinary k s (shutdownWrite s) := by
  unfold shutdownWrite
  split_ifs
  · exact .refl s
  · exact .refl s
  · exact .refl s
  · refine Ordinary.trans ?_ (ordinary_callLwip _ (by simp))
    refine Ordinary.trans ?_ (ordinary_callLwip _ (by simp))
    constructor <;> simp

lemma ordinary_deliver (p : Pbuf) (ha : s.conn.alive = true) :
    Ordinary .delivery s (deliver p s) := by
  have hin : Ordinary .delivery s (updateInflightAckBytes p.totLen s) := ordinary_updateInflight _
  refine hin.trans ?_
  have ha' : (updateInflightAckBytes p.totLen s).conn.alive = true := ha
  simp only [deliver]
  split_ifs
  · exact ordinary_handOver rfl ha'
  · exact ordinary_free _
  · have hack := (ordinary_free (s := updateInflightAckBytes p.totLen s) (.pbuf p)).trans
      (ordinary_acknowledge p.totLen)
    exact hack.trans (ordinary_handOver rfl (hack.alive.trans ha'))
  · exact ordinary_free _
  · exact (ordinary_callLwip _ (by simp)).trans (ordinary_free _)

lemma ordinary_tfTcpRecv (arg : CallbackArg) (p : Pbuf) :
    Ordinary .delivery s (tfTcpRecv arg (some p) .ok s).1 := by
  unfold tfTcpRecv
  dsimp only
  split_ifs with hc hok
  · exact ordinary_free _
  · exact absurd rfl hok
  · exact ordinary_free _
  · exact .refl s
  · refine ordinary_deliver p ?_
    simp only [Bool.or_eq_true, not_or] at hc
    simpa using hc.1.2

lemma ordinary_eventRecv (p : Pbuf) : Ordinary .delivery s (eventRecv p s).1 := by
  unfold eventRecv
  split
  · refine (ordinary_noteCall .recv).trans ((ordinary_tfTcpRecv s.hooks.arg p).trans ?_)
    constructor <;> simp
  · exact ordinary_pcb _

lemma ordinary_eventSent (len : ℕ) : Ordinary k s (eventSent len s) := by
  unfold eventSent tfTcpSent
  split_ifs with hs hc
  · exact ordinary_noteCall _
  · have hn : Ordinary k s (noteCall .sent s.hooks.arg s) := ordinary_noteCall _
    have ha : (noteCall .sent s.hooks.arg s).conn.alive = true := by
      simp only [Bool.or_eq_true, not_or] at hc
      simpa using hc.1.2
    have hw : Ordinary k (noteCall .sent s.hooks.arg s)
        (updateWritableLocked (tfTcpWriteReady (noteCall .sent s.hooks.arg s))
          (noteCall .sent s.hooks.arg s)) :=
      ordinary_updateWritableLocked _ ha
    exact (hn.trans hw).trans (ordinary_postIf (by cases k <;> rfl) (hw.alive.trans ha))
  · exact .refl s

end

end TunForge.OrdinarySteps
