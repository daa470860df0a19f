import TunForge.IpStack

/-! Packets at the TUN boundary. A packet comes in as a chain of pool buffers holding exactly its
bytes, unless its length does not fit the `u16_t` it is narrowed to, and a chain goes out as one
packet. -/
namespace TunForge.PacketBoundary
open PbufChain LwipTypes
open IpStack hiding inputPacket

variable {o : Platform} {bufsize : ℕ}

/-! ### The pool -/

/-- An element of `MEMP_PBUF_POOL` and what its buffer happens to hold. -/
structure Element (bufsize : ℕ) where
  id : ℕ
  memory : Bytes
  sized : memory.length = bufsize

/-- `MEMCPY` to the start of the buffer, which never writes beyond its end. -/
def Element.write (data : Bytes) (e : Element bufsize) : Element bufsize where
  id := e.id
  memory := data.take bufsize ++ e.memory.drop data.length
  sized := by
    rw [List.length_append, List.length_take, List.length_drop, e.sized]
    omega

/-- A `struct pbuf` of the pool; `len` bytes of its buffer are payload. -/
structure PoolPbuf (bufsize : ℕ) where
  element : Element bufsize
  totLen : ℕ
  len : ℕ

def PoolPbuf.payload (q : PoolPbuf bufsize) : Bytes := q.element.memory.take q.len

/-- The chain as the rest of lwIP sees it. -/
def chain (qs : List (PoolPbuf bufsize)) : Pbuf := ⟨qs.map fun q => ⟨q.element.id, q.payload⟩⟩

/-- The loop of `pbuf_alloc(PBUF_RAW, length, PBUF_POOL)`, which leaves nothing in front of the
payload. There is no result when the pool runs out. -/
def pbufAlloc (remLen : ℕ) : List (Element bufsize) →
    Option (List (PoolPbuf bufsize) × List (Element bufsize))
  | [] => none
  | q :: pool =>
    let qlen := min remLen (bufsize % 2 ^ 16)
    if remLen - qlen = 0 then some ([⟨q, remLen, qlen⟩], pool)
    else (pbufAlloc (remLen - qlen) pool).map fun r => (⟨q, remLen, qlen⟩ :: r.1, r.2)

/-- `pbuf_free`: the elements go back to the pool one by one. -/
def pbufFree (qs : List (PoolPbuf bufsize)) (pool : List (Element bufsize)) :
    List (Element bufsize) :=
  qs.foldl (fun pool q => q.element :: pool) pool

/-- The loop of `pbuf_take` over the bytes that are still to be copied. -/
def takeLoop : Bytes → List (PoolPbuf bufsize) → List (PoolPbuf bufsize)
  | _, [] => []
  | data, p :: ps =>
    if data.length = 0 then p :: ps
    else { p with element := p.element.write (data.take p.len) } :: takeLoop (data.drop p.len) ps

/-- `pbuf_take`, without a result if it returns an error. -/
def pbufTake (buf : List (PoolPbuf bufsize)) (dataptr : Bytes) (len : ℕ) :
    Option (List (PoolPbuf bufsize)) :=
  match buf with
  | [] => none
  | p :: _ => if p.totLen < len then none else some (takeLoop (dataptr.take len) buf)

/-! ### The two directions -/

/-- `inputPacket:`. The result is the chain that `netif.input` is called with, if it is, and the
pool afterwards; `ok` says what `netif.input` returned. When `pbuf_alloc` fails it has taken all
there was in the pool and given it back. -/
def inputPacket (h : Host o) (packet : Option Bytes) (pool : List (Element bufsize)) (ok : Bool) :
    Option (List (PoolPbuf bufsize)) × List (Element bufsize) :=
  match packet with
  | none => (none, pool)
  | some packet =>
    let len := packet.length % 2 ^ 16
    if len = 0 ∨ 65535 < len then (none, pool)
    else if !h.refAlive h.stackRef then (none, pool)
    else if !h.ready then (none, pool)
    else if !h.netif.hasInput then (none, pool)
    else
      match pbufAlloc len pool with
      | none => (none, pool.reverse)
      | some (pbuf, pool) =>
        match pbufTake pbuf packet len with
        | none => (none, pbufFree pbuf pool)
        | some pbuf => (some pbuf, if ok then pool else pbufFree pbuf pool)

/-- `outputPacket:`, with the packets it gives to `outboundHandler`. -/
def outputPacket (handler : Bool) (pbuf : Option Pbuf) : List Bytes :=
  match pbuf with
  | none => []
  | some pbuf =>
    let len := pbuf.totLen
    if len < 20 ∨ !handler then []
    else
      let data := pbuf.copyPartial len 0
      if data.length % 2 ^ 16 ≠ len then [] else [data]

/-! ### Building and filling a chain -/

def lens (qs : List (PoolPbuf bufsize)) : ℕ := (qs.map PoolPbuf.len).sum

/-- Every `tot_len` counts the payload from its pbuf on, and no payload leaves its buffer. -/
def Linked : List (PoolPbuf bufsize) → Prop
  | [] => True
  | q :: qs => q.totLen = q.len + lens qs ∧ q.len ≤ bufsize ∧ Linked qs

lemma pbufAlloc_spec {remLen : ℕ} {pool rest : List (Element bufsize)}
    {qs : List (PoolPbuf bufsize)} (h : pbufAlloc remLen pool = some (qs, rest)) :
    Linked qs ∧ lens qs = remLen ∧ qs.head?.map PoolPbuf.totLen = some remLen := by
  induction pool generalizing remLen qs with
  | nil => cases h
  | cons q pool ih =>
    have hle : min remLen (bufsize % 2 ^ 16) ≤ bufsize :=
      (Nat.min_le_right _ _).trans (Nat.mod_le _ _)
    have hmin : min remLen (bufsize % 2 ^ 16) ≤ remLen := Nat.min_le_left _ _
    unfold pbufAlloc at h
    dsimp only at h
    generalize min remLen (bufsize % 2 ^ 16) = qlen at h hle hmin
    split_ifs at h with hlast
    · cases h
      have heq : qlen = remLen := by omega
      exact ⟨⟨by simp [lens, heq], hle, trivial⟩, by simp [lens, heq], rfl⟩
    · obtain ⟨⟨tail, r⟩, htail, heq⟩ := Option.map_eq_some_iff.1 h
      cases heq
      obtain ⟨hlinked, hlens, -⟩ := ih htail
      have hcons : lens (⟨q, remLen, qlen⟩ :: tail) = qlen + lens tail := by simp [lens]
      exact ⟨⟨by dsimp only; omega, hle, hlinked⟩, by dsimp only; omega, rfl⟩

lemma pbufAlloc_isSome (hb : 0 < bufsize ∧ bufsize < 2 ^ 16) {remLen : ℕ}
    {pool : List (Element bufsize)} (hr : 0 < remLen) (hroom : remLen ≤ pool.length * bufsize) :
    (pbufAlloc remLen pool).isSome = true := by
  induction pool generalizing remLen with
  | nil =>
    simp at hroom
    omega
  | cons q pool ih =>
    unfold pbufAlloc
    dsimp only
    rw [Nat.mod_eq_of_lt hb.2]
    split_ifs with hlast
    · rfl
    · rw [Option.isSome_map]
      refine ih (by omega) ?_
      rw [List.length_cons, Nat.succ_mul] at hroom
      omega

lemma length_chain {qs : List (PoolPbuf bufsize)} (hq : Linked qs) :
    (chain qs).bytes.length = lens qs := by
  induction qs with
  | nil => rfl
  | cons q qs ih =>
    have htail := ih hq.2.2
    have hmin : min q.len bufsize = q.len := Nat.min_eq_left hq.2.1
    simp only [chain, Pbuf.bytes, Pbuf.payloads, List.map_cons, List.flatten_cons,
      List.length_append, lens, List.sum_cons, PoolPbuf.payload, List.length_take, q.element.sized,
      hmin] at htail ⊢
    rw [htail]

lemma payload_write {data : Bytes} {q : PoolPbuf bufsize} (hlen : data.length = q.len)
    (hq : q.len ≤ bufsize) :
    PoolPbuf.payload { q with element := q.element.write data } = data := by
  have htake : data.take bufsize = data := List.take_of_length_le (by omega)
  simp only [PoolPbuf.payload, Element.write, htake]
  rw [← hlen, List.take_left']
  rfl

lemma takeLoop_spec {data : Bytes} {qs : List (PoolPbuf bufsize)} (hq : Linked qs)
    (hlen : data.length = lens qs) :
    (chain (takeLoop data qs)).bytes = data ∧
    (takeLoop data qs).head?.map PoolPbuf.totLen = qs.head?.map PoolPbuf.totLen := by
  -- as many bytes as the chain has room for end up in it in order, and its lengths stay
  induction qs generalizing data with
  | nil =>
    have hnil : data = [] := List.length_eq_zero_iff.1 hlen
    simp [takeLoop, chain, Pbuf.bytes, Pbuf.payloads, hnil]
  | cons q qs ih =>
    have hle := hq.2.1
    have hcons : lens (q :: qs) = q.len + lens qs := by simp [lens]
    unfold takeLoop
    split_ifs with hz
    · have hnil : data = [] := List.length_eq_zero_iff.1 hz
      have hzero : (chain (q :: qs)).bytes.length = 0 := by rw [length_chain hq, ← hlen, hz]
      exact ⟨by rw [List.length_eq_zero_iff.1 hzero, hnil], rfl⟩
    · obtain ⟨hbytes, -⟩ := ih hq.2.2
        (show (data.drop q.len).length = lens qs by rw [List.length_drop]; omega)
      have hpay := payload_write
        (show (data.take q.len).length = q.len by rw [List.length_take]; omega) hle
      refine ⟨?_, rfl⟩
      calc (chain ({ q with element := q.element.write (data.take q.len) } :: takeLoop
          (data.drop q.len) qs)).bytes
          = PoolPbuf.payload { q with element := q.element.write (data.take q.len) } ++
            (chain (takeLoop (data.drop q.len) qs)).bytes := by
              simp [chain, Pbuf.bytes, Pbuf.payloads]
        _ = data := by rw [hpay, hbytes, List.take_append_drop]

/-! ### What comes in and what goes out -/

/-- The stack is there to take packets. -/
def running (h : Host o) : Bool := h.refAlive h.stackRef && h.ready && h.netif.hasInput

lemma inputPacket_some {h : Host o} {packet : Bytes} {pool : List (Element bufsize)} {ok : Bool}
    {qs : List (PoolPbuf bufsize)} (hin : (inputPacket h (some packet) pool ok).1 = some qs) :
    ∃ buf rest, pbufAlloc (packet.length % 2 ^ 16) pool = some (buf, rest) ∧
    qs = takeLoop (packet.take (packet.length % 2 ^ 16)) buf := by
  -- what `netif.input` is called with has been allocated and filled
  simp only [inputPacket] at hin
  split at hin
  · cases hin
  split at hin
  · cases hin
  split at hin
  · cases hin
  split at hin
  · cases hin
  split at hin
  · cases hin
  · next p rest hp =>
    split at hin
    · cases hin
    · next p' hp' =>
      cases hin
      unfold pbufTake at hp'
      split at hp'
      · cases hp'
      · split_ifs at hp'
        cases hp'
        exact ⟨_, rest, hp, rfl⟩

lemma inputPacket_chain {h : Host o} {packet : Bytes} {pool : List (Element bufsize)} {ok : Bool}
    {qs : List (PoolPbuf bufsize)} (hin : (inputPacket h (some packet) pool ok).1 = some qs) :
    (chain qs).bytes = packet.take (packet.length % 2 ^ 16) ∧
      qs.head?.map PoolPbuf.totLen = some (packet.length % 2 ^ 16) := by
  obtain ⟨buf, rest, halloc, rfl⟩ := inputPacket_some hin
  obtain ⟨hlinked, hlens, hhead⟩ := pbufAlloc_spec halloc
  have hdata : (packet.take (packet.length % 2 ^ 16)).length = packet.length % 2 ^ 16 := by
    rw [List.length_take]
    exact Nat.min_eq_left (Nat.mod_le _ _)
  obtain ⟨hbytes, htot⟩ := takeLoop_spec hlinked (hdata.trans hlens.symm)
  exact ⟨hbytes, htot.trans hhead⟩

lemma inputPacket_of_zero (h : Host o) {packet : Bytes} (hlen : packet.length % 2 ^ 16 = 0)
    (pool : List (Element bufsize)) (ok : Bool) :
    inputPacket h (some packet) pool ok = (none, pool) := by
  simp only [inputPacket]
  rw [if_pos (.inl hlen)]

lemma inputPacket_isSome {h : Host o} (hrun : running h = true) {packet : Bytes}
    (hlen : packet.length % 2 ^ 16 ≠ 0) (hb : 0 < bufsize ∧ bufsize < 2 ^ 16)
    {pool : List (Element bufsize)} (hroom : packet.length % 2 ^ 16 ≤ pool.length * bufsize)
    (ok : Bool) :
    ∃ qs, (inputPacket h (some packet) pool ok).1 = some qs := by
  obtain ⟨⟨qs, rest⟩, halloc⟩ :=
    Option.isSome_iff_exists.1 (pbufAlloc_isSome hb (Nat.pos_of_ne_zero hlen) hroom)
  obtain ⟨-, -, hhead⟩ := pbufAlloc_spec halloc
  have hguard : ¬ (packet.length % 2 ^ 16 = 0 ∨ 65535 < packet.length % 2 ^ 16) := by omega
  simp only [running, Bool.and_eq_true] at hrun
  simp only [inputPacket, if_neg hguard, hrun, Bool.not_true, Bool.false_eq_true, if_false, halloc]
  cases qs with
  | nil => cases hhead
  | cons q qs =>
    have htot : q.totLen = packet.length % 2 ^ 16 := by simpa using hhead
    simp [pbufTake, htot]

lemma outputPacket_eq {p : Pbuf} (hp : p.size < 2 ^ 16) (hlen : 20 ≤ p.totLen) :
    outputPacket true (some p) = [p.bytes] := by
  have htot := Pbuf.totLen_eq hp
  have hcopy : p.copyPartial p.totLen 0 = p.bytes := by
    rw [Pbuf.copyPartial_eq, List.drop_zero]
    exact List.take_of_length_le (by rw [Pbuf.length_bytes, htot])
  have hmod : p.bytes.length % 2 ^ 16 = p.totLen := by
    rw [Pbuf.length_bytes, htot, Nat.mod_eq_of_lt hp]
  simp only [outputPacket, hcopy, hmod]
  rw [if_neg (by simpa using hlen)]
  simp

/-- What a packet of any length may become: all of it as one chain, or nothing, and nothing is
allocated for one that is empty or too long. -/
def Intact (packet : Bytes) (pool : List (Element bufsize))
    (r : Option (List (PoolPbuf bufsize)) × List (Element bufsize)) : Prop :=
  (∀ qs, r.1 = some qs → qs.head?.map PoolPbuf.totLen = some packet.length ∧
    (chain qs).bytes = packet) ∧
    (packet.length = 0 ∨ 65535 < packet.length → r = (none, pool))

/-- A packet crosses the boundary unchanged or not at all exactly if its length survives being
narrowed, or is narrowed to nothing. Chains go out unchanged, and so a packet that has come in
whole goes out again as it was. -/
theorem packet_boundary (packet : Bytes) :
    (packet.length ≤ 65535 ∨ packet.length % 2 ^ 16 = 0 ↔
      ∀ (o : Platform) (h : Host o) (bufsize : ℕ) (pool : List (Element bufsize)) (ok : Bool),
        Intact packet pool (inputPacket h (some packet) pool ok)) ∧
    (∀ p : Pbuf, p.size < 2 ^ 16 → 20 ≤ p.totLen → outputPacket true (some p) = [p.bytes]) ∧
    ∀ (o : Platform) (h : Host o) (bufsize : ℕ) (pool : List (Element bufsize)) (ok : Bool),
      20 ≤ packet.length → packet.length ≤ 65535 →
      (∀ qs, (inputPacket h (some packet) pool ok).1 = some qs →
        outputPacket true (some (chain qs)) = [packet]) ∧
      (running h = true → 0 < bufsize → bufsize < 2 ^ 16 → packet.length ≤ pool.length * bufsize →
        ∃ qs, (inputPacket h (some packet) pool ok).1 = some qs) := by
  refine ⟨⟨fun hlen o h bufsize pool ok => ⟨fun qs hin => ?_, fun hout => ?_⟩, fun hall => ?_⟩, ?_,
    ?_⟩
  · rcases hlen with hle | hzero
    · have hmod : packet.length % 2 ^ 16 = packet.length := Nat.mod_eq_of_lt (by omega)
      obtain ⟨hbytes, htot⟩ := inputPacket_chain hin
      rw [hmod, List.take_length] at hbytes
      exact ⟨hmod ▸ htot, hbytes⟩
    · rw [inputPacket_of_zero h hzero] at hin
      cases hin
  · exact inputPacket_of_zero h (by omega) pool ok
  · by_contra hlen
    let pool : List (Element 65535) := [⟨0, List.replicate 65535 0, List.length_replicate⟩]
    have hroom : packet.length % 2 ^ 16 ≤ pool.length * 65535 := by
      rw [List.length_singleton]
      omega
    obtain ⟨qs, hin⟩ := inputPacket_isSome (h := start [] (boot .ios)) (by decide) (by omega)
      (by decide) hroom true
    rw [(hall _ _ _ _ _).2 (.inr (by omega))] at hin
    cases hin
  · exact fun p hp hlen => outputPacket_eq hp hlen
  · intro o h bufsize pool ok hge hle
    have hmod : packet.length % 2 ^ 16 = packet.length := Nat.mod_eq_of_lt (by omega)
    refine ⟨fun qs hin => ?_, fun hrun hpos hlt hroom => ?_⟩
    · obtain ⟨hbytes, -⟩ := inputPacket_chain hin
      rw [hmod, List.take_length] at hbytes
      have hsize : (chain qs).size = packet.length := by rw [← Pbuf.length_bytes, hbytes]
      have htot : (chain qs).totLen = packet.length := by rw [Pbuf.totLen, hsize, hmod]
      rw [outputPacket_eq (by omega) (by omega), hbytes]
    · exact inputPacket_isSome hrun (by omega) ⟨hpos, hlt⟩ (by omega) ok

/-- The first byte of a packet of 65537 bytes is taken for the whole of it. -/
theorem long_packet_truncated :
    ∃ qs, (inputPacket (start [] (boot .ios)) (some (List.replicate 65537 0))
      [(⟨0, [1, 2, 3, 4], rfl⟩ : Element 4)] true).1 =
        some qs ∧ (chain qs).bytes = [0] ∧ qs.head?.map PoolPbuf.totLen = some 1 := by
  have hlen : (List.replicate 65537 (0 : UInt8)).length % 2 ^ 16 = 1 := by
    norm_num [List.length_replicate]
  have hroom : (List.replicate 65537 (0 : UInt8)).length % 2 ^ 16 ≤
      [(⟨0, [1, 2, 3, 4], rfl⟩ : Element 4)].length * 4 := by
    rw [hlen]
    decide
  obtain ⟨qs, hin⟩ := inputPacket_isSome (h := start [] (boot .ios)) (by decide)
    (by rw [hlen]; decide) (by decide) hroom true
  obtain ⟨hbytes, htot⟩ := inputPacket_chain hin
  rw [hlen] at hbytes htot
  exact ⟨qs, hin, by rw [hbytes, List.take_replicate]; rfl, htot⟩

end TunForge.PacketBoundary
