import TunForge.PacketBoundary
import TunForge.PacketFormat

/-! What one stack sends is what another reads: the packet that `tcp_output_segment` and
`ip4_output_if` make of a segment passes the checks of `ip4_input` and `tcp_input`, in whatever
pieces it arrives, and every field is read as it was written. So it does across the tunnel, by way
of `outputPacket:` and `inputPacket:`. -/
namespace TunForge.PacketFormat
open SerialNumber LwipTypes PbufChain OnesComplement Checksum TcpOptions

/-- The fields fit where they are written. -/
structure TcpFields.InRange (f : TcpFields) : Prop where
  src : f.src < 2 ^ 16
  dest : f.dest < 2 ^ 16
  flags : f.flags < 2 ^ 6
  wnd : f.wnd < 2 ^ 16
  mss : ∀ mss ∈ f.mss, mss < 2 ^ 16
  wndScale : ∀ scale ∈ f.wndScale, scale < 2 ^ 8

/-- The fields fit, and the source is a host. -/
structure IpFields.InRange (f : IpFields) : Prop where
  tos : f.tos < 2 ^ 8
  ttl : f.ttl < 2 ^ 8
  proto : f.proto < 2 ^ 8
  src : (ip4AddrIsbroadcast f.src || ip4AddrIsmulticast f.src) = false

/-! ### Fields -/

lemma at16_wire16 {n : ℕ} (h : n < 2 ^ 16) :
    (UInt8.ofNat (n / 256)).toNat * 256 + (UInt8.ofNat n).toNat = n := by
  simp only [UInt8.toNat_ofNat']
  omega

lemma at32_wire32 (n : Seq) :
    BitVec.ofNat 32 ((UInt8.ofNat (n.toNat / 2 ^ 24)).toNat * 2 ^ 24 +
      (UInt8.ofNat (n.toNat / 2 ^ 16)).toNat * 2 ^ 16 +
        (UInt8.ofNat (n.toNat / 2 ^ 8)).toNat * 2 ^ 8 + (UInt8.ofNat n.toNat).toNat) = n := by
  have hn := n.isLt
  refine BitVec.eq_of_toNat_eq ?_
  simp only [UInt8.toNat_ofNat', BitVec.toNat_ofNat]
  omega

lemma addrAt_addrBytes (a : BitVec 32) :
    BitVec.ofNat 32 ((UInt8.ofNat a.toNat).toNat + (UInt8.ofNat (a.toNat / 2 ^ 8)).toNat * 2 ^ 8 +
      (UInt8.ofNat (a.toNat / 2 ^ 16)).toNat * 2 ^ 16 +
        (UInt8.ofNat (a.toNat / 2 ^ 24)).toNat * 2 ^ 24) = a := by
  have ha := a.isLt
  refine BitVec.eq_of_toNat_eq ?_
  simp only [UInt8.toNat_ofNat', BitVec.toNat_ofNat]
  omega

/-! ### The IP header -/

lemma length_ipHeader (f : IpFields) (len chksum : ℕ) : (ipHeader f len chksum).length = 20 := rfl

lemma value_ipHeader (f : IpFields) (len : ℕ) {chksum : ℕ} (h : chksum ≤ 0xFFFF) :
    value (ipHeader f len chksum) = value (ipHeader f len 0) + 256 ^ 10 * chksum := by
  have hfield : ∀ c, value (ipHeader f len c) =
      value ([0x45, UInt8.ofNat f.tos] ++ wire16 len ++ wire16 f.ipId ++ [0, 0] ++
        [UInt8.ofNat f.ttl, UInt8.ofNat f.proto]) +
        256 ^ 10 * value (stored c) + 256 ^ 12 * value (addrBytes f.src ++ addrBytes f.dest) := by
    intro c
    rw [ipHeader, List.append_assoc _ (addrBytes f.src), value_middle]
    rfl
  rw [hfield, hfield, value_stored h, value_stored (Nat.zero_le _)]
  omega

lemma inverted_fold {sum : ℕ} (h : sum ≤ 8 * 0xFFFF) :
    (2 ^ 32 - 1 - ((sum / 2 ^ 16 + sum % 2 ^ 16) / 2 ^ 16 + (sum / 2 ^ 16 + sum % 2 ^ 16))) % 2 ^ 16
      = 0xFFFF - fold (fold sum) := by
  unfold fold
  have hfold : sum / 2 ^ 16 + sum % 2 ^ 16 ≤ 0xFFFF + 7 := by omega
  generalize sum / 2 ^ 16 + sum % 2 ^ 16 = s at *
  omega

lemma value_ipHeader_zero {f : IpFields} (hf : f.InRange) (len : ℕ) :
    value (ipHeader f len 0) = swap (f.tos + 0x45 * 2 ^ 8) + 256 ^ 2 * swap len +
      256 ^ 4 * swap f.ipId +
      256 ^ 8 * swap (f.proto + f.ttl * 2 ^ 8) + 256 ^ 12 * f.src.toNat +
        256 ^ 16 * f.dest.toNat := by
  have hfirst : value [0x45, UInt8.ofNat f.tos] = swap (f.tos + 0x45 * 2 ^ 8) := by
    have htos := hf.tos
    simp only [value_cons, value_nil, UInt8.toNat_ofNat', swap]
    rw [show UInt8.toNat 0x45 = 0x45 from rfl]
    omega
  have hnext : value [UInt8.ofNat f.ttl, UInt8.ofNat f.proto] = swap (f.proto + f.ttl * 2 ^ 8) := by
    have httl := hf.ttl
    have hproto := hf.proto
    simp only [value_cons, value_nil, UInt8.toNat_ofNat', swap]
    omega
  have hzeros : value [0, 0] = 0 := rfl
  simp only [ipHeader, value_append, value_addrBytes, value_wire16, hfirst, hnext, hzeros,
    value_stored (Nat.zero_le _), mul_zero, add_zero]
  rfl

lemma chkSum_spec {f : IpFields} (hf : f.InRange) (len : ℕ) :
    ∃ x, chkSum f len = 0xFFFF - x ∧ Rep (value (ipHeader f len 0)) x := by
  -- the words that `ip4_output_if` adds up are those of the header without a checksum
  have hsrc := f.src.isLt
  have hdest := f.dest.isLt
  have hpos : 0 < swap (f.tos + 0x45 * 2 ^ 8) := by
    have htos := hf.tos
    unfold swap
    omega
  have h1 := swap_le (f.tos + 0x45 * 2 ^ 8)
  have h2 := swap_le len
  have h3 := swap_le f.ipId
  have h4 := swap_le (f.proto + f.ttl * 2 ^ 8)
  rw [value_ipHeader_zero hf]
  unfold chkSum
  dsimp only
  generalize swap (f.tos + 0x45 * 2 ^ 8) = first at *
  generalize swap len = second at *
  generalize swap f.ipId = third at *
  generalize swap (f.proto + f.ttl * 2 ^ 8) = fifth at *
  generalize f.src.toNat = src at *
  generalize f.dest.toNat = dest at *
  have hpow : ∀ k v, 256 ^ (2 * k) * v ≡ v [MOD 0xFFFF] := fun k v => by
    simpa using (pow_twice k).mul_right v
  have hvalue : first + second + third + fifth + fold src + fold dest ≡
      first + 256 ^ 2 * second + 256 ^ 4 * third + 256 ^ 8 * fifth + 256 ^ 12 * src +
        256 ^ 16 * dest [MOD 0xFFFF] :=
    (((((Nat.ModEq.refl first).add (hpow 1 second).symm).add (hpow 2 third).symm).add
      (hpow 4 fifth).symm).add
      ((fold_mod src).trans (hpow 6 src).symm)).add ((fold_mod dest).trans (hpow 8 dest).symm)
  have hsum : fifth + dest % 2 ^ 16 + dest / 2 ^ 16 + first + second + third + src % 2 ^ 16 +
      src / 2 ^ 16 =
      first + second + third + fifth + fold src + fold dest := by
    unfold fold
    ring
  have hle : first + second + third + fifth + fold src + fold dest ≤ 8 * 0xFFFF := by
    unfold fold
    omega
  rw [hsum]
  have hrep : Rep _ (fold (fold (first + second + third + fifth + fold src + fold dest))) :=
    rep_fold_fold (by omega)
  exact ⟨_, inverted_fold hle, hrep.congr hvalue ⟨fun h => by omega, fun h => by omega⟩⟩

lemma inetChksum_ipHeader {f : IpFields} (hf : f.InRange) (len : ℕ) (odd : Bool) :
    inetChksum odd (ipHeader f len (chkSum f len)) = 0 := by
  obtain ⟨x, hx, hrep⟩ := chkSum_spec hf len
  obtain ⟨hpos, hdvd⟩ := hrep.complement (k := 10) rfl
  have hvalue : value (ipHeader f len (chkSum f len)) = _ := value_ipHeader f len (by omega)
  rw [← hx, ← hvalue] at hpos hdvd
  have hchk : Rep _ (lwipStandardChksum odd (ipHeader f len (chkSum f len))) :=
    rep_chksum odd (by rw [length_ipHeader]; omega)
  rw [inetChksum, (hchk.dvd_iff hpos).2 hdvd]

lemma read_ipHeader {f : IpFields} (hf : f.InRange) {len : ℕ} (hlen : len < 2 ^ 16) (chksum : ℕ)
    (mem : Bytes) :
    at8 (ipHeader f len chksum ++ mem) 0 = 0x45 ∧ at16 (ipHeader f len chksum ++ mem) 2 = len ∧
      at16 (ipHeader f len chksum ++ mem) 6 = 0 ∧ at8 (ipHeader f len chksum ++ mem) 9 = f.proto ∧
      addrAt (ipHeader f len chksum ++ mem) 12 = f.src ∧
      addrAt (ipHeader f len chksum ++ mem) 16 = f.dest := by
  have hproto : (UInt8.ofNat f.proto).toNat = f.proto := UInt8.toNat_ofNat_of_lt' hf.proto
  simp only [ipHeader, wire16, stored, addrBytes, at16, addrAt, at8, List.cons_append,
    List.nil_append, List.getD_cons_zero, List.getD_cons_succ]
  exact ⟨rfl, at16_wire16 hlen, rfl, hproto, addrAt_addrBytes f.src, addrAt_addrBytes f.dest⟩

lemma ip4Input_ipHeader {f : IpFields} (hf : f.InRange) (stale : Bytes) (odd : Bool) {len : ℕ}
    {data : Bytes} {rest : Chain} (hlen : 20 + (data ++ bytes rest).length = len)
    (hmax : len < 2 ^ 16) :
    ip4Input stale (⟨odd, ipHeader f len (chkSum f len) ++ data⟩ :: rest) =
      .deliver f.proto f.src f.dest (⟨odd, data⟩ :: rest) := by
  -- a packet with a header of `ip4_output_if` is handed to its protocol without it
  obtain ⟨hfirst, htot, hoffset, hproto, hsrc, hdest⟩ :=
    read_ipHeader hf hmax (chkSum f len) (data ++ stale)
  have htotLen : totLen (⟨odd, ipHeader f len (chkSum f len) ++ data⟩ :: rest) = len := by
    rw [totLen, bytes_cons, List.append_assoc, List.length_append, length_ipHeader, hlen,
      Nat.mod_eq_of_lt hmax]
  have hhead : (ipHeader f len (chkSum f len) ++ data ++ stale).take 20 =
      ipHeader f len (chkSum f len) := by
    rw [List.append_assoc]
    exact List.take_left' (length_ipHeader f len _)
  have hfirstLen : firstLen (⟨odd, ipHeader f len (chkSum f len) ++ data⟩ :: rest) =
      20 + data.length := by
    show (ipHeader f len (chkSum f len) ++ data).length = _
    rw [List.length_append, length_ipHeader]
  have hdrop : pbufRemoveHeader 20 (⟨odd, ipHeader f len (chkSum f len) ++ data⟩ :: rest) =
      ⟨odd, data⟩ :: rest := by
    have hdata : (ipHeader f len (chkSum f len) ++ data).drop 20 = data :=
      List.drop_left' (length_ipHeader f len _)
    simp [pbufRemoveHeader, hdata]
  rw [← List.append_assoc] at hfirst htot hoffset hproto hsrc hdest
  have hsrc' := hf.src
  unfold ip4Input
  simp only [List.head?_cons, Option.map_some, Option.getD_some, hfirst, htot, htotLen, hfirstLen,
    hoffset, hproto, hsrc, hdest, lt_irrefl, if_false, hsrc', ipHlen,
    show 69 % 16 * 4 = 20 from rfl, hhead, inetChksum_ipHeader hf, hdrop]
  simp

/-! ### The TCP header -/

lemma length_optBytes (f : TcpFields) :
    (optBytes f).length / 4 * 4 = (optBytes f).length ∧ (optBytes f).length ≤ 8 := by
  unfold optBytes
  cases f.mss <;> cases f.wndScale <;> simp [wire16]

lemma tcpHeader_append (f : TcpFields) (chksum : ℕ) (data : Bytes) :
    tcpHeader f chksum ++ data =
      (wire16 f.src ++ wire16 f.dest ++ wire32 f.seqno ++ wire32 f.ackno ++ wire16
        ((5 + (optBytes f).length / 4) * 2 ^ 12 + f.flags) ++
        wire16 f.wnd) ++ stored chksum ++ (wire16 0 ++ optBytes f ++ data) := by
  simp only [tcpHeader, List.append_assoc]

lemma length_tcpHeader (f : TcpFields) (chksum : ℕ) :
    (tcpHeader f chksum).length = 20 + (optBytes f).length := by
  rw [tcpHeader, List.length_append]
  rfl

lemma read_tcpHeader {f : TcpFields} (hf : f.InRange) (chksum : ℕ) (mem : Bytes) :
    at16 (tcpHeader f chksum ++ mem) 0 = f.src ∧ at16 (tcpHeader f chksum ++ mem) 2 = f.dest ∧
      at32 (tcpHeader f chksum ++ mem) 4 = f.seqno ∧ at32 (tcpHeader f chksum ++ mem) 8 = f.ackno ∧
      at16 (tcpHeader f chksum ++ mem) 12 = (5 + (optBytes f).length / 4) * 2 ^ 12 + f.flags ∧
      at16 (tcpHeader f chksum ++ mem) 14 = f.wnd := by
  have hopt := (length_optBytes f).2
  have hflags := hf.flags
  simp only [tcpHeader, wire16, wire32, at16, at32, at8, List.cons_append, List.nil_append,
    List.getD_cons_zero, List.getD_cons_succ]
  exact ⟨at16_wire16 hf.src, at16_wire16 hf.dest, at32_wire32 f.seqno, at32_wire32 f.ackno,
    at16_wire16 (by omega), at16_wire16 hf.wnd⟩

/-! ### Chains -/

lemma length_le_bytes {q : Piece} {p : Chain} (h : q ∈ p) : q.data.length ≤ (bytes p).length := by
  induction p with
  | nil => cases h
  | cons q' p ih =>
    rw [bytes_cons, List.length_append]
    rcases List.mem_cons.1 h with rfl | h
    · omega
    · have := ih h
      omega

lemma bytes_pbufAddHeader {p : Chain} (h : p ≠ []) (hdr : Bytes) :
    bytes (pbufAddHeader hdr p) = hdr ++ bytes p := by
  cases p with
  | nil => exact absurd rfl h
  | cons q rest => simp [pbufAddHeader]

lemma map_range_getD (xs ys : Bytes) :
    (List.range xs.length).map (fun i => (xs ++ ys).getD i 0) = xs := by
  refine List.ext_getElem (by simp) fun i h _ => ?_
  have hi : i < xs.length := by simpa using h
  simp [List.getD_eq_getElem?_getD, List.getElem?_append_left hi, hi]

lemma takeOptions_tcpHeader (f : TcpFields) (chksum : ℕ) (stale : Bytes) (odd : Bool) (data : Bytes)
    (rest : Chain) :
    ∃ m odd', takeOptions stale (20 + (optBytes f).length)
      (⟨odd, tcpHeader f chksum ++ data⟩ :: rest) = some (m, ⟨odd', data⟩ :: rest) ∧
      options m = optBytes f := by
  have hlen := length_tcpHeader f chksum
  have hdrop : (tcpHeader f chksum ++ data).drop (20 + (optBytes f).length) = data :=
    List.drop_left' hlen
  have hfixed : (tcpHeader f chksum ++ data).drop tcpHlen = optBytes f ++ data := by
    rw [tcpHeader, List.append_assoc]
    exact List.drop_left' rfl
  unfold takeOptions
  dsimp only
  rw [if_pos (by rw [List.length_append, hlen]; omega), pbufRemoveHeader, hdrop]
  refine ⟨_, _, rfl, ?_⟩
  rw [hfixed, List.append_assoc, tcpHlen, Nat.add_sub_cancel_left]
  exact map_range_getD _ _

section Segment

variable {f : TcpFields} {src dest : BitVec 32} {p rest : Chain} {data : Bytes} {chksum : ℕ}

lemma totLen_tcpHeader (odd : Bool) (hdata : data ++ bytes rest = bytes p)
    (hlen : 20 + (optBytes f).length + (bytes p).length < 2 ^ 16) :
    totLen (⟨odd, tcpHeader f chksum ++ data⟩ :: rest) = 20 + (optBytes f).length +
      (bytes p).length := by
  rw [totLen, bytes_cons, List.append_assoc, hdata, List.length_append, length_tcpHeader,
    Nat.mod_eq_of_lt hlen]

lemma chksum_tcpHeader (odd : Bool) (hp : p ≠ []) (hdata : data ++ bytes rest = bytes p)
    (hlen : 20 + (optBytes f).length + (bytes p).length < 2 ^ 16)
    (hchk : chksum = inetChksumPseudo (pbufAddHeader (tcpHeader f 0) p) ipProtoTcp
      (totLen (pbufAddHeader (tcpHeader f 0) p)) src dest) :
    inetChksumPseudo (⟨odd, tcpHeader f chksum ++ data⟩ :: rest) ipProtoTcp
      (totLen (⟨odd, tcpHeader f chksum ++ data⟩ :: rest)) src dest = 0 := by
  -- the checksum that `tcp_output_segment` computes makes the sum of the receiver zero
  have hsent : bytes (pbufAddHeader (tcpHeader f 0) p) = tcpHeader f 0 ++ bytes p :=
    bytes_pbufAddHeader hp _
  have hgot : bytes (⟨odd, tcpHeader f chksum ++ data⟩ :: rest) =
      tcpHeader f chksum ++ bytes p := by
    rw [bytes_cons, List.append_assoc, hdata]
  have hsentLen : (bytes (pbufAddHeader (tcpHeader f 0) p)).length < 2 ^ 16 := by
    rw [hsent, List.length_append, length_tcpHeader]
    exact hlen
  have hgotLen : (bytes (⟨odd, tcpHeader f chksum ++ data⟩ :: rest)).length < 2 ^ 16 := by
    rw [hgot, List.length_append, length_tcpHeader]
    exact hlen
  have htot : totLen (pbufAddHeader (tcpHeader f 0) p) = 20 + (optBytes f).length +
      (bytes p).length := by
    rw [totLen, Nat.mod_eq_of_lt hsentLen, hsent, List.length_append, length_tcpHeader]
  rw [totLen_tcpHeader odd hdata hlen, ← htot]
  refine chksum_verifies (fun q hq => (length_le_bytes hq).trans_lt hsentLen)
    (fun q hq => (length_le_bytes hq).trans_lt hgotLen)
    (by decide) _ src dest ?_ (hsent.trans (tcpHeader_append f 0 _)) ?_
  · simp [wire16, wire32]
  · rw [← hchk, hgot, tcpHeader_append]

lemma tcpInput_tcpHeader (hf : f.InRange)
    (hdest : (ip4AddrIsbroadcast dest || ip4AddrIsmulticast dest) = false) (stale : Bytes)
    (odd : Bool) (hdata : data ++ bytes rest = bytes p)
    (hlen : 20 + (optBytes f).length + (bytes p).length < 2 ^ 16)
    (hpass : inetChksumPseudo (⟨odd, tcpHeader f chksum ++ data⟩ :: rest) ipProtoTcp
      (totLen (⟨odd, tcpHeader f chksum ++ data⟩ :: rest))
      src dest = 0) :
    ∃ m odd', tcpInput stale src dest (⟨odd, tcpHeader f chksum ++ data⟩ :: rest) =
        some ⟨f.src, f.dest, f.seqno, f.ackno, f.wnd, f.flags,
          (bytes p).length + if f.flags % 4 ≠ 0 then 1 else 0, m, ⟨odd', data⟩ :: rest⟩ ∧
      options m = optBytes f := by
  -- a segment with that checksum passes, and is read as it was written
  obtain ⟨hsrc, hdst, hseq, hack, hoffset, hwnd⟩ := read_tcpHeader hf chksum data
  obtain ⟨m, odd', htake, hopts⟩ := takeOptions_tcpHeader f chksum stale odd data rest
  have hrest : totLen (⟨odd', data⟩ :: rest) = (bytes p).length := by
    rw [totLen, bytes_cons, hdata, Nat.mod_eq_of_lt (by omega)]
  have htot : totLen (⟨odd, tcpHeader f chksum ++ data⟩ :: rest) = _ :=
    totLen_tcpHeader odd hdata hlen
  have hfirst : ¬firstLen (⟨odd, tcpHeader f chksum ++ data⟩ :: rest) < tcpHlen := by
    show ¬(tcpHeader f chksum ++ data).length < 20
    rw [List.length_append, length_tcpHeader]
    omega
  have hflags := hf.flags
  have hopt := length_optBytes f
  have hhdrlen : ((5 + (optBytes f).length / 4) * 2 ^ 12 + f.flags) / 2 ^ 12 * 4 =
      20 + (optBytes f).length := by omega
  have hflag : ((5 + (optBytes f).length / 4) * 2 ^ 12 + f.flags) % 64 = f.flags := by omega
  have hshort : ¬(20 + (optBytes f).length < tcpHlen ∨
      20 + (optBytes f).length + (bytes p).length < 20 + (optBytes f).length) := by
    unfold tcpHlen
    omega
  generalize hbit : (if f.flags % 4 ≠ 0 then 1 else 0) = bit
  have hle : bit ≤ 1 := by
    subst hbit
    split_ifs <;> omega
  refine ⟨m, odd', ?_, hopts⟩
  unfold tcpInput
  simp only [List.head?_cons, Option.map_some, Option.getD_some, hoffset, hsrc, hdst, hseq, hack,
    hwnd, hhdrlen, hflag, htake, hrest, hbit]
  rw [if_neg hfirst, hdest, if_neg Bool.false_ne_true, if_neg (not_not.2 hpass), htot,
    if_neg hshort, Nat.mod_eq_of_lt (by omega), if_neg (by omega)]

end Segment

/-! ### Options -/

variable {o : Platform}

lemma decode_scale {scale : ℕ} (h : scale < 2 ^ 8) :
    decode o [1, 3, 3, UInt8.ofNat scale] =
      (none, if o.lwipWndScale then some scale else none) := by
  rw [decode_nop rfl]
  by_cases ho : o.lwipWndScale = true
  · rw [decode_wndScale rfl ho rfl, decode_nil, UInt8.toNat_ofNat_of_lt' h, if_pos ho]
  · rw [decode_other (by decide) (by decide) (by decide) (fun hand => ho hand.2), if_neg ho]
    exact decode_nil

lemma decode_optBytes {f : TcpFields} (hf : f.InRange) :
    decode o (optBytes f) = (f.mss, if o.lwipWndScale then f.wndScale else none) := by
  have hsize : ∀ {mss} (rest : Bytes), mss < 2 ^ 16 →
      decode o (2 :: 4 :: UInt8.ofNat (mss / 256) :: UInt8.ofNat mss :: rest) =
        ((decode o rest).1.or (some mss), (decode o rest).2) := by
    intro mss rest hmss
    rw [decode_mss rfl rfl, at16_wire16 hmss]
  obtain ⟨src, dest, seqno, ackno, flags, wnd, mss, wndScale⟩ := f
  cases mss with
  | none =>
    cases wndScale with
    | none => exact decode_nil.trans (by simp)
    | some scale => exact decode_scale (hf.wndScale scale rfl)
  | some mss =>
    have hmss := hf.mss mss rfl
    cases wndScale with
    | none =>
      refine (hsize [] hmss).trans ?_
      simp [decode_nil]
    | some scale =>
      refine (hsize [1, 3, 3, UInt8.ofNat scale] hmss).trans ?_
      rw [decode_scale (hf.wndScale scale rfl)]
      rfl

/-! ### The packet -/

/-- What `tcp_input` has read is what was sent. -/
structure ReadAs (o : Platform) (f : TcpFields) (data : Bytes) (seg : TcpInput) : Prop where
  src : seg.src = f.src
  dest : seg.dest = f.dest
  seqno : seg.seqno = f.seqno
  ackno : seg.ackno = f.ackno
  wnd : seg.wnd = f.wnd
  flags : seg.flags = f.flags
  tcplen : seg.tcplen = data.length + if f.flags % 4 ≠ 0 then 1 else 0
  options : decode o (TcpOptions.options seg.options) =
    (f.mss, if o.lwipWndScale then f.wndScale else none)
  data : bytes seg.p = data

lemma split_front {as bs cs ds : Bytes} (h : as ++ bs = cs ++ ds) (hle : cs.length ≤ as.length) :
    ∃ es, as = cs ++ es ∧ es ++ bs = ds := by
  have htake := congrArg (List.take cs.length) h
  have hdrop := congrArg (List.drop cs.length) h
  rw [List.take_left, List.take_append_of_le_length hle] at htake
  rw [List.drop_left, List.drop_append_of_le_length hle] at hdrop
  refine ⟨as.drop cs.length, ?_, hdrop⟩
  nth_rewrite 1 [← List.take_append_drop cs.length as]
  rw [htake]

lemma pbufAddHeader_ne_nil {p : Chain} (h : p ≠ []) (hdr : Bytes) : pbufAddHeader hdr p ≠ [] := by
  cases p with
  | nil => exact h
  | cons q rest => simp [pbufAddHeader]

/-- The packet of a segment, before `ip4_output_if` looks at its length. -/
def packetOf (f : TcpFields) (ip : IpFields) (p : Chain) : Bytes :=
  let ip := { ip with proto := ipProtoTcp }
  let len := 40 + (optBytes f).length + (bytes p).length
  let seg := pbufAddHeader (tcpHeader f 0) p
  let chksum := inetChksumPseudo seg ipProtoTcp (totLen seg) ip.src ip.dest
  ipHeader ip len (chkSum ip len) ++ (tcpHeader f chksum ++ bytes p)

lemma length_packetOf (f : TcpFields) (ip : IpFields) (p : Chain) :
    (packetOf f ip p).length = 40 + (optBytes f).length + (bytes p).length := by
  unfold packetOf
  dsimp only
  rw [List.length_append, List.length_append, length_ipHeader, length_tcpHeader]
  omega

lemma tcpOutputSegment_eq {f : TcpFields} {p : Chain} (hp : p ≠ [])
    (hlen : 40 + (optBytes f).length + (bytes p).length < 2 ^ 16) (mem : ℕ) (ip : IpFields) :
    ∃ odd data rest, bytes (⟨odd, data⟩ :: rest) = packetOf f ip p ∧ 20 ≤ data.length ∧
      tcpOutputSegment mem f ip p =
        if mtu < (packetOf f ip p).length then ip4Frag mem (⟨odd, data⟩ :: rest)
        else ([⟨odd, data⟩ :: rest], .ok) := by
  -- a packet that the interface takes whole leaves as it is, any other goes to `ip4_frag`
  have hne := pbufAddHeader_ne_nil hp
  have htot : ∀ hdr chksum, hdr.length = 20 →
      totLen (pbufAddHeader hdr (pbufAddHeader (tcpHeader f chksum) p)) =
        40 + (optBytes f).length + (bytes p).length := by
    intro hdr chksum hhdr
    rw [totLen, bytes_pbufAddHeader (hne _), bytes_pbufAddHeader hp, List.length_append,
      List.length_append, hhdr, length_tcpHeader, Nat.mod_eq_of_lt (by omega)]
    omega
  unfold tcpOutputSegment ip4OutputIf
  dsimp only
  rw [htot _ _ (length_ipHeader _ _ _), length_packetOf]
  cases p with
  | nil => exact absurd rfl hp
  | cons q rest =>
    refine ⟨_, _, _, ?_, ?_, rfl⟩
    · simp [packetOf]
    · rw [List.length_append, length_ipHeader]
      omega

/-- However the packet is cut into pbufs, as long as the headers lie in the first, and whatever lies
behind it in memory, the receiver reads what the sender has written. -/
lemma read_packet {f : TcpFields} {ip : IpFields} {p : Chain} {q : Piece} {rest : Chain}
    (hf : f.InRange) (hip : IpFields.InRange { ip with proto := ipProtoTcp })
    (hdest : (ip4AddrIsbroadcast ip.dest || ip4AddrIsmulticast ip.dest) = false) (hp : p ≠ [])
    (hlen : 40 + (optBytes f).length + (bytes p).length < 2 ^ 16)
    (hfirst : 40 + (optBytes f).length ≤ q.data.length)
    (hq : bytes (q :: rest) = packetOf f ip p) (stale stale' : Bytes) (o : Platform) :
    ∃ r seg, ip4Input stale (q :: rest) = .deliver ipProtoTcp ip.src ip.dest r ∧
      tcpInput stale' ip.src ip.dest r = some seg ∧
      ReadAs o f (bytes p) seg := by
  rw [packetOf, bytes_cons, ← List.append_assoc] at hq
  obtain ⟨data, hdata, hrest⟩ :=
    split_front hq (by rw [List.length_append, length_ipHeader, length_tcpHeader]; omega)
  obtain ⟨odd, bs⟩ := q
  obtain rfl : bs = _ := hdata
  have hshort : 20 + (optBytes f).length + (bytes p).length < 2 ^ 16 := by omega
  obtain ⟨m, odd', hin, hopts⟩ :=
    tcpInput_tcpHeader hf hdest stale' odd hrest hshort (chksum_tcpHeader odd hp hrest hshort rfl)
  refine ⟨_, _, ?_, hin, ⟨rfl, rfl, rfl, rfl, rfl, rfl, rfl, ?_, hrest⟩⟩
  · rw [List.append_assoc]
    refine ip4Input_ipHeader hip stale odd ?_ hlen
    rw [List.append_assoc, hrest, List.length_append, length_tcpHeader]
    omega
  · rw [hopts]
    exact decode_optBytes hf

/-! ### Across the tunnel -/

section Tunnel
open IpStack hiding inputPacket tcpInput
open PacketBoundary

variable {bufsize : ℕ}

/-- A chain of pool buffers as the checksum sees it. -/
def pieces (odd : PoolPbuf bufsize → Bool) (qs : List (PoolPbuf bufsize)) : Chain :=
  qs.map fun q => ⟨odd q, q.payload⟩

lemma bytes_pieces (odd : PoolPbuf bufsize → Bool) (qs : List (PoolPbuf bufsize)) :
    bytes (pieces odd qs) = (chain qs).bytes := by
  simp [bytes, pieces, chain, Pbuf.bytes, Pbuf.payloads, List.flatMap_def, Function.comp_def]

lemma pbufAlloc_head {remLen : ℕ} {pool rest : List (Element bufsize)}
    {qs : List (PoolPbuf bufsize)} (h : pbufAlloc remLen pool = some (qs, rest)) :
    ∃ q tail, qs = q :: tail ∧ q.len = min remLen (bufsize % 2 ^ 16) := by
  cases pool with
  | nil => cases h
  | cons e pool =>
    unfold pbufAlloc at h
    dsimp only at h
    split_ifs at h
    · cases h
      exact ⟨_, _, rfl, rfl⟩
    · obtain ⟨r, -, heq⟩ := Option.map_eq_some_iff.1 h
      cases heq
      exact ⟨_, _, rfl, rfl⟩

lemma inputPacket_head {h : Host o} {packet : Bytes} {pool : List (Element bufsize)} {ok : Bool}
    {qs : List (PoolPbuf bufsize)} (hin : (inputPacket h (some packet) pool ok).1 = some qs) :
    ∃ q tail, qs = q :: tail ∧ q.payload.length = min (packet.length % 2 ^ 16)
      (bufsize % 2 ^ 16) := by
  obtain ⟨buf, rest, halloc, rfl⟩ := inputPacket_some hin
  obtain ⟨q, tail, rfl, hlen⟩ := pbufAlloc_head halloc
  have hpayload : ∀ e : Element bufsize, PoolPbuf.payload { q with element := e } =
    e.memory.take q.len := fun _ => rfl
  have hle : min q.len bufsize = q.len := by
    have := Nat.mod_le bufsize (2 ^ 16)
    omega
  unfold takeLoop
  split_ifs
  · exact ⟨q, tail, rfl, by rw [hpayload q.element, List.length_take, q.element.sized, hle, hlen]⟩
  · exact ⟨_, _, rfl, by rw [hpayload, List.length_take, Element.sized, hle, hlen]⟩

/-- A packet that one stack gives to its interface comes into another as a chain with its bytes, the
first of them together. -/
lemma crosses (hb : 20 ≤ bufsize ∧ bufsize < 2 ^ 16) {h : Host o} (hrun : running h = true)
    (pool : List (Element bufsize)) (ok : Bool) (pbuf : Pbuf) (hlong : 20 ≤ pbuf.bytes.length)
    (hlen : pbuf.bytes.length < 2 ^ 16) (hroom : pbuf.bytes.length ≤ pool.length * bufsize)
    (odd : PoolPbuf bufsize → Bool) :
    ∃ q tail, outputPacket true (some pbuf) = [pbuf.bytes] ∧
      (inputPacket h (some pbuf.bytes) pool ok).1 = some (q :: tail) ∧
      bytes (pieces odd (q :: tail)) = pbuf.bytes ∧
      q.payload.length = min pbuf.bytes.length bufsize := by
  have hmod : pbuf.bytes.length % 2 ^ 16 = pbuf.bytes.length := Nat.mod_eq_of_lt hlen
  have hfits : pbuf.size < 2 ^ 16 := by
    rw [← Pbuf.length_bytes]
    exact hlen
  have htot : 20 ≤ pbuf.totLen := by
    rw [Pbuf.totLen_eq hfits, ← Pbuf.length_bytes]
    exact hlong
  obtain ⟨qs, hin⟩ : ∃ qs, (inputPacket h (some pbuf.bytes) pool ok).1 = some qs :=
    inputPacket_isSome hrun (by omega) ⟨by omega, hb.2⟩ (by omega) ok
  have hbytes := (inputPacket_chain hin).1
  rw [hmod, List.take_length, ← bytes_pieces odd] at hbytes
  obtain ⟨q, tail, rfl, hhead⟩ := inputPacket_head hin
  rw [hmod, Nat.mod_eq_of_lt hb.2] at hhead
  exact ⟨q, tail, outputPacket_eq hfits htot, hin, hbytes, hhead⟩

/-- A segment that one stack sends arrives at another: if the interface takes its packet whole it
leaves as one packet, and the pbufs in which the packet comes in are read as what was sent. -/
theorem tunnel_round_trip (hb : 48 ≤ bufsize ∧ bufsize < 2 ^ 16) {h : Host o}
    (hrun : running h = true) {pool : List (Element bufsize)} (ok : Bool) {f : TcpFields}
    {ip : IpFields} {p : Chain} (hf : f.InRange)
    (hip : IpFields.InRange { ip with proto := ipProtoTcp })
    (hdest : (ip4AddrIsbroadcast ip.dest || ip4AddrIsmulticast ip.dest) = false) (hp : p ≠ [])
    (hlen : 40 + (optBytes f).length + (bytes p).length ≤ mtu)
    (hroom : 40 + (optBytes f).length + (bytes p).length ≤ pool.length * bufsize) (mem : ℕ)
    (odd : PoolPbuf bufsize → Bool) (stale stale' : Bytes) :
    ∃ c, tcpOutputSegment mem f ip p = ([c], .ok) ∧ ∀ pbuf : Pbuf, pbuf.bytes = bytes c →
      ∃ packet qs r seg, outputPacket true (some pbuf) = [packet] ∧
        (inputPacket h (some packet) pool ok).1 = some qs ∧
        ip4Input stale (pieces odd qs) = .deliver ipProtoTcp ip.src ip.dest r ∧
        tcpInput stale' ip.src ip.dest r = some seg ∧ ReadAs o f (bytes p) seg := by
  have hopt := (length_optBytes f).2
  have hsize := length_packetOf f ip p
  have hmtu : mtu < 2 ^ 16 := by decide
  obtain ⟨first, data, rest, hbytes, -, hout⟩ :=
    tcpOutputSegment_eq hp (hlen.trans_lt hmtu) mem ip
  rw [if_neg (by omega)] at hout
  refine ⟨_, hout, ?_⟩
  intro pbuf hpbuf
  have hsent : pbuf.bytes = packetOf f ip p := hpbuf.trans hbytes
  obtain ⟨q, tail, hleave, hin, hgot, hhead⟩ :=
    crosses ⟨by omega, hb.2⟩ hrun pool ok pbuf (by rw [hsent]; omega) (by rw [hsent]; omega)
      (by rw [hsent]; omega) odd
  rw [hsent, hsize] at hhead
  obtain ⟨r, seg, hdeliver, hseg, hread⟩ :=
    read_packet (q := ⟨odd q, q.payload⟩) hf hip hdest hp (hlen.trans_lt hmtu)
      (by dsimp only; omega) (hgot.trans hsent) stale stale' o
  exact ⟨pbuf.bytes, _, r, seg, hleave, hin, hdeliver, hseg, hread⟩

/-- The answer to a SYN, with some data. -/
def synAck : TcpFields := ⟨443, 50000, 1000, 2001, 0x12, 65535, some 1460, some 2⟩

def toHost : IpFields := ⟨0, 7, 255, 0, 0x0100000A, 0x0200000A⟩

def hello : Chain := [⟨true, [1, 2, 3]⟩, ⟨false, [4]⟩]

theorem tunnel_round_trip_synAck :
    let pool : List (Element 48) := [⟨0, List.replicate 48 7, rfl⟩, ⟨1, List.replicate 48 9, rfl⟩]
    ∃ c, tcpOutputSegment 0 synAck toHost hello = ([c], .ok) ∧ ∀ pbuf : Pbuf, pbuf.bytes = bytes c →
      ∃ packet qs r seg, outputPacket true (some pbuf) = [packet] ∧
        (inputPacket (start [] (boot .macos)) (some packet) pool true).1 = some qs ∧
        ip4Input [7] (pieces (fun q => q.element.id = 1) qs) =
          .deliver ipProtoTcp toHost.src toHost.dest r ∧
        tcpInput [9] toHost.src toHost.dest r = some seg ∧ ReadAs .macos synAck [1, 2, 3, 4] seg :=
  tunnel_round_trip (f := synAck) (p := hello) (by decide) (by decide) true
    ⟨by decide, by decide, by decide, by decide, by decide, by decide⟩
    ⟨by decide, by decide, by decide, by decide⟩ (by decide) (by decide) (by decide) (by decide) 0
    _ [7] [9]

end Tunnel

end TunForge.PacketFormat
