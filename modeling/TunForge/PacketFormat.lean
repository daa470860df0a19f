import TunForge.Checksum
import TunForge.TcpOptions

/-! Packets as byte strings: the headers that `tcp_output_segment`, `tcp_output_control_segment` and
`ip4_output_if` write, the fragments that `ip4_frag` makes of a large packet, and how `ip4_input`
and `tcp_input` read them. The machine stores words low byte first; a chain is a list of pieces of
memory. -/
namespace TunForge.PacketFormat
open SerialNumber LwipTypes PbufChain OnesComplement Checksum TcpOptions

abbrev Chain := List Piece

def ipHlen : ℕ := 20

def tcpHlen : ℕ := 20

def ipProtoTcp : ℕ := 6

def ipMf : ℕ := 0x2000

/-- `mtu` of the interface, `TUNFORGE_NETIF_IPV4_MTU`. -/
def mtu : ℕ := 1500

/-- `tot_len` of a chain. -/
def totLen (p : Chain) : ℕ := (bytes p).length % 2 ^ 16

/-- `len` of the first pbuf. -/
def firstLen (p : Chain) : ℕ := (p.head?.map fun q => q.data.length).getD 0

/-! ### Chains -/

/-- `pbuf_add_header` in a pbuf with room for it, and what is then written there. -/
def pbufAddHeader (hdr : Bytes) : Chain → Chain
  | [] => []
  | q :: rest => ⟨q.odd != (hdr.length % 2 = 1), hdr ++ q.data⟩ :: rest

/-- `pbuf_remove_header`. -/
def pbufRemoveHeader (n : ℕ) : Chain → Chain
  | [] => []
  | q :: rest => ⟨q.odd != (n % 2 = 1), q.data.drop n⟩ :: rest

/-- The loop of `pbuf_realloc`. -/
def cut : ℕ → Chain → Chain
  | _, [] => []
  | n, q :: rest =>
    if q.data.length < n then q :: cut (n - q.data.length) rest
    else [{ q with data := q.data.take n }]

/-- `pbuf_realloc`. -/
def pbufRealloc (p : Chain) (newLen : ℕ) : Chain := if totLen p ≤ newLen then p else cut newLen p

/-! ### Output -/

/-- A 32-bit number as it goes over the wire. -/
def wire32 (n : Seq) : Bytes :=
  [UInt8.ofNat (n.toNat / 2 ^ 24), UInt8.ofNat (n.toNat / 2 ^ 16), UInt8.ofNat (n.toNat / 2 ^ 8),
    UInt8.ofNat n.toNat]

/-- What a TCP header says. -/
structure TcpFields where
  src : ℕ
  dest : ℕ
  seqno : Seq
  ackno : Seq
  flags : ℕ
  wnd : ℕ
  mss : Option ℕ
  wndScale : Option ℕ
  deriving DecidableEq

/-- `TCP_BUILD_MSS_OPTION` and `tcp_build_wnd_scale_option`, which puts a NOP in front. -/
def optBytes (f : TcpFields) : Bytes :=
  (match f.mss with
  | none => []
  | some mss => [2, 4] ++ wire16 mss) ++
  match f.wndScale with
  | none => []
  | some scale => [1, 3, 3, UInt8.ofNat scale]

/-- A TCP header with a given checksum. -/
def tcpHeader (f : TcpFields) (chksum : ℕ) : Bytes :=
  wire16 f.src ++ wire16 f.dest ++ wire32 f.seqno ++ wire32 f.ackno ++ wire16
    ((5 + (optBytes f).length / 4) * 2 ^ 12 + f.flags) ++
    wire16 f.wnd ++ stored chksum ++ wire16 0 ++ optBytes f

/-- What an IP header says beside its length. -/
structure IpFields where
  tos : ℕ
  ipId : ℕ
  ttl : ℕ
  proto : ℕ
  src : BitVec 32
  dest : BitVec 32
  deriving DecidableEq

/-- An IP header with a given checksum. -/
def ipHeader (f : IpFields) (len chksum : ℕ) : Bytes :=
  [0x45, UInt8.ofNat f.tos] ++ wire16 len ++ wire16 f.ipId ++ [0, 0] ++
    [UInt8.ofNat f.ttl, UInt8.ofNat f.proto] ++ stored chksum ++
    addrBytes f.src ++ addrBytes f.dest

/-- The checksum that `ip4_output_if` adds up while it writes the header. -/
def chkSum (f : IpFields) (len : ℕ) : ℕ :=
  let chkSum := swap (f.proto + f.ttl * 2 ^ 8)
  let chkSum := chkSum + f.dest.toNat % 2 ^ 16
  let chkSum := chkSum + f.dest.toNat / 2 ^ 16
  let chkSum := chkSum + swap (f.tos + 0x45 * 2 ^ 8)
  let chkSum := chkSum + swap len
  let chkSum := chkSum + swap f.ipId
  let chkSum := chkSum + f.src.toNat % 2 ^ 16
  let chkSum := chkSum + f.src.toNat / 2 ^ 16
  let chkSum := chkSum / 2 ^ 16 + chkSum % 2 ^ 16
  -- this fold does not cut the sum; the inversion does
  let chkSum := chkSum / 2 ^ 16 + chkSum
  (2 ^ 32 - 1 - chkSum) % 2 ^ 16

/-- The bytes of a header overwritten from `i` on. -/
def overwrite (hdr : Bytes) (i : ℕ) (bs : Bytes) : Bytes :=
  hdr.take i ++ bs ++ hdr.drop (i + bs.length)

/-- The inner loop of `ip4_frag`: references to the next `leftToCopy` bytes of a chain, and the
chain behind them. An empty pbuf is passed over. -/
def mirror : ℕ → Chain → Chain × Chain
  | _, [] => ([], [])
  | leftToCopy, q :: rest =>
    if q.data.length < leftToCopy then
      let (front, back) := mirror (leftToCopy - q.data.length) rest
      (if q.data.length = 0 then front else q :: front, back)
    else ([{ q with data := q.data.take leftToCopy }], pbufRemoveHeader leftToCopy (q :: rest))

/-- The header of a fragment: a copy of the original with offset, length and checksum of its own. -/
def fragHeader (original : Bytes) (tmp fragsize : ℕ) : Bytes :=
  let iphdr := overwrite original 6 (wire16 tmp)
  let iphdr := overwrite iphdr 2 (wire16 (fragsize + ipHlen))
  let iphdr := overwrite iphdr 10 [0, 0]
  overwrite iphdr 10 (stored (inetChksum false iphdr))

/-- The number of eight-byte blocks in a fragment. -/
def nfb : ℕ := (mtu - ipHlen) / 8

/-- The loop of `ip4_frag`, with memory for `mem` more fragments. -/
def fragLoop (original : Bytes) (mfSet : Bool) : ℕ → ℕ → ℕ → Chain → List Chain × Err
  | mem, left, ofo, p =>
    if left = 0 then ([], .ok)
    else
      match mem with
      | 0 => ([], .mem)
      | mem + 1 =>
        let fragsize := min left (nfb * 8)
        let (data, p) := mirror fragsize p
        let last := left ≤ mtu - ipHlen
        let tmp := ofo % 2 ^ 13 + if ¬last ∨ mfSet then ipMf else 0
        let rambuf := ⟨false, fragHeader original tmp fragsize⟩ :: data
        let (frags, err) := fragLoop original mfSet mem (left - fragsize) ((ofo + nfb) % 2 ^ 16) p
        (rambuf :: frags, err)

/-- The byte at an offset in memory. -/
def at8 (mem : Bytes) (i : ℕ) : ℕ := (mem.getD i 0).toNat

def at16 (mem : Bytes) (i : ℕ) : ℕ := at8 mem i * 256 + at8 mem (i + 1)

/-- `ip4_frag`: the packets it gives to `netif->output`, whose result it does not look at. -/
def ip4Frag (mem : ℕ) (p : Chain) : List Chain × Err :=
  let iphdr := (p.head?.map Piece.data).getD []
  if at8 iphdr 0 % 16 * 4 ≠ ipHlen then ([], .val)
  else if firstLen p < ipHlen then ([], .val)
  else
    let tmp := at16 iphdr 6
    fragLoop (iphdr.take ipHlen) (tmp / 2 ^ 13 % 2 = 1) mem (totLen p - ipHlen) (tmp % 2 ^ 13)
      (pbufRemoveHeader ipHlen p)

/-- `ip4_output_if`: the packets for `netif->output`, which always returns `ERR_OK`. -/
def ip4OutputIf (mem : ℕ) (f : IpFields) (p : Chain) : List Chain × Err :=
  let len := totLen (pbufAddHeader (ipHeader f 0 0) p)
  let p := pbufAddHeader (ipHeader f len (chkSum f len)) p
  if mtu < len then ip4Frag mem p else ([p], .ok)

/-- `tcp_output_segment` and `tcp_output_control_segment`: the header in front of the data `p`, its
checksum, and `ip4_output_if`. -/
def tcpOutputSegment (mem : ℕ) (f : TcpFields) (ip : IpFields) (p : Chain) : List Chain × Err :=
  let seg := pbufAddHeader (tcpHeader f 0) p
  let chksum := inetChksumPseudo seg ipProtoTcp (totLen seg) ip.src ip.dest
  ip4OutputIf mem { ip with proto := ipProtoTcp } (pbufAddHeader (tcpHeader f chksum) p)

/-! ### Input -/

def at32 (mem : Bytes) (i : ℕ) : Seq :=
  BitVec.ofNat 32 (at8 mem i * 2 ^ 24 + at8 mem (i + 1) * 2 ^ 16 + at8 mem (i + 2) * 2 ^ 8 + at8 mem
    (i + 3))

def addrAt (mem : Bytes) (i : ℕ) : BitVec 32 :=
  BitVec.ofNat 32 (at8 mem i + at8 mem (i + 1) * 2 ^ 8 + at8 mem (i + 2) * 2 ^ 16 + at8 mem
    (i + 3) * 2 ^ 24)

/-- `ip4_addr_isbroadcast` for an interface without `NETIF_FLAG_BROADCAST`. -/
def ip4AddrIsbroadcast (addr : BitVec 32) : Bool := addr = 0 || ~~~addr = 0

def ip4AddrIsmulticast (addr : BitVec 32) : Bool := addr.toNat % 256 / 16 = 0xE

/-- What `ip4_input` does with a packet. -/
inductive Ip4Result
  | dropped
  /-- To `ip4_reass`. -/
  | fragment (p : Chain)
  /-- To the protocol, without the IP header. -/
  | deliver (proto : ℕ) (src dest : BitVec 32) (p : Chain)

/-- `ip4_input`. The header is read before the length of the packet is looked at; `stale` is what
lies behind a packet that is too short. -/
def ip4Input (stale : Bytes) (p : Chain) : Ip4Result :=
  let iphdr := (p.head?.map Piece.data).getD [] ++ stale
  if at8 iphdr 0 / 16 ≠ 4 then .dropped
  else
    let hlen := at8 iphdr 0 % 16 * 4
    let len := at16 iphdr 2
    let p := if len < totLen p then pbufRealloc p len else p
    if firstLen p < hlen ∨ totLen p < len ∨ hlen < ipHlen then .dropped
    else if inetChksum ((p.head?.map Piece.odd).getD false) (iphdr.take hlen) ≠ 0 then .dropped
    else
      let dest := addrAt iphdr 16
      let src := addrAt iphdr 12
      if ip4AddrIsbroadcast src || ip4AddrIsmulticast src then .dropped
      else if at16 iphdr 6 % 2 ^ 14 ≠ 0 then .fragment p
      else .deliver (at8 iphdr 9) src dest (pbufRemoveHeader hlen p)

/-- A segment as `tcp_input` has read it: the globals, and where the options lie. -/
structure TcpInput where
  src : ℕ
  dest : ℕ
  seqno : Seq
  ackno : Seq
  wnd : ℕ
  flags : ℕ
  tcplen : ℕ
  options : OptMemory
  p : Chain

/-- The options of a header of `hdrlen` bytes and the chain behind them. They may go on in the
second pbuf, but not in a third. `stale` is what lies behind the pbufs in memory. -/
def takeOptions (stale : Bytes) (hdrlen : ℕ) : Chain → Option (OptMemory × Chain)
  | [] => none
  | q :: rest =>
    let opts := fun i => (q.data.drop tcpHlen ++ stale).getD i 0
    if hdrlen ≤ q.data.length then
      some (⟨hdrlen - tcpHlen, hdrlen - tcpHlen, opts, none⟩, pbufRemoveHeader hdrlen (q :: rest))
    else
      match rest with
      | [] => none
      | next :: rest =>
        let opt1len := q.data.length - tcpHlen
        let opt2len := hdrlen - tcpHlen - opt1len
        if next.data.length < opt2len then none
        else
          some (⟨hdrlen - tcpHlen, opt1len, opts, some fun i => (next.data ++ stale).getD i 0⟩,
            ⟨q.odd != (q.data.length % 2 = 1), []⟩ :: pbufRemoveHeader opt2len (next :: rest))

/-- `tcp_input` up to the search for a pcb. There is no result if the segment is dropped. -/
def tcpInput (stale : Bytes) (src dest : BitVec 32) (p : Chain) : Option TcpInput :=
  let tcphdr := (p.head?.map Piece.data).getD []
  if firstLen p < tcpHlen then none
  else if ip4AddrIsbroadcast dest || ip4AddrIsmulticast dest then none
  else if inetChksumPseudo p ipProtoTcp (totLen p) src dest ≠ 0 then none
  else
    let hdrlen := at16 tcphdr 12 / 2 ^ 12 * 4
    if hdrlen < tcpHlen ∨ totLen p < hdrlen then none
    else
      match takeOptions stale hdrlen p with
      | none => none
      | some (options, p) =>
        let flags := at16 tcphdr 12 % 64
        let tcplen := (totLen p + if flags % 4 ≠ 0 then 1 else 0) % 2 ^ 16
        if tcplen < totLen p then none
        else some ⟨at16 tcphdr 0, at16 tcphdr 2, at32 tcphdr 4, at32 tcphdr 8, at16 tcphdr 14,
          flags, tcplen, options, p⟩

end TunForge.PacketFormat
