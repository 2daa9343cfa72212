/-
  The receive path (`net/ethernet.c`, `ipv4.c`, `icmp.c`, `udp.c`, `dhcp.c`, `dns.c`, and the header of `tcp.c`).

    1. The program.  `eth_rx` gets a frame and its length.  It hands what follows its header to `ipv4_rx`, which
       checks the IPv4 header and hands the payload to `icmp_rx`, `udp_rx` or `tcp_rx`; `udp_rx` hands its own to
       `dhcp_handle_reply` or `dns_rx`, or copies it into a socket.
    2. The model.  Every handler is a `Reader` over the memory the frame stands in (byte 0 of the frame is address
       0; what stands behind the frame is arbitrary), so that each read, each copy and each range handed on is on
       record.  A pointer `data` is an address and a length is the `uint16_t` the source computes: `u16` of a
       difference that may have gone below 0.
    3. What is sent is kept as the arguments of the call that sends it, the last one first.  ARP frames are not
       followed.
-/
import Lyth.Lib.Footprint
import Lyth.Tcp

namespace Lyth.Net

open Table Footprint
open Bytes (Mem)

/-- `a - b` in `uint16_t`. -/
def sub16 (a b : Nat) : Nat := (a + 2 ^ 16 - b) % 2 ^ 16

theorem sub16_of_le {a b : Nat} (ha : a < 2 ^ 16) (h : b ≤ a) : sub16 a b = a - b := by
  unfold sub16
  omega

theorem sub16_of_lt {a b : Nat} (hb : b < 2 ^ 16) (h : a < b) : sub16 a b = 2 ^ 16 + a - b := by
  unfold sub16
  omega

/-! ## The data -/

abbrev udpMaxSockets : Nat := 16
def udpRxBufSize : Nat := 4096
def ethMtu : Nat := 1500
def routeMax : Nat := 8

/-- `netif_t`, as far as it is used here. -/
structure Netif where
  ipAddr : UInt32
  netmask : UInt32
  gateway : UInt32
  dnsServer : UInt32

/-- `udp_socket_t`; `rx` is `rx_buf` up to `rx_len`. -/
structure UdpSocket where
  used : Bool
  localPort : Nat
  remoteIp : UInt32
  remotePort : Nat
  rx : List UInt8
  rxFromIp : UInt32
  rxFromPort : Nat
  rxReady : Bool

/-- `dhcp_result_t`. -/
structure DhcpResult where
  ipAddr : UInt32
  netmask : UInt32
  gateway : UInt32
  dnsServer : UInt32
  leaseTime : UInt32
  ok : Bool

/-- `dhcp_state`. -/
inductive DhcpState
  | idle
  | discoverSent
  | requestSent
  | done
deriving DecidableEq

/-- `route_entry_t` of the one interface. -/
structure RouteEntry where
  network : UInt32
  netmask : UInt32
  gateway : UInt32

/-- The calls by which a handler answers. -/
inductive Out
  | ipv4Send (dstIp : UInt32) (protocol : Nat) (payload : List UInt8)
  | replyCallback (srcIp : UInt32) (id seq dataLen : Nat)
  | dhcpRequest (offeredIp serverIp : UInt32)

/-- The interface and the static variables of the handlers. -/
structure State where
  iface : Netif
  replyCallback : Bool
  udp : Fin udpMaxSockets → UdpSocket
  tcp : Tcp.State
  dhcpXid : Nat
  dhcpState : DhcpState
  lastResult : DhcpResult
  pendingId : Nat
  pendingResult : UInt32
  pendingDone : Bool
  dnsServerIp : UInt32
  routes : List RouteEntry
  out : List Out

def State.emit (net : State) (o : Out) : State := { net with out := o :: net.out }

/-! ## `ipv4_checksum` -/

/-- The sum of the 16-bit words of a little-endian machine; a last odd byte counts as it is. -/
def sumWords : List UInt8 → Nat
  | [] => 0
  | [b] => b.toNat
  | b :: c :: rest => b.toNat + 256 * c.toNat + sumWords rest

/-- `while (sum >> 16) sum = (sum & 0xFFFF) + (sum >> 16);` a 32-bit sum takes two rounds at most. -/
def foldCarries : Nat → Nat → Nat
  | 0, sum => sum
  | rounds + 1, sum => if sum / 2 ^ 16 = 0 then sum else foldCarries rounds (sum % 2 ^ 16 + sum / 2 ^ 16)

/-- `ipv4_checksum(data, len)`. -/
def ipv4Checksum (data : List UInt8) : UInt16 := ~~~(UInt16.ofNat (foldCarries 3 (sumWords data)))

/-! ## ICMP -/

/-- The echo request with its type and checksum replaced. -/
def echoReply (request : List UInt8) : List UInt8 :=
  let reply := ((request.set 0 0).set 2 0).set 3 0
  let checksum := (ipv4Checksum reply).toNat
  (reply.set 2 (UInt8.ofNat checksum)).set 3 (UInt8.ofNat (checksum / 256))

/-- `icmp_rx(iface, src_ip, data, len)`. -/
def icmpRx (net : State) (srcIp : UInt32) (data len : Nat) : Reader State :=
  if len < 8 then pure net
  else do
    let type ← byte data
    if type = 8 then
      if len > ethMtu - 20 then pure net
      else do
        let request ← copy data len
        pure (net.emit (.ipv4Send srcIp 1 (echoReply request)))
    else if type = 0 then
      if net.replyCallback then do
        let id ← be16 (data + 4)
        let seq ← be16 (data + 6)
        pure (net.emit (.replyCallback srcIp id seq (sub16 len 8)))
      else pure net
    else pure net

/-! ## DHCP -/

/-- What the loop over the options collects. -/
structure DhcpOptions where
  msgType : UInt8 := 0
  subnetMask : UInt32 := 0
  router : UInt32 := 0
  dns : UInt32 := 0
  lease : UInt32 := 0

/-- `if (olen >= 4) memcpy(&…, oval, 4);` -/
def wordOption (oval olen : Nat) (o : DhcpOptions) (set : UInt32 → DhcpOptions) : Reader DhcpOptions :=
  if 4 ≤ olen then do
    let v ← word oval
    pure (set v)
  else pure o

/-- The `switch (code)` on one option. -/
def dhcpOption (oval olen : Nat) (code : UInt8) (o : DhcpOptions) : Reader DhcpOptions :=
  if code = 53 then do
    let b ← byte oval
    pure { o with msgType := b }
  else if code = 1 then wordOption oval olen o fun v => { o with subnetMask := v }
  else if code = 3 then wordOption oval olen o fun v => { o with router := v }
  else if code = 6 then wordOption oval olen o fun v => { o with dns := v }
  else if code = 51 then wordOption oval olen o fun v => { o with lease := v }
  else pure o

/-- The loop over the options, from index `i` on.  Each round moves `i`, so `maxOpts` rounds are enough. -/
def dhcpOptions (opts maxOpts : Nat) : Nat → Nat → DhcpOptions → Reader DhcpOptions
  | 0, _, o => pure o
  | rounds + 1, i, o =>
    if i < maxOpts then do
      let code ← byte (opts + i)
      if code = 255 then pure o
      else if code = 0 then dhcpOptions opts maxOpts rounds (i + 1) o
      else do
        let olen ← byte (opts + i + 1)
        let o ← dhcpOption (opts + i + 2) olen.toNat code o
        dhcpOptions opts maxOpts rounds (i + 2 + olen.toNat) o
    else pure o

/-- `route_add(network, netmask, gateway, iface)`, for entries of any type. -/
def routeAdd {α : Type} (routes : List α) (r : α) : List α :=
  if routes.length ≥ routeMax then routes else routes ++ [r]

/-- `ntohl` of a word read from memory. -/
def ntohl (v : UInt32) : UInt32 :=
  (v <<< 24) ||| ((v &&& (0xFF00 : UInt32)) <<< 8) ||| ((v >>> 8) &&& (0xFF00 : UInt32)) ||| (v >>> 24)

/-- What an offer or an acknowledgement does. -/
def dhcpApply (net : State) (offeredIp serverIp : UInt32) (o : DhcpOptions) : State :=
  if o.msgType = 2 ∧ net.dhcpState = .discoverSent then
    { net with dhcpState := .requestSent, out := .dhcpRequest offeredIp serverIp :: net.out }
  else if o.msgType = 5 ∧ net.dhcpState = .requestSent then
    let routes := if o.router ≠ 0 then routeAdd net.routes ⟨0, 0, o.router⟩ else net.routes
    { net with
      lastResult := ⟨offeredIp, o.subnetMask, o.router, o.dns, ntohl o.lease, true⟩
      dhcpState := .done
      iface := ⟨offeredIp, o.subnetMask, o.router, o.dns⟩
      routes := routeAdd routes ⟨offeredIp &&& o.subnetMask, o.subnetMask, 0⟩
      dnsServerIp := o.dns }
  else net

/-- The size of `dhcp_packet_t` without its options. -/
def dhcpFixedLen : Nat := 240

/-- `max_opts`. -/
def dhcpMaxOpts (len : Nat) : Nat := if len - dhcpFixedLen > 312 then 312 else len - dhcpFixedLen

/-- `dhcp_handle_reply(iface, data, len)`. -/
def dhcpHandleReply (net : State) (data len : Nat) : Reader State :=
  if len < dhcpFixedLen then pure net
  else do
    let op ← byte data
    if op ≠ 2 then pure net
    else do
      let xid ← be32 (data + 4)
      if xid ≠ net.dhcpXid then pure net
      else do
        let offeredIp ← word (data + 16)
        let serverIp ← word (data + 20)
        let o ← dhcpOptions (data + dhcpFixedLen) (dhcpMaxOpts len) (dhcpMaxOpts len) 0 {}
        pure (dhcpApply net offeredIp serverIp o)

/-! ## DNS -/

/-- `dns_skip_name(data, pos, max)`.  Each round moves `pos`, so `max` rounds are enough. -/
def dnsSkipName (data max : Nat) : Nat → Nat → Reader Nat
  | 0, _ => pure max
  | rounds + 1, pos =>
    if pos < max then do
      let label ← byte (data + pos)
      if label = 0 then pure (pos + 1)
      else if label &&& 0xC0 = 0xC0 then pure (pos + 2)
      else dnsSkipName data max rounds (pos + (1 + label.toNat))
    else pure max

/-- The loop over the questions. -/
def dnsSkipQuestions (data len : Nat) : Nat → Nat → Reader Nat
  | 0, pos => pure pos
  | q + 1, pos => do
    let pos ← dnsSkipName data len len pos
    dnsSkipQuestions data len q (pos + 4)

/-- The loop over the answers: the address of the first A record. -/
def dnsAnswers (data len : Nat) : Nat → Nat → Reader (Option UInt32)
  | 0, _ => pure none
  | a + 1, pos =>
    if pos < len then do
      let pos ← dnsSkipName data len len pos
      if pos + 10 > len then pure none
      else do
        let rtype ← be16 (data + pos)
        let rdlen ← be16 (data + pos + 8)
        if rtype = 1 ∧ rdlen = 4 ∧ pos + 10 + 4 ≤ len then do
          let ip ← word (data + pos + 10)
          pure (some ip)
        else dnsAnswers data len a (pos + 10 + rdlen)
    else pure none

/-- `dns_rx(data, len)`. -/
def dnsRx (net : State) (data len : Nat) : Reader State :=
  if len < 12 then pure net
  else do
    let id ← be16 data
    if id ≠ net.pendingId then pure net
    else do
      let flags ← be16 (data + 2)
      if flags / 2 ^ 15 = 0 then pure net
      else do
        let ancount ← be16 (data + 6)
        let qdcount ← be16 (data + 4)
        let pos ← dnsSkipQuestions data len qdcount 12
        let answer ← dnsAnswers data len ancount pos
        match answer with
        | none => pure net
        | some ip => pure { net with pendingResult := ip, pendingDone := true }

/-! ## UDP -/

/-- The loop over the sockets. -/
def udpFind (net : State) (srcIp : UInt32) (srcPort dstPort : Nat) : Option (Fin udpMaxSockets) :=
  firstIdx fun i =>
    (net.udp i).used && decide ((net.udp i).localPort = dstPort) &&
      (decide ((net.udp i).remoteIp = 0) || decide ((net.udp i).remoteIp = srcIp)) &&
      (decide ((net.udp i).remotePort = 0) || decide ((net.udp i).remotePort = srcPort))

/-- `copy_len`. -/
def udpCopyLen (payloadLen : Nat) : Nat := if payloadLen > udpRxBufSize then udpRxBufSize else payloadLen

/-- A datagram for a bound socket, if there is one. -/
def udpDeliver (net : State) (srcIp : UInt32) (srcPort dstPort payload payloadLen : Nat) : Reader State :=
  match udpFind net srcIp srcPort dstPort with
  | none => pure net
  | some i => do
    let rx ← copy payload (udpCopyLen payloadLen)
    let sk := { net.udp i with rx, rxFromIp := srcIp, rxFromPort := srcPort, rxReady := true }
    pure { net with udp := Function.update net.udp i sk }

/-- `udp_rx(iface, src_ip, dst_ip, data, len)`. -/
def udpRx (net : State) (srcIp : UInt32) (data len : Nat) : Reader State :=
  if len < 8 then pure net
  else do
    let srcPort ← be16 data
    let dstPort ← be16 (data + 2)
    let udpLen ← be16 (data + 4)
    if dstPort = 68 then do
      lend (data + 8) (sub16 udpLen 8)
      dhcpHandleReply net (data + 8) (sub16 udpLen 8)
    else if srcPort = 53 then do
      lend (data + 8) (sub16 udpLen 8)
      dnsRx net (data + 8) (sub16 udpLen 8)
    else udpDeliver net srcIp srcPort dstPort (data + 8) (sub16 udpLen 8)

/-! ## TCP -/

/-- The flags in the byte of the header. -/
def tcpFlags (b : UInt8) : Tcp.Flags where
  fin := b.toNat.testBit 0
  syn := b.toNat.testBit 1
  rst := b.toNat.testBit 2
  psh := b.toNat.testBit 3
  ack := b.toNat.testBit 4

/-- `data_off`. -/
def tcpDataOff (b : UInt8) : Nat := b.toNat / 16 * 4

/-- How many bytes of the payload `tcp_rx` copies: none but for the next data of an open connection. -/
def tcpCopied (s : Tcp.State) (srcIp : Nat) (seg : Tcp.Segment) : Nat :=
  match Tcp.findSocket s srcIp seg with
  | none => 0
  | some i =>
    if (s.sockets i).state = .established ∧ seg.flags.fin = false ∧ seg.payloadLen > 0 ∧
        seg.seq = (s.sockets i).rcvNxt then
      Tcp.copyLen (s.sockets i) seg
    else 0

/-- `tcp_rx(iface, src_ip, dst_ip, data, len)`. -/
def tcpRx (net : State) (srcIp : UInt32) (data len now : Nat) : Reader State :=
  if len < 20 then pure net
  else do
    let srcPort ← be16 data
    let dstPort ← be16 (data + 2)
    let seq ← be32 (data + 4)
    let ack ← be32 (data + 8)
    let flags ← byte (data + 13)
    let off ← byte (data + 12)
    let seg := fun payload : List UInt8 =>
      ({ srcPort, dstPort, seq, ack, flags := tcpFlags flags,
         payloadLen := sub16 len (tcpDataOff off), payload := fun i => payload.getD i 0 } : Tcp.Segment)
    let payload ← copy (data + tcpDataOff off) (tcpCopied net.tcp srcIp.toNat (seg []))
    pure { net with tcp := Tcp.tcpRx net.tcp srcIp.toNat (seg payload) now }

/-! ## IPv4 and Ethernet -/

/-- `dst` is the address of the interface or a broadcast. -/
def forUs (iface : Netif) (dst : UInt32) : Bool :=
  decide (dst = iface.ipAddr) || decide (dst = 0xFFFFFFFF) ||
    decide (dst &&& ~~~iface.netmask = ~~~iface.netmask)

/-- `version` and `ihl` in the first byte of the header. -/
def ipVersion (b : UInt8) : Nat := b.toNat / 16
def ipIhl (b : UInt8) : Nat := b.toNat % 16 * 4

/-- The `switch (hdr->protocol)` of `ipv4_rx`. -/
def ipv4Deliver (net : State) (protocol : UInt8) (srcIp : UInt32) (payload payloadLen now : Nat) : Reader State :=
  if protocol = 1 then do
    lend payload payloadLen
    icmpRx net srcIp payload payloadLen
  else if protocol = 17 then do
    lend payload payloadLen
    udpRx net srcIp payload payloadLen
  else if protocol = 6 then do
    lend payload payloadLen
    tcpRx net srcIp payload payloadLen now
  else pure net

/-- `ipv4_rx(iface, data, len)`. -/
def ipv4Rx (net : State) (data len now : Nat) : Reader State :=
  if len < 20 then pure net
  else do
    let versionIhl ← byte data
    if ipVersion versionIhl ≠ 4 ∨ ipIhl versionIhl < 20 then pure net
    else do
      let totalLen ← be16 (data + 2)
      if totalLen > len then pure net
      else do
        let header ← copy data (ipIhl versionIhl)
        if ipv4Checksum header ≠ 0 then pure net
        else do
          let dst ← word (data + 16)
          if forUs net.iface dst = false then pure net
          else do
            let protocol ← byte (data + 9)
            let srcIp ← word (data + 12)
            ipv4Deliver net protocol srcIp (data + ipIhl versionIhl) (sub16 totalLen (ipIhl versionIhl)) now

/-- `eth_rx(iface, frame, len)`, the frame at address 0. -/
def ethRx (net : State) (len : UInt16) (now : Nat) : Reader State :=
  if len.toNat < 14 then pure net
  else do
    let ethertype ← be16 12
    if ethertype = 0x0800 then do
      lend 14 (len.toNat - 14)
      ipv4Rx net 14 (len.toNat - 14) now
    else pure net

/-! ## The loops end -/

/-- A round more than the options left does nothing. -/
theorem dhcpOptions_rounds (opts maxOpts : Nat) {rounds i : Nat} (o : DhcpOptions) (h : maxOpts - i ≤ rounds) :
    dhcpOptions opts maxOpts (rounds + 1) i o = dhcpOptions opts maxOpts rounds i o := by
  induction rounds generalizing i o with
  | zero => rw [dhcpOptions, dhcpOptions, if_neg (by omega)]
  | succ r ih =>
    rw [dhcpOptions]
    conv_rhs => rw [dhcpOptions]
    by_cases hi : i < maxOpts
    · have hpad : dhcpOptions opts maxOpts (r + 1) (i + 1) o = dhcpOptions opts maxOpts r (i + 1) o :=
        ih o (by omega)
      have hnext : ∀ (olen : UInt8) (o' : DhcpOptions), dhcpOptions opts maxOpts (r + 1) (i + 2 + olen.toNat) o'
          = dhcpOptions opts maxOpts r (i + 2 + olen.toNat) o' := fun olen o' => ih o' (by omega)
      simp only [hpad, hnext]
    · rw [if_neg hi, if_neg hi]

/-- A round more than the bytes left does nothing. -/
theorem dnsSkipName_rounds (data max : Nat) {rounds pos : Nat} (h : max - pos ≤ rounds) :
    dnsSkipName data max (rounds + 1) pos = dnsSkipName data max rounds pos := by
  induction rounds generalizing pos with
  | zero => rw [dnsSkipName, dnsSkipName, if_neg (by omega)]
  | succ r ih =>
    rw [dnsSkipName]
    conv_rhs => rw [dnsSkipName]
    by_cases hpos : pos < max
    · have hnext : ∀ label : UInt8, dnsSkipName data max (r + 1) (pos + (1 + label.toNat))
          = dnsSkipName data max r (pos + (1 + label.toNat)) := fun label => ih (by omega)
      simp only [hnext]
    · rw [if_neg hpos, if_neg hpos]

end Lyth.Net
