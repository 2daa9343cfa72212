/-
  Receive-path bounds: what a frame can make the handlers read.

    1. The program is `ethRx` with everything below it (`Lyth.Net`): five parsers, each of which trusts a length
       field of the packet.
    2. Specification.  Every byte read or copied has an index below the length of the frame, and no handler is
       handed more bytes than remain in the frame.
    3. Crux.  Lengths only shrink on the way down as long as no subtraction goes below 0 and no inner length field
       exceeds the outer one, and nobody checks that: the IPv4 header length is not compared with the frame nor
       with the total length, the UDP length not with the IPv4 payload, the TCP data offset not with the segment,
       and the value of a DHCP option not with the end of the packet.  ICMP and DNS are safe for every length they
       are handed in good faith.  `WellFormed` is what those missing checks would have checked, and
       `eth_rx_in_frame_iff` says that it is exactly what is missing.
-/
import Lyth.Net

namespace Lyth.Net

open Table Footprint
open Bytes (Mem)

variable {net : State} {srcIp : UInt32} {m : Mem} {data len size now : Nat}

/-! ## ICMP and DNS stay in the bytes they are handed -/

section

variable (h : len ≤ size - data)
include h

theorem fits_icmpRx : Fits size m (icmpRx net srcIp data len) := by
  unfold icmpRx
  simp only [fits_ite, fits_pure, fits_bind, fits_byte, fits_be16, fits_copy]
  refine ⟨fun _ => trivial, fun hlen => ⟨by omega, fun _ => ?_, fun _ => ?_⟩⟩
  · exact ⟨fun _ => trivial, fun _ => ⟨h, trivial⟩⟩
  · exact ⟨fun _ => ⟨fun _ => ⟨by omega, by omega, trivial⟩, fun _ => trivial⟩, fun _ => trivial⟩

theorem fits_dnsSkipName (rounds pos : Nat) : Fits size m (dnsSkipName data len rounds pos) := by
  induction rounds generalizing pos with
  | zero => exact (fits_pure _).mpr trivial
  | succ r ih =>
    rw [dnsSkipName]
    simp only [fits_ite, fits_pure, fits_bind, fits_byte]
    exact ⟨fun hpos => ⟨by omega, fun _ => trivial, fun _ => ⟨fun _ => trivial, fun _ => ih _⟩⟩,
      fun _ => trivial⟩

theorem fits_dnsSkipQuestions (q pos : Nat) : Fits size m (dnsSkipQuestions data len q pos) := by
  induction q generalizing pos with
  | zero => exact (fits_pure _).mpr trivial
  | succ q ih =>
    exact (fits_bind _ _).mpr ⟨fits_dnsSkipName h _ _, ih _⟩

theorem fits_dnsAnswers (a pos : Nat) : Fits size m (dnsAnswers data len a pos) := by
  induction a generalizing pos with
  | zero => exact (fits_pure _).mpr trivial
  | succ a ih =>
    rw [dnsAnswers]
    simp only [fits_ite, fits_pure, fits_bind, fits_be16, fits_word]
    refine ⟨fun _ => ⟨fits_dnsSkipName h _ _, fun _ => trivial, fun hrecord => ?_⟩, fun _ => trivial⟩
    -- The record header is inside by the check on `pos + 10`, the address by the check on `pos + 4`.
    exact ⟨by omega, by omega, fun haddr => ⟨by omega, trivial⟩, fun _ => ih _⟩

theorem fits_dnsRx : Fits size m (dnsRx net data len) := by
  unfold dnsRx
  simp only [fits_ite, fits_pure, fits_bind, fits_be16]
  refine ⟨fun _ => trivial, fun hlen => ⟨by omega, fun _ => trivial, fun _ => ⟨by omega, fun _ => trivial,
    fun _ => ⟨by omega, by omega, fits_dnsSkipQuestions h _ _, fits_dnsAnswers h _ _, ?_⟩⟩⟩⟩
  split
  · exact (fits_pure _).mpr trivial
  · exact (fits_pure _).mpr trivial

end

/-! ## The options of a DHCP reply -/

/-- An option that is neither padding nor the end stands at index `j` of the list, walked from index `i`. -/
inductive OptionAt (m : Mem) (opts maxOpts : Nat) : Nat → Nat → Prop
  | here {i : Nat} : i < maxOpts → m (opts + i) ≠ 255 → m (opts + i) ≠ 0 → OptionAt m opts maxOpts i i
  | pad {i j : Nat} : i < maxOpts → m (opts + i) = 0 → OptionAt m opts maxOpts (i + 1) j →
      OptionAt m opts maxOpts i j
  | next {i j : Nat} : i < maxOpts → m (opts + i) ≠ 255 → m (opts + i) ≠ 0 →
      OptionAt m opts maxOpts (i + 2 + (m (opts + i + 1)).toNat) j → OptionAt m opts maxOpts i j

/-- The option at address `a` has its length byte in the frame, and as much of its value as is used. -/
structure OptionInside (m : Mem) (size a : Nat) : Prop where
  length : a + 2 ≤ size
  msgType : m a = 53 → a + 3 ≤ size
  value : m a = 1 ∨ m a = 3 ∨ m a = 6 ∨ m a = 51 → 4 ≤ (m (a + 1)).toNat → a + 6 ≤ size

theorem fits_wordOption {oval olen : Nat} {o : DhcpOptions} {set : UInt32 → DhcpOptions} :
    Fits size m (wordOption oval olen o set) ↔ (4 ≤ olen → 4 ≤ size - oval) := by
  unfold wordOption
  simp

/-- One option reads its length byte and its value. -/
theorem fits_option {a : Nat} {o : DhcpOptions} :
    (Fits size m (byte (a + 1)) ∧ Fits size m (dhcpOption (a + 2) (m (a + 1)).toNat (m a) o)) ↔
      OptionInside m size a := by
  have hroom : ∀ n, 0 < n → (n ≤ size - (a + 2) ↔ a + 2 + n ≤ size) := fun n hn => by omega
  have hdistinct : m a = 53 → ¬(m a = 1 ∨ m a = 3 ∨ m a = 6 ∨ m a = 51) := by
    intro h
    rw [h]
    decide
  unfold dhcpOption
  simp only [fits_ite, fits_pure, fits_bind, fits_byte, fits_wordOption, and_true, hroom 1, hroom 4,
    Nat.zero_lt_succ]
  constructor
  · rintro ⟨hlen, h53, hrest⟩
    refine ⟨by omega, fun h => h53 h, fun hcode holen => ?_⟩
    have hne : m a ≠ 53 := fun h => hdistinct h hcode
    obtain ⟨h1, hrest⟩ := hrest hne
    by_cases hc1 : m a = 1
    · exact h1 hc1 holen
    obtain ⟨h3, hrest⟩ := hrest hc1
    by_cases hc3 : m a = 3
    · exact h3 hc3 holen
    obtain ⟨h6, hrest⟩ := hrest hc3
    by_cases hc6 : m a = 6
    · exact h6 hc6 holen
    have hc51 : m a = 51 := by
      rcases hcode with h | h | h | h
      · exact absurd h hc1
      · exact absurd h hc3
      · exact absurd h hc6
      · exact h
    exact (hrest hc6).1 hc51 holen
  · intro h
    have hlen := h.length
    refine ⟨by omega, h.msgType, fun _ => ⟨fun hc => h.value (.inl hc), fun _ =>
      ⟨fun hc => h.value (.inr (.inl hc)), fun _ => ⟨fun hc => h.value (.inr (.inr (.inl hc))), fun _ =>
        ⟨fun hc => h.value (.inr (.inr (.inr hc))), fun _ => trivial⟩⟩⟩⟩⟩

/-- The walk over the options stays in the frame exactly when each option it meets does. -/
theorem fits_dhcpOptions {opts maxOpts : Nat} (hin : opts + maxOpts ≤ size) {rounds i : Nat}
    (hrounds : maxOpts - i ≤ rounds) (o : DhcpOptions) :
    Fits size m (dhcpOptions opts maxOpts rounds i o) ↔
      ∀ j, OptionAt m opts maxOpts i j → OptionInside m size (opts + j) := by
  induction rounds generalizing i o with
  | zero =>
    refine ⟨fun _ j hj => ?_, fun _ => (fits_pure _).mpr trivial⟩
    -- No option stands at or behind the end of the list.
    cases hj <;> omega
  | succ r ih =>
    rw [dhcpOptions]
    by_cases hi : i < maxOpts
    swap
    · rw [if_neg hi]
      exact ⟨fun _ j hj => by cases hj <;> omega, fun _ => (fits_pure _).mpr trivial⟩
    rw [if_pos hi, fits_bind, fits_byte, value_byte]
    have hcode : 1 ≤ size - (opts + i) := by omega
    by_cases hend : m (opts + i) = 255
    · rw [if_pos hend]
      refine ⟨fun _ j hj => ?_, fun _ => ⟨hcode, (fits_pure _).mpr trivial⟩⟩
      cases hj with
      | here _ h255 _ => exact absurd hend h255
      | pad _ h0 _ => rw [hend] at h0; exact absurd h0 (by decide)
      | next _ h255 _ _ => exact absurd hend h255
    rw [if_neg hend]
    by_cases hpad : m (opts + i) = 0
    · rw [if_pos hpad, ih (by omega)]
      refine ⟨fun h j hj => ?_, fun h => ⟨hcode, fun j hj => h j (.pad hi hpad hj)⟩⟩
      cases hj with
      | here _ _ h0 => exact absurd hpad h0
      | pad _ _ hj => exact h.2 j hj
      | next _ _ h0 _ => exact absurd hpad h0
    rw [if_neg hpad]
    simp only [fits_bind, value_byte]
    rw [ih (by omega), ← and_assoc (b := Fits size m (dhcpOption _ _ _ _)), fits_option]
    refine ⟨fun h j hj => ?_, fun h => ⟨hcode, h i (.here hi hend hpad), fun j hj => h j (.next hi hend hpad hj)⟩⟩
    cases hj with
    | here _ _ _ => exact h.2.1
    | pad _ h0 _ => exact absurd h0 hpad
    | next _ _ _ hj => exact h.2.2 j hj

/-- The options of a reply that is for us lie in the frame. -/
def DhcpInside (net : State) (m : Mem) (data len size : Nat) : Prop :=
  dhcpFixedLen ≤ len → m data = 2 → be32At m (data + 4) = net.dhcpXid →
    ∀ j, OptionAt m (data + dhcpFixedLen) (dhcpMaxOpts len) 0 j →
      OptionInside m size (data + dhcpFixedLen + j)

theorem fits_dhcpHandleReply (h : len ≤ size - data) :
    Fits size m (dhcpHandleReply net data len) ↔ DhcpInside net m data len size := by
  unfold dhcpHandleReply
  by_cases hlen : len < dhcpFixedLen
  · rw [if_pos hlen]
    exact ⟨fun _ hle => absurd hle (Nat.not_le.mpr hlen), fun _ => (fits_pure _).mpr trivial⟩
  have hfixed : 240 ≤ len := Nat.not_lt.mp hlen
  have hmax : data + dhcpFixedLen + dhcpMaxOpts len ≤ size := by
    unfold dhcpMaxOpts
    split <;> omega
  rw [if_neg hlen]
  simp only [fits_bind, fits_ite, fits_pure, fits_byte, fits_be32, fits_word, value_byte, value_be32,
    fits_dhcpOptions hmax (Nat.sub_le _ _), and_true, ne_eq, not_not, imp_true_iff, true_and]
  constructor
  · intro h _ hop hxid
    exact ((h.2 hop).2 hxid).2.2
  · intro h
    exact ⟨by omega, fun hop => ⟨by omega, fun hxid => ⟨by omega, by omega, h hfixed hop hxid⟩⟩⟩

/-! ## UDP -/

/-- The length field of the datagram at `data` counts its header and no byte behind the frame. -/
def UdpLenInside (m : Mem) (data size : Nat) : Prop :=
  8 ≤ be16At m (data + 4) ∧ be16At m (data + 4) ≤ size - data

/-- What `udp_rx` leaves unchecked.  A reply for DHCP or DNS states its length truly; a datagram for a bound socket
    does, or the frame goes on for as long as the socket's buffer. -/
structure UdpInside (net : State) (srcIp : UInt32) (m : Mem) (data size : Nat) : Prop where
  handed : be16At m (data + 2) = 68 ∨ be16At m data = 53 → UdpLenInside m data size
  dhcp : be16At m (data + 2) = 68 → DhcpInside net m (data + 8) (be16At m (data + 4) - 8) size
  bound : be16At m (data + 2) ≠ 68 → be16At m data ≠ 53 →
    (udpFind net srcIp (be16At m data) (be16At m (data + 2))).isSome →
    UdpLenInside m data size ∨ udpRxBufSize ≤ size - (data + 8)

/-- A range handed on by `udp_rx` is inside exactly when the length field is true. -/
theorem lend_udp_iff (hsize : size < 2 ^ 16) (hdata : 8 ≤ data) (hroom : 8 ≤ size - data) :
    sub16 (be16At m (data + 4)) 8 ≤ size - (data + 8) ↔ UdpLenInside m data size := by
  have hlt := be16At_lt m (data + 4)
  unfold UdpLenInside
  generalize be16At m (data + 4) = udpLen at hlt
  by_cases h : 8 ≤ udpLen
  · rw [sub16_of_le hlt h]
    omega
  · rw [sub16_of_lt (by decide) (Nat.not_le.mp h)]
    omega

theorem copy_udp_iff (hsize : size < 2 ^ 16) (hdata : 8 ≤ data) (hroom : 8 ≤ size - data) :
    udpCopyLen (sub16 (be16At m (data + 4)) 8) ≤ size - (data + 8) ↔
      UdpLenInside m data size ∨ udpRxBufSize ≤ size - (data + 8) := by
  rw [← lend_udp_iff hsize hdata hroom]
  unfold udpCopyLen
  split <;> omega

theorem fits_udpDeliver {srcPort dstPort payload payloadLen : Nat} :
    Fits size m (udpDeliver net srcIp srcPort dstPort payload payloadLen) ↔
      ((udpFind net srcIp srcPort dstPort).isSome → udpCopyLen payloadLen ≤ size - payload) := by
  unfold udpDeliver
  cases udpFind net srcIp srcPort dstPort with
  | none => simp
  | some i => simp

theorem fits_udpRx (hsize : size < 2 ^ 16) (hdata : 8 ≤ data) (h : len ≤ size - data) :
    Fits size m (udpRx net srcIp data len) ↔ (8 ≤ len → UdpInside net srcIp m data size) := by
  unfold udpRx
  by_cases hlen : len < 8
  · rw [if_pos hlen]
    exact ⟨fun _ hle => absurd hle (Nat.not_le.mpr hlen), fun _ => (fits_pure _).mpr trivial⟩
  have hroom : 8 ≤ size - data := by omega
  have hports : 2 ≤ size - data ∧ 2 ≤ size - (data + 2) ∧ 2 ≤ size - (data + 4) := by omega
  rw [if_neg hlen]
  simp only [fits_bind, fits_ite, fits_be16, fits_lend, value_be16, fits_udpDeliver,
    lend_udp_iff hsize hdata hroom, copy_udp_iff hsize hdata hroom, hports, true_and]
  -- What the two callees are handed is inside, so their own lemmas apply.
  have hlent : UdpLenInside m data size → sub16 (be16At m (data + 4)) 8 = be16At m (data + 4) - 8 ∧
        be16At m (data + 4) - 8 ≤ size - (data + 8) := fun hin =>
    ⟨sub16_of_le (be16At_lt _ _) hin.1, by have := hin.2; omega⟩
  constructor
  · rintro ⟨hdhcp, hrest⟩ _
    refine ⟨?_, fun h68 => ?_, fun h68 h53 => (hrest h68).2 h53⟩
    · rintro (h68 | h53)
      · exact (hdhcp h68).1
      · by_cases h68 : be16At m (data + 2) = 68
        · exact (hdhcp h68).1
        · exact ((hrest h68).1 h53).1
    · obtain ⟨hin, hfits⟩ := hdhcp h68
      obtain ⟨heq, hle⟩ := hlent hin
      rw [heq] at hfits
      exact (fits_dhcpHandleReply hle).mp hfits
  · intro hin
    have hin := hin (Nat.not_lt.mp hlen)
    refine ⟨fun h68 => ?_, fun h68 => ⟨fun h53 => ?_, hin.bound h68⟩⟩
    · obtain ⟨heq, hle⟩ := hlent (hin.handed (.inl h68))
      refine ⟨hin.handed (.inl h68), ?_⟩
      rw [heq]
      exact (fits_dhcpHandleReply hle).mpr (hin.dhcp h68)
    · obtain ⟨heq, hle⟩ := hlent (hin.handed (.inr h53))
      refine ⟨hin.handed (.inr h53), ?_⟩
      rw [heq]
      exact fits_dnsRx hle

/-! ## TCP -/

/-- The segment of `len` bytes at `data`. -/
def tcpSegment (m : Mem) (data len : Nat) : Tcp.Segment where
  srcPort := be16At m data
  dstPort := be16At m (data + 2)
  seq := be32At m (data + 4)
  ack := be32At m (data + 8)
  flags := tcpFlags (m (data + 13))
  payloadLen := sub16 len (tcpDataOff (m (data + 12)))
  payload := fun i => m (data + tcpDataOff (m (data + 12)) + i)

/-- What `tcp_rx` leaves unchecked: in the next segment of an open connection the data offset is inside the
    segment, or the frame goes on for as long as the socket's buffer has room. -/
def TcpInside (net : State) (srcIp : UInt32) (m : Mem) (data len size : Nat) : Prop :=
  ∀ i, Tcp.findSocket net.tcp srcIp.toNat (tcpSegment m data len) = some i →
    (net.tcp.sockets i).state = .established → (tcpFlags (m (data + 13))).fin = false →
    be32At m (data + 4) = (net.tcp.sockets i).rcvNxt →
    tcpDataOff (m (data + 12)) ≤ len ∨
      Tcp.tcpRxBufSize - (net.tcp.sockets i).rx.length ≤ size - (data + tcpDataOff (m (data + 12)))

theorem tcpDataOff_le (b : UInt8) : tcpDataOff b ≤ 60 := by
  have := b.toNat_lt
  unfold tcpDataOff
  omega

/-- The copy of a payload is inside: for an offset inside the segment it ends with the segment, for an offset
    behind its end the length has wrapped and the copy fills the buffer. -/
theorem copyLen_le_iff (sk : Tcp.Socket) {seg : Tcp.Segment} {off : Nat} (hsize : size < 2 ^ 16)
    (h : len ≤ size - data) (hlen : 20 ≤ len) (hoff : off ≤ 60) (hseg : seg.payloadLen = sub16 len off) :
    (seg.payloadLen > 0 → Tcp.copyLen sk seg ≤ size - (data + off)) ↔
      (off ≤ len ∨ Tcp.tcpRxBufSize - sk.rx.length ≤ size - (data + off)) := by
  unfold Tcp.copyLen
  rw [hseg]
  by_cases hle : off ≤ len
  · rw [sub16_of_le (by omega) hle]
    dsimp only
    split <;> omega
  · rw [sub16_of_lt (by omega) (Nat.not_le.mp hle)]
    have hspace : Tcp.tcpRxBufSize - sk.rx.length ≤ 8192 := Nat.sub_le _ _
    rw [if_neg (by omega)]
    exact ⟨fun hfits => .inr (hfits (by omega)), fun hroom _ => hroom.resolve_left hle⟩

theorem tcpCopied_le_iff {s : Tcp.State} {ip room : Nat} {seg : Tcp.Segment} :
    tcpCopied s ip seg ≤ room ↔ ∀ i, Tcp.findSocket s ip seg = some i →
      (s.sockets i).state = .established → seg.flags.fin = false → seg.seq = (s.sockets i).rcvNxt →
      seg.payloadLen > 0 → Tcp.copyLen (s.sockets i) seg ≤ room := by
  unfold tcpCopied
  cases hfind : Tcp.findSocket s ip seg with
  | none => exact iff_of_true (Nat.zero_le _) fun i hi => nomatch hi
  | some i =>
    dsimp only
    constructor
    · rintro h j hj hstate hfin hseq hpos
      obtain rfl := Option.some.inj hj
      rwa [if_pos ⟨hstate, hfin, hpos, hseq⟩] at h
    · intro h
      split
      · rename_i hcond
        exact h i rfl hcond.1 hcond.2.1 hcond.2.2.2 hcond.2.2.1
      · exact Nat.zero_le _

theorem fits_tcpRx (hsize : size < 2 ^ 16) (h : len ≤ size - data) :
    Fits size m (tcpRx net srcIp data len now) ↔ (20 ≤ len → TcpInside net srcIp m data len size) := by
  unfold tcpRx
  by_cases hlen : len < 20
  · rw [if_pos hlen]
    exact ⟨fun _ hle => absurd hle (Nat.not_le.mpr hlen), fun _ => (fits_pure _).mpr trivial⟩
  have hlen := Nat.not_lt.mp hlen
  rw [if_neg (Nat.not_lt.mpr hlen)]
  simp only [fits_bind, fits_pure, fits_be16, fits_be32, fits_byte, fits_copy, value_be16, value_be32,
    value_byte, and_true]
  have hheader : 2 ≤ size - data ∧ 2 ≤ size - (data + 2) ∧ 4 ≤ size - (data + 4) ∧ 4 ≤ size - (data + 8) ∧
      1 ≤ size - (data + 13) ∧ 1 ≤ size - (data + 12) := by omega
  have hcopy := fun sk => copyLen_le_iff sk hsize h hlen (tcpDataOff_le (m (data + 12)))
    (rfl : (tcpSegment m data len).payloadLen = _)
  constructor
  · rintro ⟨_, _, _, _, _, _, hfits⟩ _ i hfind hstate hfin hseq
    exact (hcopy _).mp (tcpCopied_le_iff.mp hfits i hfind hstate hfin hseq)
  · intro hin
    obtain ⟨h1, h2, h3, h4, h5, h6⟩ := hheader
    refine ⟨h1, h2, h3, h4, h5, h6, tcpCopied_le_iff.mpr fun i hfind hstate hfin hseq => ?_⟩
    exact (hcopy _).mpr (hin hlen i hfind hstate hfin hseq)

/-! ## IPv4, and the whole path -/

/-- The frame holds an IPv4 header that passes the checks before its checksum. -/
structure Ipv4Frame (m : Mem) (size : Nat) : Prop where
  length : 34 ≤ size
  ethertype : be16At m 12 = 0x0800
  version : ipVersion (m 14) = 4
  ihl : 20 ≤ ipIhl (m 14)
  totalLen : be16At m 16 ≤ size - 14

/-- The checksum of the header is right and the packet is for this host. -/
def Accepted (net : State) (m : Mem) : Prop :=
  ipv4Checksum (bytesAt m 14 (ipIhl (m 14))) = 0 ∧ forUs net.iface (wordAt m 30)

/-- The protocols that have a handler. -/
def Handled (protocol : UInt8) : Prop := protocol = 1 ∨ protocol = 17 ∨ protocol = 6

/-- What no handler checks. -/
structure WellFormed (net : State) (m : Mem) (size : Nat) : Prop where
  header : Ipv4Frame m size → 14 + ipIhl (m 14) ≤ size
  payload : Ipv4Frame m size → Accepted net m → Handled (m 23) → ipIhl (m 14) ≤ be16At m 16
  udp : Ipv4Frame m size → Accepted net m → m 23 = 17 → 8 ≤ be16At m 16 - ipIhl (m 14) →
    UdpInside net (wordAt m 26) m (14 + ipIhl (m 14)) size
  tcp : Ipv4Frame m size → Accepted net m → m 23 = 6 → 20 ≤ be16At m 16 - ipIhl (m 14) →
    TcpInside net (wordAt m 26) m (14 + ipIhl (m 14)) (be16At m 16 - ipIhl (m 14)) size

/-- The range handed on by `ipv4_rx` is inside exactly when the total length counts the header. -/
theorem lend_ipv4_iff {total ihl : Nat} (hsize : size < 2 ^ 16) (htotal : total ≤ size - 14) (hihl : ihl < 2 ^ 16)
    (hheader : 14 + ihl ≤ size) : sub16 total ihl ≤ size - (14 + ihl) ↔ ihl ≤ total := by
  by_cases h : ihl ≤ total
  · rw [sub16_of_le (by omega) h]
    omega
  · rw [sub16_of_lt hihl (Nat.not_le.mp h)]
    omega

theorem fits_ipv4Deliver {total ihl : Nat} {protocol : UInt8} (hsize : size < 2 ^ 16)
    (htotal : total ≤ size - 14) (hihl : ihl < 2 ^ 16) (hheader : 14 + ihl ≤ size) :
    Fits size m (ipv4Deliver net protocol srcIp (14 + ihl) (sub16 total ihl) now) ↔
      (Handled protocol → ihl ≤ total) ∧
      (protocol = 17 → 8 ≤ total - ihl → UdpInside net srcIp m (14 + ihl) size) ∧
      (protocol = 6 → 20 ≤ total - ihl → TcpInside net srcIp m (14 + ihl) (total - ihl) size) := by
  have hlend := lend_ipv4_iff hsize htotal hihl hheader
  -- For a header that the total length counts, the callees get the true length of the payload.
  have hlent : ihl ≤ total → sub16 total ihl = total - ihl ∧ total - ihl ≤ size - (14 + ihl) := fun h =>
    ⟨sub16_of_le (by omega) h, by omega⟩
  have hudp : ihl ≤ total → (Fits size m (udpRx net srcIp (14 + ihl) (sub16 total ihl)) ↔
      (8 ≤ total - ihl → UdpInside net srcIp m (14 + ihl) size)) := fun h => by
    rw [(hlent h).1]
    exact fits_udpRx hsize (by omega) (hlent h).2
  have htcp : ihl ≤ total → (Fits size m (tcpRx net srcIp (14 + ihl) (sub16 total ihl) now) ↔
      (20 ≤ total - ihl → TcpInside net srcIp m (14 + ihl) (total - ihl) size)) := fun h => by
    rw [(hlent h).1]
    exact fits_tcpRx hsize (hlent h).2
  unfold ipv4Deliver
  by_cases h1 : protocol = 1
  · subst h1
    have hhandled : Handled 1 := .inl rfl
    rw [if_pos rfl, fits_bind, fits_lend, hlend]
    refine ⟨fun h => ⟨fun _ => h.1, fun h17 => absurd h17 (by decide), fun h6 => absurd h6 (by decide)⟩,
      fun h => ⟨h.1 hhandled, ?_⟩⟩
    rw [(hlent (h.1 hhandled)).1]
    exact fits_icmpRx (hlent (h.1 hhandled)).2
  rw [if_neg h1]
  by_cases h17 : protocol = 17
  · subst h17
    have hhandled : Handled 17 := .inr (.inl rfl)
    rw [if_pos rfl, fits_bind, fits_lend, hlend]
    refine ⟨fun h => ⟨fun _ => h.1, fun _ => (hudp h.1).mp h.2, fun h6 => absurd h6 (by decide)⟩,
      fun h => ⟨h.1 hhandled, (hudp (h.1 hhandled)).mpr (h.2.1 rfl)⟩⟩
  rw [if_neg h17]
  by_cases h6 : protocol = 6
  · subst h6
    have hhandled : Handled 6 := .inr (.inr rfl)
    rw [if_pos rfl, fits_bind, fits_lend, hlend]
    refine ⟨fun h => ⟨fun _ => h.1, fun h17 => absurd h17 (by decide), fun _ => (htcp h.1).mp h.2⟩,
      fun h => ⟨h.1 hhandled, (htcp (h.1 hhandled)).mpr (h.2.2 rfl)⟩⟩
  rw [if_neg h6]
  refine iff_of_true ((fits_pure _).mpr trivial) ⟨?_, fun h => absurd h h17, fun h => absurd h h6⟩
  rintro (h | h | h)
  · exact absurd h h1
  · exact absurd h h17
  · exact absurd h h6

theorem ipIhl_lt (b : UInt8) : ipIhl b < 2 ^ 16 := by
  unfold ipIhl
  omega

/-- `ipv4_rx`, once its first checks are passed. -/
theorem fits_ipv4Rx (hsize : size < 2 ^ 16) (hframe : Ipv4Frame m size) :
    Fits size m (ipv4Rx net 14 (size - 14) now) ↔ WellFormed net m size := by
  obtain ⟨hlen, -, hversion, hihl, htotal⟩ := id hframe
  unfold ipv4Rx
  rw [if_neg (by omega)]
  simp only [fits_bind, fits_ite, fits_pure, fits_byte, fits_be16, fits_copy, fits_word, value_byte,
    value_be16, value_copy, value_word, Nat.reduceAdd]
  have hchecks : ¬(ipVersion (m 14) ≠ 4 ∨ ipIhl (m 14) < 20) := by
    rintro (h | h)
    · exact h hversion
    · omega
  constructor
  · rintro ⟨_, _, hrest⟩
    obtain ⟨_, _, hrest⟩ := hrest hchecks
    obtain ⟨hheader, _, hrest⟩ := hrest (Nat.not_lt.mpr htotal)
    have hin : 14 + ipIhl (m 14) ≤ size := by omega
    have hdeliver : Accepted net m → _ := fun hacc =>
      (fits_ipv4Deliver hsize htotal (ipIhl_lt _) hin).mp
        ((hrest (not_not.mpr hacc.1)).2.2 (by rw [hacc.2]; decide)).2.2
    exact ⟨fun _ => hin, fun _ hacc => (hdeliver hacc).1, fun _ hacc => (hdeliver hacc).2.1,
      fun _ hacc => (hdeliver hacc).2.2⟩
  · intro hwf
    have hin := hwf.header hframe
    refine ⟨by omega, fun _ => trivial, fun _ => ⟨by omega, fun _ => trivial, fun _ =>
      ⟨by omega, fun _ => trivial, fun hsum => ⟨by omega, fun _ => trivial, fun hus =>
        ⟨by omega, by omega, ?_⟩⟩⟩⟩⟩
    have hacc : Accepted net m := ⟨not_not.mp hsum, Bool.not_eq_false _ |>.mp hus⟩
    exact (fits_ipv4Deliver hsize htotal (ipIhl_lt _) hin).mpr
      ⟨hwf.payload hframe hacc, hwf.udp hframe hacc, hwf.tcp hframe hacc⟩

/-- A frame that the first checks of `ipv4_rx` drop is read no further than its fixed header. -/
theorem fits_ipv4Rx_dropped (hsize : 14 ≤ size) (hethertype : be16At m 12 = 0x0800)
    (h : ¬Ipv4Frame m size) : Fits size m (ipv4Rx net 14 (size - 14) now) := by
  unfold ipv4Rx
  by_cases hlen : size - 14 < 20
  · rw [if_pos hlen]
    exact (fits_pure _).mpr trivial
  rw [if_neg hlen]
  simp only [fits_bind, fits_ite, fits_pure, fits_byte, fits_be16]
  refine ⟨by omega, fun _ => trivial, fun hchecks => ⟨by omega, fun _ => trivial, fun htotal => ?_⟩⟩
  rw [not_or, not_not, Nat.not_lt] at hchecks
  exact absurd ⟨by omega, hethertype, hchecks.1, hchecks.2, Nat.not_lt.mp htotal⟩ h

/-- **Receive-path bounds.**  For every frame, every state and whatever stands in memory behind the frame: all
    that the handlers read or copy, and all that they hand to each other, lies in the frame, exactly when the
    frame is well formed. -/
theorem eth_rx_in_frame_iff (net : State) (m : Mem) (len : UInt16) (now : Nat) :
    (∀ p ∈ (ethRx net len now).trace m, p.Inside len.toNat) ↔ WellFormed net m len.toNat := by
  have hsize : len.toNat < 2 ^ 16 := len.toNat_lt
  show Fits len.toNat m (ethRx net len now) ↔ _
  unfold ethRx
  generalize len.toNat = size at hsize
  have hdropped : ¬Ipv4Frame m size → WellFormed net m size := fun h =>
    ⟨fun hf => absurd hf h, fun hf => absurd hf h, fun hf => absurd hf h, fun hf => absurd hf h⟩
  by_cases hlen : size < 14
  · rw [if_pos hlen]
    exact iff_of_true ((fits_pure _).mpr trivial) (hdropped fun hf => absurd hf.length (by omega))
  rw [if_neg hlen, fits_bind, fits_be16, fits_ite, fits_bind, fits_lend]
  have hethertype : 2 ≤ size - 12 := by omega
  by_cases hframe : Ipv4Frame m size
  · rw [← fits_ipv4Rx hsize hframe]
    exact ⟨fun h => (h.2.1 hframe.ethertype).2,
      fun h => ⟨hethertype, fun _ => ⟨Nat.le_refl _, h⟩, fun _ => (fits_pure _).mpr trivial⟩⟩
  · refine iff_of_true ⟨hethertype, fun htype => ⟨Nat.le_refl _, ?_⟩, fun _ => (fits_pure _).mpr trivial⟩
      (hdropped hframe)
    exact fits_ipv4Rx_dropped (Nat.not_lt.mp hlen) htype hframe

/-! ## A frame that is not well formed -/

/-- A host at 10.0.0.2 with one UDP socket, bound to port 7. -/
def host : State where
  iface := ⟨0x0200000A, 0x00FFFFFF, 0, 0⟩
  replyCallback := false
  udp := fun i => ⟨decide (i = 0), 7, 0, 0, [], 0, 0, false⟩
  tcp := ⟨fun _ => .zero, 0, []⟩
  dhcpXid := 0
  dhcpState := .idle
  lastResult := ⟨0, 0, 0, 0, 0, false⟩
  pendingId := 0
  pendingResult := 0
  pendingDone := false
  dnsServerIp := 0
  routes := []
  out := []

/-- A frame of 42 bytes: an empty UDP datagram from 10.0.0.1 to port 7, whose length field says 108; behind the
    frame the memory holds other data. -/
def longDatagram : Mem := fun a =>
  ([2, 0, 0, 0, 0, 2, 2, 0, 0, 0, 0, 1, 8, 0,
    0x45, 0, 0, 28, 0, 0, 0, 0, 64, 17, 0x66, 0xCF, 10, 0, 0, 1, 10, 0, 0, 2,
    4, 0, 0, 7, 0, 108, 0, 0] : List UInt8).getD a 0xAA

/-- The same frame with an IPv4 header of 60 bytes announced. -/
def longHeader : Mem := Function.update longDatagram 14 0x4F

/-- A bound socket gets 100 bytes from behind the frame of 42, and the checksum of the header reads up to byte 73
    of it. -/
theorem eth_rx_reads_behind_frame : (⟨.read, 42, 100⟩ : Span) ∈ (ethRx host 42 0).trace longDatagram ∧
      (⟨.read, 14, 60⟩ : Span) ∈ (ethRx host 42 0).trace longHeader ∧
      ¬(⟨.read, 42, 100⟩ : Span).Inside 42 ∧ ¬(⟨.read, 14, 60⟩ : Span).Inside 42 ∧
      (((ethRx host 42 0).value longDatagram).udp 0).rx = List.replicate 100 0xAA := by
  decide +kernel

end Lyth.Net
