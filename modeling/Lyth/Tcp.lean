/-
  TCP (`net/tcp.c`).

    1. The program.  A table of 16 sockets.  `tcp_rx` finds the socket of a segment (exact match, then a listening
       one, then one that waits for a SYN) and goes through the state machine of the connection; the
       application takes bytes out of the receive buffer with `tcp_socket_recv`.
    2. Specification.  The peer sends ONE byte stream.  What the application has got, followed by what is
       buffered, is its beginning, as long as `rcv_nxt` says, so that every byte acknowledged is delivered
       once and in order.
    3. Crux.  `rcv_nxt` may only move over bytes that were stored.  It moves over the whole payload even when the
       buffer takes a part, and a FIN moves it wherever the segment says, without its payload:
       `InStep` is the condition on a segment under which neither happens.

  Interrupts are on while `tcp_socket_recv` runs, and the one of the network card runs `tcp_rx`.  The call is
  therefore TWO steps, with the interrupts that come before it stores `rx_len = remaining` between them.
  `tcp_rx` is one step: it is taken not to be interrupted by another segment.
-/
import Lyth.Lib.Run
import Lyth.Lib.Table
import Lyth.Lib.Word

namespace Lyth.Tcp

open Run Table Word Function

/-! ## The data of `tcp.c` -/

abbrev tcpMaxSockets : Nat := 16
def tcpRxBufSize : Nat := 8192
def tcpWindowSize : Nat := 8192

/-- `tcp_state_t`. -/
inductive TcpState
  | closed
  | listen
  | synSent
  | synReceived
  | established
  | finWait1
  | finWait2
  | closeWait
  | closing
  | lastAck
  | timeWait
deriving DecidableEq

/-- The flags of a header that `tcp_rx` looks at, or that a segment is sent with. -/
structure Flags where
  fin : Bool := false
  syn : Bool := false
  rst : Bool := false
  psh : Bool := false
  ack : Bool := false
deriving DecidableEq

/-- A segment as `tcp_rx` reads it: `payload i` is the byte at `data + data_off + i`. -/
structure Segment where
  srcPort : Nat
  dstPort : Nat
  seq : Nat
  ack : Nat
  flags : Flags
  payloadLen : Nat
  payload : Nat → UInt8

/-- The first `n` bytes of the payload. -/
def Segment.bytes (seg : Segment) (n : Nat) : List UInt8 := (List.range n).map seg.payload

/-- `tcp_socket_t`; `rx` is `rx_buf` up to `rx_len`. -/
structure Socket where
  used : Bool
  state : TcpState
  localPort : Nat
  remoteIp : Nat
  remotePort : Nat
  sndUna : Nat
  sndNxt : Nat
  rcvNxt : Nat
  rcvWnd : Nat
  rx : List UInt8
  rxReady : Bool
  lastAckTick : Nat

/-- `memset(&sockets[i], 0, sizeof(tcp_socket_t))`. -/
def Socket.zero : Socket where
  used := false
  state := .closed
  localPort := 0
  remoteIp := 0
  remotePort := 0
  sndUna := 0
  sndNxt := 0
  rcvNxt := 0
  rcvWnd := 0
  rx := []
  rxReady := false
  lastAckTick := 0

/-- The arguments of a call of `tcp_send_segment`. -/
structure Sent where
  dstIp : Nat
  srcPort : Nat
  dstPort : Nat
  seq : Nat
  ack : Nat
  flags : Flags
  window : Nat
  payload : List UInt8
deriving DecidableEq

/-- The static variables, and the segments sent so far, the last one first. -/
structure State where
  sockets : Fin tcpMaxSockets → Socket
  tcpIsn : Nat
  sent : List Sent

def State.setSocket (s : State) (i : Fin tcpMaxSockets) (sk : Socket) : State :=
  { s with sockets := update s.sockets i sk }

def State.send (s : State) (seg : Sent) : State := { s with sent := seg :: s.sent }

/-- A segment without data from the socket to its peer. -/
def Socket.reply (sk : Socket) (dstIp dstPort : Nat) (flags : Flags) (window : Nat) : Sent where
  dstIp := dstIp
  srcPort := sk.localPort
  dstPort := dstPort
  seq := sk.sndNxt
  ack := sk.rcvNxt
  flags := flags
  window := window
  payload := []

/-! ## Receiving a segment -/

/-- The three searches of `tcp_rx`. -/
def findSocket (s : State) (srcIp : Nat) (seg : Segment) : Option (Fin tcpMaxSockets) :=
  (firstIdx fun i => (s.sockets i).used && decide ((s.sockets i).localPort = seg.dstPort) &&
      decide ((s.sockets i).remotePort = seg.srcPort) && decide ((s.sockets i).remoteIp = srcIp)) <|>
  (firstIdx fun i => (s.sockets i).used && decide ((s.sockets i).state = .listen) &&
      decide ((s.sockets i).localPort = seg.dstPort)) <|>
  (firstIdx fun i => (s.sockets i).used && decide ((s.sockets i).state = .synSent) &&
      decide ((s.sockets i).remoteIp = srcIp) && decide ((s.sockets i).remotePort = seg.srcPort))

/-- How many bytes of the payload fit. -/
def copyLen (sk : Socket) (seg : Segment) : Nat :=
  let space := tcpRxBufSize - sk.rx.length
  if seg.payloadLen < space then seg.payloadLen else space

/-- `case TCP_ESTABLISHED` for data. -/
def storeData (sk : Socket) (seg : Segment) : Socket :=
  if seg.seq = sk.rcvNxt then
    let copy := copyLen sk seg
    { sk with
      rx := sk.rx ++ seg.bytes copy
      rxReady := sk.rxReady || decide (copy > 0)
      rcvNxt := u32 (sk.rcvNxt + seg.payloadLen) }
  else sk

/-- `case TCP_ESTABLISHED`, up to the check for a reset. -/
def rxData (sk : Socket) (srcIp : Nat) (seg : Segment) : Socket × List Sent :=
  if seg.flags.fin then
    let sk := { sk with rcvNxt := u32 (seg.seq + seg.payloadLen + 1), state := .closeWait }
    (sk, [sk.reply srcIp seg.srcPort { ack := true } tcpWindowSize])
  else if seg.payloadLen > 0 then
    let sk := storeData sk seg
    (sk, [sk.reply srcIp seg.srcPort { ack := true } tcpWindowSize])
  else if seg.flags.ack then ({ sk with sndUna := seg.ack }, [])
  else (sk, [])

/-- `case TCP_ESTABLISHED`. -/
def rxEstablished (sk : Socket) (srcIp : Nat) (seg : Segment) : Socket × List Sent :=
  let r := rxData sk srcIp seg
  (if seg.flags.rst then { r.1 with state := .closed, used := false } else r.1, r.2)

/-- A FIN of the peer while this side is closing. -/
def takeFin (sk : Socket) (srcIp : Nat) (seg : Segment) (state : TcpState) : Socket × List Sent :=
  let sk := { sk with rcvNxt := u32 (seg.seq + 1), state }
  (sk, [sk.reply srcIp seg.srcPort { ack := true } 0])

/-- The `switch (sk->state)` of `tcp_rx`: the socket, what is sent, and the next initial sequence number. -/
def rxSwitch (sk : Socket) (srcIp : Nat) (seg : Segment) (isn now : Nat) : Socket × List Sent × Nat :=
  match sk.state with
  | .listen =>
    if seg.flags.syn then
      let sk := { sk with
        remoteIp := srcIp, remotePort := seg.srcPort, rcvNxt := u32 (seg.seq + 1), sndNxt := isn,
        sndUna := isn, state := .synReceived }
      ({ sk with sndNxt := u32 (isn + 1) },
        [sk.reply srcIp seg.srcPort { syn := true, ack := true } tcpWindowSize], u32 (isn + 1))
    else (sk, [], isn)
  | .synSent =>
    if seg.flags.syn && seg.flags.ack then
      let sk := { sk with rcvNxt := u32 (seg.seq + 1), sndUna := seg.ack, state := .established }
      (sk, [sk.reply srcIp seg.srcPort { ack := true } tcpWindowSize], isn)
    else (sk, [], isn)
  | .synReceived =>
    if seg.flags.ack then ({ sk with sndUna := seg.ack, state := .established }, [], isn)
    else (sk, [], isn)
  | .established =>
    let (sk, out) := rxEstablished sk srcIp seg
    (sk, out, isn)
  | .finWait1 =>
    if seg.flags.ack && seg.flags.fin then
      let (sk, out) := takeFin sk srcIp seg .timeWait
      (sk, out, isn)
    else if seg.flags.ack then ({ sk with sndUna := seg.ack, state := .finWait2 }, [], isn)
    else if seg.flags.fin then
      let (sk, out) := takeFin sk srcIp seg .closing
      (sk, out, isn)
    else (sk, [], isn)
  | .finWait2 =>
    if seg.flags.fin then
      let (sk, out) := takeFin sk srcIp seg .timeWait
      (sk, out, isn)
    else (sk, [], isn)
  | .closing => if seg.flags.ack then ({ sk with state := .timeWait }, [], isn) else (sk, [], isn)
  | .lastAck =>
    if seg.flags.ack then ({ sk with state := .closed, used := false }, [], isn) else (sk, [], isn)
  | .timeWait => ({ sk with lastAckTick := now }, [], isn)
  | .closed => (sk, [], isn)
  | .closeWait => (sk, [], isn)

/-- `tcp_rx(iface, src_ip, dst_ip, data, len)`, for a segment that has been read. -/
def tcpRx (s : State) (srcIp : Nat) (seg : Segment) (now : Nat) : State :=
  match findSocket s srcIp seg with
  | none =>
    if seg.flags.rst then s
    else
      s.send
        { dstIp := srcIp, srcPort := seg.dstPort, dstPort := seg.srcPort, seq := 0,
          ack := u32 (seg.seq + 1), flags := { rst := true, ack := true }, window := 0, payload := [] }
  | some i =>
    let (sk, out, isn) := rxSwitch (s.sockets i) srcIp seg s.tcpIsn now
    { s.setSocket i sk with tcpIsn := isn, sent := out.reverse ++ s.sent }

/-! ## The socket interface -/

/-- A call of `tcp_socket_recv` that has copied bytes to its caller and knows what remains. -/
structure Receiving where
  copied : List UInt8
  remaining : Nat

/-- `tcp_socket_recv(sock, buf, buf_len)`, up to `remaining`; an error is what it returns already here. -/
def tcpSocketRecv (s : State) (i : Fin tcpMaxSockets) (bufLen : Nat) : Except Int Receiving :=
  let sk := s.sockets i
  if !sk.used then .error (-1)
  else if !sk.rxReady && decide (sk.state ≠ .established) && decide (sk.state ≠ .closeWait) then .error (-1)
  else if !sk.rxReady then .error 0
  else
    let copy := if sk.rx.length > bufLen then bufLen else sk.rx.length
    .ok { copied := sk.rx.take copy, remaining := sk.rx.length - copy }

/-- The end of `tcp_socket_recv`: the remaining bytes are shifted to the front. -/
def shiftRemaining (s : State) (i : Fin tcpMaxSockets) (r : Receiving) : State :=
  let sk := s.sockets i
  s.setSocket i { sk with
    rx := (sk.rx.drop r.copied.length).take r.remaining
    rxReady := if r.remaining = 0 then false else sk.rxReady }

/-! ## Runs -/

/-- The sockets, and for each of them the bytes that `tcp_socket_recv` has returned, and the call of it that is
    under way. -/
structure World where
  tcp : State
  taken : Fin tcpMaxSockets → List UInt8
  receiving : Fin tcpMaxSockets → Option Receiving

inductive Call
  | rx (srcIp : Nat) (seg : Segment) (now : Nat)
  | recv (i : Fin tcpMaxSockets) (bufLen : Nat)
  | recvEnd (i : Fin tcpMaxSockets)

/-- One segment, or one half of a call of the application, with what is returned. -/
def step (w : World) : Call → Option Int × World
  | .rx srcIp seg now => (none, { w with tcp := tcpRx w.tcp srcIp seg now })
  | .recv i bufLen =>
    match tcpSocketRecv w.tcp i bufLen with
    | .error r => (some r, w)
    | .ok r => (none, { w with receiving := update w.receiving i (some r) })
  | .recvEnd i =>
    match w.receiving i with
    | none => (none, w)
    | some r =>
      (some r.copied.length,
        { tcp := shiftRemaining w.tcp i r
          taken := update w.taken i (w.taken i ++ r.copied)
          receiving := update w.receiving i none })

/-- The bytes of the stream that have reached this side: returned, or in the buffer. -/
def World.received (w : World) (i : Fin tcpMaxSockets) : List UInt8 := w.taken i ++ (w.tcp.sockets i).rx

/-! ## The peer's stream -/

section

variable (peer : List UInt8) (init : Nat)

/-- The segment carries the bytes of the stream from `offset` on; a FIN stands after the last one. -/
structure Carries (seg : Segment) (offset : Nat) : Prop where
  seq : seg.seq = u32 (init + offset)
  short : seg.payloadLen < 2 ^ 16
  inside : offset + seg.payloadLen ≤ peer.length
  bytes : seg.bytes seg.payloadLen = (peer.drop offset).take seg.payloadLen
  fin : seg.flags.fin → offset + seg.payloadLen = peer.length

/-- The segment is not older or newer than sequence numbers can tell. -/
def Near (offset received : Nat) : Prop := offset < received + 2 ^ 31 ∧ received < offset + 2 ^ 31

/-- What keeps `rcv_nxt` on the bytes stored: a FIN comes when everything before it has been received, and the
    next data fits into the buffer. -/
structure InStep (sk : Socket) (seg : Segment) : Prop where
  fin : seg.flags.fin → u32 (seg.seq + seg.payloadLen) = sk.rcvNxt
  fits : seg.flags.fin = false → seg.seq = sk.rcvNxt → seg.payloadLen ≤ tcpRxBufSize - sk.rx.length

/-- Segments for the established socket `i` are of the stream and in step, and neither they nor another call
    come in the middle of a call for it; everything else is arbitrary. -/
def Legal (i : Fin tcpMaxSockets) (w : World) : Call → Prop
  | .rx srcIp seg _ => findSocket w.tcp srcIp seg = some i → (w.tcp.sockets i).state = .established →
      w.receiving i = none ∧ ∃ offset, Carries peer init seg offset ∧ Near offset (w.received i).length ∧
        InStep (w.tcp.sockets i) seg
  | .recv k _ => k = i → w.receiving i = none
  | .recvEnd _ => True

/-- What has been received is the beginning of the stream, and `rcv_nxt` stands behind it, or behind the FIN. -/
structure Good (i : Fin tcpMaxSockets) (w : World) : Prop where
  stream : w.received i = peer.take (w.received i).length
  next : ∃ fin ≤ 1, (w.tcp.sockets i).rcvNxt = u32 (init + (w.received i).length + fin) ∧
    ((w.tcp.sockets i).state = .established → fin = 0) ∧
    ((w.tcp.sockets i).state = .closeWait → fin = 1)
  states : (w.tcp.sockets i).used →
    (w.tcp.sockets i).state = .established ∨ (w.tcp.sockets i).state = .closeWait

/-- The buffer still is what the call under way has found in it. -/
def Pending (i : Fin tcpMaxSockets) (w : World) : Prop :=
  ∀ r, w.receiving i = some r → ∃ rest, (w.tcp.sockets i).rx = r.copied ++ rest ∧ rest.length = r.remaining

end

section

variable {peer : List UInt8} {init srcIp offset : Nat} {i : Fin tcpMaxSockets} {w : World} {sk : Socket}
  {seg : Segment}

theorem findSocket_used {s : State} (h : findSocket s srcIp seg = some i) : (s.sockets i).used := by
  -- each of the three searches looks at `used` first
  rcases (Option.orElse_eq_some _ _ _).mp h with h | ⟨_, h⟩
  case' inr => rcases (Option.orElse_eq_some _ _ _).mp h with h | ⟨_, h⟩
  all_goals
    have := firstIdx_some h
    simp only [Bool.and_eq_true, and_assoc] at this
    exact this.1

theorem Segment.length_bytes (seg : Segment) (n : Nat) : (seg.bytes n).length = n := by
  rw [Segment.bytes, List.length_map, List.length_range]

/-- The next bytes of the stream go behind those received. -/
theorem take_append_bytes {received : List UInt8} (hstream : received = peer.take received.length)
    (hcarries : Carries peer init seg received.length) :
    received ++ seg.bytes seg.payloadLen = peer.take (received ++ seg.bytes seg.payloadLen).length := by
  rw [List.length_append, seg.length_bytes, List.take_add, ← hstream, hcarries.bytes]

/-- What `tcp_rx` does to the socket `i`: it goes through the switch, or stays. -/
theorem tcpRx_socket (s : State) (srcIp : Nat) (seg : Segment) (now : Nat) (i : Fin tcpMaxSockets) :
    (tcpRx s srcIp seg now).sockets i
      = if findSocket s srcIp seg = some i then (rxSwitch (s.sockets i) srcIp seg s.tcpIsn now).1
        else s.sockets i := by
  unfold tcpRx
  split
  · rename_i hnone
    rw [hnone]
    show State.sockets (if _ then _ else _) i = s.sockets i
    split <;> rfl
  · rename_i k hfind
    show update s.sockets k _ i = _
    by_cases hk : k = i
    · subst hk
      rw [update_self, if_pos hfind]
    · rw [update_of_ne (Ne.symm hk), if_neg fun h => hk (by rw [hfind] at h; cases h; rfl)]

/-- The received bytes are a beginning of the stream, for a socket that is open. -/
structure Open (peer : List UInt8) (init : Nat) (taken : List UInt8) (sk : Socket) : Prop where
  states : sk.state = .established ∨ sk.state = .closeWait
  stream : taken ++ sk.rx = peer.take (taken ++ sk.rx).length
  next : ∃ fin ≤ 1, sk.rcvNxt = u32 (init + (taken ++ sk.rx).length + fin) ∧
    (sk.state = .established → fin = 0) ∧ (sk.state = .closeWait → fin = 1)

section

variable {taken : List UInt8} (hstate : sk.state = .established)
  (hstream : taken ++ sk.rx = peer.take (taken ++ sk.rx).length)
  (hnext : sk.rcvNxt = u32 (init + (taken ++ sk.rx).length))
include hstate hstream hnext

theorem Open.of_established : Open peer init taken sk := by
  refine ⟨.inl hstate, hstream, 0, Nat.zero_le 1, hnext, fun _ => rfl, fun hc => ?_⟩
  rw [hstate] at hc
  cases hc

variable (hnear : Near offset (taken ++ sk.rx).length) (hcarries : Carries peer init seg offset)
  (hstep : InStep sk seg)
include hnear hcarries hstep

/-- What data does to an established socket. -/
theorem storeData_open (hfin : seg.flags.fin = false) : Open peer init taken (storeData sk seg) := by
  unfold storeData
  split
  · rename_i hseq
    have hoffset : offset = (taken ++ sk.rx).length := by
      have heq : u32 (init + offset) = u32 (init + (taken ++ sk.rx).length) := by
        rw [← hcarries.seq, hseq, hnext]
      obtain ⟨h1, h2⟩ := hnear
      simp only [u32] at heq
      omega
    have hcopy : copyLen sk seg = seg.payloadLen := by
      have hfits := hstep.fits hfin hseq
      unfold copyLen
      dsimp only
      split
      · rfl
      · omega
    rw [hcopy]
    refine .of_established hstate ?_ ?_ <;> dsimp only <;> rw [← List.append_assoc]
    · exact take_append_bytes hstream (hoffset ▸ hcarries)
    · rw [List.length_append, seg.length_bytes, hnext, ← Nat.add_assoc]
      simp only [u32, Nat.mod_add_mod]
  · exact .of_established hstate hstream hnext

/-- **One segment** keeps the received bytes a beginning of the stream. -/
theorem rxData_open : Open peer init taken (rxData sk srcIp seg).1 := by
  unfold rxData
  split
  · -- the FIN stands right behind the bytes received
    rename_i hf
    refine ⟨.inr rfl, hstream, 1, Nat.le_refl 1, ?_, fun hc => (by cases hc), fun _ => rfl⟩
    have hpos := hstep.fin hf
    rw [hnext] at hpos
    show u32 (seg.seq + seg.payloadLen + 1) = u32 (init + (taken ++ sk.rx).length + 1)
    simp only [u32] at hpos ⊢
    omega
  · rename_i hf
    split
    · exact storeData_open hstate hstream hnext hnear hcarries hstep (Bool.not_eq_true _ |>.mp hf)
    · split
      · exact .of_established hstate hstream hnext
      · exact .of_established hstate hstream hnext

end

/-- A reset closes the socket and leaves the bytes. -/
theorem rxEstablished_good {w' : World} (h : Open peer init (w.taken i) (rxData (w.tcp.sockets i) srcIp seg).1)
    (htaken : w'.taken i = w.taken i)
    (hsk : w'.tcp.sockets i = (rxEstablished (w.tcp.sockets i) srcIp seg).1) : Good peer init i w' := by
  generalize hr : (rxData (w.tcp.sockets i) srcIp seg).1 = sk at h
  have heq : w'.tcp.sockets i = if seg.flags.rst then { sk with state := .closed, used := false } else sk := by
    rw [hsk, ← hr]
    rfl
  have hrx : (w'.tcp.sockets i).rx = sk.rx ∧ (w'.tcp.sockets i).rcvNxt = sk.rcvNxt := by
    rw [heq]
    split <;> exact ⟨rfl, rfl⟩
  have hreceived : w'.received i = w.taken i ++ sk.rx := by
    rw [World.received, htaken, hrx.1]
  obtain ⟨fin, hle, hnext, hopen, hclose⟩ := h.next
  refine ⟨by rw [hreceived]; exact h.stream, ⟨fin, hle, ?_⟩, ?_⟩
  · rw [hreceived, heq]
    split
    · exact ⟨hnext, fun hc => (by cases hc), fun hc => (by cases hc)⟩
    · exact ⟨hnext, hopen, hclose⟩
  · rw [heq]
    split
    · exact fun hc => (by cases hc)
    · exact fun _ => h.states

/-- Nothing happens to the socket. -/
theorem Good.congr (h : Good peer init i w) {w' : World} (hreceived : w'.received i = w.received i)
    (hnext : (w'.tcp.sockets i).rcvNxt = (w.tcp.sockets i).rcvNxt)
    (hstate : (w'.tcp.sockets i).state = (w.tcp.sockets i).state)
    (hused : (w'.tcp.sockets i).used = (w.tcp.sockets i).used) : Good peer init i w' := by
  refine ⟨by rw [hreceived]; exact h.stream, by rw [hreceived, hnext, hstate]; exact h.next, ?_⟩
  rw [hused, hstate]
  exact h.states

/-- Taking bytes out of the buffer moves them from one part of what was received to the other. -/
theorem recvEnd_received (hpending : Pending i w) (k : Fin tcpMaxSockets) :
    (step w (.recvEnd k)).2.received i = w.received i ∧
    ((step w (.recvEnd k)).2.tcp.sockets i).rcvNxt = (w.tcp.sockets i).rcvNxt ∧
    ((step w (.recvEnd k)).2.tcp.sockets i).state = (w.tcp.sockets i).state ∧
    ((step w (.recvEnd k)).2.tcp.sockets i).used = (w.tcp.sockets i).used := by
  cases hr : w.receiving k with
  | none => simp only [step, hr, and_self]
  | some r =>
    simp only [step, hr, World.received, shiftRemaining, State.setSocket]
    by_cases hki : i = k
    · subst hki
      obtain ⟨rest, hrx, hlen⟩ := hpending r hr
      simp only [update_self, hrx, List.drop_left, ← hlen, List.take_length, List.append_assoc, and_self]
    · simp only [update_of_ne hki, and_self]

/-- What `tcp_socket_recv` copies is the first part of the buffer. -/
theorem tcpSocketRecv_ok {s : State} {bufLen : Nat} {r : Receiving} (h : tcpSocketRecv s i bufLen = .ok r) :
    ∃ rest, (s.sockets i).rx = r.copied ++ rest ∧ rest.length = r.remaining := by
  unfold tcpSocketRecv at h
  dsimp only at h
  split_ifs at h
  all_goals
    cases h
    exact ⟨_, (List.take_append_drop _ _).symm, List.length_drop⟩

/-- **One call** keeps the buffer for the call under way. -/
theorem step_pending (h : Pending i w) (hgood : Good peer init i w) {c : Call} (hc : Legal peer init i w c) :
    Pending i (step w c).2 := by
  cases c with
  | rx srcIp seg now =>
    intro r hr
    show ∃ rest, ((tcpRx w.tcp srcIp seg now).sockets i).rx = _ ∧ _
    rw [tcpRx_socket]
    split
    · rename_i hfind
      rcases hgood.states (findSocket_used hfind) with hstate | hstate
      · exact absurd ((hc hfind hstate).1.symm.trans hr) (Option.some_ne_none r).symm
      · unfold rxSwitch
        rw [hstate]
        exact h r hr
    · exact h r hr
  | recv k bufLen =>
    unfold step
    dsimp only
    split
    · exact h
    · rename_i r' hok
      intro r hr
      dsimp only at hr ⊢
      by_cases hki : i = k
      · subst hki
        rw [update_self] at hr
        cases hr
        exact tcpSocketRecv_ok hok
      · rw [update_of_ne hki] at hr
        exact h r hr
  | recvEnd k =>
    unfold step
    dsimp only
    split
    · exact h
    · intro r hr
      dsimp only at hr ⊢
      by_cases hki : i = k
      · subst hki
        rw [update_self] at hr
        cases hr
      · rw [update_of_ne hki] at hr
        simp only [shiftRemaining, State.setSocket, update_of_ne hki]
        exact h r hr

/-- **One call** keeps it. -/
theorem step_good (h : Good peer init i w) (hpending : Pending i w) {c : Call} (hc : Legal peer init i w c) :
    Good peer init i (step w c).2 := by
  cases c with
  | rx srcIp seg now =>
    have hsk := tcpRx_socket w.tcp srcIp seg now i
    have hunchanged : (tcpRx w.tcp srcIp seg now).sockets i = w.tcp.sockets i →
        Good peer init i (step w (.rx srcIp seg now)).2 := by
      intro hsame
      have hsame : (step w (.rx srcIp seg now)).2.tcp.sockets i = w.tcp.sockets i := hsame
      refine h.congr ?_ (by rw [hsame]) (by rw [hsame]) (by rw [hsame])
      rw [World.received, hsame]
      rfl
    by_cases hfind : findSocket w.tcp srcIp seg = some i
    · rw [if_pos hfind] at hsk
      rcases h.states (findSocket_used hfind) with hstate | hstate
      · obtain ⟨-, offset, hcarries, hnear, hstep⟩ := hc hfind hstate
        have hswitch : (rxSwitch (w.tcp.sockets i) srcIp seg w.tcp.tcpIsn now).1
            = (rxEstablished (w.tcp.sockets i) srcIp seg).1 := by
          unfold rxSwitch
          rw [hstate]
        obtain ⟨fin, _, hnext, hfin, _⟩ := h.next
        rw [hfin hstate] at hnext
        exact rxEstablished_good (rxData_open hstate h.stream hnext hnear hcarries hstep) rfl (hsk.trans hswitch)
      · refine hunchanged (hsk.trans ?_)
        unfold rxSwitch
        rw [hstate]
    · rw [if_neg hfind] at hsk
      exact hunchanged hsk
  | recv k bufLen =>
    unfold step
    dsimp only
    split
    · exact h
    · exact h.congr rfl rfl rfl rfl
  | recvEnd k =>
    obtain ⟨hrec, hnext, hstate, hused⟩ := recvEnd_received hpending k
    exact h.congr hrec hnext hstate hused

end

/-- **The received stream.**  An established socket with an empty buffer, and a peer that sends `peer`: after every
    run of segments, to this socket in step and to others arbitrary, and of `tcp_socket_recv` calls, which no
    segment or other call for the socket comes into, what was returned and what is buffered is the beginning of the stream that `rcv_nxt` stands behind, not
    counting the FIN. -/
theorem tcp_stream_integrity (peer : List UInt8) (init : Nat) (i : Fin tcpMaxSockets) (w : World)
    (hstate : (w.tcp.sockets i).state = .established) (hrx : (w.tcp.sockets i).rx = [])
    (htaken : w.taken i = []) (hidle : w.receiving i = none) (hinit : (w.tcp.sockets i).rcvNxt = u32 init) (calls : List Call)
    (hlegal : Guarded step (Legal peer init i) w calls) :
    Good peer init i (exec step w calls).2 := by
  have hreceived : w.received i = [] := by rw [World.received, htaken, hrx]; rfl
  have hstart : Good peer init i w := by
    refine ⟨by rw [hreceived]; rfl, ⟨0, Nat.zero_le 1, ?_, fun _ => rfl, fun hc => ?_⟩, fun _ => .inl hstate⟩
    · rwa [hreceived]
    · rw [hstate] at hc
      cases hc
  have hpending : Pending i w := by
    intro r hr
    exact absurd (hidle.symm.trans hr) (Option.some_ne_none r).symm
  have hstep : ∀ w c, Good peer init i w ∧ Pending i w → Legal peer init i w c →
      Good peer init i (step w c).2 ∧ Pending i (step w c).2 :=
    fun _ _ h hc => ⟨step_good h.1 h.2 hc, step_pending h.2 h.1 hc⟩
  exact (exec_inv hstep calls w ⟨hstart, hpending⟩ hlegal).1

/-! ### Two bytes and a FIN -/

/-- Socket 0 is connected; the next sequence number is 100. -/
def connected : World where
  tcp :=
    { sockets := fun i =>
        if i = 0 then
          { Socket.zero with
            used := true, state := .established, localPort := 80, remoteIp := 1, remotePort := 4000,
            rcvNxt := 100 }
        else Socket.zero
      tcpIsn := 0
      sent := [] }
  taken := fun _ => []
  receiving := fun _ => none

/-- A segment of the peer. -/
def fromPeer (seq : Nat) (fin : Bool) (bytes : List UInt8) : Segment where
  srcPort := 4000
  dstPort := 80
  seq := seq
  ack := 0
  flags := { fin, ack := true }
  payloadLen := bytes.length
  payload := fun i => bytes.getD i 0

/-- Two bytes, of which one is taken, and a FIN. -/
def twoBytes : List Call :=
  [.rx 1 (fromPeer 100 false [7, 9]) 0, .recv 0 1, .recvEnd 0, .rx 1 (fromPeer 102 true []) 0]

theorem two_bytes_legal : Guarded step (Legal [7, 9] 100 0) connected twoBytes := by
  refine ⟨fun _ _ => ⟨rfl, 0, ⟨rfl, by decide, by decide, rfl, fun h => (by cases h)⟩, ⟨by decide, by decide⟩,
    ⟨fun h => (by cases h), fun _ _ => by decide⟩⟩, fun _ => rfl, trivial, fun _ _ => ⟨rfl, 2, ⟨rfl, by decide,
    by decide, rfl, fun _ => rfl⟩, ⟨by decide, by decide⟩, ⟨fun _ => by decide, fun h => (by cases h)⟩⟩, trivial⟩

theorem tcp_stream_integrity_two_bytes : Good [7, 9] 100 0 (exec step connected twoBytes).2 ∧
    (exec step connected twoBytes).2.taken 0 = [7] ∧ (exec step connected twoBytes).2.received 0 = [7, 9] :=
  ⟨tcp_stream_integrity [7, 9] 100 0 connected rfl rfl rfl rfl rfl _ two_bytes_legal, rfl, rfl⟩

/-- More data than the buffer takes: the rest is dropped, and acknowledged. -/
theorem storeData_overfull (sk : Socket) (seg : Segment) (hseq : seg.seq = sk.rcvNxt) (hrx : sk.rx = [])
    (hlen : tcpRxBufSize ≤ seg.payloadLen) : (storeData sk seg).rx.length = tcpRxBufSize ∧
      (storeData sk seg).rcvNxt = u32 (sk.rcvNxt + seg.payloadLen) := by
  have hcopy : copyLen sk seg = tcpRxBufSize := by
    unfold copyLen
    rw [hrx]
    exact if_neg (Nat.not_lt.mpr hlen)
  unfold storeData
  rw [if_pos hseq, hcopy, hrx]
  exact ⟨by simp only [List.nil_append, seg.length_bytes], rfl⟩

theorem fromPeer_carries {peer : List UInt8} (hlen : peer.length < 2 ^ 16) :
    Carries peer 100 (fromPeer 100 false peer) 0 := by
  refine ⟨rfl, hlen, Nat.le_of_eq (Nat.zero_add _), ?_, fun h => (by cases h)⟩
  have hall : (peer.drop 0).take (fromPeer 100 false peer).payloadLen = peer := List.take_length
  rw [hall]
  refine List.ext_getElem (by simp [Segment.bytes, fromPeer]) fun n hn hn' => ?_
  simp [Segment.bytes, fromPeer, List.getElem?_eq_getElem hn']

/-- The first segment of a stream goes into the buffer of the socket. -/
theorem connected_data (peer : List UInt8) (hpos : 0 < peer.length) :
    (step connected (.rx 1 (fromPeer 100 false peer) 0)).2.tcp.sockets 0
      = storeData (connected.tcp.sockets 0) (fromPeer 100 false peer) := by
  have hdata : rxData (connected.tcp.sockets 0) 1 (fromPeer 100 false peer)
      = (storeData (connected.tcp.sockets 0) (fromPeer 100 false peer), _) := if_pos hpos
  show (tcpRx connected.tcp 1 (fromPeer 100 false peer) 0).sockets 0 = _
  show (rxData (connected.tcp.sockets 0) 1 (fromPeer 100 false peer)).1 = _
  rw [hdata]

/-- The second byte comes while the first one is being taken. -/
def interruptedRecv : List Call :=
  [.rx 1 (fromPeer 100 false [7]) 0, .recv 0 8, .rx 1 (fromPeer 101 false [9]) 0, .recvEnd 0]

/-- **Bytes acknowledged and lost.**  A FIN with the last byte moves `rcv_nxt` behind both, and the byte is not
    stored; of a segment of 8193 bytes the buffer takes 8192, and `rcv_nxt` moves behind all of them; and a byte
    that comes in the middle of `tcp_socket_recv` is cut off the buffer. -/
theorem acknowledged_bytes_lost : (Carries [7] 100 (fromPeer 100 true [7]) 0 ∧
      (step connected (.rx 1 (fromPeer 100 true [7]) 0)).2.received 0 = [] ∧
      ((step connected (.rx 1 (fromPeer 100 true [7]) 0)).2.tcp.sockets 0).rcvNxt = 102) ∧
    ((exec step connected interruptedRecv).2.received 0 = [7] ∧
      ((exec step connected interruptedRecv).2.tcp.sockets 0).rcvNxt = 102) ∧
    ∃ peer : List UInt8, Carries peer 100 (fromPeer 100 false peer) 0 ∧
      ((step connected (.rx 1 (fromPeer 100 false peer) 0)).2.received 0).length = 8192 ∧
      ((step connected (.rx 1 (fromPeer 100 false peer) 0)).2.tcp.sockets 0).rcvNxt = 100 + 8193 := by
  refine ⟨⟨⟨rfl, by decide, by decide, rfl, fun _ => rfl⟩, rfl, rfl⟩, ⟨rfl, rfl⟩, ?_⟩
  have hlength : ∃ peer : List UInt8, peer.length = 8193 := ⟨List.replicate 8193 7, List.length_replicate⟩
  obtain ⟨peer, hlen⟩ := hlength
  obtain ⟨hrx, hnext⟩ := storeData_overfull (connected.tcp.sockets 0) (fromPeer 100 false peer) rfl rfl
    (by show 8192 ≤ peer.length; omega)
  have hsk := connected_data peer (by omega)
  refine ⟨peer, fromPeer_carries (by omega), ?_, ?_⟩
  · show ([] ++ ((step connected (.rx 1 (fromPeer 100 false peer) 0)).2.tcp.sockets 0).rx).length = _
    rwa [hsk]
  · rw [hsk]
    show u32 (100 + peer.length) = _
    rw [hlen]
    rfl

end Lyth.Tcp
