/-
  Kernel sockets (`net/socket.c`) over the socket tables of TCP and UDP (`net/tcp.c`, `net/udp.c`).

    1. The program.   `socket.c` has a table of 32 handles.  Each names a slot of one of the two lower tables by
       its index `proto_fd`.  The lower tables hand out their first free slot.  `tcp_rx` and `tcp_tick` free
       slots by themselves.
    2. Specification.  `Integrity`: no two handles of one type share a slot, and the slot of every handle is in
       use and was opened for it.  `Accepted`: what `net_accept` answers is a handle of the new connection.
    3. Crux.  As long as a handle holds it, a TCP slot is in one of the states that only the application
       leaves (`held`), with ONE exception: a reset frees the slot of an established connection.  And
       `net_accept` answers with the index of the slot, which is the index of the handle only where the two
       tables happen to agree.
-/
import Lyth.Lib.Lease
import Lyth.Net

namespace Lyth.Sockets

open Lease Run Table Word Function
open Net (UdpSocket udpMaxSockets)
open Tcp (Segment TcpState tcpMaxSockets tcpRx tcpWindowSize findSocket rxSwitch tcpRx_socket)

/-! ## The lower tables -/

/-- The slot that an `int` names, with the checks `sock < 0 || sock >= MAX`. -/
def slotOf (n : Nat) (sock : Int) : Option (Fin n) :=
  if h : 0 ≤ sock ∧ sock < n then some ⟨sock.toNat, by omega⟩ else none

/-- The checks at the beginning of the functions of `tcp.c`: the slot, if it is in use. -/
def tcpSlot (s : Tcp.State) (sock : Int) : Option (Fin tcpMaxSockets) :=
  (slotOf tcpMaxSockets sock).filter fun k => (s.sockets k).used

/-- `tcp_socket_open()`. -/
def tcpSocketOpen (s : Tcp.State) : Option (Fin tcpMaxSockets) × Tcp.State :=
  match firstIdx fun k => !(s.sockets k).used with
  | some k => (some k, s.setSocket k { Tcp.Socket.zero with used := true, state := .closed, rcvWnd := tcpWindowSize })
  | none => (none, s)

/-- What happens on the wire or the clock. -/
inductive Event
  | rx (srcIp : Nat) (seg : Segment) (now : Nat)
  | tick (now : Nat)

/-- `tcp_tick`, for one slot. -/
def tickSocket (now : Nat) (sk : Tcp.Socket) : Tcp.Socket :=
  if sk.used && decide (sk.state = .timeWait) && decide (u32 (now + 2 ^ 32 - sk.lastAckTick) > 200) then
    { sk with state := .closed, used := false }
  else sk

/-- `tcp_tick()`. -/
def tcpTick (s : Tcp.State) (now : Nat) : Tcp.State := { s with sockets := fun k => tickSocket now (s.sockets k) }

def arrive (s : Tcp.State) : Event → Tcp.State
  | .rx srcIp seg now => tcpRx s srcIp seg now
  | .tick now => tcpTick s now

/-- A busy wait: as long as `p` holds, the next event arrives.  It ends with a timeout when there is none, and
    leaves the events that come later. -/
def waitWhile (p : Tcp.State → Bool) : List Event → Tcp.State → List Event × Tcp.State
  | [], s => ([], s)
  | e :: es, s => if p s then waitWhile p es (arrive s e) else (e :: es, s)

/-- `tcp_socket_connect`, up to the wait. -/
def sendSyn (s : Tcp.State) (k : Fin tcpMaxSockets) (dstIp dstPort : Nat) : Tcp.State :=
  let isn := u32 (s.tcpIsn + 1)
  let sk : Tcp.Socket := { s.sockets k with
    remoteIp := dstIp, remotePort := dstPort, localPort := (49152 + s.tcpIsn % 16384) % 2 ^ 16, sndNxt := isn,
    sndUna := isn, state := .synSent }
  { (s.setSocket k { sk with sndNxt := u32 (isn + 1) }).send
      { sk.reply dstIp dstPort { syn := true } tcpWindowSize with ack := 0 } with tcpIsn := u32 (isn + 1) }

/-- What the waits of `tcp_socket_connect` and `tcp_socket_accept` wait for an end of. -/
def connecting (k : Fin tcpMaxSockets) (s : Tcp.State) : Bool := decide ((s.sockets k).state = .synSent)

def listening (k : Fin tcpMaxSockets) (s : Tcp.State) : Bool :=
  decide ((s.sockets k).state ≠ .established) && decide ((s.sockets k).state ≠ .synReceived)

def handshaking (k : Fin tcpMaxSockets) (s : Tcp.State) : Bool := decide ((s.sockets k).state = .synReceived)

/-- `tcp_socket_connect(sock, dst_ip, dst_port)`, with what arrives while it waits. -/
def tcpSocketConnect (s : Tcp.State) (sock : Int) (dstIp dstPort : Nat) (events : List Event) : Int × Tcp.State :=
  match tcpSlot s sock with
  | none => (-1, s)
  | some k =>
    let (_, s) := waitWhile (connecting k) events (sendSyn s k dstIp dstPort)
    (if (s.sockets k).state = .established then 0 else -1, s)

/-- `tcp_socket_listen(sock, port)`. -/
def tcpSocketListen (s : Tcp.State) (sock : Int) (port : Nat) : Int × Tcp.State :=
  match tcpSlot s sock with
  | none => (-1, s)
  | some k => (0, s.setSocket k { s.sockets k with localPort := port, state := .listen })

/-- The two waits of `tcp_socket_accept`. -/
def waitAccept (s : Tcp.State) (k : Fin tcpMaxSockets) (events : List Event) : Tcp.State :=
  let r := waitWhile (listening k) events s
  if (r.2.sockets k).state = .synReceived then (waitWhile (handshaking k) r.1 r.2).2 else r.2

/-- `tcp_socket_accept(sock)`, with what arrives while it waits. -/
def tcpSocketAccept (s : Tcp.State) (sock : Int) (events : List Event) : Int × Tcp.State :=
  match tcpSlot s sock with
  | none => (-1, s)
  | some k =>
    if (s.sockets k).state ≠ .listen then (-1, s)
    else
      let s := waitAccept s k events
      (if (s.sockets k).state = .established then sock else -1, s)

/-- `tcp_socket_close(sock)`. -/
def tcpSocketClose (s : Tcp.State) (sock : Int) : Tcp.State :=
  match tcpSlot s sock with
  | none => s
  | some k =>
    let sk := s.sockets k
    let finish (state : TcpState) : Tcp.State :=
      (s.setSocket k { sk with state, sndNxt := u32 (sk.sndNxt + 1) }).send
        (sk.reply sk.remoteIp sk.remotePort { fin := true, ack := true } 0)
    match sk.state with
    | .established => finish .finWait1
    | .closeWait => finish .lastAck
    | _ => s.setSocket k { sk with state := .closed, used := false }

/-- `udp_socket_open(local_port)`. -/
def udpSocketOpen (udp : Fin udpMaxSockets → UdpSocket) (localPort : Nat) :
    Option (Fin udpMaxSockets) × (Fin udpMaxSockets → UdpSocket) :=
  match firstIdx fun k => !(udp k).used with
  | some k => (some k, update udp k
      { used := true, localPort, remoteIp := 0, remotePort := 0, rx := [], rxFromIp := 0,
        rxFromPort := 0, rxReady := false })
  | none => (none, udp)

/-- `udp_socket_close(sock)`. -/
def udpSocketClose (udp : Fin udpMaxSockets → UdpSocket) (sock : Int) : Fin udpMaxSockets → UdpSocket :=
  match slotOf udpMaxSockets sock with
  | none => udp
  | some k => update udp k { udp k with used := false }

/-- `udp_socket_bind(sock, remote_ip, remote_port)`. -/
def udpSocketBind (udp : Fin udpMaxSockets → UdpSocket) (sock : Int) (remoteIp : UInt32) (remotePort : Nat) :
    Int × (Fin udpMaxSockets → UdpSocket) :=
  match (slotOf udpMaxSockets sock).filter fun k => (udp k).used with
  | none => (-1, udp)
  | some k => (0, update udp k { udp k with remoteIp, remotePort })

/-! ## `socket.c` -/

abbrev netMaxSockets : Nat := 32
def afInet : Int := 2
def sockStream : Int := 1
def sockDgram : Int := 2

/-- `ksocket_t`. -/
structure Ksocket where
  used : Bool
  domain : Int
  type : Int
  protoFd : Int

def Ksocket.setProtoFd (e : Ksocket) (protoFd : Int) : Ksocket := { e with protoFd }

def Ksocket.close (e : Ksocket) : Ksocket := { e with used := false }

/-- The three tables; `tcpOwner` and `udpOwner` say which handle a slot was last opened for. -/
structure World where
  sockets : Fin netMaxSockets → Ksocket
  tcp : Tcp.State
  udp : Fin udpMaxSockets → UdpSocket
  tcpOwner : Fin tcpMaxSockets → Option (Fin netMaxSockets)
  udpOwner : Fin udpMaxSockets → Option (Fin netMaxSockets)

def World.setSocket (w : World) (i : Fin netMaxSockets) (e : Ksocket) : World :=
  { w with sockets := update w.sockets i e }

/-- A TCP slot is opened for the handle `i`; `proto_fd` is -1 if there is none. -/
def World.openTcp (w : World) (i : Fin netMaxSockets) : Int × World :=
  match tcpSocketOpen w.tcp with
  | (some k, tcp) => (k, { w with tcp, tcpOwner := update w.tcpOwner k (some i) })
  | (none, tcp) => (-1, { w with tcp })

/-- A UDP slot. -/
def World.openUdp (w : World) (i : Fin netMaxSockets) (localPort : Nat) : Int × World :=
  match udpSocketOpen w.udp localPort with
  | (some k, udp) => (k, { w with udp, udpOwner := update w.udpOwner k (some i) })
  | (none, udp) => (-1, { w with udp })

/-- `net_socket(domain, type, protocol)`. -/
def netSocket (w : World) (domain type : Int) : Int × World :=
  if domain ≠ afInet then (-1, w)
  else
    match firstIdx fun i => !(w.sockets i).used with
    | none => (-1, w)
    | some i =>
      let (protoFd, w) :=
        if type = sockDgram then w.openUdp i 0 else if type = sockStream then w.openTcp i else (-1, w)
      if protoFd < 0 then (-1, w)
      else (i, w.setSocket i { used := true, domain, type, protoFd })

/-- The checks at the beginning of the other functions: the handle, if it is in use. -/
def handle (w : World) (sockfd : Int) : Option (Fin netMaxSockets) :=
  (slotOf netMaxSockets sockfd).filter fun i => (w.sockets i).used

/-- `net_bind(sockfd, addr, port)`. -/
def netBind (w : World) (sockfd : Int) (port : Nat) : Int × World :=
  match handle w sockfd with
  | none => (-1, w)
  | some i =>
    let e := w.sockets i
    if e.type = sockDgram then
      let w := { w with udp := udpSocketClose w.udp e.protoFd }
      let (protoFd, w) := w.openUdp i port
      (if protoFd ≥ 0 then 0 else -1, w.setSocket i (e.setProtoFd protoFd))
    else (-1, w)

/-- `net_connect(sockfd, addr, port)`. -/
def netConnect (w : World) (sockfd : Int) (addr : UInt32) (port : Nat) (events : List Event) : Int × World :=
  match handle w sockfd with
  | none => (-1, w)
  | some i =>
    let e := w.sockets i
    if e.type = sockStream then
      let (r, tcp) := tcpSocketConnect w.tcp e.protoFd addr.toNat port events
      (r, { w with tcp })
    else if e.type = sockDgram then
      let (r, udp) := udpSocketBind w.udp e.protoFd addr port
      (r, { w with udp })
    else (-1, w)

/-- `net_listen(sockfd, backlog)`. -/
def netListen (w : World) (sockfd : Int) : Int × World :=
  match handle w sockfd with
  | none => (-1, w)
  | some i =>
    let e := w.sockets i
    if e.type ≠ sockStream then (-1, w)
    else
      let (r, tcp) := tcpSocketListen w.tcp e.protoFd 0
      (r, { w with tcp })

/-- `net_accept(sockfd)`. -/
def netAccept (w : World) (sockfd : Int) (events : List Event) : Int × World :=
  match handle w sockfd with
  | none => (-1, w)
  | some i =>
    let e := w.sockets i
    if e.type ≠ sockStream then (-1, w)
    else
      let (r, tcp) := tcpSocketAccept w.tcp e.protoFd events
      (r, { w with tcp })

/-- `net_close(sockfd)`. -/
def netClose (w : World) (sockfd : Int) : Int × World :=
  match handle w sockfd with
  | none => (-1, w)
  | some i =>
    let e := w.sockets i
    let w :=
      if e.type = sockDgram then { w with udp := udpSocketClose w.udp e.protoFd }
      else if e.type = sockStream then { w with tcp := tcpSocketClose w.tcp e.protoFd }
      else w
    (0, w.setSocket i e.close)

/-- `net_init`, with the first initial sequence number. -/
def netInit (isn : Nat) : World where
  sockets := fun _ => { used := false, domain := 0, type := 0, protoFd := 0 }
  tcp := { sockets := fun _ => Tcp.Socket.zero, tcpIsn := isn, sent := [] }
  udp := fun _ =>
    { used := false, localPort := 0, remoteIp := 0, remotePort := 0, rx := [], rxFromIp := 0, rxFromPort := 0,
      rxReady := false }
  tcpOwner := fun _ => none
  udpOwner := fun _ => none

inductive Call
  | socket (domain type : Int)
  | bind (sockfd : Int) (port : Nat)
  | connect (sockfd : Int) (addr : UInt32) (port : Nat) (events : List Event)
  | listen (sockfd : Int)
  | accept (sockfd : Int) (events : List Event)
  | close (sockfd : Int)
  | event (e : Event)

def step (w : World) : Call → Int × World
  | .socket domain type => netSocket w domain type
  | .bind sockfd port => netBind w sockfd port
  | .connect sockfd addr port events => netConnect w sockfd addr port events
  | .listen sockfd => netListen w sockfd
  | .accept sockfd events => netAccept w sockfd events
  | .close sockfd => netClose w sockfd
  | .event e => (0, { w with tcp := arrive w.tcp e })

/-! ## Specification -/

/-- The handle `i` stands for slot `k`, which is in use and was opened for it. -/
def HoldsTcp (w : World) (i : Fin netMaxSockets) (k : Fin tcpMaxSockets) : Prop :=
  (w.sockets i).protoFd = k ∧ (w.tcp.sockets k).used ∧ w.tcpOwner k = some i

def HoldsUdp (w : World) (i : Fin netMaxSockets) (k : Fin udpMaxSockets) : Prop :=
  (w.sockets i).protoFd = k ∧ (w.udp k).used ∧ w.udpOwner k = some i

/-- **Handles are sound**: no two of one type share a slot, and each has a slot of its own. -/
structure Integrity (w : World) : Prop where
  distinct : ∀ i j, (w.sockets i).used → (w.sockets j).used →
    (w.sockets i).type = (w.sockets j).type → (w.sockets i).protoFd = (w.sockets j).protoFd → i = j
  holds : ∀ i, (w.sockets i).used →
    ((w.sockets i).type = sockStream ∧ ∃ k, HoldsTcp w i k) ∨ ((w.sockets i).type = sockDgram ∧ ∃ k, HoldsUdp w i k)

/-- The answer `r` of `net_accept(sockfd)` in `w`, which left `w'`: if it is not negative, it is the index of
    a stream handle in use, and that handle stands for the connection that the listening slot has become. -/
def Accepted (w w' : World) (sockfd r : Int) : Prop :=
  0 ≤ r → ∃ i j : Fin netMaxSockets, sockfd = i ∧ r = j ∧ (w'.sockets j).used ∧
    (w'.sockets j).type = sockStream ∧
    ∃ k : Fin tcpMaxSockets, (w.sockets i).protoFd = k ∧ HoldsTcp w' j k ∧ (w'.tcp.sockets k).state = .established

/-- No reset for an established connection. -/
def Calm (s : Tcp.State) : Event → Prop
  | .rx srcIp seg _ =>
    ∀ k, findSocket s srcIp seg = some k → (s.sockets k).state = .established → seg.flags.rst = false
  | .tick _ => True

/-- Nor one while a wait goes on. -/
def CalmWhile (p : Tcp.State → Bool) : List Event → Tcp.State → Prop
  | [], _ => True
  | e :: es, s => p s → Calm s e ∧ CalmWhile p es (arrive s e)

/-- The condition on a call: no established connection is reset while it runs, and `net_accept` is called on
    a handle whose index is that of its slot. -/
def Legal (w : World) : Call → Prop
  | .event e => Calm w.tcp e
  | .connect sockfd addr port events => ∀ i k, handle w sockfd = some i →
      tcpSlot w.tcp (w.sockets i).protoFd = some k →
      CalmWhile (connecting k) events (sendSyn w.tcp k addr.toNat port)
  | .accept sockfd events => ∀ i k, handle w sockfd = some i → tcpSlot w.tcp (w.sockets i).protoFd = some k →
      (w.sockets i).protoFd = sockfd ∧ CalmWhile (listening k) events w.tcp ∧
      CalmWhile (handshaking k) (waitWhile (listening k) events w.tcp).1 (waitWhile (listening k) events w.tcp).2
  | _ => True

/-! ## Slots -/

section

variable {n : Nat} {sock : Int}

theorem slotOf_eq_some {k : Fin n} : slotOf n sock = some k ↔ sock = k := by
  unfold slotOf
  constructor
  · intro h
    split at h
    · obtain rfl := Option.some.inj h
      simp only
      omega
    · cases h
  · rintro rfl
    rw [dif_pos ⟨by omega, by omega⟩]
    rfl

theorem slotOf_coe (k : Fin n) : slotOf n (k : Int) = some k := slotOf_eq_some.mpr rfl

theorem handle_eq_some {w : World} {i : Fin netMaxSockets} :
    handle w sock = some i ↔ sock = i ∧ (w.sockets i).used := by
  unfold handle
  rw [Option.filter_eq_some_iff, slotOf_eq_some]

theorem tcpSlot_eq_some {s : Tcp.State} {k : Fin tcpMaxSockets} :
    tcpSlot s sock = some k ↔ sock = k ∧ (s.sockets k).used := by
  unfold tcpSlot
  rw [Option.filter_eq_some_iff, slotOf_eq_some]

end

/-! ## What TCP does to a slot that is held -/

/-- The states that a connection leaves only by the application, or by a reset. -/
def held : TcpState → Bool
  | .closed | .listen | .synSent | .synReceived | .established | .closeWait => true
  | _ => false

/-- The slot is in use, and in one of these states. -/
def Live (s : Tcp.State) (k : Fin tcpMaxSockets) : Prop :=
  (s.sockets k).used ∧ held (s.sockets k).state

variable {events : List Event}

section

variable {s : Tcp.State} {k k' : Fin tcpMaxSockets}

theorem rxData_live {sk : Tcp.Socket} {srcIp : Nat} {seg : Segment} (hused : sk.used)
    (hstate : sk.state = .established) :
    (Tcp.rxData sk srcIp seg).1.used ∧ held (Tcp.rxData sk srcIp seg).1.state := by
  have hheld : held sk.state := by rw [hstate]; rfl
  unfold Tcp.rxData
  split
  · exact ⟨hused, rfl⟩
  split
  · simp only [Tcp.storeData]
    split <;> exact ⟨hused, hheld⟩
  · split <;> exact ⟨hused, hheld⟩

/-- One round of the switch keeps a held connection, unless it resets an established one. -/
theorem rxSwitch_live {sk : Tcp.Socket} {srcIp : Nat} {seg : Segment} (isn now : Nat) (hused : sk.used)
    (hheld : held sk.state) (hcalm : sk.state = .established → seg.flags.rst = false) :
    (rxSwitch sk srcIp seg isn now).1.used ∧ held (rxSwitch sk srcIp seg isn now).1.state := by
  unfold rxSwitch
  split
  iterate 3
    · split
      · exact ⟨hused, rfl⟩
      · exact ⟨hused, hheld⟩
  · rename_i hstate
    simp only [Tcp.rxEstablished, hcalm hstate]
    exact rxData_live hused hstate
  -- the closing states are none of them
  iterate 5
    · rename_i hstate
      rw [hstate] at hheld
      cases hheld
  · exact ⟨hused, hheld⟩
  · exact ⟨hused, hheld⟩

/-- **An event keeps every held slot.** -/
theorem Live.arrive (h : Live s k) {e : Event} (hcalm : Calm s e) : Live (arrive s e) k := by
  cases e with
  | rx srcIp seg now =>
    unfold Live Sockets.arrive
    rw [tcpRx_socket]
    split
    · rename_i hfind
      exact rxSwitch_live _ _ h.1 h.2 (hcalm k hfind)
    · exact h
  | tick now =>
    have hstate : (s.sockets k).state ≠ .timeWait := by
      intro heq
      have hheld := h.2
      rw [heq] at hheld
      cases hheld
    show (tickSocket now (s.sockets k)).used ∧ held (tickSocket now (s.sockets k)).state
    unfold tickSocket
    rwa [decide_eq_false hstate, Bool.and_false]

/-- A wait is a number of events. -/
theorem Live.waitWhile {p : Tcp.State → Bool} (h : Live s k) (hcalm : CalmWhile p events s) :
    Live (waitWhile p events s).2 k := by
  induction events generalizing s with
  | nil => exact h
  | cons e es ih =>
    unfold Sockets.waitWhile
    split
    · rename_i hp
      obtain ⟨he, hes⟩ := hcalm hp
      exact ih (h.arrive he) hes
    · exact h

/-- Another socket is set. -/
theorem Live.setSocket_ne (h : Live s k) (hne : k ≠ k') (sk : Tcp.Socket) : Live (s.setSocket k' sk) k := by
  unfold Live Tcp.State.setSocket
  simp only [update_of_ne hne]
  exact h

/-- A socket is set to one that is held. -/
theorem Live.setSocket (h : Live s k) (sk : Tcp.Socket) (hused : sk.used) (hheld : held sk.state) :
    Live (s.setSocket k' sk) k := by
  rcases eq_or_ne k k' with rfl | hk
  · unfold Live Tcp.State.setSocket
    simp only [update_self]
    exact ⟨hused, hheld⟩
  · exact h.setSocket_ne hk sk

end

/-! ## The invariant -/

/-- The slot of the table for `type` that a handle refers to. -/
def entryRef (type : Int) (e : Ksocket) : Option (Fin 16) :=
  if e.used ∧ e.type = type then slotOf 16 e.protoFd else none

/-- The handles hold leases on both tables, and every handle has one. -/
structure Inv (w : World) : Prop where
  tcp : Leased (entryRef sockStream ∘ w.sockets) (Live w.tcp) w.tcpOwner
  udp : Leased (entryRef sockDgram ∘ w.sockets) (fun k => (w.udp k).used) w.udpOwner
  formed : ∀ i, (w.sockets i).used →
    ((w.sockets i).type = sockStream ∨ (w.sockets i).type = sockDgram) ∧ ∃ k : Fin 16, (w.sockets i).protoFd = k

/-- The handle is of one of the two types, and has the number of a slot. -/
def Ksocket.Formed (e : Ksocket) : Prop :=
  (e.type = sockStream ∨ e.type = sockDgram) ∧ ∃ k : Fin 16, e.protoFd = k

section

variable {w : World} {e : Ksocket}

theorem entryRef_eq {type : Int} (hused : e.used) (htype : e.type = type) {k : Fin 16}
    (hfd : e.protoFd = k) : entryRef type e = some k := by
  unfold entryRef
  rw [if_pos ⟨hused, htype⟩, hfd, slotOf_coe]

theorem entryRef_other {type : Int} (h : e.used = false ∨ e.type ≠ type) : entryRef type e = none := by
  unfold entryRef
  rw [if_neg]
  rintro ⟨hused, htype⟩
  rcases h with h | h
  · rw [hused] at h
    cases h
  · exact h htype

theorem Inv.integrity (h : Inv w) : Integrity w := by
  refine ⟨fun i j hi hj htype hfd => ?_, fun i hi => ?_⟩
  · obtain ⟨hstream | hdgram, k, hk⟩ := h.formed i hi
    · exact h.tcp.unique (entryRef_eq hi hstream hk) (entryRef_eq hj (htype ▸ hstream) (hfd ▸ hk))
    · exact h.udp.unique (entryRef_eq hi hdgram hk) (entryRef_eq hj (htype ▸ hdgram) (hfd ▸ hk))
  · obtain ⟨hstream | hdgram, k, hk⟩ := h.formed i hi
    · obtain ⟨hlive, howner⟩ := h.tcp i k (entryRef_eq hi hstream hk)
      exact .inl ⟨hstream, k, hk, hlive.1, howner⟩
    · obtain ⟨hlive, howner⟩ := h.udp i k (entryRef_eq hi hdgram hk)
      exact .inr ⟨hdgram, k, hk, hlive, howner⟩

theorem netInit_inv (isn : Nat) : Inv (netInit isn) := by
  refine ⟨?_, ?_, ?_⟩
  · intro i k h
    cases h
  · intro i k h
    cases h
  · intro i h
    cases h

/-- TCP may do what it likes as long as it keeps the held slots. -/
theorem Inv.setTcp (h : Inv w) {tcp : Tcp.State} (hlive : ∀ k, Live w.tcp k → Live tcp k) :
    Inv { w with tcp } :=
  ⟨h.tcp.frame fun _ k _ hk => hlive k hk, h.udp, h.formed⟩

/-- A handle that changes leaves the handles of the other type alone. -/
theorem Inv.setSocket (h : Inv w) {i : Fin netMaxSockets} {w' : World}
    (htcp : Leased (update (entryRef sockStream ∘ w.sockets) i (entryRef sockStream e)) (Live w'.tcp) w'.tcpOwner)
    (hudp : Leased (update (entryRef sockDgram ∘ w.sockets) i (entryRef sockDgram e))
      (fun k => (w'.udp k).used) w'.udpOwner)
    (hsockets : w'.sockets = w.sockets) (he : e.used → e.Formed) :
    Inv (w'.setSocket i e) := by
  have hcomp : ∀ type, entryRef type ∘ (w'.setSocket i e).sockets
      = update (entryRef type ∘ w.sockets) i (entryRef type e) := by
    intro type
    show entryRef type ∘ update w'.sockets i e = _
    rw [hsockets, comp_update]
  refine ⟨?_, ?_, fun j hj => ?_⟩
  · rwa [hcomp]
  · rwa [hcomp]
  change (update w'.sockets i e j).used at hj
  show (update w'.sockets i e j).Formed
  rw [hsockets] at hj ⊢
  by_cases hji : j = i
  · rw [hji, update_self] at hj ⊢
    exact he hj
  · rw [update_of_ne hji] at hj ⊢
    exact h.formed j hj

/-- Opening a TCP slot: there is none, or the first one that is free is taken. -/
theorem openTcp_cases (w : World) (i : Fin netMaxSockets) : w.openTcp i = (-1, w) ∨
    ∃ (k : Fin tcpMaxSockets) (tcp : Tcp.State), (w.tcp.sockets k).used = false ∧ Live tcp k ∧
      (∀ k', k' ≠ k → Live w.tcp k' → Live tcp k') ∧
      w.openTcp i = ((k : Int), { w with tcp, tcpOwner := update w.tcpOwner k (some i) }) := by
  unfold World.openTcp tcpSocketOpen
  cases hfind : firstIdx fun k => !(w.tcp.sockets k).used with
  | none => exact .inl rfl
  | some k =>
    refine .inr ⟨k, _, by simpa using firstIdx_some hfind, ?_, ?_, rfl⟩
    · unfold Live Tcp.State.setSocket
      simp only [update_self]
      exact ⟨trivial, rfl⟩
    · exact fun k' hk' hlive => hlive.setSocket_ne hk' _

theorem openUdp_cases (w : World) (i : Fin netMaxSockets) (localPort : Nat) :
    (w.openUdp i localPort = (-1, w) ∧ ∀ k, (w.udp k).used) ∨
    ∃ (k : Fin udpMaxSockets) (udp : Fin udpMaxSockets → UdpSocket), (w.udp k).used = false ∧ (udp k).used ∧
      (∀ k', k' ≠ k → (w.udp k').used → (udp k').used) ∧
      w.openUdp i localPort = ((k : Int), { w with udp, udpOwner := update w.udpOwner k (some i) }) := by
  unfold World.openUdp udpSocketOpen
  cases hfind : firstIdx fun k => !(w.udp k).used with
  | none => exact .inl ⟨rfl, fun k => by simpa using firstIdx_eq_none.mp hfind k⟩
  | some k =>
    refine .inr ⟨k, _, by simpa using firstIdx_some hfind, ?_, ?_, rfl⟩
    · rw [update_self]
    · intro k' hk' hused
      rwa [update_of_ne hk']

theorem sockStream_ne_sockDgram : sockStream ≠ sockDgram := by decide

/-- `net_socket`. -/
theorem Inv.netSocket (h : Inv w) (domain type : Int) : Inv (netSocket w domain type).2 := by
  unfold Sockets.netSocket
  split
  · exact h
  cases hfind : firstIdx fun i => !(w.sockets i).used with
  | none => exact h
  | some i =>
    dsimp only
    by_cases hdgram : type = sockDgram
    · rw [if_pos hdgram]
      rcases openUdp_cases w i 0 with ⟨heq, _⟩ | ⟨k, udp, hfree, hused, hother, heq⟩
      · rwa [heq]
      rw [heq]
      refine h.setSocket ?_ ?_ rfl fun _ => ⟨.inr hdgram, k, rfl⟩
      · rw [entryRef_other (.inr (hdgram ▸ sockStream_ne_sockDgram.symm))]
        exact h.tcp.drop i
      · rw [entryRef_eq rfl hdgram rfl]
        exact h.udp.acquire i (by rw [hfree]; decide) hused hother
    · rw [if_neg hdgram]
      by_cases hstream : type = sockStream
      · rw [if_pos hstream]
        rcases openTcp_cases w i with heq | ⟨k, tcp, hfree, hlive, hother, heq⟩
        · rwa [heq]
        rw [heq]
        refine h.setSocket ?_ ?_ rfl fun _ => ⟨.inl hstream, k, rfl⟩
        · rw [entryRef_eq rfl hstream rfl]
          refine h.tcp.acquire i ?_ hlive hother
          rintro ⟨hused, _⟩
          rw [hfree] at hused
          cases hused
        · rw [entryRef_other (.inr hdgram)]
          exact h.udp.drop i
      · rwa [if_neg hstream]

/-- Closing the UDP slot of a handle. -/
theorem udpSocketClose_used (udp : Fin udpMaxSockets → UdpSocket) (k : Fin udpMaxSockets) :
    udpSocketClose udp k = update udp k { udp k with used := false } := by
  unfold udpSocketClose
  rw [slotOf_coe]

/-- `net_bind`: the slot of the handle goes, and there is one again at once. -/
theorem Inv.netBind (h : Inv w) (sockfd : Int) (port : Nat) : Inv (netBind w sockfd port).2 := by
  unfold Sockets.netBind
  cases hhandle : handle w sockfd with
  | none => exact h
  | some i =>
    obtain ⟨_, hi⟩ := handle_eq_some.mp hhandle
    obtain ⟨_, k, hk⟩ := h.formed i hi
    dsimp only
    split
    · rename_i hdgram
      rw [hk, udpSocketClose_used]
      have hclosed : Leased (update (entryRef sockDgram ∘ w.sockets) i none)
          (fun k' => (update w.udp k { w.udp k with used := false } k').used) w.udpOwner := by
        refine h.udp.release (entryRef_eq hi hdgram hk) fun k' hk' hused => ?_
        rwa [update_of_ne hk']
      generalize hw : { w with udp := update w.udp k { w.udp k with used := false } } = w₁
      rcases openUdp_cases w₁ i port with ⟨_, hfull⟩ | ⟨k', udp, hfree, hused, hother, heq⟩
      · -- the slot that was closed is free
        have hk' := hfull k
        rw [← hw] at hk'
        simp only [update_self] at hk'
        cases hk'
      rw [heq]
      subst hw
      refine h.setSocket ?_ ?_ rfl fun _ => ⟨.inr hdgram, k', rfl⟩
      · have hnone : entryRef sockStream ((w.sockets i).setProtoFd k') = none :=
          entryRef_other (.inr fun hstream => sockStream_ne_sockDgram (hstream.symm.trans hdgram))
        rw [hnone]
        exact h.tcp.drop i
      · have href : entryRef sockDgram ((w.sockets i).setProtoFd k') = some k' :=
          entryRef_eq (e := (w.sockets i).setProtoFd k') hi hdgram rfl
        have hacquire := hclosed.acquire i (by rw [hfree]; decide) hused hother
        rw [update_idem] at hacquire
        rwa [href]
    · exact h

/-- `net_close`. -/
theorem Inv.netClose (h : Inv w) (sockfd : Int) : Inv (netClose w sockfd).2 := by
  unfold Sockets.netClose
  cases hhandle : handle w sockfd with
  | none => exact h
  | some i =>
    obtain ⟨_, hi⟩ := handle_eq_some.mp hhandle
    obtain ⟨htypes, k, hk⟩ := h.formed i hi
    dsimp only
    rcases htypes with hstream | hdgram
    · rw [if_neg (by rw [hstream]; exact sockStream_ne_sockDgram), if_pos hstream]
      rw [show tcpSocketClose w.tcp (w.sockets i).protoFd = tcpSocketClose w.tcp k by rw [hk]]
      refine h.setSocket ?_ ?_ rfl fun hused => nomatch hused
      · refine h.tcp.release (entryRef_eq hi hstream hk) fun k' hk' hlive => ?_
        unfold tcpSocketClose
        cases hslot : tcpSlot w.tcp k with
        | none => exact hlive
        | some k₁ =>
          obtain ⟨hk₁, _⟩ := tcpSlot_eq_some.mp hslot
          have hne : k' ≠ k₁ := fun heq => hk' (Fin.ext (by rw [heq]; omega))
          dsimp only
          split <;> exact hlive.setSocket_ne hne _
      · exact h.udp.drop i
    · rw [if_pos hdgram, show udpSocketClose w.udp (w.sockets i).protoFd = udpSocketClose w.udp k by rw [hk],
        udpSocketClose_used]
      refine h.setSocket ?_ ?_ rfl fun hused => nomatch hused
      · exact h.tcp.drop i
      · refine h.udp.release (entryRef_eq hi hdgram hk) fun k' hk' hused => ?_
        dsimp only
        rwa [update_of_ne hk']

/-! ### Calls that wait -/

theorem Live.sendSyn {s : Tcp.State} {k k' : Fin tcpMaxSockets} (h : Live s k') (hused : (s.sockets k).used)
    (dstIp dstPort : Nat) : Live (sendSyn s k dstIp dstPort) k' :=
  h.setSocket _ hused rfl

variable {sockfd : Int}

/-- `net_connect`. -/
theorem Inv.netConnect (h : Inv w) {addr : UInt32} {port : Nat}
    (hlegal : Legal w (.connect sockfd addr port events)) : Inv (netConnect w sockfd addr port events).2 := by
  unfold Sockets.netConnect
  cases hhandle : handle w sockfd with
  | none => exact h
  | some i =>
    dsimp only
    split
    · refine h.setTcp fun k' hlive => ?_
      unfold tcpSocketConnect
      cases hslot : tcpSlot w.tcp (w.sockets i).protoFd with
      | none => exact hlive
      | some k =>
        have hused := (tcpSlot_eq_some.mp hslot).2
        exact (hlive.sendSyn hused addr.toNat port).waitWhile (hlegal i k hhandle hslot)
    · split
      · refine ⟨h.tcp, h.udp.frame fun j k _ hused => ?_, h.formed⟩
        unfold udpSocketBind
        split
        · exact hused
        dsimp only
        rename_i k₁ _
        by_cases hk : k = k₁
        · rw [hk, update_self]
          rwa [hk] at hused
        · rwa [update_of_ne hk]
      · exact h

/-- `net_listen`. -/
theorem Inv.netListen (h : Inv w) (sockfd : Int) : Inv (netListen w sockfd).2 := by
  unfold Sockets.netListen
  cases hhandle : handle w sockfd with
  | none => exact h
  | some i =>
    dsimp only
    split
    · exact h
    · refine h.setTcp fun k' hlive => ?_
      unfold tcpSocketListen
      cases hslot : tcpSlot w.tcp (w.sockets i).protoFd with
      | none => exact hlive
      | some k => exact hlive.setSocket _ (tcpSlot_eq_some.mp hslot).2 rfl

/-- The two waits of `tcp_socket_accept` keep a held slot. -/
theorem Live.waitAccept {s : Tcp.State} {k k' : Fin tcpMaxSockets} (h : Live s k')
    (hfirst : CalmWhile (listening k) events s)
    (hsecond : CalmWhile (handshaking k) (Sockets.waitWhile (listening k) events s).1
      (Sockets.waitWhile (listening k) events s).2) : Live (waitAccept s k events) k' := by
  unfold Sockets.waitAccept
  dsimp only
  split
  · exact (h.waitWhile hfirst).waitWhile hsecond
  · exact h.waitWhile hfirst

/-- `net_accept`. -/
theorem Inv.netAccept (h : Inv w) (hlegal : Legal w (.accept sockfd events)) :
    Inv (netAccept w sockfd events).2 := by
  unfold Sockets.netAccept
  cases hhandle : handle w sockfd with
  | none => exact h
  | some i =>
    dsimp only
    split
    · exact h
    refine h.setTcp fun k' hlive => ?_
    unfold tcpSocketAccept
    cases hslot : tcpSlot w.tcp (w.sockets i).protoFd with
    | none => exact hlive
    | some k =>
      dsimp only
      split
      · exact hlive
      · obtain ⟨_, hfirst, hsecond⟩ := hlegal i k hhandle hslot
        exact hlive.waitAccept hfirst hsecond

/-- **One call keeps the invariant.** -/
theorem step_inv (h : Inv w) {c : Call} (hlegal : Legal w c) : Inv (step w c).2 := by
  cases c with
  | socket domain type => exact h.netSocket domain type
  | bind sockfd port => exact h.netBind sockfd port
  | connect sockfd addr port events => exact h.netConnect hlegal
  | listen sockfd => exact h.netListen sockfd
  | accept sockfd events => exact h.netAccept hlegal
  | close sockfd => exact h.netClose sockfd
  | event e => exact h.setTcp fun k hlive => hlive.arrive hlegal

/-- What `net_accept` answers is right if the indices agree. -/
theorem netAccept_accepted (h : Inv w) (hlegal : Legal w (.accept sockfd events)) :
    Accepted w (netAccept w sockfd events).2 sockfd (netAccept w sockfd events).1 := by
  have hafter := h.netAccept hlegal
  intro hr
  unfold Sockets.netAccept at hr hafter ⊢
  cases hhandle : handle w sockfd with
  | none =>
    rw [hhandle] at hr
    cases hr
  | some i =>
    obtain ⟨hsockfd, hi⟩ := handle_eq_some.mp hhandle
    rw [hhandle] at hr hafter
    dsimp only at hr hafter ⊢
    split at hr
    · cases hr
    rename_i htype
    rw [if_neg htype] at hafter ⊢
    have hstream : (w.sockets i).type = sockStream := not_ne_iff.mp htype
    unfold tcpSocketAccept at hr hafter ⊢
    cases hslot : tcpSlot w.tcp (w.sockets i).protoFd with
    | none =>
      rw [hslot] at hr
      cases hr
    | some k =>
      rw [hslot] at hr hafter
      dsimp only at hr hafter ⊢
      split at hr
      · cases hr
      rename_i hlisten
      rw [if_neg hlisten] at hafter ⊢
      split at hr
      · rename_i hestablished
        have hk := (tcpSlot_eq_some.mp hslot).1
        obtain ⟨hlive, howner⟩ := hafter.tcp i k (entryRef_eq hi hstream hk)
        have hfd : (w.sockets i).protoFd = i := (hlegal i k hhandle hslot).1.trans hsockfd
        refine ⟨i, i, hsockfd, ?_, hi, hstream, k, hk, ⟨hk, hlive.1, howner⟩, hestablished⟩
        rw [if_pos hestablished, hfd]
      · cases hr

end

/-! ## The result -/

/-- **Handle integrity.**  In every run in which no established connection is reset, and `net_accept` is only
    called on a handle whose index is that of its slot, the handles are sound in every state, and what
    `net_accept` answers is a handle of the new connection. -/
theorem handle_integrity (isn : Nat) (calls : List Call) (hlegal : Guarded step Legal (netInit isn) calls) :
    let w := (exec step (netInit isn) calls).2
    Integrity w ∧ ∀ sockfd events, Legal w (.accept sockfd events) →
      Accepted w (netAccept w sockfd events).2 sockfd (netAccept w sockfd events).1 := by
  have hstep : ∀ w c, Inv w → Legal w c → Inv (step w c).2 := fun _ _ hw hc => step_inv hw hc
  have hinv := exec_inv hstep calls (netInit isn) (netInit_inv isn) hlegal
  exact ⟨hinv.integrity, fun sockfd events hc => netAccept_accepted hinv hc⟩

/-- A segment without data to port 0, which is the port that `net_listen` passes. -/
def bare (flags : Tcp.Flags) : Segment where
  srcPort := 5000
  dstPort := 0
  seq := 0
  ack := 0
  flags := flags
  payloadLen := 0
  payload := fun _ => 0

/-- The handshake of a peer. -/
def handshake : List Event := [.rx 1 (bare { syn := true }) 0, .rx 1 (bare { ack := true }) 0]

/-- Events without a reset are calm wherever they arrive. -/
theorem calmWhile_of_no_rst (h : ∀ srcIp seg now, .rx srcIp seg now ∈ events → seg.flags.rst = false)
    (p : Tcp.State → Bool) (s : Tcp.State) : CalmWhile p events s := by
  induction events generalizing s with
  | nil => exact trivial
  | cons e es ih =>
    intro _
    refine ⟨?_, ih (fun srcIp seg now hmem => h srcIp seg now (.tail _ hmem)) _⟩
    cases e with
    | rx srcIp seg now => exact fun _ _ _ => h srcIp seg now (.head _)
    | tick now => exact trivial

theorem waitWhile_subset {p : Tcp.State → Bool} {s : Tcp.State} :
    ∀ e ∈ (waitWhile p events s).1, e ∈ events := by
  induction events generalizing s with
  | nil => exact fun _ h => h
  | cons e es ih =>
    unfold waitWhile
    split
    · exact fun e he => .tail _ (ih e he)
    · exact fun _ h => h

theorem handshake_no_rst : ∀ srcIp seg now, Event.rx srcIp seg now ∈ handshake → seg.flags.rst = false := by
  intro srcIp seg now h
  simp only [handshake, List.mem_cons, List.not_mem_nil, or_false] at h
  rcases h with ⟨_, rfl, _⟩ | ⟨_, rfl, _⟩ <;> rfl

/-- One stream socket that listens has handle 0 and slot 0, and a connection is accepted. -/
theorem handle_integrity_first :
    ∃ w, w = (exec step (netInit 7) [.socket afInet sockStream, .listen 0]).2 ∧ Integrity w ∧
      (netAccept w 0 handshake).1 = 0 ∧ Accepted w (netAccept w 0 handshake).2 0 (netAccept w 0 handshake).1 := by
  have hlegal : Guarded step Legal (netInit 7) [.socket afInet sockStream, .listen 0] :=
    ⟨trivial, trivial, trivial⟩
  obtain ⟨hintegrity, haccepted⟩ := handle_integrity 7 _ hlegal
  refine ⟨_, rfl, hintegrity, by decide +kernel, haccepted 0 handshake ?_⟩
  intro i k hi _
  obtain ⟨hzero, _⟩ := handle_eq_some.mp hi
  obtain rfl : i = 0 := Fin.ext (by simp only [Fin.val_zero]; omega)
  refine ⟨by decide +kernel, calmWhile_of_no_rst handshake_no_rst _ _, calmWhile_of_no_rst ?_ _ _⟩
  exact fun srcIp seg now hmem => handshake_no_rst srcIp seg now (waitWhile_subset _ hmem)

/-- The second socket of a machine: a datagram socket has handle 0, and the listening one has handle 1 and
    slot 0.  `net_accept` answers 0.  And after a reset of its connection, handle 0 shares its slot with the
    next socket. -/
theorem accept_answers_slot :
    (∃ w, w = (exec step (netInit 7) [.socket afInet sockDgram, .socket afInet sockStream, .listen 1]).2 ∧
      ¬Accepted w (netAccept w 1 handshake).2 1 (netAccept w 1 handshake).1) ∧
    ¬Integrity (exec step (netInit 7) [.socket afInet sockStream, .listen 0, .accept 0 handshake,
      .event (.rx 1 (bare { rst := true }) 0), .socket afInet sockStream]).2 := by
  constructor
  · refine ⟨_, rfl, fun h => ?_⟩
    obtain ⟨i, j, _, hj, _, hstream, _⟩ := h (by decide +kernel)
    have hzero : (netAccept (exec step (netInit 7)
        [.socket afInet sockDgram, .socket afInet sockStream, .listen 1]).2 1 handshake).1 = 0 := by decide +kernel
    obtain rfl : j = 0 := Fin.ext (by simp only [Fin.val_zero]; omega)
    revert hstream
    decide +kernel
  · intro h
    have hshared := h.distinct 0 1 (by decide +kernel) (by decide +kernel) (by decide +kernel) (by decide +kernel)
    cases hshared

end Lyth.Sockets
