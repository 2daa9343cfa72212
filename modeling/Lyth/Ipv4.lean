/-
  Checksums and routes (`net/ipv4.c`, and the checksum of `net/tcp.c`).

    1. The program.  A checksum is the complement of the sum of the 16-bit words, the carries of the 32-bit
       accumulator folded back in.  `route_lookup` goes once through the table and keeps, of the routes that match,
       one whose netmask is not below the others'; netmasks are compared as the machine's integers, though
       they are stored in network byte order.
    2. Specification.  A string filled with its checksum has the checksum 0.  A route is a PREFIX of bits in network
       order, and the lookup finds the longest one, the last of those added among equals.
    3. Crux.  Folding keeps a sum modulo 65535 and never makes a sum 0 that was not (`foldCarries_spec`).  The
       bits of a shorter prefix are among those of a longer one, IN WHATEVER ORDER the bytes stand, so the
       comparison of integers is the comparison of lengths (`mask_le_iff`).
-/
import Lyth.Net

namespace Lyth.Ipv4

open Net

/-! ## The checksum -/

/-- A 16-bit field of a header is stored, low byte first. -/
def setWord (data : List UInt8) (off : Nat) (w : UInt16) : List UInt8 :=
  (data.set off (UInt8.ofNat w.toNat)).set (off + 1) (UInt8.ofNat (w.toNat / 256))

/-- `tcp_pseudo_t`; `tcp_len` is in network byte order. -/
def pseudoHeader (srcIp dstIp : UInt32) (tcpLen : Nat) : List UInt8 :=
  let bytes (ip : UInt32) := (List.range 4).map fun i => UInt8.ofNat (ip.toNat / 256 ^ i)
  bytes srcIp ++ bytes dstIp ++ [0, 6, UInt8.ofNat (tcpLen / 256), UInt8.ofNat tcpLen]

/-- The accumulator of `tcp_checksum` after its loops. -/
def tcpSum (srcIp dstIp : UInt32) (seg : List UInt8) : Nat :=
  sumWords (pseudoHeader srcIp dstIp seg.length) + sumWords seg

/-- `tcp_checksum(src_ip, dst_ip, tcp_seg, tcp_len)`. -/
def tcpChecksum (srcIp dstIp : UInt32) (seg : List UInt8) : UInt16 :=
  ~~~(UInt16.ofNat (foldCarries 3 (tcpSum srcIp dstIp seg)))

theorem sumWords_le (data : List UInt8) : sumWords data ≤ 65535 * ((data.length + 1) / 2) := by
  fun_induction sumWords data with
  | case1 => exact Nat.zero_le _
  | case2 b =>
    have := b.toNat_lt
    simp only [List.length_singleton]
    omega
  | case3 b c rest ih =>
    have := b.toNat_lt
    have := c.toNat_lt
    simp only [List.length_cons]
    omega

/-- Storing a field adds its value to the sum. -/
theorem sumWords_setWord {i : Nat} {data : List UInt8} (hin : 2 * i + 1 < data.length) (w : UInt16) :
    sumWords (setWord data (2 * i) w) = sumWords (setWord data (2 * i) 0) + w.toNat := by
  induction i generalizing data with
  | zero =>
    rcases data with _ | ⟨b, _ | ⟨c, rest⟩⟩
    · simp at hin
    · simp at hin
    have := w.toNat_lt
    simp [setWord, sumWords]
    omega
  | succ i ih =>
    rcases data with _ | ⟨b, _ | ⟨c, rest⟩⟩
    · simp at hin
    · simp at hin
    have := @ih rest (by simp at hin; omega)
    simp only [setWord, Nat.mul_add, List.set_cons_succ, sumWords] at this ⊢
    omega

/-- A 32-bit sum is folded to 16 bits in the three rounds; it stays what it is modulo 65535, and not 0. -/
theorem foldCarries_spec {sum : Nat} (h : sum < 2 ^ 32) : foldCarries 3 sum < 2 ^ 16 ∧
    foldCarries 3 sum % 65535 = sum % 65535 ∧ (foldCarries 3 sum = 0 ↔ sum = 0) := by
  simp only [foldCarries]
  split_ifs <;> omega

/-- Adding the complement of the folded sum. -/
theorem fold_complement {sum : Nat} (h : sum + 2 ^ 16 ≤ 2 ^ 32) :
    foldCarries 3 (sum + (~~~(UInt16.ofNat (foldCarries 3 sum))).toNat) = 65535 := by
  obtain ⟨hlt, hmod, hzero⟩ := @foldCarries_spec sum (by omega)
  rw [UInt16.toNat_not, UInt16.toNat_ofNat_of_lt' hlt]
  obtain ⟨hlt', hmod', hzero'⟩ := @foldCarries_spec (sum + (UInt16.size - 1 - foldCarries 3 sum)) (by
    simp only [UInt16.size]; omega)
  simp only [UInt16.size] at *
  omega

/-- **The checksum round trip**, for the checksum of IPv4 and for that of TCP; the accumulators do not overflow. -/
theorem checksum_round_trip (data : List UInt8) (off : Nat) (hlen : data.length ≤ 65535) (heven : off % 2 = 0)
    (hin : off + 1 < data.length) :
    (let filled := setWord data off (ipv4Checksum (setWord data off 0))
     ipv4Checksum filled = 0 ∧ foldCarries 3 (sumWords filled) = 0xFFFF ∧ sumWords filled < 2 ^ 32) ∧
    ∀ srcIp dstIp : UInt32,
      let filled := setWord data off (tcpChecksum srcIp dstIp (setWord data off 0))
      foldCarries 3 (tcpSum srcIp dstIp filled) = 0xFFFF ∧ tcpSum srcIp dstIp filled < 2 ^ 32 := by
  obtain ⟨i, rfl⟩ : ∃ i, off = 2 * i := ⟨off / 2, by omega⟩
  have hlength : ∀ w, (setWord data (2 * i) w).length = data.length := fun w => by simp [setWord]
  have hle : ∀ w, sumWords (setWord data (2 * i) w) ≤ 65535 * 32768 := fun w =>
    (sumWords_le _).trans (Nat.mul_le_mul_left _ (by rw [hlength]; omega))
  have hfold : foldCarries 3 (sumWords (setWord data (2 * i) (ipv4Checksum (setWord data (2 * i) 0)))) = 65535 := by
    rw [sumWords_setWord hin]
    exact fold_complement (Nat.add_le_add_right (hle 0) _ |>.trans (by decide))
  refine ⟨⟨?_, hfold, (hle _).trans_lt (by decide)⟩, fun srcIp dstIp => ?_⟩
  · show ~~~(UInt16.ofNat (foldCarries 3 (sumWords (setWord data (2 * i) _)))) = 0
    rw [hfold]
    decide
  · have hpseudo := sumWords_le (pseudoHeader srcIp dstIp data.length)
    rw [show (pseudoHeader srcIp dstIp data.length).length = 12 by simp [pseudoHeader]] at hpseudo
    have hsum : ∀ w, tcpSum srcIp dstIp (setWord data (2 * i) w)
        = tcpSum srcIp dstIp (setWord data (2 * i) 0) + w.toNat := fun w => by
      rw [tcpSum, tcpSum, hlength, hlength, sumWords_setWord hin, Nat.add_assoc]
    have hzero : tcpSum srcIp dstIp (setWord data (2 * i) 0) ≤ 65535 * 32774 := by
      rw [tcpSum, hlength]
      have := hle 0
      omega
    refine ⟨?_, ?_⟩
    · rw [hsum]
      exact fold_complement (by omega)
    · rw [hsum]
      have := (tcpChecksum srcIp dstIp (setWord data (2 * i) 0)).toNat_lt
      omega

theorem checksum_round_trip_odd : ([0x45, 0, 7, 9, 1] : List UInt8).length ≤ 65535 ∧
    ipv4Checksum (setWord [0x45, 0, 7, 9, 1] 2 (ipv4Checksum [0x45, 0, 0, 0, 1])) = 0 :=
  ⟨by decide, (checksum_round_trip [0x45, 0, 7, 9, 1] 2 (by decide) (by decide) (by decide)).1.1⟩

/-! ## Routes -/

section

variable {N : Type}

/-- `route_entry_t`; `iface` is an interface of the type `N`. -/
structure Route (N : Type) extends RouteEntry where
  iface : N

/-- `best`, `best_mask` and `best_gw` of `route_lookup`. -/
structure Best (N : Type) where
  iface : Option N
  mask : UInt32
  gw : UInt32

/-- One round of the loop of `route_lookup`. -/
def lookupRound (dstIp : UInt32) (best : Best N) (r : Route N) : Best N :=
  if dstIp &&& r.netmask = r.network then
    if r.netmask ≥ best.mask then ⟨some r.iface, r.netmask, r.gateway⟩ else best
  else best

/-- `route_lookup(dst_ip, next_hop_out)`: the interface and the next hop. -/
def routeLookup (routes : List (Route N)) (dstIp : UInt32) : Option N × UInt32 :=
  let best := routes.foldl (lookupRound dstIp) ⟨none, 0, 0⟩
  (best.iface, if best.gw ≠ 0 then best.gw else dstIp)

/-- Bit `k` in network order: bit 0 is the high bit of the first byte, which is the low byte of the word. -/
def netBit (w : UInt32) (k : Nat) : Bool := w.toNat.testBit (8 * (k / 8) + (7 - k % 8))

def prefixLen (mask : UInt32) : Nat := (List.range 32).countP (netBit mask)

/-- The netmask is a contiguous prefix. -/
def Contiguous (mask : UInt32) : Prop := ∀ k < 32, netBit mask k = decide (k < prefixLen mask)

/-- The destination begins with the bits of the route's prefix. -/
def Covers (dstIp : UInt32) (r : Route N) : Prop :=
  ∀ k < prefixLen r.netmask, netBit dstIp k = netBit r.network k

/-- The netmask is a prefix and the network has no bit outside of it. -/
structure Route.Formed (r : Route N) : Prop where
  mask : Contiguous r.netmask
  network : ∀ k < 32, prefixLen r.netmask ≤ k → netBit r.network k = false

theorem netBit_and (a b : UInt32) (k : Nat) : netBit (a &&& b) k = (netBit a k && netBit b k) := by
  rw [netBit, UInt32.toNat_and, Nat.testBit_and]
  rfl

theorem netBit_ext {a b : UInt32} (h : ∀ k < 32, netBit a k = netBit b k) : a = b := by
  refine UInt32.toNat_inj.mp (Nat.eq_of_testBit_eq fun i => ?_)
  by_cases hi : i < 32
  · have := h (8 * (i / 8) + (7 - i % 8)) (by omega)
    unfold netBit at this
    rwa [show 8 * ((8 * (i / 8) + (7 - i % 8)) / 8) + (7 - (8 * (i / 8) + (7 - i % 8)) % 8) = i by omega] at this
  · have hpow : 2 ^ 32 ≤ 2 ^ i := Nat.pow_le_pow_right (by decide) (by omega)
    rw [Nat.testBit_lt_two_pow (a.toNat_lt.trans_le hpow), Nat.testBit_lt_two_pow (b.toNat_lt.trans_le hpow)]

theorem prefixLen_le (mask : UInt32) : prefixLen mask ≤ 32 := List.countP_le_length

/-- **Netmasks compare as their lengths.** -/
theorem mask_le_iff {m m' : UInt32} (hm : Contiguous m) (hm' : Contiguous m') :
    m ≤ m' ↔ prefixLen m ≤ prefixLen m' := by
  have hle : ∀ {m m'}, Contiguous m → Contiguous m' → prefixLen m ≤ prefixLen m' → m ≤ m' := by
    intro m m' hm hm' h
    have hand : m &&& m' = m := netBit_ext fun k hk => by
      rw [netBit_and, hm k hk, hm' k hk]
      by_cases hlt : k < prefixLen m
      · simp [hlt.trans_le h]
      · simp [hlt]
    rw [← hand, UInt32.le_iff_toNat_le, UInt32.toNat_and]
    exact Nat.and_le_right
  refine ⟨fun h => ?_, hle hm hm'⟩
  by_contra hlt
  exact hlt (congrArg prefixLen (UInt32.le_antisymm h (hle hm' hm (by omega)))).le

/-- The test of the loop is that the route covers the destination. -/
theorem Route.Formed.matches_iff {r : Route N} (h : r.Formed) (dstIp : UInt32) :
    dstIp &&& r.netmask = r.network ↔ Covers dstIp r := by
  have hbit : ∀ k < 32, netBit (dstIp &&& r.netmask) k = (netBit dstIp k && decide (k < prefixLen r.netmask)) :=
    fun k hk => by rw [netBit_and, h.mask k hk]
  constructor
  · intro heq k hk
    rw [← heq, hbit k (hk.trans_le (prefixLen_le _))]
    simp [hk]
  · intro hcovers
    refine netBit_ext fun k hk => ?_
    rw [hbit k hk]
    by_cases hlt : k < prefixLen r.netmask
    · simp [hlt, hcovers k hlt]
    · simp [hlt, h.network k hk (Nat.not_lt.mp hlt)]

/-- Of the routes that cover the destination, `r` is the last with the longest prefix. -/
def Chosen (dstIp : UInt32) (routes : List (Route N)) (r : Route N) : Prop :=
  ∃ before after, routes = before ++ r :: after ∧ Covers dstIp r ∧
    (∀ r' ∈ before, Covers dstIp r' → prefixLen r'.netmask ≤ prefixLen r.netmask) ∧
    ∀ r' ∈ after, Covers dstIp r' → prefixLen r'.netmask < prefixLen r.netmask

section

variable {dstIp : UInt32} {routes : List (Route N)} {r b : Route N}

theorem Chosen.le (h : Chosen dstIp routes b) (hr : r ∈ routes) (hc : Covers dstIp r) :
    prefixLen r.netmask ≤ prefixLen b.netmask := by
  obtain ⟨before, after, rfl, -, hbefore, hafter⟩ := h
  rcases List.mem_append.mp hr with h | h
  · exact hbefore r h hc
  rcases List.mem_cons.mp h with rfl | h
  · exact le_rfl
  · exact (hafter r h hc).le

theorem Chosen.snoc (h : Chosen dstIp routes b) (hr : Covers dstIp r → prefixLen r.netmask < prefixLen b.netmask) :
    Chosen dstIp (routes ++ [r]) b := by
  obtain ⟨before, after, rfl, hb, hbefore, hafter⟩ := h
  refine ⟨before, after ++ [r], by simp, hb, hbefore, fun r' hr' => ?_⟩
  rcases List.mem_append.mp hr' with h | h
  · exact hafter r' h
  · rwa [List.mem_singleton.mp h]

end

/-- The loop: nothing covers the destination and nothing was found, or the route chosen was. -/
theorem lookup_loop (dstIp : UInt32) (routes : List (Route N)) (hformed : ∀ r ∈ routes, r.Formed) :
    let best := routes.foldl (lookupRound dstIp) ⟨none, 0, 0⟩
    (∀ r ∈ routes, ¬Covers dstIp r) ∧ best = ⟨none, 0, 0⟩ ∨
      ∃ r ∈ routes, Chosen dstIp routes r ∧ best = ⟨some r.iface, r.netmask, r.gateway⟩ := by
  induction routes using List.reverseRecOn with
  | nil => exact .inl ⟨by simp, rfl⟩
  | append_singleton routes r ih =>
    have hr := hformed r (by simp)
    replace ih := ih fun r' hr' => hformed r' (by simp [hr'])
    simp only [List.foldl_append, List.foldl_cons]
    generalize routes.foldl (lookupRound dstIp) ⟨none, 0, 0⟩ = best at ih
    have hmatch := hr.matches_iff dstIp
    rw [lookupRound, ← ite_and]
    split
    · rename_i htake
      refine .inr ⟨r, by simp, ⟨routes, [], rfl, hmatch.mp htake.1, fun r' hr' hc => ?_, by simp⟩, rfl⟩
      rcases ih with ⟨hnone, -⟩ | ⟨b, hb, hchosen, rfl⟩
      · exact absurd hc (hnone r' hr')
      · exact (hchosen.le hr' hc).trans ((mask_le_iff (hformed b (by simp [hb])).mask hr.mask).mp htake.2)
    · rename_i htake
      rcases ih with ⟨hnone, rfl⟩ | ⟨b, hb, hchosen, rfl⟩
      · refine .inl ⟨fun r' hr' hc => ?_, rfl⟩
        rcases List.mem_append.mp hr' with h | h
        · exact hnone r' h hc
        · exact htake ⟨hmatch.mpr (List.mem_singleton.mp h ▸ hc), UInt32.le_iff_toNat_le.mpr (Nat.zero_le _)⟩
      · refine .inr ⟨b, by simp [hb], hchosen.snoc fun hc => ?_, rfl⟩
        rw [← Nat.not_le, ← mask_le_iff (hformed b (by simp [hb])).mask hr.mask]
        exact fun hge => htake ⟨hmatch.mpr hc, hge⟩

theorem foldl_routeAdd (calls : List (Route N)) (h : calls.length ≤ routeMax) :
    calls.foldl routeAdd [] = calls := by
  induction calls using List.reverseRecOn with
  | nil => rfl
  | append_singleton calls r ih =>
    rw [List.length_append, List.length_singleton] at h
    rw [List.foldl_append, ih (by omega), List.foldl_cons, List.foldl_nil, routeAdd, if_neg (by omega)]

/-- **Longest-prefix routing.** -/
theorem route_lookup_longest_prefix (calls : List (Route N)) (dstIp : UInt32) (hmax : calls.length ≤ routeMax)
    (hformed : ∀ r ∈ calls, r.Formed) :
    let found := routeLookup (calls.foldl routeAdd []) dstIp
    (∀ r ∈ calls, ¬Covers dstIp r) ∧ found = (none, dstIp) ∨
      ∃ r, Chosen dstIp calls r ∧ found = (some r.iface, if r.gateway ≠ 0 then r.gateway else dstIp) := by
  simp only [foldl_routeAdd calls hmax, routeLookup]
  rcases lookup_loop dstIp calls hformed with ⟨hnone, hbest⟩ | ⟨r, -, hchosen, hbest⟩
  · exact .inl ⟨hnone, by rw [hbest]; rfl⟩
  · exact .inr ⟨r, hchosen, by rw [hbest]⟩

end

/-- A default route, 10.0.0.0/8, two routes for 10.5.0.0/16 and one for 10.6.0.0/16. -/
def fiveRoutes : List (Route Nat) :=
  [⟨⟨0, 0, 0x0100000A⟩, 0⟩, ⟨⟨0x050A, 0xFFFF, 0⟩, 1⟩, ⟨⟨0x0A, 0xFF, 0⟩, 2⟩, ⟨⟨0x050A, 0xFFFF, 0x0200050A⟩, 3⟩,
    ⟨⟨0x060A, 0xFFFF, 0⟩, 4⟩]

theorem route_lookup_five_routes : (∀ r ∈ fiveRoutes, r.Formed) ∧
    ∃ r, Chosen 0x0900050A fiveRoutes r ∧ r.iface = 3 ∧
      routeLookup (fiveRoutes.foldl routeAdd []) 0x0900050A = (some r.iface, 0x0200050A) := by
  have hformed : ∀ r ∈ fiveRoutes, r.Formed := by
    intro r hr
    have hmask : ∀ r ∈ fiveRoutes, Contiguous r.netmask := by unfold Contiguous; decide
    have hnetwork : ∀ r ∈ fiveRoutes, ∀ k < 32, prefixLen r.netmask ≤ k → netBit r.network k = false := by decide
    exact ⟨hmask r hr, hnetwork r hr⟩
  have hanswer : routeLookup (fiveRoutes.foldl routeAdd []) 0x0900050A = (some 3, 0x0200050A) := by decide
  refine ⟨hformed, ?_⟩
  rcases route_lookup_longest_prefix fiveRoutes 0x0900050A (by decide) hformed with h | ⟨r, hr, hfound⟩
  · exact absurd (h.2.symm.trans hanswer) (by decide)
  · have hiface : r.iface = 3 := Option.some.inj (congrArg Prod.fst (hfound.symm.trans hanswer))
    exact ⟨r, hr, hiface, hiface ▸ hanswer⟩

end Lyth.Ipv4
