import Tunnet.Net.Ip
import Tunnet.Util.Str

/-!
# The address plan of a Direct network

`tunnet-core/src/direct/addrplan.rs`: which peer CIDRs a network may have and the choice of one,
which hosts of the peer CIDR may be handed out, and the search for a free one, which starts at a
position chosen by a hash of the endpoint.
-/

namespace Tunnet.Direct

open IpPrefix List

structure AddressPlan where
  peerCidr : Ipv4Net
deriving DecidableEq

inductive ConflictCategory
  | activeDirectPlan
  | lanPrefix
  | vpnRoute
  | specialUse
deriving DecidableEq

inductive AddressPlanError
  /-- `{ip} not usable in {cidr}` -/
  | invalidCidr (ip : Ipv4Addr) (cidr : Ipv4Net)
  /-- `peer CIDR must be RFC1918 private space` -/
  | notPrivate
  /-- `peer CIDR prefix must be /16..=/28` -/
  | badPrefix
  /-- `peer CIDR capacity too small` -/
  | tooSmall
  /-- `peer CIDR overlaps an active Direct network {0}` -/
  | overlapsActivePlan (id : Uuid)
  /-- `peer CIDR conflicts with host network {conflict}` -/
  | hostConflict (conflict : Ipv4Net) (category : ConflictCategory)
  /-- `address pool exhausted` -/
  | poolExhausted
  /-- `no safe IPv4 peer range available on this host` -/
  | noSafeRange
deriving DecidableEq

def rfc1918Nets : List Ipv4Net :=
  [⟨Ipv4Addr.new 10 0 0 0, 8, Ipv4Net.length_eight⟩,
    ⟨Ipv4Addr.new 172 16 0 0, 12, Ipv4Net.length_twelve⟩,
    ⟨Ipv4Addr.new 192 168 0 0, 16, Ipv4Net.length_sixteen⟩]

def contains (outer inner : Ipv4Net) : Bool :=
  outer.contains inner.network && outer.contains inner.broadcast

def overlaps (a b : Ipv4Net) : Bool :=
  a.contains b.network || a.contains b.broadcast || b.contains a.network || b.contains a.broadcast

variable (cidr : Ipv4Net)

def isRfc1918Net : Bool := rfc1918Nets.any fun n => contains n cidr

def usableHostCount : Nat :=
  -- network and broadcast address are not handed out
  let hostBits := 32 - cidr.prefixLen
  if hostBits < 2 then 0 else 2 ^ hostBits - 2

def isUsableHost (ip : Ipv4Addr) : Bool :=
  if !cidr.contains ip then
    false
  else if ip == cidr.network || ip == cidr.broadcast then
    false
  else
    !(Ipv4Addr.isUnspecified ip || Ipv4Addr.isLoopback ip || Ipv4Addr.isLinkLocal ip ||
      Ipv4Addr.isMulticast ip || Ipv4Addr.isBroadcast ip)

def validatePeerCidr (existingPlans : List (Uuid × Ipv4Net))
    (hostNets : List Ipv4Net) : Except AddressPlanError Unit :=
  if !(16 ≤ cidr.prefixLen && cidr.prefixLen ≤ 28) then
    .error .badPrefix
  else if !isRfc1918Net cidr then
    .error .notPrivate
  else if usableHostCount cidr < 16 then
    .error .tooSmall
  else match existingPlans.find? (overlaps cidr ·.2), hostNets.find? (overlaps cidr) with
    | some (id, _), _ => .error (.overlapsActivePlan id)
    | none, some h => .error (.hostConflict h (if isRfc1918Net h then .lanPrefix else .specialUse))
    | none, none => .ok ()

/-- `Uuid::as_bytes`. -/
def uuidBytes (id : Uuid) : List UInt8 :=
  (List.range 16).map fun i => UInt8.ofNat (id >>> (8 * (15 - i))).toNat

/-- `u32::from_le_bytes` on the first four bytes of a digest. -/
def leU32 (b : List UInt8) : Nat :=
  (b.getD 0 0).toNat + 256 * (b.getD 1 0).toNat + 65536 * (b.getD 2 0).toNat +
    16777216 * (b.getD 3 0).toNat

/-- The loop of `allocate_peer_ip`, with the number of attempts left. -/
def allocateLoop (plan : AddressPlan) (total start : Nat) (occupied : Finset Ipv4Addr) :
    Nat → Nat → Except AddressPlanError Ipv4Addr
  | 0, _ => .error .poolExhausted
  | left + 1, attempt =>
    let offset := (start + attempt) % total + 1
    let candidate : Ipv4Addr := plan.peerCidr.network + BitVec.ofNat 32 offset
    if !isUsableHost plan.peerCidr candidate then
      allocateLoop plan total start occupied left (attempt + 1)
    else if candidate ∈ occupied then
      allocateLoop plan total start occupied left (attempt + 1)
    else
      .ok candidate

def allocatePeerIp (blake3 : List UInt8 → List UInt8) (plan : AddressPlan) (networkId : Uuid)
    (endpointIdHex : String) (occupied : Finset Ipv4Addr) : Except AddressPlanError Ipv4Addr :=
  let total := usableHostCount plan.peerCidr
  if total = 0 then
    .error .poolExhausted
  else
    let hash := blake3 (uuidBytes networkId ++ Str.asBytes endpointIdHex)
    let start := leU32 hash % total
    -- the hash chooses only where the search starts
    allocateLoop plan total start occupied total 0

def validateMemberIp (plan : AddressPlan) (ip : Ipv4Addr) : Except AddressPlanError Unit :=
  if isUsableHost plan.peerCidr ip then .ok () else .error (.invalidCidr ip plan.peerCidr)

/-- `a.b.c.0/24`. -/
def slash24 (a b c : Nat) : Ipv4Net :=
  ⟨Ipv4Addr.new (BitVec.ofNat 8 a) (BitVec.ofNat 8 b) (BitVec.ofNat 8 c) 0, 24,
    Ipv4Net.length_twentyFour⟩

def candidatePool : List Ipv4Net :=
  ((List.range 256).flatMap fun b => (List.range 256).map (slash24 10 b)) ++
    ((List.range' 16 16).flatMap fun b => (List.range 256).map (slash24 172 b)) ++
    (List.range 256).map (slash24 192 168)

/-- `rng` gives the answer of `random_range(0..n)` for each `n`. -/
def selectPeerCidrWithRng (rng : Nat → Nat) (existingPlans : List (Uuid × Ipv4Net))
    (hostNets : List Ipv4Net) : Except AddressPlanError AddressPlan :=
  let candidates := candidatePool
  let start := rng candidates.length
  match (candidates.drop start ++ candidates.take start).find?
      fun cidr => (validatePeerCidr cidr existingPlans hostNets).isOk with
  | some cidr => .ok ⟨cidr⟩
  | none => .error .noSafeRange

/-! ### The choice of a prefix -/

section

variable {cidr} {existingPlans : List (Uuid × Ipv4Net)} {hostNets : List Ipv4Net}

theorem validatePeerCidr_eq_ok : validatePeerCidr cidr existingPlans hostNets = .ok () ↔
    (16 ≤ cidr.prefixLen ∧ cidr.prefixLen ≤ 28) ∧ isRfc1918Net cidr ∧ 16 ≤ usableHostCount cidr ∧
      ∀ used ∈ existingPlans.map (·.2) ++ hostNets, overlaps cidr used = false := by
  have hused : (∀ used ∈ existingPlans.map (·.2) ++ hostNets, overlaps cidr used = false) ↔
      existingPlans.find? (overlaps cidr ·.2) = none ∧ hostNets.find? (overlaps cidr) = none := by
    rw [forall_mem_append, forall_mem_map]
    simp
  rw [hused]
  unfold validatePeerCidr
  split_ifs with hlen hprivate hsize
  · refine iff_of_false nofun fun h => ?_
    simp [h.1] at hlen
  · refine iff_of_false nofun fun h => ?_
    simp [h.2.1] at hprivate
  · exact iff_of_false nofun fun h => hsize.not_ge h.2.2.1
  · split
    next h => simp [h]
    next h => simp [h]
    next h h' => simpa [h, h'] using ⟨by simpa using hlen, by simpa using hprivate, not_lt.mp hsize⟩

theorem contains_of_isRfc1918Net (h : isRfc1918Net cidr) :
    ∃ net ∈ rfc1918Nets, ∀ ip, cidr.contains ip → net.contains ip := by
  obtain ⟨net, hnet, hcontains⟩ := any_eq_true.mp h
  refine ⟨net, hnet, fun ip hip => ?_⟩
  simp only [contains, Bool.and_eq_true, contains_iff] at hcontains hip ⊢
  omega

theorem isRfc1918Net_slash24 {a b c : Nat} : isRfc1918Net (slash24 a b c) ↔
    a % 256 = 10 ∨ a % 256 = 172 ∧ 16 ≤ b % 256 ∧ b % 256 < 32 ∨
      a % 256 = 192 ∧ b % 256 = 168 := by
  simp [isRfc1918Net, rfc1918Nets, contains, contains_iff, toNat_broadcast,
    toNat_network, slash24, Ipv4Addr.toNat_new]
  omega

/-- Every candidate meets the conditions that do not depend on the host. -/
theorem mem_candidatePool (h : cidr ∈ candidatePool) : cidr.prefixLen = 24 ∧ isRfc1918Net cidr := by
  simp only [candidatePool, mem_append, mem_flatMap, mem_map, mem_range'_1] at h
  rcases h with (⟨b, hb, c, hc, rfl⟩ | ⟨b, hb, c, hc, rfl⟩) | ⟨c, hc, rfl⟩
  · exact ⟨rfl, isRfc1918Net_slash24.mpr (.inl rfl)⟩
  · exact ⟨rfl, isRfc1918Net_slash24.mpr (.inr (.inl (by omega)))⟩
  · exact ⟨rfl, isRfc1918Net_slash24.mpr (.inr (.inr ⟨rfl, rfl⟩))⟩

/-- The choice is a private prefix apart from all the prefixes in use, and fails only if every
candidate meets one of them. -/
theorem selectPeerCidrWithRng_exact (rng : Nat → Nat) (existingPlans : List (Uuid × Ipv4Net))
    (hostNets : List Ipv4Net) :
    (∀ plan, selectPeerCidrWithRng rng existingPlans hostNets = .ok plan →
      validatePeerCidr plan.peerCidr existingPlans hostNets = .ok () ∧
      (∃ net ∈ rfc1918Nets, ∀ ip, plan.peerCidr.contains ip → net.contains ip) ∧
      ∀ used ∈ existingPlans.map (·.2) ++ hostNets, ∀ ip,
        ¬(plan.peerCidr.contains ip ∧ used.contains ip)) ∧
    ∀ e, selectPeerCidrWithRng rng existingPlans hostNets = .error e → e = .noSafeRange ∧
      ∀ cidr ∈ candidatePool, ∃ used ∈ existingPlans.map (·.2) ++ hostNets, ∃ ip,
        cidr.contains ip ∧ used.contains ip := by
  unfold selectPeerCidrWithRng
  dsimp only
  constructor
  · intro plan h
    split at h
    next cidr hfind =>
      obtain rfl := Except.ok.inj h
      have hok : validatePeerCidr cidr existingPlans hostNets = .ok () := by
        have := find?_some hfind
        cases hv : validatePeerCidr cidr existingPlans hostNets with
        | ok => rfl
        | error => simp [hv, Except.toBool] at this
      obtain ⟨-, hprivate, -, hused⟩ := validatePeerCidr_eq_ok.mp hok
      refine ⟨hok, contains_of_isRfc1918Net hprivate, fun used hmem ip hboth => ?_⟩
      exact Bool.eq_false_iff.mp (hused used hmem) (overlaps_iff.mpr ⟨ip, hboth⟩)
    · cases h
  · intro e h
    split at h
    · cases h
    next hfind =>
      refine ⟨(Except.error.inj h).symm, fun cidr hmem => ?_⟩
      have hcandidate : cidr ∈ candidatePool.drop (rng candidatePool.length) ++
          candidatePool.take (rng candidatePool.length) := by
        rw [mem_append, or_comm, ← mem_append, take_append_drop]
        exact hmem
      have hfails := find?_eq_none.mp hfind cidr hcandidate
      obtain ⟨hlen, hprivate⟩ := mem_candidatePool hmem
      by_contra hnone
      have hok : validatePeerCidr cidr existingPlans hostNets = .ok () := by
        refine validatePeerCidr_eq_ok.mpr ⟨by omega, hprivate, ?_, fun used hused => ?_⟩
        · rw [usableHostCount, hlen]
          decide
        · rw [Bool.eq_false_iff]
          exact fun hover => hnone ⟨used, hused, overlaps_iff.mp hover⟩
      simp [hok, Except.toBool] at hfails

end

/-! ### What the search returns -/

theorem usableHostCount_eq (cidr : Ipv4Net) :
    usableHostCount cidr = 2 ^ (32 - cidr.prefixLen) - 2 := by
  unfold usableHostCount
  dsimp only
  split_ifs
  · rcases (by omega : 32 - cidr.prefixLen = 0 ∨ 32 - cidr.prefixLen = 1) with h | h <;> simp [h]
  · rfl

variable (blake3 : List UInt8 → List UInt8) (plan : AddressPlan) (networkId : Uuid)
  (endpoint : String) (occupied : Finset Ipv4Addr)

/-- The host of an attempt. -/
def probe (total start attempt : Nat) : Ipv4Addr :=
  plan.peerCidr.network + BitVec.ofNat 32 ((start + attempt) % total + 1)

/-- The hosts of all the attempts for an endpoint. -/
def probes : List Ipv4Addr :=
  let total := usableHostCount plan.peerCidr
  let hash := blake3 (uuidBytes networkId ++ Str.asBytes endpoint)
  (List.range' 0 total).map (probe plan total (leU32 hash % total))

def isFree (ip : Ipv4Addr) : Bool := isUsableHost plan.peerCidr ip && ip ∉ occupied

theorem allocateLoop_eq (total start left attempt : Nat) :
    allocateLoop plan total start occupied left attempt =
      (((range' attempt left).map (probe plan total start)).find?
        (isFree plan occupied)).elim (.error .poolExhausted) .ok := by
  induction left generalizing attempt with
  | zero => rfl
  | succ left ih =>
    rw [allocateLoop, range'_succ, ih]
    change (if !isUsableHost plan.peerCidr (probe plan total start attempt) then _ else
      if probe plan total start attempt ∈ occupied then _ else
        Except.ok (probe plan total start attempt)) = _
    cases husable : isUsableHost plan.peerCidr (probe plan total start attempt) <;>
      by_cases hocc : probe plan total start attempt ∈ occupied <;>
      simp [isFree, husable, hocc]

theorem allocatePeerIp_eq : allocatePeerIp blake3 plan networkId endpoint occupied =
    ((probes blake3 plan networkId endpoint).find? (isFree plan occupied)).elim
      (.error .poolExhausted) .ok := by
  unfold allocatePeerIp probes
  dsimp only
  split_ifs with htotal
  · rw [htotal]
    rfl
  · exact allocateLoop_eq ..

variable {blake3 plan networkId endpoint occupied} {ip : Ipv4Addr}

theorem allocatePeerIp_ok (h : allocatePeerIp blake3 plan networkId endpoint occupied = .ok ip) :
    isUsableHost plan.peerCidr ip ∧ ip ∉ occupied := by
  rw [allocatePeerIp_eq] at h
  cases hfind : (probes blake3 plan networkId endpoint).find? (isFree plan occupied) with
  | none => simp [hfind] at h
  | some ip' =>
    obtain rfl : ip' = ip := by simpa [hfind] using h
    simpa [isFree] using find?_some hfind

/-- The attempts reach every usable host, wherever they start. -/
theorem mem_probes (h : isUsableHost plan.peerCidr ip) :
    ip ∈ probes blake3 plan networkId endpoint := by
  unfold isUsableHost at h
  split_ifs at h with hcontains hends
  simp only [Bool.not_eq_true', Bool.not_eq_false, contains_iff, Bool.or_eq_true,
    beq_iff_eq, not_or] at hcontains hends
  have hbroadcast := plan.peerCidr.toNat_broadcast
  have htotal := usableHostCount_eq plan.peerCidr
  have hnetwork := BitVec.toNat_ne.mp hends.1
  have hlast := BitVec.toNat_ne.mp hends.2
  unfold probes
  dsimp only
  generalize usableHostCount plan.peerCidr = total at *
  obtain ⟨o, ho⟩ := Nat.exists_eq_add_of_lt (by omega : plan.peerCidr.network.toNat < ip.toNat)
  have hstart := Nat.mod_lt (leU32 (blake3 (uuidBytes networkId ++ Str.asBytes endpoint)))
    (by omega : 0 < total)
  generalize leU32 _ % total = start at *
  -- the attempt that wraps around to the host with offset `o + 1`
  refine mem_map.mpr ⟨(o + (total - start)) % total, ?_, ?_⟩
  · simpa using Nat.mod_lt _ (by omega)
  unfold probe
  rw [Nat.add_mod_mod, (by omega : start + (o + (total - start)) = o + total), Nat.add_mod_right,
    Nat.mod_eq_of_lt (by omega)]
  apply BitVec.eq_of_toNat_eq
  rw [BitVec.toNat_add, BitVec.toNat_ofNat]
  omega

/-- The search for a free host is exact. The loop makes no more attempts than it has left, and it
starts with `usableHostCount`. -/
theorem allocatePeerIp_exact (blake3 : List UInt8 → List UInt8) (plan : AddressPlan)
    (networkId : Uuid) (endpoint : String) (occupied : Finset Ipv4Addr) :
    ((∃ ip, allocatePeerIp blake3 plan networkId endpoint occupied = .ok ip) ↔
      ∃ ip, isUsableHost plan.peerCidr ip ∧ ip ∉ occupied) ∧
    (∀ ip, allocatePeerIp blake3 plan networkId endpoint occupied = .ok ip →
      isUsableHost plan.peerCidr ip ∧ ip ∉ occupied) ∧
    allocatePeerIp blake3 plan networkId endpoint occupied =
      ((probes blake3 plan networkId endpoint).find? (isFree plan occupied)).elim
        (.error .poolExhausted) .ok ∧
    (probes blake3 plan networkId endpoint).length = usableHostCount plan.peerCidr ∧
    ∀ total start left attempt, allocateLoop plan total start occupied left attempt =
      (((range' attempt left).map (probe plan total start)).find? (isFree plan occupied)).elim
        (.error .poolExhausted) .ok := by
  refine ⟨⟨fun ⟨ip, h⟩ => ⟨ip, allocatePeerIp_ok h⟩, fun ⟨ip, husable, hfree⟩ => ?_⟩,
    fun ip => allocatePeerIp_ok, allocatePeerIp_eq .., by simp [probes],
    allocateLoop_eq plan occupied⟩
  have hsome : ((probes blake3 plan networkId endpoint).find? (isFree plan occupied)).isSome := by
    rw [find?_isSome]
    exact ⟨ip, mem_probes husable, by simp [isFree, husable, hfree]⟩
  obtain ⟨ip', hip'⟩ := Option.isSome_iff_exists.mp hsome
  exact ⟨ip', by rw [allocatePeerIp_eq, hip', Option.elim_some]⟩

end Tunnet.Direct
