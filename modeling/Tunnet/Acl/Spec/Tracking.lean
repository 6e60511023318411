import Tunnet.Acl.Spec.Signed
import Tunnet.Packet.Spec.Conntrack
import Tunnet.Util.Run

/-!
# Connection tracking never outlives policy

The engine treats a packet as `Conntrack.track` says, with the verdict of its rules (`check_track`).
Over a run of packets and bundle replacements, every tracked flow was opened by a packet that the
bundle in force allowed, and was last seen with a packet of the flow (`Provenance`): a replacement
forgets all flows, and nothing else adds one.
-/

namespace Tunnet.Acl

open Policy Conntrack
open Routing (Tables)

namespace AclEngine

variable (routes : Tables) (clock : Clock)

/-- The verdict of the rules on a packet, tracked or not. -/
def ruling (peerHex : String) (src dst : Ipv4Addr) (direction : Direction) (l4 : ResolvedL4)
    (a : AclEngine) : EvalVerdict :=
  (a.evaluateFlow clock (a.packetFlow routes peerHex src dst direction l4) peerHex).2

/-- The keys of the two directions of a packet's flow. -/
def keys (src dst : Ipv4Addr) (l4 : ResolvedL4) : Option (FlowKey × FlowKey) :=
  (flowKey l4.protocol src dst l4.srcPort l4.dstPort).map fun key => (key, reverse key)

/-- How the engine tracks a packet. -/
def tracking (peerHex : String) (src dst : Ipv4Addr) (direction : Direction) (l4 : ResolvedL4)
    (a : AclEngine) : Conntrack.Table × Bool :=
  track clock.now direction (keys src dst l4) l4.protocol ((l4.tcpFlags.map (·.bits)).getD 0)
    ((a.ruling routes clock peerHex src dst direction l4).action = .allow) a.conntrack

/-- The flow as the bundle sees it. -/
def judged (flow : FlowContext) (a : AclEngine) : FlowContext :=
  { flow with srcPostureOk := postureOk a.bundle flow.srcPostureOk }

/-- What the rules read of an engine. -/
def ruled (a : AclEngine) : SelfIdentity × PolicyBundle × Bool × Bool :=
  (a.selfId, a.bundle, a.stale, a.srcPostureOk)

/-! ### One packet -/

section

variable {peerHex : String} {src dst : Ipv4Addr} {direction : Direction} {l4 : ResolvedL4}
  {a' a : AclEngine}

variable (h : a.ruled = a'.ruled)

include h

theorem evaluateFlow_snd_of_ruled (flow : FlowContext) :
    (a.evaluateFlow clock flow peerHex).2 = (a'.evaluateFlow clock flow peerHex).2 := by
  simp only [ruled, Prod.mk.injEq] at h
  obtain ⟨-, hbundle, hstale, -⟩ := h
  unfold evaluateFlow failsOpen
  dsimp only
  rw [hbundle, hstale]
  split_ifs <;> rfl

theorem packetFlow_of_ruled : a.packetFlow routes peerHex src dst direction l4 =
      a'.packetFlow routes peerHex src dst direction l4 := by
  simp only [ruled, Prod.mk.injEq] at h
  obtain ⟨hself, -, -, hposture⟩ := h
  unfold packetFlow peerEndpoint selfEndpoint
  rw [hself, hposture]

theorem ruling_of_ruled : a.ruling routes clock peerHex src dst direction l4 =
      a'.ruling routes clock peerHex src dst direction l4 := by
  unfold ruling
  rw [packetFlow_of_ruled routes h, evaluateFlow_snd_of_ruled clock h]

theorem tracking_of_ruled (htable : a.conntrack = a'.conntrack) :
    a.tracking routes clock peerHex src dst direction l4 =
      a'.tracking routes clock peerHex src dst direction l4 := by
  unfold tracking
  rw [ruling_of_ruled routes clock h, htable]

omit h

/-- The rules write nothing but the log of denied flows. -/
theorem evaluateFlow_fst (flow : FlowContext) (peerHex : String) (a : AclEngine) :
    ∃ log, (a.evaluateFlow clock flow peerHex).1 = { a with denyLog := log } := by
  unfold evaluateFlow
  dsimp only
  split_ifs <;> exact ⟨_, rfl⟩

theorem action_eq_deny_iff (v : EvalVerdict) : v.action = .deny ↔ v.action ≠ .allow := by
  cases v.action <;> simp

/-- What happens to a packet of no tracked flow: the rules decide, and what they allow opens a
flow. -/
def decided (peerHex : String) (src dst : Ipv4Addr) (direction : Direction) (l4 : ResolvedL4)
    (a : AclEngine) : AclEngine × EvalVerdict :=
  let out := a.evaluateFlow clock (a.packetFlow routes peerHex src dst direction l4) peerHex
  if out.2.action = .deny then out
  else (out.1.openOrRefreshFlow clock (flowKey l4.protocol src dst l4.srcPort l4.dstPort)
    l4.protocol ((l4.tcpFlags.map (·.bits)).getD 0), out.2)

theorem decided_snd : (a.decided routes clock peerHex src dst direction l4).2 =
    a.ruling routes clock peerHex src dst direction l4 := by
  unfold decided
  dsimp only
  split_ifs <;> rfl

variable (peerHex src dst direction l4 a)

theorem decided_fst : ∃ log, (a.decided routes clock peerHex src dst direction l4).1 = { a with
      denyLog := log
      conntrack := match flowKey l4.protocol src dst l4.srcPort l4.dstPort with
        | none => a.conntrack
        | some key =>
          if (a.ruling routes clock peerHex src dst direction l4).action = .allow then
            openOrRefresh clock.now key l4.protocol ((l4.tcpFlags.map (·.bits)).getD 0) a.conntrack
          else a.conntrack } := by
  obtain ⟨log, hlog⟩ :=
    a.evaluateFlow_fst clock (a.packetFlow routes peerHex src dst direction l4) peerHex
  have hdeny := action_eq_deny_iff (a.ruling routes clock peerHex src dst direction l4)
  use log
  unfold decided
  unfold ruling at hdeny ⊢
  by_cases hallow :
      (a.evaluateFlow clock (a.packetFlow routes peerHex src dst direction l4) peerHex).2.action =
        .allow
  · rw [if_neg (mt hdeny.1 (not_not.2 hallow)), hlog]
    rw [hallow]
    cases flowKey l4.protocol src dst l4.srcPort l4.dstPort with
    | none | some => rfl
  · rw [if_pos (hdeny.2 hallow), hlog]
    simp only [hallow]
    split <;> rfl

theorem check_track : let out := a.check routes clock peerHex src dst direction l4
    let tracked := a.tracking routes clock peerHex src dst direction l4
    (∃ log, out.1 = { a with denyLog := log, conntrack := tracked.1 }) ∧
      (out.2.action = .allow ↔ tracked.2) := by
  have hcheck : a.check routes clock peerHex src dst direction l4 =
      let tracked := a.conntrackAllows clock direction
        (flowKey l4.protocol src dst l4.srcPort l4.dstPort) ((l4.tcpFlags.map (·.bits)).getD 0)
      if tracked.2 then (tracked.1, verdict .allow .defaultAllow)
      else tracked.1.decided routes clock peerHex src dst direction l4 := rfl
  rw [hcheck]
  unfold tracking keys conntrackAllows track
  cases hkey : flowKey l4.protocol src dst l4.srcPort l4.dstPort with
  | none =>
    obtain ⟨log, hlog⟩ := a.decided_fst routes clock peerHex src dst direction l4
    rw [hkey] at hlog
    dsimp only [Option.map_none]
    rw [if_neg Bool.false_ne_true, hlog, decided_snd]
    exact ⟨⟨log, rfl⟩, decide_eq_true_iff.symm⟩
  | some key =>
    dsimp only [Option.map_some]
    generalize allows clock.now direction key (reverse key) ((l4.tcpFlags.map (·.bits)).getD 0)
      a.conntrack = out
    obtain ⟨table, passes⟩ := out
    cases passes with
    | true => exact ⟨⟨_, rfl⟩, fun _ => rfl, fun _ => rfl⟩
    | false =>
      have hruling :
          ruling routes clock peerHex src dst direction l4 { a with conntrack := table } =
          a.ruling routes clock peerHex src dst direction l4 := ruling_of_ruled routes clock rfl
      obtain ⟨log, hlog⟩ := decided_fst routes clock peerHex src dst direction l4
        { a with conntrack := table }
      rw [hkey] at hlog
      rw [if_neg Bool.false_ne_true, if_neg Bool.false_ne_true, hlog, decided_snd, hruling]
      by_cases hallow : (a.ruling routes clock peerHex src dst direction l4).action = .allow
      · simp only [hallow, if_true, decide_true, and_true]
        exact ⟨log, rfl⟩
      · simp only [hallow, if_false, decide_false, Bool.false_eq_true, and_true]
        exact ⟨log, rfl⟩

variable {peerHex src dst direction l4 a}

theorem ruling_allow_iff (hstale : a.stale = false) :
    (a.ruling routes clock peerHex src dst direction l4).action = .allow ↔
      (Policy.evaluateFlow a.bundle (a.judged (a.packetFlow routes peerHex src dst direction l4))
        ).action = .allow := by
  unfold ruling evaluateFlow judged postureOk failsOpen
  dsimp only
  rw [hstale, Bool.false_and, Bool.false_and, if_neg Bool.false_ne_true]
  split_ifs <;> rfl

end

/-! ### Runs -/

inductive Call
  | packet (routes : Tables) (clock : Clock) (peerHex : String) (direction : Direction)
      (packet : Packet)
  | replaceBundle (bundle : PolicyBundle)
  | collect (now : Instant)

inductive Reply
  /-- What a packet was taken for, and the verdict on it. -/
  | verdict (l4 : Option ResolvedL4) (v : EvalVerdict)
  | done

def step (a : AclEngine) : Call → AclEngine × Reply
  | .packet routes clock peerHex direction packet =>
    let out := a.evaluatePacket routes clock peerHex direction packet
    (out.1, .verdict (a.fragments.resolve clock.now packet).2 out.2)
  | .replaceBundle bundle => (a.replaceBundle bundle, .done)
  | .collect now => (a.collect now, .done)

/-- The calls since the last replacement of the bundle. -/
def sinceReplace (h : List (Call × Reply)) : List (Call × Reply) :=
  h.takeWhile fun
    | (.replaceBundle _, _) => false
    | _ => true

/-- The flow key of a packet. -/
def packetKey (packet : Packet) (l4 : ResolvedL4) : Option FlowKey :=
  match packet.ip.v4Src, packet.ip.v4Dst with
  | some src, some dst => flowKey l4.protocol src dst l4.srcPort l4.dstPort
  | _, _ => none

/-- The bundle's rules allow a packet. -/
def BundleAllows (routes : Tables) (peerHex : String) (direction : Direction) (packet : Packet)
    (l4 : ResolvedL4) (a : AclEngine) : Prop :=
  ∃ src dst, packet.ip.v4Src = some src ∧ packet.ip.v4Dst = some dst ∧
    (Policy.evaluateFlow a.bundle (a.judged (a.packetFlow routes peerHex src dst direction l4))
      ).action = .allow

/-- Since the last replacement, a packet with this key was allowed by the rules of the bundle. -/
def OpenedByRules (a : AclEngine) (h : List (Call × Reply)) (key : FlowKey) : Prop :=
  ∃ routes clock peerHex direction packet l4 v,
    (.packet routes clock peerHex direction packet, .verdict (some l4) v) ∈ sinceReplace h ∧
      v.action = .allow ∧ packetKey packet l4 = some key ∧
      a.BundleAllows routes peerHex direction packet l4

/-- Since the last replacement, a packet of the flow, in one direction or the other, was let through
at this time. -/
def SeenAt (h : List (Call × Reply)) (key : FlowKey) (now : Instant) : Prop :=
  ∃ routes clock peerHex direction packet l4 v own,
    (.packet routes clock peerHex direction packet, .verdict (some l4) v) ∈ sinceReplace h ∧
      v.action = .allow ∧ clock.now = now ∧ packetKey packet l4 = some own ∧
      (key = own ∨ key = reverse own)

/-! ### The invariant -/

section

variable {a a' : AclEngine} {h : List (Call × Reply)} {key : FlowKey}
  {packet : Packet} {l4 : ResolvedL4} {call : Call} {reply : Reply}

theorem BundleAllows.of_ruled (hruled : a'.ruled = a.ruled) {routes : Tables} {peerHex : String}
    {direction : Direction} (hallows : a.BundleAllows routes peerHex direction packet l4) :
    a'.BundleAllows routes peerHex direction packet l4 := by
  obtain ⟨src, dst, hsrc, hdst, hverdict⟩ := hallows
  have hbundle : a'.bundle = a.bundle := congrArg (·.2.1) hruled
  refine ⟨src, dst, hsrc, hdst, ?_⟩
  rwa [packetFlow_of_ruled routes hruled, judged, hbundle]

theorem sinceReplace_cons (hcall : ∀ b, call ≠ .replaceBundle b) :
    sinceReplace ((call, reply) :: h) = (call, reply) :: sinceReplace h := by
  cases call with
  | packet => rfl
  | replaceBundle b => exact absurd rfl (hcall b)
  | collect => rfl

theorem OpenedByRules.cons (hcall : ∀ b, call ≠ .replaceBundle b)
    (hruled : a'.ruled = a.ruled) (hopened : OpenedByRules a h key) :
    OpenedByRules a' ((call, reply) :: h) key := by
  obtain ⟨routes, clock, peerHex, direction, packet, l4, v, hmem, hv, hkey, hallows⟩ := hopened
  refine ⟨routes, clock, peerHex, direction, packet, l4, v, ?_, hv, hkey, hallows.of_ruled hruled⟩
  rw [sinceReplace_cons hcall]
  exact List.mem_cons_of_mem _ hmem

theorem SeenAt.cons {now : Instant}
    (hcall : ∀ b, call ≠ .replaceBundle b) (hseen : SeenAt h key now) :
    SeenAt ((call, reply) :: h) key now := by
  obtain ⟨routes, clock, peerHex, direction, packet, l4, v, own, hmem, hv, hnow, hown,
      hkey⟩ := hseen
  refine ⟨routes, clock, peerHex, direction, packet, l4, v, own, ?_, hv, hnow, hown, hkey⟩
  rw [sinceReplace_cons hcall]
  exact List.mem_cons_of_mem _ hmem

/-- Where the tracked flows come from. -/
structure Provenance (h : List (Call × Reply)) (a : AclEngine) : Prop where
  stale : a.stale = false
  flows : ∀ key st, a.conntrack.lookup key = some st →
    OpenedByRules a h key ∧ SeenAt h key st.lastSeen

theorem Provenance.of_empty (hstale : a.stale = false) (hempty : a.conntrack = ∅) :
    Provenance h a := by
  refine ⟨hstale, fun key st hlookup => ?_⟩
  rw [hempty] at hlookup
  cases hlookup

theorem Provenance.old {st : FlowState} (hprov : Provenance h a)
    (hcall : ∀ b, call ≠ .replaceBundle b) (hruled : a'.ruled = a.ruled)
    (hlookup : a.conntrack.lookup key = some st) :
    OpenedByRules a' ((call, reply) :: h) key ∧ SeenAt ((call, reply) :: h) key st.lastSeen :=
  have hflow := hprov.flows key st hlookup
  ⟨hflow.1.cons hcall hruled, hflow.2.cons hcall⟩

theorem Provenance.of_sub (hprov : Provenance h a)
    (hcall : ∀ b, call ≠ .replaceBundle b) (hruled : a'.ruled = a.ruled)
    (hsub : ∀ key st, a'.conntrack.lookup key = some st → a.conntrack.lookup key = some st) :
    Provenance ((call, reply) :: h) a' where
  stale := (congrArg (·.2.2.1) hruled).trans hprov.stale
  flows key st hlookup := hprov.old hcall hruled (hsub key st hlookup)

end

theorem check_resolved (a : AclEngine) (routes : Tables) (clock : Clock) (peerHex : String)
    (src dst : Ipv4Addr) (direction : Direction) (l4 : ResolvedL4) (fragments : FragmentTable) :
    let out := check routes clock peerHex src dst direction l4 { a with fragments }
    let tracked := a.tracking routes clock peerHex src dst direction l4
    (∃ log, out.1 = { a with denyLog := log, conntrack := tracked.1, fragments }) ∧
      (out.2.action = .allow ↔ tracked.2) := by
  have hsame : tracking routes clock peerHex src dst direction l4 { a with fragments } =
      a.tracking routes clock peerHex src dst direction l4 := tracking_of_ruled routes clock rfl rfl
  rw [← hsame]
  exact check_track routes clock peerHex src dst direction l4 { a with fragments }

/-- What happens to a packet: it is refused without a trace, or it is tracked. -/
theorem evaluatePacket_cases (a : AclEngine) (routes : Tables) (clock : Clock) (peerHex : String)
    (direction : Direction) (packet : Packet) :
    let out := a.evaluatePacket routes clock peerHex direction packet
    let resolved := a.fragments.resolve clock.now packet
    (out.2.action = .deny ∧ (out.1 = a ∨ out.1 = { a with fragments := resolved.1 })) ∨
      ∃ src dst l4, packet.ip.v4Src = some src ∧ packet.ip.v4Dst = some dst ∧
        resolved.2 = some l4 ∧
        let tracked := a.tracking routes clock peerHex src dst direction l4
        (∃ log, out.1 =
          { a with denyLog := log, conntrack := tracked.1, fragments := resolved.1 }) ∧
        (out.2.action = .allow ↔ tracked.2) := by
  unfold evaluatePacket
  cases packet.ip.v4Src with
  | none => exact .inl ⟨rfl, .inl rfl⟩
  | some src =>
    cases packet.ip.v4Dst with
    | none => exact .inl ⟨rfl, .inl rfl⟩
    | some dst =>
      dsimp only
      cases (a.fragments.resolve clock.now packet).2 with
      | none => exact .inl ⟨rfl, .inr rfl⟩
      | some l4 =>
        exact .inr ⟨src, dst, l4, rfl, rfl, rfl,
          a.check_resolved routes clock peerHex src dst direction l4 _⟩

theorem evaluatePacket_track (a : AclEngine) (routes : Tables) (clock : Clock) (peerHex : String)
    (direction : Direction) {packet : Packet} {src dst : Ipv4Addr} {l4 : ResolvedL4}
    (hsrc : packet.ip.v4Src = some src) (hdst : packet.ip.v4Dst = some dst)
    (hl4 : (a.fragments.resolve clock.now packet).2 = some l4) :
    let out := a.evaluatePacket routes clock peerHex direction packet
    let tracked := a.tracking routes clock peerHex src dst direction l4
    (∃ log, out.1 = { a with
      denyLog := log
      conntrack := tracked.1
      fragments := (a.fragments.resolve clock.now packet).1 }) ∧
    (out.2.action = .allow ↔ tracked.2) := by
  unfold evaluatePacket
  rw [hsrc, hdst]
  dsimp only
  rw [hl4]
  exact a.check_resolved routes clock peerHex src dst direction l4 _

/-- A tracked packet refreshes its flow; another one follows the rules, and may open its own flow.
-/
theorem tracking_cases (a : AclEngine) (routes : Tables) (clock : Clock) (peerHex : String)
    (src dst : Ipv4Addr) (direction : Direction) (l4 : ResolvedL4) :
    let out := a.tracking routes clock peerHex src dst direction l4
    let allowed := (a.ruling routes clock peerHex src dst direction l4).action = .allow
    (∃ own key st, flowKey l4.protocol src dst l4.srcPort l4.dstPort = some own ∧
      (key = own ∨ key = reverse own) ∧ a.conntrack.lookup key = some st ∧
      isExpired st clock.now = false ∧ out.2 ∧
      out.1 = a.conntrack.insert key
        (st.advance clock.now direction ((l4.tcpFlags.map (·.bits)).getD 0))) ∨
    (out.2 = true ↔ allowed) ∧ ∀ key st, out.1.lookup key = some st →
      a.conntrack.lookup key = some st ∨
        allowed ∧ st.lastSeen = clock.now ∧
          flowKey l4.protocol src dst l4.srcPort l4.dstPort = some key := by
  unfold tracking
  rcases track_cases (keys src dst l4) with
    ⟨fwd, rev, key, st, hkeys, hkey, hst, hlive, htrack⟩ | ⟨hbase, hsub⟩
  · left
    obtain ⟨own, hown, heq⟩ := Option.map_eq_some_iff.1 hkeys
    cases heq
    exact ⟨fwd, key, st, hown, hkey, hst, hlive, congrArg Prod.snd htrack, congrArg Prod.fst htrack⟩
  · right
    refine ⟨by rw [hbase, decide_eq_true_iff], fun key st hlookup => ?_⟩
    rcases hsub key st hlookup with hold | ⟨hallow, hseen, rev, hkeys⟩
    · exact .inl hold
    · obtain ⟨own, hown, heq⟩ := Option.map_eq_some_iff.1 hkeys
      cases heq
      exact .inr ⟨decide_eq_true_iff.1 hallow, hseen, hown⟩

variable {a : AclEngine} {h : List (Call × Reply)}

/-- A packet keeps the provenance of the tracked flows: it can only refresh one, or open its own. -/
theorem Provenance.packet (hprov : Provenance h a)
    (routes : Tables) (clock : Clock) (peerHex : String) (direction : Direction) (packet : Packet) :
    let call := Call.packet routes clock peerHex direction packet
    Provenance ((call, (step a call).2) :: h) (step a call).1 := by
  dsimp only [step]
  have hcall (b) :
      Call.packet routes clock peerHex direction packet ≠ .replaceBundle b := by simp
  rcases a.evaluatePacket_cases routes clock peerHex direction packet with
    ⟨-, hout | hout⟩ | ⟨src, dst, l4, hsrc, hdst, hl4, ⟨log, hout⟩, hallow⟩
  · rw [hout]
    exact hprov.of_sub hcall rfl fun _ _ hlookup => hlookup
  · rw [hout]
    exact hprov.of_sub hcall rfl fun _ _ hlookup => hlookup
  have hown {own : FlowKey}
      (hkey : flowKey l4.protocol src dst l4.srcPort l4.dstPort = some own) :
      packetKey packet l4 = some own := by
    rw [packetKey, hsrc, hdst]
    exact hkey
  -- the packet at the head of the history
  have hhead (v) :
      (Call.packet routes clock peerHex direction packet, Reply.verdict (some l4) v) ∈
        sinceReplace ((Call.packet routes clock peerHex direction packet,
          Reply.verdict (some l4) v) :: h) := by
    exact List.mem_cons_self
  rw [hl4, hout]
  refine ⟨hprov.stale, fun k st' hlookup => ?_⟩
  rcases a.tracking_cases routes clock peerHex src dst direction l4 with
    ⟨own, key, st, hkey, hside, hst, -, hpass, hinsert⟩ | ⟨hpass, hsub⟩
  · rw [hinsert, Map.lookup_insert_eq] at hlookup
    split_ifs at hlookup with hk
    · subst hk
      cases hlookup
      refine ⟨(hprov.old hcall rfl hst).1, routes, clock, peerHex, direction, packet, l4, _, own,
        hhead _, hallow.2 hpass, (lastSeen_advance st).symm, hown hkey, hside⟩
    · exact hprov.old hcall rfl hlookup
  · rcases hsub k st' hlookup with hold | ⟨hallowed, hseen, hkey⟩
    · exact hprov.old hcall rfl hold
    · have hbundle := (ruling_allow_iff routes clock hprov.stale).1 hallowed
      have hv := hallow.2 (hpass.2 hallowed)
      constructor
      · exact ⟨routes, clock, peerHex, direction, packet, l4, _, hhead _, hv, hown hkey,
          BundleAllows.of_ruled rfl ⟨src, dst, hsrc, hdst, hbundle⟩⟩
      · exact ⟨routes, clock, peerHex, direction, packet, l4, _, k, hhead _, hv, hseen.symm,
          hown hkey, .inl rfl⟩

theorem provenance_of_run {selfId : SelfIdentity} {bundle : PolicyBundle} {ok : Bool}
    (hrun : Run step (fun _ _ _ => True) (withPostureFlag selfId bundle ok) h a) :
    Provenance h a := by
  refine Run.invariant (.of_empty rfl rfl) ?_ hrun
  intro h a call hprov _
  cases call with
  | packet routes clock peerHex direction packet =>
    exact hprov.packet routes clock peerHex direction packet
  | replaceBundle => exact .of_empty rfl rfl
  | collect =>
    refine hprov.of_sub (by simp) rfl fun key st hlookup => ?_
    rw [step, collect, Map.lookup_retain, Option.filter_eq_some_iff] at hlookup
    exact hlookup.1

end AclEngine

open AclEngine

/-- Connection tracking never outlives policy: in every run of packets, bundle replacements and
ticks of the collector, a packet that is allowed is allowed by the bundle in force, or belongs to a
tracked flow that has not expired, that was opened by a packet the rules of this bundle allowed
since it was put in force, and that was last seen with a packet let through since then. -/
theorem tracking_within_policy {selfId : SelfIdentity} {bundle : PolicyBundle} {ok : Bool}
    {h : List (Call × Reply)} {a : AclEngine}
    (hrun : Run step (fun _ _ _ => True) (withPostureFlag selfId bundle ok) h a) (routes : Tables)
    (clock : Clock) (peerHex : String) (direction : Direction) (packet : Packet)
    (hallow : (a.evaluatePacket routes clock peerHex direction packet).2.action = .allow) :
    ∃ l4, (a.fragments.resolve clock.now packet).2 = some l4 ∧
      (a.BundleAllows routes peerHex direction packet l4 ∨
        ∃ own key st, packetKey packet l4 = some own ∧ (key = own ∨ key = reverse own) ∧
          a.conntrack.lookup key = some st ∧ isExpired st clock.now = false ∧
          OpenedByRules a h key ∧ SeenAt h key st.lastSeen) := by
  have hprov := provenance_of_run hrun
  rcases a.evaluatePacket_cases routes clock peerHex direction packet with
    ⟨hdeny, -⟩ | ⟨src, dst, l4, hsrc, hdst, hl4, -, hpass⟩
  · rw [hdeny] at hallow
    cases hallow
  refine ⟨l4, hl4, ?_⟩
  rcases a.tracking_cases routes clock peerHex src dst direction l4 with
    ⟨own, key, st, hkey, hside, hst, hlive, -⟩ | ⟨hruling, -⟩
  · right
    refine ⟨own, key, st, ?_, hside, hst, hlive, hprov.flows key st hst⟩
    rw [packetKey, hsrc, hdst]
    exact hkey
  · left
    exact ⟨src, dst, hsrc, hdst,
      (ruling_allow_iff routes clock hprov.stale).1 (hruling.1 (hpass.1 hallow))⟩

namespace Demo

/-- Only name queries are allowed. -/
def queriesOnly : PolicyBundle :=
  { PolicyBundle.default with
    rules := [⟨.any, .any, .allow, [⟨53, 53⟩], some .udp, 0, 0, .network, true, none, []⟩],
    defaultAction := .deny }

def datagram (src dst : Ipv4Addr) (srcPort dstPort : UInt16) : Packet :=
  ⟨[], 28, .v4 src dst 17 0 20 64, .none, .udp srcPort dstPort 0⟩

def query : Call := .packet .empty ⟨0, 0⟩ "bb" .outbound (datagram 1 2 40000 53)

def queried : List (Call × Reply) × AclEngine :=
  exec step [] (withPostureFlag ⟨"aa", 1, [], "prod"⟩ queriesOnly true) [query]

/-- The answer to a query passes although no rule allows it, because the query passed. -/
theorem tracking_within_policy_answer :
    (queried.2.evaluatePacket .empty ⟨1, 0⟩ "bb" .inbound (datagram 2 1 53 40000)).2.action =
        .allow ∧
      ∃ key st, queried.2.conntrack.lookup key = some st ∧ OpenedByRules queried.2 queried.1 key ∧
        SeenAt queried.1 key st.lastSeen := by
  have hallow : (queried.2.evaluatePacket .empty ⟨1, 0⟩ "bb" .inbound
      (datagram 2 1 53 40000)).2.action = .allow := by
    decide
  refine ⟨hallow, ?_⟩
  obtain ⟨l4, hl4, ⟨src, dst, hsrc, hdst, hrules⟩ | ⟨-, key, st, -, -, hst, -, hflow⟩⟩ :=
    tracking_within_policy (run_exec (meets_true [query])) .empty ⟨1, 0⟩ "bb" .inbound
      (datagram 2 1 53 40000) hallow
  · cases hsrc
    cases hdst
    cases hl4
    exact absurd hrules (by decide)
  · exact ⟨key, st, hst, hflow⟩

end Demo

end Tunnet.Acl
