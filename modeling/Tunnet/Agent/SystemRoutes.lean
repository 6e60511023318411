import Tunnet.Net.Ip

/-!
# Reconciling the routes of the operating system

`tunnet-agent/src/system_routes.rs`. `RouteEngine.reconcile` compares the kernel's route table with
the routes that are wanted, deletes what stands in the way and adds what is missing;
`RouteEngine.clear` deletes what the engine owns.

The kernel's table is part of the state of the engine. Which operations of the backend fail, and
what is discovered of the underlay, is chosen by the environment for each call.
-/

namespace Tunnet.SystemRoutes

/-! ### Desired routes -/

inductive SplitTunnelMode
  | include'
  | exclude
deriving DecidableEq

/-- `tunnet_common::DeviceProfile`. -/
structure DeviceProfile where
  exitNodeEndpointId : Option String
  splitTunnelMode : SplitTunnelMode
  splitTunnelCidrs : List Ipv4Net
  /-- When using an exit in Exclude mode, keep RFC1918 LAN via the original gateway. -/
  allowLocalLan : Bool

def DeviceProfile.default : DeviceProfile where
  exitNodeEndpointId := none
  splitTunnelMode := .exclude
  splitTunnelCidrs := []
  allowLocalLan := true

/-- The physical interface beneath the tunnel. -/
structure UnderlayInfo where
  interfaceIndex : Nat
  interfaceName : String
  gateway : Option IpAddr

def UnderlayInfo.gatewayV4 (u : UnderlayInfo) : Option Ipv4Addr :=
  match u.gateway with
  | some (.v4 ip) => some ip
  | _ => none

/-- `Ipv4Net::from(Ipv4Addr)`. -/
def hostNet (ip : Ipv4Addr) : Ipv4Net := ⟨ip, 32, le_rfl⟩

/-- 0.0.0.0/0 -/
def defaultNet : Ipv4Net := ⟨0#32, 0, Nat.zero_le _⟩

def rfc1918Nets : List Ipv4Net :=
  [⟨Ipv4Addr.new 10 0 0 0, 8, Ipv4Net.length_eight⟩,
    ⟨Ipv4Addr.new 172 16 0 0, 12, Ipv4Net.length_twelve⟩,
    ⟨Ipv4Addr.new 192 168 0 0, 16, Ipv4Net.length_sixteen⟩]

/-- Logical desired route: TUN on-link vs underlay next-hop. -/
inductive RouteKind
  | viaTun (cidr : Ipv4Net)
  | viaGw (cidr : Ipv4Net) (gw : Ipv4Addr)

structure RouteSpec where
  dest : Ipv4Net
  gateway : Option Ipv4Addr
  ifIndex : Nat
  ifName : String
deriving DecidableEq

namespace RouteSpec

variable (s : RouteSpec)

/-- Identity used to match kernel routes Tunnet owns or intends to install. -/
def identity : Ipv4Net × Option Ipv4Addr × Nat := (s.dest, s.gateway, s.ifIndex)

def addRank : Nat :=
  match s.gateway, s.dest.prefixLen with
  | some _, 32 => 0
  | some _, _ => 1
  | none, 0 => 3
  | none, _ => 2

def delRank : Nat := 3 - s.addRank

def isDefaultTun : Bool := s.gateway.isNone && s.dest.prefixLen == 0

def isHostEscape : Bool := s.gateway.isSome && s.dest.prefixLen == 32

/-- The derived order: field by field. -/
def le (a b : RouteSpec) : Bool :=
  ((compare a.dest.addr.toNat b.dest.addr.toNat).then
    ((compare a.dest.prefixLen b.dest.prefixLen).then
    ((compare (a.gateway.map BitVec.toNat) (b.gateway.map BitVec.toNat)).then
    ((compare a.ifIndex b.ifIndex).then (compare a.ifName b.ifName))))).isLE

/-- `BTreeSet::insert`; a set is the list of its elements in order. -/
def insert (set : List RouteSpec) : List RouteSpec :=
  if s ∈ set then set else set.orderedInsert (fun a b => a.le b) s

end RouteSpec

/-- Some route of the table has the identity. -/
def named (table : List RouteSpec) (s : RouteSpec) : Bool :=
  table.any fun k => k.identity = s.identity

structure DesiredRoutes where
  ifname : String
  tunIfIndex : Option Nat
  profile : DeviceProfile
  remoteSubnets : List Ipv4Net
  peerRoutes : List Ipv4Net
  hasExit : Bool
  underlayHosts : List Ipv4Addr
  underlay : Option UnderlayInfo

namespace DesiredRoutes

variable (d : DesiredRoutes)

/-- An exit node is wanted. -/
def wantsExit : Bool := d.hasExit || d.profile.exitNodeEndpointId.isSome

def exitExclude : Bool :=
  d.wantsExit && d.profile.splitTunnelMode == .exclude

def kinds (gateway : Option Ipv4Addr) (allowDefault : Bool) : List RouteKind :=
  d.remoteSubnets.map .viaTun ++ d.peerRoutes.map .viaTun ++
    match d.profile.splitTunnelMode with
    | .include' => d.profile.splitTunnelCidrs.map .viaTun
    | .exclude =>
      if d.wantsExit then
        (if allowDefault then [.viaTun defaultNet] else []) ++
          match gateway with
          | none => []
          | some gw =>
            d.profile.splitTunnelCidrs.map (.viaGw · gw) ++
              (if d.profile.allowLocalLan then rfc1918Nets.map (.viaGw · gw) else []) ++
              d.underlayHosts.map fun host => .viaGw (hostNet host) gw
      else []

/-- The route of a kind, if its interface is known. -/
def toSpec (underlayIf : Option (Nat × String)) (tunIf : Nat × String) :
    RouteKind → Option RouteSpec
  | .viaTun cidr => some ⟨cidr, none, tunIf.1, tunIf.2⟩
  | .viaGw cidr gw => underlayIf.map fun u => ⟨cidr, some gw, u.1, u.2⟩

def toSpecs (gateway : Option Ipv4Addr) (underlayIf : Option (Nat × String))
    (tunIf : Nat × String) (allowDefault : Bool) : List RouteSpec :=
  ((d.kinds gateway allowDefault).filterMap (toSpec underlayIf tunIf)).foldl
    (fun set s => s.insert set) []

end DesiredRoutes

/-! ### The backend -/

inductive RouteError
  | alreadyExists
  | notFound
  | permissionDenied (op route : String)
  | invalidInterface (route : String)
  | invalidGateway (route : String)
  | native (op route detail : String)
  | list (detail : String)
  | multiple (errors : List RouteError)

def RouteError.isIdempotentAdd : RouteError → Bool
  | .alreadyExists => true
  | _ => false

def RouteError.isIdempotentDelete : RouteError → Bool
  | .notFound => true
  | _ => false

/-- An operation on the table succeeds, or fails, possibly after it has taken effect. -/
inductive Outcome
  | done
  | failed (e : RouteError) (applied : Bool)

def Outcome.applied : Outcome → Bool
  | .done => true
  | .failed _ applied => applied

def Outcome.error : Outcome → Option RouteError
  | .done => none
  | .failed e _ => some e

/-- How the backend answers the requests of one call. No route is added or deleted twice in one
call. -/
structure Backend where
  /-- The listing at the beginning. -/
  list : Option RouteError
  delete : RouteSpec → Outcome
  /-- The listing after a failed deletion. -/
  listDeleted : RouteSpec → Option RouteError
  /-- The listing before the additions. -/
  relist : Option RouteError
  add : RouteSpec → Outcome
  /-- The listing after an addition that was reported to exist. -/
  listAdded : RouteSpec → Option RouteError

namespace Backend

variable (be : Backend)

variable (s : RouteSpec) (kernel : List RouteSpec)

/-- The table after a deletion. -/
def afterDelete : List RouteSpec :=
  if (be.delete s).applied then kernel.filter fun k => k.identity ≠ s.identity else kernel

/-- Whether the route is in the table after a failed deletion, as far as one can tell. -/
def stillThere : Bool :=
  match be.listDeleted s with
  | none => named kernel s
  | some _ => true

/-- The table after an addition. -/
def afterAdd : List RouteSpec :=
  if (be.add s).applied then s.insert kernel else kernel

/-- Whether a route that was reported to exist is in the table. -/
def exists' : Bool :=
  match be.listAdded s with
  | none => named kernel s
  | some _ => false

end Backend

/-- What a call finds out about the interfaces: `UnderlayInfo::discover` and `resolve_if_index`. -/
structure Lookup where
  underlay : Option UnderlayInfo
  ifIndex : Option Nat

/-! ### The engine -/

/-- Single-owner route state, with the kernel's table. -/
structure RouteEngine where
  kernel : List RouteSpec
  owned : List RouteSpec
  lastDesired : Option DesiredRoutes

/-- `Ok`, the only error, or all of them. -/
def outcome : List RouteError → Except RouteError Unit
  | [] => .ok ()
  | [e] => .error e
  | errors => .error (.multiple errors)

namespace RouteEngine

def withBackend (kernel : List RouteSpec) : RouteEngine where
  kernel := kernel
  owned := []
  lastDesired := none

variable (be : Backend)

variable (e : RouteEngine) (s : RouteSpec)

/-- Forget the routes with this identity. -/
def disown : RouteEngine :=
  { e with owned := e.owned.filter fun o => o.identity ≠ s.identity }

/-- Delete one route, and whether that failed. -/
def deleteRoute : RouteEngine × Option RouteError :=
  let e := { e with kernel := be.afterDelete s e.kernel }
  match (be.delete s).error with
  | none => (e.disown s, none)
  | some err =>
    if err.isIdempotentDelete then (e.disown s, none)
    else if be.stillThere s e.kernel then (e, some err)
    else (e.disown s, none)

def deleteRoutes : List RouteSpec → RouteEngine → List RouteError → RouteEngine × List RouteError
  | [], e, errors => (e, errors)
  | s :: routes, e, errors =>
    let (e, err) := e.deleteRoute be s
    deleteRoutes routes e (errors ++ err.toList)

/-- Add one route, and whether that failed. -/
def addRoute : RouteEngine × Option RouteError :=
  let e := { e with kernel := be.afterAdd s e.kernel }
  match (be.add s).error with
  | none => ({ e with owned := s.insert e.owned }, none)
  | some err =>
    if err.isIdempotentAdd && be.exists' s e.kernel then
      ({ e with owned := s.insert e.owned }, none)
    else (e, some err)

/-- Add routes in turn. The default route over the TUN is skipped when an underlay escape route
has failed. -/
def addRoutes : List RouteSpec → Bool → RouteEngine → List RouteError →
    RouteEngine × List RouteError
  | [], _, e, errors => (e, errors)
  | s :: routes, escapeFailed, e, errors =>
    if s.isDefaultTun && escapeFailed then addRoutes routes escapeFailed e errors
    else
      let (e, err) := e.addRoute be s
      addRoutes routes (escapeFailed || (err.isSome && s.isHostEscape)) e (errors ++ err.toList)

end RouteEngine

variable (d : DesiredRoutes) (look : Lookup)

/-- The underlay of a call. -/
def DesiredRoutes.underlayOf : Option UnderlayInfo :=
  d.underlay.or look.underlay

def DesiredRoutes.gatewayOf : Option Ipv4Addr :=
  (d.underlayOf look).bind UnderlayInfo.gatewayV4

def DesiredRoutes.underlayIf : Option (Nat × String) :=
  (d.underlayOf look).map fun u => (u.interfaceIndex, u.interfaceName)

def DesiredRoutes.tunIndex : Option Nat :=
  d.tunIfIndex.or look.ifIndex

/-- The exit may take the default route only if the underlay is known. -/
def DesiredRoutes.allowDefault : Bool :=
  if d.exitExclude then !((d.gatewayOf look).isNone || (d.underlayIf look).isNone) else true

/-- The wanted routes. -/
def DesiredRoutes.want (tunIndex : Nat) : List RouteSpec :=
  d.toSpecs (d.gatewayOf look) (d.underlayIf look) (tunIndex, d.ifname) (d.allowDefault look)

namespace RouteEngine

variable (want kernel owned : List RouteSpec)

/-- What is owned: owned routes that are still in the table, and wanted ones that are there. -/
def adopt : List RouteSpec :=
  want.foldl (fun set s => if named kernel s then s.insert set else set)
    (owned.filter fun o => named kernel o)

/-- Whether a route of the table stands in the way of the wanted ones. -/
def inTheWay (tunIndex : Nat) (k : RouteSpec) : Bool :=
  let desiredDest := want.any fun w => w.dest = k.dest
  let tunOwned := k.ifIndex = tunIndex && k.gateway.isNone
  let matchesWant := named want k
  !matchesWant &&
    ((tunOwned && !want.any fun w => w.dest = k.dest && w.gateway.isNone) || desiredDest)

/-- The routes to delete, in the order of deletion. -/
def toDelete (tunIndex : Nat) : List RouteSpec :=
  let toDel := owned.filter fun o => !named want o
  let toDel := kernel.foldl
    (fun toDel k =>
      if inTheWay want tunIndex k && !named toDel k then toDel ++ [k] else toDel) toDel
  toDel.insertionSort fun a b => a.delRank ≤ b.delRank

/-- The routes to add, in the order of addition. -/
def toAdd : List RouteSpec :=
  (want.filter fun w => !named kernel w).insertionSort fun a b => a.addRank ≤ b.addRank

def reconcileNative (be : Backend) (look : Lookup) (d : DesiredRoutes) (e : RouteEngine) :
    RouteEngine × Except RouteError Unit :=
  match d.tunIndex look with
  | none => (e, .error (.invalidInterface d.ifname))
  | some tunIndex =>
    match be.list with
    | some err => (e, .error err)
    | none =>
      let want := d.want look tunIndex
      let e := { e with owned := adopt want e.kernel e.owned }
      let (e, errors) := deleteRoutes be (toDelete want e.kernel e.owned tunIndex) e []
      match be.relist with
      | some err => (e, .error err)
      | none =>
        let (e, errors) := addRoutes be (toAdd want e.kernel) false e errors
        (e, outcome errors)

def reconcile (be : Backend) (look : Lookup) (d : DesiredRoutes) (e : RouteEngine) :
    RouteEngine × Except RouteError Unit :=
  reconcileNative be look d { e with lastDesired := some d }

def reconcileLast (be : Backend) (look : Lookup) (e : RouteEngine) :
    RouteEngine × Except RouteError Unit :=
  match e.lastDesired with
  | none => (e, .ok ())
  | some d => reconcile be look d e

def clear (be : Backend) (e : RouteEngine) : RouteEngine × Except RouteError Unit :=
  let routes := e.owned.insertionSort fun a b => a.delRank ≤ b.delRank
  let (e, errors) := deleteRoutes be routes e []
  ({ e with lastDesired := none }, outcome errors)

end RouteEngine

end Tunnet.SystemRoutes
