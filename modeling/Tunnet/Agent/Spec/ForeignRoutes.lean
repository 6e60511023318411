import Tunnet.Agent.Spec.RouteTable

/-!
# Routes that were there before

What becomes of the routes of the table when routes are reconciled any number of times and then
cleared, by a backend that does what it is asked.

* `Foreign` routes, which no call concerns, survive every call; `Tracked` ones, which a call claims,
  are gone after `clear` (`routes_after_clear`).
* After `reconcile` the routes on the TUN are those that are wanted (`reconcile_converges`).
-/

namespace Tunnet.SystemRoutes

open List RouteEngine

/-- A desired state with what the call finds out about the interfaces. -/
abbrev RouteCall := DesiredRoutes × Lookup

/-- Reconcile in turn. -/
def RouteEngine.reconcileAll (e : RouteEngine) (calls : List RouteCall) : RouteEngine :=
  calls.foldl (fun e c => (e.reconcile .exact c.2 c.1).1) e

/-- The table after the calls and a final `clear`. -/
def tableAfter (kernel : List RouteSpec) (calls : List RouteCall) : List RouteSpec :=
  (((withBackend kernel).reconcileAll calls).clear .exact).1.kernel

/-- The route is on-link over the TUN interface. -/
def OnTun (tunIndex : Nat) (r : RouteSpec) : Prop := r.ifIndex = tunIndex ∧ r.gateway = none

/-- The call wants a route to the same destination, or the route is on-link over its TUN. -/
def Concerns (c : RouteCall) (r : RouteSpec) : Prop :=
  ∃ tunIndex, c.1.tunIndex c.2 = some tunIndex ∧
    ((∃ w ∈ c.1.want c.2 tunIndex, w.dest = r.dest) ∨ OnTun tunIndex r)

/-- The call takes the route for one of Tunnet's: it wants the very route, or the route is on-link
over its TUN. -/
def Claims (c : RouteCall) (r : RouteSpec) : Prop :=
  ∃ tunIndex, c.1.tunIndex c.2 = some tunIndex ∧
    ((∃ w ∈ c.1.want c.2 tunIndex, w.identity = r.identity) ∨ OnTun tunIndex r)

/-! ### One call -/

section

variable {d : DesiredRoutes} {look : Lookup} {tunIndex : Nat} {e : RouteEngine} {x r : RouteSpec}

/-- The routes one call deletes. -/
def RouteEngine.deleted (e : RouteEngine) (d : DesiredRoutes) (look : Lookup) (tunIndex : Nat) :
    List RouteSpec :=
  let want := d.want look tunIndex
  toDelete want e.kernel (adopt want e.kernel e.owned) tunIndex

/-- The routes one call adds. -/
def RouteEngine.added (e : RouteEngine) (d : DesiredRoutes) (look : Lookup) (tunIndex : Nat) :
    List RouteSpec :=
  toAdd (d.want look tunIndex) (e.kernel.filter fun k => !named (e.deleted d look tunIndex) k)

variable {want : List RouteSpec} (h : d.tunIndex look = some tunIndex)

include h

theorem reconcile_exact : e.reconcile .exact look d =
    ({ kernel := (e.added d look tunIndex).foldl (fun set s => s.insert set)
        (e.kernel.filter fun k => !named (e.deleted d look tunIndex) k)
       owned := (e.added d look tunIndex).foldl (fun set s => s.insert set)
        ((adopt (d.want look tunIndex) e.kernel e.owned).filter
          fun o => !named (e.deleted d look tunIndex) o)
       lastDesired := some d }, .ok ()) := by
  unfold reconcile reconcileNative
  simp only [h, deleteRoutes_exact, addRoutes_exact]
  rfl

theorem mem_kernel_reconcile : x ∈ (e.reconcile .exact look d).1.kernel ↔
      (x ∈ e.kernel ∧ named (e.deleted d look tunIndex) x = false) ∨
        x ∈ e.added d look tunIndex := by
  rw [reconcile_exact h]
  rw [mem_foldl_insert, mem_filter, Bool.not_eq_true']
  exact or_comm

theorem mem_owned_reconcile : x ∈ (e.reconcile .exact look d).1.owned ↔
      (x ∈ adopt (d.want look tunIndex) e.kernel e.owned ∧
        named (e.deleted d look tunIndex) x = false) ∨ x ∈ e.added d look tunIndex := by
  rw [reconcile_exact h]
  rw [mem_foldl_insert, mem_filter, Bool.not_eq_true']
  exact or_comm

omit h

theorem reconcile_none (h : d.tunIndex look = none) : (e.reconcile .exact look d).1 =
    { e with lastDesired := some d } := by
  unfold reconcile reconcileNative
  simp [h]

theorem inTheWay_iff : inTheWay want tunIndex x ↔
    named want x = false ∧ ((OnTun tunIndex x ∧ ∀ w ∈ want, w.dest = x.dest → w.gateway ≠ none) ∨
      ∃ w ∈ want, w.dest = x.dest) := by
  unfold inTheWay OnTun
  simp

theorem inTheWay_of_concerned (hwant : named want x = false)
    (h : (∃ w ∈ want, w.dest = x.dest) ∨ OnTun tunIndex x) : inTheWay want tunIndex x := by
  refine inTheWay_iff.2 ⟨hwant, ?_⟩
  by_cases hdest : ∃ w ∈ want, w.dest = x.dest
  · exact .inr hdest
  · exact .inl ⟨h.resolve_left hdest, fun w hw hw' => absurd ⟨w, hw, hw'⟩ hdest⟩

theorem eq_of_identity (h : x.identity = r.identity) :
    x.dest = r.dest ∧ x.gateway = r.gateway ∧ x.ifIndex = r.ifIndex := by
  unfold RouteSpec.identity at h
  simpa only [Prod.mk.injEq] using h

theorem OnTun.congr (hx : OnTun tunIndex x) (h : x.identity = r.identity) : OnTun tunIndex r := by
  obtain ⟨-, hgateway, hindex⟩ := eq_of_identity h
  exact ⟨hindex ▸ hx.1, hgateway ▸ hx.2⟩

/-! ### Routes that survive -/

/-- The route is in the table and not owned. -/
structure Foreign (e : RouteEngine) (r : RouteSpec) : Prop where
  mem : r ∈ e.kernel
  not_owned : named e.owned r = false

theorem Foreign.reconcile (hr : Foreign e r) (h : ¬ Concerns (d, look) r) :
    Foreign (e.reconcile .exact look d).1 r := by
  cases htun : d.tunIndex look with
  | none =>
    rw [reconcile_none htun]
    exact ⟨hr.mem, hr.not_owned⟩
  | some tunIndex =>
    have hwant (w) (hw : w ∈ d.want look tunIndex) : w.dest ≠ r.dest :=
      fun hdest => h ⟨tunIndex, htun, .inl ⟨w, hw, hdest⟩⟩
    have hadopt (o) (ho : o ∈ adopt (d.want look tunIndex) e.kernel e.owned) :
        o.identity ≠ r.identity := by
      intro hid
      rcases (mem_adopt.1 ho).1 with ho | ho
      · have howned := named_iff.2 ⟨o, ho, hid⟩
        rw [hr.not_owned] at howned
        cases howned
      · exact hwant o ho (eq_of_identity hid).1
    refine ⟨(mem_kernel_reconcile htun).2 (.inl ⟨hr.mem, ?_⟩), ?_⟩
    · -- Nothing that goes has the identity of the route.
      unfold deleted
      rw [← Bool.not_eq_true, named_toDelete_iff]
      rintro (⟨o, ho, hid, _⟩ | ⟨k, _, hid, hway⟩)
      · exact hadopt o ho hid
      · rcases (inTheWay_iff.1 hway).2 with ⟨htunk, _⟩ | ⟨w, hw, hdest⟩
        · exact h ⟨tunIndex, htun, .inr (htunk.congr hid)⟩
        · exact hwant w hw (hdest.trans (eq_of_identity hid).1)
    · rw [← Bool.not_eq_true, named_iff]
      rintro ⟨o, ho, hid⟩
      rcases (mem_owned_reconcile htun).1 ho with ⟨ho, _⟩ | ho
      · exact hadopt o ho hid
      · exact hwant o (mem_toAdd_iff.1 ho).1 (eq_of_identity hid).1

/-! ### Routes that go -/

/-- The route is not in the table unless it is owned. -/
def Tracked (e : RouteEngine) (r : RouteSpec) : Prop :=
  named e.kernel r → named e.owned r

theorem tracked_of_adopt (htun : d.tunIndex look = some tunIndex)
    (h : ∀ k ∈ e.kernel, k.identity = r.identity →
      named (e.deleted d look tunIndex) k = false →
      ∃ o ∈ adopt (d.want look tunIndex) e.kernel e.owned, o.identity = r.identity) :
    Tracked (e.reconcile .exact look d).1 r := by
  intro hnamed
  obtain ⟨k, hk, hid⟩ := named_iff.1 hnamed
  rcases (mem_kernel_reconcile htun).1 hk with ⟨hk, hdeleted⟩ | hk
  · obtain ⟨o, ho, hoid⟩ := h k hk hid hdeleted
    refine named_iff.2 ⟨o, (mem_owned_reconcile htun).2 (.inl ⟨ho, ?_⟩), hoid⟩
    rw [named_congr (hoid.trans hid.symm)]
    exact hdeleted
  · exact named_iff.2 ⟨k, (mem_owned_reconcile htun).2 (.inr hk), hid⟩

theorem Tracked.reconcile (hr : Tracked e r) : Tracked (e.reconcile .exact look d).1 r := by
  cases htun : d.tunIndex look with
  | none =>
    rw [reconcile_none htun]
    exact hr
  | some =>
    refine tracked_of_adopt htun fun k hk hid _ => ?_
    obtain ⟨o, ho, hoid⟩ := named_iff.1 (hr (named_iff.2 ⟨k, hk, hid⟩))
    exact ⟨o, mem_adopt.2 ⟨.inl ho, named_iff.2 ⟨k, hk, hid.trans hoid.symm⟩⟩, hoid⟩

theorem Claims.tracked (h : Claims (d, look) r) : Tracked (e.reconcile .exact look d).1 r := by
  obtain ⟨tunIndex, htun, h⟩ := h
  refine tracked_of_adopt htun fun k hk hid hdeleted => ?_
  by_cases hwant : ∃ w ∈ d.want look tunIndex, w.identity = r.identity
  · obtain ⟨w, hw, hwid⟩ := hwant
    exact ⟨w, mem_adopt.2 ⟨.inr hw, named_iff.2 ⟨k, hk, hid.trans hwid.symm⟩⟩, hwid⟩
  · -- An on-link route over the TUN that is not wanted stands in the way.
    have hr : OnTun tunIndex r := h.resolve_left hwant
    have hnot : named (d.want look tunIndex) k = false := by
      rw [← Bool.not_eq_true, named_iff]
      rintro ⟨w, hw, hwid⟩
      exact hwant ⟨w, hw, hwid.trans hid⟩
    have hway := inTheWay_of_concerned hnot (.inr (hr.congr hid.symm))
    have hnamed : named (e.deleted d look tunIndex) k :=
      named_toDelete_iff.2 (.inr ⟨k, hk, rfl, hway⟩)
    rw [hnamed] at hdeleted
    cases hdeleted

/-! ### Convergence -/

section

include h

theorem named_want_of_concerned (hx : x ∈ (e.reconcile .exact look d).1.kernel)
    (hconcerned : (∃ w ∈ d.want look tunIndex, w.dest = x.dest) ∨ OnTun tunIndex x) :
    named (d.want look tunIndex) x := by
  rcases (mem_kernel_reconcile h).1 hx with ⟨hx, hkept⟩ | hx
  · by_contra hnot
    have hway := inTheWay_of_concerned (Bool.not_eq_true _ ▸ hnot) hconcerned
    have hdeleted : named (e.deleted d look tunIndex) x :=
      named_toDelete_iff.2 (.inr ⟨x, hx, rfl, hway⟩)
    rw [hdeleted] at hkept
    cases hkept
  · exact named_of_mem (mem_toAdd_iff.1 hx).1

theorem named_want_of_owned (hx : x ∈ (e.reconcile .exact look d).1.owned) :
    named (d.want look tunIndex) x := by
  rcases (mem_owned_reconcile h).1 hx with ⟨hx, hkept⟩ | hx
  · by_contra hnot
    have hdeleted : named (e.deleted d look tunIndex) x :=
      named_toDelete_iff.2 (.inl ⟨x, hx, rfl, Bool.not_eq_true _ ▸ hnot⟩)
    rw [hdeleted] at hkept
    cases hkept
  · exact named_of_mem (mem_toAdd_iff.1 hx).1

theorem named_reconcile_of_want (hx : x ∈ d.want look tunIndex) :
    named (e.reconcile .exact look d).1.kernel x ∧
      x ∈ (e.reconcile .exact look d).1.owned := by
  have hkept : named (e.deleted d look tunIndex) x = false := not_named_toDelete (named_of_mem hx)
  cases hnamed : named e.kernel x with
  | true =>
    obtain ⟨k, hk, hid⟩ := named_iff.1 hnamed
    have hkkept := named_congr hid ▸ hkept
    exact ⟨named_iff.2 ⟨k, (mem_kernel_reconcile h).2 (.inl ⟨hk, hkkept⟩), hid⟩,
      (mem_owned_reconcile h).2 (.inl ⟨mem_adopt.2 ⟨.inr hx, hnamed⟩, hkept⟩)⟩
  | false =>
    have hadded : x ∈ e.added d look tunIndex := by
      refine mem_toAdd_iff.2 ⟨hx, ?_⟩
      rw [← Bool.not_eq_true, named_iff] at hnamed ⊢
      rintro ⟨k, hk, hid⟩
      exact hnamed ⟨k, (mem_filter.1 hk).1, hid⟩
    exact ⟨named_of_mem ((mem_kernel_reconcile h).2 (.inr hadded)),
      (mem_owned_reconcile h).2 (.inr hadded)⟩

theorem deleted_reconcile : (e.reconcile .exact look d).1.deleted d look tunIndex = [] := by
  refine eq_nil_iff_forall_not_mem.2 fun x hx => ?_
  rcases mem_toDelete hx with ⟨hx, hnot⟩ | ⟨hx, hway⟩
  · have hnamed := (mem_adopt.1 hx).1.elim (named_want_of_owned h) named_of_mem
    rw [hnamed] at hnot
    cases hnot
  · obtain ⟨hnot, hway⟩ := inTheWay_iff.1 hway
    rw [named_want_of_concerned h hx (hway.symm.imp_right And.left)] at hnot
    cases hnot

/-- Reconciliation converges: it succeeds, the routes of the table over the TUN or to a wanted
destination are the wanted ones, these are the owned ones, and the next call with the same desired
state neither deletes nor adds a route. -/
theorem reconcile_converges (e : RouteEngine) : let want := d.want look tunIndex
    let after := (e.reconcile .exact look d).1
    (e.reconcile .exact look d).2 = .ok () ∧
      (∀ x, (∃ k ∈ after.kernel, k.identity = x.identity ∧
        ((∃ w ∈ want, w.dest = k.dest) ∨ OnTun tunIndex k)) ↔ named want x) ∧
      (∀ x, named after.owned x ↔ named want x) ∧
      after.deleted d look tunIndex = [] ∧ after.added d look tunIndex = [] := by
  refine ⟨by rw [reconcile_exact h], fun x => ⟨?_, fun hx => ?_⟩, fun x => ⟨fun hx => ?_,
    fun hx => ?_⟩, deleted_reconcile h, eq_nil_iff_forall_not_mem.2 fun x hx => ?_⟩
  · rintro ⟨k, hk, hid, hconcerned⟩
    rw [← named_congr hid]
    exact named_want_of_concerned h hk hconcerned
  · obtain ⟨w, hw, hid⟩ := named_iff.1 hx
    obtain ⟨k, hk, hkid⟩ := named_iff.1 (named_reconcile_of_want h hw).1
    exact ⟨k, hk, hkid.trans hid, .inl ⟨w, hw, (eq_of_identity hkid.symm).1⟩⟩
  · obtain ⟨o, ho, hid⟩ := named_iff.1 hx
    rw [← named_congr hid]
    exact named_want_of_owned h ho
  · obtain ⟨w, hw, hid⟩ := named_iff.1 hx
    exact named_iff.2 ⟨w, (named_reconcile_of_want h hw).2, hid⟩
  · -- Nothing is deleted, and what is wanted is in the table.
    obtain ⟨hx, hnot⟩ := mem_toAdd_iff.1 hx
    obtain ⟨k, hk, hid⟩ := named_iff.1 (named_reconcile_of_want h hx).1
    refine Bool.eq_false_iff.1 hnot (named_iff.2 ⟨k, mem_filter.2 ⟨hk, ?_⟩, hid⟩)
    rw [deleted_reconcile h]
    rfl

end

end

/-! ### All calls -/

theorem mem_clear {e : RouteEngine} {x : RouteSpec} :
    x ∈ (e.clear .exact).1.kernel ↔ x ∈ e.kernel ∧ named e.owned x = false := by
  unfold clear
  simp [deleteRoutes_exact, named_insertionSort]

variable {r : RouteSpec} {calls : List RouteCall}

theorem Foreign.reconcileAll {e : RouteEngine}
    (hr : Foreign e r) (h : ∀ c ∈ calls, ¬ Concerns c r) : Foreign (e.reconcileAll calls) r := by
  induction calls generalizing e with
  | nil => exact hr
  | cons c calls ih =>
    rw [forall_mem_cons] at h
    exact ih (hr.reconcile h.1) h.2

theorem Tracked.reconcileAll {e : RouteEngine} (hr : Tracked e r)
    (calls : List RouteCall) : Tracked (e.reconcileAll calls) r := by
  induction calls generalizing e with
  | nil => exact hr
  | cons c calls ih => exact ih hr.reconcile

theorem tracked_reconcileAll {e : RouteEngine}
    (h : ∃ c ∈ calls, Claims c r) : Tracked (e.reconcileAll calls) r := by
  induction calls generalizing e with
  | nil =>
    obtain ⟨c, hc, _⟩ := h
    cases hc
  | cons c calls ih =>
    rcases (exists_mem_cons_iff _ _ _).1 h with hc | hc
    · exact Tracked.reconcileAll hc.tracked calls
    · exact ih hc

/-- What becomes of the routes that were there: after any number of reconciliations and a
`clear`, a route of the table is still there if no call wanted its destination and it is not
on-link over the TUN; it is gone if some call wanted the very route, or it is on-link over the
TUN. -/
theorem routes_after_clear {kernel : List RouteSpec} {calls : List RouteCall} {r : RouteSpec}
    (hr : r ∈ kernel) : ((∀ c ∈ calls, ¬ Concerns c r) → r ∈ tableAfter kernel calls) ∧
      ((∃ c ∈ calls, Claims c r) → r ∉ tableAfter kernel calls) := by
  unfold tableAfter
  rw [mem_clear]
  refine ⟨fun h => ?_, fun h => ?_⟩
  · have hforeign : Foreign (withBackend kernel) r := ⟨hr, rfl⟩
    have hafter := hforeign.reconcileAll h
    exact ⟨hafter.mem, hafter.not_owned⟩
  · rintro ⟨hmem, howned⟩
    have htracked : Tracked ((withBackend kernel).reconcileAll calls) r := tracked_reconcileAll h
    rw [htracked (named_of_mem hmem)] at howned
    cases howned

instance (tunIndex : Nat) (r : RouteSpec) : Decidable (OnTun tunIndex r) :=
  inferInstanceAs (Decidable (_ ∧ _))

namespace Demo

/-- The gateway of the physical network. -/
def gw : Ipv4Addr := Ipv4Addr.new 192 168 1 1

def viaEth (dest : Ipv4Net) : RouteSpec := ⟨dest, some gw, 2, "eth0"⟩

def viaTun (dest : Ipv4Net) : RouteSpec := ⟨dest, none, 9, "tun0"⟩

/-- One peer in the mesh. -/
def mesh (peer : Ipv4Addr) : DesiredRoutes where
  ifname := "tun0"
  tunIfIndex := some 9
  profile := .default
  remoteSubnets := []
  peerRoutes := [hostNet peer]
  hasExit := false
  underlayHosts := []
  underlay := some ⟨2, "eth0", some (.v4 gw)⟩

/-- An exit node, with these hosts to be reached outside the tunnel. -/
def exit (hosts : List Ipv4Addr) : DesiredRoutes :=
  { mesh 0 with
    profile := { DeviceProfile.default with exitNodeEndpointId := some "abc" }
    peerRoutes := []
    hasExit := true
    underlayHosts := hosts }

def noLookup : Lookup := ⟨none, none⟩

/-- An unrelated route stays; the route to the peer, left over from an earlier start, is taken for
our own and goes. -/
theorem routes_after_clear_mesh : let unrelated := viaEth (hostNet (Ipv4Addr.new 8 8 8 8))
    let peer := Ipv4Addr.new 10 99 0 5
    let kernel := [unrelated, viaTun (hostNet peer)]
    let calls := [(mesh peer, noLookup)]
    unrelated ∈ tableAfter kernel calls ∧ viaTun (hostNet peer) ∉ tableAfter kernel calls := by
  refine ⟨(routes_after_clear (by decide)).1 ?_, (routes_after_clear (by decide)).2 ?_⟩
  · rw [forall_mem_singleton]
    rintro ⟨tunIndex, ⟨⟩, h⟩
    revert h
    decide
  · exact ⟨_, mem_singleton_self _, 9, rfl, .inr ⟨rfl, rfl⟩⟩

theorem reconcile_converges_mesh :
    ((withBackend [viaEth defaultNet]).reconcile .exact noLookup (mesh gw)).2 = .ok () :=
  (reconcile_converges rfl _).1

/-- A route to a peer that somebody else has put in the table over the TUN interface does not
survive. -/
theorem adopted_route_goes : let peer := Ipv4Addr.new 10 99 0 5
    viaTun (hostNet peer) ∉ tableAfter [viaTun (hostNet peer)] [(mesh peer, noLookup)] := by
  decide

-- The physical default route goes when an exit node is wanted, and `clear` does not bring it back.
example : tableAfter [viaEth defaultNet] [(exit [Ipv4Addr.new 1 2 3 4], noLookup)] = [] := by
  decide

end Demo

end Tunnet.SystemRoutes
