import Tunnet.Agent.Spec.ForeignRoutes
import Tunnet.Util.Run

/-!
# Exit routing and the hosts of the underlay

With an exit node the default route leads into the tunnel, and the hosts that carry the tunnel need
a route of their own through the physical gateway. Escape routes come before the default route in
the order of additions, and the default route is skipped when one of them has failed.
-/

namespace Tunnet.SystemRoutes

open Bool DesiredRoutes List Option RouteEngine RouteSpec

/-! ### Runs of the engine -/

inductive RouteEvent
  | reconcile (be : Backend) (look : Lookup) (d : DesiredRoutes)
  | reconcileLast (be : Backend) (look : Lookup)
  | clear (be : Backend)

def RouteEngine.step (e : RouteEngine) : RouteEvent → RouteEngine × Except RouteError Unit
  | .reconcile be look d => e.reconcile be look d
  | .reconcileLast be look => e.reconcileLast be look
  | .clear be => e.clear be

/-- A default route over the TUN interface. -/
def DefaultTun (tunIndex : Nat) (k : RouteSpec) : Prop :=
  k.isDefaultTun ∧ k.ifIndex = tunIndex

/-- If there is a default route over the TUN, every underlay host has a route through the present
gateway. -/
def LoopFree (d : DesiredRoutes) (look : Lookup) (kernel : List RouteSpec) : Prop :=
  ∀ tunIndex, d.tunIndex look = some tunIndex → (∃ k ∈ kernel, DefaultTun tunIndex k) →
    ∀ host ∈ d.underlayHosts, ∃ gw, d.gatewayOf look = some gw ∧
      ∃ k ∈ kernel, k.dest = hostNet host ∧ k.gateway = some gw

/-- What keeps a reconciliation from leaving a default route over the TUN without the escape
routes. -/
inductive Guarded (e : RouteEngine) (be : Backend) (look : Lookup) (d : DesiredRoutes)
    (tunIndex : Nat) : Prop
  | noHosts : d.underlayHosts = [] → Guarded e be look d tunIndex
  /-- The escape routes are wanted, and there is no default route over the TUN yet. -/
  | fresh : d.exitExclude → d.allowDefault look →
      (∀ k ∈ e.kernel, ¬ DefaultTun tunIndex k) → Guarded e be look d tunIndex
  /-- The escape routes are wanted, and those that are missing are added without a failure. -/
  | added : d.exitExclude → d.allowDefault look →
      (∀ s ∈ d.want look tunIndex, s.isHostEscape → named e.kernel s = false →
        (be.add s).error.isNone) → Guarded e be look d tunIndex
  /-- No default route over the TUN is wanted, and those in the table can be deleted. -/
  | removed : (∀ w ∈ d.want look tunIndex, w.isDefaultTun = false) →
      (∀ s ∈ e.kernel ++ e.owned, DefaultTun tunIndex s → (be.delete s).applied) →
      Guarded e be look d tunIndex

namespace RouteEvent

/-- The reconciliation that the event performs. -/
def reconciles (e : RouteEngine) : RouteEvent → Option (Backend × Lookup × DesiredRoutes)
  | .reconcile be look d => some (be, look, d)
  | .reconcileLast be look => e.lastDesired.map fun d => (be, look, d)
  | .clear _ => none

/-- The backend lists its table, and a reconciliation that wants an exit is guarded. -/
def Guarded (e : RouteEngine) (i : RouteEvent) : Prop :=
  ∀ be look d, i.reconciles e = some (be, look, d) →
    be.list = none ∧ be.relist = none ∧ (d.wantsExit → ∀ tunIndex,
      d.tunIndex look = some tunIndex → SystemRoutes.Guarded e be look d tunIndex)

end RouteEvent

/-! ### Adding routes by rank -/

variable {be : Backend} {e : RouteEngine} {k : RouteSpec}

section

variable {s : RouteSpec} {routes table table' : List RouteSpec} {errors : List RouteError}
  {escapeFailed : Bool}

theorem addRank_of_isDefaultTun (h : s.isDefaultTun) : s.addRank = 3 := by
  unfold isDefaultTun at h
  rw [and_eq_true, isNone_iff_eq_none, beq_iff_eq] at h
  unfold addRank
  simp [h.1, h.2]

theorem addRank_of_isHostEscape (h : s.isHostEscape) : s.addRank = 0 := by
  unfold isHostEscape at h
  rw [and_eq_true, beq_iff_eq] at h
  obtain ⟨gw, hgw⟩ := isSome_iff_exists.1 h.1
  unfold addRank
  simp [hgw, h.2]

theorem named_mono (h : ∀ k ∈ table, k ∈ table') (hs : named table s) : named table' s := by
  obtain ⟨k, hk, hid⟩ := named_iff.1 hs
  exact named_iff.2 ⟨k, h k hk, hid⟩

theorem mem_of_mem_addRoutes (h : k ∈ (addRoutes be routes escapeFailed e errors).1.kernel) :
    k ∈ e.kernel ∨ k ∈ routes := by
  induction routes generalizing e escapeFailed errors with
  | nil => exact .inl h
  | cons s routes ih =>
    unfold addRoutes at h
    split_ifs at h
    · exact (ih h).imp_right (mem_cons_of_mem _)
    · dsimp only at h
      rcases ih h with hk | hk
      · rw [kernel_addRoute, mem_afterAdd] at hk
        rcases hk with hk | ⟨_, rfl⟩
        · exact .inl hk
        · exact .inr mem_cons_self
      · exact .inr (mem_cons_of_mem _ hk)

/-- The default route comes last: a default route over the TUN is added only when no escape
route has failed. -/
theorem hostEscape_of_default (hsorted : routes.Pairwise fun a b => a.addRank ≤ b.addRank)
    (hdefault : k.isDefaultTun) (hnew : k ∉ e.kernel)
    (h : k ∈ (addRoutes be routes escapeFailed e errors).1.kernel) :
    escapeFailed = false ∧ ∀ s ∈ routes, s.isHostEscape →
      named (addRoutes be routes escapeFailed e errors).1.kernel s := by
  induction routes generalizing e escapeFailed errors with
  | nil => exact absurd h hnew
  | cons s routes ih =>
    rw [pairwise_cons] at hsorted
    have hescape : s.isDefaultTun → s.isHostEscape = false := by
      intro hs
      rw [← not_eq_true]
      intro hs'
      have := addRank_of_isDefaultTun hs
      have := addRank_of_isHostEscape hs'
      omega
    unfold addRoutes at h ⊢
    split_ifs at h ⊢ with hskip
    · rw [and_eq_true] at hskip
      obtain ⟨hfailed, hrest⟩ := ih hsorted.2 hnew h
      rw [hskip.2] at hfailed
      cases hfailed
    · by_cases hnew' : k ∈ (e.addRoute be s).1.kernel
      · -- The default route is the one that has just been added: what follows is not below it.
        rw [kernel_addRoute, mem_afterAdd] at hnew'
        obtain ⟨-, rfl⟩ := hnew'.resolve_left hnew
        rw [hdefault, not_eq_true] at hskip
        refine ⟨hskip, forall_mem_cons.2 ⟨fun hs => ?_, fun s' hs' hs => ?_⟩⟩
        · rw [hescape hdefault] at hs
          cases hs
        · have hle := hsorted.1 s' hs'
          rw [addRank_of_isDefaultTun hdefault, addRank_of_isHostEscape hs] at hle
          omega
      · obtain ⟨hfailed, hrest⟩ := ih hsorted.2 hnew' h
        rw [or_eq_false_iff] at hfailed
        refine ⟨hfailed.1, forall_mem_cons.2 ⟨fun hs => ?_, hrest⟩⟩
        rw [hs, Bool.and_true, isSome_eq_false_iff, isNone_iff_eq_none] at hfailed
        exact named_mono (fun k hk => mem_addRoutes_of_mem hk) (named_addRoute hfailed.2)

theorem named_addRoutes (hs : s ∈ routes) (hdefault : s.isDefaultTun = false)
    (hadd : (be.add s).error = none) :
    named (addRoutes be routes escapeFailed e errors).1.kernel s := by
  induction routes generalizing e escapeFailed errors with
  | nil => cases hs
  | cons s' routes ih =>
    unfold addRoutes
    rcases mem_cons.1 hs with rfl | hs
    · rw [hdefault]
      refine named_mono (fun k hk => mem_addRoutes_of_mem hk) (named_addRoute ?_)
      unfold addRoute
      simp [hadd]
    · split_ifs
      · exact ih hs
      · exact ih hs

end

/-! ### One reconciliation -/

section

variable {look : Lookup} {d : DesiredRoutes} {tunIndex : Nat} {host : Ipv4Addr}

/-- The engine after the deletions of one call, with the failures. -/
def RouteEngine.pruned (e : RouteEngine) (be : Backend) (d : DesiredRoutes) (look : Lookup)
    (tunIndex : Nat) : RouteEngine × List RouteError :=
  deleteRoutes be (e.deleted d look tunIndex)
    { e with owned := adopt (d.want look tunIndex) e.kernel e.owned, lastDesired := some d } []

theorem reconcile_eq_addRoutes (htun : d.tunIndex look = some tunIndex) (hlist : be.list = none)
    (hrelist : be.relist = none) : (e.reconcile be look d).1 =
      (addRoutes be (toAdd (d.want look tunIndex) (e.pruned be d look tunIndex).1.kernel) false
        (e.pruned be d look tunIndex).1 (e.pruned be d look tunIndex).2).1 := by
  unfold reconcile reconcileNative
  rw [htun, hlist, hrelist]
  rfl

theorem mem_pruned : k ∈ (e.pruned be d look tunIndex).1.kernel ↔ k ∈ e.kernel ∧
    ∀ s ∈ e.deleted d look tunIndex, (be.delete s).applied → k.identity ≠ s.identity :=
  mem_deleteRoutes_iff

theorem mem_pruned_of_named (hk : k ∈ e.kernel) (hwant : named (d.want look tunIndex) k) :
    k ∈ (e.pruned be d look tunIndex).1.kernel := by
  refine mem_pruned.2 ⟨hk, fun s hs _ hid => ?_⟩
  have hdeleted : named (e.deleted d look tunIndex) k := named_iff.2 ⟨s, hs, hid.symm⟩
  unfold deleted at hdeleted
  rw [not_named_toDelete hwant] at hdeleted
  cases hdeleted

theorem escape_mem_want (hexclude : d.exitExclude) (hallow : d.allowDefault look)
    (hhost : host ∈ d.underlayHosts) : ∃ gw, ∃ u : Nat × String, d.gatewayOf look = some gw ∧
      ⟨hostNet host, some gw, u.1, u.2⟩ ∈ d.want look tunIndex := by
  have hmode := hexclude
  unfold exitExclude at hmode
  rw [and_eq_true, beq_iff_eq] at hmode
  have hknown := hallow
  unfold allowDefault at hknown
  rw [if_pos hexclude, not_eq_true', or_eq_false_iff, isNone_eq_false_iff,
    isNone_eq_false_iff, isSome_iff_exists, isSome_iff_exists] at hknown
  obtain ⟨⟨gw, hgw⟩, u, hu⟩ := hknown
  refine ⟨gw, u, hgw, ?_⟩
  unfold want toSpecs
  rw [mem_foldl_insert, mem_filterMap]
  refine .inl ⟨.viaGw (hostNet host) gw, ?_, ?_⟩
  · unfold kinds
    rw [hmode.2, hmode.1, hgw]
    refine mem_append_right _ (mem_append_right _ (mem_append_right _ ?_))
    exact mem_map_of_mem hhost
  · rw [hu]
    rfl

variable {s : RouteSpec}

theorem DefaultTun.congr (h : DefaultTun tunIndex k)
    (hid : k.identity = s.identity) : DefaultTun tunIndex s := by
  obtain ⟨hdest, hgateway, hindex⟩ := eq_of_identity hid
  refine ⟨?_, hindex ▸ h.2⟩
  unfold isDefaultTun
  rw [← hdest, ← hgateway]
  exact h.1

theorem not_defaultTun_pruned (hwant : ∀ w ∈ d.want look tunIndex, w.isDefaultTun = false)
    (hdelete : ∀ s ∈ e.kernel ++ e.owned, DefaultTun tunIndex s → (be.delete s).applied)
    (hk : k ∈ (e.pruned be d look tunIndex).1.kernel) : ¬ DefaultTun tunIndex k := by
  intro hdefault
  obtain ⟨hmem, hkept⟩ := mem_pruned.1 hk
  have hgateway : k.gateway = none := by
    have h := hdefault.1
    unfold isDefaultTun at h
    rw [and_eq_true, isNone_iff_eq_none] at h
    exact h.1
  have hnot : named (d.want look tunIndex) k = false := by
    rw [← not_eq_true, named_iff]
    rintro ⟨w, hw, hid⟩
    have hwdefault := (hdefault.congr hid.symm).1
    rw [hwant w hw] at hwdefault
    cases hwdefault
  have hway := inTheWay_of_concerned hnot (.inr ⟨hdefault.2, hgateway⟩)
  obtain ⟨s, hs, hid⟩ := named_iff.1 (named_toDelete_iff.2 (.inr ⟨k, hmem, rfl, hway⟩))
  -- What is deleted in its name was in the table or owned.
  have hs' : s ∈ e.kernel ++ e.owned := by
    rcases mem_toDelete hs with ⟨hs, hnot⟩ | ⟨hs, _⟩
    · rcases (mem_adopt.1 hs).1 with ho | hw
      · exact mem_append_right _ ho
      · rw [named_of_mem hw] at hnot
        cases hnot
    · exact mem_append_left _ hs
  exact hkept s hs (hdelete s hs' (hdefault.congr hid.symm)) hid.symm

theorem exists_route_of_named {kernel : List RouteSpec} (hexclude : d.exitExclude)
    (hallow : d.allowDefault look)
    (hescape : ∀ s ∈ d.want look tunIndex, s.isHostEscape → named kernel s)
    (hhost : host ∈ d.underlayHosts) : ∃ gw, d.gatewayOf look = some gw ∧
      ∃ k ∈ kernel, k.dest = hostNet host ∧ k.gateway = some gw := by
  obtain ⟨gw, u, hgw, hwant⟩ := escape_mem_want hexclude hallow hhost
  obtain ⟨k, hk, hid⟩ := named_iff.1 (hescape _ hwant rfl)
  exact ⟨gw, hgw, k, hk, (eq_of_identity hid).1, (eq_of_identity hid).2.1⟩

variable (htun : d.tunIndex look = some tunIndex) (hlist : be.list = none)
  (hrelist : be.relist = none)

include htun hlist hrelist

theorem named_reconcile_or (hs : s ∈ d.want look tunIndex) :
    named (e.reconcile be look d).1.kernel s ∨
      (named e.kernel s = false ∧
        s ∈ toAdd (d.want look tunIndex) (e.pruned be d look tunIndex).1.kernel) := by
  rw [reconcile_eq_addRoutes htun hlist hrelist]
  cases hnamed : named e.kernel s with
  | true =>
    obtain ⟨k, hk, hid⟩ := named_iff.1 hnamed
    have hwant : named (d.want look tunIndex) k := named_iff.2 ⟨s, hs, hid.symm⟩
    exact .inl (named_iff.2 ⟨k, mem_addRoutes_of_mem (mem_pruned_of_named hk hwant), hid⟩)
  | false =>
    refine .inr ⟨rfl, mem_toAdd_iff.2 ⟨hs, ?_⟩⟩
    rw [← not_eq_true] at hnamed ⊢
    exact fun h => hnamed (named_mono (fun k hk => (mem_pruned.1 hk).1) h)

theorem named_escape_of_fresh (hfresh : ∀ k ∈ e.kernel, ¬ DefaultTun tunIndex k)
    (hk : k ∈ (e.reconcile be look d).1.kernel) (hdefault : DefaultTun tunIndex k) :
    ∀ s ∈ d.want look tunIndex, s.isHostEscape →
      named (e.reconcile be look d).1.kernel s := by
  intro s hs hescape
  rcases named_reconcile_or htun hlist hrelist hs with h | ⟨-, hadd⟩
  · exact h
  · rw [reconcile_eq_addRoutes htun hlist hrelist] at hk ⊢
    have hnew : k ∉ (e.pruned be d look tunIndex).1.kernel :=
      fun h => hfresh k (mem_pruned.1 h).1 hdefault
    exact (hostEscape_of_default (pairwise_insertionSort _ _) hdefault.1 hnew hk).2 s hadd hescape

theorem named_escape_of_added
    (hadded : ∀ s ∈ d.want look tunIndex, s.isHostEscape → named e.kernel s = false →
      (be.add s).error.isNone) : ∀ s ∈ d.want look tunIndex, s.isHostEscape →
      named (e.reconcile be look d).1.kernel s := by
  intro s hs hescape
  rcases named_reconcile_or htun hlist hrelist hs with h | ⟨hmissing, hadd⟩
  · exact h
  · rw [reconcile_eq_addRoutes htun hlist hrelist]
    refine named_addRoutes hadd ?_ (isNone_iff_eq_none.1 (hadded s hs hescape hmissing))
    rw [← not_eq_true]
    intro hdefault
    have := addRank_of_isDefaultTun hdefault
    have := addRank_of_isHostEscape hescape
    omega

theorem not_defaultTun_of_removed (hwant : ∀ w ∈ d.want look tunIndex, w.isDefaultTun = false)
    (hdelete : ∀ s ∈ e.kernel ++ e.owned, DefaultTun tunIndex s → (be.delete s).applied)
    (hk : k ∈ (e.reconcile be look d).1.kernel) : ¬ DefaultTun tunIndex k := by
  rw [reconcile_eq_addRoutes htun hlist hrelist] at hk
  rcases mem_of_mem_addRoutes hk with hk | hk
  · exact not_defaultTun_pruned hwant hdelete hk
  · intro hdefault
    have hnot := hwant k (mem_toAdd_iff.1 hk).1
    rw [hdefault.1] at hnot
    cases hnot

/-- A guarded reconciliation leaves no default route over the TUN without the escape routes. -/
theorem Guarded.loopFree (h : Guarded e be look d tunIndex) :
    LoopFree d look (e.reconcile be look d).1.kernel := by
  rintro tunIndex' htun' ⟨k, hk, hdefault⟩ host hhost
  obtain rfl := some.inj (htun.symm.trans htun')
  cases h with
  | noHosts hnil =>
    rw [hnil] at hhost
    cases hhost
  | fresh hexclude hallow hfresh =>
    have hescape := named_escape_of_fresh htun hlist hrelist hfresh hk hdefault
    exact exists_route_of_named hexclude hallow hescape hhost
  | added hexclude hallow hadded =>
    have hescape := named_escape_of_added htun hlist hrelist hadded
    exact exists_route_of_named hexclude hallow hescape hhost
  | removed hwant hdelete =>
    exact absurd hdefault (not_defaultTun_of_removed htun hlist hrelist hwant hdelete hk)

end

/-! ### Runs -/

theorem step_of_reconciles {i : RouteEvent} {look : Lookup} {d : DesiredRoutes}
    (h : i.reconciles e = some (be, look, d)) : e.step i = e.reconcile be look d := by
  cases i with
  | reconcile =>
    cases h
    rfl
  | reconcileLast =>
    obtain ⟨_, hlast, heq⟩ := Option.map_eq_some_iff.1 h
    cases heq
    rw [RouteEngine.step, reconcileLast, hlast]
  | clear => cases h

/-- Exit routing does not loop: in every run of the engine whose reconciliations are guarded,
whenever the last step reconciles routes that want an exit and the table has a default route over
the TUN, it has a route through the gateway for every host of the underlay. -/
theorem exit_loopFree {kernel : List RouteSpec} {i : RouteEvent} {reply : Except RouteError Unit}
    {h : List (RouteEvent × Except RouteError Unit)} {e e₀ : RouteEngine} {be : Backend}
    {look : Lookup} {d : DesiredRoutes}
    (hbefore : Run RouteEngine.step (fun _ e i => i.Guarded e) (withBackend kernel) h e₀)
    (hrun : Run RouteEngine.step (fun _ e i => i.Guarded e) (withBackend kernel)
      ((i, reply) :: h) e) (hi : i.reconciles e₀ = some (be, look, d)) (hexit : d.wantsExit) :
    LoopFree d look e.kernel := by
  cases hrun with
  | call _ hrun hok =>
    obtain rfl := hbefore.unique hrun
    obtain ⟨hlist, hrelist, hguarded⟩ := hok be look d hi
    rw [step_of_reconciles hi]
    exact fun tunIndex htun =>
      (hguarded hexit tunIndex htun).loopFree htun hlist hrelist tunIndex htun

namespace Demo

def hostA : Ipv4Addr := Ipv4Addr.new 1 2 3 4

def hostB : Ipv4Addr := Ipv4Addr.new 5 6 7 8

/-- An exit with one underlay host, and then with a second one. -/
def exitTwice (be : Backend) : List RouteEvent :=
  [.reconcile .exact noLookup (exit [hostA]), .reconcile be noLookup (exit [hostA, hostB])]

/-- The engine after both calls. -/
def afterExitTwice (be : Backend) : RouteEngine :=
  (exec RouteEngine.step [] (withBackend [viaEth defaultNet]) (exitTwice be)).2

theorem guarded_exit {e : RouteEngine} {i : RouteEvent} {hosts : List Ipv4Addr}
    (hi : i.reconciles e = some (.exact, noLookup, exit hosts)) : i.Guarded e := by
  intro be look d h
  cases hi.symm.trans h
  refine ⟨rfl, rfl, ?_⟩
  rintro - tunIndex -
  exact .added rfl rfl fun _ _ _ _ => rfl

theorem meets_exitTwice : Meets step (fun _ e i => i.Guarded e) []
    (withBackend [viaEth defaultNet]) (exitTwice .exact) :=
  ⟨guarded_exit rfl, guarded_exit rfl, trivial⟩

/-- Both escape routes accompany the default route when all additions succeed, also after the routes
are reconciled once more. -/
theorem exit_loopFree_twice :
    let e := ((afterExitTwice .exact).step (.reconcileLast .exact noLookup)).1
    viaTun defaultNet ∈ e.kernel ∧ LoopFree (exit [hostA, hostB]) noLookup e.kernel :=
  ⟨by decide, exit_loopFree (run_exec meets_exitTwice)
    (.call _ (run_exec meets_exitTwice) (guarded_exit rfl)) rfl rfl⟩

/-- The backend refuses the escape route to the second host. -/
def refuseB : Backend :=
  { Backend.exact with
    add := fun s =>
      if s.dest = hostNet hostB then .failed (.native "add" "5.6.7.8/32" "no buffer space") false
      else .done }

/-- The default route of the first call stays, although the escape route to the second host could
not be added. -/
theorem default_outlives_escape :
    ¬ LoopFree (exit [hostA, hostB]) noLookup (afterExitTwice refuseB).kernel := by
  have hdefault : viaTun defaultNet ∈ (afterExitTwice refuseB).kernel := by decide
  have hmissing : ∀ k ∈ (afterExitTwice refuseB).kernel, k.dest ≠ hostNet hostB := by
    decide
  intro h
  obtain ⟨gw, -, k, hk, hdest, -⟩ := h 9 rfl ⟨_, hdefault, rfl, rfl⟩ hostB (by decide)
  exact hmissing k hk hdest

end Demo

end Tunnet.SystemRoutes
