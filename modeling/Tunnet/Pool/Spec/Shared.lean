import Tunnet.Pool.Calls

/-!
# What the tasks of the pool can rely on

Whatever the other tasks and the environment do, the generation of the gate does not fall and
stands for one membership, the clock does not go back, a closed connection stays closed and a
channel that is settled stays settled. This is the order on `Shared`.

* `pool_monotone`: everything that happens in the pool moves up in this order.
* The `ends_*` lemmas: what a task knows after each of its reads.
-/

namespace Tunnet.Pool

open Function

/-- The sender has sent or was dropped. -/
def Chan.Settled : Chan → Prop
  | .unused | .opened => False
  | .sent _ | .dropped => True

structure Shared.Le (g g' : Shared) : Prop where
  generation : g.gateGeneration ≤ g'.gateGeneration
  allows : g.gateGeneration = g'.gateGeneration → ∀ p, g'.gateAllows p = g.gateAllows p
  now : g.now ≤ g'.now
  closed : ∀ c, g.closed c ≠ none → g'.closed c ≠ none
  used : ∀ tx, g.chans tx ≠ .unused → g'.chans tx ≠ .unused
  settled : ∀ tx, (g.chans tx).Settled → (g'.chans tx).Settled

instance : Preorder Shared where
  le := Shared.Le
  le_refl g := ⟨le_rfl, fun _ _ => rfl, le_rfl, fun _ h => h, fun _ h => h, fun _ h => h⟩
  le_trans g₁ g₂ g₃ h h' := by
    refine ⟨h.generation.trans h'.generation, fun heq p => ?_, h.now.trans h'.now,
      fun c hc => h'.closed c (h.closed c hc), fun tx htx => h'.used tx (h.used tx htx),
      fun tx htx => h'.settled tx (h.settled tx htx)⟩
    have hgen := h.generation
    have hgen' := h'.generation
    rw [h'.allows (by omega), h.allows (by omega)]

variable {g : Shared} {c : Call} {n : Env}

namespace Shared

variable {g' : Shared} {peer : EndpointId} {gen : Nat} {chan : Chan}

theorem le_of_gate_eq (hgate : g'.gate = g.gate) (hnow : g.now ≤ g'.now)
    (hclosed : ∀ c, g.closed c ≠ none → g'.closed c ≠ none)
    (hused : ∀ tx, g.chans tx ≠ .unused → g'.chans tx ≠ .unused)
    (hsettled : ∀ tx, (g.chans tx).Settled → (g'.chans tx).Settled) : g ≤ g' := by
  refine ⟨?_, fun _ p => ?_, hnow, hclosed, hused, hsettled⟩
  · unfold gateGeneration
    rw [hgate]
  · unfold gateAllows
    rw [hgate]

theorem le_close (g : Shared) (conn : ConnId) (reason : CloseReason) : g ≤ g.close conn reason := by
  unfold close
  split
  · refine le_of_gate_eq rfl le_rfl (fun c hc => ?_) (fun _ h => h) fun _ h => h
    dsimp only
    by_cases hconn : c = conn
    · rw [hconn, update_self]; nofun
    · rwa [update_of_ne hconn]
  · exact le_rfl

theorem le_update_chans (g : Shared) {tx : ChanId} (hused : chan ≠ .unused)
    (hsettled : (g.chans tx).Settled → chan.Settled) :
    g ≤ { g with chans := update g.chans tx chan } := by
  refine le_of_gate_eq rfl le_rfl (fun _ h => h) (fun tx' h => ?_) fun tx' h => ?_ <;> dsimp only
  · by_cases htx : tx' = tx
    · rw [htx, update_self]; exact hused
    · rwa [update_of_ne htx]
  · by_cases htx : tx' = tx
    · rw [htx] at h ⊢
      rw [update_self]
      exact hsettled h
    · rwa [update_of_ne htx]

theorem le_settle (g : Shared) (tx : ChanId) (h : chan.Settled) : g ≤ g.settle tx chan := by
  unfold settle
  split
  · refine le_update_chans g ?_ fun _ => h
    rintro rfl
    exact h
  · exact le_rfl

theorem le_apply (g : Shared) (w : Effect) : g ≤ apply g w := by
  cases w with
  | close => exact le_close ..
  | openChannel =>
    unfold apply
    dsimp only
    split
    · rename_i hunused
      refine le_update_chans g nofun fun h => ?_
      rw [hunused] at h
      exact h
    · exact le_rfl
  | send tx result | dropSender tx => exact le_settle g tx trivial
  | arm peer until' | know k | forgetExtra peer =>
    exact le_of_gate_eq rfl le_rfl (fun _ h => h) (fun _ h => h) fun _ h => h

theorem le_enter (h : enter g c = some g') : g ≤ g' := by
  unfold enter at h
  split at h
  any_goals first | exact (Option.some.inj h).le | cases h
  split_ifs at h
  cases h
  exact le_of_gate_eq rfl le_rfl (fun _ h => h) (fun _ h => h) fun _ h => h

theorem le_env (h : env g n = some g') : g ≤ g' := by
  unfold env at h
  split at h
  · split at h
    · cases h
    · rename_i old hgate
      split_ifs at h with hlt
      cases h
      have hgen : g.gateGeneration = old.generation := by
        unfold gateGeneration
        rw [hgate]
      refine ⟨hgen ▸ hlt.le, fun heq => ?_, le_rfl, fun _ h => h, fun _ h => h, fun _ h => h⟩
      exact absurd (hgen ▸ heq) hlt.ne
  · split_ifs at h with hle
    cases h
    exact le_of_gate_eq rfl hle (fun _ h => h) (fun _ h => h) fun _ h => h
  · cases h
    exact le_close ..
  · cases h
    exact le_of_gate_eq rfl le_rfl (fun _ h => h) (fun _ h => h) fun _ h => h

/-- The stamp `gen` is sound for the peer: if it is the current generation, the gate allows the
peer. -/
structure Valid (g : Shared) (peer : EndpointId) (gen : Nat) : Prop where
  le : gen ≤ g.gateGeneration
  allows : gen = g.gateGeneration → g.gateAllows peer

theorem Valid.mono (h : g.Valid peer gen) (hle : g ≤ g') : g'.Valid peer gen := by
  have hgen : g.gateGeneration ≤ g'.gateGeneration := hle.generation
  refine ⟨h.le.trans hgen, fun heq => ?_⟩
  have hle' := h.le
  rw [hle.allows (by omega)]
  exact h.allows (by omega)

theorem Valid.of_allows (hgen : gen ≤ g.gateGeneration) (hallows : g.gateAllows peer) :
    g.Valid peer gen :=
  ⟨hgen, fun _ => hallows⟩

end Shared

theorem gate_close (g : Shared) (conn : ConnId) (reason : CloseReason) :
    (g.close conn reason).gate = g.gate := by
  unfold Shared.close
  split <;> rfl

theorem gate_apply (g : Shared) (w : Effect) : (apply g w).gate = g.gate := by
  cases w with
  | close => exact gate_close ..
  | openChannel =>
    unfold apply
    dsimp only
    split <;> rfl
  | send tx result | dropSender tx =>
    unfold apply Shared.settle
    dsimp only
    split <;> rfl
  | arm | know | forgetExtra => rfl

theorem gate_effects (g : Shared) (effects : List Effect) :
    (effects.foldl apply g).gate = g.gate := by
  induction effects generalizing g with
  | nil => rfl
  | cons w effects ih => exact (ih _).trans (gate_apply g w)

theorem gate_enter {g g' : Shared} (h : enter g c = some g') : g'.gate = g.gate := by
  unfold enter at h
  split at h
  any_goals first | exact (Option.some.inj h) ▸ rfl | cases h
  split_ifs at h
  cases h
  rfl

theorem gate_env {g g' : Shared} (h : env g n = some g') :
    g'.gate = g.gate ∨ ∃ auth, n = .membership auth ∧ g'.gate = some auth := by
  unfold env at h
  split at h
  · split at h
    · cases h
    · split_ifs at h
      cases h
      exact .inr ⟨_, rfl, rfl⟩
  · split_ifs at h
    cases h
    exact .inl rfl
  · cases h
    exact .inl (gate_close ..)
  · cases h
    exact .inl rfl

theorem pool_monotone (own : EndpointId) : (pool own).Monotone where
  le_apply := Shared.le_apply
  le_enter := Shared.le_enter
  le_env := Shared.le_env

/-! ### What a task knows after a read -/

section Ends

theorem ends_read {α : Type} {q : Request} {f : Shared → Answer q} {k : Answer q → Code α}
    {post : α → Shared → Prop} (hserve : ∀ g e, serve g q e = some (f g)) :
    (Prog.request q >>= k).Ends serve post g ↔ ∀ g', g ≤ g' → (k (f g')).Ends serve post g' := by
  refine forall₂_congr fun g' _ => ⟨fun h => h .none _ (hserve g' .none), fun h e a ha => ?_⟩
  rw [hserve] at ha
  exact Option.some.inj ha ▸ h

section

variable {α : Type} {post : α → Shared → Prop}

theorem ends_gateAllows {peer : EndpointId} {k : Bool → Code α} :
    (gateAllows peer >>= k).Ends serve post g ↔
      ∀ g', g ≤ g' → (k (g'.gateAllows peer)).Ends serve post g' :=
  ends_read fun _ _ => rfl

theorem ends_gateGeneration {k : Nat → Code α} : (gateGeneration >>= k).Ends serve post g ↔
    ∀ g', g ≤ g' → (k g'.gateGeneration).Ends serve post g' :=
  ends_read fun _ _ => rfl

theorem ends_instantNow {k : Instant → Code α} : (instantNow >>= k).Ends serve post g ↔
    ∀ g', g ≤ g' → (k g'.now).Ends serve post g' :=
  ends_read fun _ _ => rfl

theorem ends_closeReason {conn : ConnId} {k : Option CloseReason → Code α} :
    (closeReason conn >>= k).Ends serve post g ↔
      ∀ g', g ≤ g' → (k (g'.closed conn)).Ends serve post g' :=
  ends_read fun _ _ => rfl

end

variable {post : Nat → Shared → Prop}

theorem ends_random (h : ∀ g' n, g ≤ g' → post n g') : random.Ends serve post g :=
  (Prog.ends_request).2 fun g' hle _ n _ => h g' n hle

theorem ends_channel {post : ChanId → Shared → Prop}
    (h : ∀ g' tx, g ≤ g' → g'.chans tx = .unused → post tx g') :
    (Prog.request Request.channel).Ends serve post g := by
  refine (Prog.ends_request).2 fun g' hle e tx hserve => ?_
  cases e with
  | channel =>
    rw [serve] at hserve
    split at hserve
    · rename_i hunused
      cases hserve
      exact h g' _ hle hunused
    · cases hserve
  | _ => cases hserve

theorem ends_liveConn {conn : Option ConnId} {post : Option ConnId → Shared → Prop}
    (hlive : ∀ g' c, g ≤ g' → conn = some c → g'.closed c = none → post (some c) g')
    (hdead : ∀ g', g ≤ g' → (∀ c, conn = some c → g'.closed c ≠ none) → post none g') :
    (liveConn conn).Ends serve post g := by
  unfold liveConn
  cases conn with
  | none => exact hdead g le_rfl nofun
  | some c =>
    rw [ends_closeReason]
    intro g' hle
    cases hclosed : g'.closed c with
    | none => exact hlive g' c hle rfl hclosed
    | some =>
      refine hdead g' hle fun c' hc' => ?_
      rw [← Option.some.inj hc', hclosed]
      nofun

end Ends

end Tunnet.Pool
