import Tunnet.Packet.Spec.Conntrack

/-!
# Tracking flows instead of keys

What a connection tracker is for, without its keys: it knows the state of each flow, and a packet of
a flow that has not expired passes (`Flows.track`).

A tracker with a table files a flow under the key of the packet that opened it and looks under the
keys of both directions. `Keying` is what its keys must satisfy for this to be right: two packets
belong to one flow exactly when the key of one is among the two keys of the other. Then the table
stays `Tidy`, no packet ever finds two entries, and the tracker refines the one on flows
(`Refines.track`), whenever expired entries are collected (`Refines.retain`).
-/

namespace Tunnet.Conntrack

open Function Option
open Policy (Protocol Direction)

/-- The flow has not expired. -/
def FlowState.live (now : Instant) (st : FlowState) : Bool := !isExpired st now

theorem FlowState.live_of_le {st : FlowState} {now later : Instant} (hle : now ≤ later)
    (h : st.live later) : st.live now := by
  unfold live isExpired at *
  rw [Bool.not_eq_true', decide_eq_false_iff_not, not_lt] at h ⊢
  exact (Nat.sub_le_sub_right hle st.lastSeen).trans h

theorem FlowState.live_of_lastSeen {st : FlowState} {now : Instant} (h : st.lastSeen = now) :
    st.live now := by
  unfold live isExpired
  simp [h]

theorem filter_live_of_le {now later : Instant} (hle : now ≤ later) (o : Option FlowState) :
    (o.filter (·.live now)).filter (·.live later) = o.filter (·.live later) := by
  cases o with
  | none => rfl
  | some st =>
    cases hlater : st.live later with
    | true => simp [Option.filter, FlowState.live_of_le hle hlater]
    | false => cases hnow : st.live now <;> simp [Option.filter, hlater, hnow]

/-! ### The tracker on flows -/

section Flows

variable {F : Type} [DecidableEq F] (now : Instant) (direction : Direction) (proto : Protocol)
  (flags : UInt8) (base : Bool)

/-- One packet of the flow `φ`: a packet of a live flow passes and refreshes it; for another one
the rules decide, and what they allow opens the flow. -/
def Flows.track (φ : F) (flows : F → Option FlowState) : (F → Option FlowState) × Bool :=
  match (flows φ).filter (·.live now) with
  | some st => (Function.update flows φ (some (st.advance now direction flags)), true)
  | none =>
    let opened := if base then (openingPhase proto flags).map (⟨·, now⟩) else none
    (Function.update flows φ opened, base)

end Flows

/-! ### Tables with keys -/

/-- How a tracker makes the keys of packets, and the flows they stand for. -/
structure Keying (P F : Type) where
  fwd : P → FlowKey
  rev : P → FlowKey
  flow : P → F
  flow_eq_iff : ∀ p q, flow p = flow q ↔ fwd q = fwd p ∨ fwd q = rev p

variable {P F : Type} (K : Keying P F)

/-- What a packet finds in the table. -/
def Keying.entry (p : P) (t : Table) : Option FlowState :=
  (t.lookup (K.fwd p)).or (t.lookup (K.rev p))

/-- Every key is some packet's own, and no packet finds two entries. -/
structure Tidy (t : Table) : Prop where
  own : ∀ key st, t.lookup key = some st → ∃ p, K.fwd p = key
  unique : ∀ p st st', t.lookup (K.fwd p) = some st → t.lookup (K.rev p) = some st' →
    K.fwd p = K.rev p

variable {K} {t t' : Table} {p q r : P} {key : FlowKey} {st : FlowState}

theorem Keying.entry_eq_none : K.entry p t = none ↔
    t.lookup (K.fwd p) = none ∧ t.lookup (K.rev p) = none := by
  rw [entry, or_eq_none_iff]

theorem Tidy.empty : Tidy K ∅ where
  own key st h := by
    cases h
  unique p st st' h := by
    cases h

theorem Tidy.of_sub (h : Tidy K t)
    (hsub : ∀ key st, t'.lookup key = some st → ∃ st', t.lookup key = some st') : Tidy K t' where
  own key st hkey := by
    obtain ⟨st', hold⟩ := hsub key st hkey
    exact h.own key st' hold
  unique p st st' hfwd hrev := by
    obtain ⟨_, hfwd⟩ := hsub _ st hfwd
    obtain ⟨_, hrev⟩ := hsub _ st' hrev
    exact h.unique p _ _ hfwd hrev

theorem Tidy.insert (h : Tidy K t) (hnone : K.entry p t = none) :
    Tidy K (t.insert (K.fwd p) st) := by
  obtain ⟨hfwd, hrev⟩ := Keying.entry_eq_none.1 hnone
  -- no entry of the table belongs to the flow of `p`
  have hother {r : P} {st' : FlowState} (hr : t.lookup (K.fwd r) = some st') :
      K.flow p ≠ K.flow r := by
    intro hflow
    rcases (K.flow_eq_iff p r).1 hflow with heq | heq
    · rw [heq, hfwd] at hr
      cases hr
    · rw [heq, hrev] at hr
      cases hr
  constructor
  · intro key st' hkey
    rw [Map.lookup_insert_eq] at hkey
    split_ifs at hkey with hk
    · exact ⟨p, hk.symm⟩
    · exact h.own key st' hkey
  · intro r st₁ st₂ h₁ h₂
    rw [Map.lookup_insert_eq] at h₁ h₂
    split_ifs at h₁ h₂ with hk₁ hk₂ hk₂
    · rw [hk₁, hk₂]
    · obtain ⟨s, hs⟩ := h.own _ _ h₂
      rw [← hs] at h₂
      have hrs : K.flow r = K.flow s := (K.flow_eq_iff r s).2 (.inr hs)
      have hpr : K.flow p = K.flow r := (K.flow_eq_iff p r).2 (.inl hk₁)
      exact absurd (hpr.trans hrs) (hother h₂)
    · have hpr : K.flow r = K.flow p := (K.flow_eq_iff r p).2 (.inr hk₂.symm)
      exact absurd hpr.symm (hother h₁)
    · exact h.unique r st₁ st₂ h₁ h₂

/-! ### What a packet finds after a change -/

theorem Keying.entry_of_ne (hne : K.flow p ≠ K.flow r)
    (hsame : ∀ key, key ≠ K.fwd r → t'.lookup key = t.lookup key) : K.entry p t' = K.entry p t := by
  have hfwd : K.fwd p ≠ K.fwd r := fun h => hne ((K.flow_eq_iff r p).2 (.inl h)).symm
  have hrev : K.rev p ≠ K.fwd r := fun h => hne ((K.flow_eq_iff p r).2 (.inr h.symm))
  rw [entry, entry, hsame _ hfwd, hsame _ hrev]

theorem Tidy.entry_eq (h : Tidy K t) (hflow : K.flow p = K.flow r)
    (hr : t.lookup (K.fwd r) = some st) : K.entry p t = some st := by
  unfold Keying.entry
  rcases (K.flow_eq_iff p r).1 hflow with heq | heq
  · rw [← heq, hr, some_or]
  · cases hp : t.lookup (K.fwd p) with
    | none => rw [none_or, ← heq, hr]
    | some st' =>
      rw [heq] at hr
      rw [h.unique p st' st hp hr, hr] at hp
      rw [some_or, hp]

theorem Tidy.entry_congr (h : Tidy K t) (hflow : K.flow p = K.flow q) :
    K.entry p t = K.entry q t := by
  have hfound {p q : P} {st : FlowState} (hflow : K.flow p = K.flow q)
      (hst : K.entry p t = some st) : K.entry q t = some st := by
    rcases or_eq_some_iff.1 hst with hfwd | ⟨-, hrev⟩
    · exact h.entry_eq hflow.symm hfwd
    · obtain ⟨r, hr⟩ := h.own _ st hrev
      have hpr : K.flow p = K.flow r := (K.flow_eq_iff p r).2 (.inr hr)
      exact h.entry_eq (hflow.symm.trans hpr) (by rwa [hr])
  cases hp : K.entry p t with
  | some => exact (hfound hflow hp).symm
  | none =>
    cases hq : K.entry q t with
    | none => rfl
    | some => exact absurd (hp.symm.trans (hfound hflow.symm hq)) (by simp)

theorem Tidy.entry_insert [DecidableEq F] (h : Tidy K (t.insert (K.fwd r) st)) :
    K.entry p (t.insert (K.fwd r) st) = if K.flow p = K.flow r then some st else K.entry p t := by
  split_ifs with hflow
  · exact h.entry_eq hflow (Finmap.lookup_insert t)
  · exact Keying.entry_of_ne hflow fun key hkey => Finmap.lookup_insert_of_ne t hkey

theorem Tidy.entry_erase [DecidableEq F] (h : Tidy K t) (hr : t.lookup (K.fwd r) = some st) :
    K.entry p (t.erase (K.fwd r)) = if K.flow p = K.flow r then none else K.entry p t := by
  split_ifs with hflow
  · -- an entry left would be a second one for the flow
    rw [Keying.entry_eq_none, Map.lookup_erase_eq, Map.lookup_erase_eq]
    rcases (K.flow_eq_iff p r).1 hflow with heq | heq
    · refine ⟨if_pos heq.symm, ?_⟩
      split_ifs with hrev
      · rfl
      · rw [heq] at hr
        by_contra hne
        obtain ⟨st', hst'⟩ := ne_none_iff_exists'.1 hne
        exact hrev ((h.unique p st st' hr hst').symm.trans heq.symm)
    · refine ⟨?_, if_pos heq.symm⟩
      split_ifs with hfwd
      · rfl
      · rw [heq] at hr
        by_contra hne
        obtain ⟨st', hst'⟩ := ne_none_iff_exists'.1 hne
        exact hfwd ((h.unique p st' st hst' hr).trans heq.symm)
  · exact Keying.entry_of_ne hflow fun key hkey => Finmap.lookup_erase_ne hkey

theorem Tidy.entry_retain (h : Tidy K t) (keep : FlowState → Bool) :
    K.entry p (t.retain fun _ st => keep st) = (K.entry p t).filter keep := by
  unfold Keying.entry
  rw [Map.lookup_retain, Map.lookup_retain]
  cases hfwd : t.lookup (K.fwd p) with
  | none => rfl
  | some st =>
    cases hrev : t.lookup (K.rev p) with
    | none => rw [filter_none, or_none, or_none]
    | some st' =>
      have hsame := h.unique p st st' hfwd hrev
      rw [hsame, hrev] at hfwd
      cases hfwd
      cases hkeep : keep st <;> simp [Option.filter]

/-! ### Refinement -/

variable (K) in
/-- The table knows of the flows what `flows` says, but for expired ones. -/
structure Refines (t : Table) (flows : F → Option FlowState) (now : Instant) : Prop where
  tidy : Tidy K t
  entry : ∀ p, (K.entry p t).filter (·.live now) = (flows (K.flow p)).filter (·.live now)

variable {flows : F → Option FlowState} {now later : Instant}

theorem Refines.empty : Refines K ∅ (fun _ => none) now where
  tidy := .empty
  entry p := by
    have hnone : K.entry p ∅ = none := by
      rw [Keying.entry_eq_none]
      exact ⟨rfl, rfl⟩
    rw [hnone]

theorem Refines.mono (h : Refines K t flows now) (hle : now ≤ later) : Refines K t flows later where
  tidy := h.tidy
  entry p := by
    rw [← filter_live_of_le hle, h.entry, filter_live_of_le hle]

theorem Refines.retain (h : Refines K t flows now) (hle : now ≤ later) :
    Refines K (t.retain fun _ st => !isExpired st later) flows later where
  tidy := h.tidy.of_sub fun key st hlookup => by
    rw [Map.lookup_retain, filter_eq_some_iff] at hlookup
    exact ⟨st, hlookup.1⟩
  entry p := by
    rw [h.tidy.entry_retain, ← (h.mono hle).entry p]
    simp [FlowState.live]

theorem Tidy.trackedKey_eq_some (h : Tidy K t)
    (hkey : trackedKey (K.fwd p) (K.rev p) t = some key) :
    ∃ r st, K.fwd r = key ∧ K.flow p = K.flow r ∧ t.lookup key = some st ∧
      K.entry p t = some st := by
  obtain ⟨hside, hsome⟩ := lookup_trackedKey hkey
  obtain ⟨st, hst⟩ := isSome_iff_exists.1 hsome
  obtain ⟨r, hr⟩ := h.own key st hst
  have hflow : K.flow p = K.flow r := (K.flow_eq_iff p r).2 (by rwa [hr])
  exact ⟨r, st, hr, hflow, hst, h.entry_eq hflow (by rwa [hr])⟩

theorem entry_of_trackedKey_eq_none (hkey : trackedKey (K.fwd p) (K.rev p) t = none) :
    K.entry p t = none := by
  unfold trackedKey at hkey
  split_ifs at hkey with hfwd hrev
  rw [not_isSome_iff_eq_none] at hfwd hrev
  exact Keying.entry_eq_none.2 ⟨hfwd, hrev⟩

section Track

variable [DecidableEq F]

variable (h : Refines K t flows now)

include h

theorem Refines.insert (hflow : K.flow p = K.flow r) (htidy : Tidy K (t.insert (K.fwd r) st)) :
    Refines K (t.insert (K.fwd r) st) (update flows (K.flow p) (some st)) now where
  tidy := htidy
  entry q := by
    rw [htidy.entry_insert, update_apply, hflow]
    split_ifs
    · rfl
    · exact h.entry q

theorem Refines.erase (hflow : K.flow p = K.flow r) (hr : t.lookup (K.fwd r) = some st) :
    Refines K (t.erase (K.fwd r)) (update flows (K.flow p) none) now where
  tidy := h.tidy.of_sub fun key st' hlookup => by
    rw [Map.lookup_erase_eq] at hlookup
    split_ifs at hlookup
    exact ⟨st', hlookup⟩
  entry q := by
    rw [h.tidy.entry_erase hr, update_apply, hflow]
    split_ifs
    · rfl
    · exact h.entry q

theorem Refines.forget (hnone : K.entry p t = none) :
    Refines K t (update flows (K.flow p) none) now where
  tidy := h.tidy
  entry q := by
    rw [update_apply]
    split_ifs with hflow
    · have hp := h.entry p
      have hq := h.entry q
      rw [hflow, ← hp, hnone] at hq
      exact hq
    · exact h.entry q

theorem Refines.opening (hnone : K.entry p t = none) (proto : Protocol) (flags : UInt8) :
    Refines K (openOrRefresh now (K.fwd p) proto flags t)
      (update flows (K.flow p) ((openingPhase proto flags).map (⟨·, now⟩))) now := by
  unfold openOrRefresh
  rw [(Keying.entry_eq_none.1 hnone).1]
  cases openingPhase proto flags with
  | none => exact h.forget hnone
  | some => exact h.insert rfl (h.tidy.insert hnone)

theorem Refines.allows_live
    (hfound : (K.entry p t).filter (·.live now) = some st) (direction : Direction) (flags : UInt8) :
    let out := allows now direction (K.fwd p) (K.rev p) flags t
    out.2 ∧ Refines K out.1
      (update flows (K.flow p) (some (st.advance now direction flags))) now := by
  obtain ⟨hentry, hlive⟩ := filter_eq_some_iff.1 hfound
  unfold allows
  cases hkey : trackedKey (K.fwd p) (K.rev p) t with
  | none =>
    rw [entry_of_trackedKey_eq_none hkey] at hentry
    cases hentry
  | some key =>
    obtain ⟨r, st', rfl, hflow, hst, hentry'⟩ := h.tidy.trackedKey_eq_some hkey
    cases hentry.symm.trans hentry'
    have hexpired : isExpired st now = false := by simpa [FlowState.live] using hlive
    simp only [hst, hexpired, Bool.false_eq_true, if_false]
    refine ⟨trivial, h.insert hflow ?_⟩
    refine h.tidy.of_sub fun key st' hlookup => ?_
    rw [Map.lookup_insert_eq] at hlookup
    split_ifs at hlookup with hk
    · exact ⟨st, hk ▸ hst⟩
    · exact ⟨st', hlookup⟩

theorem Refines.allows_not_live
    (hfound : (K.entry p t).filter (·.live now) = none) (direction : Direction) (flags : UInt8) :
    let out := allows now direction (K.fwd p) (K.rev p) flags t
    out.2 = false ∧ K.entry p out.1 = none ∧
      Refines K out.1 (update flows (K.flow p) none) now := by
  unfold allows
  cases hkey : trackedKey (K.fwd p) (K.rev p) t with
  | none =>
    have hnone := entry_of_trackedKey_eq_none hkey
    exact ⟨rfl, hnone, h.forget hnone⟩
  | some =>
    obtain ⟨r, st, rfl, hflow, hst, hentry⟩ := h.tidy.trackedKey_eq_some hkey
    have hexpired : isExpired st now := by
      rw [hentry, filter_eq_none_iff] at hfound
      simpa [FlowState.live] using hfound st rfl
    simp only [hst, hexpired, if_true]
    refine ⟨trivial, ?_, h.erase hflow hst⟩
    rw [h.tidy.entry_erase hst, if_pos hflow]

/-- A tracker with a table refines the tracker on flows: it gives the same verdicts, and keeps
knowing the same flows. -/
theorem Refines.track (hle : now ≤ later) (p : P)
    (direction : Direction) (proto : Protocol) (flags : UInt8) (base : Bool) :
    let out := track later direction (some (K.fwd p, K.rev p)) proto flags base t
    let spec := Flows.track later direction proto flags base (K.flow p) flows
    out.2 = spec.2 ∧ Refines K out.1 spec.1 later := by
  replace h := h.mono hle
  unfold Conntrack.track Flows.track
  rw [← h.entry p]
  dsimp only
  cases hfound : (K.entry p t).filter (·.live later) with
  | some =>
    obtain ⟨hpass, href⟩ := h.allows_live hfound direction flags
    rw [if_pos hpass]
    exact ⟨rfl, href⟩
  | none =>
    obtain ⟨hpass, hnone, href⟩ := h.allows_not_live hfound direction flags
    rw [if_neg (by rw [hpass]; exact Bool.false_ne_true)]
    cases base with
    | true =>
      have hopened := href.opening hnone proto flags
      rw [update_idem] at hopened
      exact ⟨rfl, hopened⟩
    | false => exact ⟨rfl, href⟩

end Track

/-! ### What a packet does to a tidy table -/

theorem Tidy.refines (h : Tidy K t) (now : Instant) : ∃ flows, Refines K t flows now := by
  classical
  refine ⟨fun φ => if hφ : ∃ p, K.flow p = φ then K.entry hφ.choose t else none, h, fun p => ?_⟩
  have hp : ∃ q, K.flow q = K.flow p := ⟨p, rfl⟩
  rw [dif_pos hp, h.entry_congr hp.choose_spec]

variable (K) in
/-- A packet finds a live flow. -/
def Keying.live (p : P) (now : Instant) (t : Table) : Bool :=
  ((K.entry p t).filter (·.live now)).isSome

theorem Keying.live_of_le (hle : now ≤ later) (h : K.live p later t) : K.live p now t := by
  unfold live at *
  obtain ⟨st, hst⟩ := isSome_iff_exists.1 h
  obtain ⟨hentry, hlater⟩ := filter_eq_some_iff.1 hst
  rw [hentry]
  simp [FlowState.live_of_le hle hlater]

section

variable (p q now) (h : Tidy K t) (direction : Direction) (proto : Protocol) (flags : UInt8)
  (base : Bool)

include h

theorem Tidy.track :
    Tidy K (track now direction (some (K.fwd p, K.rev p)) proto flags base t).1 := by
  classical
  obtain ⟨flows, href⟩ := h.refines now
  exact (href.track le_rfl p direction proto flags base).2.tidy

theorem Tidy.track_snd :
    (Conntrack.track now direction (some (K.fwd p, K.rev p)) proto flags base t).2 =
      (K.live p now t || base) := by
  classical
  obtain ⟨flows, href⟩ := h.refines now
  rw [(href.track le_rfl p direction proto flags base).1, Keying.live, href.entry p]
  unfold Flows.track
  cases (flows (K.flow p)).filter (·.live now) <;> rfl

theorem Tidy.live_track_of_ne (hne : K.flow q ≠ K.flow p) :
    K.live q now (Conntrack.track now direction (some (K.fwd p, K.rev p)) proto flags base t).1 =
      K.live q now t := by
  classical
  obtain ⟨flows, href⟩ := h.refines now
  have hsame : (Flows.track now direction proto flags base (K.flow p) flows).1 (K.flow q) =
      flows (K.flow q) := by
    unfold Flows.track
    split <;> exact update_of_ne hne _ _
  rw [Keying.live, Keying.live, (href.track le_rfl p direction proto flags base).2.entry q, hsame,
    href.entry q]

theorem Tidy.live_track (hflow : K.flow q = K.flow p)
    (hpass : K.live p now t ∨ base ∧ (openingPhase proto flags).isSome) :
    K.live q now (Conntrack.track now direction (some (K.fwd p, K.rev p)) proto flags base t).1 =
      true := by
  classical
  obtain ⟨flows, href⟩ := h.refines now
  rw [Keying.live, (href.track le_rfl p direction proto flags base).2.entry q, hflow]
  rw [Keying.live, href.entry p] at hpass
  unfold Flows.track
  cases hfound : (flows (K.flow p)).filter (·.live now) with
  | some st =>
    dsimp only
    rw [update_self, filter_some, if_pos]
    · rfl
    · exact FlowState.live_of_lastSeen (lastSeen_advance st)
  | none =>
    rw [hfound] at hpass
    obtain ⟨hbase, hopens⟩ := hpass.resolve_left Bool.false_ne_true
    obtain ⟨phase, hphase⟩ := isSome_iff_exists.1 hopens
    dsimp only
    rw [update_self, if_pos hbase, hphase, map_some, filter_some, if_pos]
    · rfl
    · exact FlowState.live_of_lastSeen rfl

end

end Tunnet.Conntrack
