import Tunnet.Send.Manager

/-!
# Offers of different peers

An inbound offer is handled under the id its sender has chosen. What it does to the records and the
pending offers of others, and which offer the operator accepts.
-/

namespace Tunnet.Send

open Finmap Option SendManager

/-! ### Whose transfer it is -/

inductive Origin
  | peer (endpointHex : String)
  | outbound
deriving DecidableEq

/-- Who created a record. -/
def TransferRecord.origin (record : TransferRecord) : Origin :=
  match record.direction with
  | .inbound => .peer record.peerEndpointId
  | .outbound => .outbound

/-- The inbound offer a task handles, with its peer. -/
def Task.inbound : Task → Option (TransferOffer × String)
  | .offered offer peer | .consenting offer peer | .denying offer peer | .queueing offer peer
  | .accepting offer peer _ | .downloading offer peer _ | .exporting offer peer _
  | .completing offer peer _ _ | .failing offer peer _ _ => some (offer, peer)
  | .answering _ | .rejecting _ _ | .outbound _ | .awaitingDone _ => none

/-- The inbound offer a task handles, once it is recorded. -/
def Task.registered : Task → Option (TransferOffer × String)
  | .offered _ _ => none
  | task => task.inbound

/-- What was created by others than the peer is as it was. -/
structure Untouched (peer : String) (m m' : SendManager) : Prop where
  transfers : ∀ id record, m.transfers.lookup id = some record → record.origin ≠ .peer peer →
    m'.transfers.lookup id = some record
  pending : ∀ id p, m.pending.lookup id = some p → p.peer ≠ peer → m'.pending.lookup id = some p

/-- The offer that was registered first under an id. -/
def first (id : String) : List (SendEvent × Option Reply) → Option (TransferOffer × String)
  | [] => none
  | (_, some (.registered offer peer)) :: h =>
    (first id h).or (if offer.transferId = id then some (offer, peer) else none)
  | _ :: h => first id h

/-- A transfer is recorded only under an id that is not taken. -/
def SendManager.Fresh (m : SendManager) : SendEvent → Prop
  | .send _ offer _ _ => m.transfers.lookup offer.transferId = none
  | .run t _ =>
    match m.tasks t with
    | some (.offered offer _) => m.transfers.lookup offer.transferId = none
    | _ => True
  | _ => True

/-! ### What a piece does -/

/-- Access that records nothing new and, for an inbound offer, stays under the id of the offer; or
that records a transfer of our own under an id that is not taken. -/
inductive Quiet (m : SendManager) (own : Option (TransferOffer × String)) : Access → Prop
  | none : Quiet m own .none
  | upsert (record : TransferRecord) : own = none →
      m.transfers.lookup record.transferId = none → Quiet m own (.upsert record)
  | updateStatus (id : String) (status : TransferStatus) (error inbox : Option String) (now : Nat) :
      (∀ p, own = some p → id = p.1.transferId) →
      Quiet m own (.updateStatus id status error inbox now)
  | updateProgress (id : String) (bytes total : Nat) :
      (∀ p, own = some p → id = p.1.transferId) → Quiet m own (.updateProgress id bytes total)
  | insertPending (p : PendingOffer) : own = some (p.offer, p.peer) → Quiet m own (.insertPending p)
  | removePending (id : String) :
      (∀ p, own = some p → id = p.1.transferId) → Quiet m own (.removePending id)

/-- A piece that registers nothing and goes on with the same offer, if with any. -/
structure PieceEnd.Continues (m : SendManager) (own : Option (TransferOffer × String))
    (e : PieceEnd) : Prop where
  access : Quiet m own e.access
  next : ∀ task, e.next = some task → ∀ p, task.registered = some p → own = some p
  reply : ∀ offer peer, e.reply ≠ some (.registered offer peer)

variable {m : SendManager} {a : Answers} {offer : TransferOffer} {peer : String}
  {own : Option (TransferOffer × String)} {acc : Access}

section

variable {task next : Task} {reply : Option Reply} {p : TransferOffer × String}

theorem registered_consentTask (d : ConsentDecision) :
    (consentTask offer peer d).registered = some (offer, peer) := by
  cases d <;> rfl

theorem Caller.fails_ne (caller : Caller) (e : String) (offer : TransferOffer) (peer : String) :
    caller.fails e ≠ some (.registered offer peer) := by
  cases caller <;> nofun

theorem Caller.registered_returns (caller : Caller) (id : String) (task : Task)
    (h : caller.returns id = some task) : task.registered = none := by
  cases caller with
  | handler => cases h
  | operator =>
    cases h
    rfl

theorem id_eq_of_own (h : some (offer, peer) = some p) : offer.transferId = p.1.transferId := by
  cases h
  rfl

theorem continues_of_end
    (hacc : Quiet m own acc) (hreply : ∀ offer peer, reply ≠ some (.registered offer peer)) :
    PieceEnd.Continues m own ⟨acc, none, reply⟩ :=
  ⟨hacc, nofun, hreply⟩

theorem continues_of_next (hacc : Quiet m own acc) (hnext : next.registered = own)
    (hreply : ∀ offer peer, reply ≠ some (.registered offer peer)) :
    PieceEnd.Continues m own ⟨acc, some next, reply⟩ := by
  refine ⟨hacc, fun task htask p hp => ?_, hreply⟩
  cases htask
  exact hnext.symm.trans hp

/-- Pieces after the first: they register nothing, and what belongs to an inbound offer is done
under its id. -/
theorem continues_run (htask : ∀ offer peer, task ≠ .offered offer peer) :
    (task.run m a).Continues m task.inbound := by
  cases task with
  | offered offer peer => exact absurd rfl (htask offer peer)
  | consenting => exact continues_of_next .none (registered_consentTask _) nofun
  | denying => exact continues_of_end (.updateStatus _ _ _ _ _ fun _ => id_eq_of_own) nofun
  | queueing => exact continues_of_end (.insertPending _ rfl) nofun
  | accepting offer peer caller =>
    have hacc : Quiet m (some (offer, peer))
        (.updateStatus offer.transferId .transferring none none a.now) :=
      .updateStatus _ _ _ _ _ fun _ => id_eq_of_own
    unfold Task.run
    cases a.write with
    | error e => exact continues_of_end .none (caller.fails_ne e)
    | ok =>
      cases a.hash with
      | error => exact continues_of_end hacc (caller.fails_ne _)
      | ok => exact continues_of_next hacc rfl nofun
  | downloading =>
    unfold Task.run
    cases a.download with
    | progress => exact continues_of_next (.updateProgress _ _ _ fun _ => id_eq_of_own) rfl nofun
    | done | failed => exact continues_of_next .none rfl nofun
  | exporting offer peer caller =>
    unfold Task.run
    cases a.exported with
    | error => exact continues_of_end .none (caller.fails_ne _)
    | ok => exact continues_of_next .none rfl nofun
  | completing offer peer caller =>
    refine ⟨.updateStatus _ _ _ _ _ fun _ => id_eq_of_own, fun task h p hp => ?_, nofun⟩
    rw [caller.registered_returns _ task h] at hp
    cases hp
  | failing offer peer caller e =>
    exact continues_of_end (.updateStatus _ _ _ _ _ fun _ => id_eq_of_own) (caller.fails_ne e)
  | answering id =>
    unfold Task.run
    dsimp only
    cases m.transfers.lookup id with
    | none | some => exact continues_of_end .none nofun
  | rejecting =>
    unfold Task.run
    cases a.write with
    | error => exact continues_of_end .none nofun
    | ok => exact continues_of_end (.updateStatus _ _ _ _ _ nofun) nofun
  | outbound =>
    unfold Task.run
    cases a.decision with
    | error => exact continues_of_end (.updateStatus _ _ _ _ _ nofun) nofun
    | ok =>
      dsimp only
      split_ifs
      · exact continues_of_next (.updateStatus _ _ _ _ _ nofun) rfl nofun
      · exact continues_of_end (.updateStatus _ _ _ _ _ nofun) nofun
  | awaitingDone =>
    unfold Task.run
    cases a.done with
    | error => exact continues_of_end (.updateStatus _ _ _ _ _ nofun) nofun
    | ok =>
      dsimp only
      split_ifs
      · exact continues_of_end (.updateStatus _ _ _ _ _ nofun) nofun
      · exact continues_of_end (.updateStatus _ _ _ _ _ nofun) nofun

end

/-! ### What an access does to the maps -/

variable {id id' : String}

section

variable {record : TransferRecord}

@[simp]
theorem origin_withStatus (status : TransferStatus) (error inbox : Option String) (now : Nat) :
    (record.withStatus status error inbox now).origin = record.origin := by
  unfold TransferRecord.withStatus
  split_ifs <;> rfl

@[simp]
theorem origin_withProgress (bytes total : Nat) :
    (record.withProgress bytes total).origin = record.origin := by
  unfold TransferRecord.withProgress
  split_ifs <;> rfl

theorem lookup_modify_origin {transfers : Map String TransferRecord}
    {f : TransferRecord → TransferRecord} (hf : ∀ r, (f r).origin = r.origin)
    (h : transfers.lookup id = some record) :
    ∃ record', (transfers.modify id' f).lookup id = some record' ∧
      record'.origin = record.origin := by
  by_cases hid : id = id'
  · subst hid
    refine ⟨f record, ?_, hf record⟩
    rw [Map.lookup_modify_self, h, map_some]
  · refine ⟨record, ?_, rfl⟩
    rw [Map.lookup_modify_of_ne hid, h]

theorem Quiet.lookup_transfers (hacc : Quiet m own acc) (h : m.transfers.lookup id = some record) :
    ∃ record', (m.access acc).transfers.lookup id = some record' ∧
      record'.origin = record.origin := by
  cases hacc with
  | none | insertPending | removePending => exact ⟨record, h, rfl⟩
  | upsert record' _ hfresh =>
    have hid : id ≠ record'.transferId := by
      rintro rfl
      exact nomatch hfresh.symm.trans h
    exact ⟨record, (lookup_insert_of_ne _ hid).trans h, rfl⟩
  | updateStatus id' status error inbox now =>
    exact lookup_modify_origin (fun r => origin_withStatus status error inbox now) h
  | updateProgress id' bytes total =>
    exact lookup_modify_origin (fun r => origin_withProgress bytes total) h

variable {p : TransferOffer × String}

theorem Quiet.lookup_transfers_of_ne (hacc : Quiet m (some p) acc) (hid : id ≠ p.1.transferId) :
    (m.access acc).transfers.lookup id = m.transfers.lookup id := by
  cases hacc with
  | none | insertPending | removePending => rfl
  | upsert _ hown => cases hown
  | updateStatus _ _ _ _ _ hid' | updateProgress _ _ _ hid' =>
    exact Map.lookup_modify_of_ne (hid' p rfl ▸ hid) _ _

theorem Quiet.lookup_pending (hacc : Quiet m own acc) (id : String) :
    (m.access acc).pending.lookup id = m.pending.lookup id ∨
      (∀ p, own = some p → id = p.1.transferId) ∧ ∀ p, (m.access acc).pending.lookup id = some p →
        p.offer.transferId = id ∧ own = some (p.offer, p.peer) := by
  cases hacc with
  | none | upsert | updateStatus | updateProgress => exact .inl rfl
  | insertPending p hp =>
    by_cases hid : id = p.offer.transferId
    · subst hid hp
      refine .inr ⟨fun _ => id_eq_of_own, fun q hq => ?_⟩
      obtain rfl := some.inj ((lookup_insert _).symm.trans hq)
      exact ⟨rfl, rfl⟩
    · exact .inl (lookup_insert_of_ne _ hid)
  | removePending id' hown =>
    by_cases hid : id = id'
    · subst hid
      exact .inr ⟨hown, fun q hq => nomatch (lookup_erase _ _).symm.trans hq⟩
    · exact .inl (lookup_erase_ne hid)

end

/-! ### What holds in every state -/

/-- What was registered is recorded for its peer, and tasks and pending offers are about the offer
that was registered first under their id. -/
structure Kept (h : List (SendEvent × Option Reply)) (m : SendManager) : Prop where
  recorded : ∀ id p, first id h = some p →
    ∃ record, m.transfers.lookup id = some record ∧ record.origin = .peer p.2
  tasks : ∀ t task, m.tasks t = some task → ∀ p, task.registered = some p →
    first p.1.transferId h = some p
  pending : ∀ id p, m.pending.lookup id = some p →
    p.offer.transferId = id ∧ first id h = some (p.offer, p.peer)

variable {h h' : List (SendEvent × Option Reply)} {t : Nat}

section

variable {i : SendEvent} {e : PieceEnd} {reply : Option Reply}

theorem first_cons (hreply : ∀ offer peer, reply ≠ some (.registered offer peer)) :
    first id ((i, reply) :: h) = first id h := by
  cases reply with
  | none => rfl
  | some reply =>
    cases reply with
    | registered offer peer => exact absurd rfl (hreply offer peer)
    | running | accepted | ok | error => rfl

theorem first_registered (offer : TransferOffer) (peer : String) :
    first id ((i, some (.registered offer peer)) :: h) =
      (first id h).or (if offer.transferId = id then some (offer, peer) else none) :=
  rfl

theorem kept_tasks (hkept : Kept h m) (hfirst : ∀ id p, first id h = some p → first id h' = some p)
    (hnext : ∀ task, e.next = some task → ∀ p, task.registered = some p →
      first p.1.transferId h' = some p) :
    ∀ u task, (m.finish t e).1.tasks u = some task → ∀ p, task.registered = some p →
      first p.1.transferId h' = some p := by
  intro u task htask p hp
  unfold finish at htask
  dsimp only at htask
  by_cases hu : u = t
  · subst hu
    rw [Function.update_self] at htask
    exact hnext task htask p hp
  · rw [Function.update_of_ne hu] at htask
    exact hfirst _ _ (hkept.tasks u task htask p hp)

theorem Kept.continues (hkept : Kept h m) (he : e.Continues m own)
    (hown : ∀ p, own = some p → first p.1.transferId h = some p) :
    Kept ((i, e.reply) :: h) (m.finish t e).1 := by
  have hfirst (id) : first id ((i, e.reply) :: h) = first id h := first_cons he.reply
  refine ⟨fun id p hp => ?_, ?_, fun id p hp => ?_⟩
  · rw [hfirst] at hp
    obtain ⟨record, hlookup, horigin⟩ := hkept.recorded id p hp
    obtain ⟨record', hlookup', horigin'⟩ := he.access.lookup_transfers hlookup
    exact ⟨record', hlookup', horigin'.trans horigin⟩
  · refine kept_tasks hkept (fun id p hp => (hfirst id).trans hp) fun task htask p hp => ?_
    rw [hfirst]
    exact hown p (he.next task htask p hp)
  · rw [hfirst]
    rcases he.access.lookup_pending id with hsame | ⟨-, hnew⟩
    · exact hkept.pending id p (hsame.symm.trans hp)
    · obtain ⟨rfl, hq⟩ := hnew p hp
      exact ⟨rfl, hown _ hq⟩

theorem Kept.register (hkept : Kept h m) (hfresh : m.transfers.lookup offer.transferId = none) :
    Kept ((i, some (.registered offer peer)) :: h)
      (m.finish t ((Task.offered offer peer).run m a)).1 := by
  have hnone : first offer.transferId h = none := by
    by_contra hne
    obtain ⟨p, hp⟩ := ne_none_iff_exists'.1 hne
    obtain ⟨record, hlookup, -⟩ := hkept.recorded _ p hp
    exact nomatch hfresh.symm.trans hlookup
  have hmono (id) (p) (hp : first id h = some p) :
      first id ((i, some (.registered offer peer)) :: h) = some p := by
    rw [first_registered, hp, some_or]
  refine ⟨fun id p hp => ?_, ?_, fun id p hp => ?_⟩
  · rw [first_registered, or_eq_some_iff] at hp
    rcases hp with hp | ⟨-, hp⟩
    · obtain ⟨record, hlookup, horigin⟩ := hkept.recorded id p hp
      have hid : id ≠ offer.transferId := by
        rintro rfl
        exact nomatch hfresh.symm.trans hlookup
      exact ⟨record, (lookup_insert_of_ne _ hid).trans hlookup, horigin⟩
    · split_ifs at hp with hid
      cases hp
      subst hid
      exact ⟨inboundRecord offer peer a, lookup_insert _, rfl⟩
  · refine kept_tasks hkept hmono fun task htask p hp => ?_
    cases htask
    cases hp
    rw [first_registered, hnone, if_pos rfl, none_or]
  · obtain ⟨hid, hfirst⟩ := hkept.pending id p hp
    exact ⟨hid, hmono _ _ hfirst⟩

theorem step_cases (m : SendManager) (i : SendEvent) :
    (∃ t e, m.piece i = some (t, e) ∧ m.step i = m.finish t e) ∨
      ((m.step i).1.transfers = m.transfers ∧ (m.step i).1.pending = m.pending ∧
        (m.step i).1.tasks = m.tasks ∧ (m.step i).2 = none) := by
  unfold step
  split_ifs
  · exact .inr ⟨rfl, rfl, rfl, rfl⟩
  · split
    · exact .inr ⟨rfl, rfl, rfl, rfl⟩
    · exact .inr ⟨rfl, rfl, rfl, rfl⟩
    · rename_i hpiece
      exact .inl ⟨_, _, hpiece, rfl⟩

variable {task : Task}

theorem Kept.inbound_eq (hkept : Kept h m) (htask : m.tasks t = some task)
    (hne : ∀ offer peer, task ≠ .offered offer peer) (p : TransferOffer × String)
    (hp : task.inbound = some p) : first p.1.transferId h = some p := by
  refine hkept.tasks t task htask p ?_
  cases task with
  | offered offer peer => exact absurd rfl (hne offer peer)
  | _ => exact hp

theorem Kept.piece (hkept : Kept h m) (hok : m.Fresh i) (hpiece : m.piece i = some (t, e)) :
    Kept ((i, e.reply) :: h) (m.finish t e).1 := by
  -- An event that finds nothing to do answers with an error.
  have hnone : Quiet m none .none := .none
  have herror {text : String} :
      Kept ((i, some (.error text)) :: h) (m.finish t ⟨.none, none, some (.error text)⟩).1 := by
    refine hkept.continues (continues_of_end hnone ?_) nofun
    nofun
  cases i with
  | connect =>
    cases hpiece
    exact hkept.continues (continues_of_next hnone rfl nofun) nofun
  | send t' offer peer a =>
    have hacc : Quiet m none (.upsert (outboundRecord offer peer a)) := .upsert _ rfl hok
    unfold piece at hpiece
    dsimp only at hpiece
    split at hpiece <;> cases hpiece
    · exact hkept.continues (continues_of_end hacc nofun) nofun
    · exact hkept.continues (continues_of_next hacc rfl nofun) nofun
  | acceptPending t' id =>
    unfold piece at hpiece
    dsimp only at hpiece
    split at hpiece <;> cases hpiece
    · exact herror
    · rename_i p hp
      obtain ⟨rfl, hfirst⟩ := hkept.pending id p hp
      have hacc : Quiet m (some (p.offer, p.peer)) (.removePending p.offer.transferId) :=
        .removePending _ fun _ => id_eq_of_own
      refine hkept.continues (continues_of_next hacc rfl nofun) fun q hq => ?_
      cases hq
      exact hfirst
  | rejectPending t' id =>
    unfold piece at hpiece
    dsimp only at hpiece
    split at hpiece <;> cases hpiece
    · exact herror
    · have hacc : Quiet m none (.removePending id) := .removePending _ nofun
      exact hkept.continues (continues_of_next hacc rfl nofun) nofun
  | setConfig => cases hpiece
  | run =>
    obtain ⟨task, htask, hpiece⟩ := map_eq_some_iff.1 hpiece
    cases hpiece
    by_cases hoffered : ∃ offer peer, task = .offered offer peer
    · obtain ⟨offer, peer, rfl⟩ := hoffered
      have hfresh : m.transfers.lookup offer.transferId = none := by
        unfold Fresh at hok
        simpa only [htask] using hok
      exact hkept.register hfresh
    · have hne (offer) (peer) : task ≠ .offered offer peer := fun heq => hoffered ⟨offer, peer, heq⟩
      exact hkept.continues (continues_run hne) (hkept.inbound_eq htask hne)

/-- A step keeps everything, when what it records is recorded under an id that is not taken. -/
theorem Kept.step (hkept : Kept h m) (hok : m.Fresh i) :
    Kept ((i, (m.step i).2) :: h) (m.step i).1 := by
  rcases step_cases m i with ⟨t, e, hpiece, hstep⟩ | ⟨htransfers, hpending, htasks, hreply⟩
  · rw [hstep]
    exact hkept.piece hok hpiece
  · rw [hreply]
    refine ⟨fun id p => ?_, fun t task htask p => ?_, fun id p => ?_⟩
    · rw [htransfers]
      exact hkept.recorded id p
    · exact hkept.tasks t task (htasks ▸ htask) p
    · rw [hpending]
      exact hkept.pending id p

end

theorem kept_initial (consent : SendConsentMode) : Kept [] (initial consent) :=
  ⟨nofun, nofun, fun id _ hp => nomatch (lookup_empty id).symm.trans hp⟩

/-- What every run keeps. -/
theorem kept_run {consent : SendConsentMode}
    (hrun : Run step (fun _ m i => m.Fresh i) (initial consent) h m) : Kept h m :=
  hrun.invariant (kept_initial consent) fun _ _ _ hkept hok => hkept.step hok

/-! ### The result -/

theorem untouched_offered (hfresh : m.transfers.lookup offer.transferId = none) :
    Untouched peer m (m.finish t ((Task.offered offer peer).run m a)).1 := by
  refine ⟨fun id record hlookup _ => ?_, fun id p hp _ => hp⟩
  have hid : id ≠ offer.transferId := by
    rintro rfl
    exact nomatch hfresh.symm.trans hlookup
  exact (lookup_insert_of_ne _ hid).trans hlookup

theorem Kept.untouched (hkept : Kept h m) {e : PieceEnd} (he : e.Continues m (some (offer, peer)))
    (hfirst : first offer.transferId h = some (offer, peer)) :
    Untouched peer m (m.finish t e).1 := by
  refine ⟨fun id record hlookup horigin => ?_, fun id p hp hpeer => ?_⟩
  · have hid : id ≠ offer.transferId := by
      rintro rfl
      obtain ⟨record', hlookup', horigin'⟩ := hkept.recorded _ _ hfirst
      obtain rfl := some.inj (hlookup.symm.trans hlookup')
      exact horigin horigin'
    exact (he.access.lookup_transfers_of_ne hid).trans hlookup
  · rcases he.access.lookup_pending id with hsame | ⟨hid, -⟩
    · exact hsame.trans hp
    · have hp' := (hkept.pending _ p hp).2
      rw [hid _ rfl] at hp'
      have heq := some.inj (hp'.symm.trans hfirst)
      exact absurd (congrArg Prod.snd heq) hpeer

variable {task : Task} {p : TransferOffer × String}

theorem Kept.untouched_step (hkept : Kept h m) (hok : m.Fresh (.run t a))
    (htask : m.tasks t = some task) (hinbound : task.inbound = some (offer, peer)) :
    Untouched peer m (m.step (.run t a)).1 := by
  have hstep : m.step (.run t a) = m.finish t (task.run m a) := by
    unfold SendManager.step busy SendManager.piece
    simp [htask]
  rw [hstep]
  by_cases hoffered : ∃ offer' peer', task = .offered offer' peer'
  · obtain ⟨offer', peer', rfl⟩ := hoffered
    obtain ⟨rfl, rfl⟩ := Prod.mk.inj (some.inj hinbound)
    refine untouched_offered ?_
    unfold Fresh at hok
    simpa only [htask] using hok
  · have hne (offer') (peer') : task ≠ .offered offer' peer' :=
      fun heq => hoffered ⟨offer', peer', heq⟩
    have he := continues_run (m := m) (a := a) hne
    rw [hinbound] at he
    exact hkept.untouched he (hkept.inbound_eq htask hne _ hinbound)

theorem Kept.running (hkept : Kept h m)
    (hreply : (m.step (.acceptPending t id)).2 = some (.running p.1 p.2)) :
    first id h = some p := by
  rcases step_cases m (.acceptPending t id) with ⟨t', e, hpiece, hstep⟩ | ⟨-, -, -, hnone⟩
  · rw [hstep] at hreply
    unfold SendManager.piece at hpiece
    dsimp only at hpiece
    split at hpiece <;> cases hpiece
    · cases hreply
    · rename_i q hq
      obtain ⟨hoffer, hpeer⟩ := Reply.running.inj (some.inj hreply)
      rw [(hkept.pending id q hq).2, hoffer, hpeer]
  · exact nomatch hnone.symm.trans hreply

/-- Offers do not interfere: in a run that never records a transfer under an id that is taken,
a step of an inbound offer leaves every record and pending offer of other peers and of outbound
transfers as it is, and what the operator accepts under an id is the offer first registered under
it. -/
theorem offers_do_not_interfere {consent : SendConsentMode} {i : SendEvent}
    (hrun : Run SendManager.step (fun _ m i => m.Fresh i) (SendManager.initial consent) h m)
    (hok : m.Fresh i) : (∀ t a task offer peer, i = .run t a → m.tasks t = some task →
      task.inbound = some (offer, peer) → Untouched peer m (m.step i).1) ∧
    (∀ t id p, i = .acceptPending t id → (m.step i).2 = some (.running p.1 p.2) →
      first id h = some p) := by
  have hkept := kept_run hrun
  refine ⟨?_, ?_⟩
  · rintro t a task offer peer rfl htask hinbound
    exact hkept.untouched_step hok htask hinbound
  · rintro t id p rfl hreply
    exact hkept.running hreply

namespace Demo

/-- Everything succeeds. -/
def answers : Answers where
  now := 0
  hostname := none
  endpoint := .ok ()
  sharesTag := false
  write := .ok ()
  hash := .ok ()
  download := .done
  exported := .ok "/inbox/file"
  decision := .ok ⟨true, none⟩
  done := .ok ⟨"completed", none, none⟩

def offerOf (id fileName : String) : TransferOffer where
  transferId := id
  hash := "00"
  format := .blob
  fileName := fileName
  size := 1
  senderEndpointId := ""
  message := none
  isDirectory := false

/-- Task `t` handles an offer up to the queue. -/
def queue (t : Nat) (offer : TransferOffer) (peer : String) : List SendEvent :=
  [.connect t offer peer, .run t answers, .run t answers, .run t answers]

/-- A node on which offers wait for the operator. -/
def after (events : List SendEvent) : List (SendEvent × Option Reply) × SendManager :=
  exec SendManager.step [] (SendManager.initial .prompt) events

/-- The offers of two peers under different ids. -/
def apart : List SendEvent :=
  queue 0 (offerOf "1" "a") "aa" ++ queue 1 (offerOf "2" "b") "bb"

theorem offers_apart :
    ((after apart).2.step (.acceptPending 2 "1")).2 = some (.running (offerOf "1" "a") "aa") ∧
      first "1" (after apart).1 = some (offerOf "1" "a", "aa") := by
  have hrunning : ((after apart).2.step (.acceptPending 2 "1")).2 =
      some (.running (offerOf "1" "a") "aa") := by decide
  have hmeets : Meets step (fun _ m i => m.Fresh i) [] (initial .prompt) apart := by
    refine ⟨trivial, ?_, trivial, trivial, trivial, ?_, trivial, trivial, trivial⟩
    · exact lookup_empty _
    · have hfresh : (after (queue 0 (offerOf "1" "a") "aa")).2.transfers.lookup "2" = none := by
        decide
      exact hfresh
  have hok : (after apart).2.Fresh (.acceptPending 2 "1") := trivial
  exact ⟨hrunning, (offers_do_not_interfere (run_exec hmeets) hok).2 2 "1" (_, _) rfl hrunning⟩

/-- The second offer has the id of the first one, and its task is about to register it. -/
def colliding : List SendEvent :=
  queue 0 (offerOf "1" "a") "aa" ++ [.connect 1 (offerOf "1" "b") "bb"]

/-- The second peer's offer overwrites the record of the first peer's, and once it is queued too,
the operator, who accepts the id, runs it. -/
theorem offer_replaced : (after colliding).2.tasks 1 = some (.offered (offerOf "1" "b") "bb") ∧
    ¬ Untouched "bb" (after colliding).2 ((after colliding).2.step (.run 1 answers)).1 ∧
    first "1" (after (colliding ++ List.replicate 3 (.run 1 answers))).1 =
      some (offerOf "1" "a", "aa") ∧
    ((after (colliding ++ List.replicate 3 (.run 1 answers))).2.step (.acceptPending 2 "1")).2 =
      some (.running (offerOf "1" "b") "bb") := by
  refine ⟨rfl, fun h => ?_, by decide, by decide⟩
  have hbefore : (after colliding).2.transfers.lookup "1" =
      some (inboundRecord (offerOf "1" "a") "aa" answers) := by decide
  have hafter : ((after colliding).2.step (.run 1 answers)).1.transfers.lookup "1" =
      some (inboundRecord (offerOf "1" "b") "bb" answers) := by decide
  have hkept := h.transfers _ _ hbefore (by decide)
  have heq := some.inj (hafter.symm.trans hkept)
  exact absurd (congrArg TransferRecord.peerEndpointId heq) (by decide)

end Demo

end Tunnet.Send
