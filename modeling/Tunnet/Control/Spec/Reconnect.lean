import Tunnet.Control.WsHub
import Tunnet.Util.Run

/-!
# A device that reconnects stays subscribed

The end of an old session takes the entry of the endpoint away whoever has registered it, and so
does the second half of `disconnect`.

* `SparesOthers`: steps that take away no entry of a session that is not their own.
* `pushTo_lastRegistered`: after such steps, pushes reach the session that registered last.
-/

namespace Tunnet.Control

abbrev HubHistory := List (HubEvent × Option (Session × ServerMsg))

/-- The session that registered last for the endpoint. -/
def lastRegistered (endpointId : String) : HubHistory → Option Session
  | [] => none
  | (.register s, _) :: h =>
    if s.endpointId = endpointId then some s else lastRegistered endpointId h
  | _ :: h => lastRegistered endpointId h

variable (s : Session) (h : HubHistory)

/-- The session was told to enroll again. -/
def Disconnected : Prop := some s ∈ h.map fun x => x.2.map Prod.fst

instance (s : Session) : DecidablePred (Disconnected s) :=
  fun h => inferInstanceAs (Decidable (some s ∈ h.map _))

/-- The session was neither unregistered nor disconnected. -/
def Stays : Prop :=
  .unregister s ∉ h.map Prod.fst ∧ ¬ Disconnected s h

instance (s : Session) (h : HubHistory) : Decidable (Stays s h) :=
  inferInstanceAs (Decidable (_ ∧ _))

/-- The step takes away no entry of a session that is not its own: a session unregisters while no
other one is registered, and `disconnect` removes what it has pushed its message to. -/
def SparesOthers (hub : WsHub) : HubEvent → Prop
  | .unregister s => ∀ tx ∈ hub.subs.lookup s.endpointId, tx = s
  | .drop endpointId => ∀ tx ∈ hub.subs.lookup endpointId, Disconnected tx h
  | .register _ | .disconnect .. => True

/-- The hub has the last session of every endpoint that stays. -/
def Subscribed (hub : WsHub) : Prop :=
  ∀ endpointId s, lastRegistered endpointId h = some s → Stays s h →
    hub.subs.lookup endpointId = some s

variable {s h} {hub : WsHub}

theorem Stays.of_cons {x : HubEvent × Option (Session × ServerMsg)} (hs : Stays s (x :: h)) :
    Stays s h :=
  ⟨fun hmem => hs.1 (List.mem_cons_of_mem _ hmem), fun hmem => hs.2 (List.mem_cons_of_mem _ hmem)⟩

theorem Subscribed.step (hsub : Subscribed h hub) {e : HubEvent} (hok : SparesOthers h hub e) :
    Subscribed ((e, (hub.step e).2) :: h) (hub.step e).1 := by
  intro endpointId s hlast hs
  cases e with
  | register s' =>
    rw [WsHub.step, WsHub.register, Map.lookup_insert_eq]
    rw [lastRegistered] at hlast
    by_cases heq : s'.endpointId = endpointId
    · rw [if_pos heq] at hlast
      rw [if_pos heq.symm, hlast]
    · rw [if_neg heq] at hlast
      rw [if_neg (Ne.symm heq)]
      exact hsub endpointId s hlast hs.of_cons
  | unregister =>
    have hfind := hsub endpointId s hlast hs.of_cons
    rw [WsHub.step, WsHub.unregister, Map.lookup_erase_eq]
    rw [if_neg, hfind]
    rintro rfl
    obtain rfl := hok s hfind
    exact hs.1 List.mem_cons_self
  | disconnect => exact hsub endpointId s hlast hs.of_cons
  | drop =>
    have hfind := hsub endpointId s hlast hs.of_cons
    rw [WsHub.step, WsHub.drop]
    split_ifs
    · exact hfind
    · rw [Map.lookup_erase_eq, if_neg, hfind]
      rintro rfl
      exact hs.of_cons.2 (hok s hfind)

/-- A device that reconnects stays subscribed in every run whose steps spare the sessions of
others: pushes reach the session that registered last, if it was neither unregistered nor
disconnected. -/
theorem pushTo_lastRegistered (hrun : Run WsHub.step SparesOthers .new h hub) {endpointId : String}
    (hlast : lastRegistered endpointId h = some s) (hs : Stays s h) (msg : ServerMsg) :
    hub.pushTo endpointId msg = some (s, msg) := by
  have hsub : Subscribed h hub := by
    refine hrun.invariant ?_ fun h hub e hsub hok => hsub.step hok
    intro _ _ hlast
    cases hlast
  rw [WsHub.pushTo, hsub endpointId s hlast hs]
  rfl

namespace Demo

/-- The sessions of an agent, one after the other. -/
def session (id : ℕ) : Session := ⟨id, "aa", "org", ["net"]⟩

/-- The new session registers while the old one is still there, and the session of another agent
comes and goes. -/
def overlapping : List HubEvent :=
  [.register (session 0), .register (session 1), .register ⟨2, "bb", "org", ["net"]⟩,
    .unregister ⟨2, "bb", "org", ["net"]⟩]

theorem pushTo_lastRegistered_overlapping :
    (exec WsHub.step [] .new overlapping).2.pushTo "aa" (.other "stop") =
      some (session 1, .other "stop") := by
  have hmeets : Meets WsHub.step SparesOthers [] .new overlapping :=
    ⟨trivial, trivial, trivial, by simp [SparesOthers, WsHub.step, WsHub.register], trivial⟩
  exact pushTo_lastRegistered (run_exec hmeets) (by decide) (by decide) _

/-- The calls of a run without a condition on its steps. -/
theorem run_calls (calls : List HubEvent) :
    Run WsHub.step (fun _ _ _ => True) .new (exec WsHub.step [] .new calls).1
      (exec WsHub.step [] .new calls).2 :=
  run_exec (meets_true calls)

/-- The old session ends after the new one has registered, and an administrator's `disconnect` of
the old session continues after that: either way the new session loses its entry. -/
theorem reconnected_unsubscribed : (∃ h hub, Run WsHub.step (fun _ _ _ => True) .new h hub ∧
      lastRegistered "aa" h = some (session 1) ∧ Stays (session 1) h ∧
      hub.pushTo "aa" (.other "stop") = none ∧ .drop "aa" ∉ h.map Prod.fst) ∧
    ∃ h hub, Run WsHub.step (fun _ _ _ => True) .new h hub ∧
      lastRegistered "aa" h = some (session 1) ∧ Stays (session 1) h ∧
      hub.pushTo "aa" (.other "stop") = none ∧ .unregister (session 0) ∉ h.map Prod.fst := by
  refine ⟨⟨_, _, run_calls [.register (session 0), .register (session 1),
    .unregister (session 0)], ?_⟩, _, _, run_calls [.register (session 0),
    .disconnect "aa" "revoked", .register (session 1), .drop "aa"], ?_⟩
  · decide
  · decide

end Demo

end Tunnet.Control
