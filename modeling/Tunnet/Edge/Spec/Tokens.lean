import Tunnet.Edge.System
import Tunnet.Util.Run

/-!
# The tokens the edge accepts, and what the end of a session leaves

A heartbeat replaces the store of tokens, and an accepted registration refreshes its entry. An empty
store accepts every token, as a heartbeat whose body cannot be parsed leaves it.

* `Follows`: what the store has to do with the heartbeats, in every run (`follows_run`).
* `accepted_issued`: while tunnels are listed, only tokens that were issued last are accepted.
* `end_keeps_others_iff`: the registry is keyed by tunnel ids, so the end of a session removes the
  entry of another one with the same id.
-/

namespace Tunnet.Edge

open AuthStore EdgeState List Option

/-! ### What the control plane has sent -/

/-- The tunnels of the last successful heartbeat. -/
def lastHeartbeat : List (EdgeEvent × EdgeReply) → Option (List HeartbeatTunnelAuth)
  | [] => none
  | (.heartbeat answer, _) :: h => (heartbeat answer).or (lastHeartbeat h)
  | _ :: h => lastHeartbeat h

/-- The entry of a response for a subdomain. A later one replaces an earlier one. -/
def entryIn (subdomain : String) (ts : List HeartbeatTunnelAuth) : Option HeartbeatTunnelAuth :=
  ts.reverse.find? fun t => Str.eqIgnoreAsciiCase t.subdomain subdomain

/-- The last entry that was received for a subdomain. -/
def lastEntry (subdomain : String) : List (EdgeEvent × EdgeReply) → Option HeartbeatTunnelAuth
  | [] => none
  | (.heartbeat answer, _) :: h =>
    ((heartbeat answer).bind (entryIn subdomain)).or (lastEntry subdomain h)
  | _ :: h => lastEntry subdomain h

/-- The token the control plane has issued last for a subdomain. -/
def issued (subdomain : String) (h : List (EdgeEvent × EdgeReply)) : Option String :=
  (lastEntry subdomain h).map (·.authToken)

variable {h h' : List (EdgeEvent × EdgeReply)} {ts : List HeartbeatTunnelAuth}
  {subdomain s tunnelId key : String}

section

variable {t : HeartbeatTunnelAuth}

theorem entryIn_concat : entryIn subdomain (ts ++ [t]) =
    if Str.eqIgnoreAsciiCase t.subdomain subdomain then some t else entryIn subdomain ts := by
  unfold entryIn
  rw [reverse_append, reverse_singleton, singleton_append, find?_cons]
  split <;> rename_i heq <;> rw [heq] <;> rfl

theorem entryIn_getLast (hts : ts ≠ []) : ∃ subdomain t, entryIn subdomain ts = some t := by
  obtain ⟨ts, t, rfl⟩ := (eq_nil_or_concat ts).resolve_left hts
  refine ⟨t.subdomain, t, ?_⟩
  rw [concat_eq_append, entryIn_concat]
  exact if_pos (beq_self_eq_true _)

theorem lastEntry_of_lastHeartbeat (hbeat : lastHeartbeat h = some ts)
    (hentry : entryIn subdomain ts = some t) : lastEntry subdomain h = some t := by
  induction h with
  | nil => cases hbeat
  | cons x h ih =>
    obtain ⟨i, o⟩ := x
    cases i with
    | heartbeat answer =>
      unfold lastHeartbeat at hbeat
      unfold lastEntry
      cases hanswer : heartbeat answer with
      | none =>
        rw [hanswer] at hbeat
        exact ih hbeat
      | some =>
        rw [hanswer] at hbeat
        cases hbeat
        rw [bind_some, hentry, some_or]
    | _ => exact ih hbeat

theorem exists_lastHeartbeat (hentry : lastEntry subdomain h = some t) :
    ∃ ts, lastHeartbeat h = some ts := by
  induction h with
  | nil => cases hentry
  | cons x h ih =>
    obtain ⟨i, o⟩ := x
    cases i with
    | heartbeat answer =>
      unfold lastHeartbeat
      unfold lastEntry at hentry
      cases hanswer : heartbeat answer with
      | none =>
        rw [hanswer] at hentry
        exact ih hentry
      | some ts => exact ⟨ts, some_or⟩
    | _ => exact ih hentry

end

/-! ### The store after a heartbeat -/

variable {store : AuthStore}

namespace AuthStore

theorem get_insert (s : String) (a : TunnelAuth) : (store.insert s a).get subdomain =
      if Str.eqIgnoreAsciiCase s subdomain then some a else store.get subdomain := by
  unfold insert get Str.eqIgnoreAsciiCase
  rw [Map.lookup_insert_eq]
  by_cases hs : Str.toAsciiLowercase s = Str.toAsciiLowercase subdomain
  · rw [if_pos hs.symm, if_pos (beq_iff_eq.2 hs)]
  · rw [if_neg (Ne.symm hs), if_neg (fun h => hs (beq_iff_eq.1 h))]

theorem get_foldl_insert : (ts.foldl (fun store t => store.insert t.subdomain t.auth) store).get
    subdomain = ((entryIn subdomain ts).map (·.auth)).or (store.get subdomain) := by
  induction ts using reverseRecOn with
  | nil => rfl
  | append_singleton ts t ih =>
    rw [foldl_append, foldl_cons, foldl_nil, get_insert, entryIn_concat, ih]
    split_ifs <;> rfl

theorem get_retainSubdomains (keep : List String) : (store.retainSubdomains keep).get subdomain =
      if keep.any (Str.eqIgnoreAsciiCase · subdomain) then store.get subdomain else none := by
  unfold retainSubdomains get
  rw [Map.lookup_retain, List.any_map]
  cases store.lookup (Str.toAsciiLowercase subdomain) with
  | none => rw [filter_none, ite_self]
  | some => rfl

theorem any_subdomain : (ts.map (·.subdomain)).any (Str.eqIgnoreAsciiCase · subdomain) =
    (entryIn subdomain ts).isSome := by
  unfold entryIn
  rw [List.any_map, isSome_find?, any_reverse]
  rfl

/-- After a heartbeat the store has the tunnels of the response, and no others. -/
theorem get_applyHeartbeat (store : AuthStore) (ts : List HeartbeatTunnelAuth)
    (subdomain : String) :
    (store.applyHeartbeat ts).get subdomain = (entryIn subdomain ts).map (·.auth) := by
  unfold applyHeartbeat
  rw [get_retainSubdomains, any_subdomain, get_foldl_insert]
  cases entryIn subdomain ts with
  | none | some => rfl

theorem get_congr (hs : Str.eqIgnoreAsciiCase s subdomain) : store.get s = store.get subdomain :=
  congrArg (Finmap.lookup · store) (beq_iff_eq.1 hs)

variable {a : TunnelAuth} {token : String}

theorem verify_of_get (hget : store.get subdomain = some a) :
    store.verify subdomain token = (a.authToken == token) := by
  unfold get at hget
  unfold verify
  rw [hget]

theorem verify_of_get_none (hget : store.get subdomain = none) :
    store.verify subdomain token = (store.isEmpty && decide (16 ≤ token.utf8ByteSize)) := by
  unfold get at hget
  unfold verify
  rw [hget]

theorem isEmpty_eq_false (hget : store.get subdomain = some a) : store.isEmpty = false := by
  rw [← Bool.not_eq_true, Map.isEmpty_iff]
  intro h
  exact nomatch (h _).symm.trans hget

end AuthStore

/-! ### What registrations leave -/

/-- What the store has to do with the last heartbeat. -/
structure Follows (h : List (EdgeEvent × EdgeReply)) (store : AuthStore) : Prop where
  listed : ∀ ts, lastHeartbeat h = some ts → ∀ subdomain t, entryIn subdomain ts = some t →
    ∃ a, store.get subdomain = some a ∧ a.authToken = t.authToken ∧
      a.basicAuthUser = t.basicAuthUser ∧ a.basicAuthPasswordHash = t.basicAuthPasswordHash
  unlisted : ∀ ts, lastHeartbeat h = some ts → ∀ subdomain, entryIn subdomain ts = none →
    ∀ a, store.get subdomain = some a → ts = [] ∧ a.basicAuthUser = none

section

variable {e : EdgeState}

theorem follows_applyHeartbeat
    (hbeat : lastHeartbeat h' = some ts) : Follows h' (store.applyHeartbeat ts) := by
  refine ⟨fun ts' hts' subdomain t hentry => ?_, fun ts' hts' subdomain hentry a hget => ?_⟩
  · obtain rfl := some.inj (hbeat.symm.trans hts')
    refine ⟨t.auth, ?_, rfl, rfl, rfl⟩
    rw [get_applyHeartbeat, hentry, map_some]
  · obtain rfl := some.inj (hbeat.symm.trans hts')
    rw [get_applyHeartbeat, hentry] at hget
    cases hget

theorem Follows.isEmpty_eq_false (hfollows : Follows h store)
    (hbeat : lastHeartbeat h = some ts) (hts : ts ≠ []) : store.isEmpty = false := by
  obtain ⟨subdomain, t, hentry⟩ := entryIn_getLast hts
  obtain ⟨a, hget, -⟩ := hfollows.listed ts hbeat subdomain t hentry
  exact AuthStore.isEmpty_eq_false hget

variable {reg : Register}

theorem Follows.refresh (hfollows : Follows h store)
    (hverify : store.verify reg.subdomain reg.authToken) : Follows h (refresh store reg) := by
  refine ⟨fun ts hbeat subdomain t hentry => ?_, fun ts hbeat subdomain hentry a hget => ?_⟩
  · obtain ⟨a, hget, htoken, huser, hhash⟩ := hfollows.listed ts hbeat subdomain t hentry
    unfold EdgeState.refresh
    rw [get_insert]
    split_ifs with hs
    · have hstored : store.get reg.subdomain = some a := (get_congr hs).trans hget
      rw [verify_of_get hstored, beq_iff_eq] at hverify
      rw [hstored]
      exact ⟨_, rfl, hverify.symm.trans htoken, huser, hhash⟩
    · exact ⟨a, hget, htoken, huser, hhash⟩
  · unfold EdgeState.refresh at hget
    rw [get_insert] at hget
    split_ifs at hget with hs
    · cases hget
      cases hstored : store.get reg.subdomain with
      | none =>
        rw [verify_of_get_none hstored, Bool.and_eq_true] at hverify
        refine ⟨?_, rfl⟩
        by_contra hts
        exact Bool.false_ne_true ((hfollows.isEmpty_eq_false hbeat hts).symm.trans hverify.1)
      | some a =>
        exact hfollows.unlisted ts hbeat subdomain hentry a ((get_congr hs).symm.trans hstored)
    · exact hfollows.unlisted ts hbeat subdomain hentry a hget

theorem auth_step (e : EdgeState) (passwords : String → Option String) (i : EdgeEvent) :
    (∃ answer ts, i = .heartbeat answer ∧ heartbeat answer = some ts ∧
      (e.step passwords i).1.auth = e.auth.applyHeartbeat ts) ∨
    (∀ answer, i = .heartbeat answer → heartbeat answer = none) ∧
      ((e.step passwords i).1.auth = e.auth ∨
        ∃ n reg, i = .register n reg ∧ e.auth.verify reg.subdomain reg.authToken ∧
          (e.step passwords i).1.auth = refresh e.auth reg) := by
  cases i with
  | heartbeat answer =>
    unfold step
    dsimp only
    cases hanswer : heartbeat answer with
    | none =>
      refine .inr ⟨?_, .inl rfl⟩
      rintro answer' ⟨⟩
      exact hanswer
    | some ts => exact .inl ⟨answer, ts, rfl, hanswer, rfl⟩
  | register n reg =>
    refine .inr ⟨nofun, ?_⟩
    unfold step register
    dsimp only
    split
    · split_ifs with hverify
      · exact .inr ⟨n, reg, rfl, hverify, rfl⟩
      · exact .inl rfl
    · exact .inl rfl
  | welcome =>
    refine .inr ⟨nofun, .inl ?_⟩
    unfold step
    dsimp only
    split
    · split_ifs <;> rfl
    · rfl
  | leave n | dropTransport n =>
    refine .inr ⟨nofun, .inl ?_⟩
    unfold step
    dsimp only
    split <;> rfl
  | client => exact .inr ⟨nofun, .inl rfl⟩

theorem lastHeartbeat_cons {i : EdgeEvent} {o : EdgeReply}
    (hi : ∀ answer, i = .heartbeat answer → heartbeat answer = none) :
    lastHeartbeat ((i, o) :: h) = lastHeartbeat h := by
  cases i with
  | heartbeat answer => rw [lastHeartbeat, hi answer rfl, none_or]
  | _ => rfl

theorem Follows.step (hfollows : Follows h e.auth) (passwords : String → Option String)
    (i : EdgeEvent) : Follows ((i, (e.step passwords i).2) :: h) (e.step passwords i).1.auth := by
  rcases auth_step e passwords i with ⟨answer, ts, rfl, hanswer, hauth⟩ | ⟨hi, hauth⟩
  · rw [hauth]
    refine follows_applyHeartbeat ?_
    rw [lastHeartbeat, hanswer, some_or]
  · have hsame (o) : lastHeartbeat ((i, o) :: h) = lastHeartbeat h := lastHeartbeat_cons hi
    have hnext : Follows h (e.step passwords i).1.auth := by
      rcases hauth with hauth | ⟨n, reg, -, hverify, hauth⟩
      · rw [hauth]
        exact hfollows
      · rw [hauth]
        exact hfollows.refresh hverify
    refine ⟨fun ts hbeat => hnext.listed ts ?_, fun ts hbeat => hnext.unlisted ts ?_⟩
    · rwa [hsame] at hbeat
    · rwa [hsame] at hbeat

variable {passwords : String → Option String}

/-- What every run keeps. -/
theorem follows_run (hrun : Run (step passwords) (fun _ _ _ => True) initial h e) :
    Follows h e.auth :=
  hrun.invariant (I := fun h e => Follows h e.auth) ⟨nofun, nofun⟩
    fun _ _ i hfollows _ => hfollows.step passwords i

end

/-! ### The result -/

theorem verify_of_accepted {passwords : String → Option String} {e : EdgeState} {n : Nat}
    {reg : Register}
    (hacc : (e.step passwords (.register n reg)).2 = .accepted) :
    e.auth.verify reg.subdomain reg.authToken := by
  unfold step register at hacc
  dsimp only at hacc
  split at hacc
  · split_ifs at hacc with hverify
    exact hverify
  · cases hacc

/-- The edge accepts issued tokens only: in every run, when the last successful heartbeat has
listed a tunnel, a registration is accepted only with the token that was issued last for its
subdomain. -/
theorem accepted_issued {passwords : String → Option String} {h : List (EdgeEvent × EdgeReply)}
    {e : EdgeState} {ts : List HeartbeatTunnelAuth} {n : Nat} {reg : Register}
    (hrun : Run (EdgeState.step passwords) (fun _ _ _ => True) EdgeState.initial h e)
    (hbeat : lastHeartbeat h = some ts) (hts : ts ≠ [])
    (hacc : (e.step passwords (.register n reg)).2 = .accepted) :
    issued reg.subdomain h = some reg.authToken := by
  have hfollows := follows_run hrun
  have hverify := verify_of_accepted hacc
  cases hentry : entryIn reg.subdomain ts with
  | some t =>
    obtain ⟨a, hget, htoken, -, -⟩ := hfollows.listed ts hbeat reg.subdomain t hentry
    rw [verify_of_get hget, beq_iff_eq] at hverify
    unfold issued
    rw [lastEntry_of_lastHeartbeat hbeat hentry, map_some, ← htoken, hverify]
  | none =>
    -- No entry can be there, and the store is not empty.
    have hget : e.auth.get reg.subdomain = none := by
      by_contra hne
      obtain ⟨a, ha⟩ := ne_none_iff_exists'.1 hne
      exact hts (hfollows.unlisted ts hbeat reg.subdomain hentry a ha).1
    rw [verify_of_get_none hget, hfollows.isEmpty_eq_false hbeat hts] at hverify
    cases hverify

namespace Demo

/-- A tunnel without basic authentication. -/
def tunnelOf (subdomain token : String) : HeartbeatTunnelAuth where
  tunnelId := "t1"
  subdomain := subdomain
  authToken := token
  localPort := 3000
  protocol := "https"
  basicAuthUser := none
  basicAuthPasswordHash := none
  redirectRules := []
  portMappings := []

def registerOf (tunnelId subdomain token : String) : Register :=
  ⟨tunnelId, subdomain, token, 3000, "https"⟩

/-- The edge after a list of events. -/
def after (events : List EdgeEvent) : List (EdgeEvent × EdgeReply) × EdgeState :=
  exec (EdgeState.step fun hash => some hash) [] .initial events

theorem run_after (events : List EdgeEvent) :
    Run (step fun hash => some hash) (fun _ _ _ => True) .initial (after events).1
      (after events).2 :=
  run_exec (meets_true events)

/-- One tunnel is listed. -/
def listed : List EdgeEvent := [.heartbeat (.tunnels [tunnelOf "demo" "secret"])]

/-- The tunnel is listed again, with another token. -/
def renewed : List EdgeEvent := listed ++ [.heartbeat (.tunnels [tunnelOf "demo" "renewed"])]

theorem accepted_issued_renewed : ((after renewed).2.step (fun hash => some hash)
      (.register 0 (registerOf "t1" "demo" "renewed"))).2 = .accepted ∧
    issued "demo" (after renewed).1 = some "renewed" := by
  have hacc : ((after renewed).2.step some
      (.register 0 (registerOf "t1" "demo" "renewed"))).2 = .accepted := by decide
  have hrun := run_after renewed
  have hbeat : lastHeartbeat (after renewed).1 = some [tunnelOf "demo" "renewed"] := by
    decide
  have hissued := accepted_issued hrun hbeat (cons_ne_nil _ _) hacc
  exact ⟨hacc, hissued⟩

/-- A heartbeat whose body cannot be parsed leaves an empty store, which accepts a token that
nobody has issued. -/
theorem open_after_heartbeat :
    ((after (listed ++ [.heartbeat .unparseable])).2.step (fun hash => some hash)
      (.register 0 (registerOf "t1" "demo" "0123456789abcdef"))).2 = .accepted ∧
    issued "demo" (after (listed ++ [.heartbeat .unparseable])).1 = some "secret" := by
  decide

end Demo

/-! ## The end of an agent session -/

/-- The session is in the registry or has been replaced there, and its control stream is open. -/
def EdgeState.Connected (e : EdgeState) (n : Nat) : Prop :=
  ∃ s, e.sessions n = some s ∧ s.phase = .connected

/-- The steps at the end of a session. -/
inductive EndOf (n : Nat) : EdgeEvent → Prop
  /-- The answer to the registration cannot be sent. -/
  | unwelcome : EndOf n (.welcome n false)
  | leave : EndOf n (.leave n)
  | dropTransport : EndOf n (.dropTransport n)

/-- The entries of the other connected sessions are as they were. -/
def KeepsOthers (n : Nat) (e e' : EdgeState) : Prop :=
  ∀ key slot, e.registry.lookup key = some slot → slot.session ≠ n → e.Connected slot.session →
    e'.registry.lookup key = some slot

section

variable {passwords : String → Option String} {e : EdgeState} {n : Nat}

theorem lookup_removeTunnel_eq_some {registry : TunnelRegistry}
    {slot : TunnelSlot} : (registry.removeTunnel tunnelId).lookup key = some slot ↔
      registry.lookup key = some slot ∧ slot.tunnelId ≠ tunnelId := by
  unfold TunnelRegistry.removeTunnel
  rw [Map.lookup_retain, Option.filter_eq_some_iff, bne_iff_ne]

theorem registry_of_endOf (passwords : String → Option String) (e : EdgeState) {i : EdgeEvent}
    (hend : EndOf n i) : (e.step passwords i).1.registry = e.registry ∨
      ∃ s, i = .leave n ∧ e.sessions n = some s ∧ s.phase = .connected ∧
        (e.step passwords i).1.registry = e.registry.removeTunnel s.tunnelId := by
  cases hend with
  | unwelcome | dropTransport =>
    left
    unfold EdgeState.step
    dsimp only
    split <;> rfl
  | leave =>
    unfold EdgeState.step
    dsimp only
    split
    · rename_i tunnelId subdomain hs
      exact .inr ⟨_, rfl, hs, rfl, rfl⟩
    · exact .inl rfl

theorem registry_leave {s : Session} (hs : e.sessions n = some s) (hphase : s.phase = .connected) :
    (e.step passwords (.leave n)).1.registry = e.registry.removeTunnel s.tunnelId := by
  obtain ⟨tunnelId, subdomain, phase⟩ := s
  obtain rfl : phase = .connected := hphase
  unfold EdgeState.step
  dsimp only
  rw [hs]

/-- The end of a session: in every state, the steps at the end of a session leave the registry
entries of all other connected sessions exactly if the session is not connected or none of them has
its tunnel id. -/
theorem end_keeps_others_iff : (∀ i, EndOf n i → KeepsOthers n e (e.step passwords i).1) ↔
      ∀ s, e.sessions n = some s → s.phase = .connected →
        ∀ key slot, e.registry.lookup key = some slot → slot.session ≠ n →
          e.Connected slot.session → slot.tunnelId ≠ s.tunnelId := by
  constructor
  · intro hkeeps s hs hphase key slot hlookup hother hconnected
    have hkept := hkeeps (.leave n) .leave key slot hlookup hother hconnected
    rw [registry_leave hs hphase, lookup_removeTunnel_eq_some] at hkept
    exact hkept.2
  · intro hids i hend key slot hlookup hother hconnected
    rcases registry_of_endOf passwords e hend with
      hsame | ⟨s, -, hs, hphase, hregistry⟩
    · rw [hsame]
      exact hlookup
    · rw [hregistry, lookup_removeTunnel_eq_some]
      exact ⟨hlookup, hids s hs hphase key slot hlookup hother hconnected⟩

end

namespace Demo

/-- Session `n` registers and is connected. -/
def connect (n : Nat) (reg : Register) : List EdgeEvent := [.register n reg, .welcome n true]

/-- Two tunnels are listed. -/
def twoListed : EdgeEvent :=
  .heartbeat (.tunnels [tunnelOf "demo" "secret", tunnelOf "other" "password"])

/-- The agent of a tunnel connects again before its old session has ended. -/
def reconnect : List EdgeEvent :=
  twoListed :: connect 0 (registerOf "t1" "demo" "secret") ++
    connect 1 (registerOf "t1" "demo" "secret")

/-- The agent of one tunnel uses the id of the other. -/
def foreign : List EdgeEvent :=
  twoListed :: connect 0 (registerOf "t1" "demo" "secret") ++
    connect 1 (registerOf "t1" "other" "password")

/-- The end of the old session removes the entry of the new one, and the agent with the other
tunnel's id removes the entry of that tunnel. -/
theorem others_removed : ((after reconnect).2.registry.lookup "demo" = some ⟨1, "t1", "demo"⟩ ∧
      (after (reconnect ++ [.leave 0])).2.sessions 1 = some ⟨"t1", "demo", .connected⟩ ∧
      (after (reconnect ++ [.leave 0])).2.registry.lookup "demo" = none) ∧
    ((after foreign).2.registry.lookup "demo" = some ⟨0, "t1", "demo"⟩ ∧
      (after (foreign ++ [.leave 1])).2.sessions 0 = some ⟨"t1", "demo", .connected⟩ ∧
      (after (foreign ++ [.leave 1])).2.registry.lookup "demo" = none) := by
  decide

end Demo

end Tunnet.Edge
