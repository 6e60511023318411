import Tunnet.Edge.Spec.Tokens

/-!
# Basic authentication across heartbeats

The user and the hash of a tunnel are in the store that heartbeats fill. A tunnel that the last
heartbeat omits is gone from the store while its agent stays connected, and then the edge forwards
to it without asking for anything.

* `FailsClosed`: nothing is forwarded without the credentials of the last entry of the tunnel.
* `failsClosed_iff`: all connections fail closed exactly if the tunnels that need it are listed.
-/

namespace Tunnet.Edge

open Option

/-! ### What is forwarded -/

/-- What is sent to an agent for a client. -/
def ClientEnd.forwarded : ClientEnd → Bytes
  | .proxied _ (.spliced sent) => sent.flatten
  | _ => []

/-- The first request of a connection carries the user and the password of the hash. -/
def Carries (passwords : String → Option String) (reads : List Bytes) (user hash : String) : Prop :=
  ∃ password, passwords hash = some password ∧
    credentials (reads.headD []) = some (user, password)

/-- Nothing of the connection is forwarded to a tunnel whose last entry had basic authentication,
unless the first request carries the credentials. -/
def FailsClosed (passwords : String → Option String) (h : List (EdgeEvent × EdgeReply))
    (e : EdgeState) (host : Option String) (opens : Bool) (reads : List Bytes) : Prop :=
  ∀ name slot t user hash, host = some name → e.registry.get name = some slot →
    lastEntry slot.subdomain h = some t → t.basicAuthUser = some user →
    t.basicAuthPasswordHash = some hash →
    (e.handleHttpsClient passwords host opens reads).forwarded ≠ [] →
    Carries passwords reads user hash

variable {passwords : String → Option String} {e : EdgeState} {slot : TunnelSlot}
  {user hash name : String}

section

variable {reads : List Bytes}

theorem verifyBasicAuth_iff {buf : Bytes} : verifyBasicAuth passwords buf user hash ↔
      ∃ password, passwords hash = some password ∧ credentials buf = some (user, password) := by
  unfold verifyBasicAuth
  cases hcred : credentials buf with
  | none =>
    constructor
    · intro h
      cases h
    · rintro ⟨password, -, h⟩
      cases h
  | some pair =>
    obtain ⟨user', password'⟩ := pair
    rw [Bool.and_eq_true, beq_iff_eq, beq_iff_eq]
    constructor
    · rintro ⟨rfl, hpassword⟩
      exact ⟨password', hpassword, rfl⟩
    · rintro ⟨password, hpassword, ⟨⟩⟩
      exact ⟨rfl, hpassword⟩

theorem handleHttpsClient_of_get
    (hslot : e.registry.get name = some slot) (htransport : e.hasTransport slot.session) :
    e.handleHttpsClient passwords (some name) true reads =
      .proxied slot (spliceTlsToAgent passwords ((e.auth.get slot.subdomain).bind (·.basicAuthUser))
        ((e.auth.get slot.subdomain).bind (·.basicAuthPasswordHash)) reads) := by
  unfold EdgeState.handleHttpsClient
  dsimp only
  rw [hslot]
  dsimp only
  rw [if_pos htransport, if_pos rfl]

theorem hasTransport_of_forwarded {opens : Bool} (hslot : e.registry.get name = some slot)
    (hsent : (e.handleHttpsClient passwords (some name) opens reads).forwarded ≠ []) :
    opens ∧ e.hasTransport slot.session := by
  unfold EdgeState.handleHttpsClient at hsent
  dsimp only at hsent
  rw [hslot] at hsent
  dsimp only at hsent
  split_ifs at hsent with htransport hopens
  · exact ⟨hopens, htransport⟩
  · exact absurd rfl hsent
  · exact absurd rfl hsent

/-- With credentials, only a request that carries them is forwarded. -/
theorem forwarded_carries (hsent : (ClientEnd.proxied slot
      (spliceTlsToAgent passwords (some user) (some hash) reads)).forwarded ≠ []) :
    Carries passwords reads user hash := by
  unfold spliceTlsToAgent at hsent
  dsimp only at hsent
  by_cases hrefused : reads.headD [] = [] ∨
      verifyBasicAuth passwords (reads.headD []) user hash = false
  · rw [if_pos hrefused] at hsent
    exact absurd rfl hsent
  · rw [not_or, Bool.not_eq_false] at hrefused
    exact verifyBasicAuth_iff.1 hrefused.2

theorem not_carries (user hash : String) : ¬ Carries passwords [[0]] user hash := by
  rintro ⟨password, -, hcred⟩
  have hnone : credentials [0] = none := by decide
  exact nomatch hnone.symm.trans hcred

end

/-! ### The result -/

section

variable {h : List (EdgeEvent × EdgeReply)} {ts : List HeartbeatTunnelAuth}

theorem Follows.credentials (hfollows : Follows h e.auth) {t : HeartbeatTunnelAuth}
    (hbeat : lastHeartbeat h = some ts) (hlisted : (entryIn slot.subdomain ts).isSome)
    (hentry : lastEntry slot.subdomain h = some t) :
    (e.auth.get slot.subdomain).bind (·.basicAuthUser) = t.basicAuthUser ∧
      (e.auth.get slot.subdomain).bind (·.basicAuthPasswordHash) = t.basicAuthPasswordHash := by
  obtain ⟨t', ht'⟩ := isSome_iff_exists.1 hlisted
  obtain rfl := some.inj ((lastEntry_of_lastHeartbeat hbeat ht').symm.trans hentry)
  obtain ⟨a, hget, -, huser, hhash⟩ := hfollows.listed ts hbeat _ _ ht'
  rw [hget]
  exact ⟨huser, hhash⟩

theorem Follows.no_user (hfollows : Follows h e.auth) (hbeat : lastHeartbeat h = some ts)
    (hentry : entryIn slot.subdomain ts = none) :
    (e.auth.get slot.subdomain).bind (·.basicAuthUser) = none := by
  cases hget : e.auth.get slot.subdomain with
  | none => rfl
  | some a => exact (hfollows.unlisted ts hbeat _ hentry a hget).2

/-- When basic authentication fails closed: in every state that is reached, all connections of
clients fail closed exactly if every connected tunnel whose last entry had basic authentication is
listed by the last successful heartbeat. -/
theorem failsClosed_iff
    (hrun : Run (EdgeState.step passwords) (fun _ _ _ => True) EdgeState.initial h e) :
    (∀ host opens reads, FailsClosed passwords h e host opens reads) ↔
      ∀ name slot t, e.registry.get name = some slot → e.hasTransport slot.session →
        lastEntry slot.subdomain h = some t → t.basicAuthUser.isSome →
        t.basicAuthPasswordHash.isSome →
        ∃ ts, lastHeartbeat h = some ts ∧ (entryIn slot.subdomain ts).isSome := by
  have hfollows := follows_run hrun
  constructor
  · intro hclosed name slot t hslot htransport hentry huser hhash
    obtain ⟨user, huser⟩ := isSome_iff_exists.1 huser
    obtain ⟨hash, hhash⟩ := isSome_iff_exists.1 hhash
    obtain ⟨ts, hbeat⟩ := exists_lastHeartbeat hentry
    refine ⟨ts, hbeat, ?_⟩
    by_contra hnone
    rw [Bool.not_eq_true, isSome_eq_false_iff, isNone_iff_eq_none] at hnone
    -- A client that sends one byte is forwarded.
    have hsent : (e.handleHttpsClient passwords (some name) true [[0]]).forwarded ≠ [] := by
      rw [handleHttpsClient_of_get hslot htransport, hfollows.no_user hbeat hnone]
      exact List.cons_ne_nil _ _
    exact not_carries user hash
      (hclosed (some name) true [[0]] name slot t user hash rfl hslot hentry huser hhash hsent)
  · rintro hlisted host opens reads name slot t user hash rfl hslot hentry huser hhash hsent
    obtain ⟨rfl, htransport⟩ := hasTransport_of_forwarded hslot hsent
    obtain ⟨ts, hbeat, hts⟩ := hlisted name slot t hslot htransport hentry
      (huser ▸ rfl) (hhash ▸ rfl)
    obtain ⟨huser', hhash'⟩ := hfollows.credentials hbeat hts hentry
    rw [handleHttpsClient_of_get hslot htransport, huser', hhash', huser, hhash] at hsent
    exact forwarded_carries hsent

end

namespace Demo

/-- The user `u` with the password `pw`, which the demo's hashes leave as it is. -/
def protectedTunnel : HeartbeatTunnelAuth :=
  { tunnelOf "demo" "secret" with basicAuthUser := some "u", basicAuthPasswordHash := some "pw" }

/-- A tunnel with basic authentication is listed, and its agent connects. -/
def protectedEvents : List EdgeEvent :=
  [.heartbeat (.tunnels [protectedTunnel]), .register 0 (registerOf "t1" "demo" "secret"),
    .welcome 0 true]

def request : Bytes := Str.asBytes "GET / HTTP/1.1\r\nHost: demo.example.com\r\n\r\n"

/-- As long as the tunnel is listed a request without credentials is not forwarded. -/
theorem failsClosed_listed : FailsClosed some (after protectedEvents).1 (after protectedEvents).2
    (some "demo.example.com") true [request] := by
  refine (failsClosed_iff (run_after protectedEvents)).2 (fun name slot t hslot _ _ _ _ => ?_) _ _ _
  have hbeat : lastHeartbeat (after protectedEvents).1 = some [protectedTunnel] := by
    decide
  have honly (k) (s)
      (hs : (after protectedEvents).2.registry.lookup k = some s) : s.subdomain = "demo" := by
    have hregistry : (after protectedEvents).2.registry =
        (∅ : TunnelRegistry).insert ⟨0, "t1", "demo"⟩ := rfl
    rw [hregistry] at hs
    unfold TunnelRegistry.insert at hs
    rw [Map.lookup_insert_eq, Finmap.lookup_empty, ite_none_right_eq_some] at hs
    rw [← some.inj hs.2]
  have hdemo : slot.subdomain = "demo" := by
    unfold TunnelRegistry.get at hslot
    dsimp only at hslot
    split at hslot
    · rename_i hlookup
      rw [← some.inj hslot]
      exact honly _ _ hlookup
    · exact honly _ _ hslot
  refine ⟨_, hbeat, ?_⟩
  rw [hdemo]
  decide

/-- The next heartbeat omits the tunnel, and its agent, which stays connected, is sent a request
without credentials. -/
theorem open_after_omission :
    lastEntry "demo" (after (protectedEvents ++ [.heartbeat (.tunnels [])])).1 =
      some protectedTunnel ∧
    ((after (protectedEvents ++ [.heartbeat (.tunnels [])])).2.handleHttpsClient some
      (some "demo.example.com") true [request]).forwarded = request ∧
    credentials request = none := by
  decide

end Demo

end Tunnet.Edge
