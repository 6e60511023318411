import Tunnet.Licensing.Manager
import Tunnet.Licensing.Spec.Agreement

/-!
# Revoked licenses stay revoked

A revocation list replaces the one before it, whichever of them is newer, and is gone with the
process.

* `Lawful`: a license is not reported against a list that was accepted, unless a newer list omits
  it.
* `Keeps`: a refresh that has a list at hand which goes beyond all lists that were accepted.
-/

namespace Tunnet.Licensing

open Check Ts

variable {lib : Libs} {o : ManagerOptions} {lists : List RevocationList} {e : Entitlements}
  {s : System}

/-- The lists that were accepted so far. -/
def acceptedIn (h : List (ManagerCall × ManagerReply)) : List RevocationList :=
  h.filterMap (·.2.accepted)

/-- The license is reported as active or in grace. -/
def Entitlements.Reports (e : Entitlements) (id : String) : Prop :=
  e.licenseId = some id ∧ (e.status = .active ∨ e.status = .grace)

/-- A license that a list revokes is reported only if a newer list omits it. -/
def Lawful (e : Entitlements) (lists : List RevocationList) : Prop :=
  ∀ id, e.Reports id → ∀ l ∈ lists, id ∈ l.revoked →
    ∃ l' ∈ lists, l.issuedAt < l'.issuedAt ∧ id ∉ l'.revoked

/-! ### Conditions -/

/-- The token that a refresh evaluates. -/
def evaluated (s : System) (io : Surroundings) : Option String :=
  match io.source with
  | .ok token => some token
  | .notConfigured => none
  | .failed _ => if io.readable then (s.store.bind (·.token)).filter (· ≠ "") else none

namespace ManagerCall

def io : ManagerCall → Surroundings
  | start _ io => io
  | refresh io => io

/-- The call gets to its refresh. -/
def refreshes : ManagerCall → Bool
  | start readable _ => readable
  | refresh _ => true

/-- The list that the process has in memory. -/
def memory (s : System) : ManagerCall → Option (List String)
  | start _ _ => none
  | refresh _ => s.manager.revoked

end ManagerCall

/-- The times of the license can be written to the log. -/
def Loggable (lib : Libs) (token : String) : Prop :=
  ∀ d c, Ts.decodeToken lib token = .ok d → Ts.parseClaims d.payload = some c →
    isDate c.exp ∧ isDate (c.exp + c.grace)

/-- A list that is newer than another one or revokes as much. -/
def RevocationList.Covers (l l₀ : RevocationList) : Prop :=
  l₀.issuedAt < l.issuedAt ∨ l₀.revoked ⊆ l.revoked

/-- A refresh with a list at hand: the list that comes covers all lists that were accepted, and the
license can be logged; or no list comes, and the process has one or none was ever accepted. -/
def Keeps (lib : Libs) (o : ManagerOptions) (h : List (ManagerCall × ManagerReply)) (s : System)
    (call : ManagerCall) : Prop :=
  call.refreshes → ∀ token, evaluated s call.io = some token →
    (∀ l, loadRevocations lib o call.io = some l →
      (∀ l₀ ∈ acceptedIn h, l.Covers l₀) ∧ Loggable lib token) ∧
    (loadRevocations lib o call.io = none → acceptedIn h = [] ∨ call.memory s ≠ none)

/-! ### One refresh -/

section

variable {io : Surroundings} {token id : String} {stale : Bool} {options : VerifyOptions}

theorem checkCrit_ne_crashed (crit : List String) : checkCrit crit ≠ .error .crashed := by
  induction crit with
  | nil => exact nofun
  | cons c crit ih =>
    unfold checkCrit
    split_ifs
    · exact ih
    · exact nofun

theorem Ts.trustedKey_ne_crashed (keyring : Keyring) (d : DecodedToken) :
    trustedKey lib keyring d ≠ .error .crashed := by
  simp [trustedKey, fail, checkCrit_ne_crashed, pure, Except.pure]

theorem Ts.checkClaims_ne_crashed (key : TrustedKey) (options : VerifyOptions) (c : Claims) :
    checkClaims key options c ≠ .error .crashed := by
  simp only [checkClaims, fail, schemaError, bind_eq_error, failIf_eq_error,
    reduceCtorEq, and_false, exists_false, or_false, ne_eq, not_false_eq_true]

theorem Ts.checkTime_crashed {c : Claims}
    (h : checkTime lib options c = .error .crashed) : isDate c.exp = false := by
  by_contra hdate
  rw [Bool.not_eq_false] at hdate
  have hle : |c.exp * 1000| ≤ 8640000000000000 := of_decide_eq_true hdate
  simp only [checkTime, fail, bind_eq_error, failIf_eq_error, reduceCtorEq,
    and_false, false_or, throw, throwThe, MonadExceptOf.throw, pure, Except.pure] at h
  obtain ⟨-, -, h⟩ := h
  split_ifs at h
  simp at h

theorem not_crashed (hlog : Loggable lib token) (options : VerifyOptions) :
    verifyLicenseToken lib token options ≠ .error .crashed := by
  intro hcrashed
  simp only [verifyLicenseToken, schemaError, fail, bind_eq_error,
    mapError_eq_error, okOr_eq_error, mapError_eq_ok, okOr_eq_ok,
    trustedKey_ne_crashed, checkClaims_ne_crashed, reduceCtorEq, and_false, exists_false,
    false_or, or_false, pure, Except.pure] at hcrashed
  obtain ⟨d, hd, key, -, c, hc, -, -, htime⟩ := hcrashed
  exact absurd (checkTime_crashed htime) (by simp [(hlog d c hd hc).1])

@[simp] theorem persist_manager : (persist io token s).manager = s.manager := by
  unfold persist
  split_ifs <;> rfl

theorem conclude_revoked (result : VerifyResult) :
    (conclude io token stale result s).1.manager.revoked = s.manager.revoked := by
  unfold conclude
  split
  · rfl
  · split_ifs <;> simp [publish]
  · split_ifs <;> simp [publish]

theorem conclude_reports {result : VerifyResult}
    (hreports : (conclude io token stale result s).1.manager.entitlements.Reports id) :
    (∃ license status, result = .ok (license, status) ∧ license.jti = id) ∨
      (conclude io token stale result s).2 = false ∧ s.manager.entitlements.Reports id := by
  unfold conclude at hreports ⊢
  split at hreports
  · exact .inr ⟨rfl, hreports⟩
  · exact absurd hreports.1 (by simp [publish, communityWithReason])
  · rename_i license status
    split_ifs at hreports ⊢
    · exact .inl ⟨license, status, rfl, Option.some.inj hreports.1⟩
    · rw [persist_manager] at hreports
      exact .inr ⟨rfl, hreports⟩

theorem evaluate_eq : evaluate lib o io token stale s =
    conclude io token stale (verifyLicenseToken lib token
      (verifyOptions o (readClock o s.manager.watermark io.wall).1
        (afterLoad lib o io s).manager.revoked)) (afterLoad lib o io s) := rfl

theorem not_mem_of_verified {license : License} {status : RuntimeStatus}
    (h : verifyLicenseToken lib token options = .ok (license, status)) :
    (∀ r ∈ options.revokedIds, license.jti ∉ r) ∧
      ∃ d, decodeToken lib token = .ok d ∧ parseClaims d.payload = some license.toClaims := by
  obtain ⟨d, hd, key, -, c, hc, _, hcheck, status, -, heq⟩ := verifyLicenseToken_eq_ok.1 h
  obtain ⟨rfl, rfl⟩ := Prod.mk.inj heq
  exact ⟨(checkClaims_eq_ok.1 hcheck).1.revoked, d, hd, hc⟩

/-- A license that is reported after an evaluation is not on the list in memory, if its times can
be logged. -/
theorem evaluate_reports (hlog : Loggable lib token)
    (hreports : (evaluate lib o io token stale s).1.manager.entitlements.Reports id) :
    ∀ r, (afterLoad lib o io s).manager.revoked = some r → id ∉ r := by
  intro r hr
  rw [evaluate_eq] at hreports
  rcases conclude_reports hreports with ⟨license, status, hok, rfl⟩ | ⟨hfailed, -⟩
  · exact (not_mem_of_verified hok).1 r hr
  · exfalso
    unfold conclude at hfailed
    split at hfailed
    · rename_i hcrashed
      exact not_crashed hlog _ hcrashed
    · exact Bool.noConfusion hfailed
    · rename_i license status hok
      obtain ⟨-, d, hd, hc⟩ := not_mem_of_verified hok
      obtain ⟨hexp, hgrace⟩ := hlog d _ hd hc
      have hdate : isDate (loggedTime license status) := by
        cases status with
        | active => exact hexp
        | grace => exact hgrace
      rw [if_pos hdate] at hfailed
      exact Bool.noConfusion hfailed

/-- A refresh evaluates a token, or accepts no list and publishes nothing but the community
entitlements. -/
theorem refresh_cases (lib : Libs) (o : ManagerOptions) (io : Surroundings) (s : System) :
    (∃ token stale, evaluated s io = some token ∧
      (refresh lib o io s).1 = (evaluate lib o io token stale s).1 ∧
      (refresh lib o io s).2.1 = loadRevocations lib o io) ∨
    (refresh lib o io s).2.1 = none ∧ (refresh lib o io s).1.manager.revoked = s.manager.revoked ∧
      ∀ id, (refresh lib o io s).1.manager.entitlements.Reports id →
        s.manager.entitlements.Reports id := by
  have hcommunity (reason) (stale) (id)
      (h : (communityWithReason reason stale).Reports id) : s.manager.entitlements.Reports id :=
    nomatch h.1
  unfold refresh evaluated
  cases io.source with
  | ok token => exact .inl ⟨token, false, rfl, rfl, rfl⟩
  | notConfigured => exact .inr ⟨rfl, rfl, hcommunity none false⟩
  | failed reason =>
    cases io.readable with
    | false => exact .inr ⟨rfl, rfl, fun id h => h⟩
    | true =>
      simp only [↓reduceIte]
      cases (s.store.bind (·.token)).filter (· ≠ "") with
      | none => exact .inr ⟨rfl, rfl, hcommunity (some reason) true⟩
      | some token =>
        dsimp only
        exact .inl ⟨token, true, rfl, rfl, rfl⟩

end

/-! ### Runs -/

/-- The invariant of a run: what is published is lawful, and a list in memory covers all lists that
were accepted. -/
structure InForce (h : List (ManagerCall × ManagerReply)) (s : System) : Prop where
  lawful : Lawful s.manager.entitlements (acceptedIn h)
  covers : ∀ r, s.manager.revoked = some r →
    ∃ l ∈ acceptedIn h, l.revoked = r ∧ ∀ l₀ ∈ acceptedIn h, l.Covers l₀

theorem acceptedIn_cons (call : ManagerCall) (reply : ManagerReply)
    (h : List (ManagerCall × ManagerReply)) :
    acceptedIn ((call, reply) :: h) = reply.accepted.toList ++ acceptedIn h := by
  unfold acceptedIn
  rw [List.filterMap_cons]
  cases reply.accepted <;> rfl

theorem newer_of_covers {l : RevocationList} (hl : l ∈ lists)
    (hcovers : ∀ l₀ ∈ lists, l.Covers l₀) {id : String} (hid : id ∉ l.revoked) :
    ∀ l₀ ∈ lists, id ∈ l₀.revoked →
      ∃ l' ∈ lists, l₀.issuedAt < l'.issuedAt ∧ id ∉ l'.revoked := by
  intro l₀ hl₀ hmem
  rcases hcovers l₀ hl₀ with hlt | hsub
  · exact ⟨l, hl, hlt, hid⟩
  · exact absurd (hsub hmem) hid

variable {h : List (ManagerCall × ManagerReply)}

theorem InForce.afterRefresh (hinv : InForce h s) {io : Surroundings}
    (hkeeps : ∀ token, evaluated s io = some token →
      (∀ l, loadRevocations lib o io = some l →
        (∀ l₀ ∈ acceptedIn h, l.Covers l₀) ∧ Loggable lib token) ∧
      (loadRevocations lib o io = none → acceptedIn h = [] ∨ s.manager.revoked ≠ none))
    (call : ManagerCall) {reply : ManagerReply}
    (haccepted : reply.accepted = (refresh lib o io s).2.1) :
    InForce ((call, reply) :: h) (refresh lib o io s).1 := by
  rcases refresh_cases lib o io s with ⟨token, stale, htoken, hstate, hlist⟩ |
    ⟨hlist, hrevoked, hreports⟩
  · obtain ⟨hnew, hnone⟩ := hkeeps token htoken
    have hrevoked : (refresh lib o io s).1.manager.revoked =
        (afterLoad lib o io s).manager.revoked := by
      rw [hstate, evaluate_eq, conclude_revoked]
    rw [hlist] at haccepted
    cases hload : loadRevocations lib o io with
    | some l =>
      obtain ⟨hcovers, hlog⟩ := hnew l hload
      have hmemory : (afterLoad lib o io s).manager.revoked = some l.revoked := by
        rw [afterLoad, hload]
        rfl
      have hlists : acceptedIn ((call, reply) :: h) = l :: acceptedIn h := by
        rw [acceptedIn_cons, haccepted, hload]
        rfl
      have hself : ∀ l₀ ∈ l :: acceptedIn h, l.Covers l₀ := by
        intro l₀ hl₀
        rcases List.mem_cons.1 hl₀ with rfl | hl₀
        · exact .inr (List.Subset.refl _)
        · exact hcovers l₀ hl₀
      refine ⟨?_, fun r hr => ?_⟩
      · rw [hlists]
        intro id hid
        rw [hstate] at hid
        exact newer_of_covers List.mem_cons_self hself (evaluate_reports hlog hid _ hmemory)
      · rw [hlists]
        rw [hrevoked, hmemory] at hr
        exact ⟨l, List.mem_cons_self, Option.some.inj hr, hself⟩
    | none =>
      have hmemory : (afterLoad lib o io s).manager.revoked = s.manager.revoked := by
        rw [afterLoad, hload]
        rfl
      have hlists : acceptedIn ((call, reply) :: h) = acceptedIn h := by
        rw [acceptedIn_cons, haccepted, hload]
        rfl
      refine ⟨?_, by rw [hlists, hrevoked, hmemory]; exact hinv.covers⟩
      rw [hlists]
      rcases hnone hload with hempty | hsome
      · rw [hempty]
        exact fun _ _ _ hl => absurd hl List.not_mem_nil
      · obtain ⟨r, hr⟩ := Option.ne_none_iff_exists'.1 hsome
        obtain ⟨l, hl, rfl, hcovers⟩ := hinv.covers r hr
        intro id hid
        rw [hstate, evaluate_eq] at hid
        -- The license was verified against the list in memory, or is an old one after an exception.
        rcases conclude_reports hid with ⟨license, status, hok, rfl⟩ | ⟨-, hold⟩
        · exact newer_of_covers hl hcovers ((not_mem_of_verified hok).1 _ (hmemory.trans hr))
        · exact hinv.lawful id hold
  · have hlists : acceptedIn ((call, reply) :: h) = acceptedIn h := by
      rw [acceptedIn_cons, haccepted, hlist]
      rfl
    refine ⟨?_, ?_⟩
    · rw [hlists]
      exact fun id hid => hinv.lawful id (hreports id hid)
    · rw [hlists, hrevoked]
      exact hinv.covers

theorem inForce_fresh (h : List (ManagerCall × ManagerReply)) (store : Option PersistedState)
    (watermark : ℤ) : InForce h { store := store, manager := { watermark := watermark } } where
  lawful _ hid := nomatch hid.1
  covers _ hr := nomatch hr

theorem InForce.step (hinv : InForce h s) {call : ManagerCall} (hkeeps : Keeps lib o h s call) :
    InForce ((call, (s.step lib o call).2) :: h) (s.step lib o call).1 := by
  cases call with
  | refresh => exact hinv.afterRefresh (hkeeps rfl) _ rfl
  | start readable =>
    cases readable with
    | true =>
      have hfresh := inForce_fresh h s.store ((s.store.bind (·.clockWatermark)).getD 0)
      exact hfresh.afterRefresh (hkeeps rfl) _ rfl
    | false => exact inForce_fresh _ s.store 0

/-- Revocation is monotone in runs whose refreshes have a list at hand: what is reported after a
call is lawful for the lists that were accepted up to then. -/
theorem revocation_monotone {store : Option PersistedState}
    {h : List (ManagerCall × ManagerReply)} {s : System}
    (hrun : Run (System.step lib o) (Keeps lib o) { store := store } h s) :
    ∀ later call reply earlier, h = later ++ (call, reply) :: earlier →
      Lawful reply.snapshot (acceptedIn ((call, reply) :: earlier)) := by
  have hinv (h) (s)
      (hrun : Run (System.step lib o) (Keeps lib o) { store := store } h s) : InForce h s :=
    hrun.invariant (inForce_fresh [] store 0) fun _ _ _ hinv hkeeps => hinv.step hkeeps
  exact hrun.forall_call hinv fun _ _ _ hinv hkeeps => (hinv.step hkeeps).lawful

/-! ### A list that comes back -/

namespace Demo

/-- A list that was issued at `iat`. -/
def revocationPayload (iat : ℕ) (revoked : List Value) : Fields :=
  [("iat", written iat), ("revoked", .array revoked)]

def revocationHeader : Fields :=
  [("alg", .string "Ed25519"), ("kid", .string "k"), ("typ", .string revocationTyp)]

/-- The same libraries, for which `listing`, `recent` and `former` make two lists. -/
def listLibs : Libs :=
  { libs 5 with
    parseJson := fun bytes =>
      if bytes = toBytes "listing" then some (.object revocationHeader)
      else if bytes = toBytes "recent" then
        some (.object (revocationPayload 20 [.string "lic"]))
      else if bytes = toBytes "former" then some (.object (revocationPayload 10 []))
      else (libs 5).parseJson bytes
    parseJson_nil := rfl }

def managerOptions : ManagerOptions where
  keyring := keyring
  audience := none
  expectedIssuer := none
  clockSkewSec := 300
  revocationSource := true

/-- The license is there, and this comes from the source of lists. -/
def surroundings (revocations : SourceResult) : Surroundings where
  source := .ok cloudToken
  revocations := revocations
  wall := 500
  later := 500
  readable := true
  writable := true

def newerList : SourceResult := .ok "tnlic1.listing.recent.sig"
def olderList : SourceResult := .ok "tnlic1.listing.former.sig"

def unavailable : SourceResult := .failed .unavailable

/-- A process that has a list and another one that starts with what comes then. -/
def restarted (lists : SourceResult) : List ManagerCall :=
  [.start true (surroundings newerList), .start true (surroundings lists)]

/-- A process that goes on. -/
def refreshed (lists : SourceResult) : List ManagerCall :=
  [.start true (surroundings newerList), .refresh (surroundings lists)]

def after (calls : List ManagerCall) : List (ManagerCall × ManagerReply) × System :=
  exec (System.step listLibs managerOptions) [] {} calls

theorem run_after (calls : List ManagerCall) :
    Run (System.step listLibs managerOptions) (fun _ _ _ => True) {} (after calls).1
      (after calls).2 :=
  run_exec (meets_true calls)

/-- The newer list revokes the license, and no list is newer than that. -/
theorem not_lawful (hreports : e.licenseId = some "lic" ∧ e.status = .active)
    (hmem : ⟨["lic"], 20⟩ ∈ lists) (hlast : ∀ l ∈ lists, l.issuedAt ≤ 20) : ¬ Lawful e lists := by
  intro hlawful
  obtain ⟨l, hl, hlt, -⟩ := hlawful "lic" ⟨hreports.1, .inl hreports.2⟩ _ hmem List.mem_cons_self
  exact absurd (hlast l hl) (not_le.2 hlt)

/-- An older list makes the license active again, and so does a restart while no list comes. -/
theorem revocation_undone : (Run (System.step listLibs managerOptions) (fun _ _ _ => True) {}
        (after (refreshed olderList)).1 (after (refreshed olderList)).2 ∧
      ¬ Lawful (after (refreshed olderList)).2.manager.entitlements
        (acceptedIn (after (refreshed olderList)).1)) ∧
    Run (System.step listLibs managerOptions) (fun _ _ _ => True) {}
        (after (restarted unavailable)).1 (after (restarted unavailable)).2 ∧
      ¬ Lawful (after (restarted unavailable)).2.manager.entitlements
        (acceptedIn (after (restarted unavailable)).1) := by
  refine ⟨⟨run_after _, ?_⟩, run_after _, ?_⟩
  · exact not_lawful (by decide +kernel) (by decide +kernel) (by decide +kernel)
  · exact not_lawful (by decide +kernel) (by decide +kernel) (by decide +kernel)

theorem loggable : Loggable listLibs cloudToken := by
  have hdecoded : decodeToken listLibs cloudToken = .ok (decoded 5) := by rfl
  have hparsed : (parseClaims (payload 5)).all
      (fun c => isDate c.exp && isDate (c.exp + c.grace)) := by decide +kernel
  intro d c hd hc
  obtain rfl := Except.ok.inj (hdecoded.symm.trans hd)
  rw [show (decoded 5).payload = payload 5 from rfl] at hc
  rw [hc, Option.all_some, Bool.and_eq_true] at hparsed
  exact hparsed

/-- The process that goes on without a new list keeps the old one. -/
theorem meets_refreshed :
    Meets (System.step listLibs managerOptions) (Keeps listLibs managerOptions) [] {}
      (refreshed unavailable) := by
  refine ⟨fun _ token htoken => ⟨fun l _ => ⟨fun l₀ hl₀ => (nomatch hl₀), ?_⟩, fun _ => .inl rfl⟩,
    fun _ token htoken => ⟨nofun, fun _ => .inr ?_⟩, trivial⟩
  · cases htoken
    exact loggable
  · decide +kernel

theorem revocation_monotone_refreshed :
    acceptedIn (after (refreshed unavailable)).1 = [⟨["lic"], 20⟩] ∧
      ∀ later call reply earlier,
        (after (refreshed unavailable)).1 = later ++ (call, reply) :: earlier →
          Lawful reply.snapshot (acceptedIn ((call, reply) :: earlier)) :=
  ⟨by decide +kernel, revocation_monotone (run_exec meets_refreshed)⟩

end Demo

end Tunnet.Licensing
