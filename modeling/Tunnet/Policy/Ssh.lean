import Tunnet.Policy.Evaluate
import Tunnet.Util.StableSort

/-!
# Access over SSH

`evaluate_ssh` of `tunnet-common/src/policy.rs` and its use in `tunnet-agent/src/ssh/authorize.rs`:
the rules are tried by descending priority, and the account of an admitted session is looked up
under the trimmed name.
-/

namespace Tunnet.Policy

open StableSort (Least)

def autogroupNonroot : String := "autogroup:nonroot"
def autogroupLocal : String := "autogroup:local"

structure SshEvalCtx where
  srcEndpointHex : String
  srcTags : List String
  srcNetwork : String
  dstEndpointHex : String
  dstTags : List String
  dstNetwork : String
  requestedUser : String
  /-- Interactive local accounts, for `autogroup:local`. -/
  localAccounts : List String

def sshUserAllowed (users : List String) (requested : String) (localAccounts : List String) :
    Bool :=
  if users.isEmpty then false
  else users.any fun u =>
    if u == autogroupNonroot then requested != "root"
    else if u == autogroupLocal then localAccounts.any (Str.eqIgnoreAsciiCase · requested)
    else u == requested

/-- `ssh_rule_matches`, given the addresses of the two ends. -/
def sshRuleMatchesAt (srcIp dstIp : Option Ipv4Addr) (ctx : SshEvalCtx) (rule : SshPolicyRule) :
    Bool :=
  let srcOk := rule.src.matchesEndpoint ctx.srcEndpointHex ctx.srcTags ctx.srcNetwork srcIp
  let dstOk := rule.dst.matchesEndpoint ctx.dstEndpointHex ctx.dstTags ctx.dstNetwork dstIp
  if !srcOk || !dstOk then false
  else sshUserAllowed rule.users ctx.requestedUser ctx.localAccounts

/-- The source gives no address. -/
def sshRuleMatches (ctx : SshEvalCtx) (rule : SshPolicyRule) : Bool :=
  sshRuleMatchesAt none none ctx rule

/-- `Reverse(rule.priority)`. -/
def priorityGE (a b : SshPolicyRule) : Prop := b.priority ≤ a.priority

instance : DecidableRel priorityGE := fun _ _ => inferInstanceAs (Decidable (_ ≤ _))

def evaluateSsh (rules : List SshPolicyRule) (ctx : SshEvalCtx) : Option SshPolicyRule :=
  (rules.insertionSort priorityGE).find? (sshRuleMatches ctx)

structure LocalAccount where
  username : String

/-- The accounts of the operating system. -/
structure Accounts where
  getpwnam : String → Option LocalAccount
  username_eq : ∀ name account, getpwnam name = some account → account.username = name
  interactiveUsernames : List String

def Accounts.resolve (os : Accounts) (username : String) : Option LocalAccount :=
  let username := Str.trim username
  if username.isEmpty then none else os.getpwnam username

inductive CheckState
  | none
  | required (periodSecs : UInt64)

structure RecordingPolicy where
  record : Bool
  enforceRecorder : Bool
  recorder : Option Selector

structure AuthorizedSession where
  destUser : String
  account : LocalAccount
  recording : RecordingPolicy
  check : CheckState

inductive AuthzFailure
  | accountMissing (requested : String)
  | managedDeny

/-- The context comes with the ends of the session; the local accounts are asked for here. -/
def authorizeManaged (os : Accounts) (ctx : SshEvalCtx) (sshRules : List SshPolicyRule) :
    Except AuthzFailure AuthorizedSession :=
  match evaluateSsh sshRules { ctx with localAccounts := os.interactiveUsernames } with
  | none => .error .managedDeny
  | some rule =>
    if rule.action = .deny then .error .managedDeny
    else
      let check := if rule.action = .check then
          .required (rule.checkPeriodSecs.getD 3600)
        else .none
      -- `finish`
      match os.resolve ctx.requestedUser with
      | none => .error (.accountMissing ctx.requestedUser)
      | some account => .ok ⟨account.username, account,
          ⟨rule.record, rule.enforceRecorder, rule.recorder⟩, check⟩

/-! ### Which rule decides -/

def Selector.isCidr : Selector → Bool
  | .cidr _ => true
  | _ => false

section

variable (os : Accounts) (rules : List SshPolicyRule) (ctx : SshEvalCtx) (srcIp dstIp : Ipv4Addr)

/-- The first rule by priority that matches the session between the two addresses. -/
def Decides : Option SshPolicyRule → Prop
  | none => ∀ r ∈ rules, sshRuleMatchesAt srcIp dstIp ctx r = false
  | some r => ∃ i, Least priorityGE (sshRuleMatchesAt srcIp dstIp ctx) rules i r

/-- Rules that name only `autogroup:nonroot` admit no session of the account `root`. -/
def NonrootSafe : Prop :=
  ∀ rules : List SshPolicyRule, (∀ r ∈ rules, ∀ u ∈ r.users, u = autogroupNonroot) →
    ∀ session, authorizeManaged os ctx rules = .ok session → session.account.username ≠ "root"

/-- Before a rule with a prefix that matches the session stands one without that matches it. -/
def CidrCovered : Prop :=
  ∀ (i : Nat) r, rules[i]? = some r → sshRuleMatchesAt srcIp dstIp ctx r →
    (r.src.isCidr || r.dst.isCidr) → ∃ (j : Nat) (r' : _), rules[j]? = some r' ∧
      sshRuleMatches ctx r' ∧
      (r.priority < r'.priority ∨ r.priority = r'.priority ∧ j < i)

/-- The account `root` is not asked for with white space around its name. -/
def PlainRoot : Prop :=
  (os.getpwnam "root").isSome → Str.trim ctx.requestedUser = "root" → ctx.requestedUser = "root"

variable {os rules ctx srcIp dstIp}

variable (srcIp dstIp) in
theorem sshRuleMatches_eq (r : SshPolicyRule) : sshRuleMatches ctx r =
    (!(r.src.isCidr || r.dst.isCidr) && sshRuleMatchesAt srcIp dstIp ctx r) := by
  have hnone (s : Selector) (hex) (tags) (network)
      (ip) : s.matchesEndpoint hex tags network none =
        (!s.isCidr && s.matchesEndpoint hex tags network ip) := by
    cases s <;> simp [Selector.matchesEndpoint, Selector.isCidr]
  unfold sshRuleMatches sshRuleMatchesAt
  rw [hnone r.src _ _ _ srcIp, hnone r.dst _ _ _ dstIp]
  cases r.src.isCidr <;> cases r.dst.isCidr <;> simp

theorem evaluateSsh_some {r : SshPolicyRule} (h : evaluateSsh rules ctx = some r) :
    ∃ i, Least priorityGE (sshRuleMatches ctx) rules i r := by
  have hsort : ((rules.filter fun _ => true).insertionSort priorityGE).find?
      (sshRuleMatches ctx) = some r := by
    rw [List.filter_true]
    exact h
  exact StableSort.find?_insertionSort_filter (r := priorityGE)
    (fun _ _ _ h h' => le_trans h' h) (fun _ _ => le_total _ _) hsort

theorem decides_evaluateSsh_iff :
    Decides rules ctx srcIp dstIp (evaluateSsh rules ctx) ↔ CidrCovered rules ctx srcIp dstIp := by
  cases hdecision : evaluateSsh rules ctx with
  | none =>
    have hnone {r : SshPolicyRule} (hr : r ∈ rules) : sshRuleMatches ctx r = false := by
      simpa using List.find?_eq_none.mp hdecision r ((List.mem_insertionSort _).mpr hr)
    constructor
    · intro h i r hr hmatch
      exact absurd hmatch (Bool.eq_false_iff.mp (h r (List.mem_of_getElem? hr)))
    · intro h r hr
      obtain ⟨i, hi⟩ := List.mem_iff_getElem?.mp hr
      by_contra hmatch
      rw [Bool.not_eq_false] at hmatch
      have hcidr := hnone hr
      rw [sshRuleMatches_eq srcIp dstIp, hmatch, Bool.and_true, Bool.not_eq_false'] at hcidr
      obtain ⟨j, r', hr', hmatch', -⟩ := h i r hi hmatch hcidr
      exact absurd hmatch' (Bool.eq_false_iff.mp (hnone (List.mem_of_getElem? hr')))
  | some x =>
    obtain ⟨i, hi⟩ := evaluateSsh_some hdecision
    have hx := hi.holds
    rw [sshRuleMatches_eq srcIp dstIp, Bool.and_eq_true, Bool.not_eq_true'] at hx
    constructor
    · rintro ⟨k, hk⟩ j r hr hmatch hcidr
      refine ⟨i, x, hi.get, hi.holds, ?_⟩
      obtain ⟨hle, hfirst⟩ := hk.least j r hr hmatch
      have hik := (hi.least k x hk.get hi.holds).2 (le_refl _)
      have hne : i ≠ j := by
        rintro rfl
        obtain rfl := Option.some.inj (hi.get.symm.trans hr)
        exact Bool.eq_false_iff.mp hx.1 hcidr
      unfold priorityGE at *
      omega
    · intro h
      refine ⟨i, hi.get, hx.2, fun j r hr hmatch => ?_⟩
      by_cases hcidr : (r.src.isCidr || r.dst.isCidr)
      · obtain ⟨j', r', hr', hmatch', hbefore⟩ := h j r hr hmatch hcidr
        obtain ⟨hle, hfirst⟩ := hi.least j' r' hr' hmatch'
        unfold priorityGE at *
        exact ⟨by omega, fun hge => by omega⟩
      · apply hi.least j r hr
        rw [sshRuleMatches_eq srcIp dstIp, hmatch]
        simpa using hcidr

theorem resolve_eq_some {account : LocalAccount} {name : String}
    (h : os.resolve name = some account) :
    os.getpwnam (Str.trim name) = some account ∧ account.username = Str.trim name := by
  unfold Accounts.resolve at h
  dsimp only at h
  split_ifs at h
  exact ⟨h, os.username_eq _ _ h⟩

theorem nonrootSafe_iff : NonrootSafe os ctx ↔ PlainRoot os ctx := by
  constructor
  · intro h hroot htrim
    obtain ⟨account, haccount⟩ := Option.isSome_iff_exists.mp hroot
    by_contra hne
    refine h [⟨.any, .any, .accept, [autogroupNonroot], false, none, false, none, 0⟩] (by simp)
      ⟨account.username, account, ⟨false, false, none⟩, .none⟩ ?_ (os.username_eq _ _ haccount)
    simp [authorizeManaged, evaluateSsh, sshRuleMatches, sshRuleMatchesAt,
      Selector.matchesEndpoint, sshUserAllowed, hne, Accounts.resolve, htrim, haccount]
  · intro hplain rules hrules session hok hname
    unfold authorizeManaged at hok
    split at hok
    · cases hok
    next rule hrule =>
      split at hok
      · cases hok
      dsimp only at hok
      split at hok
      · cases hok
      next account haccount =>
        obtain rfl := Except.ok.inj hok
        obtain ⟨haccount, htrim⟩ := resolve_eq_some haccount
        obtain ⟨i, hi⟩ := evaluateSsh_some hrule
        rw [← htrim, hname] at haccount
        have hroot := hplain (by rw [haccount]; rfl) (htrim.symm.trans hname)
        have hmatch := hi.holds
        unfold sshRuleMatches sshRuleMatchesAt at hmatch
        dsimp only at hmatch
        split_ifs at hmatch
        unfold sshUserAllowed at hmatch
        split_ifs at hmatch
        obtain ⟨u, hu, hallowed⟩ := List.any_eq_true.mp hmatch
        rw [hrules rule (List.mem_of_getElem? hi.get) u hu] at hallowed
        simp [hroot] at hallowed

/-- The first applicable rule decides and `autogroup:nonroot` keeps `root` out exactly if no rule
with a prefix would decide and `root` is not asked for with white space around its name. -/
theorem evaluateSsh_iff (os : Accounts) (rules : List SshPolicyRule) (ctx : SshEvalCtx)
    (srcIp dstIp : Ipv4Addr) :
    (Decides rules ctx srcIp dstIp (evaluateSsh rules ctx) ∧ NonrootSafe os ctx) ↔
      CidrCovered rules ctx srcIp dstIp ∧ PlainRoot os ctx :=
  and_congr decides_evaluateSsh_iff nonrootSafe_iff

end

namespace Demo

/-- Sessions from 10.7.0.0/16 are denied, the others may run as any account but `root`. -/
def sshRules : List SshPolicyRule :=
  [⟨.cidr (.v4 ⟨Ipv4Addr.new 10 7 0 0, 16, Ipv4Net.length_sixteen⟩), .any, .deny,
    [autogroupNonroot],
    false, none, false, none, 10⟩, ⟨.any, .any, .accept, [autogroupNonroot], false, none,
      false, none, 0⟩]

def sshCtx : SshEvalCtx := ⟨"aa", [], "prod", "bb", [], "prod", " root", []⟩

def accounts : Accounts where
  getpwnam name := if name = "root" then some ⟨name⟩ else none
  username_eq name account h := by
    split_ifs at h
    exact congrArg LocalAccount.username (Option.some.inj h).symm
  interactiveUsernames := []

/-- A session from 10.7.0.1 is accepted, and as ` root` it runs as `root`. -/
theorem padded_root_accepted :
    ¬Decides sshRules sshCtx (Ipv4Addr.new 10 7 0 1) (Ipv4Addr.new 10 8 0 1)
      (evaluateSsh sshRules sshCtx) ∧ ¬NonrootSafe accounts sshCtx := by
  constructor
  · rintro ⟨i, hi⟩
    have hle := (hi.least 0 _ rfl (by decide)).1
    revert hle
    decide
  · intro h
    exact h sshRules (by decide) ⟨"root", ⟨"root"⟩, ⟨false, false, none⟩, .none⟩ rfl rfl

end Demo

end Tunnet.Policy
