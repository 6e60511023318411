import Tunnet.Direct.Demo
import Tunnet.Direct.Firewall
import Mathlib.Data.List.Permutation

/-!
# Suggested firewall policies

`tunnet-core/src/direct/policy_docs.rs`: the coordinator signs a bundle of rules and publishes it as
JSON; the members read it and verify the signature. The signature is on the JSON text of the bundle,
and the rules of the hosts are in a hash map, which is written in the order it iterates in.
-/

namespace Tunnet.Direct

/-- `HashMap<String, Vec<FirewallRule>>`, with the order in which it iterates. -/
structure HostRules where
  entries : List (String × List FirewallRule)
  nodup : (entries.map Prod.fst).Nodup

structure PolicyBundleDoc where
  version : UInt64
  timestamp : Timestamp
  global : List FirewallRule
  byHostname : HostRules
  sig : String

structure PolicyBundleSignPayload where
  version : UInt64
  timestamp : Timestamp
  global : List FirewallRule
  /-- In the order they are written. -/
  byHostname : List (String × List FirewallRule)

/-- `serde_json`. Decoding inverts encoding, but the new hash map iterates in any order. -/
structure PolicyJson (Text : Type) where
  toVec : PolicyBundleSignPayload → List UInt8
  toString : PolicyBundleDoc → Text
  /-- The documents that reading a text may give. -/
  fromSlice : Text → Set PolicyBundleDoc
  fromSlice_toString : ∀ d, fromSlice (toString d) =
    { d' | ∃ m : HostRules, m.entries.Perm d.byHostname.entries ∧ d' = { d with byHostname := m } }

inductive PolicyError
  /-- `invalid policy signature hex` -/
  | hex
  /-- `policy signature must be 64 bytes` -/
  | length
  /-- `invalid policy bundle signature` -/
  | signature

section

variable {Text : Type} (J : PolicyJson Text) (ed : Ed25519) (sk vk : List UInt8)

def policyBundleSignPayload (bundle : PolicyBundleDoc) : List UInt8 :=
  J.toVec ⟨bundle.version, bundle.timestamp, bundle.global, bundle.byHostname.entries⟩

def signPolicyBundle (version : UInt64) (timestamp : Timestamp) (global : List FirewallRule)
    (byHostname : HostRules) : PolicyBundleDoc :=
  let bundle : PolicyBundleDoc := ⟨version, timestamp, global, byHostname, ""⟩
  let payload := policyBundleSignPayload J bundle
  { bundle with sig := Hex.encode (ed.sign sk payload) }

def verifyPolicyBundle (bundle : PolicyBundleDoc) : Except PolicyError Unit :=
  let payload := policyBundleSignPayload J bundle
  match Hex.decode (Str.trim bundle.sig) with
  | none => .error .hex
  | some sigBytes =>
    if sigBytes.length ≠ 64 then .error .length
    else if ed.verify vk payload sigBytes then .ok ()
    else .error .signature

variable (version : UInt64) (timestamp : Timestamp) (global : List FirewallRule)
  (byHostname : HostRules)

/-- Whatever order the maps iterate in, on the machine that signs the policy and on the one that
reads it, the policy verifies. -/
def Survives : Prop :=
  ∀ m : HostRules, m.entries.Perm byHostname.entries →
    ∀ d ∈ J.fromSlice (J.toString (signPolicyBundle J ed sk version timestamp global m)),
      verifyPolicyBundle J ed (ed.verifyingKey sk) d = .ok ()

/-- What is signed, for a map in some order. -/
def signedBytes (m : HostRules) : List UInt8 := J.toVec ⟨version, timestamp, global, m.entries⟩

variable {J ed sk version timestamp global byHostname}

theorem verifyPolicyBundle_reordered {m m' : HostRules} :
    verifyPolicyBundle J ed (ed.verifyingKey sk)
      { signPolicyBundle J ed sk version timestamp global m with byHostname := m' } = .ok () ↔
    ed.verify (ed.verifyingKey sk) (signedBytes J version timestamp global m')
      (ed.sign sk (signedBytes J version timestamp global m)) := by
  unfold verifyPolicyBundle signPolicyBundle
  rw [Hex.trim_encode, Hex.decode_encode]
  simp only [ed.length_sign, ne_eq, not_true_eq_false, if_false]
  split_ifs with h
  · exact iff_of_true rfl h
  · exact iff_of_false nofun h

/-- If the text shows the order of the entries and a signature verifies only the bytes that were
signed, a policy survives every order exactly if it has at most one entry. -/
theorem survives_iff
    (hjson : ∀ m m' : HostRules, m.entries.Perm byHostname.entries →
      m'.entries.Perm byHostname.entries → signedBytes J version timestamp global m =
        signedBytes J version timestamp global m' → m.entries = m'.entries)
    (hexact : ∀ m m' : HostRules, m.entries.Perm byHostname.entries →
      m'.entries.Perm byHostname.entries →
      ed.verify (ed.verifyingKey sk) (signedBytes J version timestamp global m')
        (ed.sign sk (signedBytes J version timestamp global m)) →
      signedBytes J version timestamp global m = signedBytes J version timestamp global m') :
    Survives J ed sk version timestamp global byHostname ↔ byHostname.entries.length ≤ 1 := by
  constructor
  · intro h
    obtain ⟨entries, hnodup⟩ := byHostname
    match entries with
    | [] | [_] => simp
    | a :: b :: rest =>
      -- the reader's map iterates over the second entry first
      have hswap : (b :: a :: rest).Perm (a :: b :: rest) := .swap a b rest
      let m' : HostRules := ⟨b :: a :: rest, (hswap.map Prod.fst).nodup_iff.mpr hnodup⟩
      have hok := h ⟨_, hnodup⟩ .rfl { signPolicyBundle .. with byHostname := m' }
        (by rw [J.fromSlice_toString]; exact ⟨m', hswap, rfl⟩)
      have heq := hjson _ m' .rfl hswap
        (hexact _ m' .rfl hswap (verifyPolicyBundle_reordered.mp hok))
      obtain ⟨rfl, -⟩ := List.cons.inj heq
      simp at hnodup
  · intro hlen m hm d hd
    rw [J.fromSlice_toString] at hd
    obtain ⟨m', hm', rfl⟩ := hd
    have heq : m'.entries = m.entries := by
      have hlen' := hm.length_eq.trans_le hlen
      match hentries : m.entries, hlen' with
      | [], _ | [a], _ => simpa [signPolicyBundle, hentries] using hm'
    rw [verifyPolicyBundle_reordered, signedBytes, heq]
    exact ed.verify_sign ..

end

namespace Demo

def json : PolicyJson PolicyBundleDoc where
  toVec p := p.byHostname.flatMap fun entry => Str.asBytes entry.1
  toString d := d
  fromSlice d :=
    { d' | ∃ m : HostRules, m.entries.Perm d.byHostname.entries ∧ d' = { d with byHostname := m } }
  fromSlice_toString _ := rfl

def twoHosts : HostRules := ⟨[("alpha", []), ("beta", [])], by decide⟩

/-- A policy for two hosts that is read into a map with the other order does not verify. -/
theorem reordered_rejected : ¬Survives json ed sk 1 0 [] twoHosts := by
  intro h
  have hok := h twoHosts .rfl { signPolicyBundle json ed sk 1 0 [] twoHosts with
    byHostname := ⟨[("beta", []), ("alpha", [])], by decide⟩ } ⟨_, .swap _ _ [], rfl⟩
  rw [verifyPolicyBundle_reordered] at hok
  revert hok
  decide

theorem survives_iff_twoHosts :
    Survives json ed sk 1 0 [] twoHosts ↔ twoHosts.entries.length ≤ 1 := by
  have horder {m : HostRules} (hm : m.entries.Perm twoHosts.entries) :
      m.entries = [("alpha", []), ("beta", [])] ∨ m.entries = [("beta", []), ("alpha", [])] := by
    simpa [twoHosts] using List.mem_permutations'.mpr hm
  refine survives_iff (fun m m' hm hm' => ?_) fun m m' hm hm' => ?_ <;>
    rcases horder hm with h | h <;> rcases horder hm' with h' | h' <;>
    rw [signedBytes, signedBytes, h, h'] <;> decide

end Demo

end Tunnet.Direct
