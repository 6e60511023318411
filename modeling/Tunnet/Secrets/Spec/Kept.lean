import Mathlib.Data.Countable.Basic
import Mathlib.Logic.Equiv.List
import Mathlib.Tactic.DeriveCountable
import Tunnet.Secrets.Spec.Save

/-!
# Credentials that are not lost

* `loadField_spec`: the tokens that `persist_agent` finds.
* `Kept`: the vault can be opened afterwards, and a call that returns `Ok` keeps the tokens.
-/

namespace Tunnet.Secrets

open Faulty

section

variable {lib : Libs} {p : Platform} {d : Disk} {m : SealMeta} {k : Key} {old : AgentSecrets}
  {α : Type}

/-! ### Tokens that are loaded -/

/-- The steps that look for the tokens. -/
def tokenSteps (os : Os) (tier : SealTier) : List IoStep := .exists :: loadSteps os tier

/-- What comes of looking for a part of the secrets. -/
structure FieldSpec {α : Type} (found missing : α) (f : Fate) (d : Disk)
    (result : Outcome String α × Disk) : Prop where
  disk : result.2 = d
  stopped : f = .stopped ↔ result.1 = .stopped
  done : f = .done → result.1 = .ok found
  failed : f = .failed → result.1.toOption = none ∨ result.1.toOption = some missing

theorem fieldSpec_of_reads {prog : Io α} {is : List IoStep} {a : α}
    (h : prog.Reads d is a) (missing : α) (fate : IoStep → Fate) :
    FieldSpec a missing (fateOf fate is) d (prog fate d) := by
  obtain ⟨e, he⟩ := h fate
  rw [he]
  cases fateOf fate is with
  | done => exact ⟨rfl, ⟨nofun, nofun⟩, fun _ => rfl, nofun⟩
  | failed => exact ⟨rfl, ⟨nofun, nofun⟩, nofun, fun _ => .inl rfl⟩
  | stopped => exact ⟨rfl, ⟨fun _ => rfl, fun _ => rfl⟩, nofun, nofun⟩

theorem Holds.secretsExist_eq (h : Holds lib p d m k old) (fate : IoStep → Fate) :
    (fate .exists = .done → secretsExist fate d = (.ok true, d)) ∧
    (fate .exists = .failed → secretsExist fate d = (.ok false, d)) ∧
    (fate .exists = .stopped → secretsExist fate d = (.stopped, d)) := by
  obtain ⟨blob, hblob, -⟩ := Option.bind_eq_some_iff.1 h.content
  refine ⟨fun hfate => ?_, fun hfate => ?_, fun hfate => ?_⟩ <;>
    simp [secretsExist, bind, Faulty.bind, attempt, query, hfate, hblob, Except.toBool]

theorem Holds.loadField_spec (h : Holds lib p d m k old) (field : AgentSecrets → α)
    (missing : α) (fate : IoStep → Fate) :
    FieldSpec (field old) missing (fateOf fate (tokenSteps p.os m.tier)) d
      (loadField lib p field missing fate d) := by
  obtain ⟨hdone, hfailed, hstopped⟩ := h.secretsExist_eq fate
  unfold loadField tokenSteps fateOf
  cases hexists : fate .exists with
  | done =>
    rw [bind_ok (hdone hexists)]
    exact fieldSpec_of_reads (h.loadSecrets_reads.map fun x => field x.1) missing fate
  | failed =>
    rw [bind_ok (hfailed hexists)]
    exact ⟨rfl, ⟨by simp, by simp⟩, by simp, fun _ => .inr rfl⟩
  | stopped =>
    rw [bind_stopped (hstopped hexists)]
    exact ⟨rfl, ⟨fun _ => rfl, fun _ => rfl⟩, by simp, by simp⟩

end

/-! ### Calls -/

/-- A call, with what becomes of its steps. -/
inductive VaultCall
  | save (secrets : AgentSecrets) (fate : IoStep → Fate)
  | persist (identity : Key) (state : PersistedState) (fate : PersistPhase × IoStep → Fate)

/-- The steps of one phase. -/
def phase (fate : PersistPhase × IoStep → Fate) (ph : PersistPhase) : IoStep → Fate :=
  fun i => fate (ph, i)

section

variable (lib : Libs) (p : Platform) (r : Draw) (allowEncrypt : Bool) (d : Disk)

namespace VaultCall

def result : VaultCall → Outcome String SealTier × Disk
  | save secrets fate => saveSecrets lib p r secrets allowEncrypt fate d
  | persist identity state fate => persistAgent lib p r identity state allowEncrypt fate d

/-- The new secrets. -/
def new : VaultCall → AgentSecrets
  | save secrets _ => secrets
  | persist identity state fate =>
    agentSecrets identity state (loadAuth lib p (phase fate .loadAuth) d).1.toOption
      (loadRelayAuth lib p (phase fate .loadRelayAuth) d).1.toOption

end VaultCall

/-- The credentials are kept: a later `load_secrets` gives the old secrets or the new ones, and
tokens are still there when `persist_agent` returned `Ok`. -/
structure Kept (old : AgentSecrets) (call : VaultCall) : Prop where
  survives : ∃ s, Loads lib p (call.result lib p r allowEncrypt d).2 s ∧
    (s = old ∨ s = call.new lib p d)
  tokens : ∀ identity state fate, call = .persist identity state fate →
    ∀ tier, (call.result lib p r allowEncrypt d).1 = .ok tier →
      ∃ s, Loads lib p (call.result lib p r allowEncrypt d).2 s ∧
        s.auth = old.auth ∧ s.relayAuth = old.relayAuth

end

/-- `persist_agent` gets to the vault. -/
def Reaches (os : Os) (tier₀ : SealTier) (fate : PersistPhase × IoStep → Fate) : Prop :=
  fateOf (phase fate .loadAuth) (tokenSteps os tier₀) ≠ .stopped ∧
    fateOf (phase fate .loadRelayAuth) (tokenSteps os tier₀) ≠ .stopped ∧
    ∀ i ∈ [IoStep.ensure, .writeState], phase fate .savePublic i = .done

/-- The calls that are not cut where it hurts, and whose tokens can be read if there are any. -/
def Careful (p : Platform) (r : Draw) (allowEncrypt : Bool) (old : AgentSecrets) (tier₀ : SealTier)
    (k₀ : Key) : VaultCall → Prop
  | .save _ fate => Intact p r fate tier₀ (pickTier p allowEncrypt) k₀
  | .persist _ _ fate => Reaches p.os tier₀ fate →
    Intact p r (phase fate .saveSecrets) tier₀ (pickTier p allowEncrypt) k₀ ∧
    (Writes p r (phase fate .saveSecrets) (pickTier p allowEncrypt) →
      phase fate .saveSecrets .writeMeta = .done →
      (fateOf (phase fate .loadAuth) (tokenSteps p.os tier₀) = .done ∨ old.auth = none) ∧
      (fateOf (phase fate .loadRelayAuth) (tokenSteps p.os tier₀) = .done ∨ old.relayAuth = ∅))

/-! ### `persist_agent` -/

section

variable {lib : Libs} {p : Platform} {d : Disk} {m : SealMeta} {k : Key}
  {old s s' new : AgentSecrets} {α : Type}

variable {fate : PersistPhase × IoStep → Fate} {found missing : α} {f : Fate}

theorem FieldSpec.attempt (ph : PersistPhase)
    (prog : Io α) (h : FieldSpec found missing f d (prog (phase fate ph) d)) :
    (f = .stopped → rename (ph, ·) (attempt prog) fate d = (.stopped, d)) ∧
      (f ≠ .stopped → ∃ x, rename (ph, ·) (attempt prog) fate d = (.ok x, d) ∧
        x.toOption = (prog (phase fate ph) d).1.toOption) := by
  constructor
  · intro hf
    exact attempt_stopped (Prod.ext (h.stopped.1 hf) h.disk)
  · intro hf
    obtain ⟨x, hx, htoOption⟩ := attempt_of_ne_stopped (mt h.stopped.2 hf)
    rw [h.disk] at hx
    exact ⟨x, hx, htoOption⟩

theorem savePublic_spec (state : PersistedState) (fate : PersistPhase × IoStep → Fate) (d : Disk) :
    ((∀ i ∈ [IoStep.ensure, .writeState], phase fate .savePublic i = .done) →
      rename (PersistPhase.savePublic, ·) state.savePublic fate d =
        (.ok (), { d with stateFile := some state.json })) ∧
    ((¬ ∀ i ∈ [IoStep.ensure, .writeState], phase fate .savePublic i = .done) →
      ∃ o, rename (PersistPhase.savePublic, ·) state.savePublic fate d = (o, d) ∧
        ∀ u, o ≠ .ok u) := by
  simp only [List.forall_mem_cons, List.not_mem_nil, false_implies, implies_true, and_true]
  change _ ∧ (_ → ∃ o, state.savePublic (phase fate .savePublic) d = (o, d) ∧ ∀ u, o ≠ .ok u)
  change (_ → state.savePublic (phase fate .savePublic) d = _) ∧ _
  unfold PersistedState.savePublic ensure
  constructor
  · rintro ⟨hensure, hwrite⟩
    rw [bind_ok (act_done hensure), act_done hwrite]
    rfl
  · intro hnot
    by_cases hensure : phase fate .savePublic .ensure = .done
    · rw [bind_ok (act_done hensure)]
      exact act_not_done fun hwrite => hnot ⟨hensure, hwrite⟩
    · obtain ⟨o, ho, hne⟩ := act_not_done hensure
      exact bind_not_ok ho hne

/-- `persist_agent` saves the new secrets, or leaves the disk as it was. -/
theorem Holds.persistAgent_spec (h : Holds lib p d m k old) (r : Draw) (identity : Key)
    (state : PersistedState) (allowEncrypt : Bool) (fate : PersistPhase × IoStep → Fate) :
    (Reaches p.os m.tier fate → persistAgent lib p r identity state allowEncrypt fate d =
      saveSecrets lib p r (VaultCall.new lib p d (.persist identity state fate)) allowEncrypt
        (phase fate .saveSecrets) { d with stateFile := some state.json }) ∧
    (¬ Reaches p.os m.tier fate →
      (persistAgent lib p r identity state allowEncrypt fate d).2 = d ∧
        ∀ t, (persistAgent lib p r identity state allowEncrypt fate d).1 ≠ .ok t) := by
  have hauth := FieldSpec.attempt .loadAuth (loadAuth lib p)
    (h.loadField_spec (·.auth) none (phase fate .loadAuth))
  have hrelay := FieldSpec.attempt .loadRelayAuth (loadRelayAuth lib p)
    (h.loadField_spec (·.relayAuth) ∅ (phase fate .loadRelayAuth))
  obtain ⟨hpublic, hpublicNot⟩ := savePublic_spec state fate d
  unfold persistAgent
  constructor
  · rintro ⟨hne, hne', hdone⟩
    obtain ⟨x, hx, hxOption⟩ := hauth.2 hne
    obtain ⟨y, hy, hyOption⟩ := hrelay.2 hne'
    rw [bind_ok hx, bind_ok hy, bind_ok (hpublic hdone), hxOption, hyOption]
    rfl
  · intro hnot
    by_cases hstop : fateOf (phase fate .loadAuth) (tokenSteps p.os m.tier) = .stopped
    · rw [bind_stopped (hauth.1 hstop)]
      exact ⟨rfl, nofun⟩
    obtain ⟨x, hx, -⟩ := hauth.2 hstop
    rw [bind_ok hx]
    by_cases hstop' : fateOf (phase fate .loadRelayAuth) (tokenSteps p.os m.tier) = .stopped
    · rw [bind_stopped (hrelay.1 hstop')]
      exact ⟨rfl, nofun⟩
    obtain ⟨y, hy, -⟩ := hrelay.2 hstop'
    obtain ⟨o, ho, hne⟩ := hpublicNot fun hdone => hnot ⟨hstop, hstop', hdone⟩
    obtain ⟨o', heq, hne'⟩ := bind_not_ok ho hne
    rw [bind_ok hy, heq]
    exact ⟨rfl, hne'⟩

theorem FieldSpec.getD_eq
    {result : Outcome String α × Disk} (h : FieldSpec found missing f d result)
    (hf : f ≠ .stopped) : result.1.toOption.getD missing = found ↔ f = .done ∨ found = missing := by
  cases f with
  | done =>
    rw [h.done rfl]
    exact ⟨fun _ => .inl rfl, fun _ => rfl⟩
  | failed =>
    have hmissing : result.1.toOption.getD missing = missing := by
      rcases h.failed rfl with hnone | hsome
      · rw [hnone]
        rfl
      · rw [hsome]
        rfl
    rw [hmissing]
    exact ⟨fun heq => .inr heq.symm, fun heq => (heq.resolve_left nofun).symm⟩
  | stopped => exact absurd rfl hf

theorem Holds.new_tokens (h : Holds lib p d m k old) (identity : Key) (state : PersistedState)
    (hreaches : Reaches p.os m.tier fate) :
    ((VaultCall.new lib p d (.persist identity state fate)).auth = old.auth ∧
      (VaultCall.new lib p d (.persist identity state fate)).relayAuth = old.relayAuth) ↔
    ((fateOf (phase fate .loadAuth) (tokenSteps p.os m.tier) = .done ∨ old.auth = none) ∧
      (fateOf (phase fate .loadRelayAuth) (tokenSteps p.os m.tier) = .done ∨
        old.relayAuth = ∅)) := by
  have hauth := (h.loadField_spec (·.auth) none (phase fate .loadAuth)).getD_eq hreaches.1
  have hrelay := (h.loadField_spec (·.relayAuth) ∅ (phase fate .loadRelayAuth)).getD_eq hreaches.2.1
  have hjoin (x : Option (Option CliAuthTokens)) : x.join = x.getD none := by
    cases x <;> rfl
  rw [← hauth, ← hrelay, ← hjoin]
  rfl

theorem Loads.unique (h : Loads lib p d s) (h' : Loads lib p d s') : s = s' := by
  obtain ⟨tier, h⟩ := h
  obtain ⟨tier', h'⟩ := h'
  rw [h] at h'
  exact (Prod.mk.inj (Outcome.ok.inj h')).1

theorem SaveSpec.ok_iff {r : Draw} {tier : SealTier} {fate : IoStep → Fate}
    {result : Outcome String SealTier × Disk} (h : SaveSpec lib p r new tier fate d result)
    (P : AgentSecrets → Prop) : (∀ t, result.1 = .ok t → ∃ s, Loads lib p result.2 s ∧ P s) ↔
      (Writes p r fate tier → fate .writeMeta = .done → P new) := by
  by_cases hwrites : Writes p r fate tier
  · by_cases hlast : fate .writeMeta = .done
    · obtain ⟨hok, m, hholds⟩ := h.whole hwrites hlast
      have hloads : Loads lib p result.2 new := loads_iff.2 ⟨m, _, hholds⟩
      constructor
      · intro hP _ _
        obtain ⟨s, hs, hPs⟩ := hP tier hok
        rwa [hloads.unique hs]
      · exact fun hP _ _ => ⟨new, hloads, hP hwrites hlast⟩
    · exact ⟨fun _ _ h' => absurd h' hlast, fun _ t ht => absurd ht ((h.half hwrites hlast).2 t)⟩
  · exact ⟨fun _ h' => absurd h' hwrites, fun _ t ht => absurd ht ((h.unwritten hwrites).2 t)⟩

theorem kept_save_iff (h : Holds lib p d m k old) (r : Draw) (allowEncrypt : Bool)
    (secrets : AgentSecrets) (fate : IoStep → Fate) :
    Kept lib p r allowEncrypt d old (.save secrets fate) ↔
      Careful p r allowEncrypt old m.tier k (.save secrets fate) := by
  constructor
  · intro hkept
    exact (survives_save_iff h).1 hkept.survives
  · intro hintact
    exact ⟨(survives_save_iff h).2 hintact, nofun⟩

theorem kept_persist_iff (h : Holds lib p d m k old) (r : Draw) (allowEncrypt : Bool)
    (identity : Key) (state : PersistedState) (fate : PersistPhase × IoStep → Fate) :
    Kept lib p r allowEncrypt d old (.persist identity state fate) ↔
      Careful p r allowEncrypt old m.tier k (.persist identity state fate) := by
  obtain ⟨hsave, hnone⟩ := h.persistAgent_spec r identity state allowEncrypt fate
  by_cases hreaches : Reaches p.os m.tier fate
  · have hresult := hsave hreaches
    have h' : Holds lib p { d with stateFile := some state.json } m k old :=
      ⟨h.metaFile, h.valid, h.key, h.content⟩
    have hspec := saveSecrets_spec lib p r (VaultCall.new lib p d (.persist identity state fate))
      allowEncrypt (phase fate .saveSecrets) { d with stateFile := some state.json }
    have htokens := hspec.ok_iff fun s => s.auth = old.auth ∧ s.relayAuth = old.relayAuth
    rw [h.new_tokens identity state hreaches, ← hresult] at htokens
    have hsurvives : (∃ s, Loads lib p
        (persistAgent lib p r identity state allowEncrypt fate d).2 s ∧
          (s = old ∨ s = VaultCall.new lib p d (.persist identity state fate))) ↔
        Intact p r (phase fate .saveSecrets) m.tier (pickTier p allowEncrypt) k := by
      rw [hresult]
      exact survives_save_iff h'
    constructor
    · rintro ⟨hs, ht⟩ -
      exact ⟨hsurvives.1 hs, htokens.1 (ht identity state fate rfl)⟩
    · intro hcareful
      obtain ⟨hintact, ht⟩ := hcareful hreaches
      exact ⟨hsurvives.2 hintact, fun _ _ _ _ => htokens.2 ht⟩
  · obtain ⟨hdisk, hne⟩ := hnone hreaches
    refine ⟨fun _ hr => absurd hr hreaches, fun _ => ⟨?_, fun _ _ _ _ t ht => absurd ht (hne t)⟩⟩
    refine ⟨old, ?_, .inl rfl⟩
    change Loads lib p (persistAgent lib p r identity state allowEncrypt fate d).2 old
    rw [hdisk]
    exact loads_iff.2 ⟨m, k, h⟩

/-- Exactly the careful calls keep the credentials. -/
theorem vault_keeps_credentials (h : Holds lib p d m k old) (r : Draw) (allowEncrypt : Bool)
    (call : VaultCall) :
    Kept lib p r allowEncrypt d old call ↔ Careful p r allowEncrypt old m.tier k call := by
  cases call with
  | save secrets fate => exact kept_save_iff h r allowEncrypt secrets fate
  | persist identity state fate => exact kept_persist_iff h r allowEncrypt identity state fate

end

/-! ### A save that is cut, and tokens that are not read -/

namespace Demo

/-! #### Libraries in which every payload has a number -/

instance instCountableString : Countable String := by
  have hchar : Countable Char := by
    refine Function.Injective.countable (f := Char.toNat) fun c c' h => ?_
    exact Char.ext (UInt32.toNat_inj.1 h)
  refine Function.Injective.countable (f := String.toList) fun s s' h => ?_
  exact String.toList_inj.1 h

instance : Countable Uuid :=
  Function.Injective.countable (f := BitVec.toNat) BitVec.toNat_injective

instance {K V : Type} [Countable K] [Countable V] : Countable (Map K V) := by
  have hmultiset : Countable (Multiset (Σ _ : K, V)) :=
    inferInstanceAs (Countable (Quotient (List.isSetoid _)))
  exact Function.Injective.countable (f := Finmap.entries) fun _ _ => Finmap.ext

deriving instance Countable for NetworkSecrets, CliAuthTokens, SensitivePayload, SealTier, SealMeta

theorem countable_payload : Countable SensitivePayload := inferInstance

theorem countable_meta : Countable SealMeta := inferInstance

/-- A text for each value. -/
noncomputable def number {α : Type} (h : Countable α) (a : α) : Bytes :=
  List.replicate (h.exists_injective_nat.choose a) 0

variable {α : Type}

theorem number_injective (h : Countable α) : Function.Injective (number h) := by
  intro a b hab
  have hlength := congrArg List.length hab
  rw [number, number, List.length_replicate, List.length_replicate] at hlength
  exact h.exists_injective_nat.choose_spec hlength

theorem partialInv_number (h : Countable α) (a : α) :
    Function.partialInv (number h) (number h a) = some a :=
  ((number_injective h).isPartialInv a _).2 rfl

/-- The key stands in front of what it encrypts. -/
noncomputable def libs : Libs where
  encrypt k _ b := k.1 ++ b
  decrypt k _ c := if c.take 32 = k.1 then some (c.drop 32) else none
  decrypt_encrypt k _ b := by
    rw [List.take_left' k.2, List.drop_left' k.2, if_pos rfl]
  key_unique k k' _ c hk hk' := by
    have hkey : c.take 32 = k.1 := by
      by_contra hne
      exact hk (if_neg hne)
    have hkey' : c.take 32 = k'.1 := by
      by_contra hne
      exact hk' (if_neg hne)
    exact Subtype.ext (hkey.symm.trans hkey')
  le_length_encrypt k _ b := by
    rw [List.length_append, k.2]
    omega
  hkdf _ _ := ⟨List.replicate 32 0, List.length_replicate⟩
  payloadToVec := number countable_payload
  payloadFromSlice := Function.partialInv (number countable_payload)
  payloadFromSlice_toVec := partialInv_number countable_payload
  metaToVec := number countable_meta
  metaFromSlice := Function.partialInv (number countable_meta)
  metaFromSlice_toVec := partialInv_number countable_meta

/-! #### A vault on Linux -/

def key (b : UInt8) : Key := ⟨List.replicate 32 b, List.length_replicate⟩

def nonce : Nonce := ⟨List.replicate 12 0, List.length_replicate⟩

/-- What is drawn for the key `b`. -/
def draw (b : UInt8) : Draw := ⟨key b, nonce, [b], nonce, 0⟩

def noSealer : Sealer := ⟨fun _ _ => none, fun _ => none, nofun⟩

def linux : Platform := ⟨.linux, some "machine", none, noSealer⟩

def tokens : CliAuthTokens := ⟨"https://management", "access", none, "Bearer", none, none, 0⟩

def stored : AgentSecrets := ⟨key 7, ∅, some tokens, ∅⟩

/-- The disk after a first save. -/
noncomputable def disk : Disk :=
  (saveSecrets libs linux (draw 1) stored true (fun _ => .done) {}).2

theorem holds_disk : ∃ m, Holds libs linux disk m (key 1) stored := by
  have hspec := saveSecrets_spec libs linux (draw 1) stored true (fun _ => .done) {}
  have hwrites : Writes linux (draw 1) (fun _ => .done) (pickTier linux true) :=
    ⟨rfl, ⟨⟨"machine", rfl⟩, fun _ _ => rfl⟩, rfl⟩
  exact (hspec.whole hwrites rfl).2

/-- Everything is done but the meta file. -/
def cut : IoStep → Fate := fun i => if i = .writeMeta then .stopped else .done

/-- The meta file cannot be read when the tokens are loaded. -/
def unreadable : PersistPhase × IoStep → Fate :=
  fun i => if i = (.loadAuth, .readMeta) then .failed else .done

/-- The machine stops between the two files: the secrets are lost. A read error: the tokens are. -/
theorem vault_loses_credentials : ∃ m, Holds libs linux disk m (key 1) stored ∧
    ¬ Kept libs linux (draw 2) true disk stored (.save stored cut) ∧
    ¬ Kept libs linux (draw 2) true disk stored (.persist (key 7) (.managed []) unreadable) := by
  obtain ⟨m, hholds⟩ := holds_disk
  have hne : (draw 2).dek ≠ key 1 := by decide
  refine ⟨m, hholds, ?_, ?_⟩
  · intro hkept
    have hintact := (kept_save_iff hholds _ _ _ _).1 hkept
    rw [Careful, Intact, if_neg fun h => (nomatch h.2)] at hintact
    have hwrites : Writes linux (draw 2) cut (pickTier linux true) :=
      ⟨rfl, ⟨⟨"machine", rfl⟩, by decide⟩, rfl⟩
    rcases hintact hwrites with hdone | heq
    · exact nomatch hdone
    · exact hne heq
  · intro hkept
    have hcareful := (kept_persist_iff hholds _ _ _ _ _).1 hkept
    have hrelay : fateOf (phase unreadable .loadRelayAuth) (tokenSteps linux.os m.tier) = .done :=
      fateOf_eq_done.2 fun i _ => by simp [phase, unreadable]
    have hreaches : Reaches linux.os m.tier unreadable := by
      refine ⟨nofun, ?_, by decide⟩
      rw [hrelay]
      exact nofun
    have hwrites : Writes linux (draw 2) (phase unreadable .saveSecrets) (pickTier linux true) :=
      ⟨rfl, ⟨⟨"machine", rfl⟩, by decide⟩, rfl⟩
    rcases ((hcareful hreaches).2 hwrites rfl).1 with hdone | hnone
    · exact nomatch hdone
    · exact nomatch hnone

/-- The machine stops before the new secrets are written: the old ones are kept. And where there are
no tokens of relays, those cannot be read: the others are kept under the new key. -/
theorem vault_keeps_credentials_cut : ∃ m, Holds libs linux disk m (key 1) stored ∧
    Kept libs linux (draw 2) true disk stored (.persist (key 7) (.managed [])
      fun i => if i = (.saveSecrets, .writeSecrets) then .stopped else .done) ∧
    Kept libs linux (draw 2) true disk stored (.persist (key 7) (.managed [])
      fun i => if i = (.loadRelayAuth, .readMeta) then .failed else .done) := by
  obtain ⟨m, hholds⟩ := holds_disk
  refine ⟨m, hholds, (vault_keeps_credentials hholds (draw 2) true _).2 fun _ => ⟨?_, ?_⟩,
    (vault_keeps_credentials hholds (draw 2) true _).2 fun _ => ⟨?_, ?_⟩⟩
  · rw [Intact, if_neg fun h => (nomatch h.2)]
    exact fun hwrites => nomatch hwrites.2.2
  · exact fun hwrites => nomatch hwrites.2.2
  · rw [Intact, if_neg fun h => (nomatch h.2)]
    exact fun _ => .inl rfl
  · exact fun _ _ => ⟨.inl (fateOf_eq_done.2 fun _ _ => rfl), .inr rfl⟩

end Demo

end Tunnet.Secrets
