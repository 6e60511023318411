import Tunnet.Secrets.Spec.Vault

/-!
# What a save leaves behind

A save wraps a new key, which may replace the entry of the keychain, and then writes `state.enc` and
the meta file. It can fail or be stopped at each of these steps.

* `dekMeta_spec`: what wrapping the key comes to, for each tier.
* `saveSecrets_spec`: the states that a save may leave.
* `survives_save_iff`: when the vault can be opened after it.
-/

namespace Tunnet.Secrets

open Faulty Option

section

variable {lib : Libs} {p : Platform} {r : Draw} {fate : IoStep → Fate} {tier : SealTier} {d : Disk}
  {m : SealMeta} {k k₀ : Key} {s new : AgentSecrets} {allowEncrypt : Bool} {prog : Io SealMeta}

/-! ### The key -/

variable (p r fate)

/-- The new key can be wrapped, and the steps that do it are done. It does not matter whether an old
entry of the keychain could be deleted. -/
def Wraps : SealTier → Prop
  | .plaintext => True
  | .derived => (∃ id, machineIdOf p = some id) ∧ ∀ i ∈ machineSteps p.os, fate i = .done
  | .keystore => (∃ sealer w, p.sealer = some sealer ∧ sealer.wrap r.seed r.dek.1 = some w) ∧
      fate .sealer = .done
  | .keychain => p.os = .macos ∧ fate .keychainDelete ≠ .stopped ∧ fate .keychainSet = .done
  | .tpm => p.os = .windows ∧ (∃ w, p.dpapi.wrap r.seed r.dek.1 = some w) ∧ fate .dpapi = .done

/-- The entry of the keychain after the steps that replace it. -/
def keychainAfter (tier : SealTier) (keychain : Option Bytes) : Option Bytes :=
  if tier = .keychain ∧ p.os = .macos then
    match fate .keychainDelete, fate .keychainSet with
    | .stopped, _ => keychain
    | _, .done => some r.dek.1
    | .done, _ => none
    | .failed, _ => keychain
  else keychain

variable {p r fate}

/-- What comes of wrapping the key: a meta file that leads to it, or nothing. -/
structure Wrapped (lib : Libs) (p : Platform) (r : Draw) (tier : SealTier) (d' : Disk)
    (m : SealMeta) : Prop where
  version : m.version = metaVersion
  tier_eq : m.tier = tier
  key : keyFor lib p m d'.keychain = some r.dek

theorem unwrapDek_wrapDek (wrapKey : Key) (nonce : Nonce) (dek : Key) :
    unwrapDek lib wrapKey (wrapDek lib wrapKey nonce dek) = .ok dek := by
  have hsplit := splitNonce_joinNonce nonce (lib.le_length_encrypt wrapKey nonce dek.1)
  simp [unwrapDek, wrapDek, hsplit, lib.decrypt_encrypt, toKey_val]

theorem keychainAfter_of_ne (h : tier ≠ .keychain) (keychain : Option Bytes) :
    keychainAfter p r fate tier keychain = keychain :=
  if_neg fun h' => h h'.1

/-- What wrapping the key comes to. -/
def WrapSpec (lib : Libs) (p : Platform) (r : Draw) (fate : IoStep → Fate) (tier : SealTier)
    (d : Disk) (result : Outcome String SealMeta × Disk) : Prop :=
  result.2 = { d with keychain := keychainAfter p r fate tier d.keychain } ∧
    ((Wraps p r fate tier ∧ ∃ m, result.1 = .ok m ∧ Wrapped lib p r tier result.2 m) ∨
      (¬ Wraps p r fate tier ∧ ∀ m, result.1 ≠ .ok m))

theorem wrapSpec_of_reads {is : List IoStep} (htier : tier ≠ .keychain)
    (hreads : prog.Reads d is m) (hwraps : Wraps p r fate tier ↔ ∀ i ∈ is, fate i = .done)
    (hwrapped : Wrapped lib p r tier d m) : WrapSpec lib p r fate tier d (prog fate d) := by
  unfold WrapSpec
  rw [keychainAfter_of_ne htier, hwraps]
  rcases hreads.cases fate with ⟨hdone, heq⟩ | ⟨hnot, o, heq, ho⟩
  · rw [heq]
    exact ⟨rfl, .inl ⟨hdone, m, rfl, hwrapped⟩⟩
  · rw [heq]
    exact ⟨rfl, .inr ⟨hnot, ho⟩⟩

theorem wrapSpec_of_fails (htier : tier ≠ .keychain) (hfails : prog.Fails d)
    (hwraps : ¬ Wraps p r fate tier) : WrapSpec lib p r fate tier d (prog fate d) := by
  unfold WrapSpec
  rw [keychainAfter_of_ne htier]
  obtain ⟨o, heq, ho⟩ := hfails fate
  rw [heq]
  exact ⟨rfl, .inr ⟨hwraps, ho⟩⟩

theorem readMachineId_fails (h : machineIdOf p = none) : (readMachineId p).Fails d := by
  unfold machineIdOf at h
  unfold readMachineId
  cases hos : p.os with
  | android => exact fails_raise _
  | other => simp [hos] at h
  | linux | macos | windows =>
    rw [hos] at h
    exact fails_query h

variable (lib p r fate tier d)

theorem dekMeta_derived : WrapSpec lib p r fate .derived d (dekMeta lib p r .derived fate d) := by
  cases hid : machineIdOf p with
  | none =>
    refine wrapSpec_of_fails nofun (Fails.bind (readMachineId_fails hid).bind) ?_
    rintro ⟨⟨id, hid'⟩, -⟩
    rw [hid] at hid'
    exact nomatch hid'
  | some id =>
    refine wrapSpec_of_reads nofun ((deriveWrapKey_reads hid r.salt).map _) ?_ ⟨rfl, rfl, ?_⟩
    · exact ⟨fun h => h.2, fun h => ⟨⟨id, hid⟩, h⟩⟩
    · simp [keyFor, SealMeta.ofTier, hexOf, Hex.decode_encode, hid, unwrapDek_wrapDek,
        Check.toOption_eq_some]

theorem dekMeta_keystore : WrapSpec lib p r fate .keystore d
    (dekMeta lib p r .keystore fate d) := by
  by_cases hwrap : ∃ sealer w, p.sealer = some sealer ∧ sealer.wrap r.seed r.dek.1 = some w
  · obtain ⟨sealer, w, hsealer, hw⟩ := hwrap
    have hreads : (wrapWithPlatform p r.seed r.dek).Reads d [.sealer] w := by
      unfold wrapWithPlatform
      rw [hsealer]
      exact reads_query hw
    refine wrapSpec_of_reads nofun (hreads.map _) ?_ ⟨rfl, rfl, ?_⟩
    · simp [Wraps, hsealer, hw]
    · simp [keyFor, SealMeta.ofTier, hexOf, Hex.decode_encode, hsealer, sealer.unwrap_wrap _ _ _ hw,
        toKey_val]
  · have hfails : (wrapWithPlatform p r.seed r.dek).Fails d := by
      unfold wrapWithPlatform
      cases hsealer : p.sealer with
      | none => exact fails_raise _
      | some sealer =>
        refine fails_query (eq_none_iff_forall_ne_some.2 fun w hw => ?_)
        exact hwrap ⟨sealer, w, hsealer, hw⟩
    exact wrapSpec_of_fails nofun hfails.bind fun h => hwrap h.1

theorem dekMeta_tpm : WrapSpec lib p r fate .tpm d (dekMeta lib p r .tpm fate d) := by
  by_cases hwrap : p.os = .windows ∧ ∃ w, p.dpapi.wrap r.seed r.dek.1 = some w
  · obtain ⟨hos, w, hw⟩ := hwrap
    have hreads : (wrapDekTpm p r.seed r.dek).Reads d [.dpapi] w := by
      unfold wrapDekTpm
      rw [if_pos hos]
      exact reads_query hw
    refine wrapSpec_of_reads nofun (hreads.map _) ?_ ⟨rfl, rfl, ?_⟩
    · simp [Wraps, hos, hw]
    · simp [keyFor, SealMeta.ofTier, hexOf, Hex.decode_encode, hos, p.dpapi.unwrap_wrap _ _ _ hw,
        toKey_val]
  · have hfails : (wrapDekTpm p r.seed r.dek).Fails d := by
      unfold wrapDekTpm
      split_ifs with hos
      · refine fails_query (eq_none_iff_forall_ne_some.2 fun w hw => ?_)
        exact hwrap ⟨hos, w, hw⟩
      · exact fails_raise _
    exact wrapSpec_of_fails nofun hfails.bind fun h => hwrap ⟨h.1, h.2.1⟩

theorem storeDekKeychain_spec : (storeDekKeychain p r.dek fate d).2 =
        { d with keychain := keychainAfter p r fate .keychain d.keychain } ∧
      ((Wraps p r fate .keychain ∧ (storeDekKeychain p r.dek fate d).1 = .ok ()) ∨
        (¬ Wraps p r fate .keychain ∧ ∀ u, (storeDekKeychain p r.dek fate d).1 ≠ .ok u)) := by
  by_cases hos : p.os = .macos
  · rw [storeDekKeychain]
    cases hdelete : fate .keychainDelete <;> cases hset : fate .keychainSet <;>
      simp [bind, Faulty.bind, attempt, act, hdelete, hset, hos, keychainAfter, Wraps]
  · simp [storeDekKeychain, hos, keychainAfter, Wraps]

theorem dekMeta_keychain : WrapSpec lib p r fate .keychain d
    (dekMeta lib p r .keychain fate d) := by
  obtain ⟨hdisk, hresult⟩ := storeDekKeychain_spec p r fate d
  rcases hstore : storeDekKeychain p r.dek fate d with ⟨o, d'⟩
  rw [hstore] at hdisk hresult
  obtain rfl : d' = _ := hdisk
  rcases hresult with ⟨hwraps, rfl⟩ | ⟨hwraps, hne⟩
  · have hkeychain : keychainAfter p r fate .keychain d.keychain = some r.dek.1 := by
      obtain ⟨hos, hdelete, hset⟩ := hwraps
      cases hfate : fate .keychainDelete <;> simp_all [keychainAfter]
    rw [dekMeta, bind_ok hstore]
    refine ⟨rfl, .inl ⟨hwraps, _, rfl, rfl, rfl, ?_⟩⟩
    simp [keyFor, SealMeta.ofTier, hkeychain, hwraps.1, toKey_val]
  · obtain ⟨o', heq, hne'⟩ := bind_not_ok hstore hne
    rw [dekMeta, heq]
    exact ⟨rfl, .inr ⟨hwraps, hne'⟩⟩

/-- Wrapping the key leaves a meta file that leads to it, or changed nothing but the keychain. -/
theorem dekMeta_spec : WrapSpec lib p r fate tier d (dekMeta lib p r tier fate d) := by
  cases tier with
  | plaintext =>
    refine wrapSpec_of_reads (nofun) (reads_pure _) ?_ ⟨rfl, rfl, ?_⟩
    · simp [Wraps]
    · simp [keyFor, SealMeta.ofTier, hexOf, Hex.decode_encode, toKey_val]
  | derived => exact dekMeta_derived lib p r fate d
  | keystore => exact dekMeta_keystore lib p r fate d
  | keychain => exact dekMeta_keychain lib p r fate d
  | tpm => exact dekMeta_tpm lib p r fate d

variable {lib p r fate tier d}

/-! ### The files -/

variable (p r fate tier)

/-- The save comes to write `state.enc`. -/
def Writes : Prop :=
  fate .ensure = .done ∧ Wraps p r fate tier ∧ fate .writeSecrets = .done

/-- The disk as wrapping the key leaves it. -/
def wrapLeft (d : Disk) : Disk :=
  if fate .ensure = .done then { d with keychain := keychainAfter p r fate tier d.keychain } else d

variable {p r fate tier}

theorem validateMeta_pickTier (hversion : m.version = metaVersion)
    (htier : m.tier = pickTier p allowEncrypt) : validateMeta p m = .ok () := by
  have hderived : ¬ (p.os = .android ∧ m.tier = .derived) := by
    rintro ⟨hos, hderived⟩
    rw [htier, pickTier, hos] at hderived
    cases allowEncrypt <;> exact nomatch hderived
  simp [validateMeta, hversion, hderived]

/-- What a save leaves: the files as they were, a new `state.enc` with the old meta file, or a vault
that holds the new secrets. -/
structure SaveSpec (lib : Libs) (p : Platform) (r : Draw) (new : AgentSecrets) (tier : SealTier)
    (fate : IoStep → Fate) (d : Disk) (result : Outcome String SealTier × Disk) : Prop where
  unwritten : ¬ Writes p r fate tier →
    result.2 = wrapLeft p r fate tier d ∧ ∀ t, result.1 ≠ .ok t
  half : Writes p r fate tier → fate .writeMeta ≠ .done →
    result.2 = { wrapLeft p r fate tier d with secretsFile := some (sealed lib r new) } ∧
      ∀ t, result.1 ≠ .ok t
  whole : Writes p r fate tier → fate .writeMeta = .done →
    result.1 = .ok tier ∧ ∃ m, Holds lib p result.2 m r.dek new

theorem Wrapped.holds (h : Wrapped lib p r (pickTier p allowEncrypt) d m) : Holds lib p { d with
      secretsFile := some (sealed lib r new), secretsMetaFile := some (lib.metaToVec m) }
      m r.dek new where
  metaFile := lib.metaFromSlice_toVec m
  valid := validateMeta_pickTier h.version h.tier_eq
  key := h.key
  content := contents_sealed r new

variable (lib p r new allowEncrypt)

theorem sealSecrets_spec (hensure : fate .ensure = .done) (d : Disk) :
    SaveSpec lib p r new (pickTier p allowEncrypt) fate d
      (sealSecrets lib p r new (pickTier p allowEncrypt) fate d) := by
  have hleft : wrapLeft p r fate (pickTier p allowEncrypt) d =
      { d with keychain := keychainAfter p r fate (pickTier p allowEncrypt) d.keychain } :=
    if_pos hensure
  obtain ⟨hdisk, hwrap⟩ := dekMeta_spec lib p r fate (pickTier p allowEncrypt) d
  rcases hmeta : dekMeta lib p r (pickTier p allowEncrypt) fate d with ⟨o, d'⟩
  rw [hmeta] at hdisk hwrap
  obtain rfl : d' = wrapLeft p r fate (pickTier p allowEncrypt) d := hdisk.trans hleft.symm
  unfold sealSecrets
  rcases hwrap with ⟨hwraps, m, rfl, hwrapped⟩ | ⟨hnot, hne⟩
  · rw [bind_ok hmeta]
    by_cases hwrite : fate .writeSecrets = .done
    · rw [bind_ok (act_done hwrite)]
      have hwrites : Writes p r fate (pickTier p allowEncrypt) := ⟨hensure, hwraps, hwrite⟩
      by_cases hlast : fate .writeMeta = .done
      · rw [bind_ok (act_done hlast)]
        exact ⟨fun h => absurd hwrites h, fun _ h => absurd hlast h,
          fun _ _ => ⟨rfl, m, hwrapped.holds⟩⟩
      · obtain ⟨o, ho, hne⟩ := act_not_done hlast
        obtain ⟨o', heq, hne'⟩ := bind_not_ok ho hne
        rw [heq]
        exact ⟨fun h => absurd hwrites h, fun _ _ => ⟨rfl, hne'⟩, fun _ h => absurd h hlast⟩
    · obtain ⟨o, ho, hne⟩ := act_not_done hwrite
      obtain ⟨o', heq, hne'⟩ := bind_not_ok ho hne
      rw [heq]
      exact ⟨fun _ => ⟨rfl, hne'⟩, fun h => absurd h.2.2 hwrite, fun h => absurd h.2.2 hwrite⟩
  · obtain ⟨o', heq, hne'⟩ := bind_not_ok hmeta hne
    rw [heq]
    exact ⟨fun _ => ⟨rfl, hne'⟩, fun h => absurd h.2.1 hnot, fun h => absurd h.2.1 hnot⟩

theorem saveSecrets_spec (fate : IoStep → Fate) (d : Disk) :
    SaveSpec lib p r new (pickTier p allowEncrypt) fate d
      (saveSecrets lib p r new allowEncrypt fate d) := by
  unfold saveSecrets ensure
  by_cases hensure : fate .ensure = .done
  · rw [bind_ok (act_done hensure)]
    exact sealSecrets_spec lib p r new allowEncrypt hensure d
  · obtain ⟨o, ho, hne⟩ := act_not_done hensure
    obtain ⟨o', heq, hne'⟩ := bind_not_ok ho hne
    rw [heq]
    have hleft : wrapLeft p r fate (pickTier p allowEncrypt) d = d := if_neg hensure
    exact ⟨fun _ => ⟨hleft.symm, hne'⟩, fun h => absurd h.1 hensure, fun h => absurd h.1 hensure⟩

/-- Over whatever was stored, `save_secrets` succeeds exactly if all its writes do, and whenever it
succeeds `load_secrets` gives back what was saved. -/
theorem saveSecrets_ok_iff (fate : IoStep → Fate) (d : Disk) :
    let result := saveSecrets lib p r new allowEncrypt fate d
    ((∃ t, result.1 = .ok t) ↔
      Writes p r fate (pickTier p allowEncrypt) ∧ fate .writeMeta = .done) ∧
    ((∃ t, result.1 = .ok t) → Loads lib p result.2 new) := by
  have hspec := saveSecrets_spec lib p r new allowEncrypt fate d
  have hsteps (hok : ∃ t, (saveSecrets lib p r new allowEncrypt fate d).1 = .ok t) :
      Writes p r fate (pickTier p allowEncrypt) ∧ fate .writeMeta = .done := by
    obtain ⟨t, ht⟩ := hok
    have hwrites := by_contra fun hnot => (hspec.unwritten hnot).2 t ht
    exact ⟨hwrites, by_contra fun hnot => (hspec.half hwrites hnot).2 t ht⟩
  refine ⟨⟨hsteps, fun ⟨hwrites, hlast⟩ => ⟨_, (hspec.whole hwrites hlast).1⟩⟩, fun hok => ?_⟩
  obtain ⟨hwrites, hlast⟩ := hsteps hok
  obtain ⟨-, m, hholds⟩ := hspec.whole hwrites hlast
  exact loads_iff.2 ⟨m, _, hholds⟩

variable {lib p r new allowEncrypt}

/-! ### The vault afterwards -/

section

variable {d' : Disk} {old s' : AgentSecrets} {blob : Bytes}

@[simp] theorem wrapLeft_secretsFile : (wrapLeft p r fate tier d).secretsFile = d.secretsFile := by
  unfold wrapLeft
  split_ifs <;> rfl

@[simp] theorem wrapLeft_secretsMetaFile :
    (wrapLeft p r fate tier d).secretsMetaFile = d.secretsMetaFile := by
  unfold wrapLeft
  split_ifs <;> rfl

theorem Holds.loads_iff_key (h : Holds lib p d m k₀ old)
    (hmeta : d'.secretsMetaFile = d.secretsMetaFile) (hblob : d'.secretsFile = some blob)
    (hopen : contents lib k blob = some s) :
    Loads lib p d' s' ↔ keyFor lib p m d'.keychain = some k ∧ s' = s := by
  rw [loads_iff]
  constructor
  · rintro ⟨m', k', h'⟩
    have hm := h'.metaFile
    rw [hmeta, h.metaFile] at hm
    cases hm
    have hcontent := h'.content
    rw [hblob, bind_some] at hcontent
    obtain rfl := contents_key_unique hopen hcontent
    rw [hopen] at hcontent
    exact ⟨h'.key, (some.inj hcontent).symm⟩
  · rintro ⟨hkey, rfl⟩
    refine ⟨m, k, ⟨?_, h.valid, hkey, ?_⟩⟩
    · rw [hmeta]
      exact h.metaFile
    · rw [hblob]
      exact hopen

theorem Holds.survives_iff_key (h : Holds lib p d m k₀ old)
    (hmeta : d'.secretsMetaFile = d.secretsMetaFile) (hblob : d'.secretsFile = some blob)
    (hopen : contents lib k blob = some s) (hs : s = old ∨ s = new) :
    (∃ s', Loads lib p d' s' ∧ (s' = old ∨ s' = new)) ↔ keyFor lib p m d'.keychain = some k := by
  constructor
  · rintro ⟨s', hloads, -⟩
    exact ((h.loads_iff_key hmeta hblob hopen).1 hloads).1
  · intro hkey
    exact ⟨s, (h.loads_iff_key hmeta hblob hopen).2 ⟨hkey, rfl⟩, hs⟩

theorem keyFor_of_ne (htier : m.tier ≠ .keychain) (keychain keychain' : Option Bytes) :
    keyFor lib p m keychain = keyFor lib p m keychain' := by
  unfold keyFor
  cases h : m.tier with
  | keychain => exact absurd h htier
  | _ => rfl

theorem keyFor_keychain (htier : m.tier = .keychain) (hos : p.os = .macos)
    (keychain : Option Bytes) : keyFor lib p m keychain = keychain.bind toKey := by
  simp [keyFor, htier, hos]

/-- A save is not cut between two changes that belong together. These are the two files; where the
old and the new key are in the keychain, its entry and `state.enc`. -/
def Intact (p : Platform) (r : Draw) (fate : IoStep → Fate) (tier₀ tier : SealTier) (k₀ : Key) :
    Prop :=
  if tier₀ = .keychain ∧ tier = .keychain then
    fate .ensure = .done →
      (fate .keychainDelete = .done → fate .keychainSet = .done) ∧
      (fate .keychainDelete ≠ .stopped → fate .keychainSet = .done →
        fate .writeSecrets = .done ∨ r.dek = k₀)
  else Writes p r fate tier → fate .writeMeta = .done ∨ r.dek = k₀

theorem keyFor_wrapLeft (h : ¬ (m.tier = .keychain ∧ tier = .keychain)) :
    keyFor lib p m (wrapLeft p r fate tier d).keychain = keyFor lib p m d.keychain := by
  by_cases hm : m.tier = .keychain
  · have htier : tier ≠ .keychain := fun htier => h ⟨hm, htier⟩
    unfold wrapLeft
    split_ifs
    · rw [keychainAfter_of_ne htier]
    · rfl
  · exact keyFor_of_ne hm _ _

theorem keyFor_unwritten (hkey : keyFor lib p m d.keychain = some k)
    (hnot : ¬ Writes p r fate tier) : keyFor lib p m (wrapLeft p r fate tier d).keychain = some k ↔
      Intact p r fate m.tier tier k := by
  unfold Intact
  split_ifs with hboth
  · obtain ⟨hm, rfl⟩ := hboth
    have hos : p.os = .macos := by
      by_contra hos
      simp [keyFor, hm, hos] at hkey
    rw [keyFor_keychain hm hos] at hkey ⊢
    unfold wrapLeft
    by_cases hensure : fate .ensure = .done
    · have hdek : toKey r.dek.1 = some k ↔ r.dek = k := by rw [toKey_val, some.injEq]
      have hwrite : fate .keychainDelete ≠ .stopped → fate .keychainSet = .done →
          fate .writeSecrets ≠ .done :=
        fun hdelete hset hwrite => hnot ⟨hensure, ⟨hos, hdelete, hset⟩, hwrite⟩
      cases hdelete : fate .keychainDelete <;> cases hset : fate .keychainSet <;>
        simp_all [keychainAfter]
    · simp [hensure, hkey]
  · rw [keyFor_wrapLeft hboth]
    exact ⟨fun _ h => absurd h hnot, fun _ => hkey⟩

theorem keyFor_half (hkey : keyFor lib p m d.keychain = some k) (hwrites : Writes p r fate tier)
    (hlast : fate .writeMeta ≠ .done) :
    keyFor lib p m (wrapLeft p r fate tier d).keychain = some r.dek ↔
      Intact p r fate m.tier tier k := by
  obtain ⟨hensure, hwraps, hwrite⟩ := hwrites
  unfold Intact
  split_ifs with hboth
  · obtain ⟨hm, rfl⟩ := hboth
    obtain ⟨hos, hdelete, hset⟩ := hwraps
    rw [keyFor_keychain hm hos]
    unfold wrapLeft
    cases hfate : fate .keychainDelete <;> simp_all [keychainAfter, toKey_val]
  · rw [keyFor_wrapLeft hboth, hkey, some.injEq]
    constructor
    · rintro rfl -
      exact .inr rfl
    · intro h
      exact ((h ⟨hensure, hwraps, hwrite⟩).resolve_left hlast).symm

/-- When the vault can be opened after a save, whatever became of the steps of the save. -/
theorem survives_save_iff (h : Holds lib p d m k old) :
    (∃ s, Loads lib p (saveSecrets lib p r new allowEncrypt fate d).2 s ∧ (s = old ∨ s = new)) ↔
      Intact p r fate m.tier (pickTier p allowEncrypt) k := by
  have hspec := saveSecrets_spec lib p r new allowEncrypt fate d
  by_cases hwrites : Writes p r fate (pickTier p allowEncrypt)
  · by_cases hlast : fate .writeMeta = .done
    · obtain ⟨-, m', hholds⟩ := hspec.whole hwrites hlast
      refine ⟨fun _ => ?_, fun _ => ⟨new, loads_iff.2 ⟨m', _, hholds⟩, .inr rfl⟩⟩
      obtain ⟨hensure, hwraps, hwrite⟩ := hwrites
      unfold Intact
      split_ifs with hboth
      · rw [hboth.2] at hwraps
        exact fun _ => ⟨fun _ => hwraps.2.2, fun _ _ => .inl hwrite⟩
      · exact fun _ => .inl hlast
    · rw [(hspec.half hwrites hlast).1, ← keyFor_half h.key hwrites hlast]
      exact h.survives_iff_key wrapLeft_secretsMetaFile rfl (contents_sealed r new) (.inr rfl)
  · obtain ⟨blob, hblob, hopen⟩ := bind_eq_some_iff.1 h.content
    rw [(hspec.unwritten hwrites).1, ← keyFor_unwritten h.key hwrites]
    exact h.survives_iff_key wrapLeft_secretsMetaFile (wrapLeft_secretsFile.trans hblob) hopen
      (.inl rfl)

end

end

end Tunnet.Secrets
