import Tunnet.Secrets.Store
import Tunnet.Util.Check

/-!
# What a vault holds

* `Holds`: the two files and the keychain fit together and hold these secrets.
* `loads_iff`: exactly such a vault can be loaded.
-/

namespace Tunnet.Secrets

open Faulty Option

section

variable {lib : Libs} {p : Platform} {d d' : Disk} {m : SealMeta} {k k' : Key} {s s' : AgentSecrets}
  {fate : IoStep → Fate} {field : Option String} {id missing invalid : String}
  {b salt blob ciphertext : Bytes}

/-! ### The key -/

/-- The machine's identity, if there is one. -/
def machineIdOf (p : Platform) : Option String :=
  match p.os with
  | .android => none
  | .other => some "unknown-machine"
  | _ => p.machineId

/-- The steps that find it. -/
def machineSteps : Os → List IoStep
  | .android => []
  | .other => []
  | _ => [.machineId]

/-- The steps that find the key of a vault. -/
def keySteps (os : Os) : SealTier → List IoStep
  | .plaintext => []
  | .derived => machineSteps os
  | .keystore => [.sealer]
  | .keychain => [.keychainGet]
  | .tpm => [.dpapi]

def hexOf (field : Option String) : Option Bytes := field.bind Hex.decode

/-- The key that the meta file leads to. -/
def keyFor (lib : Libs) (p : Platform) (m : SealMeta) (keychain : Option Bytes) : Option Key :=
  match m.tier with
  | .plaintext => do
    let dek ← hexOf m.dekHex
    toKey dek
  | .derived => do
    let salt ← hexOf m.saltHex
    let wrapped ← hexOf m.wrappedDekHex
    let machineId ← machineIdOf p
    (unwrapDek lib (lib.hkdf machineId (if salt = [] then none else some salt)) wrapped).toOption
  | .keystore => do
    let wrapped ← hexOf m.wrappedDekHex
    let sealer ← p.sealer
    let plain ← sealer.unwrap wrapped
    toKey plain
  | .keychain => do
    guard (p.os = .macos)
    let data ← keychain
    toKey data
  | .tpm => do
    let wrapped ← hexOf m.wrappedDekHex
    guard (p.os = .windows)
    let plain ← p.dpapi.unwrap wrapped
    toKey plain

theorem readMachineId_reads (h : machineIdOf p = some id) :
    (readMachineId p).Reads d (machineSteps p.os) id := by
  unfold machineIdOf at h
  unfold readMachineId
  cases hos : p.os with
  | android => simp [hos] at h
  | other =>
    rw [hos] at h
    cases h
    exact reads_pure _
  | linux | macos | windows =>
    rw [hos] at h
    exact reads_query h

theorem deriveWrapKey_reads (h : machineIdOf p = some id) (salt : Bytes) :
    (deriveWrapKey lib p salt).Reads d (machineSteps p.os)
      (lib.hkdf id (if salt = [] then none else some salt)) := by
  exact (readMachineId_reads h).map _

theorem hexField_reads
    (h : hexOf field = some b) : (hexField missing invalid field).Reads d [] b := by
  cases field with
  | none => exact nomatch h
  | some => exact reads_ofOption h

theorem resolveDek_reads (h : keyFor lib p m d.keychain = some k) :
    (resolveDek lib p m).Reads d (keySteps p.os m.tier) k := by
  unfold keyFor at h
  unfold resolveDek
  cases htier : m.tier with
  | plaintext =>
    rw [htier, bind_eq_bind, bind_eq_some_iff] at h
    obtain ⟨dek, hdek, hkey⟩ := h
    exact (hexField_reads hdek).bind (reads_ofOption hkey)
  | derived =>
    simp only [htier, bind_eq_bind, bind_eq_some_iff] at h
    obtain ⟨salt, hsalt, wrapped, hwrapped, id, hid, hkey⟩ := h
    rw [keySteps, ← List.append_nil (machineSteps p.os)]
    exact (hexField_reads hsalt).bind ((hexField_reads hwrapped).bind
      ((deriveWrapKey_reads hid salt).bind (reads_ofExcept (Check.toOption_eq_some.1 hkey))))
  | keystore =>
    simp only [htier, bind_eq_bind, bind_eq_some_iff] at h
    obtain ⟨wrapped, hwrapped, sealer, hsealer, plain, hplain, hkey⟩ := h
    have hread : (unwrapWithPlatform p wrapped).Reads d [.sealer] plain := by
      unfold unwrapWithPlatform
      rw [hsealer]
      exact reads_query hplain
    exact (hexField_reads hwrapped).bind (hread.bind (reads_ofOption hkey))
  | keychain =>
    simp only [htier, bind_eq_bind, bind_eq_some_iff, guard_eq_some'] at h
    obtain ⟨-, hos, data, hdata, hkey⟩ := h
    unfold loadDekKeychain
    rw [if_pos hos]
    exact (reads_query hdata).bind (reads_ofOption hkey)
  | tpm =>
    simp only [htier, bind_eq_bind, bind_eq_some_iff, guard_eq_some'] at h
    obtain ⟨wrapped, hwrapped, -, hos, plain, hplain, hkey⟩ := h
    have hread : (unwrapDekTpm p wrapped).Reads d [.dpapi] k := by
      unfold unwrapDekTpm
      rw [if_pos hos]
      exact (reads_query (g := fun _ => p.dpapi.unwrap wrapped) hplain).bind (reads_ofOption hkey)
    exact (hexField_reads hwrapped).bind hread

theorem hexField_eq_ok : hexField missing invalid field fate d = (.ok b, d') ↔
    hexOf field = some b ∧ d = d' := by
  unfold hexField hexOf
  cases field <;> simp

theorem deriveWrapKey_eq_ok (h : deriveWrapKey lib p salt fate d = (.ok k, d')) :
    ∃ id, machineIdOf p = some id ∧ lib.hkdf id (if salt = [] then none else some salt) = k ∧
      d = d' := by
  rw [deriveWrapKey, bind_eq_ok] at h
  obtain ⟨id, t, hid, rfl, rfl⟩ := h
  unfold readMachineId at hid
  unfold machineIdOf
  cases hos : p.os <;> simp only [hos] at hid ⊢ <;> simp_all

theorem keyFor_of_resolveDek
    (h : resolveDek lib p m fate d = (.ok k, d')) :
    keyFor lib p m d.keychain = some k ∧ d = d' := by
  unfold resolveDek at h
  unfold keyFor
  cases htier : m.tier with
  | plaintext =>
    simp only [htier, bind_eq_ok, hexField_eq_ok, ofOption_eq_ok] at h
    obtain ⟨dek, t, ⟨hdek, rfl⟩, hkey, rfl⟩ := h
    simp [hdek, hkey]
  | derived =>
    simp only [htier, bind_eq_ok, hexField_eq_ok, ofExcept_eq_ok] at h
    obtain ⟨salt, t, ⟨hsalt, rfl⟩, wrapped, t, ⟨hwrapped, rfl⟩, wrapKey, t, hwrap, hkey, rfl⟩ := h
    obtain ⟨id, hid, rfl, rfl⟩ := deriveWrapKey_eq_ok hwrap
    simp [hsalt, hwrapped, hid, Check.toOption_eq_some, hkey]
  | keystore =>
    simp only [htier, bind_eq_ok, hexField_eq_ok, ofOption_eq_ok] at h
    obtain ⟨wrapped, t, ⟨hwrapped, rfl⟩, plain, t, hplain, hkey, rfl⟩ := h
    unfold unwrapWithPlatform at hplain
    cases hsealer : p.sealer <;> simp_all
  | keychain =>
    rw [htier, loadDekKeychain] at h
    split_ifs at h with hos
    · simp only [bind_eq_ok, query_eq_ok, ofOption_eq_ok] at h
      obtain ⟨data, t, ⟨-, hdata, rfl⟩, hkey, rfl⟩ := h
      simp [hos, hdata, hkey]
    · exact absurd h raise_eq_ok
  | tpm =>
    simp only [htier, unwrapDekTpm, bind_eq_ok, hexField_eq_ok] at h
    obtain ⟨wrapped, t, ⟨hwrapped, rfl⟩, hplain⟩ := h
    split_ifs at hplain with hos
    · simp only [bind_eq_ok, query_eq_ok, ofOption_eq_ok] at hplain
      obtain ⟨plain, t, ⟨-, hplain, rfl⟩, hkey, rfl⟩ := hplain
      simp [hos, hwrapped, hplain, hkey]
    · exact absurd hplain raise_eq_ok

/-! ### The vault -/

/-- What `state.enc` holds for a key. -/
def contents (lib : Libs) (k : Key) (blob : Bytes) : Option AgentSecrets := do
  let (nonce, ciphertext) ← splitNonce blob
  (openSealed lib k nonce ciphertext).toOption

/-- The files and the keychain fit together and hold these secrets. -/
structure Holds (lib : Libs) (p : Platform) (d : Disk) (m : SealMeta) (k : Key)
    (s : AgentSecrets) : Prop where
  metaFile : d.secretsMetaFile.bind lib.metaFromSlice = some m
  valid : validateMeta p m = .ok ()
  key : keyFor lib p m d.keychain = some k
  content : d.secretsFile.bind (contents lib k) = some s

/-- The steps that load a vault. -/
def loadSteps (os : Os) (tier : SealTier) : List IoStep :=
  .readMeta :: .readSecrets :: keySteps os tier

theorem Holds.loadSecrets_reads (h : Holds lib p d m k s) :
    (loadSecrets lib p).Reads d (loadSteps p.os m.tier) (s, m.tier) := by
  obtain ⟨metaBytes, hmeta, hparse⟩ := bind_eq_some_iff.1 h.metaFile
  obtain ⟨blob, hblob, hcontent⟩ := bind_eq_some_iff.1 h.content
  obtain ⟨⟨nonce, ciphertext⟩, hsplit, hopen⟩ := bind_eq_some_iff.1 hcontent
  have hlast := ((resolveDek_reads h.key).bind
    (f := fun dek => ofExcept (openSealed lib dek nonce ciphertext) >>= fun secrets =>
      pure (secrets, m.tier))
    ((reads_ofExcept (Check.toOption_eq_some.1 hopen)).bind (reads_pure _)))
  rw [List.append_nil, List.append_nil] at hlast
  exact (reads_query hmeta).bind ((reads_ofOption hparse).bind
    ((reads_query hblob).bind ((reads_ofOption hsplit).bind ((reads_ofExcept h.valid).bind hlast))))

theorem holds_of_load {tier : SealTier} (h : loadSecrets lib p fate d = (.ok (s, tier), d')) :
    ∃ m k, Holds lib p d m k s ∧ m.tier = tier := by
  simp only [loadSecrets, bind_eq_ok, query_eq_ok, ofOption_eq_ok, ofExcept_eq_ok] at h
  obtain ⟨metaBytes, t, ⟨-, hmeta, rfl⟩, m, t, ⟨hparse, rfl⟩, blob, t, ⟨-, hblob, rfl⟩,
    ⟨nonce, ciphertext⟩, t, ⟨hsplit, rfl⟩, ⟨⟩, t, ⟨hvalid, rfl⟩, k, t, hresolve, s, t,
    ⟨hopen, rfl⟩, ⟨rfl, rfl⟩, rfl⟩ := h
  obtain ⟨hkey, rfl⟩ := keyFor_of_resolveDek hresolve
  refine ⟨m, k, ⟨?_, hvalid, hkey, ?_⟩, rfl⟩
  · rw [hmeta]
    exact hparse
  · rw [hblob, bind_some]
    exact bind_eq_some_iff.2 ⟨_, hsplit, Check.toOption_eq_some.2 hopen⟩

/-- A later `load_secrets`, all of whose steps are done, gives these secrets. -/
def Loads (lib : Libs) (p : Platform) (d : Disk) (s : AgentSecrets) : Prop :=
  ∃ tier, (loadSecrets lib p (fun _ => .done) d).1 = .ok (s, tier)

theorem loads_iff : Loads lib p d s ↔ ∃ m k, Holds lib p d m k s := by
  constructor
  · rintro ⟨tier, h⟩
    obtain ⟨m, k, hholds, -⟩ := holds_of_load (Prod.ext h rfl)
    exact ⟨m, k, hholds⟩
  · rintro ⟨m, k, hholds⟩
    obtain ⟨e, he⟩ := hholds.loadSecrets_reads fun _ => .done
    refine ⟨m.tier, ?_⟩
    rw [he, fateOf_eq_done.2 fun _ _ => rfl]
    rfl

theorem contents_key_unique (h : contents lib k blob = some s)
    (h' : contents lib k' blob = some s') : k = k' := by
  obtain ⟨⟨nonce, ciphertext⟩, hsplit, hopen⟩ := bind_eq_some_iff.1 h
  obtain ⟨⟨nonce', ciphertext'⟩, hsplit', hopen'⟩ := bind_eq_some_iff.1 h'
  rw [hsplit] at hsplit'
  obtain ⟨rfl, rfl⟩ := Prod.mk.inj (some.inj hsplit')
  have hne (k) (s)
      (hopen : (openSealed lib k nonce ciphertext).toOption = some s) :
      lib.decrypt k nonce ciphertext ≠ none := by
    intro hnone
    simp [openSealed, hnone, Except.toOption] at hopen
  exact lib.key_unique k k' nonce ciphertext (hne k s hopen) (hne k' s' hopen')

theorem splitNonce_joinNonce (nonce : Nonce) (h : 16 ≤ ciphertext.length) :
    splitNonce (joinNonce nonce ciphertext) = some (nonce, ciphertext) := by
  obtain ⟨nonce, hnonce⟩ := nonce
  have hlength : 12 + 16 ≤ (nonce ++ ciphertext).length := by
    rw [List.length_append]
    omega
  unfold splitNonce joinNonce
  rw [dif_pos hlength]
  rw [some.injEq, Prod.mk.injEq, Subtype.mk.injEq]
  exact ⟨List.take_left' hnonce, List.drop_left' hnonce⟩

theorem toKey_val (k : Key) : toKey k.1 = some k := by
  simp [toKey, k.2]

theorem contents_sealed (r : Draw) (s : AgentSecrets) :
    contents lib r.dek (sealed lib r s) = some s := by
  have hsplit := splitNonce_joinNonce r.nonce
    (lib.le_length_encrypt r.dek r.nonce (lib.payloadToVec s.payload))
  have hopen : openSealed lib r.dek r.nonce
      (lib.encrypt r.dek r.nonce (lib.payloadToVec s.payload)) = .ok s := by
    simp [openSealed, lib.decrypt_encrypt, openPayload, lib.payloadFromSlice_toVec,
      AgentSecrets.payload, Hex.decode_encode, toKey_val]
  exact bind_eq_some_iff.2 ⟨_, hsplit, Check.toOption_eq_some.2 hopen⟩

end

end Tunnet.Secrets
