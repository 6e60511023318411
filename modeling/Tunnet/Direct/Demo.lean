import Tunnet.Direct.Spec.Coordinator
import Tunnet.Direct.Authority

/-!
# An executable instance

A signature scheme that keeps a one-byte digest, blobs that are the records themselves, and a
small network, to run the model on.
-/

namespace Tunnet.Direct.Demo

/-- The first `n` bytes of a list, filled up with zeros. -/
def pad (n : Nat) (l : List UInt8) : List UInt8 := (l ++ List.replicate n 0).take n

theorem length_pad (n : Nat) (l : List UInt8) : (pad n l).length = n := by
  simp [pad]

def digest (m : List UInt8) : UInt8 := m.foldl (fun a b => 31 * a + b) 7

def ed : Ed25519 where
  verifyingKey sk := pad 32 sk
  isPoint _ := true
  sign sk m := pad 64 (digest m :: pad 32 sk)
  verify vk m sig := sig == pad 64 (digest m :: vk)
  length_verifyingKey sk := length_pad 32 sk
  isPoint_verifyingKey _ := rfl
  length_sign _ _ := length_pad 64 _
  verify_sign _ _ := by simp

/-- Payloads are told apart by a tag, the endpoint and the counters. -/
def payloads : Payloads where
  grant p := 1 :: UInt8.ofNat p.networkEpoch :: Str.asBytes p.endpointId
  memberRecord p := 2 :: UInt8.ofNat p.sequence :: Str.asBytes (p.endpointId ++ p.hostname)
  memberMetadata p := 3 :: UInt8.ofNat p.sequence :: Str.asBytes p.endpointId
  genesis p := 4 :: Str.asBytes p.networkName
  epoch p := [5, UInt8.ofNat p.networkEpoch]
  revocation p := 6 :: UInt8.ofNat p.networkEpoch :: Str.asBytes p.endpointId

def signing : Signing := ⟨ed, payloads⟩

inductive Blob
  | genesis (g : Genesis)
  | epoch (e : EpochRecord)
  | revocation (r : Revocation)
  | record (r : SignedMemberRecord)
  | metadata (r : SignedMemberMetadata)
  | text (s : String)

def serde : Serde Blob where
  genesis := ⟨.genesis, fun | .genesis g => some g | _ => none, fun _ => rfl⟩
  epoch := ⟨.epoch, fun | .epoch e => some e | _ => none, fun _ => rfl⟩
  revocation := ⟨.revocation, fun | .revocation r => some r | _ => none, fun _ => rfl⟩
  record := ⟨.record, fun | .record r => some r | _ => none, fun _ => rfl⟩
  metadata := ⟨.metadata, fun | .metadata r => some r | _ => none, fun _ => rfl⟩
  str := .text

/-- The coordinator's secret key. -/
def sk : List UInt8 := [1, 2, 3]

/-- 10.7.0.0/28 -/
def plan : AddressPlan := ⟨⟨Ipv4Addr.new 10 7 0 0, 28, by decide⟩⟩

def config : DocsConfig where
  author := 0
  networkId := 42
  networkName := "lab"
  coordinatorSigningKey := some sk
  coordinatorVerifyingKey := Hex.encode (ed.verifyingKey sk)
  contentKey := "00"

def genesis : Genesis := signing.signGenesis sk
  { schemaVersion := genesisSchemaVersion
    networkId := 42
    networkName := "lab"
    coordinatorEndpointId := "cc"
    coordinatorVerifyingKey := Hex.encode (ed.verifyingKey sk)
    addressPlan := plan
    createdAt := 0
    sig := "" }

/-- A node that has just been set up. -/
def fresh : DocsMembership := ⟨some genesis, 0, ∅, ∅⟩

def replica : Replica signing where
  cfg := config
  vk := ed.verifyingKey sk
  verifyingKey_ok := Signing.verifyingKeyFromHex_encode sk
  state := fresh
  genesis := genesis
  genesis_eq := rfl
  networkId_eq := rfl

/-- Every blob has arrived. -/
def allReadable : View Blob := ⟨fun _ => true, 100⟩

def coordinator : Coordinator signing := ⟨config, sk, rfl, rfl⟩

/-- The entry the coordinator makes for a joiner. -/
def entry (endpointId hostname : String) (ipv4 : Ipv4Addr) : MembershipEntry where
  endpointId := endpointId
  hostname := hostname
  ipv4 := ipv4
  tags := []
  joinedAt := 0
  coordinator := false
  status := "active"
  sshHostKey := none

def alpha : MembershipEntry := entry "aa" "alpha" (Ipv4Addr.new 10 7 0 2)
def beta : MembershipEntry := entry "bb" "beta" (Ipv4Addr.new 10 7 0 3)

/-- The first admission of an entry, at time 0. -/
def admission (e : MembershipEntry) : AuthorId × Issuance := (0, ⟨0, 0, grantLifetime, e, 1⟩)

/-- Hashes keep the value hashed, and invites are known by short secrets. -/
def authority : DirectAuthority := ⟨id, 42, genesis⟩

def outside : Outside := ⟨0, 0, true⟩

/-- The endpoint `aa` presents an invite. -/
def present (secret : String) : AuthorityCall := .decide outside "aa" "alpha" secret ⟨[], ∅⟩

/-- Its entry, with the first address. -/
def joiner : MembershipEntry := entry "aa" "alpha" (Ipv4Addr.new 10 7 0 1)

end Tunnet.Direct.Demo
