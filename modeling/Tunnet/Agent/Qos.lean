import Mathlib.Algebra.BigOperators.Group.List.Basic

/-!
# Outbound queues of a peer

`tunnet-agent/src/qos.rs`. Packets wait in one of three queues of bounded length. A full queue
refuses packets, but `try_enqueue` takes packets from the queues of lower classes before it finds
that out.
-/

namespace Tunnet.Qos

open Function List

inductive Class
  | latency
  | normal
  | bulk
deriving DecidableEq

/-- The contents of `Bytes`, which has at most `isize::MAX` of them. -/
abbrev Packet := { bytes : List UInt8 // bytes.length < 2 ^ 63 }

namespace Class

def cap : Class → ℕ
  | latency => 64
  | normal => 256
  | bulk => 512

/-- The place among the classes, from the highest to the lowest. -/
def index : Class → ℕ
  | latency => 0
  | normal => 1
  | bulk => 2

end Class

/-! ### Enqueueing -/

/-- The queues of the classes. -/
abbrev PeerState := Class → List Packet

namespace PeerState

variable (s : PeerState) (c : Class) (packet : Packet)

def push : PeerState := update s c (s c ++ [packet])

def popFront : PeerState := update s c (s c).tail

/-- Take a packet out of a lower queue, and try again. -/
def freeAndPush (lower : Class) : PeerState × Bool :=
  if s lower = [] then (s, false)
  else
    let s := s.popFront lower
    if (s c).length < c.cap then (s.push c packet, true) else (s, false)

/-- The queues afterwards, and whether the packet was accepted. -/
def tryEnqueue : PeerState × Bool :=
  if (s c).length < c.cap then (s.push c packet, true)
  else
    match if c = .bulk then (s, false) else s.freeAndPush c packet .bulk with
    | (s, true) => (s, true)
    | (s, false) => if c = .latency then s.freeAndPush c packet .normal else (s, false)

/-- A packet that is refused costs nothing, and one that is accepted costs at most one of a lower
class. -/
def CostsLittle : Prop :=
  match s.tryEnqueue c packet with
  | (s', false) => s' = s
  | (s', true) => ∃ kept : PeerState, s' = kept.push c packet ∧
      (kept = s ∨ ∃ d i, c.index < d.index ∧ kept = update s d ((s d).eraseIdx i))

variable {s c} (h : ¬ (s c).length < c.cap)

include h

theorem freeAndPush_of_full (lower : Class) (hlower : c ≠ lower) :
    s.freeAndPush c packet lower = (s.popFront lower, false) := by
  have hsame : s.popFront lower c = s c := update_of_ne hlower _ _
  unfold freeAndPush
  split_ifs with hempty
  · rw [popFront, hempty, tail_nil, ← hempty, update_eq_self]
  · dsimp only
    rw [hsame, if_neg h]

/-- A full queue refuses the packet, and the queues of the lower classes lose one each. -/
theorem tryEnqueue_of_full : s.tryEnqueue c packet =
    (fun d => if c.index < d.index then (s d).tail else s d, false) := by
  unfold tryEnqueue
  rw [if_neg h]
  have hfree := freeAndPush_of_full packet h .bulk
  cases c with
  | latency =>
    rw [hfree nofun]
    have h' : ¬ (s.popFront .bulk .latency).length < Class.cap .latency := h
    refine (freeAndPush_of_full packet h' .normal nofun).trans ?_
    refine Prod.ext (funext fun d => ?_) rfl
    cases d <;> rfl
  | normal =>
    rw [hfree nofun]
    refine Prod.ext (funext fun d => ?_) rfl
    cases d <;> rfl
  | bulk =>
    refine Prod.ext (funext fun d => ?_) rfl
    cases d <;> rfl

omit h

/-- A packet costs little exactly if there is room for it, or there is nothing in the queues of the
lower classes. -/
theorem costsLittle_iff : s.CostsLittle c packet ↔
    (s c).length < c.cap ∨ ∀ d, c.index < d.index → s d = [] := by
  unfold CostsLittle
  by_cases hroom : (s c).length < c.cap
  · unfold tryEnqueue
    rw [if_pos hroom]
    exact iff_of_true ⟨s, rfl, .inl rfl⟩ (.inl hroom)
  · rw [tryEnqueue_of_full packet hroom, or_iff_right hroom]
    refine funext_iff.trans (forall_congr' fun d => ?_)
    split_ifs with hlower
    · cases s d <;> simp [hlower]
    · simp [hlower]

end PeerState

namespace Demo

def empty : Packet := ⟨[], by decide⟩

/-- No more latency packets, and one bulk packet. -/
def full : PeerState
  | .latency => replicate 64 empty
  | .normal => []
  | .bulk => [empty]

/-- The latency packet is refused, and the bulk packet is gone. -/
theorem refused_packet_evicts : (full.tryEnqueue .latency empty).2 = false ∧
    full .bulk ≠ [] ∧ (full.tryEnqueue .latency empty).1 .bulk = [] := by
  decide

end Demo

end Tunnet.Qos
