import Tunnet.Util.Map

/-!
# The hub of the control connections

The session of an agent's WebSocket registers with the hub, and messages for the agent are pushed to
the channel that is registered under its endpoint. An agent that connects again gets a new session
while the old one may still be there.
-/

namespace Tunnet.Control

/-- A session, which stands for the channel that `register` has opened for it. -/
structure Session where
  id : ℕ
  endpointId : String
  organizationId : String
  networkIds : List String
deriving DecidableEq

inductive ServerMsg
  | forceReenroll (reason : String)
  | other (text : String)

/-- `Inner` of the hub; the gauges of the metrics are not part of it. -/
structure WsHub where
  subs : Map String Session
  byNetwork : Map String (Finset String)
  byOrg : Map String (Finset String)

namespace WsHub

def new : WsHub := ⟨∅, ∅, ∅⟩

variable (endpointId : String) (sets : Map String (Finset String)) (key : String)

/-- `entry(key).or_default().insert(endpoint_id)`. -/
def enlist : Map String (Finset String) :=
  sets.insert key (insert endpointId ((sets.lookup key).getD ∅))

def delist : Map String (Finset String) :=
  Map.modify key (·.erase endpointId) sets

def register (hub : WsHub) (s : Session) : WsHub where
  subs := hub.subs.insert s.endpointId s
  byOrg := enlist s.endpointId hub.byOrg s.organizationId
  byNetwork := s.networkIds.foldl (enlist s.endpointId) hub.byNetwork

def unregister (hub : WsHub) (s : Session) : WsHub where
  subs := hub.subs.erase s.endpointId
  byOrg := delist s.endpointId hub.byOrg s.organizationId
  byNetwork := s.networkIds.foldl (delist s.endpointId) hub.byNetwork

/-- The message on the channel it is sent to. The entry stays locked while the channel is full. -/
def pushTo (hub : WsHub) (endpointId : String) (msg : ServerMsg) : Option (Session × ServerMsg) :=
  (hub.subs.lookup endpointId).map (·, msg)

/-- `disconnect` after its push. -/
def drop (hub : WsHub) (endpointId : String) : WsHub :=
  if hub.subs.lookup endpointId = none then hub
  else
    { subs := hub.subs.erase endpointId
      byNetwork := Map.mapVal (fun _ set => set.erase endpointId) hub.byNetwork
      byOrg := Map.mapVal (fun _ set => set.erase endpointId) hub.byOrg }

end WsHub

/-- The steps of sessions and of administrators. Each looks at `subs` once, which is all that a push
depends on; `disconnect` waits for its push, and others go on before it continues with `drop`. -/
inductive HubEvent
  | register (s : Session)
  | unregister (s : Session)
  | disconnect (endpointId reason : String)
  | drop (endpointId : String)
deriving DecidableEq

def WsHub.step (hub : WsHub) : HubEvent → WsHub × Option (Session × ServerMsg)
  | .register s => (hub.register s, none)
  | .unregister s => (hub.unregister s, none)
  | .disconnect endpointId reason => (hub, hub.pushTo endpointId (.forceReenroll reason))
  | .drop endpointId => (hub.drop endpointId, none)

end Tunnet.Control
