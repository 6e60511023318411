import Tunnet.Routing.Tables

/-!
# Names of mesh peers

PeerDNS answers queries for names of mesh peers from the routing tables. A query is first compared
with every peer's names, in the order in which the hash map by network and address happens to be
iterated, and then, without the name of the first named network, looked up among the host names.
-/

namespace Tunnet.Routing

namespace PeerInfo

variable (p : PeerInfo)

/-- The host name in lower case. -/
def host : String := Str.toAsciiLowercase p.hostname

/-- `hostname[.network]`. -/
def fqdn : String := if p.networkName = "" then p.host else p.host ++ "." ++ p.networkName

/-- One of the peer's two names is `bare`; a peer without a host name has none. -/
def answersTo (bare : String) : Bool :=
  p.hostname != "" && (bare == p.host || bare == p.fqdn)

end PeerInfo

namespace Tables

variable (t : Tables)

/-- The list holds the values of the map by network and address, in the order of an iteration. -/
def Iterates (order : List PeerInfo) : Prop :=
  (order : Multiset PeerInfo) = t.byNetworkIp.entries.map (·.2)

instance (order : List PeerInfo) : Decidable (t.Iterates order) :=
  inferInstanceAs (Decidable ((order : Multiset PeerInfo) = _))

/-- The queried name in lower case, without the suffix of the mesh and dots at its end. -/
def bareName (name : String) : String :=
  let lower := Str.toAsciiLowercase (Str.trimEndMatches '.' name)
  Str.trimEndMatches '.' ((Str.stripSuffix ("." ++ t.dnsSuffix) lower).getD lower)

/-- The name without that of the first named network. -/
def peerName (bare : String) : String :=
  if t.networkName = "" then bare
  else (Str.stripSuffix ("." ++ t.networkName) bare).getD bare

/-- Resolve a PeerDNS name to an advertised SSH host key. -/
def resolveDnsTxt (order : List PeerInfo) (name : String) : Option String :=
  let bare := t.bareName name
  match order.find? (·.answersTo bare) with
  | some peer => peer.sshHostKey
  | none =>
    ((t.byHostname.lookup (t.peerName bare)).bind (·.sshHostKey)).or
      ((t.byHostname.lookup bare).bind (·.sshHostKey))

/-- Resolve a PeerDNS name to a routable peer address. -/
def resolveDnsA (order : List PeerInfo) (name : String) : Option Ipv4Addr :=
  let bare := t.bareName name
  match order.find? (·.answersTo bare) with
  | some peer => some peer.ip
  | none => (t.byHostname.lookup (t.peerName bare)).map (·.ip)

/-- Reverse lookup: mesh address to `hostname[.network].suffix`. -/
def resolveDnsPtr (ip : Ipv4Addr) : Option String :=
  match t.byIp.lookup ip with
  | none => none
  | some peer =>
    if peer.hostname = "" then none
    else if peer.networkName = "" then some (peer.host ++ "." ++ t.dnsSuffix)
    else some (peer.host ++ "." ++ peer.networkName ++ "." ++ t.dnsSuffix)

end Tables

end Tunnet.Routing
