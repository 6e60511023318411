import Tunnet.Edge.System

/-!
# The agent's end of a tunnel

`handle_relay_stream` of `tunnet-core/src/tunnel.rs`, for HTTPS tunnels. The target of a connection
is chosen once, by the path in what the first read returns, and all requests on the connection are
sent there.
-/

namespace Tunnet.Edge

structure SocketAddr where
  ip : IpAddr
  port : UInt16
deriving DecidableEq

/-- Match an HTTP path against a redirect pattern (`/api/*` or exact). -/
def pathMatches (pattern path : String) : Bool :=
  match Str.stripSuffix "*" pattern with
  | some start => (Str.stripPrefix start path).isSome
  | none => path == pattern

/-- The first matching redirect rule. -/
def matchRedirect (rules : List RedirectRule) (path : String) : Option RedirectRule :=
  rules.find? fun r => pathMatches r.pathPattern path

def parseHttpPath (buf : Bytes) : Option String := do
  let text ← Str.fromUtf8 buf
  let line ← (Str.lines text).head?
  let target ← (Str.splitWhitespace (Str.trim line))[1]?
  return Str.before '?' target

section

variable (rules : List RedirectRule) (defaultPort : UInt16) (defaultTarget : SocketAddr)

/-- The address that `splice_to_target` connects to. -/
def spliceAddr (port : UInt16) (targetIp : Option Ipv4Addr) : SocketAddr :=
  match targetIp with
  | some ip => ⟨.v4 ip, port⟩
  | none => if port ≠ defaultTarget.port then ⟨defaultTarget.ip, port⟩ else defaultTarget

/-- The target of the first rule that matches the path, or the default target. -/
def targetOf (path : Option String) : SocketAddr :=
  let matched := path.bind (matchRedirect rules)
  spliceAddr defaultTarget ((matched.map (·.targetPort)).getD defaultPort)
    (matched.bind (·.targetIpv4))

/-- What each read returns until the end of the stream is sent to one address. -/
def handleRelayStream (reads : List Bytes) : SocketAddr × Bytes :=
  if rules = [] then (spliceAddr defaultTarget defaultPort none, reads.flatten)
  else
    let peek := reads.headD []
    (targetOf rules defaultPort defaultTarget (parseHttpPath peek), peek ++ reads.tail.flatten)

end

end Tunnet.Edge
