import Tunnet.Util.Path

/-!
# Recordings that peers send

A peer opens a stream, names a session and sends the bytes of its recording. The recorder creates a
file for it in the recordings directory, and indexes it when the stream has ended.
-/

namespace Tunnet.Recorder

open FileTree

abbrev Bytes := List UInt8

abbrev FileDisk := Disk String Bytes

/-- What the sink and the index read of `RecordingMeta`. -/
structure RecordingMeta where
  sessionId : String
  peerEndpoint : String
  peerHostname : Option String
  user : String
  machine : String
  network : String
  deriving DecidableEq

structure Env where
  cwd : Loc String
  /-- The recordings directory. -/
  dir : Path
  /-- Places at which the operating system refuses to make or write anything. -/
  denies : Loc String → Bool
  sha256Hex : Bytes → String

/-! ### Files -/

section

variable (env : Env)

/-- `File::create`, with the directory and the name of the file. -/
def createFile (d : FileDisk) (path : Path) : FileDisk × Except IoError (Loc String × String) :=
  if Path.hasNul path.parts then (d, .error .invalidInput)
  else
    match path.parts.getLast? with
    | some (.down n) =>
      match d.tree.resolve (path.base env.cwd) path.parts.dropLast with
      | some l =>
        if path.dirOnly then (d, .error .isADirectory)
        else
          match d.write env.denies l n [] with
          | (d, .ok ()) => (d, .ok (l, n))
          | (d, .error e) => (d, .error e)
      | none => (d, .error .notFound)
    | _ => (d, .error .isADirectory)

/-- Bytes written at an offset; a gap is filled with zeros. -/
def overlay (content : Bytes) (offset : ℕ) (data : Bytes) : Bytes :=
  (content ++ List.replicate (offset - content.length) 0).take offset ++ data ++
    content.drop (offset + data.length)

def contentAt (d : FileDisk) (l : Loc String) : Bytes :=
  match d.tree.item l with
  | some (.file content) => content
  | _ => []

/-- Write to a file that is open. -/
def writeAt (d : FileDisk) (l : Loc String) (n : String) (offset : ℕ) (data : Bytes) : FileDisk :=
  (d.write (fun _ => false) l n (overlay (contentAt d (l ++ [n])) offset data)).1

/-! ### Streams -/

/-- `StreamCastSink`, with the peer at the other end of the stream; `bytes` is what the hash and the
size are of. -/
structure StreamCastSink where
  peer : String
  info : RecordingMeta
  path : Path
  dir : Loc String
  name : String
  bytes : Bytes

/-- A row of the table `recordings`. -/
structure Row where
  info : RecordingMeta
  path : Path
  byteSize : ℕ
  sha256Hex : String
  durationMs : ℕ
  startedAt : ℤ

/-- Streams that have ended leave `none` behind. -/
structure Store where
  disk : FileDisk
  sinks : List (Option StreamCastSink)
  index : List Row

/-- The path of a cast. -/
def castPath (info : RecordingMeta) : Path :=
  env.dir.join (Path.parse (info.sessionId ++ ".cast"))

def beginStreamSink (peer : String) (info : RecordingMeta) (d : FileDisk) :
    FileDisk × Except IoError StreamCastSink :=
  match createFile env d (castPath env info) with
  | (d, .ok (l, n)) => (d, .ok ⟨peer, info, castPath env info, l, n, []⟩)
  | (d, .error e) => (d, .error e)

/-- `INSERT OR REPLACE`, by the session. -/
def indexFinished (row : Row) (index : List Row) : List Row :=
  index.filter (fun r => r.info.sessionId ≠ row.info.sessionId) ++ [row]

inductive StreamCall
  | begin (peer : String) (info : RecordingMeta)
  | data (k : ℕ) (bytes : Bytes)
  | finish (k : ℕ) (durationMs : ℕ) (now : ℤ)
  | broken (k : ℕ)
  deriving DecidableEq

/-- `created` is a file that was created or truncated, `indexed` a row that was added or replaced.
-/
inductive StreamReply
  | created (peer : String) (place : Loc String)
  | refused (e : IoError)
  | indexed (peer : String) (sessionId : String)
  | none
  deriving DecidableEq

namespace Store

def begin (s : Store) (peer : String) (info : RecordingMeta) : Store × StreamReply :=
  match beginStreamSink env peer info s.disk with
  | (d, .ok sink) =>
    ({ s with disk := d, sinks := s.sinks ++ [some sink] }, .created peer (sink.dir ++ [sink.name]))
  | (d, .error e) => ({ s with disk := d }, .refused e)

def data (s : Store) (k : ℕ) (bytes : Bytes) : Store × StreamReply :=
  match s.sinks[k]?.join with
  | some sink =>
    ({ s with
      disk := writeAt s.disk sink.dir sink.name sink.bytes.length bytes
      sinks := s.sinks.set k (some { sink with bytes := sink.bytes ++ bytes }) }, .none)
  | none => (s, .none)

def finish (s : Store) (k : ℕ) (durationMs : ℕ) (now : ℤ) : Store × StreamReply :=
  match s.sinks[k]?.join with
  | some sink =>
    let row : Row :=
      ⟨sink.info, sink.path, sink.bytes.length, env.sha256Hex sink.bytes, durationMs, now⟩
    ({ s with sinks := s.sinks.set k none, index := indexFinished row s.index },
      .indexed sink.peer sink.info.sessionId)
  | none => (s, .none)

/-- `handle_recording_stream`, one step of one stream at a time. -/
def step (s : Store) : StreamCall → Store × StreamReply
  | .begin peer info => s.begin env peer info
  | .data k bytes => s.data k bytes
  | .finish k durationMs now => s.finish env k durationMs now
  | .broken k => ({ s with sinks := s.sinks.set k none }, .none)

/-- `RecordingStore::open`. -/
def openStore (d : FileDisk) : Except IoError Store :=
  match createDirAll env.cwd env.denies d env.dir with
  | (d, .ok ()) => .ok ⟨d, [], []⟩
  | (_, .error e) => .error e

end Store

end

end Tunnet.Recorder
