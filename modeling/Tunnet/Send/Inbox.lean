import Tunnet.Util.Path

/-!
# Exporting a received transfer to the inbox

`export_to_inbox` of the send manager: the outer name is sanitised and made unique, the names inside
a collection are joined as they were received.

The blob store, the content encryption, the random identifier and the refusals of the operating
system are in an `Env`; the file system is a `Disk`, which also keeps what was made and written.
-/

namespace Tunnet.Send

open FileTree

/-! ### Offers, and the consent of the receiving side -/

/-- Consent mode for inbound file offers. -/
inductive SendConsentMode
  | autoAccept
  | prompt
  | deny

inductive ConsentDecision
  | accept
  | deny
  | prompt

/-- Resolve an inbound offer: shared-tag peers auto-accept under `prompt`. -/
def SendConsentMode.decide : SendConsentMode → Bool → ConsentDecision
  | .deny, _ => .deny
  | .autoAccept, _ => .accept
  | .prompt, true => .accept
  | .prompt, false => .prompt

/-- Whether the payload is a single blob or a HashSeq collection (directory). -/
inductive SendBlobFormat
  | blob
  | hashSeq
deriving DecidableEq

structure TransferOffer where
  transferId : String
  /-- BLAKE3 hash as hex. -/
  hash : String
  format : SendBlobFormat
  fileName : String
  size : Nat
  senderEndpointId : String
  message : Option String
  isDirectory : Bool
deriving DecidableEq

/-! ### The export -/

abbrev Hash := List UInt8

abbrev Bytes := List UInt8

abbrev FileDisk := Disk String Bytes

/-- What `export_to_inbox` reads besides the offer. -/
structure Env where
  cwd : Loc String
  inboxPath : Path
  contentKey : Option String
  /-- `Collection::load`: the names and hashes of the entries. -/
  collection : Hash → Except String (List (String × Hash))
  /-- The blob store. -/
  blob : Hash → Except String Bytes
  /-- `decrypt_content`. -/
  decrypt : String → Bytes → Except String Bytes
  /-- Places at which the operating system refuses to make or write anything. -/
  denies : Loc String → Bool
  /-- The text of `Uuid::new_v4`. -/
  uuid : String

/-- The errors, with the name of the entry they are about. -/
inductive ExportError
  | io (e : IoError)
  | loadCollection (e : String)
  | getEncryptedBlob (entry : Option String) (e : String)
  | decrypt (e : String)
  | exportBlob (entry : Option String) (e : String)
  | exportIo (entry : Option String) (e : IoError)

def sanitizeFileName (name : String) : String :=
  let name := Str.trimStartMatches (fun c => c == '/' || c == '\\') (Str.trim name)
  if name = "" ∨ name = "." ∨ name = ".." then "file"
  else Str.replace (fun c => c == '/' || c == '\\' || c == '\x00') '_' name

/-- Append a suffix to the stem until there is no such file. -/
def uniquePath (cwd : Loc String) (t : Tree String Bytes) (uuid : String) (path : Path) : Path :=
  if !path.exists' cwd t then path
  else
    let stem := path.fileStem.getD "file"
    let ext := (path.extension.map ("." ++ ·)).getD ""
    let parent := path.parent.getD (Path.parse "")
    let candidate (suffix : String) := parent.join (Path.parse (stem ++ "-" ++ suffix ++ ext))
    match ((List.range' 1 9999).map fun i => candidate (toString i)).find?
      fun path => !path.exists' cwd t with
    | some path => path
    | none => candidate uuid

variable (env : Env)

/-- Write one blob to its target. -/
def exportBlob (d : FileDisk) (entry : Option String) (hash : Hash) (target : Path) :
    FileDisk × Except ExportError Unit :=
  match env.contentKey with
  | some key =>
    match env.blob hash with
    | .error e => (d, .error (.getEncryptedBlob entry e))
    | .ok enc =>
      match env.decrypt key enc with
      | .error e => (d, .error (.decrypt e))
      | .ok plain =>
        match writePath env.cwd env.denies d target plain with
        | (d, .error e) => (d, .error (.io e))
        | (d, .ok ()) => (d, .ok ())
  | none =>
    match env.blob hash with
    | .error e => (d, .error (.exportBlob entry e))
    | .ok content =>
      match writePath env.cwd env.denies d target content with
      | (d, .error e) => (d, .error (.exportIo entry e))
      | (d, .ok ()) => (d, .ok ())

/-- One entry of a collection. -/
def exportEntry (d : FileDisk) (destDir : Path) (entry : String × Hash) :
    FileDisk × Except ExportError Unit :=
  let target := destDir.join (Path.parse entry.1)
  match target.parent with
  | none => exportBlob env d (some entry.1) entry.2 target
  | some parent =>
    match createDirAll env.cwd env.denies d parent with
    | (d, .error e) => (d, .error (.io e))
    | (d, .ok ()) => exportBlob env d (some entry.1) entry.2 target

def exportEntries (d : FileDisk) (destDir : Path) :
    List (String × Hash) → FileDisk × Except ExportError Unit
  | [] => (d, .ok ())
  | entry :: entries =>
    match exportEntry env d destDir entry with
    | (d, .error e) => (d, .error e)
    | (d, .ok ()) => exportEntries d destDir entries

/-- The offer is for a collection. -/
def TransferOffer.isCollection (offer : TransferOffer) : Bool :=
  offer.isDirectory || offer.format == .hashSeq

/-- The directory of a collection and its entries. -/
def exportCollection (d : FileDisk) (destDir : Path) (hash : Hash) :
    FileDisk × Except ExportError Path :=
  match createDirAll env.cwd env.denies d destDir with
  | (d, .error e) => (d, .error (.io e))
  | (d, .ok ()) =>
    match env.collection hash with
    | .error e => (d, .error (.loadCollection e))
    | .ok entries =>
      match exportEntries env d destDir entries with
      | (d, .error e) => (d, .error e)
      | (d, .ok ()) => (d, .ok destDir)

def exportToInbox (d : FileDisk) (offer : TransferOffer) (hash : Hash) :
    FileDisk × Except ExportError Path :=
  match createDirAll env.cwd env.denies d env.inboxPath with
  | (d, .error e) => (d, .error (.io e))
  | (d, .ok ()) =>
    let safeName := sanitizeFileName offer.fileName
    let target := uniquePath env.cwd d.tree env.uuid (env.inboxPath.join (Path.parse safeName))
    if offer.isCollection then exportCollection env d target hash
    else
      match exportBlob env d none hash target with
      | (d, .error e) => (d, .error e)
      | (d, .ok ()) => (d, .ok target)

end Tunnet.Send
