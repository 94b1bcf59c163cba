import Cdk.Gateway.Certify
import Cdk.Library.Exchange
import Mathlib.Data.List.AList

/-!
# The gateway's handler

What the gateway does with one message of the peer protocol: its capability
directory (exports, imports, messages between nodes, revocations), the file of
the sealed store, and `handlePeer`, which answers with statuses and blobs.  The
disk and the clock are inputs, so every failure of a file operation is one of
the values of `Disk`.
-/

namespace Cdk.Gateway

open ByteFormat Link Peer BlobKind

/-! ## Files -/

abbrev Directory := AList fun _ : Bytes => Bytes

/-- How the disk and the clock behave while one message is handled. -/
structure Disk where
  now : UInt64
  random : UInt32
  /-- Writing fails, before the target has changed. -/
  writeFault : Option Text
  /-- The flush after the store file was replaced fails. -/
  flushFault : Option Text
  readFault : Bytes → Option Text

def asText (bytes : Bytes) : Text := bytes.map fun byte => Char.ofNat byte.toNat

def notFound : Text := "No such file or directory (os error 2)".toList

/-- Read a file of a directory. -/
def readFile (disk : Disk) (directory : Directory) (name : Bytes) : Except Text Bytes :=
  match disk.readFault name with
  | some error => .error error
  | none =>
    match directory.lookup name with
    | none => .error notFound
    | some data => .ok data

/-- Write a file. -/
def replaceFile (disk : Disk) (directory : Directory) (name data : Bytes) : Except Text Directory :=
  match disk.writeFault with
  | some error => .error error
  | none => .ok (directory.insert name data)

/-! ## The capability directory -/

/-- The gateway's capability outbox and inbox. -/
structure CapDir where
  root : Text
  revoked : Option Text
  outbox : Directory
  inbox : Directory
  done : Directory
  rejected : Directory

namespace CapDir

/-- The file of a portable capability. -/
def pcap (name : Bytes) : Bytes := name ++ ascii ".pcap"

/-- The file of a peer message. -/
def pmsg (name : Bytes) : Bytes := name ++ ascii ".pmsg"

variable (disk : Disk) (caps : CapDir)

/-- Write an export to the outbox. -/
def writeExport (payload : Bytes) : CapDir × Except Text Text :=
  match payload with
  | [] => (caps, .error "empty export".toList)
  | count :: rest =>
    if rest.length < count.toNat then (caps, .error "short export".toList)
    else match Name.ofBytes? validFileName (rest.take count.toNat) with
      | none => (caps, .error "bad file name".toList)
      | some name =>
        let cap := rest.drop count.toNat
        match PortableCap.decode cap with
        | none => (caps, .error "not a portable capability".toList)
        | some _ =>
          match replaceFile disk caps.outbox (pcap name.text) cap with
          | .error error => (caps, .error error)
          | .ok outbox =>
            ({ caps with outbox := outbox },
              .ok (caps.root ++ "/outbox/".toList ++ asText (pcap name.text)))

/-- Queue a peer message. -/
def writeOutbound (message : Bytes) : CapDir × Except Text Text :=
  match PeerMessage.decode message with
  | none => (caps, .error "not a peer message".toList)
  | some _ =>
    let name := "msg-".toList ++ Nat.toDigits 10 disk.now.toNat ++
      "-".toList ++ HexText.hexDigits 8 disk.random.toNat
    match replaceFile disk caps.outbox (pmsg (utf8 name)) message with
    | .error error => (caps, .error error)
    | .ok outbox => ({ caps with outbox := outbox }, .ok name)

/-- File a message that was handled. -/
def fileInbound (name : FileName) (accepted : Bool) : CapDir × Except Text Unit :=
  match disk.writeFault, caps.inbox.lookup (pmsg name.text) with
  | some error, _ => (caps, .error error)
  | none, none => (caps, .error notFound)
  | none, some data =>
    let inbox := caps.inbox.erase (pmsg name.text)
    if accepted then
      ({ caps with
          inbox := inbox
          done := caps.done.insert (pmsg name.text) data }, .ok ())
    else
      ({ caps with
          inbox := inbox
          rejected := caps.rejected.insert (pmsg name.text) data }, .ok ())

def inboundStem (file : Bytes) : Option FileName :=
  let stem := file.take (file.length - 5)
  if file = pmsg stem then Name.ofBytes? validFileName stem else none

def inboundNames : List FileName :=
  (caps.inbox.keys.filterMap inboundStem).mergeSort
    fun first second => decide (first.text ≤ second.text)

/-- The first of the named messages that can be read and is not too large; those
that are too large are rejected on the way. -/
def firstInbound (disk : Disk) (caps : CapDir) : List FileName → CapDir × Option Bytes
  | [] => (caps, none)
  | name :: rest =>
    match readFile disk caps.inbox (pmsg name.text) with
    | .error _ => firstInbound disk caps rest
    | .ok data =>
      if data.length + 64 > maxBlob then
        firstInbound disk (fileInbound disk caps name false).1 rest
      else (caps, some (name.bytes ++ le64 disk.now ++ data))

def nextInbound : CapDir × Option Bytes :=
  firstInbound disk caps caps.inboundNames

/-- Record a revocation. -/
def addRevocation (serial : UInt64) : CapDir × Except Text Unit :=
  if (revocations caps.revoked).contains serial then (caps, .ok ())
  else match disk.writeFault with
    | some error => (caps, .error error)
    | none =>
      ({ caps with revoked := Gateway.addRevocation caps.revoked serial }, .ok ())

/-- An import with the time before it. -/
def readImport (name : FileName) : Except Text Bytes :=
  match readFile disk caps.inbox (pcap name.text) with
  | .error error =>
    .error (caps.root ++ "/inbox/".toList ++ asText (pcap name.text) ++ ": ".toList ++ error)
  | .ok data =>
    if data.length + 8 > maxBlob then .error "file too large".toList
    else .ok (le64 disk.now ++ data)

end CapDir

/-! ## The store file -/

/-- The file of the sealed store. -/
structure StoreFile where
  path : Text
  contents : Option Bytes

namespace StoreFile

def read (disk : Disk) (file : StoreFile) : Except Text (Option Bytes) :=
  match disk.readFault (utf8 file.path) with
  | some error => .error (file.path ++ ": ".toList ++ error)
  | none => .ok file.contents

/-- Replace the envelope durably; returns its counter. -/
def write (disk : Disk) (file : StoreFile) (bytes : Bytes) : StoreFile × Except Text UInt64 :=
  match Envelope.decode bytes with
  | none => (file, .error "not a sealed-store envelope".toList)
  | some envelope =>
    match disk.writeFault, disk.flushFault with
    | some error, _ => (file, .error error)
    | none, some error => ({ file with contents := some bytes }, .error error)
    | none, none =>
      ({ file with contents := some bytes }, .ok envelope.counter)

end StoreFile

/-! ## The handler -/

/-- What the gateway keeps between messages. -/
structure Host where
  /-- The kernel's attestation was accepted. -/
  serving : Bool
  caps : CapDir
  sealed : Option StoreFile
  blobs : BlobAssembler

def status (result : Except Text Text) : List Bytes :=
  match result with
  | .ok note => [encodeStatus true note]
  | .error error => [encodeStatus false error]

def noStore : Text := "the gateway keeps no store (--store)".toList

variable (disk : Disk)

/-- A complete blob. -/
def onBlob (host : Host) (kind : UInt8) (data : Bytes) : Host × List Bytes :=
  if kind = export.byte then
    let written := host.caps.writeExport disk data
    ({ host with caps := written.1 }, status (written.2.map ("written to ".toList ++ ·)))
  else if kind = outbound.byte then
    let written := host.caps.writeOutbound disk data
    ({ host with caps := written.1 }, status (written.2.map ("queued ".toList ++ ·)))
  else if kind = store.byte then
    match host.sealed with
    | none => (host, status (.error noStore))
    | some file =>
      let written := file.write disk data
      ({ host with sealed := some written.1 }, status (written.2.map fun _ => "stored".toList))
  else (host, [])

/-- A chunk of a blob. -/
def onChunk (host : Host) : BlobAssembler.Outcome → Host × List Bytes
  | .ok (some (kind, data)) => onBlob disk host kind data
  | .ok none => (host, [])
  | .error error => (host, status (.error error.toList))

/-- Answer with an import. -/
def onImportRequest (host : Host) (message : Bytes) : List Bytes :=
  match decodeImportRequest message with
  | none => status (.error "bad import request".toList)
  | some name =>
    match host.caps.readImport disk name with
    | .ok data => (encodeBlob import.byte data).getD []
    | .error error => status (.error error)

/-- Answer with the sealed store. -/
def onStoreGet (host : Host) : List Bytes :=
  match host.sealed with
  | none => status (.error noStore)
  | some file =>
    match file.read disk with
    | .ok (some data) => (encodeBlob store.byte data).getD []
    | .ok none => status (.ok "no store yet".toList)
    | .error error => status (.error error)

/-- Record a revocation and answer. -/
def onRevoke (host : Host) (message : Bytes) : Host × List Bytes :=
  match decodeRevoke message with
  | none => (host, status (.error "bad revocation".toList))
  | some serial =>
    let recorded := host.caps.addRevocation disk serial
    ({ host with caps := recorded.1 },
      status (recorded.2.map fun _ => "recorded by the gateway".toList))

def notAttested : Text := "the gateway refuses: CDK not attested".toList

/-- Serve a peer message. -/
def handlePeer (host : Host) (message : Bytes) : Host × List Bytes :=
  if !host.serving then (host, status (.error notAttested))
  else match message with
    | [] => (host, [])
    | tag :: _ =>
      if tag = blobTag then
        let pushed := host.blobs.push message
        onChunk disk { host with blobs := pushed.1 } pushed.2
      else if tag = importRequestTag then
        (host, onImportRequest disk host message)
      else if tag = nextInboundTag then
        let next := host.caps.nextInbound disk
        ({ host with caps := next.1 },
          match next.2 with
          | some data => (encodeBlob inbound.byte data).getD []
          | none => status (.ok "none".toList))
      else if tag = inboundDoneTag then
        match decodeInboundDone message with
        | some (name, accepted) =>
          ({ host with
            caps := (host.caps.fileInbound disk name accepted).1 }, [])
        | none => (host, [])
      else if tag = storeGetTag then (host, onStoreGet disk host)
      else if tag = revokeTag then onRevoke disk host message
      else (host, [])

/-! ## What the handler does -/

variable {host : Host}

theorem handlePeer_unattested (message : Bytes) (refusing : host.serving = false) :
    handlePeer disk host message = (host, status (.error notAttested)) := by
  simp [handlePeer, refusing]

theorem handlePeer_chunk (serving : host.serving) (chunk : IsChunk message) :
    handlePeer disk host message = onChunk disk { host with blobs := (host.blobs.push message).1 }
        (host.blobs.push message).2 := by
  cases message with
  | nil => cases chunk
  | cons tag rest =>
    cases chunk
    simp [handlePeer, serving]

theorem handlePeer_importRequest (file : FileName) (serving : host.serving) :
    handlePeer disk host (encodeImportRequest file.text) =
      (host, match host.caps.readImport disk file with
        | .ok data => (encodeBlob import.byte data).getD []
        | .error error => status (.error error)) := by
  have decoded := decodeImportRequest_encodeImportRequest file
  have handled : handlePeer disk host (encodeImportRequest file.text) =
      (host, onImportRequest disk host (encodeImportRequest file.text)) := by
    simp [handlePeer, serving, encodeImportRequest, importRequestTag, blobTag]
  rw [handled, onImportRequest, decoded]

theorem handlePeer_storeGet (serving : host.serving) :
    handlePeer disk host [storeGetTag] = (host, onStoreGet disk host) := by
  simp [handlePeer, serving, storeGetTag, blobTag, importRequestTag, nextInboundTag, inboundDoneTag]

theorem handlePeer_revoke (serial : UInt64) (serving : host.serving) :
    handlePeer disk host (encodeRevoke serial) =
      ({ host with caps := (host.caps.addRevocation disk serial).1 },
        status ((host.caps.addRevocation disk serial).2.map
          fun _ => "recorded by the gateway".toList)) := by
  have decoded : decodeRevoke (encodeRevoke serial) = some serial := by
    simp [decodeRevoke, encodeRevoke]
  have handled : handlePeer disk host (encodeRevoke serial) =
      onRevoke disk host (encodeRevoke serial) := by
    simp [handlePeer, serving, encodeRevoke, revokeTag, storeGetTag, blobTag,
      importRequestTag, nextInboundTag, inboundDoneTag]
  rw [handled, onRevoke, decoded]

variable {disk}

theorem CapDir.writeExport_ok {caps after : CapDir} {file : FileName} {cap : PortableCap}
    (written : caps.writeExport disk (file.bytes ++ cap.encode) = (after, .ok path)) :
    after.outbox.lookup (pcap file.text) = some cap.encode := by
  have short := length_fileName file
  have count : (UInt8.ofNat file.text.length).toNat = file.text.length := by
    rw [UInt8.toNat_ofNat']
    omega
  simp only [writeExport, Name.bytes, List.cons_append, count,
    List.take_left, List.drop_left, Name.ofBytes?_text,
    PortableCap.decode_encode, List.length_append] at written
  rw [if_neg (by omega)] at written
  unfold replaceFile at written
  split at written
  · cases written
  rename_i outbox replaced
  split at replaced
  · cases replaced
  · cases replaced
    cases written
    exact AList.lookup_insert _

theorem CapDir.readImport_ok {caps : CapDir} (read : caps.readImport disk file = .ok data) :
    ∃ contents, caps.inbox.lookup (pcap file.text) = some contents ∧
      data = le64 disk.now ++ contents := by
  unfold readImport at read
  split at read
  · cases read
  rename_i contents found
  split at read
  · cases read
  cases read
  refine ⟨contents, ?_, rfl⟩
  unfold readFile at found
  split at found
  · cases found
  split at found
  · cases found
  · rename_i present
    cases found
    exact present

theorem CapDir.addRevocation_ok {caps after : CapDir}
    (recorded : caps.addRevocation disk serial = (after, .ok ())) :
    after.revoked = Gateway.addRevocation caps.revoked serial := by
  unfold CapDir.addRevocation at recorded
  split at recorded
  · rename_i known
    cases recorded
    rw [Gateway.addRevocation, if_pos known]
  · split at recorded
    · cases recorded
    · cases recorded
      rfl

theorem StoreFile.write_ok {file after : StoreFile}
    (written : file.write disk bytes = (after, .ok counter)) : after.contents = some bytes := by
  unfold StoreFile.write at written
  split at written
  · cases written
  split at written
  · cases written
  · cases written
  · cases written
    rfl

end Cdk.Gateway
