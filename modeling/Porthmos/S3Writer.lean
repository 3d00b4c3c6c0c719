import Porthmos.S3Fs

/-!
# Writing to an object store

What is written to a bucket goes out in parts.  A part is sent when the writer is next asked for
something, and a failed one is not sent again: the writer reports it and is of no more use.
-/

namespace Porthmos

/-- `MultipartWriter`, with the upload that `send` and `finish` are about.  A shutdown is run as a
whole, so `finishing` is never seen. -/
structure MultipartWriter where
  bucket : String
  key : String
  id : String
  next : Nat
  fresh : Bool
  sent : Bool
  buffer : List UInt8
  /-- The number and the bytes of a part that is on its way. -/
  pending : Option (Nat × List UInt8)
  /-- `finish` is still to be called. -/
  finish : Bool
  tooLarge : String

namespace MultipartWriter

open Program

/-- `MultipartWriter::new` -/
def new (bucket key id : String) (firstPart : Nat) (finish : Bool) (tooLarge : String) :
    MultipartWriter :=
  ⟨bucket, key, id, firstPart, firstPart = 1, false, [], none, finish, tooLarge⟩

/-- What becomes of the writer, and what it reports. -/
abbrev Reports (α : Type) := MultipartWriter × Except ProtocolError α

def startPart (writer : MultipartWriter) : Reports Unit :=
  if writer.next > maxParts then (writer, .error ⟨.other, writer.tooLarge⟩)
  else
    ({ writer with
        pending := some (writer.next, writer.buffer)
        buffer := []
        next := writer.next + 1
        sent := true }, .ok ())

/-- `poll_pending`, until the part is sent; `poll_flush` is the same. -/
def pollPending (writer : MultipartWriter) : S3Program (Reports Unit) :=
  match writer.pending with
  | none => pure (writer, .ok ())
  | some (number, data) => do
      let result ← (S3Fs.sendPart writer.bucket writer.key writer.id number data).attempt
      pure ({ writer with pending := none }, result)

/-- What `poll_write` does with the bytes when nothing is on its way. -/
def accept (writer : MultipartWriter) (bytes : List UInt8) : Reports Nat :=
  let accepted := min bytes.length (partSize - writer.buffer.length)
  let writer := { writer with buffer := writer.buffer ++ bytes.take accepted }
  if writer.buffer.length = partSize then
    match writer.startPart with
    | (writer, .ok ()) => (writer, .ok accepted)
    | (writer, .error err) => (writer, .error err)
  else (writer, .ok accepted)

def pollWrite (writer : MultipartWriter) (bytes : List UInt8) : S3Program (Reports Nat) := do
  match ← writer.pollPending with
  | (writer, .ok ()) => pure (writer.accept bytes)
  | (writer, .error err) => pure (writer, .error err)

/-- The last part, if there is one. -/
def sendRest (writer : MultipartWriter) : S3Program (Reports Unit) :=
  if writer.buffer ≠ [] ∨ (writer.fresh ∧ ¬writer.sent) then
    match writer.startPart with
    | (writer, .ok ()) => writer.pollPending
    | (writer, .error err) => pure (writer, .error err)
  else pure (writer, .ok ())

def pollShutdown (writer : MultipartWriter) : S3Program (Reports Unit) := do
  match ← writer.pollPending with
  | (writer, .error err) => pure (writer, .error err)
  | (writer, .ok ()) =>
    match ← writer.sendRest with
    | (writer, .error err) => pure (writer, .error err)
    | (writer, .ok ()) =>
      if writer.finish then do
        let result ← (S3Fs.complete writer.bucket writer.key writer.id).attempt
        pure ({ writer with finish := false }, result)
      else pure (writer, .ok ())

/-- `write_all`; the fuel is the length of what is left. -/
def writeAll : Nat → MultipartWriter → List UInt8 → S3Program (Reports Unit)
  | _, writer, [] => pure (writer, .ok ())
  | 0, writer, _ :: _ => pure (writer, .error ⟨.other, "write zero"⟩)
  | fuel + 1, writer, bytes => do
      match ← writer.pollWrite bytes with
      | (writer, .ok accepted) => writeAll fuel writer (bytes.drop accepted)
      | (writer, .error err) => pure (writer, .error err)

/-- The pieces of a copy, one after the other, until one fails. -/
def writePieces : MultipartWriter → List (List UInt8) → S3Program (Reports Unit)
  | writer, [] => pure (writer, .ok ())
  | writer, piece :: pieces => do
      match ← writeAll piece.length writer piece with
      | (writer, .ok ()) => writePieces writer pieces
      | (writer, .error err) => pure (writer, .error err)

end MultipartWriter

/-- What `open_write` gives: the stream and where it starts. -/
structure S3Writer where
  stream : MultipartWriter
  offset : Nat

namespace S3Fs

open Program

variable (fs : S3Fs)

/-- The upload of a new or restarted `.part` file. -/
def restartUpload (bucket staged tooLarge : String) : S3Program S3Writer := do
  abortAll bucket staged
  let id ← createUpload bucket staged
  pure ⟨.new bucket staged id 1 false tooLarge, 0⟩

def openStaged (bucket staged tooLarge : String) (offset : Nat) : S3Program S3Writer := do
  let found ← pending bucket staged
  match decideStart offset (found.map fun (upload, progress, _) => (upload.id, progress)) with
  | .resume id nextPart => pure ⟨.new bucket staged id nextPart false tooLarge, offset⟩
  | .restart => restartUpload bucket staged tooLarge

def openWrite (path : Path) (offset : Nat) : S3Program S3Writer := do
  let (bucket, key) ← object (fs.locate path)
  let tooLarge := path.text ++ " is too large for S3 multipart upload"
  match stagedKey key with
  | some staged => openStaged bucket staged tooLarge offset
  | none =>
    let id ← createUpload bucket key
    pure ⟨.new bucket key id 1 true tooLarge, 0⟩

end S3Fs

end Porthmos
