import Porthmos.Requests
import Porthmos.S3Staging
import Porthmos.OrderedMap
import Porthmos.Vfs
import Mathlib.Order.Nat

/-!
# The file system over an object store

Every operation is a program of requests.  A request is one call of the service, or the pages of
one listing, and what this client remembers of its own uploads is asked for in the same way, since
all operations share it.
-/

namespace Porthmos

structure S3Bucket where
  name : String
  created : Option Nat
  deriving DecidableEq, Repr

structure S3Object where
  key : String
  size : Nat
  modified : Option Nat
  deriving DecidableEq, Repr

structure S3Listing where
  objects : List S3Object
  prefixes : List String
  deriving DecidableEq, Repr

/-- `Started`: an upload of this client, with the parts it has sent. -/
structure StartedUpload where
  bucket : String
  key : String
  id : String
  parts : OrderedMap Nat (String × Nat)

namespace StartedUpload

def upload (started : StartedUpload) : Upload := ⟨started.key, started.id, none⟩

/-- `Started::parts` -/
def sent (started : StartedUpload) : List UploadPart :=
  started.parts.entries.map fun (number, etag, size) => ⟨number, size, etag, none⟩

end StartedUpload

/-- The answers to a `GET` of an object; nothing is unsatisfiable from its start on. -/
inductive GetReply
  | unsatisfiable
  /-- The bytes from the asked place on. -/
  | ranged (body : List UInt8)
  | whole (body : List UInt8)

/-- The answers to a deletion of several objects. -/
inductive DeleteReply
  | notImplemented
  | done (failures : List (String × String))

inductive S3Request : Type → Type
  | buckets : S3Request (List S3Bucket)
  /-- All pages of a listing, with or without the delimiter. -/
  | listing (bucket below : String) (folders : Bool) : S3Request S3Listing
  /-- At most one key of a listing. -/
  | peek (bucket below : String) : S3Request S3Listing
  | uploads (bucket below : String) (folders : Bool) : S3Request (List Upload)
  | parts (bucket key id : String) : S3Request (List UploadPart)
  | createUpload (bucket key : String) : S3Request String
  | sendPart (bucket key id : String) (number : Nat) (data : List UInt8) : S3Request String
  | completeUpload (bucket key id : String) (parts : List (Nat × String)) : S3Request Unit
  | abortUpload (bucket key id : String) : S3Request Unit
  | head (bucket key : String) : S3Request (Option Metadata)
  | get (bucket key : String) (offset : Nat) : S3Request GetReply
  | put (bucket key : String) : S3Request Unit
  | copyObject (bucket source target : String) : S3Request Unit
  | copyPart (bucket source target id : String) (number first last : Nat) :
      S3Request (Option String)
  | delete (bucket key : String) : S3Request Unit
  | deleteKeys (bucket : String) (keys : List String) : S3Request DeleteReply
  /-- The uploads that this client has started. -/
  | started : S3Request (List StartedUpload)
  | remember (bucket key id : String) : S3Request Unit
  | forget (id : String) : S3Request Unit
  /-- A sent part is added to its upload. -/
  | record (id : String) (number : Nat) (etag : String) (size : Nat) : S3Request Unit

abbrev S3Program := Program S3Request ProtocolError

structure S3Fs where
  bucket : Option String
  /-- `adjust` with the clock difference to the server. -/
  adjust : Option Nat → Option Nat

namespace S3Fs

open Program

variable (fs : S3Fs)

def deleteBatch : Nat := 1000

def copyLimit : Nat := 5 * 1024 * 1024 * 1024

def copyPartSize : Nat := 512 * 1024 * 1024

def folder : Metadata := ⟨0, none, .dir⟩

def file (size : Nat) (modified : Option Nat) : Metadata := ⟨size, modified, .file⟩

def bucketsRefused : ProtocolError :=
  ⟨.permissionDenied, "buckets can't be created or removed here"⟩

def alreadyExists (path : Path) : ProtocolError := ⟨.other, path.text ++ " already exists"⟩

def notFound (path : Path) : ProtocolError := ⟨.notFound, path.text ++ " not found"⟩

/-- `copy_ranges`: the first and last byte of every part. -/
def copyRanges (size part : Nat) : List (Nat × Nat) :=
  (List.range ((size + part - 1) / part)).map fun index =>
    (index * part, min ((index + 1) * part) size - 1)

def locate (path : Path) : S3Location := Porthmos.locate path fs.bucket

/-- `object`: the bucket and the key of a place that is no bucket. -/
def object (location : S3Location) : S3Program (String × String) :=
  match location with
  | .object bucket key => pure (bucket, key)
  | .root => fail bucketsRefused
  | .bucket _ => fail bucketsRefused

def startedUpload (bucket key : String) : S3Program (Option StartedUpload) := do
  let started ← send .started
  pure (started.reverse.find? fun upload => upload.bucket = bucket ∧ upload.key = key)

def knownParts (bucket key id : String) : S3Program (List UploadPart) := do
  match ← (send (.parts bucket key id)).attempt with
  | .error err =>
    if err.kind = .permissionDenied then
      let started ← send .started
      pure (((started.find? fun upload => upload.id = id).map StartedUpload.sent).getD [])
    else fail err
  | .ok parts => pure parts

/-- The upload that `pending` tells about. -/
def latestUpload (bucket key : String) : S3Program (Option Upload) := do
  let uploads ← send (.uploads bucket key false)
  match newest uploads key with
  | some upload => pure (some upload)
  | none =>
    let started ← startedUpload bucket key
    pure (started.map StartedUpload.upload)

def pending (bucket key : String) :
    S3Program (Option (Upload × UploadProgress × List UploadPart)) := do
  match ← latestUpload bucket key with
  | none => pure none
  | some upload =>
    let parts ← knownParts bucket key upload.id
    pure (some (upload, contiguous parts, parts))

def abort (bucket : String) (upload : Upload) : S3Program Unit := do
  send (.abortUpload bucket upload.key upload.id)
  send (.forget upload.id)

/-- All uploads of a key that `abort_all` knows, the listed ones and those of this client. -/
def uploadsOf (bucket key : String) (listed : List Upload) (started : List StartedUpload) :
    List Upload :=
  let own := started.filter fun upload => upload.bucket = bucket ∧ upload.key = key
  (own.map StartedUpload.upload).foldl
    (fun uploads upload =>
      if uploads.any fun known => known.id = upload.id then uploads else uploads ++ [upload])
    (listed.filter fun upload => upload.key = key)

def abortAll (bucket key : String) : S3Program Unit := do
  let listed ← send (.uploads bucket key false)
  let started ← send .started
  forEach (abort bucket) (uploadsOf bucket key listed started)

def createUpload (bucket key : String) : S3Program String := do
  let id ← send (.createUpload bucket key)
  send (.remember bucket key id)
  pure id

def completeWith (bucket key id : String) (parts : List (Nat × String)) : S3Program Unit := do
  send (.completeUpload bucket key id parts)
  send (.forget id)

def complete (bucket key id : String) : S3Program Unit := do
  let parts ← knownParts bucket key id
  completeWith bucket key id (completed parts)

/-- `part_sender` -/
def sendPart (bucket key id : String) (number : Nat) (data : List UInt8) : S3Program Unit := do
  let etag ← send (.sendPart bucket key id number data)
  send (.record id number etag data.length)

def deleteBatchOf (bucket : String) (path : Path) (batch : List String) : S3Program Unit := do
  match ← send (.deleteKeys bucket batch) with
  | .notImplemented => forEach (fun key => send (.delete bucket key)) batch
  | .done [] => pure ()
  | .done ((key, code) :: _) =>
    fail ⟨.other, path.text ++ ": could not delete " ++ key ++ " (" ++ code ++ ")"⟩

/-- `keys.chunks(DELETE_BATCH)` -/
def batches (keys : List String) : List (List String) :=
  (List.range ((keys.length + deleteBatch - 1) / deleteBatch)).map fun index =>
    (keys.drop (index * deleteBatch)).take deleteBatch

def deleteKeys (bucket : String) (keys : List String) (path : Path) : S3Program Unit :=
  forEach (deleteBatchOf bucket path) (batches keys)

def deleteFolder (bucket below : String) (path : Path) : S3Program Unit := do
  let listing ← send (.listing bucket below false)
  deleteKeys bucket (listing.objects.map S3Object.key) path
  let uploads ← send (.uploads bucket below false)
  forEach (abort bucket) uploads

def isFolder (bucket key : String) : S3Program Bool := do
  let page ← send (.peek bucket (key ++ "/"))
  pure (!page.objects.isEmpty || !page.prefixes.isEmpty)

/-- The last two steps of `find`. -/
def findObject (bucket key : String) : S3Program (Option Metadata) := do
  match ← send (.head bucket key) with
  | some metadata => pure (some metadata)
  | none =>
    let found ← isFolder bucket key
    pure (if found then some folder else none)

def find (path : Path) : S3Program (Option Metadata) :=
  match fs.locate path with
  | .root => pure (some folder)
  | .bucket _ => pure (some folder)
  | .object bucket key =>
    match stagedKey key with
    | none => findObject bucket key
    | some staged => do
        match ← pending bucket staged with
        | some (upload, progress, _) =>
          pure (some (file progress.size (fs.adjust (progress.modified.or upload.initiated))))
        | none => findObject bucket key

/-- The loop of `copy_parts`, with the parts that are copied. -/
def copyRangesOf (bucket source target id : String) (path : Path) :
    List (Nat × String) → List ((Nat × Nat) × Nat) → S3Program Unit
  | parts, [] => completeWith bucket target id parts
  | parts, ((first, last), index) :: ranges => do
      match ← send (.copyPart bucket source target id (index + 1) first last) with
      | none => fail ⟨.other, "the server did not confirm a copied part of " ++ path.text⟩
      | some etag => copyRangesOf bucket source target id path (parts ++ [(index + 1, etag)]) ranges

def copyParts (bucket source target id : String) (size : Nat) (path : Path) : S3Program Unit :=
  copyRangesOf bucket source target id path [] (copyRanges size copyPartSize).zipIdx

/-- The copy of an object that is too large for one request. -/
def copyLarge (bucket source target : String) (size : Nat) (path : Path) : S3Program Unit := do
  let id ← createUpload bucket target
  match ← (copyParts bucket source target id size path).attempt with
  | .ok () => pure ()
  | .error err =>
    let _ ← (abort bucket ⟨target, id, none⟩).attempt
    fail err

def copy (bucket source target : String) (size : Nat) (path : Path) : S3Program Unit := do
  if size ≤ copyLimit then send (.copyObject bucket source target)
  else copyLarge bucket source target size path
  let copied ← send (.head bucket target)
  if copied.any fun metadata => metadata.size = size then pure ()
  else
    let _ ← (send (.delete bucket target)).attempt
    fail ⟨.other, "the copy of " ++ path.text ++ " is incomplete"⟩

/-- One object of a folder that is moved. -/
def moveObject (bucket source target : String) (path : Path) (object : S3Object) :
    S3Program Unit := do
  let newKey := target ++ afterKeys object.key source
  match ← (copy bucket object.key newKey object.size path).attempt with
  | .ok () => pure ()
  | .error err =>
    fail ⟨.other, path.text ++ ": could not move " ++ object.key ++ " (" ++ err.message ++ ")"⟩

def moveFolder (bucket source target : String) (path : Path) : S3Program Unit := do
  let listing ← send (.listing bucket (source ++ "/") false)
  forEach (moveObject bucket source target path) listing.objects
  deleteKeys bucket (listing.objects.map S3Object.key) path
  let uploads ← send (.uploads bucket (source ++ "/") false)
  forEach (abort bucket) uploads

def stat (path : Path) : S3Program Metadata := do
  match ← fs.find path with
  | some metadata => pure metadata
  | none => fail (notFound path)

def createDir (path : Path) : S3Program Unit := do
  let (bucket, key) ← object (fs.locate path)
  send (.put bucket (key ++ "/"))

/-- `rename`, where it is no completion of a staged upload. -/
def renameObject (source target : Path) (bucket sourceKey targetKey : String) :
    S3Program Unit := do
  let metadata ← fs.stat source
  let existing ← fs.find target
  if metadata.isDir then
    if existing.isSome then fail (alreadyExists target)
    else moveFolder bucket sourceKey targetKey source
  else if existing.any Metadata.isDir then fail (alreadyExists target)
  else
    copy bucket sourceKey targetKey metadata.size source
    send (.delete bucket sourceKey)

def rename (source target : Path) : S3Program Unit := do
  let (bucket, sourceKey) ← object (fs.locate source)
  let (targetBucket, targetKey) ← object (fs.locate target)
  if bucket ≠ targetBucket then fail ⟨.other, "moving between buckets is not supported"⟩
  else if sourceKey = targetKey then pure ()
  else
    match (stagedKey sourceKey).filter fun staged => staged = targetKey with
    | none => fs.renameObject source target bucket sourceKey targetKey
    | some staged =>
      match ← pending bucket staged with
      | some (upload, _, _) => complete bucket staged upload.id
      | none => fs.renameObject source target bucket sourceKey targetKey

def removeFile (path : Path) : S3Program Unit := do
  let (bucket, key) ← object (fs.locate path)
  match stagedKey key with
  | none => send (.delete bucket key)
  | some staged =>
    let found ← pending bucket staged
    if found.isSome then abortAll bucket staged else send (.delete bucket key)

def delete (path : Path) : S3Program Unit := do
  let (bucket, key) ← object (fs.locate path)
  let metadata ← fs.stat path
  if metadata.isDir then deleteFolder bucket (key ++ "/") path else fs.removeFile path

def openRead (path : Path) (offset : Nat) : S3Program (List UInt8) := do
  let (bucket, key) ← object (fs.locate path)
  match ← send (.get bucket key offset) with
  | .unsatisfiable => pure []
  | .ranged body => pure body
  | .whole body =>
    if body.length < offset then
      fail ⟨.other, "the server sent fewer bytes than the resume offset"⟩
    else pure (body.drop offset)

/-- The names that `items` shows. -/
def shown (name : String) : Bool := name ≠ "" ∧ '/' ∉ name.toList

def listedFolders (base : Path) (below : String) (listing : S3Listing) : List DirItem :=
  let names := listing.prefixes.map fun keys => trimSlashes (afterKeys keys below)
  (names.filter shown).map fun name => ⟨name, base.join ⟨name⟩, folder⟩

def listedFiles (base : Path) (below : String) (listing : S3Listing) : List DirItem :=
  let named := listing.objects.map fun object => (afterKeys object.key below, object)
  (named.filter fun (name, _) => shown name).map fun (name, object) =>
    ⟨name, base.join ⟨name⟩, file object.size object.modified⟩

/-- The items of a listing with the delimiter. -/
def listedItems (base : Path) (below : String) (listing : S3Listing) : List DirItem :=
  listedFolders base below listing ++ listedFiles base below listing

/-- The loop of `items` over the uploads. -/
def uploadItems (base : Path) (bucket below : String) (uploads : List Upload) :
    List String → List DirItem → List Upload → S3Program (List DirItem)
  | _, items, [] => pure items
  | seen, items, upload :: rest =>
    if upload.key ∈ seen then uploadItems base bucket below uploads seen items rest
    else
      match newest uploads upload.key with
      | none => uploadItems base bucket below uploads (upload.key :: seen) items rest
      | some latest =>
        let name := afterKeys latest.key below ++ partSuffix
        if '/' ∈ name.toList ∨ items.any fun item => item.name = name then
          uploadItems base bucket below uploads (upload.key :: seen) items rest
        else do
          let progress := contiguous (← knownParts bucket latest.key latest.id)
          let metadata := file progress.size
            (fs.adjust (progress.modified.or latest.initiated))
          uploadItems base bucket below uploads (upload.key :: seen)
            (items ++ [⟨name, base.join ⟨name⟩, metadata⟩]) rest

def bucketItem (base : Path) (bucket : S3Bucket) : DirItem where
  name := bucket.name
  path := base.join ⟨bucket.name⟩
  metadata := { folder with modified := bucket.created }

def folderItems (base : Path) (bucket below : String) : S3Program (List DirItem) := do
  let listing ← send (.listing bucket below true)
  let uploads ← send (.uploads bucket below true)
  fs.uploadItems base bucket below uploads [] (listedItems base below listing) uploads

def items (dir : Path) : S3Program (List DirItem) :=
  let base := panelPath dir
  match fs.locate dir with
  | .root => do pure ((← send .buckets).map (bucketItem base))
  | .bucket bucket => fs.folderItems base bucket ""
  | .object bucket key => fs.folderItems base bucket (key ++ "/")

/-- `list`; `read_dir` is `items`. -/
def list (dir : Path) : S3Program (List Entry) := do
  pure ((← fs.items dir).map fun item =>
    ⟨item.name, item.path, item.metadata.isDir, item.metadata.size⟩)

end S3Fs

end Porthmos
