import Porthmos.RequestRuns
import Porthmos.S3Writer

/-!
# A service that keeps uploads

The service stores the parts of every upload until the upload is completed or aborted.  A request
that fails may have been carried out all the same.  Whether the account may list uploads and parts
does not change.
-/

namespace Porthmos

structure StoredPart where
  data : List UInt8
  etag : String
  modified : Option Nat

structure StoredUpload where
  bucket : String
  key : String
  id : String
  initiated : Option Nat
  parts : OrderedMap Nat StoredPart

namespace StoredUpload

/-- The upload that a request names. -/
def Is (stored : StoredUpload) (bucket key id : String) : Prop :=
  stored.bucket = bucket ∧ stored.key = key ∧ stored.id = id

instance (stored : StoredUpload) (bucket key id : String) : Decidable (stored.Is bucket key id) :=
  inferInstanceAs (Decidable (_ ∧ _))

def listed (stored : StoredUpload) : Upload := ⟨stored.key, stored.id, stored.initiated⟩

def listedParts (stored : StoredUpload) : List UploadPart :=
  stored.parts.entries.map fun (number, part) =>
    ⟨number, part.data.length, part.etag, part.modified⟩

def put (stored : StoredUpload) (number : Nat) (part : StoredPart) : StoredUpload :=
  { stored with parts := stored.parts.insert number part }

/-- The bytes of the named parts, if all are there as named. -/
def assembled (stored : StoredUpload) : List (Nat × String) → Option (List UInt8)
  | [] => some []
  | (number, etag) :: rest => do
      let part ← stored.parts.get? number
      if part.etag = etag then (stored.assembled rest).map (part.data ++ ·) else none

end StoredUpload

/-- What the account may do. -/
structure S3Policy where
  listsUploads : Bool
  listsParts : Bool

/-- The service, and what the client remembers. -/
structure S3Service where
  uploads : List StoredUpload
  objects : String → String → Option (List UInt8)
  started : List StartedUpload

namespace S3Service

def withUpload (service : S3Service) (bucket key id : String) (initiated : Option Nat) :
    S3Service :=
  { service with uploads := service.uploads ++ [⟨bucket, key, id, initiated, .empty⟩] }

def withPart (service : S3Service) (bucket key id : String) (number : Nat) (part : StoredPart) :
    S3Service :=
  { service with uploads := service.uploads.map fun stored =>
      if stored.Is bucket key id then stored.put number part else stored }

def withoutUpload (service : S3Service) (bucket key id : String) : S3Service :=
  { service with uploads := service.uploads.filter fun stored => ¬stored.Is bucket key id }

def withObject (service : S3Service) (bucket key : String) (contents : List UInt8) : S3Service :=
  { service with objects := fun place name =>
      if place = bucket ∧ name = key then some contents else service.objects place name }

/-- `remember` -/
def remembering (service : S3Service) (bucket key id : String) : S3Service :=
  { service with started :=
      (service.started.filter fun upload => upload.id ≠ id) ++ [⟨bucket, key, id, .empty⟩] }

/-- `forget` -/
def forgetting (service : S3Service) (id : String) : S3Service :=
  { service with started := service.started.filter fun upload => upload.id ≠ id }

/-- A sent part is noted.  No two remembered uploads have one id. -/
def recording (service : S3Service) (id : String) (number : Nat) (etag : String) (size : Nat) :
    S3Service :=
  { service with started := service.started.map fun upload =>
      if upload.id = id then { upload with parts := upload.parts.insert number (etag, size) }
      else upload }

/-- An upload with an id that no other one has. -/
def Creates (before after : S3Service) (bucket key id : String) : Prop :=
  (∀ stored ∈ before.uploads, stored.id ≠ id) ∧
    ∃ initiated, after = before.withUpload bucket key id initiated

def Stores (before after : S3Service) (bucket key id : String) (number : Nat)
    (data : List UInt8) (etag : String) : Prop :=
  (∃ stored ∈ before.uploads, stored.Is bucket key id) ∧
    ∃ modified, after = before.withPart bucket key id number ⟨data, etag, modified⟩

def Completes (before after : S3Service) (bucket key id : String) (parts : List (Nat × String)) :
    Prop :=
  parts ≠ [] ∧ ∃ stored ∈ before.uploads, stored.Is bucket key id ∧
    ∃ contents, stored.assembled parts = some contents ∧
      after = (before.withoutUpload bucket key id).withObject bucket key contents

end S3Service

/-- How the service and the memory of the client answer. -/
def S3Policy.serves (policy : S3Policy) : Program.Service S3Service S3Request ProtocolError
  | _, before, .uploads bucket below false, answer, after =>
    after = before ∧ ∀ listed, answer = .ok listed →
      if policy.listsUploads then
        ∀ upload, upload ∈ listed ↔ ∃ stored ∈ before.uploads, stored.bucket = bucket ∧
          (∃ rest, stored.key = below ++ rest) ∧ upload = stored.listed
      else listed = []
  | _, before, .parts bucket key id, .ok parts, after =>
    after = before ∧ policy.listsParts = true ∧
      ∃ stored ∈ before.uploads, stored.Is bucket key id ∧ parts.Perm stored.listedParts
  | _, before, .parts _ _ _, .error err, after =>
    after = before ∧ (policy.listsParts = true → err.kind ≠ .permissionDenied)
  | _, before, .createUpload bucket key, .ok id, after => before.Creates after bucket key id
  | _, before, .createUpload bucket key, .error _, after =>
    after = before ∨ ∃ id, before.Creates after bucket key id
  | _, before, .sendPart bucket key id number data, .ok etag, after =>
    before.Stores after bucket key id number data etag
  | _, before, .sendPart bucket key id number data, .error _, after =>
    after = before ∨ ∃ etag, before.Stores after bucket key id number data etag
  | _, before, .completeUpload bucket key id parts, .ok (), after =>
    before.Completes after bucket key id parts
  | _, before, .completeUpload bucket key id parts, .error _, after =>
    after = before ∨ before.Completes after bucket key id parts
  | _, before, .abortUpload bucket key id, .ok (), after =>
    after = before.withoutUpload bucket key id
  | _, before, .abortUpload bucket key id, .error _, after =>
    after = before ∨ after = before.withoutUpload bucket key id
  | _, before, .copyPart bucket _ target id number _ _, _, after =>
    after = before ∨ ∃ part, after = before.withPart bucket target id number part
  | _, before, .started, answer, after => answer = .ok before.started ∧ after = before
  | _, before, .remember bucket key id, answer, after =>
    answer = .ok () ∧ after = before.remembering bucket key id
  | _, before, .forget id, answer, after => answer = .ok () ∧ after = before.forgetting id
  | _, before, .record id number etag size, answer, after =>
    answer = .ok () ∧ after = before.recording id number etag size
  | _, before, .put _ _, _, after =>
    after.uploads = before.uploads ∧ after.started = before.started
  | _, before, .copyObject _ _ _, _, after =>
    after.uploads = before.uploads ∧ after.started = before.started
  | _, before, .delete _ _, _, after =>
    after.uploads = before.uploads ∧ after.started = before.started
  | _, before, .deleteKeys _ _, _, after =>
    after.uploads = before.uploads ∧ after.started = before.started
  | _, before, .buckets, _, after => after = before
  | _, before, .listing _ _ _, _, after => after = before
  | _, before, .peek _ _, _, after => after = before
  | _, before, .uploads _ _ true, _, after => after = before
  | _, before, .head _ _, _, after => after = before
  | _, before, .get _ _ _, _, after => after = before

end Porthmos
