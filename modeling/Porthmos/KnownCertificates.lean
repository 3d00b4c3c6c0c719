import Porthmos.Disk
import Porthmos.OrderedMap
import Porthmos.Vfs
import Mathlib.Data.String.Basic

/-!
# Pinned certificates

A connection attempt looks its host up in the file of known certificates while it shakes hands.
For an unknown certificate it asks the user, and a confirmed one is remembered: the file is read,
the pin is inserted, the whole document is written to a temporary file, and that is renamed.  Then
the attempt starts again.

The attempts run at the same time, and nothing orders their steps.
-/

namespace Porthmos

structure CertificateDetails where
  fingerprint : String
  subject : String
  expires : String
  deriving DecidableEq, Repr

structure Pinned where
  sha256 : String
  subject : String
  expires : String
  deriving DecidableEq, Repr

/-- What the file of known certificates says, by `host:port`. -/
abbrev Pins := OrderedMap String Pinned

/-- The two functions of the `toml` crate that the store uses. -/
structure Toml where
  toText : Pins → Except String (List Char)
  fromText : List Char → Except String Pins

/-- A document that was written is read back. -/
def Toml.ReadsBack (toml : Toml) : Prop :=
  ∀ pins contents, toml.toText pins = .ok contents → toml.fromText contents = .ok pins

/-- The file of known certificates and its temporary file. -/
inductive StoreFile
  | known
  | temporary
  deriving DecidableEq, Repr

inductive TrustProblem
  | unknown (details : CertificateDetails)
  | changed
  | store (message : String)
  deriving DecidableEq, Repr

def pinKey (host : String) (port : Nat) : String := host ++ ":" ++ toString port

def CertificateDetails.pinned (details : CertificateDetails) : Pinned where
  sha256 := details.fingerprint
  subject := details.subject
  expires := details.expires

/-- `KnownCertificates`, with the path as messages show it. -/
structure KnownCertificates where
  path : String
  toml : Toml

namespace KnownCertificates

variable (store : KnownCertificates)

def storeError (err : String) : ProtocolError where
  kind := .connect
  message := "invalid " ++ store.path ++ ": " ++ err

def load (disk : Disk StoreFile Char) : Except ProtocolError Pins :=
  match disk.read .known with
  | none => .ok OrderedMap.empty
  | some contents => (store.toml.fromText contents).mapError store.storeError

def lookup (disk : Disk StoreFile Char) (host : String) (port : Nat) :
    Except ProtocolError (Option String) :=
  (store.load disk).map fun pins => (pins.get? (pinKey host port)).map Pinned.sha256

/-- `verify_server_cert`.  `system` says whether the web PKI accepts the certificate, and
`presented` are its details. -/
def verifyServerCert (disk : Disk StoreFile Char) (host : String) (port : Nat) (system : Bool)
    (presented : CertificateDetails) : Except TrustProblem Unit :=
  if system then .ok ()
  else
    match store.lookup disk host port with
    | .ok (some pinned) => if pinned = presented.fingerprint then .ok () else .error .changed
    | .ok none => .error (.unknown presented)
    | .error err => .error (.store err.message)

def certificateChanged (host : String) (port : Nat) : ProtocolError where
  kind := .connect
  message := "CERTIFICATE CHANGED for " ++ pinKey host port ++
    " — refusing to connect (see " ++ store.path ++ ")"

end KnownCertificates

/-- How far an attempt has come. -/
inductive VerifyStage
  | handshake
  /-- `ask_to_trust` waits for the answer of the user. -/
  | asking (details : CertificateDetails)
  /-- The user has confirmed, and `remember` has read nothing yet. -/
  | trusting (details : CertificateDetails)
  /-- `remember` has the new document. -/
  | merged (details : CertificateDetails) (contents : List Char)
  /-- `std::fs::write` has the temporary file open. -/
  | writing (details : CertificateDetails) (file : Nat) (written left : List Char)
  | verified
  | failed (error : ProtocolError)

structure Verification where
  host : String
  port : Nat
  stage : VerifyStage

def Verification.key (attempt : Verification) : String := pinKey attempt.host attempt.port

def Verification.at (attempt : Verification) (stage : VerifyStage) : Verification :=
  { attempt with stage := stage }

/-- The files and all attempts.  `owed` is what the user has confirmed, by attempt, save for what
the system refused to write. -/
structure Trust where
  disk : Disk StoreFile Char
  attempts : Nat → Verification
  owed : List (Nat × CertificateDetails)

inductive TrustStep
  /-- The server presents a certificate. -/
  | handshake (id : Nat) (system : Bool) (presented : CertificateDetails)
  | answer (id : Nat) (confirmed : Bool)
  /-- Read the file and insert the pin. -/
  | load (id : Nat)
  /-- Open the temporary file. -/
  | create (id : Nat)
  /-- Write the next letters to the temporary file. -/
  | write (id : Nat) (count : Nat)
  /-- Close the temporary file, all of which is written, and rename it. -/
  | rename (id : Nat)
  /-- The system refuses the next operation on a file. -/
  | refuse (id : Nat) (err : String)

namespace Trust

variable (store : KnownCertificates) (trust : Trust)

def setStage (id : Nat) (stage : VerifyStage) : Trust :=
  { trust with attempts := Function.update trust.attempts id ((trust.attempts id).at stage) }

def setDisk (disk : Disk StoreFile Char) : Trust := { trust with disk := disk }

/-- The attempt ends with an error of its own, and nothing is owed for it. -/
def giveUp (id : Nat) (details : CertificateDetails) (err : String) : Trust :=
  { trust.setStage id (.failed (store.storeError err)) with
    owed := trust.owed.filter fun entry => decide (entry ≠ (id, details)) }

def handshake (id : Nat) (system : Bool) (presented : CertificateDetails) : Trust :=
  let attempt := trust.attempts id
  match store.verifyServerCert trust.disk attempt.host attempt.port system presented with
  | .ok () => trust.setStage id .verified
  | .error (.unknown details) => trust.setStage id (.asking details)
  | .error .changed =>
    trust.setStage id (.failed (store.certificateChanged attempt.host attempt.port))
  | .error (.store message) => trust.setStage id (.failed ⟨.connect, message⟩)

def answer (id : Nat) (details : CertificateDetails) (confirmed : Bool) : Trust :=
  if confirmed then
    { trust.setStage id (.trusting details) with owed := (id, details) :: trust.owed }
  else trust.setStage id (.failed ⟨.cancelled, "Connection cancelled"⟩)

/-- The first half of `remember`. -/
def load (id : Nat) (details : CertificateDetails) : Trust :=
  match store.load trust.disk with
  | .error err => trust.setStage id (.failed err)
  | .ok pins =>
    match store.toml.toText (pins.insert (trust.attempts id).key details.pinned) with
    | .error err => trust.giveUp store id details err
    | .ok contents => trust.setStage id (.merged details contents)

def create (id : Nat) (details : CertificateDetails) (contents : List Char) : Trust :=
  let opened := trust.disk.create .temporary
  (trust.setDisk opened.2).setStage id (.writing details opened.1 [] contents)

def write (id : Nat) (details : CertificateDetails) (file : Nat) (written left : List Char)
    (count : Nat) : Trust :=
  let disk := trust.disk.writeAt '\x00' file written.length (left.take count)
  (trust.setDisk disk).setStage id
    (.writing details file (written ++ left.take count) (left.drop count))

def rename (id : Nat) : Trust :=
  match trust.disk.rename .temporary .known with
  | none =>
    trust.setStage id (.failed (store.storeError "No such file or directory (os error 2)"))
  | some disk => (trust.setDisk disk).setStage id .handshake

/-- A step of an attempt that is not there to take it changes nothing. -/
def next : TrustStep → Trust
  | .handshake id system presented =>
    match (trust.attempts id).stage with
    | .handshake => trust.handshake store id system presented
    | _ => trust
  | .answer id confirmed =>
    match (trust.attempts id).stage with
    | .asking details => trust.answer id details confirmed
    | _ => trust
  | .load id =>
    match (trust.attempts id).stage with
    | .trusting details => trust.load store id details
    | _ => trust
  | .create id =>
    match (trust.attempts id).stage with
    | .merged details contents => trust.create id details contents
    | _ => trust
  | .write id count =>
    match (trust.attempts id).stage with
    | .writing details file written left => trust.write id details file written left count
    | _ => trust
  | .rename id =>
    match (trust.attempts id).stage with
    | .writing _ _ _ [] => trust.rename store id
    | _ => trust
  | .refuse id err =>
    match (trust.attempts id).stage with
    | .trusting details => trust.giveUp store id details err
    | .merged details _ => trust.giveUp store id details err
    | .writing details _ _ _ => trust.giveUp store id details err
    | _ => trust

def after (trust : Trust) : List TrustStep → Trust
  | [] => trust
  | step :: steps => after (trust.next store step) steps

end Trust

end Porthmos
