/-!
# What the protocols share

The errors with which a protocol answers.
-/

namespace Porthmos

inductive ErrorKind
  | connect
  | auth
  | authRejected
  | sessionStart
  | cancelled
  | notFound
  | permissionDenied
  | unsupported
  | other
  deriving DecidableEq, Repr

structure ProtocolError where
  kind : ErrorKind
  message : String
  deriving DecidableEq, Repr

end Porthmos
