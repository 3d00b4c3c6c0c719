import Porthmos.TransferJob

/-!
# File systems

What the planner asks a file system for, and what it gets.  The source of a copy
does not change and its answers depend on the path alone; the destination is
changed by the directories the planner creates, so it carries a state.
-/

namespace Porthmos

inductive FileKind
  | file
  | dir
  | symlink
  deriving DecidableEq, Repr

structure Metadata where
  size : Nat
  modified : Option Nat
  kind : FileKind
  deriving DecidableEq, Repr

def Metadata.isDir (metadata : Metadata) : Bool := metadata.kind = .dir

structure DirItem where
  name : String
  path : Path
  metadata : Metadata
  deriving DecidableEq, Repr

structure Entry where
  name : String
  path : Path
  isDir : Bool
  size : Nat
  deriving DecidableEq, Repr

/-- A file system that does not change. -/
structure SourceFs (error : Type*) where
  readDir : Path → Except error (List DirItem)
  stat : Path → Except error Metadata

/-- A file system with a state. -/
structure DestinationFs (error state : Type*) where
  readDir : state → Path → Except error (List DirItem)
  stat : state → Path → Except error Metadata
  createDir : state → Path → Except error state

/-- `part_path` -/
def partPath (path : Path) : Path := path.pushText partSuffix

end Porthmos
