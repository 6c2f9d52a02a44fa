import LfsCloud.LocalCache.Layout
import LfsCloud.Lib.CrashLogic
import LfsCloud.Pointer

/-!
# Files of the local cache and of a worktree

The operations of the local cache are programs over the file system. They stage what they
publish in temporary files, which they exchange with a file or move to where there is none.
Every call may fail, and a failed write may leave a part of its bytes.
-/

namespace LfsCloud

open Interaction

/-- A path below `objects_dir` of the cache, one in a repository, or one of a temporary file,
whose name nobody else uses. -/
inductive DiskPath
  | cache (path : FilePath)
  | worktree (path : FilePath)
  | temp (parent : DiskPath) (suffix : String)
  deriving DecidableEq, Repr

namespace DiskPath

/-- `parent`. -/
def parent : DiskPath → Option DiskPath
  | .cache path => some (.cache path.dropLast)
  | .worktree [] => none
  | .worktree path => some (.worktree path.dropLast)
  | .temp parent _ => some parent

/-- A path of a temporary file. -/
def isTemp : DiskPath → Bool
  | .temp _ _ => true
  | _ => false

end DiskPath

/-- `object_path`. -/
def objectPath (object : LfsObject) : DiskPath := .cache (objectPathForOid object.oid)

/-- `git_lfs_object_path`. -/
def gitLfsObjectPath (gitLfsObjectsDir : FilePath) (oid : LfsOid) : DiskPath :=
  .worktree (gitLfsObjectsDir ++ objectPathForOid oid)

/-- A regular file: its bytes, its permission bits and its number. -/
structure DiskFile where
  bytes : List UInt8
  mode : ℕ
  inode : ℕ
  deriving DecidableEq, Repr

/-- What a path names; a symbolic link may lead to a file. -/
inductive DiskNode
  | file (file : DiskFile)
  | symlink (target : Option DiskFile)
  | other
  deriving DecidableEq, Repr

/-- `io::ErrorKind`, as far as it is looked at. -/
inductive FileErrorKind
  | notFound
  | alreadyExists
  | invalidInput
  | invalidData
  | other
  deriving DecidableEq, Repr

/-- `fs::Metadata`. -/
inductive FileMetadata
  | file (len mode : ℕ)
  | symlink
  | other
  deriving DecidableEq, Repr

/-- The calls on files. A read takes all chunks of a file, without following a symbolic link or
following it. -/
inductive FileCall
  | metadata (path : DiskPath)
  | symlinkMetadata (path : DiskPath)
  | read (path : DiskPath)
  | readNoFollow (path : DiskPath)
  | createDirAll (path : DiskPath)
  | createTemp (parent : DiskPath)
  | write (temp : DiskPath) (bytes : List UInt8)
  | setPermissions (temp : DiskPath) (mode : ℕ)
  | persistNoclobber (temp path : DiskPath)
  | exchange (left right : DiskPath)
  | remove (temp : DiskPath)
  | sync (path : DiskPath)
  | lockShared
  | lockPath (stripe : String)
  | unlockPath (stripe : String)

/-- The answers to a call. -/
def FileAnswer : FileCall → Type
  | .metadata _ => Except FileErrorKind FileMetadata
  | .symlinkMetadata _ => Except FileErrorKind FileMetadata
  | .read _ => Except FileErrorKind (List (List UInt8))
  | .readNoFollow _ => Except FileErrorKind (List (List UInt8))
  | .createDirAll _ => Except FileErrorKind Unit
  | .createTemp _ => Except FileErrorKind DiskPath
  | .write _ _ => Except FileErrorKind Unit
  | .setPermissions _ _ => Except FileErrorKind Unit
  | .persistNoclobber _ _ => Except FileErrorKind Unit
  | .exchange _ _ => Except FileErrorKind Unit
  | .remove _ => Unit
  | .sync _ => Except FileErrorKind Unit
  | .lockShared => Except FileErrorKind Unit
  | .lockPath _ => Except FileErrorKind Unit
  | .unlockPath _ => Unit

/-- The interface of the file system. -/
def fileInterface : Interface := ⟨FileCall, FileAnswer⟩

/-- The files, the next number of a file, and the path locks that are held. -/
structure FileState where
  nodes : Table DiskPath DiskNode
  inodes : ℕ
  locked : List String

namespace FileState

/-- The regular file at a path. -/
def fileAt (s : FileState) (path : DiskPath) : Option DiskFile :=
  match s.nodes.lookup path with
  | some (.file file) => some file
  | _ => none

/-- The regular file that opening a path leads to. -/
def followed (s : FileState) (path : DiskPath) : Option DiskFile :=
  match s.nodes.lookup path with
  | some (.file file) => some file
  | some (.symlink target) => target
  | _ => none

/-- A file at a path. -/
def put (s : FileState) (path : DiskPath) (file : DiskFile) : FileState :=
  { s with nodes := s.nodes.insert path (.file file) }

/-- Two paths after an exchange. -/
def swap (s : FileState) (left right : DiskPath) (a b : DiskNode) : FileState :=
  { s with nodes := (s.nodes.insert left b).insert right a }

/-- A path after a move. -/
def move (s : FileState) (path dest : DiskPath) (node : DiskNode) : FileState :=
  { s with nodes := (s.nodes.erase path).insert dest node }

/-- A path after its removal. -/
def unlink (s : FileState) (path : DiskPath) : FileState :=
  { s with nodes := s.nodes.erase path }

/-- An empty file that was created. -/
def create (s : FileState) (path : DiskPath) : FileState :=
  { s with nodes := s.nodes.insert path (.file ⟨[], 0o600, s.inodes⟩), inodes := s.inodes + 1 }

end FileState

/-- The metadata of what a path leads to, or of the path itself. -/
def metadataOf : Option DiskNode → Except FileErrorKind FileMetadata
  | none => .error .notFound
  | some (.file file) => .ok (.file file.bytes.length file.mode)
  | some (.symlink _) => .ok .symlink
  | some .other => .ok .other

/-- The metadata of what a path leads to. -/
def followedMetadata : Option DiskNode → Except FileErrorKind FileMetadata
  | some (.symlink (some file)) => .ok (.file file.bytes.length file.mode)
  | some (.symlink none) => .error .notFound
  | node => metadataOf node

/-- The chunks of a file. -/
def ReadsFile (file : Option DiskFile) (answer : Except FileErrorKind (List (List UInt8))) : Prop :=
  match file with
  | some file => ∃ chunks : List (List UInt8), answer = .ok chunks ∧ chunks.flatten = file.bytes
  | none => ∃ kind, answer = .error kind

/-- What a call does where it does not fail. -/
def fileEffect (s : FileState) : (c : FileCall) → FileAnswer c → FileState → Prop
  | .metadata path, answer, s' => s' = s ∧ answer = followedMetadata (s.nodes.lookup path)
  | .symlinkMetadata path, answer, s' => s' = s ∧ answer = metadataOf (s.nodes.lookup path)
  | .read path, answer, s' => s' = s ∧ ReadsFile (s.followed path) answer
  | .readNoFollow path, answer, s' => s' = s ∧ ReadsFile (s.fileAt path) answer
  | .createDirAll _, answer, s' => s' = s ∧ answer = .ok ()
  | .createTemp parent, answer, s' => ∃ suffix,
    s.nodes.lookup (.temp parent suffix) = none ∧ answer = .ok (.temp parent suffix) ∧
      s' = s.create (.temp parent suffix)
  | .write temp bytes, answer, s' => match s.fileAt temp with
    | some file => answer = .ok () ∧ s' = s.put temp { file with bytes := bytes }
    | none => s' = s ∧ answer = .error .notFound
  | .setPermissions temp mode, answer, s' => match s.fileAt temp with
    | some file => answer = .ok () ∧ s' = s.put temp { file with mode := mode }
    | none => s' = s ∧ answer = .error .notFound
  | .persistNoclobber temp path, answer, s' =>
    match s.nodes.lookup temp, s.nodes.lookup path with
    | some node, none => answer = .ok () ∧ s' = s.move temp path node
    | none, _ => s' = s ∧ answer = .error .notFound
    | some _, some _ => s' = s ∧ answer = .error .alreadyExists
  | .exchange left right, answer, s' => match s.nodes.lookup left, s.nodes.lookup right with
    | some a, some b => answer = .ok () ∧ s' = s.swap left right a b
    | _, _ => s' = s ∧ answer = .error .notFound
  | .remove temp, _, s' => s' = s.unlink temp
  | .sync _, answer, s' => s' = s ∧ answer = .ok ()
  | .lockShared, answer, s' => s' = s ∧ answer = .ok ()
  | .lockPath stripe, answer, s' => answer = .ok () ∧ s' = { s with locked := stripe :: s.locked }
  | .unlockPath stripe, _, s' => s' = { s with locked := s.locked.erase stripe }

/-- What a call does where it fails. A failed write leaves a part of its bytes, and a file may
fail to be removed. -/
def fileFault (s : FileState) : (c : FileCall) → FileAnswer c → FileState → Prop
  | .metadata _, answer, s' => s' = s ∧ answer = .error .other
  | .symlinkMetadata _, answer, s' => s' = s ∧ answer = .error .other
  | .read _, answer, s' => s' = s ∧ answer = .error .other
  | .readNoFollow _, answer, s' => s' = s ∧ answer = .error .other
  | .createDirAll _, answer, s' => s' = s ∧ answer = .error .other
  | .createTemp _, answer, s' => s' = s ∧ answer = .error .other
  | .write temp bytes, answer, s' => answer = .error .other ∧ match s.fileAt temp with
    | some file => ∃ part, part <+: bytes ∧ s' = s.put temp { file with bytes := part }
    | none => s' = s
  | .setPermissions _ _, answer, s' => s' = s ∧ answer = .error .other
  | .persistNoclobber _ _, answer, s' => s' = s ∧ answer = .error .other
  | .exchange _ _, answer, s' => s' = s ∧ answer = .error .other
  | .remove _, _, s' => s' = s
  | .sync _, answer, s' => s' = s ∧ answer = .error .other
  | .lockShared, answer, s' => s' = s ∧ answer = .error .other
  | .lockPath _, answer, s' => s' = s ∧ answer = .error .other
  | .unlockPath _, _, _ => False

/-- What the calls do, where some of them may fail. -/
def fileOp (fails : FileState → FileCall → Prop) : Effect fileInterface FileState
  | s, c, answer, s' => fileEffect s c answer s' ∨ (fails s c ∧ fileFault s c answer s')

/-- `LocalCacheError`, as far as these operations return it. -/
inductive LocalCacheFileError
  | missingCacheObject (oid : LfsOid) (size : UInt64) (path : DiskPath)
  | missingSourceObject (oid : LfsOid) (size : UInt64) (path : DiskPath)
  | integrityMismatch (path : DiskPath) (expectedOid : LfsOid) (expectedSize : UInt64)
      (actualOid : LfsOid) (actualSize : UInt64)
  | io (context : String) (path : DiskPath) (source : FileErrorKind)
  | materializationTargetExists (oid : LfsOid) (size : UInt64) (path : DiskPath)
  | worktreePathSymlink (path : DiskPath)
  | pointerParse (path : DiskPath) (source : LfsPointerError)
  | pointerFileTooLarge (path : DiskPath) (size sizeCutoff : ℕ)
  | pointerFileInvalidUtf8 (path : DiskPath)
  | pointerObjectMismatch (path : DiskPath) (expectedOid : LfsOid) (expectedSize : UInt64)
      (actualOid : LfsOid) (actualSize : UInt64)
  | worktreeReplacementRollback (path recoveryPath : DiskPath) (source : FileErrorKind)
  deriving DecidableEq

/-- A program over the file system. -/
abbrev FileProg (α : Type) := MemoryProg fileInterface Unit LocalCacheFileError α

/-- The result of a program, as a value. -/
def attempt {α : Type} (p : FileProg α) : FileProg (Except LocalCacheFileError α) :=
  ExceptT.mk fun m => (p.from m).bind fun r => .done (.ok r.1, r.2)

/-- A call whose failure is an I/O error with a context. -/
def askFile {α : Type} (c : FileCall) (hc : FileAnswer c = Except FileErrorKind α)
    (context : String) (path : DiskPath) : FileProg α :=
  ask (F := fileInterface) c >>= fun answer => match (cast hc answer : Except FileErrorKind α) with
    | .ok a => pure a
    | .error source => throw (.io context path source)

/-- The answer to a call. -/
def tryFile {α : Type} (c : FileCall) (hc : FileAnswer c = Except FileErrorKind α) :
    FileProg (Except FileErrorKind α) :=
  ask (F := fileInterface) c >>= fun answer => pure (cast hc answer)

/-- The drop of a temporary file. -/
def dropTemp (temp : DiskPath) : FileProg Unit :=
  ask (F := fileInterface) (.remove temp) >>= fun _ => pure ()

/-- What is done with a temporary file, which is dropped where that fails. -/
def withTemp {α : Type} (temp : DiskPath) (p : FileProg α) : FileProg α := do
  match ← attempt p with
  | .ok a => pure a
  | .error e => do
    dropTemp temp
    throw e

end LfsCloud
