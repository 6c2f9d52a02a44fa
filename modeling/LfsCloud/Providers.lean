import LfsCloud.Lfs

/-!
# Providers

What a storage provider returns for an object it holds, and how storage and repository
providers fail.
-/

namespace LfsCloud

/-- Metadata of an object that a provider has stored. -/
structure StoredObject where
  providerId : String
  repositoryNamespace : String
  object : LfsObject
  /-- The provider's own name for the stored bytes. -/
  backendId : String
  deriving DecidableEq

/-- Failures of a storage provider. -/
inductive StorageError
  | repositoryNamespaceMismatch (provider : String)
  | credentialLoad (provider reference message : String)
  | authenticationRequired (provider : String)
  | permissionDenied (provider message : String)
  | objectNotFound (provider oid : String) (size : UInt64)
  | conflict (provider oid : String)
  | quotaExceeded (provider message : String)
  | integrityMismatch (expectedOid : String) (expectedSize : UInt64) (actualOid : String)
      (actualSize : ℕ)
  | stagedFileRead (provider : String)
  | retryable (provider message : String)
  | unsupported (providerType : String)
  | upstream (provider : String) (status : Option ℕ) (message : String)
  deriving DecidableEq, Repr

/-- What a user may do with a repository. -/
inductive RepositoryPermission
  | read
  | write
  | admin
  deriving DecidableEq, Repr

/-- Failures of a repository provider. -/
inductive RepositoryProviderError
  | authenticationRequired (provider : String)
  | permissionDenied (provider owner repo : String) (required : RepositoryPermission)
  | repositoryNotFound (provider owner repo : String)
  | ssoRequired (provider organization : String)
  | unsupported (providerType : String)
  | upstream (provider : String) (status : Option ℕ) (message : String)
  deriving DecidableEq, Repr

end LfsCloud
