import Lazyd.Base

/-!
# What is fetched, and from where

The descriptions of a blob and of the remote that has it.

## Main definitions

* `BlobDescriptor`, `RemoteSource`, `AuthConfig`.

Source: `src/remote/mod.rs`, lines 9–31.
-/

namespace Lazyd

structure BlobDescriptor where
  digest : String
  size : UInt64
  mediaType : Option String
  deriving DecidableEq, Repr

inductive RemoteSource where
  | ociRegistry (imageRef : String) (hostsDir : Option String)
  deriving DecidableEq, Repr

structure AuthConfig where
  username : String
  secret : String
  deriving DecidableEq, Repr

end Lazyd
