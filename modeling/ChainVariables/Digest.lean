import ChainVariables.Codec.Strict
import ChainVariables.Hash.Sha256
import ChainVariables.Text.Base64

/-! # Digests of snapshots -/

namespace ChainVariables

/-- A hash of 32 bytes. -/
structure Digest where
  bytes : Bytes
  length_bytes : bytes.length = 32
  deriving DecidableEq

namespace Digest

def ofMessage (message : Bytes) : Digest := ⟨Sha256.hash message, Sha256.length_hash message⟩

def text (digest : Digest) : String := Base64.encode digest.bytes

def debug (digest : Digest) : String := digest.bytes.listing

def format : Format Digest :=
  .via (.block 32) (fun block => ⟨block.1, block.2⟩)
    (fun digest => ⟨digest.bytes, digest.length_bytes⟩) (fun _ => rfl) (fun _ => rfl)

end Digest

end ChainVariables
