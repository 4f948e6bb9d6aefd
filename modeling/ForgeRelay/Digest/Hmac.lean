import ForgeRelay.Digest.Sha256

/-!
# HMAC with SHA-256

The key is hashed if it is longer than a block and filled up with zeros to one; it enters the inner
and the outer hash under two masks.
-/

namespace ForgeRelay.Hmac

def blockSize : Nat := 64

def blockKey (key : Bytes) : Bytes :=
  let short := if key.length > blockSize then Sha256.digest key else key
  short ++ List.replicate (blockSize - short.length) 0

def masked (mask : UInt8) (key : Bytes) : Bytes := (blockKey key).map (· ^^^ mask)

def sha256 (key message : Bytes) : Bytes :=
  Sha256.digest (masked 0x5c key ++ Sha256.digest (masked 0x36 key ++ message))

theorem length_sha256 (key message : Bytes) : (sha256 key message).length = 32 :=
  Sha256.length_digest _

end ForgeRelay.Hmac
