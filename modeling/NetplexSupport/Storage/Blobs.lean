/-
`app/storage/blobs.py`: a blob is filed under the hash of its bytes.
-/
import NetplexSupport.Crypto.Signing

namespace NetplexSupport

open Py

/-- `ALLOWED_MIME`. -/
def ALLOWED_MIME : List Str := ["image/png", "image/jpeg", "image/webp"]

structure Descriptor where
  sha256 : Str
  url : Str
  mime : Str
  bytes : Nat
  redacted : Bool
deriving DecidableEq

/-- `content_address`. -/
def contentAddress (C : Crypto) (data : Bytes) : Str := hexdigest (C.sha256 data)

/-- `put_blob`. -/
def putBlob (C : Crypto) (data : Bytes) (mime : Str) (maxBytes : Int) :
    Except Exc Descriptor :=
  if mime ∉ ALLOWED_MIME then .error ⟨.valueError, "unsupported mime: " ++ mime⟩
  else if maxBytes < data.length then .error ⟨.valueError, "blob too large"⟩
  else
    let key := contentAddress C data
    .ok { sha256 := key, url := "objstore://" ++ key, mime := mime, bytes := data.length,
          redacted := true }

end NetplexSupport
