/-
The attachment upload of `app/routers/diagnostics.py`: one blob in a JSON body,
under a body limit of its own.
-/
import NetplexSupport.Routers.Diagnostics
import NetplexSupport.Storage.Blobs

namespace NetplexSupport

open Py

def ATTACHMENT_ROUTE_PATH : Str := "/api/v1/diagnostics/attachment"

structure AttachmentUpload where
  mime : Str
  dataB64 : Str

/-- The limits the fields declare. -/
def AttachmentUpload.Valid (upload : AttachmentUpload) : Prop :=
  upload.mime.length ≤ 32 ∧ upload.dataB64.length ≤ 8000000

instance (upload : AttachmentUpload) : Decidable upload.Valid := by
  unfold AttachmentUpload.Valid
  infer_instance

/-- `base64.b64decode(text, validate=True)` of a `str`. -/
def b64decodeStrictText (s : Str) : Except Exc Bytes :=
  match encodeAscii s with
  | .ok bytes => b64decodeStrict bytes
  | .error _ => .error ⟨.valueError, "string argument should contain only ASCII characters"⟩

/-- `upload_attachment`. -/
def uploadAttachment (C : Crypto) (settings : Settings) (request : Request)
    (upload : AttachmentUpload) : Except Failure Descriptor := do
  requireForwardAuth settings request
  match b64decodeStrictText upload.dataB64 with
  | .error exc => .error (.http 400 ("data_b64 is not valid base64: " ++ exc.text))
  | .ok data =>
      match putBlob C data upload.mime settings.maxBlobBytes with
      | .error exc =>
          if exc.kind = .valueError then .error (.http 422 exc.text) else .error (.raised exc)
      | .ok descriptor => pure descriptor

/-- What was encoded is decoded. -/
theorem b64decodeStrictText_b64e (data : Bytes) : b64decodeStrictText (b64e data) = .ok data := by
  rw [b64decodeStrictText, encodeAscii_b64e]
  exact b64decodeStrict_b64encode data

end NetplexSupport
