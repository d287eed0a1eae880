/-
The size limits an attachment meets on its way in: the body cap of its route in
bytes of JSON, the limit on its text in base64 characters, and the limit on the
blob in bytes.
-/
import NetplexSupport.Limits.Body
import NetplexSupport.Json.Ascii
import NetplexSupport.Crypto.Table

namespace NetplexSupport

open Py

/-! ### The request -/

section

variable {F : Type} [PyFloat F]

/-- `separators=(",", ":")`. -/
def compactOpts : DumpOpts := { itemSep := ",", keySep := ":" }

variable (F) in
/-- The upload request for a blob, as compact JSON. -/
def uploadText (mime : Str) (data : Bytes) : Str :=
  dumps compactOpts (.obj [("mime", .str mime), ("data_b64", .str (b64e data))] : Json F)

/-- What the route gets from it. -/
def uploadOf (mime : Str) (data : Bytes) : AttachmentUpload := ⟨mime, b64e data⟩

/-- Base64 text is written as it is. -/
theorem escapedLength_b64e (data : Bytes) : escapedLength (b64e data) = (b64e data).length :=
  escapedLength_plain fun c hc => by
    have := b64e_plain data c hc
    omega

/-- The allowed types are written as they are. -/
theorem escapedLength_mime {mime : Str} (hmime : mime ∈ ALLOWED_MIME) :
    escapedLength mime = mime.length := by
  have hall : ∀ m ∈ ALLOWED_MIME, escapedLength m = m.length := by
    simp only [ALLOWED_MIME, List.forall_mem_cons]
    exact ⟨by decide +kernel, by decide +kernel, by decide +kernel, by simp⟩
  exact hall mime hmime

/-- The punctuation and the names of the request take 25 bytes. -/
theorem length_uploadText {mime : Str} (hmime : mime ∈ ALLOWED_MIME) (data : Bytes) :
    (uploadText F mime data).length = 25 + mime.length + 4 * ((data.length + 2) / 3) := by
  have hnames : escapedLength "mime" = 4 ∧ escapedLength "data_b64" = 8 := by
    decide +kernel
  have hitem : compactOpts.itemSep.length = 1 := by simp [compactOpts, Str.ofString]
  have hkey : compactOpts.keySep.length = 1 := by simp [compactOpts, Str.ofString]
  have htext : uploadText F mime data =
      Json.render compactOpts
        (.obj [("mime", .str mime), ("data_b64", .str (b64e data))] : Json F) := rfl
  have hascii : compactOpts.ensureAscii = true := rfl
  rw [htext]
  simp only [Json.render, Json.renderMembers, hascii, List.length_cons, List.length_append,
    length_quoted, hitem, hkey, hnames.1, hnames.2, escapedLength_mime hmime,
    escapedLength_b64e, length_b64e, List.length_nil]
  omega

theorem ascii_uploadText (mime : Str) (data : Bytes) : Str.Ascii (uploadText F mime data) :=
  ascii_render rfl (of_decide_eq_true rfl) (of_decide_eq_true rfl) _

end

/-! ### The three limits -/

section

variable (F : Type) [PyFloat F]

/-- The bytes of the request. -/
def uploadBytes (mime : Str) (data : Bytes) : Bytes := utf8 (uploadText F mime data)

/-- The upload is refused for size: by the body cap, by the limit on its text or
by `put_blob`. -/
def RefusedForSize (C : Crypto) (settings : Settings) (request : Request) (mime : Str)
    (data : Bytes) (d : Delivery ATTACHMENT_ROUTE_PATH (uploadBytes F mime data)) : Prop :=
  d.Refused settings ∨ ¬ (uploadOf mime data).Valid ∨
    uploadAttachment C settings request (uploadOf mime data) =
      .error (.http 422 "blob too large")

variable {F}

/-- `put_blob` refuses what is larger than its limit. -/
theorem uploadAttachment_tooLarge {C : Crypto} {settings : Settings} {request : Request}
    (hauth : requireForwardAuth settings request = .ok ()) {mime : Str}
    (hmime : mime ∈ ALLOWED_MIME) (data : Bytes) :
    uploadAttachment C settings request (uploadOf mime data) =
        .error (.http 422 "blob too large") ↔ settings.maxBlobBytes < data.length := by
  have hdecode : b64decodeStrictText (uploadOf mime data).dataB64 = .ok data :=
    b64decodeStrictText_b64e data
  have hput : putBlob C data (uploadOf mime data).mime settings.maxBlobBytes =
      if settings.maxBlobBytes < data.length then .error ⟨.valueError, "blob too large"⟩
      else .ok ⟨contentAddress C data, "objstore://" ++ contentAddress C data, mime,
        data.length, true⟩ := by
    have hallowed : (uploadOf mime data).mime ∈ ALLOWED_MIME := hmime
    rw [putBlob, if_neg (not_not.mpr hallowed)]
    rfl
  simp only [uploadAttachment, hauth, hdecode, hput, bind, Except.bind]
  by_cases hover : settings.maxBlobBytes < data.length
  · simp [hover]
  · simp [hover, pure, Except.pure]

/-- The upload is refused for size exactly when one of the three limits is
exceeded. -/
theorem refusedForSize_iff {C : Crypto} {settings : Settings} {request : Request}
    (hauth : requireForwardAuth settings request = .ok ()) (hmax : 1 ≤ settings.maxBlobBytes)
    {mime : Str} (hmime : mime ∈ ALLOWED_MIME) (data : Bytes)
    (d : Delivery ATTACHMENT_ROUTE_PATH (uploadBytes F mime data)) :
    RefusedForSize F C settings request mime data d ↔
      settings.maxBlobBytes * 2 < ((25 + mime.length + 4 * ((data.length + 2) / 3) : Nat) : Int) ∨
        8000000 < 4 * ((data.length + 2) / 3) ∨ settings.maxBlobBytes < data.length := by
  have hcap : capForPath settings ATTACHMENT_ROUTE_PATH = settings.maxBlobBytes * 2 := by
    rw [capForPath, if_pos rfl]
  have hmimeLength : mime.length ≤ 32 := by
    have hall : ∀ m ∈ ALLOWED_MIME, m.length ≤ 32 := by
      simp [ALLOWED_MIME, Str.ofString]
    exact hall mime hmime
  have hvalid : ¬ (uploadOf mime data).Valid ↔ 8000000 < 4 * ((data.length + 2) / 3) := by
    simp only [AttachmentUpload.Valid, uploadOf, length_b64e]
    omega
  have hbytes : (uploadBytes F mime data).length =
      25 + mime.length + 4 * ((data.length + 2) / 3) := by
    rw [uploadBytes, (ascii_uploadText mime data).length_utf8, length_uploadText hmime]
  rw [RefusedForSize, d.refused_iff (by rw [hcap]; omega), hcap, hvalid, hbytes,
    uploadAttachment_tooLarge hauth hmime]

end

/-- The three limits agree on a blob exactly when the two on its text leave room
for every blob that `put_blob` takes. -/
theorem upload_limits_iff (F : Type) [PyFloat F] (C : Crypto) (settings : Settings)
    (request : Request) (hauth : requireForwardAuth settings request = .ok ())
    (hmax : 1 ≤ settings.maxBlobBytes) {mime : Str} (hmime : mime ∈ ALLOWED_MIME)
    (data : Bytes) (d : Delivery ATTACHMENT_ROUTE_PATH (uploadBytes F mime data)) :
    (¬ RefusedForSize F C settings request mime data d ↔
        (data.length : Int) ≤ settings.maxBlobBytes) ↔
      ((data.length : Int) ≤ settings.maxBlobBytes →
        ((25 + mime.length + 4 * ((data.length + 2) / 3) : Nat) : Int) ≤
            2 * settings.maxBlobBytes ∧
          4 * ((data.length + 2) / 3) ≤ 8000000) := by
  rw [refusedForSize_iff hauth hmax hmime]
  omega

section

attribute [local instance] FloatView.asFloat

def fleetRequest : Request := { authorization := some (asciiBytes "Bearer fleet") }

/-- A deployment that takes blobs up to a size. -/
def blobSettings (maxBlobBytes : Int) : Settings :=
  { forwardIntakeTokens := "fleet", maxBlobBytes := maxBlobBytes }

/-- At the default limit a small blob passes all three. -/
theorem upload_limits_small :
    ¬ RefusedForSize FloatView recordedKey.crypto (blobSettings 5242880) fleetRequest
      "image/png" [1, 2, 3]
      (Delivery.whole ATTACHMENT_ROUTE_PATH (uploadBytes FloatView "image/png" [1, 2, 3])) :=
  ((upload_limits_iff FloatView recordedKey.crypto (blobSettings 5242880) fleetRequest
    (by decide +kernel) (by decide) (by decide +kernel) [1, 2, 3]
    (Delivery.whole _ _)).mpr fun _ => ⟨by decide +kernel, by decide⟩).mpr (by decide)

/-- A blob of one byte under a limit of one byte is past the body cap, and one of
6000001 bytes under a limit of 8 MiB is past the limit on its text. -/
theorem upload_limits_ends :
    ¬ (¬ RefusedForSize FloatView recordedKey.crypto (blobSettings 1) fleetRequest
        "image/png" [1]
        (Delivery.whole ATTACHMENT_ROUTE_PATH (uploadBytes FloatView "image/png" [1])) ↔
      (([1] : Bytes).length : Int) ≤ 1) ∧
    ¬ (¬ RefusedForSize FloatView recordedKey.crypto (blobSettings 8388608) fleetRequest
        "image/png" (List.replicate 6000001 0)
        (Delivery.whole ATTACHMENT_ROUTE_PATH
          (uploadBytes FloatView "image/png" (List.replicate 6000001 0))) ↔
      ((List.replicate 6000001 (0 : UInt8)).length : Int) ≤ 8388608) := by
  constructor
  · have hrefused : RefusedForSize FloatView recordedKey.crypto (blobSettings 1) fleetRequest
        "image/png" [1] (Delivery.whole _ _) ↔ _ :=
      refusedForSize_iff (by decide +kernel) (by decide) (by decide +kernel) [1] _
    intro h
    exact h.mpr (by decide) (hrefused.mpr (Or.inl (by decide +kernel)))
  · have hrefused : RefusedForSize FloatView recordedKey.crypto (blobSettings 8388608)
        fleetRequest "image/png" (List.replicate 6000001 0) (Delivery.whole _ _) ↔ _ :=
      refusedForSize_iff (by decide +kernel) (by decide) (by decide +kernel)
        (List.replicate 6000001 0) _
    rw [List.length_replicate] at hrefused ⊢
    intro h
    exact h.mpr (by decide) (hrefused.mpr (Or.inr (Or.inl (by decide))))

end

end NetplexSupport
