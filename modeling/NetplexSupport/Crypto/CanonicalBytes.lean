/-
The canonical bytes of a manifest name its payload: two objects have the same
canonical bytes exactly when they are the same JSON value once the top-level
`signature` member is dropped from each.
-/
import NetplexSupport.Crypto.Signing
import NetplexSupport.Json.Encoding

namespace NetplexSupport

open Py

variable {F : Type}

/-- A JSON object: every dict in it has each key once, and its strings are
well-formed Unicode. -/
structure JsonObject (F : Type) where
  members : Members F
  keyed : (Json.obj members).Keyed
  encodable : (Json.obj members).Strings Str.encodable

/-! ### The payload -/

theorem payload_subset (manifest : Members F) : ∀ m ∈ payload manifest, m ∈ manifest :=
  fun _ hm => (List.mem_filter.mp hm).1

theorem keyed_payload {manifest : Members F} (h : (Json.obj manifest).Keyed) :
    (Json.obj (payload manifest)).Keyed := by
  rw [Json.keyed_obj] at h ⊢
  constructor
  · exact h.1.sublist (List.filter_sublist.map Prod.fst)
  · exact fun m hm => h.2 m (payload_subset manifest m hm)

theorem strings_payload {p : Str → Bool} {manifest : Members F}
    (h : (Json.obj manifest).Strings p) : (Json.obj (payload manifest)).Strings p := by
  rw [Json.strings_obj] at h ⊢
  exact ⟨fun m hm => h.1 m (payload_subset manifest m hm),
    fun m hm => h.2 m (payload_subset manifest m hm)⟩

/-! ### The bytes -/

theorem canonicalOpts_lawful : canonicalOpts.Lawful where
  itemSep := ⟨[], rfl, by simp⟩
  keySep := ⟨[], rfl, by simp⟩

theorem readable_canonicalOpts (j : Json F) : canonicalOpts.Readable j :=
  DumpOpts.readable_of_ensureAscii_false rfl j

variable [PyFloat F]

theorem wellFormed_canonical (j : Json F) :
    Str.WellFormed (dumps canonicalOpts j) ↔ j.Strings Str.encodable :=
  wellFormed_dumps rfl (Str.wellFormed_ofString ",") (Str.wellFormed_ofString ":") j

/-- An object whose payload has well-formed strings has canonical bytes. -/
theorem canonicalBytes_ok {manifest : Members F}
    (h : (Json.obj (payload manifest)).Strings Str.encodable) :
    ∃ bytes, canonicalBytes manifest = .ok bytes :=
  ⟨_, encodeUtf8_ok ((wellFormed_canonical _).mpr h)⟩

/-- The same payload has the same bytes. -/
theorem canonicalBytes_congr {m₁ m₂ : Members F} (h₁ : (Json.obj m₁).Keyed)
    (h₂ : (Json.obj m₂).Keyed)
    (hsame : (Json.obj (payload m₁)).Same (.obj (payload m₂))) :
    canonicalBytes m₁ = canonicalBytes m₂ := by
  have htext := (dumps_sorted_eq_iff canonicalOpts_lawful rfl (keyed_payload h₁)
    (keyed_payload h₂) (readable_canonicalOpts _) (readable_canonicalOpts _)).mpr hsame
  rw [canonicalBytes, canonicalBytes, htext]

/-- The same bytes come from the same payload. -/
theorem same_of_canonicalBytes {m₁ m₂ : Members F} {bytes : Bytes}
    (h₁ : (Json.obj m₁).Keyed) (h₂ : (Json.obj m₂).Keyed)
    (hbytes₁ : canonicalBytes m₁ = .ok bytes) (hbytes₂ : canonicalBytes m₂ = .ok bytes) :
    (Json.obj (payload m₁)).Same (.obj (payload m₂)) := by
  have htext := encodeUtf8_inj hbytes₁ hbytes₂
  exact (dumps_sorted_eq_iff canonicalOpts_lawful rfl (keyed_payload h₁)
    (keyed_payload h₂) (readable_canonicalOpts _) (readable_canonicalOpts _)).mp htext

/-- Sorting the members at every depth keeps the bytes. -/
theorem canonicalBytes_sortedMembers {manifest : Members F}
    (h : (Json.obj manifest).Keyed) :
    canonicalBytes (sortedMembers manifest) = canonicalBytes manifest := by
  let f : Str × Json F → Str × Json F := fun m => (m.1, m.2.sortKeys)
  have hsorted : (Json.obj (sortedMembers manifest)).Keyed := by
    rw [← Json.sortKeys_obj]
    exact Json.keyed_sortKeys h
  have hperm : (payload (sortedMembers manifest)).Perm ((payload manifest).map f) := by
    have hfilter := (sortedMembers_perm manifest).filter
      fun m => m.1 != Str.ofString "signature"
    rwa [List.filter_map] at hfilter
  have hidem : ((payload manifest).map f).map f = (payload manifest).map f := by
    rw [List.map_map]
    apply List.map_congr_left
    intro m hm
    have hvalue := (Json.keyed_obj.mp h).2 m (payload_subset manifest m hm)
    simp [f, Json.sortKeys_idem hvalue]
  apply canonicalBytes_congr hsorted h
  rw [Json.same_iff_sortKeys_eq (keyed_payload hsorted) (keyed_payload h),
    Json.sortKeys_obj, Json.sortKeys_obj, Json.obj.injEq]
  apply sortedMembers_eq_of_perm (Json.keyed_obj.mp (keyed_payload hsorted)).1
  exact (hperm.map f).trans (List.Perm.of_eq hidem)

/-- Canonical bytes are a faithful name of the payload. -/
theorem canonicalBytes_eq_iff (m₁ m₂ : JsonObject F) :
    canonicalBytes m₁.members = canonicalBytes m₂.members ↔
      (Json.obj (payload m₁.members)).Same (.obj (payload m₂.members)) := by
  constructor
  · intro h
    obtain ⟨bytes, hbytes⟩ := canonicalBytes_ok (strings_payload m₁.encodable)
    exact same_of_canonicalBytes m₁.keyed m₂.keyed hbytes (h ▸ hbytes)
  · exact canonicalBytes_congr m₁.keyed m₂.keyed

end NetplexSupport
