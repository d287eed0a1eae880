/-
A forwarded report against the limit on its request body.  The fields are limited
in characters and the body in bytes, and `json.dumps` writes up to twelve bytes
for a character.
-/
import NetplexSupport.Limits.Body
import NetplexSupport.Json.Ascii

namespace NetplexSupport

open Py

def FORWARD_ROUTE_PATH : Str := "/api/v1/diagnostics/forward"

section

variable {F : Type} [PyFloat F]

def optionJson (text : Option Str) : Json F :=
  match text with
  | none => .null
  | some s => .str s

/-- The fields of a report, in the order the schema declares them. -/
def ForwardedReport.members (report : ForwardedReport) : Members F :=
  [("kind", .str report.kind), ("fingerprint", optionJson report.fingerprint),
    ("title", .str report.title), ("body", .str report.body),
    ("severity", .str report.severity), ("platform_version", .str report.platformVersion),
    ("reporter_tier", .str report.reporterTier), ("install_id", optionJson report.installId),
    ("origin_local_id", optionJson report.originLocalId),
    ("license_token", optionJson report.licenseToken), ("contact", optionJson report.contact),
    ("attachment_refs", .arr (report.attachmentRefs.map .str)),
    ("diagnostic_bundle", optionJson report.diagnosticBundle)]

variable (F) in
/-- The report as `json.dumps` writes it. -/
def ForwardedReport.text (report : ForwardedReport) : Str :=
  dumps {} (.obj (report.members (F := F)))

/-! ### The length of the text -/

def textSize (s : Str) : Nat := escapedLength s + 2

def optionSize (text : Option Str) : Nat :=
  match text with
  | none => 4
  | some s => textSize s

/-- A list of texts, a comma and a space after each but the last. -/
def refsSize (refs : List Str) : Nat :=
  if refs = [] then 2 else (refs.map fun s => textSize s + 2).sum

/-- The bytes of a report: those of its names and punctuation, and those of its
values. -/
def ForwardedReport.size (report : ForwardedReport) : Nat :=
  216 + textSize report.kind + optionSize report.fingerprint + textSize report.title +
    textSize report.body + textSize report.severity + textSize report.platformVersion +
    textSize report.reporterTier + optionSize report.installId +
    optionSize report.originLocalId + optionSize report.licenseToken +
    optionSize report.contact + refsSize report.attachmentRefs +
    optionSize report.diagnosticBundle

theorem length_render_str (s : Str) :
    ((Json.str s : Json F).render {}).length = textSize s := by
  rw [Json.render, length_quoted, textSize]

theorem length_render_option (text : Option Str) :
    ((optionJson text : Json F).render {}).length = optionSize text := by
  cases text with
  | none => simp [optionJson, optionSize, Json.render, Str.ofString]
  | some s => exact length_render_str s

theorem length_render_refs (refs : List Str) :
    ((Json.arr (refs.map Json.str) : Json F).render {}).length = refsSize refs := by
  have hitems : ∀ rest : List Str,
      (Json.renderItems {} (rest.map (Json.str (F := F)))).length =
        (rest.map fun s => textSize s + 2).sum + 1 := by
    intro rest
    induction rest with
    | nil => rfl
    | cons s rest ih =>
        simp only [List.map_cons, Json.renderItems, List.length_append, length_render_str, ih,
          List.sum_cons]
        have hsep : (({} : DumpOpts).itemSep).length = 2 := by simp [Str.ofString]
        rw [hsep]
        omega
  cases refs with
  | nil => simp [refsSize, Json.render, Str.ofString]
  | cons s rest =>
      simp only [List.map_cons, Json.render, List.length_cons, List.length_append, hitems,
        length_quoted, refsSize, textSize]
      simp
      omega

/-- Each member of an object takes its name, its value and four characters of
punctuation. -/
theorem length_render_obj {ms : Members F} (hms : ms ≠ []) :
    ((Json.obj ms).render {}).length =
      (ms.map fun m => textSize m.1 + (m.2.render {}).length + 4).sum := by
  have hitem : (({} : DumpOpts).itemSep).length = 2 := by simp [Str.ofString]
  have hkey : (({} : DumpOpts).keySep).length = 2 := by simp [Str.ofString]
  have hmembers : ∀ ns : Members F, (Json.renderMembers {} ns).length =
      (ns.map fun m => textSize m.1 + (m.2.render {}).length + 4).sum + 1 := by
    intro ns
    induction ns with
    | nil => rfl
    | cons n ns ih =>
        simp only [Json.renderMembers, List.length_append, length_quoted, ih, List.map_cons,
          List.sum_cons, hitem, hkey, textSize]
        omega
  cases ms with
  | nil => exact absurd rfl hms
  | cons m ms =>
      simp only [Json.render, List.length_cons, List.length_append, length_quoted, hmembers,
        List.map_cons, List.sum_cons, hkey, textSize]
      omega

omit [PyFloat F] in
/-- The names of the fields and their punctuation. -/
theorem names_size (report : ForwardedReport) :
    ((report.members (F := F)).map fun m => textSize m.1 + 4).sum = 216 := by
  have hnames : (report.members (F := F)).map Prod.fst =
      ([("kind" : Str), "fingerprint", "title", "body", "severity", "platform_version",
        "reporter_tier", "install_id", "origin_local_id", "license_token", "contact",
        "attachment_refs", "diagnostic_bundle"] : List Str) := rfl
  have hmap : ((report.members (F := F)).map fun m => textSize m.1 + 4) =
      ((report.members (F := F)).map Prod.fst).map fun name => textSize name + 4 := by
    rw [List.map_map]
    rfl
  rw [hmap, hnames]
  decide +kernel

theorem length_text (report : ForwardedReport) : (report.text F).length = report.size := by
  have htext : report.text F = (Json.obj (report.members (F := F))).render {} := rfl
  have hsplit : ((report.members (F := F)).map fun m =>
      textSize m.1 + (m.2.render {}).length + 4) =
        (report.members (F := F)).map fun m => (textSize m.1 + 4) + (m.2.render {}).length :=
    List.map_congr_left fun m _ => by omega
  rw [htext, length_render_obj (by simp [ForwardedReport.members]), hsplit, List.sum_map_add,
    names_size]
  simp only [ForwardedReport.members, ForwardedReport.size, List.map_cons, List.map_nil,
    List.sum_cons, List.sum_nil, length_render_str, length_render_option, length_render_refs]
  omega

theorem encodeUtf8_text (report : ForwardedReport) :
    ∃ bytes, encodeUtf8 (report.text F) = .ok bytes ∧ bytes.length = report.size := by
  have hascii : Str.Ascii (report.text F) :=
    ascii_render rfl (of_decide_eq_true rfl) (of_decide_eq_true rfl) _
  exact ⟨_, encodeUtf8_ok hascii.wellFormed, hascii.length_utf8.trans (length_text report)⟩

/-! ### The cap -/

variable (F) in
/-- The report fits the cap of its route: its bytes are within it, and however
they are delivered no call meets a 413. -/
def ForwardedReport.Fits (settings : Settings) (report : ForwardedReport) : Prop :=
  ∃ bytes, encodeUtf8 (report.text F) = .ok bytes ∧
    (bytes.length : Int) ≤ capForPath settings FORWARD_ROUTE_PATH ∧
    ∀ d : Delivery FORWARD_ROUTE_PATH bytes, ¬ d.Refused settings

/-- A report fits a cap exactly when its size does. -/
theorem fits_iff_size {settings : Settings}
    (hcap : 0 ≤ capForPath settings FORWARD_ROUTE_PATH) (report : ForwardedReport) :
    report.Fits F settings ↔ (report.size : Int) ≤ capForPath settings FORWARD_ROUTE_PATH := by
  obtain ⟨bytes, hbytes, hlength⟩ := encodeUtf8_text (F := F) report
  constructor
  · rintro ⟨bytes', hbytes', hwithin, -⟩
    obtain rfl := Except.ok.inj (hbytes.symm.trans hbytes')
    rwa [hlength] at hwithin
  · intro hsize
    have hwithin : (bytes.length : Int) ≤ capForPath settings FORWARD_ROUTE_PATH := by
      rwa [hlength]
    refine ⟨bytes, hbytes, hwithin, fun d hrefused => ?_⟩
    exact absurd ((d.refused_iff hcap).mp hrefused) (not_lt.mpr hwithin)

theorem capForPath_forward : capForPath {} FORWARD_ROUTE_PATH = 65536 := by
  have hroute : FORWARD_ROUTE_PATH ≠ ATTACHMENT_ROUTE_PATH := by
    rw [FORWARD_ROUTE_PATH, ATTACHMENT_ROUTE_PATH, ne_eq, Str.ofString_inj]
    decide
  rw [capForPath, if_neg hroute]

/-- A report fits the default cap exactly when its strings, each character
counted as `json.dumps` writes it, leave room for it. -/
theorem forward_fits_iff (report : ForwardedReport) :
    report.Fits F {} ↔ report.size ≤ 65536 := by
  rw [fits_iff_size (by rw [capForPath_forward]; decide), capForPath_forward]
  exact Nat.cast_le

end

/-- A report with a diagnostic bundle of 65536 characters. -/
def bundledReport : ForwardedReport where
  title := "t"
  diagnosticBundle := some (List.replicate 65536 (ch 'a'))

section

attribute [local instance] FloatView.asFloat

/-- Its fields are within their limits and its bytes are not. -/
theorem forward_fits_bundled : bundledReport.Valid ∧ ¬ bundledReport.Fits FloatView {} := by
  constructor
  · constructor
    case diagnosticBundle =>
      rw [textWithin, bundledReport, Option.getD_some, List.length_replicate]
      decide
    all_goals decide +kernel
  · rw [fits_iff_size (by rw [capForPath_forward]; decide), capForPath_forward]
    have hbundle : optionSize bundledReport.diagnosticBundle = 65538 := by
      rw [bundledReport, optionSize, textSize, escapedLength_replicate]
      decide +kernel
    intro hsize
    rw [ForwardedReport.size, hbundle] at hsize
    omega

end

end NetplexSupport
