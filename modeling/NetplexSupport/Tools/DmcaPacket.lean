/-
`tools/dmca_packet.py`: the attribution of a leaked token, filled into
`legal/dmca-takedown-template.md`.
-/
import NetplexSupport.Python.Slots
import NetplexSupport.Tools.AttributeLeak

namespace NetplexSupport

open Py

/-! ### The template -/

/-- `"{{" + k + "}}"`. -/
def placeholder (k : Str) : Str := "\x7b\x7b" ++ k ++ "\x7d\x7d"

/-- Lines, each with its end. -/
def lines (texts : List String) : Str :=
  texts.flatMap fun text => Str.ofString text ++ [ch '\n']

/-- The file, up to its last placeholder: what stands in front of each
placeholder, and the placeholder. -/
def TEMPLATE_PIECES : List (Str × Str) :=
  [(lines ["# DMCA Takedown / Anti-Circumvention Notice - TEMPLATE",
      "",
      "> Fillable template used by `tools/dmca_packet.py`, which substitutes the " ++
        "`\x7b\x7b...\x7d\x7d` fields from a",
      "> leaked-token attribution. **Have counsel review before sending.** The technical " ++
        "attribution names",
      "> the buyer; the legal notice is what a host/registrar acts on. Elements track 17 " ++
        "U.S.C. § 512(c)(3)",
      "> (takedown) and reference § 1201 (anti-circumvention), which is the actual lever " ++
        "for a licence crack.",
      "",
      "---",
      ""] ++ "To: ", placeholder "host_or_registrar"),
    (lines [" (designated DMCA agent)"] ++ "From: ", placeholder "rightsholder_name"),
    (", ", placeholder "rightsholder_contact"),
    (lines [""] ++ "Date: ", placeholder "notice_date"),
    (lines [""] ++ "Re: Unauthorized distribution / circumvention of netplex. - ",
      placeholder "infringing_url"),
    (lines ["", ""] ++ "1. **Copyrighted work.** The netplex. platform software and its " ++
      "licensed distribution, © ", placeholder "rightsholder_name"),
    (lines [".", ""] ++ "2. **Infringing material & location.** ", placeholder "infringing_url"),
    (lines [" hosts an unauthorized copy of, or a",
      "   circumvention of the licence-verification measures in, the netplex. software.",
      "",
      "3. **Attribution (technical basis).** The material carries a " ++
        "cryptographically-signed licence token",
      "   attributable to our records:"] ++ "   - buyer_id: **", placeholder "buyer_id"),
    (lines ["**"] ++ "   - license_id: **", placeholder "license_id"),
    (lines ["**"] ++ "   - signing key_id: **", placeholder "key_id"),
    ("** - signature verified: **", placeholder "signature_verified"),
    (lines ["**"] ++ "   - tier: ", placeholder "tier"),
    (" · issued: ", placeholder "issued_at"),
    (lines ["",
      "   This licence was issued to the above account under our EULA, which prohibits " ++
        "redistribution and",
      "   circumvention (§ Anti-Circumvention). Revocation of this license_id has been " ++
        "issued via CRL.",
      "",
      "4. **Good-faith statement.** I have a good-faith belief that the use of the " ++
        "material described above",
      "   is not authorized by the copyright owner, its agent, or the law.",
      "",
      "5. **Accuracy / authority (under penalty of perjury).** The information in this " ++
        "notice is accurate,",
      "   and I am authorized to act on behalf of the owner of the exclusive right " ++
        "allegedly infringed.",
      "",
      "6. **Anti-circumvention (17 U.S.C. § 1201).** The material also circumvents a " ++
        "technological measure",
      "   that effectively controls access to the work (the licence-verification / " ++
        "entitlement system);",
      "   distribution of such a circumvention is independently prohibited.",
      ""] ++ "Signature: ", placeholder "rightsholder_name"),
    (lines [""] ++ "Contact: ", placeholder "rightsholder_contact"),
    (lines ["", "", "---"] ++ "*Generated ", placeholder "notice_date"),
    (" by netplex-support/tools/dmca_packet.py from case ", placeholder "case_id")]

/-- The file, behind its last placeholder. -/
def TEMPLATE_LAST : Str :=
  lines [". Not legal", "advice - review with counsel before sending.*"]

/-- `legal/dmca-takedown-template.md`. -/
def TEMPLATE : Str := fill id TEMPLATE_LAST TEMPLATE_PIECES

/-! ### The notice -/

structure PacketArgs where
  infringingUrl : Str
  rightsholder : Str
  contact : Str
  host : Str := "[host/registrar DMCA agent]"
  caseId : Str
  nowIso : Option Str := none

/-- `value or default`, of a text that may be missing. -/
def textOr (value : Option Str) (default : Str) : Str :=
  match value with
  | some text => if text = [] then default else text
  | none => default

/-- The loop over the fields. -/
def fillTemplate (fields : Dict Str) (template : Str) : Str :=
  fields.foldl (fun notice field => replaceAll (placeholder field.1) field.2 notice) template

section

variable {F : Type} [PyFloat F] [FloatEq F] [Interpreter]

/-- `fields`. -/
def packetFields (args : PacketArgs) (attr : LicenseRecord F) : Dict Str :=
  [("host_or_registrar", args.host),
    ("rightsholder_name", args.rightsholder),
    ("rightsholder_contact", args.contact),
    ("notice_date", textOr args.nowIso "[FILL DATE]"),
    ("infringing_url", args.infringingUrl),
    ("buyer_id", attr.buyerId.pyStr),
    ("license_id", attr.licenseId.pyStr),
    ("key_id", textOr attr.signatureKeyId "unverified"),
    ("signature_verified",
      if attr.ok then "yes" else "NO (" ++ attr.reason.getD "None" ++ ")"),
    ("tier", attr.tier.pyStr),
    ("issued_at", attr.issuedAt.pyStr),
    ("case_id", args.caseId)]

/-- The case: its notice, and the attribution beside it. -/
structure Packet (F : Type) where
  notice : Str
  attribution : LicenseRecord F

def noBuyer : Exc :=
  ⟨.systemExit, "no buyer_id in the token - cannot attribute; is this a licence token?"⟩

/-- `main` for the text of a token file, up to what it writes into the case folder.
A stamp and a text that is no JSON have no `buyer_id`. -/
def dmcaPacket (C : Crypto) (args : PacketArgs) (tokenFile : Str) : Except Exc (Packet F) := do
  let attr ← attributeToken C [] [] (Str.strip (universalNewlines tokenFile))
  match attr with
  | .license attr =>
      if attr.buyerId.truthy then
        pure ⟨fillTemplate (packetFields args attr) TEMPLATE, attr⟩
      else .error noBuyer
  | .stamp _ => .error noBuyer
  | .notJson => .error noBuyer

end

end NetplexSupport
