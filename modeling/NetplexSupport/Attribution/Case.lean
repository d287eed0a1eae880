/-
The case of a leaked licence.  A token that was minted with a pinned key is attributed
to whom it was minted for, whatever whitespace a leak has put around it, and the notice
of its case is filled with what was minted.
-/
import NetplexSupport.Attribution.Notice
import NetplexSupport.Attribution.Scan

namespace NetplexSupport

open Py

section

variable {F : Type} [PyFloat F]

/-! ### The text of the file -/

theorem notMem_return_render (ms : Members F) : ch '\r' ∉ (Json.obj ms).render fileOpts := by
  have hsep : Str.Printable fileOpts.itemSep ∧ Str.Printable fileOpts.keySep :=
    ⟨of_decide_eq_true rfl, of_decide_eq_true rfl⟩
  have hlow : ∀ c ∈ (Json.obj ms).render fileOpts, 32 ≤ c.val :=
    render_forall (fun _ hle _ => hle) (fun c hc => (hsep.1 c hc).1) (fun c hc => (hsep.2 c hc).1) _
  intro hmem
  have hreturn := hlow _ hmem
  rw [ch_val] at hreturn
  exact absurd hreturn (by decide)

/-- What the tools take from a file with a token in it. -/
theorem strip_tokenFile (ms : Members F) {before after : Str}
    (hbefore : ∀ c ∈ before, isSpace c = true) (hafter : ∀ c ∈ after, isSpace c = true) :
    Str.strip (universalNewlines (before ++ dumps fileOpts (.obj ms) ++ after)) =
      dumps fileOpts (.obj ms) := by
  have hspaces : ∀ {w : Str}, (∀ c ∈ w, isSpace c = true) →
      ∀ c ∈ universalNewlines w, isSpace c = true := by
    intro w hw c hc
    rcases mem_universalNewlines hc with hc | rfl
    · exact hw c hc
    · decide
  have hdumps : dumps fileOpts (.obj ms) = (Json.obj ms).render fileOpts := rfl
  obtain ⟨body, hbody⟩ : ∃ body, (Json.obj ms).render fileOpts = ch '{' :: body := by
    cases ms with
    | nil => exact ⟨[ch '}'], by rw [Json.render]; rfl⟩
    | cons m ms => exact ⟨_, render_cons fileOpts m ms⟩
  have hread : universalNewlines (before ++ (Json.obj ms).render fileOpts ++ after) =
      universalNewlines before ++ ((Json.obj ms).render fileOpts ++ universalNewlines after) := by
    rw [← universalNewlines_append (notMem_return_render ms), List.append_assoc, hbody,
      List.cons_append, universalNewlines_append_cons (by decide)]
  rw [hdumps, hread, strip_space_append (hspaces hbefore), strip_append_space _ (hspaces hafter),
    strip_render_obj]

/-! ### The attribution -/

/-- An object that is signed with a pinned key is verified under it. -/
theorem verifyPinned_signed {C : Crypto} (hempty : RejectsEmpty C) {keys : List Str}
    (hone : OneSigner C keys) [FloatEq F] {K : SigningKey} {seed : Bytes}
    (hK : SignsFor C K seed) (hpinned : b64e (K.verifyKey seed) ∈ keys)
    {claims signed : Members F} (hsigned : signClaims C K seed claims = .ok signed) :
    verifyPinned C signed keys = .ok (true, keyIdFor C (K.verifyKey seed)) := by
  obtain ⟨message, hmessage, rfl⟩ := signClaims_eq_ok.mp hsigned
  let signed := dictSet claims "signature" (.obj (signatureBlock C K seed message))
  have hblock : dictGet signed "signature" = some (.obj (signatureBlock C K seed message)) := by
    rw [dictGet_dictSet, if_pos rfl]
  have htext : dictGet (signatureBlock (F := F) C K seed message) "sig" =
      some (.str (b64e (K.sign seed message))) := by
    simp [signatureBlock, dictGet_cons]
  have hpub : b64decodeText (b64e (K.verifyKey seed)) = .ok (K.verifyKey seed) :=
    b64decodeText_eq_ok.mpr (b64d_b64e (F := F) _)
  have hwith : SignedWith C signed (K.verifyKey seed) :=
    ⟨_, hblock, _, _, message, htext, b64d_b64e _,
      (canonicalBytes_dictSet claims _).trans hmessage, (hK message message).mpr rfl⟩
  obtain ⟨⟨ok, why⟩, hanswer⟩ := verifyPinned_returns (C := C) hblock htext keys
  obtain ⟨hok, hnamed⟩ := verifyPinned_eq_ok hempty hanswer
  obtain rfl : ok = true := hok.mpr ⟨_, hpinned, _, hpub, hwith⟩
  obtain ⟨text', htext', pub', hpub', hwith', rfl⟩ := hnamed rfl
  obtain ⟨message', sig', hverifies, hverifies'⟩ := hwith.same hwith'
  obtain rfl := hone _ hpinned _ htext' _ _ _ _ hpub hpub' hverifies hverifies'
  exact hanswer

/-- Whom a licence is attributed to: the customer, where no buyer was given. -/
def MintArgs.holder (args : MintArgs) : String := argOr (some args.buyerId) args.customer

theorem licenseIdOf_ne_nil {C : Crypto} {args : MintArgs} {licenseId : Str}
    (h : licenseIdOf C args = .ok licenseId) : licenseId ≠ [] := by
  obtain ⟨buyer, -, h⟩ := bind_eq_ok.mp h
  obtain rfl := Except.ok.inj h
  have hdefault : Str.ofString "lic-" ++ (hexdigest (C.sha256 buyer)).take 8 ≠ [] := by
    simp [Str.ofString]
  rcases args.licenseId with _ | s
  · exact hdefault
  · by_cases hs : s = ""
    · simp only [hs, if_true]
      exact hdefault
    · simp only [hs, if_false]
      simpa [Str.ofString] using hs

variable [FloatEq F]

omit [PyFloat F] in
theorem truthy_ofString (s : String) :
    (Json.str (F := F) (Str.ofString s)).truthy = decide (s ≠ "") := by
  simp [Json.truthy, Str.ofString]

variable [Interpreter]

/-- What the leak tool says of a minted licence. -/
def mintedRecord (C : Crypto) (K : SigningKey) (seed : Bytes) (args : MintArgs)
    (licenseId : Str) : LicenseRecord F where
  ok := true
  signatureKeyId := some (keyIdFor C (K.verifyKey seed))
  reason := none
  buyerId := .str args.holder
  licenseId := .str licenseId
  tier := .str args.loweredTier
  issuedAt := .int args.now
  expiresAt := match args.expiresAt with
    | some e => .int e
    | none => .null

variable {C : Crypto} {K : SigningKey} {seed : Bytes} {args : MintArgs}

theorem attributeLicense_minted (hempty : RejectsEmpty C) (hone : OneSigner C TRUST)
    (hK : SignsFor C K seed) (hpinned : b64e (K.verifyKey seed) ∈ TRUST)
    {entitlements signed : Members F} {licenseId : Str} (hid : licenseId ≠ [])
    (hsigned : signClaims C K seed (mintClaims args entitlements licenseId) = .ok signed) :
    attributeLicense C signed = .ok (mintedRecord C K seed args licenseId) := by
  have hclaim : ∀ key : Str, key ≠ Str.ofString "signature" →
      key ≠ Str.ofString "allow_floating" →
      claimOf signed key = claimOf (baseClaims args entitlements licenseId) key :=
    fun key hsignature hfloating => by
      rw [claimOf, claimOf, dictGet_signClaims hsigned hsignature,
        dictGet_mintClaims _ _ _ hfloating]
  have hbuyer : (claimOf signed "buyer_id").or (claimOf signed "customer_ref") =
      .str args.holder := by
    rw [hclaim _ (by decide) (by decide), hclaim _ (by decide) (by decide)]
    change (Json.str (Str.ofString args.buyerId)).or (.str (Str.ofString args.customer)) = _
    rw [Json.or, truthy_ofString, MintArgs.holder, argOr]
    by_cases hnone : args.buyerId = ""
    · simp [hnone]
    · simp [hnone]
  have hlicense : (claimOf signed "license_id").or (claimOf signed "jti") = .str licenseId := by
    rw [hclaim _ (by decide) (by decide)]
    have htruthy : (Json.str (F := F) licenseId).truthy = true := by simp [Json.truthy, hid]
    exact if_pos htruthy
  have htier : claimOf signed "tier" = .str args.loweredTier := hclaim _ (by decide) (by decide)
  have hissued : claimOf signed "issued_at" = .int args.now := hclaim _ (by decide) (by decide)
  have hexpires := hclaim "expires_at" (by decide) (by decide)
  rw [attributeLicense, verifyPinned_signed hempty hone hK hpinned hsigned]
  simp only [bind, Except.bind, hbuyer, hlicense, htier, hissued, hexpires]
  rfl

/-- The fields of the notice: what the tool was called with, and what was minted. -/
def mintedFields (C : Crypto) (K : SigningKey) (seed : Bytes) (args : MintArgs)
    (licenseId : Str) (packet : PacketArgs) : Dict Str :=
  [("host_or_registrar", packet.host),
    ("rightsholder_name", packet.rightsholder),
    ("rightsholder_contact", packet.contact),
    ("notice_date", textOr packet.nowIso "[FILL DATE]"),
    ("infringing_url", packet.infringingUrl),
    ("buyer_id", args.holder),
    ("license_id", licenseId),
    ("key_id", keyIdFor C (K.verifyKey seed)),
    ("signature_verified", "yes"),
    ("tier", args.loweredTier),
    ("issued_at", intText args.now),
    ("case_id", packet.caseId)]

omit [FloatEq F] in
theorem packetFields_minted (licenseId : Str) (packet : PacketArgs) :
    packetFields packet (mintedRecord (F := F) C K seed args licenseId) =
      mintedFields C K seed args licenseId packet := by
  have hkey : keyIdFor C (K.verifyKey seed) ≠ [] := by
    intro hnil
    have hlength := keyIdFor_length C (K.verifyKey seed)
    rw [hnil] at hlength
    cases hlength
  simp only [packetFields, mintedRecord, mintedFields, textOr, if_neg hkey, if_true]
  rfl

/-! ### The case -/

/-- The case of a licence that was minted with a pinned key, from a file that holds its
token and whitespace.  Where the licence names somebody the packet is written, its
attribution and its fields are what was minted, and the notice is the template with these
in their places unless one of them holds the placeholder of a later one; where it names
nobody the tool refuses. -/
theorem licence_noticed (hempty : RejectsEmpty C) (hone : OneSigner C TRUST) {keyText : Str}
    (hread : readSeed keyText = .ok seed) (hK : SignsFor C K seed)
    (hpinned : b64e (K.verifyKey seed) ∈ TRUST) {token : Str}
    (hmint : mintToken F C K keyText args = .ok token) {licenseId : Str}
    (hlicense : licenseIdOf C args = .ok licenseId) {before after : Str}
    (hbefore : ∀ c ∈ before, isSpace c = true) (hafter : ∀ c ∈ after, isSpace c = true)
    (packet : PacketArgs) :
    let fields := mintedFields C K seed args licenseId packet
    (args.holder = "" →
      dmcaPacket (F := F) C packet (before ++ token ++ after) = .error noBuyer) ∧
    (args.holder ≠ "" → ∃ notice,
      dmcaPacket C packet (before ++ token ++ after) =
        .ok ⟨notice, mintedRecord (F := F) C K seed args licenseId⟩ ∧
      notice = fillTemplate fields TEMPLATE ∧
      (fields.Pairwise (fun field later => ¬ placeholder later.1 <:+: field.2) →
        notice = subst (slotTable fields) TEMPLATE)) := by
  intro fields
  obtain ⟨-, -, entitlements, signed, hentitlements, hsigned, rfl⟩ :=
    (mintToken_eq_ok hread hlicense).mp hmint
  have hkeyed := keyed_signClaims hsigned
    (keyed_mintClaims args (keyed_loadEntitlements hentitlements) licenseId)
  have hloads : loads (dumps fileOpts (.obj signed)) = some (.obj signed) := by
    have h := loads_fileText hkeyed (w := []) (by simp)
    rwa [List.append_nil] at h
  have htype : claimOf signed "type" = .null := by
    rw [claimOf, dictGet_signClaims hsigned (by decide), dictGet_mintClaims _ _ _ (by decide)]
    rfl
  have hattribute : attributeToken C [] [] (dumps fileOpts (.obj signed)) =
      .ok (.license (mintedRecord (F := F) C K seed args licenseId)) :=
    attributeToken_license hloads (by rw [htype]; rfl)
      (attributeLicense_minted hempty hone hK hpinned (licenseIdOf_ne_nil hlicense) hsigned)
  have hpacket : dmcaPacket C packet (before ++ dumps fileOpts (.obj signed) ++ after) =
      if args.holder = "" then .error noBuyer
      else .ok ⟨fillTemplate fields TEMPLATE,
        mintedRecord (F := F) C K seed args licenseId⟩ := by
    have hbuyer : (mintedRecord (F := F) C K seed args licenseId).buyerId.truthy =
        decide (args.holder ≠ "") := truthy_ofString args.holder
    rw [dmcaPacket, strip_tokenFile signed hbefore hafter, hattribute]
    simp only [bind, Except.bind, packetFields_minted, hbuyer, decide_eq_true_eq, ite_not]
    rfl
  refine ⟨fun hnone => hpacket.trans (if_pos hnone), fun hnamed =>
    ⟨_, hpacket.trans (if_neg hnamed), rfl, fun hfree => ?_⟩⟩
  have hnames : fields.map Prod.fst = FIELD_NAMES := by
    simp only [fields, mintedFields, List.map_cons, List.map_nil, FIELD_NAMES]
  rw [fillTemplate_eq_subst_iff hnames]
  exact settled_of_free (List.pairwise_map.mpr hfree)

end

section

attribute [local instance] FloatView.asFloat FloatView.asFloatEq Interpreter.ascii

/-- A day's licence comes back with the line ends of a mail around it. -/
theorem licence_noticed_acme :
    ∃ (token notice : Str) (record : LicenseRecord FloatView), pinnedToken = .ok token ∧
      dmcaPacket pinnedKey.crypto caseArgs (Str.ofString "\r\n" ++ token ++ Str.ofString "\r\n") =
        .ok ⟨notice, record⟩ ∧
      record.ok = true ∧ record.buyerId = .str "acme" ∧ record.licenseId = .str "lic-1" ∧
      notice = subst (slotTable (mintedFields pinnedKey.crypto pinnedKey.signingKey
        pinnedKey.seed (teamLicence 1) "lic-1" caseArgs)) TEMPLATE := by
  have hrun : (pinnedToken >>= fun _ => .ok true) = Except.ok (ε := Exc) true := by
    decide +kernel
  obtain ⟨token, htoken, -⟩ := bind_eq_ok.mp hrun
  have hread : readSeed recordedSeedText = .ok pinnedKey.seed := by decide +kernel
  have hlicense : licenseIdOf pinnedKey.crypto (teamLicence 1) = .ok (Str.ofString "lic-1") := by
    decide +kernel
  have hspaces : ∀ c ∈ Str.ofString "\r\n", isSpace c = true :=
    List.all_eq_true.mp (by decide)
  obtain ⟨_, hnamed⟩ := licence_noticed (F := FloatView) pinnedKey.rejectsEmpty
    (pinnedKey.oneSigner TRUST) hread pinnedKey.verifies_sign_iff (by decide +kernel) htoken
    hlicense hspaces hspaces caseArgs
  obtain ⟨notice, hpacket, -, hverbatim⟩ := hnamed (by decide)
  exact ⟨token, notice, _, htoken, hpacket, rfl, rfl, rfl, hverbatim (by decide +kernel)⟩

end

end NetplexSupport
