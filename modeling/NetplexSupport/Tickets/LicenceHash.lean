/-
The licence hash of a ticket.  It is taken of the token's text, while the token
is verified by its parsed claims, so two spellings of one licence leave two
hashes.
-/
import NetplexSupport.Python.Utf8
import NetplexSupport.Tickets.Tiers

namespace NetplexSupport

open Py

/-! ### The hash of a token -/

/-- `hashlib.sha256(token.encode()).hexdigest()`, where the token can be encoded. -/
def tokenHash (C : Crypto) (token : Str) : Option Str :=
  (encodeUtf8 token).toOption.map fun bytes => hexdigest (C.sha256 bytes)

/-- The two texts do not collide under SHA-256. -/
def NoCollision (C : Crypto) (token token' : Str) : Prop :=
  ∀ bytes bytes', encodeUtf8 token = .ok bytes → encodeUtf8 token' = .ok bytes' →
    C.sha256 bytes = C.sha256 bytes' → bytes = bytes'

theorem tokenHash_eq_iff {C : Crypto} {token token' : Str} {bytes : Bytes}
    (hbytes : encodeUtf8 token = .ok bytes) (hcollision : NoCollision C token token') :
    tokenHash C token = tokenHash C token' ↔ token = token' := by
  refine ⟨fun h => ?_, congrArg (tokenHash C)⟩
  simp only [tokenHash, hbytes] at h
  rcases hbytes' : encodeUtf8 token' with exc | bytes'
  · rw [hbytes'] at h
    cases h
  · rw [hbytes'] at h
    obtain rfl := hcollision bytes bytes' hbytes hbytes' (hexdigest_inj (Option.some.inj h))
    exact encodeUtf8_inj hbytes hbytes'

section

variable (F : Type) [PyFloat F] [Interpreter]

/-! ### Tickets created with a licence -/

/-- The bytes a token signs and its signature, as verification reads them. -/
def licenceOf (token : Str) : Option (Bytes × Bytes) :=
  match (loads token : Option (Json F)) with
  | some (.obj claims) => do
      let message ← (canonicalBytes claims).toOption
      let sigblock ← dictGet claims "signature"
      let sig ← (b64d (← sigblock.get? "sig")).toOption
      pure (message, sig)
  | _ => none

/-- An accepted forward request created the ticket `t`, and the licence token it
presented verified. -/
structure LicensedTicket (D : Deployment) (s : Service) (e : Forward) (token : Str)
    (t : Ticket) : Prop where
  ids : (s.tickets.map Ticket.id).Nodup
  presented : e.report.licenseToken = some token
  verified : ∃ (trust : TrustStore F) (result : VerifyResult F),
    licenseTrustStore D.crypto D.settings = .ok trust ∧
    verifyToken D.crypto token trust e.arrival.unixTime = .ok result ∧ result.valid = true
  accepted : ∃ answer, (serveForward F D s e).2 = .ok answer
  created : (serveForward F D s e).1.tickets = s.tickets ++ [t]

/-- A report with a valid token is filed with the hash of the token's text. -/
theorem verifiedLicense_hash {D : Deployment} {report : ForwardedReport} {now : Int}
    {token tier : Str} {licenseIdHash : Option Str} {trust : TrustStore F}
    {result : VerifyResult F} (htoken : report.licenseToken = some token)
    (htrust : licenseTrustStore D.crypto D.settings = .ok trust)
    (hresult : verifyToken D.crypto token trust now = .ok result) (hvalid : result.valid = true)
    (h : verifiedLicense F D report now = .ok (tier, licenseIdHash)) :
    ∃ bytes, encodeUtf8 token = .ok bytes ∧ licenseIdHash = tokenHash D.crypto token := by
  have hne : token ≠ [] := by
    rintro rfl
    obtain ⟨claims, _, _, hgood, _⟩ := verifyToken_valid_iff.mp ⟨hresult, hvalid⟩
    exact nomatch hgood.loads
  simp only [verifiedLicense, htoken, if_neg hne] at h
  obtain ⟨trust', htrust', h⟩ := bind_eq_ok.mp h
  obtain rfl := Except.ok.inj (htrust.symm.trans htrust')
  obtain ⟨result', hresult', h⟩ := bind_eq_ok.mp h
  obtain rfl := Except.ok.inj (hresult.symm.trans hresult')
  rw [if_pos hvalid] at h
  obtain ⟨bytes, hbytes, h⟩ := bind_eq_ok.mp h
  obtain ⟨-, rfl⟩ := Prod.mk.inj (Except.ok.inj h)
  exact ⟨bytes, hbytes, by simp only [tokenHash, hbytes]; rfl⟩

variable {F}

/-- The stored hash is that of the text the box presented. -/
theorem LicensedTicket.hash {D : Deployment} {s : Service} {e : Forward} {token : Str}
    {t : Ticket} (h : LicensedTicket F D s e token t) :
    ∃ bytes, encodeUtf8 token = .ok bytes ∧ t.licenseIdHash = tokenHash D.crypto token := by
  obtain ⟨answer, hok⟩ := h.accepted
  obtain ⟨fields, t', ⟨tier, licenseIdHash, hlicense, rfl⟩, hfiling, -⟩ :=
    filing_of_accepted F h.ids hok
  obtain ⟨trust, result, htrust, hresult, hvalid⟩ := h.verified
  obtain ⟨bytes, hbytes, rfl⟩ :=
    verifiedLicense_hash F h.presented htrust hresult hvalid hlicense
  refine ⟨bytes, hbytes, ?_⟩
  have ht : t ∈ (serveForward F D s e).1.tickets := by simp [h.created]
  have hcreated := h.created
  generalize (serveForward F D s e).1.tickets = rows at hfiling hcreated
  rcases hfiling with @⟨pre, post, existing, htickets, -⟩ | ⟨-, -⟩
  · have hlength := congrArg List.length hcreated
    simp [htickets] at hlength
  · obtain rfl := List.singleton_inj.mp (List.append_cancel_left hcreated)
    rfl

/-- Two tickets carry the same licence hash exactly when their boxes presented
the same text, and a ticket carries the hash of a registered token exactly when
that is the text it was created with, as long as SHA-256 does not collide. -/
theorem licence_hash_iff {D D' : Deployment} {s s' : Service} {e e' : Forward}
    {token token' : Str} {t t' : Ticket} (hcrypto : D'.crypto = D.crypto)
    (h : LicensedTicket F D s e token t) (h' : LicensedTicket F D' s' e' token' t')
    (hcollision : NoCollision D.crypto token token') :
    (t.licenseIdHash = t'.licenseIdHash ↔ token = token') ∧
      ∀ (B : Backend) (settings : Settings) (rows rows' : List LicenseToken)
        (registeredToken : Str) (now : Int) (draw : RowDraw) (answer : RegisterResult),
        registerLicense F D.crypto B settings rows registeredToken now draw =
          .ok (answer, rows') →
        ∃ row, rows' = rows ++ [row] ∧ row.tokenJson = registeredToken ∧
          (NoCollision D.crypto token registeredToken →
            (t.licenseIdHash = tokenHash D.crypto row.tokenJson ↔ token = registeredToken)) := by
  obtain ⟨bytes, hbytes, hhash⟩ := h.hash
  obtain ⟨-, -, hhash'⟩ := h'.hash
  rw [hhash, hhash', hcrypto]
  refine ⟨tokenHash_eq_iff hbytes hcollision, ?_⟩
  intro B settings rows rows' registeredToken now draw answer hregister
  obtain ⟨_, claims, kid, expiry, _, _, _, _, rfl⟩ := registerLicense_eq_ok_iff.mp hregister
  exact ⟨_, rfl, rfl, tokenHash_eq_iff hbytes⟩

end

section

attribute [local instance] FloatView.asFloat Interpreter.ascii

/-- A licence that names its tier and nothing else, and the same text with a line
end behind it. -/
def tierToken : Str := piecesText
  ["\x7b\"tier\":\"team\",\"sign", "ature\":\x7b\"alg\":\"ed255", "19\",\"key_id\":\"56475a",
    "a75463474c\",\"sig\":\"T", "SW2bOZ+QlfZUwKd1zUma", "jX8JC49jvNcRmJ24jQbv",
    "aGM+TrU4ztgkEM9xCReE", "2GqM0D1dKNN8U3TFjlKI", "lrgBA==\"\x7d\x7d"]

def tierTokenLine : Str := tierToken ++ "\n"

/-- The recorded key with the signature of that licence and the digests of its two
texts. -/
def spelledKey : SignatureTable where
  seed := recordedKey.seed
  publicKey := recordedKey.publicKey
  digests := recordedKey.digests ++
    [(utf8 tierToken, ⟨piecesBase64 ["AAC/mqqdpE9KSuvYXtai", "bGP5OYlsyj+LWWJIfT+6", "gBY="],
        by decide +kernel⟩),
      (utf8 tierTokenLine, ⟨piecesBase64 ["zrjjfKTrrhZXHZ5XLXJT", "eCb+hmEo9iY2zF/oHgbp",
        "GFA="], by decide +kernel⟩)]
  known := [(asciiBytes "\x7b\"tier\":\"team\"\x7d",
    piecesBase64 ["TSW2bOZ+QlfZUwKd1zUm", "ajX8JC49jvNcRmJ24jQb", "vaGM+TrU4ztgkEM9xCRe",
      "E2GqM0D1dKNN8U3TFjlK", "IlrgBA=="])]
  publicKey_length := recordedKey.publicKey_length
  known_length := by decide +kernel
  known_nodup := by decide +kernel

/-- A server that trusts the recorded key alone. -/
def spelledFleet : Deployment where
  crypto := spelledKey.crypto
  ip := ⟨Unit, Unit, fun _ => none, fun _ => none, fun _ _ => false⟩
  settings :=
    { forwardIntakeTokens := "fleet",
      licensePublicKey := piecesText ["A6EHv/POEL4dcN0Y50vA", "mWfk1jCbpQ1fHdyGZBJV", "Mbg="] }

def licensedReport (token : Str) : Forward :=
  ⟨fleetArrival 0 "SUP-1", { title := "a", licenseToken := some token }⟩

/-- A valid token creates its ticket. -/
theorem licensedTicket_of_run {token : Str}
    (hrun : (licenseTrustStore (F := FloatView) spelledFleet.crypto spelledFleet.settings >>=
      fun trust => verifyToken spelledFleet.crypto token trust 1700000000 >>= fun result =>
        .ok result.valid) = .ok true)
    (hserved : ((serveForward FloatView spelledFleet emptyTable
      (licensedReport token)).2.toOption.isSome, (serveForward FloatView spelledFleet emptyTable
        (licensedReport token)).1.tickets.length) = (true, 1)) :
    ∃ t, LicensedTicket FloatView spelledFleet emptyTable (licensedReport token) token t := by
  obtain ⟨hok, hlength⟩ := Prod.mk.inj hserved
  obtain ⟨t, htickets⟩ := List.length_eq_one_iff.mp hlength
  obtain ⟨trust, htrust, hrun⟩ := bind_eq_ok.mp hrun
  obtain ⟨result, hresult, hvalid⟩ := bind_eq_ok.mp hrun
  refine ⟨t, List.nodup_nil, rfl, ⟨trust, result, htrust, hresult, Except.ok.inj hvalid⟩, ?_,
    htickets⟩
  generalize (serveForward FloatView spelledFleet emptyTable (licensedReport token)).2 = answer
    at hok
  rcases answer with failure | answer
  · cases hok
  · exact ⟨answer, rfl⟩

theorem licensedTicket_tier : ∃ t, LicensedTicket FloatView spelledFleet emptyTable
    (licensedReport tierToken) tierToken t :=
  licensedTicket_of_run (by decide +kernel) (by decide +kernel)

theorem licensedTicket_line : ∃ t, LicensedTicket FloatView spelledFleet emptyTable
    (licensedReport tierTokenLine) tierTokenLine t :=
  licensedTicket_of_run (by decide +kernel) (by decide +kernel)

/-- Two boxes, one of which sends the line end along. -/
theorem licence_hash_tier :
    ∃ t t', LicensedTicket FloatView spelledFleet emptyTable (licensedReport tierToken)
        tierToken t ∧
      LicensedTicket FloatView spelledFleet emptyTable (licensedReport tierTokenLine)
        tierTokenLine t' ∧
      (t.licenseIdHash = t'.licenseIdHash ↔ tierToken = tierTokenLine) := by
  obtain ⟨t, ht⟩ := licensedTicket_tier
  obtain ⟨t', ht'⟩ := licensedTicket_line
  have hapart : tokenHash spelledFleet.crypto tierToken ≠
      tokenHash spelledFleet.crypto tierTokenLine := by
    decide +kernel
  have hcollision : NoCollision spelledFleet.crypto tierToken tierTokenLine := by
    intro bytes bytes' hbytes hbytes' hdigest
    refine absurd ?_ hapart
    simp only [tokenHash, hbytes, hbytes', Except.toOption, Option.map, hdigest]
  exact ⟨t, t', ht, ht', (licence_hash_iff rfl ht ht' hcollision).1⟩

/-- One licence with and without the line end: both verify, with the same signed
bytes and the same signature, and their tickets carry two hashes. -/
theorem licence_hash_line :
    licenceOf FloatView tierTokenLine = licenceOf FloatView tierToken ∧
      (licenceOf FloatView tierToken).isSome ∧
      ∃ t t', LicensedTicket FloatView spelledFleet emptyTable (licensedReport tierToken)
          tierToken t ∧
        LicensedTicket FloatView spelledFleet emptyTable (licensedReport tierTokenLine)
          tierTokenLine t' ∧ t.licenseIdHash ≠ t'.licenseIdHash := by
  refine ⟨by decide +kernel, by decide +kernel, ?_⟩
  obtain ⟨t, ht⟩ := licensedTicket_tier
  obtain ⟨t', ht'⟩ := licensedTicket_line
  refine ⟨t, t', ht, ht', ?_⟩
  obtain ⟨-, -, hhash⟩ := ht.hash
  obtain ⟨-, -, hhash'⟩ := ht'.hash
  rw [hhash, hhash']
  decide +kernel

end

end NetplexSupport
