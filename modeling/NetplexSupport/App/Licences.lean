/-
From the minting machine to a ticket.  A licence is minted offline with a key whose
public part the server was given, an operator registers it, and whatever is called
from then on, the operators find it under its customer, and a box that presents it
files its reports at the tier that was minted, until the licence expires.
-/
import NetplexSupport.App.Provenance
import NetplexSupport.Licensing.Minted
import NetplexSupport.Tickets.Tiers
import NetplexSupport.Tools.SignRelease

namespace NetplexSupport

open Py

section

variable {F : Type} [PyFloat F] [Interpreter]

/-! ### The licence in the registry -/

variable (F) in
/-- The registration's token names this customer. -/
def Registration.ofCustomer (customer : Str) (e : Registration) : Bool :=
  match loads (F := F) e.token with
  | some (.obj claims) => decide (claimedCustomer claims = customer)
  | _ => false

theorem ofCustomer_iff {C : Crypto} {e : Registration} {row : LicenseToken}
    (h : Registers F C e row) (customer : Str) :
    e.ofCustomer F customer = true ↔ row.customerRef = customer := by
  obtain ⟨trust, claims, kid, expiry, _, hgood, rfl⟩ := h
  simp only [Registration.ofCustomer, hgood.loads, decide_eq_true_eq]
  exact Iff.rfl

omit [PyFloat F] [Interpreter] in
/-- The row of a customer, behind which no other row of theirs stands. -/
theorem getRegisteredLicense_of_last {old new : List LicenseToken} {row : LicenseToken}
    (hids : (old ++ row :: new).Pairwise fun a b => a.id < b.id)
    (hnew : ∀ row' ∈ new, row'.customerRef ≠ row.customerRef) :
    getRegisteredLicense (old ++ row :: new) row.customerRef = .ok (registeredView row) := by
  have hnone : new.filter (fun row' => decide (row'.customerRef = row.customerRef)) = [] := by
    rw [List.filter_eq_nil_iff]
    intro row' hrow'
    simpa using hnew row' hrow'
  rw [getRegisteredLicense_eq hids]
  simp [List.filter_append, hnone]

/-! ### The licence of a report -/

variable {C : Crypto} {K : SigningKey} {seed : Bytes} {args : MintArgs} {token : Str}
  {claims signed : Members F}

/-- What a licence gives a report at a second: its tier and its hash, and the floor
once it has expired. -/
def licenceWorth (C : Crypto) (args : MintArgs) (text : Str) (now : Int) :
    Str × Option Str :=
  if args.expiresAt.all (fun e => decide (now ≤ e)) then
    (tierOrFloor args.loweredTier, some (hexdigest (C.sha256 (utf8 text))))
  else ("associate", none)

theorem wellFormed_minted (hm : Minted C K seed args token claims signed) {w : Str}
    (hw : Str.WellFormed w) : Str.WellFormed (token ++ w) := by
  have htoken := (wellFormed_dumps (o := fileOpts) rfl (Str.wellFormed_ofString ",")
    (Str.wellFormed_ofString ":") _).mpr (encodable_signClaims hm.signs hm.keyed)
  rw [Str.wellFormed_append, hm.text]
  exact ⟨htoken, hw⟩

theorem minted_ne_nil (hm : Minted C K seed args token claims signed) {w : Str}
    (hw : ∀ c ∈ w, isJsonSpace c = true) : token ++ w ≠ [] := by
  have hloads : loads (token ++ w) = some (.obj signed) :=
    hm.text ▸ loads_fileText hm.keyed hw
  intro hnil
  rw [hnil] at hloads
  cases hloads

/-- A server that holds the key gives the report what the licence is worth. -/
theorem verifiedLicense_minted (hK : SignsFor C K seed) {D : Deployment}
    (hD : D.crypto = C) {trust : TrustStore F}
    (htrust : licenseTrustStore C D.settings = .ok trust)
    (hholds : trust.Holds (keyIdFor C (K.verifyKey seed)) (K.verifyKey seed))
    (hm : Minted C K seed args token claims signed) {w : Str}
    (hw : ∀ c ∈ w, isJsonSpace c = true) (hencodable : Str.WellFormed w)
    {report : ForwardedReport} (hreport : report.licenseToken = some (token ++ w))
    (now : Int) :
    verifiedLicense F D report now = .ok (licenceWorth C args (token ++ w) now) := by
  subst hD
  obtain ⟨result, hresult, hvalid, htier, _⟩ := verifyToken_minted hK hholds hm hw now
  have hbytes : encodeUtf8 (token ++ w) = .ok (utf8 (token ++ w)) :=
    encodeUtf8_eq_ok_iff.mpr ⟨wellFormed_minted hm hencodable, rfl⟩
  have hunexpired : args.expiresAt.all (fun e => decide (now ≤ e)) = result.valid := by
    rw [Bool.eq_iff_iff, hvalid, Option.all_eq_true]
    simp
  simp only [verifiedLicense, hreport, if_neg (minted_ne_nil hm hw)]
  refine bind_eq_ok.mpr ⟨trust, htrust, bind_eq_ok.mpr ⟨result, hresult, ?_⟩⟩
  rw [licenceWorth, hunexpired]
  by_cases hok : result.valid = true
  · rw [if_pos hok, if_pos hok, hbytes, htier]
    rfl
  · rw [if_neg hok, if_neg hok]
    rfl

/-- And so does the whole of its report. -/
theorem serve_licence {host : Host} {K : SigningKey} {seed : Bytes}
    (hK : SignsFor host.crypto K seed) {t : App} {trust : TrustStore F}
    (htrust : licenseTrustStore host.crypto t.settings = .ok trust)
    (hholds : trust.Holds (keyIdFor host.crypto (K.verifyKey seed)) (K.verifyKey seed))
    (hm : Minted host.crypto K seed args token claims signed) {w : Str}
    (hw : ∀ c ∈ w, isJsonSpace c = true) (hencodable : Str.WellFormed w) (a : Arrival)
    {report : ForwardedReport} (hreport : report.licenseToken = some (token ++ w)) :
    let worth := licenceWorth host.crypto args (token ++ w) a.unixTime
    let tickets := (App.serve (F := F) host t (.intake ⟨a, .forward report⟩)).1.service.tickets
    tickets = t.service.tickets ∨
      ∃ ticket, createOrDedupe t.service.tickets (forwardFields report worth.1 worth.2)
        a.ticket = .ok (ticket, tickets) := by
  intro worth tickets
  rcases serve_tickets F (host.deploy t.settings) t.service ⟨a, .forward report⟩ with
    hsame | ⟨fields, ticket, ⟨tier, licenseIdHash, hlicense, hfields⟩, hcall⟩
  · exact Or.inl hsame
  · have hworth : verifiedLicense F (host.deploy t.settings) report a.unixTime = .ok worth :=
      verifiedLicense_minted hK rfl htrust hholds hm hw hencodable hreport a.unixTime
    have hpair : (tier, licenseIdHash) = worth := Except.ok.inj (hlicense.symm.trans hworth)
    rw [hfields] at hcall
    rw [← hpair]
    exact Or.inr ⟨ticket, hcall⟩

/-! ### The whole way -/

/-- From a minted licence to a ticket.  The server is given the public key of a
generated pair, a licence is minted with its seed, and an operator registers its text:
it is registered, and in every run from then on in which no other registration of the
customer is answered, every operator who looks the customer up is given that text with
the tier and the expiry that were minted; and whenever the server holds the key, a
report that comes with the text is refused, or filed with the tier that was minted and
the hash of the text until the licence expires, and at the floor after that. -/
theorem licence_delivered (host : Host) {K : SigningKey} {seed : Bytes}
    (hK : SignsFor host.crypto K seed) (hpub : K.verifyKey seed ≠ []) {name : Str}
    {args : MintArgs} {token : Str}
    (hmint : mintToken F host.crypto K (genKeypair F host.crypto K name seed).keyFile args =
      .ok token) {text : Str} (htext : text ∈ [token, token ++ Str.ofString "\n"])
    (start : App) (past later : List (Call F)) (request : Request) {now : Int}
    (hunexpired : ∀ e, args.expiresAt = some e → now ≤ e) (draw : RowDraw)
    (hregistrable : Registrable host.crypto K seed host.backend args text) :
    let pair := genKeypair F host.crypto K name seed
    let s := Transition.after (App.serve host) start past
    let s' := (App.serve (F := F) host s (.register request text now draw)).1
    let t := Transition.after (App.serve host) s' later
    TrustsPair F host.crypto pair s.settings.licenseTrustStoreJson
      s.settings.licensePublicKey →
    requireAdmin s.settings request = .ok () →
    t.licenses.Pairwise (fun a b => a.id < b.id) →
    (∀ e ∈ Transition.emitted (App.serve host) (answeredRegistrations host) s' later,
      e.2.ofCustomer F args.customer = false) →
    (App.serve (F := F) host s (.register request text now draw)).2.isOk = true ∧
      (∀ request', requireAdmin t.settings request' = .ok () →
        ∃ view, (App.serve (F := F) host t (.registered request' args.customer)).2 =
            .ok (.license view) ∧
          view.token = text ∧ view.tier = args.loweredTier ∧ view.expiresAt = args.expiresAt) ∧
      (TrustsPair F host.crypto pair t.settings.licenseTrustStoreJson
          t.settings.licensePublicKey →
        ∀ (a : Arrival) (report : ForwardedReport), report.licenseToken = some text →
          let worth := licenceWorth host.crypto args text a.unixTime
          let tickets :=
            (App.serve (F := F) host t (.intake ⟨a, .forward report⟩)).1.service.tickets
          tickets = t.service.tickets ∨
            ∃ ticket, createOrDedupe t.service.tickets
              (forwardFields report worth.1 worth.2) a.ticket = .ok (ticket, tickets)) := by
  intro pair s s' t htrusts hadmin hids hlater
  obtain ⟨claims, signed, hm⟩ :=
    mintToken_minted (F := F) (readSeed_keyFile host.crypto K name seed) hmint
  obtain ⟨w, hw, hencodable, rfl⟩ : ∃ w, (∀ c ∈ w, isJsonSpace c = true) ∧
      Str.WellFormed w ∧ text = token ++ w := by
    rcases List.mem_cons.mp htext with rfl | htext
    · exact ⟨[], by simp, Str.wellFormed_nil, by simp⟩
    · exact ⟨_, by simp [Str.ofString, isJsonSpace], Str.wellFormed_ofString _,
        List.mem_singleton.mp htext⟩
  obtain ⟨trust, htrust, hholds⟩ := htrusts.holds hpub
  let row := mintedRow host.crypto K seed args signed (token ++ w) draw
  have hcustomer : row.customerRef = Str.ofString args.customer := claimedCustomer_minted hm
  have hfits : row.fits host.backend = true := (fits_mintedRow hm host.backend _ draw).mpr
    ⟨hregistrable.customer, hregistrable.keyId, hregistrable.tier, hregistrable.expires,
      hregistrable.text⟩
  have hpost := (postRegister_minted hK htrust hholds hm hw hunexpired hadmin host.backend
    s.licenses draw).mpr ⟨hregistrable.short, hfits, rfl, rfl⟩
  have hserve : App.serve (F := F) host s (.register request (token ++ w) now draw) =
      ({ s with licenses := s.licenses ++ [row] },
        .ok (.registered (registered signed (keyIdFor host.crypto (K.verifyKey seed))
          args.expiresAt))) := by
    simp only [App.serve, hpost]
    rfl
  have hrow : s'.licenses = s.licenses ++ [row] := congrArg (fun r => r.1.licenses) hserve
  obtain ⟨new, hnew, hlicensed⟩ :=
    Transition.ledger_after (licenses_serve (F := F) host) s' later
  have hafter : t.licenses = s.licenses ++ row :: new := by
    rw [hnew, hrow, List.append_assoc, List.singleton_append]
  have hothers : ∀ row' ∈ new, row'.customerRef ≠ row.customerRef := by
    intro row' hmem heq
    obtain ⟨e, he, _, _, hregisters, _⟩ := exists_mem_of_forall₂ hlicensed hmem
    have hno := hlater e he
    rw [(ofCustomer_iff hregisters _).mpr (heq.trans hcustomer)] at hno
    cases hno
  refine ⟨?_, ?_, ?_⟩
  · rw [hserve]
    rfl
  · intro request' hadmin'
    rw [hafter] at hids
    have hfound := getRegisteredLicense_of_last hids hothers
    have hroute : ¬ (Str.ofString args.customer = [] ∨
        ch '/' ∈ Str.ofString args.customer) := by
      rw [not_or, ofString_eq_nil, ch_mem_ofString]
      exact ⟨hregistrable.named, hregistrable.segment⟩
    refine ⟨registeredView row, ?_, rfl, claimedTier_minted hm, rfl⟩
    rw [← hafter, hcustomer] at hfound
    simp only [App.serve, getRegistered, if_neg hroute, hadmin', bind, Except.bind, hfound]
    rfl
  · intro htrusts' a report hreport
    obtain ⟨trust', htrust', hholds'⟩ := htrusts'.holds hpub
    exact serve_licence hK htrust' hholds' hm hw hencodable a hreport

end

section

attribute [local instance] FloatView.asFloat Interpreter.ascii

/-- The server has the content of the licence key's `.pub` file. -/
def licencePairSettings : Settings where
  licensePublicKey := b64e (recordedKey.signingKey.verifyKey recordedKey.seed)
  adminApiTokens := "ops"

/-- A day's licence is registered with its newline, and is found as it was minted. -/
theorem licence_delivered_team :
    ∃ (token : Str) (view : RegisteredView),
      mintToken FloatView recordedKey.crypto recordedKey.signingKey
          (genKeypair FloatView recordedKey.crypto recordedKey.signingKey "netplex-license"
            recordedKey.seed).keyFile (teamLicence 1) = .ok token ∧
        (App.serve (F := FloatView) fleetHost
          (Transition.after (App.serve (F := FloatView) fleetHost)
            (App.fresh licencePairSettings)
            [.register operatorRequest (token ++ "\n") 1700000000 ⟨1, 0⟩, .publish])
          (.registered operatorRequest "acme")).2 = .ok (.license view) ∧
        view.token = token ++ "\n" ∧ view.tier = Str.ofString "team" ∧
        view.expiresAt = some 1700086400 := by
  have hrun : (mintToken FloatView recordedKey.crypto recordedKey.signingKey
      (genKeypair FloatView recordedKey.crypto recordedKey.signingKey "netplex-license"
        recordedKey.seed).keyFile (teamLicence 1) >>= fun token =>
      .ok (decide (Registrable recordedKey.crypto recordedKey.signingKey recordedKey.seed
        fleetHost.backend (teamLicence 1) (token ++ "\n")))) = .ok true := by decide +kernel
  obtain ⟨token, htoken, hregistrable⟩ := bind_eq_ok.mp hrun
  have hunexpired : ∀ e, (teamLicence 1).expiresAt = some e → 1700000000 ≤ e := by
    intro e he
    obtain rfl := Option.some.inj he
    decide
  let start : App := App.fresh licencePairSettings
  let registered : App := (App.serve (F := FloatView) fleetHost start
    (.register operatorRequest (token ++ "\n") 1700000000 ⟨1, 0⟩)).1
  have hids : registered.licenses.Pairwise fun a b => a.id < b.id := by
    obtain ⟨rows, hrows, hlicensed⟩ := licenses_serve (F := FloatView) fleetHost start
      (.register operatorRequest (token ++ "\n") 1700000000 ⟨1, 0⟩)
    have hone : rows.length ≤ 1 := by
      rw [← hlicensed.length_eq, answeredRegistrations]
      split
      · exact le_refl 1
      · exact Nat.zero_le 1
    have hlist : registered.licenses = rows := hrows
    rw [hlist]
    rcases rows with _ | ⟨row, _ | ⟨row', rest⟩⟩
    · exact List.Pairwise.nil
    · exact List.pairwise_singleton _ _
    · rw [List.length_cons, List.length_cons] at hone
      omega
  have hadmin : requireAdmin licencePairSettings operatorRequest = .ok () := by decide +kernel
  obtain ⟨_, hlookup, _⟩ := licence_delivered (F := FloatView) fleetHost recordedKey_signsFor
    (by decide +kernel) htoken (List.mem_cons_of_mem _ List.mem_cons_self) start []
    [.publish] operatorRequest hunexpired ⟨1, 0⟩
    (of_decide_eq_true (Except.ok.inj hregistrable))
    (.single (by decide +kernel) (strip_line _).symm) hadmin hids
    (by simp [Transition.emitted, answeredRegistrations])
  obtain ⟨view, hview, htext, htier, hexpires⟩ := hlookup operatorRequest hadmin
  exact ⟨token, view, htoken, hview, htext, htier.trans (by decide +kernel), hexpires⟩

end

end NetplexSupport
