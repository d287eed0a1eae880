/-
The licence registry over runs of registrations: only valid tokens are stored,
each row says what its token says, and each customer has its own history.
-/
import NetplexSupport.Licensing.Verification
import NetplexSupport.Tools.MintLicense
import NetplexSupport.Transition.Journal

namespace NetplexSupport

open Py

section

variable {F : Type} [PyFloat F] [Interpreter]

/-! ### One registration -/

variable (F) in
/-- `_verify_token` calls the token valid at the time of the call, under the
settings of the call. -/
def Registration.Valid (C : Crypto) (e : Registration) : Prop :=
  ∃ (trust : TrustStore F) (result : VerifyResult F),
    licenseTrustStore C e.settings = .ok trust ∧
    verifyToken C e.token trust e.now = .ok result ∧ result.valid = true

variable (F) in
/-- What an accepted registration stores. -/
def Registers (C : Crypto) (e : Registration) (row : LicenseToken) : Prop :=
  ∃ (trust : TrustStore F) (claims : Members F) (kid : Str) (expiry : Option Int),
    licenseTrustStore C e.settings = .ok trust ∧
    ValidToken C trust e.token e.now claims kid expiry ∧
    row = licenseRow claims kid expiry e.token e.draw

omit [PyFloat F] [Interpreter] in
theorem fits_unbounded (row : LicenseToken) : row.fits Backend.unbounded = true := by
  unfold LicenseToken.fits Backend.unbounded
  rcases row.expiresAt with _ | i
  · rfl
  · rfl

theorem registerStep_valid {C : Crypto} {e : Registration} (rows : List LicenseToken)
    (h : e.Valid F C) : ∃ row answer, Registers F C e row ∧
      registerStep F C Backend.unbounded rows e = (rows ++ [row], .ok answer) := by
  obtain ⟨trust, result, htrust, hresult⟩ := h
  obtain ⟨claims, kid, expiry, hgood, _⟩ := verifyToken_valid_iff.mp hresult
  have hregister : registerLicense F C Backend.unbounded e.settings rows e.token e.now
      e.draw = .ok (registered claims kid expiry,
        rows ++ [licenseRow claims kid expiry e.token e.draw]) :=
    registerLicense_eq_ok_iff.mpr ⟨trust, claims, kid, expiry, htrust, hgood,
      fits_unbounded _, rfl, rfl⟩
  refine ⟨_, registered claims kid expiry,
    ⟨trust, claims, kid, expiry, htrust, hgood, rfl⟩, ?_⟩
  rw [registerStep, hregister]
  rfl

theorem registerStep_invalid {C : Crypto} {rows : List LicenseToken} {e : Registration}
    (h : ¬ e.Valid F C) :
    ∃ failure, registerStep F C Backend.unbounded rows e = (rows, .error failure) := by
  rcases orKeep_cases rows
      (registerLicense F C Backend.unbounded e.settings rows e.token e.now e.draw) with
    ⟨answer, rows', hregister, _⟩ | hfailed
  · obtain ⟨trust, claims, kid, expiry, htrust, hgood, _⟩ :=
      registerLicense_eq_ok_iff.mp hregister
    obtain ⟨hresult, hvalid⟩ :=
      verifyToken_valid_iff.mpr ⟨claims, kid, expiry, hgood, rfl⟩
    exact absurd ⟨trust, _, htrust, hresult, hvalid⟩ h
  · exact hfailed

theorem registerStep_journal (C : Crypto) :
    Transition.Journal (registerStep F C Backend.unbounded) (Registers F C) := by
  intro rows e
  by_cases h : e.Valid F C
  · exact Or.inl (registerStep_valid rows h)
  · exact Or.inr (registerStep_invalid h)

/-- A stored row keeps the token it was registered with and says what its signed
claims say. -/
theorem registers_carries {C : Crypto} {e : Registration} {row : LicenseToken}
    (h : Registers F C e row) :
    ∃ (trust : TrustStore F) (claims sigblock : Members F),
      licenseTrustStore C e.settings = .ok trust ∧
      row.tokenJson = e.token ∧ row.id = e.draw.id ∧
      ValidToken C trust row.tokenJson e.now claims row.keyId row.expiresAt ∧
      dictGet claims "signature" = some (.obj sigblock) ∧
      dictGet sigblock "key_id" = some (.str row.keyId) ∧
      row.tier = claimedTier claims ∧ row.customerRef = claimedCustomer claims := by
  obtain ⟨trust, claims, kid, expiry, htrust, hgood, rfl⟩ := h
  obtain ⟨sigblock, pub, hsignature, hnames, hholds, _⟩ :=
    verifyManifest_eq_true_iff.mp hgood.verified
  exact ⟨trust, claims, sigblock, htrust, rfl, rfl, hgood, hsignature,
    dictGet_keyId (fromKeys_of_settings htrust) hnames hholds, rfl, rfl⟩

/-! ### Lookups -/

def registeredView (row : LicenseToken) : RegisteredView where
  customerRef := row.customerRef
  tier := row.tier
  keyId := row.keyId
  expiresAt := row.expiresAt
  token := row.tokenJson

omit [PyFloat F] [Interpreter] in
/-- A row of another customer is not seen. -/
theorem getRegisteredLicense_append {rows : List LicenseToken} {row : LicenseToken}
    {customer : Str} (h : row.customerRef ≠ customer) :
    getRegisteredLicense (rows ++ [row]) customer = getRegisteredLicense rows customer := by
  have hfilter : (rows ++ [row]).filter (fun row => row.customerRef = customer) =
      rows.filter fun row => row.customerRef = customer := by
    simp [h]
  rw [getRegisteredLicense, latestLicenseTokenFor, hfilter]
  rfl

omit [PyFloat F] [Interpreter] in
/-- When ids increase, the last row of the customer is returned. -/
theorem getRegisteredLicense_eq {rows : List LicenseToken}
    (hids : rows.Pairwise fun a b => a.id < b.id) (customer : Str) :
    getRegisteredLicense rows customer =
      match (rows.filter fun row => row.customerRef = customer).getLast? with
      | some row => .ok (registeredView row)
      | none => .error (.http 404 "no registered license for that customer_ref") := by
  rw [getRegisteredLicense, latestLicenseTokenFor,
    Sql.lastBy_eq_getLast? (hids.sublist List.filter_sublist)]
  generalize (rows.filter fun row => row.customerRef = customer).getLast? = last
  rcases last with _ | row
  · rfl
  · rfl

omit [PyFloat F] [Interpreter] in
theorem getRegisteredLicense_new {rows : List LicenseToken} {row : LicenseToken}
    (hids : (rows.map LicenseToken.id ++ [row.id]).Pairwise (· < ·)) :
    getRegisteredLicense (rows ++ [row]) row.customerRef = .ok (registeredView row) := by
  have hrows : (rows ++ [row]).Pairwise fun a b => a.id < b.id := by
    rw [← List.pairwise_map (f := LicenseToken.id), List.map_append]
    exact hids
  rw [getRegisteredLicense_eq hrows]
  simp [List.filter_append]

/-- Every run of registrations: a call appends a row exactly when its token is
valid and otherwise changes nothing, another customer's lookup never notices,
every stored row carries what its token claimed when it was valid, and a
customer's lookup returns the last row with that `customer_ref`. -/
theorem registrations_run {C : Crypto} {events : List Registration}
    (hids : (Transition.after (registerStep F C Backend.unbounded) [] events).Pairwise
      fun a b => a.id < b.id) :
    (∀ past e rest, events = past ++ e :: rest →
      let rows := Transition.after (registerStep F C Backend.unbounded) [] past
      (e.Valid F C ∧ ∃ row answer, Registers F C e row ∧
        registerStep F C Backend.unbounded rows e = (rows ++ [row], .ok answer) ∧
        ∀ customer ≠ row.customerRef, getRegisteredLicense (rows ++ [row]) customer =
          getRegisteredLicense rows customer) ∨
      (¬ e.Valid F C ∧ ∃ failure,
        registerStep F C Backend.unbounded rows e = (rows, .error failure))) ∧
    let rows := Transition.after (registerStep F C Backend.unbounded) [] events
    (∀ row ∈ rows, ∃ e ∈ events,
      ∃ (trust : TrustStore F) (claims sigblock : Members F),
        licenseTrustStore C e.settings = .ok trust ∧
        row.tokenJson = e.token ∧ row.id = e.draw.id ∧
        ValidToken C trust row.tokenJson e.now claims row.keyId row.expiresAt ∧
        dictGet claims "signature" = some (.obj sigblock) ∧
        dictGet sigblock "key_id" = some (.str row.keyId) ∧
        row.tier = claimedTier claims ∧ row.customerRef = claimedCustomer claims) ∧
    ∀ customer, getRegisteredLicense rows customer =
      match (rows.filter fun row => row.customerRef = customer).getLast? with
      | some row => .ok (registeredView row)
      | none => .error (.http 404 "no registered license for that customer_ref") := by
  have hjournal := registerStep_journal (F := F) C
  refine ⟨?_, ?_, getRegisteredLicense_eq hids⟩
  · intro past e rest _ rows
    by_cases h : e.Valid F C
    · obtain ⟨row, answer, hrow, hstep⟩ := registerStep_valid rows h
      exact Or.inl ⟨h, row, answer, hrow, hstep,
        fun customer hne => getRegisteredLicense_append hne.symm⟩
    · exact Or.inr ⟨h, registerStep_invalid h⟩
  · intro row hrow
    obtain ⟨added, hafter, hadded⟩ := hjournal.after_eq [] events
    rw [hafter, List.nil_append] at hrow
    obtain ⟨e, he, hregisters⟩ := exists_mem_of_forall₂ hadded hrow
    exact ⟨e, (Transition.accepted_sublist _ _ _).subset he, registers_carries hregisters⟩

end

section

attribute [local instance] FloatView.asFloat Interpreter.ascii

/-- A server that trusts the recorded key. -/
def licenceSettings : Settings where
  licenseTrustStoreJson := recordedTrustJson
  adminApiTokens := "ops"

/-- A licence of `acme` for some days. -/
def teamLicence (days : Int) : MintArgs where
  tier := "Team"
  buyerId := "acme"
  licenseId := some "lic-1"
  validity := .days days
  now := 1700000000

/-- The licence, signed with the recorded key. -/
def teamToken (days : Int) : Except Exc Str :=
  mintToken FloatView recordedKey.crypto recordedKey.signingKey recordedSeedText
    (teamLicence days)

/-- A spoilt token, then the token itself. -/
def teamRegistrations (token : Str) : List Registration :=
  [⟨licenceSettings, 1700000000, token ++ "?", ⟨1, 10⟩⟩,
    ⟨licenceSettings, 1700000000, token, ⟨2, 20⟩⟩]

/-- Only the token is stored, and the lookup returns it. -/
theorem registrations_run_team :
    ∃ token row, teamToken 1 = .ok token ∧
      Transition.after (registerStep FloatView recordedKey.crypto Backend.unbounded) []
        (teamRegistrations token) = [row] ∧
      getRegisteredLicense [row] "acme" = .ok (registeredView row) ∧
      ∃ e ∈ teamRegistrations token, ∃ (trust : TrustStore FloatView)
        (claims sigblock : Members FloatView),
        licenseTrustStore recordedKey.crypto e.settings = .ok trust ∧
        row.tokenJson = e.token ∧ row.id = e.draw.id ∧
        ValidToken recordedKey.crypto trust row.tokenJson e.now claims row.keyId
          row.expiresAt ∧
        dictGet claims "signature" = some (.obj sigblock) ∧
        dictGet sigblock "key_id" = some (.str row.keyId) ∧
        row.tier = claimedTier claims ∧ row.customerRef = claimedCustomer claims := by
  have hrun : (teamToken 1 >>= fun token =>
      .ok ((Transition.after (registerStep FloatView recordedKey.crypto Backend.unbounded) []
        (teamRegistrations token)).map LicenseToken.customerRef)) =
      .ok [Str.ofString "acme"] := by decide +kernel
  obtain ⟨token, htoken, hrun⟩ := bind_eq_ok.mp hrun
  obtain ⟨row, hrows, hcustomer⟩ := List.map_eq_singleton_iff.mp (Except.ok.inj hrun)
  have h := registrations_run (F := FloatView) (C := recordedKey.crypto)
    (hrows ▸ List.pairwise_singleton _ _)
  rw [hrows] at h
  have hlookup := h.2.2 "acme"
  rw [← hcustomer] at hlookup
  refine ⟨token, row, htoken, hrows, ?_, h.2.1 row List.mem_cons_self⟩
  rw [← hcustomer, hlookup]
  simp

end

end NetplexSupport
