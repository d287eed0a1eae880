/-
When a licence token is valid.  `verify_license`, `register_license` and the
forward intake all go through `_verify_token`; register parses and verifies the
token a second time on its own, and the two readings agree.
-/
import NetplexSupport.Crypto.Acceptance
import NetplexSupport.Routers.Diagnostics

namespace NetplexSupport

open Py

section

variable {F : Type} [PyFloat F] [Interpreter]

/-- `str(claims.get("tier", ""))`. -/
def claimedTier (claims : Members F) : Str := ((dictGet claims "tier").getD (.str "")).pyStr

/-- `str(claims.get("customer_ref", ""))`. -/
def claimedCustomer (claims : Members F) : Str :=
  ((dictGet claims "customer_ref").getD (.str "")).pyStr

/-- The claims do not expire, or expire at the second `e` that is not past. -/
def Unexpired (claims : Members F) (now : Int) (e : Option Int) : Prop :=
  let expiresAt := (dictGet claims "expires_at").getD .null
  (expiresAt = .null ∧ e = none) ∨
    ∃ i, expiresAt.toInt = .ok i ∧ now ≤ i ∧ e = some i

/-- The token is an object that verifies under the key `kid` of the store and is
not expired. -/
structure ValidToken (C : Crypto) (trust : TrustStore F) (token : Str) (now : Int)
    (claims : Members F) (kid : Str) (e : Option Int) : Prop where
  loads : loads token = some (.obj claims)
  verified : verifyManifest C claims trust = .ok (true, kid)
  unexpired : Unexpired claims now e

/-- `_verify_token` calls a token valid exactly when it is. -/
theorem verifyToken_valid_iff {C : Crypto} {trust : TrustStore F} {token : Str}
    {now : Int} {result : VerifyResult F} :
    verifyToken C token trust now = .ok result ∧ result.valid = true ↔
      ∃ claims kid e, ValidToken C trust token now claims kid e ∧
        result = { valid := true, tier := claimedTier claims, expiresAt := e } := by
  constructor
  · rintro ⟨hverify, hvalid⟩
    unfold verifyToken at hverify
    split at hverify
    swap
    · obtain rfl := Except.ok.inj hverify
      cases hvalid
    rename_i claims hloads
    obtain ⟨⟨ok, kid⟩, hmanifest, hverify⟩ := bind_eq_ok.mp hverify
    rcases ok with _ | _
    · obtain rfl := Except.ok.inj hverify
      cases hvalid
    simp only [Bool.not_true, Bool.false_eq_true, if_false] at hverify
    split at hverify
    · rename_i hnull
      obtain rfl := Except.ok.inj hverify
      exact ⟨claims, kid, none, ⟨hloads, hmanifest, Or.inl ⟨hnull, rfl⟩⟩, rfl⟩
    · obtain ⟨i, hint, hverify⟩ := bind_eq_ok.mp hverify
      by_cases hexpired : i < now
      · rw [if_pos hexpired] at hverify
        obtain rfl := Except.ok.inj hverify
        cases hvalid
      · rw [if_neg hexpired] at hverify
        obtain rfl := Except.ok.inj hverify
        exact ⟨claims, kid, some i, ⟨hloads, hmanifest,
          Or.inr ⟨i, hint, not_lt.mp hexpired, rfl⟩⟩, rfl⟩
  · rintro ⟨claims, kid, e, ⟨hloads, hmanifest, hunexpired⟩, rfl⟩
    refine ⟨?_, rfl⟩
    unfold verifyToken
    simp only [hloads]
    rw [bind_eq_ok]
    refine ⟨(true, kid), hmanifest, ?_⟩
    simp only [Bool.not_true, Bool.false_eq_true, if_false]
    rcases hunexpired with ⟨hnull, rfl⟩ | ⟨i, hint, hnow, rfl⟩
    · rw [hnull]
      rfl
    · split
      · rename_i hnull
        rw [hnull] at hint
        cases hint
      · rw [bind_eq_ok]
        exact ⟨i, hint, by rw [if_neg (not_lt.mpr hnow)]; rfl⟩

/-- The row `register_license` stores for a token. -/
def licenseRow (claims : Members F) (kid : Str) (e : Option Int) (token : Str)
    (draw : RowDraw) : LicenseToken where
  id := draw.id
  customerRef := claimedCustomer claims
  keyId := kid
  tier := claimedTier claims
  expiresAt := e
  tokenJson := token
  registeredAt := draw.stamp

/-- The answer to an accepted registration. -/
def registered (claims : Members F) (kid : Str) (e : Option Int) : RegisterResult where
  accepted := true
  customerRef := claimedCustomer claims
  tier := claimedTier claims
  keyId := kid
  expiresAt := e

/-- A registration succeeds exactly for a valid token whose row the database can
hold, and appends that row. -/
theorem registerLicense_eq_ok_iff {C : Crypto} {B : Backend} {settings : Settings}
    {rows : List LicenseToken} {token : Str} {now : Int} {draw : RowDraw}
    {answer : RegisterResult} {rows' : List LicenseToken} :
    registerLicense F C B settings rows token now draw = .ok (answer, rows') ↔
      ∃ (trust : TrustStore F) (claims : Members F) (kid : Str) (e : Option Int),
        licenseTrustStore C settings = .ok trust ∧
        ValidToken C trust token now claims kid e ∧
        (licenseRow claims kid e token draw).fits B = true ∧
        answer = registered claims kid e ∧
        rows' = rows ++ [licenseRow claims kid e token draw] := by
  unfold registerLicense
  simp only [bind_eq_ok, raising_eq_ok]
  constructor
  · rintro ⟨trust, htrust, h⟩
    split at h
    · cases h
    · rename_i claims hloads
      obtain ⟨⟨ok, kid⟩, hmanifest, h⟩ := bind_eq_ok.mp h
      rw [raising_eq_ok] at hmanifest
      rcases ok with _ | _
      · cases h
      simp only [Bool.not_true, Bool.false_eq_true, if_false] at h
      obtain ⟨result, hresult, h⟩ := bind_eq_ok.mp h
      rw [raising_eq_ok] at hresult
      rcases hvalid : result.valid with _ | _
      · simp [hvalid] at h
      simp only [hvalid, Bool.not_true, Bool.false_eq_true, if_false] at h
      obtain ⟨stored, hstored, h⟩ := bind_eq_ok.mp h
      rw [raising_eq_ok, storeLicenseToken_eq_ok] at hstored
      obtain ⟨claims', kid', e, hgood, rfl⟩ := verifyToken_valid_iff.mp ⟨hresult, hvalid⟩
      -- The handler's own parse and check agree with those of `_verify_token`.
      obtain rfl : claims' = claims := by
        simpa using hgood.loads.symm.trans hloads
      obtain rfl : kid' = kid := by
        simpa using hgood.verified.symm.trans hmanifest
      obtain ⟨rfl, rfl⟩ := Prod.mk.inj (Except.ok.inj h)
      exact ⟨trust, claims', kid', e, htrust, hgood, hstored.1, rfl, hstored.2⟩
    · cases h
  · rintro ⟨trust, claims, kid, e, htrust, hgood, hfits, rfl, rfl⟩
    refine ⟨trust, htrust, ?_⟩
    obtain ⟨hresult, _⟩ := verifyToken_valid_iff.mpr ⟨claims, kid, e, hgood, rfl⟩
    simp only [hgood.loads]
    rw [bind_eq_ok]
    refine ⟨(true, kid), raising_eq_ok.mpr hgood.verified, ?_⟩
    simp only [Bool.not_true, Bool.false_eq_true, if_false]
    rw [bind_eq_ok]
    refine ⟨_, raising_eq_ok.mpr hresult, ?_⟩
    simp only [Bool.not_true, Bool.false_eq_true, if_false]
    rw [bind_eq_ok]
    exact ⟨_, raising_eq_ok.mpr (storeLicenseToken_eq_ok.mpr ⟨hfits, rfl⟩), rfl⟩

end

end NetplexSupport
