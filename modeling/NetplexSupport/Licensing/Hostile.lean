/-
Hostile licence tokens.  Before anything is verified the signature block's key id
is looked up in a dict, and after everything is verified the expiry goes through
`int()`; nothing else that a token can hold stops `_verify_token`.
-/
import NetplexSupport.Licensing.Verification

namespace NetplexSupport

open Py

section

variable {F : Type} [PyFloat F] [Interpreter]

/-! ### Lookups -/

omit [PyFloat F] [Interpreter] in
/-- A value is looked up, unless it cannot be hashed. -/
theorem TrustStore.entry_ok_iff (trust : TrustStore F) (j : Json F) :
    (∃ e, trust.entry j = .ok e) ↔ j.hashError = none := by
  cases j with
  | arr items => simp [TrustStore.entry, Json.hashError]
  | obj members => simp [TrustStore.entry, Json.hashError]
  | str kid => exact ⟨fun _ => rfl, fun _ => ⟨_, rfl⟩⟩
  | null | bool | int | float => exact ⟨fun _ => rfl, fun _ => ⟨none, rfl⟩⟩

omit [PyFloat F] [Interpreter] in
theorem TrustStore.statusOf_ok_iff (trust : TrustStore F) (j : Json F) :
    (∃ status, trust.statusOf j = .ok status) ↔ j.hashError = none := by
  rw [← trust.entry_ok_iff j]
  constructor
  · rintro ⟨status, hstatus⟩
    obtain ⟨e, he, -⟩ := bind_eq_ok.mp hstatus
    exact ⟨e, he⟩
  · rintro ⟨e, he⟩
    cases e with
    | none => exact ⟨.null, bind_eq_ok.mpr ⟨none, he, rfl⟩⟩
    | some e => exact ⟨e.status, bind_eq_ok.mpr ⟨some e, he, rfl⟩⟩

omit [PyFloat F] in
/-- The keys of a store were decoded when it was built. -/
theorem publicKey_ok {C : Crypto} {keys : List (Json F)} {trust : TrustStore F}
    (hstore : TrustStore.fromKeys C keys = .ok trust) {j : Json F}
    (hj : j.hashError = none) : ∃ pub, trust.publicKey j = .ok pub := by
  obtain ⟨entry, hentry⟩ := (trust.entry_ok_iff j).mpr hj
  cases entry with
  | none => exact ⟨none, bind_eq_ok.mpr ⟨none, hentry, rfl⟩⟩
  | some e =>
      obtain ⟨kid, rfl, hget⟩ := TrustStore.entry_eq_some hentry
      obtain ⟨es, hes, hentries⟩ := fromKeys_eq_ok hstore
      rw [hentries] at hget
      obtain ⟨k, -, hk⟩ := exists_mem_of_forall₂ hes ((dictOf_spec es).2 _ (mem_of_dictGet hget))
      obtain ⟨pub, -, hpub, -⟩ := entryOf_eq_ok hk
      rw [← hentries] at hget
      exact ⟨some pub, (TrustStore.publicKey_eq_ok hget).mpr ⟨pub, hpub, rfl⟩⟩

/-! ### Manifests -/

omit [PyFloat F] [Interpreter] in
/-- The key id a manifest is looked up by, if it is looked up at all: the block
names Ed25519, and an absent key id is the empty text. -/
def lookedUp (C : Crypto) (manifest : Members F) : Option (Json F) :=
  match C.VerifyKey with
  | none => none
  | some _ =>
      match dictGet manifest "signature" with
      | some (.obj sigblock) =>
          if ((dictGet sigblock "alg").getD .null).isStr ALG then
            some ((dictGet sigblock "key_id").getD (.str ""))
          else none
      | _ => none

/-- `verify_manifest` answers exactly when the key id can be looked up. -/
theorem verifyManifest_ok_iff {C : Crypto} {keys : List (Json F)} {trust : TrustStore F}
    (hstore : TrustStore.fromKeys C keys = .ok trust) (manifest : Members F) :
    (∃ answer, verifyManifest C manifest trust = .ok answer) ↔
      ∀ kid ∈ lookedUp C manifest, kid.hashError = none := by
  unfold verifyManifest lookedUp
  cases C.VerifyKey with
  | none => simp
  | some VerifyKey =>
      rcases dictGet manifest "signature" with _ | j
      · simp
      · cases j with
        | obj sigblock =>
            dsimp only
            by_cases halg : ((dictGet sigblock "alg").getD .null).isStr ALG = true
            · simp only [halg, Bool.not_true, Bool.false_eq_true, if_false, if_true,
                Option.mem_def, Option.some.injEq, forall_eq']
              generalize (dictGet sigblock "key_id").getD (.str "") = kid
              constructor
              · rintro ⟨answer, hanswer⟩
                obtain ⟨status, hstatus, -⟩ := bind_eq_ok.mp hanswer
                exact (trust.statusOf_ok_iff kid).mp ⟨status, hstatus⟩
              · intro hkid
                obtain ⟨status, hstatus⟩ := (trust.statusOf_ok_iff kid).mpr hkid
                obtain ⟨pub, hpub⟩ := publicKey_ok hstore hkid
                simp only [bind_eq_ok, hstatus, Except.ok.injEq, exists_eq_left']
                split
                · exact ⟨_, rfl⟩
                · split
                  · exact ⟨_, rfl⟩
                  · split
                    · exact ⟨_, rfl⟩
                    · simp only [bind_eq_ok, hpub, Except.ok.injEq, exists_eq_left']
                      split
                      · exact ⟨_, rfl⟩
                      · split
                        · exact ⟨_, rfl⟩
                        · exact ⟨_, rfl⟩
            · simp only [halg, Bool.not_false, if_true]
              simp
        | _ => simp

/-! ### Tokens -/

/-- The claims are signed by a key of the store. -/
def SignedBy (C : Crypto) (trust : TrustStore F) (claims : Members F) : Prop :=
  ∃ kid sigblock pub, dictGet claims "signature" = some (.obj sigblock) ∧
    NamesKey sigblock kid ∧ trust.Holds kid pub ∧ SignatureVerifies C claims sigblock pub

/-- `_verify_token` can read the claims: the key id of an Ed25519 block is no list
and no dict, and where the signature is good the expiry is absent or an
`int()`. -/
structure Readable (C : Crypto) (trust : TrustStore F) (claims : Members F) : Prop where
  keyId : ∀ kid ∈ lookedUp C claims, kid.hashError = none
  expiresAt : SignedBy C trust claims →
    (dictGet claims "expires_at").getD .null = .null ∨
      ∃ i, ((dictGet claims "expires_at").getD .null).toInt = .ok i

/-- `_verify_token` answers exactly when it can read the claims of the token, if
the token holds any. -/
theorem verifyToken_ok_iff {C : Crypto} {keys : List (Json F)} {trust : TrustStore F}
    (hstore : TrustStore.fromKeys C keys = .ok trust) (token : Str) (now : Int) :
    (∃ result, verifyToken C token trust now = .ok result) ↔
      ∀ claims, loads token = some (.obj claims) → Readable C trust claims := by
  unfold verifyToken
  split
  · rename_i claims hloads
    have hmanifest := verifyManifest_ok_iff hstore claims
    simp only [hloads, Option.some.injEq, Json.obj.injEq, forall_eq']
    constructor
    · rintro ⟨result, hresult⟩
      obtain ⟨⟨ok, why⟩, hverify, hresult⟩ := bind_eq_ok.mp hresult
      refine ⟨hmanifest.mp ⟨_, hverify⟩, ?_⟩
      rintro ⟨kid, hsigned⟩
      have htrue := verifyManifest_eq_true_iff.mpr hsigned
      obtain ⟨rfl, rfl⟩ := Prod.mk.inj (Except.ok.inj (hverify.symm.trans htrue))
      simp only [Bool.not_true, Bool.false_eq_true, if_false] at hresult
      split at hresult
      · rename_i hnull
        exact Or.inl hnull
      · obtain ⟨i, hint, -⟩ := bind_eq_ok.mp hresult
        exact Or.inr ⟨i, hint⟩
    · intro hreadable
      obtain ⟨⟨ok, why⟩, hverify⟩ := hmanifest.mpr hreadable.keyId
      simp only [bind_eq_ok, hverify, Except.ok.injEq, exists_eq_left']
      cases ok with
      | false => exact ⟨_, rfl⟩
      | true =>
          simp only [Bool.not_true, Bool.false_eq_true, if_false]
          split
          · exact ⟨_, rfl⟩
          · rename_i hnull
            rcases hreadable.expiresAt ⟨why, verifyManifest_eq_true_iff.mp hverify⟩ with
              habsent | ⟨i, hint⟩
            · exact absurd habsent hnull
            · simp only [bind_eq_ok, hint, Except.ok.injEq, exists_eq_left']
              split
              · exact ⟨_, rfl⟩
              · exact ⟨_, rfl⟩
  · rename_i hnot
    constructor
    · intro _ claims hloads
      exact absurd hloads (hnot claims)
    · intro _
      exact ⟨_, rfl⟩

/-! ### Routes -/

/-- The token is no valid licence. -/
def BadToken (C : Crypto) (trust : TrustStore F) (token : Str) (now : Int) : Prop :=
  ¬ ∃ claims kid e, ValidToken C trust token now claims kid e

theorem verifyToken_bad {C : Crypto} {trust : TrustStore F} {token : Str} {now : Int}
    (hbad : BadToken C trust token now) {result : VerifyResult F}
    (hresult : verifyToken C token trust now = .ok result) : result.valid = false := by
  rw [← Bool.not_eq_true]
  intro hvalid
  obtain ⟨claims, kid, e, hgood, -⟩ := verifyToken_valid_iff.mp ⟨hresult, hvalid⟩
  exact hbad ⟨claims, kid, e, hgood⟩

/-- Verification of a token never raises: `_verify_token` returns at every
second, the verify route answers a bad token with `valid` false unless its rate
limit does, and the forward intake files a report with a bad token as it would
without one. -/
structure NeverRaises (C : Crypto) (trust : TrustStore F) (token : Str) : Prop where
  returns : ∀ now, ∃ result, verifyToken C token trust now = .ok result
  verify : ∀ (ip : IpAddress) (settings : Settings) (hits : Hits) (request : Request)
    (monotonic now : Int), licenseTrustStore C settings = .ok trust →
    BadToken C trust token now →
    let answer : Except Failure (VerifyResult F) :=
      (verifyLicense C ip settings hits request token monotonic now).2
    answer = .error (.http 429 "rate limit exceeded - slow down") ∨
      ∃ result, answer = .ok result ∧ result.valid = false
  forward : ∀ (D : Deployment) (s : Service) (a : Arrival) (report : ForwardedReport),
    D.crypto = C → licenseTrustStore C D.settings = .ok trust →
    report.licenseToken = some token → BadToken C trust token a.unixTime →
    verifiedLicense F D report a.unixTime = .ok ("associate", none) ∧
      receiveForwarded F D s a report =
        receiveForwarded F D s a { report with licenseToken := none }

theorem neverRaises_of_returns {C : Crypto} {trust : TrustStore F} {token : Str}
    (hreturns : ∀ now, ∃ result, verifyToken C token trust now = .ok result) :
    NeverRaises C trust token where
  returns := hreturns
  verify := by
    intro ip settings hits request monotonic now hstore hbad
    obtain ⟨result, hresult⟩ := hreturns now
    have hhandler : (do verifyToken C token (← licenseTrustStore C settings) now) =
        Except.ok (ε := Exc) result := bind_eq_ok.mpr ⟨trust, hstore, hresult⟩
    simp only [verifyLicense, hhandler]
    split
    · exact Or.inl rfl
    · exact Or.inr ⟨result, rfl, verifyToken_bad hbad hresult⟩
  forward := by
    intro D s a report hcrypto hstore htoken hbad
    obtain ⟨result, hresult⟩ := hreturns a.unixTime
    have hfloor : verifiedLicense F D report a.unixTime = .ok ("associate", none) := by
      simp only [verifiedLicense, htoken]
      split
      · rfl
      · rw [bind_eq_ok]
        refine ⟨trust, hcrypto ▸ hstore, ?_⟩
        rw [bind_eq_ok]
        refine ⟨result, hcrypto ▸ hresult, ?_⟩
        rw [verifyToken_bad hbad hresult]
        rfl
    have hnone : verifiedLicense F D { report with licenseToken := none } a.unixTime =
        .ok ("associate", none) := rfl
    refine ⟨hfloor, ?_⟩
    simp only [receiveForwarded, hfloor, hnone]
    rfl

/-- Verification of a token never raises exactly when its claims can be read. -/
theorem never_raises_iff {C : Crypto} {keys : List (Json F)} {trust : TrustStore F}
    (hstore : TrustStore.fromKeys C keys = .ok trust) (token : Str) :
    NeverRaises C trust token ↔
      ∀ claims, loads token = some (.obj claims) → Readable C trust claims := by
  constructor
  · intro h
    exact (verifyToken_ok_iff hstore token 0).mp (h.returns 0)
  · intro h
    exact neverRaises_of_returns fun now => (verifyToken_ok_iff hstore token now).mpr h

end

section

attribute [local instance] FloatView.asFloat Interpreter.ascii

/-- A text that is no JSON. -/
theorem never_raises_malformed :
    NeverRaises recordedKey.crypto (⟨[]⟩ : TrustStore FloatView) "not a token" := by
  have hstore : TrustStore.fromKeys recordedKey.crypto [] =
      .ok (⟨[]⟩ : TrustStore FloatView) := rfl
  have hloads : (loads (Str.ofString "not a token") : Option (Json FloatView)) = none := by
    rfl
  apply (never_raises_iff hstore _).mpr
  rw [hloads]
  rintro claims ⟨⟩

/-- A token whose key id is a list. -/
def listedKeyId : Str := "\x7b\"signature\":\x7b\"alg\":\"ed25519\",\"key_id\":[]\x7d\x7d"

/-- Its look-up raises under every store, the empty one included. -/
theorem never_raises_listed :
    TrustStore.fromKeys recordedKey.crypto [] = .ok (⟨[]⟩ : TrustStore FloatView) ∧
      ¬ NeverRaises recordedKey.crypto (⟨[]⟩ : TrustStore FloatView) listedKeyId := by
  refine ⟨rfl, fun h => ?_⟩
  obtain ⟨result, hresult⟩ := h.returns 0
  have hrun : (verifyToken recordedKey.crypto listedKeyId (⟨[]⟩ : TrustStore FloatView)
      0).toOption.isNone = true := by
    decide +kernel
  rw [hresult] at hrun
  cases hrun

end

end NetplexSupport
