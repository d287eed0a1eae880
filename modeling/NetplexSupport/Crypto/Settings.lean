/-
What a pair of settings strings does to the trust store.  Only the JSON parse is
guarded, and that against a `ValueError` alone; an entry that cannot be read ends the
building of the whole store, so the settings degrade exactly when the parser can follow
the list and every entry they select can be indexed.
-/
import NetplexSupport.Crypto.Revocation

namespace NetplexSupport

open Py

section

variable {F : Type} [PyFloat F] [Interpreter]

omit [PyFloat F] [Interpreter] in
/-- An object whose `public_key` is a string of base64. -/
def WellFormedKey (k : Json F) : Prop :=
  ∃ text pub, k.get? "public_key" = some (.str text) ∧ b64d (.str text : Json F) = .ok pub

omit [PyFloat F] [Interpreter] in
theorem wellFormedKey_iff {k : Json F} :
    WellFormedKey k ↔ ∃ pub status, Configures k pub status := by
  constructor
  · rintro ⟨text, pub, hget, hpub⟩
    exact ⟨pub, _, ⟨text, hget, hpub⟩, rfl⟩
  · rintro ⟨pub, status, ⟨text, hget, hpub⟩, _⟩
    exact ⟨text, pub, hget, hpub⟩

omit [PyFloat F] in
/-- The loop of `from_keys` gets past an entry exactly when it is well formed. -/
theorem entryOf_isOk_iff {C : Crypto} {k : Json F} :
    (∃ e, entryOf C k = .ok e) ↔ WellFormedKey k := by
  constructor
  · rintro ⟨⟨kid, e⟩, he⟩
    obtain ⟨pub, hconfigures, _, _⟩ := entryOf_eq_ok he
    exact wellFormedKey_iff.mpr ⟨pub, e.status, hconfigures⟩
  · rintro ⟨text, pub, hget, hpub⟩
    cases k with
    | obj ms =>
        have hget : dictGet ms "public_key" = some (.str text) := hget
        have hitem : (Json.obj ms).item "public_key" = .ok (.str text) := by
          simp only [Json.item, hget]
        exact ⟨_, bind_eq_ok.mpr ⟨_, hitem, bind_eq_ok.mpr ⟨_, hpub, rfl⟩⟩⟩
    | null | bool | int | float | str | arr => cases hget

omit [PyFloat F] in
theorem fromKeys_isOk_iff {C : Crypto} {keys : List (Json F)} :
    (∃ trust, TrustStore.fromKeys C keys = .ok trust) ↔ ∀ k ∈ keys, WellFormedKey k := by
  constructor
  · rintro ⟨trust, hstore⟩ k hk
    obtain ⟨es, hes, _⟩ := fromKeys_eq_ok hstore
    obtain ⟨e, _, he⟩ := exists_mem_of_forall₂ hes.flip hk
    exact entryOf_isOk_iff.mp ⟨e, he⟩
  · intro h
    exact fromKeys_of_entries fun k hk => entryOf_isOk_iff.mpr (h k hk)

/-! ### What the store holds -/

omit [PyFloat F] [Interpreter] in
/-- Under the id of `pub` the store holds `pub`, with this status. -/
def TrustStore.Indexes (C : Crypto) (trust : TrustStore F) (pub : Bytes)
    (status : Json F) : Prop :=
  ∃ e, dictGet trust.entries (keyIdFor C pub) = some e ∧ b64d e.publicKey = .ok pub ∧
    e.status = status

/-- No two entries of one key id differ in key or status. -/
def KeysAgree (C : Crypto) (keys : List (Json F)) : Prop :=
  ∀ k ∈ keys, ∀ k' ∈ keys, ∀ pub status pub' status', Configures k pub status →
    Configures k' pub' status' → keyIdFor C pub = keyIdFor C pub' →
      pub = pub' ∧ status = status'

omit [PyFloat F] in
/-- The last entry of a key id is the one that is held. -/
theorem fromKeys_indexes_last {C : Crypto} {pre post : List (Json F)} {k : Json F}
    {trust : TrustStore F} (hstore : TrustStore.fromKeys C (pre ++ k :: post) = .ok trust)
    {pub : Bytes} {status : Json F} (hconfigures : Configures k pub status)
    (hlast : ∀ k' ∈ post, ¬ FiledUnder C k' (keyIdFor C pub)) :
    trust.Indexes C pub status := by
  obtain ⟨es, hes, hentries⟩ := fromKeys_eq_ok hstore
  obtain ⟨pre', ⟨kid, e⟩, post', rfl, hk, hpost⟩ := split_of_forall₂ hes.flip
  obtain ⟨pub', hconfigures', hpub', rfl⟩ := entryOf_eq_ok hk
  obtain ⟨rfl, hstatus⟩ := hconfigures.unique hconfigures'
  refine ⟨e, ?_, hpub', hstatus.symm⟩
  rw [hentries]
  refine dictGet_dictOf_eq_some_iff.mpr ⟨pre', post', rfl, ?_⟩
  intro e' he' hkid
  obtain ⟨k', hk', hentry⟩ := exists_mem_of_forall₂ hpost.flip he'
  exact hlast k' hk' ((filedUnder_of_entryOf hentry).mpr hkid)

omit [PyFloat F] in
theorem fromKeys_indexes {C : Crypto} {keys : List (Json F)} {trust : TrustStore F}
    (hstore : TrustStore.fromKeys C keys = .ok trust) (hagree : KeysAgree C keys)
    {k : Json F} (hk : k ∈ keys) {pub : Bytes} {status : Json F}
    (hconfigures : Configures k pub status) : trust.Indexes C pub status := by
  obtain ⟨pre, k', post, rfl, ⟨pub', status', hconfigures', hkid⟩, hlast⟩ :=
    exists_last (p := fun k => FiledUnder C k (keyIdFor C pub))
      ⟨k, hk, pub, status, hconfigures, rfl⟩
  obtain ⟨rfl, rfl⟩ := hagree k hk k' (by simp) _ _ _ _ hconfigures hconfigures' hkid.symm
  exact fromKeys_indexes_last hstore hconfigures' hlast

/-- The key ids of an empty store are all unknown. -/
theorem verifyManifest_empty {C : Crypto} {manifest sigblock : Members F}
    (hC : C.VerifyKey.isSome) (hsignature : dictGet manifest "signature" = some (.obj sigblock))
    (halg : dictGet sigblock "alg" = some (.str ALG))
    (hkid : ((dictGet sigblock "key_id").getD (.str "")).hashError = none) :
    verifyManifest C manifest ⟨[]⟩ = .ok (false, "unknown-key") := by
  obtain ⟨VerifyKey, hC⟩ := Option.isSome_iff_exists.mp hC
  have hstatus : TrustStore.statusOf (F := F) ⟨[]⟩
      ((dictGet sigblock "key_id").getD (.str "")) = .ok .null := by
    generalize (dictGet sigblock "key_id").getD (.str "") = kid at hkid
    cases kid with
    | arr | obj => exact nomatch hkid
    | null | bool | int | float | str => rfl
  rw [verifyManifest, hC, hsignature]
  simp only [halg, Option.getD_some, hstatus]
  simp [bind, Except.bind, pure, Except.pure, Json.isStr, ALG]

/-! ### Settings that degrade -/

/-- Every well-formed entry is indexed with its own status; when there is none,
the store is empty and every key id is unknown. -/
structure StoreDegrades (C : Crypto) (keys : List (Json F)) (trust : TrustStore F) : Prop where
  indexed : ∀ k ∈ keys, ∀ pub status, Configures k pub status → trust.Indexes C pub status
  empty : (∀ k ∈ keys, ¬ WellFormedKey k) → trust.entries = []
  unknown : (∀ k ∈ keys, ¬ WellFormedKey k) → C.VerifyKey.isSome →
    ∀ manifest sigblock, dictGet manifest "signature" = some (.obj sigblock) →
      dictGet sigblock "alg" = some (.str ALG) →
      ((dictGet sigblock "key_id").getD (.str "")).hashError = none →
      verifyManifest C manifest trust = .ok (false, "unknown-key")

/-- The settings build a store, whatever stands in them. -/
def SettingsDegrade (F : Type) [PyFloat F] (C : Crypto)
    (trustStoreJson singlePublicKey : Str) : Prop :=
  ∃ trust : TrustStore F, trustStoreFromSettings C trustStoreJson singlePublicKey = .ok trust ∧
    StoreDegrades C (selectedKeys trustStoreJson singlePublicKey) trust

omit [PyFloat F] [Interpreter] in
/-- Two entries that are both indexed agree on a shared key id. -/
theorem TrustStore.Indexes.agree {C : Crypto} {trust : TrustStore F} {pub pub' : Bytes}
    {status status' : Json F} (h : trust.Indexes C pub status)
    (h' : trust.Indexes C pub' status') (hkid : keyIdFor C pub = keyIdFor C pub') :
    pub = pub' ∧ status = status' := by
  obtain ⟨e, hget, hpub, hstatus⟩ := h
  obtain ⟨e', hget', hpub', hstatus'⟩ := h'
  rw [hkid, hget', Option.some_inj] at hget
  subst hget
  exact ⟨Except.ok.inj (hpub.symm.trans hpub'), hstatus.symm.trans hstatus'⟩

theorem storeDegrades_of_agree {C : Crypto} {keys : List (Json F)} {trust : TrustStore F}
    (hstore : TrustStore.fromKeys C keys = .ok trust) (hkeys : ∀ k ∈ keys, WellFormedKey k)
    (hagree : KeysAgree C keys) : StoreDegrades C keys trust := by
  -- With every entry well formed, only the empty list has none.
  have hempty : (∀ k ∈ keys, ¬ WellFormedKey k) → trust = ⟨[]⟩ := by
    intro hnone
    rcases keys with _ | ⟨k, keys⟩
    · exact (Except.ok.inj hstore).symm
    · exact absurd (hkeys k List.mem_cons_self) (hnone k List.mem_cons_self)
  constructor
  · intro k hk pub status hconfigures
    exact fromKeys_indexes hstore hagree hk hconfigures
  · intro hnone
    rw [hempty hnone]
  · intro hnone hC manifest sigblock hsignature halg hkid
    rw [hempty hnone]
    exact verifyManifest_empty hC hsignature halg hkid

/-- `json.loads` gets to an end of the list, with a value or a `ValueError`. -/
def ListFollowed (F : Type) [PyFloat F] (trustStoreJson : Str) : Prop :=
  ∃ parsed, tryLoads (F := F) (Str.strip trustStoreJson) = .ok parsed

/-- The settings degrade exactly when the list is not nested too deep, every entry they
select is well formed and no two of one key id differ. -/
theorem settings_degrade_iff (C : Crypto) (trustStoreJson singlePublicKey : Str) :
    SettingsDegrade F C trustStoreJson singlePublicKey ↔
      ListFollowed F trustStoreJson ∧
      (∀ k ∈ selectedKeys (F := F) trustStoreJson singlePublicKey, WellFormedKey k) ∧
        KeysAgree (F := F) C (selectedKeys trustStoreJson singlePublicKey) := by
  rw [SettingsDegrade, trustStoreFromSettings_eq]
  constructor
  · rintro ⟨trust, hstore, hdegrades⟩
    obtain ⟨parsed, hparsed, hstore⟩ := bind_eq_ok.mp hstore
    refine ⟨⟨parsed, hparsed⟩, fromKeys_isOk_iff.mp ⟨trust, hstore⟩, ?_⟩
    intro k hk k' hk' pub status pub' status' hconfigures hconfigures' hkid
    exact (hdegrades.indexed k hk pub status hconfigures).agree
      (hdegrades.indexed k' hk' pub' status' hconfigures') hkid
  · rintro ⟨⟨parsed, hparsed⟩, hkeys, hagree⟩
    obtain ⟨trust, hstore⟩ := fromKeys_isOk_iff.mpr hkeys
    exact ⟨trust, bind_eq_ok.mpr ⟨parsed, hparsed, hstore⟩,
      storeDegrades_of_agree hstore hkeys hagree⟩

end

section

attribute [local instance] FloatView.asFloat Interpreter.ascii

/-- The recorded key beside a number. -/
def numberedTrustJson : Str :=
  "[\x7b\"public_key\": " ++ "\"A6EHv/POEL4dcN0Y50vAmWfk1jCbpQ1fHdyGZBJVMbg=\"\x7d, 5]"

/-- One number in the list, and no store is built at all. -/
theorem settings_degrade_number :
    ¬ SettingsDegrade FloatView recordedKey.crypto numberedTrustJson [] := by
  rintro ⟨trust, hstore, _⟩
  have hrun : trustStoreFromSettings (F := FloatView) recordedKey.crypto numberedTrustJson []
      >>= (fun _ => .ok ()) = .error ⟨.typeError, "'int' object is not subscriptable"⟩ := by
    decide +kernel
  rw [hstore] at hrun
  cases hrun

end

end NetplexSupport
