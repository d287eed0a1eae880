/-
Which manifests a trust store accepts, and which keys a pair of settings
configures.  `verify_manifest` swallows every failure into a reason; these
lemmas say what is left when it answers `True`.
-/
import NetplexSupport.Crypto.CanonicalBytes
import NetplexSupport.Crypto.Table

namespace NetplexSupport

open Py

/-! ### Digests as texts -/

theorem hexChar_inj {m n : Nat} (hm : m < 16) (hn : n < 16) (h : hexChar m = hexChar n) :
    m = n := by
  have hcases : ∀ m < 16, ∀ n < 16, hexChar m = hexChar n → m = n := by decide
  exact hcases m hm n hn h

theorem hexPad_two_inj {a b : UInt8} (h : hexPad 2 a.toNat = hexPad 2 b.toNat) : a = b := by
  have ha := a.toNat_lt
  have hb := b.toNat_lt
  simp only [hexPad, List.nil_append, List.cons_append, List.cons.injEq, and_true] at h
  have hhigh := hexChar_inj (by omega) (by omega) h.1
  have hlow := hexChar_inj (by omega) (by omega) h.2
  apply UInt8.toNat_inj.mp
  omega

theorem hexdigest_inj {d e : Digest} (h : hexdigest d = hexdigest e) : d = e := by
  have hbytes : ∀ xs ys : Bytes, xs.length = ys.length →
      (xs.flatMap fun b => hexPad 2 b.toNat) = (ys.flatMap fun b => hexPad 2 b.toNat) →
      xs = ys := by
    intro xs
    induction xs with
    | nil =>
        intro ys hlength _
        exact (List.eq_nil_of_length_eq_zero hlength.symm).symm
    | cons x xs ih =>
        rintro (_ | ⟨y, ys⟩) hlength h
        · cases hlength
        · obtain ⟨hhead, htail⟩ := List.append_inj h (by rw [hexPad_length, hexPad_length])
          rw [hexPad_two_inj hhead, ih ys (Nat.succ.inj hlength) htail]
  obtain ⟨xs, hxs⟩ := d
  obtain ⟨ys, hys⟩ := e
  obtain rfl := hbytes xs ys (hxs.trans hys.symm) h
  rfl

section

variable {F : Type} [PyFloat F] [Interpreter]

/-! ### One manifest, one store -/

/-- Under the id `kid` the store holds `pub`, as `active` or as `next`. -/
def TrustStore.Holds (trust : TrustStore F) (kid : Str) (pub : Bytes) : Prop :=
  ∃ e, dictGet trust.entries kid = some e ∧ b64d e.publicKey = .ok pub ∧
    (e.status = .str "active" ∨ e.status = .str "next")

instance (trust : TrustStore F) (kid : Str) (pub : Bytes) :
    Decidable (trust.Holds kid pub) :=
  decidable_of_iff ((dictGet trust.entries kid).any fun e =>
      decide (b64d e.publicKey = .ok pub) &&
        (e.status.isStr "active" || e.status.isStr "next")) (by
    unfold TrustStore.Holds
    rcases dictGet trust.entries kid with _ | e
    · simp
    · simp)

/-- The block's `sig` verifies over the manifest's canonical bytes under `pub`. -/
def SignatureVerifies (C : Crypto) (manifest sigblock : Members F) (pub : Bytes) : Prop :=
  ∃ text sig message, dictGet sigblock "sig" = some (.str text) ∧
    b64d (.str text : Json F) = .ok sig ∧ canonicalBytes manifest = .ok message ∧
    C.Verifies pub message sig

/-- The block names Ed25519 and the key id `kid`; an absent `key_id` is empty. -/
def NamesKey (sigblock : Members F) (kid : Str) : Prop :=
  dictGet sigblock "alg" = some (.str ALG) ∧
    (dictGet sigblock "key_id").getD (.str "") = .str kid

omit [PyFloat F] [Interpreter] in
theorem b64d_eq_ok {j : Json F} {bytes : Bytes} (h : b64d j = .ok bytes) :
    ∃ text, j = .str text := by
  cases j with
  | str s => exact ⟨s, rfl⟩
  | null | bool | int | float | arr | obj => exact nomatch h

theorem checkSignature_eq_ok {C : Crypto}
    {VerifyKey : Bytes → Except Exc (Bytes → Bytes → Except Exc Unit)}
    (hC : C.VerifyKey = some VerifyKey) {pub : Bytes} {manifest sigblock : Members F} :
    checkSignature VerifyKey (some pub) manifest sigblock = .ok () ↔
      SignatureVerifies C manifest sigblock pub := by
  have hitem : ∀ j : Json F, (Json.obj sigblock).item "sig" = .ok j ↔
      dictGet sigblock "sig" = some j := by
    intro j
    simp only [Json.item]
    cases dictGet sigblock "sig" <;> simp
  simp only [checkSignature, bind_eq_ok, hitem]
  constructor
  · rintro ⟨key, hkey, message, hmessage, j, hj, sig, hsig, hverify⟩
    obtain ⟨text, rfl⟩ := b64d_eq_ok hsig
    exact ⟨text, sig, message, hj, hsig, hmessage, VerifyKey, key, hC, hkey, hverify⟩
  · rintro ⟨text, sig, message, hj, hsig, hmessage, construct, key, hC', hkey, hverify⟩
    obtain rfl : VerifyKey = construct := Option.some.inj (hC.symm.trans hC')
    exact ⟨key, hkey, message, hmessage, .str text, hj, sig, hsig, hverify⟩

omit [PyFloat F] [Interpreter] in
theorem TrustStore.entry_str {trust : TrustStore F} (kid : Str) :
    trust.entry (.str kid) = .ok (dictGet trust.entries kid) := rfl

omit [PyFloat F] [Interpreter] in
/-- Only a string names an entry. -/
theorem TrustStore.entry_eq_some {trust : TrustStore F} {j : Json F} {e : TrustEntry F}
    (h : trust.entry j = .ok (some e)) :
    ∃ kid, j = .str kid ∧ dictGet trust.entries kid = some e := by
  cases j with
  | str kid => exact ⟨kid, rfl, Except.ok.inj h⟩
  | null | bool | int | float | arr | obj => exact nomatch h

omit [PyFloat F] [Interpreter] in
/-- A status other than `None` is that of an entry, and then the store also
looks up the entry's key. -/
theorem TrustStore.statusOf_eq_ok {trust : TrustStore F} {j status : Json F}
    (h : trust.statusOf j = .ok status) (hstatus : status ≠ .null) :
    ∃ kid e, j = .str kid ∧ dictGet trust.entries kid = some e ∧ e.status = status := by
  obtain ⟨entry, hentry, h⟩ := bind_eq_ok.mp h
  cases entry with
  | none => exact absurd (Except.ok.inj h).symm hstatus
  | some e =>
      obtain ⟨kid, hj, he⟩ := TrustStore.entry_eq_some hentry
      exact ⟨kid, e, hj, he, Except.ok.inj h⟩

omit [PyFloat F] [Interpreter] in
theorem TrustStore.publicKey_eq_ok {trust : TrustStore F} {kid : Str} {e : TrustEntry F}
    (hentry : dictGet trust.entries kid = some e) {pub : Option Bytes} :
    trust.publicKey (.str kid) = .ok pub ↔
      ∃ bytes, b64d e.publicKey = .ok bytes ∧ pub = some bytes := by
  simp only [TrustStore.publicKey, TrustStore.entry_str, hentry, bind_eq_ok]
  constructor
  · rintro ⟨entry, hsome, h⟩
    obtain rfl := Except.ok.inj hsome
    obtain ⟨bytes, hbytes, h⟩ := bind_eq_ok.mp h
    exact ⟨bytes, hbytes, (Except.ok.inj h).symm⟩
  · rintro ⟨bytes, hbytes, rfl⟩
    exact ⟨some e, rfl, bind_eq_ok.mpr ⟨bytes, hbytes, rfl⟩⟩

/-- `verify_manifest` answers `(True, kid)` exactly for a manifest whose block
names a key that the store holds and whose signature verifies under it. -/
theorem verifyManifest_eq_true_iff {C : Crypto} {manifest : Members F}
    {trust : TrustStore F} {kid : Str} :
    verifyManifest C manifest trust = .ok (true, kid) ↔
      ∃ sigblock pub, dictGet manifest "signature" = some (.obj sigblock) ∧
        NamesKey sigblock kid ∧ trust.Holds kid pub ∧
        SignatureVerifies C manifest sigblock pub := by
  constructor
  · intro h
    unfold verifyManifest at h
    split at h
    · cases h
    rename_i VerifyKey hC
    split at h
    swap
    · cases h
    rename_i sigblock hsignature
    simp only at h
    split at h
    · cases h
    rename_i halg
    obtain ⟨status, hstatus, h⟩ := bind_eq_ok.mp h
    split at h
    · cases h
    rename_i hnull
    split at h
    · cases h
    split at h
    · cases h
    rename_i hrevoked hbad
    obtain ⟨pub, hpub, h⟩ := bind_eq_ok.mp h
    obtain ⟨kid', e, hkid, hentry, rfl⟩ := TrustStore.statusOf_eq_ok hstatus hnull
    split at h
    swap
    · split at h <;> cases h
    rename_i hcheck
    rw [hkid] at hpub h
    obtain ⟨bytes, hbytes, rfl⟩ := (TrustStore.publicKey_eq_ok hentry).mp hpub
    obtain rfl : kid' = kid := by
      simpa using congrArg Prod.snd (Except.ok.inj h)
    refine ⟨sigblock, bytes, hsignature, ⟨?_, hkid⟩, ⟨e, hentry, hbytes, ?_⟩,
      (checkSignature_eq_ok hC).mp hcheck⟩
    · cases hget : dictGet sigblock "alg" <;> simp_all
    · simpa only [Bool.not_eq_true', Bool.not_eq_false, Bool.or_eq_true, Json.isStr_iff]
        using hbad
  · rintro ⟨sigblock, pub, hsignature, ⟨halg, hkid⟩, ⟨e, hentry, hpub, hstatus⟩, hsig⟩
    obtain ⟨_, _, _, _, _, _, VerifyKey, _, hC, _, _⟩ := id hsig
    have hcheck := (checkSignature_eq_ok hC).mpr hsig
    have hlookup := (TrustStore.publicKey_eq_ok hentry).mpr ⟨pub, hpub, rfl⟩
    have hstatusOf : trust.statusOf (.str kid) = .ok e.status := by
      simp [TrustStore.statusOf, TrustStore.entry_str, hentry, bind, Except.bind, pure,
        Except.pure]
    rw [verifyManifest, hC, hsignature]
    simp only [halg, Option.getD_some, hkid, hstatusOf]
    rcases hstatus with hs | hs <;>
      simp [hs, bind, Except.bind, pure, Except.pure, hlookup, hcheck, Json.isStr, ALG]

/-- A manifest is still accepted when the members of its objects are sorted. -/
theorem verifyManifest_sortedMembers {C : Crypto} {manifest : Members F}
    {trust : TrustStore F} {kid : Str} (hkeyed : (Json.obj manifest).Keyed)
    (h : verifyManifest C manifest trust = .ok (true, kid)) :
    verifyManifest C (sortedMembers manifest) trust = .ok (true, kid) := by
  rw [verifyManifest_eq_true_iff] at h ⊢
  obtain ⟨sigblock, pub, hsignature, ⟨halg, hkid⟩, hholds, text, sig, message, hsig, hbytes,
    hmessage, hverifies⟩ := h
  have hblock : (Json.obj sigblock).Keyed :=
    (Json.keyed_obj.mp hkeyed).2 _ (mem_of_dictGet hsignature)
  have hmember := dictGet_sortedMembers (Json.keyed_obj.mp hblock).1
  refine ⟨sortedMembers sigblock, pub, ?_, ⟨?_, ?_⟩, hholds, text, sig, message, ?_, hbytes,
    ?_, hverifies⟩
  · rw [dictGet_sortedMembers (Json.keyed_obj.mp hkeyed).1, hsignature, Option.map_some,
      Json.sortKeys_obj]
  · rw [hmember, halg]
    rfl
  · rw [hmember]
    rcases hget : dictGet sigblock "key_id" with _ | j
    · simpa [hget] using hkid
    · rw [hget, Option.getD_some] at hkid
      rw [hkid]
      rfl
  · rw [hmember, hsig]
    rfl
  · rw [canonicalBytes_sortedMembers hkeyed, hmessage]

/-! ### The store the settings build -/

/-- The list of keys the settings select: the trust-store list whenever that
setting is not blank, else the single key as `active`, else none. -/
def selectedKeys (trustStoreJson singlePublicKey : Str) : List (Json F) :=
  if Str.strip trustStoreJson ≠ [] then
    match tryLoads (Str.strip trustStoreJson) with
    | .ok (some (.arr keys)) => keys
    | _ => []
  else if singlePublicKey ≠ [] then
    [.obj [("public_key", .str singlePublicKey), ("status", .str "active")]]
  else []

/-- The store is built of the selected keys, unless the list cannot be read for its
nesting. -/
theorem trustStoreFromSettings_eq (C : Crypto) (trustStoreJson singlePublicKey : Str) :
    trustStoreFromSettings (F := F) C trustStoreJson singlePublicKey =
      (tryLoads (F := F) (Str.strip trustStoreJson)).bind fun _ =>
        TrustStore.fromKeys C (selectedKeys trustStoreJson singlePublicKey) := by
  unfold trustStoreFromSettings selectedKeys
  by_cases hblank : Str.strip trustStoreJson = []
  · simp only [hblank, ne_eq, not_true_eq_false, if_false, tryLoads_nil, Except.bind]
    split <;> rfl
  · simp only [hblank, ne_eq, not_false_eq_true, if_true]
    rcases tryLoads (F := F) (Str.strip trustStoreJson) with exc | _ | j
    · rfl
    · rfl
    · cases j <;> rfl

theorem fromKeys_of_settings {C : Crypto} {trustStoreJson singlePublicKey : Str}
    {trust : TrustStore F}
    (h : trustStoreFromSettings C trustStoreJson singlePublicKey = .ok trust) :
    TrustStore.fromKeys C (selectedKeys trustStoreJson singlePublicKey) = .ok trust := by
  rw [trustStoreFromSettings_eq] at h
  obtain ⟨_, _, hkeys⟩ := bind_eq_ok.mp h
  exact hkeys

omit [PyFloat F] [Interpreter] in
/-- The list entry `k` is an object whose `public_key` is base64 of `pub`, with
this `status`; an absent one counts as `active`. -/
def Configures (k : Json F) (pub : Bytes) (status : Json F) : Prop :=
  (∃ text, k.get? "public_key" = some (.str text) ∧ b64d (.str text : Json F) = .ok pub) ∧
    status = (k.get? "status").getD (.str "active")

omit [PyFloat F] in
theorem entryOf_eq_ok {C : Crypto} {k : Json F} {kid : Str} {e : TrustEntry F}
    (h : entryOf C k = .ok (kid, e)) :
    ∃ pub, Configures k pub e.status ∧ b64d e.publicKey = .ok pub ∧
      kid = keyIdFor C pub := by
  obtain ⟨j, hj, h⟩ := bind_eq_ok.mp h
  obtain ⟨pub, hpub, h⟩ := bind_eq_ok.mp h
  obtain ⟨rfl, rfl⟩ := Prod.mk.inj (Except.ok.inj h)
  obtain ⟨text, rfl⟩ := b64d_eq_ok hpub
  cases k with
  | obj ms =>
      refine ⟨pub, ⟨⟨text, ?_, hpub⟩, rfl⟩, hpub, rfl⟩
      simp only [Json.item] at hj
      cases hget : dictGet ms "public_key" <;> simp_all [Json.get?]
  | null | bool | int | float | str | arr => exact nomatch hj

omit [PyFloat F] in
/-- `from_keys` reads every key of the list, or raises. -/
theorem fromKeys_eq_ok {C : Crypto} {keys : List (Json F)} {trust : TrustStore F}
    (h : TrustStore.fromKeys C keys = .ok trust) :
    ∃ es, List.Forall₂ (fun k e => entryOf C k = .ok e) keys es ∧
      trust.entries = dictOf es := by
  have hfold : ∀ (keys : List (Json F)) (acc out : Dict (TrustEntry F)),
      keys.foldlM (fun out k => do
        let e ← entryOf C k
        pure (dictSet out e.1 e.2)) acc = Except.ok (ε := Exc) out →
      ∃ es, List.Forall₂ (fun k e => entryOf C k = .ok e) keys es ∧
        out = es.foldl (fun d m => dictSet d m.1 m.2) acc := by
    intro keys
    induction keys with
    | nil =>
        intro acc out hout
        exact ⟨[], .nil, (Except.ok.inj hout).symm⟩
    | cons k keys ih =>
        intro acc out hout
        rw [List.foldlM_cons] at hout
        obtain ⟨acc', hacc, hout⟩ := bind_eq_ok.mp hout
        obtain ⟨e, he, hacc⟩ := bind_eq_ok.mp hacc
        obtain rfl := Except.ok.inj hacc
        obtain ⟨es, hes, rfl⟩ := ih _ _ hout
        exact ⟨e :: es, .cons he hes, rfl⟩
  obtain ⟨out, hout, h⟩ := bind_eq_ok.mp h
  obtain ⟨es, hes, rfl⟩ := hfold _ _ _ hout
  exact ⟨es, hes, congrArg TrustStore.entries (Except.ok.inj h).symm⟩

/-- The bytes of a listed key. -/
def listedKey (k : Json F) : Option Bytes :=
  (k.get? "public_key").bind fun j => (b64d j).toOption

/-- No public key is listed twice, and no two listed keys share a key id. -/
structure DistinctKeys (C : Crypto) (keys : List (Json F)) : Prop where
  nodup : (keys.filterMap listedKey).Nodup
  noCollision : ∀ p ∈ keys.filterMap listedKey, ∀ q ∈ keys.filterMap listedKey,
    keyIdFor C p = keyIdFor C q → p = q

omit [PyFloat F] [Interpreter] in
theorem Configures.listedKey {k : Json F} {pub : Bytes} {status : Json F}
    (h : Configures k pub status) : listedKey k = some pub := by
  obtain ⟨⟨text, hget, hpub⟩, _⟩ := h
  simp [NetplexSupport.listedKey, hget, hpub, Except.toOption]

omit [PyFloat F] [Interpreter] in
theorem exists_mem_of_forall₂ {α β : Type} {R : α → β → Prop} {xs : List α} {ys : List β}
    (h : List.Forall₂ R xs ys) {y : β} (hy : y ∈ ys) : ∃ x ∈ xs, R x y := by
  induction h with
  | nil => cases hy
  | cons hxy _ ih =>
      rcases List.mem_cons.mp hy with rfl | hy
      · exact ⟨_, List.mem_cons_self, hxy⟩
      · obtain ⟨x, hx, hR⟩ := ih hy
        exact ⟨x, List.mem_cons_of_mem _ hx, hR⟩

omit [PyFloat F] in
/-- What the store holds is a listed key, with a status that is accepted. -/
theorem configures_of_holds {C : Crypto} {keys : List (Json F)} {trust : TrustStore F}
    (hstore : TrustStore.fromKeys C keys = .ok trust) {kid : Str} {pub : Bytes}
    (h : trust.Holds kid pub) :
    ∃ k ∈ keys, ∃ status, Configures k pub status ∧ keyIdFor C pub = kid ∧
      (status = .str "active" ∨ status = .str "next") := by
  obtain ⟨es, hes, hentries⟩ := fromKeys_eq_ok hstore
  obtain ⟨e, hget, hpub, hstatus⟩ := h
  rw [hentries] at hget
  have hmem := (dictOf_spec es).2 _ (mem_of_dictGet hget)
  obtain ⟨k, hk, hentry⟩ := exists_mem_of_forall₂ hes hmem
  obtain ⟨pub', hconfigures, hpub', rfl⟩ := entryOf_eq_ok hentry
  obtain rfl : pub' = pub := Except.ok.inj (hpub'.symm.trans hpub)
  exact ⟨k, hk, e.status, hconfigures, rfl, hstatus⟩

omit [PyFloat F] in
/-- When the list is unambiguous, every listed key with an accepted status is
held under its own id. -/
theorem holds_of_configures {C : Crypto} {keys : List (Json F)} {trust : TrustStore F}
    (hstore : TrustStore.fromKeys C keys = .ok trust) (hdistinct : DistinctKeys C keys)
    {k : Json F} (hk : k ∈ keys) {pub : Bytes} {status : Json F}
    (hconfigures : Configures k pub status)
    (hstatus : status = .str "active" ∨ status = .str "next") :
    trust.Holds (keyIdFor C pub) pub := by
  obtain ⟨es, hes, hentries⟩ := fromKeys_eq_ok hstore
  have hkids : es.map Prod.fst = (keys.filterMap listedKey).map (keyIdFor C) := by
    clear hstore hdistinct hk hentries
    induction hes with
    | nil => rfl
    | @cons k e keys es hentry _ ih =>
        obtain ⟨pub', hconfigures', _, hkid⟩ := entryOf_eq_ok hentry
        rw [List.map_cons, List.filterMap_cons, hconfigures'.listedKey, List.map_cons, ih,
          hkid]
  have hnodup : (es.map Prod.fst).Nodup := by
    rw [hkids]
    exact hdistinct.nodup.map_on hdistinct.noCollision
  obtain ⟨e, he, hentry⟩ := exists_mem_of_forall₂ hes.flip hk
  obtain ⟨pub', hconfigures', hpub', hkid⟩ := entryOf_eq_ok hentry
  obtain rfl : pub' = pub :=
    Option.some.inj (hconfigures'.listedKey.symm.trans hconfigures.listedKey)
  refine ⟨e.2, ?_, hpub', ?_⟩
  · rw [hentries, dictOf_eq_self es hnodup, dictGet_eq_some_iff hnodup, ← hkid]
    exact he
  · rwa [← hconfigures'.2.trans hconfigures.2.symm] at hstatus

/-! ### Acceptance under a pair of settings -/

/-- The manifest's signature is an object naming `ed25519` and `kid`, and it
verifies under a listed key with that id whose status is `active` or `next`. -/
def Acceptable (C : Crypto) (keys : List (Json F)) (manifest : Members F) (kid : Str) :
    Prop :=
  ∃ sigblock, dictGet manifest "signature" = some (.obj sigblock) ∧
    dictGet sigblock "alg" = some (.str ALG) ∧
    dictGet sigblock "key_id" = some (.str kid) ∧
    ∃ k ∈ keys, ∃ pub status, Configures k pub status ∧ keyIdFor C pub = kid ∧
      (status = .str "active" ∨ status = .str "next") ∧
      SignatureVerifies C manifest sigblock pub

omit [PyFloat F] [Interpreter] in
theorem keyIdFor_length (C : Crypto) (pub : Bytes) : (keyIdFor C pub).length = 16 := by
  have hlength : (hexdigest (C.sha256 pub)).length = 64 := by
    simp [hexdigest, List.length_flatMap, hexPad_length, (C.sha256 pub).length_eq]
  simp [keyIdFor, hlength]

omit [PyFloat F] in
/-- An absent `key_id` reads as the empty string, which is no key's id. -/
theorem dictGet_keyId {C : Crypto} {keys : List (Json F)} {trust : TrustStore F}
    (hstore : TrustStore.fromKeys C keys = .ok trust) {sigblock : Members F} {kid : Str}
    {pub : Bytes} (hnames : NamesKey sigblock kid) (hholds : trust.Holds kid pub) :
    dictGet sigblock "key_id" = some (.str kid) := by
  have hkid := hnames.2
  obtain ⟨_, _, _, _, hpub, _⟩ := configures_of_holds hstore hholds
  rcases hget : dictGet sigblock "key_id" with _ | j
  · rw [hget, Option.getD_none, Json.str.injEq] at hkid
    have hempty : kid = [] := by simpa [Str.ofString] using hkid.symm
    have hlength := keyIdFor_length C pub
    rw [hpub, hempty] at hlength
    exact absurd hlength (by decide)
  · rw [← hkid, hget, Option.getD_some]

/-- Acceptance is exactly what the settings configure: the selected list, the
key id, an accepted status and an Ed25519 check over the canonical bytes. -/
theorem verifyManifest_accepts {C : Crypto} {trustStoreJson singlePublicKey : Str}
    {trust : TrustStore F}
    (hstore : trustStoreFromSettings C trustStoreJson singlePublicKey = .ok trust)
    (manifest : Members F) (kid : Str) :
    (verifyManifest C manifest trust = .ok (true, kid) →
      Acceptable C (selectedKeys trustStoreJson singlePublicKey) manifest kid) ∧
    (DistinctKeys C (selectedKeys (F := F) trustStoreJson singlePublicKey) →
      Acceptable C (selectedKeys trustStoreJson singlePublicKey) manifest kid →
      verifyManifest C manifest trust = .ok (true, kid)) := by
  replace hstore := fromKeys_of_settings hstore
  rw [verifyManifest_eq_true_iff]
  constructor
  · rintro ⟨sigblock, pub, hsignature, ⟨halg, hkid⟩, hholds, hverifies⟩
    obtain ⟨k, hk, status, hconfigures, hpub, hstatus⟩ :=
      configures_of_holds hstore hholds
    refine ⟨sigblock, hsignature, halg, ?_, k, hk, pub, status, hconfigures, hpub, hstatus,
      hverifies⟩
    exact dictGet_keyId hstore ⟨halg, hkid⟩ hholds
  · rintro hdistinct ⟨sigblock, hsignature, halg, hkid, k, hk, pub, status, hconfigures,
      hpub, hstatus, hverifies⟩
    refine ⟨sigblock, pub, hsignature, ⟨halg, by rw [hkid, Option.getD_some]⟩, ?_,
      hverifies⟩
    exact hpub ▸ holds_of_configures hstore hdistinct hk hconfigures hstatus

end

section

attribute [local instance] FloatView.asFloat Interpreter.ascii

/-- A manifest signed with the recorded key, under a list that holds it. -/
theorem verifyManifest_accepts_recorded :
    ∃ trust : TrustStore FloatView,
      trustStoreFromSettings recordedKey.crypto recordedTrustJson [] = .ok trust ∧
      Acceptable recordedKey.crypto (selectedKeys recordedTrustJson []) recordedManifest
        recordedKeyId ∧
      verifyManifest recordedKey.crypto recordedManifest trust =
        .ok (true, recordedKeyId) := by
  have hrun : (trustStoreFromSettings recordedKey.crypto recordedTrustJson [] >>= fun trust =>
      verifyManifest recordedKey.crypto recordedManifest trust) =
        .ok (true, recordedKeyId) := by decide +kernel
  obtain ⟨trust, hstore, hverify⟩ := bind_eq_ok.mp hrun
  have h := verifyManifest_accepts hstore recordedManifest recordedKeyId
  have hdistinct : DistinctKeys recordedKey.crypto
      (selectedKeys (F := FloatView) recordedTrustJson []) :=
    ⟨by decide +kernel, by decide +kernel⟩
  exact ⟨trust, hstore, h.1 hverify, h.2 hdistinct (h.1 hverify)⟩

end

end NetplexSupport
