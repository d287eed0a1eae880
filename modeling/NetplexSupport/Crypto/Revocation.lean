/-
A key that is listed more than once.  `from_keys` files its entries under the
key id, so the last one decides; a revoked key stays revoked in every order of
the list exactly when no two entries of one key id judge a manifest differently.
-/
import NetplexSupport.Crypto.Acceptance

namespace NetplexSupport

open Py

/-! ### Lists -/

theorem split_of_forall₂ {α β : Type} {R : α → β → Prop} {xs : List α} {pre post : List β}
    {y : β} (h : List.Forall₂ R xs (pre ++ y :: post)) :
    ∃ pre' x post', xs = pre' ++ x :: post' ∧ R x y ∧ List.Forall₂ R post' post := by
  induction pre generalizing xs with
  | nil =>
      rcases List.forall₂_cons_right_iff.mp h with ⟨x, post', hx, hpost, rfl⟩
      exact ⟨[], x, post', rfl, hx, hpost⟩
  | cons z pre ih =>
      rcases List.forall₂_cons_right_iff.mp h with ⟨x', xs', _, hrest, rfl⟩
      obtain ⟨pre', x, post', rfl, hx, hpost⟩ := ih hrest
      exact ⟨x' :: pre', x, post', rfl, hx, hpost⟩

theorem exists_last {α : Type} {p : α → Prop} {l : List α} (h : ∃ a ∈ l, p a) :
    ∃ pre a post, l = pre ++ a :: post ∧ p a ∧ ∀ b ∈ post, ¬ p b := by
  induction l with
  | nil => simp at h
  | cons x l ih =>
      by_cases hrest : ∃ a ∈ l, p a
      · obtain ⟨pre, a, post, rfl, ha, hpost⟩ := ih hrest
        exact ⟨x :: pre, a, post, rfl, ha, hpost⟩
      · obtain ⟨a, ha, hpa⟩ := h
        rcases List.mem_cons.mp ha with rfl | ha
        · exact ⟨[], a, l, rfl, hpa, fun b hb hpb => hrest ⟨b, hb, hpb⟩⟩
        · exact absurd ⟨a, ha, hpa⟩ hrest

section

variable {F : Type} [PyFloat F] [Interpreter]

/-! ### The judgement of one entry -/

omit [PyFloat F] [Interpreter] in
/-- `active` or `next`. -/
def Accepting (status : Json F) : Prop := status = .str "active" ∨ status = .str "next"

omit [PyFloat F] [Interpreter] in
theorem not_accepting_revoked : ¬ Accepting (F := F) (.str "revoked") := by
  rintro (h | h)
  · exact absurd (Json.str.inj h) (by decide)
  · exact absurd (Json.str.inj h) (by decide)

/-- The manifest names the key id `kid`, and its signature verifies under
`pub`. -/
def SignedAs (C : Crypto) (manifest : Members F) (kid : Str) (pub : Bytes) : Prop :=
  ∃ sigblock, dictGet manifest "signature" = some (.obj sigblock) ∧ NamesKey sigblock kid ∧
    SignatureVerifies C manifest sigblock pub

/-- The list entry `k` is filed under `kid` and accepts the manifest. -/
def EntryAccepts (C : Crypto) (k : Json F) (manifest : Members F) (kid : Str) : Prop :=
  ∃ pub status, Configures k pub status ∧ keyIdFor C pub = kid ∧ Accepting status ∧
    SignedAs C manifest kid pub

/-- The list entry `k` is filed under `kid`. -/
def FiledUnder (C : Crypto) (k : Json F) (kid : Str) : Prop :=
  ∃ pub status, Configures k pub status ∧ keyIdFor C pub = kid

omit [PyFloat F] [Interpreter] in
/-- The status of a listed key. -/
def listedStatus (k : Json F) : Json F := (k.get? "status").getD (.str "active")

omit [PyFloat F] [Interpreter] in
theorem configures_of_listedKey {k : Json F} {pub : Bytes} (h : listedKey k = some pub) :
    Configures k pub (listedStatus k) := by
  obtain ⟨j, hget, hdecode⟩ := Option.bind_eq_some_iff.mp h
  have hpub : b64d j = .ok pub := by
    rcases hj : b64d j with exc | bytes
    · rw [hj] at hdecode
      cases hdecode
    · rw [hj] at hdecode
      exact congrArg Except.ok (Option.some.inj hdecode)
  obtain ⟨text, rfl⟩ := b64d_eq_ok hpub
  exact ⟨⟨text, hget, hpub⟩, rfl⟩

omit [PyFloat F] [Interpreter] in
theorem Configures.unique {k : Json F} {pub pub' : Bytes} {status status' : Json F}
    (h : Configures k pub status) (h' : Configures k pub' status') :
    pub = pub' ∧ status = status' :=
  ⟨Option.some.inj (h.listedKey.symm.trans h'.listedKey), h.2.trans h'.2.symm⟩

omit [PyFloat F] in
theorem filedUnder_of_entryOf {C : Crypto} {k : Json F} {e : Str × TrustEntry F}
    (h : entryOf C k = .ok e) {kid : Str} : FiledUnder C k kid ↔ e.1 = kid := by
  rcases e with ⟨kid', e⟩
  obtain ⟨pub, hconfigures, _, hkid⟩ := entryOf_eq_ok h
  constructor
  · rintro ⟨pub', status', hconfigures', rfl⟩
    rw [hkid, (hconfigures.unique hconfigures').1]
  · rintro rfl
    exact ⟨pub, e.status, hconfigures, hkid.symm⟩

/-! ### The last entry decides -/

/-- A manifest is accepted when the last entry filed under its key id accepts
it. -/
theorem verifyManifest_fromKeys_iff {C : Crypto} {keys : List (Json F)}
    {trust : TrustStore F} (hstore : TrustStore.fromKeys C keys = .ok trust)
    {manifest : Members F} {kid : Str} :
    verifyManifest C manifest trust = .ok (true, kid) ↔
      ∃ pre k post, keys = pre ++ k :: post ∧ EntryAccepts C k manifest kid ∧
        ∀ k' ∈ post, ¬ FiledUnder C k' kid := by
  obtain ⟨es, hes, hentries⟩ := fromKeys_eq_ok hstore
  rw [verifyManifest_eq_true_iff]
  constructor
  · rintro ⟨sigblock, pub, hsignature, hnames, ⟨e, hget, hpub, hstatus⟩, hverifies⟩
    rw [hentries] at hget
    obtain ⟨_, post, rfl, hlast⟩ := dictGet_dictOf_eq_some_iff.mp hget
    obtain ⟨pre, k, post', rfl, hk, hpost⟩ := split_of_forall₂ hes
    obtain ⟨pub', hconfigures, hpub', hkid⟩ := entryOf_eq_ok hk
    obtain rfl : pub' = pub := Except.ok.inj (hpub'.symm.trans hpub)
    refine ⟨pre, k, post', rfl, ⟨pub', e.status, hconfigures, hkid.symm, hstatus, sigblock,
      hsignature, hnames, hverifies⟩, ?_⟩
    intro k' hk' hfiled
    obtain ⟨e', he', hentry⟩ := exists_mem_of_forall₂ hpost.flip hk'
    exact hlast e' he' ((filedUnder_of_entryOf hentry).mp hfiled)
  · rintro ⟨pre, k, post, rfl, ⟨pub, status, hconfigures, rfl, hstatus, sigblock, hsignature,
      hnames, hverifies⟩, hlast⟩
    obtain ⟨pre', ⟨kid, e⟩, post', rfl, hk, hpost⟩ := split_of_forall₂ hes.flip
    have hkid := (filedUnder_of_entryOf hk).mp ⟨pub, status, hconfigures, rfl⟩
    obtain ⟨pub', hconfigures', hpub', _⟩ := entryOf_eq_ok hk
    obtain ⟨rfl, hsame⟩ := hconfigures.unique hconfigures'
    refine ⟨sigblock, pub, hsignature, hnames, ⟨e, ?_, hpub', hsame ▸ hstatus⟩, hverifies⟩
    rw [hentries]
    refine dictGet_dictOf_eq_some_iff.mpr ⟨pre', post', by rw [← hkid], ?_⟩
    intro e' he' heq
    obtain ⟨k', hk', hentry⟩ := exists_mem_of_forall₂ hpost.flip he'
    exact hlast k' hk' ((filedUnder_of_entryOf hentry).mpr heq)

/-! ### Orders of the list -/

omit [PyFloat F] in
/-- A list whose keys can all be read is read. -/
theorem fromKeys_of_entries {C : Crypto} {keys : List (Json F)}
    (h : ∀ k ∈ keys, ∃ e, entryOf C k = .ok e) :
    ∃ trust, TrustStore.fromKeys C keys = .ok trust := by
  have hfold : ∀ (keys : List (Json F)) (acc : Dict (TrustEntry F)),
      (∀ k ∈ keys, ∃ e, entryOf C k = .ok e) →
      ∃ out, keys.foldlM (fun out k => do
        let e ← entryOf C k
        pure (dictSet out e.1 e.2)) acc = Except.ok (ε := Exc) out := by
    intro keys
    induction keys with
    | nil => exact fun acc _ => ⟨acc, rfl⟩
    | cons k keys ih =>
        intro acc h
        rw [List.forall_mem_cons] at h
        obtain ⟨⟨e, he⟩, hkeys⟩ := h
        obtain ⟨out, hout⟩ := ih (dictSet acc e.1 e.2) hkeys
        refine ⟨out, ?_⟩
        rw [List.foldlM_cons, he]
        exact hout
  obtain ⟨out, hout⟩ := hfold keys [] h
  exact ⟨⟨out⟩, bind_eq_ok.mpr ⟨out, hout, rfl⟩⟩

omit [PyFloat F] in
theorem fromKeys_perm {C : Crypto} {keys keys' : List (Json F)} {trust : TrustStore F}
    (hstore : TrustStore.fromKeys C keys = .ok trust) (hperm : keys'.Perm keys) :
    ∃ trust', TrustStore.fromKeys C keys' = .ok trust' := by
  obtain ⟨es, hes, _⟩ := fromKeys_eq_ok hstore
  apply fromKeys_of_entries
  intro k hk
  obtain ⟨e, _, he⟩ := exists_mem_of_forall₂ hes.flip (hperm.mem_iff.mp hk)
  exact ⟨e, he⟩

/-- A key that is revoked anywhere in the list is never accepted, and the order
of the list does not matter. -/
structure RevocationWins (C : Crypto) (keys : List (Json F)) (trust : TrustStore F) :
    Prop where
  revoked : ∀ k ∈ keys, ∀ pub, Configures k pub (.str "revoked") →
    ∀ manifest sigblock, dictGet manifest "signature" = some (.obj sigblock) →
      dictGet sigblock "key_id" = some (.str (keyIdFor C pub)) →
      ∀ reason, verifyManifest C manifest trust ≠ .ok (true, reason)
  ordered : ∀ keys', keys'.Perm keys → ∃ trust',
    TrustStore.fromKeys C keys' = .ok trust' ∧
      ∀ manifest reason, verifyManifest C manifest trust' = .ok (true, reason) ↔
        verifyManifest C manifest trust = .ok (true, reason)

/-- Two entries of one key id.  The first has an accepted status and a key under
which some manifest verifies; the second has another status, or, when the ids of
two keys collide, a key under which that manifest does not verify. -/
def Contradicts (C : Crypto) (k k' : Json F) : Prop :=
  ∃ (pub pub' : Bytes) (status status' : Json F) (manifest : Members F),
    Configures k pub status ∧ Configures k' pub' status' ∧ keyIdFor C pub = keyIdFor C pub' ∧
    Accepting status ∧ SignedAs C manifest (keyIdFor C pub) pub ∧
    (Accepting status' → ¬ SignedAs C manifest (keyIdFor C pub) pub')

omit [Interpreter] in
/-- Entries that do not contradict each other accept the same manifests. -/
theorem entryAccepts_of_not_contradicts {C : Crypto} {k k' : Json F} {kid : Str}
    {manifest : Members F} (h : ¬ Contradicts C k k') (hfiled : FiledUnder C k' kid)
    (haccepts : EntryAccepts C k manifest kid) : EntryAccepts C k' manifest kid := by
  obtain ⟨pub, status, hconfigures, rfl, hstatus, hsigned⟩ := haccepts
  obtain ⟨pub', status', hconfigures', hkid⟩ := hfiled
  by_contra hrefuses
  apply h
  refine ⟨pub, pub', status, status', manifest, hconfigures, hconfigures', hkid.symm, hstatus,
    hsigned, ?_⟩
  exact fun hstatus' hsigned' => hrefuses ⟨pub', status', hconfigures', hkid, hstatus', hsigned'⟩

omit [Interpreter] in
theorem Contradicts.entries {C : Crypto} {k k' : Json F} (h : Contradicts C k k') :
    ∃ manifest kid, EntryAccepts C k manifest kid ∧ FiledUnder C k kid ∧
      FiledUnder C k' kid ∧ ¬ EntryAccepts C k' manifest kid := by
  obtain ⟨pub, pub', status, status', manifest, hconfigures, hconfigures', hkid, hstatus,
    hsigned, hrefuses⟩ := h
  refine ⟨manifest, keyIdFor C pub, ⟨pub, status, hconfigures, rfl, hstatus, hsigned⟩,
    ⟨pub, status, hconfigures, rfl⟩, ⟨pub', status', hconfigures', hkid.symm⟩, ?_⟩
  rintro ⟨pub'', status'', hconfigures'', _, hstatus'', hsigned''⟩
  obtain ⟨rfl, rfl⟩ := hconfigures'.unique hconfigures''
  exact hrefuses hstatus'' hsigned''

/-- Put an entry last, and it alone decides about its key id. -/
theorem accepted_last_iff {C : Crypto} {keys : List (Json F)} {k : Json F}
    {trust : TrustStore F} (hstore : TrustStore.fromKeys C (keys ++ [k]) = .ok trust)
    {manifest : Members F} {kid : Str} (hfiled : FiledUnder C k kid) :
    verifyManifest C manifest trust = .ok (true, kid) ↔ EntryAccepts C k manifest kid := by
  rw [verifyManifest_fromKeys_iff hstore]
  constructor
  · rintro ⟨pre, k', post, hkeys, haccepts, hlast⟩
    rcases List.eq_nil_or_concat post with rfl | ⟨post, k'', rfl⟩
    · obtain ⟨_, hk⟩ := List.append_inj' hkeys rfl
      rwa [List.singleton_inj.mp hk]
    · rw [List.concat_eq_append, ← List.cons_append, ← List.append_assoc] at hkeys
      obtain ⟨_, hk⟩ := List.append_inj' hkeys rfl
      exact absurd (List.singleton_inj.mp hk ▸ hfiled) (hlast k'' (by simp))
  · exact fun haccepts => ⟨keys, k, [], rfl, haccepts, by simp⟩

theorem accepted_of_not_contradicts {C : Crypto} {keys keys' : List (Json F)}
    {trust trust' : TrustStore F} (hstore : TrustStore.fromKeys C keys = .ok trust)
    (hstore' : TrustStore.fromKeys C keys' = .ok trust') (hkeys : keys ⊆ keys')
    (h : ∀ k ∈ keys', ∀ k' ∈ keys', ¬ Contradicts C k k') {manifest : Members F} {kid : Str}
    (haccepted : verifyManifest C manifest trust = .ok (true, kid)) :
    verifyManifest C manifest trust' = .ok (true, kid) := by
  obtain ⟨pre, k, post, rfl, haccepts, _⟩ := (verifyManifest_fromKeys_iff hstore).mp haccepted
  have hk : k ∈ keys' := hkeys (by simp)
  obtain ⟨pub, status, hconfigures, hkid, _⟩ := id haccepts
  obtain ⟨pre', k', post', rfl, hfiled, hlast⟩ :=
    exists_last (p := fun k => FiledUnder C k kid) ⟨k, hk, pub, status, hconfigures, hkid⟩
  rw [verifyManifest_fromKeys_iff hstore']
  exact ⟨pre', k', post', rfl,
    entryAccepts_of_not_contradicts (h k hk k' (by simp)) hfiled haccepts, hlast⟩

/-- Revocation wins, and the order of the list does not matter, if and only if
no two entries of the list contradict each other. -/
theorem revocation_wins_iff {C : Crypto} {trustStoreJson singlePublicKey : Str}
    {trust : TrustStore F}
    (hstore : trustStoreFromSettings C trustStoreJson singlePublicKey = .ok trust) :
    RevocationWins C (selectedKeys trustStoreJson singlePublicKey) trust ↔
      ∀ k ∈ selectedKeys (F := F) trustStoreJson singlePublicKey,
        ∀ k' ∈ selectedKeys trustStoreJson singlePublicKey, ¬ Contradicts C k k' := by
  replace hstore := fromKeys_of_settings hstore
  generalize selectedKeys (F := F) trustStoreJson singlePublicKey = keys at hstore ⊢
  constructor
  · intro h k hk k' hk' hcontradicts
    obtain ⟨manifest, kid, haccepts, hfiled, hfiled', hrefuses⟩ := hcontradicts.entries
    -- The same keys with `k` last, and with `k'` last.
    have hlast : ∀ k ∈ keys, ∃ rest, (rest ++ [k]).Perm keys := by
      intro k hk
      obtain ⟨pre, post, rfl⟩ := List.append_of_mem hk
      refine ⟨pre ++ post, ?_⟩
      rw [List.append_assoc]
      exact List.Perm.append_left pre (List.perm_append_singleton k post)
    obtain ⟨rest, hperm⟩ := hlast k hk
    obtain ⟨rest', hperm'⟩ := hlast k' hk'
    obtain ⟨_, hstoreK, hsame⟩ := h.ordered _ hperm
    obtain ⟨_, hstoreK', hsame'⟩ := h.ordered _ hperm'
    have haccepted := (accepted_last_iff hstoreK hfiled).mpr haccepts
    have haccepted' := (hsame' manifest kid).mpr ((hsame manifest kid).mp haccepted)
    exact hrefuses ((accepted_last_iff hstoreK' hfiled').mp haccepted')
  · intro h
    constructor
    · intro k hk pub hconfigures manifest sigblock hsignature hnames kid haccepted
      obtain ⟨pre, k', post, rfl, haccepts, _⟩ :=
        (verifyManifest_fromKeys_iff hstore).mp haccepted
      obtain ⟨_, _, _, _, _, sigblock', hsignature', hnames', _⟩ := id haccepts
      obtain rfl : sigblock = sigblock' := by
        rw [hsignature, Option.some_inj, Json.obj.injEq] at hsignature'
        exact hsignature'
      have hkid : keyIdFor C pub = kid := by
        simpa [hnames] using hnames'.2
      obtain ⟨pub', status', hconfigures', _, hstatus', _⟩ :=
        entryAccepts_of_not_contradicts (h k' (by simp) k hk)
          ⟨pub, _, hconfigures, hkid⟩ haccepts
      obtain ⟨_, rfl⟩ := hconfigures.unique hconfigures'
      exact not_accepting_revoked hstatus'
    · intro keys' hperm
      obtain ⟨trust', hstore'⟩ := fromKeys_perm hstore hperm
      have h' : ∀ k ∈ keys', ∀ k' ∈ keys', ¬ Contradicts C k k' :=
        fun k hk k' hk' => h k (hperm.mem_iff.mp hk) k' (hperm.mem_iff.mp hk')
      refine ⟨trust', hstore', fun manifest reason => ⟨fun haccepted => ?_, fun haccepted => ?_⟩⟩
      · exact accepted_of_not_contradicts hstore' hstore hperm.subset h haccepted
      · exact accepted_of_not_contradicts hstore hstore' hperm.symm.subset h' haccepted

end

section

attribute [local instance] FloatView.asFloat Interpreter.ascii

/-- A trust-store setting that lists the recorded key twice, the second time
with other padding bits. -/
def relistedTrustJson (first second : Str) : Str :=
  "[\x7b\"public_key\": \"A6EHv/POEL4dcN0Y50vAmWfk1jCbpQ1fHdyGZBJVMbg=\", \"status\": \"" ++
    first ++ "\"\x7d, \x7b\"public_key\": " ++
    "\"A6EHv/POEL4dcN0Y50vAmWfk1jCbpQ1fHdyGZBJVMbh=\", \"status\": \"" ++ second ++
    "\"\x7d]"

/-- A key that is `active` in one entry and `next` in the other. -/
theorem revocation_wins_iff_relisted :
    ∃ trust : TrustStore FloatView,
      trustStoreFromSettings recordedKey.crypto (relistedTrustJson "active" "next") [] =
        .ok trust ∧
      RevocationWins recordedKey.crypto
        (selectedKeys (relistedTrustJson "active" "next") []) trust := by
  have hrun : (trustStoreFromSettings (F := FloatView) recordedKey.crypto
      (relistedTrustJson "active" "next") [] >>= fun _ => .ok ()) = .ok () := by
    decide +kernel
  obtain ⟨trust, hstore, _⟩ := bind_eq_ok.mp hrun
  refine ⟨trust, hstore, (revocation_wins_iff hstore).mpr ?_⟩
  have hkeys : (selectedKeys (F := FloatView) (relistedTrustJson "active" "next") []).all
      (fun k => decide (listedKey k = some recordedKey.publicKey) &&
        ((listedStatus k).isStr "active" || (listedStatus k).isStr "next")) = true := by
    decide +kernel
  simp only [List.all_eq_true, Bool.and_eq_true, decide_eq_true_eq, Bool.or_eq_true,
    Json.isStr_iff] at hkeys
  rintro k hk k' hk' ⟨pub, pub', status, status', manifest, hconfigures, hconfigures', _, _,
    hsigned, hrefuses⟩
  have hpub : pub = pub' := Option.some.inj (hconfigures.listedKey.symm.trans
    ((hkeys k hk).1.trans ((hkeys k' hk').1.symm.trans hconfigures'.listedKey)))
  exact hrefuses (hconfigures'.2 ▸ (hkeys k' hk').2) (hpub ▸ hsigned)

/-- An entry revokes the key, and a later one with another spelling of it brings
it back. -/
theorem revocation_wins_reinstated :
    ∃ trust : TrustStore FloatView,
      trustStoreFromSettings recordedKey.crypto (relistedTrustJson "revoked" "active") [] =
        .ok trust ∧
      ¬ RevocationWins recordedKey.crypto
        (selectedKeys (relistedTrustJson "revoked" "active") []) trust := by
  have hrun : (trustStoreFromSettings recordedKey.crypto
      (relistedTrustJson "revoked" "active") [] >>= fun trust =>
        verifyManifest recordedKey.crypto recordedManifest trust) =
        .ok (true, recordedKeyId) := by decide +kernel
  obtain ⟨trust, hstore, haccepted⟩ := bind_eq_ok.mp hrun
  refine ⟨trust, hstore, fun h => ?_⟩
  have hkeys : (selectedKeys (F := FloatView)
      (relistedTrustJson "revoked" "active") []).any (fun k =>
        decide (listedKey k = some recordedKey.publicKey) &&
          (listedStatus k).isStr "revoked") = true := by decide +kernel
  simp only [List.any_eq_true, Bool.and_eq_true, decide_eq_true_eq, Json.isStr_iff] at hkeys
  obtain ⟨k, hk, hlisted, hstatus⟩ := hkeys
  have hkeyId : recordedKeyId = keyIdFor recordedKey.crypto recordedKey.publicKey := by
    decide +kernel
  exact h.revoked k hk recordedKey.publicKey (hstatus ▸ configures_of_listedKey hlisted)
    recordedManifest _ rfl (congrArg (fun kid => some (Json.str kid)) hkeyId) _ haccepted

end

end NetplexSupport
