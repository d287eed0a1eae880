/-
`tools/gen_keypair.py` and `tools/sign_release.py`: the keys of the offline machine
and the manifests it signs.  What one tool writes is what the next one, the server
and the boxes read.
-/
import NetplexSupport.Crypto.Settings
import NetplexSupport.Json.Indent
import NetplexSupport.Tools.OfflineSigner

namespace NetplexSupport

open Py

variable {F : Type}

/-! ### `gen_keypair.py` -/

structure KeyPair where
  keyFile : Str
  pubFile : Str
  printed : List Str

variable (F) in
/-- The entry for a trust store. -/
def trustEntry (pub : Bytes) : Json F :=
  .obj [("public_key", .str (b64e pub)), ("status", .str "active")]

variable (F) in
/-- `main` of `gen_keypair.py`, with the seed that was drawn: the two files and
the lines it prints. -/
def genKeypair [PyFloat F] (C : Crypto) (K : SigningKey) (name : Str) (seed : Bytes) :
    KeyPair where
  keyFile := b64e seed ++ "\n"
  pubFile := b64e (K.verifyKey seed) ++ "\n"
  printed :=
    ["key_id: " ++ keyIdFor C (K.verifyKey seed),
      "private: " ++ name ++
        ".key  (chmod 600 - OFFLINE ONLY, back up to 2 encrypted media)",
      "public:  " ++ name ++ ".pub",
      "\nTrust-store entry to bake into the installer (status: active | next):",
      dumpsIndent 2 (trustEntry F (K.verifyKey seed))]

/-! ### `sign_release.py` -/

/-- `SigningKey(seed)` of PyNaCl. -/
def signingSeed (seed : Bytes) : Except Exc Bytes :=
  if seed.length = 32 then .ok seed
  else .error ⟨.valueError, "The seed must be exactly 32 bytes long"⟩

structure SignedRelease where
  file : Str
  printed : Str

/-- `main` of `sign_release.py`, for a file that holds a JSON object: the file it
writes and the line it prints. -/
def signRelease [PyFloat F] (C : Crypto) (K : SigningKey) (keyText outPath : Str)
    (manifest : Members F) : Except Exc SignedRelease := do
  let seed ← signingSeed (← readSeed keyText)
  let signed ← signManifest C K manifest seed none
  pure ⟨dumpsIndent 2 (.obj signed),
    "signed with key_id=" ++ keyIdFor C (K.verifyKey seed) ++ " → " ++ outPath⟩

/-! ### Files that are read back -/

theorem b64e_not_space (bs : Bytes) : ∀ c ∈ b64e bs, isSpace c = false := by
  intro c hc
  have hplain := b64e_plain bs c hc
  simp only [isSpace, Bool.or_eq_false_iff, Bool.and_eq_false_iff, decide_eq_false_iff_not]
  omega

theorem strip_line (bs : Bytes) : Str.strip (b64e bs ++ Str.ofString "\n") = b64e bs := by
  have hself : Str.strip (b64e bs) = b64e bs :=
    strip_eq_self (fun c hc => b64e_not_space bs c (List.mem_of_mem_head? hc))
      fun c hc => b64e_not_space bs c (List.mem_of_getLast? hc)
  rw [strip_append_space _ (List.all_eq_true.mp (by decide)), hself]

/-- The key file holds the seed. -/
theorem readSeed_keyFile [PyFloat F] (C : Crypto) (K : SigningKey) (name : Str)
    (seed : Bytes) : readSeed (genKeypair F C K name seed).keyFile = .ok seed := by
  have hstrip : Str.strip (genKeypair F C K name seed).keyFile = b64e seed := strip_line seed
  rw [readSeed, hstrip, b64decodeText, encodeAscii_b64e]
  exact b64decode_b64encode seed

/-- The entry, as it is printed. -/
theorem configures_trustEntry (pub : Bytes) :
    Configures (trustEntry F pub) pub (.str "active") :=
  ⟨⟨b64e pub, rfl, b64d_b64e pub⟩, rfl⟩

theorem loads_trustEntry [PyFloat F] (pub : Bytes) :
    loads (dumpsIndent 2 (trustEntry F pub)) = some (trustEntry F pub) := by
  have hascii : Str.Ascii (b64e pub) := fun c hc => of_decide_eq_true (b64e_ascii pub c hc)
  have hkey : ∀ key : String, (Str.ofString key).joined = true := fun key =>
    (Str.wellFormed_ofString key).joined
  apply loads_dumpsIndent
  · rw [trustEntry, Json.keyed_obj]
    exact ⟨by simp, by simp [Json.Keyed, Json.all]⟩
  · rw [trustEntry, Json.strings_obj]
    simp only [List.forall_mem_cons, Json.strings_str]
    exact ⟨⟨hkey _, hkey _, by simp⟩, hascii.wellFormed.joined, hkey _, by simp⟩

section

variable [PyFloat F] [Interpreter]

/-! ### The server is given the public key -/

variable (F) in
/-- A pair of settings has the content of the `.pub` file as its one key, or a list
of keys, none of them twice, with the entry that was printed for it. -/
inductive TrustsPair (C : Crypto) (pair : KeyPair) : Str → Str → Prop
  | single {trustStoreJson singlePublicKey : Str} (hblank : Str.strip trustStoreJson = [])
      (hkey : singlePublicKey = Str.strip pair.pubFile) :
      TrustsPair C pair trustStoreJson singlePublicKey
  | listed {trustStoreJson singlePublicKey text : Str} {keys : List (Json F)}
      {entry : Json F} (hjson : tryLoads (Str.strip trustStoreJson) = .ok (some (.arr keys)))
      (hprinted : pair.printed.getLast? = some text) (htext : loads text = some entry)
      (hentry : entry ∈ keys) (hwell : ∀ k ∈ keys, WellFormedKey k)
      (hdistinct : DistinctKeys C keys) : TrustsPair C pair trustStoreJson singlePublicKey

/-- Then the store holds the key. -/
theorem TrustsPair.holds {C : Crypto} {K : SigningKey} {name : Str} {seed : Bytes}
    (hpub : K.verifyKey seed ≠ []) {trustStoreJson singlePublicKey : Str}
    (h : TrustsPair F C (genKeypair F C K name seed) trustStoreJson singlePublicKey) :
    ∃ trust : TrustStore F, trustStoreFromSettings C trustStoreJson singlePublicKey = .ok trust ∧
      trust.Holds (keyIdFor C (K.verifyKey seed)) (K.verifyKey seed) := by
  have hselected : ∃ keys : List (Json F),
      selectedKeys trustStoreJson singlePublicKey = keys ∧
        trustEntry F (K.verifyKey seed) ∈ keys ∧ (∀ k ∈ keys, WellFormedKey k) ∧
        DistinctKeys C keys := by
    rcases h with ⟨hblank, rfl⟩ | ⟨hjson, hprinted, htext, hentry, hwell, hdistinct⟩
    · have hline : Str.strip (genKeypair F C K name seed).pubFile = b64e (K.verifyKey seed) :=
        strip_line _
      have hne : b64e (K.verifyKey seed) ≠ [] := by
        intro hnil
        have hlength := length_b64e (K.verifyKey seed)
        rw [hnil, List.length_nil] at hlength
        have hpos := List.length_pos_iff.mpr hpub
        omega
      refine ⟨[trustEntry F (K.verifyKey seed)], ?_, List.mem_singleton_self _,
        List.forall_mem_singleton.mpr
          (wellFormedKey_iff.mpr ⟨_, _, configures_trustEntry _⟩), ?_⟩
      · rw [selectedKeys, if_neg (not_not.mpr hblank), hline, if_pos hne]
        rfl
      · have hlisted : [trustEntry F (K.verifyKey seed)].filterMap listedKey =
            [K.verifyKey seed] := by
          rw [List.filterMap_cons, (configures_trustEntry _).listedKey, List.filterMap_nil]
        constructor
        · rw [hlisted]
          exact List.nodup_singleton _
        · rw [hlisted]
          intro p hp q hq _
          exact (List.mem_singleton.mp hp).trans (List.mem_singleton.mp hq).symm
    · have hsome : some (dumpsIndent 2 (trustEntry F (K.verifyKey seed))) = some _ := hprinted
      rw [← Option.some.inj hsome, loads_trustEntry] at htext
      obtain rfl := Option.some.inj htext
      refine ⟨_, ?_, hentry, hwell, hdistinct⟩
      rw [selectedKeys, hjson]
      refine if_pos fun hblank => ?_
      rw [hblank] at hjson
      cases hjson
  have hfollowed : ListFollowed F trustStoreJson := by
    rcases h with ⟨hblank, _⟩ | ⟨hjson, _⟩
    · exact ⟨none, by rw [hblank, tryLoads_nil]⟩
    · exact ⟨_, hjson⟩
  obtain ⟨parsed, hparsed⟩ := hfollowed
  obtain ⟨keys, hkeys, hentry, hwell, hdistinct⟩ := hselected
  rw [trustStoreFromSettings_eq, hkeys]
  obtain ⟨trust, htrust⟩ := fromKeys_isOk_iff.mpr hwell
  exact ⟨trust, bind_eq_ok.mpr ⟨parsed, hparsed, htrust⟩,
    holds_of_configures htrust hdistinct hentry (configures_trustEntry _) (Or.inl rfl)⟩

end

/-! ### What is signed -/

variable [PyFloat F]

omit [PyFloat F] in
theorem payload_payload (manifest : Members F) :
    payload (payload manifest) = payload manifest := by
  simp [payload, List.filter_filter]

/-- `sign_manifest` and the minting tools put the same block over the same bytes. -/
theorem signManifest_eq_signClaims (C : Crypto) (K : SigningKey) (manifest : Members F)
    (seed : Bytes) :
    signManifest C K manifest seed none = signClaims C K seed (payload manifest) := rfl

/-- The signature that a manifest comes with does not matter. -/
theorem signManifest_congr {manifest manifest' : Members F}
    (h : payload manifest = payload manifest') (C : Crypto) (K : SigningKey) (seed : Bytes) :
    signManifest C K manifest seed none = signManifest C K manifest' seed none := by
  rw [signManifest_eq_signClaims, signManifest_eq_signClaims, h]

theorem signRelease_congr {manifest manifest' : Members F}
    (h : payload manifest = payload manifest') (C : Crypto) (K : SigningKey)
    (keyText outPath : Str) :
    signRelease C K keyText outPath manifest = signRelease C K keyText outPath manifest' := by
  simp only [signRelease, signManifest_congr h]

theorem signRelease_eq_ok {C : Crypto} {K : SigningKey} {keyText outPath : Str}
    {seed : Bytes} (hread : readSeed keyText = .ok seed) (hseed : seed.length = 32)
    {manifest : Members F} {release : SignedRelease} :
    signRelease C K keyText outPath manifest = .ok release ↔ ∃ signed,
      signClaims C K seed (payload manifest) = .ok signed ∧
        release = ⟨dumpsIndent 2 (.obj signed),
          "signed with key_id=" ++ keyIdFor C (K.verifyKey seed) ++ " → " ++ outPath⟩ := by
  have hsigning : signingSeed seed = .ok seed := if_pos hseed
  constructor
  · intro h
    obtain ⟨bytes, hbytes, h⟩ := bind_eq_ok.mp h
    obtain rfl : seed = bytes := Except.ok.inj (hread.symm.trans hbytes)
    obtain ⟨bytes, hbytes, h⟩ := bind_eq_ok.mp h
    obtain rfl : seed = bytes := Except.ok.inj (hsigning.symm.trans hbytes)
    obtain ⟨signed, hsigned, h⟩ := bind_eq_ok.mp h
    exact ⟨signed, hsigned, (Except.ok.inj h).symm⟩
  · rintro ⟨signed, hsigned, rfl⟩
    exact bind_eq_ok.mpr ⟨seed, hread, bind_eq_ok.mpr ⟨seed, hsigning,
      bind_eq_ok.mpr ⟨signed, hsigned, rfl⟩⟩⟩

omit [PyFloat F] in
theorem loaded_payload {manifest : Members F} (h : (Json.obj manifest).Loaded) :
    (Json.obj (payload manifest)).Loaded :=
  ⟨keyed_payload h.1, strings_payload h.2⟩

/-- The block adds nothing that is not loaded as it was written. -/
theorem loaded_signClaims {C : Crypto} {K : SigningKey} {seed : Bytes}
    {claims signed : Members F} (h : signClaims C K seed claims = .ok signed)
    (hclaims : (Json.obj claims).Loaded) : (Json.obj signed).Loaded := by
  refine ⟨keyed_signClaims h hclaims.1, ?_⟩
  obtain ⟨message, _, rfl⟩ := signClaims_eq_ok.mp h
  have hstrings := Json.strings_obj.mp hclaims.2
  rw [Json.strings_obj]
  constructor
  · intro m hm
    rcases mem_dictSet hm with rfl | hm
    · exact (Str.wellFormed_ofString "signature").joined
    · exact hstrings.1 m hm
  · intro m hm
    rcases mem_dictSet hm with rfl | hm
    · exact strings_signatureBlock message
    · exact hstrings.2 m hm

omit [PyFloat F] in
theorem dictGet_payload (manifest : Members F) {key : Str}
    (hkey : key ≠ Str.ofString "signature") :
    dictGet (payload manifest) key = dictGet manifest key := by
  induction manifest with
  | nil => rfl
  | cons m manifest ih =>
      by_cases hm : m.1 = Str.ofString "signature"
      · have hne : key ≠ m.1 := fun heq => hkey (heq.trans hm)
        have hskip : payload (m :: manifest) = payload manifest := by simp [payload, hm]
        rw [hskip, ih, dictGet_cons, if_neg hne]
      · have hkeep : payload (m :: manifest) = m :: payload manifest := by simp [payload, hm]
        rw [hkeep, dictGet_cons, dictGet_cons, ih]

/-- What the tool writes is read back as the signed object. -/
theorem signRelease_spec {C : Crypto} {K : SigningKey} {keyText outPath : Str} {seed : Bytes}
    (hread : readSeed keyText = .ok seed) (hseed : seed.length = 32) {manifest : Members F}
    (hloaded : (Json.obj manifest).Loaded) {release : SignedRelease}
    (h : signRelease C K keyText outPath manifest = .ok release) :
    ∃ signed, signClaims C K seed (payload manifest) = .ok signed ∧
      loads release.file = some (.obj signed) ∧ (Json.obj signed).Loaded ∧
      payload signed = payload manifest := by
  obtain ⟨signed, hsigned, rfl⟩ := (signRelease_eq_ok hread hseed).mp h
  have hsame : payload signed = payload manifest := by
    obtain ⟨message, _, rfl⟩ := signClaims_eq_ok.mp hsigned
    rw [payload_dictSet, payload_payload]
  have hsignedLoaded := loaded_signClaims hsigned (loaded_payload hloaded)
  exact ⟨signed, hsigned, loads_dumpsIndent 2 hsignedLoaded.1 hsignedLoaded.2, hsignedLoaded,
    hsame⟩

/-- A manifest that was signed with a generated key is read back as the signed
object: its payload is the manifest's, it verifies under every trust store that holds
the key, and signing it once more, with whatever key, is signing the manifest. -/
theorem release_signed {C : Crypto} {K : SigningKey} {seed : Bytes} (hK : SignsFor C K seed)
    (hseed : seed.length = 32) (name outPath : Str) {manifest : Members F}
    (hloaded : (Json.obj manifest).Loaded) :
    ((∃ release, signRelease C K (genKeypair F C K name seed).keyFile outPath manifest =
      .ok release) ↔ (Json.obj (payload manifest)).Strings Str.encodable) ∧
    ∀ release, signRelease C K (genKeypair F C K name seed).keyFile outPath manifest =
      .ok release →
      ∃ signed : Members F, loads release.file = some (.obj signed) ∧
        payload signed = payload manifest ∧
        (∀ [Interpreter] (trust : TrustStore F),
          trust.Holds (keyIdFor C (K.verifyKey seed)) (K.verifyKey seed) →
          verifyManifest C signed trust = .ok (true, keyIdFor C (K.verifyKey seed))) ∧
        ∀ K' keyText' outPath', signRelease C K' keyText' outPath' signed =
          signRelease C K' keyText' outPath' manifest := by
  have hread := readSeed_keyFile (F := F) C K name seed
  constructor
  · constructor
    · rintro ⟨release, hrelease⟩
      obtain ⟨signed, hsigned, _⟩ := (signRelease_eq_ok hread hseed).mp hrelease
      obtain ⟨message, hmessage, _⟩ := signClaims_eq_ok.mp hsigned
      rw [canonicalBytes, payload_payload] at hmessage
      exact (wellFormed_canonical _).mp (encodeUtf8_eq_ok_iff.mp hmessage).1
    · intro hencodable
      have hbytes : ∃ message, canonicalBytes (payload manifest) = .ok message :=
        canonicalBytes_ok (by rw [payload_payload]; exact hencodable)
      obtain ⟨message, hmessage⟩ := hbytes
      exact ⟨_, (signRelease_eq_ok hread hseed).mpr
        ⟨_, signClaims_eq_ok.mpr ⟨message, hmessage, rfl⟩, rfl⟩⟩
  · intro release hrelease
    obtain ⟨signed, hsigned, hfile, _, hsame⟩ :=
      signRelease_spec hread hseed hloaded hrelease
    refine ⟨signed, hfile, hsame, ?_, ?_⟩
    · intro _ trust hholds
      exact verifyManifest_signClaims hK hsigned hholds
    · intro K' keyText' outPath'
      exact signRelease_congr hsame C K' keyText' outPath'

section

attribute [local instance] FloatView.asFloat Interpreter.ascii

def stableManifest : Members FloatView :=
  [("channel", .str "stable"), ("version", .str "2026.7")]

/-- A signed manifest that is signed again is written as it was. -/
theorem release_signed_stable :
    ∃ (release : SignedRelease) (signed : Members FloatView),
      loads release.file = some (.obj signed) ∧ payload signed = stableManifest ∧
      signRelease recordedKey.crypto recordedKey.signingKey
        (genKeypair FloatView recordedKey.crypto recordedKey.signingKey "netplex-signing"
          recordedKey.seed).keyFile "signed-manifest.json" signed = .ok release := by
  obtain ⟨hok, hrelease⟩ := release_signed (C := recordedKey.crypto) recordedKey_signsFor
    (by decide +kernel) "netplex-signing" "signed-manifest.json"
    (⟨by decide +kernel, by decide +kernel⟩ : (Json.obj stableManifest).Loaded)
  obtain ⟨release, hsigned⟩ := hok.mpr (by decide +kernel)
  obtain ⟨signed, hfile, hpayload, _, hagain⟩ := hrelease release hsigned
  exact ⟨release, signed, hfile, hpayload, (hagain _ _ _).trans hsigned⟩

end

end NetplexSupport
