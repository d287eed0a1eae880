/-
The revocation lists of `tools/mint_crl.py`.  What a list says depends on the set of
the ids it was given and on nothing else, so a list can be minted again on another
machine and compared byte for byte.
-/
import NetplexSupport.Tools.OfflineSigner

namespace NetplexSupport

open Py

/-! ### Sorted sets -/

theorem mem_sortedSet {ids : List Str} {id : Str} : id ∈ sortedSet ids ↔ id ∈ ids := by
  rw [sortedSet, List.mem_insertionSort, List.mem_dedup]

theorem sortedSet_strict (ids : List Str) : (sortedSet ids).Pairwise (· < ·) := by
  have hsorted : (sortedSet ids).Pairwise (· ≤ ·) := List.pairwise_insertionSort _ _
  have hnodup : (sortedSet ids).Nodup :=
    (List.perm_insertionSort _ _).nodup_iff.mpr (List.nodup_dedup ids)
  exact (hsorted.and hnodup).imp fun h => lt_of_le_of_ne h.1 h.2

/-- Neither the order of the ids nor how often they are given matters. -/
theorem sortedSet_congr {ids ids' : List Str} (h : ∀ id, id ∈ ids ↔ id ∈ ids') :
    sortedSet ids = sortedSet ids' := by
  refine (sortedSet_strict ids).eq_of_mem_iff (sortedSet_strict ids') fun id => ?_
  rw [mem_sortedSet, mem_sortedSet, h]

section

variable {F : Type}

/-! ### The list before it is signed -/

theorem strings_crlClaims {p : Str → Bool} (hp : ∀ key : String, p (Str.ofString key) = true)
    {revoked : List Str} {now : Int} :
    (Json.obj (payload (crlClaims (F := F) revoked now))).Strings p ↔
      ∀ id ∈ revoked, p id = true := by
  have hpayload : payload (crlClaims (F := F) revoked now) = crlClaims revoked now := by
    rw [payload, List.filter_eq_self]
    simp only [crlClaims, List.forall_mem_cons]
    exact ⟨by decide, by decide, by decide, by simp⟩
  have hids : (Json.arr (revoked.map (Json.str (F := F)))).Strings p ↔
      ∀ id ∈ revoked, p id = true := by
    rw [Json.strings_arr, List.forall_mem_map]
    simp only [Json.strings_str]
  rw [hpayload, Json.strings_obj, ← hids]
  simp only [crlClaims, List.forall_mem_cons, Json.strings_str]
  constructor
  · rintro ⟨_, _, hlisted, _⟩
    exact hlisted
  · intro hlisted
    exact ⟨⟨hp _, hp _, hp _, by simp⟩, hp _, hlisted, rfl, by simp⟩

variable [PyFloat F]

/-- An id is revoked, on the command line or in the file. -/
def Revokes (revoke revokeFile : List Str) (id : Str) : Prop :=
  id ∈ revoke ∨ id ∈ revokeLines revokeFile

/-- A list is minted when an id is revoked, and all of them can be encoded. -/
theorem mintCrl_isOk_iff {C : Crypto} {K : SigningKey} {keyText : Str} {seed : Bytes}
    (hread : readSeed keyText = .ok seed) (hseed : seed.length = 32)
    {revoke revokeFile : List Str} {now : Int} :
    (∃ file, mintCrl F C K keyText revoke revokeFile now = .ok file) ↔
      (∃ id, Revokes revoke revokeFile id) ∧
        ∀ id, Revokes revoke revokeFile id → Str.WellFormed id := by
  have hmem : ∀ id, id ∈ sortedSet (revoke ++ revokeLines revokeFile) ↔
      Revokes revoke revokeFile id := by
    intro id
    rw [mem_sortedSet, List.mem_append, Revokes]
  by_cases hnone : sortedSet (revoke ++ revokeLines revokeFile) = []
  · have hrefused : ∀ file, mintCrl F C K keyText revoke revokeFile now ≠ .ok file := by
      intro file h
      rw [mintCrl, if_pos hnone] at h
      cases h
    refine iff_of_false (fun ⟨file, h⟩ => hrefused file h) fun ⟨⟨id, hid⟩, _⟩ => ?_
    rw [← hmem, hnone] at hid
    cases hid
  · obtain ⟨id, hid⟩ := List.exists_mem_of_ne_nil _ hnone
    have hencodable : (Json.obj (payload (crlClaims (F := F)
        (sortedSet (revoke ++ revokeLines revokeFile)) now))).Strings Str.encodable ↔
        ∀ id, Revokes revoke revokeFile id → Str.WellFormed id := by
      rw [strings_crlClaims fun key => decide_eq_true (Str.wellFormed_ofString key)]
      simp only [hmem, Str.encodable, decide_eq_true_eq]
    rw [and_iff_right ⟨id, (hmem id).mp hid⟩, ← hencodable, mintCrl, if_neg hnone]
    constructor
    · rintro ⟨file, hfile⟩
      obtain ⟨signed, hsigned, _⟩ := signToFile_eq_ok hread hfile
      obtain ⟨message, hmessage, _⟩ := signClaims_eq_ok.mp hsigned
      exact (wellFormed_canonical _).mp (encodeUtf8_eq_ok_iff.mp hmessage).1
    · intro hstrings
      obtain ⟨message, hmessage⟩ := canonicalBytes_ok hstrings
      exact ⟨_, signToFile_ok hread hseed (signClaims_eq_ok.mpr ⟨message, hmessage, rfl⟩)⟩

/-! ### The list -/

/-- A revocation list is minted exactly when there is an id to revoke and all ids can
be encoded.  It is read back as a signed object that verifies under every store that
holds the key and lists each revoked id once, in ascending order, and nothing else;
and whoever gives the same set of ids, in flags or in a file, in any order and however
often, is given the same file. -/
theorem crl_exact {C : Crypto} {K : SigningKey} {keyText : Str} {seed : Bytes}
    (hread : readSeed keyText = .ok seed) (hseed : seed.length = 32) (hK : SignsFor C K seed)
    (revoke revokeFile : List Str) (now : Int) :
    ((∃ file, mintCrl F C K keyText revoke revokeFile now = .ok file) ↔
      (∃ id, Revokes revoke revokeFile id) ∧
        ∀ id, Revokes revoke revokeFile id → Str.WellFormed id) ∧
    (∀ file, mintCrl F C K keyText revoke revokeFile now = .ok file →
      ∃ (signed : Members F) (listed : List Str), loads file = some (.obj signed) ∧
        dictGet signed "type" = some (.str "crl") ∧
        dictGet signed "issued_at" = some (.int now) ∧
        dictGet signed "revoked" = some (.arr (listed.map .str)) ∧
        listed.Pairwise (· < ·) ∧ (∀ id, id ∈ listed ↔ Revokes revoke revokeFile id) ∧
        ∀ [Interpreter] (trust : TrustStore F),
          trust.Holds (keyIdFor C (K.verifyKey seed)) (K.verifyKey seed) →
          verifyManifest C signed trust = .ok (true, keyIdFor C (K.verifyKey seed))) ∧
    ∀ revoke' revokeFile',
      (∀ id, Revokes revoke' revokeFile' id ↔ Revokes revoke revokeFile id) →
      mintCrl F C K keyText revoke' revokeFile' now =
        mintCrl F C K keyText revoke revokeFile now := by
  refine ⟨mintCrl_isOk_iff hread hseed, fun file h => ?_, fun revoke' revokeFile' hsame => ?_⟩
  · by_cases hnone : sortedSet (revoke ++ revokeLines revokeFile) = []
    · rw [mintCrl, if_pos hnone] at h
      cases h
    · rw [mintCrl, if_neg hnone] at h
      obtain ⟨signed, hsigned, rfl⟩ := signToFile_eq_ok hread h
      have hkeyed := keyed_signClaims hsigned (keyed_crlClaims _ now)
      refine ⟨signed, sortedSet (revoke ++ revokeLines revokeFile),
        loads_fileText hkeyed (by simp [Str.ofString, isJsonSpace]), ?_, ?_, ?_,
        sortedSet_strict _, fun id => ?_, ?_⟩
      · rw [dictGet_signClaims hsigned (by decide)]
        rfl
      · rw [dictGet_signClaims hsigned (by decide)]
        rfl
      · rw [dictGet_signClaims hsigned (by decide)]
        rfl
      · rw [mem_sortedSet, List.mem_append, Revokes]
      · intro _ trust hholds
        exact verifyManifest_signClaims hK hsigned hholds
  · have hlisted : sortedSet (revoke' ++ revokeLines revokeFile') =
        sortedSet (revoke ++ revokeLines revokeFile) := by
      refine sortedSet_congr fun id => ?_
      rw [List.mem_append, List.mem_append]
      exact hsame id
    rw [mintCrl, mintCrl, hlisted]

end

section

attribute [local instance] FloatView.asFloat Interpreter.ascii

/-- Two licences out of order, one of them twice, with a comment and a blank line. -/
theorem crl_exact_twice :
    ∃ (file : Str) (signed : Members FloatView),
      mintCrl FloatView recordedKey.crypto recordedKey.signingKey recordedSeedText
        ["lic-2"] ["# leaked", "  ", "lic-1 ", "lic-2"] 1700000000 = .ok file ∧
      mintCrl FloatView recordedKey.crypto recordedKey.signingKey recordedSeedText
        [] ["lic-1", "lic-2"] 1700000000 = .ok file ∧
      loads file = some (.obj signed) ∧
      dictGet signed "revoked" = some (.arr [.str "lic-1", .str "lic-2"]) := by
  have hread : readSeed recordedSeedText = .ok recordedKey.seed := by decide +kernel
  have hlines : revokeLines ["# leaked", "  ", "lic-1 ", "lic-2"] =
      [Str.ofString "lic-1", Str.ofString "lic-2"] := by
    decide +kernel
  have hlines' : revokeLines ["lic-1", "lic-2"] =
      [Str.ofString "lic-1", Str.ofString "lic-2"] := by
    decide +kernel
  have hrevokes : ∀ id, Revokes ["lic-2"] ["# leaked", "  ", "lic-1 ", "lic-2"] id ↔
      id ∈ [Str.ofString "lic-1", Str.ofString "lic-2"] := by
    intro id
    rw [Revokes, hlines, List.mem_singleton]
    exact or_iff_right_of_imp fun h => h ▸ by simp
  obtain ⟨hok, hminted, hagain⟩ := crl_exact (F := FloatView) hread (by decide +kernel)
    recordedKey_signsFor ["lic-2"] ["# leaked", "  ", "lic-1 ", "lic-2"] 1700000000
  have hencodable : ∀ id ∈ [Str.ofString "lic-1", Str.ofString "lic-2"], Str.WellFormed id := by
    rw [List.forall_mem_cons, List.forall_mem_singleton]
    exact ⟨Str.wellFormed_ofString _, Str.wellFormed_ofString _⟩
  obtain ⟨file, hfile⟩ := hok.mpr ⟨⟨_, (hrevokes _).mpr List.mem_cons_self⟩, fun id hid =>
    hencodable id ((hrevokes id).mp hid)⟩
  obtain ⟨signed, listed, hloads, _, _, hrevoked, hsorted, hlisted, _⟩ := hminted file hfile
  have hboth : listed = [Str.ofString "lic-1", Str.ofString "lic-2"] := by
    have hascending : [Str.ofString "lic-1", Str.ofString "lic-2"].Pairwise (· < ·) := by
      rw [List.pairwise_pair]
      decide +kernel
    refine hsorted.eq_of_mem_iff hascending fun id => ?_
    rw [hlisted, hrevokes]
  rw [hboth] at hrevoked
  refine ⟨file, signed, hfile, (hagain [] ["lic-1", "lic-2"] fun id => ?_).trans hfile, hloads,
    hrevoked⟩
  rw [hrevokes, Revokes, hlines']
  simp

end

end NetplexSupport
