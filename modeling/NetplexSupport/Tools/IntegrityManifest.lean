/-
The integrity manifests of `tools/sign_integrity.py`.  A manifest names one file for
each kernel module and the digest of its content, so a machine has the manifest of
another exactly when it has the same kernel files.
-/
import NetplexSupport.Tools.OfflineSigner

namespace NetplexSupport

open Py

/-! ### Loops that stop at the first exception -/

theorem mapM_eq_ok_iff {α β ε : Type} {f : α → Except ε β} {xs : List α} {ys : List β} :
    xs.mapM f = .ok ys ↔ List.Forall₂ (fun x y => f x = .ok y) xs ys := by
  induction xs generalizing ys with
  | nil => simp [pure, Except.pure, eq_comm]
  | cons x xs ih =>
      rw [List.mapM_cons, List.forall₂_cons_left_iff]
      simp only [bind_eq_ok, ih]
      constructor
      · rintro ⟨y, hy, ys', hys, h⟩
        exact ⟨y, ys', hy, hys, (Except.ok.inj h).symm⟩
      · rintro ⟨y, ys', hy, hys, rfl⟩
        exact ⟨y, hy, ys', hys, rfl⟩

theorem exists_mapM_iff {α β ε : Type} {f : α → Except ε β} {xs : List α} :
    (∃ ys, xs.mapM f = .ok ys) ↔ ∀ x ∈ xs, ∃ y, f x = .ok y := by
  constructor
  · rintro ⟨ys, hys⟩ x hx
    obtain ⟨y, _, hy⟩ := exists_mem_of_forall₂ (mapM_eq_ok_iff.mp hys).flip hx
    exact ⟨y, hy⟩
  · intro h
    induction xs with
    | nil => exact ⟨[], rfl⟩
    | cons x xs ih =>
        rw [List.forall_mem_cons] at h
        obtain ⟨y, hy⟩ := h.1
        obtain ⟨ys, hys⟩ := ih h.2
        exact ⟨y :: ys, mapM_eq_ok_iff.mpr (.cons hy (mapM_eq_ok_iff.mp hys))⟩

theorem mapM_congr {α β ε : Type} {f g : α → Except ε β} {xs : List α}
    (h : ∀ x ∈ xs, f x = g x) : xs.mapM f = xs.mapM g := by
  induction xs with
  | nil => rfl
  | cons x xs ih =>
      rw [List.forall_mem_cons] at h
      rw [List.mapM_cons, List.mapM_cons, h.1, ih h.2]

/-! ### The kernel files -/

theorem exists_kernelFile_iff {shared : Str → Option Bytes} {base : Str} :
    (∃ file, kernelFile shared base = .ok file) ↔
      shared (base ++ ".so") ≠ none ∨ shared (base ++ ".py") ≠ none := by
  unfold kernelFile
  rcases hso : shared (base ++ ".so") with _ | built
  · rcases hpy : shared (base ++ ".py") with _ | source
    · simp [hpy]
    · simp [hpy]
  · simp [hso]

theorem kernelFile_name {shared : Str → Option Bytes} {base : Str} {file : Str × Bytes}
    (h : kernelFile shared base = .ok file) :
    file.1 = base ++ ".so" ∨ file.1 = base ++ ".py" := by
  unfold kernelFile at h
  rcases hso : shared (base ++ ".so") with _ | built
  · simp only [hso, Option.isSome_none, Bool.false_eq_true, if_false] at h
    rcases hpy : shared (base ++ ".py") with _ | source
    · rw [hpy] at h
      cases h
    · rw [hpy] at h
      obtain rfl := Except.ok.inj h
      exact Or.inr rfl
  · simp only [hso, Option.isSome_some, if_true] at h
    obtain rfl := Except.ok.inj h
    exact Or.inl rfl

/-- The module a kernel file belongs to. -/
def moduleOf (name : Str) : Str := name.take (name.length - 3)

theorem moduleOf_kernelFile {shared : Str → Option Bytes} {base : Str} {file : Str × Bytes}
    (h : kernelFile shared base = .ok file) : moduleOf file.1 = base := by
  rcases kernelFile_name h with hname | hname
  · rw [hname, moduleOf]
    simp [Str.ofString]
  · rw [hname, moduleOf]
    simp [Str.ofString]

section

variable {F : Type}

/-- The member of a file. -/
def digestMember (C : Crypto) (file : Str × Bytes) : Str × Json F :=
  (file.1, .str (hexdigest (C.sha256 file.2)))

theorem modules_kernelFiles {shared : Str → Option Bytes} {bases : List Str}
    {found : List (Str × Bytes)}
    (h : List.Forall₂ (fun base file => kernelFile shared base = .ok file) bases found) :
    (found.map Prod.fst).map moduleOf = bases := by
  rw [List.map_map]
  induction h with
  | nil => rfl
  | cons hfile _ ih =>
      rw [List.map_cons, ih]
      exact congrArg (· :: _) (moduleOf_kernelFile hfile)

theorem nodup_digestMembers {C : Crypto} {shared : Str → Option Bytes}
    {found : List (Str × Bytes)} (hfound : kernelModules.mapM (kernelFile shared) = .ok found) :
    ((found.map (digestMember (F := F) C)).map Prod.fst).Nodup := by
  have hmodules : kernelModules.Nodup := by decide
  rw [← modules_kernelFiles (mapM_eq_ok_iff.mp hfound)] at hmodules
  rw [List.map_map]
  exact hmodules.of_map

/-- The manifest lists the kernel files in the order of their modules. -/
theorem kernelFiles_eq_ok {C : Crypto} {shared : Str → Option Bytes} {files : Members F} :
    kernelModules.foldlM (fun files base => do
      let (name, content) ← kernelFile shared base
      pure (dictSet files name (.str (hexdigest (C.sha256 content))))) ([] : Members F) =
        .ok files ↔
    ∃ found, kernelModules.mapM (kernelFile shared) = .ok found ∧
      files = found.map (digestMember C) := by
  have hloop : ∀ (bases : List Str) (init : Members F), bases.foldlM (fun files base => do
      let (name, content) ← kernelFile shared base
      pure (dictSet files name (.str (hexdigest (C.sha256 content))))) init = .ok files ↔
      ∃ found, bases.mapM (kernelFile shared) = .ok found ∧
        files = (found.map (digestMember C)).foldl (fun d m => dictSet d m.1 m.2) init := by
    intro bases
    induction bases with
    | nil =>
        intro init
        simp [pure, Except.pure, eq_comm]
    | cons base bases ih =>
        intro init
        rw [List.foldlM_cons, List.mapM_cons]
        simp only [bind_eq_ok, ih]
        constructor
        · rintro ⟨files', ⟨file, hfile, hset⟩, found, hfound, rfl⟩
          obtain rfl := Except.ok.inj hset
          exact ⟨file :: found, ⟨file, hfile, found, hfound, rfl⟩, rfl⟩
        · rintro ⟨_, ⟨file, hfile, found, hfound, h⟩, rfl⟩
          obtain rfl := Except.ok.inj h
          exact ⟨_, ⟨file, hfile, rfl⟩, found, hfound, rfl⟩
  rw [hloop]
  apply exists_congr
  intro found
  apply and_congr_right
  intro hfound
  have hdict := dictOf_eq_self _ (nodup_digestMembers (F := F) (C := C) hfound)
  rw [dictOf] at hdict
  rw [hdict]

theorem strings_integrityClaims {p : Str → Bool} (hp : ∀ s, Str.WellFormed s → p s = true)
    {C : Crypto} {shared : Str → Option Bytes} {found : List (Str × Bytes)}
    (hfound : kernelModules.mapM (kernelFile shared) = .ok found) :
    (Json.obj (payload (integrityClaims (F := F) (found.map (digestMember C))))).Strings p := by
  have hpayload : payload (integrityClaims (F := F) (found.map (digestMember C))) =
      integrityClaims (found.map (digestMember C)) := by
    rw [payload, List.filter_eq_self]
    simp only [integrityClaims, List.forall_mem_cons]
    exact ⟨by decide, by decide, by simp⟩
  have hkey : ∀ key : String, p (Str.ofString key) = true := fun key =>
    hp _ (Str.wellFormed_ofString key)
  have hname : ∀ file ∈ found, Str.WellFormed file.1 := by
    intro file hfile
    obtain ⟨base, hbase, hread⟩ := exists_mem_of_forall₂ (mapM_eq_ok_iff.mp hfound) hfile
    have hwell : ∀ base ∈ kernelModules, Str.WellFormed base := by
      simp only [kernelModules, List.forall_mem_cons]
      exact ⟨Str.wellFormed_ofString _, Str.wellFormed_ofString _, Str.wellFormed_ofString _,
        by simp⟩
    rcases kernelFile_name hread with h | h
    · rw [h, Str.wellFormed_append]
      exact ⟨hwell base hbase, Str.wellFormed_ofString _⟩
    · rw [h, Str.wellFormed_append]
      exact ⟨hwell base hbase, Str.wellFormed_ofString _⟩
  have hdigest : ∀ content, Str.WellFormed (hexdigest (C.sha256 content)) := by
    intro content c hc
    obtain ⟨b, _, hc⟩ := List.mem_flatMap.mp hc
    exact wellFormed_hexPad _ _ c hc
  have hfiles : (Json.obj (found.map (digestMember (F := F) C))).Strings p := by
    rw [Json.strings_obj, List.forall_mem_map, List.forall_mem_map]
    exact ⟨fun file hfile => hp _ (hname file hfile), fun file _ => hp _ (hdigest file.2)⟩
  rw [hpayload, Json.strings_obj]
  simp only [integrityClaims, List.forall_mem_cons, Json.strings_str]
  exact ⟨⟨hkey _, hkey _, by simp⟩, hkey _, hfiles, by simp⟩

end

section

variable {F : Type} [PyFloat F] {C : Crypto} {K : SigningKey} {keyText : Str} {seed : Bytes}

theorem signIntegrity_eq_ok {shared : Str → Option Bytes} {file : Str} :
    signIntegrity F C K keyText shared = .ok file ↔
      ∃ found, kernelModules.mapM (kernelFile shared) = .ok found ∧
        signToFile C K keyText (integrityClaims (F := F) (found.map (digestMember C))) =
          .ok file := by
  rw [signIntegrity, bind_eq_ok]
  simp only [kernelFiles_eq_ok]
  constructor
  · rintro ⟨_, ⟨found, hfound, rfl⟩, hfile⟩
    exact ⟨found, hfound, hfile⟩
  · rintro ⟨found, hfound, hfile⟩
    exact ⟨_, ⟨found, hfound, rfl⟩, hfile⟩

/-- A manifest is signed when every module has a file. -/
theorem exists_signIntegrity_iff (hread : readSeed keyText = .ok seed)
    (hseed : seed.length = 32) {shared : Str → Option Bytes} :
    (∃ file, signIntegrity F C K keyText shared = .ok file) ↔
      ∀ base ∈ kernelModules, shared (base ++ ".so") ≠ none ∨ shared (base ++ ".py") ≠ none := by
  simp only [← exists_kernelFile_iff, signIntegrity_eq_ok]
  rw [← exists_mapM_iff]
  constructor
  · rintro ⟨file, found, hfound, _⟩
    exact ⟨found, hfound⟩
  · rintro ⟨found, hfound⟩
    obtain ⟨message, hmessage⟩ := canonicalBytes_ok (strings_integrityClaims (F := F) (C := C)
      (fun s hs => decide_eq_true hs) hfound)
    exact ⟨_, found, hfound,
      signToFile_ok hread hseed (signClaims_eq_ok.mpr ⟨message, hmessage, rfl⟩)⟩

/-- What is read back from a manifest. -/
theorem loads_signIntegrity (hread : readSeed keyText = .ok seed)
    {shared : Str → Option Bytes} {found : List (Str × Bytes)}
    (hfound : kernelModules.mapM (kernelFile shared) = .ok found) {file : Str}
    (h : signToFile C K keyText (integrityClaims (F := F) (found.map (digestMember C))) =
      .ok file) :
    ∃ signed : Members F,
      signClaims C K seed (integrityClaims (found.map (digestMember C))) = .ok signed ∧
      loads file = some (.obj signed) ∧
      dictGet signed "files" = some (.obj (found.map (digestMember C))) := by
  have hkeyed := keyed_integrityClaims (keyed_kernelFiles (F := F) (C := C)
    (kernelFiles_eq_ok.mpr ⟨found, hfound, rfl⟩))
  obtain ⟨signed, hsigned, rfl⟩ := signToFile_eq_ok hread h
  refine ⟨signed, hsigned, loads_fileText (keyed_signClaims hsigned hkeyed)
    (by simp [Str.ofString, isJsonSpace]), ?_⟩
  rw [dictGet_signClaims hsigned (by decide)]
  rfl

omit [PyFloat F] in
theorem mem_found {shared : Str → Option Bytes} {found : List (Str × Bytes)}
    (hfound : kernelModules.mapM (kernelFile shared) = .ok found) {file : Str × Bytes} :
    file ∈ found ↔ ∃ base ∈ kernelModules, kernelFile shared base = .ok file := by
  have hall := mapM_eq_ok_iff.mp hfound
  refine ⟨exists_mem_of_forall₂ hall, ?_⟩
  rintro ⟨base, hbase, hfile⟩
  obtain ⟨file', hmem, hfile'⟩ := exists_mem_of_forall₂ hall.flip hbase
  obtain rfl : file = file' := Except.ok.inj (hfile.symm.trans hfile')
  exact hmem

/-- No content of a module collides with that of the other directory. -/
def NoKernelCollision (C : Crypto) (shared shared' : Str → Option Bytes) : Prop :=
  ∀ base ∈ kernelModules, ∀ file file', kernelFile shared base = .ok file →
    kernelFile shared' base = .ok file' → C.sha256 file'.2 = C.sha256 file.2 →
      file'.2 = file.2

instance : DecidableEq Digest := fun d e =>
  decidable_of_iff (d.bytes = e.bytes) (by
    obtain ⟨bytes, _⟩ := d
    obtain ⟨bytes', _⟩ := e
    rw [Digest.mk.injEq])

instance (C : Crypto) (shared shared' : Str → Option Bytes) :
    Decidable (NoKernelCollision C shared shared') :=
  decidable_of_iff ((kernelModules.all fun base =>
      (kernelFile shared base).toOption.all fun (file : Str × Bytes) =>
        (kernelFile shared' base).toOption.all fun (file' : Str × Bytes) =>
          decide (C.sha256 file'.2 = C.sha256 file.2 → file'.2 = file.2)) = true) (by
    have hfound : ∀ {x : Except Exc (Str × Bytes)} {p : Str × Bytes → Bool},
        x.toOption.all p = true ↔ ∀ file, x = .ok file → p file = true := by
      intro x p
      rcases x with exc | file
      · simp [Except.toOption]
      · simp [Except.toOption]
    simp only [NoKernelCollision, List.all_eq_true, hfound, decide_eq_true_eq]
    constructor
    · exact fun h base hbase file file' hfile hfile' => h base hbase file hfile file' hfile'
    · exact fun h base hbase file hfile file' hfile' => h base hbase file file' hfile hfile')

omit [PyFloat F] in
theorem kernelFiles_of_digests {shared shared' : Str → Option Bytes}
    (hcollision : NoKernelCollision C shared shared') {found found' : List (Str × Bytes)}
    (hfound : kernelModules.mapM (kernelFile shared) = .ok found)
    (hfound' : kernelModules.mapM (kernelFile shared') = .ok found')
    (h : found'.map (digestMember (F := F) C) = found.map (digestMember C)) :
    ∀ base ∈ kernelModules, kernelFile shared' base = kernelFile shared base := by
  intro base hbase
  obtain ⟨file, hmem, hfile⟩ :=
    exists_mem_of_forall₂ (mapM_eq_ok_iff.mp hfound).flip hbase
  have hmember : digestMember (F := F) C file ∈ found'.map (digestMember C) :=
    h ▸ List.mem_map_of_mem hmem
  obtain ⟨file', hmem', heq⟩ := List.mem_map.mp hmember
  obtain ⟨base', _, hfile'⟩ := (mem_found hfound').mp hmem'
  obtain ⟨hname, hdigest⟩ := Prod.mk.inj heq
  have hmodule : base' = base := by
    rw [← moduleOf_kernelFile hfile', ← moduleOf_kernelFile hfile, hname]
  subst hmodule
  have hcontent := hcollision base' hbase file file' hfile hfile'
    (hexdigest_inj (Json.str.inj hdigest))
  rw [hfile, hfile', Prod.ext hname hcontent]

/-! ### The manifest -/

/-- An integrity manifest is signed exactly when every module has a built or a source
file.  It is read back as a signed object that verifies under every store that holds
the key and gives, for one file of each module and for no other name, the digest of
its content; and another directory has the same manifest exactly when its modules have
the same files with the same contents, where no content collides with another. -/
theorem integrity_exact (hread : readSeed keyText = .ok seed) (hseed : seed.length = 32)
    (hK : SignsFor C K seed) (shared : Str → Option Bytes) :
    ((∃ file, signIntegrity F C K keyText shared = .ok file) ↔
      ∀ base ∈ kernelModules, shared (base ++ ".so") ≠ none ∨ shared (base ++ ".py") ≠ none) ∧
    ∀ file, signIntegrity F C K keyText shared = .ok file →
      (∃ (signed files : Members F), loads file = some (.obj signed) ∧
        dictGet signed "type" = some (.str "integrity") ∧
        dictGet signed "files" = some (.obj files) ∧
        (∀ name digest, dictGet files name = some digest ↔ ∃ base ∈ kernelModules,
          ∃ content, kernelFile shared base = .ok (name, content) ∧
            digest = .str (hexdigest (C.sha256 content))) ∧
        ∀ [Interpreter] (trust : TrustStore F),
          trust.Holds (keyIdFor C (K.verifyKey seed)) (K.verifyKey seed) →
          verifyManifest C signed trust = .ok (true, keyIdFor C (K.verifyKey seed))) ∧
      ∀ shared' : Str → Option Bytes, NoKernelCollision C shared shared' →
        (signIntegrity F C K keyText shared' = .ok file ↔
          ∀ base ∈ kernelModules, kernelFile shared' base = kernelFile shared base) := by
  refine ⟨exists_signIntegrity_iff hread hseed, fun file h => ?_⟩
  obtain ⟨found, hfound, hfile⟩ := signIntegrity_eq_ok.mp h
  obtain ⟨signed, hsigned, hloads, hfiles⟩ := loads_signIntegrity hread hfound hfile
  refine ⟨⟨signed, _, hloads, ?_, hfiles, fun name digest => ?_, ?_⟩,
    fun shared' hcollision => ?_⟩
  · rw [dictGet_signClaims hsigned (by decide)]
    rfl
  · rw [dictGet_eq_some_iff (nodup_digestMembers hfound), List.mem_map]
    constructor
    · rintro ⟨⟨_, content⟩, hmem, heq⟩
      obtain ⟨rfl, rfl⟩ := Prod.mk.inj heq
      obtain ⟨base, hbase, hread⟩ := (mem_found hfound).mp hmem
      exact ⟨base, hbase, content, hread, rfl⟩
    · rintro ⟨base, hbase, content, hread, rfl⟩
      exact ⟨(name, content), (mem_found hfound).mpr ⟨base, hbase, hread⟩, rfl⟩
  · intro _ trust hholds
    exact verifyManifest_signClaims hK hsigned hholds
  · rw [signIntegrity_eq_ok]
    constructor
    · rintro ⟨found', hfound', hfile'⟩
      obtain ⟨signed', _, hloads', hfiles'⟩ := loads_signIntegrity hread hfound' hfile'
      obtain rfl := Json.obj.inj (Option.some.inj (hloads'.symm.trans hloads))
      exact kernelFiles_of_digests hcollision hfound hfound'
        (Json.obj.inj (Option.some.inj (hfiles'.symm.trans hfiles)))
    · intro hsame
      exact ⟨found, (mapM_congr hsame).trans hfound, hfile⟩

end

section

attribute [local instance] FloatView.asFloat

/-- A directory with these files. -/
def kernelDir (files : List (String × Bytes)) (name : Str) : Option Bytes :=
  (files.map fun file => (Str.ofString file.1, file.2)).lookup name

/-- The recorded key with the digests of two small files and the signature of a
manifest that lists them. -/
def kernelKey : SignatureTable where
  seed := recordedKey.seed
  publicKey := recordedKey.publicKey
  digests := recordedKey.digests ++
    [(asciiBytes "abc", ⟨base64Bytes "ungWv48Bz+pBQUDeXa4iI7ADYaOWF3qctBD/YfIAFa0=",
      by decide +kernel⟩),
    ([], ⟨base64Bytes "47DEQpj8HBSa+/TImW+5JCeuQeRkm5NMpJWZG3hSuFU=", by decide +kernel⟩)]
  known := [(piecesBytes ["\x7b\"files\":\x7b\"entitlements.py\":\"", "e3b0c44298fc1c149afbf4c8",
      "996fb92427ae41e4649b934c", "a495991b7852b855\",\"integrity.py\":\"",
      "e3b0c44298fc1c149afbf4c8", "996fb92427ae41e4649b934c", "a495991b7852b855\",",
      "\"license_verify.so\":\"", "ba7816bf8f01cfea414140de", "5dae2223b00361a396177a9c",
      "b410ff61f20015ad\"\x7d,\"type\":\"integrity\"\x7d"],
    piecesBase64 ["j4LbzyiVdMw1f+F+kiF5n46lYDFOpfcauf", "PUwHrcD7+7yKUSO3fVauslzY9fJvTbYi562di9",
      "+cYdiJVdsUHsDQ=="])]
  publicKey_length := recordedKey.publicKey_length
  known_length := by decide +kernel
  known_nodup := by decide +kernel

/-- A kernel with one built module. -/
def builtKernel : Str → Option Bytes :=
  kernelDir [("license_verify.so", asciiBytes "abc"), ("entitlements.py", []),
    ("integrity.py", [])]

/-- A source beside the built module changes nothing, and another build does. -/
theorem integrity_exact_built :
    ∃ file, signIntegrity FloatView kernelKey.crypto kernelKey.signingKey recordedSeedText
        builtKernel = .ok file ∧
      signIntegrity FloatView kernelKey.crypto kernelKey.signingKey recordedSeedText
        (kernelDir [("license_verify.py", []), ("license_verify.so", asciiBytes "abc"),
          ("entitlements.py", []), ("integrity.py", [])]) = .ok file ∧
      signIntegrity FloatView kernelKey.crypto kernelKey.signingKey recordedSeedText
        (kernelDir [("license_verify.so", []), ("entitlements.py", []), ("integrity.py", [])]) ≠
          .ok file := by
  have hread : readSeed recordedSeedText = .ok kernelKey.seed := by decide +kernel
  obtain ⟨hok, hmanifest⟩ := integrity_exact (F := FloatView) (C := kernelKey.crypto) hread
    (by decide +kernel) kernelKey.verifies_sign_iff builtKernel
  obtain ⟨file, hfile⟩ := hok.mpr (by decide +kernel)
  obtain ⟨_, hsame⟩ := hmanifest file hfile
  refine ⟨file, hfile, (hsame _ (by decide +kernel)).mpr (by decide +kernel), ?_⟩
  rw [Ne, hsame _ (by decide +kernel)]
  decide +kernel

end

end NetplexSupport
