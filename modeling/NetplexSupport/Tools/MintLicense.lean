/-
`tools/mint_license.py`: the licence minter of the offline machine, with the
policy that refuses to bind most tiers to a machine.
-/
import NetplexSupport.Tools.OfflineSigner

namespace NetplexSupport

open Py

/-- `--days` or `--perpetual`. -/
inductive Validity where
  | days (n : Int)
  | perpetual
deriving DecidableEq

/-- The arguments of the tool.  `entitlements` is the content of the file, and
`now` is `--now` or the clock. -/
structure MintArgs where
  tier : String
  buyerId : String
  customerRef : Option String := none
  licenseId : Option String := none
  machine : String := "any"
  allowFloating : Bool := false
  entitlements : Option String := none
  validity : Validity := .days 365
  now : Int

/-- `value or fallback` of an optional argument. -/
def argOr (value : Option String) (fallback : String) : String :=
  match value with
  | some s => if s = "" then fallback else s
  | none => fallback

def MintArgs.expiresAt (args : MintArgs) : Option Int :=
  match args.validity with
  | .days n => some (args.now + n * 86400)
  | .perpetual => none

def MintArgs.customer (args : MintArgs) : String := argOr args.customerRef args.buyerId

/-- A real bind to a machine: not `any`, and not floating. -/
def MintArgs.bound (args : MintArgs) : Bool :=
  args.machine ≠ "" && args.machine ≠ "any" && !args.allowFloating

def lockable : List String := ["enterprise", "architect", "master"]

section

variable [Interpreter]

def MintArgs.loweredTier (args : MintArgs) : String := Interpreter.lower args.tier

/-- The policy guard. -/
def lockPolicy (args : MintArgs) : Except Exc Unit :=
  let tier := args.loweredTier
  if args.bound then
    if tier ∉ lockable then
      .error ⟨.systemExit, "refusing to hardware-lock a '" ++ tier ++
        "' token: policy binds only ['architect', 'enterprise', 'master'] (§11.9). " ++
        "Use --machine any or --allow-floating for this tier."⟩
    else if tier = "architect" ∧ args.validity ≠ .perpetual then
      .error ⟨.systemExit, "refusing to hardware-lock a SUBSCRIPTION 'architect' token: " ++
        "only Architect-PERPETUAL is node-locked (§11.4). Add --perpetual, or use " ++
        "--machine any."⟩
    else .ok ()
  else .ok ()

variable {F : Type} [PyFloat F]

/-- `json.load` of the entitlements file; its `.get("features")` needs a dict,
and finds no set or tuple in one. -/
def loadEntitlements (file : Option String) : Except Exc (Members F) :=
  match file with
  | none => .ok []
  | some text =>
      match loads (Str.ofString text) with
      | none => .error ⟨.valueError, "JSONDecodeError"⟩
      | some (.obj entitlements) => .ok entitlements
      | some j => .error ⟨.attributeError,
          "'" ++ j.typeName ++ "' object has no attribute 'get'"⟩

/-- `args.license_id or f"lic-{sha256(buyer)[:8]}"`. -/
def licenseIdOf (C : Crypto) (args : MintArgs) : Except Exc Str := do
  let buyer ← encodeUtf8 (Str.ofString args.buyerId)
  pure (match args.licenseId with
    | some s => if s = "" then "lic-" ++ (hexdigest (C.sha256 buyer)).take 8 else s
    | none => "lic-" ++ (hexdigest (C.sha256 buyer)).take 8)

/-- The claims every licence makes. -/
def baseClaims (args : MintArgs) (entitlements : Members F) (licenseId : Str) :
    Members F :=
  [("tier", .str args.loweredTier), ("entitlements", .obj entitlements),
    ("buyer_id", .str args.buyerId), ("customer_ref", .str args.customer),
    ("license_id", .str licenseId), ("fingerprint", .str args.machine),
    ("issued_at", .int args.now),
    ("expires_at", match args.expiresAt with
      | some e => .int e
      | none => .null)]

/-- The claims before they are signed. -/
def mintClaims (args : MintArgs) (entitlements : Members F) (licenseId : Str) :
    Members F :=
  let claims := baseClaims args entitlements licenseId
  if args.allowFloating then dictSet claims "allow_floating" (.bool true) else claims

variable (F) in
/-- `main` of `mint_license.py`: the token it writes, without the newline. -/
def mintToken (C : Crypto) (K : SigningKey) (keyText : Str) (args : MintArgs) :
    Except Exc Str := do
  let seed ← readSeed keyText
  if seed.length ≠ 32 then
    .error ⟨.systemExit, "private key must be a base64 32-byte ed25519 seed"⟩
  else do
    lockPolicy args
    let entitlements : Members F ← loadEntitlements args.entitlements
    let licenseId ← licenseIdOf C args
    let signed ← signClaims C K seed (mintClaims args entitlements licenseId)
    pure (dumps fileOpts (.obj signed))

variable (F) in
/-- The text of the file. -/
def mintLicense (C : Crypto) (K : SigningKey) (keyText : Str) (args : MintArgs) :
    Except Exc Str := do
  pure ((← mintToken F C K keyText args) ++ "\n")

/-! ### What a minted token contains -/

/-- The members of a token the tool writes. -/
structure Minted (C : Crypto) (K : SigningKey) (seed : Bytes) (args : MintArgs)
    (token : Str) (claims signed : Members F) : Prop where
  text : token = dumps fileOpts (.obj signed)
  signs : signClaims C K seed claims = .ok signed
  keyed : (Json.obj signed).Keyed
  tier : dictGet signed "tier" = some (.str args.loweredTier)
  customer : dictGet signed "customer_ref" = some (.str args.customer)
  expires : dictGet signed "expires_at" = some (match args.expiresAt with
    | some e => .int e
    | none => .null)

omit [Interpreter] in
theorem keyed_loadEntitlements {file : Option String} {entitlements : Members F}
    (h : loadEntitlements file = .ok entitlements) : (Json.obj entitlements).Keyed := by
  unfold loadEntitlements at h
  split at h
  · obtain rfl := Except.ok.inj h
    rfl
  · split at h
    · cases h
    · rename_i text ms hloads
      obtain rfl := Except.ok.inj h
      exact (loads_loaded hloads (Str.wellFormed_ofString _)).1
    · cases h

omit [PyFloat F] in
theorem keyed_baseClaims (args : MintArgs) {entitlements : Members F}
    (h : (Json.obj entitlements).Keyed) (licenseId : Str) :
    (Json.obj (baseClaims args entitlements licenseId)).Keyed := by
  have hexpires : (match args.expiresAt with
      | some e => .int e
      | none => .null : Json F).Keyed := by
    rcases args.expiresAt with _ | e
    · rfl
    · rfl
  rw [Json.keyed_obj]
  simp only [baseClaims, List.forall_mem_cons]
  exact ⟨by simp, rfl, h, rfl, rfl, rfl, rfl, rfl, hexpires, by simp⟩

omit [PyFloat F] in
theorem keyed_mintClaims (args : MintArgs) {entitlements : Members F}
    (h : (Json.obj entitlements).Keyed) (licenseId : Str) :
    (Json.obj (mintClaims args entitlements licenseId)).Keyed := by
  have hbase := keyed_baseClaims args h licenseId
  unfold mintClaims
  rcases args.allowFloating with _ | _
  · exact hbase
  · rw [Json.keyed_obj] at hbase ⊢
    refine ⟨dictSet_keys_nodup _ _ hbase.1, fun m hm => ?_⟩
    rcases mem_dictSet hm with rfl | hm
    · rfl
    · exact hbase.2 m hm

omit [PyFloat F] in
/-- The optional member hides no other. -/
theorem dictGet_mintClaims (args : MintArgs) (entitlements : Members F) (licenseId : Str)
    {key : Str} (hkey : key ≠ Str.ofString "allow_floating") :
    dictGet (mintClaims args entitlements licenseId) key =
      dictGet (baseClaims args entitlements licenseId) key := by
  unfold mintClaims
  rcases args.allowFloating with _ | _
  · rfl
  · simp only [if_true]
    rw [dictGet_dictSet, if_neg hkey]

/-- What it takes to mint a token. -/
theorem mintToken_eq_ok {C : Crypto} {K : SigningKey} {keyText : Str} {seed : Bytes}
    (hseed : readSeed keyText = .ok seed) {args : MintArgs} {licenseId token : Str}
    (hlicense : licenseIdOf C args = .ok licenseId) :
    mintToken F C K keyText args = .ok token ↔ seed.length = 32 ∧ lockPolicy args = .ok () ∧
      ∃ entitlements signed : Members F, loadEntitlements args.entitlements = .ok entitlements ∧
        signClaims C K seed (mintClaims args entitlements licenseId) = .ok signed ∧
        token = dumps fileOpts (.obj signed) := by
  simp only [mintToken, hseed, bind_eq_ok, Except.ok.injEq, exists_eq_left']
  by_cases hlength : seed.length = 32
  · simp only [hlength, ne_eq, not_true, if_false, bind_eq_ok, hlicense, Except.ok.injEq,
      exists_eq_left', true_and]
    constructor
    · rintro ⟨_, hpolicy, entitlements, hentitlements, signed, hsigned, h⟩
      exact ⟨hpolicy, entitlements, signed, hentitlements, hsigned, (Except.ok.inj h).symm⟩
    · rintro ⟨hpolicy, entitlements, signed, hentitlements, hsigned, rfl⟩
      exact ⟨_, hpolicy, entitlements, hentitlements, signed, hsigned, rfl⟩
  · rw [if_pos hlength]
    exact iff_of_false nofun fun h => hlength h.1

theorem mintToken_minted {C : Crypto} {K : SigningKey} {keyText : Str} {seed : Bytes}
    (hseed : readSeed keyText = .ok seed) {args : MintArgs} {token : Str}
    (h : mintToken F C K keyText args = .ok token) :
    ∃ claims signed : Members F, Minted C K seed args token claims signed := by
  obtain ⟨bytes, hbytes, hrest⟩ := bind_eq_ok.mp h
  obtain rfl : seed = bytes := Except.ok.inj (hseed.symm.trans hbytes)
  split at hrest
  · cases hrest
  obtain ⟨_, _, hrest⟩ := bind_eq_ok.mp hrest
  obtain ⟨entitlements, hentitlements, hrest⟩ := bind_eq_ok.mp hrest
  obtain ⟨licenseId, _, hrest⟩ := bind_eq_ok.mp hrest
  obtain ⟨signed, hsigned, hrest⟩ := bind_eq_ok.mp hrest
  have hget : ∀ key, key ≠ Str.ofString "signature" →
      key ≠ Str.ofString "allow_floating" →
      dictGet signed key = dictGet (baseClaims args entitlements licenseId) key := by
    intro key hsignature hfloating
    rw [dictGet_signClaims hsigned hsignature, dictGet_mintClaims _ _ _ hfloating]
  refine ⟨_, signed, (Except.ok.inj hrest).symm, hsigned,
    keyed_signClaims hsigned (keyed_mintClaims args
      (keyed_loadEntitlements hentitlements) licenseId), ?_, ?_, ?_⟩
  · rw [hget _ (by decide) (by decide)]
    rfl
  · rw [hget _ (by decide) (by decide)]
    rfl
  · rw [hget _ (by decide) (by decide)]
    rfl

end

end NetplexSupport
