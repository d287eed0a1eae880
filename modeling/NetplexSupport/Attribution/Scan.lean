/-
Licence tokens and the leak scanner: a token whose file is scanned adds at most
a refusal to what the rest of the tree yields, so the scan names its buyer only
where something else in the tree does.
-/
import NetplexSupport.Attribution.Token
import NetplexSupport.Attribution.Verified
import NetplexSupport.Licensing.Registry

namespace NetplexSupport

open Py

section

variable {F : Type} [PyFloat F] [FloatEq F]

/-! ### What a scan returns -/

/-- The attribution of a good licence token to its buyer. -/
def Leak.Names (leak : Leak F) (buyer licenseId : Str) : Prop :=
  ∃ record, leak = .license record ∧ record.ok = true ∧ record.buyerId = .str buyer ∧
    record.licenseId = .str licenseId

/-- The scan returns one. -/
def Found (C : Crypto) (stampTrust : List Str) (ledger : Ledger F) (tree : List LeakFile)
    (buyer licenseId : Str) : Prop :=
  ∃ hits, scanTree C stampTrust ledger tree = .ok hits ∧
    ∃ hit ∈ hits, hit.leak.Names buyer licenseId

/-- Every id in the attributions can be a dict key, and one that names the buyer
is the first with its key. -/
def NamedBy (leaks : List (Str × Leak F)) (buyer licenseId : Str) : Prop :=
  (∀ found ∈ leaks, found.2.ident.hashError = none) ∧
    ∃ found, found.2.Names buyer licenseId ∧
      leaks.find? (fun earlier => earlier.2.sameKey found.2) = some found

instance (leak : Leak F) (buyer licenseId : Str) : Decidable (leak.Names buyer licenseId) :=
  decidable_of_iff
    ((match leak with
      | .license record => record.ok && record.buyerId.isStr buyer &&
          record.licenseId.isStr licenseId
      | _ => false) = true)
    (by cases leak <;> simp [Leak.Names, and_assoc])

omit [PyFloat F] in
theorem Leak.Names.ident_str {leak : Leak F} {buyer licenseId : Str}
    (h : leak.Names buyer licenseId) : ∃ s, leak.ident = .str s := by
  obtain ⟨record, rfl, _, _, hid⟩ := h
  rw [Leak.ident, hid, Json.or]
  split
  · exact ⟨_, rfl⟩
  · exact ⟨_, rfl⟩

omit [PyFloat F] in
theorem Leak.sameKey_iff {a b : Leak F} {s : Str} (hb : b.ident = .str s) :
    a.sameKey b = true ↔ a.kind = b.kind ∧ a.ident = b.ident ∧
      a.signatureKeyId = b.signatureKeyId ∧ a.ok = b.ok := by
  simp only [Leak.sameKey, hb, Bool.and_eq_true, decide_eq_true_eq, Json.keyEq_str_iff,
    and_assoc]

omit [PyFloat F] in
theorem Leak.Names.sameKey_self {leak : Leak F} {buyer licenseId : Str}
    (h : leak.Names buyer licenseId) : leak.sameKey leak = true := by
  obtain ⟨s, hs⟩ := h.ident_str
  exact (Leak.sameKey_iff hs).mpr ⟨rfl, rfl, rfl, rfl⟩

omit [PyFloat F] in
theorem Leak.sameKey_trans {a b c : Leak F} {s : Str} (hc : c.ident = .str s)
    (hab : a.sameKey b = true) (hbc : b.sameKey c = true) : a.sameKey c = true := by
  rw [Leak.sameKey_iff hc] at hbc ⊢
  obtain ⟨hkind, hident, hkey, hok⟩ := hbc
  rw [Leak.sameKey_iff (hident.trans hc)] at hab
  exact ⟨hab.1.trans hkind, hab.2.1.trans hident, hab.2.2.1.trans hkey, hab.2.2.2.trans hok⟩

omit [PyFloat F] in
/-- What one turn of the loop does, when it does not raise. -/
theorem recordLeak_eq_ok {byId byId' : List (LeakHit F)} {found : Str × Leak F}
    (h : recordLeak byId found = .ok byId') :
    found.2.ident.hashError = none ∧ byId' =
      if byId.any fun hit => hit.leak.sameKey found.2 then
        byId.map fun hit => if hit.leak.sameKey found.2 then
          { hit with copies := hit.copies + 1, artifacts := hit.artifacts ++ [found.1] } else hit
      else byId ++ [⟨found.2, 1, [found.1]⟩] := by
  unfold recordLeak at h
  rcases hhash : found.2.ident.hashError with _ | exc
  · simp only [hhash] at h
    exact ⟨rfl, (Except.ok.inj h).symm⟩
  · simp only [hhash] at h
    cases h

omit [PyFloat F] in
/-- Counting a copy leaves the attribution. -/
theorem leak_counted (hit : LeakHit F) (found : Str × Leak F) :
    (if hit.leak.sameKey found.2 then
      { hit with copies := hit.copies + 1, artifacts := hit.artifacts ++ [found.1] } else
        hit).leak = hit.leak := by
  split
  · rfl
  · rfl

omit [PyFloat F] in
/-- One turn of the loop keeps the first attributions of their keys. -/
theorem recordLeak_spec {byId byId' : List (LeakHit F)} {found : Str × Leak F}
    (h : recordLeak byId found = .ok byId') :
    found.2.ident.hashError = none ∧
      byId'.map LeakHit.leak =
        byId.map LeakHit.leak ++
          if byId.any (fun hit => hit.leak.sameKey found.2) then [] else [found.2] := by
  obtain ⟨hhash, rfl⟩ := recordLeak_eq_ok h
  refine ⟨hhash, ?_⟩
  by_cases hany : byId.any (fun hit => hit.leak.sameKey found.2) = true
  · rw [if_pos hany, if_pos hany, List.map_map, List.append_nil]
    exact List.map_congr_left fun hit _ => leak_counted hit found
  · rw [if_neg hany, if_neg hany, List.map_append]
    rfl

omit [PyFloat F] in
/-- With some attributions in the dict, the rest brings one that names the
buyer, or there is one. -/
def NamedFrom (known : List (Leak F)) (leaks : List (Str × Leak F))
    (buyer licenseId : Str) : Prop :=
  (∃ leak ∈ known, leak.Names buyer licenseId) ∨
    ∃ found, found.2.Names buyer licenseId ∧
      leaks.find? (fun earlier => earlier.2.sameKey found.2) = some found ∧
      ∀ leak ∈ known, leak.sameKey found.2 = false

omit [PyFloat F] in
/-- An attribution whose key is in the dict changes nothing. -/
theorem namedFrom_known {known : List (Leak F)} {leak : Leak F} (hleak : leak ∈ known)
    {first : Str × Leak F} (hsame : leak.sameKey first.2 = true)
    {leaks : List (Str × Leak F)} {buyer licenseId : Str} :
    NamedFrom known leaks buyer licenseId ↔
      NamedFrom known (first :: leaks) buyer licenseId := by
  apply or_congr_right
  apply exists_congr
  intro found
  apply and_congr_right
  intro hnames
  apply and_congr_left
  intro hold
  have hfirst : first.2.sameKey found.2 = false := by
    by_contra hkey
    obtain ⟨s, hs⟩ := hnames.ident_str
    have hold := hold leak hleak
    rw [Leak.sameKey_trans hs hsame (by simpa using hkey)] at hold
    cases hold
  rw [List.find?_cons_of_neg (by simpa using hfirst)]

omit [PyFloat F] in
/-- One with a new key enters the dict. -/
theorem namedFrom_new {known : List (Leak F)} {first : Str × Leak F}
    (hnew : ∀ leak ∈ known, leak.sameKey first.2 = false)
    {leaks : List (Str × Leak F)} {buyer licenseId : Str} :
    NamedFrom (known ++ [first.2]) leaks buyer licenseId ↔
      NamedFrom known (first :: leaks) buyer licenseId := by
  unfold NamedFrom
  constructor
  · rintro (⟨leak, hleak, hnames⟩ | ⟨found, hnames, hfind, hold⟩)
    · rcases List.mem_append.mp hleak with hleak | hleak
      · exact Or.inl ⟨leak, hleak, hnames⟩
      · obtain rfl := List.mem_singleton.mp hleak
        exact Or.inr ⟨first, hnames, List.find?_cons_of_pos hnames.sameKey_self, hnew⟩
    · rw [List.forall_mem_append, List.forall_mem_singleton] at hold
      refine Or.inr ⟨found, hnames, ?_, hold.1⟩
      rw [List.find?_cons_of_neg (by simpa using hold.2)]
      exact hfind
  · rintro (⟨leak, hleak, hnames⟩ | ⟨found, hnames, hfind, hold⟩)
    · exact Or.inl ⟨leak, List.mem_append_left _ hleak, hnames⟩
    · by_cases hfirst : first.2.sameKey found.2 = true
      · obtain rfl : first = found := by simpa [List.find?_cons, hfirst] using hfind
        exact Or.inl ⟨first.2, List.mem_append_right _ (List.mem_singleton_self _), hnames⟩
      · refine Or.inr ⟨found, hnames, by simpa [List.find?_cons, hfirst] using hfind, ?_⟩
        rw [List.forall_mem_append, List.forall_mem_singleton]
        exact ⟨hold, by simpa using hfirst⟩

omit [PyFloat F] in
/-- What the loop returns, from any state of it. -/
theorem foldlM_recordLeak_iff {byId : List (LeakHit F)} {leaks : List (Str × Leak F)}
    {buyer licenseId : Str} :
    (∃ hits, leaks.foldlM recordLeak byId = .ok hits ∧
      ∃ hit ∈ hits, hit.leak.Names buyer licenseId) ↔
    (∀ found ∈ leaks, found.2.ident.hashError = none) ∧
      NamedFrom (byId.map LeakHit.leak) leaks buyer licenseId := by
  induction leaks generalizing byId with
  | nil => simp [pure, Except.pure, NamedFrom]
  | cons first leaks ih =>
      rw [List.foldlM_cons, List.forall_mem_cons]
      rcases hrecord : recordLeak byId first with exc | byId'
      · have hhash : first.2.ident.hashError ≠ none := by
          intro hnone
          simp [recordLeak, hnone] at hrecord
        refine iff_of_false ?_ fun h => hhash h.1.1
        rintro ⟨hits, h, _⟩
        cases h
      · obtain ⟨hhash, hleaks⟩ := recordLeak_spec hrecord
        have hbind : (Except.ok byId' >>= fun byId' => leaks.foldlM recordLeak byId') =
            leaks.foldlM recordLeak byId' := rfl
        rw [hbind, ih, hleaks, and_assoc, and_iff_right hhash]
        apply and_congr_right
        intro _
        by_cases hany : byId.any (fun hit => hit.leak.sameKey first.2) = true
        · obtain ⟨hit, hmem, hsame⟩ := List.any_eq_true.mp hany
          rw [if_pos hany, List.append_nil]
          exact namedFrom_known (List.mem_map_of_mem hmem) hsame
        · rw [if_neg hany]
          apply namedFrom_new
          intro leak hleak
          obtain ⟨hit, hmem, rfl⟩ := List.mem_map.mp hleak
          exact Bool.eq_false_iff.mpr fun hsame =>
            hany (List.any_eq_true.mpr ⟨hit, hmem, hsame⟩)

theorem found_iff_namedBy {C : Crypto} {stampTrust : List Str} {ledger : Ledger F}
    {tree : List LeakFile} {buyer licenseId : Str} :
    Found C stampTrust ledger tree buyer licenseId ↔
      NamedBy (leaksOf C stampTrust ledger tree) buyer licenseId := by
  rw [Found, scanTree, foldlM_recordLeak_iff, NamedBy]
  simp [NamedFrom]

omit [PyFloat F] in
/-- A refusal names nobody and hides nobody. -/
theorem namedBy_notJson {before after : List (Str × Leak F)} {path buyer licenseId : Str} :
    NamedBy (before ++ (path, .notJson) :: after) buyer licenseId ↔
      NamedBy (before ++ after) buyer licenseId := by
  have hhash : (Leak.notJson (F := F)).ident.hashError = none := rfl
  unfold NamedBy
  apply and_congr
  · rw [List.forall_mem_append, List.forall_mem_append, List.forall_mem_cons,
      and_iff_right hhash]
  · apply exists_congr
    intro found
    apply and_congr_right
    intro hnames
    have hkey : (Leak.notJson (F := F)).sameKey found.2 = false := by
      obtain ⟨record, hrecord, _⟩ := hnames
      rw [hrecord]
      rfl
    rw [List.find?_append, List.find?_append, List.find?_cons_of_neg (by simpa using hkey)]

end

/-! ### A signature in a file -/

theorem utf8_closingObject (a b : Str) :
    utf8 (closingObject a b) = utf8 a ++ 123 :: (utf8 b ++ 125 :: [125]) := by
  rw [closingObject, utf8_append, utf8_open, utf8_append, utf8_close, utf8_close]
  rfl

/-- An opening brace behind brace-free bytes is one of the text that follows
them. -/
theorem brace_of_bytes {pre u v : Bytes} {s : Str} (hs : Str.WellFormed s)
    (hpre : BraceFree pre) (h : pre ++ utf8 s = u ++ 123 :: v) :
    ∃ t t', s = t ++ ch '{' :: t' ∧ utf8 t' = v := by
  have hopen : (123 : UInt8) ∉ pre := fun hmem => absurd (hpre 123 hmem) (by decide)
  obtain ⟨u', _, hbytes⟩ := cut_right hopen h
  obtain ⟨t, t', ht, _, ht', _, _⟩ := cut_open hs hbytes
  exact ⟨t, t', ht, ht'⟩

/-- A file whose text ends with a signature has the matches of the text before
it, and perhaps one that begins at the last brace of that. -/
theorem leakBlobs_signature {head sep block : Str}
    (hwell : Str.WellFormed (head ++ closingObject sep block))
    (hsep : TextBraceFree sep) (hblock : TextBraceFree block) {pre post : Bytes}
    (hpre : BraceFree pre) (hpost : BraceFree post)
    (hsize : (pre ++ utf8 (head ++ closingObject sep block) ++ post).length < readLimit)
    (path : Str) :
    let scanned :=
      leakBlobs (path, some (pre ++ utf8 (head ++ closingObject sep block) ++ post))
    let before := leakBlobs (path, some (pre ++ utf8 head))
    scanned = before ∨ ∃ u v, head = u ++ ch '{' :: v ∧ ch '}' ∉ v ∧
      scanned = before ++ [utf8 (ch '{' :: (v ++ closingObject sep block))] := by
  intro scanned before
  obtain ⟨hhead, hrest⟩ := Str.wellFormed_append.mp hwell
  obtain ⟨hsepWell, hblockWell⟩ := Str.wellFormed_append.mp hrest
  have hsepFree : BraceFree (utf8 sep) := (braceFree_utf8 hsepWell).mpr hsep
  have hblockFree : BraceFree (utf8 block) := by
    refine (braceFree_utf8 fun c hc => hblockWell c ?_).mpr hblock
    simp [hc]
  have hcontent : pre ++ utf8 (head ++ closingObject sep block) ++ post =
      (pre ++ utf8 head) ++
        (utf8 sep ++ 123 :: (utf8 block ++ 125 :: ([] ++ 125 :: post))) := by
    rw [utf8_append, utf8_closingObject]
    simp
  rw [hcontent] at hsize
  have hscanned : scanned = Regex.finditer leakPattern ((pre ++ utf8 head) ++
      (utf8 sep ++ 123 :: (utf8 block ++ 125 :: ([] ++ 125 :: post)))) := by
    rw [← List.take_of_length_le hsize.le, ← hcontent]
    rfl
  have hbefore : before = Regex.finditer leakPattern (pre ++ utf8 head) := by
    rw [List.length_append] at hsize
    rw [← List.take_of_length_le (show (pre ++ utf8 head).length ≤ readLimit by omega)]
    rfl
  rw [hscanned, hbefore]
  rcases finditer_behind hsepFree hblockFree (c := []) (by simp [BraceFree]) hpost
    (pre ++ utf8 head) with hsame | ⟨u, v, hx, hv, hmore⟩
  · exact Or.inl hsame
  · obtain ⟨t, t', rfl, rfl⟩ := brace_of_bytes hhead hpre hx
    have hfree := (braceFree_utf8 fun c hc => hhead c (by simp [hc])).mp hv
    refine Or.inr ⟨t, t', rfl, fun hmem => (hfree _ hmem).2 rfl, ?_⟩
    have hblob : utf8 (ch '{' :: (t' ++ closingObject sep block)) =
        nested (utf8 t' ++ utf8 sep) (utf8 block) [] := by
      rw [utf8_open, utf8_append, utf8_closingObject]
      simp [nested]
    rw [hmore, hblob]

section

variable {F : Type} [PyFloat F] [FloatEq F]

/-! ### A token in a file -/

omit [FloatEq F] in
/-- A minted token is the unsigned claims, still open, and the signature. -/
theorem mintToken_text [Interpreter] {C : Crypto} {K : SigningKey} {keyText : Str}
    {args : MintArgs} {token : Str} (hmint : mintToken F C K keyText args = .ok token)
    {entitlements : Members F} (hentitlements : loadEntitlements args.entitlements =
      .ok entitlements) {licenseId : Str} (hlicense : licenseIdOf C args = .ok licenseId) :
    ∃ seed message, token = openText (mintClaims args entitlements licenseId) ++
      (memberText (F := F) fileOpts
        ("signature", .obj (signatureBlock C K seed message)) ++ [ch '}']) := by
  obtain ⟨seed, _, hrest⟩ := bind_eq_ok.mp hmint
  split at hrest
  · cases hrest
  obtain ⟨_, _, hrest⟩ := bind_eq_ok.mp hrest
  obtain ⟨entitlements', hentitlements', hrest⟩ := bind_eq_ok.mp hrest
  obtain ⟨licenseId', hlicense', hrest⟩ := bind_eq_ok.mp hrest
  obtain ⟨signed, hsigned, hrest⟩ := bind_eq_ok.mp hrest
  obtain rfl : entitlements' = entitlements :=
    Except.ok.inj (hentitlements'.symm.trans hentitlements)
  obtain rfl : licenseId' = licenseId := Except.ok.inj (hlicense'.symm.trans hlicense)
  obtain ⟨message, _, rfl⟩ := signClaims_eq_ok.mp hsigned
  have hnew : Str.ofString "signature" ∉
      (mintClaims args entitlements' licenseId').map Prod.fst := by
    rw [mintClaims_eq, flatClaims]
    rcases args.allowFloating with _ | _
    · simp only [Bool.false_eq_true, if_false, List.map_cons, List.map_nil]
      decide
    · simp only [if_true, List.map_cons, List.map_nil]
      decide
  refine ⟨seed, message, ?_⟩
  rw [← Except.ok.inj hrest, dictSet_new _ _ _ hnew]
  exact dumps_append (by rw [mintClaims_eq]; simp) _

/-- Scanning a file with a token yields what scanning it up to the signature
yields, and perhaps a refusal. -/
theorem leaksOf_token [Interpreter] {C : Crypto} {K : SigningKey} {keyText : Str}
    {args : MintArgs} {token : Str} (hmint : mintToken F C K keyText args = .ok token)
    {entitlements : Members F} (hentitlements : loadEntitlements args.entitlements =
      .ok entitlements) {licenseId : Str} (hlicense : licenseIdOf C args = .ok licenseId)
    {bytes : Bytes} (hbytes : encodeUtf8 token = .ok bytes) {pre post : Bytes}
    (hpre : BraceFree pre) (hpost : BraceFree post)
    (hsize : (pre ++ bytes ++ post).length < readLimit) (stampTrust : List Str)
    (ledger : Ledger F) (path : Str) :
    let scanned := leaksOf C stampTrust ledger [(path, some (pre ++ bytes ++ post))]
    let before := leaksOf C stampTrust ledger
      [(path, some (pre ++ utf8 (openText (mintClaims args entitlements licenseId))))]
    scanned = before ∨ scanned = before ++ [(path, .notJson)] := by
  intro scanned before
  obtain ⟨seed, message, rfl⟩ := mintToken_text hmint hentitlements hlicense
  obtain ⟨hwell, rfl⟩ := encodeUtf8_eq_ok_iff.mp hbytes
  have hsignature : memberText (F := F) fileOpts
      ("signature", .obj (signatureBlock C K seed message)) ++ [ch '}'] =
      closingObject ",\"signature\":" (blockText (F := F) C K seed message) :=
    signatureText_eq
  rw [hsignature] at hwell hsize
  have hone : ∀ content, leaksOf C stampTrust ledger [(path, content)] =
      (leakBlobs (path, content)).filterMap fun blob =>
        (leakOf C stampTrust ledger blob).map fun leak => (path, leak) := fun content =>
    List.append_nil _
  simp only [scanned, before, hone, hsignature]
  rcases leakBlobs_signature hwell (by decide +kernel) textBraceFree_blockText hpre hpost
    hsize path with hsame | ⟨u, v, hopen, hv, hmore⟩
  · exact Or.inl (by rw [hsame])
  · right
    have hjunk : leakOf C stampTrust ledger (utf8 (ch '{' :: (v ++ closingObject
        ",\"signature\":" (blockText (F := F) C K seed message)))) = some .notJson := by
      have htext : Str.WellFormed (ch '{' :: (v ++ closingObject ",\"signature\":"
          (blockText (F := F) C K seed message))) := by
        rw [hopen, List.append_assoc] at hwell
        exact (Str.wellFormed_append.mp hwell).2
      rw [leakOf, decodeUtf8_utf8 htext, Option.bind_some, ← hsignature, attributeToken,
        loads_before_signature hopen hv]
      rfl
    rw [hmore, List.filterMap_append]
    simp [hjunk]

theorem leaksOf_append {C : Crypto} {stampTrust : List Str} {ledger : Ledger F}
    {tree tree' : List LeakFile} :
    leaksOf C stampTrust ledger (tree ++ tree') =
      leaksOf C stampTrust ledger tree ++ leaksOf C stampTrust ledger tree' :=
  List.flatMap_append

/-- A file that is one match. -/
theorem leaksOf_match {C : Crypto} {stampTrust : List Str} {ledger : Ledger F}
    {path text : Str} {leak : Leak F} (hwell : Str.WellFormed text)
    (hblobs : leakBlobs (path, some (utf8 text)) = [utf8 text])
    (hleak : attributeToken C stampTrust ledger text = .ok leak) :
    leaksOf C stampTrust ledger [(path, some (utf8 text))] = [(path, leak)] := by
  have hone : leakOf C stampTrust ledger (utf8 text) = some leak := by
    rw [leakOf, decodeUtf8_utf8 hwell, Option.bind_some, hleak]
    rfl
  rw [leaksOf, List.flatMap_singleton, hblobs, List.filterMap_cons_some (b := (path, leak))
    (by rw [hone, Option.map_some]), List.filterMap_nil]

omit [PyFloat F] in
/-- What the first attribution names is returned, if the others can be filed. -/
theorem namedBy_cons {found : Str × Leak F} {others : List (Str × Leak F)}
    {buyer licenseId : Str} (hnames : found.2.Names buyer licenseId)
    (hothers : ∀ other ∈ others, other.2.ident.hashError = none) :
    NamedBy (found :: others) buyer licenseId := by
  obtain ⟨ident, hident⟩ : ∃ ident, found.2.ident = .str ident := by
    obtain ⟨record, hfound, -, -, hlicense⟩ := hnames
    rw [hfound, Leak.ident, hlicense, Json.or]
    by_cases htruthy : (Json.str (F := F) licenseId).truthy
    · exact ⟨_, if_pos htruthy⟩
    · exact ⟨_, if_neg htruthy⟩
  have hself : found.2.sameKey found.2 = true := by
    simp only [Leak.sameKey, hident, Json.keyEq_str_iff.mpr, decide_true, Bool.and_true]
  refine ⟨?_, found, hnames, List.find?_cons_of_pos hself⟩
  rw [List.forall_mem_cons]
  exact ⟨by rw [hident]; rfl, hothers⟩

/-- A scan names the buyer of a token in the tree exactly when the tree without
the token's signature does. -/
theorem token_found_iff [Interpreter] {C : Crypto} {K : SigningKey} {keyText : Str}
    {args : MintArgs} {token : Str} (hmint : mintToken F C K keyText args = .ok token)
    {entitlements : Members F} (hentitlements : loadEntitlements args.entitlements =
      .ok entitlements) {licenseId : Str} (hlicense : licenseIdOf C args = .ok licenseId)
    {bytes : Bytes} (hbytes : encodeUtf8 token = .ok bytes) {pre post : Bytes}
    (hpre : BraceFree pre) (hpost : BraceFree post)
    (hsize : (pre ++ bytes ++ post).length < readLimit) (stampTrust : List Str)
    (ledger : Ledger F) (before after : List LeakFile) (path : Str) :
    Found C stampTrust ledger (before ++ (path, some (pre ++ bytes ++ post)) :: after)
        args.buyerId licenseId ↔
      NamedBy (leaksOf C stampTrust ledger (before ++ (path,
        some (pre ++ utf8 (openText (mintClaims args entitlements licenseId)))) :: after))
        args.buyerId licenseId := by
  have hsplit : ∀ content, leaksOf C stampTrust ledger (before ++ (path, content) :: after) =
      leaksOf C stampTrust ledger before ++ (leaksOf C stampTrust ledger [(path, content)] ++
        leaksOf C stampTrust ledger after) := by
    intro content
    rw [← List.singleton_append, leaksOf_append, leaksOf_append]
  rw [found_iff_namedBy, hsplit, hsplit]
  rcases leaksOf_token hmint hentitlements hlicense hbytes hpre hpost hsize stampTrust ledger
    path with hsame | hmore
  · rw [hsame]
  · rw [hmore, List.append_assoc, List.singleton_append, ← List.append_assoc,
      namedBy_notJson, List.append_assoc]

end

section

attribute [local instance] FloatView.asFloat FloatView.asFloatEq Interpreter.ascii

/-- A day's licence of `acme`, signed with the pinned key. -/
def pinnedToken : Except Exc Str :=
  mintToken FloatView pinnedKey.crypto pinnedKey.signingKey recordedSeedText (teamLicence 1)

/-- The same buyer and licence, signed without entitlements. -/
def flatLicence : Except Exc Bytes := do
  let signed ← signClaims (F := FloatView) pinnedKey.crypto pinnedKey.signingKey pinnedKey.seed
    [("buyer_id", .str "acme"), ("license_id", .str "lic-1")]
  encodeUtf8 (dumps fileOpts (.obj signed))

/-- With a flat licence of the same ids beside the token the scan names them. -/
theorem token_found_iff_flat :
    ∃ token bytes flat, pinnedToken = .ok token ∧ encodeUtf8 token = .ok bytes ∧
      flatLicence = .ok flat ∧
      Found (F := FloatView) pinnedKey.crypto [] [] [("flat", some flat), ("token", some bytes)]
        "acme" "lic-1" ∧
      NamedBy (F := FloatView) (leaksOf pinnedKey.crypto [] [] [("flat", some flat),
        ("token", some (utf8 (openText (mintClaims (F := FloatView) (teamLicence 1) []
          "lic-1"))))]) "acme" "lic-1" := by
  have hrun : (do
      let token ← pinnedToken
      let bytes ← encodeUtf8 token
      pure (decide (bytes.length < readLimit))) = Except.ok (ε := Exc) true := by decide +kernel
  have hflatRun : (do
      let signed ← signClaims (F := FloatView) pinnedKey.crypto pinnedKey.signingKey
        pinnedKey.seed [("buyer_id", .str "acme"), ("license_id", .str "lic-1")]
      let leak ← attributeToken (F := FloatView) pinnedKey.crypto [] []
        (dumps fileOpts (.obj signed))
      pure (decide (Str.WellFormed (dumps fileOpts (.obj signed)) ∧
        leakBlobs ("flat", some (utf8 (dumps fileOpts (.obj signed)))) =
          [utf8 (dumps fileOpts (.obj signed))] ∧
        leak.Names (Str.ofString "acme") (Str.ofString "lic-1")))) =
      Except.ok (ε := Exc) true := by decide +kernel
  obtain ⟨token, htoken, hrun⟩ := bind_eq_ok.mp hrun
  obtain ⟨bytes, hbytes, hrun⟩ := bind_eq_ok.mp hrun
  have hsize := of_decide_eq_true (Except.ok.inj hrun)
  obtain ⟨signed, hsigned, hrun⟩ := bind_eq_ok.mp hflatRun
  obtain ⟨leak, hleak, hrun⟩ := bind_eq_ok.mp hrun
  obtain ⟨hwell, hmatch, hnames⟩ := of_decide_eq_true (Except.ok.inj hrun)
  have hflat : flatLicence = .ok (utf8 (dumps fileOpts (.obj signed))) :=
    bind_eq_ok.mpr ⟨signed, hsigned, encodeUtf8_eq_ok_iff.mpr ⟨hwell, rfl⟩⟩
  have hentitlements : loadEntitlements (F := FloatView) (teamLicence 1).entitlements =
      .ok [] := rfl
  have hlicense : licenseIdOf pinnedKey.crypto (teamLicence 1) = .ok (Str.ofString "lic-1") := by
    decide +kernel
  have hfree : BraceFree [] := by simp [BraceFree]
  have hcontent : ([] ++ bytes ++ [] : Bytes).length < readLimit := by simpa using hsize
  have h := token_found_iff htoken hentitlements hlicense hbytes hfree hfree hcontent [] []
    [("flat", some (utf8 (dumps fileOpts (.obj signed))))] [] "token"
  rw [List.nil_append, List.append_nil] at h
  have hopen : leakBlobs ("token", some (utf8 (openText (mintClaims (F := FloatView)
      (teamLicence 1) [] "lic-1")))) = [] := by decide +kernel
  have hnamed : NamedBy (leaksOf (F := FloatView) pinnedKey.crypto [] []
      [("flat", some (utf8 (dumps fileOpts (.obj signed)))),
        ("token", some (utf8 (openText (mintClaims (F := FloatView) (teamLicence 1) []
          "lic-1"))))]) "acme" "lic-1" := by
    rw [← List.singleton_append, leaksOf_append, leaksOf_match hwell hmatch hleak]
    refine namedBy_cons hnames ?_
    simp [leaksOf, hopen]
  exact ⟨token, bytes, _, htoken, hbytes, hflat, h.mpr hnamed, hnamed⟩

/-- A token alone in its file is good, and the scan returns nothing. -/
theorem token_lost_acme :
    ∃ token bytes, pinnedToken = .ok token ∧ encodeUtf8 token = .ok bytes ∧
      b64e (pinnedKey.signingKey.verifyKey pinnedKey.seed) ∈ TRUST ∧
      bytes.length < readLimit ∧
      (∃ leak, attributeToken (F := FloatView) pinnedKey.crypto [] [] token = .ok leak ∧
        leak.Names "acme" "lic-1") ∧
      scanTree (F := FloatView) pinnedKey.crypto [] [] [("token", some bytes)] = .ok [] ∧
      ¬ Found (F := FloatView) pinnedKey.crypto [] [] [("token", some bytes)]
        "acme" "lic-1" := by
  have hrun : (do
      let token ← pinnedToken
      let bytes ← encodeUtf8 token
      let leak ← attributeToken (F := FloatView) pinnedKey.crypto [] [] token
      let hits ← scanTree (F := FloatView) pinnedKey.crypto [] [] [("token", some bytes)]
      pure (decide (bytes.length < readLimit ∧
        leak.Names (Str.ofString "acme") (Str.ofString "lic-1") ∧ hits.isEmpty = true))) =
      Except.ok (ε := Exc) true := by decide +kernel
  obtain ⟨token, htoken, hrun⟩ := bind_eq_ok.mp hrun
  obtain ⟨bytes, hbytes, hrun⟩ := bind_eq_ok.mp hrun
  obtain ⟨leak, hleak, hrun⟩ := bind_eq_ok.mp hrun
  obtain ⟨hits, hscan, hrun⟩ := bind_eq_ok.mp hrun
  obtain ⟨hsize, hnames, hempty⟩ := of_decide_eq_true (Except.ok.inj hrun)
  obtain rfl := List.isEmpty_iff.mp hempty
  refine ⟨token, bytes, htoken, hbytes, by decide +kernel, hsize, ⟨leak, hleak, hnames⟩,
    hscan, ?_⟩
  rintro ⟨hits, hscan', hit, hmem, _⟩
  obtain rfl := Except.ok.inj (hscan.symm.trans hscan')
  cases hmem

end

end NetplexSupport
