/-
The stamps that survive in a leaked tree.  A stamp whose strings are free of
braces, and which the scanner reads to its end, is found in every file that is
left of it, and all of them are counted in one record; any other is never found.
-/
import NetplexSupport.Attribution.Scan
import NetplexSupport.Attribution.StampText

namespace NetplexSupport

open Py

/-! ### One record for all copies -/

section

variable {F : Type} [FloatEq F]

omit [FloatEq F] in
def Leak.isStamp : Leak F → Bool
  | .stamp _ => true
  | _ => false

/-- The record of what was found at some paths, if at any. -/
def tally (leak : Leak F) (paths : List Str) : List (LeakHit F) :=
  if paths = [] then [] else [⟨leak, paths.length, paths⟩]

theorem Leak.sameKey_isStamp {a b : Leak F} (h : a.sameKey b = true) :
    a.isStamp = b.isStamp := by
  have hkind : a.kind = b.kind := by
    simp only [Leak.sameKey, Bool.and_eq_true, decide_eq_true_eq] at h
    exact h.1.1.1
  have hstamp : ∀ leak : Leak F, leak.isStamp = decide (leak.kind = some "download-stamp") := by
    intro leak
    cases leak with
    | notJson => rfl
    | stamp record => rfl
    | license record =>
        have hne : Str.ofString "license-token" ≠ "download-stamp" := by decide
        exact (decide_eq_false fun heq => hne (Option.some.inj heq)).symm
  rw [hstamp, hstamp, hkind]

/-- One turn of the loop counts a stamp, and leaves the stamps alone at anything
else. -/
theorem recordLeak_stamps {leak : Leak F} (hstamp : leak.isStamp = true)
    (hself : leak.sameKey leak = true) {byId byId' : List (LeakHit F)} {paths : List Str}
    (hby : byId.filter (fun hit => hit.leak.isStamp) = tally leak paths) {found : Str × Leak F}
    (hfound : found.2.isStamp = true → found.2 = leak) (h : recordLeak byId found = .ok byId') :
    byId'.filter (fun hit => hit.leak.isStamp) =
      tally leak (paths ++ if found.2.isStamp then [found.1] else []) := by
  obtain ⟨path, leak'⟩ := found
  obtain ⟨-, rfl⟩ := recordLeak_eq_ok h
  have hkeep := fun hit : LeakHit F => congrArg Leak.isStamp (leak_counted hit (path, leak'))
  by_cases hleak : leak'.isStamp = true
  · obtain rfl : leak' = leak := hfound hleak
    simp only [hleak, if_true]
    by_cases hany : byId.any (fun hit => hit.leak.sameKey leak') = true
    · -- Another copy of a stamp that is there.
      obtain ⟨hit, hmem, hsame⟩ := List.any_eq_true.mp hany
      have hpaths : paths ≠ [] := by
        rintro rfl
        have hthere : hit ∈ byId.filter fun hit => hit.leak.isStamp :=
          List.mem_filter.mpr ⟨hmem, by rw [Leak.sameKey_isStamp hsame, hleak]⟩
        rw [hby] at hthere
        cases hthere
      rw [if_pos hany, List.filter_map]
      simp only [Function.comp_def, hkeep, hby]
      simp [tally, hpaths, hself]
    · have hpaths : paths = [] := by
        by_contra hne
        have hmem : (⟨leak', paths.length, paths⟩ : LeakHit F) ∈
            byId.filter fun hit => hit.leak.isStamp := by
          rw [hby, tally, if_neg hne]
          exact List.mem_singleton_self _
        exact hany (List.any_eq_true.mpr ⟨_, (List.mem_filter.mp hmem).1, hself⟩)
      rw [if_neg hany, List.filter_append, hby, hpaths]
      simp [tally, hleak]
  · simp only [hleak, Bool.false_eq_true, if_false, List.append_nil]
    rw [← hby]
    split
    · -- What is counted has another kind.
      have hother : ∀ hit ∈ byId.filter (fun hit => hit.leak.isStamp),
          hit.leak.sameKey leak' = false := by
        intro hit hmem
        by_contra hsame
        have hkind := Leak.sameKey_isStamp (by simpa using hsame)
        rw [(List.mem_filter.mp hmem).2] at hkind
        exact hleak hkind.symm
      rw [List.filter_map]
      simp only [Function.comp_def, hkeep]
      conv_rhs => rw [← List.map_id (byId.filter _)]
      apply List.map_congr_left
      intro hit hmem
      simp [hother hit hmem]
    · rw [List.filter_append]
      simp [hleak]

/-- The loop ends when every id can be a key, and then it has one record for all
the stamps it met. -/
theorem foldlM_recordLeak_stamps {leak : Leak F} (hstamp : leak.isStamp = true)
    (hself : leak.sameKey leak = true) {leaks : List (Str × Leak F)}
    (hleaks : ∀ found ∈ leaks, found.2.isStamp = true → found.2 = leak)
    {byId : List (LeakHit F)} {paths : List Str}
    (hby : byId.filter (fun hit => hit.leak.isStamp) = tally leak paths) :
    ((∃ hits, leaks.foldlM recordLeak byId = .ok hits) ↔
      ∀ found ∈ leaks, found.2.ident.hashError = none) ∧
    ∀ hits, leaks.foldlM recordLeak byId = .ok hits →
      hits.filter (fun hit => hit.leak.isStamp) =
        tally leak (paths ++ (leaks.filter fun found => found.2.isStamp).map Prod.fst) := by
  induction leaks generalizing byId paths with
  | nil =>
      refine ⟨by simp [pure, Except.pure], fun hits h => ?_⟩
      obtain rfl := Except.ok.inj h
      simpa using hby
  | cons found leaks ih =>
      rw [List.forall_mem_cons] at hleaks
      rw [List.foldlM_cons, List.forall_mem_cons]
      rcases hrecord : recordLeak byId found with exc | byId'
      · have hhash : found.2.ident.hashError ≠ none := by
          intro hnone
          simp [recordLeak, hnone] at hrecord
        refine ⟨iff_of_false ?_ fun h => hhash h.1, ?_⟩
        · rintro ⟨hits, h⟩
          cases h
        · intro hits h
          cases h
      · have hbind : (Except.ok byId' >>= fun byId' => leaks.foldlM recordLeak byId') =
            leaks.foldlM recordLeak byId' := rfl
        obtain ⟨hends, hcount⟩ :=
          ih hleaks.2 (recordLeak_stamps hstamp hself hby hleaks.1 hrecord)
        rw [hbind, hends, and_iff_right (recordLeak_spec hrecord).1]
        refine ⟨Iff.rfl, fun hits h => ?_⟩
        rw [hcount hits h, List.append_assoc, List.filter_cons]
        split
        · rfl
        · rfl

end

/-! ### The rest of the tree -/

section

variable {F : Type} [PyFloat F]

/-- The scanner meets an object with these claims. -/
def Scanned (files : List LeakFile) (claims : Members F) : Prop :=
  ∃ file ∈ files, ∃ blob ∈ leakBlobs file, ∃ text, decodeUtf8 blob = some text ∧
    loads text = some (.obj claims)

variable (F) in
/-- No stamp is among them. -/
def StampFree (files : List LeakFile) : Prop :=
  ∀ claims : Members F, Scanned files claims →
    (claimOf claims "type").isStr STAMP_TYPE = false

variable [FloatEq F]

/-- What a licence token is counted under. -/
def tokenId (claims : Members F) : Json F :=
  ((claimOf claims "license_id").or (claimOf claims "jti")).or (.str "?")

variable (F) in
/-- Where the signature can be read, the id of a token can be a dict key. -/
def KeyableIds (files : List LeakFile) : Prop :=
  ∀ claims : Members F, Scanned files claims → ∀ sig, sigOf claims = .ok sig →
    (tokenId claims).hashError = none

variable {C : Crypto}

/-- What a scan does with the stamps it meets. -/
theorem scanTree_stamps {leak : Leak F} (hstamp : leak.isStamp = true)
    (hself : leak.sameKey leak = true) {stampTrust : List Str} {ledger : Ledger F}
    {files : List LeakFile} (hleaks : ∀ found ∈ leaksOf C stampTrust ledger files,
      found.2.isStamp = true → found.2 = leak) :
    ((∃ hits, scanTree C stampTrust ledger files = .ok hits) ↔
      ∀ found ∈ leaksOf C stampTrust ledger files, found.2.ident.hashError = none) ∧
    ∀ hits, scanTree C stampTrust ledger files = .ok hits →
      hits.filter (fun hit => hit.leak.isStamp) = tally leak
        (((leaksOf C stampTrust ledger files).filter fun found => found.2.isStamp).map
          Prod.fst) :=
  foldlM_recordLeak_stamps hstamp hself hleaks
    (show [].filter (fun hit : LeakHit F => hit.leak.isStamp) = tally leak [] from rfl)

theorem mem_leaksOf {stampTrust : List Str} {ledger : Ledger F} {files : List LeakFile}
    {found : Str × Leak F} :
    found ∈ leaksOf C stampTrust ledger files ↔ ∃ file ∈ files, ∃ blob ∈ leakBlobs file,
      leakOf C stampTrust ledger blob = some found.2 ∧ file.1 = found.1 := by
  obtain ⟨path, leak⟩ := found
  simp only [leaksOf, List.mem_flatMap, List.mem_filterMap, Option.map_eq_some_iff,
    Prod.mk.injEq]
  constructor
  · rintro ⟨file, hfile, blob, hblob, leak', hleak, hpath, rfl⟩
    exact ⟨file, hfile, blob, hblob, hleak, hpath⟩
  · rintro ⟨file, hfile, blob, hblob, hleak, hpath⟩
    exact ⟨file, hfile, blob, hblob, leak, hleak, hpath, rfl⟩

/-- A token is attributed when its signature can be read. -/
theorem attributeLicense_isOk
    {VerifyKey : Bytes → Except Exc (Bytes → Bytes → Except Exc Unit)}
    (hC : C.VerifyKey = some VerifyKey) (claims : Members F) :
    (∃ sig, sigOf claims = .ok sig) ↔ ∃ record, attributeLicense C claims = .ok record := by
  simp only [attributeLicense, verifyPinned, hC, bind_eq_ok]
  constructor
  · rintro ⟨sig, hsig⟩
    rcases hkey : TRUST.findSome? fun pub =>
      (checkPinned VerifyKey claims sig pub).toOption with _ | pub
    · exact ⟨_, (false, _), ⟨sig, hsig, by rw [hkey]; rfl⟩, rfl⟩
    · exact ⟨_, (true, _), ⟨sig, hsig, by rw [hkey]; rfl⟩, rfl⟩
  · rintro ⟨_, _, ⟨sig, hsig, _⟩, _⟩
    exact ⟨sig, hsig⟩

theorem ident_attributeLicense {claims : Members F} {record : LicenseRecord F}
    (h : attributeLicense C claims = .ok record) :
    (Leak.license record).ident = tokenId claims := by
  obtain ⟨_, _, hrecord⟩ := bind_eq_ok.mp h
  rw [← Except.ok.inj hrecord]
  rfl

/-- In a tree without stamps an attribution is a refusal or a token's. -/
theorem leak_of_stampFree {stampTrust : List Str} {ledger : Ledger F} {files : List LeakFile}
    (hfree : StampFree F files) {found : Str × Leak F}
    (hfound : found ∈ leaksOf C stampTrust ledger files) :
    found.2 = .notJson ∨ ∃ (claims : Members F) (record : LicenseRecord F),
      Scanned files claims ∧ attributeLicense C claims = .ok record ∧
        found.2 = .license record := by
  obtain ⟨file, hfile, blob, hblob, hleakOf, _⟩ := mem_leaksOf.mp hfound
  rcases htext : decodeUtf8 blob with _ | text
  · rw [leakOf, htext] at hleakOf
    cases hleakOf
  · rw [leakOf, htext, Option.bind_some, attributeToken] at hleakOf
    rcases hloads : loads (F := F) text with _ | j
    · rw [hloads] at hleakOf
      exact Or.inl (Option.some.inj hleakOf).symm
    · rw [hloads] at hleakOf
      cases j with
      | obj claims =>
          have hscanned : Scanned files claims :=
            ⟨file, hfile, blob, hblob, text, htext, hloads⟩
          simp only [hfree claims hscanned, Bool.false_eq_true, if_false] at hleakOf
          rcases hrecord : attributeLicense C claims with exc | record
          · rw [hrecord] at hleakOf
            cases hleakOf
          · rw [hrecord] at hleakOf
            exact Or.inr ⟨claims, record, hscanned, hrecord, (Option.some.inj hleakOf).symm⟩
      | _ => cases hleakOf

/-- No attribution is a stamp's then, and their ids can be dict keys when the
tokens' can. -/
theorem leaksOf_stampFree
    {VerifyKey : Bytes → Except Exc (Bytes → Bytes → Except Exc Unit)}
    (hC : C.VerifyKey = some VerifyKey) (stampTrust : List Str) (ledger : Ledger F)
    {files : List LeakFile} (hfree : StampFree F files) :
    (∀ found ∈ leaksOf C stampTrust ledger files, found.2.isStamp = false) ∧
      ((∀ found ∈ leaksOf C stampTrust ledger files, found.2.ident.hashError = none) ↔
        KeyableIds F files) := by
  constructor
  · intro found hfound
    rcases leak_of_stampFree hfree hfound with h | ⟨_, record, _, _, h⟩
    · rw [h]
      rfl
    · rw [h]
      rfl
  · constructor
    · rintro hkeys claims ⟨file, hfile, blob, hblob, text, htext, hloads⟩ sig hsig
      obtain ⟨record, hrecord⟩ := (attributeLicense_isOk hC claims).mp ⟨sig, hsig⟩
      have htype := hfree claims ⟨file, hfile, blob, hblob, text, htext, hloads⟩
      have hleakOf : leakOf C stampTrust ledger blob = some (.license record) := by
        rw [leakOf, htext, Option.bind_some, attributeToken, hloads]
        simp only [htype, Bool.false_eq_true, if_false, hrecord]
        rfl
      rw [← ident_attributeLicense hrecord]
      exact hkeys (file.1, .license record)
        (mem_leaksOf.mpr ⟨file, hfile, blob, hblob, hleakOf, rfl⟩)
    · intro hkeys found hfound
      rcases leak_of_stampFree hfree hfound with h | ⟨claims, record, hscanned, hrecord, h⟩
      · rw [h]
        rfl
      · obtain ⟨sig, hsig⟩ := (attributeLicense_isOk hC claims).mpr ⟨record, hrecord⟩
        rw [h, ident_attributeLicense hrecord]
        exact hkeys claims hscanned sig hsig

end

/-! ### What is left of a package -/

section

variable {F : Type} [PyFloat F] [FloatEq F] {C : Crypto} {K : SigningKey} {seed : Bytes}
  {args : StampArgs}

/-- Some of the files a stamp was written to, as they are in the tree. -/
def survivors (tree : PackageTree) (kept : List SitePath) : List LeakFile :=
  kept.map fun site => (site.text, dictGet tree site.text)

variable (F) in
/-- The scan returns one record of a download stamp: a good one, which names the
download and its customer and counts the copies. -/
def Traced (C : Crypto) (stampTrust : List Str) (files : List LeakFile) (args : StampArgs)
    (copies : Nat) : Prop :=
  ∃ (hits : List (LeakHit F)) (hit : LeakHit F) (record : StampRecord F),
    scanTree C stampTrust [] files = .ok hits ∧
      hits.filter (fun hit => hit.leak.isStamp) = [hit] ∧ hit.leak = .stamp record ∧
      record.ok = true ∧ record.downloadId = .str args.dlId ∧
      record.customerRef = .str args.customer ∧ hit.copies = copies

omit [FloatEq F] in
/-- The text of a stamp, as it was written and as it is read. -/
theorem stamp_written {signed : Members F} (hembed : args.embedCustomer = true)
    (hsigned : signClaims C K seed (stampClaims args) = .ok signed)
    (hsig : ∀ message, canonicalBytes (stampClaims (F := F) args) = .ok message →
      (K.sign seed message).length = 64) :
    ∃ message, dumpsIndent 2 (.obj signed) = stampText args (blockLines C K seed message) ∧
      Str.Ascii (stampText args (blockLines C K seed message)) ∧
      (stampText args (blockLines C K seed message)).length = 353 + args.escaped := by
  obtain ⟨message, hmessage, rfl⟩ := signClaims_eq_ok.mp hsigned
  have htext := @dumpsIndent_stamp F _ C K seed args hembed message
  refine ⟨message, htext, ?_, length_stampText (hsig message hmessage)⟩
  rw [← htext]
  exact ascii_dumpsIndent 2 _

variable (F C K seed args) in
/-- The attribution of a stamp with its customer. -/
def stampLeak : Leak F := .stamp (stampRecord C K seed args (.str args.customer) false)

omit [PyFloat F] in
theorem ident_stampLeak : (stampLeak F C K seed args).ident = .str args.dlId :=
  if_pos (decide_eq_true (dlId_ne_nil args))

omit [PyFloat F] in
theorem sameKey_stampLeak :
    (stampLeak F C K seed args).sameKey (stampLeak F C K seed args) = true :=
  (Leak.sameKey_iff ident_stampLeak).mpr ⟨rfl, rfl, rfl, rfl⟩

/-- A stamp with its customer is attributed to them. -/
theorem leakOf_stamp (hK : SignsFor C K seed) {signed : Members F}
    (hembed : args.embedCustomer = true) (hcustomer : args.customer ≠ [])
    (hsigned : signClaims C K seed (stampClaims args) = .ok signed) :
    leakOf (F := F) C [b64e (K.verifyKey seed)] [] (utf8 (dumpsIndent 2 (.obj signed))) =
      some (stampLeak F C K seed args) := by
  have hnamed : claimOf (stampClaims (F := F) args) "customer_ref" = .str args.customer := by
    unfold stampClaims
    rw [hembed]
    rfl
  have htruthy : (Json.str (F := F) args.customer).truthy = true := decide_eq_true hcustomer
  rw [leakOf, decodeUtf8_utf8 (ascii_dumpsIndent 2 _).wellFormed, Option.bind_some,
    attributeToken_signed hsigned _ (loads_stamp hsigned), attributeStamp_signed hK hsigned,
    hnamed, if_pos htruthy]
  rfl

/-- A file of a stamp yields the stamp, when its strings are free of braces and
it is read to its end. -/
theorem leaksOf_whole (hK : SignsFor C K seed) {signed : Members F}
    (hembed : args.embedCustomer = true) (hcustomer : args.customer ≠ [])
    (hsigned : signClaims C K seed (stampClaims args) = .ok signed)
    (hsig : ∀ message, canonicalBytes (stampClaims (F := F) args) = .ok message →
      (K.sign seed message).length = 64)
    (hplain : args.Plain) (hsize : 353 + args.escaped ≤ readLimit) (path : Str) :
    leaksOf (F := F) C [b64e (K.verifyKey seed)] []
        [(path, some (utf8 (dumpsIndent 2 (.obj signed))))] =
      [(path, stampLeak F C K seed args)] := by
  obtain ⟨message, htext, hascii, hlength⟩ := stamp_written hembed hsigned hsig
  have hmatch := stampText_matches hascii hplain
  have hne : utf8 (stampText args (blockLines C K seed message)) ≠ [] := by
    rw [stampText, utf8_open]
    simp
  have hblobs : leakBlobs (path, some (utf8 (dumpsIndent 2 (.obj signed)))) =
      [utf8 (dumpsIndent 2 (.obj signed))] := by
    have htake : (utf8 (stampText args (blockLines C K seed message))).take readLimit =
        utf8 (stampText args (blockLines C K seed message)) :=
      List.take_of_length_le (by rw [hascii.length_utf8]; omega)
    have hfind := Regex.finditer_append_match leakPattern_unambiguous hmatch hne []
    rw [List.append_nil] at hfind
    simp only [htext, leakBlobs, htake]
    exact hfind
  rw [leaksOf, List.flatMap_singleton, hblobs, List.filterMap_cons, leakOf_stamp hK hembed
    hcustomer hsigned]
  rfl

/-- Any other yields nothing but refusals. -/
theorem leaksOf_broken {signed : Members F} (hembed : args.embedCustomer = true)
    (hsigned : signClaims C K seed (stampClaims args) = .ok signed)
    (hsig : ∀ message, canonicalBytes (stampClaims (F := F) args) = .ok message →
      (K.sign seed message).length = 64)
    (hbroken : ¬ (args.Plain ∧ 353 + args.escaped ≤ readLimit)) {path : Str}
    {found : Str × Leak F} (hfound : found ∈ leaksOf C [b64e (K.verifyKey seed)] []
      [(path, some (utf8 (dumpsIndent 2 (.obj signed))))]) :
    found.2.isStamp = false := by
  obtain ⟨message, htext, hascii, hlength⟩ := stamp_written hembed hsigned hsig
  obtain ⟨file, hfile, blob, hblob, hleak, _⟩ := mem_leaksOf.mp hfound
  obtain rfl := List.mem_singleton.mp hfile
  rw [htext] at hblob
  rcases stamp_matches (F := F) hascii (textBraceFree_blockLines message) hblob with
    ⟨hplain, hsize⟩ | ⟨text, hwell, rfl, hloads⟩
  · exact absurd ⟨hplain, hlength ▸ hsize⟩ hbroken
  · rw [leakOf, decodeUtf8_utf8 hwell, Option.bind_some, attributeToken, hloads] at hleak
    rw [← Option.some.inj hleak]
    rfl

/-- Every file of a stamp is scanned for itself. -/
theorem leaksOf_survivors {tree : PackageTree} {stamped : Stamped F}
    (hwrote : Wrote C K seed tree args stamped) {kept : List SitePath}
    (hsites : ∀ site ∈ kept, site ∈ args.places) (stampTrust : List Str) :
    leaksOf (F := F) C stampTrust [] (survivors tree kept) =
      kept.flatMap fun site => leaksOf C stampTrust []
        [(site.text, some (utf8 (dumpsIndent 2 (.obj stamped.stamp))))] := by
  rw [leaksOf, survivors, List.flatMap_map]
  apply List.flatMap_congr
  intro site hsite
  rw [hwrote.files site (hsites site hsite), leaksOf, List.flatMap_singleton]

/-- Where all stamps among the attributions are copies of one, it is traced as soon
as the scan ends. -/
theorem traced_iff_hashable {stampTrust : List Str} {files : List LeakFile} {copies : Nat}
    (hstamps : ∀ found ∈ leaksOf C stampTrust [] files, found.2.isStamp = true →
      found.2 = stampLeak F C K seed args)
    (hcopies : ((leaksOf (F := F) C stampTrust [] files).filter
      fun found => found.2.isStamp).length = copies) (hne : copies ≠ 0) :
    Traced F C stampTrust files args copies ↔
      ∀ found ∈ leaksOf (F := F) C stampTrust [] files, found.2.ident.hashError = none := by
  obtain ⟨hends, hcount⟩ := scanTree_stamps rfl sameKey_stampLeak hstamps
  rw [← hends]
  constructor
  · rintro ⟨hits, _, _, hscan, _⟩
    exact ⟨hits, hscan⟩
  · rintro ⟨hits, hscan⟩
    refine ⟨hits, _, _, hscan, (hcount hits hscan).trans (if_neg ?_), rfl, rfl, rfl, rfl, ?_⟩
    · intro hnil
      rw [← List.length_eq_zero_iff, List.length_map, hcopies] at hnil
      exact hne hnil
    · rw [List.length_map, hcopies]

/-- Where there is no stamp among the attributions none is traced. -/
theorem not_traced {stampTrust : List Str} {files : List LeakFile} {copies : Nat}
    (hnone : ∀ found ∈ leaksOf (F := F) C stampTrust [] files, found.2.isStamp = false) :
    ¬ Traced F C stampTrust files args copies := by
  rintro ⟨hits, hit, record, hscan, hhit, _, _, hid, _⟩
  have hident : (Leak.stamp record).ident = .str args.dlId := by
    rw [Leak.ident, hid]
    exact if_pos (decide_eq_true (dlId_ne_nil args))
  have hself : (Leak.stamp record).sameKey (.stamp record) = true :=
    (Leak.sameKey_iff hident).mpr ⟨rfl, rfl, rfl, rfl⟩
  have hstamps : ∀ found ∈ leaksOf C stampTrust [] files,
      found.2.isStamp = true → found.2 = .stamp record := by
    intro found hmem hstamp
    rw [hnone found hmem] at hstamp
    cases hstamp
  have hempty : (leaksOf (F := F) C stampTrust [] files).filter
      (fun found => found.2.isStamp) = [] := List.filter_eq_nil_iff.mpr (by simpa using hnone)
  have hrecords := (scanTree_stamps rfl hself hstamps).2 hits hscan
  rw [hempty, hhit] at hrecords
  cases hrecords

/-- One surviving file is enough.  Whatever is left of the files of a stamp, the
scan traces it, exactly when the strings of the stamp are free of braces, the
scanner reads it to its end and no token in the rest of the tree stops the
scan. -/
theorem survivors_traced_iff (hK : SignsFor C K seed) (hembed : args.embedCustomer = true)
    (hcustomer : args.customer ≠ [])
    (hsig : ∀ message, canonicalBytes (stampClaims (F := F) args) = .ok message →
      (K.sign seed message).length = 64)
    {disk : Disk} {stamped : Stamped F}
    (hstamped : (stampArtifact C K seed disk args).2 = .ok stamped) {tree : PackageTree}
    (htree : dictGet (stampArtifact (F := F) C K seed disk args).1.packages
      args.artifactRoot = some tree)
    {kept : List SitePath} (hkept : kept ≠ []) (hsites : ∀ site ∈ kept, site ∈ args.places)
    {rest files : List LeakFile} (hrest : StampFree F rest)
    (hfiles : files.Perm (survivors tree kept ++ rest)) :
    Traced F C [b64e (K.verifyKey seed)] files args kept.length ↔
      args.Plain ∧ 353 + args.escaped ≤ readLimit ∧ KeyableIds F rest := by
  obtain ⟨tree', htree', hwrote⟩ := stampArtifact_wrote hstamped
  obtain rfl : tree' = tree := Option.some.inj (htree'.symm.trans htree)
  obtain ⟨_, _, hC, _, _⟩ := (hK [] []).mpr rfl
  obtain ⟨hothers, hkeys⟩ := leaksOf_stampFree hC [b64e (K.verifyKey seed)] [] hrest
  have hsurvivors := leaksOf_survivors hwrote hsites [b64e (K.verifyKey seed)]
  have hperm : (leaksOf C [b64e (K.verifyKey seed)] [] files).Perm
      (leaksOf C [b64e (K.verifyKey seed)] [] (survivors tree' kept) ++
        leaksOf (F := F) C [b64e (K.verifyKey seed)] [] rest) := by
    rw [← leaksOf_append]
    exact hfiles.flatMap_right _
  rw [← hkeys]
  by_cases hgood : args.Plain ∧ 353 + args.escaped ≤ readLimit
  · have hfound : leaksOf C [b64e (K.verifyKey seed)] [] (survivors tree' kept) =
        kept.map fun site => (site.text, stampLeak F C K seed args) := by
      rw [hsurvivors]
      simp only [leaksOf_whole hK hembed hcustomer hwrote.signs hsig hgood.1 hgood.2]
      exact List.map_eq_flatMap.symm
    rw [hfound] at hperm
    have hstamps : ∀ found ∈ leaksOf C [b64e (K.verifyKey seed)] [] files,
        found.2.isStamp = true → found.2 = stampLeak F C K seed args := by
      intro found hmem hstamp
      rcases List.mem_append.mp (hperm.mem_iff.mp hmem) with hmem | hmem
      · obtain ⟨site, _, rfl⟩ := List.mem_map.mp hmem
        rfl
      · rw [hothers found hmem] at hstamp
        cases hstamp
    have hcopies : ((leaksOf (F := F) C [b64e (K.verifyKey seed)] [] files).filter
        fun found => found.2.isStamp).length = kept.length := by
      rw [(hperm.filter _).length_eq, List.filter_append, List.length_append,
        List.filter_eq_self.mpr (by simp [stampLeak, Leak.isStamp]),
        List.filter_eq_nil_iff.mpr (by simpa using hothers), List.length_map]
      rfl
    rw [traced_iff_hashable hstamps hcopies (mt List.length_eq_zero_iff.mp hkept),
      and_iff_right hgood.1, and_iff_right hgood.2]
    constructor
    · intro hall found hmem
      exact hall found (hperm.mem_iff.mpr (List.mem_append_right _ hmem))
    · intro hall found hmem
      rcases List.mem_append.mp (hperm.mem_iff.mp hmem) with hmem | hmem
      · obtain ⟨site, _, rfl⟩ := List.mem_map.mp hmem
        rw [ident_stampLeak]
        rfl
      · exact hall found hmem
  · refine iff_of_false (not_traced ?_) fun h => hgood ⟨h.1, h.2.1⟩
    intro found hmem
    rcases List.mem_append.mp (hperm.mem_iff.mp hmem) with hmem | hmem
    · rw [hsurvivors] at hmem
      obtain ⟨site, _, hmem⟩ := List.mem_flatMap.mp hmem
      exact leaksOf_broken hembed hwrote.signs hsig hgood hmem
    · exact hothers found hmem

end

section

attribute [local instance] FloatView.asFloat FloatView.asFloatEq

/-- A download that names its customer. -/
def namedDownload (customer : Str) : StampArgs :=
  { hiddenDownload "dl-1" customer with ledgerPath := none, embedCustomer := true }

/-- A stamp survives in two of its four files, beside one without a stamp. -/
theorem survivors_traced_acme :
    ∃ (stamped : Stamped FloatView) (tree : PackageTree),
      (recordedStamping freshDisk (namedDownload "acme")).2 = .ok stamped ∧
      Traced FloatView stampKey.crypto [stampPublicKey]
        (("README", some []) :: survivors tree (DEFAULT_SITES.take 2)) (namedDownload "acme")
        2 := by
  have hrun : (do
      let stamped ← (recordedStamping freshDisk (namedDownload "acme")).2
      pure (stamped.downloadId)) = Except.ok (ε := Exc) (Str.ofString "dl-1") := by
    decide +kernel
  obtain ⟨stamped, hstamped, _⟩ := bind_eq_ok.mp hrun
  obtain ⟨tree, htree, _⟩ := stampArtifact_wrote hstamped
  have hmessage : canonicalBytes (stampClaims (F := FloatView) (namedDownload "acme")) =
      .ok (stampMessage ["\"customer_ref\":", "\"acme\","] "dl-1") := by
    decide +kernel
  have hsig : ∀ message,
      canonicalBytes (stampClaims (F := FloatView) (namedDownload "acme")) = .ok message →
      (stampKey.signingKey.sign stampKey.seed message).length = 64 := by
    intro message h
    obtain rfl := Except.ok.inj (hmessage.symm.trans h)
    decide +kernel
  have hscanned : ∀ claims : Members FloatView, ¬ Scanned [("README", some [])] claims := by
    rintro claims ⟨file, hfile, blob, hblob, _⟩
    obtain rfl := List.mem_singleton.mp hfile
    cases hblob
  have hplain : (namedDownload "acme").Plain :=
    ⟨by decide, by decide, by decide, by decide, by decide⟩
  have hsize : 353 + (namedDownload "acme").escaped ≤ readLimit := by decide
  have hkept : DEFAULT_SITES.take 2 ≠ [] := by decide
  have hsites : ∀ site ∈ DEFAULT_SITES.take 2, site ∈ (namedDownload "acme").places :=
    fun site hsite => List.mem_of_mem_take hsite
  have hrest : StampFree FloatView [("README", some [])] := fun claims h =>
    absurd h (hscanned claims)
  refine ⟨stamped, tree, hstamped, ?_⟩
  exact (survivors_traced_iff stampKey.verifies_sign_iff rfl (by decide) hsig hstamped htree
    hkept hsites hrest List.perm_append_comm).mpr
    ⟨hplain, hsize, fun claims h => absurd h (hscanned claims)⟩

/-- A brace in the customer's name hides the stamp in all of its files. -/
theorem survivors_lost_brace :
    ∃ (stamped : Stamped FloatView) (tree : PackageTree),
      (recordedStamping freshDisk (namedDownload "a\x7d")).2 = .ok stamped ∧
      dictGet (recordedStamping freshDisk (namedDownload "a\x7d")).1.packages "pkg" =
        some tree ∧
      scanTree (F := FloatView) stampKey.crypto [stampPublicKey] []
        (survivors tree DEFAULT_SITES) = .ok [] ∧
      ¬ Traced FloatView stampKey.crypto [stampPublicKey] (survivors tree DEFAULT_SITES)
        (namedDownload "a\x7d") 4 := by
  have hrun : (do
      let stamped ← (recordedStamping freshDisk (namedDownload "a\x7d")).2
      pure (stamped.downloadId)) = Except.ok (ε := Exc) (Str.ofString "dl-1") := by
    decide +kernel
  obtain ⟨stamped, hstamped, _⟩ := bind_eq_ok.mp hrun
  have hscanned : (dictGet (recordedStamping freshDisk
      (namedDownload "a\x7d")).1.packages "pkg").map (fun tree =>
        (scanTree (F := FloatView) stampKey.crypto [stampPublicKey] []
          (survivors tree DEFAULT_SITES)).toOption.map List.isEmpty) = some (some true) := by
    decide +kernel
  obtain ⟨tree, htree, hempty⟩ := Option.map_eq_some_iff.mp hscanned
  rcases hscan : scanTree (F := FloatView) stampKey.crypto [stampPublicKey] []
    (survivors tree DEFAULT_SITES) with exc | hits
  · rw [hscan] at hempty
    cases hempty
  · rw [hscan] at hempty
    obtain rfl : hits = [] := List.isEmpty_iff.mp (Option.some.inj hempty)
    refine ⟨stamped, tree, hstamped, htree, hscan, ?_⟩
    rintro ⟨hits, hit, _, hscan', hhit, _⟩
    obtain rfl := Except.ok.inj (hscan.symm.trans hscan')
    cases hhit

end

end NetplexSupport
