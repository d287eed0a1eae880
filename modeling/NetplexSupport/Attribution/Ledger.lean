/-
Download stamps without a customer.  The package trees are the same whoever the
customer is, and the ledger names the customer of every stamp: it is read back
row by row, whatever its strings hold.
-/
import NetplexSupport.Tools.StampDownload
import NetplexSupport.Transition.Journal

namespace NetplexSupport

open Py

/-! ### The clock's text -/

theorem decPad_length (width n : Nat) : (decPad width n).length = width := by
  induction width generalizing n with
  | zero => rfl
  | succ width ih => simp [decPad, ih]

/-- Digits are written as they are. -/
theorem mem_decPad {width n : Nat} {c : CodePoint} (hc : c ∈ decPad width n) :
    ∃ d : Digit, c = digitChar d := by
  induction width generalizing n with
  | zero => cases hc
  | succ width ih =>
      rw [decPad, List.mem_append] at hc
      rcases hc with hc | hc
      · exact ih hc
      · exact ⟨_, List.mem_singleton.mp hc⟩

/-- What holds of the digits and of the marks between them holds of the text. -/
theorem isoformat_forall {p : CodePoint → Prop} (hdigit : ∀ d : Digit, p (digitChar d))
    (hmark : ∀ c ∈ [ch '-', ch 'T', ch ':', ch '+'], p c) (t : Instant) :
    ∀ c ∈ t.isoformat, p c := by
  have hpad : ∀ width n, ∀ c ∈ decPad width n, p c := by
    intro width n c hc
    obtain ⟨d, rfl⟩ := mem_decPad hc
    exact hdigit d
  have hzero : p (ch '0') := hdigit 0
  simp only [List.forall_mem_cons] at hmark
  obtain ⟨hdash, hT, hcolon, hplus, -⟩ := hmark
  simp only [Instant.isoformat, List.forall_mem_append]
  simp [Str.ofString, hdash, hT, hcolon, hplus, hzero]
  exact ⟨⟨⟨⟨⟨hpad _ _, hpad _ _⟩, hpad _ _⟩, hpad _ _⟩, hpad _ _⟩, hpad _ _⟩

theorem printable_isoformat (t : Instant) : Str.Printable t.isoformat := by
  have hmark : Str.Printable [ch '-', ch 'T', ch ':', ch '+'] := of_decide_eq_true rfl
  exact isoformat_forall (by decide) hmark t

/-! ### The rows -/

section

variable {F : Type} [PyFloat F]

/-- The strings of a call are well-formed Unicode. -/
structure StampArgs.WellFormed (args : StampArgs) : Prop where
  dlId : Str.WellFormed args.dlId
  customer : Str.WellFormed args.customer
  tier : Str.WellFormed args.tier
  package : Str.WellFormed args.package
  version : Str.WellFormed args.version

/-- A row without its line break. -/
def rowText (row : Members F) : Str := dumps rowOpts (.obj row)

theorem printable_rowText (row : Members F) : Str.Printable (rowText row) := by
  have hsep : Str.Printable rowOpts.itemSep ∧ Str.Printable rowOpts.keySep :=
    ⟨of_decide_eq_true rfl, of_decide_eq_true rfl⟩
  exact render_forall (fun _ hle hlt => ⟨hle, hlt rfl⟩) hsep.1 hsep.2 _

theorem strip_rowText (row : Members F) : Str.strip (rowText row) = rowText row := by
  have hobj : rowText row = (Json.obj (sortedMembers row)).render rowOpts :=
    congrArg (Json.render rowOpts) (Json.sortKeys_obj row)
  rw [hobj, strip_render_obj]

omit [PyFloat F] in
theorem keyed_stampRow (args : StampArgs) : (Json.obj (stampRow (F := F) args)).Keyed := by
  rw [Json.keyed_obj]
  simp only [stampRow, List.forall_mem_cons]
  exact ⟨by simp, rfl, rfl, rfl, rfl, rfl, rfl, by simp⟩

omit [PyFloat F] in
theorem strings_stampRow {args : StampArgs} (hargs : args.WellFormed) :
    (Json.obj (stampRow (F := F) args)).Strings Str.joined := by
  have hiso := (printable_isoformat args.now).wellFormed
  have hkey : ∀ key : String, (Str.ofString key).joined = true := fun key =>
    (Str.wellFormed_ofString key).joined
  rw [Json.strings_obj]
  simp only [stampRow, List.forall_mem_cons, Json.strings_str]
  exact ⟨⟨hkey _, hkey _, hkey _, hkey _, hkey _, hkey _, by simp⟩, hargs.dlId.joined,
    hargs.customer.joined, hargs.tier.joined, hargs.package.joined, hargs.version.joined,
    hiso.joined, by simp⟩

theorem loads_rowText {args : StampArgs} (hargs : args.WellFormed) :
    loads (F := F) (rowText (stampRow (F := F) args)) =
      some (.obj (sortedMembers (stampRow args))) := by
  have hreadable : rowOpts.Readable (.obj (stampRow (F := F) args)) := strings_stampRow hargs
  have hlawful : rowOpts.Lawful := DumpOpts.lawful_default rfl rfl
  rw [rowText, loads_dumps_sorted hlawful rfl (keyed_stampRow args) hreadable,
    Json.sortKeys_obj]

omit [PyFloat F] in
theorem claimOf_row (args : StampArgs) {key s : Str}
    (hkey : dictGet (stampRow (F := F) args) key = some (.str s)) :
    claimOf (sortedMembers (stampRow (F := F) args)) key = .str s := by
  rw [claimOf, dictGet_sortedMembers (Json.keyed_obj.mp (keyed_stampRow args)).1, hkey]
  rfl

theorem dlId_ne_nil (args : StampArgs) : args.dlId ≠ [] := by
  have hdrawn : Str.ofString "dl_" ++ args.uuid ≠ [] := by simp [Str.ofString]
  unfold StampArgs.dlId
  split
  · split
    · exact hdrawn
    · assumption
  · exact hdrawn

/-! ### Reading the ledger -/

/-- The entry a row makes in the ledger. -/
def rowEntry (args : StampArgs) : Json F × Members F :=
  (.str args.dlId, sortedMembers (stampRow args))

theorem split_rowLines (rows : List (Members F)) :
    Str.split (ch '\n') (rows.flatMap rowLine) = rows.map rowText ++ [[]] := by
  induction rows with
  | nil => rfl
  | cons row rows ih =>
      have hline : rowLine row ++ rows.flatMap rowLine =
          rowText row ++ ch '\n' :: rows.flatMap rowLine := by
        simp [rowLine, rowText, Str.ofString]
      have hnewline : ch '\n' ∉ rowText row := fun hmem => by
        have := (printable_rowText row _ hmem).1
        rw [ch_val] at this
        exact absurd this (by decide)
      rw [List.flatMap_cons, hline, split_append, ih, split_of_notMem hnewline]
      rfl

theorem universalNewlines_rowLines (rows : List (Members F)) :
    universalNewlines (rows.flatMap rowLine) = rows.flatMap rowLine := by
  apply universalNewlines_eq_self
  intro hmem
  obtain ⟨row, -, hmem⟩ := List.mem_flatMap.mp hmem
  rcases List.mem_append.mp hmem with hmem | hmem
  · have := (printable_rowText row _ hmem).1
    rw [ch_val] at this
    exact absurd this (by decide)
  · exact absurd hmem (by decide)

variable [FloatEq F]

omit [PyFloat F] in
theorem ledgerSet_new {ledger : Ledger F} {id : Str} {row : Members F}
    (hnew : ∀ entry ∈ ledger, entry.1 ≠ .str id) :
    ledgerSet ledger (.str id) row = ledger ++ [(.str id, row)] := by
  rw [ledgerSet, if_neg]
  simp only [List.any_eq_true, Json.keyEq_str_iff, not_exists, not_and]
  exact hnew

/-- A row with a new id is added to the ledger. -/
theorem loadRow_rowText {ledger : Ledger F} {args : StampArgs} (hargs : args.WellFormed)
    (hnew : ∀ entry ∈ ledger, entry.1 ≠ .str args.dlId) :
    loadRow ledger (rowText (stampRow (F := F) args)) = .ok (ledger ++ [rowEntry args]) := by
  have hne : rowText (stampRow (F := F) args) ≠ [] := by
    intro hnil
    have hloads := loads_rowText (F := F) hargs
    rw [hnil] at hloads
    cases hloads
  have hid : claimOf (sortedMembers (stampRow (F := F) args)) "download_id" = .str args.dlId :=
    claimOf_row args rfl
  have htruthy : (Json.str (F := F) args.dlId).truthy = true :=
    decide_eq_true (dlId_ne_nil args)
  rw [loadRow, strip_rowText, if_neg hne, loads_rowText hargs]
  simp only [hid, htruthy, if_true, Json.hashError]
  rw [ledgerSet_new hnew, rowEntry]

theorem loadRows_rows {calls : List StampArgs} (hargs : ∀ args ∈ calls, args.WellFormed)
    (hids : (calls.map StampArgs.dlId).Nodup) {ledger : Ledger F}
    (hnew : ∀ args ∈ calls, ∀ entry ∈ ledger, entry.1 ≠ .str args.dlId) :
    loadRows ledger ((calls.map (stampRow (F := F))).map rowText ++ [[]]) =
      ledger ++ calls.map rowEntry := by
  induction calls generalizing ledger with
  | nil => simp [loadRows, loadRow, Str.strip]
  | cons args calls ih =>
      rw [List.forall_mem_cons] at hargs hnew
      rw [List.map_cons, List.nodup_cons] at hids
      simp only [List.map_cons, List.cons_append, loadRows, loadRow_rowText hargs.1 hnew.1]
      rw [ih hargs.2 hids.2, List.append_assoc, List.singleton_append]
      intro later hlater entry hentry
      rcases List.mem_append.mp hentry with hentry | hentry
      · exact hnew.2 later hlater entry hentry
      · rw [List.mem_singleton.mp hentry, rowEntry]
        intro heq
        exact hids.1 (Json.str.inj heq ▸ List.mem_map_of_mem hlater)

/-- A ledger written from its beginning has an entry for every call, in order. -/
theorem loadLedger_rows {calls : List StampArgs} (hargs : ∀ args ∈ calls, args.WellFormed)
    (hids : (calls.map StampArgs.dlId).Nodup) :
    loadLedger F (some ((calls.map (stampRow (F := F))).flatMap rowLine)) =
      calls.map rowEntry := by
  rw [loadLedger, universalNewlines_rowLines, split_rowLines, loadRows_rows hargs hids (by simp),
    List.nil_append]

omit [PyFloat F] in
theorem ledgerRow_entry {calls : List StampArgs} (hids : (calls.map StampArgs.dlId).Nodup)
    {args : StampArgs} (hmem : args ∈ calls) :
    ledgerRow (calls.map (rowEntry (F := F))) (.str args.dlId) =
      .ok (some (sortedMembers (stampRow args))) := by
  have hfind : (calls.map (rowEntry (F := F))).find? (fun row => row.1.keyEq (.str args.dlId)) =
      some (rowEntry args) := by
    induction calls with
    | nil => cases hmem
    | cons first calls ih =>
        rw [List.map_cons, List.nodup_cons] at hids
        rcases List.mem_cons.mp hmem with rfl | hmem
        · exact List.find?_cons_of_pos (Json.keyEq_str_iff.mpr rfl)
        · have hne : (rowEntry (F := F) first).1 ≠ .str args.dlId := fun heq =>
            hids.1 (Json.str.inj heq ▸ List.mem_map_of_mem hmem)
          rw [List.map_cons, List.find?_cons_of_neg (by rwa [Json.keyEq_str_iff])]
          exact ih hids.2 hmem
  simp only [ledgerRow, Json.hashError, hfind]
  rfl

/-! ### What a call does -/

variable {C : Crypto} {K : SigningKey} {seed : Bytes}

omit [FloatEq F]

omit [PyFloat F] in
/-- The stamp has no signature before it is signed. -/
theorem payload_stampClaims (args : StampArgs) :
    payload (stampClaims (F := F) args) = stampClaims args := by
  unfold payload stampClaims
  rcases args.embedCustomer with _ | _
  · rfl
  · rfl

theorem signStamp_eq_ok {args : StampArgs} {signed : Members F} :
    signStamp C K (stampClaims args) seed = .ok signed ↔ seed.length = 32 ∧
      signClaims C K seed (stampClaims args) = .ok signed := by
  rw [signStamp, bind_eq_ok, payload_stampClaims]
  constructor
  · rintro ⟨seed', hseed, hsigned⟩
    unfold fromPrivateBytes at hseed
    split at hseed
    · rename_i hlength
      obtain rfl := Except.ok.inj hseed
      exact ⟨hlength, hsigned⟩
    · cases hseed
  · rintro ⟨hlength, hsigned⟩
    exact ⟨seed, if_pos hlength, hsigned⟩

omit [PyFloat F] in
theorem writeSites_eq_ok {blob : Bytes} {tree tree' : PackageTree} {sites written : List SitePath}
    (h : writeSites blob tree sites = (tree', .ok written)) :
    written = sites ∧ (∀ site ∈ sites, dictGet tree' site.text = some blob) ∧
      ∀ path, dictGet tree path = some blob → dictGet tree' path = some blob := by
  induction sites generalizing tree written with
  | nil =>
      obtain ⟨rfl, hwritten⟩ := Prod.mk.inj h
      exact ⟨(Except.ok.inj hwritten).symm, by simp, fun _ hpath => hpath⟩
  | cons site sites ih =>
      rw [writeSites] at h
      split at h
      · cases (Prod.mk.inj h).2
      · rename_i tree₁ hsite
        rcases hrest : writeSites blob tree₁ sites with ⟨tree₂, exc | written₂⟩
        · rw [hrest] at h
          cases (Prod.mk.inj h).2
        · rw [hrest] at h
          obtain ⟨rfl, hwritten⟩ := Prod.mk.inj h
          obtain ⟨rfl, hsites, hkeep⟩ := ih hrest
          obtain rfl := Except.ok.inj hwritten
          have hset : tree₁ = dictSet tree site.text blob := by
            unfold writeSite at hsite
            split at hsite
            · cases hsite
            · split at hsite
              · cases hsite
              · exact (Except.ok.inj hsite).symm
          subst hset
          refine ⟨rfl, ?_, fun path hpath => hkeep path ?_⟩
          · rw [List.forall_mem_cons]
            exact ⟨hkeep _ (by rw [dictGet_dictSet, if_pos rfl]), hsites⟩
          · rw [dictGet_dictSet]
            split
            · rfl
            · exact hpath

/-- What a call that returns has signed and written. -/
structure Wrote (C : Crypto) (K : SigningKey) (seed : Bytes) (tree : PackageTree)
    (args : StampArgs) (stamped : Stamped F) : Prop where
  signs : signClaims C K seed (stampClaims args) = .ok stamped.stamp
  result : stamped = ⟨args.dlId, keyIdFor C (K.verifyKey seed), args.places, stamped.stamp⟩
  files : ∀ site ∈ args.places,
    dictGet tree site.text = some (utf8 (dumpsIndent 2 (.obj stamped.stamp)))

theorem stampTree_wrote {tree : PackageTree} {args : StampArgs} {stamped : Stamped F}
    (h : (stampTree C K seed tree args).2 = .ok stamped) :
    Wrote C K seed (stampTree (F := F) C K seed tree args).1 args stamped := by
  unfold stampTree at h ⊢
  rcases hblob : signedBlob (F := F) C K seed args with exc | ⟨signed, blob⟩
  · simp only [hblob] at h
    cases h
  · obtain ⟨signed', hsigned, hrest⟩ := bind_eq_ok.mp hblob
    obtain ⟨blob', hencode, hpair⟩ := bind_eq_ok.mp hrest
    obtain ⟨rfl, rfl⟩ := Prod.mk.inj (Except.ok.inj hpair)
    obtain ⟨_, rfl⟩ := encodeUtf8_eq_ok_iff.mp hencode
    simp only [hblob] at h ⊢
    rcases hwrite : writeSites (utf8 (dumpsIndent 2 (.obj signed'))) tree args.places with
      ⟨tree', exc | written⟩
    · rw [hwrite] at h
      cases h
    · rw [hwrite] at h
      obtain ⟨rfl, hsites, _⟩ := writeSites_eq_ok hwrite
      obtain rfl := Except.ok.inj h
      exact ⟨(signStamp_eq_ok.mp hsigned).2, rfl, hsites⟩

/-- A call that returns has written its stamp below the root it was given. -/
theorem stampArtifact_wrote {disk : Disk} {args : StampArgs} {stamped : Stamped F}
    (h : (stampArtifact C K seed disk args).2 = .ok stamped) :
    ∃ tree, dictGet (stampArtifact (F := F) C K seed disk args).1.packages args.artifactRoot =
      some tree ∧ Wrote C K seed tree args stamped := by
  rcases stampArtifact_cases (F := F) C K seed disk args with
    ⟨_, heq⟩ | ⟨tree, _, ⟨exc, _, heq⟩ | ⟨stamped', hresult, heq⟩⟩
  · rw [heq] at h
    cases h
  · rw [heq] at h
    cases h
  · rw [heq] at h ⊢
    obtain rfl := Except.ok.inj h
    refine ⟨_, ?_, stampTree_wrote hresult⟩
    rw [recordStamp_packages, Disk.setPackage_packages, dictGet_dictSet, if_pos rfl]

/-! ### The ledger after a run -/

theorem recordStamp_ledger {disk : Disk} {args : StampArgs} {path : Str}
    (hpath : args.ledgerPath = some path) (hne : path ≠ []) :
    (recordStamp F disk args).ledger path =
      disk.ledger path ++ rowLine (stampRow (F := F) args) := by
  rw [recordStamp, hpath]
  simp only [if_neg hne, appendLedger_ledger]

/-- A call that returns appends its row to the ledger, and no other call does. -/
theorem stampArtifact_ledger (disk : Disk) {args : StampArgs} {path : Str}
    (hpath : args.ledgerPath = some path) (hne : path ≠ []) :
    (stampArtifact (F := F) C K seed disk args).1.ledger path = disk.ledger path ++
      match (stampArtifact (F := F) C K seed disk args).2 with
      | .ok _ => rowLine (stampRow (F := F) args)
      | .error _ => [] := by
  rcases stampArtifact_cases (F := F) C K seed disk args with
    ⟨_, heq⟩ | ⟨tree, _, ⟨exc, _, heq⟩ | ⟨stamped, _, heq⟩⟩
  · rw [heq, List.append_nil]
  · rw [heq, List.append_nil, Disk.setPackage_ledger]
  · rw [heq, recordStamp_ledger hpath hne, Disk.setPackage_ledger]

/-- After a run the ledger holds the rows of the calls that returned, in order. -/
theorem ledger_after {calls : List StampArgs} {path : Str}
    (hpath : ∀ args ∈ calls, args.ledgerPath = some path) (hne : path ≠ []) (disk : Disk) :
    (Transition.after (stampArtifact (F := F) C K seed) disk calls).ledger path =
      disk.ledger path ++ ((Transition.accepted (stampArtifact (F := F) C K seed) disk calls).map
        (stampRow (F := F))).flatMap rowLine := by
  induction calls generalizing disk with
  | nil => simp [Transition.accepted]
  | cons args calls ih =>
      rw [List.forall_mem_cons] at hpath
      have hstep := @stampArtifact_ledger F _ C K seed disk args path hpath.1 hne
      rw [Transition.after_cons, ih hpath.2, Transition.accepted]
      rcases hresult : (stampArtifact (F := F) C K seed disk args).2 with exc | stamped
      · simp only [hresult, List.append_nil] at hstep
        rw [hstep]
      · simp only [hresult] at hstep
        rw [hstep, List.append_assoc, List.map_cons, List.flatMap_cons]

/-! ### The signature -/

/-- The key a stamp was signed with is the first one that is tried. -/
theorem verifyPinned_signClaims [FloatEq F] (hK : SignsFor C K seed)
    {claims signed : Members F} (hsigned : signClaims C K seed claims = .ok signed)
    (keys : List Str) :
    verifyPinned C signed (b64e (K.verifyKey seed) :: keys) =
      .ok (true, keyIdFor C (K.verifyKey seed)) := by
  obtain ⟨message, hmessage, rfl⟩ := signClaims_eq_ok.mp hsigned
  obtain ⟨VerifyKey, verify, hC, hkey, hverify⟩ := (hK message message).mpr rfl
  have hblock : claimOf (dictSet claims "signature" (.obj (signatureBlock C K seed message)))
      "signature" = .obj (signatureBlock C K seed message) := by
    rw [claimOf, dictGet_dictSet, if_pos rfl, Option.getD_some]
  have hsig : sigOf (dictSet claims "signature" (.obj (signatureBlock C K seed message))) =
      .ok (.str (b64e (K.sign seed message))) := by
    have htruthy : (Json.obj (signatureBlock (F := F) C K seed message)).truthy = true := rfl
    rw [sigOf, hblock, Json.or, if_pos htruthy]
    rfl
  have hdecode : ∀ bs, b64decodeText (b64e bs) = .ok bs := fun bs => by
    rw [b64decodeText, encodeAscii_b64e]
    exact b64decode_b64encode bs
  have hcheck : checkPinned VerifyKey (dictSet claims "signature"
      (.obj (signatureBlock C K seed message))) (.str (b64e (K.sign seed message)))
      (b64e (K.verifyKey seed)) = .ok (K.verifyKey seed) := by
    simp only [checkPinned, bind_eq_ok, b64decodeValue]
    exact ⟨_, hdecode _, verify, hkey, _, hdecode _, message,
      (canonicalBytes_dictSet _ _).trans hmessage, (), hverify, rfl⟩
  unfold verifyPinned
  simp only [hC]
  refine bind_eq_ok.mpr ⟨_, hsig, ?_⟩
  rw [List.findSome?_cons, hcheck]
  rfl

/-! ### Attribution -/

/-- What the scanner says of a stamp that was signed with a key it trusts. -/
def stampRecord (C : Crypto) (K : SigningKey) (seed : Bytes) (args : StampArgs)
    (customer : Json F) (resolved : Bool) : StampRecord F where
  ok := true
  signatureKeyId := some (keyIdFor C (K.verifyKey seed))
  reason := none
  customerRef := customer
  downloadId := .str args.dlId
  tier := .str args.tier
  package := .str args.package
  version := .str args.version
  issuedAt := .str args.now.isoformat
  resolvedViaLedger := resolved

variable {args : StampArgs} {signed : Members F}

theorem claimOf_stamp (hsigned : signClaims C K seed (stampClaims args) = .ok signed) {key : Str}
    (hkey : key ≠ Str.ofString "signature") :
    claimOf signed key = claimOf (stampClaims (F := F) args) key := by
  rw [claimOf, claimOf, dictGet_signClaims hsigned hkey]

omit [PyFloat F] in
/-- The optional member hides no other. -/
theorem claimOf_stampClaims {key : Str} (hkey : key ≠ Str.ofString "customer_ref") :
    claimOf (stampClaims (F := F) args) key =
      claimOf (stampClaims (F := F) { args with embedCustomer := false }) key := by
  unfold claimOf stampClaims
  rcases args.embedCustomer with _ | _
  · rfl
  · simp only [if_true, Bool.false_eq_true, if_false]
    rw [dictGet_dictSet, if_neg hkey]
    rfl

variable [FloatEq F]

/-- The customer of a stamp is the one it names, or else the one its row in the
ledger names. -/
theorem attributeStamp_signed (hK : SignsFor C K seed)
    (hsigned : signClaims C K seed (stampClaims args) = .ok signed) (ledger : Ledger F) :
    attributeStamp C [b64e (K.verifyKey seed)] ledger signed =
      if (claimOf (stampClaims (F := F) args) "customer_ref").truthy then
        .ok (stampRecord C K seed args (claimOf (stampClaims args) "customer_ref") false)
      else if ledger.isEmpty then .ok (stampRecord C K seed args .null false)
      else (ledgerRow ledger (.str args.dlId)).map fun row =>
        stampRecord C K seed args ((row.map fun row => claimOf row "customer_ref").getD .null)
          row.isSome := by
  have hverify : verifyPinned C signed ([b64e (K.verifyKey seed)] ++ STAMP_TRUST) =
      .ok (true, keyIdFor C (K.verifyKey seed)) := verifyPinned_signClaims hK hsigned STAMP_TRUST
  have hclaim : ∀ key : Str, key ≠ Str.ofString "signature" →
      key ≠ Str.ofString "customer_ref" → claimOf signed key =
        claimOf (stampClaims (F := F) { args with embedCustomer := false }) key :=
    fun key hsignature hcustomer => by
      rw [claimOf_stamp hsigned hsignature, claimOf_stampClaims hcustomer]
  have hcustomer : claimOf signed "customer_ref" =
      claimOf (stampClaims (F := F) args) "customer_ref" := claimOf_stamp hsigned (by decide)
  have hid : claimOf signed "download_id" = .str args.dlId := hclaim _ (by decide) (by decide)
  have htier : claimOf signed "tier" = .str args.tier := hclaim _ (by decide) (by decide)
  have hpackage : claimOf signed "package" = .str args.package :=
    hclaim _ (by decide) (by decide)
  have hversion : claimOf signed "version" = .str args.version :=
    hclaim _ (by decide) (by decide)
  have hissued : claimOf signed "issued_at" = .str args.now.isoformat :=
    hclaim _ (by decide) (by decide)
  have hbuyer : claimOf signed "buyer_id" = .null := hclaim _ (by decide) (by decide)
  have htruthy : (Json.str (F := F) args.dlId).truthy = true :=
    decide_eq_true (dlId_ne_nil args)
  have hnull : (Json.null (F := F)).truthy = false := rfl
  unfold attributeStamp
  rw [hverify]
  simp only [hcustomer, hid, htier, hpackage, hversion, hissued, hbuyer, Json.or]
  by_cases hnamed : (claimOf (stampClaims (F := F) args) "customer_ref").truthy = true
  · simp only [hnamed, htruthy, if_true]
    rfl
  · simp only [hnamed, Bool.false_eq_true, if_false, htruthy, hnull]
    rcases hempty : ledger.isEmpty with _ | _
    · simp only [Bool.false_eq_true, if_false]
      rcases ledgerRow ledger (.str args.dlId) with exc | row
      · rfl
      · rfl
    · rfl

/-- Whatever text the stamp is read from. -/
theorem attributeToken_signed
    (hsigned : signClaims C K seed (stampClaims args) = .ok signed) (ledger : Ledger F)
    {text : Str} (htext : loads text = some (.obj signed)) :
    attributeToken C [b64e (K.verifyKey seed)] ledger text =
      (attributeStamp C [b64e (K.verifyKey seed)] ledger signed).map .stamp := by
  have htype : claimOf signed "type" = .str STAMP_TYPE := by
    rw [claimOf_stamp hsigned (by decide), claimOf_stampClaims (by decide)]
    rfl
  have hstamp : (claimOf signed "type").isStr STAMP_TYPE = true := Json.isStr_iff.mpr htype
  rw [attributeToken, htext]
  simp only [hstamp, if_true]

end

/-! ### The text of a stamp -/

section

variable {F : Type} [PyFloat F] {C : Crypto} {K : SigningKey} {seed : Bytes}
  {args : StampArgs} {signed : Members F}

omit [PyFloat F] in
theorem keyed_stampClaims (args : StampArgs) : (Json.obj (stampClaims (F := F) args)).Keyed := by
  unfold stampClaims
  rcases args.embedCustomer with _ | _
  · rfl
  · rfl

/-- What can be signed has no split pair in it. -/
theorem strings_stamp (hsigned : signClaims C K seed (stampClaims args) = .ok signed) :
    (Json.obj signed).Strings Str.joined := by
  obtain ⟨message, hmessage, rfl⟩ := signClaims_eq_ok.mp hsigned
  have hclaims := (wellFormed_canonical _).mp (encodeUtf8_eq_ok_iff.mp hmessage).1
  rw [payload_stampClaims, Json.strings_obj] at hclaims
  have hjoined : ∀ s : Str, Str.encodable s = true → s.joined = true := fun s hs =>
    (of_decide_eq_true hs : Str.WellFormed s).joined
  have hvalue : ∀ m ∈ stampClaims (F := F) args, ∃ s, m.2 = .str s := by
    unfold stampClaims
    rcases args.embedCustomer with _ | _
    · simp
    · simp [dictSet]
  rw [Json.strings_obj]
  constructor
  · intro m hm
    rcases mem_dictSet hm with rfl | hm
    · exact (Str.wellFormed_ofString "signature").joined
    · exact hjoined _ (hclaims.1 m hm)
  · intro m hm
    rcases mem_dictSet hm with rfl | hm
    · exact strings_signatureBlock message
    · obtain ⟨s, hs⟩ := hvalue m hm
      have hencodable := hclaims.2 m hm
      rw [hs, Json.strings_str] at hencodable ⊢
      exact hjoined s hencodable

/-- The text at every site is read back as the stamp. -/
theorem loads_stamp (hsigned : signClaims C K seed (stampClaims args) = .ok signed) :
    loads (dumpsIndent 2 (.obj signed)) = some (.obj signed) :=
  loads_dumpsIndent 2 (keyed_signClaims hsigned (keyed_stampClaims args)) (strings_stamp hsigned)

/-! ### Hidden customers -/

/-- The same call for another customer, whom neither stamp names. -/
def HidesCustomer (a b : StampArgs) : Prop :=
  a.embedCustomer = false ∧ ∃ customer, b = { a with customer := customer }

/-- The customer of a privacy-mode stamp does not reach the package tree. -/
theorem stampTree_hidden {a b : StampArgs} (h : HidesCustomer a b) (tree : PackageTree) :
    stampTree (F := F) C K seed tree b = stampTree C K seed tree a := by
  obtain ⟨hhidden, customer, rfl⟩ := h
  have hclaims : stampClaims (F := F) { a with customer := customer } = stampClaims a := by
    unfold stampClaims
    simp only [hhidden]
    rfl
  have hblob : signedBlob (F := F) C K seed { a with customer := customer } =
      signedBlob C K seed a := by
    unfold signedBlob
    rw [hclaims]
  unfold stampTree
  rw [hblob]
  rfl

theorem stampArtifact_hidden {a b : StampArgs} (h : HidesCustomer a b) {disk disk' : Disk}
    (hpackages : disk.packages = disk'.packages) :
    (stampArtifact (F := F) C K seed disk a).1.packages =
        (stampArtifact (F := F) C K seed disk' b).1.packages ∧
      (stampArtifact (F := F) C K seed disk a).2 =
        (stampArtifact (F := F) C K seed disk' b).2 := by
  have hroot : b.artifactRoot = a.artifactRoot := by
    obtain ⟨_, customer, rfl⟩ := h
    rfl
  unfold stampArtifact
  rw [hroot, ← hpackages]
  rcases dictGet disk.packages a.artifactRoot with _ | tree
  · exact ⟨hpackages, rfl⟩
  · simp only [stampTree_hidden h]
    rcases (stampTree (F := F) C K seed tree a).2 with exc | stamped
    · simp [hpackages]
    · simp [hpackages]

theorem loadLedger_disk [FloatEq F] (disk : Disk) (path : Str) :
    loadLedger F (dictGet disk.ledgers path) = loadLedger F (some (disk.ledger path)) := by
  unfold Disk.ledger
  rcases dictGet disk.ledgers path with _ | text
  · simp [loadLedger, universalNewlines, Str.split, loadRows, loadRow, Str.strip]
  · rfl

/-- Privacy mode.  What is written into the package trees is the same whoever
the customers are, and with the ledger every stamp names its own. -/
theorem hidden_stamps [FloatEq F] (hK : SignsFor C K seed) {disk : Disk} {path : Str}
    (hpath : path ≠ []) (hempty : disk.ledger path = []) {calls : List StampArgs}
    (hcalls : ∀ args ∈ calls, args.embedCustomer = false ∧ args.ledgerPath = some path ∧
      args.WellFormed) (hids : (calls.map StampArgs.dlId).Nodup) :
    let step := stampArtifact (F := F) C K seed
    (∀ calls', List.Forall₂ HidesCustomer calls calls' →
      (Transition.after step disk calls).packages =
          (Transition.after step disk calls').packages ∧
        Transition.answers step disk calls = Transition.answers step disk calls') ∧
    ∀ before args later stamped, calls = before ++ args :: later →
      (step (Transition.after step disk before) args).2 = .ok stamped →
      ∃ record : StampRecord F, record.ok = true ∧ record.downloadId = .str args.dlId ∧
        record.resolvedViaLedger = true ∧ record.customerRef = .str args.customer ∧
        (∀ text, loads text = some (.obj stamped.stamp) →
          attributeToken C [b64e (K.verifyKey seed)]
            (loadLedger F (dictGet (Transition.after step disk calls).ledgers path)) text =
              .ok (.stamp record)) ∧
        ∃ tree, dictGet (step (Transition.after step disk before) args).1.packages
            args.artifactRoot = some tree ∧
          ∀ site ∈ args.places, ∃ blob text, dictGet tree site.text = some blob ∧
            decodeUtf8 blob = some text ∧ loads text = some (.obj stamped.stamp) := by
  intro step
  constructor
  · intro calls' hmatch
    have hrun := @Transition.lockstep _ _ _ _ step HidesCustomer id
      (fun disk disk' => disk.packages = disk'.packages)
      (fun _ _ _ _ hhides hpackages => stampArtifact_hidden hhides hpackages)
      disk disk calls calls' rfl hmatch
    simpa using hrun
  · rintro before args later stamped rfl hstamped
    obtain ⟨tree, htree, hwrote⟩ := stampArtifact_wrote hstamped
    have haccepted : args ∈ Transition.accepted step disk (before ++ args :: later) :=
      Transition.mem_accepted hstamped
    have hsub := Transition.accepted_sublist step disk (before ++ args :: later)
    have hledger : loadLedger F (dictGet
        (Transition.after step disk (before ++ args :: later)).ledgers path) =
        (Transition.accepted step disk (before ++ args :: later)).map rowEntry := by
      rw [loadLedger_disk, ledger_after (fun c hc => (hcalls c hc).2.1) hpath, hempty,
        List.nil_append]
      exact loadLedger_rows (fun c hc => (hcalls c (hsub.mem hc)).2.2)
        (hids.sublist (hsub.map _))
    have hrow := ledgerRow_entry (F := F) (hids.sublist (hsub.map _)) haccepted
    have hhidden : (claimOf (stampClaims (F := F) args) "customer_ref").truthy = false := by
      unfold stampClaims
      rw [(hcalls args (by simp)).1]
      rfl
    have hne : ((Transition.accepted step disk (before ++ args :: later)).map
        (rowEntry (F := F))).isEmpty = false := by
      rw [List.isEmpty_eq_false_iff]
      exact List.ne_nil_of_mem (List.mem_map_of_mem haccepted)
    have hcustomer : claimOf (sortedMembers (stampRow (F := F) args)) "customer_ref" =
        .str args.customer := claimOf_row args rfl
    refine ⟨stampRecord C K seed args (.str args.customer) true, rfl, rfl, rfl, rfl, ?_,
      tree, htree, fun site hsite => ?_⟩
    · intro text htext
      rw [attributeToken_signed hwrote.signs _ htext, attributeStamp_signed hK hwrote.signs,
        hledger, hhidden, hne, hrow]
      simp [Except.map, hcustomer]
    · exact ⟨_, _, hwrote.files site hsite,
        decodeUtf8_utf8 (ascii_dumpsIndent 2 _).wellFormed, loads_stamp hwrote.signs⟩

end

section

attribute [local instance] FloatView.asFloat FloatView.asFloatEq

/-- The first second of 2026. -/
def newYear : Instant where
  year := 2026
  month := 1
  day := 1
  hour := 0
  minute := 0
  second := 0
  year_le := by decide
  month_le := by decide
  day_le := by decide
  hour_le := by decide
  minute_le := by decide
  second_le := by decide

/-- A download in privacy mode. -/
def hiddenDownload (id customer : Str) : StampArgs where
  artifactRoot := "pkg"
  customer := customer
  tier := "pro"
  package := "pro"
  version := "1.8.2"
  downloadId := some id
  ledgerPath := some "ledger"
  embedCustomer := false
  uuid := []
  now := newYear

/-- A package with one file, and no ledger yet. -/
def freshDisk : Disk where
  packages := [("pkg", [("README", [])])]
  ledgers := []

/-- What is signed for a download, behind what is signed for its customer. -/
def stampMessage (customer : List String) (id : String) : Bytes :=
  piecesBytes (["\x7b"] ++ customer ++ ["\"download_id\":\"", id, "\",\"issued_at\":",
    "\"2026-01-01T00:00:00", "+00:00\",\"package\":", "\"pro\",\"tier\":\"pro\",",
    "\"type\":\"netplex-", "download-stamp\",", "\"version\":\"1.8.2\"\x7d"])

/-- The recorded key with the signatures of four stamps. -/
def stampKey : SignatureTable where
  seed := recordedKey.seed
  publicKey := recordedKey.publicKey
  digests := recordedKey.digests
  known :=
    [(stampMessage [] "dl-1", piecesBase64 ["y3CeEseHfkl2BGtJswjN", "U1XBAVjBnHbl27MjHAp/",
        "6w+J3nR8uFiSP8oG//F3", "orGnfbYsTrYVNwfPeT6T", "DNxhDA=="]),
    (stampMessage [] "dl-2", piecesBase64 ["GmffcXnwpcABWRq/q8iH", "jt8OXNkZqpDNf8tH93Wb",
        "tNHEF4NTY5/LcT6ZOTQ9", "yUB0tY3/r87Bfg5Pr1jc", "LmaiDQ=="]),
    (stampMessage ["\"customer_ref\":", "\"acme\","] "dl-1", piecesBase64
      ["9qKDbHPhRfaBSHQ46Q2d", "c1ePBFuK+YVFrWj4MrW8", "1wMYKrEQbCVXsihCko5t",
        "mFzQOWU8qZDBSYRaEwHe", "oujrAA=="]),
    (stampMessage ["\"customer_ref\":", "\"a\x7d\","] "dl-1", piecesBase64
      ["GxjKaGX3L2TJ6rxR2DRG", "Ill3+vcDTD5wmA4ItJnD", "VzgODCia7QxDj4LCVntg",
        "H3LMiONg3IXat8NpJ4BO", "xtKVBQ=="])]
  publicKey_length := recordedKey.publicKey_length
  known_length := by decide +kernel
  known_nodup := by decide +kernel

/-- Stamping with that key. -/
def recordedStamping : Disk → StampArgs → Disk × Except Exc (Stamped FloatView) :=
  stampArtifact stampKey.crypto stampKey.signingKey stampKey.seed

/-- The pinned text of its public key. -/
def stampPublicKey : Str := b64e (stampKey.signingKey.verifyKey stampKey.seed)

/-- The second of two downloads is resolved to its customer, whose name has a
quote and a line break in it. -/
theorem hidden_stamps_quote :
    ∃ (stamped : Stamped FloatView) (record : StampRecord FloatView) (text : Str),
      (recordedStamping (recordedStamping freshDisk (hiddenDownload "dl-1" "acme")).1
        (hiddenDownload "dl-2" "a\"\n")).2 = .ok stamped ∧
      record.customerRef = .str "a\"\n" ∧ record.resolvedViaLedger = true ∧
      attributeToken stampKey.crypto [stampPublicKey]
        (loadLedger FloatView (dictGet (Transition.after recordedStamping freshDisk
          [hiddenDownload "dl-1" "acme", hiddenDownload "dl-2" "a\"\n"]).ledgers "ledger"))
        text = .ok (.stamp record) := by
  have hwell : ∀ id customer : String, (hiddenDownload id customer).dlId = Str.ofString id →
      (hiddenDownload id customer).WellFormed := by
    intro id customer hid
    refine ⟨?_, Str.wellFormed_ofString customer, Str.wellFormed_ofString _,
      Str.wellFormed_ofString _, Str.wellFormed_ofString _⟩
    rw [hid]
    exact Str.wellFormed_ofString id
  have hcalls : ∀ args ∈ [hiddenDownload "dl-1" "acme", hiddenDownload "dl-2" "a\"\n"],
      args.embedCustomer = false ∧ args.ledgerPath = some (Str.ofString "ledger") ∧
        args.WellFormed := by
    rw [List.forall_mem_cons, List.forall_mem_singleton]
    exact ⟨⟨rfl, rfl, hwell _ _ (by decide)⟩, rfl, rfl, hwell _ _ (by decide)⟩
  have hreturns : (recordedStamping (recordedStamping freshDisk (hiddenDownload "dl-1" "acme")).1
      (hiddenDownload "dl-2" "a\"\n")).2.toOption.isSome = true := by decide +kernel
  rcases hok : (recordedStamping (recordedStamping freshDisk (hiddenDownload "dl-1" "acme")).1
      (hiddenDownload "dl-2" "a\"\n")).2 with exc | stamped
  · rw [hok] at hreturns
    cases hreturns
  · obtain ⟨record, _, _, hresolved, hcustomer, htext, tree, _, hfiles⟩ :=
      (hidden_stamps (F := FloatView) stampKey.verifies_sign_iff
        (by decide : Str.ofString "ledger" ≠ [])
        (rfl : freshDisk.ledger "ledger" = []) hcalls (by decide)).2
        [hiddenDownload "dl-1" "acme"] (hiddenDownload "dl-2" "a\"\n") [] stamped rfl hok
    obtain ⟨blob, text, _, _, hloads⟩ := hfiles ⟨"install-stamp.json", by decide⟩ (by decide)
    exact ⟨stamped, record, text, rfl, hcustomer, hresolved, htext text hloads⟩

end

end NetplexSupport
