/-
The downloads of a run in a leaked tree.  Stamps with and without their customer lie
among each other under whatever paths; the scan has one record for each download that
something is left of, with its own customer and its own copies.
-/
import NetplexSupport.Attribution.Survivors
import NetplexSupport.Python.GroupBy

namespace NetplexSupport

open Py

/-! ### One record for each mark -/

section

variable {ι : Type} [DecidableEq ι] {β : Type}

/-- The paths of what is marked with `i`, in their order. -/
def pathsOf (entries : List (Option ι × Str × β)) (i : ι) : List Str :=
  (entries.filter fun e => e.1 = some i).map fun e => e.2.1

theorem pathsOf_concat (entries : List (Option ι × Str × β)) (e : Option ι × Str × β) (i : ι) :
    pathsOf (entries ++ [e]) i = pathsOf entries i ++ if e.1 = some i then [e.2.1] else [] := by
  rw [pathsOf, pathsOf, List.filter_append, List.map_append, List.filter_singleton]
  by_cases he : e.1 = some i
  · simp [he]
  · simp [he]

variable {F : Type} [FloatEq F]

/-- The records of the marks, in the order in which they come up. -/
def marks (leak : ι → Leak F) (entries : List (Option ι × Str × β)) : List (LeakHit F) :=
  (setOf (entries.filterMap Prod.fst)).map fun i =>
    ⟨leak i, (pathsOf entries i).length, pathsOf entries i⟩

/-- The marked attributions are stamps that are told apart by their marks, and all others
are no stamps. -/
structure Marked (leak : ι → Leak F) (entries : List (Option ι × Str × Leak F)) : Prop where
  own : ∀ e ∈ entries, ∀ i, e.1 = some i → e.2.2 = leak i
  stamp : ∀ e ∈ entries, ∀ i, e.1 = some i → (leak i).isStamp = true
  other : ∀ e ∈ entries, e.1 = none → e.2.2.isStamp = false
  apart : ∀ i ∈ entries.filterMap Prod.fst, ∀ j ∈ entries.filterMap Prod.fst,
    (leak i).sameKey (leak j) = decide (i = j)

omit [DecidableEq ι] in
/-- A turn of the loop that meets no stamp leaves the stamps alone. -/
theorem recordLeak_other {hits hits' : List (LeakHit F)} {found : Str × Leak F}
    (hfound : found.2.isStamp = false) (h : recordLeak hits found = .ok hits') :
    hits'.filter (fun hit => hit.leak.isStamp) = hits.filter fun hit => hit.leak.isStamp := by
  obtain ⟨-, rfl⟩ := recordLeak_eq_ok h
  split
  · rw [List.filter_map]
    simp only [Function.comp_def, fun hit : LeakHit F =>
      congrArg Leak.isStamp (leak_counted hit found)]
    conv_rhs => rw [← List.map_id (hits.filter _)]
    apply List.map_congr_left
    intro hit hmem
    have hsame : ¬ hit.leak.sameKey found.2 = true := by
      intro hsame
      have hkind := Leak.sameKey_isStamp hsame
      rw [(List.mem_filter.mp hmem).2, hfound] at hkind
      cases hkind
    simp [hsame]
  · rw [List.filter_append]
    simp [hfound]

omit [DecidableEq ι] in
theorem labels_concat {entries : List (Option ι × Str × β)} {e : Option ι × Str × β}
    {i : ι} (he : e.1 = some i) :
    (entries ++ [e]).filterMap Prod.fst = entries.filterMap Prod.fst ++ [i] := by
  simp [List.filterMap_append, he]

theorem pathsOf_new {entries : List (Option ι × Str × β)} {i : ι}
    (hi : i ∉ entries.filterMap Prod.fst) : pathsOf entries i = [] := by
  rw [pathsOf, List.map_eq_nil_iff, List.filter_eq_nil_iff]
  intro e he hmark
  exact hi (List.mem_filterMap.mpr ⟨e, he, of_decide_eq_true hmark⟩)

/-- A turn of the loop that meets a marked stamp counts it with its mark. -/
theorem recordLeak_mark {leak : ι → Leak F} {entries : List (Option ι × Str × Leak F)}
    {e : Option ι × Str × Leak F} (hmarked : Marked leak (entries ++ [e])) {i : ι}
    (he : e.1 = some i) {hits hits' : List (LeakHit F)}
    (hby : hits.filter (fun hit => hit.leak.isStamp) = marks leak entries)
    (h : recordLeak hits e.2 = .ok hits') :
    hits'.filter (fun hit => hit.leak.isStamp) = marks leak (entries ++ [e]) := by
  obtain ⟨-, rfl⟩ := recordLeak_eq_ok h
  have hlast : e ∈ entries ++ [e] := by simp
  have hown : e.2.2 = leak i := hmarked.own e hlast i he
  have hstamp : (leak i).isStamp = true := hmarked.stamp e hlast i he
  have hlabels : (entries ++ [e]).filterMap Prod.fst = entries.filterMap Prod.fst ++ [i] :=
    labels_concat he
  have happart : ∀ j ∈ entries.filterMap Prod.fst, (leak j).sameKey (leak i) = decide (j = i) :=
    fun j hj => hmarked.apart j (by simp [hlabels, hj]) i (by simp [hlabels])
  have hpaths : ∀ j, j ≠ i → pathsOf (entries ++ [e]) j = pathsOf entries j := fun j hj => by
    rw [pathsOf_concat, he, if_neg (by simpa using hj.symm), List.append_nil]
  have hpath : pathsOf (entries ++ [e]) i = pathsOf entries i ++ [e.2.1] := by
    rw [pathsOf_concat, if_pos he]
  by_cases hi : i ∈ entries.filterMap Prod.fst
  · -- Another copy of a stamp that is there.
    have hany : hits.any (fun hit => hit.leak.sameKey e.2.2) = true := by
      have hmem : (⟨leak i, (pathsOf entries i).length, pathsOf entries i⟩ : LeakHit F) ∈
          hits.filter fun hit => hit.leak.isStamp := by
        rw [hby]
        exact List.mem_map_of_mem (mem_setOf.mpr hi)
      refine List.any_eq_true.mpr ⟨_, (List.mem_filter.mp hmem).1, ?_⟩
      rw [hown, happart i hi, decide_eq_true_eq]
    rw [if_pos hany, List.filter_map]
    simp only [Function.comp_def, fun hit : LeakHit F =>
      congrArg Leak.isStamp (leak_counted hit e.2), hby]
    rw [marks, marks, hlabels, setOf_concat, setAdd, if_pos (mem_setOf.mpr hi), List.map_map]
    apply List.map_congr_left
    intro j hj
    simp only [Function.comp_apply, hown, happart j (mem_setOf.mp hj), decide_eq_true_eq]
    by_cases hji : j = i
    · rw [if_pos hji, hji, hpath, List.length_append]
      rfl
    · rw [if_neg hji, hpaths j hji]
  · have hany : ¬ hits.any (fun hit => hit.leak.sameKey e.2.2) = true := by
      intro hany
      obtain ⟨hit, hmem, hsame⟩ := List.any_eq_true.mp hany
      rw [hown] at hsame
      have hthere : hit ∈ marks leak entries :=
        hby ▸ List.mem_filter.mpr ⟨hmem, (Leak.sameKey_isStamp hsame).trans hstamp⟩
      obtain ⟨j, hj, rfl⟩ := List.mem_map.mp hthere
      have hji := (happart j (mem_setOf.mp hj)).symm.trans hsame
      exact hi (of_decide_eq_true hji ▸ mem_setOf.mp hj)
    rw [if_neg hany, List.filter_append, hby, marks, marks, hlabels, setOf_concat, setAdd,
      if_neg (mt mem_setOf.mp hi), List.map_append]
    congr 1
    · apply List.map_congr_left
      intro j hj
      have hji : j ≠ i := fun heq => hi (heq ▸ mem_setOf.mp hj)
      rw [hpaths j hji]
    · rw [List.map_singleton, hpath, pathsOf_new hi, ← hown]
      simp [hown, hstamp]

omit [DecidableEq ι] in
theorem labels_unmarked {entries : List (Option ι × Str × β)} {e : Option ι × Str × β}
    (he : e.1 = none) :
    (entries ++ [e]).filterMap Prod.fst = entries.filterMap Prod.fst := by
  simp [List.filterMap_append, he]

omit [FloatEq F] in
/-- What is not marked changes no record. -/
theorem marks_unmarked (leak : ι → Leak F) {entries : List (Option ι × Str × β)}
    {e : Option ι × Str × β} (he : e.1 = none) :
    marks leak (entries ++ [e]) = marks leak entries := by
  have hpaths : ∀ i, pathsOf (entries ++ [e]) i = pathsOf entries i := fun i => by
    rw [pathsOf_concat, he, if_neg (by simp), List.append_nil]
  simp only [marks, labels_unmarked he, hpaths]

theorem Marked.init {leak : ι → Leak F} {entries : List (Option ι × Str × Leak F)}
    {e : Option ι × Str × Leak F} (h : Marked leak (entries ++ [e])) : Marked leak entries where
  own e he := h.own e (List.mem_append_left _ he)
  stamp e he := h.stamp e (List.mem_append_left _ he)
  other e he := h.other e (List.mem_append_left _ he)
  apart i hi j hj := h.apart i (by rw [List.filterMap_append]; exact List.mem_append_left _ hi)
    j (by rw [List.filterMap_append]; exact List.mem_append_left _ hj)

/-- The loop ends when every id can be a key, with one record for each mark. -/
theorem foldlM_recordLeak_marks {leak : ι → Leak F}
    {entries : List (Option ι × Str × Leak F)} (hmarked : Marked leak entries)
    (hkeys : ∀ e ∈ entries, e.2.2.ident.hashError = none) :
    ∃ hits, (entries.map Prod.snd).foldlM recordLeak [] = .ok hits ∧
      hits.filter (fun hit => hit.leak.isStamp) = marks leak entries := by
  induction entries using List.reverseRecOn with
  | nil => exact ⟨[], rfl, rfl⟩
  | append_singleton entries e ih =>
      obtain ⟨hits, hrun, hby⟩ := ih hmarked.init fun e he =>
        hkeys e (List.mem_append_left _ he)
      obtain ⟨hits', hrecord⟩ : ∃ hits', recordLeak hits e.2 = .ok hits' := by
        simp [recordLeak, hkeys e (by simp)]
      refine ⟨hits', ?_, ?_⟩
      · rw [List.map_append, List.foldlM_append, hrun, List.map_singleton]
        refine bind_eq_ok.mpr ⟨hits, rfl, ?_⟩
        rw [List.foldlM_cons]
        exact bind_eq_ok.mpr ⟨hits', hrecord, rfl⟩
      · rcases he : e.1 with _ | i
        · rw [marks_unmarked leak he, ← hby]
          exact recordLeak_other (hmarked.other e (by simp) he) hrecord
        · exact recordLeak_mark hmarked he hby hrecord

end

/-! ### A stamp, with its customer or without -/

/-- The strings of a stamp behind its type. -/
def StampArgs.fields (args : StampArgs) : List (Str × Str) :=
  let first : List (Str × Str) :=
    [("download_id", args.dlId), ("tier", args.tier), ("package", args.package),
      ("version", args.version), ("issued_at", args.now.isoformat)]
  let last : List (Str × Str) :=
    if args.embedCustomer then [("customer_ref", args.customer)] else []
  first ++ last

theorem fields_subset (args : StampArgs) : args.fields ⊆ stampFields args := by
  intro f hf
  rcases List.mem_append.mp hf with hf | hf
  · exact List.mem_append_left [(Str.ofString "customer_ref", args.customer)] hf
  · split at hf
    · obtain rfl := List.mem_singleton.mp hf
      simp [stampFields]
    · cases hf

/-- The stamp itself names its customer. -/
def StampArgs.named (args : StampArgs) : Bool :=
  args.embedCustomer && decide (args.customer ≠ [])

section

variable {F : Type} [PyFloat F] {C : Crypto} {K : SigningKey} {seed : Bytes} {args : StampArgs}

theorem dumpsIndent_fields (message : Bytes) :
    dumpsIndent 2 (.obj (dictSet (stampClaims (F := F) args) "signature"
      (.obj (signatureBlock C K seed message)))) =
        ch '{' :: (newline 2 1 ++ fieldText ("type", STAMP_TYPE) ++ fieldLines args.fields ++
          signatureTail (blockLines C K seed message)) := by
  rcases hembed : args.embedCustomer with _ | _
  · have hclaims : stampClaims args = ([("type", .str STAMP_TYPE),
        ("download_id", .str args.dlId), ("tier", .str args.tier), ("package", .str args.package),
        ("version", .str args.version), ("issued_at", .str args.now.isoformat)] : Members F) := by
      unfold stampClaims
      rw [hembed]
      rfl
    have hnew : Str.ofString "signature" ∉ (stampClaims (F := F) args).map Prod.fst := by
      rw [hclaims]
      simp only [List.map_cons, List.map_nil]
      decide
    rw [dictSet_new _ _ _ hnew, hclaims]
    simp [dumpsIndent, Json.pretty, Json.prettyMembers, signatureBlock, blockLines,
      fieldLines, StampArgs.fields, fieldText, signatureTail, signatureKey, hembed]
  · rw [dumpsIndent_stamp hembed, stampText, StampArgs.fields, hembed]
    rfl

/-- A stamp without braces in its strings is one match of the scanner's pattern. -/
theorem fields_match {signed : Members F}
    (hsigned : signClaims C K seed (stampClaims args) = .ok signed)
    (hplain : ∀ f ∈ args.fields, TextBraceFree f.2) :
    Regex.Matches leakPattern (utf8 (dumpsIndent 2 (.obj signed))) := by
  obtain ⟨message, -, rfl⟩ := signClaims_eq_ok.mp hsigned
  have hascii := ascii_dumpsIndent 2 (.obj (dictSet (stampClaims (F := F) args)
    "signature" (.obj (signatureBlock C K seed message))))
  have hkey : signatureKey = (ch ',' :: newline 2 1) ++ "\"signature\": " := by decide +kernel
  have halg : fieldText ("alg", "ed25519") = "\"alg\": \"ed25519\"" := by decide +kernel
  obtain ⟨behind, hblock⟩ : ∃ behind, blockLines C K seed message =
      newline 2 2 ++ "\"alg\": \"ed25519\"" ++ behind := by
    rw [blockLines, halg]
    simp only [List.append_assoc]
    exact ⟨_, rfl⟩
  have htext : dumpsIndent 2 (.obj (dictSet (stampClaims (F := F) args) "signature"
      (.obj (signatureBlock C K seed message)))) = nestedText
        (((newline 2 1 ++ fieldText ("type", STAMP_TYPE)) ++ fieldLines args.fields ++
          (ch ',' :: newline 2 1)) ++ "\"signature\": ")
        (newline 2 2 ++ "\"alg\": \"ed25519\"" ++ behind) (newline 2 0) := by
    rw [dumpsIndent_fields, signatureTail, hkey, hblock, nestedText]
    simp only [List.append_assoc, List.cons_append]
  have hkeys : ∀ f ∈ args.fields, TextBraceFree f.1 := fun f hf =>
    stampFields_keys f (fields_subset args hf)
  have hcomma : TextBraceFree (ch ',' :: newline 2 1) := by decide
  have hbehind : TextBraceFree behind :=
    (textBraceFree_append.mp (hblock ▸ textBraceFree_blockLines message)).2
  rw [htext] at hascii ⊢
  exact matches_signedText (textBraceFree_append.mpr ⟨textBraceFree_append.mpr
    ⟨textBraceFree_stampType, (textBraceFree_fieldLines hkeys).mpr hplain⟩, hcomma⟩)
    (textBraceFree_newline 2 2) hbehind (textBraceFree_newline 2 0) hascii

variable [FloatEq F]

/-- What the scanner says of a stamp whose download is in the ledger. -/
def downloadLeak (C : Crypto) (K : SigningKey) (seed : Bytes) (args : StampArgs) : Leak F :=
  .stamp (stampRecord C K seed args (.str args.customer) (!args.named))

omit [PyFloat F] in
theorem ident_downloadLeak (args : StampArgs) :
    (downloadLeak (F := F) C K seed args).ident = .str args.dlId :=
  if_pos (decide_eq_true (dlId_ne_nil args))

omit [PyFloat F] in
theorem sameKey_downloadLeak (args args' : StampArgs) :
    (downloadLeak (F := F) C K seed args).sameKey (downloadLeak C K seed args') =
      decide (args.dlId = args'.dlId) := by
  rw [Bool.eq_iff_iff, decide_eq_true_eq, Leak.sameKey_iff (ident_downloadLeak args'),
    ident_downloadLeak, ident_downloadLeak]
  constructor
  · rintro ⟨-, hident, -⟩
    exact Json.str.inj hident
  · intro hid
    exact ⟨rfl, congrArg Json.str hid, rfl, rfl⟩

/-- A stamp is attributed to its customer, whom it names itself or the ledger does. -/
theorem leakOf_download (hK : SignsFor C K seed) {signed : Members F}
    (hsigned : signClaims C K seed (stampClaims args) = .ok signed) {calls : List StampArgs}
    (hids : (calls.map StampArgs.dlId).Nodup) (hmem : args ∈ calls) :
    leakOf (F := F) C [b64e (K.verifyKey seed)] (calls.map rowEntry)
        (utf8 (dumpsIndent 2 (.obj signed))) = some (downloadLeak C K seed args) := by
  have hcustomer : claimOf (stampClaims (F := F) args) "customer_ref" =
      if args.embedCustomer then .str args.customer else .null := by
    unfold stampClaims
    rcases args.embedCustomer with _ | _
    · rfl
    · rfl
  have hnamed : (claimOf (stampClaims (F := F) args) "customer_ref").truthy = args.named := by
    rw [hcustomer, StampArgs.named]
    rcases args.embedCustomer with _ | _
    · rfl
    · rfl
  have hledger : (calls.map (rowEntry (F := F))).isEmpty = false := by
    rw [List.isEmpty_eq_false_iff]
    exact List.ne_nil_of_mem (List.mem_map_of_mem hmem)
  have hrow : claimOf (sortedMembers (stampRow (F := F) args)) "customer_ref" =
      .str args.customer := claimOf_row args rfl
  rw [leakOf, decodeUtf8_utf8 (ascii_dumpsIndent 2 _).wellFormed, Option.bind_some,
    attributeToken_signed hsigned _ (loads_stamp hsigned), attributeStamp_signed hK hsigned,
    hnamed, hledger, ledgerRow_entry hids hmem, downloadLeak]
  rcases hself : args.named with _ | _
  · simp only [Bool.false_eq_true, if_false, Except.map, Option.map_some, Option.getD_some, hrow]
    rfl
  · have hembed : args.embedCustomer = true := (Bool.and_eq_true_iff.mp hself).1
    rw [hcustomer, hembed]
    rfl

end

/-! ### What is left of a run -/

section

variable {F : Type} [PyFloat F] {C : Crypto} {K : SigningKey} {seed : Bytes}

variable (F C K seed) in
/-- Call `i` of the run returned, and wrote these bytes at one of its sites. -/
def WrittenBy (disk : Disk) (calls : List StampArgs) (i : Nat) (args : StampArgs)
    (content : Bytes) : Prop :=
  calls[i]? = some args ∧ ∃ stamped tree, ∃ site ∈ args.places,
    (stampArtifact (F := F) C K seed
      (Transition.after (stampArtifact (F := F) C K seed) disk (calls.take i)) args).2 =
        .ok stamped ∧
    dictGet (stampArtifact (F := F) C K seed
      (Transition.after (stampArtifact (F := F) C K seed) disk (calls.take i))
        args).1.packages args.artifactRoot = some tree ∧
    dictGet tree site.text = some content

/-- The bytes are the text of the call's stamp, and the call is in the ledger. -/
theorem WrittenBy.stamp {disk : Disk} {calls : List StampArgs} {i : Nat} {args : StampArgs}
    {content : Bytes} (h : WrittenBy F C K seed disk calls i args content) :
    args ∈ Transition.accepted (stampArtifact (F := F) C K seed) disk calls ∧
      ∃ signed : Members F, signClaims C K seed (stampClaims args) = .ok signed ∧
        content = utf8 (dumpsIndent 2 (.obj signed)) := by
  obtain ⟨hcall, stamped, tree, site, hsite, hstamped, htree, hcontent⟩ := h
  obtain ⟨hlt, rfl⟩ := List.getElem?_eq_some_iff.mp hcall
  obtain ⟨tree', htree', hwrote⟩ := stampArtifact_wrote hstamped
  obtain rfl : tree' = tree := Option.some.inj (htree'.symm.trans htree)
  have hsplit : calls = calls.take i ++ calls[i] :: calls.drop (i + 1) := by
    rw [← List.drop_eq_getElem_cons hlt, List.take_append_drop]
  refine ⟨?_, stamped.stamp, hwrote.signs, ?_⟩
  · have hmem : calls[i] ∈ Transition.accepted (stampArtifact (F := F) C K seed) disk
        (calls.take i ++ calls[i] :: calls.drop (i + 1)) := Transition.mem_accepted hstamped
    rwa [← hsplit] at hmem
  · exact Option.some.inj (hcontent.symm.trans (hwrote.files site hsite))

variable [FloatEq F]

/-- The ledger at the end of a run has the rows of the calls that returned. -/
theorem loadLedger_after {disk : Disk} {path : Str} (hpath : path ≠ [])
    (hempty : disk.ledger path = []) {calls : List StampArgs}
    (hcalls : ∀ args ∈ calls, args.ledgerPath = some path ∧ args.WellFormed)
    (hids : (calls.map StampArgs.dlId).Nodup) :
    loadLedger F (dictGet
        (Transition.after (stampArtifact (F := F) C K seed) disk calls).ledgers path) =
      (Transition.accepted (stampArtifact (F := F) C K seed) disk calls).map rowEntry := by
  have hsub := Transition.accepted_sublist (stampArtifact (F := F) C K seed) disk calls
  rw [loadLedger_disk, ledger_after (fun c hc => (hcalls c hc).1) hpath, hempty, List.nil_append]
  exact loadLedger_rows (fun c hc => (hcalls c (hsub.mem hc)).2) (hids.sublist (hsub.map _))

/-- A file that is left of a call yields its stamp. -/
theorem leaksOf_writtenBy (hK : SignsFor C K seed) {disk : Disk} {calls : List StampArgs}
    (hids : (calls.map StampArgs.dlId).Nodup) {i : Nat} {args : StampArgs} {content : Bytes}
    (h : WrittenBy F C K seed disk calls i args content)
    (hplain : ∀ f ∈ args.fields, TextBraceFree f.2) (hsize : content.length ≤ readLimit)
    (path : Str) :
    leaksOf (F := F) C [b64e (K.verifyKey seed)]
        ((Transition.accepted (stampArtifact (F := F) C K seed) disk calls).map rowEntry)
        [(path, some content)] = [(path, downloadLeak C K seed args)] := by
  obtain ⟨haccepted, signed, hsigned, rfl⟩ := h.stamp
  have hsub := Transition.accepted_sublist (stampArtifact (F := F) C K seed) disk calls
  have hleak := leakOf_download hK hsigned (hids.sublist (hsub.map _)) haccepted
  have hne : utf8 (dumpsIndent 2 (.obj signed)) ≠ [] := by
    obtain ⟨message, -, rfl⟩ := signClaims_eq_ok.mp hsigned
    rw [dumpsIndent_fields, utf8_open]
    simp
  have hfind := Regex.finditer_append_match leakPattern_unambiguous
    (fields_match hsigned hplain) hne []
  rw [List.append_nil] at hfind
  have hblobs : leakBlobs (path, some (utf8 (dumpsIndent 2 (.obj signed)))) =
      [utf8 (dumpsIndent 2 (.obj signed))] := by
    simp only [leakBlobs, List.take_of_length_le hsize]
    exact hfind
  rw [leaksOf, List.flatMap_singleton, hblobs, List.filterMap_cons, hleak]
  rfl

/-! ### The scan of what is left -/

variable (C) in
/-- The attributed matches of a tree whose files are marked. -/
def markedLeaks (stampTrust : List Str) (ledger : Ledger F)
    (tree : List (Option Nat × LeakFile)) : List (Option Nat × Str × Leak F) :=
  tree.flatMap fun e => (leaksOf C stampTrust ledger [e.2]).map fun found => (e.1, found)

theorem markedLeaks_leaks (stampTrust : List Str) (ledger : Ledger F)
    (tree : List (Option Nat × LeakFile)) :
    (markedLeaks C stampTrust ledger tree).map Prod.snd =
      leaksOf C stampTrust ledger (tree.map Prod.snd) := by
  rw [markedLeaks, List.map_flatMap, leaksOf, List.flatMap_map]
  apply List.flatMap_congr
  intro e _
  rw [List.map_map, leaksOf, List.flatMap_singleton]
  exact List.map_id _

/-- Each marked file yields one attribution, which is that of its mark. -/
def OneEach (C : Crypto) (stampTrust : List Str) (ledger : Ledger F) (leak : Nat → Leak F)
    (tree : List (Option Nat × LeakFile)) : Prop :=
  ∀ e ∈ tree, ∀ i, e.1 = some i → leaksOf C stampTrust ledger [e.2] = [(e.2.1, leak i)]

theorem markedLeaks_cons (stampTrust : List Str) (ledger : Ledger F)
    (e : Option Nat × LeakFile) (tree : List (Option Nat × LeakFile)) :
    markedLeaks C stampTrust ledger (e :: tree) =
      (leaksOf C stampTrust ledger [e.2]).map (fun found => (e.1, found)) ++
        markedLeaks C stampTrust ledger tree := List.flatMap_cons

theorem labels_markedLeaks {stampTrust : List Str} {ledger : Ledger F} {leak : Nat → Leak F}
    {tree : List (Option Nat × LeakFile)} (h : OneEach C stampTrust ledger leak tree) :
    (markedLeaks C stampTrust ledger tree).filterMap Prod.fst = tree.filterMap Prod.fst := by
  induction tree with
  | nil => rfl
  | cons e tree ih =>
      have ih := ih fun e he => h e (List.mem_cons_of_mem _ he)
      rw [markedLeaks_cons, List.filterMap_append, ih, List.filterMap_map]
      rcases he : e.1 with _ | i
      · rw [List.filterMap_cons_none he]
        simp
      · rw [List.filterMap_cons_some he, h e List.mem_cons_self i he]
        simp

theorem pathsOf_markedLeaks {stampTrust : List Str} {ledger : Ledger F} {leak : Nat → Leak F}
    {tree : List (Option Nat × LeakFile)} (h : OneEach C stampTrust ledger leak tree) (i : Nat) :
    pathsOf (markedLeaks C stampTrust ledger tree) i = pathsOf tree i := by
  induction tree with
  | nil => rfl
  | cons e tree ih =>
      have ih := ih fun e he => h e (List.mem_cons_of_mem _ he)
      rw [pathsOf] at ih ⊢
      rw [markedLeaks_cons, List.filter_append, List.map_append, ih, pathsOf, pathsOf]
      by_cases he : e.1 = some i
      · rw [List.filter_cons_of_pos (by simpa using he), h e List.mem_cons_self i he]
        simp [he]
      · have hnone : ((leaksOf C stampTrust ledger [e.2]).map fun found => (e.1, found)).filter
            (fun e => decide (e.1 = some i)) = [] := by
          rw [List.filter_eq_nil_iff]
          intro entry hentry
          obtain ⟨found, -, rfl⟩ := List.mem_map.mp hentry
          simpa using he
        rw [List.filter_cons_of_neg (by simpa using he), hnone]
        rfl

/-- The files that are not marked. -/
def unmarked (tree : List (Option Nat × LeakFile)) : List LeakFile :=
  (tree.filter fun e => e.1 = none).map Prod.snd

theorem mem_unmarked {tree : List (Option Nat × LeakFile)} {e : Option Nat × LeakFile}
    (he : e ∈ tree) (hmark : e.1 = none) : e.2 ∈ unmarked tree :=
  List.mem_map_of_mem (List.mem_filter.mpr ⟨he, decide_eq_true hmark⟩)

/-- An attribution is that of its mark, or one of the rest of the tree. -/
theorem mem_markedLeaks {stampTrust : List Str} {ledger : Ledger F} {leak : Nat → Leak F}
    {tree : List (Option Nat × LeakFile)} (h : OneEach C stampTrust ledger leak tree)
    {e : Option Nat × Str × Leak F} (he : e ∈ markedLeaks C stampTrust ledger tree) :
    (∃ i ∈ tree.filterMap Prod.fst, e.1 = some i ∧ e.2.2 = leak i) ∨
      (e.1 = none ∧ e.2 ∈ leaksOf C stampTrust ledger (unmarked tree)) := by
  obtain ⟨file, hfile, he⟩ := List.mem_flatMap.mp he
  obtain ⟨found, hmem, rfl⟩ := List.mem_map.mp he
  rcases hmark : file.1 with _ | i
  · obtain ⟨file', hfile', hblob⟩ := mem_leaksOf.mp hmem
    obtain rfl := List.mem_singleton.mp hfile'
    exact Or.inr ⟨rfl, mem_leaksOf.mpr ⟨_, mem_unmarked hfile hmark, hblob⟩⟩
  · rw [h file hfile i hmark] at hmem
    obtain rfl := List.mem_singleton.mp hmem
    exact Or.inl ⟨i, List.mem_filterMap.mpr ⟨file, hfile, hmark⟩, rfl, rfl⟩

/-- Marks that tell stamps apart in a tree do so in what a scan attributes. -/
theorem marked_markedLeaks {stampTrust : List Str} {ledger : Ledger F} {leak : Nat → Leak F}
    {tree : List (Option Nat × LeakFile)} (h : OneEach C stampTrust ledger leak tree)
    (hstamp : ∀ i ∈ tree.filterMap Prod.fst, (leak i).isStamp = true)
    (hother : ∀ found ∈ leaksOf C stampTrust ledger (unmarked tree), found.2.isStamp = false)
    (hapart : ∀ i ∈ tree.filterMap Prod.fst, ∀ j ∈ tree.filterMap Prod.fst,
      (leak i).sameKey (leak j) = decide (i = j)) :
    Marked leak (markedLeaks C stampTrust ledger tree) := by
  refine ⟨?_, ?_, ?_, ?_⟩
  · intro e he i hmark
    rcases mem_markedLeaks h he with ⟨j, -, hj, hleak⟩ | ⟨hnone, -⟩
    · obtain rfl := Option.some.inj (hj.symm.trans hmark)
      exact hleak
    · cases hnone.symm.trans hmark
  · intro e he i hmark
    refine hstamp i ?_
    rw [← labels_markedLeaks h]
    exact List.mem_filterMap.mpr ⟨e, he, hmark⟩
  · intro e he hmark
    rcases mem_markedLeaks h he with ⟨j, -, hj, -⟩ | ⟨-, hrest⟩
    · cases hmark.symm.trans hj
    · exact hother _ hrest
  · rw [labels_markedLeaks h]
    exact hapart

variable (F C K seed) in
/-- The attribution of call `i`, where the run has one. -/
def leakOfCall (calls : List StampArgs) (i : Nat) : Leak F :=
  (calls[i]?).elim .notJson (downloadLeak C K seed)

omit [PyFloat F] [FloatEq F] in
theorem leakOfCall_eq {calls : List StampArgs} {i : Nat} {args : StampArgs}
    (h : calls[i]? = some args) :
    leakOfCall F C K seed calls i = downloadLeak C K seed args := by
  rw [leakOfCall, h]
  rfl

theorem dlId_eq_iff {calls : List StampArgs} (hids : (calls.map StampArgs.dlId).Nodup)
    {i j : Nat} {args args' : StampArgs} (hi : calls[i]? = some args)
    (hj : calls[j]? = some args') : args.dlId = args'.dlId ↔ i = j := by
  have hlt : i < (calls.map StampArgs.dlId).length := by
    rw [List.length_map]
    exact (List.getElem?_eq_some_iff.mp hi).1
  rw [← List.getElem?_inj hlt hids, List.getElem?_map, List.getElem?_map, hi, hj]
  simp

/-- Every leaked download is traced, and to nobody else.  In a run of downloads that are
recorded in one ledger, some with their customer in the stamp and some without, take any
files that the calls have written, under any names and mixed with any files that hold no
stamp.  The scan has one record for each of these downloads, in the order in which it
comes upon them: a good one that names the download's own customer, by the ledger where
the stamp does not, and counts its own copies. -/
theorem downloads_traced (hK : SignsFor C K seed) {disk : Disk} {path : Str} (hpath : path ≠ [])
    (hempty : disk.ledger path = []) {calls : List StampArgs}
    (hcalls : ∀ args ∈ calls, args.ledgerPath = some path ∧ args.WellFormed)
    (hids : (calls.map StampArgs.dlId).Nodup) {tree : List (Option Nat × LeakFile)}
    (hleft : ∀ e ∈ tree, ∀ i, e.1 = some i → ∃ args content, e.2.2 = some content ∧
      WrittenBy F C K seed disk calls i args content ∧
      (∀ f ∈ args.fields, TextBraceFree f.2) ∧ content.length ≤ readLimit)
    (hrest : StampFree F (unmarked tree)) (hkeys : KeyableIds F (unmarked tree)) :
    ∃ hits, scanTree C [b64e (K.verifyKey seed)] (loadLedger F (dictGet
        (Transition.after (stampArtifact (F := F) C K seed) disk calls).ledgers path))
        (tree.map Prod.snd) = .ok hits ∧
      List.Forall₂ (fun i hit => ∃ args, calls[i]? = some args ∧
          hit = ⟨.stamp (stampRecord C K seed args (.str args.customer) (!args.named)),
            (pathsOf tree i).length, pathsOf tree i⟩)
        (setOf (tree.filterMap Prod.fst)) (hits.filter fun hit => hit.leak.isStamp) := by
  let trust := [b64e (K.verifyKey seed)]
  let ledger : Ledger F :=
    (Transition.accepted (stampArtifact (F := F) C K seed) disk calls).map rowEntry
  let leak := leakOfCall F C K seed calls
  have hone : OneEach C trust ledger leak tree := by
    rintro ⟨mark, path, file⟩ he i hmark
    obtain ⟨args, content, hcontent, hwritten, hplain, hsize⟩ := hleft _ he i hmark
    obtain rfl : file = some content := hcontent
    have hleak : leak i = downloadLeak C K seed args := leakOfCall_eq hwritten.1
    rw [hleak]
    exact leaksOf_writtenBy hK hids hwritten hplain hsize path
  obtain ⟨_, _, hC, _, _⟩ := (hK [] []).mpr rfl
  obtain ⟨hothers, hkeyable⟩ := leaksOf_stampFree hC trust ledger hrest
  have hcall : ∀ i ∈ tree.filterMap Prod.fst, ∃ args, calls[i]? = some args ∧
      leak i = downloadLeak C K seed args := by
    intro i hi
    obtain ⟨file, hfile, hmark⟩ := List.mem_filterMap.mp hi
    obtain ⟨args, _, _, hwritten, _⟩ := hleft file hfile i hmark
    exact ⟨args, hwritten.1, leakOfCall_eq hwritten.1⟩
  have hstamp : ∀ i ∈ tree.filterMap Prod.fst, (leak i).isStamp = true := by
    intro i hi
    obtain ⟨args, _, hleak⟩ := hcall i hi
    rw [hleak]
    rfl
  -- The records are filed by download id, and no two calls share one.
  have hapart : ∀ i ∈ tree.filterMap Prod.fst, ∀ j ∈ tree.filterMap Prod.fst,
      (leak i).sameKey (leak j) = decide (i = j) := by
    intro i hi j hj
    obtain ⟨args, hargs, hleak⟩ := hcall i hi
    obtain ⟨args', hargs', hleak'⟩ := hcall j hj
    rw [hleak, hleak', sameKey_downloadLeak]
    exact decide_eq_decide.mpr (dlId_eq_iff hids hargs hargs')
  have hmarked := marked_markedLeaks hone hstamp hothers hapart
  obtain ⟨hits, hrun, hstamps⟩ := foldlM_recordLeak_marks hmarked fun e he => by
    rcases mem_markedLeaks hone he with ⟨i, hi, -, hleak⟩ | ⟨-, hrestLeak⟩
    · obtain ⟨args, _, hargs⟩ := hcall i hi
      rw [hleak, hargs, ident_downloadLeak]
      rfl
    · exact hkeyable.mpr hkeys _ hrestLeak
  rw [markedLeaks_leaks] at hrun
  rw [loadLedger_after hpath hempty hcalls hids]
  refine ⟨hits, hrun, ?_⟩
  rw [hstamps, marks, labels_markedLeaks hone, List.forall₂_map_right_iff, List.forall₂_same]
  intro i hi
  obtain ⟨args, hargs, hleak⟩ := hcall i (mem_setOf.mp hi)
  refine ⟨args, hargs, ?_⟩
  rw [hleak, pathsOf_markedLeaks hone]
  rfl

end

section

attribute [local instance] FloatView.asFloat FloatView.asFloatEq

/-- Two downloads in one ledger, the first with its customer in the stamp. -/
def twoDownloads : List StampArgs :=
  [{ namedDownload "acme" with ledgerPath := some "ledger" }, hiddenDownload "dl-2" "bolt"]

/-- What call `i` leaves at the first of its sites, where it returns. -/
def leftFile (i : Nat) : Option Bytes := do
  let args ← twoDownloads[i]?
  let ran := recordedStamping (Transition.after recordedStamping freshDisk
    (twoDownloads.take i)) args
  let _ ← ran.2.toOption
  let tree ← dictGet ran.1.packages "pkg"
  dictGet tree "install-stamp.json"

theorem writtenBy_leftFile {i : Nat} {args : StampArgs} {content : Bytes}
    (hargs : twoDownloads[i]? = some args) (hroot : args.artifactRoot = "pkg")
    (hplaces : args.places = DEFAULT_SITES) (hleft : leftFile i = some content) :
    WrittenBy FloatView stampKey.crypto stampKey.signingKey stampKey.seed freshDisk
      twoDownloads i args content := by
  obtain ⟨args', hargs', hleft⟩ := Option.bind_eq_some_iff.mp hleft
  obtain rfl := Option.some.inj (hargs.symm.trans hargs')
  obtain ⟨stamped, hstamped, hleft⟩ := Option.bind_eq_some_iff.mp hleft
  obtain ⟨tree, htree, hcontent⟩ := Option.bind_eq_some_iff.mp hleft
  have hreturned : (recordedStamping (Transition.after recordedStamping freshDisk
      (twoDownloads.take i)) args).2 = .ok stamped := by
    rcases hrun : (recordedStamping (Transition.after recordedStamping freshDisk
        (twoDownloads.take i)) args).2 with exc | stamped'
    · rw [hrun] at hstamped
      cases hstamped
    · rw [hrun] at hstamped
      exact congrArg Except.ok (Option.some.inj hstamped)
  have hsite : ⟨"install-stamp.json", by decide⟩ ∈ args.places := by
    rw [hplaces]
    exact List.mem_cons_self
  exact ⟨hargs, stamped, tree, _, hsite, hreturned, hroot ▸ htree, hcontent⟩

/-- Two copies of the first download and one of the second lie about, under other
names. -/
theorem downloads_traced_two :
    ∃ (first second : Bytes) (hits : List (LeakHit FloatView)) (acme bolt : StampRecord FloatView),
      leftFile 0 = some first ∧ leftFile 1 = some second ∧
      scanTree stampKey.crypto [stampPublicKey] (loadLedger FloatView (dictGet
          (Transition.after recordedStamping freshDisk twoDownloads).ledgers "ledger"))
        [("x", some first), ("README", some []), ("y", some second), ("z", some first)] =
          .ok hits ∧
      hits.filter (fun hit => hit.leak.isStamp) =
        [⟨.stamp acme, 2, ["x", "z"]⟩, ⟨.stamp bolt, 1, ["y"]⟩] ∧
      acme.customerRef = .str "acme" ∧ bolt.customerRef = .str "bolt" ∧
      bolt.resolvedViaLedger = true := by
  have hsizes : (leftFile 0).any (fun content => content.length ≤ readLimit) = true ∧
      (leftFile 1).any (fun content => content.length ≤ readLimit) = true := by
    decide +kernel
  obtain ⟨first, hfirst, hsize⟩ := (Option.any_eq_true _ _).mp hsizes.1
  obtain ⟨second, hsecond, hsize'⟩ := (Option.any_eq_true _ _).mp hsizes.2
  have hwell : ∀ args ∈ twoDownloads,
      args.ledgerPath = some (Str.ofString "ledger") ∧ args.WellFormed := by
    have hwell : ∀ args : StampArgs, ∀ id customer : String, args.dlId = Str.ofString id →
        args.customer = Str.ofString customer → args.tier = Str.ofString "pro" →
        args.package = Str.ofString "pro" → args.version = Str.ofString "1.8.2" →
        args.WellFormed := by
      intro args id customer hid hcustomer htier hpackage hversion
      exact ⟨hid ▸ Str.wellFormed_ofString _, hcustomer ▸ Str.wellFormed_ofString _,
        htier ▸ Str.wellFormed_ofString _, hpackage ▸ Str.wellFormed_ofString _,
        hversion ▸ Str.wellFormed_ofString _⟩
    rw [twoDownloads, List.forall_mem_cons, List.forall_mem_singleton]
    exact ⟨⟨rfl, hwell _ "dl-1" "acme" (by decide) rfl rfl rfl rfl⟩, rfl,
      hwell _ "dl-2" "bolt" (by decide) rfl rfl rfl rfl⟩
  have hscanned : ∀ claims : Members FloatView, ¬ Scanned [("README", some [])] claims := by
    rintro claims ⟨file, hfile, blob, hblob, _⟩
    obtain rfl := List.mem_singleton.mp hfile
    cases hblob
  have hleft : ∀ e ∈ [(some 0, Str.ofString "x", some first), (none, "README", some []),
      (some 1, "y", some second), (some 0, "z", some first)], ∀ i, e.1 = some i →
      ∃ args content, e.2.2 = some content ∧
        WrittenBy FloatView stampKey.crypto stampKey.signingKey stampKey.seed freshDisk
          twoDownloads i args content ∧
        (∀ f ∈ args.fields, TextBraceFree f.2) ∧ content.length ≤ readLimit := by
    have hacme := writtenBy_leftFile rfl rfl rfl hfirst
    have hbolt := writtenBy_leftFile rfl rfl rfl hsecond
    rw [List.forall_mem_cons, List.forall_mem_cons, List.forall_mem_cons,
      List.forall_mem_singleton]
    refine ⟨?_, ?_, ?_, ?_⟩
    · rintro i ⟨⟩
      exact ⟨_, first, rfl, hacme, by decide, of_decide_eq_true hsize⟩
    · rintro i ⟨⟩
    · rintro i ⟨⟩
      exact ⟨_, second, rfl, hbolt, by decide, of_decide_eq_true hsize'⟩
    · rintro i ⟨⟩
      exact ⟨_, first, rfl, hacme, by decide, of_decide_eq_true hsize⟩
  obtain ⟨hits, hscan, hrecords⟩ := downloads_traced (F := FloatView) stampKey.verifies_sign_iff
    (by decide : Str.ofString "ledger" ≠ []) (rfl : freshDisk.ledger "ledger" = []) hwell
    (by decide) hleft (fun claims h => absurd h (hscanned claims))
    (fun claims h => absurd h (hscanned claims))
  obtain ⟨hit, others, ⟨args, hargs, rfl⟩, hrecords, hhits⟩ :=
    List.forall₂_cons_left_iff.mp hrecords
  obtain ⟨hit', _, ⟨args', hargs', rfl⟩, hnil, rfl⟩ := List.forall₂_cons_left_iff.mp hrecords
  obtain rfl := List.forall₂_nil_left_iff.mp hnil
  obtain rfl := Option.some.inj hargs
  obtain rfl := Option.some.inj hargs'
  exact ⟨first, second, hits, _, _, hfirst, hsecond, hscan, hhits, rfl, rfl, rfl⟩

end

end NetplexSupport
