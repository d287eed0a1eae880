/-
Which identities a scan keeps.  Matches are filed under a computed key, and of
each key only the first attribution stays, so a buyer is kept exactly when some
match of that buyer is the first with its key.
-/
import NetplexSupport.Attribution.Scan

namespace NetplexSupport

open Py

/-! ### The first of each key -/

section

variable {α : Type} (same : α → α → Bool)

/-- `x` stands in the list, and nothing before it has its key. -/
def FirstOf (xs : List α) (x : α) : Prop :=
  ∃ pre post, xs = pre ++ x :: post ∧ ∀ y ∈ pre, same y x = false

variable {same} {xs : List α} {x : α}

/-- Where something has the key of `x`, the first with that key does. -/
theorem exists_firstOf (htrans : ∀ a b c, same a b = true → same b c = true → same a c = true)
    (h : ∃ y ∈ xs, same y x = true) : ∃ y, FirstOf same xs y ∧ same y x = true := by
  induction xs with
  | nil => simp at h
  | cons z xs ih =>
      by_cases hz : same z x = true
      · exact ⟨z, ⟨[], xs, rfl, by simp⟩, hz⟩
      · obtain ⟨y, hy, hyx⟩ := h
        rcases List.mem_cons.mp hy with rfl | hy
        · exact absurd hyx hz
        · obtain ⟨y, ⟨pre, post, rfl, hpre⟩, hyx⟩ := ih ⟨y, hy, hyx⟩
          refine ⟨y, ⟨z :: pre, post, rfl, ?_⟩, hyx⟩
          rw [List.forall_mem_cons]
          refine ⟨?_, hpre⟩
          by_contra hzy
          exact hz (htrans z y x (by simpa using hzy) hyx)

/-- A new last element is a first exactly when nothing has its key. -/
theorem firstOf_concat {y : α} :
    FirstOf same (xs ++ [x]) y ↔
      FirstOf same xs y ∨ y = x ∧ ∀ z ∈ xs, same z x = false := by
  constructor
  · rintro ⟨pre, post, hxs, hpre⟩
    rcases List.eq_nil_or_concat post with rfl | ⟨post, w, rfl⟩
    · obtain ⟨rfl, hx⟩ := List.append_inj' hxs rfl
      obtain rfl := List.singleton_inj.mp hx
      exact Or.inr ⟨rfl, hpre⟩
    · rw [List.concat_eq_append, ← List.cons_append, ← List.append_assoc] at hxs
      obtain ⟨rfl, -⟩ := List.append_inj' hxs rfl
      exact Or.inl ⟨pre, post, rfl, hpre⟩
  · rintro (⟨pre, post, rfl, hpre⟩ | ⟨rfl, hnew⟩)
    · exact ⟨pre, post ++ [x], by simp, hpre⟩
    · exact ⟨xs, [], rfl, hnew⟩

end

/-! ### Equal keys -/

/-- What Python's `==` of numbers satisfies: it is symmetric and transitive, and
a float equals one integer at most. -/
class LawfulFloatEq (F : Type) [FloatEq F] : Prop where
  symm : ∀ x y : F, FloatEq.eq x y = true → FloatEq.eq y x = true
  trans : ∀ x y z : F, FloatEq.eq x y = true → FloatEq.eq y z = true → FloatEq.eq x z = true
  eqInt_of_eq : ∀ (x y : F) i, FloatEq.eq x y = true → FloatEq.eqInt y i = true →
    FloatEq.eqInt x i = true
  eqInt_unique : ∀ (x : F) i j, FloatEq.eqInt x i = true → FloatEq.eqInt x j = true → i = j
  eq_of_eqInt : ∀ (x y : F) i, FloatEq.eqInt x i = true → FloatEq.eqInt y i = true →
    FloatEq.eq x y = true

theorem FloatView.lawfulFloatEq : @LawfulFloatEq FloatView FloatView.asFloatEq :=
  letI := FloatView.asFloatEq
  { symm := fun x y h => by
      simp only [FloatEq.eq, decide_eq_true_eq] at h ⊢
      exact ⟨h.1.symm, h.1 ▸ h.2⟩
    trans := fun x y z hxy hyz => by
      simp only [FloatEq.eq, decide_eq_true_eq] at hxy hyz ⊢
      exact ⟨hxy.1.trans hyz.1, hxy.2⟩
    eqInt_of_eq := fun _ _ _ _ h => nomatch h
    eqInt_unique := fun _ _ _ h => nomatch h
    eq_of_eqInt := fun _ _ _ h => nomatch h }

section

variable {F : Type} [FloatEq F] [LawfulFloatEq F]

omit [LawfulFloatEq F] in
/-- What equals an integer: a value that is that integer, and a float. -/
theorem Json.keyEq_asInt_iff {a b : Json F} {i : Int} (hb : b.asInt = some i) :
    a.keyEq b = true ↔ a.asInt = some i ∨ ∃ x, a = .float x ∧ FloatEq.eqInt x i = true := by
  cases b with
  | bool b =>
      obtain rfl := Option.some.inj hb
      cases a <;> simp [Json.keyEq, Json.asInt]
      all_goals exact eq_comm
  | int k =>
      obtain rfl := Option.some.inj hb
      cases a <;> simp [Json.keyEq, Json.asInt]
      all_goals exact eq_comm
  | null => cases hb
  | float x => cases hb
  | str s => cases hb
  | arr xs => cases hb
  | obj ms => cases hb

omit [LawfulFloatEq F] in
/-- What equals a float: an integer it equals, and a float. -/
theorem Json.keyEq_float_iff {a : Json F} {y : F} :
    a.keyEq (.float y) = true ↔ (∃ i, a.asInt = some i ∧ FloatEq.eqInt y i = true) ∨
      ∃ x, a = .float x ∧ FloatEq.eq x y = true := by
  cases a <;> simp [Json.keyEq, Json.asInt]

theorem Json.keyEq_symm {a b : Json F} (h : a.keyEq b = true) : b.keyEq a = true := by
  cases a <;> cases b <;> simp_all [Json.keyEq, Json.asInt]
  exact LawfulFloatEq.symm _ _ h

theorem Json.keyEq_int_trans {a b c : Json F} {k : Int} (hc : c.asInt = some k)
    (hab : a.keyEq b = true) (hbc : b.keyEq c = true) : a.keyEq c = true := by
  rw [Json.keyEq_asInt_iff hc] at hbc ⊢
  rcases hbc with hb | ⟨y, rfl, hy⟩
  · exact (Json.keyEq_asInt_iff hb).mp hab
  · rcases Json.keyEq_float_iff.mp hab with ⟨i, ha, hi⟩ | ⟨x, rfl, hxy⟩
    · exact Or.inl (LawfulFloatEq.eqInt_unique y i k hi hy ▸ ha)
    · exact Or.inr ⟨x, rfl, LawfulFloatEq.eqInt_of_eq x y k hxy hy⟩

theorem Json.keyEq_float_trans {a b : Json F} {z : F} (hab : a.keyEq b = true)
    (hbc : b.keyEq (.float z) = true) : a.keyEq (.float z) = true := by
  rw [Json.keyEq_float_iff] at hbc ⊢
  rcases hbc with ⟨i, hb, hz⟩ | ⟨y, rfl, hyz⟩
  · rcases (Json.keyEq_asInt_iff hb).mp hab with ha | ⟨x, rfl, hx⟩
    · exact Or.inl ⟨i, ha, hz⟩
    · exact Or.inr ⟨x, rfl, LawfulFloatEq.eq_of_eqInt x z i hx hz⟩
  · rcases Json.keyEq_float_iff.mp hab with ⟨i, ha, hy⟩ | ⟨x, rfl, hxy⟩
    · exact Or.inl ⟨i, ha,
        LawfulFloatEq.eqInt_of_eq z y i (LawfulFloatEq.symm y z hyz) hy⟩
    · exact Or.inr ⟨x, rfl, LawfulFloatEq.trans x y z hxy hyz⟩

/-- Dict keys are equal as numbers, as texts, or as `None`. -/
theorem Json.keyEq_trans {a b c : Json F} (hab : a.keyEq b = true)
    (hbc : b.keyEq c = true) : a.keyEq c = true := by
  cases c with
  | null =>
      obtain rfl : b = .null := by cases b <;> simp_all [Json.keyEq, Json.asInt]
      exact hab
  | bool t => exact Json.keyEq_int_trans rfl hab hbc
  | int i => exact Json.keyEq_int_trans rfl hab hbc
  | float z => exact Json.keyEq_float_trans hab hbc
  | str s =>
      obtain rfl := Json.keyEq_str_iff.mp hbc
      exact hab
  | arr xs => cases b <;> simp [Json.keyEq, Json.asInt] at hbc
  | obj ms => cases b <;> simp [Json.keyEq, Json.asInt] at hbc

/-! ### Attributions with one key -/

theorem Leak.sameKey_symm {a b : Leak F} (h : a.sameKey b = true) : b.sameKey a = true := by
  simp only [Leak.sameKey, Bool.and_eq_true, decide_eq_true_eq] at h ⊢
  obtain ⟨⟨⟨hkind, hident⟩, hkey⟩, hok⟩ := h
  exact ⟨⟨⟨hkind.symm, Json.keyEq_symm hident⟩, hkey.symm⟩, hok.symm⟩

theorem Leak.sameKey_chain {a b c : Leak F} (hab : a.sameKey b = true)
    (hbc : b.sameKey c = true) : a.sameKey c = true := by
  simp only [Leak.sameKey, Bool.and_eq_true, decide_eq_true_eq] at hab hbc ⊢
  obtain ⟨⟨⟨hkind, hident⟩, hkey⟩, hok⟩ := hab
  obtain ⟨⟨⟨hkind', hident'⟩, hkey'⟩, hok'⟩ := hbc
  exact ⟨⟨⟨hkind.trans hkind', Json.keyEq_trans hident hident'⟩, hkey.trans hkey'⟩,
    hok.trans hok'⟩

/-! ### The records of a scan -/

/-- The customer an attribution names. -/
def Leak.customer : Leak F → Json F
  | .notJson => .null
  | .stamp record => record.customerRef
  | .license record => record.buyerId

/-- The attribution is good, and of the kind and customer of the other. -/
def Leak.Traces (leak other : Leak F) : Prop :=
  leak.ok = true ∧ leak.kind = other.kind ∧ leak.customer = other.customer

/-- The copies of all records together. -/
def copiesOf : List (LeakHit F) → Nat
  | [] => 0
  | hit :: hits => hit.copies + copiesOf hits

omit [LawfulFloatEq F]

/-- One turn of the loop for a hit of the dict. -/
def LeakHit.counted (found : Str × Leak F) (hit : LeakHit F) : LeakHit F :=
  if hit.leak.sameKey found.2 then
    { hit with copies := hit.copies + 1, artifacts := hit.artifacts ++ [found.1] }
  else hit

omit [FloatEq F] in
theorem copiesOf_append {hits : List (LeakHit F)} {hit : LeakHit F} :
    copiesOf (hits ++ [hit]) = copiesOf hits + hit.copies := by
  induction hits with
  | nil => simp [copiesOf]
  | cons first hits ih =>
      rw [List.cons_append, copiesOf, copiesOf, ih]
      omega

theorem copiesOf_others {hits : List (LeakHit F)} {found : Str × Leak F}
    (h : ∀ hit ∈ hits, hit.leak.sameKey found.2 = false) :
    hits.map (LeakHit.counted found) = hits := by
  refine (List.map_congr_left fun hit hmem => ?_).trans (List.map_id hits)
  rw [LeakHit.counted, h hit hmem]
  rfl

/-- With no two records of one key, one copy is counted once. -/
theorem copiesOf_counted [LawfulFloatEq F] {hits : List (LeakHit F)} {found : Str × Leak F}
    (hapart : (hits.map LeakHit.leak).Pairwise fun a b => a.sameKey b = false)
    (hany : ∃ hit ∈ hits, hit.leak.sameKey found.2 = true) :
    copiesOf (hits.map (LeakHit.counted found)) = copiesOf hits + 1 := by
  induction hits with
  | nil => simp at hany
  | cons first hits ih =>
      obtain ⟨hfirst, hapart⟩ := List.pairwise_cons.mp hapart
      rw [List.forall_mem_map] at hfirst
      rw [List.map_cons, copiesOf, copiesOf]
      by_cases hsame : first.leak.sameKey found.2 = true
      · have hothers : ∀ hit ∈ hits, hit.leak.sameKey found.2 = false := by
          intro hit hmem
          by_contra hhit
          have hback : found.2.sameKey hit.leak = true :=
            Leak.sameKey_symm (by simpa using hhit)
          have hboth := Leak.sameKey_chain hsame hback
          rw [hfirst hit hmem] at hboth
          cases hboth
        rw [copiesOf_others hothers, LeakHit.counted, if_pos hsame]
        exact Nat.add_right_comm first.copies 1 (copiesOf hits)
      · obtain ⟨hit, hmem, hhit⟩ := hany
        rcases List.mem_cons.mp hmem with rfl | hmem
        · exact absurd hhit hsame
        · rw [ih hapart ⟨hit, hmem, hhit⟩, LeakHit.counted, if_neg hsame]
          omega

/-- The dict after some attributions: the first of each key, and as many copies
as there were attributions. -/
structure Records (leaks : List (Leak F)) (hits : List (LeakHit F)) : Prop where
  first : ∀ leak, leak ∈ hits.map LeakHit.leak ↔ FirstOf Leak.sameKey leaks leak
  apart : (hits.map LeakHit.leak).Pairwise fun a b => a.sameKey b = false
  copies : copiesOf hits = leaks.length

theorem records_nil : Records (F := F) [] [] where
  first leak := by simp [FirstOf]
  apart := List.Pairwise.nil
  copies := rfl

theorem Records.record [LawfulFloatEq F] {leaks : List (Leak F)} {hits hits' : List (LeakHit F)}
    {found : Str × Leak F} (h : Records leaks hits) (hrecord : recordLeak hits found = .ok hits') :
    Records (leaks ++ [found.2]) hits' := by
  obtain ⟨-, rfl⟩ := recordLeak_eq_ok hrecord
  by_cases hany : hits.any (fun hit => hit.leak.sameKey found.2) = true
  · rw [if_pos hany]
    obtain ⟨hit, hmem, hsame⟩ := List.any_eq_true.mp hany
    have hleaks : (hits.map (LeakHit.counted found)).map LeakHit.leak =
        hits.map LeakHit.leak := by
      rw [List.map_map]
      exact List.map_congr_left fun hit _ => leak_counted hit found
    constructor
    · intro leak
      refine (hleaks ▸ h.first leak).trans (firstOf_concat.trans (or_iff_left ?_)).symm
      rintro ⟨-, hnew⟩
      obtain ⟨pre, post, rfl, -⟩ := (h.first hit.leak).mp (List.mem_map_of_mem hmem)
      have := hnew hit.leak (by simp)
      rw [hsame] at this
      cases this
    · exact hleaks ▸ h.apart
    · rw [List.length_append, ← h.copies]
      exact copiesOf_counted h.apart ⟨hit, hmem, hsame⟩
  · rw [if_neg hany]
    have hnew : ∀ hit ∈ hits, hit.leak.sameKey found.2 = false := by
      simpa using hany
    have hunseen : ∀ leak ∈ leaks, leak.sameKey found.2 = false := by
      intro leak hleak
      by_contra hsame
      have htrans : ∀ a b c : Leak F, a.sameKey b = true → b.sameKey c = true →
          a.sameKey c = true := fun _ _ _ => Leak.sameKey_chain
      obtain ⟨first, hfirst, hkey⟩ := exists_firstOf (x := found.2) htrans
        ⟨leak, hleak, by simpa using hsame⟩
      obtain ⟨hit, hmem, rfl⟩ := List.mem_map.mp ((h.first first).mpr hfirst)
      rw [hnew hit hmem] at hkey
      cases hkey
    constructor
    · intro leak
      rw [firstOf_concat, ← h.first, List.map_append, List.mem_append]
      apply or_congr_right
      rw [and_iff_left hunseen]
      exact List.mem_singleton
    · rw [List.map_append, List.pairwise_append]
      refine ⟨h.apart, List.pairwise_singleton _ _, ?_⟩
      intro leak hleak last hlast
      obtain ⟨hit, hmem, rfl⟩ := List.mem_map.mp hleak
      obtain rfl := List.mem_singleton.mp hlast
      exact hnew hit hmem
    · rw [copiesOf_append, h.copies, List.length_append]
      rfl

/-- The whole loop, from any state of it. -/
theorem Records.run [LawfulFloatEq F] {pre : List (Leak F)} {hits hits' : List (LeakHit F)}
    {leaks : List (Str × Leak F)} (h : Records pre hits)
    (hrun : leaks.foldlM recordLeak hits = .ok hits') :
    Records (pre ++ leaks.map Prod.snd) hits' := by
  induction leaks generalizing pre hits with
  | nil =>
      obtain rfl := Except.ok.inj hrun
      simpa using h
  | cons found leaks ih =>
      rw [List.foldlM_cons] at hrun
      obtain ⟨next, hrecord, hrun⟩ := bind_eq_ok.mp hrun
      have := ih (h.record hrecord) hrun
      rwa [List.append_assoc] at this

/-- The loop returns exactly where every id can be a dict key. -/
theorem foldlM_recordLeak_ok_iff (hits : List (LeakHit F)) {leaks : List (Str × Leak F)} :
    (∃ hits', leaks.foldlM recordLeak hits = .ok hits') ↔
      ∀ found ∈ leaks, found.2.ident.hashError = none := by
  induction leaks generalizing hits with
  | nil => simp [pure, Except.pure]
  | cons found leaks ih =>
      rw [List.foldlM_cons, List.forall_mem_cons]
      rcases hhash : found.2.ident.hashError with _ | exc
      · obtain ⟨next, hnext⟩ : ∃ next, recordLeak hits found = .ok next := by
          simp [recordLeak, hhash]
        rw [hnext, and_iff_right rfl]
        exact ih next
      · have hstop : recordLeak hits found = .error exc := by
          simp [recordLeak, hhash]
        simp [hstop, bind, Except.bind]

variable [PyFloat F]

/-- The scan returns, some record of it traces to the customer of each good
match, and its copies are all the attributed matches. -/
def IdentitiesKept (C : Crypto) (stampTrust : List Str) (ledger : Ledger F)
    (tree : List LeakFile) : Prop :=
  ∃ hits, scanTree C stampTrust ledger tree = .ok hits ∧
    (∀ found ∈ leaksOf C stampTrust ledger tree, found.2.ok = true →
      ∃ hit ∈ hits, hit.leak.Traces found.2) ∧
    copiesOf hits = (leaksOf C stampTrust ledger tree).length

omit [PyFloat F] in
/-- Every id can be a dict key, and of each good attribution the customer is one
that the first attribution of some key names. -/
def FirstTraces (leaks : List (Leak F)) : Prop :=
  (∀ leak ∈ leaks, leak.ident.hashError = none) ∧
    ∀ leak ∈ leaks, leak.ok = true →
      ∃ first, FirstOf Leak.sameKey leaks first ∧ first.Traces leak

theorem identities_kept_iff [LawfulFloatEq F] (C : Crypto) (stampTrust : List Str)
    (ledger : Ledger F) (tree : List LeakFile) :
    IdentitiesKept C stampTrust ledger tree ↔
      FirstTraces ((leaksOf C stampTrust ledger tree).map Prod.snd) := by
  unfold FirstTraces
  rw [List.forall_mem_map, List.forall_mem_map,
    ← foldlM_recordLeak_ok_iff []]
  constructor
  · rintro ⟨hits, hscan, hkept, -⟩
    refine ⟨⟨hits, hscan⟩, fun found hfound hok => ?_⟩
    have hrecords := records_nil.run hscan
    rw [List.nil_append] at hrecords
    obtain ⟨hit, hmem, htraces⟩ := hkept found hfound hok
    exact ⟨hit.leak, (hrecords.first _).mp (List.mem_map_of_mem hmem), htraces⟩
  · rintro ⟨⟨hits, hscan⟩, hfirst⟩
    have hrecords := records_nil.run hscan
    rw [List.nil_append] at hrecords
    refine ⟨hits, hscan, fun found hfound hok => ?_, ?_⟩
    · obtain ⟨first, hof, htraces⟩ := hfirst found hfound hok
      obtain ⟨hit, hmem, rfl⟩ := List.mem_map.mp ((hrecords.first first).mpr hof)
      exact ⟨hit, hmem, htraces⟩
    · rw [hrecords.copies, List.length_map]

end

section

attribute [local instance] FloatView.asFloat FloatView.asFloatEq FloatView.lawfulFloatEq
  Interpreter.ascii

/-- The recorded key with the signatures of two stamps that share a download id. -/
def sharedKey : SignatureTable where
  seed := recordedKey.seed
  publicKey := recordedKey.publicKey
  digests := recordedKey.digests
  known :=
    [(piecesBytes ["\x7b\"customer_ref\":", "\"acme\",\"download_id", "\":\"dl-1\",\"type\":\"",
        "netplex-download-", "stamp\"\x7d"],
      piecesBase64 ["Z/a8yQzffe2xh6qHORWc", "6QfSO/26PAJ767vApTiW", "NA2gWKDS+mHxuVkV9dvV",
        "HhhAR9BWZVDNGxnjpGXp", "gILJAw=="]),
    (piecesBytes ["\x7b\"customer_ref\":", "\"bolt\",\"download_id", "\":\"dl-1\",\"type\":\"",
        "netplex-download-", "stamp\"\x7d"],
      piecesBase64 ["sCgzGitPuMVIpGYfnsef", "9ouYKUZT6Hre8qKE+mLw", "z6j3/ryL4GjLwn2w06dK",
        "jjITC5qGMLkSgpuRMvbx", "bWz8DA=="])]
  publicKey_length := recordedKey.publicKey_length
  known_length := by decide +kernel
  known_nodup := by decide +kernel

/-- The stamp of a customer. -/
def customerStamp (customer : String) (signature : List String) : Str :=
  piecesText (["\x7b\"type\":\"netplex-", "download-stamp\",", "\"download_id\":", "\"dl-1\",",
    "\"customer_ref\":\"", customer, "\",\"signature\":", "\x7b\"alg\":\"ed25519\",",
    "\"sig\":\""] ++ signature ++ ["\"\x7d\x7d"])

def acmeStamp : Str := customerStamp "acme" ["Z/a8yQzffe2xh6qHORWc", "6QfSO/26PAJ767vApTiW",
  "NA2gWKDS+mHxuVkV9dvV", "HhhAR9BWZVDNGxnjpGXp", "gILJAw=="]

def boltStamp : Str := customerStamp "bolt" ["sCgzGitPuMVIpGYfnsef", "9ouYKUZT6Hre8qKE+mLw",
  "z6j3/ryL4GjLwn2w06dK", "jjITC5qGMLkSgpuRMvbx", "bWz8DA=="]

/-- A good attribution of the download to a customer. -/
def Leak.isDownloadOf (customer : Str) (leak : Leak FloatView) : Bool :=
  leak.ok && leak.kind = some (Str.ofString "download-stamp") && leak.ident.isStr "dl-1" &&
    leak.signatureKeyId = some recordedKeyId && leak.customer.isStr customer

theorem Leak.isDownloadOf_sameKey {a b : Leak FloatView} {customer customer' : Str}
    (ha : a.isDownloadOf customer = true) (hb : b.isDownloadOf customer' = true) :
    a.sameKey b = true := by
  simp only [Leak.isDownloadOf, Bool.and_eq_true, decide_eq_true_eq, Json.isStr_iff] at ha hb
  obtain ⟨⟨⟨⟨hok, hkind⟩, hident⟩, hkey⟩, -⟩ := ha
  obtain ⟨⟨⟨⟨hok', hkind'⟩, hident'⟩, hkey'⟩, -⟩ := hb
  rw [Leak.sameKey_iff hident']
  exact ⟨hkind.trans hkind'.symm, hident.trans hident'.symm, hkey.trans hkey'.symm,
    hok.trans hok'.symm⟩

/-- Two attributions of the download, one after the other, are one record. -/
theorem record_downloads {a b : Leak FloatView} {customer customer' : Str}
    (ha : a.isDownloadOf customer = true) (hb : b.isDownloadOf customer' = true)
    (p q : Str) :
    [(p, a), (q, b)].foldlM recordLeak [] = .ok [⟨a, 2, [p, q]⟩] := by
  have hsame := Leak.isDownloadOf_sameKey ha hb
  simp only [Leak.isDownloadOf, Bool.and_eq_true, Json.isStr_iff] at ha hb
  simp [recordLeak, ha.1.1.2, hb.1.1.2, hsame, Json.hashError, bind, Except.bind, pure,
    Except.pure]

/-- A text that is one match: its attribution, wherever it stands in the tree. -/
theorem attribute_match {text : Str} {q : Leak FloatView → Bool} (hwell : Str.WellFormed text)
    (hblobs : leakBlobs ([], some (utf8 text)) = [utf8 text])
    (hrun : (attributeToken (F := FloatView) sharedKey.crypto [b64e sharedKey.publicKey] []
      text >>= fun leak => .ok (q leak)) = .ok true) :
    ∃ leak, q leak = true ∧ ∀ path,
      leaksOf sharedKey.crypto [b64e sharedKey.publicKey] [] [(path, some (utf8 text))] =
        [(path, leak)] := by
  obtain ⟨leak, hleak, his⟩ := bind_eq_ok.mp hrun
  exact ⟨leak, Except.ok.inj his, fun _ => leaksOf_match hwell hblobs hleak⟩

theorem attribute_acmeStamp :
    ∃ leak : Leak FloatView, leak.isDownloadOf "acme" = true ∧ ∀ path,
      leaksOf sharedKey.crypto [b64e sharedKey.publicKey] [] [(path, some (utf8 acmeStamp))] =
        [(path, leak)] :=
  attribute_match (by decide +kernel) (by decide +kernel) (by decide +kernel)

theorem attribute_boltStamp :
    ∃ leak : Leak FloatView, leak.isDownloadOf "bolt" = true ∧ ∀ path,
      leaksOf sharedKey.crypto [b64e sharedKey.publicKey] [] [(path, some (utf8 boltStamp))] =
        [(path, leak)] :=
  attribute_match (by decide +kernel) (by decide +kernel) (by decide +kernel)

theorem leaksOf_two {C : Crypto} {stampTrust : List Str} {first second : LeakFile}
    {a b : Str × Leak FloatView} (ha : leaksOf C stampTrust [] [first] = [a])
    (hb : leaksOf C stampTrust [] [second] = [b]) :
    leaksOf C stampTrust [] [first, second] = [a, b] := by
  rw [show [first, second] = [first] ++ [second] from rfl, leaksOf_append, ha, hb]
  rfl

/-- The stamp of `acme` at two sites. -/
def acmeTree : List LeakFile :=
  [("a", some (utf8 acmeStamp)), ("b", some (utf8 acmeStamp))]

/-- One stamp in two files is one record of two copies. -/
theorem identities_kept_twice :
    IdentitiesKept (F := FloatView) sharedKey.crypto [b64e sharedKey.publicKey] [] acmeTree ∧
    FirstTraces ((leaksOf (F := FloatView) sharedKey.crypto [b64e sharedKey.publicKey] []
      acmeTree).map Prod.snd) := by
  obtain ⟨leak, hleak, hone⟩ := attribute_acmeStamp
  have hkept : IdentitiesKept (F := FloatView) sharedKey.crypto [b64e sharedKey.publicKey] []
      acmeTree := by
    rw [IdentitiesKept, scanTree, acmeTree, leaksOf_two (hone _) (hone _)]
    refine ⟨_, record_downloads hleak hleak _ _, ?_, rfl⟩
    intro found hfound hok
    simp only [List.mem_cons, List.not_mem_nil, or_false] at hfound
    rcases hfound with rfl | rfl
    · exact ⟨_, List.mem_singleton_self _, hok, rfl, rfl⟩
    · exact ⟨_, List.mem_singleton_self _, hok, rfl, rfl⟩
  exact ⟨hkept, (identities_kept_iff _ _ _ _).mp hkept⟩

/-- Stamps of two customers under one download id. -/
def sharedTree : List LeakFile :=
  [("a", some (utf8 acmeStamp)), ("b", some (utf8 boltStamp))]

/-- A match that anyone can write: its id is a list. -/
def listedStamp : Str := piecesText ["\x7b\"license_id\":[1],", "\"signature\":",
  "\x7b\"alg\":\"ed25519\"", "\x7d\x7d"]

/-- The stamp of `acme`, and that match beside it. -/
def listedTree : List LeakFile :=
  [("a", some (utf8 acmeStamp)), ("b", some (utf8 listedStamp))]

theorem attribute_listedStamp :
    ∃ leak : Leak FloatView, leak.ident.hashError.isSome = true ∧ ∀ path,
      leaksOf sharedKey.crypto [b64e sharedKey.publicKey] [] [(path, some (utf8 listedStamp))] =
        [(path, leak)] :=
  attribute_match (by decide +kernel) (by decide +kernel) (by decide +kernel)

/-- The second customer of a download id is in no record, and a match whose id is
a list ends the scan. -/
theorem identities_lost_shared :
    ¬ IdentitiesKept (F := FloatView) sharedKey.crypto [b64e sharedKey.publicKey] []
      sharedTree ∧
    ¬ IdentitiesKept (F := FloatView) sharedKey.crypto [b64e sharedKey.publicKey] []
      listedTree := by
  obtain ⟨acme, hacme, honeAcme⟩ := attribute_acmeStamp
  constructor
  · obtain ⟨bolt, hbolt, honeBolt⟩ := attribute_boltStamp
    rw [IdentitiesKept, scanTree, sharedTree, leaksOf_two (honeAcme _) (honeBolt _),
      record_downloads hacme hbolt]
    rintro ⟨hits, hscan, hkept, -⟩
    obtain rfl := Except.ok.inj hscan
    simp only [Leak.isDownloadOf, Bool.and_eq_true, Json.isStr_iff] at hacme hbolt
    obtain ⟨hit, hmem, -, -, hsame⟩ := hkept _
      (List.mem_cons_of_mem _ (List.mem_singleton_self _)) hbolt.1.1.1.1
    obtain rfl := List.mem_singleton.mp hmem
    rw [hacme.2, hbolt.2] at hsame
    cases hsame
  · obtain ⟨listed, hlisted, honeListed⟩ := attribute_listedStamp
    rw [IdentitiesKept, scanTree, listedTree, leaksOf_two (honeAcme _) (honeListed _)]
    rintro ⟨hits, hscan, -⟩
    have hhash := (foldlM_recordLeak_ok_iff []).mp ⟨hits, hscan⟩ ("b", listed)
      (List.mem_cons_of_mem _ (List.mem_singleton_self _))
    rw [hhash] at hlisted
    cases hlisted

end

end NetplexSupport
