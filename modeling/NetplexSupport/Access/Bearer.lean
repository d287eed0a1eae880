/-
The bearer gates.  A gate compares the presented token with the configured ones
by `hmac.compare_digest`, which refuses text outside ASCII, so what stands
between a gate and its three answers is the alphabet of what it compares.
-/
import NetplexSupport.Routers.Diagnostics

namespace NetplexSupport

open Py

/-! ### What a header presents -/

/-- Two characters are one letter, in either case. -/
def SameLetter (c d : CodePoint) : Prop :=
  c = d ∨ (65 ≤ c.val ∧ c.val ≤ 90 ∧ c.val + 32 = d.val)

/-- The scheme of a header, in any letter case. -/
def IsBearer (scheme : Str) : Prop :=
  List.Forall₂ SameLetter scheme (Str.ofString "bearer ")

/-- The header presents this token. -/
def Presents (header token : Str) : Prop :=
  token ≠ [] ∧ ∃ scheme rest, IsBearer scheme ∧ header = scheme ++ rest ∧
    token = Str.strip rest

/-- Lower-casing gives an ASCII letter only where that letter stood. -/
theorem lowerLatin1_singleton {c d : CodePoint} (hlower : 97 ≤ d.val ∨ d.val = 32)
    (hd : d.val < 128) : Str.lowerLatin1 [c] = [d] ↔ SameLetter c d := by
  have hc := c.isLt
  simp only [Str.lowerLatin1, List.map_cons, List.map_nil, List.cons.injEq, and_true,
    SameLetter, Fin.ext_iff]
  split
  · rename_i hupper
    have hval : (c.val + 32) % 0x110000 = c.val + 32 := Nat.mod_eq_of_lt (by omega)
    simp only [Fin.ofNat, hval]
    omega
  · omega

theorem isPrefixOf_lowerLatin1 {target : Str}
    (htarget : ∀ d ∈ target, (97 ≤ d.val ∨ d.val = 32) ∧ d.val < 128) (header : Str) :
    target.isPrefixOf (Str.lowerLatin1 header) = true ↔
      ∃ scheme rest, List.Forall₂ SameLetter scheme target ∧ header = scheme ++ rest := by
  rw [List.isPrefixOf_iff_prefix]
  induction target generalizing header with
  | nil =>
      constructor
      · intro _
        exact ⟨[], header, List.Forall₂.nil, rfl⟩
      · intro _
        exact List.nil_prefix
  | cons d target ih =>
      obtain ⟨hd, hrest⟩ := List.forall_mem_cons.mp htarget
      constructor
      · rintro ⟨tail, htail⟩
        rcases header with _ | ⟨c, header⟩
        · simp [Str.lowerLatin1] at htail
        · rw [List.cons_append, Str.lowerLatin1, List.map_cons, List.cons.injEq] at htail
          obtain ⟨scheme, rest, hscheme, rfl⟩ := (ih hrest header).mp ⟨tail, htail.2⟩
          have hletter : SameLetter c d := by
            rw [← lowerLatin1_singleton hd.1 hd.2]
            exact congrArg (fun x => [x]) htail.1.symm
          exact ⟨c :: scheme, rest, List.Forall₂.cons hletter hscheme, rfl⟩
      · rintro ⟨scheme, rest, hscheme, rfl⟩
        rcases hscheme with _ | ⟨hletter, hscheme⟩
        rename_i c scheme
        obtain ⟨tail, htail⟩ := (ih hrest (scheme ++ rest)).mpr ⟨scheme, rest, hscheme, rfl⟩
        rw [← lowerLatin1_singleton hd.1 hd.2] at hletter
        refine ⟨tail, ?_⟩
        rw [List.cons_append, htail]
        exact (congrArg (fun x => x ++ Str.lowerLatin1 (scheme ++ rest)) hletter).symm

theorem bearer_letters :
    ∀ d ∈ Str.ofString "bearer ", (97 ≤ d.val ∨ d.val = 32) ∧ d.val < 128 := by
  simp [Str.ofString]

theorem IsBearer.length {scheme : Str} (h : IsBearer scheme) : scheme.length = 7 := by
  rw [List.Forall₂.length_eq h]
  simp [Str.ofString]

/-- The presented token is the one the header presents, if it presents any. -/
theorem presents_iff (request : Request) (token : Str) :
    Presents (headerText request.authorization) token ↔
      token ≠ [] ∧ presentedToken request = token := by
  unfold Presents presentedToken
  generalize headerText request.authorization = header
  have hletters := isPrefixOf_lowerLatin1 bearer_letters header
  by_cases hstarts : (Str.ofString "bearer ").isPrefixOf (Str.lowerLatin1 header) = true
  · obtain ⟨scheme, rest, hscheme, rfl⟩ := hletters.mp hstarts
    have hdrop : ∀ {scheme' rest' : Str}, IsBearer scheme' →
        scheme ++ rest = scheme' ++ rest' → rest' = (scheme ++ rest).drop 7 := by
      intro scheme' rest' hscheme' heq
      rw [heq, ← hscheme'.length, List.drop_left]
    simp only [hstarts, if_true]
    constructor
    · rintro ⟨hne, scheme', rest', hscheme', heq, rfl⟩
      exact ⟨hne, by rw [hdrop hscheme' heq]⟩
    · rintro ⟨hne, rfl⟩
      exact ⟨hne, scheme, rest, hscheme, rfl, by rw [← hdrop hscheme rfl]⟩
  · simp only [hstarts, Bool.false_eq_true, if_false]
    constructor
    · rintro ⟨_, scheme, rest, hscheme, heq, _⟩
      exact absurd (hletters.mpr ⟨scheme, rest, hscheme, heq⟩) hstarts
    · rintro ⟨hne, rfl⟩
      exact absurd rfl hne

/-! ### The comparison -/

/-- `compare_digest` takes the presented token and every configured one it is
compared with. -/
def Comparable (presented : Str) (configured : List Str) : Prop :=
  presented.all isAscii = true ∧
    ∀ t ∈ configured.takeWhile (fun t => decide (t ≠ presented)), t.all isAscii = true

instance (presented : Str) (configured : List Str) :
    Decidable (Comparable presented configured) := by
  unfold Comparable
  infer_instance

theorem comparable_cons {presented t : Str} {configured : List Str} :
    Comparable presented (t :: configured) ↔
      presented.all isAscii = true ∧
        (t = presented ∨ t.all isAscii = true ∧ Comparable presented configured) := by
  unfold Comparable
  by_cases ht : t = presented
  · simp [ht]
  · simp only [List.takeWhile_cons, ht, ne_eq, not_false_eq_true, decide_true, if_true,
      List.forall_mem_cons, false_or]
    tauto

theorem compareDigest_ok {a b : Str} (ha : a.all isAscii = true) (hb : b.all isAscii = true) :
    compareDigest a b = .ok (decide (a = b)) := by
  rw [compareDigest, ha, hb]
  rfl

theorem compareDigest_error {a b : Str}
    (h : ¬ (a.all isAscii = true ∧ b.all isAscii = true)) :
    ∃ exc, compareDigest a b = .error exc := by
  refine ⟨_, if_neg ?_⟩
  rwa [Bool.and_eq_true]

theorem anyDigest_ok {presented : Str} {configured : List Str}
    (h : Comparable presented configured) :
    anyDigest presented configured = .ok (decide (presented ∈ configured)) := by
  induction configured with
  | nil => rfl
  | cons t configured ih =>
      obtain ⟨hpresented, rfl | ⟨ht, hrest⟩⟩ := comparable_cons.mp h
      · rw [anyDigest, compareDigest_ok hpresented hpresented]
        simp [bind, Except.bind, pure, Except.pure]
      · rw [anyDigest, compareDigest_ok hpresented ht]
        by_cases heq : presented = t
        · simp [bind, Except.bind, pure, Except.pure, heq]
        · simp [bind, Except.bind, heq, ih hrest]

theorem anyDigest_error {presented : Str} {configured : List Str}
    (hsome : configured ≠ []) (h : ¬ Comparable presented configured) :
    ∃ exc, anyDigest presented configured = .error exc := by
  induction configured with
  | nil => exact absurd rfl hsome
  | cons t configured ih =>
      rw [comparable_cons, not_and] at h
      by_cases hascii : presented.all isAscii = true ∧ t.all isAscii = true
      · obtain ⟨hpresented, ht⟩ := hascii
        obtain ⟨hne, hrest⟩ := not_or.mp (h hpresented)
        have hconfigured : configured ≠ [] := by
          rintro rfl
          exact hrest ⟨ht, hpresented, by simp⟩
        obtain ⟨exc, hexc⟩ := ih hconfigured fun hcomparable => hrest ⟨ht, hcomparable⟩
        refine ⟨exc, ?_⟩
        rw [anyDigest, compareDigest_ok hpresented ht]
        simp [bind, Except.bind, Ne.symm hne, hexc]
      · obtain ⟨exc, hexc⟩ := compareDigest_error hascii
        refine ⟨exc, ?_⟩
        rw [anyDigest, hexc]
        rfl

/-! ### Three outcomes -/

/-- A gate's answer is one of three: closed, open to a configured token, or a
refusal. -/
structure ThreeOutcomes (answer : Except Failure Unit)
    (header tokensCsv unconfigured invalid : Str) : Prop where
  closed : listed tokensCsv = [] → answer = .error (.http 503 unconfigured)
  accepted : ∀ token ∈ listed tokensCsv, Presents header token → answer = .ok ()
  refused : listed tokensCsv ≠ [] → (∀ token ∈ listed tokensCsv, ¬ Presents header token) →
    answer = .error (.http 401 invalid)

/-- What a gate compares lies in ASCII: no token is configured, or the presented
one can be compared. -/
def GateComparable (header tokensCsv : Str) : Prop :=
  listed tokensCsv = [] ∨ ∀ token, Presents header token → Comparable token (listed tokensCsv)

section

variable (request : Request) (tokensCsv unconfigured invalid : Str)

theorem bearerGate_comparable
    (h : GateComparable (headerText request.authorization) tokensCsv) :
    ThreeOutcomes (bearerGate request tokensCsv unconfigured invalid)
      (headerText request.authorization) tokensCsv unconfigured invalid := by
  simp only [GateComparable, presents_iff] at h
  have hraising : ∀ b : Bool, raising (Except.ok b) = .ok b := fun _ => rfl
  constructor
  · intro hnone
    rw [bearerGate, if_pos hnone]
  · intro token hmem hpresents
    obtain ⟨hne, rfl⟩ := (presents_iff request token).mp hpresents
    have hsome := List.ne_nil_of_mem hmem
    have hany := anyDigest_ok ((h.resolve_left hsome) _ ⟨hne, rfl⟩)
    rw [bearerGate, if_neg hsome, if_neg hne, hany, hraising]
    simp [bind, Except.bind, pure, Except.pure, hmem]
  · intro hsome hnot
    rw [bearerGate, if_neg hsome]
    by_cases hne : presentedToken request = []
    · rw [if_pos hne]
    · have hany := anyDigest_ok ((h.resolve_left hsome) _ ⟨hne, rfl⟩)
      have hout : presentedToken request ∉ listed tokensCsv := fun hmem =>
        hnot _ hmem ((presents_iff request _).mpr ⟨hne, rfl⟩)
      rw [if_neg hne, hany, hraising]
      simp [bind, Except.bind, hout]

/-- Where the comparison refuses its arguments the gate raises. -/
theorem bearerGate_raises
    (h : ¬ GateComparable (headerText request.authorization) tokensCsv) :
    ∃ exc, bearerGate request tokensCsv unconfigured invalid = .error (.raised exc) := by
  simp only [GateComparable, presents_iff, not_or, not_forall] at h
  obtain ⟨hsome, token, ⟨hne, rfl⟩, hnot⟩ := h
  obtain ⟨exc, hexc⟩ := anyDigest_error hsome hnot
  refine ⟨exc, ?_⟩
  rw [bearerGate, if_neg hsome, if_neg hne, hexc]
  rfl

theorem bearerGate_outcomes :
    ThreeOutcomes (bearerGate request tokensCsv unconfigured invalid)
        (headerText request.authorization) tokensCsv unconfigured invalid ↔
      GateComparable (headerText request.authorization) tokensCsv := by
  constructor
  · intro hspec
    by_contra hnot
    obtain ⟨exc, hexc⟩ := bearerGate_raises request tokensCsv unconfigured invalid hnot
    rw [hexc] at hspec
    have hsome : listed tokensCsv ≠ [] := fun hnone => by
      have hclosed := hspec.closed hnone
      cases hclosed
    by_cases hmatch : ∃ token ∈ listed tokensCsv,
        Presents (headerText request.authorization) token
    · obtain ⟨token, hmem, hpresents⟩ := hmatch
      have haccepted := hspec.accepted token hmem hpresents
      cases haccepted
    · have hrefused := hspec.refused hsome fun token hmem hpresents =>
        hmatch ⟨token, hmem, hpresents⟩
      cases hrefused
  · exact bearerGate_comparable request tokensCsv unconfigured invalid

end

/-- Each of the three gates has its three outcomes on a request exactly when
what it compares lies in ASCII. -/
theorem gates_outcomes_iff (settings : Settings) (request : Request) (tokensCsv what : Str) :
    (ThreeOutcomes (requireBearer request tokensCsv what) (headerText request.authorization)
        tokensCsv (what ++ " is not configured on this server")
        ("invalid or missing " ++ what ++ " token") ↔
      GateComparable (headerText request.authorization) tokensCsv) ∧
    (ThreeOutcomes (requireForwardAuth settings request) (headerText request.authorization)
        settings.forwardIntakeTokens "forward intake is not configured on this server"
        "invalid or missing intake token" ↔
      GateComparable (headerText request.authorization) settings.forwardIntakeTokens) ∧
    (ThreeOutcomes (requireEmailAuth settings request) (headerText request.authorization)
        settings.emailIntakeSecrets "email intake is not configured on this server"
        "invalid or missing intake token" ↔
      GateComparable (headerText request.authorization) settings.emailIntakeSecrets) :=
  ⟨bearerGate_outcomes .., bearerGate_outcomes .., bearerGate_outcomes ..⟩

/-- A request whose bearer token is the one byte `\xe9`. -/
def accentedRequest : Request := { authorization := some [66, 101, 97, 114, 101, 114, 32, 0xe9] }

/-- No gate refuses it: each raises. -/
theorem gates_outcomes_accented :
    ¬ ThreeOutcomes (requireBearer accentedRequest "fleet" "admin API")
        (headerText accentedRequest.authorization) "fleet"
        "admin API is not configured on this server"
        "invalid or missing admin API token" ∧
      ¬ ThreeOutcomes
        (requireForwardAuth { forwardIntakeTokens := "fleet" } accentedRequest)
        (headerText accentedRequest.authorization) "fleet"
        "forward intake is not configured on this server" "invalid or missing intake token" ∧
      ¬ ThreeOutcomes (requireEmailAuth { emailIntakeSecrets := "fleet" } accentedRequest)
        (headerText accentedRequest.authorization) "fleet"
        "email intake is not configured on this server" "invalid or missing intake token" := by
  have hraises : ∀ unconfigured invalid : Str, ¬ ThreeOutcomes
      (bearerGate accentedRequest "fleet" unconfigured invalid)
      (headerText accentedRequest.authorization) "fleet" unconfigured invalid := by
    intro unconfigured invalid h
    have hcomparable := (bearerGate_outcomes ..).mp h
    have hpresents : Presents (headerText accentedRequest.authorization)
        (presentedToken accentedRequest) :=
      (presents_iff accentedRequest _).mpr ⟨by decide, rfl⟩
    rcases hcomparable with hnone | hall
    · revert hnone
      decide
    · have hascii := (hall _ hpresents).1
      revert hascii
      decide
  exact ⟨hraises _ _, hraises _ _, hraises _ _⟩

end NetplexSupport
