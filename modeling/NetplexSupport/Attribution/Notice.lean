/-
What stands in a takedown notice.  The fields go into the template one after the
other, and the later ones also into the values of the earlier ones: every value
stands in the notice as it is given exactly when none holds a placeholder whose
value comes later and is another text.
-/
import NetplexSupport.Crypto.Table
import NetplexSupport.Tools.DmcaPacket

namespace NetplexSupport

open Py

/-! ### The placeholders -/

/-- The names of the fields, in the order of the loop. -/
def FIELD_NAMES : List Str :=
  ["host_or_registrar", "rightsholder_name", "rightsholder_contact", "notice_date",
    "infringing_url", "buyer_id", "license_id", "key_id", "signature_verified", "tier",
    "issued_at", "case_id"]

def PLACEHOLDERS : List Str := FIELD_NAMES.map placeholder

/-- A character that is in no placeholder. -/
def outside (c : CodePoint) : Bool :=
  c ≠ ch '{' && c ≠ ch '}' && c ≠ ch '_' && !(ch 'a' ≤ c && c ≤ ch 'z')

/-- Somewhere a brace opens one of the keys. -/
def opensKey (keys : List Str) (s : Str) : Bool :=
  s.tails.any fun t => t.head? = some (ch '{') && keys.any (·.isPrefixOf t)

theorem placeholder_eq (k : Str) :
    placeholder k = ch '{' :: ch '{' :: (k ++ [ch '}', ch '}']) := by
  rw [placeholder, Str.ofString_ofList, Str.ofString_ofList]
  rfl

theorem opensKey_of_part {keys : List Str} {name s : Str} (hkey : placeholder name ∈ keys)
    (h : placeholder name <:+: s) : opensKey keys s = true := by
  obtain ⟨t, ⟨rest, rfl⟩, hsuffix⟩ := List.infix_iff_prefix_suffix.mp h
  rw [opensKey, List.any_eq_true]
  refine ⟨_, (List.mem_tails _ _).mpr hsuffix, ?_⟩
  rw [Bool.and_eq_true_iff, decide_eq_true_eq, List.any_eq_true]
  refine ⟨?_, _, hkey, List.isPrefixOf_iff_prefix.mpr (List.prefix_append _ _)⟩
  rw [placeholder_eq]
  rfl

theorem free_of_opensKey {s : Str} (h : opensKey PLACEHOLDERS s = false) :
    ∀ key ∈ PLACEHOLDERS, ¬ key <:+: s := by
  intro key hkey hpart
  obtain ⟨name, -, rfl⟩ := List.mem_map.mp hkey
  rw [opensKey_of_part hkey hpart] at h
  cases h

/-- The placeholders differ, none opens another, and their characters are inside. -/
theorem placeholders_facts : PLACEHOLDERS.Nodup ∧
    (∀ key ∈ PLACEHOLDERS, ∀ key' ∈ PLACEHOLDERS, key = key' ∨ opensKey [key] key' = false) ∧
    ∀ key ∈ PLACEHOLDERS, key ≠ [] ∧ (key.all fun c => !outside c) = true := by
  simp only [PLACEHOLDERS, FIELD_NAMES, List.map_cons, List.map_nil, placeholder_eq]
  repeat rw [Str.ofString_ofList]
  decide +kernel

theorem placeholders_code : Code outside PLACEHOLDERS where
  nodup := placeholders_facts.1
  alone := by
    intro key hkey key' hkey' hpart
    rcases placeholders_facts.2.1 key hkey key' hkey' with heq | hopens
    · exact heq
    · obtain ⟨name, -, rfl⟩ := List.mem_map.mp hkey
      rw [opensKey_of_part (List.mem_singleton_self _) hpart] at hopens
      cases hopens
  nonempty key hkey := (placeholders_facts.2.2 key hkey).1
  plain key hkey c hc := by
    simpa using List.all_eq_true.mp (placeholders_facts.2.2 key hkey).2 c hc

/-! ### The template -/

theorem plain_pieces : ∀ literal ∈ TEMPLATE_PIECES.map Prod.fst,
    framed outside literal = true ∧ opensKey PLACEHOLDERS literal = false := by
  simp only [TEMPLATE_PIECES, List.map_cons, List.map_nil, lines, List.flatMap_cons,
    List.flatMap_nil, Str.ofString_append]
  repeat rw [Str.ofString_ofList]
  decide +kernel

theorem plain_last :
    framed outside TEMPLATE_LAST = true ∧ opensKey PLACEHOLDERS TEMPLATE_LAST = false := by
  decide +kernel

/-- The template has the placeholders in its slots. -/
def noticeTemplate : Template outside PLACEHOLDERS where
  pieces := TEMPLATE_PIECES
  last := TEMPLATE_LAST
  framed_pieces piece hpiece := (plain_pieces _ (List.mem_map_of_mem hpiece)).1
  framed_last := plain_last.1
  plain_pieces piece hpiece :=
    free_of_opensKey (plain_pieces _ (List.mem_map_of_mem hpiece)).2
  plain_last := free_of_opensKey plain_last.2
  slots := by
    have hslots : (∀ piece ∈ TEMPLATE_PIECES, piece.2 ∈ PLACEHOLDERS) ∧
        ∀ key ∈ PLACEHOLDERS, ∃ piece ∈ TEMPLATE_PIECES, piece.2 = key := by
      decide +kernel
    intro key
    refine ⟨?_, hslots.2 key⟩
    rintro ⟨piece, hpiece, rfl⟩
    exact hslots.1 piece hpiece

/-! ### Filling it -/

/-- The placeholders of the fields, with their values. -/
def slotTable (fields : Dict Str) : List (Str × Str) :=
  fields.map fun field => (placeholder field.1, field.2)

theorem fillTemplate_eq (fields : Dict Str) (template : Str) :
    fillTemplate fields template = replaceEach (slotTable fields) template := by
  rw [fillTemplate, replaceEach, slotTable, List.foldl_map]

/-- For fields of the tool's names, in its order. -/
theorem fillTemplate_eq_subst_iff {fields : Dict Str}
    (hnames : fields.map Prod.fst = FIELD_NAMES) :
    fillTemplate fields TEMPLATE = subst (slotTable fields) TEMPLATE ↔
      Settled (slotTable fields) := by
  have hkeys : (slotTable fields).map Prod.fst = PLACEHOLDERS := by
    rw [PLACEHOLDERS, ← hnames, slotTable, List.map_map, List.map_map]
    exact List.map_congr_left fun _ _ => rfl
  have htemplate : ∀ keys (T : Template outside keys), Code outside keys →
      (slotTable fields).map Prod.fst = keys →
      (replaceEach (slotTable fields) T.text = subst (slotTable fields) T.text ↔
        Settled (slotTable fields)) := by
    rintro _ T hcode rfl
    exact T.replaceEach_eq_subst_iff hcode
  rw [fillTemplate_eq]
  exact htemplate PLACEHOLDERS noticeTemplate placeholders_code hkeys

section

variable {F : Type} [PyFloat F] [FloatEq F] [Interpreter]

omit [FloatEq F] in
theorem packetFields_names (args : PacketArgs) (attr : LicenseRecord F) :
    (packetFields args attr).map Prod.fst = FIELD_NAMES := by
  simp only [packetFields, List.map_cons, List.map_nil, FIELD_NAMES]

/-- The notice of a packet is filled with the fields of its attribution. -/
theorem dmcaPacket_notice {C : Crypto} {args : PacketArgs} {tokenFile : Str}
    {packet : Packet F} (h : dmcaPacket C args tokenFile = .ok packet) :
    packet.notice = fillTemplate (packetFields args packet.attribution) TEMPLATE := by
  obtain ⟨leak, -, h⟩ := bind_eq_ok.mp h
  cases leak with
  | notJson => cases h
  | stamp record => cases h
  | license record =>
      dsimp only at h
      by_cases hbuyer : record.buyerId.truthy
      · rw [if_pos hbuyer] at h
        obtain rfl := Except.ok.inj h
        dsimp only
      · rw [if_neg hbuyer] at h
        cases h

/-- A notice is the template with all placeholders substituted at once exactly
when every value stays as it is under the placeholders of the later fields. -/
theorem notice_verbatim_iff {C : Crypto} {args : PacketArgs} {tokenFile : Str}
    {packet : Packet F} (h : dmcaPacket C args tokenFile = .ok packet) :
    packet.notice = subst (slotTable (packetFields args packet.attribution)) TEMPLATE ↔
      Settled (slotTable (packetFields args packet.attribution)) := by
  rw [dmcaPacket_notice h]
  exact fillTemplate_eq_subst_iff (packetFields_names args packet.attribution)

/-- No value with a later placeholder in it: the notice is verbatim. -/
theorem notice_of_free {C : Crypto} {args : PacketArgs} {tokenFile : Str}
    {packet : Packet F} (h : dmcaPacket C args tokenFile = .ok packet)
    (hfree : (packetFields args packet.attribution).Pairwise fun field later =>
      ¬ placeholder later.1 <:+: field.2) :
    packet.notice = subst (slotTable (packetFields args packet.attribution)) TEMPLATE := by
  rw [dmcaPacket_notice h, fillTemplate_eq_subst_iff (packetFields_names args _)]
  exact settled_of_free (List.pairwise_map.mpr hfree)

end

section

attribute [local instance] FloatView.asFloat FloatView.asFloatEq Interpreter.ascii

def caseArgs : PacketArgs where
  infringingUrl := "netplex.iso"
  rightsholder := "netplex."
  contact := "legal"
  caseId := "CASE-1"

/-- A licence token without a signature that names a buyer and nothing else. -/
def claimedToken (buyer : Str) : Str := "\x7b\"buyer_id\":\"" ++ buyer ++ "\"\x7d"

def claimedFields (buyer : Str) : Dict Str :=
  [("host_or_registrar", "[host/registrar DMCA agent]"), ("rightsholder_name", "netplex."),
    ("rightsholder_contact", "legal"), ("notice_date", "[FILL DATE]"),
    ("infringing_url", "netplex.iso"), ("buyer_id", buyer), ("license_id", "None"),
    ("key_id", "unverified"), ("signature_verified", "NO (no-trusted-key)"),
    ("tier", "None"), ("issued_at", "None"), ("case_id", "CASE-1")]

/-- The run has these fields. -/
def ClaimedRun (buyer : Str) : Prop :=
  (dmcaPacket (F := FloatView) recordedKey.crypto caseArgs (claimedToken buyer) >>= fun packet =>
    .ok (decide (packetFields caseArgs packet.attribution = claimedFields buyer))) = .ok true

theorem exists_packet {buyer : Str} (h : ClaimedRun buyer) : ∃ packet : Packet FloatView,
    dmcaPacket recordedKey.crypto caseArgs (claimedToken buyer) = .ok packet ∧
      packetFields caseArgs packet.attribution = claimedFields buyer := by
  obtain ⟨packet, hpacket, hfields⟩ := bind_eq_ok.mp h
  exact ⟨packet, hpacket, of_decide_eq_true (Except.ok.inj hfields)⟩

theorem notice_verbatim_acme : ∃ packet : Packet FloatView,
    dmcaPacket recordedKey.crypto caseArgs (claimedToken "acme") = .ok packet ∧
      packet.notice = subst (slotTable (packetFields caseArgs packet.attribution)) TEMPLATE := by
  have hrun : ClaimedRun "acme" := by
    unfold ClaimedRun
    decide +kernel
  obtain ⟨packet, hpacket, hfields⟩ := exists_packet hrun
  refine ⟨packet, hpacket, (notice_verbatim_iff hpacket).mpr ?_⟩
  rw [hfields]
  decide +kernel

/-- A buyer that is the placeholder of the case is replaced by the case. -/
theorem notice_expands_buyer : ∃ packet : Packet FloatView,
    dmcaPacket recordedKey.crypto caseArgs (claimedToken (placeholder "case_id")) = .ok packet ∧
      packet.notice ≠ subst (slotTable (packetFields caseArgs packet.attribution)) TEMPLATE := by
  have hrun : ClaimedRun (placeholder "case_id") := by
    unfold ClaimedRun
    decide +kernel
  obtain ⟨packet, hpacket, hfields⟩ := exists_packet hrun
  refine ⟨packet, hpacket, ?_⟩
  rw [dmcaPacket_notice hpacket, Ne, fillTemplate_eq_subst_iff (packetFields_names caseArgs _),
    hfields]
  decide +kernel

end

end NetplexSupport
