/-
Web and email requests cannot influence forwarded ones.  A run keeps its
forwarded half (the forward tickets up to their random ids, and the buckets of
the limiter whose keys start with `fwd:`) apart from everything else, so
deleting every other request from it changes nothing there.
-/
import NetplexSupport.Tickets.Filing

namespace NetplexSupport

open Py

/-! ### The forwarded half -/

def Intake.isForward (e : Intake) : Bool :=
  match e.report with
  | .forward _ => true
  | _ => false

def Intake.ticketId (e : Intake) : Str := e.arrival.ticket.ticketId

def Intake.withId (e : Intake) (id : Str) : Intake :=
  { e with arrival :=
    { e.arrival with ticket := { e.arrival.ticket with ticketId := id } } }

/-- The same request at the same time, with another random id. -/
def SameButId (e e' : Intake) : Prop := ∃ id, e' = e.withId id

def Ticket.anonymous (t : Ticket) : Ticket := { t with id := [] }

def Reply.anonymous : Reply → Reply
  | .forward reply => .forward { reply with ticketId := [] }
  | .intake reply => .intake { reply with ticketId := [] }

/-- The forward tickets of a table, in order, up to their ids. -/
def forwardTickets (tickets : List Ticket) : List Ticket :=
  (tickets.filter fun t => t.source = Str.ofString "forward").map Ticket.anonymous

/-- A key that only the forward intake builds. -/
def ForwardKey (key : Str) : Prop := Str.ofString "fwd:" <+: key

theorem forwardKey_ip (x : Str) : ForwardKey ("fwd:ip:" ++ x) :=
  ⟨Str.ofString "ip:" ++ x, by
    rw [← List.append_assoc, ← Str.ofString_append]
    rfl⟩

theorem forwardKey_install (x : Str) : ForwardKey ("fwd:install:" ++ x) :=
  ⟨Str.ofString "install:" ++ x, by
    rw [← List.append_assoc, ← Str.ofString_append]
    rfl⟩

theorem not_forwardKey_web (x : Str) : ¬ ForwardKey ("web:" ++ x) := by
  rintro ⟨rest, h⟩
  have hhead := congrArg List.head? h
  simp [Str.ofString] at hhead

theorem not_forwardKey_email (x : Str) : ¬ ForwardKey ("email:" ++ x) := by
  rintro ⟨rest, h⟩
  have hhead := congrArg List.head? h
  simp [Str.ofString] at hhead

/-! ### Filing a report -/

theorem forwardTickets_append (tickets more : List Ticket) :
    forwardTickets (tickets ++ more) = forwardTickets tickets ++ forwardTickets more := by
  simp [forwardTickets]

theorem forwardTickets_cons_forward {t : Ticket}
    (h : t.source = Str.ofString "forward") (tickets : List Ticket) :
    forwardTickets (t :: tickets) = t.anonymous :: forwardTickets tickets := by
  simp [forwardTickets, h]

theorem forwardTickets_cons_other {t : Ticket}
    (h : t.source ≠ Str.ofString "forward") (tickets : List Ticket) :
    forwardTickets (t :: tickets) = forwardTickets tickets := by
  simp [forwardTickets, h]

/-- Filing a report from another source leaves the forward tickets alone. -/
theorem createOrDedupe_hidden {tickets : List Ticket} (fields : Fields) {draw : Draw}
    (hids : (tickets.map Ticket.id).Nodup)
    (hfresh : draw.ticketId ∉ tickets.map Ticket.id)
    (hsource : fields.source ≠ Str.ofString "forward") :
    ∃ ticket tickets', createOrDedupe tickets fields draw = .ok (ticket, tickets') ∧
      forwardTickets tickets' = forwardTickets tickets := by
  rcases createOrDedupe_cases fields hids hfresh with
    ⟨pre, t, post, fingerprint, rfl, _, _, hfirst, hcall⟩ | ⟨_, hcall⟩
  · refine ⟨_, _, hcall, ?_⟩
    have ht : t.source ≠ Str.ofString "forward" :=
      (matching_iff.mp hfirst.holds).2.1 ▸ hsource
    have hbumped : (bumped t draw).source ≠ Str.ofString "forward" := ht
    rw [forwardTickets_append, forwardTickets_append, forwardTickets_cons_other ht,
      forwardTickets_cons_other hbumped]
  · refine ⟨_, _, hcall, ?_⟩
    have hnew : (newTicket fields draw).source ≠ Str.ofString "forward" := hsource
    rw [forwardTickets_append, forwardTickets_cons_other hnew]
    simp [forwardTickets]

theorem Ticket.matching_anonymous (fingerprint source : Str) (t : Ticket) :
    t.anonymous.matching fingerprint source = t.matching fingerprint source := rfl

/-- A forwarded report finds its ticket among the forward tickets. -/
theorem existingFor_forwardTickets (tickets : List Ticket) {fields : Fields}
    (hsource : fields.source = Str.ofString "forward") :
    existingFor (forwardTickets tickets) fields =
      (existingFor tickets fields).map Ticket.anonymous := by
  unfold existingFor
  rcases fields.fingerprint with _ | fingerprint
  · rfl
  · by_cases hne : fingerprint = []
    · simp [hne]
    · simp only [hne, ne_eq, not_false_eq_true, if_true, selectOpen, forwardTickets]
      rw [List.filter_map, Sql.firstBy_map, List.filter_filter]
      have hfilter : tickets.filter (fun t =>
            (Ticket.matching fingerprint fields.source ∘ Ticket.anonymous) t &&
              decide (t.source = Str.ofString "forward")) =
          tickets.filter (Ticket.matching fingerprint fields.source) := by
        apply List.filter_congr
        intro t _
        rw [Function.comp_apply, Ticket.matching_anonymous, Bool.eq_iff_iff,
          Bool.and_eq_true, decide_eq_true_eq, and_iff_left_iff_imp]
        exact fun h => (matching_iff.mp h).2.1.trans hsource
      rw [hfilter]
      rfl

theorem firstAt_forwardTickets {fingerprint source : Str} {pre post : List Ticket}
    {t : Ticket} (h : Sql.FirstAt Ticket.firstSeen (Ticket.matching fingerprint source)
      pre t post) :
    Sql.FirstAt Ticket.firstSeen (Ticket.matching fingerprint source)
      (forwardTickets pre) t.anonymous (forwardTickets post) :=
  h.view _ (fun _ => rfl) fun _ => rfl

/-- Two tables with the same forward tickets file a forwarded report alike. -/
theorem createOrDedupe_visible {tickets tickets' : List Ticket} {fields : Fields}
    {draw : Draw} {id' : Str} (hids : (tickets.map Ticket.id).Nodup)
    (hids' : (tickets'.map Ticket.id).Nodup)
    (hfresh : draw.ticketId ∉ tickets.map Ticket.id)
    (hfresh' : id' ∉ tickets'.map Ticket.id)
    (hsource : fields.source = Str.ofString "forward")
    (hsame : forwardTickets tickets = forwardTickets tickets') :
    ∃ t t' rows rows', createOrDedupe tickets fields draw = .ok (t, rows) ∧
      createOrDedupe tickets' fields { draw with ticketId := id' } = .ok (t', rows') ∧
      t.anonymous = t'.anonymous ∧ forwardTickets rows = forwardTickets rows' := by
  have hexisting : (existingFor tickets fields).map Ticket.anonymous =
      (existingFor tickets' fields).map Ticket.anonymous := by
    rw [← existingFor_forwardTickets tickets hsource, hsame,
      existingFor_forwardTickets tickets' hsource]
  have hfresh'' : { draw with ticketId := id' }.ticketId ∉ tickets'.map Ticket.id := hfresh'
  rcases createOrDedupe_cases fields hids hfresh with
      ⟨pre, t, post, fingerprint, rfl, hsome, hfp, hfirst, hcall⟩ | ⟨hnone, hcall⟩ <;>
    rcases createOrDedupe_cases fields hids' hfresh'' with
      ⟨pre', t', post', fingerprint', rfl, hsome', hfp', hfirst', hcall'⟩ |
        ⟨hnone', hcall'⟩
  · -- Both rows are found; they stand at the same place of the same list.
    refine ⟨_, _, _, _, hcall, hcall', ?_⟩
    obtain rfl : fingerprint = fingerprint' := Option.some.inj (hfp.symm.trans hfp')
    have ht : t.source = Str.ofString "forward" :=
      (matching_iff.mp hfirst.holds).2.1.trans hsource
    have ht' : t'.source = Str.ofString "forward" :=
      (matching_iff.mp hfirst'.holds).2.1.trans hsource
    have hb : (bumped t draw).source = Str.ofString "forward" := ht
    have hb' : (bumped t' { draw with ticketId := id' }).source =
        Str.ofString "forward" := ht'
    rw [forwardTickets_append, forwardTickets_cons_forward ht, forwardTickets_append,
      forwardTickets_cons_forward ht'] at hsame
    rcases (firstAt_forwardTickets hfirst).unique (firstAt_forwardTickets hfirst') hsame
      with ⟨hpre, htt, hpost⟩
    have hbumped : (bumped t draw).anonymous =
        (bumped t' { draw with ticketId := id' }).anonymous :=
      congrArg (fun row => bumped row draw) htt
    refine ⟨hbumped, ?_⟩
    rw [forwardTickets_append, forwardTickets_cons_forward hb, forwardTickets_append,
      forwardTickets_cons_forward hb', hbumped]
    exact congrArg₂ (· ++ _ :: ·) hpre hpost
  · rw [hsome, hnone'] at hexisting
    cases hexisting
  · rw [hnone, hsome'] at hexisting
    cases hexisting
  · refine ⟨_, _, _, _, hcall, hcall', rfl, ?_⟩
    have hnew : ∀ draw, (newTicket fields draw).source = Str.ofString "forward" :=
      fun _ => hsource
    rw [forwardTickets_append, forwardTickets_cons_forward (hnew _),
      forwardTickets_append, forwardTickets_cons_forward (hnew _), hsame]
    rfl

/-! ### Requests -/

/-- What a step may do to the tickets: nothing, or file one report. -/
def Filed (s s' : Service) (source : Str) (draw : Draw) : Prop :=
  s'.tickets = s.tickets ∨ ∃ fields t, fields.source = source ∧
    createOrDedupe s.tickets fields draw = .ok (t, s'.tickets)

/-- A web or email request spends no slot of a forward key. -/
theorem hits_receiveLimited (D : Deployment) (s : Service) (a : Arrival)
    {keyPrefix : Str} (hlimiter : ∀ x, ¬ ForwardKey (keyPrefix ++ x)) (fields : Fields)
    {key : Str} (hkey : ForwardKey key) :
    (receiveLimited D s a keyPrefix fields).1.hits key = s.hits key := by
  have hne : key ≠ keyPrefix ++ clientIp D.ip D.settings a.request :=
    fun heq => hlimiter _ (heq ▸ hkey)
  have hother := rateOk_other s.hits hne
    (max D.settings.webIntakeRatePerMin 1) a.firstTick
  unfold receiveLimited limited
  by_cases hok : (rateOk s.hits (keyPrefix ++ clientIp D.ip D.settings a.request)
      (max D.settings.webIntakeRatePerMin 1) a.firstTick).1 = true
  · simp only [hok, if_true, hits_fileReport]
    exact hother
  · simp only [hok]
    exact hother

/-- Two services with the same forwarded half. -/
structure Agree (s s' : Service) : Prop where
  tickets : forwardTickets s.tickets = forwardTickets s'.tickets
  hits : ∀ key, ForwardKey key → s.hits key = s'.hits key

/-- Two handlers end with the same forwarded half and the same answer. -/
def Alike {α β : Type} (view : α → β) (r r' : Service × Except Failure α) : Prop :=
  Agree r.1 r'.1 ∧ r.2.map view = r'.2.map view

theorem alike_limited {α β : Type} {view : α → β} {s s' : Service} (h : Agree s s')
    {key : Str} (hkey : ForwardKey key) {limit now : Int} {detail : Str}
    {next next' : Service → Service × Except Failure α}
    (hnext : ∀ hits hits', Agree { s with hits := hits } { s' with hits := hits' } →
      Alike view (next { s with hits := hits }) (next' { s' with hits := hits' })) :
    Alike view (limited s key limit now detail next)
      (limited s' key limit now detail next') := by
  rcases rateOk_congr (h.hits key hkey) limit now with ⟨hok, hsame⟩
  have hagree : Agree { s with hits := (rateOk s.hits key limit now).2 }
      { s' with hits := (rateOk s'.hits key limit now).2 } := by
    refine ⟨h.tickets, fun other hother => ?_⟩
    by_cases heq : other = key
    · rw [heq]
      exact hsame
    · simp only [rateOk_other _ heq]
      exact h.hits other hother
  unfold limited
  by_cases hok' : (rateOk s'.hits key limit now).1 = true
  · simp only [hok, hok', if_true]
    exact hnext _ _ hagree
  · simp only [hok, hok']
    exact ⟨hagree, rfl⟩

theorem alike_fileReport {α β : Type} {view : α → β} {s s' : Service} (h : Agree s s')
    {fields : Fields} {draw : Draw} {id' : Str}
    (hids : (s.tickets.map Ticket.id ++ [draw.ticketId]).Nodup)
    (hids' : (s'.tickets.map Ticket.id ++ [id']).Nodup)
    (hsource : fields.source = Str.ofString "forward") {reply : Ticket → α}
    (hreply : ∀ t t' : Ticket, t.anonymous = t'.anonymous →
      view (reply t) = view (reply t')) :
    Alike view (fileReport s fields draw reply)
      (fileReport s' fields { draw with ticketId := id' } reply) := by
  rcases List.nodup_append'.mp hids with ⟨htickets, _, hdisjoint⟩
  rcases List.nodup_append'.mp hids' with ⟨htickets', _, hdisjoint'⟩
  obtain ⟨t, t', rows, rows', hcall, hcall', ht, hrows⟩ :=
    createOrDedupe_visible htickets htickets' (List.disjoint_singleton.mp hdisjoint)
      (List.disjoint_singleton.mp hdisjoint') hsource h.tickets
  simp only [fileReport, hcall, hcall']
  exact ⟨⟨hrows, h.hits⟩, congrArg Except.ok (hreply t t' ht)⟩

section

variable (F : Type) [PyFloat F] [Interpreter]

/-- A request files at most one report, and it is a forwarded one exactly when
the request is. -/
theorem filed_serve (D : Deployment) (s : Service) (e : Intake) :
    ∃ source, (e.isForward = true ↔ source = Str.ofString "forward") ∧
      Filed s (serve F D s e).1 source e.arrival.ticket := by
  have hserve := serve_tickets F D s e
  rcases e with ⟨a, report | report | report⟩
  · refine ⟨Str.ofString "forward", by simp [Intake.isForward], hserve.imp_right ?_⟩
    rintro ⟨_, t, ⟨_, _, _, rfl⟩, hcall⟩
    exact ⟨_, t, rfl, hcall⟩
  · refine ⟨Str.ofString "web", iff_of_false (by simp [Intake.isForward]) (by decide),
      hserve.imp_right ?_⟩
    rintro ⟨_, t, rfl, hcall⟩
    exact ⟨_, t, rfl, hcall⟩
  · refine ⟨Str.ofString "email", iff_of_false (by simp [Intake.isForward]) (by decide),
      hserve.imp_right ?_⟩
    rintro ⟨_, t, rfl, hcall⟩
    exact ⟨_, t, rfl, hcall⟩

/-- A request leaves the ids still to come unused. -/
theorem nodup_serve (D : Deployment) {s : Service} {e : Intake} {rest : List Str}
    (hids : (s.tickets.map Ticket.id ++ e.ticketId :: rest).Nodup) :
    ((serve F D s e).1.tickets.map Ticket.id ++ rest).Nodup := by
  obtain ⟨source, _, hsame | ⟨fields, t, _, hcall⟩⟩ := filed_serve F D s e
  · rw [hsame]
    exact hids.sublist (List.Sublist.append_left (List.sublist_cons_self _ _) _)
  · exact nodup_createOrDedupe hids hcall

theorem alike_receiveForwarded (D : Deployment) {s s' : Service} (h : Agree s s')
    {a : Arrival} {id' : Str} (hids : (s.tickets.map Ticket.id ++ [a.ticket.ticketId]).Nodup)
    (hids' : (s'.tickets.map Ticket.id ++ [id']).Nodup) (report : ForwardedReport) :
    Alike (fun reply : ForwardReply => { reply with ticketId := [] })
      (receiveForwarded F D s a report)
      (receiveForwarded F D s' { a with ticket := { a.ticket with ticketId := id' } }
        report) := by
  unfold receiveForwarded
  rcases requireForwardAuth D.settings a.request with _ | _
  · exact ⟨h, rfl⟩
  · apply alike_limited h (forwardKey_ip _)
    intro hits hits' h
    apply alike_limited h (forwardKey_install _)
    intro hits hits' h
    simp only
    rcases verifiedLicense F D report a.unixTime with _ | ⟨tier, licenseIdHash⟩
    · exact ⟨h, rfl⟩
    · apply alike_fileReport h hids hids' rfl
      intro t t' ht
      have hcount := congrArg Ticket.occurrences ht
      have hscore := congrArg Ticket.priorityScore ht
      have hkind := congrArg Ticket.kind ht
      have horigin := congrArg Ticket.originLocalId ht
      simp only [Ticket.anonymous] at hcount hscore hkind horigin
      rw [hcount, hscore, hkind, horigin]

/-- A web or email request keeps the forwarded half. -/
theorem agree_serve_hidden (D : Deployment) {s : Service} {e : Intake}
    (hids : (s.tickets.map Ticket.id ++ [e.ticketId]).Nodup)
    (he : e.isForward = false) : Agree (serve F D s e).1 s := by
  constructor
  · obtain ⟨source, hsource, hsame | ⟨fields, t, rfl, hcall⟩⟩ := filed_serve F D s e
    · rw [hsame]
    · rcases List.nodup_append'.mp hids with ⟨htickets, _, hdisjoint⟩
      have hother : fields.source ≠ Str.ofString "forward" := by
        rw [Ne, ← hsource, he]
        exact Bool.false_ne_true
      obtain ⟨t', rows, hcall', hrows⟩ := createOrDedupe_hidden fields
        htickets (List.disjoint_singleton.mp hdisjoint) hother
      obtain ⟨_, heq⟩ := Prod.mk.inj (Except.ok.inj (hcall.symm.trans hcall'))
      rw [heq]
      exact hrows
  · intro key hkey
    unfold Intake.isForward at he
    unfold serve
    rcases hreport : e.report with report | report | report
    · rw [hreport] at he
      cases he
    · exact hits_receiveLimited D s e.arrival not_forwardKey_web (webFields report) hkey
    · simp only [receiveEmail]
      rcases requireEmailAuth D.settings e.arrival.request with _ | _
      · rfl
      · exact hits_receiveLimited D s e.arrival not_forwardKey_email (emailFields report) hkey

/-- A forwarded request does the same to two services with the same forwarded
half, whatever id each of them draws. -/
theorem alike_serve_visible (D : Deployment) {s s' : Service} (h : Agree s s') {e : Intake}
    {id' : Str} (hids : (s.tickets.map Ticket.id ++ [e.ticketId]).Nodup)
    (hids' : (s'.tickets.map Ticket.id ++ [id']).Nodup) (he : e.isForward = true) :
    Alike Reply.anonymous (serve F D s e) (serve F D s' (e.withId id')) := by
  rcases e with ⟨a, report | report | report⟩
  · obtain ⟨hagree, hanswer⟩ := alike_receiveForwarded F D h hids hids' report
    refine ⟨hagree, ?_⟩
    have hview : ∀ answer : Except Failure ForwardReply,
        (answer.map Reply.forward).map Reply.anonymous =
          (answer.map fun reply => { reply with ticketId := [] }).map Reply.forward := by
      intro answer
      rcases answer with failure | reply
      · rfl
      · rfl
    exact (hview _).trans ((congrArg (Except.map Reply.forward) hanswer).trans
      (hview _).symm)
  · cases he
  · cases he

/-! ### Runs -/

/-- Deleting every web and email request from a run changes neither the answers
to the forwarded reports nor the tickets they leave, up to the random ids. -/
theorem forwarded_isolated (D : Deployment) {events forwarded : List Intake}
    (hids : (events.map Intake.ticketId).Nodup)
    (hids' : (forwarded.map Intake.ticketId).Nodup)
    (hforwarded : List.Forall₂ SameButId (events.filter Intake.isForward) forwarded) :
    let start : Service := ⟨[], fun _ => []⟩
    let anonymous := fun answer : Except Failure Reply => answer.map Reply.anonymous
    ((events.zip (Transition.answers (serve F D) start events)).filter
        fun p => p.1.isForward).map (fun p => anonymous p.2) =
      (Transition.answers (serve F D) start forwarded).map anonymous ∧
    forwardTickets (Transition.after (serve F D) start events).tickets =
      forwardTickets (Transition.after (serve F D) start forwarded).tickets := by
  intro start anonymous
  let R : Service → Service → List Intake → List Intake → Prop :=
    fun s s' events events' => Agree s s' ∧
      (s.tickets.map Ticket.id ++ events.map Intake.ticketId).Nodup ∧
      (s'.tickets.map Ticket.id ++ events'.map Intake.ticketId).Nodup
  have hfirst : ∀ {ids : List Str} {id : Str} {rest : List Str},
      (ids ++ id :: rest).Nodup → (ids ++ [id]).Nodup := by
    intro ids id rest h
    rw [← List.singleton_append, ← List.append_assoc] at h
    exact (List.nodup_append'.mp h).1
  have hhidden : ∀ s s' e events events', e.isForward = false →
      R s s' (e :: events) events' → R (serve F D s e).1 s' events events' := by
    rintro s s' e events events' he ⟨hagree, hs, hs'⟩
    have hkeep := agree_serve_hidden F D (hfirst hs) he
    refine ⟨⟨?_, ?_⟩, nodup_serve F D hs, hs'⟩
    · exact hkeep.tickets.trans hagree.tickets
    · exact fun key hkey => (hkeep.hits key hkey).trans (hagree.hits key hkey)
  have hvisible : ∀ s s' e e' events events', e.isForward = true → SameButId e e' →
      R s s' (e :: events) (e' :: events') →
      R (serve F D s e).1 (serve F D s' e').1 events events' ∧
        anonymous (serve F D s e).2 = anonymous (serve F D s' e').2 := by
    rintro s s' e _ events events' he ⟨id', rfl⟩ ⟨hagree, hs, hs'⟩
    obtain ⟨hagree', hanswer⟩ :=
      alike_serve_visible F D hagree (hfirst hs) (hfirst hs') he
    exact ⟨⟨hagree', nodup_serve F D hs, nodup_serve F D hs'⟩, hanswer⟩
  have hstart : R start start events forwarded := ⟨⟨rfl, fun _ _ => rfl⟩, hids, hids'⟩
  obtain ⟨⟨hagree, _⟩, hanswers⟩ :=
    Transition.unwinding hhidden hvisible hstart hforwarded
  exact ⟨hanswers, hagree.tickets⟩

end

section

attribute [local instance] FloatView.asFloat Interpreter.ascii

/-- One box may forward once a minute. -/
def forwardDeployment : Deployment where
  crypto := recordedKey.crypto
  ip := ⟨Unit, Unit, fun _ => none, fun _ => none, fun _ _ => false⟩
  settings := { forwardIntakeTokens := "box", intakeRatePerMin := 1 }

def boxArrival (tick : Int) (id : Str) : Arrival where
  request := { authorization := some (asciiBytes "Bearer box"), client := some "fwd:ip:" }
  firstTick := tick
  secondTick := tick
  unixTime := 1700000000
  ticket := ⟨id, tick, tick, tick⟩

/-- A web report of the same fingerprint from the same address comes between
two forwarded ones. -/
def mixedIntakes : List Intake :=
  [⟨boxArrival 0 "SUP-1", .forward { title := "crash", fingerprint := some "f" }⟩,
    ⟨boxArrival 1 "SUP-2", .web { title := "mine", fingerprint := some "f" }⟩,
    ⟨boxArrival 2 "SUP-3", .forward { title := "crash", fingerprint := some "f" }⟩,
    ⟨boxArrival 70000000000 "SUP-4",
      .forward { title := "crash", fingerprint := some "f" }⟩]

def forwardedIntakes : List Intake :=
  [⟨boxArrival 0 "SUP-5", .forward { title := "crash", fingerprint := some "f" }⟩,
    ⟨boxArrival 2 "SUP-6", .forward { title := "crash", fingerprint := some "f" }⟩,
    ⟨boxArrival 70000000000 "SUP-7",
      .forward { title := "crash", fingerprint := some "f" }⟩]

/-- The web report neither answers for the second forward nor spends the slot
of the third. -/
theorem forwarded_isolated_intakes :
    let start : Service := ⟨[], fun _ => []⟩
    ((mixedIntakes.zip
        (Transition.answers (serve FloatView forwardDeployment) start mixedIntakes)).filter
        fun p => p.1.isForward).map (fun p => p.2.map Reply.anonymous) =
      [.ok (.forward ⟨[], 1, 8, "crash", none⟩),
        .error (.http 429 "forward rate limit exceeded - back off"),
        .ok (.forward ⟨[], 2, 16, "crash", none⟩)] ∧
    forwardTickets
        (Transition.after (serve FloatView forwardDeployment) start mixedIntakes).tickets =
      forwardTickets (Transition.after (serve FloatView forwardDeployment) start
        forwardedIntakes).tickets := by
  intro start
  have hforwarded : List.Forall₂ SameButId (mixedIntakes.filter Intake.isForward)
      forwardedIntakes :=
    .cons ⟨"SUP-5", rfl⟩ (.cons ⟨"SUP-6", rfl⟩ (.cons ⟨"SUP-7", rfl⟩ .nil))
  have h := forwarded_isolated FloatView forwardDeployment (by decide +kernel)
    (by decide +kernel) hforwarded
  exact ⟨h.1.trans (by decide +kernel), h.2⟩

end

end NetplexSupport
