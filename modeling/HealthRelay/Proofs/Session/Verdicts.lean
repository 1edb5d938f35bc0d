import HealthRelay.Proofs.Session.Notices
import HealthRelay.Proofs.Session.Lasting
import HealthRelay.Relay

/-!
# What comes of deliveries to a management plane

A management plane is a client with a server that may answer every delivery as it likes, or not in
time. `Served` lists the steps of a call that delivers to a plane: a move of the session in a moment
whose answers come from the plane, or something that the owner of the other end of the sink does.
`Reported` says what the call has told by then: an event for each delivery whose verdict was a
failure or whose budget ran out, one for a panic of the poller after them, and nothing else. The
turns of a relay consist of such steps (`looked_served`, `moment_isFrom`).
-/

namespace HealthRelay

/-- A management client, and how the exchanges of its deliveries end, if they end in time.
Deliveries are counted over all runs. -/
structure ManagementPlane where
  client : ManagementClient
  server : Nat → Http.Exchange

namespace ManagementPlane

/-- What a delivery comes to, if its exchange ends in time. -/
def verdict (plane : ManagementPlane) (n : Nat) (report : Report) : Except Failure Unit :=
  match plane.client.prepare report with
  | .error cause => .error cause
  | .ok _ => ManagementClient.judge (plane.server n)

variable {plane : ManagementPlane} {n : Nat} {report : Report}

theorem verdict_of_answer {x : Progress Http.Exchange} {answer : Except Failure Unit}
    (hx : x = .pending ∨ x = .ready (plane.server n))
    (h : plane.client.answer report x = .ready answer) : answer = plane.verdict n report := by
  unfold ManagementClient.answer at h
  unfold verdict
  cases hp : plane.client.prepare report with
  | error cause =>
    simp only [hp] at h
    cases h
    rfl
  | ok request =>
    simp only [hp] at h
    rcases hx with rfl | rfl
    · cases h
    · cases h
      rfl

/-- Only a delivery of its own can fail in the hands of the client. -/
theorem verdict_error {cause : Failure} (h : plane.verdict n report = .error cause) :
    ∃ reason, cause = .delivery reason := by
  unfold verdict at h
  split at h
  · rename_i cause' hp
    unfold ManagementClient.prepare at hp
    split at hp
    · cases hp
    · cases hp
      cases h
      exact ⟨_, rfl⟩
  · unfold ManagementClient.judge at h
    split at h
    · cases h
      exact ⟨_, rfl⟩
    · split at h
      · cases h
      · cases h
        exact ⟨_, rfl⟩

end ManagementPlane

/-- What a failed delivery is told with: the verdict, or the end of its budget. -/
def Failure.IsFault (verdict : Except Failure Unit) (budget : Duration) (cause : Failure) : Prop :=
  (verdict = .error cause ∧ ∃ reason, cause = .delivery reason) ∨ cause = .deadlineElapsed budget

/-- A delivery ends as its verdict says, or with its budget, or with the token. -/
def DeliveryEnd.IsJust (verdict : Except Failure Unit) (budget : Duration) (fired : Prop) :
    DeliveryEnd → Prop
  | .accepted => verdict = .ok ()
  | .interrupted => fired
  | .failed cause _ => cause.IsFault verdict budget

namespace Reporter

/-- Every delivery so far ended as it should. -/
structure Judged (plane : ManagementPlane) (before : Nat) (fired : Prop) (r : Reporter) :
    Prop where
  past : ∀ (i : Nat) (d : Delivery), r.past[i]? = some d → ∃ outcome, d.outcome = some outcome ∧
    outcome.IsJust (plane.verdict (before + i) d.report) r.interval fired
  delivering : ∀ d, r.stage = .delivering d →
    d.call.scope.isReleased = false ∧ d.call.scope.budget = r.interval
  announcing : ∀ d cause e, r.stage = .announcing d cause e →
    cause.IsFault (plane.verdict (before + r.past.length) d.report) r.interval

variable {plane : ManagementPlane} {before : Nat} {fired : Prop} {t : Turn} {r : Reporter}
  {desk : Desk} {x : Reporter × Desk}

theorem Judged.close (hj : r.Judged plane before fired) {d : Delivery} {outcome : DeliveryEnd}
    (ho : outcome.IsJust (plane.verdict (before + r.past.length) d.report) r.interval fired)
    (now : Nat) : (r.close d outcome now).Judged plane before fired where
  past i d' hi := by
    rcases getElem?_concat_cases hi with hi | ⟨rfl, rfl⟩
    · exact hj.past i d' hi
    · exact ⟨outcome, rfl, ho⟩
  delivering d' h := by cases h
  announcing d' cause e h := by cases h

theorem Judged.announce (hj : r.Judged plane before fired) {d : Delivery} {cause : Failure}
    (hc : cause.IsFault (plane.verdict (before + r.past.length) d.report) r.interval)
    (e : Emission) (looked : Progress Emitted × Sink) (now : Nat) (desk : Desk) :
    (r.announce d cause e looked now desk).1.Judged plane before fired := by
  obtain ⟨_ | emitted, sink⟩ := looked
  · refine ⟨hj.past, fun d' h => ?_, fun d' cause' e' h => ?_⟩
    · cases h
    · cases h
      exact hc
  · have ho : (DeliveryEnd.failed cause emitted).IsJust
        (plane.verdict (before + r.past.length) d.report) r.interval fired := hc
    exact hj.close ho now

/-- What the look of a turn at a delivery means for its end. -/
theorem Judged.lookAt (hj : r.Judged plane before fired) (hg : t.isGated r.past.length = true)
    (hf : t.isCancelled = true → fired) {d : Delivery} (hst : r.stage = .delivering d)
    (hs : ∀ answer, t.answer r.past.length = .ready answer →
      answer = plane.verdict (before + r.past.length) d.report)
    {call : Call} {answer : Except Failure (Except Failure Unit)}
    (hl : r.lookAt d t = (call, .ready answer)) :
    (answer.bind id = .error .cancelled ∧ fired) ∨
      answer.bind id = plane.verdict (before + r.past.length) d.report ∨
      answer.bind id = .error (.deadlineElapsed r.interval) := by
  obtain ⟨hreleased, hbudget⟩ := hj.delivering d hst
  rw [Reporter.lookAt, hg] at hl
  rcases Call.look_cases hreleased hl with ⟨hc, h⟩ | ⟨-, a, ha, h⟩ | ⟨-, -, -, h⟩ | ⟨-, -, -, h⟩
  · cases h
    exact .inl ⟨rfl, hf hc⟩
  · cases h
    exact .inr (.inl (hs a ha))
  · cases h
    exact .inr (.inr (by rw [hbudget]; rfl))
  · cases h

theorem Move.judged (hm : Move t (r, desk) x) (hj : r.Judged plane before fired)
    (hg : ∀ n, t.isGated n = true) (hf : t.isCancelled = true → fired)
    (hs : ∀ d, r.stage = .delivering d → ∀ answer, t.answer r.past.length = .ready answer →
      answer = plane.verdict (before + r.past.length) d.report) :
    x.1.Judged plane before fired := by
  cases hm with
  | take hst =>
    refine ⟨hj.past, fun d h => ?_, fun d cause e h => ?_⟩
    · cases h
      exact ⟨rfl, rfl⟩
    · cases h
  | wait => exact hj
  | leave =>
    refine ⟨hj.past, fun d h => ?_, fun d cause e h => ?_⟩
    · cases h
    · cases h
  | linger hst hl =>
    obtain ⟨hreleased, hbudget⟩ := hj.delivering _ hst
    refine ⟨hj.past, fun d h => ?_, fun d cause e h => ?_⟩
    · cases h
      rw [Reporter.lookAt] at hl
      rw [Call.look_scope hl]
      exact ⟨hreleased, hbudget⟩
    · cases h
  | succeed hst hl ha =>
    refine hj.close ?_ _
    rcases hj.lookAt (hg _) hf hst (hs _ hst) hl with ⟨h, -⟩ | h | h
    · cases ha.symm.trans h
    · exact h.symm.trans ha
    · cases ha.symm.trans h
  | interrupt hst hl ha =>
    refine hj.close ?_ _
    rcases hj.lookAt (hg _) hf hst (hs _ hst) hl with ⟨-, h⟩ | h | h
    · exact h
    · obtain ⟨reason, hreason⟩ := ManagementPlane.verdict_error (h.symm.trans ha)
      cases hreason
    · cases ha.symm.trans h
  | fail hst hl ha hne =>
    refine hj.announce ?_ _ _ _ _
    rcases hj.lookAt (hg _) hf hst (hs _ hst) hl with ⟨h, -⟩ | h | h
    · cases ha.symm.trans h
      exact absurd rfl hne
    · have hverdict := h.symm.trans ha
      exact .inl ⟨hverdict, ManagementPlane.verdict_error hverdict⟩
    · cases ha.symm.trans h
      exact .inr rfl
  | announce hst => exact hj.announce (hj.announcing _ _ _ hst) _ _ _ _

end Reporter

/-! ## Calls that deliver to a management plane -/

/-- Collaborators that deliver through a management client; a probe may be of any kind. -/
def Crew.delivering (probeIsGated : Nat → Bool) : Crew := { Crew.relay with probeIsGated }

/-- What a moment answers for the delivery in flight comes from the plane. -/
def Moment.IsServed (m : Moment) (plane : ManagementPlane) (s : Session) : Prop :=
  ∀ run d, s.run? = some run → run.reporter.working? = some d →
    ∀ answer, m.deliver (s.deliveriesBefore + run.reporter.past.length) = .ready answer →
      answer = plane.verdict (s.deliveriesBefore + run.reporter.past.length) d.report

namespace SessionDesk

/-- One step of a call that delivers to a plane, or of the owner of the other end of the sink;
`fired` says whether the caller's token may have fired. -/
inductive Served (plane : ManagementPlane) (crew : Crew) (fired : Prop) :
    SessionDesk → Option Look → SessionDesk → Prop where
  | move {d d' : SessionDesk} {m : Moment} {l : Option Look} : (m.isShutdown = true → fired) →
      m.IsServed plane d.session → Move crew m d l d' → Served plane crew fired d l d'
  | take {d : SessionDesk} {e : Event} {sink : Sink} : d.sink.take? = some (e, sink) →
      Served plane crew fired d none { d with sink }
  | close (d : SessionDesk) : Served plane crew fired d none { d with sink := d.sink.close }
  | drop (d : SessionDesk) : Served plane crew fired d none { d with sink := d.sink.drop }

end SessionDesk

/-- Why the delivery in flight failed, while its event is on its way. -/
def Reporter.failure? (r : Reporter) : Option Failure :=
  match r.stage with
  | .announcing _ cause _ => some cause
  | _ => none

theorem Reporter.waiting?_event {r : Reporter} (hr : r.IsInForm) :
    r.waiting?.map (·.event) = r.failure?.map (.about r.notice.comment) := by
  unfold waiting? failure?
  cases hst : r.stage with
  | announcing d cause e => simp [hr d cause e hst]
  | _ => rfl

namespace Run

/-- What a call has told of its failures, given the looks so far at its emissions. -/
structure Reported (plane : ManagementPlane) (task before : Nat) (fired : Prop) (ls : List Look)
    (run : Run) : Prop where
  /-- There is one event for each delivery that failed, in order, and after them one for a panic of
  the poller; there are no others. -/
  begun : Look.begun ls =
    (run.reporter.past.filterMap (Delivery.told? ManagementClient.deliveryFailed)).map (·.1) ++
      (run.reporter.failure?.map (.about ManagementClient.deliveryFailed)).toList ++ run.alarms task
  /-- What became of them is what the deliveries remember. -/
  ends : ∃ tail, Look.ends ls =
      run.reporter.past.filterMap (Delivery.told? ManagementClient.deliveryFailed) ++ tail ∧
    tail.map (·.1) = if run.activity = .over then run.alarms task else []
  closed : ∀ l ∈ ls, l.result.1 = .ready .closed → l.sink.isOpen = false
  patient : Look.Patient ls
  cancelled : ∀ l ∈ ls, l.isCancelled = true → fired
  judged : run.reporter.Judged plane before fired
  /-- Only the token or a panic of the poller ends the call. -/
  lasting : run.activity = .over → fired ∨ ∃ message, run.poller.stage = .panicked message

end Run

/-! ## Runs of a session -/

namespace Session

theorem runs_idle {s : Session} (hst : s.stage = .idle) : s.runs = s.past.filterMap (·.run) := by
  simp [runs, run?, hst]

/-- The run of a call is the last one, whether it is on or over. -/
theorem runs_put (s : Session) (a : Attempt) (run : Run) (now : Nat) :
    (s.put a run now).runs = s.past.filterMap (·.run) ++ [run] := by
  by_cases hover : run.activity = .over
  · rw [put_over hover, runs_idle rfl]
    simp
  · rw [put_on hover]
    simp [runs, run?]

end Session

/-! ## Tokens -/

namespace Reporter

theorem look?_isCancelled {t : Turn} {r : Reporter} {sink : Sink} {l : Look}
    (h : r.look? t sink = some l) : l.isCancelled = t.isCancelled := by
  unfold look? at h
  split at h
  · split at h
    · split at h
      · cases h
      · cases h
      · cases h
        rfl
    · cases h
  · cases h
    rfl
  · cases h

end Reporter

namespace Run

variable {crew : Crew} {m : Moment} {s : Session} {run run' : Run} {fired : Prop}
  {sink sink' : Sink} {l : Option Look}

/-- A look of a run finds the caller's token as it is. -/
theorem Step.isCancelled (hs : Step crew m s run sink l run' sink') (hsound : run.Sound fired) :
    ∀ k ∈ l.toList, k.isCancelled = m.isShutdown := by
  cases hs with
  | report ha hm =>
    intro k hk
    rw [Reporter.look?_isCancelled (Option.mem_toList.mp hk)]
    exact hsound.isCancelled rfl hm.alive m.isShutdown
  | alarm _ _ _ _ hc => simpa using hc
  | mourn _ _ hc => simpa using hc
  | _ => simp

/-- What every step of a call that delivers to a plane keeps. -/
structure Relaying (plane : ManagementPlane) (config : SessionConfig) (crew : Crew)
    (task before : Nat) (fired : Prop) (ls : List Look) (run : Run) : Prop where
  lasting : run.Lasting fired
  equipped : run.Equipped config crew
  noted : run.Noted task ls
  cancelled : ∀ l ∈ ls, l.isCancelled = true → fired
  judged : run.reporter.Judged plane before fired

variable {plane : ManagementPlane} {config : SessionConfig} {ls : List Look} {task before : Nat}

theorem relaying_start (plane : ManagementPlane) (config : SessionConfig) (crew : Crew)
    (id : SessionId) (task before : Nat) (fired : Prop) :
    (start config crew id).Relaying plane config crew task before fired [] where
  lasting := ⟨sound_start config crew id, fun h => by cases h⟩
  equipped := rfl
  noted := noted_start config crew id task
  cancelled l h := by cases h
  judged := ⟨fun i d h => by simp [start, Reporter.start] at h, fun d h => (by cases h),
    fun d cause e h => (by cases h)⟩

theorem Step.relaying (hs : Step crew m s run sink l run' sink')
    (hg : ∀ n, crew.deliverIsGated n = true) (hf : m.isShutdown = true → fired)
    (hserved : m.IsServed plane s) (hrun : s.run? = some run)
    (h : run.Relaying plane config crew s.past.length s.deliveriesBefore fired ls) :
    run'.Relaying plane config crew s.past.length s.deliveriesBefore fired (ls ++ l.toList) where
  lasting := hs.keeps (keeps_lasting crew hf) h.lasting
  equipped := hs.keeps (keeps_equipped config crew m) h.equipped
  noted := hs.noted h.lasting.sound h.noted
  cancelled k hk hc := by
    rcases List.mem_append.mp hk with hk | hk
    · exact h.cancelled k hk hc
    · exact hf ((hs.isCancelled h.lasting.sound k hk).symm.trans hc)
  judged := by
    cases hs with
    | report ha hm =>
      refine hm.judged h.judged (fun n => hg _) (fun hc => hf ?_) fun d hst answer hanswer => ?_
      · exact (h.lasting.sound.isCancelled rfl hm.alive m.isShutdown).symm.trans hc
      · exact hserved run d hrun (by simp [Reporter.working?, hst]) answer hanswer
    | _ => exact h.judged

theorem Relaying.reported (h : run.Relaying plane config crew task before fired ls)
    (hcrew : crew.notice = ManagementClient.notice) :
    run.Reported plane task before fired ls := by
  have hcomment : run.reporter.notice.comment = ManagementClient.deliveryFailed := by
    have heq := h.equipped
    simp only [Equipped, Reporter.header, Reporter.start, Reporter.mk.injEq] at heq
    rw [heq.2.2.2.2.1, hcrew]
    rfl
  have hbegun := h.noted.begun
  have hends := h.noted.ends
  rw [Reporter.waiting?_event h.noted.inForm, Reporter.told, hcomment] at hbegun
  rw [Reporter.told, hcomment] at hends
  exact ⟨hbegun, hends, fun l _ => Look.isOpen_of_closed, h.noted.patient, h.cancelled, h.judged,
    h.lasting.over⟩

end Run

namespace SessionDesk

variable {plane : ManagementPlane} {crew : Crew} {fired : Prop} {d d' d'' : SessionDesk}
  {a : Attempt} {l : Option Look} {ls : List Look}

/-- What every step keeps of a call that began at a desk. -/
structure Underway (plane : ManagementPlane) (crew : Crew) (fired : Prop) (d : SessionDesk)
    (a : Attempt) (ls : List Look) (d' : SessionDesk) : Prop where
  session : ∃ run now, d'.session = ((d.session.write .init).write .running).put a run now ∧
    run.Relaying plane d.session.config crew d.session.past.length d.session.deliveriesBefore
      fired ls
  accepted : d'.sink.accepted = d.sink.accepted ++ Look.sent ls

theorem Served.underway (hs : Served plane crew fired d' l d'')
    (hg : ∀ n, crew.deliverIsGated n = true) (h : Underway plane crew fired d a ls d') :
    Underway plane crew fired d a (ls ++ l.toList) d'' := by
  cases hs with
  | move hf hserved hm =>
    obtain ⟨run, now, hsession, hrun⟩ := h.session
    have hon : run.activity ≠ .over := by
      intro hover
      rw [Session.put_over hover] at hsession
      exact hm.busy (by rw [hsession])
    rw [Session.put_on hon] at hsession
    have hst : d'.session.stage = .running a run := by rw [hsession]
    obtain ⟨run', now', hsession', hstep⟩ := hm.runStep hst hon
    refine ⟨⟨run', now', ?_, ?_⟩, ?_⟩
    · rw [hsession', hsession]
      rfl
    · have hrelaying : run'.Relaying plane d.session.config crew d'.session.past.length
          d'.session.deliveriesBefore fired (ls ++ l.toList) :=
        hstep.relaying hg hf hserved (by simp [Session.run?, hst]) (by rw [hsession]; exact hrun)
      rw [hsession] at hrelaying
      exact hrelaying
    · rw [hm.sees.accepted, h.accepted, Look.sent_append, List.append_assoc]
  | take htake =>
    obtain ⟨rest, -, rfl⟩ := Mailbox.take?_eq_some.mp htake
    rw [Option.toList_none, List.append_nil]
    exact ⟨h.session, by simpa using h.accepted⟩
  | close =>
    rw [Option.toList_none, List.append_nil]
    refine ⟨h.session, ?_⟩
    rw [← h.accepted]
    unfold Mailbox.close
    split <;> rfl
  | drop =>
    rw [Option.toList_none, List.append_nil]
    exact ⟨h.session, h.accepted⟩

theorem underway_steps {d₀ : SessionDesk} (hs : Looked (Served plane crew fired) d₀ ls d')
    (hg : ∀ n, crew.deliverIsGated n = true) (h : Underway plane crew fired d a [] d₀) :
    Underway plane crew fired d a ls d' := by
  induction hs with
  | refl => exact h
  | tail _ hstep ih => exact hstep.underway hg ih

theorem underway_launch {id : SessionId} (plane : ManagementPlane) (crew : Crew) (fired : Prop)
    (d : SessionDesk) (m : Moment) : Underway plane crew fired d ⟨m.now, .init, some id, none, none⟩
      [] (d.launch crew m id) where
  session := ⟨.start d.session.config crew id, 0,
    (Session.put_on (by simp [Run.start]) _ _ _).symm, Run.relaying_start ..⟩
  accepted := by simp [launch, withRun, tell]

/-! ## Turns whose answers come from the plane -/

end SessionDesk

/-- Whatever a moment answers for a delivery is the verdict on one of these reports. -/
def Moment.IsFrom (m : Moment) (plane : ManagementPlane) (before : Nat) (reports : List Report) :
    Prop :=
  ∀ (i : Nat) (answer : Except Failure Unit), m.deliver (before + i) = .ready answer →
    ∃ report, reports[i]? = some report ∧ answer = plane.verdict (before + i) report

namespace Run

/-- A run only adds to its reports. -/
theorem keeps_reports (crew : Crew) (m : Moment) (reports : List Report) :
    Keeps crew m fun run => reports <+: run.reporter.reports where
  poller _ _ _ _ h _ _ := h
  reporter _ _ run _ _ x h _ _ hm := by
    have hgrow : run.reporter.reports <+: x.1.reports := by
      rcases hm.effect with ⟨s, _, hst, -, rfl⟩ | ⟨_, -, -, rfl⟩ | ⟨_, hst, -, rfl⟩ | hw
      · rw [Reporter.reports_holding hst]
        exact List.prefix_append _ _
      · exact List.prefix_rfl
      · exact (Reporter.reports_done hst).symm ▸ List.prefix_rfl
      · exact hw.reports.symm ▸ List.prefix_rfl
    exact h.trans hgrow
  closing _ h _ _ := h
  turn _ _ h _ _ _ := h

end Run

namespace SessionDesk

variable {plane : ManagementPlane} {probeIsGated : Nat → Bool} {fired : Prop} {crew : Crew}
  {m : Moment} {d d₁ d' d'' : SessionDesk} {a : Attempt} {run : Run} {l : Option Look}
  {ls : List Look}

/-- A desk at some point of a turn that began with these reports. -/
structure Midway (d : SessionDesk) (a : Attempt) (run : Run) (d' : SessionDesk) : Prop where
  session : ∃ run' now, d'.session = d.session.put a run' now ∧
    run.reporter.reports <+: run'.reporter.reports

theorem Midway.isServed (h : Midway d a run d')
    (hm : m.IsFrom plane d.session.deliveriesBefore run.reporter.reports)
    (hbusy : d'.session.stage ≠ .idle) : m.IsServed plane d'.session := by
  obtain ⟨run', now, hsession, hprefix⟩ := h.session
  have hon : run'.activity ≠ .over := by
    intro hover
    rw [Session.put_over hover] at hsession
    exact hbusy (by rw [hsession])
  rw [Session.put_on hon] at hsession
  intro run'' delivery hrun hwork answer hanswer
  have hbefore : d'.session.deliveriesBefore = d.session.deliveriesBefore := by rw [hsession]; rfl
  have hrun' : d'.session.run? = some run' := by rw [hsession]; rfl
  cases hrun'.symm.trans hrun
  rw [hbefore] at hanswer ⊢
  obtain ⟨report, hreport, rfl⟩ := hm _ _ hanswer
  -- the delivery in flight is the last one, and its report has been there since the turn began
  have hflight : run'.reporter.inFlight? = some delivery := by
    unfold Reporter.working? at hwork
    unfold Reporter.inFlight?
    split at hwork
    · rename_i hst
      rw [hst]
      exact hwork
    · cases hwork
  have hlast : run'.reporter.reports[run'.reporter.past.length]? = some delivery.report := by
    rw [Reporter.reports, Reporter.map_deliveries _ hflight]
    simp
  obtain ⟨rest, hrest⟩ := hprefix
  obtain ⟨hlt, -⟩ := List.getElem?_eq_some_iff.mp hreport
  rw [← hrest, List.getElem?_append_left hlt, hreport] at hlast
  cases hlast
  rfl

theorem Midway.move (h : Midway d a run d') (hmove : Move crew m d' l d'') :
    Midway d a run d'' := by
  obtain ⟨run', now, hsession, hprefix⟩ := h.session
  have hon : run'.activity ≠ .over := by
    intro hover
    rw [Session.put_over hover] at hsession
    exact hmove.busy (by rw [hsession])
  rw [Session.put_on hon] at hsession
  obtain ⟨run'', now', hsession', hstep⟩ := hmove.runStep (by rw [hsession]) hon
  refine ⟨run'', now', ?_, hstep.keeps (Run.keeps_reports crew m _) hprefix⟩
  rw [hsession', hsession]
  rfl

/-- **A turn whose answers come from a plane consists of steps that deliver to it.** -/
theorem looked_served (hst : d.session.stage = .running a run) (hon : run.activity ≠ .over)
    (hf : m.isShutdown = true → fired)
    (hm : m.IsFrom plane d.session.deliveriesBefore run.reporter.reports)
    (hlooked : Looked (Move crew m) d ls d') : Looked (Served plane crew fired) d ls d' := by
  have hmid : Midway d a run d := ⟨run, 0, (Session.put_self hst hon 0).symm, List.prefix_rfl⟩
  exact (hlooked.refine hmid fun _ _ _ h hmove =>
    ⟨h.move hmove, .move hf (h.isServed hm hmove.busy) hmove⟩).2

end SessionDesk

/-- The relay's own moments answer from the plane that its exchanges come from. -/
theorem Relay.moment_isFrom {r : Relay} {x : Relay.Exchanges} {plane : ManagementPlane}
    (hclient : plane.client = r.client)
    (hx : ∀ n, x.deliver n = .pending ∨ x.deliver n = .ready (plane.server n)) {s : Session}
    {run : Run} (hrun : s.run? = some run)
    (hpast : ∀ run' ∈ s.past.filterMap (·.run), run'.reporter.inFlight? = none)
    (identity : Nat → Except Failure SessionId) (now : Nat) (wallMs : UInt64) (isShutdown : Bool) :
    (r.moment s x identity now wallMs isShutdown).toMoment.IsFrom plane s.deliveriesBefore
      run.reporter.reports := by
  intro i answer hanswer
  have hbefore : (s.past.filterMap (·.run)).flatMap (·.reporter.deliveries) =
      (s.past.filterMap (·.run)).flatMap (·.reporter.past) := by
    rw [List.flatMap_def, List.flatMap_def]
    refine congrArg _ (List.map_congr_left fun run' h => ?_)
    simp [Reporter.deliveries, hpast run' h]
  have hdelivery : s.deliveries[s.deliveriesBefore + i]? = run.reporter.deliveries[i]? := by
    unfold Session.deliveries Session.runs Session.deliveriesBefore
    rw [hrun, List.flatMap_append, hbefore, List.getElem?_append_right (Nat.le_add_right _ _)]
    simp
  have hdeliver : r.deliver s x (s.deliveriesBefore + i) = .ready answer := hanswer
  unfold Relay.deliver at hdeliver
  rw [hdelivery] at hdeliver
  cases hd : run.reporter.deliveries[i]? with
  | none => simp [hd] at hdeliver
  | some d =>
    rw [hd] at hdeliver
    refine ⟨d.report, by simp [Reporter.reports, hd], ?_⟩
    exact plane.verdict_of_answer (hx _) (hclient ▸ hdeliver)

namespace SessionDesk

variable {plane : ManagementPlane} {probeIsGated : Nat → Bool} {fired : Prop} {m : Moment}
  {d d₁ d' : SessionDesk} {ls : List Look}

/-- **A call tells of its failures, of all of them, and of nothing else**: whatever its server and
its probes do, whoever gets the turns, whenever the events are taken, and whenever the token fires. -/
theorem served_reported (hidle : d.session.stage = .idle)
    (hopen : Opens (.delivering probeIsGated) m d none d₁)
    (hs : Looked (Served plane (.delivering probeIsGated) fired) d₁ ls d') :
    ∃ run, d'.session.runs = d.session.runs ++ [run] ∧
      run.reporter.interval = d.session.config.interval ∧
      run.Reported plane d.session.past.length d.session.deliveriesBefore fired ls ∧
      d'.sink.accepted = d.sink.accepted ++ Look.sent ls := by
  cases hopen with
  | launch hid =>
    have hunder := underway_steps hs (fun _ => rfl) (underway_launch plane _ fired d m)
    obtain ⟨run, now, hsession, hrun⟩ := hunder.session
    refine ⟨run, ?_, ?_, hrun.reported rfl, hunder.accepted⟩
    · rw [hsession, Session.runs_put, Session.runs_idle hidle]
      rfl
    · exact congrArg Reporter.interval hrun.equipped

/-- A plane whose server is always out of order. -/
def brokenPlane : ManagementPlane := ⟨⟨⟨"m", 80⟩⟩, fun _ => .ok ⟨⟨500⟩, []⟩⟩

/-- A moment of a relay to that plane, in which its server has answered or not. -/
def brokenMoment (s : Session) (isAnswered : Bool) : Moment :=
  { (Relay.moment ⟨⟨⟨"h", 1⟩, none⟩, brokenPlane.client⟩ s
      ⟨fun _ => .pending, fun n => if isAnswered then .ready (brokenPlane.server n) else .pending⟩
      (fun _ => .ok ⟨"s-1"⟩) 0 0 false).toMoment with
    probe := fun _ => .ready (.done (.observed "ok" 0)) }

theorem broken_looked {d d' : SessionDesk} {crew : Crew} {ls : List Look} {isAnswered : Bool}
    (hon : (d.session.run?.any fun run => run.activity != .over) = true)
    (hpast : d.session.past = [])
    (h : Looked (Move crew (brokenMoment d.session isAnswered)) d ls d') :
    Looked (Served brokenPlane crew False) d ls d' := by
  obtain ⟨run, hrun, hact⟩ := (Option.any_eq_true _ _).mp hon
  have hst : ∃ a, d.session.stage = .running a run := by
    unfold Session.run? at hrun
    split at hrun
    · rename_i a run' hst
      cases hrun
      exact ⟨a, hst⟩
    · cases hrun
  obtain ⟨a, hst⟩ := hst
  refine looked_served hst (by simpa using hact) (fun h => by cases h) ?_ h
  refine Relay.moment_isFrom rfl (fun n => ?_) hrun (by simp [hpast])
    (fun _ => .ok ⟨"s-1"⟩) 0 0 false
  cases isAnswered <;> simp

/-- One delivery that fails, and one event about it in the sink. -/
theorem served_reported_broken :
    let crew := Crew.delivering fun _ => true
    let d := Scene.sampleDesk
    let m := brokenMoment d.session false
    let d₁ := d.launch crew m ⟨"s-1"⟩
    let d₂ := d₁.pollPoller crew (brokenMoment d₁.session false)
    let d₃ := d₂.poll crew (brokenMoment d₂.session false)
    let d₄ := d₃.poll crew (brokenMoment d₃.session true)
    let e : Event := .about ManagementClient.deliveryFailed
      (.delivery "management server returned 500 Internal Server Error")
    d.session.stage = .idle ∧ Opens crew m d none d₁ ∧ d₄.sink.queue = [e] ∧
      ∃ ls, Looked (Served brokenPlane crew False) d₁ ls d₄ ∧ Look.sent ls = [e] ∧
        ∃ run, d₄.session.runs = [run] ∧ run.Reported brokenPlane 0 0 False ls := by
  intro crew d m d₁ d₂ d₃ d₄ e
  have hidle : d.session.stage = .idle := by decide +kernel
  have hopen : Opens crew m d none d₁ := .launch rfl
  have h₂ := broken_looked (by decide +kernel) (by decide +kernel)
    (d₁.pollPoller_looked crew (brokenMoment d₁.session false))
  obtain ⟨ls₃, h₃⟩ := d₂.poll_looked crew (brokenMoment d₂.session false)
  obtain ⟨ls₄, h₄⟩ := d₃.poll_looked crew (brokenMoment d₃.session true)
  have h₃' := broken_looked (by decide +kernel) (by decide +kernel) h₃
  have h₄' := broken_looked (by decide +kernel) (by decide +kernel) h₄
  have hall : Looked (Served brokenPlane crew False) d₁ _ d₄ := (h₂.trans h₃').trans h₄'
  have haccepted : d₄.sink.accepted = [e] := by decide +kernel
  obtain ⟨run, hruns, -, hreported, hsent⟩ := served_reported hidle hopen hall
  have hnone : d.session.runs = [] := by decide +kernel
  have hempty : d.sink.accepted = [] := by decide +kernel
  rw [hnone, List.nil_append] at hruns
  have hsent' := hsent.symm.trans haccepted
  rw [hempty, List.nil_append] at hsent'
  exact ⟨hidle, hopen, by decide +kernel, _, hall, hsent', run, hruns, hreported⟩

end SessionDesk

end HealthRelay
