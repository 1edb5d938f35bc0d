import HealthRelay.Proofs.Call
import HealthRelay.Proofs.Session.Looks

/-!
# What a session tells of its failures

A run begins one emission for each delivery that fails, in order, and one for a panic of its poller
when the reporter is done; it begins no other. `Tells` says what a move of the reporter makes of the
emission that it looks at, and `Noted` what all looks so far have told of a run. `Patient` is the
rule by which an event may be given up.
-/

namespace HealthRelay

namespace Look

/-- The emission found the sink full when it began. -/
def Awaited (ls : List Look) (e : Emission) : Prop :=
  ∃ l ∈ ls, l.isFirst = true ∧ l.emission = e ∧ l.sink.found = .full

/-- Nobody gives up an emission but one that found the sink full, and whose token has fired. -/
def Patient (ls : List Look) : Prop :=
  ∀ l ∈ ls, l.result.1 = .ready .cancelled → l.isCancelled = true ∧ Awaited ls l.emission

variable {ls : List Look} {e : Emission} {l : Look}

theorem Awaited.append (h : Awaited ls e) (ls' : List Look) : Awaited (ls ++ ls') e := by
  obtain ⟨l, hl, hfirst⟩ := h
  exact ⟨l, List.mem_append_left _ hl, hfirst⟩

theorem Awaited.of_first (hf : l.isFirst = true) (hfull : l.sink.found = .full) (ls : List Look) :
    Awaited (ls ++ [l]) l.emission :=
  ⟨l, by simp, hf, rfl, hfull⟩

/-- One more look, at an emission that has just begun or that waits. -/
theorem Patient.append (h : Patient ls) (hl : l.isFirst = false → Awaited ls l.emission) :
    Patient (ls ++ [l]) := by
  intro k hk hend
  rcases List.mem_append.mp hk with hk | hk
  · obtain ⟨hcan, hwait⟩ := h k hk hend
    exact ⟨hcan, hwait.append _⟩
  · obtain rfl := List.mem_singleton.mp hk
    obtain ⟨hcan, hfull⟩ := isCancelled_of_cancelled hend
    cases hf : k.isFirst with
    | true => exact ⟨hcan, .of_first hf (hfull hf) ls⟩
    | false => exact ⟨hcan, (hl hf).append _⟩

theorem begun_first (hf : l.isFirst = true) : begun [l] = [l.emission.event] := by
  simp [begun, hf]

theorem begun_later (hf : l.isFirst = false) : begun [l] = [] := by
  simp [begun, hf]

/-- An emission that is looked at began before, and waits, or begins with this look. -/
theorem begun_waiting {waiting : Option Emission}
    (h : waiting = if l.isFirst then none else some l.emission) :
    (waiting.map (·.event)).toList ++ begun [l] = [l.emission.event] := by
  cases hf : l.isFirst with
  | true => simp [h, hf, begun_first hf]
  | false => simp [h, hf, begun_later hf]

end Look

/-- What was told of a delivery that is over: nothing unless it failed. -/
def Delivery.told? (comment : String) (d : Delivery) : Option (Event × Emitted) :=
  match d.outcome with
  | some (.failed cause emitted) => some (.about comment cause, emitted)
  | _ => none

namespace Reporter

/-- What was told of the deliveries that are over, in order. -/
def told (r : Reporter) : List (Event × Emitted) :=
  r.past.filterMap (Delivery.told? r.notice.comment)

/-- The emission that waits for room. -/
def waiting? (r : Reporter) : Option Emission :=
  match r.stage with
  | .announcing _ _ e => some e
  | _ => none

/-- The event of the delivery in flight is about its failure. -/
def IsInForm (r : Reporter) : Prop :=
  ∀ d cause e, r.stage = .announcing d cause e → e.event = .about r.notice.comment cause

/-- What a move makes of an emission that it looks at, if it looks at one. -/
structure Tells (r : Reporter) (l : Option Look) (r' : Reporter) : Prop where
  inForm : r'.IsInForm
  told : r'.told = r.told ++ Look.ends l.toList
  waiting : ∀ e, r'.waiting? = some e → r.waiting? = some e ∨
    ∃ k, l = some k ∧ k.isFirst = true ∧ k.emission = e ∧ k.sink.found = .full
  later : ∀ k, l = some k → k.isFirst = false → r.waiting? = some k.emission
  /-- An emission that has begun waits until it has ended. -/
  begun : r'.told.map (·.1) ++ (r'.waiting?.map (·.event)).toList =
    r.told.map (·.1) ++ (r.waiting?.map (·.event)).toList ++ Look.begun l.toList

variable {t : Turn} {r r' : Reporter} {desk : Desk} {x : Reporter × Desk}

theorem tells_nothing (hr : r.waiting? = none) (hr' : r'.waiting? = none)
    (htold : r'.told = r.told) : r.Tells none r' where
  inForm d cause e hst := by simp [waiting?, hst] at hr'
  told := by simp [htold]
  waiting e he := by simp [hr'] at he
  later k hk := by cases hk
  begun := by simp [hr, hr', htold]

theorem told_close_settled (r : Reporter) (d : Delivery) {outcome : DeliveryEnd}
    (ho : ∀ cause emitted, outcome ≠ .failed cause emitted) (now : Nat) :
    (r.close d outcome now).told = r.told := by
  unfold told close Delivery.told?
  cases outcome with
  | accepted => simp
  | interrupted => simp
  | failed cause emitted => exact absurd rfl (ho cause emitted)

theorem told_close_failed (r : Reporter) (d : Delivery) (cause : Failure) (emitted : Emitted)
    (now : Nat) : (r.close d (.failed cause emitted) now).told =
      r.told ++ [(.about r.notice.comment cause, emitted)] := by
  simp [told, close, Delivery.told?]

/-- A look at the event about a failed delivery. -/
theorem tells_announce {l : Look} {cause : Failure}
    (hl : l.emission.event = .about r.notice.comment cause)
    (hfirst : r.waiting? = if l.isFirst then none else some l.emission) (d : Delivery) (now : Nat)
    (desk : Desk) : r.Tells (some l) (r.announce d cause l.emission l.result now desk).1 := by
  have hlater : ∀ k, some l = some k → k.isFirst = false → r.waiting? = some k.emission := by
    intro k hk hf
    cases hk
    simpa [hf] using hfirst
  unfold announce
  cases hres : l.result with
  | mk progress sink =>
    have hprogress : l.result.1 = progress := by rw [hres]
    cases progress with
    | pending =>
      refine ⟨?_, ?_, ?_, hlater, ?_⟩
      · intro d' cause' e' hst
        cases hst
        exact hl
      · rw [Option.toList_some, Look.ends_pending hprogress, List.append_nil]
        rfl
      · intro e he
        cases he
        cases hf : l.isFirst with
        | true => exact .inr ⟨l, rfl, hf, rfl, Look.found_of_pending hprogress hf⟩
        | false => exact .inl (hlater l rfl hf)
      · rw [Option.toList_some, List.append_assoc, Look.begun_waiting hfirst]
        rfl
    | ready emitted =>
      refine ⟨?_, ?_, ?_, hlater, ?_⟩
      · intro d' cause' e' hst
        cases hst
      · rw [Option.toList_some, Look.ends_ready hprogress, hl]
        exact told_close_failed ..
      · intro e he
        cases he
      · rw [Option.toList_some, List.append_assoc, Look.begun_waiting hfirst, told_close_failed]
        simp [waiting?, close, hl]

theorem Move.tells (hm : Move t (r, desk) x) (hr : r.IsInForm) :
    r.Tells (r.look? t desk.sink) x.1 := by
  cases hm with
  | take hst =>
    rw [look?_receiving hst]
    exact tells_nothing (by simp [waiting?, hst]) rfl rfl
  | wait hst =>
    rw [look?_receiving hst]
    exact tells_nothing (by simp [waiting?, hst]) (by simp [waiting?, hst]) rfl
  | leave hst =>
    rw [look?_receiving hst]
    exact tells_nothing (by simp [waiting?, hst]) rfl rfl
  | linger hst hl =>
    rw [look?_pending hst hl]
    exact tells_nothing (by simp [waiting?, hst]) rfl rfl
  | succeed hst hl ha =>
    rw [look?_settled hst hl (.inl ha)]
    exact tells_nothing (by simp [waiting?, hst]) rfl (told_close_settled _ _ (by simp) _)
  | interrupt hst hl ha =>
    rw [look?_settled hst hl (.inr ha)]
    exact tells_nothing (by simp [waiting?, hst]) rfl (told_close_settled _ _ (by simp) _)
  | fail hst hl ha hne =>
    rename_i d call answer cause
    rw [look?_failed hst hl ha hne]
    exact tells_announce (l := ⟨r.emission cause, true, t.isCancelled, desk.sink⟩) rfl
      (by simp [waiting?, hst]) _ _ _
  | announce hst =>
    rename_i d cause e
    rw [look?_announcing hst]
    exact tells_announce (l := ⟨e, false, t.isCancelled, desk.sink⟩) (hr d cause e hst)
      (by simp [waiting?, hst]) _ _ _

end Reporter

/-! ## The steps of a run -/

namespace Run

/-- The run after a look at the event about its poller's panic. -/
def afterAlarm (run : Run) (l : Look) : Run :=
  { run with activity := if l.result.1.isReady then .over else .mourning l.emission }

/-- What a move of its session makes of a run and of the sink. -/
inductive Step (crew : Crew) (m : Moment) (s : Session) :
    Run → Sink → Option Look → Run → Sink → Prop where
  | report {run : Run} {sink : Sink} {journal : List Entry} {x : Reporter × Desk} :
      run.activity = .reporting →
      Reporter.Move (s.reporterTurn crew m run) (run.reporter, ⟨run.handoff, sink, journal⟩) x →
      Step crew m s run sink (run.reporter.look? (s.reporterTurn crew m run) sink)
        (run.afterReporter x) x.2.sink
  | close {run : Run} (sink : Sink) : run.activity = .reporting → run.reporter.isOver = true →
      Step crew m s run sink none run.closing sink
  | finish {run : Run} (sink : Sink) : run.activity = .joining → run.poller.stage = .finished →
      Step crew m s run sink none { run with activity := .over } sink
  | alarm {run : Run} {message : String} {l : Look} : run.activity = .joining →
      run.poller.stage = .panicked message →
      l.emission = SessionDesk.alarm s.past.length message → l.isFirst = true →
      l.isCancelled = m.isShutdown → Step crew m s run l.sink (some l) (run.afterAlarm l) l.result.2
  | mourn {run : Run} {l : Look} : run.activity = .mourning l.emission → l.isFirst = false →
      l.isCancelled = m.isShutdown → Step crew m s run l.sink (some l) (run.afterAlarm l) l.result.2
  | poll {run run₀ : Run} {x : Poller × Handoff} (sink : Sink) : run.isClosing = run₀.isClosing →
      Poller.Move (s.pollerTurn crew m run₀) (run.poller, run.handoff) x →
      Step crew m s run sink none (run.afterPoller x) sink

variable {crew : Crew} {m : Moment} {s : Session} {run run' : Run} {sink sink' : Sink}
  {l : Option Look} {I : Run → Prop}

/-- What every move keeps, every step keeps. -/
theorem Step.keeps (hs : Step crew m s run sink l run' sink') (hk : Keeps crew m I) (hi : I run) :
    I run' := by
  cases hs with
  | report ha hm => exact hk.reporter s run run _ _ _ hi ha rfl hm
  | close sink ha hover => exact hk.closing run hi ha hover
  | finish sink ha hp =>
    exact hk.turn run _ hi (by simp [ha]) (by simp) fun _ _ => by simp [Poller.isOver, hp]
  | alarm ha hp =>
    refine hk.turn run _ hi (by simp [ha]) ?_ fun _ _ => by simp [Poller.isOver, hp]
    split <;> simp
  | mourn ha =>
    refine hk.turn run _ hi (by simp [ha]) ?_ fun h => by simp [ha] at h
    split <;> simp
  | poll sink hc hm => exact hk.poller s _ run _ hi hc hm

end Run

/-! ## What a run has told -/

namespace Run

/-- The event about the poller's panic, once the run has begun to tell of it. -/
def alarms (task : Nat) (run : Run) : List Event :=
  match run.activity, run.poller.stage with
  | .mourning _, .panicked message => [(SessionDesk.alarm task message).event]
  | .over, .panicked message => [(SessionDesk.alarm task message).event]
  | _, _ => []

/-- The emission that waits for room. -/
def waiting? (run : Run) : Option Emission :=
  match run.activity with
  | .reporting => run.reporter.waiting?
  | .mourning e => some e
  | _ => none

/-- What the looks so far have told of a run. -/
structure Noted (task : Nat) (ls : List Look) (run : Run) : Prop where
  inForm : run.reporter.IsInForm
  ends : ∃ tail, Look.ends ls = run.reporter.told ++ tail ∧
    tail.map (·.1) = if run.activity = .over then run.alarms task else []
  begun : Look.begun ls = run.reporter.told.map (·.1) ++
    (run.reporter.waiting?.map (·.event)).toList ++ run.alarms task
  waiting : ∀ e, run.waiting? = some e → Look.Awaited ls e
  patient : Look.Patient ls
  mourning : ∀ e, run.activity = .mourning e →
    ∃ message, run.poller.stage = .panicked message ∧ e = SessionDesk.alarm task message

variable {crew : Crew} {m : Moment} {s : Session} {run run' : Run} {sink sink' : Sink}
  {l : Option Look} {ls : List Look} {task : Nat} {fired : Prop}

theorem noted_start (config : SessionConfig) (crew : Crew) (id : SessionId) (task : Nat) :
    (start config crew id).Noted task [] where
  inForm d cause e h := by cases h
  ends := ⟨[], rfl, rfl⟩
  begun := rfl
  waiting e h := by cases h
  patient l h := by cases h
  mourning e h := by cases h

theorem alarms_eq_nil (h : run.activity = .reporting ∨ run.activity = .joining) (task : Nat) :
    run.alarms task = [] := by
  unfold alarms
  rcases h with h | h <;> rw [h]

theorem Noted.tells (hn : run.Noted task ls) (ha : run.activity = .reporting) {x : Reporter × Desk}
    (ht : run.reporter.Tells l x.1) : (run.afterReporter x).Noted task (ls ++ l.toList) := by
  have ha' : (run.afterReporter x).activity = .reporting := ha
  have hwait : run.waiting? = run.reporter.waiting? := by simp [waiting?, ha]
  have hwait' : (run.afterReporter x).waiting? = x.1.waiting? := by simp [waiting?, afterReporter, ha]
  refine ⟨ht.inForm, ⟨[], ?_, by simp [ha']⟩, ?_, fun e he => ?_, ?_, fun e he => ?_⟩
  · obtain ⟨tail, htail, hnil⟩ := hn.ends
    rw [ha, if_neg (by simp), List.map_eq_nil_iff] at hnil
    rw [Look.ends_append, htail, hnil, List.append_nil, List.append_nil]
    exact ht.told.symm
  · rw [Look.begun_append, hn.begun, alarms_eq_nil (.inl ha), alarms_eq_nil (.inl ha'),
      List.append_nil, List.append_nil]
    exact ht.begun.symm
  · rw [hwait'] at he
    rcases ht.waiting e he with h | ⟨k, rfl, hf, rfl, hfull⟩
    · exact (hn.waiting e (hwait.trans h)).append _
    · exact .of_first hf hfull ls
  · cases l with
    | none => simpa using hn.patient
    | some k => exact hn.patient.append fun hf => hn.waiting _ (hwait.trans (ht.later k rfl hf))
  · cases ha.symm.trans he

/-- A look at the event about the poller's panic. -/
theorem Noted.afterAlarm (hn : run.Noted task ls) {l : Look} {message : String}
    (hp : run.poller.stage = .panicked message)
    (he : l.emission = SessionDesk.alarm task message)
    (ha : run.activity = if l.isFirst then .joining else .mourning l.emission) :
    (run.afterAlarm l).Noted task (ls ++ [l]) := by
  have halarms : (run.afterAlarm l).alarms task = [l.emission.event] := by
    unfold alarms Run.afterAlarm
    cases l.result.1 <;> simp [Progress.isReady, hp, he]
  have hbefore : run.alarms task ++ Look.begun [l] = [l.emission.event] := by
    cases hf : l.isFirst with
    | true =>
      rw [hf] at ha
      rw [alarms_eq_nil (.inr ha), Look.begun_first hf, List.nil_append]
    | false =>
      rw [hf] at ha
      simp [alarms, ha, hp, Look.begun_later hf, he]
  have hended : ∃ tail, Look.ends ls = run.reporter.told ++ tail ∧ tail = [] := by
    obtain ⟨tail, htail, hnil⟩ := hn.ends
    refine ⟨tail, htail, ?_⟩
    rw [if_neg (by rw [ha]; split <;> simp), List.map_eq_nil_iff] at hnil
    exact hnil
  obtain ⟨_, hended, rfl⟩ := hended
  have hlater : l.isFirst = false → Look.Awaited ls l.emission := by
    intro hf
    refine hn.waiting _ ?_
    simp [waiting?, ha, hf]
  refine ⟨hn.inForm, ?_, ?_, fun e hwait => ?_, hn.patient.append hlater, fun e hact => ?_⟩
  · rw [Look.ends_append, hended, List.append_nil]
    cases hres : l.result.1 with
    | pending =>
      rw [Look.ends_pending hres]
      refine ⟨[], rfl, ?_⟩
      simp [Run.afterAlarm, hres, Progress.isReady]
    | ready emitted =>
      rw [Look.ends_ready hres]
      refine ⟨_, rfl, ?_⟩
      rw [halarms]
      simp [Run.afterAlarm, hres, Progress.isReady]
  · rw [Look.begun_append, hn.begun, List.append_assoc, hbefore, halarms]
    rfl
  · cases hres : l.result.1 with
    | ready emitted => simp [waiting?, Run.afterAlarm, hres, Progress.isReady] at hwait
    | pending =>
      simp only [waiting?, Run.afterAlarm, hres, Progress.isReady] at hwait
      cases hwait
      cases hf : l.isFirst with
      | true => exact .of_first hf (Look.found_of_pending hres hf) ls
      | false => exact (hlater hf).append _
  · refine ⟨message, hp, ?_⟩
    unfold Run.afterAlarm at hact
    split at hact
    · cases hact
    · cases hact
      exact he

/-- A step without a look, as long as there is no panic to tell of. -/
theorem Noted.quiet (hn : run.Noted task ls)
    (ha : run.activity = .reporting ∨ run.activity = .joining)
    (hr : run'.reporter = run.reporter) (halarms : run'.alarms task = [])
    (hwait : ∀ e, run'.waiting? = some e → run.waiting? = some e)
    (hmourn : ∀ e, run'.activity ≠ .mourning e) : run'.Noted task ls where
  inForm := by rw [hr]; exact hn.inForm
  ends := by
    obtain ⟨tail, htail, hnil⟩ := hn.ends
    rw [if_neg (by rcases ha with ha | ha <;> simp [ha])] at hnil
    exact ⟨tail, by rw [hr]; exact htail, by rw [hnil, halarms]; split <;> rfl⟩
  begun := by rw [hn.begun, hr, halarms, alarms_eq_nil ha]
  waiting e he := hn.waiting e (hwait e he)
  patient := hn.patient
  mourning e he := absurd he (hmourn e)

/-- Only a run that still reports has a poller that moves. -/
theorem Sound.reporting (hsound : run.Sound fired) {t : Poller.Turn} {x : Poller × Handoff}
    (hm : Poller.Move t (run.poller, run.handoff) x) : run.activity = .reporting := by
  have halive := hm.alive
  by_cases ha : run.activity = .reporting
  · exact ha
  · simp [hsound.left (hsound.turned ha)] at halive

/-- **Every step tells what it makes of a failure, and nothing else.** -/
theorem Step.noted (hs : Step crew m s run sink l run' sink') (hsound : run.Sound fired)
    (hn : run.Noted s.past.length ls) : run'.Noted s.past.length (ls ++ l.toList) := by
  cases hs with
  | report ha hm => exact hn.tells ha (hm.tells hn.inForm)
  | close _ ha hover =>
    rw [Option.toList_none, List.append_nil]
    exact hn.quiet (.inl ha) rfl rfl (fun e he => by cases he) fun e he => by cases he
  | finish _ ha hp =>
    rw [Option.toList_none, List.append_nil]
    refine hn.quiet (.inr ha) rfl ?_ (fun e he => by cases he) fun e he => by cases he
    simp [alarms, hp]
  | alarm ha hp he hf hc => exact hn.afterAlarm hp he (by simp [ha, hf])
  | mourn ha hf hc =>
    obtain ⟨message, hp, he⟩ := hn.mourning _ ha
    exact hn.afterAlarm hp he (by simp [ha, hf])
  | poll _ hc hm =>
    have ha := hsound.reporting hm
    rename_i run₀ x
    have ha' : (run.afterPoller x).activity = .reporting := ha
    rw [Option.toList_none, List.append_nil]
    refine hn.quiet (.inl ha) rfl (alarms_eq_nil (.inl ha') _) (fun e he => ?_) fun e he => ?_
    · simpa [waiting?, ha, ha', afterPoller] using he
    · cases ha'.symm.trans he

end Run

namespace SessionDesk

variable {crew : Crew} {m : Moment} {d d' : SessionDesk} {a : Attempt} {run : Run}
  {l : Option Look}

/-- A move of a session whose run is on is a step of the run. -/
theorem Move.runStep (hm : Move crew m d l d') (hst : d.session.stage = .running a run)
    (hon : run.activity ≠ .over) : ∃ run' now, d'.session = d.session.put a run' now ∧
      Run.Step crew m d.session run d.sink l run' d'.sink := by
  cases hm with
  | refuse hst' => cases hst.symm.trans hst'
  | report hst' ha hmove =>
    cases hst.symm.trans hst'
    exact ⟨_, 0, (Session.put_on (by simp [Run.afterReporter, ha]) _ _ _).symm, .report ha hmove⟩
  | close hst' ha hover =>
    cases hst.symm.trans hst'
    exact ⟨_, 0, (Session.put_on (by simp [Run.closing]) _ _ _).symm, .close _ ha hover⟩
  | finish hst' ha hp =>
    cases hst.symm.trans hst'
    exact ⟨_, _, finish_session .., .finish _ ha hp⟩
  | alarm hst' ha hp =>
    cases hst.symm.trans hst'
    rw [join_panicked hp, mourn_sink]
    exact ⟨_, _, mourn_session .., .alarm (l := ⟨_, true, m.isShutdown, d.sink⟩) ha hp rfl rfl rfl⟩
  | mourn hst' ha =>
    cases hst.symm.trans hst'
    rw [mourn_sink]
    exact ⟨_, _, mourn_session .., .mourn (l := ⟨_, false, m.isShutdown, d.sink⟩) ha rfl rfl⟩
  | poll hst' hc hmove =>
    cases hst.symm.trans hst'
    rename_i run₀ x
    have hon' : (run.afterPoller x).activity ≠ .over := hon
    exact ⟨_, 0, (Session.put_on hon' _ _ _).symm, .poll _ hc hmove⟩

end SessionDesk

end HealthRelay
