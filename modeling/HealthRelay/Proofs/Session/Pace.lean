import HealthRelay.Proofs.Scope
import HealthRelay.Proofs.Session.Rest
import HealthRelay.Proofs.Session.Shutdown

/-!
# The pace of a run

`OnTime` says how late the probes and the deliveries of a run are at most. A probe call ends within
an interval of its start and so does a delivery; the ticker is due within an interval of the last
probe. So the poller and the reporter could each hold up the other, but not one after the other: a
delivery that a sample has to wait for began before the probe of that sample did
(`Run.OnTime.before`). Moves keep `OnTime` at the time of their turn. The time may go on for as long
as everybody `Waits`, and keeps `OnTime` then (`Run.OnTime.advance`).
-/

namespace HealthRelay

theorem Ticker.due_of_look {ticker next : Ticker} {now : Nat} (h : ticker.look now = some next) :
    next.period = ticker.period ∧ next.due ≤ now + ticker.period.nanos := by
  unfold look at h
  split at h
  · cases h
    refine ⟨rfl, ?_⟩
    show ticker.after now ≤ now + ticker.period.nanos
    unfold after
    split <;> omega
  · cases h

/-- Times in order, at most an interval apart. -/
def Steady (interval : Duration) (times : List Nat) : Prop :=
  ∀ (n s s' : Nat), times[n]? = some s → times[n + 1]? = some s' →
    s ≤ s' ∧ s' ≤ s + interval.nanos

theorem Steady.concat {interval : Duration} {times : List Nat} (h : Steady interval times)
    {now : Nat} (hlast : ∀ s, times.getLast? = some s → s ≤ now ∧ now ≤ s + interval.nanos) :
    Steady interval (times ++ [now]) := by
  intro n s s' hs hs'
  rcases getElem?_concat_cases hs' with hs' | ⟨hn, rfl⟩
  · rcases getElem?_concat_cases hs with hs | ⟨rfl, -⟩
    · exact h n s s' hs hs'
    · simp at hs'
  · rcases getElem?_concat_cases hs with hs | ⟨rfl, -⟩
    · refine hlast s ?_
      rw [List.getLast?_eq_getElem?, ← hn, Nat.add_sub_cancel, hs]
    · omega

/-! ## The poller -/

namespace Poller

def starts (p : Poller) : List Nat := p.calls.map (·.scope.openedAt)

/-- The plan of ticks. -/
def ticker? (p : Poller) : Option Ticker :=
  match p.stage with
  | .waiting ticker => some ticker
  | .probing ticker _ => some ticker
  | .handing ticker _ => some ticker
  | _ => none

/-- A poller whose probe calls begin at most an interval apart, as of now. -/
structure OnTime (interval : Duration) (now : Nat) (p : Poller) : Prop where
  budget : p.interval = interval
  started : ∀ s ∈ p.starts, s ≤ now
  cadence : Steady interval p.starts
  period : ∀ ticker, p.ticker? = some ticker → ticker.period = interval
  timer : ∀ ticker s, p.ticker? = some ticker → p.starts.getLast? = some s →
    ticker.due ≤ s + interval.nanos
  fresh : p.stage = .fresh → p.starts = []
  probing : ∀ ticker call, p.stage = .probing ticker call → call.scope.isReleased = false ∧
    call.scope.expiresAt ≤ call.scope.openedAt + interval.nanos
  /-- There is time left for the next probe call. -/
  next : p.isOver = false → ∀ s, p.starts.getLast? = some s → now ≤ s + interval.nanos
  /-- Every call that is over gave a sample, unless it panicked. -/
  count : p.samples.length ≤ p.past.length ∧ p.past.length ≤ p.samples.length + 1 ∧
    (p.isOver = false → p.past.length = p.samples.length)

variable {interval : Duration} {now : Nat} {t : Turn} {p p' : Poller} {h : Handoff}
  {x : Poller × Handoff}

theorem onTime_start (interval : Duration) (now : Nat) : (start interval).OnTime interval now := by
  constructor <;> simp [start, starts, calls, inFlight?, ticker?, Steady]

/-- Only a move that begins a call adds to the starts. -/
theorem Move.starts (hm : Move t (p, h) x) : x.1.starts = p.starts ∨
    p.inFlight? = none ∧ x.1.inFlight? ≠ none ∧ x.1.starts = p.starts ++ [t.now] := by
  cases hm with
  | wake hst => exact .inl (by simp [Poller.starts, calls, inFlight?, hst])
  | stop hst => exact .inl (by simp [Poller.starts, calls, inFlight?, finish, hst])
  | ask hst =>
    exact .inr ⟨by simp [inFlight?, hst], by simp [inFlight?],
      by simp [Poller.starts, calls, inFlight?, hst, Call.start, Scope.start]⟩
  | linger hst hl => exact .inl (by simp [Poller.starts, calls, inFlight?, hst, Call.look_scope hl])
  | panic hst hl =>
    left
    simp [Poller.starts, calls, inFlight?, hst, Call.look_scope hl, Call.release, Scope.release]
  | give hst hl =>
    left
    rw [Poller.starts, give_calls]
    simp [Poller.starts, calls, inFlight?, hst, Call.look_scope hl, Call.release, Scope.release]
  | acknowledge hst => exact .inl (by simp [Poller.starts, calls, inFlight?, hst])
  | refuse hst => exact .inl (by simp [Poller.starts, calls, inFlight?, finish, hst])
  | wait hst => exact .inl rfl
  | giveUp hst => exact .inl (by simp [Poller.starts, calls, inFlight?, finish, hst])

/-- Every call gives its sample, up to one that is on or has panicked. -/
theorem OnTime.sampled (hp : p.OnTime interval now) :
    p.samples.length ≤ p.calls.length ∧ p.calls.length ≤ p.samples.length + 1 := by
  obtain ⟨hle, hge, halive⟩ := hp.count
  rw [calls, List.length_append]
  cases hover : p.isOver with
  | false =>
    have hpast := halive hover
    have hflight := Option.length_toList_le (o := p.inFlight?)
    omega
  | true =>
    have hflight : p.inFlight? = none := by
      unfold isOver at hover
      unfold inFlight?
      split at hover <;> simp [*] at hover ⊢
    rw [hflight, Option.toList_none, List.length_nil]
    omega

/-- A move that begins no call. -/
theorem OnTime.quiet (hp : p.OnTime interval now) (hi : p'.interval = p.interval)
    (hs : p'.starts = p.starts)
    (ht : ∀ ticker, p'.ticker? = some ticker → p.ticker? = some ticker ∨
      ticker.period = interval ∧ p.starts = [])
    (hf : p'.stage ≠ .fresh)
    (hprobe : ∀ ticker call, p'.stage = .probing ticker call →
      ∃ call₀, p.stage = .probing ticker call₀ ∧ call.scope = call₀.scope)
    (hover : p.isOver = false)
    (hc : p'.samples.length ≤ p'.past.length ∧ p'.past.length ≤ p'.samples.length + 1 ∧
      (p'.isOver = false → p'.past.length = p'.samples.length)) : p'.OnTime interval now where
  budget := hi.trans hp.budget
  started := hs ▸ hp.started
  cadence := hs ▸ hp.cadence
  period ticker h := by
    rcases ht ticker h with h | ⟨h, -⟩
    · exact hp.period ticker h
    · exact h
  timer ticker s h hlast := by
    rw [hs] at hlast
    rcases ht ticker h with h | ⟨-, hnil⟩
    · exact hp.timer ticker s h hlast
    · simp [hnil] at hlast
  fresh h := absurd h hf
  probing ticker call h := by
    obtain ⟨call₀, hst, hscope⟩ := hprobe ticker call h
    rw [hscope]
    exact hp.probing ticker call₀ hst
  next _ s hlast := hp.next hover s (hs ▸ hlast)
  count := hc

/-- A move that ends the poller. -/
theorem OnTime.over (hp : p.OnTime interval now) (hi : p'.interval = p.interval)
    (hs : p'.starts = p.starts) (hover : p'.isOver = true)
    (hc : p'.samples.length ≤ p'.past.length ∧ p'.past.length ≤ p'.samples.length + 1) :
    p'.OnTime interval now where
  budget := hi.trans hp.budget
  started := hs ▸ hp.started
  cadence := hs ▸ hp.cadence
  period ticker h := by
    unfold isOver at hover
    unfold ticker? at h
    split at hover <;> simp [*] at h hover
  timer ticker s h := by
    unfold isOver at hover
    unfold ticker? at h
    split at hover <;> simp [*] at h hover
  fresh h := by simp [isOver, h] at hover
  probing ticker call h := by simp [isOver, h] at hover
  next h := by simp [hover] at h
  count := ⟨hc.1, hc.2, fun h => by simp [hover] at h⟩

/-- The move that begins a call. -/
theorem OnTime.ask (hp : p.OnTime interval now) {ticker next : Ticker}
    (hst : p.stage = .waiting ticker) (hl : ticker.look now = some next)
    (hclock : now + Scope.farFuture.nanos < Scope.clockEnd.nanos) :
    { p with stage := .probing next (.start now p.interval) }.OnTime interval now := by
  have hstarts : ({ p with stage := .probing next (.start now p.interval) } : Poller).starts =
      p.starts ++ [now] := by
    simp [starts, calls, inFlight?, hst, Call.start, Scope.start]
  have hperiod : ticker.period = interval := hp.period ticker (by simp [ticker?, hst])
  have hnext := Ticker.due_of_look hl
  rw [hperiod] at hnext
  have hleft := hp.next (by simp [isOver, hst])
  have hexpiry := Scope.expiry_le hclock interval
  have hcount := hp.count.2.2 (by simp [isOver, hst])
  refine ⟨hp.budget, ?_, ?_, ?_, ?_, by simp, ?_, ?_, ?_⟩
  · rw [hstarts]
    intro s hs
    rcases List.mem_append.mp hs with hs | hs
    · exact hp.started s hs
    · exact Nat.le_of_eq (List.mem_singleton.mp hs)
  · rw [hstarts]
    refine hp.cadence.concat fun s hlast => ⟨hp.started s ?_, hleft s hlast⟩
    exact List.mem_of_getLast? hlast
  · intro ticker' h
    cases h
    exact hnext.1
  · rw [hstarts]
    intro ticker' s h hlast
    cases h
    rw [List.getLast?_concat] at hlast
    cases hlast
    exact hnext.2
  · intro ticker' call h
    cases h
    rw [hp.budget]
    exact ⟨rfl, hexpiry⟩
  · rw [hstarts]
    intro _ s hlast
    rw [List.getLast?_concat] at hlast
    cases hlast
    omega
  · exact ⟨by simp [hcount], by simp [hcount], fun _ => hcount⟩

theorem OnTime.give (hp : p.OnTime interval now) {ticker : Ticker} {call call' : Call}
    (hst : p.stage = .probing ticker call) (hscope : call'.scope = call.scope) (sample : Sample)
    (t : Turn) (h : Handoff) : (p.give ticker call' sample t h).1.OnTime interval now := by
  have hcount := hp.count.2.2 (by simp [isOver, hst])
  have hstarts : (p.past ++ [call'.release]).map (·.scope.openedAt) = p.starts := by
    simp [starts, calls, inFlight?, hst, hscope, Call.release, Scope.release]
  unfold Poller.give
  split
  · refine hp.over rfl ?_ rfl (by simp [finish, hcount])
    simpa [starts, calls, inFlight?, finish] using hstarts
  · split
    · refine hp.over rfl ?_ rfl (by simp [finish, hcount])
      simpa [starts, calls, inFlight?, finish] using hstarts
    · refine hp.quiet rfl ?_ ?_ (by simp) (by simp) (by simp [isOver, hst]) (by simp [hcount])
      · simpa [starts, calls, inFlight?] using hstarts
      · intro ticker' h'
        exact .inl (by simpa [ticker?, hst] using h')

theorem Move.onTime (hm : Move t (p, h) x) (hp : p.OnTime interval t.now)
    (hclock : t.now + Scope.farFuture.nanos < Scope.clockEnd.nanos) :
    x.1.OnTime interval t.now := by
  have hcount := hp.count
  have hkept : x.1.inFlight? = none ∨ p.inFlight? ≠ none → x.1.starts = p.starts := by
    intro hflight
    rcases hm.starts with hs | ⟨hnone, hsome, -⟩
    · exact hs
    · rcases hflight with h | h
      · exact absurd h hsome
      · exact absurd hnone h
  cases hm with
  | wake hst =>
    have hnil := hp.fresh hst
    refine hp.quiet rfl (hkept (.inl rfl)) (fun ticker ht => .inr ⟨?_, hnil⟩)
      (by simp) (by simp) (by simp [isOver, hst]) ?_
    · cases ht
      exact hp.budget
    · simpa [isOver, hst] using hcount
  | stop hst => exact hp.over rfl (hkept (.inl rfl)) rfl ⟨hcount.1, hcount.2.1⟩
  | ask hst hc hl => exact hp.ask hst hl hclock
  | linger hst hl =>
    refine hp.quiet rfl (hkept (.inr (by simp [inFlight?, hst])))
      (by simp [ticker?, hst]) (by simp) (fun ticker call h => ?_) (by simp [isOver, hst]) ?_
    · cases h
      exact ⟨_, hst, Call.look_scope hl⟩
    · simpa [isOver, hst] using hcount
  | panic hst hl =>
    have hlength := hcount.2.2 (by simp [isOver, hst])
    exact hp.over rfl (hkept (.inl rfl)) rfl (by simp [hlength])
  | give hst hl => exact hp.give hst (Call.look_scope hl) _ _ _
  | acknowledge hst =>
    refine hp.quiet rfl (hkept (.inl rfl)) (by simp [ticker?, hst]) (by simp)
      (by simp) (by simp [isOver, hst]) ?_
    simpa [isOver, hst] using hcount
  | refuse hst => exact hp.over rfl (hkept (.inl rfl)) rfl ⟨hcount.1, hcount.2.1⟩
  | wait hst hl => exact hp
  | giveUp hst => exact hp.over rfl (hkept (.inl rfl)) rfl ⟨hcount.1, hcount.2.1⟩

end Poller

/-! ## The reporter -/

namespace Reporter

def starts (r : Reporter) : List Nat := r.deliveries.map (·.call.scope.openedAt)

/-- A reporter whose deliveries end within an interval, as of now. -/
structure OnTime (interval : Duration) (now : Nat) (r : Reporter) : Prop where
  budget : r.interval = interval
  started : ∀ s ∈ r.starts, s ≤ now
  delivering : ∀ d, r.stage = .delivering d → d.call.scope.isReleased = false ∧
    d.call.scope.expiresAt ≤ d.call.scope.openedAt + interval.nanos
  inFlight : ∀ d, r.inFlight? = some d →
    now ≤ d.call.scope.openedAt + interval.nanos ∧ d.doneAt = none
  past : ∀ d ∈ r.past, ∃ e, d.doneAt = some e ∧ e ≤ d.call.scope.openedAt + interval.nanos

variable {interval : Duration} {now : Nat} {t : Turn} {r : Reporter} {desk : Desk}
  {x : Reporter × Desk}

theorem onTime_start (interval : Duration) (sessionId : SessionId) (agentName : Option String)
    (target : Address) (notice : DeliveryNotice) (now : Nat) :
    (start interval sessionId agentName target notice).OnTime interval now := by
  constructor <;> simp [start, starts, deliveries, inFlight?]

/-- The end of a delivery, or the present if it is still on. -/
theorem OnTime.done (hr : r.OnTime interval now) {d : Delivery} (hd : d ∈ r.deliveries) :
    d.doneAt.getD now ≤ d.call.scope.openedAt + interval.nanos := by
  rcases List.mem_append.mp hd with hd | hd
  · obtain ⟨e, he, hle⟩ := hr.past d hd
    rwa [he]
  · obtain ⟨hle, hnone⟩ := hr.inFlight d (Option.mem_toList.mp hd)
    rwa [hnone]

theorem starts_close {d : Delivery} (hd : r.inFlight? = some d) {call : Call}
    (hscope : call.scope = d.call.scope) (outcome : DeliveryEnd) (now : Nat) :
    (r.close { d with call } outcome now).starts = r.starts := by
  have hclose : (r.close { d with call } outcome now).starts =
      r.past.map (·.call.scope.openedAt) ++ [call.scope.openedAt] :=
    map_deliveries_close _ (fun _ _ _ => rfl) ..
  rw [hclose, hscope]
  exact (map_deliveries _ hd).symm

theorem OnTime.close (hr : r.OnTime interval now) {d : Delivery} (hd : r.inFlight? = some d)
    {call : Call} (hscope : call.scope = d.call.scope) (outcome : DeliveryEnd) :
    (r.close { d with call } outcome now).OnTime interval now where
  budget := hr.budget
  started := starts_close hd hscope outcome now ▸ hr.started
  delivering d' h := by cases h
  inFlight d' h := by cases h
  past d' h := by
    rcases List.mem_append.mp h with h | h
    · exact hr.past d' h
    · obtain rfl := List.mem_singleton.mp h
      refine ⟨now, rfl, ?_⟩
      have hleft := (hr.inFlight d hd).1
      rw [← hscope] at hleft
      exact hleft

theorem starts_announce {d : Delivery} (hd : r.inFlight? = some d) {call : Call}
    (hscope : call.scope = d.call.scope) (cause : Failure) (e : Emission)
    (looked : Progress Emitted × Sink) (now : Nat) (desk : Desk) :
    (r.announce { d with call } cause e looked now desk).1.starts = r.starts := by
  obtain ⟨_ | emitted, sink⟩ := looked
  · have hd' : (r.announce { d with call } cause e (.pending, sink) now desk).1.inFlight? =
        some { d with call } := rfl
    rw [starts, starts, map_deliveries _ hd, map_deliveries _ hd', hscope]
    rfl
  · exact starts_close hd hscope _ now

/-- What a move does to the starts of the deliveries. -/
theorem Move.starts (hm : Move t (r, desk) x) : x.1.starts = r.starts ∨
    (∃ s h, desk.handoff.receive = (.sample s, h)) ∧ x.1.starts = r.starts ++ [t.now] := by
  cases hm with
  | take hst hr =>
    refine .inr ⟨⟨_, _, hr⟩, ?_⟩
    rw [Reporter.starts, deliveries_holding hst, List.map_append]
    rfl
  | wait => exact .inl rfl
  | leave hst =>
    left
    rw [Reporter.starts, deliveries_done hst]
    rfl
  | linger hst hl =>
    rename_i d call
    have hd : r.inFlight? = some d := by simp [inFlight?, hst]
    have hd' : ({ r with stage := .delivering { d with call } } : Reporter).inFlight? =
        some { d with call } := rfl
    left
    rw [Reporter.starts, Reporter.starts, map_deliveries _ hd, map_deliveries _ hd',
      Call.look_scope hl]
  | succeed hst hl => exact .inl (starts_close (by simp [inFlight?, hst]) (Call.look_scope hl) ..)
  | interrupt hst hl => exact .inl (starts_close (by simp [inFlight?, hst]) (Call.look_scope hl) ..)
  | fail hst hl => exact .inl (starts_announce (by simp [inFlight?, hst]) (Call.look_scope hl) ..)
  | announce hst =>
    rename_i d cause e
    exact .inl (starts_announce (d := d) (by simp [inFlight?, hst]) rfl ..)

theorem OnTime.announce (hr : r.OnTime interval now) {d : Delivery} (hd : r.inFlight? = some d)
    {call : Call} (hscope : call.scope = d.call.scope) (cause : Failure) (e : Emission)
    (looked : Progress Emitted × Sink) (desk : Desk) :
    (r.announce { d with call } cause e looked now desk).1.OnTime interval now := by
  have hstarts := starts_announce hd hscope cause e looked now desk
  obtain ⟨_ | emitted, sink⟩ := looked
  · have hflight := hr.inFlight d hd
    rw [← hscope] at hflight
    refine ⟨hr.budget, hstarts ▸ hr.started, fun d' h => (by cases h), fun d' h => ?_, hr.past⟩
    cases h
    exact hflight
  · exact hr.close hd hscope _

theorem Move.onTime (hm : Move t (r, desk) x) (hr : r.OnTime interval t.now)
    (hclock : t.now + Scope.farFuture.nanos < Scope.clockEnd.nanos) :
    x.1.OnTime interval t.now := by
  have hstarted : ∀ s ∈ x.1.starts, s ≤ t.now := by
    intro s hs
    rcases hm.starts with hstarts | ⟨-, hstarts⟩
    · exact hr.started s (hstarts ▸ hs)
    · rw [hstarts] at hs
      rcases List.mem_append.mp hs with hs | hs
      · exact hr.started s hs
      · exact Nat.le_of_eq (List.mem_singleton.mp hs)
  cases hm with
  | take hst =>
    refine ⟨hr.budget, hstarted, fun d h => ?_, fun d h => ?_, hr.past⟩
    · cases h
      have hexpiry := Scope.expiry_le hclock r.interval
      rw [hr.budget] at hexpiry
      exact ⟨rfl, hr.budget ▸ hexpiry⟩
    · cases h
      exact ⟨Nat.le_add_right _ _, rfl⟩
  | wait => exact hr
  | leave => exact ⟨hr.budget, hstarted, fun d h => (by cases h), fun d h => (by cases h), hr.past⟩
  | linger hst hl =>
    have hscope := Call.look_scope hl
    refine ⟨hr.budget, hstarted, fun d h => ?_, fun d h => ?_, hr.past⟩
    · cases h
      rw [hscope]
      exact hr.delivering _ hst
    · cases h
      rw [hscope]
      exact hr.inFlight _ (by simp [inFlight?, hst])
  | succeed hst hl => exact hr.close (by simp [inFlight?, hst]) (Call.look_scope hl) _
  | interrupt hst hl => exact hr.close (by simp [inFlight?, hst]) (Call.look_scope hl) _
  | fail hst hl => exact hr.announce (by simp [inFlight?, hst]) (Call.look_scope hl) _ _ _ _
  | announce hst =>
    rename_i d cause e
    exact hr.announce (d := d) (by simp [inFlight?, hst]) rfl _ _ _ _

end Reporter

/-! ## The run -/

namespace Run

/-- A run whose probes and deliveries keep pace, as of now. -/
structure OnTime (interval : Duration) (now : Nat) (run : Run) : Prop where
  poller : run.poller.OnTime interval now
  reporter : run.reporter.OnTime interval now
  delivered : ∀ (n s d : Nat), run.poller.starts[n]? = some s → run.reporter.starts[n]? = some d →
    s ≤ d ∧ d ≤ s + interval.nanos
  /-- No probe starts before the delivery of the sample before the last one. -/
  before : ∀ (n d s : Nat), run.reporter.starts[n]? = some d →
    run.poller.starts[n + 1]? = some s → d ≤ s

variable {interval : Duration} {now : Nat} {run : Run} {fired : Prop} {crew : Crew} {m : Moment}

theorem onTime_start (config : SessionConfig) (crew : Crew) (id : SessionId) (now : Nat) :
    (start config crew id).OnTime config.interval now where
  poller := Poller.onTime_start _ _
  reporter := Reporter.onTime_start ..
  delivered n s d hs := by simp [start, Poller.start, Poller.starts, Poller.calls,
    Poller.inFlight?] at hs
  before n d s hd := by simp [start, Reporter.start, Reporter.starts, Reporter.deliveries,
    Reporter.inFlight?] at hd

theorem deliveries_length (run : Run) :
    run.reporter.starts.length = run.reporter.samples.length := by
  simp [Reporter.starts, Reporter.samples, Reporter.reports]

theorem OnTime.behind (h : run.OnTime interval now) (hs : run.Sound fired) :
    run.reporter.starts.length ≤ run.poller.starts.length := by
  have hsamples := hs.linked.done_isPrefix.length_le
  rw [deliveries_length, Poller.starts, List.length_map]
  exact Nat.le_trans hsamples h.poller.sampled.1

/-- The sample in the handoff is that of the last probe. -/
theorem OnTime.starts_of_parked (h : run.OnTime interval now) (hs : run.Sound fired) {s : Sample}
    (hparked : run.handoff.parked = [s]) :
    run.poller.isOver = false ∧ run.poller.starts.length = run.reporter.starts.length + 1 := by
  rcases hs.linked.parked_cases with hnil | ⟨s', -, halive, hsamples⟩
  · rw [hparked] at hnil
    cases hnil
  · have hflight : run.poller.inFlight? = none := by
      unfold Poller.inFlight?
      split
      · rename_i hst
        obtain ⟨-, -, -, hdone⟩ := hs.linked.of_producing halive (by simp [hst])
        simp [hsamples] at hdone
      · rfl
    have hpast := h.poller.count.2.2 halive
    refine ⟨halive, ?_⟩
    rw [deliveries_length, Poller.starts, Poller.calls, hflight]
    simp [hpast, hsamples]

theorem OnTime.ahead (h : run.OnTime interval now) (hs : run.Sound False) :
    run.poller.starts.length ≤ run.reporter.starts.length + 1 := by
  cases hp : run.handoff.parked with
  | cons s rest =>
    have hlength := hs.linked.parked_length_le
    rw [hp, List.length_cons] at hlength
    obtain rfl : rest = [] := List.eq_nil_of_length_eq_zero (by omega)
    exact Nat.le_of_eq (h.starts_of_parked hs hp).2
  | nil =>
    have hsamples := congrArg List.length (hs.linked.samples_of_parked_nil hp)
    have hsampled := h.poller.sampled.2
    rw [deliveries_length, Poller.starts, List.length_map]
    omega

/-- Only a panic stops a poller whose token has not fired. -/
theorem OnTime.next_or_panicked (h : run.OnTime interval now) (hl : run.Lasting False) {s : Nat}
    (hlast : run.poller.starts.getLast? = some s) :
    now ≤ s + interval.nanos ∨ ∃ message, run.poller.stage = .panicked message := by
  cases hover : run.poller.isOver with
  | false => exact .inl (h.poller.next hover s hlast)
  | true =>
    cases hst : run.poller.stage with
    | finished => exact (hl.finished hst).elim
    | panicked message => exact .inr ⟨message, rfl⟩
    | _ => simp [Poller.isOver, hst] at hover

theorem OnTime.pollerMove {t : Poller.Turn} (h : run.OnTime interval t.now) (hs : run.Sound fired)
    (hclock : t.now + Scope.farFuture.nanos < Scope.clockEnd.nanos) {x : Poller × Handoff}
    (hm : Poller.Move t (run.poller, run.handoff) x) :
    (run.afterPoller x).OnTime interval t.now where
  poller := hm.onTime h.poller hclock
  reporter := h.reporter
  delivered n s d hp hd := by
    change x.1.starts[n]? = some s at hp
    change run.reporter.starts[n]? = some d at hd
    rcases hm.starts with hstarts | ⟨-, -, hstarts⟩
    · exact h.delivered n s d (hstarts ▸ hp) hd
    · rw [hstarts] at hp
      rcases getElem?_concat_cases hp with hp | ⟨rfl, -⟩
      · exact h.delivered n s d hp hd
      · have hbehind := h.behind hs
        rw [List.getElem?_eq_none hbehind] at hd
        cases hd
  before n d s hd hp := by
    change run.reporter.starts[n]? = some d at hd
    change x.1.starts[n + 1]? = some s at hp
    rcases hm.starts with hstarts | ⟨-, -, hstarts⟩
    · exact h.before n d s hd (hstarts ▸ hp)
    · rw [hstarts] at hp
      rcases getElem?_concat_cases hp with hp | ⟨-, rfl⟩
      · exact h.before n d s hd hp
      · exact h.reporter.started d (List.mem_of_getElem? hd)

theorem OnTime.reporterMove {t : Reporter.Turn} (h : run.OnTime interval t.now)
    (hs : run.Sound fired) (hclock : t.now + Scope.farFuture.nanos < Scope.clockEnd.nanos)
    {sink : Sink} {journal : List Entry} {x : Reporter × Desk}
    (hm : Reporter.Move t (run.reporter, ⟨run.handoff, sink, journal⟩) x) :
    (run.afterReporter x).OnTime interval t.now where
  poller := h.poller
  reporter := hm.onTime h.reporter hclock
  delivered n s d hp hd := by
    change run.poller.starts[n]? = some s at hp
    change x.1.starts[n]? = some d at hd
    rcases hm.starts with hstarts | ⟨⟨sample, handoff, hr⟩, hstarts⟩
    · exact h.delivered n s d hp (hstarts ▸ hd)
    · rw [hstarts] at hd
      rcases getElem?_concat_cases hd with hd | ⟨rfl, rfl⟩
      · exact h.delivered n s d hp hd
      · -- the sample that is taken now is that of the last probe
        obtain ⟨halive, hlength⟩ := h.starts_of_parked hs (hs.linked.receive_sample hr).2.1
        have hlast : run.poller.starts.getLast? = some s := by
          rw [List.getLast?_eq_getElem?, hlength, Nat.add_sub_cancel, hp]
        exact ⟨h.poller.started s (List.mem_of_getElem? hp), h.poller.next halive s hlast⟩
  before n d s hd hp := by
    change x.1.starts[n]? = some d at hd
    change run.poller.starts[n + 1]? = some s at hp
    rcases hm.starts with hstarts | ⟨⟨sample, handoff, hr⟩, hstarts⟩
    · exact h.before n d s (hstarts ▸ hd) hp
    · rw [hstarts] at hd
      rcases getElem?_concat_cases hd with hd | ⟨rfl, -⟩
      · exact h.before n d s hd hp
      · obtain ⟨-, hlength⟩ := h.starts_of_parked hs (hs.linked.receive_sample hr).2.1
        rw [List.getElem?_eq_none (Nat.le_of_eq hlength)] at hp
        cases hp

theorem keeps_onTime (crew : Crew) (hm : m.isShutdown = false)
    (hclock : m.now + Scope.farFuture.nanos < Scope.clockEnd.nanos) :
    Keeps crew m fun run => run.Lasting False ∧ run.OnTime interval m.now := by
  have hlasting : Keeps crew m (Lasting False) := keeps_lasting crew (by simp [hm])
  exact {
    poller s run₀ run x h hc hmove :=
      ⟨hlasting.poller s run₀ run x h.1 hc hmove, h.2.pollerMove h.1.sound hclock hmove⟩
    reporter s run₀ run sink journal x h ha hc hmove :=
      ⟨hlasting.reporter s run₀ run sink journal x h.1 ha hc hmove,
        h.2.reporterMove h.1.sound hclock hmove⟩
    closing run h ha hover := ⟨hlasting.closing run h.1 ha hover,
        h.2.poller, h.2.reporter, h.2.delivered, h.2.before⟩
    turn run activity h ha hb hp := ⟨hlasting.turn run activity h.1 ha hb hp,
        h.2.poller, h.2.reporter, h.2.delivered, h.2.before⟩ }

/-! ## The clock goes on -/

/-- Nobody in a run has anything to do until then. -/
structure Waits (now : Nat) (run : Run) : Prop where
  waiting : ∀ ticker, run.poller.stage = .waiting ticker → now ≤ ticker.due
  probing : ∀ ticker call, run.poller.stage = .probing ticker call → now ≤ call.scope.expiresAt
  /-- Only a delivery keeps a sample waiting. -/
  handing : ∀ ticker ticket, run.poller.stage = .handing ticker ticket →
    (∃ s, run.handoff.parked = [s]) ∧ ∃ d, run.reporter.stage = .delivering d
  delivering : ∀ d, run.reporter.stage = .delivering d → now ≤ d.call.scope.expiresAt
  room : ∀ d cause e, run.reporter.stage ≠ .announcing d cause e

theorem Waits.of_over (hr : run.reporter.isOver = true) (hp : run.poller.isOver = true)
    (now : Nat) : run.Waits now := by
  have hst : run.reporter.stage = .finished := by simpa [Reporter.isOver] using hr
  constructor
  · intro ticker h
    simp [Poller.isOver, h] at hp
  · intro ticker call h
    simp [Poller.isOver, h] at hp
  · intro ticker ticket h
    simp [Poller.isOver, h] at hp
  · intro d h
    cases hst.symm.trans h
  · intro d cause e h
    cases hst.symm.trans h

theorem OnTime.next_of_waits (h : run.OnTime interval now) (hs : run.Sound fired) {later : Nat}
    (hw : run.Waits later) (halive : run.poller.isOver = false) {s : Nat}
    (hlast : run.poller.starts.getLast? = some s) : later ≤ s + interval.nanos := by
  cases hst : run.poller.stage with
  | fresh => simp [h.poller.fresh hst] at hlast
  | waiting ticker =>
    exact Nat.le_trans (hw.waiting ticker hst)
      (h.poller.timer ticker s (by simp [Poller.ticker?, hst]) hlast)
  | probing ticker call =>
    have hopened : call.scope.openedAt = s := by
      simpa [Poller.starts, Poller.calls, Poller.inFlight?, hst] using hlast
    have hdue := hw.probing ticker call hst
    have hexpiry := (h.poller.probing ticker call hst).2
    omega
  | handing ticker ticket =>
    -- the delivery that is on began before the probe whose sample waits
    obtain ⟨⟨sample, hparked⟩, d, hd⟩ := hw.handing ticker ticket hst
    obtain ⟨-, hlength⟩ := h.starts_of_parked hs hparked
    have hdue := hw.delivering d hd
    have hexpiry := (h.reporter.delivering d hd).2
    have hflight : run.reporter.inFlight? = some d := by simp [Reporter.inFlight?, hd]
    have hstarts : run.reporter.starts =
        run.reporter.past.map (·.call.scope.openedAt) ++ [d.call.scope.openedAt] :=
      Reporter.map_deliveries _ hflight
    have hbefore : d.call.scope.openedAt ≤ s := by
      refine h.before run.reporter.past.length _ s ?_ ?_
      · rw [hstarts, ← List.length_map (·.call.scope.openedAt), List.getElem?_concat_length]
      · rw [List.getLast?_eq_getElem?, hlength, hstarts] at hlast
        simpa using hlast
    omega
  | finished => simp [Poller.isOver, hst] at halive
  | panicked message => simp [Poller.isOver, hst] at halive

/-- A run keeps pace while it waits. -/
theorem OnTime.advance (h : run.OnTime interval now) (hs : run.Sound fired) {later : Nat}
    (hle : now ≤ later) (hw : run.Waits later) : run.OnTime interval later where
  poller :=
    { h.poller with
      started := fun s hs => Nat.le_trans (h.poller.started s hs) hle
      next := fun halive s hlast => h.next_of_waits hs hw halive hlast }
  reporter :=
    { h.reporter with
      started := fun s hs => Nat.le_trans (h.reporter.started s hs) hle
      inFlight := fun d hd => by
        have hdone := (h.reporter.inFlight d hd).2
        unfold Reporter.inFlight? at hd
        split at hd
        · rename_i hst
          cases hd
          exact ⟨Nat.le_trans (hw.delivering d hst) (h.reporter.delivering d hst).2, hdone⟩
        · rename_i hst
          exact absurd hst (hw.room _ _ _)
        · cases hd }
  delivered := h.delivered
  before := h.before

end Run

end HealthRelay
