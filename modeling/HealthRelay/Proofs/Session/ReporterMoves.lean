import HealthRelay.Reporter
import Mathlib.Logic.Relation

/-!
# The moves of a reporter

One turn of a reporter is a sequence of moves: a look at the handoff, a look at the delivery in
flight, a look at the event about a failed delivery. `Move` lists them, with what the reporter works
with beside it, and `poll_moves` says that a turn consists of them.
-/

namespace HealthRelay.Reporter

open Relation (ReflTransGen)

/-- The event about a failed delivery, before anybody has looked at it. -/
def emission (r : Reporter) (cause : Failure) : Emission :=
  ⟨.about r.notice.comment cause, r.past.length⟩

/-- The look of a turn at the work of a delivery. -/
def lookAt (r : Reporter) (d : Delivery) (t : Turn) :
    Call × Progress (Except Failure (Except Failure Unit)) :=
  d.call.look (t.isGated r.past.length) t.now t.isCancelled (t.answer r.past.length)

/-- The reporter with a delivery in hand. -/
def holding (r : Reporter) (s : Sample) (now : Nat) : Reporter :=
  { r with stage := .delivering (r.begin s now) }

def done (r : Reporter) : Reporter := { r with stage := .finished }

inductive Move (t : Turn) : Reporter × Desk → Reporter × Desk → Prop where
  | take {r : Reporter} {desk : Desk} {s : Sample} {h : Handoff} : r.stage = .receiving →
      desk.handoff.receive = (.sample s, h) →
      Move t (r, desk) (r.holding s t.now, { desk with handoff := h })
  | wait {r : Reporter} {desk : Desk} {h : Handoff} : r.stage = .receiving →
      desk.handoff.receive = (.pending, h) → Move t (r, desk) (r, { desk with handoff := h })
  | leave {r : Reporter} {desk : Desk} {h : Handoff} : r.stage = .receiving →
      desk.handoff.receive = (.closed, h) →
      Move t (r, desk) (r.done, { desk with handoff := h.dropReceiver })
  | linger {r : Reporter} {desk : Desk} {d : Delivery} {call : Call} : r.stage = .delivering d →
      r.lookAt d t = (call, .pending) →
      Move t (r, desk) ({ r with stage := .delivering { d with call } }, desk)
  | succeed {r : Reporter} {desk : Desk} {d : Delivery} {call : Call}
      {answer : Except Failure (Except Failure Unit)} : r.stage = .delivering d →
      r.lookAt d t = (call, .ready answer) → answer.bind id = .ok () →
      Move t (r, desk) (r.close { d with call } .accepted t.now, desk)
  | interrupt {r : Reporter} {desk : Desk} {d : Delivery} {call : Call}
      {answer : Except Failure (Except Failure Unit)} : r.stage = .delivering d →
      r.lookAt d t = (call, .ready answer) → answer.bind id = .error .cancelled →
      Move t (r, desk) (r.close { d with call } .interrupted t.now, desk)
  | fail {r : Reporter} {desk : Desk} {d : Delivery} {call : Call}
      {answer : Except Failure (Except Failure Unit)} {cause : Failure} : r.stage = .delivering d →
      r.lookAt d t = (call, .ready answer) → answer.bind id = .error cause → cause ≠ .cancelled →
      Move t (r, desk)
        (r.announce { d with call } cause (r.emission cause)
          ((r.emission cause).start t.isCancelled desk.sink) t.now desk)
  | announce {r : Reporter} {desk : Desk} {d : Delivery} {cause : Failure} {e : Emission} :
      r.stage = .announcing d cause e →
      Move t (r, desk) (r.announce d cause e (e.look t.isCancelled desk.sink) t.now desk)

abbrev Moves (t : Turn) : Reporter × Desk → Reporter × Desk → Prop := ReflTransGen (Move t)

variable {t : Turn} {r : Reporter} {desk : Desk}

theorem deliver_move {d : Delivery} (hst : r.stage = .delivering d) :
    Move t (r, desk) (r.deliver d t desk) := by
  unfold deliver
  simp only
  split
  · rename_i call hl
    exact .linger hst hl
  · rename_i call answer hl
    split
    · rename_i ha
      exact .succeed hst hl ha
    · rename_i ha
      exact .interrupt hst hl ha
    · rename_i cause hne ha
      exact .fail hst hl ha hne

/-- The stage from which a delivery is looked at is of no account. -/
theorem deliver_stage (r : Reporter) (stage : ReporterStage) (d : Delivery) (t : Turn)
    (desk : Desk) : { r with stage }.deliver d t desk = r.deliver d t desk := by
  unfold deliver announce close entries
  rfl

theorem receiveWithin_head {fuel : Nat}
    (hm : ∀ r desk, Moves t (r, desk) (r.receiveWithin t fuel desk)) (hst : r.stage = .receiving) :
    ∃ y, Move t (r, desk) y ∧ Moves t y (r.receiveWithin t (fuel + 1) desk) := by
  unfold receiveWithin
  rw [if_pos hst]
  split
  · rename_i s h hr
    refine ⟨_, .take hst hr, ?_⟩
    rw [← deliver_stage r (.delivering (r.begin s t.now))]
    exact .head (deliver_move rfl) (hm _ _)
  · rename_i h hr
    exact ⟨_, .wait hst hr, .refl⟩
  · rename_i h hr
    exact ⟨_, .leave hst hr, .refl⟩

theorem receiveWithin_moves (fuel : Nat) (r : Reporter) (desk : Desk) :
    Moves t (r, desk) (r.receiveWithin t fuel desk) := by
  induction fuel generalizing r desk with
  | zero => exact .refl
  | succ fuel ih =>
    by_cases hst : r.stage = .receiving
    · obtain ⟨y, hy, hm⟩ := receiveWithin_head ih hst
      exact .head hy hm
    · rw [receiveWithin, if_neg hst]

theorem poll_head (t : Turn) (hr : r.isOver = false) (desk : Desk) :
    ∃ y, Move t (r, desk) y ∧ Moves t y (r.poll t desk) := by
  unfold poll
  cases hst : r.stage with
  | delivering d => exact ⟨_, deliver_move hst, receiveWithin_moves _ _ _⟩
  | announcing d cause e => exact ⟨_, .announce hst, receiveWithin_moves _ _ _⟩
  | receiving => exact receiveWithin_head (receiveWithin_moves _) hst
  | finished => simp [isOver, hst] at hr

theorem poll_over (t : Turn) (hr : r.isOver = true) (desk : Desk) : r.poll t desk = (r, desk) := by
  have hst : r.stage = .finished := by simpa [isOver] using hr
  unfold poll
  simp only [hst]
  rw [receiveWithin, if_neg (by simp [hst])]

/-- **A turn consists of moves.** -/
theorem poll_moves (t : Turn) (r : Reporter) (desk : Desk) :
    Moves t (r, desk) (r.poll t desk) := by
  cases hr : r.isOver with
  | true => rw [poll_over t hr]
  | false =>
    obtain ⟨y, hy, hm⟩ := poll_head t hr desk
    exact .head hy hm

/-! ## What a move does to the deliveries -/

/-- All that a reporter was given at its start. -/
def header (r : Reporter) : Reporter :=
  .start r.interval r.sessionId r.agentName r.target r.notice

/-- The report of a sample. -/
def reportOf (r : Reporter) (s : Sample) : Report :=
  { agentName := r.agentName, sessionId := r.sessionId, externalAddr := r.target, sample := s }

def reports (r : Reporter) : List Report := r.deliveries.map (·.report)

def samples (r : Reporter) : List Sample := r.reports.map (·.sample)

theorem samples_eq {r r' : Reporter} (hr : r'.reports = r.reports) : r'.samples = r.samples := by
  rw [samples, hr, samples]

theorem deliveries_holding (hst : r.stage = .receiving) (s : Sample) (now : Nat) :
    (r.holding s now).deliveries = r.deliveries ++ [r.begin s now] := by
  simp [deliveries, inFlight?, holding, hst]

theorem reports_holding (hst : r.stage = .receiving) (s : Sample) (now : Nat) :
    (r.holding s now).reports = r.reports ++ [r.reportOf s] := by
  rw [reports, deliveries_holding hst, List.map_append]
  rfl

theorem samples_holding (hst : r.stage = .receiving) (s : Sample) (now : Nat) :
    (r.holding s now).samples = r.samples ++ [s] := by
  rw [samples, reports_holding hst, List.map_append]
  rfl

theorem deliveries_done (hst : r.stage = .receiving) : r.done.deliveries = r.deliveries := by
  simp [deliveries, inFlight?, done, hst]

theorem reports_done (hst : r.stage = .receiving) : r.done.reports = r.reports := by
  rw [reports, deliveries_done hst, reports]

/-- Every delivery carries what its reporter was given at the start. -/
def Signed (r : Reporter) : Prop := r.reports = r.samples.map r.reportOf

theorem reportOf_eq {r r' : Reporter} (hh : r'.header = r.header) : r'.reportOf = r.reportOf := by
  simp only [header, start, Reporter.mk.injEq] at hh
  funext s
  simp [reportOf, hh]

theorem Signed.of_reports {r' : Reporter} (hs : r.Signed) (hh : r'.header = r.header)
    (hr : r'.reports = r.reports) : r'.Signed := by
  rw [Signed, samples, hr, reportOf_eq hh]
  exact hs

theorem Signed.holding (hs : r.Signed) (hst : r.stage = .receiving) (s : Sample) (now : Nat) :
    (r.holding s now).Signed := by
  have hr : (r.holding s now).reportOf = r.reportOf := reportOf_eq rfl
  rw [Signed, reports_holding hst, samples_holding hst, hr, List.map_append, ← hs]
  rfl

theorem map_deliveries {β : Type} (f : Delivery → β) {d : Delivery} (hd : r.inFlight? = some d) :
    r.deliveries.map f = r.past.map f ++ [f d] := by
  simp [deliveries, hd]

/-- A delivery that ends keeps all that does not look at its end. -/
theorem map_deliveries_close {β : Type} (f : Delivery → β)
    (hf : ∀ (d : Delivery) (doneAt : Option Nat) (outcome : Option DeliveryEnd),
      f { d with call := d.call.release, doneAt, outcome } = f d)
    (r : Reporter) (d : Delivery) (outcome : DeliveryEnd) (now : Nat) :
    (r.close d outcome now).deliveries.map f = r.past.map f ++ [f d] := by
  simp [deliveries, inFlight?, close, hf]

/-- What a move that is no look at the handoff leaves alone. -/
structure Works (r r' : Reporter) (desk desk' : Desk) : Prop where
  before : r.isOver = false
  after : r'.isOver = false
  header : r'.header = r.header
  reports : r'.reports = r.reports
  handoff : desk'.handoff = desk.handoff

theorem works_close {d : Delivery} (hd : r.inFlight? = some d) (hr : r.isOver = false) (call : Call)
    (outcome : DeliveryEnd) (now : Nat) {desk' : Desk} (hh : desk'.handoff = desk.handoff) :
    Works r (r.close { d with call } outcome now) desk desk' :=
  ⟨hr, rfl, rfl, (map_deliveries_close Delivery.report (fun _ _ _ => rfl) ..).trans
    (map_deliveries Delivery.report hd).symm, hh⟩

theorem works_announce {d : Delivery} (hd : r.inFlight? = some d) (hr : r.isOver = false)
    (call : Call) (cause : Failure) (e : Emission) (looked : Progress Emitted × Sink) (now : Nat) :
    Works r (r.announce { d with call } cause e looked now desk).1 desk
      (r.announce { d with call } cause e looked now desk).2 := by
  obtain ⟨_ | emitted, sink⟩ := looked
  · refine ⟨hr, rfl, rfl, ?_, rfl⟩
    have hd' : (r.announce { d with call } cause e (.pending, sink) now desk).1.inFlight? =
        some { d with call } := rfl
    exact (map_deliveries Delivery.report hd').trans (map_deliveries Delivery.report hd).symm
  · exact works_close hd hr call _ now rfl

/-- A move is a look at the handoff, or it works on the delivery in flight. -/
theorem Move.effect {x : Reporter × Desk} (hm : Move t (r, desk) x) :
    (∃ s h, r.stage = .receiving ∧ desk.handoff.receive = (.sample s, h) ∧
        x = (r.holding s t.now, { desk with handoff := h })) ∨
      (∃ h, r.stage = .receiving ∧ desk.handoff.receive = (.pending, h) ∧
        x = (r, { desk with handoff := h })) ∨
      (∃ h, r.stage = .receiving ∧ desk.handoff.receive = (.closed, h) ∧
        x = (r.done, { desk with handoff := h.dropReceiver })) ∨
      Works r x.1 desk x.2 := by
  cases hm with
  | take hst hr => exact .inl ⟨_, _, hst, hr, rfl⟩
  | wait hst hr => exact .inr (.inl ⟨_, hst, hr, rfl⟩)
  | leave hst hr => exact .inr (.inr (.inl ⟨_, hst, hr, rfl⟩))
  | linger hst hl =>
    rename_i d call
    have hd : r.inFlight? = some d := by simp only [inFlight?, hst]
    have hd' : ({ r with stage := .delivering { d with call } } : Reporter).inFlight? =
        some { d with call } := rfl
    exact .inr (.inr (.inr ⟨by simp [isOver, hst], rfl, rfl,
      (map_deliveries Delivery.report hd').trans (map_deliveries Delivery.report hd).symm, rfl⟩))
  | succeed hst hl ha =>
    exact .inr (.inr (.inr (works_close (by simp only [inFlight?, hst]) (by simp [isOver, hst])
      _ _ _ rfl)))
  | interrupt hst hl ha =>
    exact .inr (.inr (.inr (works_close (by simp only [inFlight?, hst]) (by simp [isOver, hst])
      _ _ _ rfl)))
  | fail hst hl ha hne =>
    exact .inr (.inr (.inr (works_announce (by simp only [inFlight?, hst]) (by simp [isOver, hst])
      _ _ _ _ _)))
  | announce hst =>
    rename_i d cause e
    exact .inr (.inr (.inr (works_announce (by simp only [inFlight?, hst]) (by simp [isOver, hst])
      d.call _ _ _ _)))

end HealthRelay.Reporter
