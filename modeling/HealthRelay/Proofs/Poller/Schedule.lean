import HealthRelay.Proofs.Config
import HealthRelay.Proofs.Poller.Trace
import HealthRelay.Proofs.Session.Pace
import Mathlib.Data.List.Chain
import Mathlib.Data.List.Induction
import Mathlib.Order.Bounds.Basic

/-!
# When a poller probes

A paced trace lets the clock go on only while the poller waits, however long its probes take and
its samples lie. `run_on_schedule` says when each probe begins then: as soon as the sample before
it has been taken and the next tick is due. `dueAfter` is the tick, by when the probes before it
began. The ticks are multiples of the interval; those that a late probe has missed are dropped.

A ticker takes a tick that is seen within its slack to be on time. So an interval within the slack
makes up for ticks that have passed, where a longer one has one probe a slot at most.
-/

namespace HealthRelay

namespace Ticker

def slotEnd (origin : Nat) (interval : Duration) (s : Nat) : Nat :=
  origin + ((s - origin) / interval.nanos + 1) * interval.nanos

/-- The tick after one that was due, and seen at `s`. -/
def nextDue (origin : Nat) (interval : Duration) (due s : Nat) : Nat :=
  if due + slack.nanos < s then slotEnd origin interval s else due + interval.nanos

/-- The next tick of a ticker that started at `origin`, given when the ticks so far were seen. -/
def dueAfter (origin : Nat) (interval : Duration) (seen : List Nat) : Nat :=
  seen.foldl (nextDue origin interval) origin

/-- The ticks of a plan that are later than `s`. -/
def ticksAfter (origin : Nat) (interval : Duration) (s : Nat) : Set Nat :=
  {t | s < t ∧ ∃ k, t = origin + k * interval.nanos}

variable {origin s : Nat} {interval : Duration} {seen : List Nat}

theorem dueAfter_concat (origin : Nat) (interval : Duration) (seen : List Nat) (s : Nat) :
    dueAfter origin interval (seen ++ [s]) =
      nextDue origin interval (dueAfter origin interval seen) s := by
  unfold dueAfter
  rw [List.foldl_append, List.foldl_cons, List.foldl_nil]

theorem slotEnd_isLeast (hpos : 0 < interval.nanos) (hs : origin ≤ s) :
    IsLeast (ticksAfter origin interval s) (slotEnd origin interval s) := by
  have hdiv := Nat.div_add_mod (s - origin) interval.nanos
  have hmod := Nat.mod_lt (s - origin) hpos
  refine ⟨⟨?_, _, rfl⟩, ?_⟩
  · unfold slotEnd
    rw [Nat.add_mul, Nat.mul_comm, Nat.one_mul]
    omega
  · rintro t ⟨hlt, k, rfl⟩
    unfold slotEnd
    have hk : (s - origin) / interval.nanos < k := by
      rw [Nat.div_lt_iff_lt_mul hpos]
      omega
    have hle := Nat.mul_le_mul_right interval.nanos hk
    rw [Nat.succ_eq_add_one] at hle
    omega

/-- A ticker makes the plan that its start says. -/
theorem after_eq {due : Nat} (hdue : ∃ k, due = origin + k * interval.nanos) (hs : due ≤ s) :
    (Ticker.mk interval due).after s = nextDue origin interval due s := by
  obtain ⟨k, rfl⟩ := hdue
  unfold after nextDue
  split
  · -- the slot of `s` ends where it would if the plan began with this tick
    have hdiv := Nat.div_add_mod (s - origin) interval.nanos
    have hmod : (s - (origin + k * interval.nanos)) % interval.nanos =
        (s - origin) % interval.nanos := by
      rw [← Nat.sub_sub, Nat.mul_comm]
      exact Nat.sub_mul_mod (by rw [Nat.mul_comm]; omega)
    unfold slotEnd
    simp only
    rw [hmod, Nat.add_mul, Nat.mul_comm (_ / _), Nat.one_mul]
    omega
  · rfl

theorem dueAfter_tick (origin : Nat) (interval : Duration) (seen : List Nat) :
    ∃ k, dueAfter origin interval seen = origin + k * interval.nanos := by
  induction seen using List.reverseRec with
  | nil => exact ⟨0, by rw [Nat.zero_mul]; rfl⟩
  | append_singleton seen s ih =>
    rw [dueAfter_concat]
    unfold nextDue
    split
    · exact ⟨_, rfl⟩
    · obtain ⟨k, hk⟩ := ih
      exact ⟨k + 1, by rw [hk, Nat.add_mul]; omega⟩

/-- A tick that was missed takes the ticks with it that went by since. -/
theorem nextDue_isLeast {due : Nat} (hpos : 0 < interval.nanos) (hs : origin ≤ s)
    (hlate : due + slack.nanos < s) :
    IsLeast (ticksAfter origin interval s) (nextDue origin interval due s) := by
  rw [nextDue, if_pos hlate]
  exact slotEnd_isLeast hpos hs

/-- With an interval beyond the slack no tick is made up for. -/
theorem nextDue_isLeast_of_slack {due : Nat} (hslack : slack.nanos < interval.nanos)
    (hdue : ∃ k, due = origin + k * interval.nanos) (hs : due ≤ s) :
    IsLeast (ticksAfter origin interval s) (nextDue origin interval due s) := by
  obtain ⟨k, rfl⟩ := hdue
  by_cases hlate : origin + k * interval.nanos + slack.nanos < s
  · exact nextDue_isLeast (by omega) (by omega) hlate
  · rw [nextDue, if_neg hlate]
    refine ⟨⟨by omega, k + 1, by rw [Nat.add_mul]; omega⟩, ?_⟩
    rintro t ⟨hlt, j, rfl⟩
    have hj : k < j := by
      by_contra hle
      have := Nat.mul_le_mul_right interval.nanos (Nat.not_lt.mp hle)
      omega
    have hle := Nat.mul_le_mul_right interval.nanos hj
    rw [Nat.succ_eq_add_one, Nat.add_mul] at hle
    omega

end Ticker

/-! ## A poller that keeps to its plan -/

/-- When the next probe begins, given when the probes so far began and when their samples were
taken: once the last sample has been taken and the next tick is due. -/
def nextProbe (origin : Nat) (interval : Duration) (starts ends : List Nat) : Nat :=
  max (ends.getLast?.getD origin) (Ticker.dueAfter origin interval starts)

namespace Poller

/-- How many of its probes have begun whose sample the poller does not know to be taken. -/
def untaken (p : Poller) : Nat :=
  match p.stage with
  | .probing _ _ => 1
  | .handing _ _ => 1
  | .panicked _ => 1
  | _ => 0

/-- A poller that started at `origin` and has kept to its plan, given when its samples were
taken. -/
structure Planned (origin : Nat) (interval : Duration) (clock : Nat) (ends : List Nat)
    (p : Poller) : Prop where
  budget : p.interval = interval
  alive : p.stage ≠ .finished
  since : origin ≤ clock
  ended : ∀ e ∈ ends, e ≤ clock
  fresh : p.stage = .fresh → p.starts = []
  plan : ∀ ticker, p.ticker? = some ticker →
    ticker = ⟨interval, Ticker.dueAfter origin interval p.starts⟩
  count : p.starts.length = p.produced + p.untaken
  started : ∀ n s, p.starts[n]? = some s →
    s = nextProbe origin interval (p.starts.take n) (ends.take n)
  /-- The time of the next probe has not passed. -/
  idle : p.starts.length = ends.length → clock ≤ nextProbe origin interval p.starts ends

variable {origin clock : Nat} {interval : Duration} {ends : List Nat} {t : Turn} {p p' : Poller}
  {h : Handoff} {x : Poller × Handoff}

theorem planned_start (origin : Nat) (interval : Duration) :
    (start interval).Planned origin interval origin [] := by
  constructor <;> simp [start, starts, calls, inFlight?, ticker?, untaken, nextProbe,
    Ticker.dueAfter]

/-- A probe has its sample taken before the next one begins. -/
theorem Planned.starts_length (hp : p.Planned origin interval clock ends) {got : Nat}
    (hl : Paired p h got) : got ≤ p.starts.length ∧ p.starts.length ≤ got + 1 := by
  have hcount := hp.count
  have hle : p.untaken ≤ 1 := by
    unfold untaken
    split <;> omega
  cases hl with
  | free _ _ hn => omega
  | posted hst _ hn => omega
  | taken hst _ hn =>
    simp only [untaken, hst] at hcount
    omega
  | lost hst _ _ hn => omega
  | forsaken _ _ hn => omega

/-- A poller that has not probed yet has had no time to. -/
theorem Planned.unstarted (hp : p.Planned origin interval clock ends)
    (hl : Paired p h ends.length) (hs : p.starts = []) : ends = [] ∧ clock = origin := by
  have hends : ends = [] := by
    have hle := (hp.starts_length hl).1
    rw [hs, List.length_nil] at hle
    exact List.eq_nil_of_length_eq_zero (Nat.le_zero.mp hle)
  have hidle := hp.idle (by rw [hs, hends])
  rw [hs, hends] at hidle
  exact ⟨hends, Nat.le_antisymm (by simpa [nextProbe, Ticker.dueAfter] using hidle) hp.since⟩

/-- With a sample to wait for, a poller has one probe more than samples that were taken. -/
theorem Planned.behind (hp : p.Planned origin interval clock ends)
    (hl : Paired p h ends.length) (hu : p.untaken = 1)
    (hpending : ∀ ticker ticket, p.stage = .handing ticker ticket →
      ∃ h', h.look ticket = (.pending, h')) : p.starts.length = ends.length + 1 := by
  have hcount := hp.count
  cases hl with
  | free _ _ hn => omega
  | posted _ _ hn => omega
  | taken hst hc =>
    obtain ⟨h', hlook⟩ := hpending _ _ hst
    cases (Handoff.look_taken hc.send? rfl).symm.trans hlook
  | lost _ _ _ hn => omega
  | forsaken _ _ hn => omega

/-- Its last sample is taken. -/
theorem Planned.taken (hp : p.Planned origin interval clock ends)
    (hahead : p.starts.length = ends.length + 1) :
    p.Planned origin interval clock (ends ++ [clock]) :=
  { hp with
    ended := fun e he => by
      rcases List.mem_append.mp he with he | he
      · exact hp.ended e he
      · exact Nat.le_of_eq (List.mem_singleton.mp he)
    started := fun n s hs => by
      have hlt := (List.getElem?_eq_some_iff.mp hs).1
      rw [List.take_append_of_le_length (by omega)]
      exact hp.started n s hs
    idle := fun _ => by simp [nextProbe] }

/-! ## Moves -/

/-- A move that begins no probe and goes on. -/
theorem Planned.quiet (hp : p.Planned origin interval clock ends) (hi : p'.interval = p.interval)
    (hs : p'.starts = p.starts) (hf : p'.stage ≠ .finished) (hfresh : p'.stage ≠ .fresh)
    (ht : p'.ticker? = p.ticker? ∨ p'.ticker? = none)
    (hcount : p'.produced + p'.untaken = p.produced + p.untaken) :
    p'.Planned origin interval clock ends where
  budget := hi.trans hp.budget
  alive := hf
  since := hp.since
  ended := hp.ended
  fresh h := absurd h hfresh
  plan ticker h := by
    rw [hs]
    rcases ht with ht | ht
    · exact hp.plan ticker (ht ▸ h)
    · cases ht.symm.trans h
  count := by rw [hs, hp.count, hcount]
  started := hs ▸ hp.started
  idle := hs ▸ hp.idle

/-- The first move: a poller that starts later than at `origin` would have rested before it. -/
theorem Planned.wake (hp : p.Planned origin interval clock ends) (hl : Paired p h ends.length)
    (hst : p.stage = .fresh) :
    { p with stage := .waiting (.start p.interval clock) }.Planned origin interval clock ends := by
  have hs : ({ p with stage := .waiting (.start p.interval clock) } : Poller).starts =
      p.starts := by
    simp [starts, calls, inFlight?, hst]
  obtain ⟨-, hnow⟩ := hp.unstarted hl (hp.fresh hst)
  refine ⟨hp.budget, by simp, hp.since, hp.ended, by simp, fun ticker ht => ?_, ?_, ?_, ?_⟩
  · obtain rfl := Option.some.inj ht
    rw [hs, hp.fresh hst, hnow, hp.budget]
    rfl
  · rw [hs, hp.count]
    simp [untaken, hst]
  · exact hs ▸ hp.started
  · exact hs ▸ hp.idle

/-- The move that begins a probe: it is the time for one. -/
theorem Planned.ask (hp : p.Planned origin interval clock ends) (hl : Paired p h ends.length)
    {ticker next : Ticker} (hst : p.stage = .waiting ticker)
    (hlook : ticker.look clock = some next) :
    { p with stage := .probing next (.start clock p.interval) }.Planned origin interval clock
      ends := by
  have hstarts : ({ p with stage := .probing next (.start clock p.interval) } : Poller).starts =
      p.starts ++ [clock] := by
    simp [starts, calls, inFlight?, hst, Call.start, Scope.start]
  obtain ⟨-, hn⟩ := hl.of_free (by simp [isOver, hst]) (by simp [hst])
  have hcount := hp.count
  simp only [untaken, hst, Nat.add_zero] at hcount
  have hlength : p.starts.length = ends.length := hcount.trans hn
  obtain rfl := hp.plan ticker (by simp [ticker?, hst])
  unfold Ticker.look at hlook
  split at hlook
  · rename_i hdue
    obtain rfl := Option.some.inj hlook
    have hnow : clock = nextProbe origin interval p.starts ends := by
      have hlast : ends.getLast?.getD origin ≤ clock := by
        cases he : ends.getLast? with
        | none => exact hp.since
        | some e => exact hp.ended e (List.mem_of_getLast? he)
      exact Nat.le_antisymm (hp.idle hlength) (Nat.max_le.mpr ⟨hlast, hdue⟩)
    refine ⟨hp.budget, by simp, hp.since, hp.ended, by simp, ?_, ?_, ?_, ?_⟩
    · rw [hstarts, Ticker.dueAfter_concat]
      intro ticker ht
      obtain rfl := Option.some.inj ht
      rw [Ticker.after_eq (Ticker.dueAfter_tick ..) hdue]
    · rw [hstarts, List.length_append, List.length_singleton, hcount]
      rfl
    · rw [hstarts]
      intro n s hs
      rcases getElem?_concat_cases hs with hs | ⟨rfl, rfl⟩
      · have hlt := (List.getElem?_eq_some_iff.mp hs).1
        rw [List.take_append_of_le_length (Nat.le_of_lt hlt)]
        exact hp.started n s hs
      · rw [List.take_left, hlength, List.take_length]
        exact hnow
    · rw [hstarts, List.length_append, List.length_singleton]
      omega
  · cases hlook

theorem Move.planned (hm : Move t (p, h) x) (hc : t.isCancelled = false)
    (ho : h.slot.gate = .opened) (hl : Paired p h ends.length)
    (hp : p.Planned origin interval t.now ends) : x.1.Planned origin interval t.now ends := by
  have hkept : x.1.inFlight? = none ∨ p.inFlight? ≠ none → x.1.starts = p.starts := by
    intro hflight
    rcases hm.starts with hs | ⟨hnone, hsome, -⟩
    · exact hs
    · rcases hflight with h | h
      · exact absurd h hsome
      · exact absurd hnone h
  cases hm with
  | wake hst => exact hp.wake hl hst
  | stop _ hc' => cases hc.symm.trans hc'
  | ask hst _ hlook => exact hp.ask hl hst hlook
  | linger hst =>
    exact hp.quiet rfl (hkept (.inr (by simp [inFlight?, hst]))) (by simp) (by simp)
      (.inl (by simp [ticker?, hst])) (by simp [untaken, hst])
  | panic hst =>
    exact hp.quiet rfl (hkept (.inl rfl)) (by simp) (by simp) (.inr rfl) (by simp [untaken, hst])
  | give hst =>
    rename_i ticker call call' result sample _ _
    obtain ⟨hc', -⟩ := hl.of_free (by simp [isOver, hst]) (by simp [hst])
    obtain ⟨e, h', hb, -⟩ := hc'.begin ho sample
    have hgive := hkept (.inr (by simp [inFlight?, hst]))
    unfold Poller.give at hgive ⊢
    simp only [hb, hc, Bool.false_eq_true, ↓reduceIte] at hgive ⊢
    exact hp.quiet rfl hgive (by simp) (by simp) (.inl (by simp [ticker?, hst]))
      (by simp [untaken, hst])
  | acknowledge hst =>
    exact hp.quiet rfl (hkept (.inl rfl)) (by simp) (by simp) (.inl (by simp [ticker?, hst]))
      (by simp [untaken, hst])
  | refuse hst hlook =>
    obtain ⟨e, -, h', -⟩ | ⟨h', -⟩ | ⟨-, hdropped, -⟩ := hl.handing hst
    · cases h'.symm.trans hlook
    · cases h'.symm.trans hlook
    · cases hdropped.symm.trans ho
  | wait => exact hp
  | giveUp _ _ hc' => cases hc.symm.trans hc'

theorem Moves.planned (hm : Moves t (p, h) x) (hc : t.isCancelled = false)
    (ho : h.slot.gate = .opened) (hl : Paired p h ends.length)
    (hp : p.Planned origin interval t.now ends) :
    x.2.slot.gate = .opened ∧ x.1.Planned origin interval t.now ends := by
  induction hm with
  | refl => exact ⟨ho, hp⟩
  | tail hms hm ih =>
    obtain ⟨ho', hp'⟩ := ih
    exact ⟨hm.gate.trans ho', hm.planned hc ho' (hl.pollerMoves hms) hp'⟩

end Poller

/-! ## Paced traces -/

/-- What the clock shows after an act. -/
def PollerAct.clock (clock : Nat) : PollerAct → Nat
  | .poll t => t.now
  | .receive now => now
  | .dropReceiver => clock

/-- Whether the token has not fired and the receiver stays. -/
def PollerAct.isUndisturbed : PollerAct → Bool
  | .poll t => !t.isCancelled
  | .receive _ => true
  | .dropReceiver => false

namespace PollerTrace

variable {origin clock : Nat} {interval : Duration} {c : PollerTrace} {act : PollerAct}

/-- A turn in which no call has an answer. -/
def quietTurn (now : Nat) : Poller.Turn :=
  { now, wallMs := 0, isCancelled := false, isGated := false, answer := .pending }

/-- When the samples were taken, in order. -/
def ends (c : PollerTrace) : List Nat := c.receipts.map Prod.fst

/-- Until a probe gets its answer, the poller has nothing to do at this time. -/
def IsAtRest (c : PollerTrace) (now : Nat) : Prop := c.step (.poll (quietTurn now)) = c

/-- The clock may go on to this act. -/
structure IsTimely (clock : Nat) (c : PollerTrace) (act : PollerAct) : Prop where
  forward : clock ≤ act.clock clock
  /-- A poller that has something to do gets a turn before the clock goes on. -/
  rest : ∀ s < act.clock clock, clock ≤ s → c.IsAtRest s
  undisturbed : act.isUndisturbed = true

/-- Acts that let the clock go on only when it may. -/
def IsPaced : Nat → PollerTrace → List PollerAct → Prop
  | _, _, [] => True
  | clock, c, act :: acts =>
    c.IsTimely clock act ∧ IsPaced (act.clock clock) (c.step act) acts

theorem isAtRest_waiting (ticker : Ticker) {now : Nat} (hst : c.poller.stage = .waiting ticker)
    (hnow : now < ticker.due) : c.IsAtRest now := by
  have hlook : ticker.look now = none := if_neg (Nat.not_le.mpr hnow)
  unfold IsAtRest step
  simp only [Poller.poll, hst, Poller.tick, quietTurn, hlook, Bool.false_eq_true, ↓reduceIte]
  rw [← hst]

theorem isAtRest_handing (ticker : Ticker) (ticket : Nat) (now : Nat)
    (hst : c.poller.stage = .handing ticker ticket)
    (hlook : c.handoff.look ticket = (.pending, c.handoff)) : c.IsAtRest now := by
  unfold IsAtRest step
  simp only [Poller.poll, hst, quietTurn, hlook, Bool.false_eq_true, ↓reduceIte]

/-- A trace that has kept to its plan, in front of a receiver. -/
structure IsPlanned (origin : Nat) (interval : Duration) (clock : Nat) (c : PollerTrace) : Prop
    where
  paired : c.IsPaired
  gate : c.handoff.slot.gate = .opened
  poller : c.poller.Planned origin interval clock c.ends

theorem ends_length (c : PollerTrace) : c.ends.length = c.receipts.length := List.length_map ..

theorem IsPlanned.ends_paired (hc : c.IsPlanned origin interval clock) :
    Paired c.poller c.handoff c.ends.length := by
  rw [ends_length]
  exact hc.paired

/-- While the clock goes on, a poller whose samples have all been taken waits for its tick. -/
theorem IsPlanned.advance (hc : c.IsPlanned origin interval clock)
    (ht : c.IsTimely clock act) : c.IsPlanned origin interval (act.clock clock) := by
  have hp := hc.poller
  refine ⟨hc.paired, hc.gate, { hp with
    since := Nat.le_trans hp.since ht.forward
    ended := fun e he => Nat.le_trans (hp.ended e he) ht.forward
    idle := fun hlength => ?_ }⟩
  rcases Nat.eq_or_lt_of_le ht.forward with heq | hlt
  · exact heq ▸ hp.idle hlength
  have hahead := hp.behind hc.ends_paired
  cases hover : c.poller.isOver with
  | true =>
    unfold Poller.isOver at hover
    split at hover
    · exact absurd ‹_› hp.alive
    · rename_i message hst
      have hlength' := hahead (by simp [Poller.untaken, hst]) (by simp [hst])
      omega
    · cases hover
  | false =>
    have hrest := ht.rest (act.clock clock - 1) (by omega) (by omega)
    have hpoller : (c.poller.poll (quietTurn (act.clock clock - 1)) c.handoff).1 = c.poller :=
      congrArg PollerTrace.poller hrest
    rcases Poller.poll_rest rfl hover hpoller with
      ⟨ticker, hst, hdue⟩ | ⟨ticker, call, call', hst, -⟩ | ⟨ticker, ticket, h', hst, hlook⟩
    · obtain rfl := hp.plan ticker (by simp [Poller.ticker?, hst])
      refine Nat.le_trans ?_ (Nat.le_max_right ..)
      simp only [quietTurn] at hdue
      omega
    · have hlength' := hahead (by simp [Poller.untaken, hst]) (by simp [hst])
      omega
    · have hlength' := hahead (by simp [Poller.untaken, hst]) fun _ _ hst' => by
        cases hst.symm.trans hst'
        exact ⟨h', hlook⟩
      omega

/-- An act at the time that the clock shows. -/
theorem IsPlanned.step (hc : c.IsPlanned origin interval (act.clock clock))
    (hu : act.isUndisturbed = true) :
    (c.step act).IsPlanned origin interval (act.clock clock) := by
  have hpaired := hc.paired.step act
  cases act with
  | poll t =>
    have hmoves := Poller.poll_moves t c.poller c.handoff
    obtain ⟨hgate, hp⟩ :=
      hmoves.planned (by simpa [PollerAct.isUndisturbed] using hu) hc.gate hc.ends_paired hc.poller
    exact ⟨hpaired, hgate, hp⟩
  | receive now =>
    have hopen : c.handoff.slot.isOpen = true := Mailbox.isOpen_iff.mpr hc.gate
    have hgate := hc.ends_paired.receive_gate
    unfold PollerTrace.step at hpaired ⊢
    simp only [hopen, ↓reduceIte] at hpaired ⊢
    split
    · rename_i s h hr
      simp only [hr] at hgate hpaired
      have hlength := hc.poller.starts_length hc.ends_paired
      have hahead := hc.poller.starts_length (hc.ends_paired.receive_sample hr)
      refine ⟨hpaired, hgate.trans hc.gate, ?_⟩
      rw [ends, List.map_append]
      exact hc.poller.taken (by omega)
    · rename_i answer h hne hr
      rw [hr] at hgate
      exact ⟨hc.paired.receive_nothing hr hne, hgate.trans hc.gate, hc.poller⟩
  | dropReceiver => cases hu

theorem IsPlanned.perform (hc : c.IsPlanned origin interval clock) {acts : List PollerAct}
    (hacts : IsPaced clock c acts) :
    (c.perform acts).IsPlanned origin interval (acts.foldl PollerAct.clock clock) := by
  induction acts generalizing clock c with
  | nil => exact hc
  | cons act acts ih =>
    obtain ⟨ht, hacts⟩ := hacts
    exact ih ((hc.advance ht).step ht.undisturbed) hacts

theorem isPlanned_start (origin : Nat) (interval : Duration) :
    (start interval).IsPlanned origin interval origin :=
  ⟨.start interval, rfl, Poller.planned_start origin interval⟩

/-- When a poller probes, as of now. -/
structure OnSchedule (origin : Nat) (interval : Duration) (clock : Nat) (c : PollerTrace) :
    Prop where
  /-- The first probe begins when the poller does. -/
  first : ∀ s, c.poller.starts[0]? = some s → s = origin
  unstarted : c.poller.starts = [] → clock = origin
  /-- The next one begins once the last sample has been taken and the next tick is due. -/
  next : ∀ n s, c.poller.starts[n + 1]? = some s → ∃ e, c.ends[n]? = some e ∧
    s = max e (Ticker.dueAfter origin interval (c.poller.starts.take (n + 1)))
  /-- Nor does it begin later. -/
  on_time : ∀ n e, c.ends[n]? = some e → c.poller.starts[n + 1]? = none →
    clock ≤ max e (Ticker.dueAfter origin interval (c.poller.starts.take (n + 1)))
  /-- After a probe within the slack of its tick the next tick is an interval later. -/
  kept : ∀ n s, c.poller.starts[n]? = some s →
    s ≤ Ticker.dueAfter origin interval (c.poller.starts.take n) + Ticker.slack.nanos →
    Ticker.dueAfter origin interval (c.poller.starts.take (n + 1)) =
      Ticker.dueAfter origin interval (c.poller.starts.take n) + interval.nanos
  /-- After a later one it is the first that is still to come. -/
  missed : ∀ n s, c.poller.starts[n]? = some s →
    Ticker.dueAfter origin interval (c.poller.starts.take n) + Ticker.slack.nanos < s →
    IsLeast (Ticker.ticksAfter origin interval s)
      (Ticker.dueAfter origin interval (c.poller.starts.take (n + 1)))
  /-- So it is after any probe if the interval is beyond the slack. -/
  dropped : Ticker.slack < interval → ∀ n s, c.poller.starts[n]? = some s →
    IsLeast (Ticker.ticksAfter origin interval s)
      (Ticker.dueAfter origin interval (c.poller.starts.take (n + 1)))
  /-- Then no two probes begin in one slot. -/
  apart : Ticker.slack < interval →
    (c.poller.starts.map fun s => (s - origin) / interval.nanos).Pairwise (· < ·)

theorem IsPlanned.tick (hc : c.IsPlanned origin interval clock) {n s : Nat}
    (hs : c.poller.starts[n]? = some s) :
    Ticker.dueAfter origin interval (c.poller.starts.take n) ≤ s ∧
      Ticker.dueAfter origin interval (c.poller.starts.take (n + 1)) =
        Ticker.nextDue origin interval
          (Ticker.dueAfter origin interval (c.poller.starts.take n)) s := by
  refine ⟨?_, ?_⟩
  · rw [hc.poller.started n s hs]
    exact Nat.le_max_right ..
  · rw [List.take_add_one, hs, Option.toList_some, Ticker.dueAfter_concat]

theorem IsPlanned.next (hc : c.IsPlanned origin interval clock) {n s : Nat}
    (hs : c.poller.starts[n + 1]? = some s) : ∃ e, c.ends[n]? = some e ∧
      s = max e (Ticker.dueAfter origin interval (c.poller.starts.take (n + 1))) := by
  have hlt := (List.getElem?_eq_some_iff.mp hs).1
  have hlength := hc.poller.starts_length hc.ends_paired
  obtain ⟨e, he⟩ : ∃ e, c.ends[n]? = some e := ⟨_, List.getElem?_eq_getElem (by omega)⟩
  refine ⟨e, he, ?_⟩
  rw [hc.poller.started _ s hs, nextProbe, List.take_add_one (l := c.ends), he,
    Option.toList_some, List.getLast?_concat, Option.getD_some]

theorem IsPlanned.dropped (hpos : 0 < interval.nanos) (hc : c.IsPlanned origin interval clock)
    {n s : Nat} (hs : c.poller.starts[n]? = some s)
    (hdropped : Ticker.slack < interval ∨
      Ticker.dueAfter origin interval (c.poller.starts.take n) + Ticker.slack.nanos < s) :
    IsLeast (Ticker.ticksAfter origin interval s)
      (Ticker.dueAfter origin interval (c.poller.starts.take (n + 1))) := by
  obtain ⟨hle, heq⟩ := hc.tick hs
  have hdue := Ticker.dueAfter_tick origin interval (c.poller.starts.take n)
  rw [heq]
  rcases hdropped with hslack | hlate
  · exact Ticker.nextDue_isLeast_of_slack hslack hdue hle
  · obtain ⟨k, hk⟩ := hdue
    exact Ticker.nextDue_isLeast hpos (by omega) hlate

theorem IsPlanned.onSchedule (hpos : 0 < interval.nanos)
    (hc : c.IsPlanned origin interval clock) : c.OnSchedule origin interval clock where
  first s hs := by simpa [nextProbe, Ticker.dueAfter] using hc.poller.started 0 s hs
  unstarted hs := (hc.poller.unstarted hc.ends_paired hs).2
  next n s hs := hc.next hs
  on_time n e he hs := by
    have hlength := hc.poller.starts_length hc.ends_paired
    have hlt := (List.getElem?_eq_some_iff.mp he).1
    have hle := List.getElem?_eq_none_iff.mp hs
    have hlast : c.ends.getLast? = some e := by
      rw [List.getLast?_eq_getElem?, show c.ends.length - 1 = n by omega, he]
    rw [List.take_of_length_le hle]
    have hidle := hc.poller.idle (by omega)
    rwa [nextProbe, hlast, Option.getD_some] at hidle
  kept n s hs hle := by rw [(hc.tick hs).2, Ticker.nextDue, if_neg (by omega)]
  missed n s hs hlate := hc.dropped hpos hs (.inr hlate)
  dropped hslack n s hs := hc.dropped hpos hs (.inl hslack)
  apart hslack := by
    rw [← List.isChain_iff_pairwise, List.isChain_iff_getElem]
    intro n hn
    rw [List.length_map] at hn
    have hs := List.getElem?_eq_getElem (Nat.lt_of_succ_lt hn)
    have hs' := List.getElem?_eq_getElem hn
    obtain ⟨⟨hlt, k, hk⟩, -⟩ := hc.dropped hpos hs (.inl hslack)
    have hle := (hc.tick hs').1
    have hdue := (hc.tick hs).1
    obtain ⟨j, hj⟩ := Ticker.dueAfter_tick origin interval (c.poller.starts.take n)
    rw [List.getElem_map, List.getElem_map, Nat.div_lt_iff_lt_mul hpos]
    have hmul : k ≤ (c.poller.starts[n + 1] - origin) / interval.nanos := by
      rw [Nat.le_div_iff_mul_le hpos]
      omega
    have := Nat.mul_le_mul_right interval.nanos hmul
    omega

/-- **A poller's probes keep to its ticks**: each begins as soon as the sample before it has been
taken and its tick is due, and ticks that were missed are dropped. -/
theorem run_on_schedule (origin : Nat) {interval : Duration}
    (hi : Config.checkInterval interval = .ok ()) {acts : List PollerAct}
    (hacts : IsPaced origin (start interval) acts) :
    (run interval acts).OnSchedule origin interval (acts.foldl PollerAct.clock origin) := by
  obtain ⟨hpos, -⟩ := Config.checkInterval_eq_ok.mp hi
  have hrun := (isPlanned_start origin interval).perform hacts
  exact hrun.onSchedule hpos

/-- An act at a time that the clock already shows. -/
theorem isTimely_now (hnow : act.clock clock = clock) (hu : act.isUndisturbed = true)
    (c : PollerTrace) : c.IsTimely clock act :=
  ⟨Nat.le_of_eq hnow.symm, fun s hlt hle => by omega, hu⟩

/-- Two and a half intervals pass before the first sample is taken. -/
def lateActs : List PollerAct :=
  [.poll (sampleTurn 0 false), .receive 25000000, .poll (sampleTurn 25000000 false),
    .receive 25000000, .poll (sampleTurn 25000000 false), .poll (sampleTurn 30000000 false)]

theorem run_on_schedule_late :
    let c := run (.ofMillis 10) lateActs
    Config.checkInterval (.ofMillis 10) = .ok () ∧ IsPaced 0 (start (.ofMillis 10)) lateActs ∧
      c.poller.starts = [0, 25000000, 30000000] ∧ c.ends = [25000000, 25000000] ∧
      c.OnSchedule 0 (.ofMillis 10) 30000000 := by
  intro c
  have hi : Config.checkInterval (.ofMillis 10) = .ok () := by decide +kernel
  have hpaced : IsPaced 0 (start (.ofMillis 10)) lateActs := by
    refine ⟨isTimely_now rfl rfl _, ⟨by decide, fun s _ _ => ?_, rfl⟩, isTimely_now rfl rfl _,
      isTimely_now rfl rfl _, isTimely_now rfl rfl _, ⟨by decide, fun s hs _ => ?_, rfl⟩, trivial⟩
    · exact isAtRest_handing ⟨.ofMillis 10, 10000000⟩ 0 s (by decide +kernel) (by decide +kernel)
    · exact isAtRest_waiting ⟨.ofMillis 10, 30000000⟩ (by decide +kernel) hs
  exact ⟨hi, hpaced, by decide +kernel, by decide +kernel, run_on_schedule 0 hi hpaced⟩

/-- Three intervals of a millisecond pass before the first sample is taken. -/
def hastyActs : List PollerAct :=
  [.poll (sampleTurn 0 false), .receive 3000000, .poll (sampleTurn 3000000 false),
    .receive 3000000, .poll (sampleTurn 3000000 false)]

/-- An interval within the slack makes up for ticks that have passed: the next probe need not wait
for the first tick to come. -/
theorem next_before_tick :
    ¬ ∀ (origin : Nat) (interval : Duration) (acts : List PollerAct),
      Config.checkInterval interval = .ok () → IsPaced origin (start interval) acts →
      ∀ n s s' e tick, (run interval acts).poller.starts[n]? = some s →
        (run interval acts).poller.starts[n + 1]? = some s' →
        (run interval acts).ends[n]? = some e →
        IsLeast (Ticker.ticksAfter origin interval s) tick → s' = max e tick := by
  intro h
  have hpaced : IsPaced 0 (start (.ofMillis 1)) hastyActs := by
    refine ⟨isTimely_now rfl rfl _, ⟨by decide, fun s _ _ => ?_, rfl⟩, isTimely_now rfl rfl _,
      isTimely_now rfl rfl _, isTimely_now rfl rfl _, trivial⟩
    exact isAtRest_handing ⟨.ofMillis 1, 1000000⟩ 0 s (by decide +kernel) (by decide +kernel)
  have htick : IsLeast (Ticker.ticksAfter 0 (.ofMillis 1) 3000000) 4000000 :=
    Ticker.slotEnd_isLeast (by decide) (by decide)
  have hnext := h 0 (.ofMillis 1) hastyActs (by decide +kernel) hpaced 1 3000000 3000000 3000000
    4000000 (by decide +kernel) (by decide +kernel) (by decide +kernel) htick
  exact absurd hnext (by decide)

end PollerTrace

end HealthRelay
