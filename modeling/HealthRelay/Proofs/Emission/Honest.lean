import HealthRelay.Proofs.Emission.Trace
import Mathlib.Data.List.Nodup

/-!
# Emissions are atomic and honest

`run_honest`: whatever is done with a sink and in whatever order, an event gets in at most once, and
exactly if its call says so; a call that says otherwise has its reason; and nobody waits on a token
that has fired. Places are given in the order in which the calls began to wait, and no place lies
idle while somebody waits for one. An event gets in when its call is polled, so two calls that both
own a place get in as they are polled (`owners_out_of_turn`); where the call that got its place first
is polled first (`InTurn`), the events get in in the order of the calls, and with one place there is
never more than one owner.
-/

namespace HealthRelay.EmissionTrace

open EmitFact

variable {c : EmissionTrace}

/-! ## Every act keeps a trace sound -/

theorem mem_of_waiter? {t : Nat} {w : Waiter} (h : c.waiter? t = some w) :
    w ∈ c.waiters ∧ w.ticket = t :=
  ⟨List.mem_of_find?_eq_some h, by simpa using List.find?_some h⟩

theorem Sound.line_nodup (hc : c.Sound) : c.sink.line.Nodup :=
  hc.order.imp fun h => Nat.ne_of_lt h

theorem Sound.mem_line (hc : c.Sound) {t : Nat} {w : Waiter} (h : c.waiter? t = some w) :
    t ∈ c.sink.line := by
  obtain ⟨hm, rfl⟩ := mem_of_waiter? h
  rw [hc.line]
  exact List.mem_map_of_mem hm

theorem Sound.map_without (hc : c.Sound) (t : Nat) :
    (c.without t).map Waiter.ticket = c.sink.line.erase t := by
  have hnodup := hc.line_nodup
  rw [hnodup.erase_eq_filter, hc.line, List.filter_map]
  rfl

/-- What does not close the sink leaves it as open as it was. -/
theorem Sound.shut_append (hc : c.Sound) {new : List EmitFact} (hnew : ¬ IsShut new) :
    c.sink.isOpen = false ↔ IsShut (c.facts ++ new) := hc.shut.trans (isShut_append hnew).symm

/-- An act that nobody's call takes part in. -/
theorem Sound.quiet (hc : c.Sound) {sink : Sink} {new : List EmitFact} (hfair : sink.Fair)
    (hshut : sink.isOpen = false ↔ IsShut (c.facts ++ new))
    (hline : sink.line = c.sink.line) (haccepted : sink.accepted = c.sink.accepted)
    (hcalls : calls new = []) (hends : ends new = []) (hentries : entries new = []) :
    Sound ⟨sink, c.waiters, c.facts ++ new⟩ := by
  refine hc.extend {
    facts := rfl
    fair := hfair
    shut := hshut
    line := hline.trans hc.line
    order := hline ▸ hc.order
    fresh := fun t ht => .inl (hline ▸ ht)
    waiting := fun w hw => .inl hw
    accepted := ⟨[], by rw [haccepted, List.append_nil], by rw [hentries]; rfl⟩
    entries_eq := by rw [hentries, sent, hends]; rfl
    ends_nodup := by rw [hends]; exact .nil
    ended := fun t o h => by rw [hends] at h; cases h
    free := fun i call h => by rw [hcalls] at h; cases h
    settled := fun t ht => .inl (hline ▸ ht.resolve_right (not_isNew hcalls t)) }

/-- A call begins and gets its event in at once. -/
theorem Sound.sendAtOnce (hc : c.Sound) (event : Event) (token : Nat)
    (hfree : c.sink.found = .free) :
    Sound ⟨c.sink.push event, c.waiters, c.facts ++
      [.began ⟨event, token, c.sink.found⟩, .entered c.next, .ended c.next .sent]⟩ := by
  have hroom := (Sink.found_eq_free.mp hfree).2
  refine hc.extend {
    facts := rfl
    fair := hc.fair.push hroom event
    shut := hc.shut_append (by simp [IsShut])
    line := hc.line
    order := hc.order
    fresh := fun t ht => .inl ht
    waiting := fun w hw => .inl hw
    accepted := ⟨[event], rfl, by simp [entries, calls, next]⟩
    entries_eq := rfl
    ends_nodup := List.pairwise_singleton ..
    ended := fun t o h => ?_
    free := fun i call h hf => ?_
    settled := fun t ht => ?_ }
  · obtain ⟨rfl, rfl⟩ := Prod.mk.inj (List.mem_singleton.mp h)
    exact ⟨.inr ((isNew_singleton rfl).mpr rfl), fun h => Nat.lt_irrefl _ (hc.fresh _ h), trivial⟩
  · cases i with
    | zero => exact List.mem_singleton.mpr rfl
    | succ i => simp [calls] at h
  · rcases ht with h | h
    · exact .inl h
    · rw [(isNew_singleton rfl).mp h]
      exact .inr (.inl ⟨.sent, List.mem_singleton.mpr rfl⟩)

/-- A call begins and is refused at once. -/
theorem Sound.refuse (hc : c.Sound) {event : Event} {token : Nat} {o : Emitted} (ho : o ≠ .sent)
    (hfree : c.sink.found ≠ .free)
    (hright : Rightly (c.facts ++ [.began ⟨event, token, c.sink.found⟩]) c.next o) :
    Sound ⟨c.sink, c.waiters,
      c.facts ++ [.began ⟨event, token, c.sink.found⟩, .ended c.next o]⟩ := by
  refine hc.extend {
    facts := rfl
    fair := hc.fair
    shut := hc.shut_append (by simp [IsShut])
    line := hc.line
    order := hc.order
    fresh := fun t ht => .inl ht
    waiting := fun w hw => .inl hw
    accepted := ⟨[], (List.append_nil _).symm, rfl⟩
    entries_eq := by simp [sent, ends, entries, ho]
    ends_nodup := List.pairwise_singleton ..
    ended := fun t o' h => ?_
    free := fun i call h hf => ?_
    settled := fun t ht => ?_ }
  · obtain ⟨rfl, rfl⟩ := Prod.mk.inj (List.mem_singleton.mp h)
    refine ⟨.inr ((isNew_singleton rfl).mpr rfl), fun h => Nat.lt_irrefl _ (hc.fresh _ h), ?_⟩
    have := hright.append [.ended c.next o']
    rwa [List.append_assoc] at this
  · cases i with
    | zero =>
      obtain rfl : _ = call := by simpa [calls] using h
      exact absurd hf hfree
    | succ i => simp [calls] at h
  · rcases ht with h | h
    · exact .inl h
    · rw [(isNew_singleton rfl).mp h]
      exact .inr (.inl ⟨o, List.mem_singleton.mpr rfl⟩)

/-- A call begins and has to wait. -/
theorem Sound.join (hc : c.Sound) (event : Event) (token : Nat) (hfull : c.sink.found = .full) :
    Sound ⟨c.sink.joinLine c.next, c.waiters ++ [⟨⟨event, c.next⟩, token⟩],
      c.facts ++ [.began ⟨event, token, c.sink.found⟩]⟩ := by
  have hroom := (Sink.found_eq_full.mp hfull).2
  have hline : (c.sink.joinLine c.next).line = c.sink.line ++ [c.next] := by
    simp [Mailbox.line, Mailbox.joinLine]
  refine hc.extend {
    facts := rfl
    fair := hc.fair.joinLine hroom c.next
    shut := hc.shut_append (by simp [IsShut])
    line := by
      rw [hline, hc.line, List.map_append]
      rfl
    order := ?_
    fresh := fun t ht => ?_
    waiting := fun w hw => ?_
    accepted := ⟨[], (List.append_nil _).symm, rfl⟩
    entries_eq := rfl
    ends_nodup := .nil
    ended := fun t o h => by cases h
    free := fun i call h hf => ?_
    settled := fun t ht => ?_ }
  · rw [hline, List.pairwise_append]
    exact ⟨hc.order, List.pairwise_singleton .., fun t ht t' ht' =>
      List.mem_singleton.mp ht' ▸ hc.fresh t ht⟩
  · rw [hline] at ht
    refine (List.mem_append.mp ht).imp_right fun h => ?_
    exact (isNew_singleton rfl).mpr (List.mem_singleton.mp h)
  · refine (List.mem_append.mp hw).imp_right fun h => ?_
    rw [List.mem_singleton.mp h, hfull]
    simp [Waiter.ticket, next, calls]
  · cases i with
    | zero =>
      obtain rfl : _ = call := by simpa [calls] using h
      exact absurd (hfull.symm.trans hf) (by simp)
    | succ i => simp [calls] at h
  · refine .inl ?_
    rw [hline]
    rcases ht with h | h
    · exact List.mem_append_left _ h
    · exact List.mem_append_right _ (List.mem_singleton.mpr ((isNew_singleton rfl).mp h))

/-- A call that waits leaves the line: it has got its event in, or is over otherwise, or is given
up. -/
theorem Sound.leave (hc : c.Sound) {t : Nat} {w : Waiter} (hw : c.waiter? t = some w) {sink : Sink}
    {new : List EmitFact} (hfair : sink.Fair) (hopen : sink.isOpen = c.sink.isOpen)
    (hline : sink.line = c.sink.line.erase t)
    (hnew : (new = [.entered t, .ended t .sent] ∧
        sink.accepted = c.sink.accepted ++ [w.emission.event]) ∨
      (sink.accepted = c.sink.accepted ∧
        ((∃ o, o ≠ .sent ∧ new = [.ended t o] ∧ Rightly c.facts t o) ∨ new = [.givenUp t]))) :
    Sound ⟨sink, c.without t, c.facts ++ new⟩ := by
  have hcalls : calls new = [] := by
    rcases hnew with ⟨rfl, -⟩ | ⟨-, ⟨o, -, rfl, -⟩ | rfl⟩ <;> rfl
  have hquiet : ¬ IsShut new := by
    rcases hnew with ⟨rfl, -⟩ | ⟨-, ⟨o, -, rfl, -⟩ | rfl⟩ <;> simp [IsShut]
  have hmem := hc.mem_line hw
  have hcall := hc.waiting w (mem_of_waiter? hw).1
  rw [(mem_of_waiter? hw).2] at hcall
  have hout : t ∉ sink.line := hline ▸ hc.line_nodup.not_mem_erase
  refine hc.extend {
    facts := rfl
    fair := hfair
    shut := hopen ▸ hc.shut_append hquiet
    line := hline.trans (hc.map_without t).symm
    order := hline ▸ hc.order.sublist List.erase_sublist
    fresh := fun t' ht' => .inl (List.mem_of_mem_erase (hline ▸ ht'))
    waiting := fun w' hw' => .inl ((List.mem_filter.mp hw').1)
    accepted := ?_
    entries_eq := ?_
    ends_nodup := ?_
    ended := fun t' o' h => ?_
    free := fun i call h => by rw [hcalls] at h; cases h
    settled := fun t' ht' => ?_ }
  · rcases hnew with ⟨rfl, hacc⟩ | ⟨hacc, ⟨o, -, rfl, -⟩ | rfl⟩
    · exact ⟨_, hacc, by simp [entries, hcalls, hcall]⟩
    · exact ⟨[], by simp [hacc], rfl⟩
    · exact ⟨[], by simp [hacc], rfl⟩
  · rcases hnew with ⟨rfl, -⟩ | ⟨-, ⟨o, ho, rfl, -⟩ | rfl⟩
    · rfl
    · simp [sent, ends, entries, ho]
    · rfl
  · rcases hnew with ⟨rfl, -⟩ | ⟨-, ⟨o, -, rfl, -⟩ | rfl⟩ <;> simp [ends]
  · rcases hnew with ⟨rfl, -⟩ | ⟨-, ⟨o, -, rfl, hr⟩ | rfl⟩
    · obtain ⟨rfl, rfl⟩ := Prod.mk.inj (List.mem_singleton.mp h)
      exact ⟨.inl hmem, hout, trivial⟩
    · obtain ⟨rfl, rfl⟩ := Prod.mk.inj (List.mem_singleton.mp h)
      exact ⟨.inl hmem, hout, hr.append _⟩
    · cases h
  · have hin := ht'.resolve_right (not_isNew hcalls t')
    by_cases ht : t' = t
    · subst ht
      rcases hnew with ⟨rfl, -⟩ | ⟨-, ⟨o, -, rfl, -⟩ | rfl⟩
      · exact .inr (.inl ⟨.sent, List.mem_singleton.mpr rfl⟩)
      · exact .inr (.inl ⟨o, List.mem_singleton.mpr rfl⟩)
      · exact .inr (.inr (List.mem_singleton.mpr rfl))
    · exact .inl (hline ▸ (List.mem_erase_of_ne ht).mpr hin)

theorem told_ended {t : Nat} {before sink : Sink} (h : sink.accepted = before.accepted)
    (o : Emitted) : told t before (.ready o, sink) = [.ended t o] := by
  simp [told, h]

theorem told_entered {t : Nat} {before sink : Sink} {e : Event}
    (h : sink.accepted = before.accepted ++ [e]) :
    told t before (.ready .sent, sink) = [.entered t, .ended t .sent] := by
  simp [told, h]

theorem told_pending {t : Nat} {before sink : Sink} (h : sink.accepted = before.accepted) :
    told t before (.pending, sink) = [] := by
  simp [told, h]

theorem mem_of_hasFired {token : Nat} (h : c.hasFired token = true) : .fired token ∈ c.facts :=
  of_decide_eq_true h

theorem Sound.emit (hc : c.Sound) (event : Event) (token : Nat) :
    (c.step (.emit event token)).Sound := by
  simp only [step]
  rcases Emission.start_cases ⟨event, c.next⟩ (c.hasFired token) c.sink with
    ⟨hf, hl⟩ | ⟨hf, hl⟩ | ⟨hf, hcan, hl⟩ | ⟨hf, -, hl⟩
  · rw [hl, told_entered (e := event) rfl]
    exact hc.sendAtOnce event token hf
  · rw [hl, told_ended rfl]
    refine hc.refuse (by simp) (by simp [hf]) ?_
    exact (hc.shut.mp (Sink.found_eq_gone.mp hf)).append _
  · rw [hl, told_ended rfl]
    refine hc.refuse (by simp) (by simp [hf]) ⟨⟨event, token, c.sink.found⟩, ?_, hf, ?_⟩
    · simp [next, calls]
    · exact List.mem_append_left _ (mem_of_hasFired hcan)
  · have hacc : (c.sink.joinLine c.next).accepted = c.sink.accepted := rfl
    rw [hl, told_pending hacc]
    exact hc.join event token hf

theorem Sound.look (hc : c.Sound) (t : Nat) : (c.step (.look t)).Sound := by
  simp only [step]
  cases hw : c.waiter? t with
  | none => exact hc
  | some w =>
    obtain ⟨hm, rfl⟩ := mem_of_waiter? hw
    rcases Emission.look_cases w.emission (c.hasFired w.token) c.sink with
      ⟨hcan, hl⟩ | ⟨-, ho, hl⟩ | ⟨-, -, hg, hl⟩ | ⟨-, -, -, hl⟩
    · have hacc := c.sink.withdraw_accepted w.emission.ticket
      simp only [hl, told_ended hacc]
      refine hc.leave hw (hc.fair.withdraw _) (by simp [Mailbox.isOpen])
        (c.sink.withdraw_line _) (.inr ⟨hacc, .inl ⟨_, by simp, rfl, ?_⟩⟩)
      exact ⟨_, hc.waiting w hm, rfl, mem_of_hasFired hcan⟩
    · have hacc := c.sink.withdraw_accepted w.emission.ticket
      simp only [hl, told_ended hacc]
      exact hc.leave hw (hc.fair.withdraw _) (by simp [Mailbox.isOpen])
        (c.sink.withdraw_line _) (.inr ⟨hacc, .inl ⟨_, by simp, rfl, hc.shut.mp ho⟩⟩)
    · have hacc : (c.sink.fill w.emission.ticket w.emission.event).accepted =
          c.sink.accepted ++ [w.emission.event] := rfl
      simp only [hl, told_entered hacc]
      refine hc.leave hw (hc.fair.fill hg _) rfl ?_ (.inl ⟨rfl, hacc⟩)
      exact (List.erase_append_left _ hg).symm
    · simp only [hl, told_pending (rfl : c.sink.accepted = _), List.append_nil]
      exact hc

theorem Sound.giveUp (hc : c.Sound) (t : Nat) : (c.step (.giveUp t)).Sound := by
  simp only [step]
  cases hw : c.waiter? t with
  | none => exact hc
  | some w =>
    obtain ⟨-, rfl⟩ := mem_of_waiter? hw
    exact hc.leave hw (hc.fair.withdraw _) (by simp [Emission.abandon, Mailbox.isOpen])
      (c.sink.withdraw_line _) (.inr ⟨c.sink.withdraw_accepted _, .inr rfl⟩)

theorem Sound.take (hc : c.Sound) : (c.step .take).Sound := by
  simp only [step]
  cases ht : c.sink.take? with
  | none => exact hc
  | some x =>
    obtain ⟨rest, hq, hx⟩ := Mailbox.take?_eq_some.mp ht
    have hquiet : Sound ⟨x.2, c.waiters, c.facts ++ []⟩ := hc.quiet (hx ▸ hc.fair.take hq)
      (by
        rw [List.append_nil, ← hc.shut]
        simp [hx, Mailbox.isOpen])
      (by rw [hx, Mailbox.grant_line]; rfl) (by simp [hx]) rfl rfl rfl
    rwa [List.append_nil] at hquiet

theorem Sound.closeReceiver (hc : c.Sound) : (c.step .closeReceiver).Sound := by
  simp only [step]
  split
  · exact hc.quiet hc.fair.close (by simp [IsShut, Mailbox.close_isOpen]) c.sink.close_line
      c.sink.close_accepted rfl rfl rfl
  · exact hc

/-- **Every act keeps a trace sound.** -/
theorem Sound.step (hc : c.Sound) (act : EmitAct) : (c.step act).Sound := by
  cases act with
  | emit event token => exact hc.emit event token
  | look t => exact hc.look t
  | giveUp t => exact hc.giveUp t
  | fire token =>
    exact hc.quiet hc.fair (hc.shut_append (by simp [IsShut])) rfl rfl rfl rfl rfl
  | take => exact hc.take
  | closeReceiver => exact hc.closeReceiver
  | dropReceiver =>
    exact hc.quiet hc.fair.drop (by simp [IsShut, Mailbox.drop, Mailbox.isOpen]) rfl rfl rfl rfl rfl

theorem Sound.perform (hc : c.Sound) (acts : List EmitAct) : (c.perform acts).Sound := by
  induction acts generalizing c with
  | nil => exact hc
  | cons act acts ih => exact ih (hc.step act)

/-! ## What comes of a look -/

theorem Sound.waiter?_eq (hc : c.Sound) {t : Nat} {call : EmitCall} (ht : t ∈ c.sink.line)
    (hcall : (calls c.facts)[t]? = some call) :
    ∃ w, c.waiter? t = some w ∧ w.token = call.token := by
  rw [hc.line, List.mem_map] at ht
  obtain ⟨w, hw, rfl⟩ := ht
  have hsome : (c.waiter? w.ticket).isSome = true :=
    List.find?_isSome.mpr ⟨w, hw, by simp⟩
  obtain ⟨w', hw'⟩ := Option.isSome_iff_exists.mp hsome
  obtain ⟨hm, hticket⟩ := mem_of_waiter? hw'
  have := hc.waiting w' hm
  rw [hticket, hcall, Option.some.injEq] at this
  exact ⟨w', hw', by rw [this]⟩

/-- All that a look at a call in line can come to. -/
theorem Sound.look_cases (hc : c.Sound) {t : Nat} {call : EmitCall} (ht : t ∈ c.sink.line)
    (hcall : (calls c.facts)[t]? = some call) :
    (.fired call.token ∈ c.facts ∧
        (c.step (.look t)).facts = c.facts ++ [.ended t .cancelled]) ∨
      .fired call.token ∉ c.facts ∧
        ((IsShut c.facts ∧ (c.step (.look t)).facts = c.facts ++ [.ended t .closed]) ∨
          ¬ IsShut c.facts ∧
            ((t ∈ c.sink.granted ∧
                (c.step (.look t)).facts = c.facts ++ [.entered t, .ended t .sent]) ∨
              t ∉ c.sink.granted ∧ c.step (.look t) = c)) := by
  obtain ⟨w, hw, htoken⟩ := hc.waiter?_eq ht hcall
  obtain ⟨-, rfl⟩ := mem_of_waiter? hw
  have hfired : c.hasFired w.token = true ↔ .fired call.token ∈ c.facts := by
    rw [← htoken]
    exact decide_eq_true_iff
  have hacc := c.sink.withdraw_accepted w.emission.ticket
  have hopen : c.sink.isOpen = true → ¬ IsShut c.facts := fun ho hs => by
    simp [hc.shut.mpr hs] at ho
  simp only [EmissionTrace.step, hw]
  rcases Emission.look_cases w.emission (c.hasFired w.token) c.sink with
    ⟨hcan, hl⟩ | ⟨hcan, ho, hl⟩ | ⟨hcan, ho, hg, hl⟩ | ⟨hcan, ho, hg, hl⟩
  · refine .inl ⟨hfired.mp hcan, ?_⟩
    rw [hl, told_ended hacc]
  · refine .inr ⟨fun h => by simp [hfired.mpr h] at hcan, .inl ⟨hc.shut.mp ho, ?_⟩⟩
    rw [hl, told_ended hacc]
  · refine .inr ⟨fun h => by simp [hfired.mpr h] at hcan, .inr ⟨hopen ho, .inl ⟨hg, ?_⟩⟩⟩
    rw [hl, told_entered (e := w.emission.event) rfl]
  · refine .inr ⟨fun h => by simp [hfired.mpr h] at hcan, .inr ⟨hopen ho, .inr ⟨hg, ?_⟩⟩⟩
    rw [hl, told_pending rfl, List.append_nil]
    rfl

theorem emit_fired {token : Nat} (hf : .fired token ∈ c.facts) (event : Event) :
    ∃ o, .ended c.next o ∈ (c.step (.emit event token)).facts := by
  have hcan : c.hasFired token = true := decide_eq_true hf
  have hready := Emission.start_isReady ⟨event, c.next⟩ c.sink
  simp only [EmissionTrace.step, hcan]
  cases hl : Emission.start ⟨event, c.next⟩ true c.sink with
  | mk progress sink =>
    rw [hl] at hready
    cases progress with
    | pending => cases hready
    | ready o =>
      refine ⟨o, List.mem_append_right _ (List.mem_cons_of_mem _ (List.mem_append_right _ ?_))⟩
      exact List.mem_singleton.mpr rfl

/-! ## The order of those who had to wait -/

/-- The tickets of the events that had to wait and got in, in the order in which they got in. -/
def waited (c : EmissionTrace) : List Nat :=
  (entries c.facts).filter fun t => (calls c.facts)[t]?.any fun call => call.found == .full

/-- Of the calls that own a place, the one that got its place first is polled first. -/
def InTurn : EmissionTrace → List EmitAct → Prop
  | _, [] => True
  | c, act :: acts =>
    (∀ t, act = .look t → t ∈ c.sink.granted → c.sink.granted.head? = some t) ∧
      InTurn (c.step act) acts

theorem Sound.waited_append (hc : c.Sound) (sink : Sink) (waiters : List Waiter)
    (new : List EmitFact) : waited ⟨sink, waiters, c.facts ++ new⟩ = c.waited ++
      (entries new).filter fun t =>
        (calls (c.facts ++ new))[t]?.any fun call => call.found == .full := by
  simp only [waited, entries_append, List.filter_append]
  congr 1
  apply List.filter_congr
  intro t ht
  rw [hc.entries_eq, mem_sent] at ht
  have hlt := (hc.ended t _ ht).1
  rw [calls_append, List.getElem?_append_left hlt]

theorem Sound.waited_of_entries (hc : c.Sound) (sink : Sink) (waiters : List Waiter)
    {new : List EmitFact} (hn : entries new = []) :
    waited ⟨sink, waiters, c.facts ++ new⟩ = c.waited := by
  rw [hc.waited_append, hn, List.filter_nil, List.append_nil]

theorem Sound.waited_emit (hc : c.Sound) (event : Event) (token : Nat) :
    (c.step (.emit event token)).waited = c.waited ∧
      ∀ t ∈ (c.step (.emit event token)).sink.line, t ∈ c.sink.line ∨ t = c.next := by
  simp only [EmissionTrace.step]
  rcases Emission.start_cases ⟨event, c.next⟩ (c.hasFired token) c.sink with
    ⟨hf, hl⟩ | ⟨-, hl⟩ | ⟨-, -, hl⟩ | ⟨-, -, hl⟩
  · -- the event gets in, but it has not had to wait
    refine ⟨?_, fun t ht => ?_⟩
    · rw [hl, told_entered (e := event) rfl, hc.waited_append]
      simp [entries, calls, next, hf]
    · rw [hl] at ht
      exact .inl ht
  · rw [hl, told_ended rfl]
    exact ⟨hc.waited_of_entries _ _ rfl, fun t ht => .inl ht⟩
  · rw [hl, told_ended rfl]
    exact ⟨hc.waited_of_entries _ _ rfl, fun t ht => .inl ht⟩
  · have hacc : (c.sink.joinLine c.next).accepted = c.sink.accepted := rfl
    rw [hl, told_pending hacc]
    refine ⟨hc.waited_of_entries _ _ rfl, fun t ht => ?_⟩
    simpa [Mailbox.line, Mailbox.joinLine, or_assoc] using ht

theorem Sound.waited_look (hc : c.Sound) (t : Nat) :
    ((c.step (.look t)).waited = c.waited ∧
        ∀ t' ∈ (c.step (.look t)).sink.line, t' ∈ c.sink.line) ∨
      t ∈ c.sink.granted ∧ (c.step (.look t)).waited = c.waited ++ [t] ∧
        (c.step (.look t)).sink.line = c.sink.line.erase t := by
  simp only [EmissionTrace.step]
  cases hw : c.waiter? t with
  | none => exact .inl ⟨rfl, fun t ht => ht⟩
  | some w =>
    obtain ⟨hm, rfl⟩ := mem_of_waiter? hw
    have hgone : ∀ t ∈ (c.sink.withdraw w.emission.ticket).line, t ∈ c.sink.line := by
      intro t ht
      rw [Mailbox.withdraw_line] at ht
      exact List.mem_of_mem_erase ht
    have hacc := c.sink.withdraw_accepted w.emission.ticket
    rcases Emission.look_cases w.emission (c.hasFired w.token) c.sink with
      ⟨-, hl⟩ | ⟨-, -, hl⟩ | ⟨-, -, hg, hl⟩ | ⟨-, -, -, hl⟩
    · simp only [hl, told_ended hacc]
      exact .inl ⟨hc.waited_of_entries _ _ rfl, hgone⟩
    · simp only [hl, told_ended hacc]
      exact .inl ⟨hc.waited_of_entries _ _ rfl, hgone⟩
    · have hacc : (c.sink.fill w.emission.ticket w.emission.event).accepted =
          c.sink.accepted ++ [w.emission.event] := rfl
      refine .inr ⟨hg, ?_, ?_⟩
      · have hcall := hc.waiting w hm
        simp only [hl, told_entered hacc, hc.waited_append, calls_append]
        simp [entries, show calls [.entered w.ticket, .ended w.ticket .sent] = [] from rfl, hcall]
      · simp only [hl]
        exact (List.erase_append_left _ hg).symm
    · simp only [hl, told_pending (rfl : c.sink.accepted = _), List.append_nil]
      exact .inl ⟨rfl, fun t ht => ht⟩

/-- An event that had to wait gets in when its call is polled and owns a place, and in no other
way; and nobody comes into the line before anybody in it. -/
theorem Sound.waited_step (hc : c.Sound) (act : EmitAct) :
    ((c.step act).waited = c.waited ∧
        ∀ t ∈ (c.step act).sink.line, t ∈ c.sink.line ∨ t = c.next) ∨
      ∃ t, act = .look t ∧ t ∈ c.sink.granted ∧ (c.step act).waited = c.waited ++ [t] ∧
        (c.step act).sink.line = c.sink.line.erase t := by
  cases act with
  | emit event token => exact .inl (hc.waited_emit event token)
  | look t =>
    rcases hc.waited_look t with ⟨hw, hline⟩ | ⟨hg, hw, hline⟩
    · exact .inl ⟨hw, fun t' ht' => .inl (hline t' ht')⟩
    · exact .inr ⟨t, rfl, hg, hw, hline⟩
  | giveUp t =>
    left
    simp only [EmissionTrace.step]
    cases hw : c.waiter? t with
    | none => exact ⟨rfl, fun t ht => .inl ht⟩
    | some w =>
      refine ⟨hc.waited_of_entries _ _ rfl, fun t' ht' => .inl ?_⟩
      have hline := c.sink.withdraw_line w.emission.ticket
      exact List.mem_of_mem_erase (hline ▸ ht')
  | fire token => exact .inl ⟨hc.waited_of_entries _ _ rfl, fun t ht => .inl ht⟩
  | take =>
    left
    simp only [EmissionTrace.step]
    cases ht : c.sink.take? with
    | none => exact ⟨rfl, fun t ht => .inl ht⟩
    | some x =>
      obtain ⟨rest, -, hx⟩ := Mailbox.take?_eq_some.mp ht
      have hline : x.2.line = c.sink.line := by
        rw [hx, Mailbox.grant_line]
        rfl
      exact ⟨rfl, fun t ht => .inl (hline ▸ ht)⟩
  | closeReceiver =>
    left
    simp only [EmissionTrace.step]
    split
    · exact ⟨hc.waited_of_entries _ _ rfl, fun t ht => .inl (c.sink.close_line ▸ ht)⟩
    · exact ⟨rfl, fun t ht => .inl ht⟩
  | dropReceiver => exact .inl ⟨hc.waited_of_entries _ _ rfl, fun t ht => .inl ht⟩

/-- Those who had to wait and got in came in order, and before all who still wait. -/
def Ordered (c : EmissionTrace) : Prop :=
  c.waited.Pairwise (· < ·) ∧ ∀ t ∈ c.waited, ∀ t' ∈ c.sink.line, t < t'

theorem Sound.ordered_step (hc : c.Sound) (ho : c.Ordered) {act : EmitAct}
    (hturn : ∀ t, act = .look t → t ∈ c.sink.granted → c.sink.granted.head? = some t) :
    (c.step act).Ordered := by
  rcases hc.waited_step act with ⟨hw, hline⟩ | ⟨t, rfl, hg, hw, hline⟩
  · refine ⟨hw ▸ ho.1, fun t ht t' ht' => ?_⟩
    rw [hw] at ht
    rcases hline t' ht' with h | rfl
    · exact ho.2 t ht t' h
    · have hin : t ∈ entries c.facts := (List.mem_filter.mp ht).1
      rw [hc.entries_eq, mem_sent] at hin
      exact (hc.ended t _ hin).1
  · -- the owner who is polled is the first of the line
    obtain ⟨rest, hrest⟩ : ∃ rest, c.sink.line = t :: rest := by
      obtain ⟨owners, howners⟩ := List.head?_eq_some_iff.mp (hturn t rfl hg)
      exact ⟨owners ++ c.sink.waiting, by rw [Mailbox.line, howners]; rfl⟩
    have hfirst := List.pairwise_cons.mp (hrest ▸ hc.order)
    refine ⟨?_, fun t₁ ht₁ t' ht' => ?_⟩
    · rw [hw, List.pairwise_append]
      refine ⟨ho.1, List.pairwise_singleton .., fun t₁ ht₁ t₂ ht₂ => ?_⟩
      rw [List.mem_singleton.mp ht₂]
      exact ho.2 t₁ ht₁ t (hrest ▸ List.mem_cons_self)
    · rw [hline, hrest, List.erase_cons_head] at ht'
      rw [hw] at ht₁
      rcases List.mem_append.mp ht₁ with h | h
      · exact ho.2 t₁ h t' (hrest ▸ List.mem_cons_of_mem _ ht')
      · exact List.mem_singleton.mp h ▸ hfirst.1 t' ht'

theorem Sound.ordered_perform (hc : c.Sound) (ho : c.Ordered) {acts : List EmitAct}
    (hturn : c.InTurn acts) : (c.perform acts).Ordered := by
  induction acts generalizing c with
  | nil => exact ho
  | cons act acts ih => exact ih (hc.step act) (hc.ordered_step ho hturn.1) hturn.2

@[simp] theorem step_capacity (c : EmissionTrace) (act : EmitAct) :
    (c.step act).sink.capacity = c.sink.capacity := by
  cases act with
  | emit event token =>
    simp only [step]
    rcases Emission.start_cases ⟨event, c.next⟩ (c.hasFired token) c.sink with
      ⟨-, hl⟩ | ⟨-, hl⟩ | ⟨-, -, hl⟩ | ⟨-, -, hl⟩ <;> rw [hl] <;> rfl
  | look t =>
    simp only [step]
    split
    · rfl
    · rename_i w _
      rcases Emission.look_cases w.emission (c.hasFired w.token) c.sink with
        ⟨-, hl⟩ | ⟨-, -, hl⟩ | ⟨-, -, -, hl⟩ | ⟨-, -, -, hl⟩ <;>
        simp [hl, Mailbox.fill, Mailbox.push]
  | giveUp t =>
    simp only [step]
    split <;> simp [Emission.abandon]
  | fire token => rfl
  | take =>
    simp only [step]
    split
    · rfl
    · rename_i ht
      obtain ⟨rest, -, hx⟩ := Mailbox.take?_eq_some.mp ht
      simp [hx]
  | closeReceiver =>
    simp only [step]
    split
    · exact c.sink.close_capacity
    · rfl
  | dropReceiver => rfl

/-- Where there is one place, it has one owner at most, and whoever owns it is polled in turn. -/
theorem Sound.inTurn_of_capacity (hc : c.Sound) (hcap : c.sink.capacity ≤ 1)
    (acts : List EmitAct) : c.InTurn acts := by
  induction acts generalizing c with
  | nil => trivial
  | cons act acts ih =>
    refine ⟨fun t _ hg => ?_, ih (hc.step act) (by simpa using hcap)⟩
    have hused := hc.fair.used_le
    rw [Mailbox.used] at hused
    obtain ⟨owner, howner⟩ := List.length_eq_one_iff.mp
      (Nat.le_antisymm (by omega) (List.length_pos_of_mem hg) : c.sink.granted.length = 1)
    rw [howner, List.mem_singleton] at hg
    rw [howner, hg]
    rfl

/-! ## Emissions are atomic and honest -/

/-- What the users of a sink can rely on. As it holds after every act, what it says of the end of a
call was so when the call ended. -/
structure Honest (c : EmissionTrace) : Prop where
  /-- What the sink accepted are the events of calls, each unchanged. -/
  faithful : c.sink.accepted.map some =
    (entries c.facts).map fun t => (calls c.facts)[t]?.map (·.event)
  /-- No event gets in twice. -/
  once : (entries c.facts).Nodup
  one_end : ((ends c.facts).map Prod.fst).Nodup
  /-- A call says that its event got in exactly if it did. -/
  sent_iff : ∀ t, .ended t .sent ∈ c.facts ↔ t ∈ entries c.facts
  closed : ∀ t, .ended t .closed ∈ c.facts → IsShut c.facts ∧ t ∉ entries c.facts
  cancelled : ∀ t, .ended t .cancelled ∈ c.facts → (∃ call, (calls c.facts)[t]? = some call ∧
    call.found = .full ∧ .fired call.token ∈ c.facts) ∧ t ∉ entries c.facts
  /-- Whoever finds a free place gets in, fired token or not. -/
  free : ∀ t call, (calls c.facts)[t]? = some call → call.found = .free →
    .ended t .sent ∈ c.facts
  /-- A call that begins with a fired token is over at once. -/
  over_at_once : ∀ event token, .fired token ∈ c.facts →
    ∃ o, .ended c.next o ∈ (c.step (.emit event token)).facts
  /-- A call whose token has fired is over, or given up, or over once it is polled again. -/
  never_stuck : ∀ t call, (calls c.facts)[t]? = some call → .fired call.token ∈ c.facts →
    (∃ o, .ended t o ∈ c.facts) ∨ .givenUp t ∈ c.facts ∨
      .ended t .cancelled ∈ (c.step (.look t)).facts
  /-- So is every call that waits once nothing gets in any more. -/
  turned_away : ∀ t ∈ c.sink.line, ∀ call, (calls c.facts)[t]? = some call →
    .fired call.token ∉ c.facts → IsShut c.facts →
      (c.step (.look t)).facts = c.facts ++ [.ended t .closed]
  /-- The owner of a place gets in once it is polled again. -/
  owner_enters : ∀ t ∈ c.sink.granted, ∀ call, (calls c.facts)[t]? = some call →
    .fired call.token ∉ c.facts → ¬ IsShut c.facts →
      (c.step (.look t)).facts = c.facts ++ [.entered t, .ended t .sent]
  /-- There are no more events and owners than places, and nobody waits for a place while there is
  one. -/
  places : c.sink.used ≤ c.sink.capacity ∧
    (¬ IsShut c.facts → c.sink.waiting ≠ [] → c.sink.used = c.sink.capacity)
  /-- Places are given in the order in which the calls began to wait. -/
  in_line : (c.sink.granted ++ c.sink.waiting).Pairwise (· < ·)
  /-- Every call that has begun stands in line, or is over, or has been given up. -/
  accounted : ∀ t, t < c.next →
    t ∈ c.sink.granted ++ c.sink.waiting ∨ (∃ o, .ended t o ∈ c.facts) ∨ .givenUp t ∈ c.facts
  /-- Nobody gets in before somebody who has waited longer and still waits for a place. -/
  no_overtaking : ∀ t ∉ entries c.facts, t ∈ c.sink.line →
    t ∈ entries (c.step (.look t)).facts → ∀ t' ∈ c.sink.line, t' < t → t' ∈ c.sink.granted

/-- A look brings an event in only for the owner of a place. -/
theorem entries_look (c : EmissionTrace) (t : Nat) :
    entries (c.step (.look t)).facts = entries c.facts ∨ t ∈ c.sink.granted := by
  cases hw : c.waiter? t with
  | none => left; simp only [step, hw]
  | some w =>
    obtain ⟨-, rfl⟩ := mem_of_waiter? hw
    have hacc := c.sink.withdraw_accepted w.emission.ticket
    rcases Emission.look_cases w.emission (c.hasFired w.token) c.sink with
      ⟨-, hl⟩ | ⟨-, -, hl⟩ | ⟨-, -, hg, -⟩ | ⟨-, -, -, hl⟩
    · left; simp only [step, hw, hl, told_ended hacc, entries_append]; exact List.append_nil _
    · left; simp only [step, hw, hl, told_ended hacc, entries_append]; exact List.append_nil _
    · exact .inr hg
    · left; simp only [step, hw, hl, told_pending (rfl : c.sink.accepted = _), List.append_nil]

theorem Sound.not_sent (hc : c.Sound) {t : Nat} {o : Emitted} (hne : o ≠ .sent)
    (h : .ended t o ∈ c.facts) : t ∉ entries c.facts := by
  intro hin
  rw [hc.entries_eq, mem_sent] at hin
  have hpair := List.inj_on_of_nodup_map hc.ends_nodup hin (mem_ends.mpr h) rfl
  exact hne (Prod.mk.inj hpair).2.symm

theorem Sound.honest (hc : c.Sound) : c.Honest where
  faithful := hc.accepted
  once := by
    rw [hc.entries_eq]
    exact hc.ends_nodup.sublist (List.filter_sublist.map _)
  one_end := hc.ends_nodup
  sent_iff t := by rw [hc.entries_eq, mem_sent, mem_ends]
  closed t h := ⟨(hc.ended t _ (mem_ends.mpr h)).2.2, hc.not_sent (by simp) h⟩
  cancelled t h := ⟨(hc.ended t _ (mem_ends.mpr h)).2.2, hc.not_sent (by simp) h⟩
  free t call hcall hf := mem_ends.mp (hc.free t call hcall hf)
  over_at_once event token hf := emit_fired hf event
  never_stuck t call hcall hf := by
    rcases hc.settled t (List.getElem?_eq_some_iff.mp hcall).1 with hin | ⟨o, ho⟩ | hg
    · rcases hc.look_cases hin hcall with ⟨-, hl⟩ | ⟨hnf, -⟩
      · exact .inr (.inr (hl ▸ List.mem_append_right _ (List.mem_singleton.mpr rfl)))
      · exact absurd hf hnf
    · exact .inl ⟨o, mem_ends.mp ho⟩
    · exact .inr (.inl hg)
  turned_away t ht call hcall hnf hshut := by
    rcases hc.look_cases ht hcall with ⟨hf, -⟩ | ⟨-, ⟨-, hl⟩ | ⟨hopen, -⟩⟩
    · exact absurd hf hnf
    · exact hl
    · exact absurd hshut hopen
  owner_enters t ht call hcall hnf hopen := by
    rcases hc.look_cases (List.mem_append_left _ ht) hcall with
      ⟨hf, -⟩ | ⟨-, ⟨hshut, -⟩ | ⟨-, ⟨-, hl⟩ | ⟨hg, -⟩⟩⟩
    · exact absurd hf hnf
    · exact absurd hshut hopen
    · exact hl
    · exact absurd ht hg
  places := ⟨hc.fair.used_le, fun hopen hw => hc.fair.full_of_waiting
    (Bool.of_not_eq_false fun h => hopen (hc.shut.mp h)) hw⟩
  in_line := hc.order
  accounted t ht := (hc.settled t ht).imp_right (Or.imp_left fun ⟨o, ho⟩ => ⟨o, mem_ends.mp ho⟩)
  no_overtaking t hout hin henters t' hin' hlt := by
    have hg := (c.entries_look t).resolve_left fun h => hout (h ▸ henters)
    refine (List.mem_append.mp hin').resolve_right fun hw => ?_
    exact Nat.lt_asymm hlt ((List.pairwise_append.mp hc.order).2.2 t hg t' hw)

/-- Only the receiver closes the sink. -/
theorem shut_step {act : EmitAct} (h : .shut ∈ (c.step act).facts) :
    .shut ∈ c.facts ∨ act = .closeReceiver := by
  have htold : ∀ (t : Nat) (before : Sink) (looked : Progress Emitted × Sink),
      .shut ∉ told t before looked := by
    intro t before looked
    unfold told
    split <;> split <;> simp
  cases act with
  | emit event token =>
    simp only [step, List.mem_append, List.mem_cons] at h
    exact .inl (h.resolve_right fun h => h.elim (by simp) (htold _ _ _))
  | look t =>
    simp only [step] at h
    split at h
    · exact .inl h
    · exact .inl ((List.mem_append.mp h).resolve_right (htold _ _ _))
  | giveUp t =>
    simp only [step] at h
    split at h
    · exact .inl h
    · exact .inl (by simpa using h)
  | fire token => exact .inl (by simpa [step] using h)
  | take =>
    simp only [step] at h
    split at h <;> exact .inl h
  | closeReceiver => exact .inr rfl
  | dropReceiver => exact .inl (by simpa [step] using h)

theorem shut_perform {acts : List EmitAct} (h : .shut ∈ (c.perform acts).facts) :
    .shut ∈ c.facts ∨ .closeReceiver ∈ acts := by
  induction acts generalizing c with
  | nil => exact .inl h
  | cons act acts ih =>
    rcases ih h with h | h
    · refine (shut_step h).imp_right fun hact => ?_
      rw [hact]
      exact List.mem_cons_self
    · exact .inr (List.mem_cons_of_mem _ h)

/-- **Emissions are atomic and honest**, whatever is done with a sink and in whatever order; if the
receiver never closes the sink, calls are turned away only because it is gone; and the events that
had to wait get in in the order in which their calls began to wait, as long as owners of a place are
polled in turn. -/
theorem run_honest (capacity : Nat) (acts : List EmitAct) :
    (run capacity acts).Honest ∧
      (.closeReceiver ∉ acts → ∀ t, .ended t .closed ∈ (run capacity acts).facts →
        .dropped ∈ (run capacity acts).facts) ∧
      (capacity ≤ 1 ∨ (start capacity).InTurn acts →
        (run capacity acts).waited.Pairwise (· < ·)) := by
  have hstart := sound_start capacity
  have hhonest := (hstart.perform acts).honest
  refine ⟨hhonest, fun hopen t ht => ?_, fun h => ?_⟩
  · refine (hhonest.closed t ht).1.resolve_left fun hshut => ?_
    exact (shut_perform hshut).elim (by simp [start]) hopen
  · have hturn : (start capacity).InTurn acts :=
      h.elim (fun hcap => hstart.inTurn_of_capacity hcap acts) id
    have hordered : (start capacity).Ordered := ⟨.nil, by simp [waited, start, entries]⟩
    exact (hstart.ordered_perform hordered hturn).1

/-- Of two owners of a place the one that is polled first gets in first, though the other began to
wait before it; and a receiver that closes the sink turns calls away without going away. -/
theorem owners_out_of_turn :
    let turns : List EmitAct := [.emit (.note "a") 0, .emit (.note "b") 0, .emit (.note "c") 0,
      .emit (.note "d") 0, .take, .take, .look 3, .look 2]
    let closing : List EmitAct :=
      [.emit (.note "a") 0, .emit (.note "b") 1, .closeReceiver, .look 1]
    ((run 2 turns).waited = [3, 2] ∧ ¬ (run 2 turns).waited.Pairwise (· < ·)) ∧
      .ended 1 .closed ∈ (run 1 closing).facts ∧ .dropped ∉ (run 1 closing).facts := by
  decide +kernel

end HealthRelay.EmissionTrace
