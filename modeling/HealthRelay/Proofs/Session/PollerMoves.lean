import HealthRelay.Poller
import Mathlib.Logic.Relation

/-!
# The moves of a poller

One turn of a poller is a short sequence of moves, each of which does one thing: the acknowledgement
of a sample, the start of a call, the end of a call, the end of the poller. `Move` lists them with
all that each requires and changes; `poll_moves` says that a turn consists of them, so whatever
every move keeps, every turn keeps.
-/

namespace HealthRelay.Poller

open Relation (ReflTransGen)

inductive Move (t : Turn) : Poller × Handoff → Poller × Handoff → Prop where
  | wake {p : Poller} {h : Handoff} : p.stage = .fresh →
      Move t (p, h) ({ p with stage := .waiting (.start p.interval t.now) }, h)
  | stop {p : Poller} {h : Handoff} {ticker : Ticker} : p.stage = .waiting ticker →
      t.isCancelled = true → Move t (p, h) (p.finish h)
  | ask {p : Poller} {h : Handoff} {ticker next : Ticker} : p.stage = .waiting ticker →
      t.isCancelled = false → ticker.look t.now = some next →
      Move t (p, h) ({ p with stage := .probing next (.start t.now p.interval) }, h)
  | linger {p : Poller} {h : Handoff} {ticker : Ticker} {call call' : Call} :
      p.stage = .probing ticker call →
      call.look t.isGated t.now t.isCancelled t.answer = (call', .pending) →
      Move t (p, h) ({ p with stage := .probing ticker call' }, h)
  | panic {p : Poller} {h : Handoff} {ticker : Ticker} {call call' : Call}
      {result : Except Failure (Ending Sample)} {message : String} :
      p.stage = .probing ticker call →
      call.look t.isGated t.now t.isCancelled t.answer = (call', .ready result) →
      sampleOf (.ofResult result) t.wallMs = .error message →
      Move t (p, h)
        ({ p with stage := .panicked message, past := p.past ++ [call'.release] }, h.dropSender)
  | give {p : Poller} {h : Handoff} {ticker : Ticker} {call call' : Call}
      {result : Except Failure (Ending Sample)} {sample : Sample} :
      p.stage = .probing ticker call →
      call.look t.isGated t.now t.isCancelled t.answer = (call', .ready result) →
      sampleOf (.ofResult result) t.wallMs = .ok sample →
      Move t (p, h) (p.give ticker call' sample t h)
  | acknowledge {p : Poller} {h h' : Handoff} {ticker : Ticker} {ticket : Nat} :
      p.stage = .handing ticker ticket → h.look ticket = (.ready .taken, h') →
      Move t (p, h) ({ p with stage := .waiting ticker, produced := p.produced + 1 }, h')
  | refuse {p : Poller} {h h' : Handoff} {ticker : Ticker} {ticket : Nat} :
      p.stage = .handing ticker ticket → h.look ticket = (.ready .closed, h') →
      Move t (p, h) (p.finish h')
  | wait {p : Poller} {h h' : Handoff} {ticker : Ticker} {ticket : Nat} :
      p.stage = .handing ticker ticket → h.look ticket = (.pending, h') →
      t.isCancelled = false → Move t (p, h) (p, h')
  | giveUp {p : Poller} {h h' : Handoff} {ticker : Ticker} {ticket : Nat} :
      p.stage = .handing ticker ticket → h.look ticket = (.pending, h') →
      t.isCancelled = true → Move t (p, h) (p.finish (h'.abandon ticket))

abbrev Moves (t : Turn) : Poller × Handoff → Poller × Handoff → Prop := ReflTransGen (Move t)

variable {t : Turn} {p : Poller} {h : Handoff}

theorem observe_move {ticker : Ticker} {call : Call} (hst : p.stage = .probing ticker call) :
    Move t (p, h) (p.observe ticker call t h) := by
  unfold observe
  split
  · rename_i call' hl
    exact .linger hst hl
  · rename_i call' result hl
    split
    · rename_i sample hs
      exact .give hst hl hs
    · rename_i message hs
      exact .panic hst hl hs

theorem observe_moves {ticker : Ticker} {call : Call} (hst : p.stage = .probing ticker call) :
    Moves t (p, h) (p.observe ticker call t h) := .single (observe_move hst)

/-- The stage from which a call is observed is of no account. -/
theorem observe_stage (p : Poller) (stage : PollerStage) (ticker : Ticker) (call : Call) (t : Turn)
    (h : Handoff) : { p with stage }.observe ticker call t h = p.observe ticker call t h := by
  unfold observe give finish
  rfl

theorem tick_moves {ticker : Ticker} (hst : p.stage = .waiting ticker) :
    Moves t (p, h) (p.tick ticker t h) := by
  unfold tick
  cases hc : t.isCancelled with
  | true => exact .single (.stop hst hc)
  | false =>
    cases hl : ticker.look t.now with
    | none =>
      have he : { p with stage := .waiting ticker } = p := by rw [← hst]
      simp only [he, Bool.false_eq_true, ↓reduceIte]
      exact .refl
    | some next =>
      simp only [Bool.false_eq_true, ↓reduceIte]
      refine .head (.ask hst hc hl) ?_
      rw [← observe_stage p (.probing next (.start t.now p.interval))]
      exact observe_moves rfl

theorem tick_stage (p : Poller) (stage : PollerStage) (ticker : Ticker) (t : Turn) (h : Handoff) :
    { p with stage }.tick ticker t h = p.tick ticker t h := by
  unfold tick finish
  simp only [observe_stage]

/-- **A turn consists of moves.** -/
theorem poll_moves (t : Turn) (p : Poller) (h : Handoff) : Moves t (p, h) (p.poll t h) := by
  unfold poll
  cases hst : p.stage with
  | fresh =>
    refine .head (.wake hst) ?_
    simp only [← tick_stage p (.waiting (.start p.interval t.now))]
    exact tick_moves rfl
  | waiting ticker => exact tick_moves hst
  | probing ticker call => exact observe_moves hst
  | handing ticker ticket =>
    simp only
    split
    · rename_i h' hl
      refine .head (.acknowledge hst hl) ?_
      rw [← tick_stage _ (.waiting ticker)]
      exact tick_moves rfl
    · rename_i h' hl
      exact .single (.refuse hst hl)
    · rename_i h' hl
      cases hc : t.isCancelled with
      | true => exact .single (.giveUp hst hl hc)
      | false => exact .single (.wait hst hl hc)
  | finished => exact .refl
  | panicked message => exact .refl

end HealthRelay.Poller
