import HealthRelay.Proofs.Call
import HealthRelay.Proofs.Session.Scene

/-!
# The scopes of a run

A `Ledger` holds the scopes of all calls of one side of a run. `Ledger.Move` lists all that one move
can do to it: nothing, the opening of a scope, or its release. Every move of the poller and of the
reporter is one of these (`Poller.Move.ledger`, `Reporter.Move.ledger`), so what they keep every
turn keeps (`Run.keeps_ledger`). `Ledger.Kept` is such a thing: the scopes of calls that are over
are released, that of the call that is on is not, and all of them fit the interval.
-/

namespace HealthRelay

open Relation (ReflTransGen)

/-- The scopes of the calls of one side. -/
structure Ledger where
  /-- Of the calls that are over, in order. -/
  past : List Scope
  /-- Of the call that is on. -/
  current : Option Scope

namespace Ledger

def empty : Ledger := ⟨[], none⟩

def scopes (l : Ledger) : List Scope := l.past ++ l.current.toList

@[simp] theorem scopes_empty : empty.scopes = [] := rfl

theorem past_length_le (l : Ledger) : l.past.length ≤ l.scopes.length := by simp [scopes]

theorem scopes_length_le (l : Ledger) : l.scopes.length ≤ l.past.length + 1 := by
  rw [scopes, List.length_append]
  exact Nat.add_le_add_left Option.length_toList_le _

/-- All that one move can do to the scopes of a side. -/
inductive Move (now : Nat) (budget : Duration) : Ledger → Ledger → Prop where
  | rest (l : Ledger) : Move now budget l l
  | opens (past : List Scope) : Move now budget ⟨past, none⟩ ⟨past, some (.start now budget)⟩
  | closes (past : List Scope) (s : Scope) :
      Move now budget ⟨past, some s⟩ ⟨past ++ [s.release], none⟩

abbrev Moves (now : Nat) (budget : Duration) : Ledger → Ledger → Prop :=
  ReflTransGen (Move now budget)

variable {l l' : Ledger} {now : Nat} {budget : Duration}

/-! ## What moves add -/

theorem Move.past_length_le (hm : Move now budget l l') : l.past.length ≤ l'.past.length := by
  cases hm with
  | rest => exact Nat.le_refl _
  | opens => exact Nat.le_refl _
  | closes => simp

theorem Moves.past_length_le (hm : Moves now budget l l') : l.past.length ≤ l'.past.length := by
  induction hm with
  | refl => exact Nat.le_refl _
  | tail _ hstep ih => exact Nat.le_trans ih hstep.past_length_le

def openings (l : Ledger) : List Nat := l.scopes.map (·.openedAt)

theorem openings_length (l : Ledger) : l.openings.length = l.scopes.length := by
  simp [openings]

theorem Move.openings (hm : Move now budget l l') :
    l'.openings = l.openings ∨ l'.openings = l.openings ++ [now] := by
  cases hm with
  | rest => exact .inl rfl
  | opens => exact .inr (by simp [Ledger.openings, scopes, Scope.start])
  | closes => exact .inl (by simp [Ledger.openings, scopes, Scope.release])

/-- What moves open they open now. -/
theorem Moves.openings (hm : Moves now budget l l') :
    ∃ k, l'.openings = l.openings ++ List.replicate k now := by
  induction hm with
  | refl => exact ⟨0, by simp⟩
  | tail _ hstep ih =>
    obtain ⟨k, hk⟩ := ih
    rcases hstep.openings with h | h
    · exact ⟨k, h.trans hk⟩
    · refine ⟨k + 1, ?_⟩
      rw [h, hk, List.append_assoc, ← List.replicate_succ']

theorem Moves.scopes_length_le (hm : Moves now budget l l') :
    l.scopes.length ≤ l'.scopes.length := by
  obtain ⟨k, hk⟩ := hm.openings
  rw [← openings_length, ← openings_length, hk, List.length_append]
  omega

/-- A scope was there before the moves, opened when it is now, or it was opened now. -/
theorem Moves.openedAt (hm : Moves now budget l l') {n : Nat} {s : Scope}
    (hs : l'.scopes[n]? = some s) :
    (∃ s₀, l.scopes[n]? = some s₀ ∧ s₀.openedAt = s.openedAt) ∨
      l.scopes.length ≤ n ∧ s.openedAt = now := by
  obtain ⟨k, hk⟩ := hm.openings
  have hopened : l'.openings[n]? = some s.openedAt := by simp [Ledger.openings, hs]
  rw [hk] at hopened
  by_cases hn : n < l.openings.length
  · rw [List.getElem?_append_left hn] at hopened
    simpa [Ledger.openings] using Or.inl hopened
  · rw [List.getElem?_append_right (Nat.le_of_not_lt hn)] at hopened
    refine .inr ⟨by rw [← openings_length]; omega, ?_⟩
    exact List.eq_of_mem_replicate (List.mem_of_getElem? hopened)

/-! ## What moves keep -/

/-- The scopes of calls with this budget: released once the call is over, and no sooner. -/
structure Kept (budget : Duration) (l : Ledger) : Prop where
  past : ∀ s ∈ l.past, s.isReleased = true
  current : ∀ s, l.current = some s → s.isReleased = false
  fits : ∀ s ∈ l.scopes, s.budget = budget ∧ s.expiresAt = s.openedAt + budget.nanos

theorem kept_empty (budget : Duration) : empty.Kept budget := by
  constructor <;> simp [empty, scopes]

theorem Move.kept (hm : Move now budget l l') (hl : l.Kept budget)
    (hexpiry : Scope.expiry now budget = now + budget.nanos) : l'.Kept budget := by
  cases hm with
  | rest => exact hl
  | opens past =>
    refine ⟨hl.past, fun s h => ?_, fun s h => ?_⟩
    · cases h
      rfl
    · rcases List.mem_append.mp h with h | h
      · exact hl.fits s (List.mem_append_left _ h)
      · obtain rfl := List.mem_singleton.mp h
        exact ⟨rfl, hexpiry⟩
  | closes past s =>
    have hfits := hl.fits s (by simp [scopes])
    have hreleased : ∀ s' ∈ past ++ [s.release], s'.isReleased = true ∧
        s'.budget = budget ∧ s'.expiresAt = s'.openedAt + budget.nanos := by
      intro s' h
      rcases List.mem_append.mp h with h | h
      · exact ⟨hl.past s' h, hl.fits s' (List.mem_append_left _ h)⟩
      · obtain rfl := List.mem_singleton.mp h
        exact ⟨rfl, hfits⟩
    exact ⟨fun s' h => (hreleased s' h).1, fun s' h => (by cases h),
      fun s' h => (hreleased s' (by simpa [scopes] using h)).2⟩

/-- A scope is released once its call is over, and no sooner. -/
theorem Kept.isReleased_iff (hl : l.Kept budget) {n : Nat} {s : Scope}
    (hs : l.scopes[n]? = some s) : s.isReleased = true ↔ n < l.past.length := by
  by_cases hn : n < l.past.length
  · rw [scopes, List.getElem?_append_left hn] at hs
    simp [hn, hl.past s (List.mem_of_getElem? hs)]
  · rw [scopes, List.getElem?_append_right (Nat.le_of_not_lt hn)] at hs
    have hcurrent : l.current = some s := Option.mem_toList.mp (List.mem_of_getElem? hs)
    simp [hn, hl.current s hcurrent]

/-- The scopes that are not released. -/
def live (l : Ledger) : List Scope := l.scopes.filter fun s => !s.isReleased

/-- Only the call that is on has a scope that is not released. -/
theorem Kept.live_eq (hl : l.Kept budget) : l.live = l.current.toList := by
  have hpast : l.past.filter (fun s => !s.isReleased) = [] := by
    rw [List.filter_eq_nil_iff]
    intro s hs
    simp [hl.past s hs]
  rw [live, scopes, List.filter_append, hpast, List.nil_append, List.filter_eq_self]
  intro s hs
  simp [hl.current s (Option.mem_toList.mp hs)]

end Ledger

/-! ## The two sides -/

/-- The sides of a run, each of which makes calls. -/
inductive Side where
  | poller
  | reporter
deriving DecidableEq, Repr

namespace Poller

variable {t : Turn} {p : Poller} {h : Handoff} {x : Poller × Handoff}

def ledger (p : Poller) : Ledger := ⟨p.past.map (·.scope), p.inFlight?.map (·.scope)⟩

theorem give_ledger (p : Poller) (ticker : Ticker) (call : Call) (sample : Sample) (t : Turn)
    (h : Handoff) : (p.give ticker call sample t h).1.ledger =
      ⟨p.past.map (·.scope) ++ [call.scope.release], none⟩ := by
  unfold give
  split
  · simp [ledger, inFlight?, finish, Call.release]
  · split <;> simp [ledger, inFlight?, finish, Call.release]

/-- What a move of the poller does to its scopes. -/
theorem Move.ledger (hm : Move t (p, h) x) :
    Ledger.Move t.now p.interval p.ledger x.1.ledger ∧ x.1.interval = p.interval := by
  have hrest : x.1.ledger = p.ledger → Ledger.Move t.now p.interval p.ledger x.1.ledger :=
    fun heq => heq ▸ .rest _
  cases hm with
  | wake hst => exact ⟨hrest (by simp [Poller.ledger, inFlight?, hst]), rfl⟩
  | stop hst => exact ⟨hrest (by simp [Poller.ledger, inFlight?, finish, hst]), rfl⟩
  | ask hst =>
    have hledger : p.ledger = ⟨p.past.map (·.scope), none⟩ := by
      simp [Poller.ledger, inFlight?, hst]
    rw [hledger]
    exact ⟨.opens _, rfl⟩
  | linger hst hl =>
    exact ⟨hrest (by simp [Poller.ledger, inFlight?, hst, Call.look_scope hl]), rfl⟩
  | panic hst hl =>
    rename_i ticker call call' result message hs
    have hledger : p.ledger = ⟨p.past.map (·.scope), some call'.scope⟩ := by
      simp [Poller.ledger, inFlight?, hst, Call.look_scope hl]
    rw [hledger]
    refine ⟨?_, rfl⟩
    simpa [Poller.ledger, inFlight?, Call.release] using Ledger.Move.closes _ _
  | give hst hl =>
    rename_i ticker call call' result sample hs
    have hledger : p.ledger = ⟨p.past.map (·.scope), some call'.scope⟩ := by
      simp [Poller.ledger, inFlight?, hst, Call.look_scope hl]
    rw [hledger, give_ledger]
    refine ⟨.closes _ _, ?_⟩
    unfold Poller.give
    split
    · rfl
    · split <;> rfl
  | acknowledge hst => exact ⟨hrest (by simp [Poller.ledger, inFlight?, hst]), rfl⟩
  | refuse hst => exact ⟨hrest (by simp [Poller.ledger, inFlight?, finish, hst]), rfl⟩
  | wait => exact ⟨.rest _, rfl⟩
  | giveUp hst => exact ⟨hrest (by simp [Poller.ledger, inFlight?, finish, hst]), rfl⟩

end Poller

namespace Reporter

variable {t : Turn} {r : Reporter} {desk : Desk} {x : Reporter × Desk}

def ledger (r : Reporter) : Ledger :=
  ⟨r.past.map (·.call.scope), r.inFlight?.map (·.call.scope)⟩

theorem ledger_inFlight {d : Delivery} (hd : r.inFlight? = some d) {call : Call}
    (hscope : call.scope = d.call.scope) :
    r.ledger = ⟨r.past.map (·.call.scope), some call.scope⟩ := by
  simp [ledger, hd, hscope]

theorem close_ledger (r : Reporter) (d : Delivery) (outcome : DeliveryEnd) (now : Nat) :
    (r.close d outcome now).ledger =
      ⟨r.past.map (·.call.scope) ++ [d.call.scope.release], none⟩ := by
  simp [ledger, close, inFlight?, Call.release]

theorem announce_ledger {d : Delivery} (hd : r.inFlight? = some d) {call : Call}
    (hscope : call.scope = d.call.scope) (cause : Failure) (e : Emission)
    (looked : Progress Emitted × Sink) (now : Nat) (budget : Duration) (desk : Desk) :
    let x := r.announce { d with call } cause e looked now desk
    Ledger.Move now budget r.ledger x.1.ledger ∧ x.1.interval = r.interval := by
  rw [ledger_inFlight hd hscope]
  obtain ⟨_ | emitted, sink⟩ := looked
  · exact ⟨.rest _, rfl⟩
  · refine ⟨?_, rfl⟩
    simp only [announce, close_ledger]
    exact .closes _ _

/-- What a move of the reporter does to its scopes. -/
theorem Move.ledger (hm : Move t (r, desk) x) :
    Ledger.Move t.now r.interval r.ledger x.1.ledger ∧ x.1.interval = r.interval := by
  cases hm with
  | take hst =>
    have hledger : r.ledger = ⟨r.past.map (·.call.scope), none⟩ := by
      simp [Reporter.ledger, inFlight?, hst]
    rw [hledger]
    exact ⟨.opens _, rfl⟩
  | wait => exact ⟨.rest _, rfl⟩
  | leave hst =>
    have hledger : r.done.ledger = r.ledger := by simp [Reporter.ledger, done, inFlight?, hst]
    refine ⟨?_, rfl⟩
    simp only [hledger]
    exact .rest _
  | linger hst hl =>
    rw [ledger_inFlight (by simp [inFlight?, hst]) (Call.look_scope hl)]
    exact ⟨.rest _, rfl⟩
  | succeed hst hl =>
    rw [ledger_inFlight (by simp [inFlight?, hst]) (Call.look_scope hl), close_ledger]
    exact ⟨.closes _ _, rfl⟩
  | interrupt hst hl =>
    rw [ledger_inFlight (by simp [inFlight?, hst]) (Call.look_scope hl), close_ledger]
    exact ⟨.closes _ _, rfl⟩
  | fail hst hl => exact announce_ledger (by simp [inFlight?, hst]) (Call.look_scope hl) ..
  | announce hst =>
    rename_i d cause e
    exact announce_ledger (d := d) (by simp [inFlight?, hst]) rfl ..

end Reporter

/-! ## Runs and calls of a session -/

namespace Run

def ledger (run : Run) : Side → Ledger
  | .poller => run.poller.ledger
  | .reporter => run.reporter.ledger

/-- A run with this interval and with `J` of the scopes of its sides. -/
structure Ledgers (interval : Duration) (J : Side → Ledger → Prop) (run : Run) : Prop where
  poller : run.poller.interval = interval
  reporter : run.reporter.interval = interval
  ledger : ∀ side, J side (run.ledger side)

variable {crew : Crew} {m : Moment} {interval : Duration} {J : Side → Ledger → Prop}

theorem ledger_start (config : SessionConfig) (crew : Crew) (id : SessionId) (side : Side) :
    (start config crew id).ledger side = .empty := by
  cases side <;> rfl

theorem ledgers_start (config : SessionConfig) (crew : Crew) (id : SessionId)
    (hJ : ∀ side, J side .empty) : (start config crew id).Ledgers config.interval J :=
  ⟨rfl, rfl, fun side => ledger_start config crew id side ▸ hJ side⟩

/-- **What the moves of a ledger keep, turns keep.** -/
theorem keeps_ledger (crew : Crew)
    (hJ : ∀ side l l', J side l → Ledger.Move m.now interval l l' → J side l') :
    Keeps crew m (Ledgers interval J) where
  poller s run₀ run x h _ hm := by
    obtain ⟨hledger, hinterval⟩ := hm.ledger
    rw [h.poller] at hledger hinterval
    refine ⟨hinterval, h.reporter, fun side => ?_⟩
    cases side with
    | poller => exact hJ _ _ _ (h.ledger .poller) hledger
    | reporter => exact h.ledger .reporter
  reporter s run₀ run sink journal x h _ _ hm := by
    obtain ⟨hledger, hinterval⟩ := hm.ledger
    rw [h.reporter] at hledger hinterval
    refine ⟨h.poller, hinterval, fun side => ?_⟩
    cases side with
    | poller => exact h.ledger .poller
    | reporter => exact hJ _ _ _ (h.ledger .reporter) hledger
  closing run h _ _ := ⟨h.poller, h.reporter, fun side => by cases side <;> exact h.ledger _⟩
  turn run activity h _ _ _ :=
    ⟨h.poller, h.reporter, fun side => by cases side <;> exact h.ledger _⟩

end Run

end HealthRelay
