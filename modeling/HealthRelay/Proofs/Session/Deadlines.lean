import HealthRelay.Proofs.Config
import HealthRelay.Proofs.Session.Backpressure
import HealthRelay.Proofs.Session.Life
import HealthRelay.Proofs.Session.Looks
import HealthRelay.Proofs.Session.Tokens
import Mathlib.Data.List.Induction

/-!
# Deadline scopes over a session

A turn consists of moves, and between two of them the call is in one of the states of `Midway`.
`Turned` is what the turn has done to the scopes of the call by then. A `Wiring` is a call with the
tree of its tokens, and `Scoped` says all that holds of the two of them in every such state: what a
scope is given, when it is released, who cancels whom, and how many scopes are open.
-/

namespace HealthRelay

namespace Run

variable {crew : Crew} {m : Moment} {interval : Duration}

/-- What the moves of a turn make of the scopes of a call. -/
def Since (now : Nat) (interval : Duration) (c : Scene) (run : Run) : Prop :=
  run.Ledgers interval (fun side => Ledger.Moves now interval (c.ledger side)) ∧
    (c.isClosing = true → run.isClosing = true)

theorem keeps_closing (crew : Crew) (m : Moment) (closing : Bool) :
    Keeps crew m fun run => closing = true → run.isClosing = true where
  poller _ _ _ _ h _ _ := h
  reporter _ _ _ _ _ _ h _ _ _ := h
  closing _ _ _ _ _ := rfl
  turn _ _ h _ _ _ := h

theorem keeps_since (crew : Crew) (m : Moment) (interval : Duration) (c : Scene) :
    Keeps crew m (Since m.now interval c) :=
  (keeps_ledger crew fun _ _ _ h hm => h.tail hm).and (keeps_closing crew m c.isClosing)

/-- A run whose scopes are kept, given whether the caller's token has fired. -/
def Tidy (interval : Duration) (fired : Prop) (run : Run) : Prop :=
  run.Sound fired ∧ run.Ledgers interval fun _ => Ledger.Kept interval

theorem tidy_start (config : SessionConfig) (crew : Crew) (id : SessionId) (fired : Prop) :
    (start config crew id).Tidy config.interval fired :=
  ⟨sound_start config crew id, ledgers_start config crew id fun _ => Ledger.kept_empty _⟩

theorem keeps_tidy (crew : Crew) {fired : Prop} (hf : m.isShutdown = true → fired)
    (hexpiry : Scope.expiry m.now interval = m.now + interval.nanos) :
    Keeps crew m (Tidy interval fired) :=
  (keeps_sound crew hf).and (keeps_ledger crew fun _ _ _ h hm => hm.kept h hexpiry)

/-- Once a run is closing neither side has a scope any more. -/
theorem Sound.current {fired : Prop} {run : Run} (hs : run.Sound fired)
    (hover : run.reporter.isOver = true) (side : Side) : (run.ledger side).current = none := by
  cases side with
  | poller => simp [ledger, Poller.ledger, Poller.inFlight?_of_over (hs.left hover)]
  | reporter => simp [ledger, Reporter.ledger, Reporter.inFlight?_of_over hover]

end Run

namespace Scene

variable {crew : Crew} {c c' : Scene} {m : Moment} {fired : Prop}

/-! ## Turns -/

/-- What a turn, or a part of one, does to the scopes of a call. -/
structure Turned (now : Nat) (interval : Duration) (c c' : Scene) : Prop where
  run : c.run?.isSome = true → c'.run?.isSome = true
  closing : c.isClosing = true → c'.isClosing = true
  ledger : ∀ side, Ledger.Moves now interval (c.ledger side) (c'.ledger side)

theorem Turned.grows {now : Nat} (ht : Turned now interval c c') : c.Grows c' where
  run := ht.run
  closing := ht.closing
  scopes side := (ht.ledger side).scopes_length_le
  past side := (ht.ledger side).past_length_le

theorem turned_self (now : Nat) (interval : Duration) {c c' : Scene} (hr : c'.run? = c.run?) :
    Turned now interval c c' := by
  have hledger : c'.ledger = c.ledger := by
    unfold ledger
    rw [hr]
  refine ⟨fun h => hr ▸ h, fun h => ?_, fun side => ?_⟩
  · unfold isClosing
    rw [hr]
    exact h
  · rw [hledger]

theorem Stands.turned_of_since (hst' : c'.Stands (Run.Since m.now interval c))
    (hrun : c.run?.isSome = true → c'.run?.isSome = true) : Turned m.now interval c c' := by
  cases hr : c'.run? with
  | none =>
    refine turned_self _ _ (hr.trans (Eq.symm ?_))
    rw [← Option.not_isSome_iff_eq_none]
    intro h
    simpa [hr] using hrun h
  | some run =>
    obtain ⟨-, -, -, -, -, hledgers, hclosing⟩ := hst'.launched_of_run? hr
    refine ⟨hrun, fun h => ?_, fun side => ?_⟩
    · simpa [isClosing, hr] using hclosing h
    · rw [ledger_some hr]
      exact hledgers.ledger side

/-- The run of a call with the interval of its session has only done what moves do. -/
theorem since_self (hst : c.Stands (Run.Tidy c.before.config.interval fired)) {run : Run}
    (hr : c.run? = some run) (now : Nat) : run.Since now c.before.config.interval c := by
  obtain ⟨-, -, -, -, -, -, hledgers⟩ := hst.launched_of_run? hr
  refine ⟨⟨hledgers.poller, hledgers.reporter, fun side => ?_⟩, fun h => ?_⟩
  · rw [ledger_some hr]
  · simpa [isClosing, hr] using h

/-- The scopes of a call of a session are those of its calls of collaborators. -/
theorem ledger_calls (c : Scene) :
    (c.ledger .poller).scopes = c.calls.map (·.scope) ∧
      (c.ledger .poller).past = c.probesOver.map (·.scope) ∧
      (c.ledger .reporter).scopes = c.deliveries.map (·.call.scope) ∧
      (c.ledger .reporter).past = c.deliveriesOver.map (·.call.scope) := by
  cases hr : c.run? with
  | none =>
    rw [ledger_none hr, ledger_none hr]
    simp [calls, probesOver, deliveries, deliveriesOver, hr, Ledger.empty, Ledger.scopes]
  | some run =>
    rw [ledger_some hr, ledger_some hr]
    simp [calls, probesOver, deliveries, deliveriesOver, hr, Run.ledger, Poller.ledger,
      Reporter.ledger, Ledger.scopes, Poller.calls, Reporter.deliveries, Option.toList_map]

/-- The owner of the other end of the sink does nothing to the run. -/
theorem run?_apply_of_none (crew : Crew) {t : SceneTurn} (hm : t.moment? = none) :
    (c.apply crew t).run? = c.run? := by
  cases t with
  | sink sink => rfl
  | session m => cases hm
  | poller m => cases hm

/-! ## In the middle of a turn -/

/-- A run that is on is not over. -/
theorem Stands.activity {I : Run → Prop} (hst : c.Stands I) {a : Attempt} {run : Run}
    (hs : c.desk.session.stage = .running a run) : run.activity ≠ .over := by
  cases hst with
  | ahead _ hidle hs' => simp [hs', hidle] at hs
  | refusing _ _ hs' => simp [hs'] at hs
  | refused _ _ hs' => simp [hs'] at hs
  | launched hopen hid hs' hi =>
    rename_i m' run₀ n
    by_cases hover : run₀.activity = .over
    · simp [hs', Session.put_over hover] at hs
    · rw [hs', Session.put_on hover] at hs
      cases hs
      exact hover

theorem Stands.put {I J : Run → Prop} (hst : c.Stands I) {a : Attempt} {run run' : Run}
    (hs : c.desk.session.stage = .running a run) {d : SessionDesk} {n : Nat}
    (hd : d.session = c.desk.session.put a run' n)
    (hi : I run → J run' ∧ run'.sessionId = run.sessionId) : { c with desk := d }.Stands J := by
  cases hst with
  | ahead _ hidle hs' => simp [hs', hidle] at hs
  | refusing _ _ hs' => simp [hs'] at hs
  | refused _ _ hs' => simp [hs'] at hs
  | launched hopen hid hs' hi' =>
    rename_i m' run₀ n'
    by_cases hover : run₀.activity = .over
    · simp [hs', Session.put_over hover] at hs
    · rw [Session.put_on hover] at hs'
      rw [hs'] at hs hd
      cases hs
      obtain ⟨hj, hsession⟩ := hi hi'
      exact .launched hopen (hid.trans (congrArg _ hsession.symm)) hd hj

theorem Stands.refuse {I : Run → Prop} (hst : c.Stands I) {a : Attempt} {e : Emission}
    (hs : c.desk.session.stage = .refusing a e) (looked : Progress Emitted × Sink) (now : Nat) :
    { c with desk := c.desk.refuse a e looked now }.Stands I := by
  cases hst with
  | ahead _ hidle hs' => simp [hs', hidle] at hs
  | refused _ _ hs' => simp [hs'] at hs
  | refusing hopen hid hs' =>
    rw [hs'] at hs
    cases hs
    exact stands_refuse hopen hid hs' _ _ _
  | launched hopen hid hs' hi =>
    rename_i m' run n
    by_cases hover : run.activity = .over
    · simp [hs', Session.put_over hover] at hs
    · simp [hs', Session.put_on hover] at hs

/-- **A move keeps what every move keeps.** -/
theorem Stands.move {I : Run → Prop} (hst : c.Stands I) (hk : Run.Keeps crew m I)
    {l : Option Look} {d : SessionDesk} (hm : SessionDesk.Move crew m c.desk l d) :
    { c with desk := d }.Stands I := by
  cases hm with
  | refuse hs => exact hst.refuse hs _ _
  | report hs ha hmove =>
    rename_i a run x
    have hon : (run.afterReporter x).activity ≠ .over := by simp [Run.afterReporter, ha]
    exact hst.put hs (Session.put_on hon _ _ m.now).symm fun hi =>
      ⟨hk.reporter _ _ _ _ _ _ hi ha rfl hmove, rfl⟩
  | close hs ha hover =>
    rename_i a run
    have hon : run.closing.activity ≠ .over := by simp [Run.closing]
    exact hst.put hs (Session.put_on hon _ _ m.now).symm fun hi => ⟨hk.closing run hi ha hover, rfl⟩
  | finish hs ha hp =>
    exact hst.put hs (SessionDesk.finish_session ..) fun hi =>
      ⟨hk.turn _ .over hi (by simp [ha]) (by simp) fun _ _ => by simp [Poller.isOver, hp], rfl⟩
  | alarm hs ha hp =>
    rename_i a run message
    obtain ⟨activity, hsession, hne, hover⟩ := c.desk.join_session a run m
    exact hst.put hs hsession fun hi =>
      ⟨hk.turn run activity hi (by simp [ha]) hne fun _ => hover.mp, rfl⟩
  | mourn hs ha =>
    refine hst.put hs (SessionDesk.mourn_session ..) fun hi =>
      ⟨hk.turn _ _ hi (by simp [ha]) ?_ (by simp [ha]), rfl⟩
    split <;> simp
  | poll hs hc hmove =>
    rename_i a run run₀ x
    have hon : (run.afterPoller x).activity ≠ .over :=
      show run.activity ≠ .over from hst.activity hs
    exact hst.put hs (Session.put_on hon _ _ m.now).symm fun hi =>
      ⟨hk.poller _ _ _ _ hi hc hmove, rfl⟩

/-- So do the moves of a turn, as far as it has come. -/
theorem Stands.moves {I : Run → Prop} (hst : c.Stands I) (hk : Run.Keeps crew m I)
    {ls : List Look} {d : SessionDesk} (hm : Looked (SessionDesk.Move crew m) c.desk ls d) :
    { c with desk := d }.Stands I :=
  (hm.refine (P := fun d => { c with desk := d }.Stands I) hst
    fun _ _ _ hd hmove => ⟨hd.move hk hmove, hmove⟩).1

/-- The states of a call in a turn, from its first move to its last. A turn may open the call. -/
inductive Midway (crew : Crew) (m : Moment) (c : Scene) : Scene → Prop where
  | opened {l : Option Look} {d d' : SessionDesk} {ls : List Look} (hopen : c.opening = none)
      (ho : SessionDesk.Opens crew m c.desk l d) (hm : Looked (SessionDesk.Move crew m) d ls d') :
      Midway crew m c { c with opening := some m, desk := d' }
  | further {ls : List Look} {d' : SessionDesk}
      (hm : Looked (SessionDesk.Move crew m) c.desk ls d') : Midway crew m c { c with desk := d' }

/-- **A turn passes through such states only.** -/
theorem midway_apply (crew : Crew) (c : Scene) {t : SceneTurn} (ht : t.moment? = some m) :
    c.Midway crew m (c.apply crew t) := by
  cases t with
  | sink sink => cases ht
  | poller m' =>
    cases ht
    exact .further (c.desk.pollPoller_looked crew m)
  | session m' =>
    cases ht
    cases hopen : c.opening with
    | none =>
      obtain ⟨l, d, ls, ho, hm⟩ := c.desk.begin_looked crew m
      rw [apply_session_first hopen]
      exact .opened hopen ho hm
    | some m' =>
      obtain ⟨ls, hm⟩ := c.desk.poll_looked crew m
      rw [apply_session hopen]
      exact .further hm

theorem Stands.opens {I : Run → Prop} (hst : c.Stands I) (hk : Run.Keeps crew m I)
    (hopen : c.opening = none) (hi : ∀ id, I (.start c.before.config crew id)) {l : Option Look}
    {d : SessionDesk} (ho : SessionDesk.Opens crew m c.desk l d) :
    { c with opening := some m, desk := d }.Stands I := by
  have hs : c.desk.session = c.before := by
    cases hst with
    | ahead _ _ hs => exact hs
    | refusing hopen' | refused hopen' | launched hopen' => cases hopen.symm.trans hopen'
  cases ho with
  | refuse => exact stands_begin hk hs hi
  | launch hid =>
    rename_i id
    have hid' : m.identity c.before.past.length =
        .ok (Run.start c.before.config crew id).sessionId := hs ▸ hid
    refine .launched (n := m.now) rfl hid' ?_ (hi id)
    rw [Session.put_on (by simp [Run.start])]
    simp [SessionDesk.launch, SessionDesk.withRun, SessionDesk.tell, hs, attempt, hid', Run.start,
      Except.toOption]

theorem Stands.midway {I : Run → Prop} (hst : c.Stands I) (hk : Run.Keeps crew m I)
    (hi : c.opening = none → ∀ id, I (.start c.before.config crew id))
    (hm : c.Midway crew m c') : c'.Stands I := by
  cases hm with
  | opened hopen ho hm => exact (hst.opens hk hopen (hi hopen) ho).moves hk hm
  | further hm => exact hst.moves hk hm

theorem Stands.turned_midway (hst : c.Stands (Run.Tidy c.before.config.interval fired))
    (hm : c.Midway crew m c') : Turned m.now c.before.config.interval c c' := by
  have hnow : c.Stands (Run.Since m.now c.before.config.interval c) :=
    hst.of_run? fun run hr _ => since_self hst hr m.now
  have hst' : c'.Stands (Run.Since m.now c.before.config.interval c) := by
    refine hnow.midway (Run.keeps_since crew m _ c) (fun hopen id => ?_) hm
    have hr : c.run? = none := hst.run?_eq_none hopen
    refine ⟨Run.ledgers_start _ _ _ fun side => ?_, fun h => ?_⟩
    · rw [ledger_none hr]
    · simp [isClosing, hr] at h
  refine hst'.turned_of_since fun h => ?_
  obtain ⟨run, hr⟩ := Option.isSome_iff_exists.mp h
  have hbefore : c'.before = c.before := by cases hm <;> rfl
  have hopening : ∀ m', c.opening = some m' → c'.opening = some m' := fun m' hopen' => by
    cases hm with
    | opened hopen => cases hopen.symm.trans hopen'
    | further => exact hopen'
  obtain ⟨run', hr', -⟩ := hnow.run?_later hst' hbefore hopening hr
  exact Option.isSome_iff_exists.mpr ⟨run', hr'⟩

/-- **A turn makes moves.** -/
theorem Stands.turned (hst : c.Stands (Run.Tidy c.before.config.interval fired)) (crew : Crew)
    {t : SceneTurn} (ht : t.moment? = some m) :
    Turned m.now c.before.config.interval c (c.apply crew t) :=
  hst.turned_midway (midway_apply crew c ht)

end Scene

/-! ## Calls with their tokens -/

/-- The tokens once the caller's has fired, if it has. -/
def TokenTree.heed (ts : TokenTree Holder) (fires : Bool) : TokenTree Holder :=
  if fires then ts.fire .caller else ts

/-- A call of a session with the tokens that are given out in it. -/
structure Wiring where
  scene : Scene
  tokens : TokenTree Holder

namespace Wiring

variable {crew : Crew} {w : Wiring} {c' : Scene} {m : Moment} {fired : Bool} {interval : Duration}

def start (d : SessionDesk) : Wiring := ⟨.start d, TokenTree.add [] .caller none⟩

/-- The call has become another, and before that the caller's token may have fired. -/
def advance (w : Wiring) (fires : Bool) (c' : Scene) : Wiring :=
  ⟨c', w.scene.follow c' (w.tokens.heed fires)⟩

def apply (crew : Crew) (w : Wiring) (t : SceneTurn) : Wiring :=
  w.advance t.fires (w.scene.apply crew t)

def play (crew : Crew) (w : Wiring) (tape : List SceneTurn) : Wiring := tape.foldl (apply crew) w

/-- The tokens if the session goes away in the middle of its calls, as it does when a delivery
panics: the scopes that are open are released. -/
def dropped (w : Wiring) : TokenTree Holder :=
  (w.tokens.fire (.scope .poller (w.scene.ledger .poller).past.length)).fire
    (.scope .reporter (w.scene.ledger .reporter).past.length)

/-- What holds of the scopes of a call and of their tokens. -/
structure Scoped (interval : Duration) (fired : Prop) (w : Wiring) : Prop where
  /-- There is a scope for each probe call and for each deliver call. -/
  calls : (w.scene.ledger .poller).scopes = w.scene.calls.map (·.scope) ∧
    (w.scene.ledger .poller).past = w.scene.probesOver.map (·.scope) ∧
    (w.scene.ledger .reporter).scopes = w.scene.deliveries.map (·.call.scope) ∧
    (w.scene.ledger .reporter).past = w.scene.deliveriesOver.map (·.call.scope)
  /-- It lasts for the interval. -/
  fits : ∀ (side : Side) (n : Nat) (s : Scope), (w.scene.ledger side).scopes[n]? = some s →
    s.budget = interval ∧ s.expiresAt = s.openedAt + interval.nanos
  /-- It is released once the call is over, and no sooner. -/
  released : ∀ (side : Side) (n : Nat) (s : Scope), (w.scene.ledger side).scopes[n]? = some s →
    (s.isReleased = true ↔ n < (w.scene.ledger side).past.length)
  /-- It has a token of its own, a child of the session's, which fires on its release. -/
  own : ∀ (side : Side) (n : Nat) (s : Scope), (w.scene.ledger side).scopes[n]? = some s →
    w.tokens.token? (.scope side n) = some ⟨.scope side n, some .session, s.isReleased⟩
  /-- The session's token is a child of the caller's, and fires when the session closes. -/
  session : ∀ run, w.scene.run? = some run →
    w.tokens.token? .session = some ⟨.session, some .caller, run.isClosing⟩
  caller : w.tokens.isCancelled .caller = true ↔ fired
  cancelled : ∀ run, w.scene.run? = some run →
    (w.tokens.isCancelled .session = true ↔ run.isClosing = true ∨ fired)
  /-- While a call runs, its token is cancelled only with the session's. -/
  running : ∀ (side : Side) (s : Scope), (w.scene.ledger side).current = some s →
    w.tokens.isCancelled (.scope side (w.scene.ledger side).past.length) =
      w.tokens.isCancelled .session
  /-- Once it is over, its token is cancelled. -/
  ended : ∀ (side : Side) (n : Nat), n < (w.scene.ledger side).past.length →
    w.tokens.isCancelled (.scope side n) = true
  /-- What a look at a call makes of its scope is what the tokens say. -/
  looks : ∀ (m : Moment) (run : Run) (side : Side) (n : Nat) (s : Scope),
    w.scene.run? = some run → (w.scene.ledger side).scopes[n]? = some s →
    (fired → m.isShutdown = true) →
    s.isCancelled (run.isCancelled m.isShutdown) =
      (w.tokens.heed m.isShutdown).isCancelled (.scope side n)
  /-- A scope that is opened now would cancel nobody. -/
  opening : ∀ (side : Side) (h : Holder), h ≠ .scope side (w.scene.ledger side).scopes.length →
    (w.tokens.add (.scope side (w.scene.ledger side).scopes.length) (some .session)).isCancelled h =
      w.tokens.isCancelled h
  /-- A scope that is released now would cancel nobody else. -/
  releasing : ∀ (side : Side) (n : Nat) (h : Holder), h ≠ .scope side n →
    (w.tokens.fire (.scope side n)).isCancelled h = w.tokens.isCancelled h
  /-- Nor does the session close before its scopes are released. -/
  closing : ∀ run, w.scene.run? = some run → run.isClosing = true →
    ∀ side, (w.scene.ledger side).live = []
  /-- Two scopes are open at most, -/
  two : (w.scene.ledger .poller).live.length + (w.scene.ledger .reporter).live.length ≤ 2
  /-- and none when the call has come to its end. -/
  terminated : w.scene.isOver = true → ∀ side, (w.scene.ledger side).live = []
  /-- If the session goes away, its scopes are released all the same, and they cancel nobody. -/
  drop : (∀ (side : Side) (n : Nat), n < (w.scene.ledger side).scopes.length →
      w.dropped.isCancelled (.scope side n) = true) ∧
    w.dropped.isCancelled .session = w.tokens.isCancelled .session ∧
    w.dropped.isCancelled .caller = w.tokens.isCancelled .caller

/-! ## What the tokens of a call say -/

theorem shows_heed {c : Scene} {ts : TokenTree Holder} (hs : c.Shows fired ts) (fires : Bool) :
    c.Shows (fired || fires) (ts.heed fires) := by
  cases fires with
  | true =>
    rw [Bool.or_true]
    exact hs.fire_caller
  | false =>
    rw [Bool.or_false]
    exact hs

theorem shows_advance (hs : w.scene.Shows fired w.tokens) (hg : w.scene.Grows c') (fires : Bool) :
    c'.Shows (fired || fires) (w.advance fires c').tokens :=
  (shows_heed hs fires).follow hg

theorem shows_start {d : SessionDesk} (hd : d.session.stage = .idle) :
    (start d).scene.Shows false (start d).tokens := by
  have hstands : (Scene.start d).Stands fun _ => True := Scene.stands_start hd
  have hr : (Scene.start d).run? = none := hstands.run?_eq_none rfl
  refine ⟨TokenTree.isRooted_root _, fun h => ?_⟩
  cases h <;> simp [start, TokenTree.add, TokenTree.token?, Scene.token?, Scene.ledger, hr]

variable {P : Prop}

theorem kept_ledger (hst : w.scene.Stands (Run.Tidy interval P)) (side : Side) :
    (w.scene.ledger side).Kept interval := by
  cases hr : w.scene.run? with
  | none => exact Scene.ledger_none hr side ▸ Ledger.kept_empty interval
  | some run =>
    obtain ⟨-, -, -, -, -, -, hledgers⟩ := hst.launched_of_run? hr
    exact Scene.ledger_some hr side ▸ hledgers.ledger side

/-- Once the reporter is done, no scope is open. -/
theorem live_of_over (hst : w.scene.Stands (Run.Tidy interval P)) {run : Run}
    (hr : w.scene.run? = some run) (hover : run.reporter.isOver = true) (side : Side) :
    (w.scene.ledger side).live = [] := by
  obtain ⟨-, -, -, -, -, hsound, -⟩ := hst.launched_of_run? hr
  rw [(kept_ledger hst side).live_eq, Scene.ledger_some hr, hsound.current hover]
  rfl

theorem live_of_isOver (hst : w.scene.Stands (Run.Tidy interval P)) (hover : w.scene.isOver = true)
    (side : Side) : (w.scene.ledger side).live = [] := by
  cases hr : w.scene.run? with
  | none =>
    rw [Scene.ledger_none hr]
    rfl
  | some run =>
    obtain ⟨m, n, hopen, -, hs, hsound, -⟩ := hst.launched_of_run? hr
    have ha := (Scene.isOver_put hopen hs).mp hover
    exact live_of_over hst hr (hsound.turned (by simp [ha])) side

/-- A look at a call makes of its scope what the tokens say. -/
theorem looks_agree (hst : w.scene.Stands (Run.Tidy interval P))
    (hs : w.scene.Shows fired w.tokens) {run : Run} (hr : w.scene.run? = some run) {side : Side}
    {n : Nat} {s : Scope} (hscope : (w.scene.ledger side).scopes[n]? = some s) {shutdown : Bool}
    (hfired : fired = true → shutdown = true) : s.isCancelled (run.isCancelled shutdown) =
      (w.tokens.heed shutdown).isCancelled (.scope side n) := by
  have hn := (List.getElem?_eq_some_iff.mp hscope).1
  have hreleased : s.isReleased = decide (n < (w.scene.ledger side).past.length) := by
    rw [Bool.eq_iff_iff, (kept_ledger hst side).isReleased_iff hscope, decide_eq_true_iff]
  have hshows := shows_heed hs shutdown
  have hshutdown : (fired || shutdown) = shutdown := by
    cases hf : fired with
    | true => rw [hfired hf, Bool.or_true]
    | false => rw [Bool.false_or]
  rw [hshows.isCancelled_scope hn, hshows.isCancelled_session hr, hshutdown, Scope.isCancelled,
    Run.isCancelled, hreleased, Bool.or_comm shutdown]

/-- If the session goes away, every scope that it has opened is released. -/
theorem dropped_scope (hs : w.scene.Shows fired w.tokens) {side : Side} {n : Nat}
    (hn : n < (w.scene.ledger side).scopes.length) :
    w.dropped.isCancelled (.scope side n) = true := by
  have hrooted := (hs.isRooted.fire (.scope .poller (w.scene.ledger .poller).past.length)).fire
    (.scope .reporter (w.scene.ledger .reporter).past.length)
  have hfired : ∃ t, w.dropped.token? (.scope side n) = some t ∧ t.hasFired = true := by
    rw [dropped, TokenTree.token?_fire, TokenTree.token?_fire, hs.token_scope hn]
    by_cases hpast : n < (w.scene.ledger side).past.length
    · rw [decide_eq_true hpast]
      split
      · split <;> exact ⟨_, rfl, rfl⟩
      · split <;> exact ⟨_, rfl, rfl⟩
    · -- the call that is on
      have hlast : (w.scene.ledger side).past.length = n := by
        have hle := (w.scene.ledger side).scopes_length_le
        omega
      cases side with
      | poller => simp [hlast]
      | reporter => simp [hlast]
  obtain ⟨t, ht, hf⟩ := hfired
  exact TokenTree.isCancelled_of_hasFired hrooted ht hf

theorem dropped_beside (hs : w.scene.Shows fired w.tokens) {h : Holder}
    (hh : ∀ side n, h ≠ .scope side n) : w.dropped.isCancelled h = w.tokens.isCancelled h := by
  have hpoller := hs.isLeaf .poller (w.scene.ledger .poller).past.length
  have hreporter := hs.isLeaf .reporter (w.scene.ledger .reporter).past.length
  rw [dropped, TokenTree.isCancelled_fire_of_leaf (hs.isRooted.fire _) (hreporter.fire _) (hh _ _),
    TokenTree.isCancelled_fire_of_leaf hs.isRooted hpoller (hh _ _)]

theorem scoped_of_shows (hP : fired = true ↔ P) (hst : w.scene.Stands (Run.Tidy interval P))
    (hs : w.scene.Shows fired w.tokens) : w.Scoped interval P where
  calls := w.scene.ledger_calls
  fits side n s h := (kept_ledger hst side).fits s (List.mem_of_getElem? h)
  released side n s h := (kept_ledger hst side).isReleased_iff h
  own side n s h := by
    have hreleased : s.isReleased = decide (n < (w.scene.ledger side).past.length) := by
      rw [Bool.eq_iff_iff, (kept_ledger hst side).isReleased_iff h, decide_eq_true_iff]
    rw [hs.token_scope (List.getElem?_eq_some_iff.mp h).1, hreleased]
  session run hr := ((Scene.shows_iff hr).mp hs).session
  caller := by rw [hs.isCancelled_caller, hP]
  cancelled run hr := by rw [hs.isCancelled_session hr, Bool.or_eq_true, hP]
  running side s h := by
    have hn : (w.scene.ledger side).past.length < (w.scene.ledger side).scopes.length := by
      simp [Ledger.scopes, h]
    rw [hs.isCancelled_scope hn, decide_eq_false (Nat.lt_irrefl _), Bool.false_or]
  ended side n hn := by
    have hle := (w.scene.ledger side).past_length_le
    rw [hs.isCancelled_scope (by omega), decide_eq_true hn, Bool.true_or]
  looks m run side n s hr h hm := looks_agree hst hs hr h fun hf => hm (hP.mp hf)
  opening side h hne := by
    rw [TokenTree.add, TokenTree.isCancelled, if_neg (Ne.symm hne)]
  releasing side n h hne :=
    TokenTree.isCancelled_fire_of_leaf hs.isRooted (hs.isLeaf side n) hne
  closing run hr hclosing side := by
    obtain ⟨-, -, -, -, -, hsound, -⟩ := hst.launched_of_run? hr
    exact live_of_over hst hr (hsound.closing hclosing) side
  two := by
    rw [(kept_ledger hst .poller).live_eq, (kept_ledger hst .reporter).live_eq]
    have hpoller := Option.length_toList_le (o := (w.scene.ledger .poller).current)
    have hreporter := Option.length_toList_le (o := (w.scene.ledger .reporter).current)
    omega
  terminated hover := live_of_isOver hst hover
  drop := ⟨fun side n hn => dropped_scope hs hn, dropped_beside hs (by simp),
    dropped_beside hs (by simp)⟩

/-! ## Over a tape -/

theorem play_scene (crew : Crew) (w : Wiring) (tape : List SceneTurn) :
    (w.play crew tape).scene = w.scene.play crew tape := by
  induction tape generalizing w with
  | nil => rfl
  | cons t tape ih => exact ih (w.apply crew t)

theorem play_concat (crew : Crew) (w : Wiring) (tape : List SceneTurn) (t : SceneTurn) :
    w.play crew (tape ++ [t]) = (w.play crew tape).apply crew t := by
  simp [play]

theorem grows_apply {c : Scene} (hst : c.Stands (Run.Tidy c.before.config.interval P))
    (crew : Crew) (t : SceneTurn) : c.Grows (c.apply crew t) := by
  cases hm : t.moment? with
  | some m => exact (hst.turned crew hm).grows
  | none =>
    exact (Scene.turned_self 0 c.before.config.interval (Scene.run?_apply_of_none crew hm)).grows

end Wiring

/-- An interval that has passed its check is over before the clock is. -/
theorem Scope.expiry_of_checked {interval : Duration}
    (hi : Config.checkInterval interval = .ok ()) {now : Nat}
    (hclock : now + maxReportingInterval.nanos < clockEnd.nanos) :
    expiry now interval = now + interval.nanos := by
  obtain ⟨-, hle⟩ := Config.checkInterval_eq_ok.mp hi
  exact if_pos (by omega)

namespace Scene

/-- The call of this number begins in a turn of the tape, in this moment. -/
def Opens (crew : Crew) (c : Scene) (tape : List SceneTurn) (side : Side) (n : Nat)
    (m : Moment) : Prop :=
  ∃ early t late, tape = early ++ t :: late ∧ t.moment? = some m ∧
    ((c.play crew early).ledger side).scopes.length ≤ n ∧
    n < ((c.play crew (early ++ [t])).ledger side).scopes.length

variable {crew : Crew} {d : SessionDesk}

theorem Opens.concat {c : Scene} {tape : List SceneTurn} {side : Side} {n : Nat} {m : Moment}
    (h : c.Opens crew tape side n m) (t : SceneTurn) : c.Opens crew (tape ++ [t]) side n m := by
  obtain ⟨early, t', late, rfl, hm, hbefore, hafter⟩ := h
  exact ⟨early, t', late ++ [t], by simp, hm, hbefore, hafter⟩

/-- A tape whose moments leave a day until the end of the clock. -/
def IsClocked (tape : List SceneTurn) : Prop :=
  ∀ t ∈ tape, ∀ m ∈ t.moment?, m.now + maxReportingInterval.nanos < Scope.clockEnd.nanos

instance (tape : List SceneTurn) : Decidable (IsClocked tape) :=
  inferInstanceAs (Decidable (∀ t ∈ tape, ∀ m ∈ t.moment?,
    m.now + maxReportingInterval.nanos < Scope.clockEnd.nanos))

theorem play_concat (crew : Crew) (c : Scene) (tape : List SceneTurn) (t : SceneTurn) :
    c.play crew (tape ++ [t]) = (c.play crew tape).apply crew t := by
  simp [play]

section Tapes

variable (crew) (hd : d.session.stage = .idle)
  (hi : Config.checkInterval d.session.config.interval = .ok ())

include hd hi

theorem stands_tidy {tape : List SceneTurn} (hclock : IsClocked tape) :
    ((start d).play crew tape).Stands (Run.Tidy d.session.config.interval (HasFired tape)) := by
  refine (stands_start hd).play tape (fun t ht m hm => ?_) fun _ id => Run.tidy_start _ crew id _
  exact Run.keeps_tidy crew (fun h => ⟨t, ht, m, hm, h⟩)
    (Scope.expiry_of_checked hi (hclock t ht m hm))

theorem stands_wired {tape : List SceneTurn} (hclock : IsClocked tape) :
    let c := ((Wiring.start d).play crew tape).scene
    c.Stands (Run.Tidy c.before.config.interval (HasFired tape)) := by
  intro c
  have hc : c = (start d).play crew tape := Wiring.play_scene crew (.start d) tape
  have hbefore : c.before = d.session := hc ▸ play_before tape
  rw [hbefore, hc]
  exact stands_tidy crew hd hi hclock

theorem shows_wired {tape : List SceneTurn} (hclock : IsClocked tape) :
    let w := (Wiring.start d).play crew tape
    w.scene.Shows (tape.any (·.fires)) w.tokens := by
  induction tape using List.reverseRec with
  | nil => exact Wiring.shows_start hd
  | append_singleton tape t ih =>
    have hearlier : IsClocked tape := fun t' ht' => hclock t' (List.mem_append_left _ ht')
    have hgrows := Wiring.grows_apply (stands_wired crew hd hi hearlier) crew t
    rw [List.any_append, List.any_cons, List.any_nil, Bool.or_false, Wiring.play_concat]
    exact Wiring.shows_advance (ih hearlier) hgrows t.fires

/-- A scope is opened in the turn in which its call begins. -/
theorem opened_wired {tape : List SceneTurn} (hclock : IsClocked tape) {side : Side} {n : Nat}
    {s : Scope} (hs : (((start d).play crew tape).ledger side).scopes[n]? = some s) :
    ∃ m, (start d).Opens crew tape side n m ∧ s.openedAt = m.now := by
  induction tape using List.reverseRec generalizing s with
  | nil =>
    have hr : (start d).run? = none := (stands_start (I := fun _ => True) hd).run?_eq_none rfl
    change ((start d).ledger side).scopes[n]? = some s at hs
    rw [ledger_none hr] at hs
    simp at hs
  | append_singleton tape t ih =>
    have hearlier : IsClocked tape := fun t' ht' => hclock t' (List.mem_append_left _ ht')
    have hst := stands_tidy crew hd hi hearlier
    have hbefore : ((start d).play crew tape).before = d.session := play_before tape
    rw [← hbefore] at hst
    rw [play_concat] at hs
    cases hm : t.moment? with
    | none =>
      rw [ledger, run?_apply_of_none crew hm] at hs
      obtain ⟨m', hopens, hnow⟩ := ih hearlier hs
      exact ⟨m', hopens.concat t, hnow⟩
    | some m =>
      have hmoves := (hst.turned crew hm).ledger side
      rcases hmoves.openedAt hs with ⟨s₀, hs₀, hopened⟩ | ⟨hn, hnow⟩
      · obtain ⟨m', hopens, hnow⟩ := ih hearlier hs₀
        exact ⟨m', hopens.concat t, hopened ▸ hnow⟩
      · refine ⟨m, ⟨tape, t, [], rfl, hm, hn, ?_⟩, hnow⟩
        rw [play_concat]
        exact (List.getElem?_eq_some_iff.mp hs).1

end Tapes

/-- **Every call of a collaborator has a deadline scope of its own**, in every call of a session,
whoever gets the turns and whenever the token fires. The scope is opened in the turn in which the
call begins, and all that `Scoped` says of it holds after every turn and in the middle of every
turn; what a turn opens, it opens in its own moment. -/
theorem play_scoped (crew : Crew) (hd : d.session.stage = .idle)
    (hi : Config.checkInterval d.session.config.interval = .ok ()) (tape : List SceneTurn)
    (hclock : IsClocked tape) :
    let c := (start d).play crew tape
    let w := (Wiring.start d).play crew tape
    w.scene = c ∧ w.Scoped d.session.config.interval (HasFired tape) ∧
      (∀ (side : Side) (n : Nat) (s : Scope), (c.ledger side).scopes[n]? = some s →
        ∃ m, (start d).Opens crew tape side n m ∧ s.openedAt = m.now) ∧
      ∀ (m : Moment) (c' : Scene), m.now + maxReportingInterval.nanos < Scope.clockEnd.nanos →
        c.Midway crew m c' →
        (w.advance m.isShutdown c').Scoped d.session.config.interval
          (HasFired tape ∨ m.isShutdown = true) ∧
        ∀ (side : Side) (n : Nat) (s : Scope), (c'.ledger side).scopes[n]? = some s →
          (c.ledger side).scopes.length ≤ n → s.openedAt = m.now := by
  intro c w
  have hscene : w.scene = c := Wiring.play_scene crew (.start d) tape
  have hbefore : c.before = d.session := play_before tape
  have hst : c.Stands (Run.Tidy d.session.config.interval (HasFired tape)) :=
    stands_tidy crew hd hi hclock
  have hshows : w.scene.Shows (tape.any (·.fires)) w.tokens := shows_wired crew hd hi hclock
  have hfired : tape.any (·.fires) = true ↔ HasFired tape := (hasFired_iff tape).symm
  refine ⟨hscene, Wiring.scoped_of_shows hfired (hscene ▸ hst) hshows,
    fun side n s hs => opened_wired crew hd hi hclock hs, fun m c' hnow hm => ?_⟩
  have hkeeps : Run.Keeps crew m (Run.Tidy d.session.config.interval
      (HasFired tape ∨ m.isShutdown = true)) :=
    Run.keeps_tidy crew .inr (Scope.expiry_of_checked hi hnow)
  have hlater : c.Stands (Run.Tidy d.session.config.interval
      (HasFired tape ∨ m.isShutdown = true)) :=
    hst.imp fun run h => ⟨h.1.mono .inl, h.2⟩
  have hst' := hlater.midway hkeeps (fun _ id => hbefore ▸ Run.tidy_start _ crew id _) hm
  rw [← hbefore] at hst
  have hturned : Turned m.now c.before.config.interval c c' := hst.turned_midway hm
  have hgrows : w.scene.Grows c' := by
    rw [hscene]
    exact hturned.grows
  refine ⟨Wiring.scoped_of_shows ?_ hst' (Wiring.shows_advance hshows hgrows _),
    fun side n s hs hn => ?_⟩
  · rw [Bool.or_eq_true, hfired]
  · rcases (hturned.ledger side).openedAt hs with ⟨s₀, hs₀, -⟩ | ⟨-, hopened⟩
    · have hlt := (List.getElem?_eq_some_iff.mp hs₀).1
      omega
    · exact hopened

/-- A moment in which only the first probe is answered. -/
def busyMoment (now : Nat) : Moment :=
  { sampleMoment now false with
    probe := fun n => if n = 0 then .ready (.done (.observed "ok" 0)) else .pending
    deliver := fun _ => .pending }

/-- The first sample is being delivered while the second probe is on. -/
def busyTape : List SceneTurn :=
  [.session (busyMoment 0), .poller (busyMoment 0), .session (busyMoment 0),
    .poller (busyMoment 1000000)]

theorem play_scoped_busy :
    let c := (start sampleDesk).play .relay busyTape
    let w := (Wiring.start sampleDesk).play .relay busyTape
    sampleDesk.session.stage = .idle ∧
      Config.checkInterval sampleDesk.session.config.interval = .ok () ∧ IsClocked busyTape ∧
      (c.ledger .poller).live.length + (c.ledger .reporter).live.length = 2 ∧
      w.tokens.cancelled = [.scope .poller 0] ∧
      w.Scoped sampleDesk.session.config.interval (HasFired busyTape) := by
  intro c w
  have hidle : sampleDesk.session.stage = .idle := by decide +kernel
  have hchecked : Config.checkInterval sampleDesk.session.config.interval = .ok () := by
    rfl
  have hclock : IsClocked busyTape := by decide +kernel
  exact ⟨hidle, hchecked, hclock, by decide +kernel, by decide +kernel,
    (play_scoped .relay hidle hchecked busyTape hclock).2.1⟩

/-- A delivery that panics leaves no scope open, and neither the session's token nor the caller's is
cancelled. -/
example : ((Wiring.start sampleDesk).play .relay busyTape).dropped.cancelled =
    [.scope .poller 1, .scope .reporter 0, .scope .poller 0] := by
  decide +kernel

end Scene

end HealthRelay
