import HealthRelay.Proofs.Session.Scopes
import HealthRelay.Proofs.Token

/-!
# The tokens of a call

The tokens that are given out in a call of a session make a tree. The caller's token is its root;
the session's is a child of it, and fires when the session begins to close; every scope has a
child of the session's, which fires when the scope is released. `Scene.follow` adds tokens and fires
tokens as the call goes on. `Shows` says which tokens there are in a state of the call
(`Shows.follow`), and with that, who is cancelled (`Shows.isCancelled_session`,
`Shows.isCancelled_scope`).
-/

namespace HealthRelay

/-- Whether the caller's token fires in a turn. -/
def SceneTurn.fires (t : SceneTurn) : Bool := t.moment?.any (·.isShutdown)

theorem hasFired_iff (tape : List SceneTurn) :
    HasFired tape ↔ tape.any (·.fires) = true := by
  rw [List.any_eq_true]
  unfold HasFired SceneTurn.fires
  simp only [Option.any_eq_true, Option.mem_def]

/-- Who holds a token. -/
inductive Holder where
  | caller
  | session
  /-- The scope of a call of a side, by the number of the call. -/
  | scope (side : Side) (n : Nat)
deriving DecidableEq, Repr

namespace TokenTree

/-- Adds the tokens of so many scopes of a side. -/
def openScopes (side : Side) (first : Nat) : Nat → TokenTree Holder → TokenTree Holder
  | 0, ts => ts
  | count + 1, ts =>
    (openScopes side first count ts).add (.scope side (first + count)) (some .session)

/-- Fires the tokens of so many scopes of a side. -/
def fireScopes (side : Side) (first : Nat) : Nat → TokenTree Holder → TokenTree Holder
  | 0, ts => ts
  | count + 1, ts => (fireScopes side first count ts).fire (.scope side (first + count))

/-- The tokens once the scopes of a side are these. -/
def keepUpSide (side : Side) (l l' : Ledger) (ts : TokenTree Holder) : TokenTree Holder :=
  fireScopes side l.past.length (l'.past.length - l.past.length)
    (openScopes side l.scopes.length (l'.scopes.length - l.scopes.length) ts)

/-- The tokens once the scopes of both sides are these. -/
def keepUp (scopes scopes' : Side → Ledger) (ts : TokenTree Holder) : TokenTree Holder :=
  (ts.keepUpSide .poller (scopes .poller) (scopes' .poller)).keepUpSide .reporter
    (scopes .reporter) (scopes' .reporter)

variable {side other : Side} {opened released : Nat} {ts : TokenTree Holder} {h : Holder}
  {l l' : Ledger}

theorem token?_openScopes (side : Side) (first count : Nat) (ts : TokenTree Holder) (n : Nat) :
    (openScopes side first count ts).token? (.scope side n) =
      if first ≤ n ∧ n < first + count then some ⟨.scope side n, some .session, false⟩
      else ts.token? (.scope side n) := by
  induction count with
  | zero => rw [openScopes, if_neg (by omega)]
  | succ count ih =>
    rw [openScopes, token?_add, ih]
    by_cases hlast : first + count = n
    · subst hlast
      rw [if_pos rfl, if_pos (by omega)]
    · rw [if_neg (by simpa using hlast)]
      by_cases hn : first ≤ n ∧ n < first + count
      · rw [if_pos hn, if_pos (by omega)]
      · rw [if_neg hn, if_neg (by omega)]

theorem token?_fireScopes (side : Side) (first count : Nat) (ts : TokenTree Holder) (n : Nat) :
    (fireScopes side first count ts).token? (.scope side n) =
      if first ≤ n ∧ n < first + count then
        (ts.token? (.scope side n)).map fun t => { t with hasFired := true }
      else ts.token? (.scope side n) := by
  induction count with
  | zero => rw [fireScopes, if_neg (by omega)]
  | succ count ih =>
    rw [fireScopes, token?_fire, ih]
    by_cases hlast : first + count = n
    · subst hlast
      rw [if_pos rfl, if_neg (by omega), if_pos (by omega)]
    · rw [if_neg (by simpa using hlast)]
      by_cases hn : first ≤ n ∧ n < first + count
      · rw [if_pos hn, if_pos (by omega)]
      · rw [if_neg hn, if_neg (by omega)]

theorem token?_openScopes_of_ne (hh : ∀ n, h ≠ .scope side n) (first count : Nat)
    (ts : TokenTree Holder) : (openScopes side first count ts).token? h = ts.token? h := by
  induction count with
  | zero => rfl
  | succ count ih => rw [openScopes, token?_add, if_neg (Ne.symm (hh _)), ih]

theorem token?_fireScopes_of_ne (hh : ∀ n, h ≠ .scope side n) (first count : Nat)
    (ts : TokenTree Holder) : (fireScopes side first count ts).token? h = ts.token? h := by
  induction count with
  | zero => rfl
  | succ count ih => rw [fireScopes, token?_fire, if_neg (Ne.symm (hh _)), ih]

/-- Whatever a side does with its scopes, the other tokens stay as they are. -/
theorem token?_keepUpSide_of_ne (hh : ∀ n, h ≠ .scope side n) (l l' : Ledger)
    (ts : TokenTree Holder) : (keepUpSide side l l' ts).token? h = ts.token? h := by
  rw [keepUpSide, token?_fireScopes_of_ne hh, token?_openScopes_of_ne hh]

/-- These are the tokens of a side with so many scopes, of which so many are released. -/
def HasScopes (side : Side) (opened released : Nat) (ts : TokenTree Holder) : Prop :=
  ∀ n, ts.token? (.scope side n) =
    if n < opened then some ⟨.scope side n, some .session, decide (n < released)⟩ else none

theorem HasScopes.openScopes (hl : HasScopes side opened released ts)
    (hle : released ≤ opened) (count : Nat) :
    HasScopes side (opened + count) released (openScopes side opened count ts) := by
  intro n
  rw [token?_openScopes, hl n]
  by_cases hnew : opened ≤ n ∧ n < opened + count
  · rw [if_pos hnew, if_pos hnew.2, decide_eq_false (by omega)]
  · rw [if_neg hnew]
    by_cases hn : n < opened
    · rw [if_pos hn, if_pos (by omega)]
    · rw [if_neg hn, if_neg (by omega)]

theorem HasScopes.fireScopes (hl : HasScopes side opened released ts) (count : Nat)
    (hle : released + count ≤ opened) :
    HasScopes side opened (released + count) (fireScopes side released count ts) := by
  intro n
  rw [token?_fireScopes, hl n]
  by_cases hnew : released ≤ n ∧ n < released + count
  · rw [if_pos hnew, if_pos (by omega), if_pos (by omega), decide_eq_true hnew.2]
    rfl
  · have hsame : n < released ↔ n < released + count := by omega
    rw [if_neg hnew, decide_eq_decide.mpr hsame]

theorem HasScopes.keepUpSide (hl : HasScopes side l.scopes.length l.past.length ts)
    (hs : l.scopes.length ≤ l'.scopes.length) (hp : l.past.length ≤ l'.past.length) :
    HasScopes side l'.scopes.length l'.past.length (keepUpSide side l l' ts) := by
  have hle : l.past.length ≤ l.scopes.length := l.past_length_le
  have hle' : l'.past.length ≤ l'.scopes.length := l'.past_length_le
  have hopened := hl.openScopes hle (l'.scopes.length - l.scopes.length)
  rw [Nat.add_sub_cancel' hs] at hopened
  have hfired := hopened.fireScopes (l'.past.length - l.past.length) (by omega)
  rw [Nat.add_sub_cancel' hp] at hfired
  exact hfired

theorem HasScopes.beside (hl : HasScopes other opened released ts) (hne : other ≠ side)
    (l l' : Ledger) : HasScopes other opened released (TokenTree.keepUpSide side l l' ts) := by
  intro n
  rw [token?_keepUpSide_of_ne (fun k heq => hne (Holder.scope.inj heq).1), hl]

theorem IsRooted.openScopes (hr : ts.IsRooted) (hsession : ∃ u, ts.token? .session = some u)
    (hl : HasScopes side opened released ts) (count : Nat) :
    (openScopes side opened count ts).IsRooted := by
  induction count with
  | zero => exact hr
  | succ count ih =>
    refine ih.add ?_ ?_
    · rw [token?_openScopes, if_neg (by omega), hl, if_neg (by omega)]
    · rintro p hp
      cases hp
      rw [token?_openScopes_of_ne (by simp)]
      exact hsession

theorem IsRooted.fireScopes (hr : ts.IsRooted) (side : Side) (first count : Nat) :
    (fireScopes side first count ts).IsRooted := by
  induction count with
  | zero => exact hr
  | succ count ih => exact ih.fire _

theorem IsRooted.keepUpSide (hr : ts.IsRooted) (hsession : ∃ u, ts.token? .session = some u)
    (hl : HasScopes side l.scopes.length l.past.length ts) (l' : Ledger) :
    (keepUpSide side l l' ts).IsRooted :=
  (hr.openScopes hsession hl _).fireScopes _ _ _

/-- These are the tokens of a call that has a run with these scopes. -/
structure Holds (fired isClosing : Bool) (scopes : Side → Ledger) (ts : TokenTree Holder) :
    Prop where
  isRooted : ts.IsRooted
  caller : ts.token? .caller = some ⟨.caller, none, fired⟩
  session : ts.token? .session = some ⟨.session, some .caller, isClosing⟩
  scopes : ∀ side, HasScopes side (scopes side).scopes.length (scopes side).past.length ts

theorem Holds.keepUp {fired isClosing : Bool} {scopes scopes' : Side → Ledger}
    (hts : Holds fired isClosing scopes ts)
    (hs : ∀ side, (scopes side).scopes.length ≤ (scopes' side).scopes.length)
    (hp : ∀ side, (scopes side).past.length ≤ (scopes' side).past.length) :
    Holds fired isClosing scopes' (ts.keepUp scopes scopes') := by
  let halfway := ts.keepUpSide .poller (scopes .poller) (scopes' .poller)
  have hcaller : halfway.token? .caller = some ⟨.caller, none, fired⟩ :=
    (token?_keepUpSide_of_ne (by simp) _ _ _).trans hts.caller
  have hsession : halfway.token? .session = some ⟨.session, some .caller, isClosing⟩ :=
    (token?_keepUpSide_of_ne (by simp) _ _ _).trans hts.session
  have hpoller : HasScopes .poller (scopes' .poller).scopes.length (scopes' .poller).past.length
      halfway := (hts.scopes .poller).keepUpSide (hs .poller) (hp .poller)
  have hreporter : HasScopes .reporter (scopes .reporter).scopes.length
      (scopes .reporter).past.length halfway := (hts.scopes .reporter).beside (by simp) _ _
  have hrooted : halfway.IsRooted :=
    hts.isRooted.keepUpSide ⟨_, hts.session⟩ (hts.scopes .poller) _
  refine ⟨hrooted.keepUpSide ⟨_, hsession⟩ hreporter _, ?_, ?_, fun side => ?_⟩
  · exact (token?_keepUpSide_of_ne (by simp) _ _ _).trans hcaller
  · exact (token?_keepUpSide_of_ne (by simp) _ _ _).trans hsession
  · cases side with
    | poller => exact hpoller.beside (by simp) _ _
    | reporter => exact hreporter.keepUpSide (hs .reporter) (hp .reporter)

theorem Holds.close {fired isClosing : Bool} {scopes : Side → Ledger}
    (hts : Holds fired isClosing scopes ts) : Holds fired true scopes (ts.fire .session) where
  isRooted := hts.isRooted.fire _
  caller := by rw [token?_fire, if_neg (by simp), hts.caller]
  session := by rw [token?_fire, if_pos rfl, hts.session, Option.map_some]
  scopes side n := by rw [token?_fire, if_neg (by simp), hts.scopes side n]

end TokenTree

namespace Scene

/-- The scopes of a side in the run of a call. -/
def ledger (c : Scene) (side : Side) : Ledger := c.run?.elim .empty (·.ledger side)

def isClosing (c : Scene) : Bool := c.run?.elim false (·.isClosing)

/-- The tokens of a call that has become another. -/
def follow (c c' : Scene) (ts : TokenTree Holder) : TokenTree Holder :=
  match c'.run? with
  | none => ts
  | some run =>
    let ts := if c.run?.isSome then ts else ts.add .session (some .caller)
    let ts := ts.keepUp c.ledger run.ledger
    if run.isClosing then ts.fire .session else ts

/-- The token that each holder has in a state of a call. -/
def token? (fired : Bool) (c : Scene) : Holder → Option (Token Holder)
  | .caller => some ⟨.caller, none, fired⟩
  | .session => if c.run?.isSome then some ⟨.session, some .caller, c.isClosing⟩ else none
  | .scope side n =>
    if n < (c.ledger side).scopes.length then
      some ⟨.scope side n, some .session, decide (n < (c.ledger side).past.length)⟩
    else none

/-- These are the tokens in a state of a call. -/
structure Shows (fired : Bool) (c : Scene) (ts : TokenTree Holder) : Prop where
  isRooted : ts.IsRooted
  token : ∀ h, ts.token? h = c.token? fired h

/-- The second state is one of those after the first. -/
structure Grows (c c' : Scene) : Prop where
  run : c.run?.isSome = true → c'.run?.isSome = true
  closing : c.isClosing = true → c'.isClosing = true
  scopes : ∀ side, (c.ledger side).scopes.length ≤ (c'.ledger side).scopes.length
  past : ∀ side, (c.ledger side).past.length ≤ (c'.ledger side).past.length

variable {c c' : Scene} {fired : Bool} {ts : TokenTree Holder}

theorem ledger_none (hr : c.run? = none) (side : Side) : c.ledger side = .empty := by
  simp [ledger, hr]

theorem ledger_some {run : Run} (hr : c.run? = some run) (side : Side) :
    c.ledger side = run.ledger side := by
  simp [ledger, hr]

theorem Shows.hasScopes (hs : c.Shows fired ts) (side : Side) :
    ts.HasScopes side (c.ledger side).scopes.length (c.ledger side).past.length :=
  fun _ => hs.token _

/-- A token that fires is the caller's own. -/
theorem Shows.fire_caller (hs : c.Shows fired ts) : c.Shows true (ts.fire .caller) where
  isRooted := hs.isRooted.fire _
  token h := by
    rw [TokenTree.token?_fire, hs.token]
    cases h <;> simp [token?]

theorem Grows.run_none (hg : c.Grows c') (hr : c'.run? = none) : c.run? = none := by
  rw [← Option.not_isSome_iff_eq_none]
  intro h
  simpa [hr] using hg.run h

theorem shows_iff {run : Run} (hr : c.run? = some run) :
    c.Shows fired ts ↔ ts.Holds fired run.isClosing c.ledger := by
  have hclosing : c.isClosing = run.isClosing := by simp [isClosing, hr]
  constructor
  · intro hs
    refine ⟨hs.isRooted, hs.token _, (hs.token _).trans ?_, hs.hasScopes⟩
    simp [token?, hr, hclosing]
  · intro hts
    refine ⟨hts.isRooted, fun h => ?_⟩
    cases h with
    | caller => exact hts.caller
    | session => simp [hts.session, token?, hr, hclosing]
    | scope side n => exact hts.scopes side n

/-- When a call gets its run the session gets its token. -/
theorem Shows.launch (hs : c.Shows fired ts) :
    (if c.run?.isSome then ts else ts.add .session (some .caller)).Holds fired c.isClosing
      c.ledger := by
  cases hr : c.run? with
  | some run =>
    have hclosing : c.isClosing = run.isClosing := by simp [isClosing, hr]
    rw [Option.isSome_some, if_pos rfl, hclosing]
    exact (shows_iff hr).mp hs
  | none =>
    rw [Option.isSome_none, if_neg (by simp)]
    have hclosing : c.isClosing = false := by simp [isClosing, hr]
    have hsession : ts.token? .session = none := (hs.token _).trans (by simp [token?, hr])
    refine ⟨hs.isRooted.add hsession ?_, ?_, ?_, fun side n => ?_⟩
    · rintro p hp
      cases hp
      exact ⟨_, hs.token .caller⟩
    · rw [TokenTree.token?_add, if_neg (by simp), hs.token]
      rfl
    · rw [TokenTree.token?_add, if_pos rfl, hclosing]
    · rw [TokenTree.token?_add, if_neg (by simp), hs.token]
      rfl

/-- **The tokens follow the call.** -/
theorem Shows.follow (hs : c.Shows fired ts) (hg : c.Grows c') :
    c'.Shows fired (c.follow c' ts) := by
  unfold Scene.follow
  cases hr : c'.run? with
  | none =>
    -- there was no run before either, so nobody has got a token or let go of one
    refine ⟨hs.isRooted, fun h => (hs.token h).trans ?_⟩
    cases h <;> simp [token?, hr, hg.run_none hr, ledger]
  | some run =>
    have hledger := ledger_some hr
    have hscopes := hg.scopes
    have hpast := hg.past
    simp only [hledger] at hscopes hpast
    have hkept := hs.launch.keepUp hscopes hpast
    rw [shows_iff hr, funext hledger]
    simp only
    cases hclosing : run.isClosing with
    | true => exact hkept.close
    | false =>
      have hopen : c.isClosing = false := by
        refine Bool.eq_false_iff.mpr fun h => ?_
        simpa [isClosing, hr, hclosing] using hg.closing h
      rw [hopen] at hkept
      exact hkept

/-! ## Who is cancelled -/

variable {run : Run}

theorem Shows.isCancelled_caller (hs : c.Shows fired ts) : ts.isCancelled .caller = fired := by
  rw [TokenTree.isCancelled_eq hs.isRooted (hs.token .caller)]
  simp

theorem Shows.isCancelled_session (hs : c.Shows fired ts) (hr : c.run? = some run) :
    ts.isCancelled .session = (run.isClosing || fired) := by
  have htoken := ((shows_iff hr).mp hs).session
  rw [TokenTree.isCancelled_eq hs.isRooted htoken, Option.elim_some, hs.isCancelled_caller]

theorem Shows.token_scope (hs : c.Shows fired ts) {side : Side} {n : Nat}
    (hn : n < (c.ledger side).scopes.length) : ts.token? (.scope side n) =
      some ⟨.scope side n, some .session, decide (n < (c.ledger side).past.length)⟩ :=
  (hs.token _).trans (if_pos hn)

theorem Shows.isCancelled_scope (hs : c.Shows fired ts) {side : Side} {n : Nat}
    (hn : n < (c.ledger side).scopes.length) : ts.isCancelled (.scope side n) =
      (decide (n < (c.ledger side).past.length) || ts.isCancelled .session) := by
  rw [TokenTree.isCancelled_eq hs.isRooted (hs.token_scope hn), Option.elim_some]

/-- No token hangs on that of a scope. -/
theorem Shows.isLeaf (hs : c.Shows fired ts) (side : Side) (n : Nat) :
    ts.IsLeaf (.scope side n) := by
  intro h t ht
  rw [hs.token] at ht
  cases h with
  | caller =>
    cases ht
    simp
  | session =>
    obtain ⟨-, ht⟩ := Option.ite_none_right_eq_some.mp ht
    cases ht
    simp
  | scope side' n' =>
    obtain ⟨-, ht⟩ := Option.ite_none_right_eq_some.mp ht
    cases ht
    simp

end Scene

end HealthRelay
