import HealthRelay.Proofs.Config
import HealthRelay.Relay
import Mathlib.Data.List.Induction

/-!
# Configurations of layered settings

Layers of settings give every key the text of the last layer that sets it (`get_layered`). The
configuration they mean is read off these six texts alone: whether there is one, what it holds, and
which fault is named when there is none. The texts go through six checks in a fixed order, and the
first one that finds fault decides (`refusal?_ofSettings?`). `layers_resolve` puts both together.
-/

namespace HealthRelay

/-- The keys that settings may give a text for. -/
inductive SettingKey where
  | name
  | reportingInterval
  | localAddr
  | externalAddr
  | apiKey
  | managementAddr
deriving DecidableEq, Repr

namespace Settings

/-! ## Layers -/

def get (s : Settings) : SettingKey → Option String
  | .name => s.agent.name
  | .reportingInterval => s.agent.reportingInterval
  | .localAddr => s.server.localAddr
  | .externalAddr => s.server.externalAddr
  | .apiKey => s.server.apiKey
  | .managementAddr => s.management.addr

/-- Settings are their texts. -/
theorem eq_of_get {s s' : Settings} (h : ∀ k, s.get k = s'.get k) : s = s' := by
  obtain ⟨⟨name, interval⟩, ⟨localAddr, externalAddr, apiKey⟩, ⟨managementAddr⟩⟩ := s
  obtain ⟨⟨name', interval'⟩, ⟨localAddr', externalAddr', apiKey'⟩, ⟨managementAddr'⟩⟩ := s'
  obtain rfl : name = name' := h .name
  obtain rfl : interval = interval' := h .reportingInterval
  obtain rfl : localAddr = localAddr' := h .localAddr
  obtain rfl : externalAddr = externalAddr' := h .externalAddr
  obtain rfl : apiKey = apiKey' := h .apiKey
  obtain rfl : managementAddr = managementAddr' := h .managementAddr
  rfl

theorem get_overlay (base top : Settings) (k : SettingKey) :
    (base.overlay top).get k = (top.get k).or (base.get k) := by
  cases k <;> rfl

/-- Settings with layers on top of them, each over those before it. -/
def layered (base : Settings) (layers : List Settings) : Settings :=
  layers.foldl overlay base

/-- The text that the last layer gives that sets the key. -/
def lastSet (layers : List Settings) (k : SettingKey) : Option String :=
  layers.reverse.findSome? (·.get k)

theorem lastSet_concat (layers : List Settings) (top : Settings) (k : SettingKey) :
    lastSet (layers ++ [top]) k = (top.get k).or (lastSet layers k) := by
  unfold lastSet
  rw [List.reverse_concat, List.findSome?_cons]
  cases top.get k <;> rfl

/-- **The last layer that sets a key wins.** -/
theorem get_layered (base : Settings) (layers : List Settings) (k : SettingKey) :
    (base.layered layers).get k = lastSet (base :: layers) k := by
  -- From the last layer back: it decides if it sets the key, and else those before it do.
  induction layers using List.reverseRecOn with
  | nil =>
    have hbase := lastSet_concat [] base k
    exact (hbase.trans Option.or_none).symm
  | append_singleton layers top ih =>
    have hfold : base.layered (layers ++ [top]) = (base.layered layers).overlay top := by
      rw [layered, List.foldl_append]
      rfl
    rw [hfold, get_overlay, ih, ← List.cons_append, lastSet_concat]

end Settings

/-! ## Checks -/

/-- The reason of a check that fails. -/
def refusal? {α : Type} : Except ConfigError α → Option ConfigError
  | .ok _ => none
  | .error e => some e

theorem refusal?_eq_none_iff {α : Type} {e : Except ConfigError α} :
    refusal? e = none ↔ ∃ a, e = .ok a := by
  cases e <;> simp [refusal?]

theorem refusal?_eq_some_iff {α : Type} {e : Except ConfigError α} {fault : ConfigError} :
    refusal? e = some fault ↔ e = .error fault := by
  cases e <;> simp [refusal?]

/-- A chain fails as its first step does, and if that does not fail, as the rest of it does. -/
theorem refusal?_bind {α β : Type} {e : Except ConfigError α} {f : α → Except ConfigError β}
    {first rest : Option ConfigError} (hfirst : refusal? e = first)
    (hrest : ∀ a, e = .ok a → refusal? (f a) = rest) : refusal? (e >>= f) = first.or rest := by
  subst hfirst
  cases e with
  | error fault => rfl
  | ok a => exact hrest a rfl

namespace Config

/-- The checks that the texts of a configuration go through. -/
inductive Check where
  /-- An interval that is set is a duration. -/
  | interval
  /-- There is a local address, and it is one. -/
  | localAddr
  /-- An external address that is set is one. -/
  | externalAddr
  /-- There is a management address, and it is one. -/
  | managementAddr
  /-- An interval that is set is not zero. -/
  | someTime
  /-- An interval that is set is a day at most. -/
  | atMostADay
deriving DecidableEq, Repr

/-- What is wrong with the text of a key that has to be set. -/
def requiredFault? (setting : String) : Option String → Option ConfigError
  | none => some (.missing setting)
  | some t => refusal? (Address.ofText? t)

/-- What is wrong with a text that is set and reads as a duration. -/
def writtenFault? (fault? : Duration → Option ConfigError) (text? : Option String) :
    Option ConfigError :=
  text?.bind fun t => (Duration.ofText? t).toOption.bind fault?

def zeroFault? (d : Duration) : Option ConfigError :=
  if d.nanos = 0 then some .zeroInterval else none

def longFault? (d : Duration) : Option ConfigError :=
  if Duration.ofSecs (24 * 60 * 60) < d then some (.intervalTooLong d) else none

namespace Check

/-- The checks in the order in which they are made. -/
def all : List Check :=
  [.interval, .localAddr, .externalAddr, .managementAddr, .someTime, .atMostADay]

theorem mem_all (check : Check) : check ∈ all := by
  cases check <;> decide

/-- The fault that a check finds with the texts of the keys. -/
def fault? (text : SettingKey → Option String) : Check → Option ConfigError
  | .interval => (text .reportingInterval).bind fun t => refusal? (Duration.ofText? t)
  | .localAddr => requiredFault? "llamacpp.local_addr" (text .localAddr)
  | .externalAddr => (text .externalAddr).bind fun t => refusal? (Address.ofText? t)
  | .managementAddr => requiredFault? "management.addr" (text .managementAddr)
  | .someTime => writtenFault? zeroFault? (text .reportingInterval)
  | .atMostADay => writtenFault? longFault? (text .reportingInterval)

theorem findSome?_all (text : SettingKey → Option String) :
    all.findSome? (fault? text) =
      (fault? text .interval).or ((fault? text .localAddr).or ((fault? text .externalAddr).or
        ((fault? text .managementAddr).or
          ((fault? text .someTime).or (fault? text .atMostADay))))) := by
  have hcons : ∀ check rest, List.findSome? (fault? text) (check :: rest) =
      (fault? text check).or (rest.findSome? (fault? text)) := by
    intro check rest
    rw [List.findSome?_cons]
    cases fault? text check <;> rfl
  simp only [all, hcons, List.findSome?_nil, Option.or_none]

end Check

theorem refusal?_intervalOf (text? : Option String) :
    refusal? (intervalOf text?) = text?.bind fun t => refusal? (Duration.ofText? t) := by
  cases text? <;> rfl

theorem refusal?_requiredAddress (setting : String) (text? : Option String) :
    refusal? (requiredAddress setting text?) = requiredFault? setting text? := by
  cases text? <;> rfl

theorem refusal?_externalOf (localAddr : Address) (text? : Option String) :
    refusal? (externalOf localAddr text?) =
      text?.bind fun t => refusal? (Address.ofText? t) := by
  cases text? <;> rfl

theorem refusal?_checkInterval (d : Duration) :
    refusal? (checkInterval d) = (zeroFault? d).or (longFault? d) := by
  unfold checkInterval zeroFault? longFault?
  split
  · rfl
  · change refusal? (if Duration.ofSecs (24 * 60 * 60) < d then _ else _) = _
    split <;> rfl

/-- The default interval has no fault, so only the one that is written can have any. -/
theorem writtenFault?_eq {fault? : Duration → Option ConfigError}
    (hdefault : fault? defaultInterval = none) {text? : Option String} {d : Duration}
    (h : intervalOf text? = .ok d) : writtenFault? fault? text? = fault? d := by
  cases text? with
  | none =>
    cases h
    exact hdefault.symm
  | some t =>
    have hread : Duration.ofText? t = .ok d := h
    rw [writtenFault?, Option.bind_some, hread]
    rfl

/-- **The first check that finds fault decides** what settings are refused for. -/
theorem refusal?_ofSettings? (s : Settings) :
    refusal? (ofSettings? s) = Check.all.findSome? (Check.fault? s.get) := by
  rw [Check.findSome?_all]
  unfold ofSettings?
  -- Each step of the chain makes one check; the last step makes two.
  refine refusal?_bind (refusal?_intervalOf _) fun d hd => ?_
  refine refusal?_bind (refusal?_requiredAddress _ _) fun localAddr _ => ?_
  refine refusal?_bind (refusal?_externalOf localAddr _) fun externalAddr _ => ?_
  refine refusal?_bind (refusal?_requiredAddress _ _) fun managementAddr _ => ?_
  have hsome : Check.fault? s.get .someTime = zeroFault? d := writtenFault?_eq (by decide) hd
  have hshort : Check.fault? s.get .atMostADay = longFault? d := writtenFault?_eq (by decide) hd
  rw [hsome, hshort, ← Option.or_none (o := (zeroFault? d).or (longFault? d))]
  exact refusal?_bind (refusal?_checkInterval d) fun _ _ => rfl

/-! ## Configurations -/

/-- Texts that mean a configuration. -/
structure Acceptable (text : SettingKey → Option String) : Prop where
  interval : ∀ t, text .reportingInterval = some t →
    ∃ d, Duration.ofText? t = .ok d ∧ 0 < d.nanos ∧ d ≤ .ofSecs (24 * 60 * 60)
  localAddr : ∃ t a, text .localAddr = some t ∧ Address.ofText? t = .ok a
  externalAddr : ∀ t, text .externalAddr = some t → ∃ a, Address.ofText? t = .ok a
  managementAddr : ∃ t a, text .managementAddr = some t ∧ Address.ofText? t = .ok a

/-- What a configuration holds that texts mean. -/
structure Means (text : SettingKey → Option String) (c : Config) : Prop where
  /-- The name is there as it is written, unless it is nothing but white space. -/
  name : ∀ n, c.name = some n ↔ text .name = some n ∧ ∃ ch ∈ n.toList, Text.isBlank ch = false
  intervalSet : ∀ t, text .reportingInterval = some t →
    Duration.ofText? t = .ok c.reportingInterval
  intervalUnset : text .reportingInterval = none → c.reportingInterval = .ofSecs 10
  localAddr : ∃ t, text .localAddr = some t ∧ Address.ofText? t = .ok c.localAddr
  externalSet : ∀ t, text .externalAddr = some t → Address.ofText? t = .ok c.externalAddr
  externalUnset : text .externalAddr = none → c.externalAddr = c.localAddr
  apiKey : ∀ key, c.apiKey = some key ↔ text .apiKey = some key ∧ key ≠ ""
  managementAddr : ∃ t, text .managementAddr = some t ∧ Address.ofText? t = .ok c.managementAddr

theorem requiredAddress_eq_ok {setting : String} {text? : Option String} {a : Address} :
    requiredAddress setting text? = .ok a ↔ ∃ t, text? = some t ∧ Address.ofText? t = .ok a := by
  cases text? <;> simp [requiredAddress]

theorem requiredFault?_eq_none_iff {setting : String} {text? : Option String} :
    requiredFault? setting text? = none ↔
      ∃ t a, text? = some t ∧ Address.ofText? t = .ok a := by
  rw [← refusal?_requiredAddress, refusal?_eq_none_iff]
  simp only [requiredAddress_eq_ok]
  exact exists_comm

theorem bind_refusal?_eq_none_iff {α : Type} {read : String → Except ConfigError α}
    {text? : Option String} :
    (text?.bind fun t => refusal? (read t)) = none ↔
      ∀ t, text? = some t → ∃ a, read t = .ok a := by
  cases text? <;> simp [refusal?_eq_none_iff]

theorem writtenFault?_eq_none_iff {fault? : Duration → Option ConfigError}
    {text? : Option String} :
    writtenFault? fault? text? = none ↔
      ∀ t d, text? = some t → Duration.ofText? t = .ok d → fault? d = none := by
  cases text? with
  | none => simp [writtenFault?]
  | some t =>
    rw [writtenFault?, Option.bind_some]
    constructor
    · intro h t' d ht hread
      cases ht
      rwa [hread] at h
    · intro h
      cases hread : Duration.ofText? t with
      | error fault => rfl
      | ok d => exact h t d rfl hread

theorem zeroFault?_eq_none_iff {d : Duration} : zeroFault? d = none ↔ 0 < d.nanos := by
  simp [zeroFault?, Nat.pos_iff_ne_zero]

theorem longFault?_eq_none_iff {d : Duration} :
    longFault? d = none ↔ d ≤ .ofSecs (24 * 60 * 60) := by
  have hle : ¬ Duration.ofSecs (24 * 60 * 60) < d ↔ d ≤ .ofSecs (24 * 60 * 60) := Nat.not_lt
  simp [longFault?, hle]

/-- Texts mean a configuration if no check finds fault with them. -/
theorem acceptable_iff {text : SettingKey → Option String} :
    Acceptable text ↔ ∀ check, Check.fault? text check = none := by
  constructor
  · intro h check
    cases check with
    | interval =>
      refine bind_refusal?_eq_none_iff.mpr fun t ht => ?_
      obtain ⟨d, hread, -⟩ := h.interval t ht
      exact ⟨d, hread⟩
    | localAddr => exact requiredFault?_eq_none_iff.mpr h.localAddr
    | externalAddr => exact bind_refusal?_eq_none_iff.mpr h.externalAddr
    | managementAddr => exact requiredFault?_eq_none_iff.mpr h.managementAddr
    | someTime =>
      refine writtenFault?_eq_none_iff.mpr fun t d ht hread => zeroFault?_eq_none_iff.mpr ?_
      obtain ⟨d', hread', hpos, -⟩ := h.interval t ht
      cases hread.symm.trans hread'
      exact hpos
    | atMostADay =>
      refine writtenFault?_eq_none_iff.mpr fun t d ht hread => longFault?_eq_none_iff.mpr ?_
      obtain ⟨d', hread', -, hshort⟩ := h.interval t ht
      cases hread.symm.trans hread'
      exact hshort
  · intro h
    refine ⟨fun t ht => ?_, requiredFault?_eq_none_iff.mp (h .localAddr),
      bind_refusal?_eq_none_iff.mp (h .externalAddr),
      requiredFault?_eq_none_iff.mp (h .managementAddr)⟩
    obtain ⟨d, hread⟩ := bind_refusal?_eq_none_iff.mp (h .interval) t ht
    have hpos := writtenFault?_eq_none_iff.mp (h .someTime) t d ht hread
    have hshort := writtenFault?_eq_none_iff.mp (h .atMostADay) t d ht hread
    exact ⟨d, hread, zeroFault?_eq_none_iff.mp hpos, longFault?_eq_none_iff.mp hshort⟩

theorem isShown_iff {n : String} :
    isShown n = true ↔ ∃ ch ∈ n.toList, Text.isBlank ch = false := by
  simp [isShown, Text.isAllBlank]

theorem means_of_ofSettings? {s : Settings} {c : Config} (h : ofSettings? s = .ok c) :
    Means s.get c := by
  unfold ofSettings? at h
  obtain ⟨interval, hinterval, h⟩ := bind_eq_ok h
  obtain ⟨localAddr, hlocal, h⟩ := bind_eq_ok h
  obtain ⟨externalAddr, hexternal, h⟩ := bind_eq_ok h
  obtain ⟨managementAddr, hmanagement, h⟩ := bind_eq_ok h
  obtain ⟨_, -, h⟩ := bind_eq_ok h
  cases h
  constructor
  case name =>
    intro n
    exact Option.filter_eq_some_iff.trans (and_congr_right fun _ => isShown_iff)
  case intervalSet =>
    intro t ht
    change s.agent.reportingInterval = some t at ht
    rw [ht] at hinterval
    exact hinterval
  case intervalUnset =>
    intro hunset
    change s.agent.reportingInterval = none at hunset
    rw [hunset] at hinterval
    exact (Except.ok.inj hinterval).symm
  case localAddr => exact requiredAddress_eq_ok.mp hlocal
  case externalSet =>
    intro t ht
    change s.server.externalAddr = some t at ht
    rw [ht] at hexternal
    exact hexternal
  case externalUnset =>
    intro hunset
    change s.server.externalAddr = none at hunset
    rw [hunset] at hexternal
    exact (Except.ok.inj hexternal).symm
  case apiKey =>
    intro key
    exact Option.filter_eq_some_iff.trans (and_congr_right fun _ => by simp)
  case managementAddr => exact requiredAddress_eq_ok.mp hmanagement

end Config

/-! ## Layered settings and what they mean -/

/-- The settings that an invocation lays its own over. -/
def Invocation.base? (i : Invocation) (read : String → Except FileFault (List UInt8)) :
    Except ConfigError Settings :=
  match i.configPath with
  | some path => Settings.ofFile? path (read path)
  | none => .ok {}

theorem Invocation.config?_eq {i : Invocation} {read : String → Except FileFault (List UInt8)}
    {base : Settings} (h : i.base? read = .ok base) :
    i.config? read = Config.ofSettings? (base.layered [i.settings]) := by
  have hsteps : i.config? read =
      i.base? read >>= fun base => Config.ofSettings? (base.layered [i.settings]) := by
    unfold Invocation.config? Invocation.base?
    cases i.configPath <;> rfl
  rw [hsteps, h, ok_bind]

namespace Settings

/-- What settings with layers on top of them come to, by the texts that the last layers give. -/
structure Resolves (base : Settings) (layers : List Settings) : Prop where
  ok_iff : (∃ c, Config.ofSettings? (base.layered layers) = .ok c) ↔
    Config.Acceptable (lastSet (base :: layers))
  config : ∀ c, Config.ofSettings? (base.layered layers) = .ok c →
    Config.Means (lastSet (base :: layers)) c
  /-- They are refused for the fault that the first failing check finds. -/
  error_iff : ∀ fault, Config.ofSettings? (base.layered layers) = .error fault ↔
    Config.Check.all.findSome? (Config.Check.fault? (lastSet (base :: layers))) = some fault
  /-- What a later layer sets anew has no say. -/
  overridden : ∀ base' layers',
    (∀ k, lastSet (base' :: layers') k = lastSet (base :: layers) k) →
      Config.ofSettings? (base'.layered layers') = Config.ofSettings? (base.layered layers)
  /-- A file with the flags of an invocation over it is one such case. -/
  invoked : ∀ (i : Invocation) (read : String → Except FileFault (List UInt8)),
    i.base? read = .ok base → layers = [i.settings] →
      i.config? read = Config.ofSettings? (base.layered layers)

/-- **Layers of settings mean what their last texts mean**, and are refused for the first fault that
is found with these. -/
theorem layers_resolve (base : Settings) (layers : List Settings) : Resolves base layers := by
  have hget : (base.layered layers).get = lastSet (base :: layers) :=
    funext (get_layered base layers)
  have hfault := Config.refusal?_ofSettings? (base.layered layers)
  rw [hget] at hfault
  constructor
  case ok_iff =>
    rw [← refusal?_eq_none_iff, hfault, List.findSome?_eq_none_iff, Config.acceptable_iff]
    exact ⟨fun h check => h check check.mem_all, fun h check _ => h check⟩
  case config =>
    intro c hc
    rw [← hget]
    exact Config.means_of_ofSettings? hc
  case error_iff =>
    intro fault
    rw [← refusal?_eq_some_iff, hfault]
  case overridden =>
    intro base' layers' h
    refine congrArg Config.ofSettings? (eq_of_get fun k => ?_)
    rw [get_layered, get_layered, h]
  case invoked =>
    intro i read hbase hlayers
    rw [hlayers]
    exact Invocation.config?_eq hbase

example :
    (Config.ofSettings? (layered
      { agent := { reportingInterval := some "soon" }, server := { localAddr := some "a:1" } }
      [{ agent := { name := some " ", reportingInterval := some "2m" } },
        { management := { addr := some "m:2" } }])).toOption =
      some ⟨none, .ofSecs 120, ⟨"a", 1⟩, ⟨"a", 1⟩, none, ⟨"m", 2⟩⟩ := by
  decide +kernel

end Settings

end HealthRelay
