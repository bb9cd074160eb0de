import KeyCapsule.Proofs.Action
import KeyCapsule.Settings

/-! Settings from an environment. Three variables decide on them: each that is absent or empty leaves a default,
and each other one is read in its own way or turned down as a value. -/
namespace KeyCapsule

def Level.names : List (String × Int) :=
  [("CRITICAL", 50), ("FATAL", 50), ("ERROR", 40), ("WARN", 30), ("WARNING", 30), ("INFO", 20), ("DEBUG", 10),
    ("NOTSET", 0)]

theorem Level.named?_eq_some {name : String} {level : Int} : named? name = some level ↔ (name, level) ∈ names := by
  constructor
  · intro h
    obtain ⟨front, back, he, -⟩ := List.lookup_eq_some_iff.1 h
    have hm : (name, level) ∈ front ++ (name, level) :: back := List.mem_append_right _ List.mem_cons_self
    rwa [← he] at hm
  · have hall : ∀ entry ∈ names, named? entry.1 = some entry.2 := by decide +kernel
    exact fun hm => hall (name, level) hm

theorem Suite.named?_eq_some {name : String} {s : Suite} : named? name = some s ↔ s ∈ all ∧ s.name = name := by
  constructor
  · intro h
    have hn := List.find?_some (p := fun s : Suite => s.name == name) h
    exact ⟨List.mem_of_find?_eq_some h, beq_iff_eq.1 hn⟩
  · have hall : ∀ s ∈ all, named? s.name = some s := by decide +kernel
    rintro ⟨hm, rfl⟩
    exact hall s hm

theorem Suite.named?_eq_none {name : String} : named? name = none ↔ name ∉ all.map Suite.name := by
  simp [named?]

namespace Settings
variable {α : Type} {env : Environment} {name : String}

def Unset (env : Environment) (name : String) : Prop := env name = none ∨ env name = some ""

inductive Stands (env : Environment) (name : String) (default : α) (Says : String → α → Prop) : α → Prop
  | default (h : Unset env name) : Stands env name default Says default
  | given {raw : String} {a : α} (h : env name = some raw) (hne : raw ≠ "") (hread : Says raw a) :
      Stands env name default Says a

def SaysLevel (raw : String) (level : Int) : Prop :=
  (String.ofList ((Text.trim Text.isBlank raw.toList).flatMap Text.upper), level) ∈ Level.names

def SaysSuite (raw : String) (s : Suite) : Prop := s ∈ Suite.all ∧ s.name = raw

def SaysTrials (raw : String) (n : Int) : Prop := Text.integer? raw = some n ∧ 1 ≤ n

structure Asked (env : Environment) (settings : Settings) : Prop where
  level : Stands env "KEMKIT_LOG_LEVEL" Level.info SaysLevel settings.logLevel
  suite : Stands env "KEMKIT_DEFAULT_SUITE" Suite.x25519 SaysSuite settings.suite
  trials : Stands env "KEMKIT_SELFTEST_TRIALS" 8 SaysTrials settings.trials

private theorem given?_eq_none : given? env name = none ↔ Unset env name := by
  rw [given?, Unset]
  cases env name <;> simp

private theorem given?_eq_some {raw : String} :
    given? env name = some raw ↔ env name = some raw ∧ raw ≠ "" := by
  simp [given?, Option.filter_eq_some_iff]

private theorem Unset.eq_empty {raw : String} (hu : Unset env name) (h : env name = some raw) : raw = "" := by
  rcases hu with hu | hu <;> rw [hu] at h <;> cases h
  rfl

private theorem read_eq_ok {default a : α} {reader : String → Except Fault α} {Says : String → α → Prop}
    (hreader : ∀ raw a, reader raw = .ok a ↔ Says raw a) :
    read env name default reader = .ok a ↔ Stands env name default Says a := by
  rw [read]
  cases hg : given? env name with
  | none =>
    have hu := given?_eq_none.1 hg
    constructor
    · rintro ⟨⟩
      exact .default hu
    · rintro (hu | ⟨h, hne, hread⟩)
      · rfl
      · exact absurd (hu.eq_empty h) hne
  | some raw =>
    obtain ⟨h, hne⟩ := given?_eq_some.1 hg
    constructor
    · intro hr
      exact .given h hne ((hreader raw a).1 hr)
    · rintro (hu | ⟨h', hne', hread⟩)
      · exact absurd (hu.eq_empty h) hne
      · cases h.symm.trans h'
        exact (hreader raw a).2 hread

private theorem readLevel_eq_ok (raw : String) (level : Int) :
    readLevel raw = .ok level ↔ SaysLevel raw level := by
  rw [readLevel, SaysLevel, ← Level.named?_eq_some]
  split <;> rename_i h <;> simp [h]

private theorem readSuite_eq_ok (raw : String) (s : Suite) : readSuite raw = .ok s ↔ SaysSuite raw s := by
  rw [readSuite, SaysSuite, ← Suite.named?_eq_some]
  split <;> rename_i h <;> simp [h]

private theorem readTrials_eq_ok (raw : String) (n : Int) : readTrials raw = .ok n ↔ SaysTrials raw n := by
  rw [readTrials, SaysTrials]
  cases Text.integer? raw with
  | none => simp
  | some m =>
    by_cases hm : m < 1
    · simp only [hm, if_true, Option.some.injEq, reduceCtorEq, false_iff]
      omega
    · simp only [hm, if_false, Except.ok.injEq, Option.some.injEq]
      omega

theorem load_eq_ok {settings : Settings} : load env = .ok settings ↔ Asked env settings := by
  simp only [load, bind_eq_ok, read_eq_ok readLevel_eq_ok, read_eq_ok readSuite_eq_ok,
    read_eq_ok readTrials_eq_ok]
  constructor
  · rintro ⟨level, hl, s, hs, trials, ht, ⟨⟩⟩
    exact ⟨hl, hs, ht⟩
  · intro h
    exact ⟨_, h.level, _, h.suite, _, h.trials, rfl⟩

private theorem Stands.default_of_unset {default a : α} {Says : String → α → Prop}
    (h : Stands env name default Says a)
    (hu : Unset env name) : a = default := by
  rcases h with - | ⟨h, hne, -⟩
  · rfl
  · exact absurd (hu.eq_empty h) hne

theorem Stands.induct {default a : α} {Says : String → α → Prop} {p : α → Prop}
    (h : Stands env name default Says a) (hdefault : p default) (hread : ∀ raw a, Says raw a → p a) : p a := by
  rcases h with - | ⟨-, -, h⟩
  · exact hdefault
  · exact hread _ _ h

structure Sound (settings : Settings) : Prop where
  level : settings.logLevel ∈ [0, 10, 20, 30, 40, 50]
  suite : settings.suite ∈ Suite.all
  trials : 1 ≤ settings.trials

theorem Asked.sound {settings : Settings} (h : Asked env settings) : Sound settings where
  level := by
    have hnames : ∀ entry ∈ Level.names, entry.2 ∈ [0, 10, 20, 30, 40, 50] := by decide
    exact h.level.induct (by decide) fun raw level hread => hnames _ hread
  suite := h.suite.induct (by decide) fun _ _ hread => hread.1
  trials := h.trials.induct (by decide) fun _ _ hread => hread.2

structure Defaulted (env : Environment) (settings : Settings) : Prop where
  level : Unset env "KEMKIT_LOG_LEVEL" → settings.logLevel = Level.info
  suite : Unset env "KEMKIT_DEFAULT_SUITE" → settings.suite.name = "DHKEM-X25519-HKDF-SHA256"
  trials : Unset env "KEMKIT_SELFTEST_TRIALS" → settings.trials = 8

private theorem Asked.defaulted {settings : Settings} (h : Asked env settings) : Defaulted env settings where
  level := h.level.default_of_unset
  suite hu := by
    rw [h.suite.default_of_unset hu]
    rfl
  trials := h.trials.default_of_unset

def consulted : List String := ["KEMKIT_LOG_LEVEL", "KEMKIT_DEFAULT_SUITE", "KEMKIT_SELFTEST_TRIALS"]

private theorem load_congr {other : Environment} (h : ∀ name ∈ consulted, env name = other name) :
    load env = load other := by
  have hgiven : ∀ name ∈ consulted, given? env name = given? other name := by
    intro name hm
    rw [given?, given?, h name hm]
  simp only [load, read]
  rw [hgiven "KEMKIT_LOG_LEVEL" (by decide), hgiven "KEMKIT_DEFAULT_SUITE" (by decide),
    hgiven "KEMKIT_SELFTEST_TRIALS" (by decide)]

inductive Misread : String → String → SettingFault → Prop
  | level {raw : String} (h : ∀ level, ¬ SaysLevel raw level) :
      Misread "KEMKIT_LOG_LEVEL" raw (.unknownLevel raw)
  | suite {raw : String} (h : ∀ s, ¬ SaysSuite raw s) :
      Misread "KEMKIT_DEFAULT_SUITE" raw (.unknownSuite raw)
  | word {raw : String} (h : Text.integer? raw = none) :
      Misread "KEMKIT_SELFTEST_TRIALS" raw (.notInteger raw)
  | few {raw : String} {n : Int} (h : Text.integer? raw = some n) (hn : n < 1) :
      Misread "KEMKIT_SELFTEST_TRIALS" raw .tooFewTrials

/-- The message of a setting that is turned down begins with the variable's name. -/
theorem Misread.named {raw : String} {cause : SettingFault} (h : Misread name raw cause) :
    name.toList <+: cause.text.toList := by
  have hbegin : ∀ {front rest : String}, name.toList <+: front.toList →
      name.toList <+: (front ++ rest).toList := by
    intro front rest hp
    rw [String.toList_append]
    exact hp.trans (List.prefix_append _ _)
  cases h with
  | level => exact hbegin (by decide +kernel)
  | suite => exact hbegin (by decide +kernel)
  | word => exact hbegin (by decide +kernel)
  | few => decide +kernel

private theorem readLevel_error {raw : String} {e : Fault} (h : readLevel raw = .error e) :
    ∃ cause, Misread "KEMKIT_LOG_LEVEL" raw cause ∧ e = .setting cause := by
  refine ⟨_, .level fun level hread => ?_, ?_⟩
  · rw [(readLevel_eq_ok raw level).2 hread] at h
    cases h
  · rw [readLevel] at h
    split at h <;> cases h
    rfl

private theorem readSuite_error {raw : String} {e : Fault} (h : readSuite raw = .error e) :
    ∃ cause, Misread "KEMKIT_DEFAULT_SUITE" raw cause ∧ e = .setting cause := by
  refine ⟨_, .suite fun s hread => ?_, ?_⟩
  · rw [(readSuite_eq_ok raw s).2 hread] at h
    cases h
  · rw [readSuite] at h
    split at h <;> cases h
    rfl

private theorem readTrials_error {raw : String} {e : Fault} (h : readTrials raw = .error e) :
    ∃ cause, Misread "KEMKIT_SELFTEST_TRIALS" raw cause ∧ e = .setting cause := by
  rw [readTrials] at h
  split at h
  case h_1 n hn =>
    split at h <;> cases h
    exact ⟨_, .few hn ‹_›, rfl⟩
  case h_2 hn =>
    cases h
    exact ⟨_, .word hn, rfl⟩

/-- A reading that fails only for a variable that is set to what no one can read. -/
def Blames (env : Environment) (x : Except Fault α) : Prop :=
  ∀ e, x = .error e →
    ∃ name raw cause, env name = some raw ∧ raw ≠ "" ∧ Misread name raw cause ∧ e = .setting cause

theorem Blames.bind {β : Type} {x : Except Fault α} {f : α → Except Fault β} (hx : Blames env x)
    (hf : ∀ a, Blames env (f a)) : Blames env (x >>= f) := by
  intro e h
  cases x with
  | error e' =>
    cases h
    exact hx e rfl
  | ok a => exact hf a e h

private theorem blames_read {default : α} {reader : String → Except Fault α}
    (hreader : ∀ {raw e}, reader raw = .error e → ∃ cause, Misread name raw cause ∧ e = .setting cause) :
    Blames env (read env name default reader) := by
  intro e h
  rw [read] at h
  cases hg : given? env name with
  | none =>
    rw [hg] at h
    cases h
  | some raw =>
    rw [hg] at h
    obtain ⟨hset, hne⟩ := given?_eq_some.1 hg
    obtain ⟨cause, hm, he⟩ := hreader h
    exact ⟨name, raw, cause, hset, hne, hm, he⟩

private theorem blames_load : Blames env (load env) := by
  refine (blames_read readLevel_error).bind fun level => ?_
  refine (blames_read readSuite_error).bind fun s => ?_
  refine (blames_read readTrials_error).bind fun trials e h => ?_
  cases h

structure Decided (env : Environment) : Prop where
  asked : ∀ settings, load env = .ok settings ↔ Asked env settings
  sound : ∀ settings, load env = .ok settings → settings.Sound
  defaulted : ∀ settings, load env = .ok settings → Defaulted env settings
  blames : Blames env (load env)
  confined : ∀ other : Environment, (∀ name ∈ consulted, env name = other name) → load env = load other

theorem decided (env : Environment) : Decided env where
  asked _ := load_eq_ok
  sound _ h := (load_eq_ok.1 h).sound
  defaulted _ h := (load_eq_ok.1 h).defaulted
  blames := blames_load
  confined _ := load_congr

end Settings

end KeyCapsule
