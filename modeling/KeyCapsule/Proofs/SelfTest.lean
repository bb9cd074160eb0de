import KeyCapsule.Proofs.Settings
import KeyCapsule.SelfTest

/-! The commands, from the request to the exit code. Whatever is wrong with the settings, the number of trials
or a suite's name is found before the first key is made; behind that every selected suite is tested once. -/
namespace KeyCapsule.SelfTest
open CommandLine
variable {σ α : Type}

inductive Call
  | generate (s : Suite) (key : Except Fault PrivateKey)
  | check (s : Suite) (key : PrivateKey) (trials : Int) (report : Except Fault Report)

abbrev Traced (σ : Type) : Type := σ × List Call

def traced (call : Except Fault α → Call) (x : Act σ α) : Act (Traced σ) α := fun state =>
  let o := x.run state.1
  ⟨o.result, o.log, (o.state, state.2 ++ [call o.result])⟩

def Tools.traced (t : Tools σ) : Tools (Traced σ) where
  generate s := SelfTest.traced (.generate s) (t.generate s)
  check s key trials := SelfTest.traced (.check s key trials) (t.check s key trials)

/-- What an action may come to, from one state or another. -/
def Gives (x : Act σ α) (r : Except Fault α) : Prop := ∃ state, (x.run state).result = r

inductive Examined (t : Tools σ) (trials : Int) (s : Suite) : Except Fault Report → List Call → Prop
  | keyless {e : Fault} (h : Gives (t.generate s) (.error e)) : Examined t trials s (.error e) [.generate s (.error e)]
  | checked {key : PrivateKey} {r : Except Fault Report} (hkey : Gives (t.generate s) (.ok key))
      (h : Gives (t.check s key trials) r) : Examined t trials s r [.generate s (.ok key), .check s key trials r]

private theorem examine_keyless {t : Tools σ} {s : Suite} {state mid : σ} {e : Fault} {log : List Record}
    (h : (t.generate s).run state = ⟨.error e, log, mid⟩) (trials : Int) :
    (examine t trials s).run state = ⟨.error e, log, mid⟩ := by
  rw [examine, Act.run_bind, h]

private theorem examine_checked {t : Tools σ} {s : Suite} {state mid : σ} {key : PrivateKey} {log : List Record}
    (h : (t.generate s).run state = ⟨.ok key, log, mid⟩) (trials : Int) :
    (examine t trials s).run state =
      ((t.check s key trials).run mid).after (log ++ [.info logger ("checking " ++ s.name)]) := by
  rw [examine, Act.run_bind, h]
  simp only [Act.run_bind]
  rw [Outcome.after, Outcome.after, Outcome.after, List.append_assoc]
  rfl

private theorem run_traced (call : Except Fault α → Call) (x : Act σ α) (state : σ) (calls : List Call) :
    (traced call x).run (state, calls) =
      ⟨(x.run state).result, (x.run state).log, ((x.run state).state, calls ++ [call (x.run state).result])⟩ := rfl

private theorem examine_traced (t : Tools σ) (trials : Int) (s : Suite) (state : σ) (calls : List Call) :
    let o := (examine t trials s).run state
    ∃ more, (examine t.traced trials s).run (state, calls) = ⟨o.result, o.log, (o.state, calls ++ more)⟩ ∧
      Examined t trials s o.result more := by
  have hwritten := run_traced (.generate s) (t.generate s) state calls
  rcases hk : (t.generate s).run state with ⟨r | key, log, mid⟩
  · rw [hk] at hwritten
    rw [examine_keyless hk, examine_keyless hwritten]
    exact ⟨_, rfl, .keyless ⟨state, by rw [hk]⟩⟩
  · rw [hk] at hwritten
    rw [examine_checked hk, examine_checked hwritten]
    refine ⟨_, ?_, .checked ⟨state, by rw [hk]⟩ ⟨mid, rfl⟩⟩
    rw [Tools.traced, run_traced, Outcome.after, List.append_assoc]
    rfl

structure Exam where
  suite : Suite
  key : PrivateKey
  report : Report

namespace Exam

def calls (trials : Int) (x : Exam) : List Call :=
  [.generate x.suite (.ok x.key), .check x.suite x.key trials (.ok x.report)]

structure Held (t : Tools σ) (trials : Int) (x : Exam) : Prop where
  key : Gives (t.generate x.suite) (.ok x.key)
  report : Gives (t.check x.suite x.key trials) (.ok x.report)

private theorem of_examined {t : Tools σ} {trials : Int} {s : Suite} {report : Report} {calls : List Call}
    (h : Examined t trials s (.ok report) calls) :
    ∃ x : Exam, x.Held t trials ∧ x.suite = s ∧ x.report = report ∧ x.calls trials = calls := by
  cases h with
  | checked hkey h => exact ⟨⟨s, _, report⟩, ⟨hkey, h⟩, rfl, rfl, rfl⟩

end Exam

/-- What tests of some suites come to: the calls, the lines put out and the end. Each suite is examined once and
its summary put out; the code given beforehand stays unless a report has a failure. A fault ends the tests. -/
inductive Tested (t : Tools σ) (trials : Int) (code : Nat) :
    List Suite → List Call → List String → Except Fault Nat → Prop
  | finished (exams : List Exam) (h : ∀ x ∈ exams, x.Held t trials) :
      Tested t trials code (exams.map (·.suite)) (exams.flatMap (·.calls trials))
        (exams.map (·.report.summary)) (.ok (if ∃ x ∈ exams, x.report.failed ≠ [] then 1 else code))
  | broken (exams : List Exam) (h : ∀ x ∈ exams, x.Held t trials) {s : Suite} {e : Fault} {last : List Call}
      (hs : Examined t trials s (.error e) last) (rest : List Suite) :
      Tested t trials code (exams.map (·.suite) ++ s :: rest) (exams.flatMap (·.calls trials) ++ last)
        (exams.map (·.report.summary)) (.error e)

theorem Tested.cons {t : Tools σ} {trials : Int} {code : Nat} {x : Exam} {suites : List Suite} {calls : List Call}
    {lines : List String} {ending : Except Fault Nat} (hx : x.Held t trials)
    (h : Tested t trials (if x.report.ok then code else 1) suites calls lines ending) :
    Tested t trials code (x.suite :: suites) (x.calls trials ++ calls) (x.report.summary :: lines) ending := by
  cases h with
  | finished exams hall =>
    have hmore : Tested t trials code ((x :: exams).map (·.suite)) _ _ _ :=
      .finished (x :: exams) (List.forall_mem_cons.2 ⟨hx, hall⟩)
    rw [Report.ok]
    by_cases hfailed : x.report.failed = []
    · simpa [hfailed] using hmore
    · simpa [hfailed] using hmore
  | broken exams hall hs rest =>
    rw [← List.append_assoc]
    exact .broken (x :: exams) (List.forall_mem_cons.2 ⟨hx, hall⟩) hs rest

def printed (entries : List Entry) : List String :=
  entries.filterMap fun
    | .output line => some line
    | _ => none

private theorem printed_records (records : List Record) (entries : List Entry) :
    printed (records.map .record ++ entries) = printed entries := by
  induction records with
  | nil => rfl
  | cons r records ih => exact ih

private theorem printed_shown (l : Logging) (entries : List Entry) :
    printed (shown l entries) = printed entries := by
  fun_induction shown l entries with
  | case1 => rfl
  | case2 l r rest l' destinations he hd ih => exact ih
  | case3 l r rest l' destinations he hd ih => exact ih
  | case4 l entry rest hne ih =>
    simp only [printed, List.filterMap_cons] at ih ⊢
    rw [ih]

structure Mirrors (plain : Run σ) (run : Run (Traced σ)) : Prop where
  entries : run.entries = plain.entries
  ending : run.ending = plain.ending
  state : run.state.1 = plain.state

private theorem examineAll_broken {t : Tools σ} {trials : Int} {s : Suite} {state mid : σ} {e : Fault}
    {log : List Record}
    (h : (examine t trials s).run state = ⟨.error e, log, mid⟩) (rest : List Suite) (code : Nat) :
    examineAll t trials (s :: rest) code state = ⟨log.map .record, .error e, mid⟩ := by
  rw [Act.run] at h
  rw [examineAll, h]

private theorem examineAll_reported {t : Tools σ} {trials : Int} {s : Suite} {state mid : σ} {report : Report}
    {log : List Record} (h : (examine t trials s).run state = ⟨.ok report, log, mid⟩) (rest : List Suite)
    (code : Nat) :
    let later := examineAll t trials rest (if report.ok then code else 1) mid
    examineAll t trials (s :: rest) code state =
      ⟨log.map .record ++ .output report.summary :: later.entries, later.ending, later.state⟩ := by
  rw [Act.run] at h
  rw [examineAll, h]

private theorem examineAll_traced (t : Tools σ) (trials : Int) (suites : List Suite) (code : Nat) (state : σ)
    (calls : List Call) :
    let plain := examineAll t trials suites code state
    let run := examineAll t.traced trials suites code (state, calls)
    Mirrors plain run ∧ ∃ more, run.state.2 = calls ++ more ∧
      Tested t trials code suites more (printed plain.entries) plain.ending := by
  induction suites generalizing code state calls with
  | nil => exact ⟨⟨rfl, rfl, rfl⟩, [], (List.append_nil calls).symm, .finished [] (by simp)⟩
  | cons s rest ih =>
    obtain ⟨first, hrun, hexam⟩ := examine_traced t trials s state calls
    rcases ho : (examine t trials s).run state with ⟨e | report, log, mid⟩
    · rw [ho] at hrun hexam
      rw [examineAll_broken ho, examineAll_broken hrun]
      refine ⟨⟨rfl, rfl, rfl⟩, first, rfl, ?_⟩
      have hlines := printed_records log []
      rw [List.append_nil] at hlines
      rw [hlines]
      exact .broken [] (by simp) hexam rest
    · rw [ho] at hrun hexam
      obtain ⟨x, hx, rfl, rfl, rfl⟩ := Exam.of_examined hexam
      obtain ⟨⟨hentries, hending, hstate⟩, more, hcalls, htested⟩ :=
        ih (if x.report.ok then code else 1) mid (calls ++ x.calls trials)
      rw [examineAll_reported ho, examineAll_reported hrun]
      refine ⟨⟨?_, hending, hstate⟩, x.calls trials ++ more, ?_, ?_⟩
      · rw [hentries]
      · rw [hcalls, List.append_assoc]
      · rw [printed_records]
        exact htested.cons hx

structure Tools.Steady (t : Tools σ) : Prop where
  generate : ∀ s e, ¬ Gives (t.generate s) (.error e)
  check : ∀ s key trials e, ¬ Gives (t.check s key trials) (.error e)

/-- Behind steady tools every selected suite gets its report. -/
theorem Tested.steady {t : Tools σ} {trials : Int} {code : Nat} {suites : List Suite} {calls : List Call}
    {lines : List String} {ending : Except Fault Nat} (ht : t.Steady)
    (h : Tested t trials code suites calls lines ending) : ∃ last ∈ [code, 1], ending = .ok last := by
  cases h with
  | finished exams hall => exact ⟨_, by split <;> simp, rfl⟩
  | broken exams hall hs rest =>
    cases hs with
    | keyless h => exact absurd h (ht.generate _ _)
    | checked hkey h => exact absurd h (ht.check _ _ _ _)

def selected (suite : Option String) (all : Bool) (default : Suite) : List String :=
  if all then Suite.all.map Suite.name
  else if suite.getD "" = "" then [default.name]
  else [suite.getD ""]

inductive Refused (env : Environment) : Request → Prop
  | settings {r : Request} (h : ∀ settings, ¬ Settings.Asked env settings) : Refused env r
  | trials {settings : Settings} (hs : Settings.Asked env settings) {verbose : Bool} {suite : Option String}
      {all : Bool} {trials : Option Int} (h : trials.getD settings.trials < 1) :
      Refused env ⟨verbose, .selftest suite all trials⟩
  | suite {settings : Settings} (hs : Settings.Asked env settings) {verbose : Bool} {suite : Option String}
      {all : Bool} {trials : Option Int} {name : String} (h : name ∈ selected suite all settings.suite)
      (hname : name ∉ Suite.all.map Suite.name) : Refused env ⟨verbose, .selftest suite all trials⟩

inductive Planned (settings : Settings) : Command → Task → Prop
  | suites : Planned settings .suites .list
  | selftest {suite : Option String} {all : Bool} {trials : Option Int} {suites : List Suite}
      (hnames : suites.map Suite.name = selected suite all settings.suite) (hknown : ∀ s ∈ suites, s ∈ Suite.all)
      (htrials : 1 ≤ trials.getD settings.trials) :
      Planned settings (.selftest suite all trials) (.test suites (trials.getD settings.trials))
  | uncounted : Planned settings .uncounted .uncounted

inductive Selects (suite : Option String) (all : Bool) (default : Suite) : Except Refusal (List Suite) → Prop
  | known {suites : List Suite} (hnames : suites.map Suite.name = selected suite all default)
      (hknown : ∀ s ∈ suites, s ∈ Suite.all) : Selects suite all default (.ok suites)
  | unknown {name : String} (h : name ∈ selected suite all default) (hname : name ∉ Suite.all.map Suite.name) :
      Selects suite all default (.error (.unknownSuite name))

private theorem select_selects {default : Suite} (hdefault : default ∈ Suite.all) (suite : Option String)
    (all : Bool) :
    Selects suite all default (select suite all default) := by
  cases all with
  | true => exact .known rfl fun _ hm => hm
  | false =>
    rw [select, if_neg Bool.false_ne_true]
    by_cases hempty : suite.getD "" = ""
    · have hnames : selected suite false default = [default.name] := by simp [selected, hempty]
      have hfilter : (suite.filter fun name => !name.isEmpty) = none := by
        cases suite <;> simp_all
      rw [hfilter]
      exact .known hnames.symm (List.forall_mem_singleton.2 hdefault)
    · obtain ⟨name, rfl⟩ : ∃ name, suite = some name := by
        cases suite with
        | none => exact absurd rfl hempty
        | some name => exact ⟨name, rfl⟩
      have hnames : selected (some name) false default = [name] := by simp_all [selected]
      have hfilter : ((some name).filter fun name => !name.isEmpty) = some name := by simp_all
      rw [hfilter]
      dsimp only
      split
      case h_1 s hs =>
        obtain ⟨hm, rfl⟩ := Suite.named?_eq_some.1 hs
        exact .known hnames.symm (List.forall_mem_singleton.2 hm)
      case h_2 hs =>
        exact .unknown (hnames ▸ List.mem_singleton_self name) (Suite.named?_eq_none.1 hs)

inductive Plans (env : Environment) (r : Request) : Except Refusal (Int × Task) → Prop
  | refused {refusal : Refusal} (h : Refused env r) : Plans env r (.error refusal)
  | planned {settings : Settings} {level : Int} {task : Task} (hs : Settings.Asked env settings)
      (h : Planned settings r.command task) : Plans env r (.ok (level, task))

private theorem plan_plans (env : Environment) (r : Request) : Plans env r (plan env r) := by
  obtain ⟨verbose, command⟩ := r
  cases hl : Settings.load env with
  | error e =>
    have hplan : plan env ⟨verbose, command⟩ = .error (.settings e) := by
      rw [plan, hl]
      rfl
    rw [hplan]
    refine .refused (.settings fun settings hs => ?_)
    cases hl.symm.trans (Settings.load_eq_ok.2 hs)
  | ok settings =>
    have hs := Settings.load_eq_ok.1 hl
    have hmap : (Except.ok settings : Except Fault Settings).mapError Refusal.settings = .ok settings := rfl
    rw [plan, hl, hmap, ok_bind]
    cases command with
    | suites => exact .planned hs .suites
    | uncounted => exact .planned hs .uncounted
    | selftest suite all trials =>
      have hselects := select_selects hs.sound.suite suite all
      dsimp only
      by_cases htrials : trials.getD settings.trials < 1
      · rw [if_pos htrials]
        exact .refused (.trials hs htrials)
      · rw [if_neg htrials]
        cases hsel : select suite all settings.suite with
        | error refusal =>
          rw [hsel] at hselects
          cases hselects with
          | unknown h hname => exact .refused (.suite hs h hname)
        | ok suites =>
          rw [hsel] at hselects
          cases hselects with
          | known hnames hknown => exact .planned hs (.selftest hnames hknown (Int.not_lt.1 htrials))

private theorem Planned.not_refused {env : Environment} {r : Request} {settings : Settings} {task : Task}
    (hs : Settings.Asked env settings) (h : Planned settings r.command task) : ¬ Refused env r := by
  -- an environment asks for one choice of settings at most
  have hone : ∀ {other}, Settings.Asked env other → other = settings := by
    intro other ho
    cases (Settings.load_eq_ok.2 ho).symm.trans (Settings.load_eq_ok.2 hs)
    rfl
  intro hr
  cases hr with
  | settings hnone => exact hnone settings hs
  | trials ho hless =>
    cases hone ho
    cases h with
    | selftest hnames hknown htrials => omega
  | suite ho hm hname =>
    cases hone ho
    cases h with
    | selftest hnames hknown htrials =>
      rw [← hnames] at hm
      obtain ⟨s, hs, rfl⟩ := List.mem_map.1 hm
      exact hname (List.mem_map_of_mem (hknown s hs))

inductive Done (t : Tools σ) : Task → List Call → List String → Except Fault Nat → Prop
  | list : Done t .list [] (Suite.all.map suiteLine) (.ok 0)
  | test {suites : List Suite} {trials : Int} {calls : List Call} {lines : List String} {ending : Except Fault Nat}
      (h : Tested t trials 0 suites calls lines ending) : Done t (.test suites trials) calls lines ending
  | uncounted : Done t .uncounted [] [] (.error Fault.incomparable)

private theorem perform_traced (t : Tools σ) (state : σ) (task : Task) :
    let plain := perform t state task
    let run := perform t.traced (state, []) task
    Mirrors plain run ∧ Done t task run.state.2 (printed plain.entries) plain.ending := by
  cases task with
  | list => exact ⟨⟨rfl, rfl, rfl⟩, .list⟩
  | uncounted => exact ⟨⟨rfl, rfl, rfl⟩, .uncounted⟩
  | test suites trials =>
    obtain ⟨hmirrors, calls, hcalls, htested⟩ := examineAll_traced t trials suites 0 state []
    refine ⟨hmirrors, .test ?_⟩
    rw [perform, hcalls]
    exact htested

private theorem Done.ending_ne {t : Tools σ} {task : Task} {calls : List Call} {lines : List String}
    {ending : Except Fault Nat} (h : Done t task calls lines ending) : ending ≠ .ok 2 := by
  rcases h with - | h | -
  · simp
  · rcases h with ⟨exams, hall⟩ | -
    · split <;> simp
    · simp
  · simp

theorem Done.steady {t : Tools σ} {task : Task} {calls : List Call} {lines : List String}
    {ending : Except Fault Nat} (ht : t.Steady) (h : Done t task calls lines ending) (hc : task ≠ .uncounted) :
    ∃ code ∈ [0, 1], ending = .ok code := by
  cases h with
  | list => exact ⟨0, by decide, rfl⟩
  | test h => exact h.steady ht
  | uncounted => exact absurd rfl hc

private theorem Planned.counted {settings : Settings} {command : Command} {task : Task}
    (h : Planned settings command task) (hc : command ≠ .uncounted) : task ≠ .uncounted := by
  rintro rfl
  cases h
  exact hc rfl

structure Answers (t : Tools σ) (state : σ) (env : Environment) (r : Request) : Prop where
  settings : Settings.Decided env
  mirrors : Mirrors (answer t state env r) (answer t.traced (state, []) env r)
  refused : (answer t state env r).ending = .ok 2 ↔ Refused env r
  silent : Refused env r → (answer t.traced (state, []) env r).state = (state, []) ∧
    ∀ stamp, (answer t state env r).entries.filterMap (Entry.output? stamp) = []
  performed : ¬ Refused env r → ∃ settings task, Settings.Asked env settings ∧ Planned settings r.command task ∧
    Done t task (answer t.traced (state, []) env r).state.2 (printed (answer t state env r).entries)
      (answer t state env r).ending
  steady : t.Steady → r.command ≠ .uncounted → ∃ code ∈ [0, 1, 2], (answer t state env r).ending = .ok code

private theorem answer_refused {env : Environment} {r : Request} {refusal : Refusal}
    (h : plan env r = .error refusal)
    (t : Tools σ) (state : σ) : answer t state env r = ⟨[.complaint refusal.text], .ok 2, state⟩ := by
  rw [answer, h]

private theorem answer_planned {env : Environment} {r : Request} {level : Int} {task : Task}
    (h : plan env r = .ok (level, task)) (t : Tools σ) (state : σ) :
    let run := perform t state task
    answer t state env r =
      ⟨shown (Logging.configure {} level standardOutput) run.entries, run.ending, run.state⟩ := by
  rw [answer, h]

/-- Every request under every environment, with tools of any kind. -/
theorem request_answered (t : Tools σ) (state : σ) (env : Environment) (r : Request) : Answers t state env r := by
  have hplans := plan_plans env r
  cases hp : plan env r with
  | error refusal =>
    rw [hp] at hplans
    rcases hplans with hr | -
    have hplain := answer_refused hp t state
    have hwritten := answer_refused hp t.traced (state, [])
    constructor
    · exact Settings.decided env
    · rw [hplain, hwritten]
      exact ⟨rfl, rfl, rfl⟩
    · rw [hplain]
      exact iff_of_true rfl hr
    · intro _
      rw [hplain, hwritten]
      exact ⟨rfl, fun stamp => rfl⟩
    · exact fun hn => absurd hr hn
    · intro _ _
      rw [hplain]
      exact ⟨2, by decide, rfl⟩
  | ok planned =>
    obtain ⟨level, task⟩ := planned
    rw [hp] at hplans
    rcases hplans with - | ⟨hs, htask⟩
    have hr := htask.not_refused hs
    obtain ⟨⟨hentries, hending, hstate⟩, hdone⟩ := perform_traced t state task
    have hplain := answer_planned hp t state
    have hwritten := answer_planned hp t.traced (state, [])
    constructor
    · exact Settings.decided env
    · rw [hplain, hwritten]
      exact ⟨by rw [hentries], hending, hstate⟩
    · rw [hplain]
      exact iff_of_false hdone.ending_ne hr
    · exact fun hr' => absurd hr' hr
    · intro _
      rw [hplain, hwritten, printed_shown]
      exact ⟨_, task, hs, htask, hdone⟩
    · intro ht hc
      rw [hplain]
      obtain ⟨code, hm, he⟩ := hdone.steady ht (htask.counted hc)
      exact ⟨code, List.mem_append_left [2] hm, he⟩

def oneFailing : Tools Unit where
  generate _ := pure (.seed .x25519 ⟨List.replicate 32 0, by decide⟩)
  check s _ _ := pure ⟨.text s.name, [], if s.kemId = 0x11 then [("round_trip", "recovered secret differs")] else []⟩

theorem request_answered_failing :
    let env : Environment := fun name => if name = "KEMKIT_SELFTEST_TRIALS" then some "3" else none
    let r : Request := ⟨true, .selftest none true none⟩
    let run := answer oneFailing.traced ((), []) env r
    Answers oneFailing () env r ∧ oneFailing.Steady ∧ ¬ Refused env r ∧ run.ending = .ok 1 ∧
      run.state.2.length = 10 ∧ printed run.entries = ["DHKEM-P256-HKDF-SHA256: 0 passed, 0 failed",
        "DHKEM-P384-HKDF-SHA384: 0 passed, 1 failed\n  FAIL round_trip: recovered secret differs",
        "DHKEM-P521-HKDF-SHA512: 0 passed, 0 failed", "DHKEM-X25519-HKDF-SHA256: 0 passed, 0 failed",
        "DHKEM-X448-HKDF-SHA512: 0 passed, 0 failed"] := by
  intro env r run
  have h := request_answered oneFailing () env r
  have hending : run.ending = .ok 1 := by rfl
  refine ⟨h, ⟨?_, ?_⟩, ?_, hending, by rfl, by decide +kernel⟩
  · rintro s e ⟨state, ⟨⟩⟩
  · rintro s key trials e ⟨state, ⟨⟩⟩
  · rw [← h.refused, ← h.mirrors.ending, hending]
    simp

end KeyCapsule.SelfTest
