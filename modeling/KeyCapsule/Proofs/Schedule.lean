import KeyCapsule.Proofs.Blameless
import KeyCapsule.Proofs.Degenerate
import KeyCapsule.Proofs.Opening
import KeyCapsule.Proofs.Pool

/-! Schedules of the concurrent requests. They take the draws of a shared source in any order, and behind one
that failed they may be dropped; what the check makes of their results is the same for every order. -/
namespace KeyCapsule
variable {σ α β : Type}

namespace Act

def Steady (x : Act σ α) : Prop := ∀ s t, (x.run s).result = (x.run t).result

private theorem steady_lift (x : Except Fault α) : (liftM x : Act σ α).Steady := fun _ _ => rfl

theorem Yields.steady {x : Act σ α} {r : Except Fault α} (h : x.Yields r) : x.Steady :=
  fun s t => (h.result s).trans (h.result t).symm

theorem Steady.bind {x : Act σ α} {f : α → Act σ β} (hx : x.Steady) (hf : ∀ a, (f a).Steady) :
    (x >>= f).Steady := by
  intro s t
  rw [run_bind, run_bind, hx s t]
  cases (x.run t).result with
  | error e => rfl
  | ok a => exact hf a _ _

theorem Steady.forM {f : α → Act σ PUnit} (hf : ∀ a, (f a).Steady) (items : List α) :
    (items.forM f).Steady := by
  induction items with
  | nil => exact steady_lift (.ok _)
  | cons a rest ih => exact (hf a).bind fun _ => ih

private theorem Steady.forM_ok {f : α → Act σ PUnit} (hf : ∀ a, (f a).Steady) {items : List α} {s : σ} :
    ((items.forM f).run s).result = .ok ⟨⟩ ↔ ∀ a ∈ items, ((f a).run s).result = .ok ⟨⟩ := by
  induction items with
  | nil => exact ⟨fun _ _ h => (List.not_mem_nil h).elim, fun _ => rfl⟩
  | cons a rest ih =>
    rw [List.forall_mem_cons, ← ih, List.forM, result_bind_eq_ok]
    constructor
    · rintro ⟨_, ha, hrest⟩
      exact ⟨ha, (Steady.forM hf rest _ _).trans hrest⟩
    · rintro ⟨ha, hrest⟩
      exact ⟨_, ha, (Steady.forM hf rest _ _).trans hrest⟩

end Act

namespace Source

def outcomes (source : Source σ) (wanted : Datum) : Nat → σ → List (Except Fault Datum)
  | 0, _ => []
  | n + 1, s =>
    ((source.draw wanted).run s).result :: outcomes source wanted n ((source.draw wanted).run s).state

def stateAfter (source : Source σ) (wanted : Datum) : Nat → σ → σ
  | 0, s => s
  | n + 1, s => stateAfter source wanted n ((source.draw wanted).run s).state

private theorem outcomes_add (source : Source σ) (wanted : Datum) (m n : Nat) (s : σ) :
    source.outcomes wanted (m + n) s =
      source.outcomes wanted m s ++ source.outcomes wanted n (source.stateAfter wanted m s) := by
  induction m generalizing s with
  | zero => rw [Nat.zero_add]; rfl
  | succ m ih => rw [Nat.add_right_comm, outcomes, ih]; rfl

end Source

namespace Conformance

/-- A pair that settles a request by one draw from a source. What the request comes to is told by the outcome
of its draw, and what a message opens to by the message. -/
structure Determined (b : Bench σ) (source : Source σ) (wanted : Datum)
    (answer : Except Fault Datum → Except Fault Encapsulated) : Prop where
  sealed : ∀ s, b.enc.whole.Ends s (answer ((source.draw wanted).run s).result)
    ((source.draw wanted).run s).state
  opened : ∀ m, (b.dec.whole m).Steady
  sized : b.enc.encapsulationSize.Steady

def secret? (result : Except Fault Encapsulated) : Option Bytes := result.toOption.map fun r => r.key.encoded

/-- What has to hold of the results for the check to pass: none failed, no secret was given twice, and every
message opens to its key. -/
structure Accepted (b : Bench σ) (results : List (Except Fault Encapsulated)) (s : σ) : Prop where
  ok : ∀ x ∈ results, ∃ r, x = .ok r
  distinct : (results.filterMap secret?).Nodup
  reopened : ∀ r, .ok r ∈ results → ((reopen b r).run s).result = .ok ()

private theorem exists_map_ok {results : List (Except Fault α)} (h : ∀ x ∈ results, ∃ a, x = .ok a) :
    ∃ values : List α, results = values.map .ok := by
  induction results with
  | nil => exact ⟨[], rfl⟩
  | cons x rest ih =>
    obtain ⟨a, rfl⟩ := h x List.mem_cons_self
    obtain ⟨values, rfl⟩ := ih fun y hy => h y (List.mem_cons_of_mem _ hy)
    exact ⟨a :: values, rfl⟩

private theorem secrets_map_ok (values : List Encapsulated) :
    (values.map .ok).filterMap secret? = values.map fun r => r.key.encoded := by
  rw [List.filterMap_map]
  exact congrFun (List.filterMap_eq_map ..) values

private theorem Accepted.perm {b : Bench σ} {first second : List (Except Fault Encapsulated)} {s : σ}
    (h : Accepted b first s) (hp : first.Perm second) : Accepted b second s where
  ok x hx := h.ok x (hp.symm.subset hx)
  distinct := (hp.filterMap _).nodup_iff.1 h.distinct
  reopened r hr := h.reopened r (hp.symm.subset hr)

private theorem steady_require (holds : Bool) (breach : Breach) :
    (require holds breach : Act σ Unit).Steady := by
  cases holds <;> exact fun _ _ => rfl

namespace Determined
variable {b : Bench σ} {source : Source σ} {wanted : Datum}
  {answer : Except Fault Datum → Except Fault Encapsulated} (h : Determined b source wanted answer)
include h

private theorem steady_reopen (r : Encapsulated) : (reopen b r).Steady :=
  (Act.steady_lift _).bind fun _ => h.sized.bind fun _ => (steady_require _ _).bind fun _ =>
    (h.opened _).bind fun _ => steady_require _ _

private theorem steady_judgeConcurrent (results : List Encapsulated) : (judgeConcurrent b results).Steady :=
  (steady_require _ _).bind fun _ => .forM h.steady_reopen _

private theorem judge_ok {results : List (Except Fault Encapsulated)} {s : σ} :
    ((judgeResults b results).run s).result = .ok () ↔ Accepted b results s := by
  rw [judgeResults, Act.result_bind_eq_ok]
  constructor
  · rintro ⟨values, hsettle, hj⟩
    obtain rfl := settle_eq_ok.1 hsettle
    rw [judgeConcurrent_eq] at hj
    obtain ⟨_, hd, hr⟩ := Act.result_bind_eq_ok.1 hj
    rw [state_require] at hr
    have hreopened := (Act.Steady.forM_ok h.steady_reopen).1 hr
    exact ⟨by simp, (secrets_map_ok values).symm ▸ (keys_distinct_iff _).1 (require_ok hd),
      fun r hmem => hreopened r (by simpa using hmem)⟩
  · rintro ⟨hok, hdistinct, hreopened⟩
    obtain ⟨values, rfl⟩ := exists_map_ok hok
    rw [secrets_map_ok] at hdistinct
    refine ⟨values, settle_ok values, ?_⟩
    rw [judgeConcurrent_eq, (keys_distinct_iff values).2 hdistinct]
    exact (Act.Steady.forM_ok h.steady_reopen).2 fun r hr => hreopened r (List.mem_map_of_mem hr)

theorem ends_gather (n : Nat) (s : σ) : (gather b.enc.whole n).Ends s
    (.ok ((source.outcomes wanted n s).map answer)) (source.stateAfter wanted n s) := by
  induction n generalizing s with
  | zero => exact Act.ends_pure [] s
  | succ n ih => exact (h.sealed s).attempt.bind ((ih _).bind (Act.ends_pure _ _))

/-- The check that makes its requests one after another is one of the schedules. -/
private theorem concurrent_result (hw : 1 ≤ b.workers) (s t : σ) :
    ((concurrentEncapsulation b).run s).result =
      ((judgeResults b ((source.outcomes wanted (2 * b.workers.toNat) s).map answer)).run t).result := by
  have hcount : 2 * b.workers.toNat = 2 * b.workers.toNat - 1 + 1 := by omega
  have hbegun := h.ends_gather (2 * b.workers.toNat - 1) s
  have hlast := h.ends_gather 1 (source.stateAfter wanted (2 * b.workers.toNat - 1) s)
  rw [concurrentEncapsulation, if_neg (by omega), Act.run_bind_ok hbegun.1, hbegun.2]
  conv_rhs => rw [hcount, Source.outcomes_add, List.map_append, judgeResults, settle_append]
  cases settle ((source.outcomes wanted (2 * b.workers.toNat - 1) s).map answer) with
  | error e => rfl
  | ok first =>
    rw [Act.lift_ok, Act.pure_bind, Outcome.result_after, Act.run_bind_ok hlast.1, hlast.2]
    cases settle ((source.outcomes wanted 1 (source.stateAfter wanted (2 * b.workers.toNat - 1) s)).map answer) with
    | error e => rfl
    | ok second => exact h.steady_judgeConcurrent (first ++ second) _ _

/-- Whatever the order, the requests pass exactly if the check passes that makes them one by one. -/
private theorem pool_ok (hw : 1 ≤ b.workers) {s : σ} {pool : Pool (Except Fault Datum) Encapsulated}
    (hrun : Pool.Run answer (.begun (source.outcomes wanted (2 * b.workers.toNat) s)) pool)
    (hf : pool.Finished) (t : σ) :
    ((judgeResults b pool.results).run t).result = .ok () ↔
      ((concurrentEncapsulation b).run s).result = .ok () := by
  rw [h.concurrent_result hw s t, h.judge_ok, h.judge_ok]
  rcases hrun.kept.finished hf with hperm | ⟨⟨e, he⟩, e', he'⟩
  · exact ⟨fun ha => ha.perm hperm, fun ha => ha.perm hperm.symm⟩
  · constructor
    · intro ha
      obtain ⟨r, hr⟩ := ha.ok _ he
      cases hr
    · intro ha
      obtain ⟨r, hr⟩ := ha.ok _ he'
      cases hr

end Determined

theorem failsBy_judgeResults {allowed : Fault → Prop} (ha : ∀ e, e.Recorded → allowed e) {b : Bench σ}
    (hsized : b.enc.encapsulationSize.FailsBy allowed) (hopened : ∀ m, (b.dec.whole m).FailsBy allowed)
    {results : List (Except Fault Encapsulated)} (hresults : ∀ e, .error e ∈ results → allowed e) :
    (judgeResults b results).FailsBy allowed := by
  have hfails {α : Type} {x : Act σ α} := Act.failsBy_iff ha (x := x)
  refine (Act.failsBy_iff ha).2 ((keeps_settle (ρ := Rule.failing allowed ha) hresults).bind fun values => ?_)
  exact keeps_judgeConcurrent (hfails.1 hsized) (fun m => hfails.1 (hopened m)) values

private theorem judge_recorded {b : Bench σ} {results : List (Except Fault Encapsulated)}
    (hresults : ∀ e, .error e ∈ results → e.Recorded)
    (hopened : ∀ m, (b.dec.whole m).FailsBy Fault.Recorded)
    (hsized : b.enc.encapsulationSize.FailsBy Fault.Recorded) (t : σ) :
    ∃ v, ((judge (judgeResults b results)).run t).result = .ok v := by
  rw [judge_run]
  cases hr : ((judgeResults b results).run t).result with
  | ok u => exact ⟨_, rfl⟩
  | error e =>
    exact ⟨_, judged_recorded (failsBy_judgeResults (fun _ => id) hsized hopened hresults t e hr)⟩

/-! Whole reports. -/

/-- A run of the checks in which the concurrent requests came to these results. -/
def runWith (title : Datum) (b : Bench σ) (results : List (Except Fault Encapsulated)) : Act σ Report := do
  let before ← verdicts title b Check.all.dropLast
  let last ← judge (judgeResults b results)
  Act.report (.debug logger (title.plain ++ ": " ++ Check.concurrentEncapsulation.name))
  return reportOf title (before ++ [(.concurrentEncapsulation, last)])

def checkWith (p : Provider σ) (sender receiver : KeyValue) (params : ParamsValue) (trials workers : Int)
    (choice : SourceChoice σ) (name : Datum) (results : List (Except Fault Encapsulated)) : Act σ Report := do
  let title ← (titleOf p name : Except Fault Datum)
  let enc ← p.newEncapsulator sender params choice
  let dec ← p.newDecapsulator receiver params
  runWith title ⟨enc, dec, trials, workers⟩ results

namespace Lawful
variable {b : Bench σ} {p : Practice σ} {source : Source σ} {wanted : Datum}
  {answer : Except Fault Datum → Except Fault Encapsulated}

private theorem answers_outcomes {given : Nat → Encapsulated} (hd : Determined b source wanted answer)
    (hgiven : ∀ n, b.enc.whole.Ends (p.place n) (.ok (given n)) (p.place (n + 1))) (k n : Nat) :
    (source.outcomes wanted k (p.place n)).map answer = ((List.range' n k).map given).map .ok := by
  induction k generalizing n with
  | zero => rfl
  | succ k ih =>
    have hs := hd.sealed (p.place n)
    have hstate : ((source.draw wanted).run (p.place n)).state = p.place (n + 1) :=
      hs.2.symm.trans (hgiven n).2
    rw [Source.outcomes, List.map_cons, ← hs.1, (hgiven n).1, hstate, ih]
    rfl

private theorem pool_verdict (h : Lawful b p) (hd : Determined b source wanted answer) {n : Nat}
    {pool : Pool (Except Fault Datum) Encapsulated}
    (hrun : Pool.Run answer (.begun (source.outcomes wanted (2 * b.workers.toNat) (p.place n))) pool)
    (hf : pool.Finished) (t : σ) :
    ((judgeResults b pool.results).run t).result = verdict p b.workers n .concurrentEncapsulation := by
  choose given hgiven using h.ends_whole
  have hall := answers_outcomes hd (fun n => (hgiven n).1) (2 * b.workers.toNat) n
  have hperm : pool.results.Perm (((List.range' n (2 * b.workers.toNat)).map given).map .ok) := by
    rcases hrun.kept.finished hf with hperm | ⟨-, e, he⟩
    · exact hall ▸ hperm
    · rw [hall] at he
      obtain ⟨r, -, hr⟩ := List.mem_map.1 he
      cases hr
  obtain ⟨values, hv⟩ := exists_map_ok fun x hx => by
    obtain ⟨r, -, hr⟩ := List.mem_map.1 (hperm.subset hx)
    exact ⟨r, hr.symm⟩
  have hkeys : (values.map fun r => r.key.encoded).Perm (secrets p.turn n (2 * b.workers.toNat)) := by
    have hk := hperm.filterMap secret?
    rw [hv, secrets_map_ok, secrets_map_ok, List.map_map] at hk
    refine hk.trans (.of_eq ?_)
    exact List.map_congr_left fun i _ => (hgiven i).2.2.1
  have hopen : ∀ r ∈ values, (reopen b r).Ends t (.ok ()) t := by
    intro r hr
    obtain ⟨r', hmem, he⟩ := List.mem_map.1 (hperm.subset (hv ▸ List.mem_map_of_mem hr))
    cases he
    obtain ⟨i, -, rfl⟩ := List.mem_map.1 hmem
    exact h.ends_reopen (hgiven i).2.1 (hgiven i).2.2.1 (hgiven i).2.2.2 t
  rw [judgeResults, hv, settle_ok, Act.lift_ok, Act.pure_bind, judgeConcurrent_eq, verdict]
  by_cases hd : (secrets p.turn n (2 * b.workers.toNat)).Nodup
  · rw [if_pos hd]
    exact ((ends_require ((keys_distinct_iff _).2 (hkeys.nodup_iff.2 hd)) _ _).bind
      (ends_forM hopen)).1
  · rw [if_neg hd]
    have hrepeat := Bool.eq_false_iff.2 fun hk => hd (hkeys.nodup_iff.1 ((keys_distinct_iff values).1 hk))
    exact (ends_require_not hrepeat _ _).bind_error.1

private theorem runWith_result (h : Lawful b p) (hd : Determined b source wanted answer) (hw : 1 ≤ b.workers)
    {pool : Pool (Except Fault Datum) Encapsulated}
    (hrun : Pool.Run answer (.begun (source.outcomes wanted (2 * b.workers.toNat)
      (p.place (start p b.trials b.workers .concurrentEncapsulation)))) pool)
    (hf : pool.Finished) (title : Datum) :
    ((runWith title b pool.results).run (p.place 0)).result = ((run title b).run (p.place 0)).result := by
  obtain ⟨t, hbefore⟩ := h.ends_verdicts hw title Check.all.dropLast 0
  have hlast : (judge (judgeResults b pool.results)).Ends t
      (.ok (verdict p b.workers (start p b.trials b.workers .concurrentEncapsulation) .concurrentEncapsulation))
      ((judgeResults b pool.results).run t).state := by
    rw [Act.Ends, judge_run, h.pool_verdict hd hrun hf, judged_verdict]
    exact ⟨rfl, rfl⟩
  have hall : verdictsFrom p b.trials b.workers 0 Check.all.dropLast ++
      [(.concurrentEncapsulation,
        verdict p b.workers (start p b.trials b.workers .concurrentEncapsulation) .concurrentEncapsulation)] =
      Check.all.map fun c => (c, verdict p b.workers (start p b.trials b.workers c) c) := by
    rw [← verdictsFrom_all]
    simp only [Check.all, List.dropLast, verdictsFrom, List.cons_append, List.nil_append, start, turns,
      Nat.zero_add, Nat.two_mul]
  have hend := hbefore.bind (f := fun before => judge (judgeResults b pool.results) >>= fun last =>
    Act.report (.debug logger (title.plain ++ ": " ++ Check.concurrentEncapsulation.name)) >>= fun _ =>
      Pure.pure (reportOf title (before ++ [(.concurrentEncapsulation, last)])))
    (hlast.bind ((Act.ends_of_run rfl).bind (Act.ends_pure _ _)))
  rw [h.run_result hw title, ← hall]
  exact hend.1

private theorem checks_agree (h : Lawful b p) (hd : Determined b source wanted answer) (hw : 1 ≤ b.workers)
    {q : Provider σ} {sender receiver : KeyValue} {params : ParamsValue} {choice : SourceChoice σ}
    {title : Datum}
    (hs : Staged q sender receiver params choice title (p.place 0) b.enc b.dec (p.place 0)) :
    ∃ report, ((check q sender receiver params b.trials b.workers choice title).run (p.place 0)).result =
        .ok report ∧
      ∀ pool, Pool.Run answer (.begun (source.outcomes wanted (2 * b.workers.toNat)
          (p.place (start p b.trials b.workers .concurrentEncapsulation)))) pool → pool.Finished →
        ((checkWith q sender receiver params b.trials b.workers choice title pool.results).run
          (p.place 0)).result = .ok report := by
  obtain ⟨own, -, hbound⟩ := hs.bound
  refine ⟨_, (hbound _).trans (h.run_result hw own), fun pool hrun hf => ?_⟩
  exact (hbound _).trans ((h.runWith_result hd hw hrun hf own).trans (h.run_result hw own))

end Lawful

end Conformance

open Conformance

namespace Plan

def settle (p : Plan) (first last label : Datum) (outcome : Except Fault Datum) :
    Except Fault Encapsulated := do
  let material ← Source.accept (.int p.wanted) (← outcome)
  p.answer material first last label

private theorem determined {p : Plan} {source : Source σ} {b : Bench σ} {first last : Datum}
    (hs : b.enc.encapsulate = p.serve source)
    (hg : p.grant (.int 0) .none SecretKey.generic = .ok (first, last))
    (hd : ∀ m, (b.dec.whole m).Steady) (hsize : b.enc.encapsulationSize.Steady) :
    Determined b source (.int p.wanted) (p.settle first last SecretKey.generic) where
  sealed s := by
    have hread : (source.read (.int p.wanted)).run s = ⟨((source.draw (.int p.wanted)).run s).result >>=
        Source.accept (.int p.wanted), ((source.draw (.int p.wanted)).run s).log,
        ((source.draw (.int p.wanted)).run s).state⟩ := Act.run_bind_lift _ _ s
    have hrun := run_granted source s hg
    rw [hread] at hrun
    rw [Encapsulator.whole, hs, Act.Ends, hrun]
    refine ⟨?_, rfl⟩
    cases ((source.draw (.int p.wanted)).run s).result <;> rfl
  opened := hd
  sized := hsize

end Plan

namespace DhKem
variable {g : KeyAgreement} {key : PrivateKey} {source : Source σ}

def settle (g : KeyAgreement) (receiver : PublicKey) : Except Fault Datum → Except Fault Encapsulated :=
  (plan g (Suite.ofGroup receiver.group) receiver).settle (.int 0)
    (.int (Suite.ofGroup receiver.group).secretSize) SecretKey.generic

private theorem determined (g : KeyAgreement) (key : PrivateKey) (source : Source σ) (trials workers : Int) :
    Determined (bench g key source trials workers) source
      (.int (Suite.ofGroup (g.publicOf key).group).privateKeySize) (settle g (g.publicOf key)) := by
  refine Plan.determined (p := plan g (Suite.ofGroup (g.publicOf key).group) (g.publicOf key)) ?_
    (grant_whole g (g.publicOf key)) (fun m => ?_) (Act.steady_lift (.ok _))
  · funext start stop label
    exact sender_serves g _ (g.publicOf key) source start stop label
  · obtain ⟨r, hr⟩ := DhKem.told_receiver g (Suite.ofGroup key.group) key m (.int 0) .none SecretKey.generic
    exact (hr σ).steady

end DhKem

namespace MockKem
variable {k k' : MockKey} {p : MockParameters} {secret message : Int} {source : Source σ}

def settle (k : MockKey) (p : MockParameters) (secret message : Int) :
    Except Fault Datum → Except Fault Encapsulated :=
  (plan k p message).settle (.int 0) (.int secret) SecretKey.generic

private theorem determined (hp : InRange p secret message) (k k' : MockKey) (source : Source σ)
    (trials workers : Int) :
    Determined (bench k k' p source trials workers) source (.int (nonceSize message))
      (settle k p secret message) := by
  have hw := plan_grant (grant_whole hp "MockEncapsulator" ()) k message
  refine Plan.determined (p := plan k p message) ?_ hw (fun m => ?_) (Act.steady_lift (.ok _))
  · funext start stop label
    exact sender_serves k hp.encapsulationSize source start stop label
  · obtain ⟨r, hr⟩ := MockKem.told_receiver k' p m (.int 0) .none SecretKey.generic
    exact (hr σ).steady

end MockKem

/-- The order in which the concurrent requests take their draws makes no difference. Every order occurs, and
whichever requests are dropped, the check passes exactly if it passes when they are made one by one; where
only exceptions occur that tell their texts it is judged. For matching pairs of both providers, whose draws all give
encapsulations, the whole report stays the same. -/
theorem schedule_irrelevant (σ : Type) :
    (∀ {b : Bench σ} {source : Source σ} {wanted : Datum}
      {answer : Except Fault Datum → Except Fault Encapsulated},
      Determined b source wanted answer → 1 ≤ b.workers → ∀ s,
      let outcomes := source.outcomes wanted (2 * b.workers.toNat) s
      (∀ order, outcomes.Perm order →
        Pool.Run answer (.begun outcomes) ⟨[], order.map fun outcome => .done (answer outcome)⟩) ∧
      ∀ pool, Pool.Run answer (.begun outcomes) pool → pool.Finished → ∀ t,
        (((judgeResults b pool.results).run t).result = .ok () ↔
          ((concurrentEncapsulation b).run s).result = .ok ()) ∧
        ((∀ e, .error e ∈ outcomes.map answer → e.Recorded) →
          (∀ m, (b.dec.whole m).FailsBy Fault.Recorded) →
          b.enc.encapsulationSize.FailsBy Fault.Recorded →
          ∃ v, ((judge (judgeResults b pool.results)).run t).result = .ok v)) ∧
    (∀ {g : KeyAgreement} {key : PrivateKey} {params : ParamsValue} {entropy source : Source σ}
      {choice : SourceChoice σ} {s : σ} {material : Nat → Bytes} {t : Nat → Transcript} {workers : Int}
      (name title : Datum) (trials : Int),
      g.Lawful → DhKem.checkParams (Suite.ofGroup key.group) params = .ok () →
      choice.resolve entropy = .ok source →
      source.Delivers (Suite.ofGroup key.group).privateKeySize s material →
      (∀ n, Transcript.sealed? g (g.publicOf key) (material n) = some (t n)) → 1 ≤ workers →
      let p := DhKem.practice g key source s t
      let outcomes := source.outcomes (.int (Suite.ofGroup (g.publicOf key).group).privateKeySize)
        (2 * workers.toNat) (p.place (start p trials workers .concurrentEncapsulation))
      ∃ report, ((check (DhKem.named name g entropy) (.publicKey (g.publicOf key)) (.privateKey key) params
          trials workers choice title).run s).result = .ok report ∧
        ∀ pool, Pool.Run (DhKem.settle g (g.publicOf key)) (.begun outcomes) pool → pool.Finished →
          ((checkWith (DhKem.named name g entropy) (.publicKey (g.publicOf key)) (.privateKey key) params
            trials workers choice title pool.results).run s).result = .ok report) ∧
    ∀ {k k' : MockKey} {q : MockParameters} {secret message : Int} {material : Bytes}
      {entropy source : Source σ} {choice : SourceChoice σ} {s : σ} {nonce : Nat → Bytes} {workers : Int}
      (name title : Datum) (trials : Int),
      k.material = .bytes material → k'.material = .bytes material → q.secretSize = .int secret →
      q.encapsulationSize = .int message → MockKem.checkParams (.mock q) = .ok q →
      choice.resolve entropy = .ok source →
      source.Delivers (MockKem.nonceSize message) s nonce → 1 ≤ workers →
      let p := MockKem.practice k q secret message material source s nonce
      let outcomes := source.outcomes (.int (MockKem.nonceSize message)) (2 * workers.toNat)
        (p.place (start p trials workers .concurrentEncapsulation))
      ∃ report, ((check (MockKem.named name entropy) (.mock .sender k) (.mock .receiver k') (.mock q) trials
          workers choice title).run s).result = .ok report ∧
        ∀ pool, Pool.Run (MockKem.settle k q secret message) (.begun outcomes) pool → pool.Finished →
          ((checkWith (MockKem.named name entropy) (.mock .sender k) (.mock .receiver k') (.mock q) trials
            workers choice title pool.results).run s).result = .ok report := by
  refine ⟨?_, ?_, ?_⟩
  · intro b source wanted answer h hw s outcomes
    refine ⟨fun order horder => Pool.run_of_perm answer horder, fun pool hrun hf t => ⟨?_, ?_⟩⟩
    · exact h.pool_ok hw hrun hf t
    · intro hrecorded hopened hsized
      have hresults : ∀ e, .error e ∈ pool.results → e.Recorded := fun e he =>
        hrecorded e (hrun.kept.taken.subset (List.mem_append_left _ he))
      exact judge_recorded hresults hopened hsized t
  · intro g key params entropy source choice s material t workers name title trials
      hg hc hs hd ht hw p outcomes
    have hl := DhKem.lawful hg hd ht trials workers
    have hdet := DhKem.determined g key source trials workers
    exact hl.checks_agree hdet hw (DhKem.staged hg hc name hs title s trials workers)
  · intro k k' q secret message material entropy source choice s nonce workers name title trials
      hk hk' hs hm hc hsource hd hw p outcomes
    obtain ⟨-, hp⟩ := MockKem.checkParams_ok hs hm hc
    have hl := MockKem.lawful hp hk hk' hd trials workers
    have hdet := MockKem.determined hp k k' source trials workers
    exact hl.checks_agree hdet hw (MockKem.staged hp k k' name hsource title s trials workers)

def stumbling : Source Nat where
  draw _ n := ⟨if n = 0 then .error Fault.badValue else .ok (.bytes [0]), [], n + 1⟩

def stumblingPair : Bench Nat where
  enc :=
    { type := "StumblingEncapsulator"
      secretSize := return .int 1
      encapsulationSize := return .int 1
      supports := Terms.supportsNonempty
      encapsulate := fun _ _ label => do
        let drawn ← stumbling.draw (.int 1)
        return ⟨keyOfByte 7 label, drawn, .none⟩ }
  dec :=
    { type := "StumblingDecapsulator"
      secretSize := return .int 1
      encapsulationSize := return .int 1
      supports := Terms.supportsNonempty
      decapsulate := fun _ _ _ label => return keyOfByte 7 label }
  trials := 0
  workers := 1

def sealFixed (outcome : Except Fault Datum) : Except Fault Encapsulated :=
  outcome.map fun drawn => ⟨keyOfByte 7 SecretKey.generic, drawn, .none⟩

private theorem determined_stumblingPair : Determined stumblingPair stumbling (.int 1) sealFixed where
  sealed n := by
    cases n <;> exact ⟨rfl, rfl⟩
  opened _ := Act.steady_lift (.ok _)
  sized := Act.steady_lift (.ok _)

/-- When the first request takes the draw that fails, the second may be dropped and the check fails. A source
of zeros gives both providers one report, whichever request takes which draw. -/
theorem schedule_irrelevant_stumbling :
    (∃ pool : Pool (Except Fault Datum) Encapsulated, .dropped ∈ pool.requests ∧ ∀ t, ∃ e,
        ((judge (judgeResults stumblingPair pool.results)).run t).result = .ok (.error e)) ∧
      ∃ ephemeral, let g := DhKem.confined ephemeral DhKem.zeroKey
        let source : Source Unit := ⟨fun wanted => pure (.bytes (Bytes.zeros wanted.whole.toNat))⟩
        let k : MockKey := ⟨"k", .bytes (Bytes.zeros 32), MockKey.defaultAlgorithm⟩
        let p : MockParameters := ⟨.int 1, .int 32, .bool false⟩
        (∃ report, ∀ order, (source.outcomes (.int 32) 2 ()).Perm order →
          ((checkWith (DhKem.provider g source) (.publicKey (g.publicOf DhKem.zeroKey))
            (.privateKey DhKem.zeroKey) .absent 0 1 (.supplied source) .none
            (order.map (DhKem.settle g (g.publicOf DhKem.zeroKey)))).run ()).result = .ok report) ∧
        ∃ report, ∀ order, (source.outcomes (.int 16) 4 ()).Perm order →
          ((checkWith (MockKem.provider source) (.mock .sender k) (.mock .receiver k) (.mock p) 3 2
            (.supplied source) .none (order.map (MockKem.settle k p 1 32))).run ()).result = .ok report := by
  constructor
  · let pool : Pool (Except Fault Datum) Encapsulated :=
      ⟨[.ok (.bytes [0])], [.done (.error Fault.badValue), .dropped]⟩
    have hrun : Pool.Run sealFixed (.begun (stumbling.outcomes (.int 1) 2 0)) pool :=
      .tail (.single (.draw (Except.error Fault.badValue) [Except.ok (Datum.bytes [0])] [] [.waiting]))
        (.drop _ [] Fault.badValue [] [])
    have hf : pool.Finished := by simp [pool, Pool.Finished]
    refine ⟨pool, List.mem_cons_of_mem _ List.mem_cons_self, fun t => ?_⟩
    have hall := ((schedule_irrelevant Nat).1 determined_stumblingPair (Int.le_refl 1) 0).2 _ hrun hf t
    have howned : ((concurrentEncapsulation stumblingPair).run 0).result.isOk = false := rfl
    obtain ⟨v, hv⟩ := hall.2 (by
      intro e he
      have hmem : Except.error e ∈ [Except.error Fault.badValue, sealFixed (.ok (.bytes [0]))] := he
      simp only [sealFixed, Except.map, List.mem_cons, Except.error.injEq, reduceCtorEq, List.not_mem_nil,
        or_false] at hmem
      rw [hmem]
      exact ⟨rfl, _, rfl⟩) (fun m => Act.failsBy_pure _ _) (Act.failsBy_pure _ _)
    cases v with
    | error e => exact ⟨e, hv⟩
    | ok u =>
      rw [judge_run] at hv
      rw [hall.1.1 (judged_ok hv).symm] at howned
      cases howned
  · obtain ⟨ephemeral, hd, hx, -⟩ := DhKem.agreed_zero
    obtain ⟨agreed, ha⟩ := Option.isSome_iff_exists.1 hx
    refine ⟨ephemeral, ?_⟩
    intro g source k p
    have hs : g.exchange ephemeral (g.publicOf DhKem.zeroKey) = some agreed := by
      simp [g, DhKem.confined, ha]
    have ht : ∃ t, Transcript.sealed? g (g.publicOf DhKem.zeroKey) (Bytes.zeros 32) = some t :=
      ⟨_, Transcript.sealed?_eq_some.2 ⟨ephemeral, hd, Transcript.sealedBy?_eq_some.2 ⟨agreed, hs, rfl⟩⟩⟩
    obtain ⟨t, ht⟩ := ht
    have hdraw : source.Delivers 32 () fun _ => Bytes.zeros 32 := fun _ => rfl
    have hnonce : source.Delivers (MockKem.nonceSize 32) () fun _ => Bytes.zeros 16 := fun _ => rfl
    have hsource : (SourceChoice.supplied source).resolve source = .ok source := rfl
    have hparams : DhKem.checkParams (Suite.ofGroup DhKem.zeroKey.group) .absent = .ok () := rfl
    have hall := schedule_irrelevant Unit
    obtain ⟨report, -, hc⟩ := hall.2.1 DhKem.typeName .none 0 (DhKem.lawful_confined ephemeral DhKem.zeroKey)
      hparams hsource hdraw (t := fun _ => t) (fun _ => ht) (Int.le_refl 1)
    have hmaterial : k.material = .bytes (Bytes.zeros 32) := rfl
    have hsize : p.secretSize = .int 1 := rfl
    obtain ⟨mock, -, hc'⟩ := hall.2.2 MockKem.typeName .none 3 hmaterial hmaterial hsize rfl rfl hsource hnonce
      (by decide : (1 : Int) ≤ 2)
    refine ⟨⟨report, fun order horder => ?_⟩, mock, fun order horder => ?_⟩
    · rw [← Pool.results_order]
      exact hc _ (Pool.run_of_perm _ horder) (Pool.finished_order _ _)
    · rw [← Pool.results_order]
      exact hc' _ (Pool.run_of_perm _ horder) (Pool.finished_order _ _)

end KeyCapsule
