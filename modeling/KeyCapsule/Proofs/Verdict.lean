import KeyCapsule.Proofs.Rule
import Mathlib.Logic.Relation

/-! Runs of the checks. Each check begins where the one before it ended, and the state moves only by calls of
the two sides; a verdict is what its check came to there. A run that ends without a report does so by a fault
that is no ordinary exception, or by what comes of asking a fault for its text. -/
namespace KeyCapsule.Conformance
variable {σ α β : Type} {b : Bench σ}

inductive Call (b : Bench σ) : σ → σ → Prop
  | secretSize (s : σ) : Call b s (b.enc.secretSize.run s).state
  | encapsulationSize (s : σ) : Call b s (b.enc.encapsulationSize.run s).state
  | supports (start stop label : Datum) (s : σ) : Call b s ((b.enc.supports start stop label).run s).state
  | encapsulate (start stop label : Datum) (s : σ) :
    Call b s ((b.enc.encapsulate start stop label).run s).state
  | openedSize (s : σ) : Call b s (b.dec.secretSize.run s).state
  | messageSize (s : σ) : Call b s (b.dec.encapsulationSize.run s).state
  | decapsulate (message start stop label : Datum) (s : σ) :
    Call b s ((b.dec.decapsulate message start stop label).run s).state

def Reaches (b : Bench σ) : σ → σ → Prop := Relation.ReflTransGen (Call b)

def Follows (b : Bench σ) (x : Act σ α) : Prop := ∀ s, Reaches b s (x.run s).state

def calls (b : Bench σ) : Rule σ where
  moves := Reaches b
  fails _ := True
  refl _ := .refl
  trans := .trans
  recorded _ := trivial

theorem follows_iff {x : Act σ α} : Follows b x ↔ (calls b).Keeps x :=
  ⟨fun h s => ⟨h s, fun _ _ => trivial⟩, fun h s => (h s).1⟩

private theorem Follows.of_call {x : Act σ α} (h : ∀ s, Call b s (x.run s).state) : Follows b x :=
  fun s => .single (h s)

theorem obeys_calls (b : Bench σ) : Obeys (calls b) b where
  secretSize := follows_iff.1 (.of_call .secretSize)
  encapsulationSize := follows_iff.1 (.of_call .encapsulationSize)
  supports start stop label := follows_iff.1 (.of_call (.supports start stop label))
  encapsulate start stop label := follows_iff.1 (.of_call (.encapsulate start stop label))
  openedSize := follows_iff.1 (.of_call .openedSize)
  messageSize := follows_iff.1 (.of_call .messageSize)
  decapsulate message start stop label := follows_iff.1 (.of_call (.decapsulate message start stop label))

theorem follows_whole : Follows b b.enc.whole := follows_iff.2 (obeys_calls b).whole

theorem follows_expectFailure (message : Datum) : Follows b (expectFailure b message) :=
  follows_iff.2 ((obeys_calls b).expectFailure message)

theorem follows_reopen (r : Encapsulated) : Follows b (reopen b r) :=
  follows_iff.2 (keeps_reopen (obeys_calls b).encapsulationSize (obeys_calls b).opened r)

theorem follows_check (c : Check) : Follows b (c.run b) := follows_iff.2 ((obeys_calls b).check c)

theorem Follows.gather {x : Act σ α} (hx : Follows b x) (n : Nat) : Follows b (gather x n) :=
  follows_iff.2 (keeps_gather (follows_iff.1 hx) n)

/-! Concurrent requests. -/

/-- Repeated items are dropped, so a list keeps its length exactly if it has none. -/
private theorem length_eraseDups {α : Type} [BEq α] [LawfulBEq α] (items : List α) :
    items.eraseDups.length ≤ items.length ∧ (items.eraseDups.length = items.length ↔ items.Nodup) := by
  induction h : items.length using Nat.strongRecOn generalizing items with
  | ind n ih =>
    subst h
    cases items with
    | nil => simp
    | cons a rest =>
      have hf := List.length_filter_le (fun b => !b == a) rest
      obtain ⟨hle, heq⟩ := ih _ (by rw [List.length_cons]; omega) (rest.filter fun b => !b == a) rfl
      rw [List.eraseDups_cons, List.length_cons, List.nodup_cons]
      refine ⟨by rw [List.length_cons]; omega, ?_⟩
      constructor
      · intro hlen
        rw [List.length_cons] at hlen
        have hkept : (rest.filter fun b => !b == a).length = rest.length := by omega
        have hall := List.length_filter_eq_length_iff.1 hkept
        rw [List.filter_eq_self.2 hall] at heq hlen
        refine ⟨fun hmem => ?_, heq.1 (by omega)⟩
        simpa using hall a hmem
      · rintro ⟨hmem, hnd⟩
        have hall : rest.filter (fun b => !b == a) = rest := by
          refine List.filter_eq_self.2 fun c hc => ?_
          have hne : c ≠ a := fun he => hmem (he ▸ hc)
          simpa using hne
        rw [hall] at heq ⊢
        rw [List.length_cons, heq.2 hnd]

/-- No two results that are let through have one secret. -/
theorem keys_distinct_iff (results : List Encapsulated) :
    ((results.map fun r => r.key.encoded).eraseDups.length == results.length) = true ↔
      (results.map fun r => r.key.encoded).Nodup := by
  rw [← (length_eraseDups _).2, List.length_map, beq_iff_eq]

theorem settle_ok (values : List α) : settle (values.map .ok) = .ok values := by
  induction values with
  | nil => rfl
  | cons a rest ih => rw [List.map_cons, settle, ih]; rfl

private theorem settle_cons {x : Except Fault α} {rest : List (Except Fault α)} {results : List α}
    (h : settle (x :: rest) = .ok results) :
    ∃ a more, x = .ok a ∧ settle rest = .ok more ∧ results = a :: more := by
  obtain ⟨a, ha, h⟩ := bind_eq_ok.1 h
  obtain ⟨more, hmore, h⟩ := bind_eq_ok.1 h
  cases h
  cases x with
  | error e => cases ha
  | ok a' =>
    cases ha
    exact ⟨_, _, rfl, hmore, rfl⟩

theorem settle_eq_ok {results : List (Except Fault α)} {values : List α} :
    settle results = .ok values ↔ results = values.map .ok := by
  constructor
  · intro h
    induction results generalizing values with
    | nil => cases h; rfl
    | cons x rest ih =>
      obtain ⟨a, more, rfl, hmore, rfl⟩ := settle_cons h
      rw [ih hmore, List.map_cons]
  · rintro rfl
    exact settle_ok values

theorem settle_append (first second : List (Except Fault α)) :
    settle (first ++ second) = settle first >>= fun a => settle second >>= fun b => .ok (a ++ b) := by
  induction first with
  | nil =>
    rw [List.nil_append]
    cases settle second <;> rfl
  | cons x rest ih =>
    rw [List.cons_append, settle, settle, ih]
    cases x.mapError passedOn with
    | error e => rfl
    | ok a =>
      cases settle rest with
      | error e => rfl
      | ok more => cases settle second <;> rfl

def judgeResults (b : Bench σ) (results : List (Except Fault Encapsulated)) : Act σ Unit := do
  judgeConcurrent b (← (settle results : Except Fault (List Encapsulated)))

/-! Verdicts. -/

/-- A fault that is not judged, and what the whole run ends in: the fault itself if it is no ordinary exception,
and otherwise what comes of asking it for its text. -/
def Escapes (f e : Fault) : Prop :=
  f.isA .exception = false ∧ e = f ∨ f.isA .exception = true ∧ f.telling = .error e

/-- What is made of the result of a check: a verdict, or the end of the whole run. -/
def judged : Except Fault Unit → Except Fault (Except Fault Unit)
  | .ok () => .ok (.ok ())
  | .error e => if e.isA .exception then e.telling.map fun _ => .error e else .error e

theorem judge_run (x : Act σ Unit) (s : σ) :
    (judge x).run s = ⟨judged (x.run s).result, (x.run s).log, (x.run s).state⟩ := by
  have hx : x.attempt.run s = ⟨.ok (x.run s).result, (x.run s).log, (x.run s).state⟩ := rfl
  rw [judge, Act.run_bind, hx]
  cases h : (x.run s).result with
  | ok u => simp [judged]
  | error e =>
    cases he : e.isA .exception with
    | false => simp [judged, he]
    | true =>
      cases ht : e.telling with
      | error cause => simp [judged, he, ht, Except.map]
      | ok text => simp [judged, he, ht, Except.map]

theorem judged_ok {r v : Except Fault Unit} (h : judged r = .ok v) : v = r := by
  cases r with
  | ok u =>
    cases h
    rfl
  | error e =>
    rw [judged] at h
    split at h
    · cases ht : e.telling with
      | error cause =>
        rw [ht] at h
        cases h
      | ok text =>
        rw [ht] at h
        cases h
        rfl
    · cases h

theorem judged_error {r : Except Fault Unit} {e : Fault} (h : judged r = .error e) :
    ∃ f, r = .error f ∧ Escapes f e := by
  cases r with
  | ok u => cases h
  | error f =>
    rw [judged] at h
    split at h
    case isTrue hf =>
      cases ht : f.telling with
      | error cause =>
        rw [ht] at h
        cases h
        exact ⟨f, rfl, .inr ⟨hf, ht⟩⟩
      | ok text =>
        rw [ht] at h
        cases h
    case isFalse hf =>
      cases h
      exact ⟨_, rfl, .inl ⟨Bool.eq_false_iff.2 hf, rfl⟩⟩

theorem judged_recorded {e : Fault} (h : e.Recorded) : judged (.error e) = .ok (.error e) := by
  obtain ⟨he, text, ht⟩ := h
  rw [judged, if_pos he, ht]
  rfl

/-! The loop over the checks, for bodies that may do anything. -/

def verdictsOf (title : Datum) (body : Check → Act σ Unit) :
    List Check → Act σ (List (Check × Except Fault Unit))
  | [] => return []
  | c :: rest => do
    let verdict ← judge (body c)
    Act.report (.debug logger (title.plain ++ ": " ++ c.name))
    return (c, verdict) :: (← verdictsOf title body rest)

def runOf (title : Datum) (body : Check → Act σ Unit) : Act σ Report := do
  return reportOf title (← verdictsOf title body Check.all)

private theorem verdicts_eq (title : Datum) (b : Bench σ) (cs : List Check) :
    verdicts title b cs = verdictsOf title (Check.run b) cs := by
  induction cs with
  | nil => rfl
  | cons c rest ih => rw [verdicts, verdictsOf, ih]

theorem run_eq (title : Datum) (b : Bench σ) : run title b = runOf title (Check.run b) := by
  rw [run, runOf, verdicts_eq]

section Loop
variable {title : Datum} {body : Check → Act σ Unit}

/-- The first check is judged, and the rest of them from where it ended. -/
theorem verdictsOf_cons (title : Datum) (body : Check → Act σ Unit) (c : Check) (rest : List Check) (s : σ) :
    ((verdictsOf title body (c :: rest)).run s).result =
      judged ((body c).run s).result >>= fun v =>
        (((verdictsOf title body rest).run ((body c).run s).state).result).map ((c, v) :: ·) := by
  rw [verdictsOf, Act.run_bind, judge_run]
  cases judged ((body c).run s).result with
  | error e => rfl
  | ok v =>
    simp only [Outcome.result_after, Act.run_bind]
    have hr : ((Act.report (.debug logger (title.plain ++ ": " ++ c.name)) : Act σ Unit).run
      ((body c).run s).state) = ⟨.ok (), [_], ((body c).run s).state⟩ := rfl
    rw [hr]
    simp only [Outcome.result_after, ok_bind]
    cases ((verdictsOf title body rest).run ((body c).run s).state).result <;> rfl

/-- Every check gets a verdict, and a verdict is what its check came to in a state that the calls before it
led to. -/
private theorem verdictsOf_made (hb : ∀ c, Follows b (body c)) {cs : List Check} {s : σ}
    {vs : List (Check × Except Fault Unit)} (h : ((verdictsOf title body cs).run s).result = .ok vs) :
    (∀ c ∈ cs, ∃ v, (c, v) ∈ vs) ∧
      ∀ c v, (c, v) ∈ vs → ∃ t, Reaches b s t ∧ v = ((body c).run t).result := by
  induction cs generalizing s vs with
  | nil =>
    cases h
    exact ⟨by simp, by simp⟩
  | cons first rest ih =>
    rw [verdictsOf_cons] at h
    obtain ⟨v, hv, h⟩ := bind_eq_ok.1 h
    cases hr : ((verdictsOf title body rest).run ((body first).run s).state).result with
    | error e =>
      rw [hr] at h
      cases h
    | ok more =>
      rw [hr] at h
      cases h
      obtain ⟨hall, hmade⟩ := ih hr
      constructor
      · intro c hc
        rcases List.mem_cons.1 hc with rfl | hc
        · exact ⟨v, List.mem_cons_self⟩
        · obtain ⟨w, hw⟩ := hall c hc
          exact ⟨w, List.mem_cons_of_mem _ hw⟩
      · intro c w hw
        rcases List.mem_cons.1 hw with hw | hw
        · cases hw
          exact ⟨s, .refl, judged_ok hv⟩
        · obtain ⟨t, ht, hw⟩ := hmade c w hw
          exact ⟨t, (hb first s).trans ht, hw⟩

private theorem verdictsOf_error (hb : ∀ c, Follows b (body c)) {cs : List Check} {s : σ} {e : Fault}
    (h : ((verdictsOf title body cs).run s).result = .error e) :
    ∃ c t f, Reaches b s t ∧ ((body c).run t).result = .error f ∧ Escapes f e := by
  induction cs generalizing s with
  | nil => cases h
  | cons first rest ih =>
    rw [verdictsOf_cons] at h
    cases hj : judged ((body first).run s).result with
    | error f =>
      rw [hj] at h
      cases h
      obtain ⟨f, hf, he⟩ := judged_error hj
      exact ⟨first, s, f, .refl, hf, he⟩
    | ok v =>
      rw [hj, ok_bind] at h
      cases hr : ((verdictsOf title body rest).run ((body first).run s).state).result with
      | error f =>
        rw [hr] at h
        cases h
        obtain ⟨c, t, f, ht, hf, he⟩ := ih hr
        exact ⟨c, t, f, (hb first s).trans ht, hf, he⟩
      | ok more =>
        rw [hr] at h
        cases h

theorem runOf_error (hb : ∀ c, Follows b (body c)) {s : σ} {e : Fault}
    (h : ((runOf title body).run s).result = .error e) :
    ∃ c t f, Reaches b s t ∧ ((body c).run t).result = .error f ∧ Escapes f e := by
  rw [runOf, Act.run_bind] at h
  cases hv : ((verdictsOf title body Check.all).run s).result with
  | error f =>
    rw [hv] at h
    cases h
    exact verdictsOf_error hb hv
  | ok vs =>
    rw [hv] at h
    cases h

end Loop

structure Staged (p : Provider σ) (sender receiver : KeyValue) (params : ParamsValue)
    (choice : SourceChoice σ) (name : Datum) (s : σ) (enc : Encapsulator σ) (dec : Decapsulator σ)
    (first : σ) : Prop where
  titled : ∃ title, titleOf p name = .ok title
  sends : ((p.newEncapsulator sender params choice).run s).result = .ok enc
  receives : ((p.newDecapsulator receiver params).run
    ((p.newEncapsulator sender params choice).run s).state).result = .ok dec
  begins : first = ((p.newDecapsulator receiver params).run
    ((p.newEncapsulator sender params choice).run s).state).state

/-- Whatever is done with both sides is done from there on. -/
theorem Staged.bound {p : Provider σ} {sender receiver : KeyValue} {params : ParamsValue}
    {choice : SourceChoice σ} {name : Datum} {s first : σ} {enc : Encapsulator σ} {dec : Decapsulator σ}
    (h : Staged p sender receiver params choice name s enc dec first) :
    ∃ title, titleOf p name = .ok title ∧
      ∀ f : Datum → Encapsulator σ → Decapsulator σ → Act σ α,
        ((do
          let title ← (titleOf p name : Except Fault Datum)
          let enc ← p.newEncapsulator sender params choice
          let dec ← p.newDecapsulator receiver params
          f title enc dec : Act σ α).run s).result = ((f title enc dec).run first).result := by
  obtain ⟨⟨title, ht⟩, he, hd, rfl⟩ := h
  refine ⟨title, ht, fun f => ?_⟩
  rw [ht, Act.lift_ok, Act.pure_bind, Act.run_bind_ok he, Outcome.result_after, Act.run_bind_ok hd,
    Outcome.result_after]

/-- From there on the whole is a run of the checks. -/
theorem Staged.check_result {p : Provider σ} {sender receiver : KeyValue} {params : ParamsValue}
    {choice : SourceChoice σ} {name : Datum} {s first : σ} {enc : Encapsulator σ} {dec : Decapsulator σ}
    (h : Staged p sender receiver params choice name s enc dec first) (trials workers : Int) :
    ∃ title, ((check p sender receiver params trials workers choice name).run s).result =
      ((run title ⟨enc, dec, trials, workers⟩).run first).result := by
  obtain ⟨title, -, hf⟩ := h.bound
  exact ⟨title, hf fun title enc dec => run title ⟨enc, dec, trials, workers⟩⟩

theorem mem_all (c : Check) : c ∈ Check.all := by
  cases c <;> decide

def Fails (r : Report) (c : Check) : Prop := c.name ∈ r.failed.map Prod.fst

theorem not_ok_of_fails {r : Report} {c : Check} (h : Fails r c) : r.ok = false := by
  rw [Report.ok]
  cases hf : r.failed with
  | nil =>
    rw [Fails, hf] at h
    cases h
  | cons first rest => rfl

private theorem fails_of_mem {title : Datum} {vs : List (Check × Except Fault Unit)} {c : Check} {e : Fault}
    (h : (c, .error e) ∈ vs) : Fails (reportOf title vs) c :=
  List.mem_map.2 ⟨(c.name, reason e), List.mem_filterMap.2 ⟨(c, .error e), h, rfl⟩, rfl⟩

private theorem name_injective {c d : Check} (h : c.name = d.name) : c = d := by
  cases c <;> cases d <;> first | rfl | exact absurd h (by decide)

theorem mem_passed_iff {title : Datum} {vs : List (Check × Except Fault Unit)} {c : Check} :
    c.name ∈ (reportOf title vs).passed ↔ (c, .ok ()) ∈ vs := by
  constructor
  · intro h
    obtain ⟨⟨d, v⟩, hmem, hp⟩ := List.mem_filterMap.1 h
    cases v with
    | error e => cases hp
    | ok u => exact name_injective (Option.some.inj hp) ▸ hmem
  · exact fun h => List.mem_filterMap.2 ⟨_, h, rfl⟩

theorem mem_failed_iff {title : Datum} {vs : List (Check × Except Fault Unit)} {c : Check} {text : String} :
    (c.name, text) ∈ (reportOf title vs).failed ↔ ∃ e, (c, .error e) ∈ vs ∧ text = reason e := by
  constructor
  · intro h
    obtain ⟨⟨d, v⟩, hv, hf⟩ := List.mem_filterMap.1 h
    cases v with
    | ok u => cases hf
    | error e =>
      obtain ⟨hname, htext⟩ := Prod.mk.inj (Option.some.inj hf)
      cases name_injective hname
      exact ⟨e, hv, htext.symm⟩
  · rintro ⟨e, h, rfl⟩
    exact List.mem_filterMap.2 ⟨_, h, rfl⟩

theorem fails_iff {title : Datum} {vs : List (Check × Except Fault Unit)} {c : Check} :
    Fails (reportOf title vs) c ↔ ∃ e, (c, .error e) ∈ vs := by
  constructor
  · intro h
    obtain ⟨⟨name, text⟩, hmem, rfl⟩ := List.mem_map.1 h
    obtain ⟨e, he, -⟩ := mem_failed_iff.1 hmem
    exact ⟨e, he⟩
  · rintro ⟨e, h⟩
    exact fails_of_mem h

section Loop
variable {title : Datum} {body : Check → Act σ Unit}

/-- A check that passes nowhere along the calls is reported as failed. -/
theorem fails_of_runOf (hb : ∀ c, Follows b (body c)) {s : σ} {report : Report} {c : Check}
    (h : ((runOf title body).run s).result = .ok report)
    (hc : ∀ t, Reaches b s t → ((body c).run t).result ≠ .ok ()) : Fails report c := by
  obtain ⟨vs, hv, hr⟩ := Act.result_bind_eq_ok.1 h
  cases hr
  obtain ⟨hall, hmade⟩ := verdictsOf_made hb hv
  obtain ⟨v, hmem⟩ := hall c (mem_all c)
  obtain ⟨t, ht, rfl⟩ := hmade c v hmem
  cases hx : ((body c).run t).result with
  | ok u => exact absurd hx (hc t ht)
  | error e => exact fails_of_mem (hx ▸ hmem)

/-- A check that passes wherever the calls lead is reported as passed, and not as failed. -/
theorem passes_of_runOf (hb : ∀ c, Follows b (body c)) {s : σ} {report : Report} {c : Check}
    (h : ((runOf title body).run s).result = .ok report)
    (hc : ∀ t, Reaches b s t → ((body c).run t).result = .ok ()) :
    c.name ∈ report.passed ∧ ¬ Fails report c := by
  obtain ⟨vs, hv, hr⟩ := Act.result_bind_eq_ok.1 h
  cases hr
  obtain ⟨hall, hmade⟩ := verdictsOf_made hb hv
  have hpass : ∀ v, (c, v) ∈ vs → v = .ok () := by
    intro v hmem
    obtain ⟨t, ht, rfl⟩ := hmade c v hmem
    exact hc t ht
  obtain ⟨v, hmem⟩ := hall c (mem_all c)
  refine ⟨mem_passed_iff.2 (hpass v hmem ▸ hmem), fun hf => ?_⟩
  obtain ⟨e, he⟩ := fails_iff.1 hf
  cases hpass _ he

end Loop

end KeyCapsule.Conformance
