import Mathlib.Data.List.Nodup
import KeyCapsule.Proofs.Schedule

/-! Reports of conformance runs. Each check is told once, as passed or as failed, whatever the sides under
test do in it; what it did to the state is all that a later check can see of it. -/
namespace KeyCapsule.Conformance
open Act
variable {σ : Type}

def Ordinary (e : Fault) : Prop := e.isA .exception = true

structure Civil (allowed : Fault → Prop) (b : Bench σ) : Prop where
  secretSize : b.enc.secretSize.FailsBy allowed
  encapsulationSize : b.enc.encapsulationSize.FailsBy allowed
  supports : ∀ start stop label, (b.enc.supports start stop label).FailsBy allowed
  encapsulate : ∀ start stop label, (b.enc.encapsulate start stop label).FailsBy allowed
  openedSize : b.dec.secretSize.FailsBy allowed
  messageSize : b.dec.encapsulationSize.FailsBy allowed
  decapsulate : ∀ message start stop label, (b.dec.decapsulate message start stop label).FailsBy allowed

theorem Civil.mono {allowed permitted : Fault → Prop} (ha : ∀ e, allowed e → permitted e) {b : Bench σ}
    (h : Civil allowed b) : Civil permitted b where
  secretSize s e he := ha e (h.secretSize s e he)
  encapsulationSize s e he := ha e (h.encapsulationSize s e he)
  supports start stop label s e he := ha e (h.supports start stop label s e he)
  encapsulate start stop label s e he := ha e (h.encapsulate start stop label s e he)
  openedSize s e he := ha e (h.openedSize s e he)
  messageSize s e he := ha e (h.messageSize s e he)
  decapsulate message start stop label s e he := ha e (h.decapsulate message start stop label s e he)

/-- So do all checks of theirs, if what can be recorded is allowed. -/
theorem Civil.check {allowed : Fault → Prop} (ha : ∀ e, e.Recorded → allowed e) {b : Bench σ}
    (h : Civil allowed b) (c : Check) : (c.run b).FailsBy allowed := by
  have hfails {α : Type} {x : Act σ α} := failsBy_iff ha (x := x)
  have hobeys : Obeys (Rule.failing allowed ha) b :=
    { secretSize := hfails.1 h.secretSize
      encapsulationSize := hfails.1 h.encapsulationSize
      supports := fun start stop label => hfails.1 (h.supports start stop label)
      encapsulate := fun start stop label => hfails.1 (h.encapsulate start stop label)
      openedSize := hfails.1 h.openedSize
      messageSize := hfails.1 h.messageSize
      decapsulate := fun message start stop label => hfails.1 (h.decapsulate message start stop label) }
  exact hfails.2 (hobeys.check c)

theorem Civil.checksUnder {allowed : Fault → Prop} (ha : ∀ e, e.Recorded → allowed e) {b : Bench σ}
    (h : Civil allowed b) {pool : Act σ (List (Except Fault Encapsulated))} (hp : pool.FailsBy allowed)
    (hr : ∀ s results, (pool.run s).result = .ok results → ∀ e, .error e ∈ results → allowed e) (c : Check) :
    (Conformance.checksUnder b pool c).FailsBy allowed := by
  cases c with
  | concurrentEncapsulation =>
    refine (failsBy_iff ha).2 (((failsBy_iff ha).1 hp).bind_result fun s results hs => ?_)
    exact (failsBy_iff ha).1 (failsBy_judgeResults ha h.encapsulationSize (fun m => h.decapsulate _ _ _ _)
      (hr s results hs))
  | _ => exact h.check ha _

/-! Where the checks of a run begin, and what they come to there. -/

section Loop
variable (body : Check → Act σ Unit)

def ended : List Check → σ → σ
  | [], s => s
  | c :: rest, s => ended rest ((body c).run s).state

def entered : List Check → σ → List (Check × σ)
  | [], _ => []
  | c :: rest, s => (c, s) :: entered rest ((body c).run s).state

def outcome (x : Check × σ) : Check × Except Fault Unit := (x.1, ((body x.1).run x.2).result)

private theorem entered_checks (cs : List Check) (s : σ) : (entered body cs s).map Prod.fst = cs := by
  induction cs generalizing s with
  | nil => rfl
  | cons c rest ih => rw [entered, List.map_cons, ih]

private theorem entered_append (before after : List Check) (s : σ) :
    entered body (before ++ after) s = entered body before s ++ entered body after (ended body before s) := by
  induction before generalizing s with
  | nil => rfl
  | cons c rest ih => rw [List.cons_append, entered, entered, ih, List.cons_append, ended]

private theorem exists_entered {cs : List Check} {c : Check} (h : c ∈ cs) (s : σ) :
    ∃ t, (c, t) ∈ entered body cs s := by
  rw [← entered_checks body cs s] at h
  obtain ⟨⟨d, t⟩, ht, rfl⟩ := List.mem_map.1 h
  exact ⟨t, ht⟩

variable {body}

private theorem entered_congr {body' : Check → Act σ Unit} {cs : List Check} (h : ∀ c ∈ cs, body c = body' c)
    (s : σ) : entered body cs s = entered body' cs s := by
  induction cs generalizing s with
  | nil => rfl
  | cons c rest ih =>
    rw [entered, entered, h c List.mem_cons_self, ih fun d hd => h d (List.mem_cons_of_mem _ hd)]

private theorem verdictsOf_ok {title : Datum} {cs : List Check} {s : σ} {vs : List (Check × Except Fault Unit)}
    (h : ((verdictsOf title body cs).run s).result = .ok vs) : vs = (entered body cs s).map (outcome body) := by
  induction cs generalizing s vs with
  | nil =>
    cases h
    rfl
  | cons c rest ih =>
    rw [verdictsOf_cons] at h
    obtain ⟨v, hv, h⟩ := bind_eq_ok.1 h
    cases hr : ((verdictsOf title body rest).run ((body c).run s).state).result with
    | error e =>
      rw [hr] at h
      cases h
    | ok more =>
      rw [hr] at h
      cases h
      rw [judged_ok hv, ih hr]
      rfl

/-- Where only ordinary exceptions occur, a fault that does not tell its text is all that can end a run. -/
private theorem verdictsOf_untold (h : ∀ c, (body c).FailsBy Ordinary) {title : Datum} {cs : List Check} {s : σ}
    {cause : Fault} (hr : ((verdictsOf title body cs).run s).result = .error cause) :
    ∃ c t e, (c, t) ∈ entered body cs s ∧ ((body c).run t).result = .error e ∧ e.telling = .error cause := by
  induction cs generalizing s with
  | nil => cases hr
  | cons c rest ih =>
    rw [verdictsOf_cons] at hr
    cases hj : judged ((body c).run s).result with
    | error e =>
      rw [hj] at hr
      cases hr
      obtain ⟨f, hf, ⟨hn, -⟩ | ⟨-, ht⟩⟩ := judged_error hj
      · cases hn.symm.trans (h c s f hf)
      · exact ⟨c, s, f, List.mem_cons_self, hf, ht⟩
    | ok v =>
      rw [hj, ok_bind] at hr
      cases hm : ((verdictsOf title body rest).run ((body c).run s).state).result with
      | error e =>
        rw [hm] at hr
        cases hr
        obtain ⟨d, t, f, hmem, hf, ht⟩ := ih hm
        exact ⟨d, t, f, List.mem_cons_of_mem _ hmem, hf, ht⟩
      | ok more =>
        rw [hm] at hr
        cases hr

end Loop

/-! Verdicts as they are reported. -/

private theorem passed_sublist (vs : List (Check × Except Fault Unit)) :
    (vs.filterMap passed?).Sublist (vs.map fun v => v.1.name) := by
  induction vs with
  | nil => exact .slnil
  | cons v rest ih =>
    obtain ⟨c, r⟩ := v
    cases r with
    | ok u => exact ih.cons_cons c.name
    | error e => exact ih.cons c.name

private theorem failed_sublist (vs : List (Check × Except Fault Unit)) :
    ((vs.filterMap failed?).map Prod.fst).Sublist (vs.map fun v => v.1.name) := by
  induction vs with
  | nil => exact .slnil
  | cons v rest ih =>
    obtain ⟨c, r⟩ := v
    cases r with
    | ok u => exact ih.cons c.name
    | error e => exact ih.cons_cons c.name

/-- A verdict goes to one of the two lists, so together they name each check as often as it was judged. -/
private theorem reported_perm (vs : List (Check × Except Fault Unit)) :
    (vs.filterMap passed? ++ (vs.filterMap failed?).map Prod.fst).Perm (vs.map fun v => v.1.name) := by
  induction vs with
  | nil => exact .nil
  | cons v rest ih =>
    obtain ⟨c, r⟩ := v
    cases r with
    | ok u => exact ih.cons c.name
    | error e => exact List.perm_middle.trans (ih.cons c.name)

/-- The words of a fault. Those that the runtime finds by itself are left open. -/
def Says : Fault → String → Prop
  | .refused _, _ => True
  | e, words => words = e.text

/-- The reason that a report may give for a fault: the bare words of a breach, and those of any other fault behind
the name of its class. -/
inductive Reason (e : Fault) : String → Prop
  | breach {words : String} (h : e.isA .conformance = true) (hw : Says e words) : Reason e words
  | other {words : String} (h : e.isA .conformance = false) (hw : Says e words) :
    Reason e (e.title ++ ": " ++ words)

private theorem says_text (e : Fault) : Says e e.text := by
  cases e with
  | refused kind => trivial
  | _ => rfl

private theorem reason_reason (e : Fault) : Reason e (reason e) := by
  rw [reason]
  cases h : e.isA .conformance with
  | true => exact .breach h (says_text e)
  | false => exact .other h (says_text e)

/-- A report that accounts for every check once, by what it came to where it began. -/
structure Tallied (body : Check → Act σ Unit) (s : σ) (r : Report) : Prop where
  passedInOrder : r.passed.Sublist (Check.all.map Check.name)
  failedInOrder : (r.failed.map Prod.fst).Sublist (Check.all.map Check.name)
  disjoint : r.passed.Disjoint (r.failed.map Prod.fst)
  complete : (r.passed ++ r.failed.map Prod.fst).Perm (Check.all.map Check.name)
  begun : (entered body Check.all s).map Prod.fst = Check.all
  passes : ∀ c t, (c, t) ∈ entered body Check.all s → (c.name ∈ r.passed ↔ ((body c).run t).result = .ok ())
  fails : ∀ c t e, (c, t) ∈ entered body Check.all s → ((body c).run t).result = .error e →
    (∃ text, (c.name, text) ∈ r.failed) ∧ ∀ text, (c.name, text) ∈ r.failed → Reason e text

/-- What a run comes to whose checks fail by ordinary exceptions alone. Only an exception that does not tell its
text keeps it from a report. -/
structure Accounted (body : Check → Act σ Unit) (s : σ) (result : Except Fault Report) : Prop where
  told : (∀ c t e, (c, t) ∈ entered body Check.all s → ((body c).run t).result = .error e →
    ∃ text, e.telling = .ok text) → ∃ report, result = .ok report
  tallied : ∀ report, result = .ok report → Tallied body s report
  untold : ∀ cause, result = .error cause → ∃ c t e, (c, t) ∈ entered body Check.all s ∧
    ((body c).run t).result = .error e ∧ e.telling = .error cause

variable {body : Check → Act σ Unit}

private theorem names_nodup : (Check.all.map Check.name).Nodup := by decide

private theorem eq_of_mem_outcomes {s : σ} {c : Check} {t : σ} (hc : (c, t) ∈ entered body Check.all s)
    {v : Except Fault Unit} (h : (c, v) ∈ (entered body Check.all s).map (outcome body)) :
    v = ((body c).run t).result := by
  obtain ⟨⟨d, u⟩, hd, he⟩ := List.mem_map.1 h
  obtain ⟨rfl, rfl⟩ := Prod.mk.inj he
  have hn : ((entered body Check.all s).map Prod.fst).Nodup := by
    rw [entered_checks]
    decide
  cases List.inj_on_of_nodup_map hn hd hc rfl
  rfl

private theorem mem_reportOf (title : Datum) {s : σ} {c : Check} {t : σ}
    (hc : (c, t) ∈ entered body Check.all s) :
    let r := reportOf title ((entered body Check.all s).map (outcome body))
    (c.name ∈ r.passed ↔ ((body c).run t).result = .ok ()) ∧
      ∀ text, (c.name, text) ∈ r.failed ↔ ∃ e, ((body c).run t).result = .error e ∧ text = reason e := by
  have hmem : (c, ((body c).run t).result) ∈ (entered body Check.all s).map (outcome body) :=
    List.mem_map.2 ⟨_, hc, rfl⟩
  refine ⟨?_, fun text => ?_⟩
  · rw [mem_passed_iff]
    exact ⟨fun h => (eq_of_mem_outcomes hc h).symm, fun h => h ▸ hmem⟩
  · rw [mem_failed_iff]
    constructor
    · rintro ⟨e, h, rfl⟩
      exact ⟨e, (eq_of_mem_outcomes hc h).symm, rfl⟩
    · rintro ⟨e, h, rfl⟩
      exact ⟨e, h ▸ hmem, rfl⟩

private theorem tallied_reportOf (title : Datum) (s : σ) :
    Tallied body s (reportOf title ((entered body Check.all s).map (outcome body))) := by
  have hnames : (((entered body Check.all s).map (outcome body)).map fun v => v.1.name) =
      Check.all.map Check.name := by
    rw [List.map_map, ← entered_checks body Check.all s, List.map_map, entered_checks]
    rfl
  have hperm := reported_perm ((entered body Check.all s).map (outcome body))
  rw [hnames] at hperm
  refine ⟨hnames ▸ passed_sublist _, hnames ▸ failed_sublist _, ?_, hperm, entered_checks _ _ _,
    fun c t hc => (mem_reportOf title hc).1, fun c t e hc he => ⟨⟨reason e, ?_⟩, fun text ht => ?_⟩⟩
  · exact List.disjoint_of_nodup_append (hperm.nodup_iff.2 names_nodup)
  · exact ((mem_reportOf title hc).2 _).2 ⟨e, he, rfl⟩
  · obtain ⟨f, hf, rfl⟩ := ((mem_reportOf title hc).2 _).1 ht
    cases hf.symm.trans he
    exact reason_reason _

private theorem Tallied.mem_failed {s : σ} {r : Report} (h : Tallied body s r) {c : Check} {t : σ} {e : Fault}
    (hc : (c, t) ∈ entered body Check.all s) (he : ((body c).run t).result = .error e)
    (hn : ∀ kind, e ≠ .refused kind) : (c.name, reason e) ∈ r.failed := by
  obtain ⟨⟨text, hmem⟩, hreason⟩ := h.fails c t e hc he
  have hsays : ∀ words, Says e words → words = e.text := by
    intro words hw
    cases e with
    | refused kind => exact absurd rfl (hn kind)
    | _ => exact hw
  have htext : text = reason e := by
    rw [reason]
    cases hreason text hmem with
    | breach hb hw => rw [if_pos hb, hsays _ hw]
    | other hb hw => rw [hb, hsays _ hw]; rfl
  exact htext ▸ hmem

private theorem report_eq {title : Datum} {s : σ} {report : Report}
    (h : ((runOf title body).run s).result = .ok report) :
    report = reportOf title ((entered body Check.all s).map (outcome body)) := by
  obtain ⟨vs, hv, h⟩ := result_bind_eq_ok.1 h
  cases h
  rw [verdictsOf_ok hv]

private theorem accounted_runOf (h : ∀ c, (body c).FailsBy Ordinary) (title : Datum) (s : σ) :
    Accounted body s ((runOf title body).run s).result := by
  have huntold : ∀ cause, ((runOf title body).run s).result = .error cause →
      ∃ c t e, (c, t) ∈ entered body Check.all s ∧ ((body c).run t).result = .error e ∧
        e.telling = .error cause := by
    intro cause hr
    rw [runOf, run_bind] at hr
    cases hv : ((verdictsOf title body Check.all).run s).result with
    | error e =>
      rw [hv] at hr
      cases hr
      exact verdictsOf_untold h hv
    | ok vs =>
      rw [hv] at hr
      cases hr
  refine ⟨fun ht => ?_, fun report hr => ?_, huntold⟩
  · cases hr : ((runOf title body).run s).result with
    | ok report => exact ⟨report, rfl⟩
    | error cause =>
      obtain ⟨c, t, e, hc, he, hcause⟩ := huntold cause hr
      obtain ⟨text, htext⟩ := ht c t e hc he
      cases htext.symm.trans hcause
  · rw [report_eq hr]
    exact tallied_reportOf title s

private theorem verdict_later {title title' : Datum} {body' : Check → Act σ Unit} {s s' : σ} {r r' : Report}
    (h : ((runOf title body).run s).result = .ok r) (h' : ((runOf title' body').run s').result = .ok r')
    {before after : List Check} (hall : Check.all = before ++ after)
    (hstate : ended body before s = ended body' before s') (hsame : ∀ c ∈ after, body c = body' c)
    {c : Check} (hc : c ∈ after) :
    (c.name ∈ r.passed ↔ c.name ∈ r'.passed) ∧
      ∀ text, (c.name, text) ∈ r.failed ↔ (c.name, text) ∈ r'.failed := by
  obtain ⟨t, ht⟩ := exists_entered body hc (ended body before s)
  have hmem : (c, t) ∈ entered body Check.all s := by
    rw [hall, entered_append]
    exact List.mem_append_right _ ht
  have hmem' : (c, t) ∈ entered body' Check.all s' := by
    rw [hall, entered_append, ← hstate, ← entered_congr hsame]
    exact List.mem_append_right _ ht
  have hbody : body c = body' c := hsame c hc
  rw [report_eq h, report_eq h']
  obtain ⟨hp, hf⟩ := mem_reportOf title hmem
  obtain ⟨hp', hf'⟩ := mem_reportOf title' hmem'
  refine ⟨?_, fun text => ?_⟩
  · rw [hp, hp', hbody]
  · rw [hf, hf', hbody]

def unrulyTerms (type : String) : Terms Nat where
  type := type
  secretSize := return .none
  encapsulationSize := return "many"
  supports _ _ _ := throw (.breach .sharedSecret)

def unrulySender : Encapsulator Nat where
  toTerms := unrulyTerms "UnrulyEncapsulator"
  encapsulate _ _ label n :=
    ⟨if n % 2 = 1 then .error (.foreign "Jammed" [.lookup] "try again")
      else .ok ⟨keyOfByte 7 label, .int 3, .none⟩, [], n + 1⟩

def unrulyReceiver : Decapsulator Nat where
  toTerms := unrulyTerms "UnrulyDecapsulator"
  decapsulate _ _ _ _ := throw (.raised .notImplemented "later")

def unruly : Provider Nat where
  type := "UnrulyKEM"
  name := some "unruly"
  newEncapsulator _ _ _ := return unrulySender
  newDecapsulator _ _ := return unrulyReceiver

private theorem civil_unruly (trials workers : Int) :
    Civil Fault.Recorded ⟨unrulySender, unrulyReceiver, trials, workers⟩ where
  secretSize := failsBy_pure _ _
  encapsulationSize := failsBy_pure _ _
  supports _ _ _ := failsBy_throw ⟨rfl, _, rfl⟩
  encapsulate start stop label n e h := by
    change (if n % 2 = 1 then Except.error (Fault.foreign "Jammed" [.lookup] "try again") else _) = _ at h
    split at h
    · cases h
      exact ⟨rfl, _, rfl⟩
    · cases h
  openedSize := failsBy_pure _ _
  messageSize := failsBy_pure _ _
  decapsulate _ _ _ _ := failsBy_throw ⟨rfl, _, rfl⟩

def unrulyFrom (trials workers : Int) : Check → Act Nat Unit
  | .sizesAreStable => throw (.breach .sizesDisagree)
  | c => c.run ⟨unrulySender, unrulyReceiver, trials, workers⟩

end KeyCapsule.Conformance
