import KeyCapsule.Proofs.Verdict

/-! Degenerate providers. A sender or a receiver that never gives two different secrets fails the check of
concurrent requests, and a sender that repeats its keys or its messages fails the check of freshness,
whatever else the two sides do. -/
namespace KeyCapsule.Conformance
variable {σ α : Type} {ι : Type} {b : Bench σ}

/-- Along every history of calls from a state, values that are given one after another are alike. -/
def Repeats (b : Bench σ) (first : σ) (request : ι → Act σ α) (alike : α → α → Prop) : Prop :=
  ∀ i j s t x y, Reaches b first s → ((request i).run s).result = .ok x →
    Reaches b ((request i).run s).state t → ((request j).run t).result = .ok y → alike x y

def Bench.whole (b : Bench σ) (_ : Unit) : Act σ Encapsulated := b.enc.whole

theorem Repeats.later {first s : σ} {request : ι → Act σ α} {alike : α → α → Prop}
    (h : Repeats b first request alike) (hs : Reaches b first s) : Repeats b s request alike :=
  fun i j s' t x y hs' => h i j s' t x y (hs.trans hs')

theorem state_require (holds : Bool) (breach : Breach) (s : σ) :
    ((require holds breach : Act σ Unit).run s).state = s := by
  cases holds <;> rfl

theorem require_ok {holds : Bool} {breach : Breach} {s : σ}
    (h : ((require holds breach : Act σ Unit).run s).result = .ok ()) : holds = true := by
  cases holds
  · cases h
  · rfl

private theorem not_repeats_of_fresh {s : σ} (h : ((encapsulationIsFresh b).run s).result = .ok ()) :
    ¬ Repeats b s b.whole (fun x y => x.key.equals y.key = true) ∧
      ¬ Repeats b s b.whole fun x y => x.encapsulation.equals y.encapsulation = true := by
  obtain ⟨x, hx, h⟩ := Act.result_bind_eq_ok.1 h
  obtain ⟨y, hy, h⟩ := Act.result_bind_eq_ok.1 h
  obtain ⟨_, hm, h⟩ := Act.result_bind_eq_ok.1 h
  have hm := require_ok hm
  have hk := require_ok h
  constructor <;> intro hr <;> have he := hr () () s _ x y .refl hx .refl hy
  · rw [he] at hk
    cases hk
  · rw [he] at hm
    cases hm

private theorem reopen_ok {r : Encapsulated} {s : σ} (h : ((reopen b r).run s).result = .ok ()) :
    ∃ t k, Reaches b s t ∧ ((b.dec.whole r.encapsulation).run t).result = .ok k ∧
      k.encoded = r.key.encoded ∧
      Reaches b ((b.dec.whole r.encapsulation).run t).state ((reopen b r).run s).state := by
  obtain ⟨length, hl, h₁⟩ := Act.result_bind_eq_ok.1 h
  obtain ⟨size, hs, h₂⟩ := Act.result_bind_eq_ok.1 h₁
  obtain ⟨_, hm, h₃⟩ := Act.result_bind_eq_ok.1 h₂
  obtain ⟨k, hk, h₄⟩ := Act.result_bind_eq_ok.1 h₃
  have he := require_ok h₄
  simp only [SecretKey.equals, Bool.and_eq_true, beq_iff_eq] at he
  refine ⟨_, k, ?_, hk, he.2, ?_⟩
  · rw [state_require]
    exact .single (.encapsulationSize s)
  · rw [reopen, Act.run_bind_ok hl, Outcome.state_after, Act.run_bind_ok hs, Outcome.state_after,
      Act.run_bind_ok hm, Outcome.state_after, Act.run_bind_ok hk, Outcome.state_after]
    exact follows_iff.2 (keeps_require _ _) _

private theorem forM_mem {f : α → Act σ PUnit} (hf : ∀ a, Follows b (f a)) {items : List α} {s : σ}
    (h : ((items.forM f).run s).result = .ok ()) {a : α} (ha : a ∈ items) :
    ∃ t, Reaches b s t ∧ ((f a).run t).result = .ok () := by
  induction items generalizing s with
  | nil => cases ha
  | cons first rest ih =>
    obtain ⟨_, hfirst, h⟩ := Act.result_bind_eq_ok.1 h
    rcases List.mem_cons.1 ha with rfl | ha
    · exact ⟨s, .refl, hfirst⟩
    · obtain ⟨t, ht, hmem⟩ := ih h ha
      exact ⟨t, (hf first s).trans ht, hmem⟩

/-- Results that pass judgement have two secrets, and the receiver gave both of them. -/
private theorem not_repeats_of_judged {r₁ r₂ : Encapsulated} {rest : List Encapsulated} {s : σ}
    (h : ((judgeConcurrent b (r₁ :: rest)).run s).result = .ok ()) (h₂ : r₂ ∈ rest) :
    r₁.key.encoded ≠ r₂.key.encoded ∧
      ¬ Repeats b s b.dec.whole fun x y => x.encoded = y.encoded := by
  rw [judgeConcurrent_eq] at h
  obtain ⟨_, hd, h⟩ := Act.result_bind_eq_ok.1 h
  rw [state_require] at h
  have hnd := (keys_distinct_iff _).1 (require_ok hd)
  rw [List.map_cons, List.nodup_cons] at hnd
  have hne : r₁.key.encoded ≠ r₂.key.encoded := fun he =>
    hnd.1 (List.mem_map.2 ⟨r₂, h₂, he.symm⟩)
  refine ⟨hne, fun hr => ?_⟩
  obtain ⟨_, hfirst, hrest⟩ := Act.result_bind_eq_ok.1 h
  obtain ⟨t₁, k₁, ht₁, hk₁, he₁, hafter⟩ := reopen_ok hfirst
  obtain ⟨u, hu, hsecond⟩ := forM_mem (fun _ => follows_reopen _) hrest h₂
  obtain ⟨t₂, k₂, ht₂, hk₂, he₂, -⟩ := reopen_ok hsecond
  have hk := hr _ _ t₁ t₂ k₁ k₂ ht₁ hk₁ (hafter.trans (hu.trans ht₂)) hk₂
  exact hne (he₁.symm.trans (hk.trans he₂))

/-- Of two results, the request for one was made before that for the other. -/
def Precedes (b : Bench σ) (s : σ) (x y : Except Fault Encapsulated) : Prop :=
  ∃ u v, Reaches b s u ∧ (b.enc.whole.run u).result = x ∧ Reaches b (b.enc.whole.run u).state v ∧
    (b.enc.whole.run v).result = y

/-- A way in which the concurrent requests may go. They are made one before another, in any order, and each
has its result unless one of them failed; what else moves the state are calls. -/
structure Schedule (b : Bench σ) (pool : Act σ (List (Except Fault Encapsulated))) : Prop where
  follows : Follows b pool
  ordered : ∀ s results, (pool.run s).result = .ok results →
    results.Pairwise fun x y => Precedes b s x y ∨ Precedes b s y x
  complete : ∀ s results, (pool.run s).result = .ok results →
    (∃ e, .error e ∈ results) ∨ results.length = 2 * b.workers.toNat

def checksUnder (b : Bench σ) (pool : Act σ (List (Except Fault Encapsulated))) : Check → Act σ Unit
  | .concurrentEncapsulation => pool >>= judgeResults b
  | c => c.run b

def checkUnder (p : Provider σ) (sender receiver : KeyValue) (params : ParamsValue) (trials workers : Int)
    (choice : SourceChoice σ) (name : Datum) (pool : Act σ (List (Except Fault Encapsulated))) :
    Act σ Report := do
  let title ← (titleOf p name : Except Fault Datum)
  let enc ← p.newEncapsulator sender params choice
  let dec ← p.newDecapsulator receiver params
  runOf title (checksUnder ⟨enc, dec, trials, workers⟩ pool)

theorem Staged.checkUnder_result {p : Provider σ} {sender receiver : KeyValue} {params : ParamsValue}
    {choice : SourceChoice σ} {name : Datum} {s first : σ} {enc : Encapsulator σ} {dec : Decapsulator σ}
    (h : Staged p sender receiver params choice name s enc dec first) (trials workers : Int)
    (pool : Act σ (List (Except Fault Encapsulated))) :
    ∃ title, ((checkUnder p sender receiver params trials workers choice name pool).run s).result =
      ((runOf title (checksUnder ⟨enc, dec, trials, workers⟩ pool)).run first).result := by
  obtain ⟨title, -, hf⟩ := h.bound
  exact ⟨title, hf fun title enc dec => runOf title (checksUnder ⟨enc, dec, trials, workers⟩ pool)⟩

private theorem Schedule.follows_checks {pool : Act σ (List (Except Fault Encapsulated))} (h : Schedule b pool)
    (c : Check) : Follows b (checksUnder b pool c) := by
  cases c with
  | concurrentEncapsulation =>
    refine follows_iff.2 ((follows_iff.1 h.follows).bind fun results => ?_)
    refine (Rule.keeps_lift fun _ _ => trivial).bind fun values => ?_
    exact keeps_judgeConcurrent (obeys_calls b).encapsulationSize (obeys_calls b).opened values
  | _ => exact follows_check _

/-! Requests that are made one after another. -/

/-- What is gathered is given in order, and each result by a request behind the ones before it. -/
private theorem gather_ordered (n : Nat) {s : σ} {results : List (Except Fault Encapsulated)}
    (h : ((gather b.enc.whole n).run s).result = .ok results) :
    results.Pairwise (Precedes b s) ∧ results.length = n ∧
      ∀ x ∈ results, ∃ u, Reaches b s u ∧ (b.enc.whole.run u).result = x ∧
        Reaches b (b.enc.whole.run u).state ((gather b.enc.whole n).run s).state := by
  induction n generalizing s results with
  | zero =>
    cases h
    exact ⟨.nil, rfl, fun x hx => (List.not_mem_nil hx).elim⟩
  | succ n ih =>
    have hrun : (gather b.enc.whole (n + 1)).run s = ((gather b.enc.whole n >>= fun rest =>
        pure ((b.enc.whole.run s).result :: rest)).run (b.enc.whole.run s).state).after
          (b.enc.whole.run s).log := rfl
    rw [hrun, Outcome.result_after] at h
    obtain ⟨rest, hrest, h⟩ := Act.result_bind_eq_ok.1 h
    cases h
    obtain ⟨hordered, hlength, hmade⟩ := ih hrest
    have hstate : ((gather b.enc.whole (n + 1)).run s).state =
        ((gather b.enc.whole n).run (b.enc.whole.run s).state).state := by
      rw [hrun, Outcome.state_after, Act.run_bind_ok hrest]
      rfl
    have hfirst : Reaches b s (b.enc.whole.run s).state := follows_whole s
    rw [hstate]
    refine ⟨.cons (fun y hy => ?_) (hordered.imp fun hxy => ?_), congrArg (· + 1) hlength, fun x hx => ?_⟩
    · obtain ⟨v, hv, rfl, -⟩ := hmade y hy
      exact ⟨s, v, .refl, rfl, hv, rfl⟩
    · obtain ⟨u, v, hu, hx, hv, hy⟩ := hxy
      exact ⟨u, v, hfirst.trans hu, hx, hv, hy⟩
    · rcases List.mem_cons.1 hx with rfl | hx
      · exact ⟨s, .refl, rfl, (follows_whole.gather n) _⟩
      · obtain ⟨u, hu, hr, hend⟩ := hmade x hx
        exact ⟨u, hfirst.trans hu, hr, hend⟩

def oneByOne (b : Bench σ) : Act σ (List (Except Fault Encapsulated)) := do
  if b.workers < 1 then throw (.primitive .value "max_workers must be greater than 0")
  let begun ← gather b.enc.whole (2 * b.workers.toNat - 1)
  match settle begun with
  | .error _ => return begun
  | .ok _ => return begun ++ (← gather b.enc.whole 1)

private theorem concurrentEncapsulation_eq (b : Bench σ) :
    concurrentEncapsulation b = oneByOne b >>= judgeResults b := by
  rw [concurrentEncapsulation, oneByOne]
  split
  · rfl
  · rw [Act.bind_assoc]
    refine congrArg (gather b.enc.whole _ >>= ·) (funext fun begun => ?_)
    cases hs : settle begun with
    | error e => simp only [Act.lift_error, Act.throw_bind, Act.pure_bind, judgeResults, hs]
    | ok values =>
      simp only [Act.lift_ok, Act.pure_bind, Act.bind_assoc, judgeResults, settle_append, hs, ok_bind]
      refine congrArg (gather b.enc.whole 1 >>= ·) (funext fun last => ?_)
      cases settle last <;> rfl

private theorem checks_eq (b : Bench σ) : Check.run b = checksUnder b (oneByOne b) := by
  funext c
  cases c with
  | concurrentEncapsulation => exact concurrentEncapsulation_eq b
  | _ => rfl

private theorem schedule_oneByOne (b : Bench σ) : Schedule b (oneByOne b) where
  follows := by
    refine follows_iff.2 ?_
    rw [oneByOne]
    split
    · exact Rule.keeps_throw trivial
    · refine (follows_iff.1 (follows_whole.gather _)).bind fun begun => ?_
      split
      · exact Rule.keeps_pure _
      · exact (follows_iff.1 (follows_whole.gather _)).bind fun _ => Rule.keeps_pure _
  ordered s results h := by
    rw [oneByOne] at h
    split at h
    · cases h
    · obtain ⟨begun, hb, h⟩ := Act.result_bind_eq_ok.1 h
      obtain ⟨hordered, -, hmade⟩ := gather_ordered _ hb
      split at h
      · cases h
        exact hordered.imp .inl
      · obtain ⟨last, hl, h⟩ := Act.result_bind_eq_ok.1 h
        cases h
        obtain ⟨hordered', -, hmade'⟩ := gather_ordered _ hl
        have hgathered := (follows_whole.gather (b := b) (2 * b.workers.toNat - 1)) s
        refine List.pairwise_append.2 ⟨hordered.imp .inl, hordered'.imp ?_, fun x hx y hy => .inl ?_⟩
        · rintro x y ⟨u, v, hu, hx, hv, hy⟩
          exact .inl ⟨u, v, hgathered.trans hu, hx, hv, hy⟩
        · obtain ⟨u, hu, hx, hend⟩ := hmade x hx
          obtain ⟨v, hv, hy, -⟩ := hmade' y hy
          exact ⟨u, v, hu, hx, hend.trans hv, hy⟩
  complete s results h := by
    rw [oneByOne] at h
    split at h
    · cases h
    · obtain ⟨begun, hb, h⟩ := Act.result_bind_eq_ok.1 h
      obtain ⟨-, hlength, -⟩ := gather_ordered _ hb
      split at h
      · next e he =>
        cases h
        obtain ⟨f, hf, -⟩ := settle_error he
        exact .inl ⟨f, hf⟩
      · obtain ⟨last, hl, h⟩ := Act.result_bind_eq_ok.1 h
        cases h
        obtain ⟨-, hlength', -⟩ := gather_ordered _ hl
        rw [List.length_append, hlength, hlength']
        exact .inr (by omega)

private theorem not_repeats_of_concurrent (hw : 1 ≤ b.workers) {pool : Act σ (List (Except Fault Encapsulated))}
    (hp : Schedule b pool) {s : σ} (h : ((pool >>= judgeResults b).run s).result = .ok ()) :
    ¬ Repeats b s b.whole (fun x y => x.key.encoded = y.key.encoded) ∧
      ¬ Repeats b s b.dec.whole fun x y => x.encoded = y.encoded := by
  obtain ⟨results, hr, h⟩ := Act.result_bind_eq_ok.1 h
  obtain ⟨values, hs, h⟩ := Act.result_bind_eq_ok.1 h
  obtain rfl := settle_eq_ok.1 hs
  have hlength : (values.map Except.ok).length = 2 * b.workers.toNat :=
    (hp.complete s _ hr).resolve_left fun ⟨e, he⟩ => by simp at he
  rw [List.length_map] at hlength
  obtain ⟨r₁, r₂, rest, rfl⟩ : ∃ r₁ r₂ rest, values = r₁ :: r₂ :: rest := by
    match values, hlength with
    | [], hl => exact absurd hl (by simp; omega)
    | [_], hl => exact absurd hl (by simp; omega)
    | r₁ :: r₂ :: rest, _ => exact ⟨r₁, r₂, rest, rfl⟩
  obtain ⟨hne, hdec⟩ := not_repeats_of_judged h List.mem_cons_self
  have hordered := List.rel_of_pairwise_cons (hp.ordered s _ hr) List.mem_cons_self
  refine ⟨fun hrep => ?_, fun hrep => hdec (hrep.later (hp.follows s))⟩
  rcases hordered with ⟨u, v, hu, hx, hv, hy⟩ | ⟨u, v, hu, hx, hv, hy⟩
  · exact hne (hrep () () u v r₁ r₂ hu hx hv hy)
  · exact hne (hrep () () u v r₂ r₁ hu hx hv hy).symm

/-- Degenerate sides are found out wherever there is a report. Where there is none, a fault that escapes
judgement ended a check. -/
def Catches (b : Bench σ) (first : σ) (body : Check → Act σ Unit) : Except Fault Report → Prop
  | .ok report =>
    (Repeats b first b.whole (fun x y => x.key.encoded = y.key.encoded) ∨
        Repeats b first b.dec.whole (fun x y => x.encoded = y.encoded) →
      Fails report .concurrentEncapsulation ∧ report.ok = false) ∧
    (Repeats b first b.whole (fun x y => x.key.equals y.key = true) ∨
        Repeats b first b.whole (fun x y => x.encapsulation.equals y.encapsulation = true) →
      Fails report .encapsulationIsFresh ∧ report.ok = false)
  | .error e => ∃ c t f, Reaches b first t ∧ ((body c).run t).result = .error f ∧ Escapes f e

private theorem catches_runOf (hw : 1 ≤ b.workers) {pool : Act σ (List (Except Fault Encapsulated))}
    (hp : Schedule b pool) (title : Datum) (first : σ) :
    Catches b first (checksUnder b pool) ((runOf title (checksUnder b pool)).run first).result := by
  cases hr : ((runOf title (checksUnder b pool)).run first).result with
  | error e => exact runOf_error hp.follows_checks hr
  | ok report =>
    refine ⟨fun hd => ?_, fun hd => ?_⟩
    · have hf : Fails report .concurrentEncapsulation := fails_of_runOf hp.follows_checks hr fun t ht hx => by
        obtain ⟨he, hd'⟩ := not_repeats_of_concurrent hw hp hx
        exact hd.elim (fun hd => he (hd.later ht)) fun hd => hd' (hd.later ht)
      exact ⟨hf, not_ok_of_fails hf⟩
    · have hf : Fails report .encapsulationIsFresh := fails_of_runOf hp.follows_checks hr fun t ht hx => by
        obtain ⟨hk, hm⟩ := not_repeats_of_fresh hx
        exact hd.elim (fun hd => hk (hd.later ht)) fun hd => hm (hd.later ht)
      exact ⟨hf, not_ok_of_fails hf⟩

def numbered : Provider Nat where
  type := "NumberedKEM"
  name := some "numbered"
  newEncapsulator _ _ _ := return {
    type := "NumberedEncapsulator"
    secretSize := return .int 1
    encapsulationSize := return .int 1
    supports := Terms.supportsNonempty
    encapsulate := fun _ _ label n =>
      ⟨.ok ⟨⟨[7], label, List.cons_ne_nil _ _⟩, .bytes [UInt8.ofNat n], .none⟩, [], n + 1⟩ }
  newDecapsulator _ _ := return {
    type := "NumberedDecapsulator"
    secretSize := return .int 1
    encapsulationSize := return .int 1
    supports := Terms.supportsNonempty
    decapsulate := fun _ _ _ label => return ⟨[7], label, List.cons_ne_nil _ _⟩ }

end KeyCapsule.Conformance
