import KeyCapsule.Proofs.Admission

/-! Two runs side by side. Results are matched if they are the same fault or related values, and actions
mirror each other if they leave the same records besides. What a receiver conceals need not be matched; it
is matched after all where both runs end alike. -/
namespace KeyCapsule
variable {σ α β γ δ : Type} {P : α → β → Prop} {Q : γ → δ → Prop} {R : σ → σ → Prop}

inductive Matched (P : α → β → Prop) : Except Fault α → Except Fault β → Prop
  | ok {a : α} {b : β} (h : P a b) : Matched P (.ok a) (.ok b)
  | error (e : Fault) : Matched P (.error e) (.error e)

namespace Matched
variable {x : Except Fault α} {y : Except Fault β}

theorem same (x : Except Fault α) : Matched (fun a b => a = b ∧ x = .ok a) x x := by
  cases x with
  | ok a => exact .ok ⟨rfl, rfl⟩
  | error e => exact .error e

theorem bind {f : α → Except Fault γ} {g : β → Except Fault δ} (h : Matched P x y)
    (hf : ∀ a b, P a b → Matched Q (f a) (g b)) : Matched Q (x >>= f) (y >>= g) := by
  cases h with
  | ok h => exact hf _ _ h
  | error e => exact .error e

theorem map {f : α → γ} {g : β → δ} (h : Matched P x y) (hf : ∀ a b, P a b → Q (f a) (g b)) :
    Matched Q (x.map f) (y.map g) := by
  cases h with
  | ok h => exact .ok (hf _ _ h)
  | error e => exact .error e

theorem mono {P' : α → β → Prop} (h : Matched P x y) (hp : ∀ a b, P a b → P' a b) : Matched P' x y := by
  cases h with
  | ok h => exact .ok (hp _ _ h)
  | error e => exact .error e

end Matched

structure Outcome.Mirrors (R : σ → σ → Prop) (P : α → β → Prop) (o : Outcome σ α) (o' : Outcome σ β) :
    Prop where
  result : Matched P o.result o'.result
  log : o.log = o'.log
  state : R o.state o'.state

theorem Outcome.Mirrors.after {o : Outcome σ α} {o' : Outcome σ β} (h : o.Mirrors R P o')
    (log : List Record) : (o.after log).Mirrors R P (o'.after log) :=
  ⟨h.result, congrArg (log ++ ·) h.log, h.state⟩

namespace Act

def Mirrors (R : σ → σ → Prop) (P : α → β → Prop) (x : Act σ α) (y : Act σ β) : Prop :=
  ∀ s u, R s u → (x.run s).Mirrors R P (y.run u)

/-- They do so as far as both succeed or both fail. -/
def Converges (R : σ → σ → Prop) (P : α → β → Prop) (x : Act σ α) (y : Act σ β) : Prop :=
  ∀ s u, R s u → (x.run s).result.isOk = (y.run u).result.isOk → (x.run s).Mirrors R P (y.run u)

variable {x : Act σ α} {y : Act σ β} {f : α → Act σ γ} {g : β → Act σ δ}

theorem Mirrors.mono {P' : α → β → Prop} (h : x.Mirrors R P y) (hp : ∀ a b, P a b → P' a b) :
    x.Mirrors R P' y := fun s u hs =>
  have ho := h s u hs
  ⟨ho.result.mono hp, ho.log, ho.state⟩

theorem Mirrors.converges (h : x.Mirrors R P y) : x.Converges R P y := fun s u hs _ => h s u hs

/-- From one state every action mirrors itself. -/
theorem mirrors_same (x : Act σ α) :
    x.Mirrors Eq (fun a b => a = b ∧ ∃ s, (x.run s).result = .ok a) x := by
  rintro s _ rfl
  exact ⟨(Matched.same _).mono fun a b h => ⟨h.1, s, h.2⟩, rfl, rfl⟩

theorem mirrors_lift {x : Except Fault α} {y : Except Fault β} (h : Matched P x y) :
    (liftM x : Act σ α).Mirrors R P (liftM y : Act σ β) := fun _ _ hs => ⟨h, rfl, hs⟩

theorem mirrors_pure {a : α} {b : β} (h : P a b) :
    (Pure.pure a : Act σ α).Mirrors R P (Pure.pure b : Act σ β) := fun _ _ hs => ⟨.ok h, rfl, hs⟩

theorem mirrors_throw (e : Fault) : (throw e : Act σ α).Mirrors R P (throw e : Act σ β) :=
  fun _ _ hs => ⟨.error e, rfl, hs⟩

theorem mirrors_fault {e f : Fault} (h : e = f) :
    (throw e : Act σ α).Mirrors R P (throw f : Act σ β) := h ▸ mirrors_throw e

theorem mirrors_report (r : Record) : (report r : Act σ Unit).Mirrors R (fun _ _ => True) (report r) :=
  fun _ _ hs => ⟨.ok trivial, rfl, hs⟩

/-- Sequences whose first parts mirror each other do so as well, if what follows a success does. -/
private theorem run_bind_mirrors {s u : σ} (h : (x.run s).Mirrors R P (y.run u))
    (hf : ∀ a b, P a b → (x.run s).result = .ok a → (y.run u).result = .ok b →
      ((f a).run (x.run s).state).Mirrors R Q ((g b).run (y.run u).state)) :
    ((x >>= f).run s).Mirrors R Q ((y >>= g).run u) := by
  obtain ⟨hr, hl, ht⟩ := h
  rw [run_bind, run_bind, ← hl]
  generalize (x.run s).result = r at hr hf ⊢
  generalize (y.run u).result = r' at hr hf ⊢
  cases hr with
  | error e => exact ⟨.error e, rfl, ht⟩
  | ok h => exact (hf _ _ h rfl rfl).after _

theorem Mirrors.bind (hx : x.Mirrors R P y) (hf : ∀ a b, P a b → (f a).Mirrors R Q (g b)) :
    (x >>= f).Mirrors R Q (y >>= g) := fun s u hs =>
  run_bind_mirrors (hx s u hs) fun a b hab _ _ => hf a b hab _ _ (hx s u hs).state

theorem Mirrors.bind_converges (hx : x.Mirrors R P y) (hf : ∀ a b, P a b → (f a).Converges R Q (g b)) :
    (x >>= f).Converges R Q (y >>= g) := by
  intro s u hs hok
  refine run_bind_mirrors (hx s u hs) fun a b hab ha hb => ?_
  rw [run_bind_ok ha, run_bind_ok hb] at hok
  exact hf a b hab _ _ (hx s u hs).state hok

end Act

/-! What a receiver conceals. -/

def Fault.Veiled (e : Fault) : Prop :=
  e = .undecapsulated ∨ (e.isA .decapsulate = false ∧ e.isA .value = true)

private theorem Terms.disclosed_veiled (t : Terms σ) {e : Fault} (h : e.Veiled) :
    t.disclosed (.error e : Except Fault α) = (.error .undecapsulated, [t.failure]) := by
  rcases h with rfl | ⟨hd, hv⟩
  · rfl
  · simp [disclosed, hd, hv]

private theorem Terms.disclosed_error (t : Terms σ) (e : Fault) :
    ∃ f log, ∀ α : Type, t.disclosed (.error e : Except Fault α) = (.error f, log) := by
  by_cases hd : e.isA .decapsulate = true
  · exact ⟨e, [t.failure], fun α => by simp only [disclosed, hd, if_true]⟩
  · by_cases hv : e.isA .value = true
    · exact ⟨.undecapsulated, [t.failure], fun α => by simp only [disclosed, hd, hv, if_true]; rfl⟩
    · exact ⟨e, [], fun α => by simp only [disclosed, hd, hv]; rfl⟩

theorem Terms.failure_mirrors (t : Terms σ) :
    (t.reportFailure >>= fun _ => (throw .undecapsulated : Act σ α)).Mirrors R P
      (t.reportFailure >>= fun _ => (throw .undecapsulated : Act σ β)) :=
  (Act.mirrors_report _).bind fun _ _ _ => Act.mirrors_throw _

/-- What mirrors each other does so when it is concealed as well. -/
theorem Terms.conceal_mirrors (t : Terms σ) {x : Act σ α} {y : Act σ β} (h : x.Mirrors R P y) :
    (t.conceal x).Mirrors R P (t.conceal y) := by
  intro s u hs
  obtain ⟨hr, hl, ht⟩ := h s u hs
  rw [conceal_run, conceal_run, ← hl]
  generalize (x.run s).result = r at hr ⊢
  generalize (y.run u).result = r' at hr ⊢
  cases hr with
  | ok h => exact ⟨.ok h, rfl, ht⟩
  | error e =>
    obtain ⟨f, log, hd⟩ := t.disclosed_error e
    rw [hd, hd]
    exact ⟨.error f, rfl, ht⟩

def Veils (x : Except Fault α) : Prop := ∀ e, x = .error e → e.Veiled

/-- Related values; faults are the same, or neither tells more than that the message is bad. -/
def Covered (P : α → β → Prop) : Except Fault α → Except Fault β → Prop
  | .ok a, .ok b => P a b
  | .ok _, .error e | .error e, .ok _ => e.Veiled
  | .error e, .error f => e = f ∨ (e.Veiled ∧ f.Veiled)

namespace Covered
variable {x : Except Fault α} {y : Except Fault β} {f : α → Except Fault γ} {g : β → Except Fault δ}

theorem of_veils (hx : Veils x) (hy : Veils y) (h : ∀ a b, x = .ok a → y = .ok b → P a b) :
    Covered P x y := by
  cases x with
  | ok a =>
    cases y with
    | ok b => exact h a b rfl rfl
    | error e => exact hy e rfl
  | error e =>
    cases y with
    | ok b => exact hx e rfl
    | error f => exact .inr ⟨hx e rfl, hy f rfl⟩

theorem of_matched (h : Matched P x y) : Covered P x y := by
  cases h with
  | ok h => exact h
  | error e => exact .inl rfl

/-- What goes on behind only one of two results must not show why the other one failed. -/
theorem bind (hx : Covered P x y) (hfg : ∀ a b, P a b → Covered Q (f a) (g b))
    (hf : ∀ a, x = .ok a → Veils (f a)) (hg : ∀ b, y = .ok b → Veils (g b)) :
    Covered Q (x >>= f) (y >>= g) := by
  cases x with
  | ok a =>
    cases y with
    | ok b => exact hfg a b hx
    | error e =>
      have he : Veils (.error e : Except Fault δ) := fun e' he' => by cases he'; exact hx
      exact of_veils (hf a rfl) he fun _ _ _ h => nomatch h
  | error e =>
    cases y with
    | ok b =>
      have he : Veils (.error e : Except Fault γ) := fun e' he' => by cases he'; exact hx
      exact of_veils he (hg b rfl) fun _ _ h => nomatch h
    | error f => exact hx

end Covered

/-- Concealed actions converge if what they conceal is covered. -/
theorem Terms.conceal_converges (t : Terms σ) {x : Except Fault α} {y : Except Fault β}
    (h : Covered P x y) :
    (t.conceal (liftM x : Act σ α)).Converges R P (t.conceal (liftM y : Act σ β)) := by
  intro s u hs hok
  rw [conceal_run, conceal_run] at hok ⊢
  simp only [Act.run_lift, List.nil_append] at hok ⊢
  cases x with
  | ok a =>
    cases y with
    | ok b => exact ⟨.ok h, rfl, hs⟩
    | error e =>
      rw [t.disclosed_veiled (show e.Veiled from h)] at hok
      cases hok
  | error e =>
    cases y with
    | ok b =>
      rw [t.disclosed_veiled (show e.Veiled from h)] at hok
      cases hok
    | error f =>
      rcases h with rfl | ⟨he, hf⟩
      · obtain ⟨f, log, hd⟩ := t.disclosed_error e
        rw [hd, hd]
        exact ⟨.error f, rfl, hs⟩
      · rw [t.disclosed_veiled he, t.disclosed_veiled hf]
        exact ⟨.error _, rfl, hs⟩

end KeyCapsule
