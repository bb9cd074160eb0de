import KeyCapsule.Act

/-! Runs of actions, one step at a time. A sequence goes on from the state and the records of its first
part; a fault ends it there, and nothing later is run. -/
namespace KeyCapsule
variable {σ α β : Type}

namespace Outcome

def after (log : List Record) (o : Outcome σ α) : Outcome σ α := ⟨o.result, log ++ o.log, o.state⟩

@[simp] theorem after_nil (o : Outcome σ α) : o.after [] = o := rfl

@[simp] theorem after_mk (log more : List Record) (r : Except Fault α) (s : σ) :
    (⟨r, more, s⟩ : Outcome σ α).after log = ⟨r, log ++ more, s⟩ := rfl

@[simp] theorem result_after (log : List Record) (o : Outcome σ α) :
    (o.after log).result = o.result := rfl

@[simp] theorem state_after (log : List Record) (o : Outcome σ α) : (o.after log).state = o.state := rfl

end Outcome

namespace Act

def run (x : Act σ α) (s : σ) : Outcome σ α := x s

@[simp] theorem run_pure (a : α) (s : σ) : (Pure.pure a : Act σ α).run s = ⟨.ok a, [], s⟩ := rfl

@[simp] theorem run_throw (e : Fault) (s : σ) : (throw e : Act σ α).run s = ⟨.error e, [], s⟩ := rfl

@[simp] theorem run_lift (x : Except Fault α) (s : σ) : (liftM x : Act σ α).run s = ⟨x, [], s⟩ := rfl

theorem run_bind (x : Act σ α) (f : α → Act σ β) (s : σ) :
    (x >>= f).run s = match (x.run s).result with
      | .ok a => ((f a).run (x.run s).state).after (x.run s).log
      | .error e => ⟨.error e, (x.run s).log, (x.run s).state⟩ := rfl

theorem run_handle (x : Act σ α) (h : Fault → Act σ α) (s : σ) :
    (x.handle h).run s = match (x.run s).result with
      | .ok a => ⟨.ok a, (x.run s).log, (x.run s).state⟩
      | .error e => ((h e).run (x.run s).state).after (x.run s).log := rfl

@[simp] theorem throw_bind (e : Fault) (f : α → Act σ β) :
    (throw e : Act σ α) >>= f = throw e := rfl

theorem lift_ok (a : α) : (liftM (.ok a : Except Fault α) : Act σ α) = Pure.pure a := rfl

theorem lift_error (e : Fault) : (liftM (.error e : Except Fault α) : Act σ α) = throw e := rfl

/-- Behind a first part that succeeds the rest runs from there. -/
theorem run_bind_ok {x : Act σ α} {a : α} {s : σ} (h : (x.run s).result = .ok a) (f : α → Act σ β) :
    (x >>= f).run s = ((f a).run (x.run s).state).after (x.run s).log := by
  rw [run_bind, h]

/-- A sequence that succeeds has run its first part and then the rest from there. -/
theorem result_bind_eq_ok {x : Act σ α} {f : α → Act σ β} {s : σ} {b : β} :
    ((x >>= f).run s).result = .ok b ↔
      ∃ a, (x.run s).result = .ok a ∧ ((f a).run (x.run s).state).result = .ok b := by
  rw [run_bind]
  cases h : (x.run s).result <;> simp

end Act

/-- A sequence of checks that succeeds has passed each in turn. -/
theorem bind_eq_ok {x : Except Fault α} {f : α → Except Fault β} {b : β} :
    x >>= f = .ok b ↔ ∃ a, x = .ok a ∧ f a = .ok b := by
  cases x <;> simp [bind, Except.bind]

/-- A check that throws under a condition is passed without it. -/
theorem guard_eq_ok {p : Prop} [Decidable p] {e : Fault} {f : β → Except Fault α} {x : Except Fault α}
    {a : α} : (if p then throw e >>= f else x) = .ok a ↔ ¬ p ∧ x = .ok a := by
  by_cases h : p
  · simp [h, throw, throwThe, MonadExceptOf.throw, bind, Except.bind]
  · simp [h]

theorem ok_bind {ε : Type} (a : α) (f : α → Except ε β) : (.ok a : Except ε α) >>= f = f a := rfl

theorem error_bind {ε : Type} (e : ε) (f : α → Except ε β) :
    (.error e : Except ε α) >>= f = .error e := rfl

theorem map_bind {ε γ : Type} (x : Except ε α) (f : α → Except ε β) (t : β → γ) :
    (x >>= f).map t = x >>= fun a => (f a).map t := by
  cases x <;> rfl

namespace Act

/-- An action that comes to one result whatever the state, and leaves the state alone. -/
def Yields (x : Act σ α) (r : Except Fault α) : Prop := ∃ log, ∀ s, x.run s = ⟨r, log, s⟩

theorem yields_lift (x : Except Fault α) : (liftM x : Act σ α).Yields x := ⟨[], fun _ => rfl⟩

theorem yields_pure (a : α) : (Pure.pure a : Act σ α).Yields (.ok a) := ⟨[], fun _ => rfl⟩

theorem yields_report (r : Record) : (report r : Act σ Unit).Yields (.ok ()) := ⟨[r], fun _ => rfl⟩

theorem Yields.bind {x : Act σ α} {r : Except Fault α} {f : α → Act σ β} {q : α → Except Fault β}
    (hx : x.Yields r) (hf : ∀ a, r = .ok a → (f a).Yields (q a)) : (x >>= f).Yields (r >>= q) := by
  obtain ⟨log, hx⟩ := hx
  cases r with
  | error e => exact ⟨log, fun s => by rw [run_bind, hx]; rfl⟩
  | ok a =>
    obtain ⟨more, hf⟩ := hf a rfl
    exact ⟨log ++ more, fun s => by rw [run_bind, hx, ok_bind]; simp only [hf, Outcome.after_mk]⟩

theorem Yields.result {x : Act σ α} {r : Except Fault α} (h : x.Yields r) (s : σ) :
    (x.run s).result = r := by
  obtain ⟨log, h⟩ := h
  rw [h]

end Act

theorem toOption_eq_some {ε : Type} {x : Except ε α} {a : α} : x.toOption = some a ↔ x = .ok a := by
  cases x <;> simp [Except.toOption]

end KeyCapsule
