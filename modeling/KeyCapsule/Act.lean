import KeyCapsule.Fault

/-! Actions: steps that may draw on a state, leave log records and fail. A failing action keeps the
state it reached and the records it left. -/
namespace KeyCapsule

structure Record where
  level : Int
  logger : String
  text : String
  deriving DecidableEq

def Record.debug (logger text : String) : Record := ⟨10, logger, text⟩
def Record.info (logger text : String) : Record := ⟨20, logger, text⟩

structure Outcome (σ α : Type) where
  result : Except Fault α
  log : List Record
  state : σ

def Act (σ α : Type) : Type := σ → Outcome σ α

namespace Act

variable {σ α β : Type}

def pure (a : α) : Act σ α := fun s => ⟨.ok a, [], s⟩

def bind (x : Act σ α) (f : α → Act σ β) : Act σ β := fun s =>
  let first := x s
  match first.result with
  | .ok a =>
    let second := f a first.state
    ⟨second.result, first.log ++ second.log, second.state⟩
  | .error e => ⟨.error e, first.log, first.state⟩

instance : Monad (Act σ) where
  pure := pure
  bind := bind

def raise (e : Fault) : Act σ α := fun s => ⟨.error e, [], s⟩

def handle (x : Act σ α) (h : Fault → Act σ α) : Act σ α := fun s =>
  let first := x s
  match first.result with
  | .ok a => ⟨.ok a, first.log, first.state⟩
  | .error e =>
    let second := h e first.state
    ⟨second.result, first.log ++ second.log, second.state⟩

instance : MonadExceptOf Fault (Act σ) where
  throw := raise
  tryCatch := handle

def attempt (x : Act σ α) : Act σ (Except Fault α) := fun s =>
  let first := x s
  ⟨.ok first.result, first.log, first.state⟩

def report (r : Record) : Act σ Unit := fun s => ⟨.ok (), [r], s⟩

def lift (x : Except Fault α) : Act σ α := fun s => ⟨x, [], s⟩

instance : MonadLift (Except Fault) (Act σ) where
  monadLift := lift

def read (f : σ → α) : Act σ α := fun s => ⟨.ok (f s), [], s⟩

def update (f : σ → σ) : Act σ Unit := fun s => ⟨.ok (), [], f s⟩

private theorem bind_eq (x : Act σ α) (f : α → Act σ β) : x >>= f = bind x f := rfl

private theorem pure_eq (a : α) : (Pure.pure a : Act σ α) = pure a := rfl

theorem pure_bind (a : α) (f : α → Act σ β) : (Pure.pure a : Act σ α) >>= f = f a := rfl

private theorem bind_pure (x : Act σ α) : x >>= Pure.pure = x := by
  funext s
  simp only [bind_eq, bind, pure_eq, pure]
  rcases hx : x s with ⟨r, l, t⟩
  cases r <;> simp

theorem bind_assoc {γ : Type} (x : Act σ α) (f : α → Act σ β) (g : β → Act σ γ) :
    x >>= f >>= g = x >>= fun a => f a >>= g := by
  funext s
  simp only [bind_eq, bind]
  rcases hx : x s with ⟨r, l, t⟩
  cases r with
  | error e => rfl
  | ok a =>
    rcases hf : f a t with ⟨r', l', t'⟩
    cases r' <;> simp [hf]

instance : LawfulMonad (Act σ) := LawfulMonad.mk' (Act σ) bind_pure pure_bind bind_assoc

end Act

structure Cell (σ α : Type) where
  get : σ → α
  set : α → σ → σ

namespace Cell

variable {σ α β : Type}

def whole : Cell σ σ := ⟨id, fun a _ => a⟩

def read (c : Cell σ α) : Act σ α := Act.read c.get

def write (c : Cell σ α) (a : α) : Act σ Unit := Act.update (c.set a)

def modify (c : Cell σ α) (f : α → α) : Act σ Unit := Act.update fun s => c.set (f (c.get s)) s

end Cell

end KeyCapsule
