import KeyCapsule.Proofs.Action
import KeyCapsule.SecretKey

/-! Faults of operations on values. Whatever is handed to them, they fail by ordinary exceptions alone that
tell their texts, and none of these is the fault of a key. -/
namespace KeyCapsule
variable {α β : Type}

/-- An ordinary exception that tells its text, so that it can be recorded. -/
def Fault.Recorded (e : Fault) : Prop := e.isA .exception = true ∧ ∃ text, e.telling = .ok text

def Fault.Plain (e : Fault) : Prop := e.Recorded ∧ e.isA .invalidKey = false

private theorem Fault.Plain.ite {p : Prop} [Decidable p] {e f : Fault} (he : e.Plain) (hf : f.Plain) :
    (if p then e else f).Plain := by
  split
  · exact he
  · exact hf

def Plain (x : Except Fault α) : Prop := ∀ e, x = .error e → e.Plain

namespace Plain

theorem ok (a : α) : Plain (.ok a) := fun _ h => nomatch h

theorem error {e : Fault} (h : e.Plain) : Plain (.error e : Except Fault α) := by
  rintro _ ⟨⟩
  exact h

theorem bind {x : Except Fault α} {f : α → Except Fault β} (hx : Plain x) (hf : ∀ a, Plain (f a)) :
    Plain (x >>= f) := by
  intro e h
  cases x with
  | error e' =>
    cases h
    exact hx _ rfl
  | ok a => exact hf a e h

theorem map {x : Except Fault α} (hx : Plain x) (f : α → β) : Plain (x.map f) :=
  have h : x.map f = x >>= fun a => .ok (f a) := by cases x <;> rfl
  h ▸ hx.bind fun _ => .ok _

theorem guard {p : Prop} [Decidable p] {e : Fault} {f : β → Except Fault α} {x : Except Fault α}
    (he : e.Plain) (hx : Plain x) : Plain (if p then throw e >>= f else x) := by
  split
  · exact .error he
  · exact hx

theorem mapM {f : α → Except Fault β} (hf : ∀ a, Plain (f a)) (items : List α) :
    Plain (items.mapM f) := by
  induction items with
  | nil => exact .ok []
  | cons a rest ih =>
    rw [List.mapM_cons]
    exact (hf a).bind fun b => ih.bind fun bs => .ok (b :: bs)

end Plain

namespace Datum
variable (d : Datum)

private theorem plain_byte : Plain d.byte := by
  rw [byte]
  split
  · split
    · exact .ok _
    · exact .error ⟨⟨rfl, _, rfl⟩, rfl⟩
  · exact .error ⟨⟨rfl, _, rfl⟩, rfl⟩

private theorem plain_newLength (n : Int) : Plain (newLength n) := by
  rw [newLength, repetitions]
  repeat' split
  all_goals first | exact .ok _ | exact .error ⟨⟨rfl, _, rfl⟩, rfl⟩

theorem plain_toBytes : Plain d.toBytes := by
  cases d with
  | bytes b => exact .ok b
  | buffer b => exact .ok b
  | bool b => exact .ok _
  | int n => exact (plain_newLength n).map _
  | list items => exact .mapM plain_byte items
  | _ => exact .error ⟨⟨rfl, _, rfl⟩, rfl⟩

theorem plain_toBuffer : Plain d.toBuffer := by
  have hb := d.plain_toBytes
  unfold toBuffer
  split
  · exact .ok _
  · next e he => exact .error (.ite ⟨⟨rfl, _, rfl⟩, rfl⟩ (hb e he))
  · next e he => exact .error (.ite ⟨⟨rfl, _, rfl⟩, rfl⟩ (hb e he))
  · next e he => exact .error (hb e he)
  · exact .error ⟨⟨rfl, _, rfl⟩, rfl⟩

theorem plain_size : Plain d.size := by
  cases d with
  | object type extent =>
    cases extent with
    | known n => exact .ok n
    | _ => exact .error ⟨⟨rfl, _, rfl⟩, rfl⟩
  | text s => exact .ok _
  | bytes b => exact .ok _
  | buffer b => exact .ok _
  | list items => exact .ok _
  | _ => exact .error ⟨⟨rfl, _, rfl⟩, rfl⟩

private theorem plain_bound : Plain d.bound := by
  cases d with
  | none => exact .ok _
  | bool b => exact .ok _
  | int n => exact .ok _
  | _ => exact .error ⟨⟨rfl, _, rfl⟩, rfl⟩

theorem plain_slice (start stop : Datum) : Plain (d.slice start stop) := by
  have hb : ∀ f : Option Int → Option Int → Datum,
      Plain (do return f (← start.bound) (← stop.bound)) := fun f =>
    start.plain_bound.bind fun _ => stop.plain_bound.bind fun _ => .ok _
  cases d with
  | text s => exact hb _
  | bytes b => exact hb _
  | buffer b => exact hb _
  | list items => exact hb _
  | _ => exact .error ⟨⟨rfl, _, rfl⟩, rfl⟩

theorem plain_joinable : Plain d.joinable := by
  rw [joinable]
  split
  · exact .ok _
  · exact .error ⟨⟨rfl, _, rfl⟩, rfl⟩

theorem plain_plus (n : Int) : Plain (d.plus n) := by
  cases d with
  | real x => exact .ok _
  | bool b => exact .ok _
  | int m => exact .ok _
  | _ => exact .error ⟨⟨rfl, _, rfl⟩, rfl⟩

theorem plain_less (n : Int) : Plain (d.less (.int n)) := by
  cases d with
  | real x => exact .ok _
  | bool b => exact .ok _
  | int m => exact .ok _
  | _ => exact .error ⟨⟨rfl, _, rfl⟩, rfl⟩

end Datum

namespace SecretKey

private theorem plain_make (encoded algorithm : Datum) : Plain (make encoded algorithm) := by
  have hb : Plain (do
      if encoded.isEmpty then throw .emptyKey
      ofBytes (← encoded.toBytes) algorithm) := by
    refine .guard ⟨⟨rfl, _, rfl⟩, rfl⟩ (encoded.plain_toBytes.bind fun b => ?_)
    rw [ofBytes]
    split
    · exact .error ⟨⟨rfl, _, rfl⟩, rfl⟩
    · exact .ok _
  cases algorithm with
  | none => exact .error ⟨⟨rfl, _, rfl⟩, rfl⟩
  | _ => exact hb

theorem plain_slice (secret start stop label : Datum) : Plain (slice secret start stop label) :=
  (secret.plain_slice start stop).bind fun d => d.plain_toBytes.bind fun _ => plain_make _ _

end SecretKey

end KeyCapsule
