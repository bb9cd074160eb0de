import KeyCapsule.Proofs.Draw
import KeyCapsule.Source.Scripted

/-! Draws on a stream. As long as the stream lasts, a draw takes the bytes that come next, and of a shared
stream it is known what it was asked for. -/
namespace KeyCapsule
variable {σ : Type}

@[simp] theorem Cell.run_read {α : Type} (c : Cell σ α) (s : σ) : c.read.run s = ⟨.ok (c.get s), [], s⟩ :=
  rfl

@[simp] theorem Cell.run_write {α : Type} (c : Cell σ α) (a : α) (s : σ) :
    (c.write a).run s = ⟨.ok (), [], c.set a s⟩ := rfl

private theorem Source.taken_of_le {left n : Nat} (hword : Datum.isWord n = true) (hn : n ≤ left) :
    taken left (.int n) = .ok n := by
  have hneg : ¬ (n : Int) < 0 := by omega
  simp only [taken, Datum.bound_int, hword, hneg, Bool.not_true, Bool.false_eq_true, if_false,
    Int.toNat_natCast, Nat.min_eq_left hn]

private theorem Cell.run_move {α : Type} {place : Cell σ Nat} (count : Nat → Except Fault Nat)
    (answer : Nat → Nat → α) {n : Nat} {s : σ} (h : count (place.get s) = .ok n) :
    ((place.read >>= fun first => (liftM (count first) : Act σ Nat) >>= fun n =>
        place.write (first + n) >>= fun _ => pure (answer first n)) : Act σ α).run s =
      ⟨.ok (answer (place.get s) n), [], place.set (place.get s + n) s⟩ := by
  simp only [Act.run_bind, run_read, Act.run_lift, h, run_write, Act.run_pure, Outcome.after_mk,
    List.append_nil]

private theorem Source.stream_draw {place : Cell σ Nat} {data : Bytes} {wanted : Datum} {n : Nat} {s : σ}
    (h : taken (data.drop (place.get s)).length wanted = .ok n) :
    ((stream data place).draw wanted).run s =
      ⟨.ok (.bytes ((data.drop (place.get s)).take n)), [], place.set (place.get s + n) s⟩ :=
  Cell.run_move (fun first => taken (data.drop first).length wanted)
    (fun first n => Datum.bytes ((data.drop first).take n)) h

private theorem Source.read_of_draw {source : Source σ} {n : Nat} {b : Bytes} {s s' : σ} (hb : b.length = n)
    (h : (source.draw (.int n)).run s = ⟨.ok (.bytes b), [], s'⟩) :
    (source.read (.int n)).run s = ⟨.ok b, [], s'⟩ := by
  cases hb
  rw [Source.read, Act.run_bind, h]
  simp only [accept_bytes, Act.run_lift, Outcome.after_mk, List.append_nil]

/-- Bytes that are there can be taken. -/
theorem Bytes.length_next {data : Bytes} {first n : Nat} (h : first + n ≤ data.length) :
    ((data.drop first).take n).length = n := by
  rw [List.length_take, List.length_drop]
  omega

private theorem Source.stream_next {place : Cell σ Nat} {data : Bytes} {n : Nat} {s : σ}
    (hword : Datum.isWord n = true) (hn : place.get s + n ≤ data.length) :
    ((stream data place).draw (.int n)).run s =
      ⟨.ok (.bytes ((data.drop (place.get s)).take n)), [], place.set (place.get s + n) s⟩ := by
  refine stream_draw (taken_of_le hword ?_)
  rw [List.length_drop]
  omega

theorem Source.stream_read {place : Cell σ Nat} {data : Bytes} {n : Nat} {s : σ}
    (hword : Datum.isWord n = true) (hn : place.get s + n ≤ data.length) :
    ((stream data place).read (.int n)).run s =
      ⟨.ok ((data.drop (place.get s)).take n), [], place.set (place.get s + n) s⟩ :=
  read_of_draw (Bytes.length_next hn) (stream_next hword hn)

namespace Session

structure Tape where
  place : Nat
  asked : List Datum

def Tape.cell : Cell Tape Nat := ⟨Tape.place, fun n t => { t with place := n }⟩

/-- The stream that all senders of a session share. Every draw is noted before it is served. -/
def shared (data : Bytes) : Source Tape where
  draw wanted := do
    Act.update fun t => { t with asked := t.asked ++ [wanted] }
    (Source.stream data Tape.cell).draw wanted

private theorem shared_draw (data : Bytes) (wanted : Datum) (t : Tape) :
    ((shared data).draw wanted).run t =
      ((Source.stream data Tape.cell).draw wanted).run { t with asked := t.asked ++ [wanted] } := by
  have hrun : ∀ (f : Tape → Tape) (x : Act Tape Datum), (Act.update f >>= fun _ => x).run t = x.run (f t) :=
    fun f x => Outcome.after_nil _
  exact hrun (fun t => { t with asked := t.asked ++ [wanted] }) _

theorem shared_read {data : Bytes} {n : Nat} {t : Tape} (hword : Datum.isWord n = true)
    (hn : t.place + n ≤ data.length) :
    ((shared data).read (.int n)).run t =
      ⟨.ok ((data.drop t.place).take n), [], ⟨t.place + n, t.asked ++ [.int n]⟩⟩ := by
  refine Source.read_of_draw (Bytes.length_next hn) ?_
  rw [shared_draw]
  exact Source.stream_next hword hn

end Session
end KeyCapsule
