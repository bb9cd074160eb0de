import KeyCapsule.Proofs.Answer
import KeyCapsule.Proofs.Contract
import KeyCapsule.Proofs.Matched

/-! Values that differ in secret bytes only. Byte strings are alike if they have one length, keys if they
have one kind and one name; what is cut, derived or sealed from such values is alike or fails alike. -/
namespace KeyCapsule
variable {σ α β : Type} {R : σ → σ → Prop}

def Bytes.Alike (b c : Bytes) : Prop := b.length = c.length

namespace Datum

/-- The same value, or byte strings of one length. -/
inductive Alike : Datum → Datum → Prop
  | same (d : Datum) : Alike d d
  | bytes {b c : Bytes} (h : b.Alike c) : Alike (.bytes b) (.bytes c)
  | buffer {b c : Bytes} (h : b.Alike c) : Alike (.buffer b) (.buffer c)

namespace Alike
variable {d e : Datum}

theorem typeName_eq (h : d.Alike e) : d.typeName = e.typeName := by
  cases h <;> rfl

theorem isNone_eq (h : d.Alike e) : d.isNone = e.isNone := by
  cases h <;> rfl

theorem size_eq (h : d.Alike e) : d.size = e.size := by
  cases h with
  | same => rfl
  | bytes h => exact congrArg Except.ok h
  | buffer h => exact congrArg Except.ok h

theorem toBytes (h : d.Alike e) : Matched Bytes.Alike d.toBytes e.toBytes := by
  cases h with
  | same => exact (Matched.same _).mono fun _ _ h => congrArg List.length h.1
  | bytes h => exact .ok h
  | buffer h => exact .ok h

theorem joinable (h : d.Alike e) : Matched Bytes.Alike d.joinable e.joinable := by
  cases h with
  | same => exact (Matched.same _).mono fun _ _ h => congrArg List.length h.1
  | bytes h => exact .ok h
  | buffer h => exact .ok h

end Alike
end Datum

namespace Source

/-- Sources that answer every request alike. -/
def Alike (R : σ → σ → Prop) (source source' : Source σ) : Prop :=
  ∀ wanted, (source.draw wanted).Mirrors R Datum.Alike (source'.draw wanted)

private theorem accept_alike (wanted : Datum) {d e : Datum} (h : d.Alike e) :
    Matched Bytes.Alike (accept wanted d) (accept wanted e) := by
  rw [accept, accept, h.size_eq]
  cases e.size with
  | error f => exact .error f
  | ok got =>
    simp only [ok_bind]
    split
    · exact .error _
    · exact h.toBytes

theorem Alike.read {source source' : Source σ} (h : source.Alike R source') (wanted : Datum) :
    (source.read wanted).Mirrors R Bytes.Alike (source'.read wanted) :=
  (h wanted).bind fun _ _ hd => Act.mirrors_lift (accept_alike wanted hd)

end Source

namespace SourceChoice

def pick (default : Source σ) : SourceChoice σ → Source σ
  | supplied s => s
  | _ => default

inductive Alike (R : σ → σ → Prop) : SourceChoice σ → SourceChoice σ → Prop
  | absent : Alike R .absent .absent
  | supplied {s s' : Source σ} (h : s.Alike R s') : Alike R (.supplied s) (.supplied s')
  | other {d e : Datum} (h : d.Alike e) : Alike R (.other d) (.other e)

theorem Alike.resolve {default default' : Source σ} (hd : default.Alike R default')
    {c c' : SourceChoice σ} (h : c.Alike R c') :
    Matched (fun s s' => s.Alike R s' ∧ s = c.pick default ∧ s' = c'.pick default')
      (c.resolve default) (c'.resolve default') := by
  cases h with
  | absent => exact .ok ⟨hd, rfl, rfl⟩
  | supplied h => exact .ok ⟨h, rfl, rfl⟩
  | other h =>
    simp only [SourceChoice.resolve, h.typeName_eq]
    exact .error _

end SourceChoice

private theorem Datum.length_window {b c : Bytes} (h : b.Alike c) (start stop : Option Int) :
    (window b start stop).length = (window c start stop).length := by
  simp only [window, List.length_drop, List.length_take, show b.length = c.length from h]

namespace SecretKey

structure Alike (j k : SecretKey) : Prop where
  encoded : j.encoded.Alike k.encoded
  algorithm : j.algorithm = k.algorithm

/-- The written form of a key shows its label and its length alone. -/
theorem Alike.written_eq {j k : SecretKey} (h : j.Alike k) : j.written = k.written := by
  have hl : j.encoded.length = k.encoded.length := h.encoded
  have ha : j.algorithm = k.algorithm := h.algorithm
  unfold written
  rw [ha, hl]

private theorem make_alike {b c : Bytes} (h : b.Alike c) (label : Datum) :
    Matched SecretKey.Alike (make (.bytes b) label) (make (.bytes c) label) := by
  by_cases hl : label = .none
  · cases hl
    exact .error _
  · cases b with
    | nil =>
      cases List.length_eq_zero_iff.1 (show c.length = 0 from h.symm)
      exact (Matched.same _).mono fun j k hj => hj.1 ▸ ⟨rfl, rfl⟩
    | cons x rest =>
      cases c with
      | nil => exact absurd h (Nat.succ_ne_zero _)
      | cons y rest' =>
        rw [make_bytes (List.cons_ne_nil x rest) hl, make_bytes (List.cons_ne_nil y rest') hl]
        exact .ok ⟨h, rfl⟩

/-- Windows of secrets of one length give keys alike, or none for the same reason. -/
theorem slice_alike {b c : Bytes} (h : b.Alike c) (start stop label : Datum) :
    Matched SecretKey.Alike (slice (.bytes b) start stop label) (slice (.bytes c) start stop label) := by
  simp only [slice, Datum.slice]
  cases start.bound with
  | error e => exact .error e
  | ok first =>
    cases stop.bound with
    | error e => exact .error e
    | ok last => exact make_alike (Datum.length_window h first last) label

/-- Between integers there is no other reason than that the window is empty. -/
theorem slice_veils (b : Bytes) {start stop label : Datum} {m n : Int} (hs : start.integer? = some m)
    (hn : stop.integer? = some n) (hl : label.isNone = false) :
    Veils (slice (.bytes b) start stop label) := by
  intro e he
  simp only [slice, Datum.slice, Datum.bound_integer hs, Datum.bound_integer hn, ok_bind] at he
  have he : make (.bytes (Datum.window b (some m) (some n))) label = .error e := he
  generalize Datum.window b (some m) (some n) = c at he
  by_cases hc : c = []
  · cases hc
    cases label <;> cases hl <;> cases he <;> exact .inr ⟨rfl, rfl⟩
  · rw [make_bytes hc (Datum.ne_none_of_isNone hl)] at he
    cases he

end SecretKey

namespace Encapsulated

structure Alike (r r' : Encapsulated) : Prop where
  key : r.key.Alike r'.key
  encapsulation : r.encapsulation.Alike r'.encapsulation
  params : r.params = r'.params

theorem Alike.written_eq {r r' : Encapsulated} (h : r.Alike r') : r.written = r'.written := by
  rw [written, written, h.key.written_eq, h.encapsulation.size_eq, h.params]

end Encapsulated

end KeyCapsule
