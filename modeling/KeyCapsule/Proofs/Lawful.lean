import KeyCapsule.Proofs.Support
import KeyCapsule.Proofs.Verdict

/-! Lawful pairs under the checks. A pair whose sender takes its turns from a source in order, and whose
receiver opens what the sender sealed, is never found at fault; only what the source made of the turns can
fail a check. -/
namespace KeyCapsule

namespace Act
variable {σ α β : Type}

def Ends (x : Act σ α) (s : σ) (r : Except Fault α) (t : σ) : Prop :=
  (x.run s).result = r ∧ (x.run s).state = t

variable {x : Act σ α} {s t u : σ}

theorem ends_pure (a : α) (s : σ) : (Pure.pure a : Act σ α).Ends s (.ok a) s := ⟨rfl, rfl⟩

private theorem ends_throw (e : Fault) (s : σ) : (throw e : Act σ α).Ends s (.error e) s := ⟨rfl, rfl⟩

theorem ends_lift (x : Except Fault α) (s : σ) : (liftM x : Act σ α).Ends s x s := ⟨rfl, rfl⟩

theorem Ends.bind {f : α → Act σ β} {a : α} {r : Except Fault β} (hx : x.Ends s (.ok a) t)
    (hf : (f a).Ends t r u) : (x >>= f).Ends s r u := by
  obtain ⟨hx, rfl⟩ := hx
  rw [Ends, run_bind_ok hx]
  exact hf

theorem Ends.bind_error {f : α → Act σ β} {e : Fault} (hx : x.Ends s (.error e) t) :
    (x >>= f).Ends s (.error e) t := by
  obtain ⟨hx, rfl⟩ := hx
  rw [Ends, run_bind, hx]
  exact ⟨rfl, rfl⟩

theorem Ends.attempt {r : Except Fault α} (hx : x.Ends s r t) : x.attempt.Ends s (.ok r) t :=
  ⟨congrArg Except.ok hx.1, hx.2⟩

theorem ends_of_run {r : Except Fault α} {log : List Record} (h : x.run s = ⟨r, log, t⟩) : x.Ends s r t := by
  rw [Ends, h]
  exact ⟨rfl, rfl⟩

end Act

namespace Conformance
open Act

variable {σ α : Type}

theorem ends_require {holds : Bool} (h : holds = true) (breach : Breach) (s : σ) :
    (require holds breach : Act σ Unit).Ends s (.ok ()) s := by
  cases h
  exact ends_pure () s

theorem ends_require_not {holds : Bool} (h : holds = false) (breach : Breach) (s : σ) :
    (require holds breach : Act σ Unit).Ends s (.error (.breach breach)) s := by
  cases h
  exact ends_throw _ s

section Turns
variable {place : Nat → σ}

/-- An action that takes one turn takes so many turns when it is done so often. -/
theorem ends_times {x : Act σ Unit} (h : ∀ n, x.Ends (place n) (.ok ()) (place (n + 1))) (k n : Nat) :
    (times k x).Ends (place n) (.ok ()) (place (n + k)) := by
  induction k generalizing n with
  | zero => exact ends_pure () _
  | succ k ih =>
    have hrest := ih (n + 1)
    rw [Nat.add_right_comm] at hrest
    exact (h n).bind hrest

theorem ends_gather {x : Act σ α} {value : Nat → α}
    (h : ∀ n, x.Ends (place n) (.ok (value n)) (place (n + 1))) (k n : Nat) :
    (gather x k).Ends (place n) (.ok (((List.range' n k).map value).map .ok)) (place (n + k)) := by
  induction k generalizing n with
  | zero => exact ends_pure [] _
  | succ k ih =>
    have hrest := ih (n + 1)
    rw [Nat.add_right_comm] at hrest
    exact (h n).attempt.bind (hrest.bind (ends_pure _ _))

theorem ends_settle (values : List α) (s : σ) :
    (liftM (settle (values.map .ok)) : Act σ (List α)).Ends s (.ok values) s :=
  settle_ok values ▸ ends_lift _ s

theorem ends_forM {f : α → Act σ PUnit} {items : List α} {s : σ}
    (h : ∀ a ∈ items, (f a).Ends s (.ok ()) s) : (items.forM f).Ends s (.ok ()) s := by
  induction items with
  | nil => exact ends_pure _ s
  | cons a rest ih =>
    exact (h a List.mem_cons_self).bind (ih fun a ha => h a (List.mem_cons_of_mem _ ha))

end Turns

structure Turn where
  message : Bytes
  secret : Bytes

/-- The ways of a pair: its sizes, the windows it offers, the turns of its source with the states between
them, and the secrets that its receiver reads from messages. -/
structure Practice (σ : Type) where
  secretSize : Int
  messageSize : Int
  offers : Int → Int → String → Bool
  sealing : Datum → Datum → Datum → Act σ Encapsulated
  reads : Bytes → Option Bytes
  place : Nat → σ
  turn : Nat → Turn

/-- The secret that a message is opened to; one of another length is not read at all. -/
def Practice.opens (p : Practice σ) (m : Bytes) : Option Bytes :=
  if (m.length : Int) = p.messageSize then p.reads m else none

/-- A pair that keeps to its ways: both sides check a request first, each sealed request takes one turn, and
the receiver opens the message of a turn to its secret. -/
structure Lawful (b : Bench σ) (p : Practice σ) : Prop where
  enc : b.enc.toTerms.Fixed p.secretSize p.messageSize
  dec : b.dec.toTerms.Fixed p.secretSize p.messageSize
  answers : ∀ start stop label, b.enc.supports (.int start) (.int stop) (.text label) =
    pure (p.offers start stop label)
  receiverAnswers : ∀ start stop label, b.dec.supports (.int start) (.int stop) (.text label) =
    pure (p.offers start stop label)
  quiet : b.dec.toTerms.Quiet
  encapsulate : b.enc.encapsulate = b.enc.serve p.sealing
  decapsulate : b.dec.decapsulate = b.dec.receive fun m start stop label =>
    liftM (SecretKey.cutFrom (p.reads m) start stop label)
  secret_pos : 1 ≤ p.secretSize
  /-- Even the size after the secret's can be written. -/
  secret_small : p.secretSize < 0xffff
  message_pos : 1 ≤ p.messageSize
  /-- The whole secret is offered under the general label. -/
  whole : p.offers 0 p.secretSize "Generic" = true
  seals : ∀ n (start stop : Int) (label : String), 0 ≤ start → start < stop → stop ≤ p.secretSize →
    ∃ r, (p.sealing (.int start) (.int stop) (.text label)).Ends (p.place n) (.ok r) (p.place (n + 1)) ∧
      r.encapsulation = .bytes (p.turn n).message ∧
      r.key.encoded = (p.turn n).secret.cut start stop ∧ r.key.algorithm = .text label
  opened : ∀ n, p.opens (p.turn n).message = some (p.turn n).secret
  spans : ∀ m secret, p.reads m = some secret → (secret.length : Int) = p.secretSize

namespace Lawful
variable {b : Bench σ} {p : Practice σ} (h : Lawful b p)
include h

theorem sound {m secret : Bytes} (hm : p.opens m = some secret) :
    (m.length : Int) = p.messageSize ∧ (secret.length : Int) = p.secretSize := by
  rw [Practice.opens] at hm
  split at hm
  · next hl => exact ⟨hl, h.spans m secret hm⟩
  · cases hm

theorem length_message (n : Nat) : ((p.turn n).message.length : Int) = p.messageSize :=
  (h.sound (h.opened n)).1

theorem length_secret (n : Nat) : ((p.turn n).secret.length : Int) = p.secretSize :=
  (h.sound (h.opened n)).2

/-- A request inside the secret that is offered takes a turn. -/
theorem ends_encapsulate (n : Nat) {start stop : Int} {label : String} (h₀ : 0 ≤ start) (h₁ : start < stop)
    (h₂ : stop ≤ p.secretSize) (ho : p.offers start stop label = true) :
    ∃ r, (b.enc.encapsulate (.int start) (.int stop) (.text label)).Ends (p.place n) (.ok r)
        (p.place (n + 1)) ∧
      r.encapsulation = .bytes (p.turn n).message ∧
      r.key.encoded = (p.turn n).secret.cut start stop ∧ r.key.algorithm = .text label := by
  rw [h.encapsulate, Terms.serve, Terms.grant_offered h.enc.secretSize h.answers,
    if_pos ⟨h₀, Int.le_of_lt h₁, h₂⟩, if_pos ho, Act.pure_bind]
  exact h.seals n start stop label h₀ h₁ h₂

theorem ends_encapsulate_unsupported {start stop : Int} {label : String} (h₀ : 0 ≤ start)
    (h₁ : start ≤ stop) (h₂ : stop ≤ p.secretSize) (ho : p.offers start stop label = false) (s : σ) :
    (b.enc.encapsulate (.int start) (.int stop) (.text label)).Ends s
      (.error (.unsupported b.enc.type (.int start) (.int stop) (.text label))) s := by
  have hsmall := h.secret_small
  have hw : (Fault.unsupported b.enc.type (.int start) (.int stop) (.text label)).writable = true := by
    rw [Fault.writable, Datum.writable_small (by omega), Datum.writable_small (by omega), Datum.writable_text]
    rfl
  rw [h.encapsulate, Terms.serve, Terms.grant_offered h.enc.secretSize h.answers, if_pos ⟨h₀, h₁, h₂⟩, ho,
    Fault.worded_of_writable hw]
  exact ends_throw _ s

/-- The receiver answers a request that is offered by what the message opens to. -/
theorem ends_decapsulate (m : Bytes) {start stop : Int} {label : String} (h₀ : 0 ≤ start)
    (h₁ : start < stop) (h₂ : stop ≤ p.secretSize) (ho : p.offers start stop label = true) (s : σ) :
    match p.opens m with
    | some secret => ∃ k,
        (b.dec.decapsulate (.bytes m) (.int start) (.int stop) (.text label)).Ends s (.ok k) s ∧
          k.encoded = secret.cut start stop ∧ k.algorithm = .text label
    | none => (b.dec.decapsulate (.bytes m) (.int start) (.int stop) (.text label)).Ends s
        (.error .undecapsulated) s := by
  have hw : ((b.dec.grant (.int start) (.int stop) (.text label)).run s).result =
      .ok (.int start, .int stop) := by
    rw [Terms.grant_offered h.dec.secretSize h.receiverAnswers, if_pos ⟨h₀, Int.le_of_lt h₁, h₂⟩, if_pos ho]
    rfl
  have hr := Terms.receive_cut h.dec h.quiet (fun _ _ _ _ => rfl) h.spans m h₁ hw
  rw [← Practice.opens] at hr
  rw [h.decapsulate]
  cases hm : p.opens m with
  | none =>
    rw [hm] at hr
    exact ends_of_run hr
  | some secret =>
    rw [hm] at hr
    obtain ⟨k, hrun, he, ha⟩ := hr
    exact ⟨k, ends_of_run hrun, he, ha⟩

/-- A request for the whole secret takes a turn and gives all of it. -/
theorem ends_whole (n : Nat) : ∃ r, b.enc.whole.Ends (p.place n) (.ok r) (p.place (n + 1)) ∧
    r.encapsulation = .bytes (p.turn n).message ∧ r.key.encoded = (p.turn n).secret ∧
    r.key.algorithm = SecretKey.generic := by
  have hw : b.enc.whole = b.enc.encapsulate (.int 0) (.int p.secretSize) (.text "Generic") := by
    rw [Encapsulator.whole, h.encapsulate, Terms.serve, Terms.grant_absent h.enc.secretSize]
    rfl
  obtain ⟨r, hr, hm, hk, ha⟩ := h.ends_encapsulate n (Int.le_refl 0) h.secret_pos (Int.le_refl _) h.whole
  rw [← h.length_secret n, Bytes.cut_whole] at hk
  exact ⟨r, hw ▸ hr, hm, hk, ha⟩

/-- A message is opened to the whole of its secret, or refused. -/
theorem ends_opened (m : Bytes) (s : σ) :
    match p.opens m with
    | some secret => ∃ k, (b.dec.whole (.bytes m)).Ends s (.ok k) s ∧ k.encoded = secret ∧
        k.algorithm = SecretKey.generic
    | none => (b.dec.whole (.bytes m)).Ends s (.error .undecapsulated) s := by
  have hw : b.dec.whole (.bytes m) =
      b.dec.decapsulate (.bytes m) (.int 0) (.int p.secretSize) (.text "Generic") := by
    rw [Decapsulator.whole, h.decapsulate, Terms.receive_absent h.dec.secretSize]
    rfl
  have hr := h.ends_decapsulate m (Int.le_refl 0) h.secret_pos (Int.le_refl _) h.whole s
  rw [hw]
  cases hm : p.opens m with
  | none =>
    rw [hm] at hr
    exact hr
  | some secret =>
    rw [hm] at hr
    obtain ⟨k, hk, he, ha⟩ := hr
    rw [← (h.sound hm).2, Bytes.cut_whole] at he
    exact ⟨k, hk, he, ha⟩

/-- The message of a turn is opened to the key of that turn. -/
theorem ends_reopened {n : Nat} {r : Encapsulated} (hm : r.encapsulation = .bytes (p.turn n).message)
    (hk : r.key.encoded = (p.turn n).secret) (ha : r.key.algorithm = SecretKey.generic) (s : σ) :
    (b.dec.whole r.encapsulation).Ends s (.ok r.key) s := by
  have ho := h.ends_opened (p.turn n).message s
  rw [h.opened] at ho
  obtain ⟨k, hr, he, hl⟩ := ho
  rw [hm, ← SecretKey.eq_of_parts (he.trans hk.symm) (hl.trans ha.symm)]
  exact hr

/-- A message of another length is refused. -/
theorem ends_misfit {m : Bytes} (hm : (m.length : Int) ≠ p.messageSize) (s : σ) :
    (b.dec.whole (.bytes m)).Ends s (.error .undecapsulated) s := by
  have ho := h.ends_opened m s
  cases hx : p.opens m with
  | none =>
    rw [hx] at ho
    exact ho
  | some secret => exact absurd (h.sound hx).1 hm

end Lawful
end Conformance
end KeyCapsule
