import KeyCapsule.Proofs.Exchange
import KeyCapsule.Proofs.MockKem

/-! Senders draw once. Whichever provider built it, a sender checks a request without a trace, makes one
draw for a request that it grants, and computes the rest from what it drew. -/
namespace KeyCapsule
variable {σ α β : Type}

namespace Act

theorem lift_bind (x : Except Fault α) (f : α → Except Fault β) :
    ((liftM x : Act σ α) >>= fun a => (liftM (f a) : Act σ β)) = liftM (x >>= f) := by
  cases x <;> rfl

/-- Computing on from the value of an action adds no record and leaves the state where it was. -/
theorem run_bind_lift (x : Act σ α) (f : α → Except Fault β) (s : σ) :
    (x >>= fun a => (liftM (f a) : Act σ β)).run s =
      ⟨(x.run s).result >>= f, (x.run s).log, (x.run s).state⟩ := by
  rw [run_bind]
  cases (x.run s).result with
  | error e => rfl
  | ok a => simp [ok_bind]

end Act

namespace Terms

def verdict (type : String) (size : Datum) (supports : Datum → Datum → Datum → Except Fault Bool)
    (start stop label : Datum) : Except Fault (Datum × Datum) := do
  if label.isNone then throw (.missing .algorithm)
  let (start, stop) ← checkWindow start stop size
  if !(← supports start stop label) then throw (Fault.unsupported type start stop label).worded
  return (start, stop)

theorem grant_eq_verdict {t : Terms σ} {size : Datum} (ht : t.secretSize = pure size)
    {supports : Datum → Datum → Datum → Except Fault Bool}
    (hs : ∀ start stop label, t.supports start stop label = liftM (supports start stop label))
    (start stop label : Datum) :
    t.grant start stop label = liftM (verdict t.type size supports start stop label) := by
  have hv : label.isNone = false → verdict t.type size supports start stop label = (do
      let (start, stop) ← checkWindow start stop size
      if !(← supports start stop label) then
        throw (Fault.unsupported t.type start stop label).worded
      return (start, stop)) := by
    intro hl
    simp [verdict, hl]
  cases label with
  | none => rfl
  | _ =>
    rw [hv rfl]
    simp only [grant, ht, Act.pure_bind, hs]
    cases checkWindow start stop size with
    | error e => rfl
    | ok w =>
      simp only [ok_bind, Act.lift_ok, Act.pure_bind]
      cases supports w.1 w.2 _ with
      | error e => rfl
      | ok yes => cases yes <;> rfl

/-- A request is granted if it has a label and its window passes the check and is supported. -/
theorem verdict_eq_ok {type : String} {size : Datum}
    {supports : Datum → Datum → Datum → Except Fault Bool} {start stop label : Datum}
    {w : Datum × Datum} : verdict type size supports start stop label = .ok w ↔
      label.isNone = false ∧ checkWindow start stop size = .ok w ∧ supports w.1 w.2 label = .ok true := by
  cases hl : label.isNone with
  | true =>
    refine ⟨fun h => ?_, fun h => nomatch h.1⟩
    rw [verdict, hl] at h
    cases h
  | false =>
    simp only [verdict, hl, Bool.false_eq_true, if_false, bind_eq_ok, true_and]
    constructor
    · rintro ⟨v, hv, yes, hy, h⟩
      cases yes with
      | false => cases h
      | true =>
        cases h
        exact ⟨hv, hy⟩
    · rintro ⟨hv, hy⟩
      exact ⟨w, hv, true, hy, rfl⟩

/-- The type of a side shows in the fault of a verdict alone. -/
theorem verdict_ok {type : String} (type' : String) {size : Datum}
    {supports : Datum → Datum → Datum → Except Fault Bool} {start stop label : Datum}
    {w : Datum × Datum} (h : verdict type size supports start stop label = .ok w) :
    verdict type' size supports start stop label = .ok w :=
  verdict_eq_ok.2 (verdict_eq_ok.1 h)

end Terms

private theorem Datum.length_mapM_byte {items : List Datum} {b : Bytes} (h : items.mapM byte = .ok b) :
    b.length = items.length := by
  induction items generalizing b with
  | nil =>
    cases h
    rfl
  | cons x rest ih =>
    rw [List.mapM_cons] at h
    obtain ⟨y, -, h⟩ := bind_eq_ok.1 h
    obtain ⟨ys, hr, h⟩ := bind_eq_ok.1 h
    cases h
    rw [List.length_cons, List.length_cons, ih hr]

/-- A value with a length that stands for a byte string stands for one of that length. -/
theorem Datum.length_toBytes {d : Datum} {n : Nat} {b : Bytes} (hn : d.size = .ok n)
    (hb : d.toBytes = .ok b) : b.length = n := by
  cases d with
  | bytes a =>
    cases hb
    exact Except.ok.inj hn
  | buffer a =>
    cases hb
    exact Except.ok.inj hn
  | list items =>
    rw [← Except.ok.inj hn]
    exact length_mapM_byte hb
  | text s => cases hb
  | object type extent => cases hb
  | _ => cases hn

private theorem Source.length_accept {wanted : Int} {answer : Datum} {b : Bytes}
    (h : accept (.int wanted) answer = .ok b) : (b.length : Int) = wanted := by
  obtain ⟨n, hn, h⟩ := bind_eq_ok.1 h
  obtain ⟨he, h⟩ := guard_eq_ok.1 h
  simp only [Datum.equals_int, Bool.not_eq_true', beq_eq_false_iff_ne, ne_eq, Decidable.not_not] at he
  rw [Datum.length_toBytes hn h, he]

theorem Source.length_read {source : Source σ} {wanted : Int} {s : σ} {b : Bytes}
    (h : ((source.read (.int wanted)).run s).result = .ok b) : (b.length : Int) = wanted := by
  obtain ⟨answer, -, h⟩ := Act.result_bind_eq_ok.1 h
  exact length_accept h

namespace Datum

/-- A value that holds bytes: a byte string, changeable or not, or a list of small integers. -/
inductive Carries : Datum → Bytes → Prop
  | bytes (b : Bytes) : Carries (.bytes b) b
  | buffer (b : Bytes) : Carries (.buffer b) b
  | list {items : List Datum} {b : Bytes}
      (h : items.map integer? = b.map fun y => some (y.toNat : Int)) : Carries (.list items) b

private theorem byte_eq_ok {x : Datum} {y : UInt8} : x.byte = .ok y ↔ x.integer? = some (y.toNat : Int) := by
  rw [byte]
  cases x.integer? with
  | none => simp
  | some n =>
    have hy : y.toNat < 256 := y.toNat_lt_size
    dsimp only
    rw [Option.some.injEq]
    split
    case isTrue h =>
      rw [Except.ok.injEq, ← UInt8.toNat_inj, UInt8.toNat_ofNat']
      omega
    case isFalse h =>
      simp only [reduceCtorEq, false_iff]
      omega

private theorem mapM_byte_eq_ok {items : List Datum} {b : Bytes} :
    items.mapM byte = .ok b ↔ items.map integer? = b.map fun y => some (y.toNat : Int) := by
  induction items generalizing b with
  | nil =>
    rw [List.mapM_nil, List.map_nil, @eq_comm _ [], List.map_eq_nil_iff]
    exact ⟨fun h => (Except.ok.inj h).symm, fun h => h ▸ rfl⟩
  | cons x rest ih =>
    rw [List.mapM_cons, List.map_cons]
    simp only [bind_eq_ok, byte_eq_ok, ih]
    constructor
    · rintro ⟨y, hx, ys, hr, ⟨⟩⟩
      rw [hx, hr, List.map_cons]
    · intro h
      cases b with
      | nil => cases h
      | cons y ys =>
        obtain ⟨hx, hr⟩ := List.cons.inj h
        exact ⟨y, hx, ys, hr, rfl⟩

private theorem carries_iff {d : Datum} {b : Bytes} :
    d.Carries b ↔ (∃ n, d.size = .ok n) ∧ d.toBytes = .ok b := by
  constructor
  · rintro (_ | _ | h)
    · exact ⟨⟨_, rfl⟩, rfl⟩
    · exact ⟨⟨_, rfl⟩, rfl⟩
    · exact ⟨⟨_, rfl⟩, mapM_byte_eq_ok.2 h⟩
  · rintro ⟨⟨n, hn⟩, hb⟩
    cases d with
    | bytes a =>
      cases hb
      exact .bytes _
    | buffer a =>
      cases hb
      exact .buffer _
    | list items => exact .list (mapM_byte_eq_ok.1 hb)
    | text s => cases hb
    | object type extent => cases hb
    | _ => cases hn

end Datum

namespace Source

/-- An answer is taken if it carries as many bytes as were wanted. -/
theorem accept_eq_ok {wanted : Int} {d : Datum} {b : Bytes} :
    accept (.int wanted) d = .ok b ↔ d.Carries b ∧ (b.length : Int) = wanted := by
  rw [Datum.carries_iff]
  constructor
  · intro h
    have hl := length_accept h
    obtain ⟨n, hn, h⟩ := bind_eq_ok.1 h
    exact ⟨⟨⟨n, hn⟩, (guard_eq_ok.1 h).2⟩, hl⟩
  · rintro ⟨⟨⟨n, hn⟩, hb⟩, hl⟩
    refine bind_eq_ok.2 ⟨n, hn, guard_eq_ok.2 ⟨?_, hb⟩⟩
    rw [← Datum.length_toBytes hn hb, Datum.equals_int, hl]
    simp

/-- Reading is one draw, and a verdict on the answer that leaves no trace. -/
theorem run_read (source : Source σ) (wanted : Datum) (s : σ) :
    (source.read wanted).run s =
      ⟨((source.draw wanted).run s).result >>= accept wanted, ((source.draw wanted).run s).log,
        ((source.draw wanted).run s).state⟩ :=
  Act.run_bind_lift _ _ s

/-- An answer of another length is a fault that tells both lengths. -/
theorem accept_misfit {wanted : Int} {d : Datum} {n : Nat} (hn : d.size = .ok n) (h : (n : Int) ≠ wanted) :
    accept (.int wanted) d = .error (Fault.drawLength n (.int wanted)).worded := by
  have he : ((n : Int) == wanted) = false := by simpa using h
  simp only [accept, hn, ok_bind, Datum.equals_int, he]
  rfl

end Source

/-- What a sender does beside drawing: its verdict on a request, how much it draws for a granted one, and
what it makes of the material. -/
structure Plan where
  grant : Datum → Datum → Datum → Except Fault (Datum × Datum)
  wanted : Int
  answer : Bytes → Datum → Datum → Datum → Except Fault Encapsulated

namespace Plan

/-- A request as a sender of this plan serves it from a source. -/
def serve (p : Plan) (source : Source σ) (start stop label : Datum) : Act σ Encapsulated := do
  let (first, last) ← p.grant start stop label
  let material ← source.read (.int p.wanted)
  p.answer material first last label

variable {p : Plan} {start stop label : Datum}

/-- A request that is turned down leaves the state as it was. -/
theorem run_refused (source : Source σ) (s : σ) {e : Fault} (h : p.grant start stop label = .error e) :
    (p.serve source start stop label).run s = ⟨.error e, [], s⟩ := by
  rw [serve, h]
  rfl

/-- A granted request is one draw and nothing else that could touch the state. -/
theorem run_granted (source : Source σ) (s : σ) {first last : Datum}
    (h : p.grant start stop label = .ok (first, last)) :
    let drawn := (source.read (.int p.wanted)).run s
    (p.serve source start stop label).run s =
      ⟨drawn.result >>= fun material => p.answer material first last label, drawn.log, drawn.state⟩ := by
  rw [serve, h]
  exact Act.run_bind_lift _ _ _

end Plan

namespace DhKem
variable {g : KeyAgreement}

def answer (g : KeyAgreement) (s : Suite) (receiver : PublicKey) (material : Bytes)
    (start stop label : Datum) : Except Fault Encapsulated := do
  let ephemeral ← s.deriveKey (.bytes material)
  let (message, secret) ← sealWith g s receiver ephemeral
  let key ← SecretKey.slice (.bytes secret) start stop label
  return ⟨key, .bytes message, .none⟩

def plan (g : KeyAgreement) (s : Suite) (receiver : PublicKey) : Plan where
  grant := Terms.verdict "DHKEMEncapsulator" (.int s.secretSize) fun start stop _ => start.less stop
  wanted := s.privateKeySize
  answer := answer g s receiver

theorem grant_eq (type : String) (s : Suite) (start stop label : Datum) :
    (terms type s : Terms σ).grant start stop label =
      liftM (Terms.verdict type (.int s.secretSize) (fun start stop _ => start.less stop)
        start stop label) :=
  Terms.grant_eq_verdict rfl (fun _ _ _ => rfl) start stop label

/-- The algorithm of a sender is one draw and the answer to it. -/
theorem encapsulate_eq (g : KeyAgreement) (s : Suite) (receiver : PublicKey) (source : Source σ)
    (start stop label : Datum) :
    encapsulate g s receiver source start stop label =
      source.read (.int s.privateKeySize) >>= fun material =>
        (liftM (answer g s receiver material start stop label) : Act σ Encapsulated) := by
  refine bind_congr fun material => ?_
  simp only [answer, ← Act.lift_bind]
  rfl

theorem sender_serves (g : KeyAgreement) (s : Suite) (receiver : PublicKey) (source : Source σ)
    (start stop label : Datum) :
    (sender g s receiver source).encapsulate start stop label =
      (plan g s receiver).serve source start stop label := by
  change (terms "DHKEMEncapsulator" s : Terms σ).grant start stop label >>= _ = _
  rw [grant_eq, Plan.serve]
  exact bind_congr fun w => encapsulate_eq g s receiver source w.1 w.2 label

end DhKem

namespace MockKem

def answer (k : MockKey) (p : MockParameters) (nonce : Bytes) (start stop label : Datum) :
    Except Fault Encapsulated := do
  let (message, secret) ← sealWith k.material p nonce
  let key ← SecretKey.slice (.bytes secret) start stop label
  return ⟨key, .bytes message, .bytes (← p.encode)⟩

def supported (p : MockParameters) (start stop label : Datum) : Except Fault Bool := do
  if !(← start.less stop) then return false
  return !p.allowSlicing.isEmpty ||
    (start.equals (.int 0) && stop.equals p.secretSize && label.equals SecretKey.generic)

def nonceSize (message : Int) : Int := message - tagSize

theorem nonceSize_nonneg {p : MockParameters} {secret message : Int} (hp : InRange p secret message) :
    0 ≤ nonceSize message := by
  have h := hp.message_ge
  simp only [minNonceSize, tagSize] at h
  simp only [nonceSize, tagSize]
  omega

def plan (k : MockKey) (p : MockParameters) (message : Int) : Plan where
  grant := Terms.verdict "MockEncapsulator" p.secretSize (supported p)
  wanted := nonceSize message
  answer := answer k p

theorem supports_eq (p : MockParameters) (start stop label : Datum) :
    (supports p start stop label : Act σ Bool) = liftM (supported p start stop label) := by
  rw [supports, Terms.supportsNonempty, supported]
  cases start.less stop with
  | error e => rfl
  | ok yes =>
    cases yes with
    | false => rfl
    | true => cases p.allowSlicing.isEmpty <;> rfl

theorem grant_eq (type : String) (p : MockParameters) (start stop label : Datum) :
    (terms type p : Terms σ).grant start stop label =
      liftM (Terms.verdict type p.secretSize (supported p) start stop label) :=
  Terms.grant_eq_verdict rfl (supports_eq p) start stop label

/-- The draw of a sender. What is no tag in a message is a nonce. -/
def drawNonce (p : MockParameters) (source : Source σ) : Act σ Bytes := do
  let size ← (p.encapsulationSize.plus (-tagSize) : Except Fault Datum)
  source.read size

private theorem drawNonce_int {p : MockParameters} {message : Int} (hm : p.encapsulationSize = .int message)
    (source : Source σ) : drawNonce p source = source.read (.int (nonceSize message)) := by
  rw [drawNonce, hm]
  rfl

/-- The algorithm of a sender is one draw and the answer to it. -/
theorem encapsulate_drawn (k : MockKey) (p : MockParameters) (source : Source σ)
    (start stop label : Datum) :
    encapsulate k p source start stop label = drawNonce p source >>= fun nonce =>
      (liftM (answer k p nonce start stop label) : Act σ Encapsulated) := by
  rw [drawNonce, bind_assoc]
  refine bind_congr fun size => bind_congr fun nonce => ?_
  simp only [answer, ← Act.lift_bind]
  rfl

theorem encapsulate_eq (k : MockKey) {p : MockParameters} {message : Int}
    (hm : p.encapsulationSize = .int message) (source : Source σ) (start stop label : Datum) :
    encapsulate k p source start stop label =
      source.read (.int (nonceSize message)) >>= fun nonce =>
        (liftM (answer k p nonce start stop label) : Act σ Encapsulated) := by
  rw [encapsulate_drawn, drawNonce_int hm]

theorem sender_serves (k : MockKey) {p : MockParameters} {message : Int}
    (hm : p.encapsulationSize = .int message) (source : Source σ) (start stop label : Datum) :
    (sender k p source).encapsulate start stop label =
      (plan k p message).serve source start stop label := by
  change (terms "MockEncapsulator" p : Terms σ).grant start stop label >>= _ = _
  rw [grant_eq, Plan.serve]
  exact bind_congr fun w => encapsulate_eq k hm source w.1 w.2 label

end MockKem

end KeyCapsule
