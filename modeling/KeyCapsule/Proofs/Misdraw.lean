import KeyCapsule.Proofs.Configuration
import KeyCapsule.Proofs.Operation
import KeyCapsule.Proofs.Sampling
import KeyCapsule.Proofs.ZeroPoint

/-! Draws that go wrong. A source may raise or answer anything; only as many bytes as were asked for give a
key, whatever they are kept in, and what a source does is never blamed on a key. -/
namespace KeyCapsule
variable {σ : Type}

private theorem Source.plain_accept (wanted : Int) (d : Datum) : Plain (accept (.int wanted) d) :=
  d.plain_size.bind fun _ => .guard (Fault.worded_induct ⟨⟨rfl, _, rfl⟩, rfl⟩ ⟨⟨rfl, _, rfl⟩, rfl⟩) d.plain_toBytes

namespace MockKem

private theorem plain_derive (material info length : Datum) : Plain (derive material info length) := by
  have hw : Plain (Hkdf.Request.wordLength length) := by
    rw [Hkdf.Request.wordLength]
    split
    · split
      · exact .error ⟨⟨rfl, _, rfl⟩, rfl⟩
      · exact .ok _
    · exact .error ⟨⟨rfl, _, rfl⟩, rfl⟩
  have hc : Plain (Hkdf.Request.context info) := by
    cases info with
    | none => exact .ok _
    | bytes b => exact .ok b
    | _ => exact .error ⟨⟨rfl, _, rfl⟩, rfl⟩
  refine .bind ?_ fun _ => material.plain_joinable.bind fun _ => .ok _
  exact hw.bind fun _ => hc.bind fun _ => .guard ⟨⟨rfl, _, rfl⟩, rfl⟩ (.ok _)

private theorem plain_encode (p : MockParameters) : Plain p.encode := by
  have hf : ∀ x, Plain (MockParameters.field x) := by
    intro x
    rw [MockParameters.field]
    split
    · split
      · exact .ok _
      · exact .error ⟨⟨rfl, _, rfl⟩, rfl⟩
    · exact .error ⟨⟨rfl, _, rfl⟩, rfl⟩
  exact (hf _).bind fun _ => (hf _).bind fun _ => .ok _

private theorem plain_answer (k : MockKey) (p : MockParameters) (nonce : Bytes) (start stop label : Datum) :
    Plain (answer k p nonce start stop label) := by
  have hs : Plain (secretOf k.material p nonce) :=
    (plain_encode p).bind fun _ => Datum.plain_joinable nonce |>.bind fun _ => plain_derive _ _ _
  have ht : Plain (tagOf k.material nonce) := (plain_derive _ _ _).bind fun _ => .ok _
  refine .bind (hs.bind fun _ => ht.bind fun _ => .ok _) fun r => ?_
  exact (SecretKey.plain_slice _ _ _ _).bind fun _ => (plain_encode p).bind fun _ => .ok _

end MockKem

def DhKem.Refuses (g : KeyAgreement) (receiver : PublicKey) (material : Bytes) : Prop :=
  ∃ ephemeral, (Suite.ofGroup receiver.group).deriveKey (.bytes material) = .ok ephemeral ∧
    g.exchange ephemeral receiver = none

private theorem DhKem.answer_blames {g : KeyAgreement} {receiver : PublicKey} {material : Bytes}
    {start stop label : Datum} :
    (∃ e, answer g (Suite.ofGroup receiver.group) receiver material start stop label = .error e ∧
      e.isA .invalidKey = true) ↔ Refuses g receiver material := by
  rw [answer_eq, Refuses]
  cases (Suite.ofGroup receiver.group).deriveKey (.bytes material) with
  | error e => simp [show Fault.noScalar.isA .invalidKey = false from rfl]
  | ok ephemeral =>
    simp only [Except.ok.injEq, exists_eq_left', Transcript.sealedBy?]
    cases g.exchange ephemeral receiver with
    | none => exact iff_of_true ⟨_, rfl, rfl⟩ rfl
    | some agreed =>
      refine iff_of_false ?_ (by simp)
      rintro ⟨e, he, hk⟩
      have hn := ((SecretKey.plain_slice _ start stop label).map _ e he).2
      rw [hk] at hn
      cases hn

namespace Source

/-- What becomes of a request for which `wanted` bytes are asked of a source, once. Good bytes have an
answer, and it is the same whatever they are kept in. -/
structure Decides (source : Source σ) (wanted : Int) (answer : Bytes → Except Fault Encapsulated)
    (Refused : Bytes → Prop) (x : Act σ Encapsulated) (s : σ) : Prop where
  once : (x.run s).log = ((source.draw (.int wanted)).run s).log ∧
    (x.run s).state = ((source.draw (.int wanted)).run s).state
  /-- What the source raises comes out as it is. -/
  raised : ∀ e, ((source.draw (.int wanted)).run s).result = .error e → (x.run s).result = .error e
  answered : ∀ d b, ((source.draw (.int wanted)).run s).result = .ok d → d.Carries b →
    (b.length : Int) = wanted → (x.run s).result = answer b
  only : ∀ d r, ((source.draw (.int wanted)).run s).result = .ok d → (x.run s).result = .ok r →
    ∃ b, d.Carries b ∧ (b.length : Int) = wanted ∧ answer b = .ok r
  /-- A value of another length is told by its length. -/
  misfit : ∀ d n, ((source.draw (.int wanted)).run s).result = .ok d → d.size = .ok n →
    (n : Int) ≠ wanted → ∃ e, (x.run s).result = .error e ∧ e.kind = .runtime
  blamed : ∀ d, ((source.draw (.int wanted)).run s).result = .ok d →
    ((∃ e, (x.run s).result = .error e ∧ e.isA .invalidKey = true) ↔
      ∃ b, d.Carries b ∧ (b.length : Int) = wanted ∧ Refused b)

variable {source : Source σ} {wanted : Int} {answer : Bytes → Except Fault Encapsulated}

/-- A request that is a draw, a verdict on it and an answer is decided by them, if refused bytes are those
whose answer blames a key. -/
private theorem decides_of_run {Refused : Bytes → Prop} {x : Act σ Encapsulated} {s : σ}
    (hx : x.run s =
      ⟨((source.draw (.int wanted)).run s).result >>= fun d => accept (.int wanted) d >>= answer,
        ((source.draw (.int wanted)).run s).log, ((source.draw (.int wanted)).run s).state⟩)
    (hb : ∀ b, (∃ e, answer b = .error e ∧ e.isA .invalidKey = true) ↔ Refused b)
    (hw : wanted.natAbs < Text.digitBound) : source.Decides wanted answer Refused x s := by
  refine ⟨by rw [hx]; exact ⟨rfl, rfl⟩, fun e he => ?_, fun d b hd hc hl => ?_, fun d r hd hr => ?_,
    fun d n hd hn hl => ⟨.drawLength n (.int wanted), ?_, rfl⟩, fun d hd => ⟨?_, ?_⟩⟩
  · rw [hx, he]
    rfl
  · rw [hx, hd, ok_bind, accept_eq_ok.2 ⟨hc, hl⟩, ok_bind]
  · rw [hx, hd, ok_bind] at hr
    obtain ⟨b, ha, hr⟩ := bind_eq_ok.1 hr
    obtain ⟨hc, hl⟩ := accept_eq_ok.1 ha
    exact ⟨b, hc, hl, hr⟩
  · have hwritable : (Fault.drawLength n (.int wanted)).writable = true := by
      rw [Fault.writable, Datum.writable_int, decide_eq_true hw]
    rw [hx, hd, ok_bind, accept_misfit hn hl, error_bind, Fault.worded_of_writable hwritable]
  · rintro ⟨e, he, hk⟩
    rw [hx, hd, ok_bind] at he
    cases ha : accept (.int wanted) d with
    | error e' =>
      -- bytes that are not taken are never blamed on a key
      rw [ha] at he
      cases he
      cases hk.symm.trans ((plain_accept wanted d e ha).2)
    | ok b =>
      rw [ha, ok_bind] at he
      obtain ⟨hc, hl⟩ := accept_eq_ok.1 ha
      exact ⟨b, hc, hl, (hb b).1 ⟨e, he, hk⟩⟩
  · rintro ⟨b, hc, hl, hr⟩
    rw [hx, hd, ok_bind, accept_eq_ok.2 ⟨hc, hl⟩, ok_bind]
    exact (hb b).2 hr

end Source

private theorem Plan.decides {p : Plan} {source : Source σ} {start stop label first last : Datum}
    (h : p.grant start stop label = .ok (first, last)) {Refused : Bytes → Prop}
    (hb : ∀ b, (∃ e, p.answer b first last label = .error e ∧ e.isA .invalidKey = true) ↔ Refused b)
    (hw : p.wanted.natAbs < Text.digitBound) (s : σ) :
    source.Decides p.wanted (fun b => p.answer b first last label) Refused
      (p.serve source start stop label) s := by
  refine Source.decides_of_run ?_ hb hw
  rw [run_granted source s h, Source.run_read]
  cases ((source.draw (.int p.wanted)).run s).result <;> rfl

/-- Randomness faults never become keys and are never taken for a bad key. A request that a sender of
either provider accepts is decided by the one answer of its source, whatever that answer is. -/
theorem draws_decide (σ : Type) :
    (∀ {g : KeyAgreement} {receiver : PublicKey} {source : Source σ} {enc : Encapsulator σ},
      DhKem.BoundSender g receiver source enc →
      ∀ {start stop label first last : Datum} {s : σ},
        ((enc.grant start stop label).run s).result = .ok (first, last) →
        let suite := Suite.ofGroup receiver.group
        source.Decides suite.privateKeySize
          (fun b => DhKem.answer g suite receiver b first last label) (DhKem.Refuses g receiver)
          (enc.encapsulate start stop label) s) ∧
    ∀ {k : MockKey} {p : MockParameters} {source : Source σ} {enc : Encapsulator σ} {secret message : Int},
      MockKem.BoundSender k p source enc → p.secretSize.integer? = some secret →
      p.encapsulationSize.integer? = some message →
      ∀ {start stop label first last : Datum} {s : σ},
        ((enc.grant start stop label).run s).result = .ok (first, last) →
        source.Decides (MockKem.nonceSize message)
          (fun nonce => MockKem.answer k p nonce first last label) (fun _ => False)
          (enc.encapsulate start stop label) s := by
  constructor
  · intro g receiver source enc h start stop label first last s hw
    cases h.eq_sender
    have hw : (((DhKem.terms "DHKEMEncapsulator" (Suite.ofGroup receiver.group) : Terms σ).grant start stop
      label).run s).result = .ok (first, last) := hw
    rw [DhKem.grant_eq] at hw
    rw [DhKem.sender_serves]
    have hsmall : (Suite.ofGroup receiver.group).privateKeySize.natAbs < 0x10000 := by
      generalize receiver.group = group
      rcases group with (_ | _ | _) | (_ | _) <;> decide
    exact Plan.decides (p := DhKem.plan g _ receiver) hw (fun b => DhKem.answer_blames)
      (Text.lt_digitBound hsmall) s
  · intro k p source enc secret message h hs hm start stop label first last s hw
    obtain ⟨q, hq, rfl⟩ := h.eq_sender
    cases MockKem.eq_mock_of_checkParams hq
    have hw : (((MockKem.terms "MockEncapsulator" p : Terms σ).grant start stop label).run s).result =
      .ok (first, last) := hw
    rw [MockKem.grant_eq] at hw
    have hp := MockKem.sized_of_checkParams hs hm hq
    rw [MockKem.sender_serves k hp.encapsulationSize]
    have hsmall : (MockKem.nonceSize message).natAbs < 0x10000 := by
      have hge := hp.message_ge
      have hle := hp.message_le
      rw [MockKem.nonceSize]
      omega
    refine Plan.decides (p := MockKem.plan k p message) hw (fun b => ?_) (Text.lt_digitBound hsmall) s
    rw [iff_false]
    rintro ⟨e, he, hk⟩
    cases hk.symm.trans ((MockKem.plain_answer k p b first last label e he).2)

private theorem DhKem.refuses_zeroPoint (l : Ladder) (material : Bytes) :
    Refuses KeyAgreement.standard (zeroPoint l) material := by
  have hkeys : (Suite.ofGroup (.ladder l)).derivation.keys = .expanded l := Suite.keys_ofGroup (.ladder l)
  have hsize := Suite.privateKeySize_ladder l
  exact ⟨_, (Suite.described (.ladder l)).deriveKey_expanded hkeys hsize material, exchange_zeroPoint l _⟩

/-- A point that no key agrees on is blamed for good bytes alone: not for a byte that is missing, and not for
a refused value that the source raises. For a stand-in the same bytes in a list and in a buffer come to one
answer. -/
theorem draws_decide_zeros :
    let low : PublicKey := DhKem.zeroPoint .x25519
    let whole (source : Source Unit) : Except Fault Encapsulated :=
      ((DhKem.sender KeyAgreement.standard Suite.x25519 low source).whole.run ()).result
    let k : MockKey := ⟨"k", .bytes (Bytes.zeros 32), MockKey.defaultAlgorithm⟩
    let p : MockParameters := ⟨.int 32, .int 48, .bool false⟩
    let mock (d : Datum) : Except Fault Encapsulated :=
      ((MockKem.sender k p (⟨fun _ => pure d⟩ : Source Unit)).whole.run ()).result
    (∃ e, whole ⟨fun _ => pure (.list (List.replicate 32 (.int 0)))⟩ = .error e ∧
        e.isA .invalidKey = true) ∧
      (∃ e, whole ⟨fun _ => pure (.text "short")⟩ = .error e ∧ e.kind = .runtime) ∧
      whole ⟨fun _ => throw (.raised .value "drained")⟩ = .error (.raised .value "drained") ∧
      mock (.list (List.replicate 32 (.bool false))) = mock (.buffer (Bytes.zeros 32)) ∧
      ∀ r, mock .none ≠ .ok r := by
  intro low whole k p mock
  obtain ⟨hdh, hmock⟩ := draws_decide Unit
  have sent : ∀ source : Source Unit, source.Decides 32
      (fun b => DhKem.answer KeyAgreement.standard Suite.x25519 low b (.int 0) (.int 32) SecretKey.generic)
      (DhKem.Refuses KeyAgreement.standard low)
      (DhKem.sender KeyAgreement.standard Suite.x25519 low source).whole () := fun source =>
    hdh (DhKem.boundSender KeyAgreement.standard low source ()) rfl
  have stood : ∀ d, (⟨fun _ => pure d⟩ : Source Unit).Decides 32
      (fun b => MockKem.answer k p b (.int 0) (.int 32) SecretKey.generic) (fun _ => False)
      (MockKem.sender k p ⟨fun _ => pure d⟩).whole () := by
    intro d
    have hs : p.secretSize.integer? = some 32 := rfl
    have hm : p.encapsulationSize.integer? = some 48 := rfl
    exact hmock (k := k) ⟨"MockKEM", ⟨fun _ => pure d⟩, .absent, (), rfl, rfl⟩ hs hm rfl
  have hzeros : Datum.Carries (.list (List.replicate 32 (.int 0))) (Bytes.zeros 32) := .list rfl
  refine ⟨?_, ?_, ?_, ?_, ?_⟩
  · exact ((sent _).blamed _ rfl).2 ⟨_, hzeros, rfl, DhKem.refuses_zeroPoint .x25519 _⟩
  · exact (sent _).misfit _ 5 rfl rfl (by decide)
  · exact (sent _).raised _ rfl
  · have hl := (stood (.list (List.replicate 32 (.bool false)))).answered _ (Bytes.zeros 32) rfl
      (.list rfl) rfl
    have hb := (stood (.buffer (Bytes.zeros 32))).answered _ (Bytes.zeros 32) rfl (.buffer _) rfl
    exact hl.trans hb.symm
  · intro r hr
    obtain ⟨b, hc, -⟩ := (stood .none).only _ r rfl hr
    cases hc

end KeyCapsule
