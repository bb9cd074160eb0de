import KeyCapsule.Proofs.Exchange
import KeyCapsule.Proofs.MockKem

/-! Refused messages. A granted request for any byte string is answered by a key or by the one refusal,
whose fault and record do not depend on what is wrong with the message. -/
namespace KeyCapsule
variable {σ : Type}

def Decapsulator.refusal (dec : Decapsulator σ) (s : σ) : Outcome σ SecretKey :=
  ⟨.error .undecapsulated, [⟨10, "kemkit.core.spi", dec.type ++ ": decapsulation failed"⟩], s⟩

/-- A receiver that answers a granted request in one of two ways: for the messages that it accepts by
the key of the window without any record, for all others by the one refusal. -/
def Decapsulator.Discreet (dec : Decapsulator σ) (accepts : Bytes → Prop) : Prop :=
  ∀ (b : Bytes) (start stop : Int) (label : Datum) (s : σ) (w : Datum × Datum),
    ((dec.grant (.int start) (.int stop) label).run s).result = .ok w →
    (accepts b ∧ ∃ k,
      (dec.decapsulate (.bytes b) (.int start) (.int stop) label).run s = ⟨.ok k, [], s⟩ ∧
        (k.encoded.length : Int) = stop - start ∧ k.algorithm = label) ∨
    (¬ accepts b ∧
      (dec.decapsulate (.bytes b) (.int start) (.int stop) label).run s = dec.refusal s)

namespace MockKem

private theorem discreet {k : MockKey} {p : MockParameters} {material : Bytes} {secret message : Int}
    (hk : k.material = .bytes material) (hs : p.secretSize = .int secret)
    (hm : p.encapsulationSize = .int message) {dec : Decapsulator σ} (h : BoundReceiver k p dec) :
    dec.Discreet fun b => (b.length : Int) = message ∧ Tagged material b := by
  obtain ⟨q, hq, rfl⟩ := h.eq_receiver
  obtain ⟨rfl, hp⟩ := checkParams_ok hs hm hq
  intro b start stop label s w hw
  have hr := Terms.receive_cut (fixed_terms hp _) (quiet_terms _ _) (decapsulate_eq hp hk)
    (fun _ _ => length_of_openWith hp) b (lt_of_grant hp hw) hw
  have hin := ((Terms.grant_int (fixed_terms hp _).secretSize).1 hw).2.1
  by_cases hb : (b.length : Int) = message
  · rw [if_pos hb] at hr
    rcases openWith_bytes hp material b with ⟨hta, s', ho, hl⟩ | ⟨hta, ho⟩
    · rw [ho] at hr
      obtain ⟨j, hrun, he, ha⟩ := hr
      refine .inl ⟨⟨hb, hta⟩, j, hrun, ?_, ha⟩
      rw [he, Bytes.length_cut hin.1 hin.2.1 (hl ▸ hin.2.2)]
    · rw [ho] at hr
      exact .inr ⟨fun ha => hta ha.2, hr⟩
  · rw [if_neg hb] at hr
    exact .inr ⟨fun ha => hb ha.1, hr⟩

end MockKem

namespace DhKem
open Transcript

private theorem discreet {g : KeyAgreement} {key : PrivateKey} {dec : Decapsulator σ}
    (h : BoundReceiver g key dec) :
    dec.Discreet fun b => ∃ ephemeral agreed, key.group.decode? b = some ephemeral ∧
      g.exchange key ephemeral = some agreed := by
  cases h.eq_receiver
  intro b start stop label s w hw
  obtain ⟨-, ⟨h₀, h₁, h₂⟩, -⟩ := grant_ok.1 hw
  have hr := receiver_run g key b hw
  cases ho : opened? g key b with
  | some t =>
    rw [ho] at hr
    obtain ⟨k, hrun, he, ha⟩ := hr
    rw [← group_of_opened? ho, ← size_secret] at h₂
    obtain ⟨ephemeral, agreed, hd, hx, -⟩ := opened?_eq_some.1 ho
    refine .inl ⟨⟨ephemeral, agreed, hd, hx⟩, k, hrun, ?_, ha⟩
    rw [he, Bytes.length_cut h₀ (Int.le_of_lt h₁) h₂]
  | none =>
    rw [ho] at hr
    refine .inr ⟨?_, hr⟩
    rintro ⟨ephemeral, agreed, hd, hx⟩
    cases ho.symm.trans (opened?_eq_some.2 ⟨ephemeral, agreed, hd, hx, rfl⟩)

end DhKem

/-- Receivers of both providers answer every byte string by a key of the window or by one refusal, which
is the same for a wrong length, bytes that are no public key, a refused agreement and a wrong tag. -/
theorem refusals_agree (σ : Type) :
    (∀ {g : KeyAgreement} {key : PrivateKey} {dec : Decapsulator σ}, DhKem.BoundReceiver g key dec →
      dec.type = "DHKEMDecapsulator" ∧
        dec.Discreet fun b => ∃ ephemeral agreed, key.group.decode? b = some ephemeral ∧
          g.exchange key ephemeral = some agreed) ∧
    (∀ {k : MockKey} {p : MockParameters} {material : Bytes} {secret message : Int}
      {dec : Decapsulator σ}, k.material = .bytes material → p.secretSize = .int secret →
      p.encapsulationSize = .int message → MockKem.BoundReceiver k p dec →
      dec.type = "MockDecapsulator" ∧
        dec.Discreet fun b => (b.length : Int) = message ∧ MockKem.Tagged material b) ∧
    Fault.undecapsulated.kind = .decapsulate ∧ Fault.undecapsulated.text = "decapsulation failed" := by
  refine ⟨fun h => ⟨?_, DhKem.discreet h⟩, fun hk hs hm h => ⟨?_, MockKem.discreet hk hs hm h⟩, rfl, rfl⟩
  · rw [h.eq_receiver]
    rfl
  · obtain ⟨_, -, rfl⟩ := h.eq_receiver
    rfl

/-- An empty message and one of low order get one refusal from the standard agreement; of the stand-in's
messages a tagged one is accepted. -/
theorem refusals_agree_zeros :
    let key : PrivateKey := .seed .x25519 ⟨Bytes.zeros 32, by decide⟩
    let dec : Decapsulator Unit := DhKem.receiver KeyAgreement.standard Suite.x25519 key
    let k : MockKey := ⟨"k", .bytes (Bytes.zeros 32), MockKey.defaultAlgorithm⟩
    let p : MockParameters := ⟨.int 32, .int 48, .bool true⟩
    let mock : Decapsulator Unit := MockKem.receiver k p
    DhKem.BoundReceiver KeyAgreement.standard key dec ∧ MockKem.BoundReceiver k p mock ∧
      (dec.decapsulate (.bytes []) (.int 0) (.int 16) "AES").run () = dec.refusal () ∧
      (dec.decapsulate (.bytes (Bytes.zeros 32)) (.int 0) (.int 16) "AES").run () = dec.refusal () ∧
      (mock.decapsulate (.bytes []) (.int 0) (.int 16) "AES").run () = mock.refusal () ∧
      ∃ j, (mock.decapsulate (.bytes (Bytes.zeros 32 ++ MockKem.tag (Bytes.zeros 32) (Bytes.zeros 32)))
        (.int 0) (.int 16) "AES").run () = ⟨.ok j, [], ()⟩ := by
  intro key dec k p mock
  have hd : DhKem.BoundReceiver KeyAgreement.standard key dec :=
    DhKem.boundReceiver _ key ⟨fun _ => pure .none⟩ ()
  have hm : MockKem.BoundReceiver k p mock := ⟨"MockKEM", ⟨fun _ => pure .none⟩, (), rfl⟩
  have hdec := ((refusals_agree Unit).1 hd).2
  have hmock := ((refusals_agree Unit).2.1 rfl rfl rfl hm).2
  refine ⟨hd, hm, ?_, ?_, ?_, ?_⟩
  · rcases hdec [] 0 16 "AES" () _ rfl with ⟨⟨_, _, h, -⟩, -⟩ | ⟨-, h⟩
    · cases h
    · exact h
  · rcases hdec (Bytes.zeros 32) 0 16 "AES" () _ rfl with ⟨⟨e, a, h, hx⟩, -⟩ | ⟨-, h⟩
    · have hz : (key.group.decode? (Bytes.zeros 32)).bind (KeyAgreement.standard.exchange key) = none := by
        decide +kernel
      rw [h, Option.bind_some, hx] at hz
      cases hz
    · exact h
  · rcases hmock [] 0 16 "AES" () _ rfl with ⟨⟨h, -⟩, -⟩ | ⟨-, h⟩
    · cases h
    · exact h
  · rcases hmock _ 0 16 "AES" () _ rfl with ⟨-, j, h, -⟩ | ⟨h, -⟩
    · exact ⟨j, h⟩
    · exact absurd ⟨by simp [MockKem.tagSize], _, rfl⟩ h

end KeyCapsule
