import KeyCapsule.Proofs.Conformity
import KeyCapsule.Proofs.Image

/-! Answers to granted requests. What a sender makes of the bytes that it drew ends in one of few ways, and
each of them is told by the bytes and the keys alone. -/
namespace KeyCapsule

namespace DhKem
open Transcript

variable {g : KeyAgreement}

/-- The material gives an ephemeral key or none, and that key agrees with the receiver's or is refused. -/
theorem answer_eq (g : KeyAgreement) (receiver : PublicKey) (material : Bytes) (start stop label : Datum) :
    answer g (Suite.ofGroup receiver.group) receiver material start stop label =
      match (Suite.ofGroup receiver.group).deriveKey (.bytes material) with
      | .error _ => .error .noScalar
      | .ok ephemeral =>
        match sealedBy? g receiver ephemeral with
        | none => .error (.key .refusedAgreement)
        | some t => (SecretKey.slice (.bytes t.secret) start stop label).map fun key =>
            ⟨key, .bytes t.message, .none⟩ := by
  rw [answer]
  cases hd : (Suite.ofGroup receiver.group).deriveKey (.bytes material) with
  | error e =>
    rw [Suite.deriveKey_eq] at hd
    split at hd
    · cases hd
    · cases hd
      rfl
  | ok ephemeral =>
    simp only [ok_bind, sealWith_eq (Suite.group_deriveKey hd)]
    cases sealedBy? g receiver ephemeral with
    | none => rfl
    | some t =>
      simp only [ok_bind]
      cases SecretKey.slice (.bytes t.secret) start stop label <;> rfl

/-- Inside the secret the key of a transcript is the window of its secret. -/
theorem answer_of_sealed? {receiver : PublicKey} {material : Bytes} {t : Transcript}
    (ht : sealed? g receiver material = some t) {start stop : Int} (h₀ : 0 ≤ start) (h₁ : start < stop)
    (h₂ : stop ≤ (Suite.ofGroup receiver.group).secretSize) {label : Datum} (hl : label.isNone = false) :
    ∃ key, answer g (Suite.ofGroup receiver.group) receiver material (.int start) (.int stop) label =
        .ok ⟨key, .bytes t.message, .none⟩ ∧
      key.encoded = t.secret.cut start stop ∧ key.algorithm = label := by
  rw [← group_of_sealed? ht, ← size_secret] at h₂
  obtain ⟨key, hk, he, ha⟩ := SecretKey.slice_bytes h₀ h₁ h₂ hl
  obtain ⟨ephemeral, hd, hs⟩ := sealed?_eq_some.1 ht
  have hd : (Suite.ofGroup receiver.group).deriveKey (.bytes material) = .ok ephemeral := hd
  refine ⟨key, ?_, he, ha⟩
  simp only [answer_eq, hd, hs, hk]
  rfl

/-- Without a transcript there is one of two faults. -/
theorem answer_of_unsealed {receiver : PublicKey} {material : Bytes}
    (ht : sealed? g receiver material = none) (start stop label : Datum) :
    answer g (Suite.ofGroup receiver.group) receiver material start stop label = .error .noScalar ∨
      answer g (Suite.ofGroup receiver.group) receiver material start stop label =
        .error (.key .refusedAgreement) := by
  have hs : sealed? g receiver material = ((Suite.ofGroup receiver.group).deriveKey
    (.bytes material)).toOption.bind (sealedBy? g receiver) := rfl
  rw [answer_eq]
  cases hd : (Suite.ofGroup receiver.group).deriveKey (.bytes material) with
  | error e => exact .inl rfl
  | ok ephemeral =>
    rw [hs, hd] at ht
    have ht : sealedBy? g receiver ephemeral = none := ht
    right
    simp only [ht]

end DhKem

namespace MockKem
variable {k : MockKey} {p : MockParameters} {m : Bytes} {e : Fault} {secret message : Int}

theorem joinable_error {d : Datum} (h : d.joinable = .error e) : e = Fault.typeMismatch := by
  rw [Datum.joinable] at h
  split at h <;> cases h
  rfl

private theorem derive_joinable {material : Datum} (h : material.joinable = .ok m) (info length : Datum) :
    derive material info length = derive (.bytes m) info length := by
  simp only [derive, Hkdf.Request.derive, h, Datum.joinable_bytes]

private theorem derive_unjoinable {material : Datum} (h : material.joinable = .error e) (info : Bytes)
    {length : Nat} (hl : length ≤ Hkdf.limit .sha256) :
    derive material (.bytes info) (.int length) = .error e := by
  simp only [derive, Hkdf.Request.derive, Hkdf.Request.terms_bytes _ info hl, h, ok_bind]
  rfl

theorem openWith_joinable {material : Datum} (h : material.joinable = .ok m) (p : MockParameters) :
    openWith material p = openWith (.bytes m) p := by
  funext b
  simp only [openWith, secretOf, tagOf, derive_joinable h]

private theorem answer_joinable (h : k.material.joinable = .ok m) (p : MockParameters) :
    answer k p = answer { k with material := .bytes m } p := by
  funext nonce start stop label
  simp only [answer, sealWith, secretOf, tagOf, derive_joinable h]

private theorem secretOf_unjoinable (hp : InRange p secret message) {material : Datum}
    (h : material.joinable = .error e) (nonce : Bytes) :
    secretOf material p (.bytes nonce) = .error e := by
  obtain ⟨encoded, he, -⟩ := encode_ok hp
  obtain ⟨hs, -, h₁, h₂, -, -⟩ := hp
  simp only [maxSecretSize] at h₂
  have hn : (secret.toNat : Int) = secret := Int.toNat_of_nonneg (by omega)
  have hl : secret.toNat ≤ Hkdf.limit .sha256 := by
    simp only [Hkdf.limit, Digest.size]
    omega
  have hd := derive_unjoinable h (Hkdf.Labeled.label "mock-kem-secret" ++ encoded ++ nonce) hl
  rw [hn, ← hs] at hd
  simp only [secretOf, he, Datum.joinable_bytes, ok_bind, hd]

theorem openWith_unjoinable (hp : InRange p secret message) {material : Datum}
    (h : material.joinable = .error e) (b : Bytes) : openWith material p b = .error e := by
  simp only [openWith, secretOf_unjoinable hp h, error_bind]

theorem answer_unjoinable (hp : InRange p secret message) (h : k.material.joinable = .error e)
    (nonce : Bytes) (start stop label : Datum) : answer k p nonce start stop label = .error e := by
  simp only [answer, sealWith, secretOf_unjoinable hp h, error_bind]

/-- Inside the ranges every nonce has an answer, which is told by the bytes of the material. -/
theorem answer_bytes (hp : InRange p secret message) (hk : k.material.joinable = .ok m) (nonce : Bytes) :
    ∃ b encoded : Bytes, (b.length : Int) = secret ∧
      openWith k.material p (nonce ++ tag m nonce) = .ok b ∧ encoded.length = 5 ∧
      ∀ start stop label, answer k p nonce start stop label =
        (SecretKey.slice (.bytes b) start stop label).map fun key =>
          ⟨key, .bytes (nonce ++ tag m nonce), .bytes encoded⟩ := by
  obtain ⟨encoded, he, h5⟩ := encode_ok hp
  obtain ⟨b, hb, hlen⟩ := secretOf_bytes hp m nonce
  have hs : sealWith (.bytes m) p nonce = .ok (nonce ++ tag m nonce, b) :=
    bind_eq_ok.2 ⟨b, hb, bind_eq_ok.2 ⟨_, tagOf_bytes m nonce, rfl⟩⟩
  refine ⟨b, encoded, hlen, ?_, h5, fun start stop label => ?_⟩
  · rw [openWith_joinable hk, openWith_append _ p (tagOf_bytes m nonce) (length_tag m nonce), hb]
  · rw [answer_joinable hk]
    simp only [answer, hs, he, ok_bind]
    cases SecretKey.slice (.bytes b) start stop label <;> rfl

end MockKem
end KeyCapsule
