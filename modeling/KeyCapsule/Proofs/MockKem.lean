import KeyCapsule.MockKem
import KeyCapsule.Proofs.Slice

/-! The stand-in algorithm on byte strings. With sizes in their ranges every nonce has a secret of the
one size, and a message opens exactly if its tag is right. -/
namespace KeyCapsule

private theorem Hkdf.Request.size_of_derive {d : Digest} {material info length : Datum} {b : Bytes}
    (h : derive d material info length = .ok b) :
    ∃ n, length.integer? = some n ∧ (b.length : Int) = n := by
  obtain ⟨⟨context, size⟩, ht, h⟩ := bind_eq_ok.1 h
  obtain ⟨m, -, h⟩ := bind_eq_ok.1 h
  obtain ⟨size', hn, ht⟩ := bind_eq_ok.1 ht
  obtain ⟨_, -, ht⟩ := bind_eq_ok.1 ht
  obtain ⟨-, ht⟩ := guard_eq_ok.1 ht
  cases ht
  cases h
  rw [wordLength] at hn
  split at hn
  · next n hi =>
    split at hn <;> cases hn
    exact ⟨n, hi, by rw [length_expand]; omega⟩
  · cases hn

namespace MockKem
open Hkdf.Labeled (label)

variable {σ : Type}

def tagKey (material : Bytes) : Bytes :=
  Hkdf.expand .sha256 (Hkdf.extract .sha256 [] material) (label "mock-kem-mac") 32

def tag (material nonce : Bytes) : Bytes := (Hmac.tag .sha256 (tagKey material) nonce).take tagSize

@[simp] theorem length_tag (material nonce : Bytes) : (tag material nonce).length = tagSize := by
  simp [tag, tagSize, Digest.size]

theorem tagOf_bytes (material nonce : Bytes) : tagOf material nonce = .ok (tag material nonce) := by
  have hk : derive (.bytes material) (.bytes (label "mock-kem-mac")) (.int 32) = .ok (tagKey material) :=
    Hkdf.Request.derive_bytes .sha256 material (label "mock-kem-mac") (by decide)
  exact bind_eq_ok.2 ⟨_, hk, rfl⟩

private theorem atMost_int (m n : Int) : (Datum.int m).atMost (.int n) = .ok (decide (m ≤ n)) := by
  by_cases h : m = n
  · simp [Datum.atMost, h]
  · have hlt : m < n ↔ m ≤ n := by omega
    simp [Datum.atMost, h, hlt]

structure InRange (p : MockParameters) (secret message : Int) : Prop where
  secretSize : p.secretSize = .int secret
  encapsulationSize : p.encapsulationSize = .int message
  secret_pos : 1 ≤ secret
  secret_le : secret ≤ maxSecretSize
  message_ge : minNonceSize + tagSize ≤ message
  message_le : message ≤ 0xffff

/-- Parameters with integer sizes that pass the checks are in range, and they are kept as they are. -/
theorem checkParams_ok {p q : MockParameters} {secret message : Int} (hs : p.secretSize = .int secret)
    (hm : p.encapsulationSize = .int message) (h : checkParams (.mock p) = .ok q) :
    q = p ∧ InRange p secret message := by
  simp only [checkParams, hs, hm, atMost_int, Datum.less_int, ok_bind, guard_eq_ok] at h
  obtain ⟨h₁, h₂, h₃, h₄, h⟩ := h
  simp only [Bool.not_eq_true', decide_eq_false_iff_not, decide_eq_true_eq, Decidable.not_not] at h₁ h₂ h₃ h₄
  exact ⟨(Except.ok.inj h).symm, hs, hm, h₁, h₂, by omega, by omega⟩

/-- Parameters that pass are kept as they are, whatever the kinds of their sizes. -/
theorem eq_mock_of_checkParams {params : ParamsValue} {q : MockParameters}
    (h : checkParams params = .ok q) : params = .mock q := by
  cases params with
  | mock p =>
    simp only [checkParams, bind_eq_ok, guard_eq_ok] at h
    obtain ⟨_, -, -, _, -, -, _, -, -, _, -, -, h⟩ := h
    cases h
    rfl
  | _ => cases h

theorem checkKey_ok {side : Side} {key : KeyValue} {k : MockKey} (h : checkKey side key = .ok k) :
    key = .mock side k := by
  cases key with
  | mock half k' => cases side <;> cases half <;> cases h <;> rfl
  | _ => cases side <;> cases h

/-- Whatever is in range passes the checks. -/
theorem InRange.checkParams {p : MockParameters} {secret message : Int} (hp : InRange p secret message) :
    checkParams (.mock p) = .ok p := by
  obtain ⟨hs, hm, h₁, h₂, h₃, h₄⟩ := hp
  simp only [MockKem.checkParams, hs, hm, atMost_int, Datum.less_int, ok_bind, guard_eq_ok]
  simp only [Bool.not_eq_true', decide_eq_false_iff_not, decide_eq_true_eq, Decidable.not_not]
  exact ⟨h₁, h₂, by omega, by omega, rfl⟩

def BoundSender (k : MockKey) (p : MockParameters) (source : Source σ) (enc : Encapsulator σ) : Prop :=
  ∃ (name : Datum) (entropy : Source σ) (choice : SourceChoice σ) (s : σ),
    choice.resolve entropy = .ok source ∧
      (((named name entropy).newEncapsulator (.mock .sender k) (.mock p) choice).run s).result = .ok enc

theorem BoundSender.eq_sender {k : MockKey} {p : MockParameters} {source : Source σ}
    {enc : Encapsulator σ} (h : BoundSender k p source enc) :
    ∃ q, MockKem.checkParams (.mock p) = .ok q ∧ enc = sender k q source := by
  obtain ⟨name, entropy, choice, s, hc, h⟩ := h
  obtain ⟨source', s', hs, hb⟩ := Provider.newEncapsulator_ok bindReceiver h
  obtain ⟨k', hk, hb⟩ := Act.result_bind_eq_ok.1 hb
  obtain ⟨q, hq, hb⟩ := Act.result_bind_eq_ok.1 hb
  cases hc.symm.trans hs
  cases hb
  have hk' : checkKey .sender (.mock .sender k) = .ok k' := hk
  cases hk'
  exact ⟨q, hq, rfl⟩

def BoundReceiver (k : MockKey) (p : MockParameters) (dec : Decapsulator σ) : Prop :=
  ∃ (name : Datum) (entropy : Source σ) (s : σ),
    (((named name entropy).newDecapsulator (.mock .receiver k) (.mock p)).run s).result = .ok dec

theorem BoundReceiver.eq_receiver {k : MockKey} {p : MockParameters} {dec : Decapsulator σ}
    (h : BoundReceiver k p dec) : ∃ q, checkParams (.mock p) = .ok q ∧ dec = receiver k q := by
  obtain ⟨name, entropy, s, h⟩ := h
  obtain ⟨s', hb⟩ := Provider.newDecapsulator_ok entropy bindSender h
  obtain ⟨k', hk, hb⟩ := Act.result_bind_eq_ok.1 hb
  obtain ⟨q, hq, hb⟩ := Act.result_bind_eq_ok.1 hb
  cases hb
  have hk' : checkKey .receiver (.mock .receiver k) = .ok k' := hk
  cases hk'
  exact ⟨q, hq, rfl⟩

theorem field_int {n : Int} (h₀ : 0 ≤ n) (h₁ : n < 0x10000) :
    MockParameters.field (.int n) = .ok (Bytes.ofNatBE 2 n.toNat) := by
  simp [MockParameters.field, h₀, h₁]

/-- Inside the ranges parameters have a written form of two sizes and one flag. -/
theorem encode_ok {p : MockParameters} {secret message : Int} (hp : InRange p secret message) :
    ∃ encoded, p.encode = .ok encoded ∧ encoded.length = 5 := by
  obtain ⟨hs, hm, h₁, h₂, h₃, h₄⟩ := hp
  simp only [maxSecretSize] at h₂
  simp only [minNonceSize, tagSize] at h₃
  simp only [MockParameters.encode, hs, hm]
  rw [field_int (by omega) (by omega), field_int (by omega) (by omega)]
  exact ⟨_, rfl, by simp⟩

/-- Inside the ranges every nonce has a secret of the one size. -/
theorem secretOf_bytes {p : MockParameters} {secret message : Int} (hp : InRange p secret message)
    (material nonce : Bytes) :
    ∃ b, secretOf (.bytes material) p (.bytes nonce) = .ok b ∧ (b.length : Int) = secret := by
  obtain ⟨encoded, he, -⟩ := encode_ok hp
  obtain ⟨hs, -, h₁, h₂, -, -⟩ := hp
  simp only [maxSecretSize] at h₂
  have hn : (secret.toNat : Int) = secret := Int.toNat_of_nonneg (by omega)
  have hl : secret.toNat ≤ Hkdf.limit .sha256 := by
    simp only [Hkdf.limit, Digest.size]
    omega
  have hd := Hkdf.Request.derive_bytes .sha256 material (label "mock-kem-secret" ++ encoded ++ nonce) hl
  rw [hn, ← hs] at hd
  exact ⟨_, bind_eq_ok.2 ⟨encoded, he, bind_eq_ok.2 ⟨nonce, rfl, hd⟩⟩, by rw [Hkdf.length_expand, hn]⟩

/-- A secret has the size that the parameters name, which is then an integer. -/
theorem size_of_secretOf {material nonce : Datum} {p : MockParameters} {b : Bytes}
    (h : secretOf material p nonce = .ok b) :
    ∃ n, p.secretSize.integer? = some n ∧ (b.length : Int) = n := by
  obtain ⟨_, -, h⟩ := bind_eq_ok.1 h
  obtain ⟨_, -, h⟩ := bind_eq_ok.1 h
  exact Hkdf.Request.size_of_derive h

theorem size_of_openWith {material : Datum} {p : MockParameters} {b secret : Bytes}
    (h : openWith material p b = .ok secret) :
    ∃ n, p.secretSize.integer? = some n ∧ (secret.length : Int) = n := by
  obtain ⟨s, hs, h⟩ := bind_eq_ok.1 h
  obtain ⟨_, -, h⟩ := bind_eq_ok.1 h
  obtain ⟨-, h⟩ := guard_eq_ok.1 h
  cases h
  exact size_of_secretOf hs

def Tagged (material b : Bytes) : Prop := ∃ nonce, b = nonce ++ tag material nonce

private theorem tagged_iff {material b : Bytes} :
    Tagged material b ↔
      tag material (b.take (b.length - tagSize)) = b.drop (b.length - tagSize) := by
  constructor
  · rintro ⟨nonce, rfl⟩
    simp
  · intro h
    exact ⟨b.take (b.length - tagSize), by rw [h, List.take_append_drop]⟩

/-- A message opens exactly if its tag is right. The length is no matter here. -/
theorem openWith_bytes {p : MockParameters} {secret message : Int} (hp : InRange p secret message)
    (material b : Bytes) :
    (Tagged material b ∧ ∃ s, openWith (.bytes material) p b = .ok s ∧ (s.length : Int) = secret) ∨
      (¬ Tagged material b ∧ openWith (.bytes material) p b = .error .undecapsulated) := by
  obtain ⟨s, hsec, hlen⟩ := secretOf_bytes hp material (b.take (b.length - tagSize))
  have htag := tagOf_bytes material (b.take (b.length - tagSize))
  rw [tagged_iff]
  by_cases ht : tag material (b.take (b.length - tagSize)) = b.drop (b.length - tagSize)
  · exact .inl ⟨ht, s, by simp [openWith, hsec, htag, ok_bind, ht], hlen⟩
  · refine .inr ⟨ht, ?_⟩
    simp only [openWith, hsec, htag, ok_bind, bne_iff_ne, ne_eq, ht, not_false_eq_true, if_true]
    rfl

theorem decapsulate_eq {k : MockKey} {p : MockParameters} {secret message : Int}
    (hp : InRange p secret message) {material : Bytes} (hk : k.material = .bytes material) (b : Bytes)
    (start stop label : Datum) :
    (decapsulate k p b start stop label : Act σ SecretKey) =
      liftM (SecretKey.cutFrom (openWith (.bytes material) p b).toOption start stop label) := by
  rw [decapsulate, hk]
  rcases openWith_bytes hp material b with ⟨-, s, ho, -⟩ | ⟨-, ho⟩ <;> rw [ho] <;> rfl

theorem length_of_openWith {p : MockParameters} {secret message : Int} (hp : InRange p secret message)
    {material b s : Bytes} (h : (openWith (.bytes material) p b).toOption = some s) :
    (s.length : Int) = secret := by
  rcases openWith_bytes hp material b with ⟨-, s', ho, hl⟩ | ⟨-, ho⟩
  · rw [ho] at h
    cases h
    exact hl
  · rw [ho] at h
    cases h

theorem fixed_terms {p : MockParameters} {secret message : Int} (hp : InRange p secret message)
    (type : String) : (terms type p : Terms σ).Fixed secret message :=
  ⟨congrArg pure hp.secretSize, congrArg pure hp.encapsulationSize⟩

theorem quiet_terms (type : String) (p : MockParameters) : (terms type p : Terms σ).Quiet := by
  intro start stop label
  have hs : (terms type p : Terms σ).supports start stop label = supports p start stop label := rfl
  rw [hs, supports, Terms.supportsNonempty]
  cases start.less stop with
  | error e => exact ⟨.error e, rfl⟩
  | ok yes =>
    cases yes with
    | false => exact ⟨.ok false, rfl⟩
    | true => cases p.allowSlicing.isEmpty <;> exact ⟨.ok _, rfl⟩

/-- Whether slicing is permitted or not, an empty window is never granted. -/
theorem lt_of_grant {p : MockParameters} {secret message : Int} (hp : InRange p secret message)
    {type : String} {start stop : Int} {label : Datum} {s : σ} {w : Datum × Datum}
    (hw : (((terms type p).grant (.int start) (.int stop) label).run s).result = .ok w) :
    start < stop := by
  obtain ⟨-, -, hsup, -⟩ := (Terms.grant_int (fixed_terms hp type).secretSize).1 hw
  obtain ⟨yes, hyes, h⟩ := Act.result_bind_eq_ok.1 hsup
  simp only [Terms.supportsNonempty, Datum.less_int, Act.run_lift, Except.ok.injEq] at hyes
  cases yes with
  | true => exact of_decide_eq_true hyes
  | false => cases h

end MockKem
end KeyCapsule
