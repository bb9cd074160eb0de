import KeyCapsule.Proofs.Suite

/-! Transcripts of key agreements. A shared secret is derived from a group, an agreed value, a message and
the receiver's public key; both sides of an exchange build the same transcript, each in its own way. -/
namespace KeyCapsule
open Hkdf.Labeled (label)

structure Transcript where
  group : Group
  /-- The value that the two keys agree on. -/
  agreed : Bytes
  message : Bytes
  /-- The receiver's public key in its written form. -/
  receiver : Bytes

/-- What HKDF takes in: the name of a digest, the material to extract from, and the text that the
expansion is bound to. -/
structure KdfInputs where
  digest : String
  material : Bytes
  info : Bytes

def KdfInputs.derive (i : KdfInputs) (length : Int) : Except Fault Bytes := do
  let key ← Hkdf.Request.extract i.digest (.bytes []) i.material
  Hkdf.Request.expand i.digest key i.info length

namespace Transcript

def inputs (t : Transcript) : KdfInputs where
  digest := (Suite.ofGroup t.group).digest
  material := Hkdf.Labeled.material t.group.identifier (label "eae_prk") t.agreed
  info := Hkdf.Labeled.info t.group.secretSize t.group.identifier (label "shared_secret")
    (t.message ++ t.receiver)

def secret (t : Transcript) : Bytes :=
  Hkdf.expand t.group.digest (Hkdf.extract t.group.digest [] t.inputs.material) t.inputs.info
    t.group.secretSize

@[simp] theorem length_secret (t : Transcript) : t.secret.length = t.group.secretSize := by
  simp [secret]

theorem size_secret (t : Transcript) : (t.secret.length : Int) = (Suite.ofGroup t.group).secretSize := by
  rw [length_secret, Suite.secretSize_ofGroup]

/-- A suite's derivation hands exactly the transcript's inputs to HKDF. -/
theorem sharedSecret_eq_derive (t : Transcript) :
    (Suite.ofGroup t.group).sharedSecret t.agreed (t.message ++ t.receiver : Bytes) =
      t.inputs.derive (Suite.ofGroup t.group).secretSize := by
  have hi : (Suite.ofGroup t.group).derivation.id = .ok t.group.identifier := Suite.id_ofGroup _
  have hs : ∀ g : Group, g.secretSize < 0x10000 := by decide
  have hf := Hkdf.Labeled.field_int (hs t.group)
  simp only [Suite.sharedSecret, Derivation.sharedSecret, hi, KdfInputs.derive, inputs,
    Hkdf.Labeled.extract, Hkdf.Labeled.expand, Suite.digest_derivation, Suite.secretSize_derivation,
    Suite.secretSize_ofGroup, hf, Datum.joinable_bytes, bind, Except.bind]

/-- The derivation is served whatever the transcript holds. -/
theorem derive_inputs (t : Transcript) : t.inputs.derive t.group.secretSize = .ok t.secret := by
  have hl : ∀ g : Group, g.secretSize ≤ Hkdf.limit g.digest := by decide
  have hx := Hkdf.Request.extract_bytes (Suite.named?_ofGroup t.group) [] t.inputs.material
  have he := Hkdf.Request.expand_bytes (Suite.verbatim?_ofGroup t.group)
    (Hkdf.extract t.group.digest [] t.inputs.material) t.inputs.info (hl t.group)
  exact bind_eq_ok.2 ⟨_, hx, he⟩

theorem sharedSecret_eq (t : Transcript) :
    (Suite.ofGroup t.group).sharedSecret t.agreed (t.message ++ t.receiver : Bytes) = .ok t.secret := by
  rw [sharedSecret_eq_derive, Suite.secretSize_ofGroup, derive_inputs]

def sealedBy? (g : KeyAgreement) (receiver : PublicKey) (ephemeral : PrivateKey) : Option Transcript := do
  let agreed ← g.exchange ephemeral receiver
  return ⟨receiver.group, agreed, (g.publicOf ephemeral).serialize, receiver.serialize⟩

def sealed? (g : KeyAgreement) (receiver : PublicKey) (material : Bytes) : Option Transcript := do
  let ephemeral ← ((Suite.ofGroup receiver.group).deriveKey material).toOption
  sealedBy? g receiver ephemeral

def opened? (g : KeyAgreement) (receiver : PrivateKey) (message : Bytes) : Option Transcript := do
  let ephemeral ← receiver.group.decode? message
  let agreed ← g.exchange receiver ephemeral
  return ⟨receiver.group, agreed, message, (g.publicOf receiver).serialize⟩

variable {g : KeyAgreement} {t : Transcript}

theorem sealedBy?_eq_some {receiver : PublicKey} {ephemeral : PrivateKey} :
    sealedBy? g receiver ephemeral = some t ↔ ∃ agreed, g.exchange ephemeral receiver = some agreed ∧
      t = ⟨receiver.group, agreed, (g.publicOf ephemeral).serialize, receiver.serialize⟩ := by
  rw [sealedBy?]
  cases g.exchange ephemeral receiver <;> simp [eq_comm]

theorem sealed?_eq_some {receiver : PublicKey} {material : Bytes} :
    sealed? g receiver material = some t ↔
      ∃ ephemeral, (Suite.ofGroup receiver.group).deriveKey material = .ok ephemeral ∧
        sealedBy? g receiver ephemeral = some t := by
  rw [sealed?]
  cases (Suite.ofGroup receiver.group).deriveKey material <;> simp [Except.toOption]

theorem opened?_eq_some {receiver : PrivateKey} {message : Bytes} :
    opened? g receiver message = some t ↔ ∃ ephemeral agreed,
      receiver.group.decode? message = some ephemeral ∧ g.exchange receiver ephemeral = some agreed ∧
        t = ⟨receiver.group, agreed, message, (g.publicOf receiver).serialize⟩ := by
  rw [opened?]
  cases receiver.group.decode? message with
  | none => simp
  | some ephemeral => cases hx : g.exchange receiver ephemeral <;> simp [hx, eq_comm]

theorem group_of_sealed? {receiver : PublicKey} {material : Bytes}
    (h : sealed? g receiver material = some t) : t.group = receiver.group := by
  obtain ⟨_, -, h⟩ := sealed?_eq_some.1 h
  obtain ⟨_, -, rfl⟩ := sealedBy?_eq_some.1 h
  rfl

theorem group_of_opened? {receiver : PrivateKey} {message : Bytes}
    (h : opened? g receiver message = some t) : t.group = receiver.group := by
  obtain ⟨_, _, -, -, rfl⟩ := opened?_eq_some.1 h
  rfl

/-- A message that a receiver accepts has the one length of its group's public keys. -/
theorem length_of_opened? {receiver : PrivateKey} {message : Bytes}
    (h : opened? g receiver message = some t) : message.length = receiver.group.encodedSize := by
  obtain ⟨ephemeral, _, hd, -⟩ := opened?_eq_some.1 h
  obtain ⟨hg, rfl⟩ := PublicKey.of_decode? hd
  rw [PublicKey.length_serialize, hg]

/-- The receiver builds the transcript of the sender: the message is the sender's public key, and the
two reach the same value. -/
theorem opened?_of_sealed? (hg : g.Lawful) {key : PrivateKey} {material : Bytes}
    (h : sealed? g (g.publicOf key) material = some t) : opened? g key t.message = some t := by
  obtain ⟨ephemeral, hd, h⟩ := sealed?_eq_some.1 h
  obtain ⟨agreed, hx, rfl⟩ := sealedBy?_eq_some.1 h
  -- the message reads back as the sender's key; turning the agreement around needs one group
  have he : ephemeral.group = key.group := (Suite.group_deriveKey hd).trans (hg.group_publicOf key)
  have hr : key.group.decode? (g.publicOf ephemeral).serialize = some (g.publicOf ephemeral) := by
    rw [← he, ← hg.group_publicOf ephemeral]
    exact PublicKey.decode?_serialize _
  rw [hg.exchange_comm _ _ he] at hx
  exact opened?_eq_some.2 ⟨_, agreed, hr, hx, by rw [hg.group_publicOf]⟩

end Transcript

end KeyCapsule
