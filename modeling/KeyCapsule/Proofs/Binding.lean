import KeyCapsule.Proofs.Exchange

/-! Binding of what HKDF takes in. Its inputs are concatenations without separators, and yet they tell
their parts: the widths are fixed and no label begins another. -/
namespace KeyCapsule

namespace Hkdf.Labeled

private theorem material_inj {i j k l p q : Bytes} (hij : i.length = j.length)
    (h : material i k p = material j l q) : i = j ∧ k ++ p = l ++ q := by
  simp only [material, List.append_assoc] at h
  exact List.append_inj (List.append_cancel_left h) hij

private theorem info_inj {m n : Nat} {i j k l p q : Bytes} (hij : i.length = j.length)
    (h : info m i k p = info n j l q) : i = j ∧ k ++ p = l ++ q := by
  simp only [info, List.append_assoc] at h
  obtain ⟨-, h⟩ := List.append_inj h (by simp)
  exact List.append_inj (List.append_cancel_left h) hij

/-- Neither of two labels begins the other. -/
def Apart (s t : String) : Prop := ¬ label s <+: label t ∧ ¬ label t <+: label s

instance (s t : String) : Decidable (Apart s t) :=
  inferInstanceAs (Decidable (¬ label s <+: label t ∧ ¬ label t <+: label s))

private theorem Apart.append_ne {s t : String} (h : Apart s t) (p q : Bytes) : label s ++ p ≠ label t ++ q := by
  intro he
  have hs : label s <+: label t ++ q := ⟨p, he⟩
  rcases List.prefix_or_prefix_of_prefix hs (List.prefix_append (label t) q) with hst | hts
  · exact h.1 hst
  · exact h.2 hts

private theorem material_ne {i j : Bytes} (hij : i.length = j.length) {s t : String} (h : Apart s t)
    (p q : Bytes) : material i (label s) p ≠ material j (label t) q :=
  fun he => h.append_ne p q (material_inj hij he).2

private theorem info_ne {i j : Bytes} (hij : i.length = j.length) {s t : String} (h : Apart s t) (m n : Nat)
    (p q : Bytes) : info m i (label s) p ≠ info n j (label t) q :=
  fun he => h.append_ne p q (info_inj hij he).2

end Hkdf.Labeled

private theorem Derivation.length_id {d : Derivation} {i : Bytes} (h : d.id = .ok i) : i.length = 5 := by
  rw [Derivation.id] at h
  cases hf : Hkdf.Labeled.field d.kemId with
  | error e =>
    rw [hf] at h
    cases h
  | ok n =>
    rw [hf] at h
    cases h
    simp [Hkdf.Labeled.label]

/-- Inputs tell their transcript, if the messages have the size of their groups' public keys. -/
private theorem Transcript.inputs_inj {t u : Transcript} (ht : t.message.length = t.group.encodedSize)
    (hu : u.message.length = u.group.encodedSize) (h : t.inputs = u.inputs) : t = u := by
  obtain ⟨-, hm, hi⟩ := KdfInputs.mk.inj h
  obtain ⟨hid, ha⟩ := Hkdf.Labeled.material_inj (by simp) hm
  obtain ⟨-, hc⟩ := Hkdf.Labeled.info_inj (by simp) hi
  have hg : t.group = u.group := Group.identifier_injective hid
  -- the group fixes the length of the message, and with it where the receiver's key begins
  obtain ⟨hmsg, hr⟩ := List.append_inj (List.append_cancel_left hc) (by rw [ht, hu, hg])
  cases t
  cases u
  cases hg
  cases List.append_cancel_left ha
  cases hmsg
  cases hr
  rfl

namespace DhKem
open Transcript KeyAgreement
open Hkdf.Labeled (label material info material_ne info_ne Apart)

variable {g : KeyAgreement} {t u : Transcript} {k : SecretKey}

/-- Successful runs of sides that the provider built, on either end: the transcript that the run
derived its secret from, and the key that it gave. -/
inductive Ran (g : KeyAgreement) : Transcript → SecretKey → Prop
  | sent {σ : Type} {receiver : PublicKey} {source : Source σ} {enc : Encapsulator σ}
      {start stop label : Datum} {s : σ} {r : Encapsulated} {material : Bytes} {t : Transcript}
      (bound : BoundSender g receiver source enc)
      (served : ((enc.encapsulate start stop label).run s).result = .ok r)
      (drawn : ((source.read (.int (Suite.ofGroup receiver.group).privateKeySize)).run s).result =
        .ok material)
      (transcript : sealed? g receiver material = some t) : Ran g t r.key
  | received {σ : Type} {key : PrivateKey} {dec : Decapsulator σ} {message start stop label : Datum}
      {s : σ} {k : SecretKey} {b : Bytes} {t : Transcript}
      (bound : BoundReceiver g key dec)
      (served : ((dec.decapsulate message start stop label).run s).result = .ok k)
      (read : message.toBytes = .ok b)
      (transcript : opened? g key b = some t) : Ran g t k

/-- A message is the one encoding of a public key on both ends: the sender writes it, and the receiver
accepts nothing else. -/
theorem Ran.length_message (hg : ∀ k, (g.publicOf k).group = k.group) (h : Ran g t k) :
    t.message.length = t.group.encodedSize := by
  cases h with
  | sent _ _ _ ht =>
    obtain ⟨ephemeral, hd, ht⟩ := sealed?_eq_some.1 ht
    obtain ⟨_, -, rfl⟩ := sealedBy?_eq_some.1 ht
    rw [PublicKey.length_serialize, hg, Suite.group_deriveKey hd]
  | received _ _ _ ht =>
    rw [group_of_opened? ht, ← length_of_opened? ht]
    obtain ⟨_, _, -, -, rfl⟩ := opened?_eq_some.1 ht
    rfl

private theorem Ran.derives (h : Ran g t k) :
    ∃ secret first last label, t.inputs.derive (Suite.ofGroup t.group).secretSize = .ok secret ∧
      SecretKey.slice (.bytes secret) first last label = .ok k := by
  have hd : t.inputs.derive (Suite.ofGroup t.group).secretSize = .ok t.secret := by
    rw [Suite.secretSize_ofGroup, derive_inputs]
  cases h with
  | sent bound served drawn ht =>
    cases bound.eq_sender
    obtain ⟨first, last, material, u, hm, hu, -, -, hk⟩ := sender_ok served
    cases drawn.symm.trans hm
    cases ht.symm.trans hu
    exact ⟨_, first, last, _, hd, hk⟩
  | received bound served read ht =>
    cases bound.eq_receiver
    obtain ⟨b, u, first, last, hb, hu, hk⟩ := receiver_ok served
    cases read.symm.trans hb
    cases ht.symm.trans hu
    exact ⟨_, first, last, _, hd, hk⟩

private theorem ran_of_sender {σ : Type} {receiver : PublicKey} {source : Source σ} {enc : Encapsulator σ}
    {start stop label : Datum} {s : σ} {r : Encapsulated} (bound : BoundSender g receiver source enc)
    (served : ((enc.encapsulate start stop label).run s).result = .ok r) :
    ∃ t, Ran g t r.key ∧ t.group = receiver.group ∧ r.encapsulation = .bytes t.message ∧
      t.receiver = receiver.serialize := by
  have hs := served
  rw [bound.eq_sender] at hs
  obtain ⟨_, _, material, t, hm, ht, he, -, -⟩ := sender_ok hs
  refine ⟨t, .sent bound served hm ht, group_of_sealed? ht, he, ?_⟩
  obtain ⟨_, -, ht⟩ := sealed?_eq_some.1 ht
  obtain ⟨_, -, rfl⟩ := sealedBy?_eq_some.1 ht
  rfl

private theorem ran_of_receiver {σ : Type} {key : PrivateKey} {dec : Decapsulator σ}
    {message start stop label : Datum} {s : σ} {k : SecretKey} (bound : BoundReceiver g key dec)
    (served : ((dec.decapsulate message start stop label).run s).result = .ok k) :
    ∃ t, Ran g t k ∧ opened? g key t.message = some t ∧ message.toBytes = .ok t.message := by
  have hr := served
  rw [bound.eq_receiver] at hr
  obtain ⟨b, t, _, _, hb, ht, -⟩ := receiver_ok hr
  have hm : t.message = b := by
    obtain ⟨_, _, -, -, rfl⟩ := opened?_eq_some.1 ht
    rfl
  exact ⟨t, .received bound served hb ht, hm ▸ ht, hm ▸ hb⟩

/-- Every message that a receiver accepts stands behind a run of it. -/
private theorem exists_ran {key : PrivateKey} {b : Bytes} (h : opened? g key b = some t) : ∃ k, Ran g t k := by
  have hs : ∀ g : Group, (0 : Int) < (Suite.ofGroup g).secretSize := by decide
  have hw : (((terms "DHKEMDecapsulator" (Suite.ofGroup key.group)).grant (.int 0)
      (.int (Suite.ofGroup key.group).secretSize) SecretKey.generic).run ()).result = .ok (.int 0, _) :=
    grant_ok.2 ⟨rfl, ⟨Int.le_refl 0, hs key.group, Int.le_refl _⟩, rfl⟩
  have hr := receiver_run g key b hw
  rw [h] at hr
  obtain ⟨k, hr, -⟩ := hr
  exact ⟨k, .received (boundReceiver g key ⟨fun _ => pure .none⟩ ()) (congrArg Outcome.result hr) rfl h⟩

/-- The transcripts of successful runs are bound by what HKDF takes in for them. -/
structure Binds (g : KeyAgreement) : Prop where
  /-- A suite hands the inputs of a transcript to HKDF, and nothing else. -/
  derivation : ∀ t : Transcript,
    (Suite.ofGroup t.group).sharedSecret t.agreed (t.message ++ t.receiver : Bytes) =
      t.inputs.derive (Suite.ofGroup t.group).secretSize
  sent : ∀ {σ : Type} {receiver : PublicKey} {source : Source σ} {enc : Encapsulator σ}
    {start stop label : Datum} {s : σ} {r : Encapsulated}, BoundSender g receiver source enc →
      ((enc.encapsulate start stop label).run s).result = .ok r →
      ∃ t, Ran g t r.key ∧ t.group = receiver.group ∧ r.encapsulation = .bytes t.message ∧
        t.receiver = receiver.serialize
  received : ∀ {σ : Type} {key : PrivateKey} {dec : Decapsulator σ} {message start stop label : Datum}
    {s : σ} {k : SecretKey}, BoundReceiver g key dec →
      ((dec.decapsulate message start stop label).run s).result = .ok k →
      ∃ t, Ran g t k ∧ opened? g key t.message = some t ∧ message.toBytes = .ok t.message
  derived : ∀ {t k}, Ran g t k → ∃ secret first last label,
    t.inputs.derive (Suite.ofGroup t.group).secretSize = .ok secret ∧
      SecretKey.slice (.bytes secret) first last label = .ok k
  /-- Equal inputs come of equal groups, agreed values, messages and receivers. -/
  injective : ∀ {t u j k}, Ran g t j → Ran g u k → t.inputs = u.inputs → t = u
  /-- Two messages that one receiver accepts never come to the same inputs, be their agreed values
  equal or not. -/
  messages : ∀ {σ τ : Type} {key : PrivateKey} {dec : Decapsulator σ} {dec' : Decapsulator τ}
    {b c : Bytes} {start stop label start' stop' label' : Datum} {s : σ} {s' : τ} {j k : SecretKey},
    BoundReceiver g key dec → BoundReceiver g key dec' →
      ((dec.decapsulate (.bytes b) start stop label).run s).result = .ok j →
      ((dec'.decapsulate (.bytes c) start' stop' label').run s').result = .ok k → b ≠ c →
      ∃ t u, Ran g t j ∧ Ran g u k ∧ t.message = b ∧ u.message = c ∧ t.inputs ≠ u.inputs

/-- The purposes that a suite expands a key for. -/
def purposes : List String := ["sk", "candidate", "shared_secret"]

structure Separates : Prop where
  materials : ∀ {d e : Derivation} {i j : Bytes}, d.id = .ok i → e.id = .ok j → ∀ p q,
    material i (label "dkp_prk") p ≠ material j (label "eae_prk") q
  infos : ∀ {d e : Derivation} {i j : Bytes}, d.id = .ok i → e.id = .ok j →
    ∀ a ∈ purposes, ∀ b ∈ purposes, a ≠ b → ∀ m n p q,
      info m i (label a) p ≠ info n j (label b) q

private theorem separates : Separates where
  materials hi hj :=
    material_ne ((Derivation.length_id hi).trans (Derivation.length_id hj).symm) (by decide)
  infos hi hj a ha b hb hab := by
    have apart : ∀ a ∈ purposes, ∀ b ∈ purposes, a ≠ b → Apart a b := by decide
    exact info_ne ((Derivation.length_id hi).trans (Derivation.length_id hj).symm) (apart a ha b hb hab)

/-- Transcripts are bound and purposes are kept apart by the inputs of HKDF, whatever the agreement, as
long as public keys stay in the groups of their private keys. -/
theorem transcript_binding (hg : ∀ k, (g.publicOf k).group = k.group) : Binds g ∧ Separates := by
  have injective : ∀ {t u j k}, Ran g t j → Ran g u k → t.inputs = u.inputs → t = u :=
    fun ht hu h => inputs_inj (ht.length_message hg) (hu.length_message hg) h
  refine ⟨?_, separates⟩
  constructor
  case derivation => exact sharedSecret_eq_derive
  case sent => exact ran_of_sender
  case received => exact ran_of_receiver
  case derived => exact Ran.derives
  case injective => exact injective
  case messages =>
    intro σ τ key dec dec' b c start stop label start' stop' label' s s' j k hd hd' hj hk hbc
    obtain ⟨t, ht, -, hb⟩ := ran_of_receiver hd hj
    obtain ⟨u, hu, -, hc⟩ := ran_of_receiver hd' hk
    cases hb
    cases hc
    exact ⟨t, u, ht, hu, rfl, rfl, fun h => hbc (congrArg Transcript.message (injective ht hu h))⟩

/-- Two messages that differ in a digit that the ladder ignores: the receiver agrees on one value with
both and still takes in other inputs. -/
theorem ignored_digit_bound :
    let key : PrivateKey := .seed .x25519 ⟨Bytes.zeros 32, by decide⟩
    let low : Bytes := 9 :: Bytes.zeros 31
    let high : Bytes := 9 :: Bytes.zeros 30 ++ [0x80]
    (∀ k, (standard.publicOf k).group = k.group) ∧
      ∃ j k t u, Ran standard t j ∧ Ran standard u k ∧ opened? standard key low = some t ∧
        opened? standard key high = some u ∧ t.agreed = u.agreed ∧ t.inputs ≠ u.inputs := by
  intro key low high
  have hx : (opened? standard key low).map Transcript.agreed =
      (opened? standard key high).map Transcript.agreed ∧ (opened? standard key low).isSome = true ∧
      (opened? standard key high).isSome = true := by decide +kernel
  obtain ⟨t, ht⟩ := Option.isSome_iff_exists.1 hx.2.1
  obtain ⟨u, hu⟩ := Option.isSome_iff_exists.1 hx.2.2
  have ha : t.agreed = u.agreed := by simpa [ht, hu] using hx.1
  obtain ⟨j, rt⟩ := exists_ran ht
  obtain ⟨k, ru⟩ := exists_ran hu
  refine ⟨group_standardPublic, j, k, t, u, rt, ru, ht, hu, ha, fun h => ?_⟩
  cases (transcript_binding group_standardPublic).1.injective rt ru h
  obtain ⟨_, _, -, -, rfl⟩ := opened?_eq_some.1 ht
  obtain ⟨_, _, -, -, he⟩ := opened?_eq_some.1 hu
  cases congrArg Transcript.message he

end DhKem
end KeyCapsule
