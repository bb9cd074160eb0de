import KeyCapsule.Proofs.Slice
import KeyCapsule.Proofs.Transcript

/-! Runs of the two sides of an exchange. A side that the provider built is settled by its key alone, and
what it serves is cut from the secret of one transcript. -/
namespace KeyCapsule.DhKem
open Transcript

variable {σ : Type} {g : KeyAgreement}

def BoundSender (g : KeyAgreement) (receiver : PublicKey) (source : Source σ) (enc : Encapsulator σ) :
    Prop :=
  ∃ (name : Datum) (entropy : Source σ) (params : ParamsValue) (choice : SourceChoice σ) (s : σ),
    choice.resolve entropy = .ok source ∧
      (((named name g entropy).newEncapsulator (.publicKey receiver) params choice).run s).result =
        .ok enc

def BoundReceiver (g : KeyAgreement) (key : PrivateKey) (dec : Decapsulator σ) : Prop :=
  ∃ (name : Datum) (entropy : Source σ) (params : ParamsValue) (s : σ),
    (((named name g entropy).newDecapsulator (.privateKey key) params).run s).result = .ok dec

private theorem resolve_eq_ok {key : KeyValue} {params : ParamsValue} {s : Suite}
    (h : resolve key params = .ok s) : suiteOf key = .ok s := by
  obtain ⟨s', hs, h⟩ := bind_eq_ok.1 h
  obtain ⟨_, -, h⟩ := bind_eq_ok.1 h
  cases h
  exact hs

theorem BoundSender.eq_sender {receiver : PublicKey} {source : Source σ} {enc : Encapsulator σ}
    (h : BoundSender g receiver source enc) :
    enc = sender g (Suite.ofGroup receiver.group) receiver source := by
  obtain ⟨name, entropy, params, choice, s, hc, h⟩ := h
  obtain ⟨source', s', hs, hb⟩ := Provider.newEncapsulator_ok (bindReceiver g) h
  obtain ⟨suite, hr, hb⟩ := Act.result_bind_eq_ok.1 hb
  obtain ⟨_, -, hb⟩ := Act.result_bind_eq_ok.1 hb
  have hr' : resolve (.publicKey receiver) params = .ok suite := hr
  cases hc.symm.trans hs
  cases resolve_eq_ok hr'
  cases hb
  rfl

theorem BoundReceiver.eq_receiver {key : PrivateKey} {dec : Decapsulator σ}
    (h : BoundReceiver g key dec) : dec = receiver g (Suite.ofGroup key.group) key := by
  obtain ⟨name, entropy, params, s, h⟩ := h
  obtain ⟨s', hb⟩ := Provider.newDecapsulator_ok entropy (bindSender g) h
  obtain ⟨suite, hr, hb⟩ := Act.result_bind_eq_ok.1 hb
  obtain ⟨_, -, hb⟩ := Act.result_bind_eq_ok.1 hb
  have hr' : resolve (.privateKey key) params = .ok suite := hr
  cases resolve_eq_ok hr'
  cases hb
  rfl

/-- Without parameters the provider builds both sides for every key. -/
theorem boundSender (g : KeyAgreement) (receiver : PublicKey) (source : Source σ) (s : σ) :
    BoundSender g receiver source (sender g (Suite.ofGroup receiver.group) receiver source) :=
  ⟨typeName, source, .absent, .absent, s, rfl, rfl⟩

theorem boundReceiver (g : KeyAgreement) (key : PrivateKey) (entropy : Source σ) (s : σ) :
    BoundReceiver g key (receiver g (Suite.ofGroup key.group) key : Decapsulator σ) :=
  ⟨typeName, entropy, .absent, s, rfl⟩

/-- The sender's secret is that of its ephemeral key's transcript. -/
theorem sealWith_eq {receiver : PublicKey} {ephemeral : PrivateKey}
    (he : ephemeral.group = receiver.group) :
    sealWith g (Suite.ofGroup receiver.group) receiver ephemeral =
      match sealedBy? g receiver ephemeral with
      | some t => .ok (t.message, t.secret)
      | none => .error (.key .refusedAgreement) := by
  rw [sealWith, agreeWith, Suite.agree_ofGroup g he rfl, sealedBy?]
  cases g.exchange ephemeral receiver with
  | none => rfl
  | some agreed =>
    have hs := sharedSecret_eq
      ⟨receiver.group, agreed, (g.publicOf ephemeral).serialize, receiver.serialize⟩
    exact bind_eq_ok.2 ⟨agreed, rfl, bind_eq_ok.2 ⟨_, hs, rfl⟩⟩

/-- A receiver recovers the value of the message's transcript. Without a transcript the fault is the
same for all causes. -/
private theorem recoverAgreed_eq (key : PrivateKey) (message : Bytes) :
    recoverAgreed g (Suite.ofGroup key.group) key message =
      match opened? g key message with
      | some t => .ok t.agreed
      | none => .error .undecapsulated := by
  have hr := Suite.readPublic_ofGroup key.group message
  -- bytes that are no key and a key that is refused are caught alike
  cases hd : key.group.decode? message with
  | none =>
    rw [hd] at hr
    obtain ⟨e, hr, he⟩ := hr
    simp only [recoverAgreed, opened?, hr, hd, bind, Except.bind, Option.bind, he, if_true]
  | some ephemeral =>
    rw [hd] at hr
    have ha := Suite.agree_ofGroup g (a := key) rfl (PublicKey.of_decode? hd).1
    cases hx : g.exchange key ephemeral with
    | none =>
      rw [hx] at ha
      simp only [recoverAgreed, opened?, hr, hd, ha, hx, bind, Except.bind, Option.bind]
      rfl
    | some agreed =>
      rw [hx] at ha
      simp only [recoverAgreed, opened?, hr, hd, ha, hx, bind, Except.bind, Option.bind]
      rfl

/-- The receiver's secret is that of the message's transcript. -/
theorem openWith_eq (key : PrivateKey) (message : Bytes) :
    openWith g (Suite.ofGroup key.group) key message =
      match opened? g key message with
      | some t => .ok t.secret
      | none => .error .undecapsulated := by
  rw [openWith, recoverAgreed_eq]
  cases ho : opened? g key message with
  | none => rfl
  | some t =>
    obtain ⟨_, agreed, -, -, rfl⟩ := opened?_eq_some.1 ho
    exact sharedSecret_eq ⟨key.group, agreed, message, (g.publicOf key).serialize⟩

theorem fixed_terms (type : String) (s : Suite) :
    (terms type s : Terms σ).Fixed s.secretSize s.encapsulationSize := ⟨rfl, rfl⟩

theorem quiet_terms (type : String) (s : Suite) : (terms type s : Terms σ).Quiet :=
  fun start stop _ => ⟨start.less stop, rfl⟩

/-- A window of integers is granted if it is not empty and lies inside the secret. -/
theorem grant_ok {type : String} {suite : Suite} {start stop : Int} {label : Datum} {s : σ}
    {w : Datum × Datum} :
    (((terms type suite).grant (.int start) (.int stop) label).run s).result = .ok w ↔
      label.isNone = false ∧ (0 ≤ start ∧ start < stop ∧ stop ≤ suite.secretSize) ∧
        w = (.int start, .int stop) := by
  have hs : (((terms type suite).supports (.int start) (.int stop) label).run s).result = .ok true ↔
      start < stop := by
    simp [terms, Terms.supportsNonempty]
  rw [Terms.grant_int (fixed_terms type suite).secretSize, hs]
  constructor
  · rintro ⟨hl, ⟨h₀, -, h₂⟩, hlt, hw⟩
    exact ⟨hl, ⟨h₀, hlt, h₂⟩, hw⟩
  · rintro ⟨hl, ⟨h₀, hlt, h₂⟩, hw⟩
    exact ⟨hl, ⟨h₀, Int.le_of_lt hlt, h₂⟩, hlt, hw⟩

private theorem encapsulate_ok {receiver : PublicKey} {source : Source σ} {start stop label : Datum} {s : σ}
    {r : Encapsulated}
    (h : ((encapsulate g (Suite.ofGroup receiver.group) receiver source start stop label).run s).result =
      .ok r) :
    ∃ material t,
      ((source.read (.int (Suite.ofGroup receiver.group).privateKeySize)).run s).result = .ok material ∧
        sealed? g receiver material = some t ∧ r.encapsulation = .bytes t.message ∧
        SecretKey.slice (.bytes t.secret) start stop label = .ok r.key := by
  obtain ⟨material, hm, h⟩ := Act.result_bind_eq_ok.1 h
  obtain ⟨ephemeral, hd, h⟩ := Act.result_bind_eq_ok.1 h
  obtain ⟨⟨message, secret⟩, hs, h⟩ := Act.result_bind_eq_ok.1 h
  obtain ⟨key, hk, h⟩ := Act.result_bind_eq_ok.1 h
  have hd' : (Suite.ofGroup receiver.group).deriveKey material = .ok ephemeral := hd
  have hs' : sealWith g (Suite.ofGroup receiver.group) receiver ephemeral = .ok (message, secret) := hs
  rw [sealWith_eq (Suite.group_deriveKey hd')] at hs'
  cases ht : sealedBy? g receiver ephemeral with
  | none =>
    rw [ht] at hs'
    cases hs'
  | some t =>
    rw [ht] at hs'
    cases hs'
    cases h
    exact ⟨material, t, hm, by simp [sealed?, hd', Except.toOption, ht], rfl, hk⟩

theorem decapsulate_eq (key : PrivateKey) (message : Bytes) (start stop label : Datum) :
    (decapsulate g (Suite.ofGroup key.group) key message start stop label : Act σ SecretKey) =
      liftM (SecretKey.cutFrom ((opened? g key message).map secret) start stop label) := by
  rw [decapsulate, openWith_eq]
  cases opened? g key message <;> rfl

/-- A successful request to a sender is a successful run of its algorithm from the same state. -/
theorem sender_ok {receiver : PublicKey} {source : Source σ} {start stop label : Datum} {s : σ}
    {r : Encapsulated}
    (h : (((sender g (Suite.ofGroup receiver.group) receiver source).encapsulate start stop label).run
      s).result = .ok r) :
    ∃ first last material t,
      ((source.read (.int (Suite.ofGroup receiver.group).privateKeySize)).run s).result = .ok material ∧
        sealed? g receiver material = some t ∧ r.encapsulation = .bytes t.message ∧
        (((terms "DHKEMEncapsulator" (Suite.ofGroup receiver.group) : Terms σ).grant start stop
          label).run s).result = .ok (first, last) ∧
        SecretKey.slice (.bytes t.secret) first last label = .ok r.key := by
  obtain ⟨⟨first, last⟩, hw, -⟩ := Act.result_bind_eq_ok.1 h
  have hs : (sender g (Suite.ofGroup receiver.group) receiver source).encapsulate start stop label = _ :=
    Terms.serve_granted (fixed_terms _ _).secretSize (quiet_terms _ _) hw _
  rw [hs] at h
  obtain ⟨material, t, hm, ht, he, hk⟩ := encapsulate_ok h
  exact ⟨first, last, material, t, hm, ht, he, hw, hk⟩

/-- A granted request is served whenever the draw gives a transcript. -/
theorem sender_of_sealed? {receiver : PublicKey} {source : Source σ} {start stop : Int} {label : Datum}
    {s : σ} {w : Datum × Datum} {material : Bytes} {t : Transcript}
    (hm : ((source.read (.int (Suite.ofGroup receiver.group).privateKeySize)).run s).result = .ok material)
    (ht : sealed? g receiver material = some t)
    (hw : (((sender g (Suite.ofGroup receiver.group) receiver source).grant (.int start) (.int stop)
      label).run s).result = .ok w) :
    ∃ r, (((sender g (Suite.ofGroup receiver.group) receiver source).encapsulate (.int start)
      (.int stop) label).run s).result = .ok r := by
  obtain ⟨hl, ⟨h₀, h₁, h₂⟩, rfl⟩ := grant_ok.1 hw
  have hserve : (sender g (Suite.ofGroup receiver.group) receiver source).encapsulate (.int start)
      (.int stop) label = _ :=
    Terms.serve_granted (fixed_terms _ _).secretSize (quiet_terms _ _) hw _
  obtain ⟨ephemeral, hd, hs⟩ := sealed?_eq_some.1 ht
  have hseal := sealWith_eq (g := g) (Suite.group_deriveKey hd)
  rw [hs] at hseal
  rw [← group_of_sealed? ht, ← size_secret] at h₂
  obtain ⟨k, hk, -⟩ := SecretKey.slice_bytes h₀ h₁ h₂ hl
  refine ⟨⟨k, .bytes t.message, .none⟩, ?_⟩
  rw [hserve]
  exact Act.result_bind_eq_ok.2 ⟨material, hm, Act.result_bind_eq_ok.2 ⟨ephemeral, hd,
    Act.result_bind_eq_ok.2 ⟨(t.message, t.secret), hseal, Act.result_bind_eq_ok.2 ⟨k, hk, rfl⟩⟩⟩⟩

/-- What a receiver gives is cut from the secret of the message. -/
theorem receiver_ok {key : PrivateKey} {message start stop label : Datum} {s : σ} {k : SecretKey}
    (h : (((receiver g (Suite.ofGroup key.group) key).decapsulate message start stop label).run
      s).result = .ok k) :
    ∃ b t first last, message.toBytes = .ok b ∧ opened? g key b = some t ∧
      SecretKey.slice (.bytes t.secret) first last label = .ok k := by
  obtain ⟨b, first, last, s', hb, -, h⟩ := Terms.receive_ok h
  rw [decapsulate_eq, Act.run_lift] at h
  cases ho : opened? g key b with
  | none =>
    rw [ho] at h
    cases h
  | some t =>
    rw [ho] at h
    exact ⟨b, t, first, last, hb, ho, h⟩

/-- A receiver answers a granted request by the transcript of the message alone: with one it gives the
key of the window, without one it fails in one way. -/
theorem receiver_run (g : KeyAgreement) (key : PrivateKey) (message : Bytes) {start stop : Int}
    {label : Datum} {s : σ} {w : Datum × Datum}
    (hw : (((receiver g (Suite.ofGroup key.group) key : Decapsulator σ).grant (.int start) (.int stop)
      label).run s).result = .ok w) :
    let dec : Decapsulator σ := receiver g (Suite.ofGroup key.group) key
    match opened? g key message with
    | some t => ∃ k,
        (dec.decapsulate (.bytes message) (.int start) (.int stop) label).run s = ⟨.ok k, [], s⟩ ∧
          k.encoded = t.secret.cut start stop ∧ k.algorithm = label
    | none => (dec.decapsulate (.bytes message) (.int start) (.int stop) label).run s =
        ⟨.error .undecapsulated, [dec.failure], s⟩ := by
  intro dec
  have ht := fixed_terms (σ := σ) "DHKEMDecapsulator" (Suite.ofGroup key.group)
  have hlt : start < stop := (grant_ok.1 hw).2.1.2.1
  have hs : ∀ b secret, (opened? g key b).map Transcript.secret = some secret →
      (secret.length : Int) = (Suite.ofGroup key.group).secretSize := by
    intro b secret h
    obtain ⟨t, ho, rfl⟩ := Option.map_eq_some_iff.1 h
    rw [size_secret, group_of_opened? ho]
  have hr := Terms.receive_cut ht (quiet_terms _ _) (decapsulate_eq key) hs message hlt hw
  cases ho : opened? g key message with
  | some t =>
    have hb : (message.length : Int) = (Suite.ofGroup key.group).encapsulationSize := by
      rw [length_of_opened? ho, Suite.encapsulationSize_ofGroup]
    rw [if_pos hb, ho] at hr
    exact hr
  | none =>
    simp only [ho, Option.map_none, ite_self] at hr
    exact hr

end KeyCapsule.DhKem
