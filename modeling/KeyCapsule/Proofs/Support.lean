import KeyCapsule.Proofs.Answer

/-! Advertised support. Inside its secret a side tells the truth about the requests that it serves; a window
that reaches beyond the secret is refused whatever was said about it. -/
namespace KeyCapsule
variable {σ α : Type}

/-- A refusal of a request as such: of its window, or of the window under its label. -/
def Fault.declines (e : Fault) : Bool := e.isA .secretRange || e.isA .unsupportedCombination

@[simp] theorem Fault.declines_range (start stop size : Datum) : (range start stop size).declines = true :=
  rfl

@[simp] theorem Fault.declines_unsupported (type : String) (start stop label : Datum) :
    (unsupported type start stop label).declines = true := rfl

def Declined (r : Except Fault α) : Prop := ∃ e, r = .error e ∧ e.declines = true

private theorem declined_error {e : Fault} : Declined (.error e : Except Fault α) ↔ e.declines = true :=
  ⟨fun ⟨_, h, hd⟩ => by cases h; exact hd, fun hd => ⟨e, rfl, hd⟩⟩

private theorem not_declined_ok (a : α) : ¬ Declined (.ok a : Except Fault α) := fun ⟨_, h, _⟩ => nomatch h

namespace Terms

/-- What a side says about its support, and how the requests end that it is asked about. In a disturbed
state something else gets in the way of a request. -/
structure Advertises (t : Terms σ) (size : Int) (offers : Int → Int → String → Bool)
    (request : Int → Int → String → Act σ α) (disturbed : σ → Prop) : Prop where
  /-- There is always an answer, and asking leaves no trace. -/
  answers : ∀ start stop label s, (t.supports (.int start) (.int stop) (.text label)).run s =
    ⟨.ok (offers start stop label), [], s⟩
  /-- Inside the secret the answer is true, if the bounds have few enough digits for a refusal to name them. -/
  truthful : ∀ start stop label s, 0 ≤ start → stop ≤ size → (Datum.int start).writable = true →
    (Datum.int stop).writable = true → ¬ disturbed s →
    (offers start stop label = true ↔ ¬ Declined ((request start stop label).run s).result)
  /-- Beyond it and out of order the window is refused, be it offered or not. -/
  beyond : ∀ start stop label s, ¬ (0 ≤ start ∧ start ≤ stop ∧ stop ≤ size) →
    (request start stop label).run s =
      ⟨.error (Fault.range (.int start) (.int stop) (.int size)).worded, [], s⟩

variable {t : Terms σ} {size : Int} {offers : Int → Int → String → Bool}

theorem grant_offered (ht : t.secretSize = pure (.int size))
    (hs : ∀ start stop label,
      t.supports (.int start) (.int stop) (.text label) = pure (offers start stop label))
    (start stop : Int) (label : String) :
    t.grant (.int start) (.int stop) (.text label) =
      if 0 ≤ start ∧ start ≤ stop ∧ stop ≤ size then
        if offers start stop label then pure (.int start, .int stop)
        else throw (Fault.unsupported t.type (.int start) (.int stop) (.text label)).worded
      else throw (Fault.range (.int start) (.int stop) (.int size)).worded := by
  rw [grant_labelled ht rfl, checkWindow_int]
  by_cases hw : 0 ≤ start ∧ start ≤ stop ∧ stop ≤ size
  · simp only [if_pos hw, Act.lift_ok, Act.pure_bind, hs]
    cases offers start stop label <;> rfl
  · simp only [if_neg hw, Act.lift_error, Act.throw_bind]

/-- A side that checks a request before it serves it advertises its support, if it offers no window that is
out of order and what it serves does not turn requests down once more. -/
private theorem advertises {disturbed : σ → Prop} {request : Int → Int → String → Act σ α}
    (served : Datum × Datum → Datum → Act σ α) (ht : t.secretSize = pure (.int size))
    (hw : (Datum.int size).writable = true)
    (hs : ∀ start stop label,
      t.supports (.int start) (.int stop) (.text label) = pure (offers start stop label))
    (ho : ∀ start stop label, offers start stop label = true → start < stop)
    (hr : ∀ start stop label, request start stop label =
      t.grant (.int start) (.int stop) (.text label) >>= fun w => served w (.text label))
    (hd : ∀ start stop label s, 0 ≤ start → start < stop → stop ≤ size → ¬ disturbed s →
      ¬ Declined ((served (.int start, .int stop) (.text label)).run s).result) :
    t.Advertises size offers request disturbed where
  answers start stop label s := by rw [hs]; rfl
  truthful start stop label s h₀ h₂ hstart hstop hq := by
    rw [hr, grant_offered ht hs]
    by_cases hin : 0 ≤ start ∧ start ≤ stop ∧ stop ≤ size
    · rw [if_pos hin]
      cases hoff : offers start stop label with
      | true => exact iff_of_true rfl (hd start stop label s h₀ (ho _ _ _ hoff) h₂ hq)
      | false =>
        rw [Fault.worded_of_writable (by simp only [Fault.writable, hstart, hstop, Datum.writable_text,
          Bool.and_self])]
        exact iff_of_false Bool.false_ne_true fun h => h (declined_error.2 (Fault.declines_unsupported ..))
    · rw [if_neg hin, Fault.worded_of_writable (by simp only [Fault.writable, hstart, hstop, hw,
        Bool.and_self])]
      refine iff_of_false (fun hoff => ?_) fun h => h (declined_error.2 (Fault.declines_range ..))
      have := ho _ _ _ hoff
      omega
  beyond start stop label s hout := by
    rw [hr, grant_offered ht hs, if_neg hout]
    rfl

private theorem declined_of_disclosed {r : Except Fault α} (h : Declined (t.disclosed r).1) : Declined r := by
  cases r with
  | ok a => exact h
  | error e =>
    simp only [disclosed] at h
    split at h
    · exact h
    · split at h
      · exact absurd (declined_error.1 h) (by decide)
      · exact h

private theorem advertises_receive {length : Int} (ht : t.Fixed size length)
    (hw : (Datum.int size).writable = true)
    (hs : ∀ start stop label,
      t.supports (.int start) (.int stop) (.text label) = pure (offers start stop label))
    (ho : ∀ start stop label, offers start stop label = true → start < stop)
    {hook : Bytes → Datum → Datum → Datum → Act σ α}
    (hd : ∀ b start stop label s, 0 ≤ start → start < stop → stop ≤ size →
      ¬ Declined ((hook b (.int start) (.int stop) (.text label)).run s).result) (b : Bytes) :
    t.Advertises size offers
      (fun start stop label => t.receive hook (.bytes b) (.int start) (.int stop) (.text label))
      fun _ => False := by
  refine advertises (fun w label =>
    if (b.length : Int) = length then t.conceal (hook b w.1 w.2 label)
    else t.reportFailure >>= fun _ => throw Fault.undecapsulated) ht.secretSize hw hs ho
    (fun start stop label => receive_bytes ht hook b _ _ _) ?_
  intro start stop label s h₀ h₁ h₂ _ h
  by_cases hb : (b.length : Int) = length
  · simp only [if_pos hb, conceal_run] at h
    exact hd b start stop label s h₀ h₁ h₂ (declined_of_disclosed h)
  · simp only [if_neg hb] at h
    exact absurd (declined_error.1 h) (by decide)

end Terms

private theorem not_declined_draw {source : Source σ} {wanted : Datum} {answer : Bytes → Except Fault α} {s : σ}
    (hq : ¬ Declined ((source.read wanted).run s).result) (ha : ∀ b, ¬ Declined (answer b)) :
    ¬ Declined ((source.read wanted >>= fun b => (liftM (answer b) : Act σ α)).run s).result := by
  rw [Act.run_bind_lift]
  cases h : ((source.read wanted).run s).result with
  | error e => exact fun hd => hq (h ▸ declined_error.2 (declined_error.1 hd))
  | ok b => exact ha b

namespace DhKem

def offers (start stop : Int) (_label : String) : Bool := decide (start < stop)

theorem supports_eq (type : String) (s : Suite) (start stop : Int) (label : String) :
    (terms type s : Terms σ).supports (.int start) (.int stop) (.text label) =
      pure (offers start stop label) := by
  simp only [terms, Terms.supportsNonempty, Datum.less_int]
  rfl

private theorem writable_secretSize (group : Group) :
    (Datum.int (Suite.ofGroup group).secretSize).writable = true := by
  refine Datum.writable_small ?_
  rcases group with (_ | _ | _) | (_ | _) <;> decide

private theorem sender_advertises {g : KeyAgreement} {receiver : PublicKey} {source : Source σ}
    {enc : Encapsulator σ} (h : BoundSender g receiver source enc) :
    enc.Advertises (Suite.ofGroup receiver.group).secretSize offers
      (fun start stop label => enc.encapsulate (.int start) (.int stop) (.text label))
      fun s => Declined ((source.read (.int (Suite.ofGroup receiver.group).privateKeySize)).run s).result := by
  cases h.eq_sender
  refine Terms.advertises (fun w => encapsulate g (Suite.ofGroup receiver.group) receiver source w.1 w.2) rfl
    (writable_secretSize _) (supports_eq _ _) (fun _ _ _ => of_decide_eq_true) (fun _ _ _ => rfl) ?_
  intro start stop label s h₀ h₁ h₂ hq
  rw [encapsulate_eq]
  refine not_declined_draw hq fun material => ?_
  cases ht : Transcript.sealed? g receiver material with
  | some t =>
    obtain ⟨key, ha, -⟩ := answer_of_sealed? ht h₀ h₁ h₂ (Datum.isNone_text label)
    rw [ha]
    exact not_declined_ok _
  | none =>
    rcases answer_of_unsealed ht (.int start) (.int stop) (.text label) with ha | ha <;> rw [ha]
    · exact fun hd => absurd (declined_error.1 hd) (by decide)
    · exact fun hd => absurd (declined_error.1 hd) (by decide)

private theorem receiver_advertises {g : KeyAgreement} {key : PrivateKey} {dec : Decapsulator σ}
    (h : BoundReceiver g key dec) (b : Bytes) :
    dec.Advertises (Suite.ofGroup key.group).secretSize offers
      (fun start stop label => dec.decapsulate (.bytes b) (.int start) (.int stop) (.text label))
      fun _ => False := by
  cases h.eq_receiver
  refine Terms.advertises_receive (fixed_terms _ _) (writable_secretSize _) (supports_eq _ _)
    (fun _ _ _ => of_decide_eq_true) ?_ b
  intro b start stop label s h₀ h₁ h₂
  rw [decapsulate_eq, Act.run_lift]
  cases ho : Transcript.opened? g key b with
  | none => exact fun hd => absurd (declined_error.1 hd) (by decide)
  | some t =>
    rw [← Transcript.group_of_opened? ho, ← Transcript.size_secret] at h₂
    obtain ⟨k, hk, -⟩ := SecretKey.slice_bytes h₀ h₁ h₂ (Datum.isNone_text label)
    rw [Option.map_some, SecretKey.cutFrom_some, hk]
    exact not_declined_ok k

end DhKem

namespace MockKem
variable {k : MockKey} {p : MockParameters} {secret message : Int}

/-- Without slicing only the whole secret under the general label is offered, with it every window that is
not empty. -/
def offers (p : MockParameters) (secret start stop : Int) (label : String) : Bool :=
  decide (start < stop) && (!p.allowSlicing.isEmpty || (start == 0 && stop == secret && label == "Generic"))

private theorem lt_of_offers {start stop : Int} {label : String} (h : offers p secret start stop label = true) :
    start < stop := by
  simp only [offers, Bool.and_eq_true, decide_eq_true_eq] at h
  exact h.1

private theorem inside_of_offers (hp : p.allowSlicing.isEmpty = true) {start stop : Int} {label : String}
    (h : offers p secret start stop label = true) : 0 ≤ start ∧ stop ≤ secret := by
  simp only [offers, hp, Bool.not_true, Bool.false_or, Bool.and_eq_true, beq_iff_eq] at h
  omega

theorem supports_offers (hs : p.secretSize = .int secret) (type : String) (start stop : Int)
    (label : String) :
    (terms type p : Terms σ).supports (.int start) (.int stop) (.text label) =
      pure (offers p secret start stop label) := by
  have he : supported p (.int start) (.int stop) (.text label) = .ok (offers p secret start stop label) := by
    simp only [supported, Datum.less_int, ok_bind, hs, Datum.equals_int, SecretKey.generic,
      Datum.equals_text, offers]
    by_cases h : start < stop
    · simp [h]
      rfl
    · simp [h]
      rfl
  change supports p _ _ _ = _
  rw [supports_eq, he]
  rfl

private theorem InRange.writable_secret (hp : InRange p secret message) :
    (Datum.int secret).writable = true := by
  have hpos := hp.secret_pos
  have hle := hp.secret_le
  refine Datum.writable_small ?_
  simp only [maxSecretSize] at hle
  omega

private theorem sender_advertises (hs : p.secretSize = .int secret) (hm : p.encapsulationSize = .int message)
    {source : Source σ} {enc : Encapsulator σ} (h : BoundSender k p source enc) :
    enc.Advertises secret (offers p secret)
      (fun start stop label => enc.encapsulate (.int start) (.int stop) (.text label))
      fun s => Declined ((source.read (.int (nonceSize message))).run s).result := by
  obtain ⟨q, hq, rfl⟩ := h.eq_sender
  obtain ⟨rfl, hp⟩ := checkParams_ok hs hm hq
  refine Terms.advertises (fun w => encapsulate k q source w.1 w.2) (fixed_terms hp _).secretSize
    hp.writable_secret (supports_offers hs _) (fun _ _ _ => lt_of_offers) (fun _ _ _ => rfl) ?_
  intro start stop label s h₀ h₁ h₂ hd
  rw [encapsulate_eq k hm]
  refine not_declined_draw hd fun nonce => ?_
  cases hk : k.material.joinable with
  | error e =>
    rw [answer_unjoinable hp hk, joinable_error hk]
    exact fun hd => absurd (declined_error.1 hd) (by decide)
  | ok m =>
    obtain ⟨b, encoded, hb, -, -, ha⟩ := answer_bytes hp hk nonce
    obtain ⟨key, hkey, -⟩ := SecretKey.slice_bytes h₀ h₁ (hb ▸ h₂) (Datum.isNone_text label)
    rw [ha, hkey]
    exact not_declined_ok _

private theorem receiver_advertises (hs : p.secretSize = .int secret) (hm : p.encapsulationSize = .int message)
    {dec : Decapsulator σ} (h : BoundReceiver k p dec) (b : Bytes) :
    dec.Advertises secret (offers p secret)
      (fun start stop label => dec.decapsulate (.bytes b) (.int start) (.int stop) (.text label))
      fun _ => False := by
  obtain ⟨q, hq, rfl⟩ := h.eq_receiver
  obtain ⟨rfl, hp⟩ := checkParams_ok hs hm hq
  refine Terms.advertises_receive (fixed_terms hp _) hp.writable_secret (supports_offers hs _)
    (fun _ _ _ => lt_of_offers) ?_ b
  intro b start stop label s h₀ h₁ h₂
  simp only [decapsulate]
  rw [Act.lift_bind, Act.run_lift]
  cases hk : k.material.joinable with
  | error e =>
    rw [openWith_unjoinable hp hk, joinable_error hk]
    exact fun hd => absurd (declined_error.1 hd) (by decide)
  | ok m =>
    rw [openWith_joinable hk]
    rcases openWith_bytes hp m b with ⟨-, secret, ho, hl⟩ | ⟨-, ho⟩ <;> rw [ho]
    · obtain ⟨key, hkey, -⟩ := SecretKey.slice_bytes h₀ h₁ (hl ▸ h₂) (Datum.isNone_text label)
      rw [ok_bind, hkey]
      exact not_declined_ok key
    · exact fun hd => absurd (declined_error.1 hd) (by decide)

end MockKem

/-- Senders and receivers of both providers tell the truth about every window inside their secret. Beyond
it the suites and a stand-in with slicing still offer what they then refuse; a stand-in without slicing
does not. -/
theorem support_truthful_inside (σ : Type) :
    (∀ {g : KeyAgreement} {receiver : PublicKey} {source : Source σ} {enc : Encapsulator σ},
      DhKem.BoundSender g receiver source enc →
      enc.Advertises (Suite.ofGroup receiver.group).secretSize DhKem.offers
        (fun start stop label => enc.encapsulate (.int start) (.int stop) (.text label))
        fun s => Declined
          ((source.read (.int (Suite.ofGroup receiver.group).privateKeySize)).run s).result) ∧
    (∀ {g : KeyAgreement} {key : PrivateKey} {dec : Decapsulator σ}, DhKem.BoundReceiver g key dec →
      ∀ b, dec.Advertises (Suite.ofGroup key.group).secretSize DhKem.offers
        (fun start stop label => dec.decapsulate (.bytes b) (.int start) (.int stop) (.text label))
        fun _ => False) ∧
    ∀ {k : MockKey} {p : MockParameters} {secret message : Int}, p.secretSize = .int secret →
      p.encapsulationSize = .int message →
      (∀ {source : Source σ} {enc : Encapsulator σ}, MockKem.BoundSender k p source enc →
        enc.Advertises secret (MockKem.offers p secret)
          (fun start stop label => enc.encapsulate (.int start) (.int stop) (.text label))
          fun s => Declined ((source.read (.int (MockKem.nonceSize message))).run s).result) ∧
      (∀ {dec : Decapsulator σ}, MockKem.BoundReceiver k p dec →
        ∀ b, dec.Advertises secret (MockKem.offers p secret)
          (fun start stop label => dec.decapsulate (.bytes b) (.int start) (.int stop) (.text label))
          fun _ => False) ∧
      (p.allowSlicing.isEmpty = true → ∀ start stop label,
        MockKem.offers p secret start stop label = true → 0 ≤ start ∧ stop ≤ secret) := by
  refine ⟨fun h => DhKem.sender_advertises h, fun h b => DhKem.receiver_advertises h b, ?_⟩
  intro k p secret message hs hm
  exact ⟨fun h => MockKem.sender_advertises hs hm h, fun h b => MockKem.receiver_advertises hs hm h b,
    fun hp _ _ _ ho => MockKem.inside_of_offers hp ho⟩

/-- Both sides of a stand-in with slicing, and of the shorter ladder, asked about a window inside the secret
and about an empty one. -/
theorem support_truthful_halves :
    let key : PrivateKey := .seed .x25519 ⟨Bytes.zeros 32, by decide⟩
    let receiver : PublicKey := .coordinate .x25519 ⟨Bytes.zeros 32, by decide⟩
    let source : Source Unit := ⟨fun _ => pure (.bytes (Bytes.zeros 32))⟩
    let k : MockKey := ⟨"k", .bytes (Bytes.zeros 32), MockKey.defaultAlgorithm⟩
    let p : MockParameters := ⟨.int 32, .int 48, .bool true⟩
    let enc := DhKem.sender KeyAgreement.standard Suite.x25519 receiver source
    let dec : Decapsulator Unit := DhKem.receiver KeyAgreement.standard Suite.x25519 key
    let mock := MockKem.sender k p source
    let mockDec : Decapsulator Unit := MockKem.receiver k p
    DhKem.BoundSender KeyAgreement.standard receiver source enc ∧
      DhKem.BoundReceiver KeyAgreement.standard key dec ∧ MockKem.BoundSender k p source mock ∧
      MockKem.BoundReceiver k p mockDec ∧
      ¬ Declined ((enc.encapsulate (.int 0) (.int 16) (.text "AES")).run ()).result ∧
      ¬ Declined ((dec.decapsulate (.bytes []) (.int 16) (.int 32) (.text "AES")).run ()).result ∧
      ¬ Declined ((mock.encapsulate (.int 16) (.int 32) (.text "AES")).run ()).result ∧
      Declined ((mockDec.decapsulate (.bytes []) (.int 16) (.int 16) (.text "AES")).run ()).result := by
  intro key receiver source k p enc dec mock mockDec
  have he : DhKem.BoundSender KeyAgreement.standard receiver source enc :=
    DhKem.boundSender _ receiver source ()
  have hd : DhKem.BoundReceiver KeyAgreement.standard key dec := DhKem.boundReceiver _ key source ()
  have hm : MockKem.BoundSender k p source mock := ⟨"MockKEM", source, .absent, (), rfl, rfl⟩
  have hr : MockKem.BoundReceiver k p mockDec := ⟨"MockKEM", source, (), rfl⟩
  have hquiet : ¬ Declined ((source.read (.int 32)).run ()).result := not_declined_ok (Bytes.zeros 32)
  have hall := support_truthful_inside Unit
  have hwritable : ∀ n : Fin 33, (Datum.int (n : Nat)).writable = true := fun n =>
    Datum.writable_small (by omega)
  refine ⟨he, hd, hm, hr, ?_, ?_, ?_, ?_⟩
  · exact ((hall.1 he).truthful 0 16 "AES" () (by decide) (by decide) (hwritable 0) (hwritable 16) hquiet).1 rfl
  · exact ((hall.2.1 hd []).truthful 16 32 "AES" () (by decide) (by decide) (hwritable 16) (hwritable 32)
      id).1 rfl
  · have hnonce : MockKem.nonceSize 48 = 32 := rfl
    exact (((hall.2.2 rfl rfl).1 hm).truthful 16 32 "AES" () (by decide) (by decide) (hwritable 16)
      (hwritable 32) (hnonce ▸ hquiet)).1 rfl
  · have hempty : ¬ MockKem.offers p 32 16 16 "AES" = true := by decide
    have ht := ((hall.2.2 rfl rfl).2.1 hr []).truthful 16 16 "AES" () (by decide) (by decide) (hwritable 16)
      (hwritable 16) id
    exact Classical.not_not.1 fun h => hempty (ht.2 h)

/-- A window that ends one byte beyond the secret is offered and refused. -/
theorem offer_beyond_secret :
    let receiver : PublicKey := .coordinate .x25519 ⟨List.replicate 32 9, by decide⟩
    let source : Source Unit := ⟨fun _ => pure .none⟩
    let enc := DhKem.sender KeyAgreement.standard Suite.x25519 receiver source
    DhKem.BoundSender KeyAgreement.standard receiver source enc ∧
      ((enc.supports (.int 0) (.int 33) SecretKey.generic).run ()).result = .ok true ∧
      ∃ e, ((enc.encapsulate (.int 0) (.int 33) SecretKey.generic).run ()).result = .error e ∧
        e.kind = .secretRange ∧ e.text = "invalid secret range [0, 33) for a 32-byte secret" := by
  intro receiver source enc
  refine ⟨DhKem.boundSender _ receiver source (), rfl, .range (.int 0) (.int 33) (.int 32), rfl, rfl, ?_⟩
  decide +kernel

end KeyCapsule
