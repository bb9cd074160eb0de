import KeyCapsule.Proofs.Factory
import KeyCapsule.Proofs.Opening
import KeyCapsule.Proofs.Stream

/-! Orders for sides. Whether an order is met and what its side answers is told by the order, apart from
the bytes that a sender draws. -/
namespace KeyCapsule.Session
variable {σ : Type}

inductive Algorithm
  | dhKem
  | mockKem

structure Order where
  algorithm : Algorithm
  key : KeyValue
  params : ParamsValue

namespace Order

def provider (g : KeyAgreement) (entropy : Source σ) : Algorithm → Provider σ
  | .dhKem => DhKem.provider g entropy
  | .mockKem => MockKem.provider entropy

def Integral (o : Order) : Prop :=
  ∀ p, o.params = .mock p → (∃ n, p.secretSize = .int n) ∧ ∃ n, p.encapsulationSize = .int n

def wanted (o : Order) : Nat :=
  match o.algorithm, o.key, o.params with
  | .dhKem, .publicKey k, _ => (Suite.ofGroup k.group).privateKeySize.toNat
  | .mockKem, _, .mock ⟨_, .int message, _⟩ => (MockKem.nonceSize message).toNat
  | _, _, _ => 0

def newSender (o : Order) (g : KeyAgreement) (entropy : Source σ) (choice : SourceChoice σ) :
    Act σ (Encapsulator σ) :=
  (provider g entropy o.algorithm).newEncapsulator o.key o.params choice

def newReceiver (o : Order) (g : KeyAgreement) (entropy : Source σ) : Act σ (Decapsulator σ) :=
  (provider g entropy o.algorithm).newDecapsulator o.key o.params

def sealedAlone (o : Order) (g : KeyAgreement) (data : Bytes) (start stop label : Datum) :
    Except Fault Encapsulated :=
  (Act.run (do (← o.newSender g (Source.stream data Cell.whole) .absent).encapsulate start stop label)
    0).result

def openedAlone (o : Order) (g : KeyAgreement) (message start stop label : Datum) :
    Except Fault SecretKey :=
  (Act.run (do (← o.newReceiver g ⟨fun _ => pure .none⟩).decapsulate message start stop label)
    ()).result

/-- An order whose senders follow one plan, whatever they draw from. -/
structure Sends (o : Order) (g : KeyAgreement) (plan : Plan)
    (sender : ∀ σ : Type, Source σ → Encapsulator σ) : Prop where
  bound : ∀ (σ : Type) (entropy : Source σ) (choice : SourceChoice σ),
    (o.newSender g entropy choice).Yields
      (choice.resolve entropy >>= fun source => .ok (sender σ source))
  serves : ∀ (σ : Type) (source : Source σ) (start stop label : Datum),
    (sender σ source).encapsulate start stop label = plan.serve source start stop label
  grants : ∀ (σ : Type) (source : Source σ) (start stop label : Datum),
    (sender σ source).grant start stop label = liftM (plan.grant start stop label)
  wanted : plan.wanted = o.wanted
  isWord : Datum.isWord o.wanted = true

/-- An order for a receiver whose answers do not depend on what goes on beside it. -/
structure Receives (o : Order) (g : KeyAgreement) (receiver : ∀ σ : Type, Decapsulator σ) : Prop where
  bound : ∀ (σ : Type) (entropy : Source σ), (o.newReceiver g entropy).Yields (.ok (receiver σ))
  told : ∀ message start stop label,
    Act.Told fun σ => (receiver σ).decapsulate message start stop label

private theorem sends_dhKem (g : KeyAgreement) (k : PublicKey) {params : ParamsValue}
    (hc : DhKem.checkParams (Suite.ofGroup k.group) params = .ok ()) :
    Sends ⟨.dhKem, .publicKey k, params⟩ g (DhKem.plan g (Suite.ofGroup k.group) k)
      fun _ => DhKem.sender g (Suite.ofGroup k.group) k where
  bound σ entropy choice := by
    have h := DhKem.newEncapsulator_yields g DhKem.typeName entropy (.publicKey k) params choice
    simp only [DhKem.ownPublic, ok_bind, hc] at h
    exact h
  serves σ source start stop label := DhKem.sender_serves g _ k source start stop label
  grants σ source start stop label := DhKem.grant_eq _ _ _ _ _
  wanted := by
    have hsize : ∀ g : Group, 0 ≤ (Suite.ofGroup g).privateKeySize := by decide
    exact (Int.toNat_of_nonneg (hsize k.group)).symm
  isWord := by
    have hsize : ∀ g : Group, Datum.isWord (Suite.ofGroup g).privateKeySize.toNat = true := by decide
    exact hsize k.group

private theorem sends_mockKem (g : KeyAgreement) (k : MockKey) {p : MockParameters} {secret message : Int}
    (hp : MockKem.InRange p secret message) :
    Sends ⟨.mockKem, .mock .sender k, .mock p⟩ g (MockKem.plan k p message)
      fun _ => MockKem.sender k p where
  bound σ entropy choice := by
    have h := MockKem.newEncapsulator_yields MockKem.typeName entropy (.mock .sender k) (.mock p) choice
    simp only [MockKem.checkKey, hp.checkParams, ok_bind] at h
    exact h
  serves σ source start stop label := MockKem.sender_serves k hp.encapsulationSize source start stop label
  grants σ source start stop label := MockKem.grant_eq _ _ _ _ _
  wanted := by
    obtain ⟨secretSize, encapsulationSize, allowSlicing⟩ := p
    cases hp.encapsulationSize
    exact (Int.toNat_of_nonneg (MockKem.nonceSize_nonneg hp)).symm
  isWord := by
    obtain ⟨secretSize, encapsulationSize, allowSlicing⟩ := p
    cases hp.encapsulationSize
    have h₀ := MockKem.nonceSize_nonneg hp
    have h₁ := hp.message_le
    have hle : MockKem.nonceSize message ≤ 65519 := by
      simp only [MockKem.nonceSize, MockKem.tagSize]
      omega
    change Datum.isWord ((MockKem.nonceSize message).toNat : Int) = true
    rw [Int.toNat_of_nonneg h₀]
    simp only [Datum.isWord, Bool.and_eq_true, decide_eq_true_eq]
    omega

private theorem bind_fails {α β : Type} (x : Except Fault α) {f : α → Except Fault β}
    (hf : ∀ a, x = .ok a → ∃ e, f a = .error e) : ∃ e, x >>= f = .error e := by
  cases x with
  | error e => exact ⟨e, rfl⟩
  | ok a => exact hf a rfl

private theorem yields_error {α : Type} {x : Act σ α} {r : Except Fault α} (hx : x.Yields r)
    (hr : ∃ e, r = .error e) : ∃ e, x.Yields (.error e) := by
  obtain ⟨e, rfl⟩ := hr
  exact ⟨e, hx⟩

/-- Whether an order for a sender is met is told by the order alone, apart from the source. -/
theorem sends_or_fails (o : Order) (g : KeyAgreement) (hi : o.Integral) :
    (∃ plan sender, o.Sends g plan sender) ∨
      ∀ (σ : Type) (entropy : Source σ) (choice : SourceChoice σ),
        ∃ e, (o.newSender g entropy choice).Yields (.error e) := by
  by_cases hs : ∃ plan sender, o.Sends g plan sender
  · exact .inl hs
  right
  intro σ entropy choice
  obtain ⟨algorithm, key, params⟩ := o
  cases algorithm with
  | dhKem =>
    refine yields_error (DhKem.newEncapsulator_yields g DhKem.typeName entropy key params choice) ?_
    refine bind_fails _ fun _ _ => bind_fails _ fun _ _ => bind_fails _ fun k hk =>
      bind_fails _ fun _ hc => ?_
    cases DhKem.ownPublic_ok hk
    exact absurd ⟨_, _, sends_dhKem g k hc⟩ hs
  | mockKem =>
    refine yields_error (MockKem.newEncapsulator_yields MockKem.typeName entropy key params choice) ?_
    refine bind_fails _ fun _ _ => bind_fails _ fun _ _ => bind_fails _ fun k hk =>
      bind_fails _ fun q hc => ?_
    cases MockKem.checkKey_ok hk
    cases MockKem.eq_mock_of_checkParams hc
    obtain ⟨⟨secret, hsecret⟩, message, hmessage⟩ := hi q rfl
    obtain ⟨-, hp⟩ := MockKem.checkParams_ok hsecret hmessage hc
    exact absurd ⟨_, _, sends_mockKem g k hp⟩ hs

/-- So is whether an order for a receiver is met. -/
theorem receives_or_fails (o : Order) (g : KeyAgreement) :
    (∃ receiver, o.Receives g receiver) ∨
      ∀ (σ : Type) (entropy : Source σ), ∃ e, (o.newReceiver g entropy).Yields (.error e) := by
  by_cases hr : ∃ receiver, o.Receives g receiver
  · exact .inl hr
  right
  intro σ entropy
  obtain ⟨algorithm, key, params⟩ := o
  cases algorithm with
  | dhKem =>
    refine yields_error (DhKem.newDecapsulator_yields g DhKem.typeName entropy key params) ?_
    refine bind_fails _ fun _ _ => bind_fails _ fun k hk => bind_fails _ fun _ hc => ?_
    cases DhKem.ownPrivate_ok hk
    refine absurd ⟨fun _ => DhKem.receiver g (Suite.ofGroup k.group) k, ?_, ?_⟩ hr
    · intro σ entropy
      have h := DhKem.newDecapsulator_yields g DhKem.typeName entropy (.privateKey k) params
      simp only [DhKem.ownPrivate, ok_bind, hc] at h
      exact h
    · exact DhKem.told_receiver g _ k
  | mockKem =>
    refine yields_error (MockKem.newDecapsulator_yields MockKem.typeName entropy key params) ?_
    refine bind_fails _ fun _ _ => bind_fails _ fun k hk => bind_fails _ fun q hc => ?_
    refine absurd ⟨fun _ => MockKem.receiver k q, ?_, ?_⟩ hr
    · intro σ entropy
      have h := MockKem.newDecapsulator_yields MockKem.typeName entropy key params
      cases MockKem.checkKey_ok hk
      simp only [hk, hc, ok_bind] at h
      exact h
    · exact MockKem.told_receiver k q

variable {o : Order} {g : KeyAgreement} {plan : Plan} {sender : ∀ σ : Type, Source σ → Encapsulator σ}
  {start stop label : Datum}

/-- A request that is turned down is turned down by a sender that is alone. -/
theorem Sends.sealedAlone_refused (hs : o.Sends g plan sender) {e : Fault}
    (h : plan.grant start stop label = .error e) (data : Bytes) :
    o.sealedAlone g data start stop label = .error e := by
  obtain ⟨log, hb⟩ := hs.bound Nat (Source.stream data Cell.whole) .absent
  have hb : (o.newSender g (Source.stream data Cell.whole) .absent).run 0 = ⟨.ok (sender Nat _), log, 0⟩ :=
    hb 0
  rw [sealedAlone, Act.run_bind, hb]
  simp only [hs.serves, Plan.run_refused _ _ h, Outcome.result_after]

/-- A granted request is answered alone by what the plan makes of the bytes. -/
theorem Sends.sealedAlone_granted (hs : o.Sends g plan sender) {first last : Datum}
    (h : plan.grant start stop label = .ok (first, last)) {data : Bytes} (hd : data.length = o.wanted) :
    o.sealedAlone g data start stop label = plan.answer data first last label := by
  obtain ⟨log, hb⟩ := hs.bound Nat (Source.stream data Cell.whole) .absent
  have hb : (o.newSender g (Source.stream data Cell.whole) .absent).run 0 = ⟨.ok (sender Nat _), log, 0⟩ :=
    hb 0
  have hread : ((Source.stream data Cell.whole).read (.int plan.wanted)).run 0 = ⟨.ok data, [], o.wanted⟩ := by
    have hr : ((Source.stream data Cell.whole).read (.int o.wanted)).run 0 =
        ⟨.ok ((data.drop 0).take o.wanted), [], 0 + o.wanted⟩ :=
      Source.stream_read hs.isWord (by simp [Cell.whole, hd])
    rw [List.drop_zero, ← hd, List.take_length, Nat.zero_add] at hr
    rw [hs.wanted, ← hd]
    exact hr
  rw [sealedAlone, Act.run_bind, hb]
  simp only [hs.serves, Plan.run_granted _ _ h, hread, Outcome.result_after, ok_bind]

/-- Beside anything else a receiver answers as if it were alone. -/
theorem Receives.yields {receiver : ∀ σ : Type, Decapsulator σ} (hr : o.Receives g receiver)
    (message start stop label : Datum) (σ : Type) :
    ((receiver σ).decapsulate message start stop label).Yields
      (o.openedAlone g message start stop label) := by
  obtain ⟨r, ht⟩ := hr.told message start stop label
  obtain ⟨log, hb⟩ := hr.bound Unit ⟨fun _ => pure .none⟩
  have hb : (o.newReceiver g ⟨fun _ => pure .none⟩).run () = ⟨.ok (receiver Unit), log, ()⟩ := hb ()
  have ha : o.openedAlone g message start stop label = r := by
    rw [openedAlone, Act.run_bind, hb]
    exact (ht Unit).result ()
  rw [ha]
  exact ht σ

end Order
end KeyCapsule.Session
